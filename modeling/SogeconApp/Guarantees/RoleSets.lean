import SogeconApp.Guarantees.Accounts.LastSuperAdmin
import SogeconApp.Guarantees.LiteralSearch
import SogeconApp.Guarantees.SessionAuthority
import SogeconApp.Library.Separated
import SogeconApp.Source.RoleSets

/-!
# One form of the roles of a member

The roles that can be assigned have one form: tokens of the list, each once, closed under the
hierarchy. The normalization leaves that form alone in whatever order it runs through its sets, and the
stored column reads back as the same list. The predicate that counts the super_admins agrees with the
grade that is parsed from the column.
-/

namespace SogeconApp.Guarantees.RoleSets

open Library
open Source.Accounts (TextRules adminPermissionTokens allowedRoleTokens ensureMemberRole normalizeRoles)
open Source.Auth (Value normalizeRolesOf splitComma)
open Source.RoleSets SessionAuthority

/-- Tokens without repetitions that the hierarchy leaves as they are. -/
structure Hierarchical (roles : List String) : Prop where
  allowed : ∀ role ∈ roles, role ∈ allowedRoleTokens
  distinct : roles.Nodup
  superAdmin : "super_admin" ∈ roles → "admin" ∈ roles ∧ ∀ token ∈ adminPermissionTokens, token ∈ roles
  permission : ∀ token ∈ adminPermissionTokens, token ∈ roles → "admin" ∈ roles

/-- The form of the roles that can be assigned. -/
structure NormalForm (roles : List String) : Prop extends Hierarchical roles where
  member : "member" ∈ roles

variable {text : TextRules}

/-! ## The normalization -/

theorem iterate_nil (order : SetOrder) : order.iterate [] = [] := (order.perm []).eq_nil

/-- With super_admin every permission is added, in the order of the set. -/
theorem hierarchy_super (order : SetOrder) {filtered : List String} (super : "super_admin" ∈ filtered) :
    applyHierarchy order filtered =
      filtered ++ order.iterate (("admin" :: adminPermissionTokens).filter fun token => token ∉ filtered) := by
  unfold applyHierarchy
  rw [if_pos super]
  extract_lets tokens result
  have kept : result = filtered := by
    rw [List.filter_eq_self]
    intro role member
    simp [tokens, member]
  have none_left : (filtered.filter fun token => token ∉ filtered) = [] := by simp
  have added : (tokens.filter fun token => token ∉ filtered) =
      ("admin" :: adminPermissionTokens).filter fun token => token ∉ filtered := by
    rw [List.filter_append, none_left, List.nil_append, List.filter_filter]
    simp only [Bool.and_self]
  rw [kept, added]

/-- Without super_admin nothing is added. -/
theorem hierarchy_fewer (order : SetOrder) {filtered : List String} (admits : String → Bool)
    (chosen : (if "super_admin" ∈ filtered then
        filtered ++ ("admin" :: adminPermissionTokens).filter fun token => token ∉ filtered
      else if "admin" ∉ filtered then filtered.filter fun token => token ∉ adminPermissionTokens
      else filtered) = filtered.filter admits) :
    applyHierarchy order filtered = filtered.filter admits := by
  unfold applyHierarchy
  rw [chosen]
  extract_lets tokens result
  have same : result = filtered.filter admits := by
    refine List.filter_congr fun role member => ?_
    simp [tokens, member]
  have nothing : (tokens.filter fun token => token ∉ tokens) = [] :=
    List.filter_eq_nil_iff.mpr fun token member absent => of_decide_eq_true absent member
  rw [same, nothing, iterate_nil, List.append_nil]

theorem hierarchy_plain (order : SetOrder) {filtered : List String} (super : "super_admin" ∉ filtered)
    (admin : "admin" ∉ filtered) :
    applyHierarchy order filtered = filtered.filter fun token => token ∉ adminPermissionTokens :=
  hierarchy_fewer order _ (by rw [if_neg super, if_pos admin])

theorem hierarchy_admin (order : SetOrder) {filtered : List String} (super : "super_admin" ∉ filtered)
    (admin : "admin" ∈ filtered) : applyHierarchy order filtered = filtered := by
  have all : (filtered.filter fun _ => true) = filtered := List.filter_true filtered
  rw [hierarchy_fewer order (fun _ => true) (by rw [if_neg super, if_neg (not_not.mpr admin), all]), all]

theorem mem_hierarchy_super (order : SetOrder) {filtered : List String} (super : "super_admin" ∈ filtered)
    (role : String) :
    role ∈ applyHierarchy order filtered ↔ role ∈ filtered ∨ role ∈ "admin" :: adminPermissionTokens := by
  rw [hierarchy_super order super, List.mem_append, (order.perm _).mem_iff, List.mem_filter, decide_eq_true_eq]
  constructor
  · intro listed
    exact listed.imp_right And.left
  · intro listed
    by_cases early : role ∈ filtered
    · exact .inl early
    · exact .inr ⟨listed.resolve_left early, early⟩

/-- The hierarchy closes the tokens. -/
theorem hierarchy_closes (order : SetOrder) {filtered : List String} (distinct : filtered.Nodup)
    (allowed : ∀ role ∈ filtered, role ∈ allowedRoleTokens) : Hierarchical (applyHierarchy order filtered) := by
  have granted : ∀ token ∈ "admin" :: adminPermissionTokens, token ∈ allowedRoleTokens := by decide
  by_cases super : "super_admin" ∈ filtered
  · have listed := mem_hierarchy_super order super
    constructor
    · intro role member
      exact ((listed role).mp member).elim (allowed role) (granted role)
    · have fresh : (order.iterate (("admin" :: adminPermissionTokens).filter fun token =>
        token ∉ filtered)).Nodup :=
        (order.perm _).nodup_iff.mpr (List.Nodup.filter _ (by decide))
      rw [hierarchy_super order super]
      refine List.nodup_append'.mpr ⟨distinct, fresh, fun role early late => ?_⟩
      have absent := (List.mem_filter.mp ((order.perm _).mem_iff.mp late)).2
      exact of_decide_eq_true absent early
    · intro _
      exact ⟨(listed _).mpr (.inr List.mem_cons_self),
        fun token member => (listed _).mpr (.inr (List.mem_cons_of_mem _ member))⟩
    · intro _ _ _
      exact (listed _).mpr (.inr List.mem_cons_self)
  · by_cases admin : "admin" ∈ filtered
    · rw [hierarchy_admin order super admin]
      exact ⟨allowed, distinct, fun present => absurd present super, fun _ _ _ => admin⟩
    · rw [hierarchy_plain order super admin]
      constructor
      · intro role member
        exact allowed role (List.mem_filter.mp member).1
      · exact distinct.filter _
      · intro present
        exact absurd (List.mem_filter.mp present).1 super
      · intro token permission present
        exact absurd permission (of_decide_eq_true (List.mem_filter.mp present).2)

/-- Closed tokens stay as they are. -/
theorem hierarchy_fixed (order : SetOrder) {roles : List String} (closed : Hierarchical roles) :
    applyHierarchy order roles = roles := by
  by_cases super : "super_admin" ∈ roles
  · obtain ⟨admin, permissions⟩ := closed.superAdmin super
    have nothing : (("admin" :: adminPermissionTokens).filter fun token => token ∉ roles) = [] := by
      rw [List.filter_eq_nil_iff]
      intro token granted absent
      have present : token ∈ roles := by
        rcases List.mem_cons.mp granted with rfl | permission
        · exact admin
        · exact permissions token permission
      exact of_decide_eq_true absent present
    rw [hierarchy_super order super, nothing, iterate_nil, List.append_nil]
  · by_cases admin : "admin" ∈ roles
    · exact hierarchy_admin order super admin
    · rw [hierarchy_plain order super admin, List.filter_eq_self]
      intro role member
      exact decide_eq_true fun permission => admin (closed.permission role permission member)

/-- With the role of a member a closed list has the normal form. -/
theorem ensureMemberRole_normal {roles : List String} (closed : Hierarchical roles) :
    NormalForm (ensureMemberRole roles) := by
  unfold ensureMemberRole
  split
  · rename_i member
    exact ⟨closed, member⟩
  · rename_i absent
    refine ⟨⟨?_, List.nodup_cons.mpr ⟨absent, closed.distinct⟩, ?_, ?_⟩, List.mem_cons_self⟩
    · intro role listed
      rcases List.mem_cons.mp listed with rfl | listed
      · decide
      · exact closed.allowed role listed
    · intro super
      obtain ⟨admin, permissions⟩ := closed.superAdmin (List.mem_of_ne_of_mem (by decide) super)
      exact ⟨List.mem_cons_of_mem _ admin,
        fun token permission => List.mem_cons_of_mem _ (permissions token permission)⟩
    · intro token permission listed
      have other : token ≠ "member" := by
        rintro rfl
        revert permission
        decide
      exact List.mem_cons_of_mem _ (closed.permission token permission (List.mem_of_ne_of_mem other listed))

theorem normalizeRolesOf_nodup (value : Value) : (normalizeRolesOf text value).Nodup := by
  unfold normalizeRolesOf
  split
  · exact eraseDups_nodup _
  · exact eraseDups_nodup _
  · exact List.nodup_nil

/-- The assignable roles of any value are in normal form. -/
theorem assignable_normal (order : SetOrder) (value : Value) :
    NormalForm (normalizeAssignableRolesOf order text value) := by
  apply ensureMemberRole_normal
  apply hierarchy_closes
  · exact (normalizeRolesOf_nodup value).filter _
  · intro role member
    exact of_decide_eq_true (List.mem_filter.mp member).2

theorem normalizeRolesOf_list (roles : List String) :
    normalizeRolesOf text (.list (roles.map .text)) = normalizeRoles text roles := by
  have items : (roles.map Value.text).filterMap Source.Auth.textItem = roles := by
    rw [List.filterMap_map]
    exact List.filterMap_some
  rw [normalizeRolesOf, items]

/-- The order of the declarations. -/
def declared : SetOrder := ⟨id, fun _ => .refl _⟩

/-- The roles that the account handlers assign are those of one order. -/
theorem accounts_assignable (roles : List String) :
    Source.Accounts.normalizeAssignableRoles text roles =
      normalizeAssignableRolesOf declared text (.list (roles.map .text)) := by
  rw [normalizeAssignableRolesOf, normalizeRolesOf_list, Source.Accounts.normalizeAssignableRoles]
  congr 1
  generalize (normalizeRoles text roles).filter (fun role => role ∈ allowedRoleTokens) = filtered
  by_cases super : "super_admin" ∈ filtered
  · rw [if_pos super, hierarchy_super declared super]
    rfl
  · by_cases admin : "admin" ∈ filtered
    · rw [if_neg super, if_neg (not_not.mpr admin), hierarchy_admin declared super admin]
    · rw [if_neg super, if_pos admin, hierarchy_plain declared super admin]

section Normal

variable {roles : List String} (normal : NormalForm roles)

include normal

theorem NormalForm.normalizeRoles_eq : normalizeRoles text roles = roles := by
  have named : ∀ token ∈ allowedRoleTokens, token ≠ "" := by decide
  apply normalizeRoles_of_fixed normal.distinct
  intro role member
  have token := normal.allowed role member
  exact ⟨text.strip_token role token, text.lower_token role token, named role token⟩

/-- Every order of the sets leaves a normal form alone. -/
theorem NormalForm.fixed (order : SetOrder) :
    normalizeAssignableRolesOf order text (.list (roles.map .text)) = roles := by
  have read : normalizeRolesOf text (.list (roles.map .text)) = roles := by
    rw [normalizeRolesOf_list, normal.normalizeRoles_eq]
  have kept : (roles.filter fun role => role ∈ allowedRoleTokens) = roles := by
    rw [List.filter_eq_self]
    exact fun role member => decide_eq_true (normal.allowed role member)
  rw [normalizeAssignableRolesOf, read, kept, hierarchy_fixed order normal.toHierarchical, ensureMemberRole,
    if_pos normal.member]

end Normal

/-! ## The column -/

theorem splitComma_word (part : List Char) {word : List Char} (plain : ',' ∉ word) :
    splitComma part word = [String.ofList (part.reverse ++ word)] := by
  induction word generalizing part with
  | nil => simp [splitComma]
  | cons char word ih =>
    have other : char ≠ ',' := fun same => plain (same ▸ List.mem_cons_self)
    rw [splitComma, if_neg other, ih _ fun member => plain (List.mem_cons_of_mem _ member)]
    simp

theorem splitComma_comma (part : List Char) {word : List Char} (plain : ',' ∉ word) (rest : List Char) :
    splitComma part (word ++ ',' :: rest) = String.ofList (part.reverse ++ word) :: splitComma [] rest := by
  induction word generalizing part with
  | nil => simp [splitComma]
  | cons char word ih =>
    have other : char ≠ ',' := fun same => plain (same ▸ List.mem_cons_self)
    rw [List.cons_append, splitComma, if_neg other, ih _ fun member => plain (List.mem_cons_of_mem _ member)]
    simp

/-- Words without commas are read back from the joined text. -/
theorem splitComma_intercalate {words : List String} (some : words ≠ [])
    (plain : ∀ word ∈ words, ',' ∉ word.toList) : splitComma [] (",".intercalate words).toList = words := by
  induction words with
  | nil => exact absurd rfl some
  | cons word words ih =>
    have head := plain word List.mem_cons_self
    cases words with
    | nil =>
      rw [String.intercalate_singleton, splitComma_word [] head]
      simp
    | cons next words =>
      have tail := ih (List.cons_ne_nil _ _) fun other member => plain other (List.mem_cons_of_mem _ member)
      have joined : (",".intercalate (word :: next :: words)).toList =
          word.toList ++ ',' :: (",".intercalate (next :: words)).toList := by
        rw [String.intercalate_cons_cons, String.toList_append, String.toList_append, List.append_assoc]
        rfl
      rw [joined, splitComma_comma [] head, tail]
      simp

/-- The pattern that counts a role is the role between two commas, escaped. -/
theorem escape_role (role : String) :
    ("%," ++ Source.Posts.escapeLike role ++ ",%").toList =
      '%' :: Like.escape (',' :: role.toList ++ [',']) ++ ['%'] := by
  rw [String.toList_append, String.toList_append, LiteralSearch.escapeLike_toList]
  simp [Like.escape, Like.specials]

/-- The predicate finds a role in a column of comma-free roles exactly when it is one of them. -/
theorem countsRole_iff {roles : List String} {role : String} (some : roles ≠ [])
    (plains : ∀ other ∈ roles, ',' ∉ other.toList) (plain : ',' ∉ role.toList) :
    countsRole (",".intercalate roles) role = true ↔ role ∈ roles := by
  have words : (rolesWithBoundaries (",".intercalate roles)).toList =
      ',' :: closed ',' (roles.map String.toList) := by
    rw [rolesWithBoundaries, String.toList_append, String.toList_append, String.toList_intercalate,
      List.append_assoc]
    exact congrArg (',' :: ·) (intercalate_closed (by simpa using some))
  have found : role.toList ∈ roles.map String.toList ↔ role ∈ roles :=
    List.mem_map_of_injective fun _ _ same => String.toList_inj.mp same
  rw [countsRole, decide_eq_true_eq, escape_role, words, Like.like_escape, infix_closed_iff plain, found]
  intro word member
  obtain ⟨other, listed, rfl⟩ := List.mem_map.mp member
  exact plains other listed

section Column

variable {roles : List String} (normal : NormalForm roles)

include normal

theorem NormalForm.plain : ∀ role ∈ roles, ',' ∉ role.toList := by
  have tokens : ∀ token ∈ allowedRoleTokens, ',' ∉ token.toList := by decide
  exact fun role member => tokens role (normal.allowed role member)

theorem NormalForm.serialized : serializeRoles roles = ",".intercalate roles := by
  rw [serializeRoles, Source.Accounts.serializeRoles, eraseDups_of_nodup normal.distinct]

/-- The column reads back as the same roles. -/
theorem NormalForm.read_back : normalizeRolesOf text (.text (serializeRoles roles)) = roles := by
  have some := List.ne_nil_of_mem normal.member
  rw [normalizeRolesOf, normal.serialized, splitComma_intercalate some normal.plain, normal.normalizeRoles_eq]

/-- The count of super_admins and the parsed grade agree. -/
theorem NormalForm.counts_iff_grade :
    countsRole (serializeRoles roles) "super_admin" = true ↔
      (parseRolesOf text (.text (serializeRoles roles))).grade = .superAdmin := by
  have some := List.ne_nil_of_mem normal.member
  have read : normalizeRoles text (splitComma [] (serializeRoles roles).toList) = roles := normal.read_back
  rw [parseRolesOf, LastSuperAdmin.grade_superAdmin_iff, read, normal.serialized,
    countsRole_iff some normal.plain (by decide)]

end Column

/-- The assignable roles of any value have one form, which the normalization, the column and the count
of super_admins agree on. -/
theorem assignable_roles_agree (order : SetOrder) (text : TextRules) (value : Value) :
    let roles := normalizeAssignableRolesOf order text value
    NormalForm roles ∧
      (∀ again : SetOrder, normalizeAssignableRolesOf again text (.list (roles.map .text)) = roles) ∧
      normalizeRolesOf text (.text (serializeRoles roles)) = roles ∧
      (countsRole (serializeRoles roles) "super_admin" = true ↔
        (parseRolesOf text (.text (serializeRoles roles))).grade = .superAdmin) := by
  intro roles
  have normal : NormalForm roles := assignable_normal order value
  exact ⟨normal, normal.fixed, normal.read_back, normal.counts_iff_grade⟩

end SogeconApp.Guarantees.RoleSets
