import SogeconApp.Guarantees.RoleSets
import SogeconApp.Library.Trim
import SogeconApp.Source.RoleEditor

/-!
# The role editor and the server

A draft is trimmed, in lower case, without repetitions and closed under the hierarchy, after any
toggles. The server's normalization leaves such a list alone but for the unknown tokens and `member`, and
the permission checks of the two sides read the same tokens.
-/

namespace SogeconApp.Guarantees.RoleEditor

open Library
open Source.Accounts (TextRules allowedRoleTokens ensureMemberRole)
open Source.Auth (Value normalizeRolesOf)
open Source.RoleSets (SetOrder normalizeAssignableRolesOf serializeRoles applyHierarchy)
open Source.RoleEditor RoleSets

variable {server web : Folding} {text role token : String} {roles : List String}

/-! ## Texts -/

theorem trimBlanks_toList (text : String) : (trimBlanks text).toList = trim isBlank text.toList :=
  String.toList_ofList

theorem lowerLetters_toList (text : String) : (lowerLetters text).toList = text.toList.map Char.toLower :=
  String.toList_ofList

/-- Of a letter in lower case. -/
theorem toLower_printable {char : Char} (printable : isPrintable char = true) :
    isPrintable char.toLower = true ∧ isBlank char.toLower = isBlank char ∧
      char.toLower.toLower = char.toLower := by
  have codes : ∀ code < 127, 32 ≤ code → isPrintable (Char.ofNat code).toLower = true ∧
      isBlank (Char.ofNat code).toLower = isBlank (Char.ofNat code) ∧
        (Char.ofNat code).toLower.toLower = (Char.ofNat code).toLower := by decide +kernel
  have range : 32 ≤ char.toNat ∧ char.toNat ≤ 126 := of_decide_eq_true printable
  have named := codes char.toNat (by omega) range.1
  rwa [Char.ofNat_toNat] at named

/-- A role as the two sides keep it. -/
structure Clean (role : String) : Prop where
  printable : Printable role
  trimmed : trimBlanks role = role
  lowered : lowerLetters role = role
  some : role ≠ ""

/-- To trim a printable text leaves it printable, so both sides trim alike. -/
theorem printable_trimBlanks (printable : Printable text) : Printable (trimBlanks text) := by
  intro char member
  rw [trimBlanks_toList] at member
  exact printable char ((trim_sublist _).subset member)

theorem trimBlanks_trimBlanks (text : String) : trimBlanks (trimBlanks text) = trimBlanks text := by
  rw [← String.toList_inj, trimBlanks_toList, trimBlanks_toList, trim_trim]

/-- A text that is not blank, trimmed and in lower case. -/
theorem clean_of_printable (printable : Printable text) (some : trimBlanks text ≠ "") :
    Clean (lowerLetters (trimBlanks text)) := by
  have letters := printable_trimBlanks printable
  have blanks : trim isBlank ((trimBlanks text).toList.map Char.toLower) =
      (trim isBlank (trimBlanks text).toList).map Char.toLower :=
    trim_map fun letter listed => (toLower_printable (letters letter listed)).2.1
  constructor
  · intro char member
    rw [lowerLetters_toList, List.mem_map] at member
    obtain ⟨letter, listed, rfl⟩ := member
    exact (toLower_printable (letters letter listed)).1
  · rw [← String.toList_inj, trimBlanks_toList, lowerLetters_toList, blanks, ← trimBlanks_toList,
      trimBlanks_trimBlanks]
  · rw [← String.toList_inj, lowerLetters_toList, lowerLetters_toList, List.map_map]
    exact List.map_congr_left fun letter listed => (toLower_printable (letters letter listed)).2.2
  · intro empty
    rw [← String.toList_inj, lowerLetters_toList] at empty
    exact some (String.toList_inj.mp (List.map_eq_nil_iff.mp empty))

theorem known_printable : ∀ token ∈ knownRoleTokens, Printable token := by decide +kernel

theorem known_of_granted : ∀ token ∈ "admin" :: adminPermissionTokens, token ∈ knownRoleTokens := by decide

/-! ## Sets -/

theorem mem_add {tokens : List String} : role ∈ add tokens token ↔ role ∈ tokens ∨ role = token := by
  unfold add
  split
  · next member =>
    constructor
    · exact .inl
    · rintro (listed | rfl)
      · exact listed
      · exact member
  · simp

theorem add_nodup {tokens : List String} (distinct : tokens.Nodup) : (add tokens token).Nodup := by
  unfold add
  split
  · exact distinct
  · next absent =>
    refine List.nodup_append'.mpr ⟨distinct, List.nodup_singleton _, fun other listed same => absent ?_⟩
    rwa [← List.mem_singleton.mp same]

/-- Tokens that are added one by one are all there in the end. -/
theorem mem_addAll {tokens added : List String} :
    role ∈ added.foldl add tokens ↔ role ∈ tokens ∨ role ∈ added := by
  induction added generalizing tokens with
  | nil => simp
  | cons first rest ih => rw [List.foldl_cons, ih, mem_add, List.mem_cons, or_assoc]

theorem addAll_nodup {tokens : List String} (added : List String) (distinct : tokens.Nodup) :
    (added.foldl add tokens).Nodup := by
  induction added generalizing tokens with
  | nil => exact distinct
  | cons first rest ih => exact ih (add_nodup distinct)

theorem addAll_of_subset {tokens added : List String} (present : ∀ token ∈ added, token ∈ tokens) :
    added.foldl add tokens = tokens := by
  induction added with
  | nil => rfl
  | cons first rest ih =>
    rw [List.foldl_cons, add, if_pos (present first List.mem_cons_self)]
    exact ih fun token member => present token (List.mem_cons_of_mem _ member)

theorem deleteAll_of_disjoint {tokens deleted : List String} (absent : ∀ token ∈ deleted, token ∉ tokens) :
    deleted.foldl delete tokens = tokens := by
  induction deleted with
  | nil => rfl
  | cons first rest ih =>
    have kept : delete tokens first = tokens := by
      rw [delete, List.filter_eq_self]
      intro role member
      refine decide_eq_true fun same => absent first List.mem_cons_self ?_
      rwa [← same]
    rw [List.foldl_cons, kept]
    exact ih fun token member => absent token (List.mem_cons_of_mem _ member)

theorem mem_deleteAll {tokens deleted : List String} :
    role ∈ deleted.foldl delete tokens ↔ role ∈ tokens ∧ role ∉ deleted := by
  induction deleted generalizing tokens with
  | nil => simp
  | cons first rest ih =>
    rw [List.foldl_cons, ih, delete, List.mem_filter, List.mem_cons, not_or, and_assoc, decide_eq_true_eq]

/-! ## Drafts -/

/-- The form of a draft. -/
structure Draft (roles : List String) : Prop where
  clean : ∀ role ∈ roles, Clean role
  distinct : roles.Nodup
  superAdmin : "super_admin" ∈ roles → ∀ token ∈ "admin" :: adminPermissionTokens, token ∈ roles
  permission : ∀ token ∈ adminPermissionTokens, token ∈ roles → "admin" ∈ roles

/-- The tokens that a list of roles is made of. -/
def deduped (web : Folding) (roles : List String) : List String :=
  ((roles.filter fun role => web.trim role ≠ "").map fun role => web.lower (web.trim role)).eraseDups

/-- What normalizeRoles says of them. -/
def Closed (tokens : List String) (role : String) : Prop :=
  if "super_admin" ∈ tokens then role ∈ tokens ∨ role ∈ "admin" :: adminPermissionTokens
  else if "admin" ∉ tokens then role ∈ tokens ∧ role ∉ adminPermissionTokens
  else role ∈ tokens

/-- The list that normalizeRoles makes of them. -/
def closing (tokens : List String) : List String :=
  let tokens' :=
    if "super_admin" ∈ tokens then ("admin" :: adminPermissionTokens).foldl add tokens
    else if "admin" ∉ tokens then adminPermissionTokens.foldl delete tokens
    else tokens
  tokens'.foldl add (tokens.filter fun role => role ∈ tokens')

/-- The list that the code makes has the roles that the hierarchy says. -/
theorem mem_closing {tokens : List String} : role ∈ closing tokens ↔ Closed tokens role := by
  unfold closing Closed
  extract_lets tokens'
  have all : role ∈ tokens'.foldl add (tokens.filter fun role => role ∈ tokens') ↔ role ∈ tokens' := by
    rw [mem_addAll, List.mem_filter, decide_eq_true_eq]
    exact ⟨fun listed => listed.elim And.right id, .inr⟩
  rw [all]
  unfold tokens'
  split
  · exact mem_addAll
  · split
    · exact mem_deleteAll
    · exact Iff.rfl

/-- A normalized list is closed, and made of the tokens of the roles. -/
theorem mem_normalizeRoles : role ∈ normalizeRoles web roles ↔ Closed (deduped web roles) role := mem_closing

theorem deduped_clean (web : Folding) (printable : ∀ role ∈ roles, Printable role) :
    ∀ role ∈ deduped web roles, Clean role := by
  intro role member
  rw [deduped, List.mem_eraseDups, List.mem_map] at member
  obtain ⟨other, listed, rfl⟩ := member
  obtain ⟨given, some⟩ := List.mem_filter.mp listed
  have letters := printable other given
  have same := web.trim_printable other letters
  rw [same, decide_eq_true_eq] at some
  rw [same, web.lower_printable _ (printable_trimBlanks letters)]
  exact clean_of_printable letters some

/-- The editor's normalization of printable roles is a draft. -/
theorem normalizeRoles_draft (printable : ∀ role ∈ roles, Printable role) : Draft (normalizeRoles web roles) := by
  have tokens := deduped_clean web printable
  have granted : ∀ token ∈ "admin" :: adminPermissionTokens, Clean token := by
    have known : ∀ token ∈ "admin" :: adminPermissionTokens,
        Printable token ∧ trimBlanks token = token ∧ lowerLetters token = token ∧ token ≠ "" := by decide +kernel
    intro token member
    obtain ⟨letters, trimmed, lowered, some⟩ := known token member
    exact ⟨letters, trimmed, lowered, some⟩
  constructor
  · intro role member
    rw [mem_normalizeRoles, Closed] at member
    split at member
    · exact member.elim (tokens role) (granted role)
    · split at member
      · exact tokens role member.1
      · exact tokens role member
  · exact addAll_nodup _ (List.Nodup.filter _ (eraseDups_nodup _))
  · simp only [mem_normalizeRoles, Closed]
    intro super token member
    split at super
    · next present =>
      rw [if_pos present]
      exact .inr member
    · next absent =>
      split at super
      · exact absurd super.1 absent
      · exact absurd super absent
  · simp only [mem_normalizeRoles, Closed]
    intro token member present
    split at present
    · next super =>
      rw [if_pos super]
      exact .inr List.mem_cons_self
    · next super =>
      rw [if_neg super]
      split at present
      · exact absurd member present.2
      · next admin =>
        rw [if_neg admin]
        exact not_not.mp admin

/-- A toggle of a known role leaves a draft. -/
theorem applyRoleHierarchy_draft (draft : Draft roles) (known : role ∈ knownRoleTokens) (checked : Bool) :
    Draft (applyRoleHierarchy web roles role checked) := by
  apply normalizeRoles_draft
  have kept : ∀ other ∈ roles.filter (· ≠ role), Printable other :=
    fun other member => (draft.clean other (List.mem_filter.mp member).1).printable
  have next : ∀ other ∈ (if checked then roles.filter (· ≠ role) ++ [role] else roles.filter (· ≠ role)),
      Printable other := by
    intro other member
    split at member
    · rcases List.mem_append.mp member with listed | same
      · exact kept other listed
      · rw [List.mem_singleton.mp same]
        exact known_printable role known
    · exact kept other member
  have fewer : ∀ other ∈ (if role = "admin" ∧ checked = false then
        (if checked then roles.filter (· ≠ role) ++ [role] else roles.filter (· ≠ role)).filter
          (· ∉ adminPermissionTokens)
      else if checked then roles.filter (· ≠ role) ++ [role] else roles.filter (· ≠ role)), Printable other := by
    intro other member
    split at member
    · exact next other (List.mem_filter.mp member).1
    · exact next other member
  intro other member
  split at member
  · rcases List.mem_append.mp member with listed | granted
    · exact fewer other listed
    · have token : other ∈ "admin" :: adminPermissionTokens := (List.mem_filter.mp granted).1
      exact known_printable other (known_of_granted other token)
  · exact fewer other member

/-- The drafts that toggles lead to. -/
theorem toggles_draft (draft : Draft roles) {toggles : List (String × Bool)}
    (known : ∀ toggle ∈ toggles, toggle.1 ∈ knownRoleTokens) :
    Draft (toggles.foldl (fun draft toggle => applyRoleHierarchy web draft toggle.1 toggle.2) roles) := by
  induction toggles generalizing roles with
  | nil => exact draft
  | cons first rest ih =>
    exact ih (applyRoleHierarchy_draft draft (known first List.mem_cons_self) first.2)
      fun toggle member => known toggle (List.mem_cons_of_mem _ member)

theorem clean_fixed (folding : Folding) (clean : Clean role) :
    folding.trim role = role ∧ folding.lower role = role :=
  ⟨(folding.trim_printable role clean.printable).trans clean.trimmed,
    (folding.lower_printable role clean.printable).trans clean.lowered⟩

theorem Draft.deduped_eq (draft : Draft roles) : deduped web roles = roles := by
  have kept : (roles.filter fun role => web.trim role ≠ "") = roles := by
    rw [List.filter_eq_self]
    intro role member
    simp [(clean_fixed web (draft.clean role member)).1, (draft.clean role member).some]
  have mapped : (roles.map fun role => web.lower (web.trim role)) = roles := by
    refine (List.map_congr_left fun role member => ?_).trans (List.map_id roles)
    obtain ⟨trimmed, lowered⟩ := clean_fixed web (draft.clean role member)
    rw [trimmed, lowered, id_eq]
  rw [deduped, kept, mapped, eraseDups_of_nodup draft.distinct]

/-- The editor's normalization leaves a draft alone, so that toggleRole does no more than the hierarchy. -/
theorem Draft.normalizeRoles_eq (draft : Draft roles) : normalizeRoles web roles = roles := by
  have closed : closing roles = roles := by
    unfold closing
    extract_lets tokens
    have same : tokens = roles := by
      unfold tokens
      split
      · next super => exact addAll_of_subset (draft.superAdmin super)
      · split
        · next admin =>
          exact deleteAll_of_disjoint fun token member listed => admin (draft.permission token member listed)
        · rfl
    have kept : (roles.filter fun role => role ∈ roles) = roles := by simp
    rw [same, kept, addAll_of_subset fun _ listed => listed]
  have read : normalizeRoles web roles = closing (deduped web roles) := rfl
  rw [read, draft.deduped_eq, closed]

theorem Draft.toggleRole_eq (draft : Draft roles) (role : String) (checked : Bool) :
    toggleRole web roles role checked = applyRoleHierarchy web roles role checked := by
  rw [toggleRole, draft.normalizeRoles_eq]

/-! ## The server -/

/-- What the server stores of a draft. -/
theorem Draft.mem_stored (draft : Draft roles) (order : SetOrder) :
    role ∈ normalizeAssignableRolesOf order server.toTextRules (.list (roles.map .text)) ↔
      role ∈ roles ∧ role ∈ allowedRoleTokens ∨ role = "member" := by
  have read : normalizeRolesOf server.toTextRules (.list (roles.map .text)) = roles := by
    rw [normalizeRolesOf_list]
    refine SessionAuthority.normalizeRoles_of_fixed draft.distinct fun role member => ?_
    obtain ⟨trimmed, lowered⟩ := clean_fixed server (draft.clean role member)
    exact ⟨trimmed, lowered, (draft.clean role member).some⟩
  have granted : ∀ token ∈ "admin" :: adminPermissionTokens, token ∈ allowedRoleTokens := by decide
  have closed : Hierarchical (roles.filter fun role => role ∈ allowedRoleTokens) := by
    have kept {token : String} (member : token ∈ "admin" :: adminPermissionTokens) (listed : token ∈ roles) :
        token ∈ roles.filter fun role => role ∈ allowedRoleTokens :=
      List.mem_filter.mpr ⟨listed, decide_eq_true (granted token member)⟩
    constructor
    · exact fun role member => of_decide_eq_true (List.mem_filter.mp member).2
    · exact draft.distinct.filter _
    · intro super
      have all := draft.superAdmin (List.mem_filter.mp super).1
      exact ⟨kept List.mem_cons_self (all _ List.mem_cons_self),
        fun token member => kept (List.mem_cons_of_mem _ member) (all token (List.mem_cons_of_mem _ member))⟩
    · intro token member listed
      exact kept List.mem_cons_self (draft.permission token member (List.mem_filter.mp listed).1)
  rw [normalizeAssignableRolesOf, read, hierarchy_fixed order closed, ensureMemberRole]
  split
  · next member =>
    constructor
    · intro listed
      exact .inl (by simpa using List.mem_filter.mp listed)
    · rintro (listed | rfl)
      · exact List.mem_filter.mpr (by simpa using listed)
      · exact member
  · rw [List.mem_cons, List.mem_filter, decide_eq_true_eq, or_comm]

/-! ## Permissions -/

/-- Both sides read the same tokens from printable roles. -/
theorem mem_ensureRoles (server web : Folding) (printable : ∀ role ∈ roles, Printable role) :
    role ∈ ensureRoles web roles ↔ role ∈ Source.Accounts.normalizeRoles server.toTextRules roles := by
  have same : ∀ other ∈ roles, web.lower (web.trim other) = server.lower (server.trim other) ∧
      (server.lower (server.trim other) ≠ "" ↔ server.trim other ≠ "") := by
    intro other member
    have letters := printable other member
    have letters' := printable_trimBlanks letters
    rw [web.trim_printable _ letters, web.lower_printable _ letters', server.trim_printable _ letters,
      server.lower_printable _ letters']
    refine ⟨rfl, not_congr ?_⟩
    rw [← String.toList_inj, ← String.toList_inj, lowerLetters_toList]
    exact List.map_eq_nil_iff
  simp only [ensureRoles, Source.Accounts.normalizeRoles, List.mem_eraseDups, List.mem_filter, List.mem_map,
    decide_eq_true_eq, Folding.toTextRules]
  constructor
  · rintro ⟨⟨other, listed, rfl⟩, some⟩
    obtain ⟨equal, filled⟩ := same other listed
    rw [equal] at some ⊢
    exact ⟨other, ⟨listed, decide_eq_true (filled.mp some)⟩, rfl⟩
  · rintro ⟨other, ⟨listed, some⟩, rfl⟩
    obtain ⟨equal, filled⟩ := same other listed
    exact ⟨⟨other, listed, equal⟩, filled.mpr (of_decide_eq_true some)⟩

/-- The profile decides as the tokens do. -/
theorem hasPermissionOf_list (permission : String) (fallback : Bool)
    (listed : permission ∈ Source.Accounts.adminPermissionTokens) (text : TextRules) :
    hasPermissionOf text (.list (roles.map .text)) permission fallback = true ↔
      "super_admin" ∈ Source.Accounts.normalizeRoles text roles ∨
        permission ∈ Source.Accounts.normalizeRoles text roles ∨
          fallback = true ∧ "admin" ∈ Source.Accounts.normalizeRoles text roles := by
  have items : (roles.map Value.text).filterMap Source.Auth.textItem = roles := by
    rw [List.filterMap_map]
    exact List.filterMap_some
  simp only [hasPermissionOf, Source.RoleSets.parseRolesOf, items, Source.Accounts.parseRoles,
    List.mem_filter, listed]
  by_cases super : "super_admin" ∈ Source.Accounts.normalizeRoles text roles
  · simp [super]
  · by_cases admin : "admin" ∈ Source.Accounts.normalizeRoles text roles <;> simp [super, admin]

/-- The web's check reads the tokens as they are closed under the hierarchy. -/
theorem hasPermission_iff (permission : String) (fallback : Bool) :
    hasPermission web roles permission fallback = true ↔
      "super_admin" ∈ ensureRoles web roles ∨ permission ∈ ensureRoles web roles ∨
        fallback = true ∧ "admin" ∈ ensureRoles web roles := by
  simp only [hasPermission]
  by_cases super : "super_admin" ∈ ensureRoles web roles
  · simp [super]
  · by_cases named : permission ∈ ensureRoles web roles <;> simp [super, named]

/-- The two checks give one answer for every permission of the list. -/
theorem permissions_agree (printable : ∀ role ∈ roles, Printable role) {permission : String}
    (listed : permission ∈ adminPermissionTokens) (fallback : Bool) :
    hasPermission web roles permission fallback =
      hasPermissionOf server.toTextRules (.list (roles.map .text)) permission fallback := by
  rw [Bool.eq_iff_iff, hasPermission_iff, hasPermissionOf_list permission fallback listed]
  simp only [mem_ensureRoles server web printable]

/-- The column says what the list says. -/
theorem hasPermissionOf_column (normal : NormalForm roles) (text : TextRules) (permission : String)
    (fallback : Bool) :
    hasPermissionOf text (.text (serializeRoles roles)) permission fallback =
      hasPermissionOf text (.list (roles.map .text)) permission fallback := by
  have column : Source.RoleSets.parseRolesOf text (.text (serializeRoles roles)) =
      Source.RoleSets.parseRolesOf text (.list (roles.map .text)) := by
    have read : Source.Accounts.normalizeRoles text
      (Source.Auth.splitComma [] (serializeRoles roles).toList) = roles :=
      normal.read_back
    have given : Source.Accounts.normalizeRoles text
      ((roles.map Value.text).filterMap Source.Auth.textItem) = roles :=
      (normalizeRolesOf_list roles).trans normal.normalizeRoles_eq
    simp only [Source.RoleSets.parseRolesOf, Source.Accounts.parseRoles, read, given]
  rw [hasPermissionOf, column, hasPermissionOf]

/-- Whatever is toggled, the server stores the known tokens of the draft and `member`, and the web's check of
the stored roles decides as the server's. -/
theorem role_editor_agrees (server web : Folding) (order : SetOrder) {roles : List String}
    (printable : ∀ role ∈ roles, Printable role) {toggles : List (String × Bool)}
    (known : ∀ toggle ∈ toggles, toggle.1 ∈ knownRoleTokens) :
    let draft := toggles.foldl (fun draft toggle => applyRoleHierarchy web draft toggle.1 toggle.2)
      (normalizeRoles web roles)
    let stored := normalizeAssignableRolesOf order server.toTextRules (.list (draft.map .text))
    (∀ role, role ∈ stored ↔ role ∈ draft ∧ role ∈ allowedRoleTokens ∨ role = "member") ∧
      ∀ permission ∈ adminPermissionTokens, ∀ fallback,
        hasPermission web stored permission fallback =
            hasPermissionOf server.toTextRules (.list (stored.map .text)) permission fallback ∧
          hasPermission web stored permission fallback =
            hasPermissionOf server.toTextRules (.text (serializeRoles stored)) permission fallback := by
  intro draft stored
  have kept : Draft draft := toggles_draft (normalizeRoles_draft printable) known
  have normal : NormalForm stored := assignable_normal order _
  have letters : ∀ role ∈ stored, Printable role := fun role member =>
    known_printable role (normal.allowed role member)
  refine ⟨fun role => kept.mem_stored order, fun permission listed fallback => ?_⟩
  have same : hasPermission web stored permission fallback =
      hasPermissionOf server.toTextRules (.list (stored.map .text)) permission fallback :=
    permissions_agree letters listed fallback
  exact ⟨same, same.trans (hasPermissionOf_column normal _ permission fallback).symm⟩

/-- A folding that does to every text what is done to a printable one. -/
def plainFolding : Folding where
  trim := trimBlanks
  lower := lowerLetters
  trim_printable _ _ := rfl
  lower_printable _ _ := rfl

/-- A super_admin with an unknown role, from whom the grades are taken and given again. -/
theorem role_editor_agrees_toggled :
    let draft := [("super_admin", false), ("admin", false), ("admin", true), ("admin_hero", true)].foldl
      (fun draft toggle => applyRoleHierarchy plainFolding draft toggle.1 toggle.2)
      (normalizeRoles plainFolding [" Super_Admin", "alumni,admin", "MEMBER "])
    draft = ["alumni,admin", "member", "admin", "admin_hero"] ∧
      ∀ role, role ∈ normalizeAssignableRolesOf declared plainFolding.toTextRules (.list (draft.map .text)) ↔
        role ∈ draft ∧ role ∈ allowedRoleTokens ∨ role = "member" :=
  ⟨by decide +kernel,
    (role_editor_agrees plainFolding plainFolding declared (by decide +kernel) (by decide +kernel)).1⟩

end SogeconApp.Guarantees.RoleEditor
