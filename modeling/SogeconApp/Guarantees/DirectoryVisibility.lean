import Mathlib.Data.String.Basic
import SogeconApp.Source.Directory

/-!
# The directory shows what its viewer may see, and nothing else

Two database states that look the same to a viewer answer every list, count and detail read
of that viewer alike. Within one state the count is the length of the unpaged list, and the
detail read finds exactly the members of the unfiltered list.
-/

namespace SogeconApp.Guarantees.DirectoryVisibility

open Library Source.Posts Source.Directory

/-- What visibility means: the viewer is a member, and the row is the viewer's own, is for
everyone, or is for the viewer's cohort. -/
def Visible (db : Db) (viewer : String) (row : Member) : Prop :=
  row ∈ db.members ∧ ∃ cohort, viewerCohort db.members viewer = some cohort ∧
    (row.studentId = viewer ∨ row.visibility = .all ∨ (row.visibility = .cohort ∧ row.cohort = cohort))

/-- The viewer's row and the rows visible to the viewer are the same in both states. -/
structure LooksSame (viewer : String) (db db' : Db) : Prop where
  cohort : viewerCohort db.members viewer = viewerCohort db'.members viewer
  rows : ∀ row, Visible db viewer row ↔ Visible db' viewer row

/-! ## One state -/

/-- Under three-valued logic the clause selects a row exactly if its visibility says so and the viewer
is a member. -/
theorem holds_viewerClause (members : List Member) (viewer : String) (row : Member) :
    (viewerClause members viewer row).Holds ↔ ∃ cohort, viewerCohort members viewer = some cohort ∧
      (row.studentId = viewer ∨ row.visibility = .all ∨ (row.visibility = .cohort ∧ row.cohort = cohort)) := by
  unfold viewerClause
  cases viewerCohort members viewer with
  | none => simp
  | some cohort => simp

section OneState

variable (rules : DirectoryRules) (db : Db) (filters : MemberListFilters) (viewer : String)

/-- A selected row is a visible row that passes the filters, which read the row alone. -/
theorem mem_selectMembers (row : Member) :
    row ∈ selectMembers rules db filters (some viewer) ↔
      Visible db viewer row ∧ ∀ condition ∈ filterConditions rules.search filters row, condition.Holds := by
  unfold selectMembers Visible
  rw [mem_selectWhere, Truth.holds_all, buildMemberConditions, List.forall_mem_append,
    List.forall_mem_singleton, holds_viewerClause]
  constructor
  · intro selected
    exact ⟨⟨selected.1, selected.2.2⟩, selected.2.1⟩
  · intro visible
    exact ⟨visible.1.1, visible.2, visible.1.2⟩

theorem filterConditions_empty (search : TextSearch) (row : Member) : filterConditions search {} row = [] := rfl

theorem selected_ids_unique : ((selectMembers rules db filters (some viewer)).map Member.id).Nodup :=
  db.idUnique.sublist (List.filter_sublist.map _)

/-- The detail read finds the visible member with the id, and no other. -/
theorem repoGetDirectoryMember_ok (memberId : Int) (row : Member) :
    repoGetDirectoryMember rules db memberId viewer = .ok row ↔ Visible db viewer row ∧ row.id = memberId := by
  have selects (candidate : Member) :
      (Truth.all (.equals (some candidate.id) (some memberId) ::
        buildMemberConditions rules.search db.members {} (some viewer) candidate)).Holds ↔
        candidate.id = memberId ∧ (viewerClause db.members viewer candidate).Holds := by
    simp [buildMemberConditions, filterConditions_empty]
  have found := find_iff_of_key db.idUnique (fun candidate chosen =>
    ((selects candidate).mp (of_decide_eq_true chosen)).1) row
  rw [decide_eq_true_eq, selects, holds_viewerClause] at found
  unfold Visible repoGetDirectoryMember
  dsimp only
  constructor
  · intro read
    split at read
    · rename_i first selected
      cases read
      obtain ⟨member, keyed, clause⟩ := found.mp selected
      exact ⟨⟨member, clause⟩, keyed⟩
    · cases read
  · rintro ⟨⟨member, clause⟩, keyed⟩
    rw [found.mpr ⟨member, keyed, clause⟩]

theorem length_orderedMembers :
    (orderedMembers rules db filters (some viewer)).length = countDirectoryMembers rules db filters viewer := by
  simp [orderedMembers, countDirectoryMembers, countMembers]

/-- A page that is as long as the count holds the whole list. -/
theorem listDirectoryMembers_unpaged {limit : Nat}
    (unpaged : countDirectoryMembers rules db filters viewer ≤ limit) :
    listDirectoryMembers rules db limit 0 filters viewer =
      (orderedMembers rules db filters (some viewer)).map Member.read := by
  unfold listDirectoryMembers listMembers
  rw [page_all]
  rw [length_orderedMembers]
  exact unpaged

/-- A detail can be read exactly of the members that the unfiltered list shows. -/
theorem getDirectoryMember_ok_iff (memberId : Int) :
    (∃ read, getDirectoryMember rules db memberId viewer = .ok read) ↔
      ∃ row ∈ orderedMembers rules db {} (some viewer), row.id = memberId := by
  unfold getDirectoryMember orderedMembers
  simp only [RowOrder.mem_sort, mem_selectMembers]
  constructor
  · rintro ⟨read, found⟩
    cases row : repoGetDirectoryMember rules db memberId viewer with
    | error failure =>
      rw [row] at found
      cases found
    | ok row' =>
      obtain ⟨visible, keyed⟩ := (repoGetDirectoryMember_ok rules db viewer memberId row').mp row
      exact ⟨row', ⟨visible, by simp [filterConditions, whenTruthy]⟩, keyed⟩
  · rintro ⟨row, ⟨visible, -⟩, keyed⟩
    have found := (repoGetDirectoryMember_ok rules db viewer memberId row).mpr ⟨visible, keyed⟩
    exact ⟨row.read, by rw [found]; rfl⟩

/-- A hidden member is refused with the same error as a missing one. -/
theorem repoGetDirectoryMember_error (memberId : Int) (failure : Failure)
    (refused : repoGetDirectoryMember rules db memberId viewer = .error failure) :
    failure = .notFound "member_not_found" := by
  unfold repoGetDirectoryMember at refused
  dsimp only at refused
  split at refused
  · cases refused
  · cases refused
    rfl

end OneState

/-! ## Two states -/

section TwoStates

variable (rules : DirectoryRules) {db db' : Db} {viewer : String} (same : LooksSame viewer db db')

include same

theorem mem_selectMembers_same (filters : MemberListFilters) (row : Member) :
    row ∈ selectMembers rules db filters (some viewer) ↔ row ∈ selectMembers rules db' filters (some viewer) := by
  rw [mem_selectMembers, mem_selectMembers, same.rows row]

/-- The list depends on what the viewer may see only. -/
theorem orderedMembers_same (filters : MemberListFilters) :
    orderedMembers rules db filters (some viewer) = orderedMembers rules db' filters (some viewer) := by
  have unique := selected_ids_unique rules db filters viewer
  apply RowOrder.sort_eq_of_same
  · exact unique.of_map
  · exact (selected_ids_unique rules db' filters viewer).of_map
  · exact mem_selectMembers_same rules same filters
  · exact RowOrder.thenBy_separates (rules.tie_separates _ unique)

theorem countMembers_same (filters : MemberListFilters) :
    countMembers rules db filters (some viewer) = countMembers rules db' filters (some viewer) := by
  have ordered := congrArg List.length (orderedMembers_same rules same filters)
  simpa [orderedMembers, countMembers] using ordered

theorem repoGetDirectoryMember_same (memberId : Int) :
    repoGetDirectoryMember rules db memberId viewer = repoGetDirectoryMember rules db' memberId viewer := by
  cases read : repoGetDirectoryMember rules db memberId viewer with
  | ok row =>
    obtain ⟨visible, keyed⟩ := (repoGetDirectoryMember_ok rules db viewer memberId row).mp read
    exact ((repoGetDirectoryMember_ok rules db' viewer memberId row).mpr
      ⟨(same.rows row).mp visible, keyed⟩).symm
  | error failure =>
    cases read' : repoGetDirectoryMember rules db' memberId viewer with
    | ok row =>
      obtain ⟨visible, keyed⟩ := (repoGetDirectoryMember_ok rules db' viewer memberId row).mp read'
      have found := (repoGetDirectoryMember_ok rules db viewer memberId row).mpr
        ⟨(same.rows row).mpr visible, keyed⟩
      rw [read] at found
      cases found
    | error failure' =>
      rw [repoGetDirectoryMember_error rules db viewer memberId failure read,
        repoGetDirectoryMember_error rules db' viewer memberId failure' read']

end TwoStates

/-- Two states that look the same to the viewer answer alike; in each of them the count is
the length of the unpaged list, and the detail read finds the ids of the unfiltered list. -/
theorem directory_shows_the_visible (rules : DirectoryRules) (viewer : String) (db db' : Db)
    (same : LooksSame viewer db db') :
    (∀ limit offset filters, listDirectoryMembers rules db limit offset filters viewer =
        listDirectoryMembers rules db' limit offset filters viewer) ∧
      (∀ filters, countDirectoryMembers rules db filters viewer =
        countDirectoryMembers rules db' filters viewer) ∧
      (∀ memberId, getDirectoryMember rules db memberId viewer = getDirectoryMember rules db' memberId viewer) ∧
      ∀ state ∈ [db, db'],
        (∀ filters limit, countDirectoryMembers rules state filters viewer ≤ limit →
          (listDirectoryMembers rules state limit 0 filters viewer).length =
            countDirectoryMembers rules state filters viewer) ∧
        ∀ memberId limit, countDirectoryMembers rules state {} viewer ≤ limit →
          ((∃ read, getDirectoryMember rules state memberId viewer = .ok read) ↔
            ∃ read ∈ listDirectoryMembers rules state limit 0 {} viewer, read.id = memberId) := by
  refine ⟨?_, ?_, ?_, ?_⟩
  · intro limit offset filters
    unfold listDirectoryMembers listMembers
    rw [orderedMembers_same rules same filters]
  · intro filters
    exact countMembers_same rules same filters
  · intro memberId
    unfold getDirectoryMember
    rw [repoGetDirectoryMember_same rules same memberId]
  · intro state _
    refine ⟨?_, ?_⟩
    · intro filters limit unpaged
      rw [listDirectoryMembers_unpaged rules state filters viewer unpaged, List.length_map,
        length_orderedMembers]
    · intro memberId limit unpaged
      rw [listDirectoryMembers_unpaged rules state {} viewer unpaged, getDirectoryMember_ok_iff]
      simp [Member.read]

/-! ## A hidden row -/

def byCodePoint : RowOrder String where
  le left right := decide (left ≤ right)
  total left right := by simpa using le_total left right
  trans first second third := by simpa using le_trans

/-- A collation by code point, and ties by id. -/
def plainRules : DirectoryRules where
  search := { ilike := fun value pattern => "%" ++ value ++ "%" = pattern }
  lower text := text
  collation := byCodePoint
  tie := RowOrder.ascending Member.id
  tie_separates _ unique :=
    RowOrder.ascending_separates fun _ member _ member' same => eq_of_key unique member member' same

def memberNamed (id : Int) (studentId : String) (cohort : Int) (visibility : Visibility) : Member :=
  { id, studentId, email := none, name := studentId, cohort, major := none, visibility, phone := none,
    company := none, department := none, jobTitle := none, companyPhone := none, addrPersonal := none,
    addrCompany := none, industry := none, avatarPath := none, updatedAt := 0 }

def withHidden : Db where
  members := [memberNamed 1 "viewer" 1 .private, memberNamed 2 "same" 1 .cohort, memberNamed 3 "other" 2 .cohort]
  idUnique := by decide
  studentIdUnique := by decide

def withoutHidden : Db where
  members := [memberNamed 2 "same" 1 .cohort, memberNamed 1 "viewer" 1 .private]
  idUnique := by decide
  studentIdUnique := by decide

theorem hidden_looks_same : LooksSame "viewer" withHidden withoutHidden where
  cohort := by decide
  rows row := by
    have cohort : viewerCohort withHidden.members "viewer" = some 1 := by decide
    have cohort' : viewerCohort withoutHidden.members "viewer" = some 1 := by decide
    unfold Visible
    rw [cohort, cohort']
    constructor
    · rintro ⟨member, _, seen, visible⟩
      cases seen
      simp only [withHidden, List.mem_cons, List.not_mem_nil, or_false] at member
      rcases member with rfl | rfl | rfl
      · exact ⟨by decide, 1, rfl, visible⟩
      · exact ⟨by decide, 1, rfl, visible⟩
      · exact absurd visible (by decide)
    · rintro ⟨member, _, seen, visible⟩
      cases seen
      simp only [withoutHidden, List.mem_cons, List.not_mem_nil, or_false] at member
      rcases member with rfl | rfl
      · exact ⟨by decide, 1, rfl, visible⟩
      · exact ⟨by decide, 1, rfl, visible⟩

/-- The member of another cohort shows in no read. -/
theorem directory_shows_the_visible_hidden :
    countDirectoryMembers plainRules withHidden {} "viewer" = 2 ∧
      (∀ limit offset, listDirectoryMembers plainRules withHidden limit offset { cohort := some 1 } "viewer" =
        listDirectoryMembers plainRules withoutHidden limit offset { cohort := some 1 } "viewer") ∧
      getDirectoryMember plainRules withHidden 3 "viewer" = .error (.notFound "member_not_found") := by
  obtain ⟨list, count, detail, -⟩ :=
    directory_shows_the_visible plainRules "viewer" withHidden withoutHidden hidden_looks_same
  refine ⟨?_, ?_, ?_⟩
  · rw [count]
    decide
  · intro limit offset
    exact list limit offset _
  · rw [detail]
    rfl

end SogeconApp.Guarantees.DirectoryVisibility
