import SogeconApp.Guarantees.Accounts.Alone
import SogeconApp.Guarantees.Accounts.LastSuperAdmin

/-!
# The guard of the last super_admin

A role change is guarded by the grade of the target and by the number of active members whose roles
column has the token `super_admin`; whether the target itself is active is not asked, as it is before
a change of the status. The guard refuses what would leave no active super_admin and nothing else,
except where a super_admin who is not active is demoted beside the only one that is counted.
-/

namespace SogeconApp.Guarantees.SuperAdminGuard

open Library Program Source.Accounts
open AccountsAlone LastSuperAdmin

/-! ## What the guard is for -/

/-- An active member whose roles make a super_admin. -/
def IsActiveSuperAdmin (text : TextRules) (row : Member) : Prop :=
  row.status = .active ∧ (parseRoles text row.roles).grade = .superAdmin

instance (text : TextRules) (row : Member) : Decidable (IsActiveSuperAdmin text row) :=
  inferInstanceAs (Decidable (_ ∧ _))

/-- An active super_admin beside the member. -/
def AnotherRemains (text : TextRules) (world : World) (studentId : String) : Prop :=
  ∃ other row, other ≠ studentId ∧ world.members.committed other = some row ∧
    IsActiveSuperAdmin text row

/-- With the row of the member changed there is no active super_admin. -/
def LeavesNone (text : TextRules) (world : World) (studentId : String) (latest : Member) : Prop :=
  ¬AnotherRemains text world studentId ∧ ¬IsActiveSuperAdmin text latest

/-- Two active members have the token `super_admin` in the roles column. -/
def TwoListed (world : World) : Prop :=
  ∃ first second row row', first ≠ second ∧ world.members.committed first = some row ∧
    world.members.committed second = some row' ∧ isSuperAdmin row = true ∧ isSuperAdmin row' = true

/-- The row after a change of the roles. -/
def withRoles (text : TextRules) (member : Member) (roles : List String) : Member :=
  { member with roles := serializeRoles (normalizeAssignableRoles text roles) }

/-- The row after a change of the status. A status that is set to null cannot be stored. -/
def withStatus (member : Member) (payload : AdminMemberUpdate) : Member :=
  { member with status := payload.status.join.getD member.status }

def forbidden : Failure := .api "last_super_admin_forbidden"

/-- Where a super_admin is removed beside another one that is active, two are counted. -/
def Counted (text : TextRules) (world : World) (studentId : String) (removes : Bool) : Prop :=
  removes = true → AnotherRemains text world studentId → TwoListed world

/-- The guard refuses a change if and only if the change would leave no active super_admin, and a
refused change changes no row. -/
structure Exact (text : TextRules) (world : World) (studentId : String) (latest : Member)
    (out : Except Failure Unit) (after : World) : Prop where
  refuses : out = .error forbidden ↔ LeavesNone text world studentId latest
  unchanged : out = .error forbidden → ∀ other,
    after.members.committed other = world.members.committed other

/-! ## Roles -/

theorem mem_ensureMemberRole {roles : List String} {role : String}
    (listed : role ∈ ensureMemberRole roles) : role = "member" ∨ role ∈ roles := by
  unfold ensureMemberRole at listed
  split at listed
  · exact .inr listed
  · exact List.mem_cons.mp listed

/-- Assignable roles are tokens. -/
theorem assignable_token {text : TextRules} {roles : List String} {role : String}
    (assigned : role ∈ normalizeAssignableRoles text roles) : role ∈ allowedRoleTokens := by
  have added : ∀ token ∈ "admin" :: adminPermissionTokens, token ∈ allowedRoleTokens := by decide
  unfold normalizeAssignableRoles at assigned
  extract_lets filtered at assigned
  have kept : ∀ token ∈ filtered, token ∈ allowedRoleTokens := by
    intro token listed
    simpa using (List.mem_filter.mp listed).2
  rcases mem_ensureMemberRole assigned with rfl | listed
  · decide
  · split at listed
    · rcases List.mem_append.mp listed with early | late
      · exact kept role early
      · exact added role (List.mem_filter.mp late).1
    · split at listed
      · exact kept role (List.mem_filter.mp listed).1
      · exact kept role listed

/-- The new roles make a super_admin if the token is one of them. -/
theorem grade_withRoles (text : TextRules) (member : Member) (roles : List String) :
    (parseRoles text (withRoles text member roles).roles).grade = .superAdmin ↔
      "super_admin" ∈ normalizeAssignableRoles text roles := by
  constructor
  · intro grade
    have token := (grade_superAdmin_iff text _).mp grade
    simp only [normalizeRoles, List.mem_eraseDups, List.mem_map, List.mem_filter] at token
    obtain ⟨part, ⟨listed, -⟩, same⟩ := token
    have assigned : part ∈ normalizeAssignableRoles text roles := by
      simpa [withRoles, serializeRoles] using listed
    have known := assignable_token assigned
    rw [text.strip_token part known, text.lower_token part known] at same
    rw [← same]
    exact assigned
  · intro assigned
    apply super_admin_grade
    simpa [withRoles, serializeRoles] using assigned

/-- Who is listed in the roles column is a super_admin. -/
theorem listed_active {text : TextRules} {row : Member} (listed : isSuperAdmin row = true) :
    IsActiveSuperAdmin text row := by
  simp only [isSuperAdmin, isActiveWithRole, decide_eq_true_eq] at listed
  exact ⟨listed.1, super_admin_grade text listed.2⟩

/-- The number that the guard compares. -/
theorem two_listed_iff (world : World) : 2 ≤ activeSuperAdmins world ↔ TwoListed world := by
  have accepts (studentId : String) :
      Table.accepts (fun _ row => isSuperAdmin row) studentId (world.members.committed studentId) = true ↔
        ∃ row, world.members.committed studentId = some row ∧ isSuperAdmin row = true := by
    rw [accepts_eq_any, Option.any_eq_true]
  constructor
  · intro two
    obtain ⟨first, second, different, counted, counted'⟩ := Table.exists_of_two_le_countCommitted two
    obtain ⟨row, found, listed⟩ := (accepts first).mp counted
    obtain ⟨row', found', listed'⟩ := (accepts second).mp counted'
    exact ⟨first, second, row, row', different, found, found', listed, listed'⟩
  · rintro ⟨first, second, row, row', different, found, found', listed, listed'⟩
    exact Table.two_le_countCommitted different ((accepts first).mpr ⟨row, found, listed⟩)
      ((accepts second).mpr ⟨row', found', listed'⟩)

/-- A guard that asks for two who are listed, where the change removes a super_admin. -/
theorem leavesNone_iff_guarded {text : TextRules} {world : World} {studentId : String}
    {member latest : Member} {removes : Bool}
    (found : world.members.committed studentId = some member)
    (one : ∃ other row, world.members.committed other = some row ∧ IsActiveSuperAdmin text row)
    (removed : removes = true → ¬IsActiveSuperAdmin text latest)
    (noticed : IsActiveSuperAdmin text member → ¬IsActiveSuperAdmin text latest → removes = true) :
    ((removes = true ∧ activeSuperAdmins world ≤ 1) ↔ LeavesNone text world studentId latest) ↔
      Counted text world studentId removes := by
  have few : activeSuperAdmins world ≤ 1 ↔ ¬TwoListed world := by
    rw [← two_listed_iff]
    omega
  rw [few]
  constructor
  · intro exactly removing another
    by_contra alone
    exact (exactly.mp ⟨removing, alone⟩).1 another
  · intro counted
    constructor
    · rintro ⟨removing, alone⟩
      exact ⟨fun another => alone (counted removing another), removed removing⟩
    · rintro ⟨nobody, gone⟩
      obtain ⟨other, row, stored, active⟩ := one
      -- Nobody else is one, so it is the member.
      have same : other = studentId := by
        by_contra different
        exact nobody ⟨other, row, different, stored, active⟩
      rw [same, found, Option.some.injEq] at stored
      rw [← stored] at active
      refine ⟨noticed active gone, ?_⟩
      rintro ⟨first, second, row, row', different, found, found', listed, listed'⟩
      by_cases mine : first = studentId
      · exact nobody ⟨second, row', fun same => different (mine.trans same.symm), found',
          listed_active listed'⟩
      · exact nobody ⟨first, row, mine, found, listed_active listed⟩

/-! ## The handlers -/

section Handlers

variable {α : Type} {me : SessionId} {world : World} {text : TextRules} {studentId : String}
  {member : Member}

theorem storeMember_not_api {members : Table String Member} {reason : Failure} {after : World}
    (done : storeMember me studentId members world = some (.error reason, after)) (code : String) :
    reason ≠ .api code := by
  obtain ⟨clash, -, stored⟩ := Option.bind_eq_some_iff.mp done
  cases clash <;> cases stored
  exact nofun

/-- The error of the guard is none that a statement raises. -/
theorem answer_not_api {stmt : Stmt} {choice : Choice} {reason : Failure} {after : World}
    (done : Source.Accounts.answer me stmt choice world = some (.error reason, after))
    (code : String) : reason ≠ .api code := by
  cases stmt with
  | now | getMember _ | emailTaken _ _ | phoneTaken _ _ | countActiveMembersWithRole _
  | pendingByStudentId _ | getSignupRequest _ | insertIssueLog _ | getAuth _ | refresh | commit
  | rollback => cases done
  | advisoryLock =>
    simp only [Source.Accounts.answer] at done
    split at done
    · split at done <;> cases done
    · cases done
  | insertMember studentId row =>
    obtain ⟨⟨fresh, members⟩, -, stored⟩ := Option.bind_eq_some_iff.mp done
    cases fresh with
    | true => exact storeMember_not_api stored code
    | false =>
      cases stored
      simp
  | flushMember studentId loaded latest =>
    obtain ⟨⟨found, members⟩, -, stored⟩ := Option.bind_eq_some_iff.mp done
    cases found with
    | true => exact storeMember_not_api stored code
    | false =>
      cases stored
      simp
  | insertSignupRequest row =>
    obtain ⟨clash, -, stored⟩ := Option.bind_eq_some_iff.mp done
    cases clash <;> cases stored
    simp
  | flushSignupRequest id loaded latest =>
    obtain ⟨⟨found, requests⟩, -, stored⟩ := Option.bind_eq_some_iff.mp done
    cases found <;> cases stored
    simp
  | insertAuth through studentId row =>
    obtain ⟨⟨fresh, auths⟩, -, stored⟩ := Option.bind_eq_some_iff.mp done
    cases fresh <;> cases stored
    simp
  | updateAuth through studentId passwordHash =>
    obtain ⟨⟨found, auths⟩, -, stored⟩ := Option.bind_eq_some_iff.mp done
    cases found <;> cases stored
    simp

/-- The program does not raise the error of the guard. -/
abbrev Spares (me : SessionId) (program : Handler α) (world : World) : Prop :=
  Ensures (machine.replies me Works) (fun _ _ => True) (fun reason _ => reason ≠ forbidden) program world

theorem spares_ask {stmt : Stmt} {next : Reply stmt → Handler α}
    (rest : ∀ answer after, Spares me (next answer) after) : Spares me (ask stmt >>= next) world :=
  ensures_ask (fun _ answer after _ => rest answer after) fun _ _ _ done => answer_not_api done _

theorem spares_issue (stmt : Stmt) : Spares me (ask stmt) world := by
  refine (ensures_issue world).mpr ⟨trivial, fun _ _ _ => trivial, fun reason after raised => ?_⟩
  obtain ⟨choice, done⟩ := replied raised
  exact answer_not_api done _

theorem saveMember_spares (loaded latest : Member) : Spares me (saveMember studentId loaded latest) world := by
  unfold saveMember
  split
  · exact trivial
  · exact spares_issue _

theorem repoUpdateMemberRoles_spares (roles : List String) :
    Spares me (repoUpdateMemberRoles studentId member roles) world := by
  unfold repoUpdateMemberRoles Spares
  rw [bind_eq, ensures_bind]
  refine (saveMember_spares member _).weaken (fun _ _ _ => ?_) fun _ _ spared => spared
  exact spares_ask fun _ _ => spares_issue _

theorem ensureEmailFree_spares (payload : AdminMemberUpdate) :
    Spares me (ensureEmailFree studentId payload) world := by
  unfold ensureEmailFree
  split
  · refine spares_ask fun taken _ => ?_
    cases taken with
    | true => exact nofun
    | false => exact trivial
  · exact trivial

theorem ensurePhoneFree_spares (payload : AdminMemberUpdate) :
    Spares me (ensurePhoneFree studentId payload) world := by
  unfold ensurePhoneFree
  split
  · refine spares_ask fun taken _ => ?_
    cases taken with
    | true => exact nofun
    | false => exact trivial
  · exact trivial

/-- A conflict becomes an error of its column or is raised again as it is, and neither is the guard's.
-/
theorem memberConflict_spares {reason : Failure} (spared : reason ≠ forbidden) :
    Spares me (memberConflict reason) world := by
  unfold memberConflict
  split
  · exact spares_ask fun _ _ => nofun
  · exact spares_ask fun _ _ => nofun
  · exact spares_ask fun _ _ => nofun
  · exact spares_ask fun _ _ => nofun
  · exact spares_ask fun _ _ => nofun
  · exact spared

theorem repoUpdateMemberProfileAdmin_spares (updates : AdminMemberUpdate) :
    Spares me ((repoUpdateMemberProfileAdmin studentId member updates).catchWith memberConflict)
      world := by
  unfold Spares
  rw [ensures_catchWith]
  unfold repoUpdateMemberProfileAdmin
  split
  · next latest applied =>
    rw [bind_eq, ensures_bind]
    refine (saveMember_spares member latest).weaken (fun _ after _ => ?_)
      fun _ after spared => memberConflict_spares spared
    have rest : Spares me (do ask .commit; ask .refresh) after :=
      spares_ask fun _ _ => spares_issue _
    exact rest.weaken (fun _ _ _ => trivial) fun _ _ spared => memberConflict_spares spared
  · exact memberConflict_spares (by decide)

/-- How a request ends that refuses where the guard says so. -/
def Refuses (guard : Prop) (world : World) (reason : Failure) (after : World) : Prop :=
  (reason = forbidden ∧ guard ∧ ∀ other, after.members.committed other = world.members.committed other) ∨
    reason ≠ forbidden ∧ ¬guard

theorem Spares.refuses {guard : Prop} {program : Handler α} {after : World}
    (spares : Spares me program after) (passed : ¬guard) :
    Ensures (machine.replies me Works) (fun _ _ => ¬guard) (Refuses guard world) program after :=
  spares.weaken (fun _ _ _ => passed) fun _ _ spared => .inr ⟨spared, passed⟩

/-- The guard counts under the lock, and the rest runs if two are counted. -/
theorem ensureNotLastSuperAdmin_refuses {next : Unit → Handler α} {guard : Prop}
    (resting : Resting world) (few : guard ↔ activeSuperAdmins world ≤ 1)
    (spares : ∀ after, Spares me (next ()) after) :
    Ensures (machine.replies me Works) (fun _ _ => ¬guard) (Refuses guard world)
      (ensureNotLastSuperAdmin "last_super_admin_forbidden" >>= next) world := by
  let locked : World := { world with advisory := some me }
  have counted : (locked.members.select me fun _ row => isActiveWithRole "super_admin" row).length =
      activeSuperAdmins world := by
    refine Table.length_select (fun key version drafted => ?_) _
    have quiet : (locked.members.slot key).draft = none := resting.members key
    rw [quiet] at drafted
    cases drafted
  have guards : Ensures (machine.replies me Works) (fun _ _ => ¬guard) (Refuses guard world)
      (ensureNotLastSuperAdmin "last_super_admin_forbidden") world := by
    unfold ensureNotLastSuperAdmin countActiveSuperAdmins
    rw [bind_eq, ensures_bind]
    have locks : ∀ choice, Source.Accounts.answer me .advisoryLock choice world =
        some (.ok (), locked) := by
      intro choice
      simp only [Source.Accounts.answer, resting.advisory, locked]
    refine ensures_known (fun _ => ()) (fun _ => locked) locks fun _ => ?_
    refine (ensures_issue locked).mpr ⟨trivial, fun answer after moved => ?_, fun _ _ moved => ?_⟩
    · obtain ⟨choice, done⟩ := replied moved
      cases done
      rw [counted]
      split
      · next one => exact .inl ⟨rfl, few.mpr one, fun _ => rfl⟩
      · next two => exact fun one => two (few.mp one)
    · obtain ⟨choice, done⟩ := replied moved
      cases done
  rw [bind_eq, ensures_bind]
  exact guards.weaken (fun _ after passed => (spares after).refuses passed) fun _ _ refused => refused

theorem repoGetMember_known {next : Member → Handler α} {Q : α → World → Prop}
    {E : Failure → World → Prop} (resting : Resting world)
    (found : world.members.committed studentId = some member)
    (then_ : Ensures (machine.replies me Works) Q E (next member) world) :
    Ensures (machine.replies me Works) Q E (repoGetMember studentId >>= next) world := by
  have reads : Ensures (machine.replies me Works) (fun value after => value = member ∧ after = world)
      E (repoGetMember studentId) world := by
    refine ensures_read (some member) (fun _ => ?_) ⟨rfl, rfl⟩
    simp only [Source.Accounts.answer, resting.members.row_eq, found]
  rw [bind_eq, ensures_bind]
  refine reads.weaken ?_ fun _ _ raised => raised
  rintro _ _ ⟨rfl, rfl⟩
  exact then_

/-- A role change of somebody else is refused exactly where a super_admin would be demoted and at most
one is counted. -/
theorem updateMemberRoles_refuses {actorStudentId : String} (roles : List String)
    (resting : Resting world) (found : world.members.committed studentId = some member)
    (other : actorStudentId ≠ studentId) :
    let guard := demotes text member (normalizeAssignableRoles text roles) = true ∧
      activeSuperAdmins world ≤ 1
    Ensures (machine.replies me Works) (fun _ _ => ¬guard) (Refuses guard world)
      (updateMemberRoles text studentId actorStudentId roles) world := by
  intro guard
  refine repoGetMember_known resting found ?_
  simp only [Ne.symm other, false_and, if_false]
  by_cases removing : demotes text member (normalizeAssignableRoles text roles) = true
  · rw [if_pos removing]
    refine ensureNotLastSuperAdmin_refuses resting ?_ fun _ => repoUpdateMemberRoles_spares _
    simp only [guard, removing, true_and]
  · rw [if_neg removing]
    exact (repoUpdateMemberRoles_spares _).refuses fun refused => removing refused.1

/-- A change of the profile is refused exactly where an active super_admin would be deactivated and at
most one is counted. -/
theorem updateMemberProfileAdmin_refuses (payload : AdminMemberUpdate)
    (resting : Resting world) (found : world.members.committed studentId = some member) :
    let guard := deactivatesSuperAdmin text member payload.status = true ∧
      activeSuperAdmins world ≤ 1
    Ensures (machine.replies me Works) (fun _ _ => ¬guard) (Refuses guard world)
      (updateMemberProfileAdmin text studentId payload) world := by
  intro guard
  refine repoGetMember_known resting found ?_
  have rest (after : World) : Spares me (do
      ensureEmailFree studentId (sanitize text payload)
      ensurePhoneFree studentId (sanitize text payload)
      (repoUpdateMemberProfileAdmin studentId member (sanitize text payload)).catchWith
        memberConflict) after := by
    unfold Spares
    rw [bind_eq, ensures_bind]
    refine (ensureEmailFree_spares _).weaken (fun _ _ _ => ?_) fun _ _ spared => spared
    rw [bind_eq, ensures_bind]
    refine (ensurePhoneFree_spares _).weaken (fun _ _ _ => ?_) fun _ _ spared => spared
    exact repoUpdateMemberProfileAdmin_spares _
  by_cases removing : deactivatesSuperAdmin text member payload.status = true
  · rw [if_neg (fun unset => by simp [unset, deactivatesSuperAdmin] at removing),
      ensureNotDeactivatingLastSuperAdmin, if_pos removing]
    refine ensureNotLastSuperAdmin_refuses resting ?_ fun after => rest after
    simp only [guard, removing, true_and]
  · have passed : ¬guard := fun refused => removing refused.1
    split
    · exact passed
    · rw [ensureNotDeactivatingLastSuperAdmin, if_neg removing]
      exact (rest world).refuses passed

end Handlers

/-- A request that refuses where the guard says so, run to its end. -/
theorem exact_of_refuses {text : TextRules} {me : SessionId} {world : World} {studentId : String}
    {latest : Member} {guard cond : Prop} {program : Handler Unit} {choices : Nat → Choice}
    (works : ∀ n, Works (choices n)) (resting : Resting world)
    (refuses : Ensures (machine.replies me Works) (fun _ _ => ¬guard) (Refuses guard world) program world)
    (exactly : (guard ↔ LeavesNone text world studentId latest) ↔ cond) :
    ∃ out after, machine.eval me program choices world = some (out, after) ∧
      (Exact text world studentId latest out (machine.close me after) ↔ cond) := by
  obtain ⟨out, after, done, -⟩ := (resting.solo me).ends program choices
  have known := Machine.eval_ensured refuses works done
  have refused : (out = .error forbidden ↔ guard) ∧ (out = .error forbidden →
      ∀ other, (machine.close me after).members.committed other = world.members.committed other) := by
    cases out with
    | ok value => exact ⟨iff_of_false nofun (known.1 value rfl), nofun⟩
    | error reason =>
      rcases known.2 reason rfl with ⟨rfl, guarded, same⟩ | ⟨different, passed⟩
      · exact ⟨iff_of_true rfl guarded, fun _ other => Table.abort_committed.trans (same other)⟩
      · have apart : (Except.error reason : Except Failure Unit) ≠ .error forbidden := by
          simpa using different
        exact ⟨iff_of_false apart passed, fun same => absurd same apart⟩
  refine ⟨out, after, done, ?_⟩
  rw [← exactly, ← refused.1]
  exact ⟨fun exact_ => exact_.refuses, fun refuses => ⟨refuses, refused.2⟩⟩

/-- For every target, every other actor and every list of roles or change of the status, in every
state with an active super_admin: the request is refused if and only if the change would leave none,
and then changes no row, if and only if, where it removes a super_admin beside another one that is
active, two active members have the token in the roles column. -/
theorem last_super_admin_guard_iff (text : TextRules) (world : World) (studentId : String)
    (member : Member) (me : SessionId) (choices : Nat → Choice) (works : ∀ n, Works (choices n))
    (resting : Resting world) (found : world.members.committed studentId = some member)
    (one : ∃ other row, world.members.committed other = some row ∧ IsActiveSuperAdmin text row) :
    (∀ actorStudentId roles, actorStudentId ≠ studentId →
      ∃ out after, machine.eval me (updateMemberRoles text studentId actorStudentId roles) choices
          world = some (out, after) ∧
        (Exact text world studentId (withRoles text member roles) out (machine.close me after) ↔
          Counted text world studentId (demotes text member (normalizeAssignableRoles text roles)))) ∧
    ∀ payload,
      ∃ out after, machine.eval me (updateMemberProfileAdmin text studentId payload) choices
          world = some (out, after) ∧
        (Exact text world studentId (withStatus member payload) out (machine.close me after) ↔
          Counted text world studentId (deactivatesSuperAdmin text member payload.status)) := by
  constructor
  · intro actorStudentId roles other
    refine exact_of_refuses works resting (updateMemberRoles_refuses roles resting found other)
      (leavesNone_iff_guarded found one ?_ ?_)
    · intro removing active
      have grade := (grade_withRoles text member roles).mp active.2
      simp only [demotes, decide_eq_true_eq] at removing
      exact removing.2 grade
    · intro active gone
      have absent : "super_admin" ∉ normalizeAssignableRoles text roles := fun assigned =>
        gone ⟨active.1, (grade_withRoles text member roles).mpr assigned⟩
      simp [demotes, active.2, absent]
  · intro payload
    refine exact_of_refuses works resting (updateMemberProfileAdmin_refuses payload resting found)
      (leavesNone_iff_guarded found one ?_ ?_)
    · intro removing active
      have kept := active.1
      unfold deactivatesSuperAdmin at removing
      split at removing
      · next status set =>
        simp only [withStatus, set, Option.join_some, Option.getD_some] at kept
        simp [kept] at removing
      · cases removing
    · intro active gone
      have changed : payload.status.join.getD member.status ≠ .active := fun same => gone ⟨same, active.2⟩
      cases set : payload.status with
      | none => simp [set, active.1] at changed
      | some status =>
        cases status with
        | none => simp [set, active.1] at changed
        | some status =>
          simp only [set, Option.join_some, Option.getD_some] at changed
          simp [deactivatesSuperAdmin, changed, active.1, active.2]

/-! ## Two members -/

/-- The members of a database that is at rest. -/
def withMembers (rows : List (String × Member)) : World :=
  { World.blank with members := .seeded rows }

theorem withMembers_resting (rows : List (String × Member)) : Resting (withMembers rows) where
  members := Table.seeded_quiet rows
  signupRequests _ := rfl
  issueLogs _ := rfl
  auths _ := rfl
  advisory := rfl

def root : Member := plainMember "root" ["member", "super_admin"]

/-- The only super_admin, and a plain member. -/
def oneAdmin : World := withMembers [("root", root), ("kim", plainMember "kim" ["member"])]

set_option maxRecDepth 10000 in
/-- The only super_admin cannot be demoted by another one's request. -/
theorem last_super_admin_guard_iff_root : ∃ out after,
    machine.eval 5 (updateMemberRoles .plain "root" "kim" ["member"]) (fun _ => {}) oneAdmin =
        some (out, after) ∧
      Exact .plain oneAdmin "root" (withRoles .plain root ["member"]) out (machine.close 5 after) := by
  have found : oneAdmin.members.committed "root" = some root := by decide
  have alone : ∀ other row, oneAdmin.members.committed other = some row → other ≠ "root" →
      ¬IsActiveSuperAdmin .plain row := by
    have each : ∀ other ∈ oneAdmin.members.keys, other ≠ "root" →
        ∀ row ∈ oneAdmin.members.committed other, ¬IsActiveSuperAdmin .plain row := by decide
    intro other row stored different
    exact each other (Table.mem_keys_of_committed stored) different row stored
  obtain ⟨roles, -⟩ := last_super_admin_guard_iff .plain oneAdmin "root" root 5 (fun _ => {})
    (fun _ => rfl) (withMembers_resting _) found ⟨"root", root, found, by decide⟩
  obtain ⟨out, after, done, exactly⟩ := roles "kim" ["member"] (by decide)
  refine ⟨out, after, done, exactly.mpr fun _ another => ?_⟩
  obtain ⟨other, row, different, stored, active⟩ := another
  exact absurd active (alone other row stored different)

/-- A super_admin who is suspended, beside the only one who is active. -/
def retired : World :=
  withMembers [("root", root), ("old", { root with name := "old", status := .suspended })]

set_option maxRecDepth 10000 in
/-- The one who is suspended cannot be demoted, as if no super_admin remained. -/
theorem suspended_super_admin_is_kept : ∃ after,
    machine.eval 5 (updateMemberRoles .plain "old" "root" ["member"]) (fun _ => {}) retired =
        some (.error forbidden, after) ∧
      ¬Exact .plain retired "old"
        (withRoles .plain { root with name := "old", status := .suspended } ["member"])
        (.error forbidden) (machine.close 5 after) := by
  have ran : (machine.eval 5 (updateMemberRoles .plain "old" "root" ["member"]) (fun _ => {})
      retired).map (·.1) = some (.error forbidden) := by decide
  obtain ⟨⟨out, after⟩, done, refused⟩ := Option.map_eq_some_iff.mp ran
  simp only at refused
  subst refused
  refine ⟨after, done, fun exact_ => ?_⟩
  have none_ := exact_.refuses.mp rfl
  exact none_.1 ⟨"root", root, by decide, by decide, by decide⟩

end SogeconApp.Guarantees.SuperAdminGuard
