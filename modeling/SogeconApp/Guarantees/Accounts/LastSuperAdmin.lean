import SogeconApp.Source.Accounts.Signup

/-!
# The last active super_admin

A request that sees, in the row it has loaded, that it takes an active super_admin away
holds the transaction lock and counts first. The row may have changed since it was loaded,
and then the write takes a super_admin away unguarded. As long as no write does, no
interleaving of role and status changes leaves the members without one.
-/

namespace SogeconApp.Guarantees.LastSuperAdmin

open Library Program Source.Accounts

def isSuperAdmin (row : Member) : Bool := isActiveWithRole "super_admin" row

def activeSuperAdmins (world : World) : Nat :=
  world.members.countCommitted fun _ row => isSuperAdmin row

/-- The write turns the stored row of an active super_admin into another one. -/
def takesAway (me : SessionId) (world : World) : Stmt → Bool
  | .flushMember studentId loaded latest =>
    (world.members.row me studentId).any fun stored =>
      isSuperAdmin stored && !isSuperAdmin (flushedMember loaded latest stored)
  | _ => false

/-- The loaded row made the request take the lock and count. -/
def guarded (text : TextRules) : Stmt → Bool
  | .flushMember _ loaded latest =>
    (decide (latest.roles ≠ loaded.roles) && demotes text loaded latest.roles) ||
      deactivatesSuperAdmin text loaded (some (some latest.status))
  | _ => false

def RemovalGuarded (text : TextRules) (world : World) (me : SessionId) (stmt : Stmt)
    (choice : Choice) : Prop :=
  choice.fails = none → takesAway me world stmt = true → guarded text stmt = true

instance (text : TextRules) (world : World) (me : SessionId) (stmt : Stmt) (choice : Choice) :
    Decidable (RemovalGuarded text world me stmt choice) :=
  inferInstanceAs (Decidable (_ → _))

theorem grade_superAdmin_iff (text : TextRules) (roles : List String) :
    (parseRoles text roles).grade = .superAdmin ↔ "super_admin" ∈ normalizeRoles text roles := by
  constructor
  · intro grade
    by_contra absent
    simp only [parseRoles, absent, if_false] at grade
    split at grade <;> cases grade
  · intro token
    simp [parseRoles, token]

theorem super_admin_grade (text : TextRules) {roles : List String} (member : "super_admin" ∈ roles) :
    (parseRoles text roles).grade = .superAdmin := by
  have stripped : text.strip "super_admin" = "super_admin" := text.strip_token _ (by decide)
  have lowered : text.lower "super_admin" = "super_admin" := text.lower_token _ (by decide)
  have token : "super_admin" ∈ normalizeRoles text roles := by
    rw [normalizeRoles, List.mem_eraseDups, List.mem_map]
    refine ⟨"super_admin", List.mem_filter.mpr ⟨member, by simp [stripped]⟩, ?_⟩
    rw [stripped, lowered]
  exact (grade_superAdmin_iff text roles).mpr token

/-- A write that changes the row as it was loaded is always guarded. -/
theorem fresh_write_guarded (text : TextRules) {world : World} {me : SessionId} {studentId : String}
    {loaded latest : Member} (fresh : world.members.row me studentId = some loaded) (choice : Choice) :
    RemovalGuarded text world me (.flushMember studentId loaded latest) choice := by
  intro _ removed
  simp only [takesAway, fresh, Option.any_some, flushedMember_loaded, Bool.and_eq_true,
    Bool.not_eq_true', isSuperAdmin, isActiveWithRole, decide_eq_true_eq, decide_eq_false_iff_not] at removed
  obtain ⟨⟨active, token⟩, other⟩ := removed
  have grade := super_admin_grade text token
  by_cases kept : "super_admin" ∈ latest.roles
  · have inactive : latest.status ≠ .active := fun same => other ⟨same, kept⟩
    simp [guarded, deactivatesSuperAdmin, inactive, active, grade]
  · have rewritten : latest.roles ≠ loaded.roles := by
      intro same
      rw [same] at kept
      exact kept token
    simp [guarded, demotes, rewritten, grade, kept]

/-! ## Phases -/

/-- Whether the session holds the lock, whether it has counted two under the lock, and the
member row that it has drafted. -/
structure Phase where
  locked : Bool := false
  cleared : Bool := false
  drafted : Option String := none

def Phase.next (phase : Phase) : (stmt : Stmt) → Except Failure (Reply stmt) → Phase
  | .advisoryLock, .ok _ => { phase with locked := true }
  | .countActiveMembersWithRole _, .ok count => { phase with cleared := phase.locked && decide (2 ≤ count) }
  | .flushMember studentId _ _, .ok _ => { phase with drafted := some studentId }
  | .commit, .ok _ | .rollback, .ok _ => {}
  | _, _ => phase

def Phase.allow (text : TextRules) (phase : Phase) (stmt : Stmt) : Prop :=
  match stmt with
  | .getMember _ | .emailTaken .. | .phoneTaken .. | .advisoryLock | .refresh | .commit | .rollback => True
  | .countActiveMembersWithRole role => role = "super_admin" ∧ phase.drafted = none
  | .flushMember _ _ _ => phase.drafted = none ∧ (guarded text stmt = true → phase.cleared = true)
  | _ => False

abbrev handler (text : TextRules) : Protocol accounts where
  Phase := Phase
  gone := {}
  allow := Phase.allow text
  next := Phase.next
  answers _ _ := True

variable {text : TextRules}

theorem repoGetMember_through (phase : Phase) (studentId : String) :
    (handler text).Through phase (repoGetMember studentId) fun _ reached => reached = phase := by
  refine .step trivial fun found _ => ?_
  cases found with
  | none => exact .raise
  | some member => exact .ret rfl

/-- A member may be saved once in a transaction, after the count where the loaded row asks for it. -/
theorem saveMember_through {phase : Phase} {studentId : String} {loaded latest : Member}
    (first : phase.drafted = none)
    (counted : guarded text (.flushMember studentId loaded latest) = true → phase.cleared = true) :
    (handler text).Through phase (saveMember studentId loaded latest) fun _ _ => True := by
  unfold saveMember
  split
  · exact .ret trivial
  · exact .ask ⟨first, counted⟩ fun _ _ => trivial

/-- The lock, and then a count of two at least. -/
theorem ensureNotLastSuperAdmin_through {phase : Phase} (first : phase.drafted = none) (code : String) :
    (handler text).Through phase (ensureNotLastSuperAdmin code)
      fun _ reached => reached.cleared = true ∧ reached.drafted = none := by
  have counted : (handler text).Through phase countActiveSuperAdmins fun count reached =>
      reached.cleared = decide (2 ≤ count) ∧ reached.drafted = none := by
    refine .step trivial fun _ _ => .ask ⟨rfl, first⟩ fun count _ => ⟨?_, first⟩
    simp only [Phase.next, Bool.true_and]
  refine counted.bind fun count reached told => ?_
  split
  · exact .raise
  · next enough =>
    have two : 2 ≤ count := by omega
    exact .ret ⟨by rw [told.1]; exact decide_eq_true two, told.2⟩

/-- A change of the roles alone that is guarded is a demotion of a super_admin. -/
theorem demotes_of_guarded {studentId : String} {member : Member} {roles : List String}
    (asked : guarded text (.flushMember studentId member { member with roles := serializeRoles roles }) = true) :
    demotes text member roles = true := by
  simp only [guarded, Bool.or_eq_true, Bool.and_eq_true] at asked
  rcases asked with ⟨-, demoted⟩ | deactivated
  · simpa [demotes, serializeRoles] using demoted
  · simp only [deactivatesSuperAdmin, decide_eq_true_eq] at deactivated
    exact absurd deactivated.2.1 deactivated.1

theorem updateMemberRoles_through (studentId actorStudentId : String) (roles : List String) :
    (handler text).Through {} (updateMemberRoles text studentId actorStudentId roles) fun _ _ => True := by
  refine (repoGetMember_through _ studentId).bind ?_
  rintro member _ rfl
  extract_lets normalizedRoles
  have written : ∀ phase : Phase, phase.drafted = none →
      (demotes text member normalizedRoles = true → phase.cleared = true) →
      (handler text).Through phase
        (repoUpdateMemberRoles studentId member (serializeRoles normalizedRoles)) fun _ _ => True := by
    intro phase first counted
    refine (saveMember_through first fun asked => counted (demotes_of_guarded asked)).bind fun _ phase _ => ?_
    exact .step trivial fun _ _ => .ask trivial fun _ _ => trivial
  split
  · exact .raise
  · split
    · refine (ensureNotLastSuperAdmin_through rfl _).bind fun _ phase told => ?_
      exact written phase told.2 fun _ => told.1
    · next unasked => exact written {} rfl fun asked => absurd asked unasked

/-- An update of the profile leaves the roles as they are, and sets the status it names, if it names
one. -/
theorem applyTo_effects {updates : AdminMemberUpdate} {member latest : Member}
    (applied : updates.applyTo member = some latest) :
    latest.roles = member.roles ∧ updates.status.getD (some member.status) = some latest.status := by
  unfold AdminMemberUpdate.applyTo at applied
  obtain ⟨name, -, applied⟩ := Option.bind_eq_some_iff.mp applied
  obtain ⟨cohort, -, applied⟩ := Option.bind_eq_some_iff.mp applied
  obtain ⟨status, named, applied⟩ := Option.bind_eq_some_iff.mp applied
  cases applied
  exact ⟨rfl, named⟩

theorem deactivates_of_guarded {studentId : String} {updates : AdminMemberUpdate} {member latest : Member}
    (applied : updates.applyTo member = some latest)
    (asked : guarded text (.flushMember studentId member latest) = true) :
    deactivatesSuperAdmin text member updates.status = true := by
  obtain ⟨roles, status⟩ := applyTo_effects applied
  simp only [guarded, roles, ne_eq, not_true_eq_false, decide_false, Bool.false_and, Bool.false_or] at asked
  cases named : updates.status with
  | none =>
    rw [named, Option.getD_none, Option.some.injEq] at status
    simp only [deactivatesSuperAdmin, status, decide_eq_true_eq] at asked
    exact absurd asked.2.1 asked.1
  | some value =>
    rw [named, Option.getD_some] at status
    rw [status]
    exact asked

theorem ensureEmailFree_through (phase : Phase) (studentId : String) (payload : AdminMemberUpdate) :
    (handler text).Through phase (ensureEmailFree studentId payload) fun _ reached => reached = phase := by
  unfold ensureEmailFree
  split
  · refine .step trivial fun taken _ => ?_
    split
    · exact .raise
    · exact .ret rfl
  · exact .ret rfl

theorem ensurePhoneFree_through (phase : Phase) (studentId : String) (payload : AdminMemberUpdate) :
    (handler text).Through phase (ensurePhoneFree studentId payload) fun _ reached => reached = phase := by
  unfold ensurePhoneFree
  split
  · refine .step trivial fun taken _ => ?_
    split
    · exact .raise
    · exact .ret rfl
  · exact .ret rfl

theorem memberConflict_through (reason : Failure) (phase : Phase) :
    (handler text).Through phase (memberConflict reason) fun _ _ => True := by
  unfold memberConflict
  split
  · exact .step trivial fun _ _ => .raise
  · exact .step trivial fun _ _ => .raise
  · exact .step trivial fun _ _ => .raise
  · exact .step trivial fun _ _ => .raise
  · exact .step trivial fun _ _ => .raise
  · exact .raise

/-- The repository writes the row that the service has loaded, and the count of the service covers the
write. -/
theorem repoUpdateMemberProfileAdmin_through {phase : Phase} {studentId : String} {member : Member}
    {updates : AdminMemberUpdate} (first : phase.drafted = none)
    (counted : deactivatesSuperAdmin text member updates.status = true → phase.cleared = true) :
    (handler text).Through phase (repoUpdateMemberProfileAdmin studentId member updates) fun _ _ => True := by
  unfold repoUpdateMemberProfileAdmin
  split
  · next latest applied =>
    refine (saveMember_through first fun asked =>
      counted (deactivates_of_guarded applied asked)).bind fun _ phase _ => ?_
    exact .step trivial fun _ _ => .ask trivial fun _ _ => trivial
  · exact .raise

theorem updateMemberProfileAdmin_through (studentId : String) (payload : AdminMemberUpdate) :
    (handler text).Through {} (updateMemberProfileAdmin text studentId payload) fun _ _ => True := by
  refine (repoGetMember_through _ studentId).bind ?_
  rintro member _ rfl
  split
  · exact .ret trivial
  · have checked : (handler text).Through {} (ensureNotDeactivatingLastSuperAdmin text member payload.status)
        fun _ reached => reached.drafted = none ∧
          (deactivatesSuperAdmin text member payload.status = true → reached.cleared = true) := by
      unfold ensureNotDeactivatingLastSuperAdmin
      split
      · exact (ensureNotLastSuperAdmin_through rfl _).weaken fun _ phase told => ⟨told.2, fun _ => told.1⟩
      · next unasked => exact .ret ⟨rfl, fun asked => absurd asked unasked⟩
    refine checked.bind fun _ phase told => ?_
    refine (ensureEmailFree_through phase studentId _).bind ?_
    rintro _ _ rfl
    refine (ensurePhoneFree_through _ studentId _).bind ?_
    rintro _ _ rfl
    exact .catch (repoUpdateMemberProfileAdmin_through told.1 told.2) memberConflict_through

/-- A role change or a status change of a member. -/
def changesMember : Request → Bool
  | .updateMemberRoles .. | .updateMemberProfileAdmin .. => true
  | _ => false

theorem request_follows {request : Request} (change : changesMember request = true) :
    (handler text).Follows {} (request.program text) := by
  cases request with
  | updateMemberRoles studentId actorStudentId roles =>
    exact (updateMemberRoles_through studentId actorStudentId roles).follows
  | updateMemberProfileAdmin studentId payload =>
    exact (updateMemberProfileAdmin_through studentId payload).follows
  | createMemberDirect _ | createSignupRequest _ | approveSignupRequest _ _ | rejectSignupRequest _ _ _
  | reissueSignupActivationToken _ _ | activateMember _ _ => cases change

/-! ## The invariant -/

/-- Whoever takes an active super_admin away has counted two under the lock that it holds. -/
structure SuperAdminInv (world : World) (phase : SessionId → Phase) : Prop where
  drafts : world.members.Drafted fun me => (phase me).drafted
  lock : ∀ me, (phase me).locked = true → world.advisory = some me
  cleared : ∀ me, (phase me).cleared = true → (phase me).locked = true ∧ 2 ≤ activeSuperAdmins world
  removal : ∀ studentId owner version, (world.members.slot studentId).draft = some (owner, version) →
    (world.members.committed studentId).any isSuperAdmin = true → version.any isSuperAdmin = false →
    (phase owner).cleared = true
  remains : 0 < activeSuperAdmins world

variable {world world' : World} {phase : SessionId → Phase} {me : SessionId}

theorem accepts_eq_any (studentId : String) (version : Option Member) :
    Table.accepts (fun _ row => isSuperAdmin row) studentId version = version.any isSuperAdmin := by
  cases version <;> rfl

/-- A commit takes one away at most, and only if the session is cleared. -/
theorem SuperAdminInv.taken (inv : SuperAdminInv world phase) (me : SessionId) :
    activeSuperAdmins world ≤ activeSuperAdmins (world.commit me) ∨
      (phase me).cleared = true ∧ activeSuperAdmins world = activeSuperAdmins (world.commit me) + 1 := by
  obtain ⟨studentId, single⟩ := inv.drafts.single me
  have counted := Table.countCommitted_commit (fun _ row => isSuperAdmin row) studentId single
  change activeSuperAdmins (world.commit me) + _ = activeSuperAdmins world + _ at counted
  rw [accepts_eq_any, accepts_eq_any] at counted
  cases before : (world.members.committed studentId).any isSuperAdmin with
  | false =>
    rw [before, Bool.toNat_false] at counted
    exact .inl (by omega)
  | true =>
    cases after : ((world.members.commit me).committed studentId).any isSuperAdmin with
    | true =>
      rw [before, after] at counted
      exact .inl (by omega)
    | false =>
      rw [before, after, Bool.toNat_true, Bool.toNat_false] at counted
      have changed : (world.members.commit me).committed studentId ≠ world.members.committed studentId := by
        intro same
        rw [same, before] at after
        cases after
      obtain ⟨version, drafted⟩ := Table.drafted_of_committed_ne changed
      rw [Table.committed_commit_of_draft drafted] at after
      exact .inr ⟨inv.removal studentId me version drafted before after, by omega⟩

/-- The end of a transaction: the lock of the session is free, and its draft is gone. -/
theorem SuperAdminInv.leave (inv : SuperAdminInv world phase) (ended : world.members.Ended me world'.members)
    (advisory : ∀ other, other ≠ me → world.advisory = some other → world'.advisory = some other)
    (two : ∀ other, other ≠ me → (phase other).cleared = true → 2 ≤ activeSuperAdmins world')
    (remains : 0 < activeSuperAdmins world') : SuperAdminInv world' (Function.update phase me {}) := by
  refine ⟨inv.drafts.ended ended fun other different => by simp [different], ?_, ?_, ?_, remains⟩
  · intro other locked
    by_cases mine : other = me
    · subst mine
      simp at locked
    · rw [Function.update_of_ne mine] at locked
      exact advisory other mine (inv.lock other locked)
  · intro other cleared
    by_cases mine : other = me
    · subst mine
      simp at cleared
    · rw [Function.update_of_ne mine] at cleared ⊢
      exact ⟨(inv.cleared other cleared).1, two other mine cleared⟩
  · intro studentId owner version drafted before after
    obtain ⟨earlier, different⟩ := (ended.draft studentId owner version).mp drafted
    rw [ended.kept_of_draft drafted] at before
    rw [Function.update_of_ne different]
    exact inv.removal studentId owner version earlier before after

/-- A commit takes at most one super_admin away, and two were counted under the lock that the session
still holds. -/
theorem SuperAdminInv.commit (inv : SuperAdminInv world phase) :
    SuperAdminInv (world.commit me) (Function.update phase me {}) := by
  refine inv.leave (Table.commit_ended me world.members) (fun other different held => ?_)
    (fun other different cleared => ?_) ?_
  · simp only [World.commit, held, Option.some.injEq, different, if_false]
  · obtain ⟨locked, two⟩ := inv.cleared other cleared
    rcases inv.taken me with kept | ⟨also, -⟩
    · exact Nat.le_trans two kept
    · -- The lock has one holder.
      have first := inv.lock other locked
      have second := inv.lock me (inv.cleared me also).1
      rw [first] at second
      exact absurd (Option.some.inj second) different
  · have before := inv.remains
    rcases inv.taken me with kept | ⟨cleared, one⟩
    · omega
    · have two := (inv.cleared me cleared).2
      omega

theorem SuperAdminInv.rollback (inv : SuperAdminInv world phase) :
    SuperAdminInv (world.rollback me) (Function.update phase me {}) := by
  have same : activeSuperAdmins (world.rollback me) = activeSuperAdmins world :=
    Table.countCommitted_abort _
  refine inv.leave (Table.abort_ended me world.members) (fun other different held => ?_)
    (fun other _ cleared => ?_) ?_
  · simp only [World.rollback, held, Option.some.injEq, different, if_false]
  · rw [same]
    exact (inv.cleared other cleared).2
  · rw [same]
    exact inv.remains

/-- A draft that takes an active super_admin away is one of a session that has counted two. -/
theorem SuperAdminInv.write (inv : SuperAdminInv world phase) {studentId : String}
    {loaded latest stored : Member} (first : (phase me).drafted = none)
    (counted : guarded text (.flushMember studentId loaded latest) = true → (phase me).cleared = true)
    (removal : takesAway me world (.flushMember studentId loaded latest) = true →
      guarded text (.flushMember studentId loaded latest) = true)
    (seen : world.members.row me studentId = some stored) :
    SuperAdminInv { world with
        members := world.members.write me studentId (some (flushedMember loaded latest stored)) }
      (Function.update phase me { phase me with drafted := some studentId }) := by
  have same : activeSuperAdmins { world with
      members := world.members.write me studentId (some (flushedMember loaded latest stored)) } =
      activeSuperAdmins world := Table.countCommitted_write _ _ _
  have keeps : ∀ other, (Function.update phase me { phase me with drafted := some studentId } other).locked =
        (phase other).locked ∧
      (Function.update phase me { phase me with drafted := some studentId } other).cleared =
        (phase other).cleared := by
    intro other
    by_cases mine : other = me
    · subst mine
      simp
    · simp [mine]
  refine ⟨?_, ?_, ?_, ?_, ?_⟩
  · exact inv.drafts.write (.inl first) (by simp) fun other different => by simp [different]
  · intro other locked
    rw [(keeps other).1] at locked
    exact inv.lock other locked
  · intro other cleared
    rw [(keeps other).2] at cleared
    rw [(keeps other).1, same]
    exact inv.cleared other cleared
  · intro other owner version drafted before after
    rw [(keeps owner).2]
    rw [Table.write_committed] at before
    by_cases here : other = studentId
    · subst here
      simp only [Table.write_slot_self, Slot.write_draft, Option.some.injEq, Prod.mk.injEq] at drafted
      obtain ⟨rfl, rfl⟩ := drafted
      -- Nobody has drafted the row, so what is stored is what was committed.
      have unchanged : world.members.committed other = some stored := by
        rcases Table.row_cases me world.members other with same | mine
        · rw [same, seen]
        · exact absurd mine (inv.drafts.none_of first other _)
      rw [unchanged] at before
      refine counted (removal ?_)
      simp only [takesAway, seen, Option.any_some, Bool.and_eq_true, Bool.not_eq_true']
      exact ⟨before, after⟩
    · rw [Table.write_slot_of_ne here] at drafted
      exact inv.removal other owner version drafted before after
  · rw [same]
    exact inv.remains

theorem SuperAdminInv.still (inv : SuperAdminInv world phase) :
    SuperAdminInv world (Function.update phase me (phase me)) := by
  rw [Function.update_eq_self]
  exact inv

/-- The session gets the lock, or it holds the lock already. -/
theorem SuperAdminInv.acquire (inv : SuperAdminInv world phase)
    (free : world.advisory = none ∨ world.advisory = some me) :
    SuperAdminInv { world with advisory := some me }
      (Function.update phase me { phase me with locked := true }) := by
  have alone : ∀ other, other ≠ me → (phase other).locked = false := by
    intro other different
    cases locked : (phase other).locked with
    | false => rfl
    | true =>
      have held := inv.lock other locked
      rcases free with none_ | mine
      · rw [held] at none_
        cases none_
      · rw [held] at mine
        exact absurd (Option.some.inj mine) different
  refine ⟨?_, ?_, ?_, ?_, inv.remains⟩
  · refine inv.drafts.same fun other => ?_
    by_cases mine : other = me
    · subst mine
      simp
    · simp [mine]
  · intro other locked
    by_cases mine : other = me
    · rw [mine]
    · rw [Function.update_of_ne mine, alone other mine] at locked
      cases locked
  · intro other cleared
    by_cases mine : other = me
    · subst mine
      rw [Function.update_self] at cleared ⊢
      exact ⟨rfl, (inv.cleared other cleared).2⟩
    · rw [Function.update_of_ne mine] at cleared ⊢
      exact inv.cleared other cleared
  · intro studentId owner version drafted before after
    have cleared := inv.removal studentId owner version drafted before after
    by_cases mine : owner = me
    · subst mine
      rw [Function.update_self]
      exact cleared
    · rw [Function.update_of_ne mine]
      exact cleared

/-- Under the lock, two counted are two committed. -/
theorem SuperAdminInv.count (inv : SuperAdminInv world phase) (first : (phase me).drafted = none) :
    SuperAdminInv world (Function.update phase me { phase me with
      cleared := (phase me).locked &&
        decide (2 ≤ (world.members.select me fun _ row => isSuperAdmin row).length) }) := by
  rw [Table.length_select (inv.drafts.none_of first)]
  refine ⟨?_, ?_, ?_, ?_, inv.remains⟩
  · refine inv.drafts.same fun other => ?_
    by_cases mine : other = me
    · subst mine
      simp
    · simp [mine]
  · intro other locked
    by_cases mine : other = me
    · subst mine
      rw [Function.update_self] at locked
      exact inv.lock other locked
    · rw [Function.update_of_ne mine] at locked
      exact inv.lock other locked
  · intro other cleared
    by_cases mine : other = me
    · subst mine
      rw [Function.update_self] at cleared ⊢
      rw [Bool.and_eq_true, decide_eq_true_eq] at cleared
      exact cleared
    · rw [Function.update_of_ne mine] at cleared ⊢
      exact inv.cleared other cleared
  · intro studentId owner version drafted before after
    have different : owner ≠ me := by
      rintro rfl
      exact inv.drafts.none_of first studentId version drafted
    rw [Function.update_of_ne different]
    exact inv.removal studentId owner version drafted before after

/-- Every answered statement that a phase allows keeps the invariant, unless it takes a super_admin away
unguarded. -/
theorem SuperAdminInv.answer (inv : SuperAdminInv world phase) {stmt : Stmt} {choice : Choice}
    {reply : Except Failure (Reply stmt)} (succeeds : choice.fails = none)
    (removal : RemovalGuarded text world me stmt choice)
    (allowed : (phase me).allow text stmt)
    (done : Source.Accounts.answer me stmt choice world = some (reply, world')) :
    SuperAdminInv world' (Function.update phase me ((phase me).next stmt reply)) := by
  cases stmt with
  | getMember _ | emailTaken _ _ | phoneTaken _ _ | refresh =>
    cases done
    exact inv.still
  | advisoryLock =>
    simp only [Source.Accounts.answer] at done
    split at done
    · next holder held =>
      split at done
      · next mine =>
        subst mine
        cases done
        have acquired := inv.acquire (.inr held)
        rw [← held] at acquired
        exact acquired
      · cases done
    · next free =>
      cases done
      exact inv.acquire (.inl free)
  | countActiveMembersWithRole role =>
    obtain ⟨rfl, first⟩ := allowed
    cases done
    exact inv.count first
  | flushMember studentId loaded latest =>
    obtain ⟨first, counted⟩ := allowed
    rcases flushMember_cases done with ⟨⟨reason, rfl⟩, rfl⟩ | ⟨rfl, -, stored, seen, rfl⟩
    · exact inv.still
    · exact inv.write first counted (removal succeeds) seen
  | commit =>
    cases done
    exact inv.commit
  | rollback =>
    cases done
    exact inv.rollback
  | now | insertMember _ _ | pendingByStudentId _ | getSignupRequest _ | insertSignupRequest _
  | flushSignupRequest _ _ _ | insertIssueLog _ | getAuth _ | insertAuth _ _ _ | updateAuth _ _ _ =>
    exact absurd allowed id

/-- An active super_admin is left in every interleaving whose writes are guarded where they take one
away. -/
theorem superAdminInv_keeps : (handler text).Keeps machine (RemovalGuarded text) SuperAdminInv where
  exec := by
    refine Protocol.Keeps.exec_of_answer answering ?_ ?_
    · intro phase stmt reason
      cases stmt <;> rfl
    · intro world phase me stmt choice reply world' inv removal allowed succeeds answered
      exact inv.answer succeeds removal allowed answered
  known _ _ _ _ _ _ _ _ _ := trivial
  close _ _ _ inv := inv.rollback
  crash _ _ _ inv := inv.rollback
  outside _ _ change _ := nomatch change

/-- Requests that all have still to begin start within the invariant, if there is an active super_admin.
-/
theorem start_holds {world : World} {requests : SessionId → Option Request}
    (changes : ∀ me request, requests me = some request → changesMember request = true)
    (quiet : world.members.Quiet) (one : 0 < activeSuperAdmins world) :
    (handler text).Holds SuperAdminInv (start text world requests) := by
  refine ⟨fun _ => {}, ⟨quiet.drafted, ?_, ?_, ?_, one⟩, fun me program running => ?_, fun _ _ => rfl⟩
  · intro me locked
    cases locked
  · intro me cleared
    cases cleared
  · intro studentId owner version drafted
    simp [start, quiet studentId] at drafted
  · obtain ⟨request, given, rfl⟩ := Option.map_eq_some_iff.mp running
    exact request_follows (changes me request given)

/-- Role changes and status changes, interleaved in any way: as long as each write that takes
an active super_admin away comes from a request whose loaded row made it take the lock and
count, an active super_admin remains. -/
theorem super_admin_remains (text : TextRules) (world : World) (requests : SessionId → Option Request)
    (changes : ∀ me request, requests me = some request → changesMember request = true)
    (quiet : world.members.Quiet) (one : 0 < activeSuperAdmins world)
    (actions : List (Action machine)) (after : Config machine Unit)
    (removals : (start text world requests).Meets (RemovalGuarded text) actions)
    (reached : (start text world requests).run actions = some after) : 0 < activeSuperAdmins after.world := by
  obtain ⟨phase, inv, -, -⟩ := superAdminInv_keeps.run (start_holds changes quiet one) removals reached
  exact inv.remains

/-! ## Two members -/

def plainMember (name : String) (roles : List String) : Member :=
  { email := none, name, cohort := 1, major := none, roles, status := .active }

/-- The only super_admin, and a plain member. -/
def twoMembers : World :=
  { World.blank with
    members := .seeded [("root", plainMember "root" ["member", "super_admin"]),
      ("kim", plainMember "kim" ["member"])] }

/-- The requests of the sessions 0, 1, 2, .. -/
def inOrder (requests : List Request) (me : SessionId) : Option Request := requests[me]?

/-- One admin promotes the member and then demotes the other super_admin. -/
def handover : List Request :=
  [.updateMemberRoles "kim" "root" ["super_admin"], .updateMemberRoles "root" "kim" ["member"]]

set_option maxRecDepth 10000 in
theorem super_admin_remains_handover : ∃ after,
    (start .plain twoMembers (inOrder handover)).run (executes 0 4 ++ executes 1 6) = some after ∧
      (after.world.members.committed "root").any isSuperAdmin = false ∧ 0 < activeSuperAdmins after.world := by
  have ran : ((start .plain twoMembers (inOrder handover)).run (executes 0 4 ++ executes 1 6)).map
      (fun after => (after.world.members.committed "root").any isSuperAdmin) = some false := by decide
  have removals : (start .plain twoMembers (inOrder handover)).Meets (RemovalGuarded .plain)
      (executes 0 4 ++ executes 1 6) := Config.meets_of_checks (by decide)
  have changes : ∀ me request, inOrder handover me = some request → changesMember request = true := by
    have every : ∀ request ∈ handover, changesMember request = true := by decide
    exact fun me request given => every request (List.mem_of_getElem? given)
  obtain ⟨after, reached, demoted⟩ := Option.map_eq_some_iff.mp ran
  exact ⟨after, reached, demoted, super_admin_remains .plain twoMembers (inOrder handover) changes
    (Table.seeded_quiet _) (by decide) _ after removals reached⟩

/-- The member is suspended, promoted, and the other super_admin demoted, by three requests. -/
def crossing : List Request :=
  [.updateMemberProfileAdmin "kim" { status := some (some .suspended) },
    .updateMemberRoles "kim" "root" ["super_admin"], .updateMemberRoles "root" "kim" ["member"]]

set_option maxRecDepth 10000 in
/-- The suspension was loaded before the promotion, so nothing guards it. -/
theorem stale_suspension_leaves_none : ∃ after,
    (start .plain twoMembers (inOrder crossing)).run
        (executes 0 1 ++ executes 1 4 ++ executes 2 6 ++ executes 0 3) = some after ∧
      0 < activeSuperAdmins twoMembers ∧ activeSuperAdmins after.world = 0 := by
  have ran : ((start .plain twoMembers (inOrder crossing)).run
      (executes 0 1 ++ executes 1 4 ++ executes 2 6 ++ executes 0 3)).map
        (fun after => activeSuperAdmins after.world) = some 0 := by decide
  obtain ⟨after, reached, none_⟩ := Option.map_eq_some_iff.mp ran
  exact ⟨after, reached, by decide, none_⟩

end SogeconApp.Guarantees.LastSuperAdmin
