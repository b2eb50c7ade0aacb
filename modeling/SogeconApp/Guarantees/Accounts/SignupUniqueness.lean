import SogeconApp.Library.Sequential
import SogeconApp.Guarantees.Accounts.Alone
import SogeconApp.Guarantees.Accounts.LastSuperAdmin

/-!
# The activatable requests of a student

Requests arrive one after the other. Every approval, and every direct creation, puts a member
into status active, and nothing approves a request of an active member. So a student has
at most one request that is approved or activated more than the times that the member was
taken out of active, and the token of any other request is refused.
-/

namespace SogeconApp.Guarantees.SignupUniqueness

open Library Program Source.Accounts AccountsAlone

/-- A request arrives when no session is open. Any statement may fail, and the session may
crash at any point. -/
def SequentialRun (text : TextRules) (initial : World) (config : Config machine Unit) : Prop :=
  ∃ last, Sequential machine (Request.program text) initial last config

/-- A request of the student is approved or activated. -/
def isGranted (studentId : String) (_ : Nat) (row : SignupRequest) : Bool :=
  row.studentId = studentId ∧ (row.status = .approved ∨ row.status = .activated)

def granted (world : World) (studentId : String) : Nat :=
  world.signupRequests.countCommitted (isGranted studentId)

/-- Each granted request is accounted for by an active member or by a deactivation. -/
def Accounted (world : World) : Prop :=
  ∀ studentId, granted world studentId ≤ world.deactivated studentId + (world.active studentId).toNat

section Commit

variable {world : World} {me : SessionId}

/-- A member that becomes active adds one, a member that ceases to be active is counted. -/
theorem active_commit (world : World) (me : SessionId) (studentId : String) :
    world.deactivated studentId + (world.active studentId).toNat +
        (!world.active studentId && (world.commit me).active studentId).toNat =
      (world.commit me).deactivated studentId + ((world.commit me).active studentId).toNat := by
  have counted : (world.commit me).deactivated studentId =
      world.deactivated studentId + (world.active studentId && !(world.commit me).active studentId).toNat := by
    have step : (world.commit me).deactivated studentId =
        if world.deactivates me studentId then world.deactivated studentId + 1
        else world.deactivated studentId := rfl
    have same : world.deactivates me studentId =
        (world.active studentId && !(world.commit me).active studentId) := rfl
    rw [step, same]
    cases world.active studentId && !(world.commit me).active studentId <;> rfl
  rw [counted]
  cases world.active studentId <;> cases (world.commit me).active studentId <;> simp

/-- A commit may grant a request that was not granted if it makes the member active. -/
theorem Accounted.commit (accounted : Accounted world) {id : Nat}
    (single : ∀ other version, (world.signupRequests.slot other).draft = some (me, version) → other = id)
    (fair : ∀ row, (world.signupRequests.commit me).committed id = some row →
      isGranted row.studentId id row = true →
      Table.accepts (isGranted row.studentId) id (world.signupRequests.committed id) = true ∨
        world.active row.studentId = false ∧ (world.commit me).active row.studentId = true) :
    Accounted (world.commit me) := by
  intro studentId
  have before := accounted studentId
  have counted := Table.countCommitted_commit (isGranted studentId) id single
  change granted (world.commit me) studentId + _ = granted world studentId + _ at counted
  have moved := active_commit world me studentId
  cases new : Table.accepts (isGranted studentId) id ((world.signupRequests.commit me).committed id) with
  | false =>
    rw [new, Bool.toNat_false] at counted
    omega
  | true =>
    cases found : (world.signupRequests.commit me).committed id with
    | none => simp [found, Table.accepts] at new
    | some row =>
      have same : row.studentId = studentId := by
        rw [found] at new
        simp only [Table.accepts, Option.map_some, Option.getD_some, isGranted, decide_eq_true_eq] at new
        exact new.1
      subst same
      rw [found] at new
      rw [found, new, Bool.toNat_true] at counted
      rcases fair row found new with old | ⟨inactive, active⟩
      · rw [old, Bool.toNat_true] at counted
        omega
      · rw [inactive, Bool.toNat_false] at before
        rw [inactive, active] at moved
        simp only [Bool.not_false, Bool.true_and, Bool.toNat_true, Bool.toNat_false] at moved
        rw [active, Bool.toNat_true]
        omega

/-- A commit without a drafted request. -/
theorem Accounted.commit_members (accounted : Accounted world)
    (none_ : ∀ id version, (world.signupRequests.slot id).draft ≠ some (me, version)) :
    Accounted (world.commit me) := by
  have none_else : ∀ other version, (world.signupRequests.slot other).draft = some (me, version) → other = 0 :=
    fun other version drafted => absurd drafted (none_ other version)
  refine accounted.commit none_else fun row found grantedRow => ?_
  rw [Table.committed_commit_of_not_mine (none_ 0)] at found
  exact .inl (by rw [found]; exact grantedRow)

end Commit

/-! ## One session alone -/

/-- The session may commit where the requests stay accounted for. -/
def upholding (me : SessionId) : Rules accounts World where
  allow world stmt := stmt = .commit → Accounted (world.commit me)
  after world stmt reply world' := ∃ choice, Source.Accounts.exec me stmt choice world = some (reply, world')

/-- The session has not drafted a request. -/
structure NoRequest (me : SessionId) (world : World) : Prop where
  accounted : Accounted world
  undrafted : ∀ id version, (world.signupRequests.slot id).draft ≠ some (me, version)

/-- The session has drafted this request and no other. -/
structure OneRequest (me : SessionId) (id : Nat) (row : SignupRequest) (world : World) : Prop where
  accounted : Accounted world
  single : ∀ other version, (world.signupRequests.slot other).draft = some (me, version) → other = id
  draft : (world.signupRequests.slot id).draft = some (me, some row)

/-- The member is not active, and is once the session commits. -/
def BecomesActive (me : SessionId) (studentId : String) (world : World) : Prop :=
  world.active studentId = false ∧ (world.commit me).active studentId = true

variable {me : SessionId} {world world' : World}

theorem Accounted.drafts (accounted : Accounted world) (drafts : world.Drafts me world') : Accounted world' := by
  intro studentId
  have same : world'.active studentId = world.active studentId := by
    rw [World.active, World.active, drafts.members.committed]
  rw [granted, drafts.signupRequests.countCommitted, drafts.deactivated, same]
  exact accounted studentId

theorem answered {stmt : Stmt} {answer : Reply stmt}
    (after : (upholding me).after world stmt (.ok answer) world') (other : stmt ≠ .commit) :
    world.Drafts me world' ∧ ∃ choice, Source.Accounts.answer me stmt choice world =
      some (.ok answer, world') := by
  obtain ⟨choice, done⟩ := after
  exact ⟨exec_drafts done other, choice, executed done⟩

/-- A request is drafted in a session that has none. -/
theorem NoRequest.write (none_ : NoRequest me world) {id : Nat} {row : SignupRequest} {after : World}
    (drafts : world.Drafts me after)
    (written : after.signupRequests = world.signupRequests.write me id (some row)) :
    OneRequest me id row after := by
  refine ⟨none_.accounted.drafts drafts, fun other version drafted => ?_, by rw [written]; simp⟩
  by_contra different
  rw [written, Table.write_slot_of_ne different] at drafted
  exact none_.undrafted other version drafted

/-- A commit of a session without a request grants none, and counts the members that it takes out of
active. -/
theorem NoRequest.commit (none_ : NoRequest me world) : NoRequest me (world.commit me) where
  accounted := none_.accounted.commit_members none_.undrafted
  undrafted _ _ drafted := (Slot.draft_commit_eq.mp drafted).2 rfl

/-- A commit that grants one more request makes its member active, or the request was granted before. -/
theorem OneRequest.commit {id : Nat} {row : SignupRequest} (one : OneRequest me id row world)
    (fair : isGranted row.studentId id row = true →
      Table.accepts (isGranted row.studentId) id (world.signupRequests.committed id) = true ∨
        BecomesActive me row.studentId world) : Accounted (world.commit me) := by
  refine one.accounted.commit one.single fun published found grantedRow => ?_
  rw [Table.committed_commit_of_draft one.draft] at found
  cases found
  exact fair grantedRow

theorem NoRequest.step (none_ : NoRequest me world) {stmt : Stmt} {reply : Except Failure (Reply stmt)}
    (reads : writesRequest stmt = false) (after : (upholding me).after world stmt reply world') :
    NoRequest me world' := by
  obtain ⟨choice, done⟩ := after
  have executed := done
  rcases answering.exec_cases done with ⟨reason, -, rfl, rfl⟩ | ⟨-, done⟩
  · exact none_
  · rcases requests_kept done reads with same | rfl | rfl
    · by_cases commits : stmt = .commit
      · subst commits
        cases done
        exact none_.commit
      · refine ⟨none_.accounted.drafts (exec_drafts executed commits), ?_⟩
        rw [same]
        exact none_.undrafted
    · cases done
      exact none_.commit
    · cases done
      refine ⟨none_.accounted.drafts (world.rollback_drafts me), fun id version drafted => ?_⟩
      exact none_.undrafted id version (Slot.draft_abort_eq.mp drafted).1

/-- A program that follows a protocol in which no request is written. -/
theorem NoRequest.through {α : Type} {P : Protocol accounts} {phase : P.Phase} {program : Handler α}
    (none_ : NoRequest me world) (follows : P.Follows phase program)
    (reads : ∀ phase stmt, P.allow phase stmt → writesRequest stmt = false)
    (unknown : ∀ stmt answer, P.answers stmt answer) :
    (upholding me).Through world program fun _ reached => NoRequest me reached := by
  induction program generalizing phase world with
  | ret value => exact none_
  | raise reason => exact trivial
  | exec stmt next ih =>
    refine ⟨fun commits => none_.commit.accounted, fun reply world' after => ?_⟩
    refine ih reply (none_.step (reads phase stmt follows.allowed) after) (follows.continue reply ?_)
    exact fun answer _ => unknown stmt answer

/-- Nothing is drafted by the session. -/
structure Untouched (me : SessionId) (world : World) : Prop extends NoRequest me world where
  members : ∀ studentId version, (world.members.slot studentId).draft ≠ some (me, version)

theorem Untouched.member_committed (untouched : Untouched me world) (studentId : String) :
    world.members.committed studentId = world.members.row me studentId := by
  rcases Table.row_cases me world.members studentId with same | drafted
  · exact same
  · exact absurd drafted (untouched.members studentId _)

theorem NoRequest.request_committed (none_ : NoRequest me world) (id : Nat) :
    world.signupRequests.committed id = world.signupRequests.row me id := by
  rcases Table.row_cases me world.signupRequests id with same | drafted
  · exact same
  · exact absurd drafted (none_.undrafted id _)

/-- The row of an inactive member is drafted with status active. -/
theorem Untouched.activates (untouched : Untouched me world) {studentId : String} {row : Member}
    (inactive : (world.members.row me studentId).any (fun member => member.status = .active) = false)
    (active : row.status = .active) :
    BecomesActive me studentId { world with members := world.members.write me studentId (some row) } := by
  constructor
  · rw [World.active, Table.write_committed, untouched.member_committed]
    exact inactive
  · have published : ((world.members.write me studentId (some row)).commit me).committed studentId = some row :=
      Table.committed_commit_of_draft (by simp)
    simp [World.active, World.commit, published, active]

/-! ## The handlers -/

/-- A drafted request that a commit may publish, and what the commit is followed by. -/
theorem OneRequest.publish {id : Nat} {row : SignupRequest} (one : OneRequest me id row world)
    (fair : isGranted row.studentId id row = true →
      Table.accepts (isGranted row.studentId) id (world.signupRequests.committed id) = true ∨
        BecomesActive me row.studentId world) {α : Type} {next : Unit → Handler α}
    (then_ : ∀ reached, (upholding me).Through reached (next ()) fun _ _ => True) :
    (upholding me).Through world (ask .commit >>= next) fun _ _ => True :=
  .step (fun _ => one.commit fair) fun _ reached _ => then_ reached

/-- The flush of a loaded request, in a session that has drafted none. -/
theorem NoRequest.flush (none_ : NoRequest me world) {id : Nat} {row latest : SignupRequest}
    (seen : world.signupRequests.row me id = some row) {α : Type} {next : Unit → Handler α}
    (then_ : ∀ deciding,
      let reached := { world with
        signupRequests := world.signupRequests.write me id (some (flushedRequest row latest row))
        deciding }
      OneRequest me id (flushedRequest row latest row) reached →
        (upholding me).Through reached (next ()) fun _ _ => True) :
    (upholding me).Through world (ask (.flushSignupRequest id row latest) >>= next)
      fun _ _ => True := by
  refine .step nofun fun _ reached after => ?_
  obtain ⟨drafts, choice, done⟩ := answered after nofun
  rcases flushSignupRequest_cases done with ⟨⟨reason, failed⟩, -⟩ | ⟨-, -, stored, loaded, rfl⟩
  · cases failed
  · rw [seen] at loaded
    cases loaded
    exact then_ _ (none_.write drafts rfl)

theorem refresh_through : (upholding me).Through world (ask .refresh) fun _ _ => True :=
  .ask nofun fun _ _ _ => trivial

theorem createSignupRequest_through (untouched : Untouched me world) (payload : SignupRequestCreate) :
    (upholding me).Through world (createSignupRequest payload) fun _ _ => True := by
  refine through_read (fun _ => world.members.row me payload.studentId) (fun _ => rfl) nofun fun choice => ?_
  split
  · exact .raise
  · refine through_read (fun _ => _) (fun _ => rfl) nofun fun choice => ?_
    split
    · exact .raise
    · refine .catch ?_ fun reason reached => ?_
      · refine .step nofun fun id reached after => ?_
        obtain ⟨drafts, choice, done⟩ := answered after nofun
        rcases insertSignupRequest_cases done with ⟨⟨reason, failed⟩, -⟩ | ⟨-, rfl⟩
        · cases failed
        · have one := untouched.write drafts rfl
          exact one.publish (by simp [isGranted, SignupRequestCreate.row]) fun _ => refresh_through
      · exact signupConflict_through reason nofun

/-- Saving the member of an approval drafts no request, and makes the member active with the commit. -/
theorem saveApprovedMember_through (untouched : Untouched me world) (row : SignupRequest)
    (inactive : (world.members.row me row.studentId).any (fun member => member.status = .active) = false) :
    (upholding me).Through world (saveApprovedMember row (world.members.row me row.studentId)) fun _ reached =>
      NoRequest me reached ∧ reached.signupRequests = world.signupRequests ∧
        BecomesActive me row.studentId reached := by
  cases seen : world.members.row me row.studentId with
  | none =>
    refine .ask nofun fun _ reached after => ?_
    obtain ⟨drafts, choice, done⟩ := answered after nofun
    rcases insertMember_cases done with ⟨⟨reason, failed⟩, -⟩ | ⟨-, -, -, rfl⟩
    · cases failed
    · exact ⟨⟨untouched.accounted.drafts drafts, untouched.undrafted⟩, rfl, untouched.activates inactive rfl⟩
  | some member =>
    rw [seen, Option.any_some, decide_eq_false_iff_not] at inactive
    simp only [saveApprovedMember, saveMember]
    split
    · next same => exact absurd (congrArg Member.status same).symm inactive
    · refine .ask nofun fun _ reached after => ?_
      obtain ⟨drafts, choice, done⟩ := answered after nofun
      rcases flushMember_cases done with ⟨⟨reason, failed⟩, -⟩ | ⟨-, -, stored, loaded, rfl⟩
      · cases failed
      · rw [seen] at loaded
        cases loaded
        refine ⟨⟨untouched.accounted.drafts drafts, untouched.undrafted⟩, rfl, ?_⟩
        rw [flushedMember_loaded]
        exact untouched.activates (by simpa [seen] using inactive) rfl

/-- An approval grants the request of a student who was not active, and makes the member active in the
same commit. -/
theorem approveSignupRequest_through (untouched : Untouched me world) (id : Nat) (decidedByStudentId : String) :
    (upholding me).Through world (approveSignupRequest id decidedByStudentId) fun _ _ => True := by
  refine (signupRequestById_through id nofun).bind ?_
  rintro row world ⟨rfl, seen⟩
  split
  · exact .raise
  · refine through_read (fun _ => world.members.row me row.studentId) (fun _ => rfl) nofun fun choice => ?_
    split
    · exact .raise
    · next inactive =>
      refine through_read (fun choice => choice.now) (fun _ => rfl) nofun fun choice => ?_
      refine (saveApprovedMember_through untouched row (by simpa using inactive)).bind ?_
      rintro _ saved ⟨undrafted, same, active⟩
      refine undrafted.flush (by rw [same, seen]) fun deciding one => ?_
      refine .step nofun fun _ reached after => ?_
      obtain ⟨drafts, choice, done⟩ := answered after nofun
      cases done
      have logged := one.accounted.drafts drafts
      refine through_read (fun _ => ()) (fun _ => rfl) nofun fun choice => ?_
      have ready : OneRequest me id _ _ := ⟨logged, one.single, one.draft⟩
      refine ready.publish (fun _ => .inr active) fun _ => ?_
      exact .step nofun fun _ _ _ => .ret trivial

theorem rejectSignupRequest_through (untouched : Untouched me world) (id : Nat)
    (decidedByStudentId rejectReason : String) :
    (upholding me).Through world (rejectSignupRequest id decidedByStudentId rejectReason) fun _ _ => True := by
  refine (signupRequestById_through id nofun).bind ?_
  rintro row world ⟨rfl, seen⟩
  split
  · exact .raise
  · next pending =>
    refine through_read (fun choice => choice.now) (fun _ => rfl) nofun fun choice => ?_
    refine untouched.flush seen fun deciding one => ?_
    have loaded : row.status = .pending := by simpa using pending
    refine one.publish (fun grantedRow => ?_) fun _ => refresh_through
    simp [isGranted, flushedRequest, changed, loaded] at grantedRow

theorem reissueSignupActivationToken_through (untouched : Untouched me world) (id : Nat)
    (issuedByStudentId : String) :
    (upholding me).Through world (reissueSignupActivationToken id issuedByStudentId) fun _ _ => True := by
  refine (signupRequestById_through id nofun).bind ?_
  rintro row world ⟨rfl, seen⟩
  split
  · exact .raise
  · refine .step nofun fun _ reached after => ?_
    have issued := untouched.toNoRequest.step rfl after
    refine .step (fun _ => issued.commit.accounted) fun _ _ _ => ?_
    exact .step nofun fun _ _ _ => .ret trivial

theorem NoRequest.commit_row (none_ : NoRequest me world) (id : Nat) :
    (world.commit me).signupRequests.row me id = world.signupRequests.row me id := by
  have kept : (world.signupRequests.slot id).commit me = world.signupRequests.slot id :=
    Slot.commit_of_not_mine (none_.undrafted id)
  exact congrArg (Slot.row me) kept

/-- The password is committed without a change of the requests. -/
theorem createOrUpdateMemberAuth_through (none_ : NoRequest me world) (through : Nat)
    (studentId passwordHash : String) :
    (upholding me).Through world (createOrUpdateMemberAuth through studentId passwordHash) fun _ reached =>
      NoRequest me reached ∧ ∀ id, reached.signupRequests.row me id = world.signupRequests.row me id := by
  have published : ∀ middle, NoRequest me middle → middle.signupRequests = world.signupRequests →
      (upholding me).Through middle (ask .commit) fun _ reached =>
        NoRequest me reached ∧ ∀ id, reached.signupRequests.row me id = world.signupRequests.row me id := by
    intro middle middleNone same
    refine .ask (fun _ => middleNone.commit.accounted) fun _ reached after => ?_
    refine ⟨middleNone.step rfl after, fun id => ?_⟩
    obtain ⟨choice, done⟩ := after
    rcases answering.exec_cases done with ⟨reason, -, failed, -⟩ | ⟨-, done⟩
    · cases failed
    · cases done
      rw [middleNone.commit_row, same]
  refine through_read (fun _ => world.auths.row me studentId) (fun _ => rfl) nofun fun choice => ?_
  split
  · refine .step nofun fun _ reached after => ?_
    have kept := none_.step rfl after
    obtain ⟨-, choice, done⟩ := answered after nofun
    rcases insertAuth_cases done with ⟨⟨reason, failed⟩, -⟩ | ⟨-, rfl⟩
    · cases failed
    · exact published _ kept rfl
  · refine .step nofun fun _ reached after => ?_
    have kept := none_.step rfl after
    obtain ⟨-, choice, done⟩ := answered after nofun
    rcases updateAuth_cases done with ⟨⟨reason, failed⟩, -⟩ | ⟨-, rfl⟩
    · cases failed
    · exact published _ kept rfl

/-- An activation turns an approved request into an activated one, and both are counted as granted. -/
theorem activateMember_through (untouched : Untouched me world) (token : Option ActivationPayload)
    (passwordHash : String) :
    (upholding me).Through world (activateMember token passwordHash) fun _ _ => True := by
  cases token with
  | none => exact .raise
  | some payload =>
    refine (resolveActivationSignupRequest_through payload nofun).bind ?_
    rintro row world ⟨rfl, seen, student, approved⟩
    refine (resolveActivationMember_through payload.studentId nofun).bind ?_
    rintro _ world ⟨rfl, -⟩
    refine (createOrUpdateMemberAuth_through untouched.toNoRequest _ payload.studentId passwordHash).bind ?_
    rintro _ saved ⟨undrafted, same⟩
    refine through_read (fun choice => choice.now) (fun _ => rfl) nofun fun choice => ?_
    refine undrafted.flush (by rw [same, seen]) fun deciding one => ?_
    -- The request was granted before: an approved one becomes an activated one.
    have before : saved.signupRequests.committed payload.signupRequestId = some row := by
      rw [undrafted.request_committed, same, seen]
    refine one.publish (fun _ => .inl ?_) fun _ => refresh_through
    rw [Table.write_committed, before]
    simp [Table.accepts, isGranted, flushedRequest, approved]

/-- A direct creation grants one request to a student who was no member, and makes the member active. -/
theorem createMemberDirect_through (text : TextRules) (untouched : Untouched me world)
    (payload : DirectMemberCreatePayload) :
    (upholding me).Through world (createMemberDirect text payload) fun _ _ => True := by
  refine through_read (fun _ => world.members.row me payload.studentId) (fun _ => rfl) nofun fun choice => ?_
  split
  · exact .raise
  · next absent =>
    refine through_read (fun _ => _) (fun _ => rfl) nofun fun choice => ?_
    split
    · exact .raise
    · refine .step nofun fun _ reached after => ?_
      obtain ⟨drafts, choice, done⟩ := answered after nofun
      rcases insertMember_cases done with ⟨⟨reason, failed⟩, -⟩ | ⟨-, -, -, rfl⟩
      · cases failed
      · have inactive : (world.members.row me payload.studentId).any
            (fun member => member.status = .active) = false := by
          rw [absent]
          rfl
        have undrafted : NoRequest me _ := ⟨untouched.accounted.drafts drafts, untouched.undrafted⟩
        refine .step nofun fun id reached after => ?_
        obtain ⟨drafts, choice, done⟩ := answered after nofun
        rcases insertSignupRequest_cases done with ⟨⟨reason, failed⟩, -⟩ | ⟨-, rfl⟩
        · cases failed
        · have one := undrafted.write drafts rfl
          have published : (upholding me).Through _ (ask .commit) fun _ _ => True :=
            .ask (fun _ => one.commit fun _ => .inr (untouched.activates inactive rfl)) fun _ _ _ => trivial
          refine (published.catch fun reason _ => memberConflict_through reason nofun).bind
            fun _ _ _ => ?_
          exact .step nofun fun _ _ _ => .ret trivial

theorem request_through (text : TextRules) (untouched : Untouched me world) (request : Request) :
    (upholding me).Through world (request.program text) fun _ _ => True := by
  have changes : LastSuperAdmin.changesMember request = true →
      (upholding me).Through world (request.program text) fun _ _ => True := by
    intro change
    have follows : (LastSuperAdmin.handler text).Follows {} (request.program text) :=
      LastSuperAdmin.request_follows change
    refine (untouched.toNoRequest.through follows (fun phase stmt allowed => ?_) fun _ _ => trivial).weaken
      fun _ _ _ => trivial
    cases stmt <;> first | rfl | exact absurd allowed id
  cases request with
  | updateMemberRoles _ _ _ | updateMemberProfileAdmin _ _ => exact changes rfl
  | createMemberDirect payload =>
    exact (createMemberDirect_through text untouched payload).bind fun _ _ _ => .ret trivial
  | createSignupRequest payload => exact createSignupRequest_through untouched payload
  | approveSignupRequest id decidedByStudentId =>
    exact (approveSignupRequest_through untouched id decidedByStudentId).bind fun _ _ _ => .ret trivial
  | rejectSignupRequest id decidedByStudentId rejectReason =>
    exact rejectSignupRequest_through untouched id decidedByStudentId rejectReason
  | reissueSignupActivationToken id issuedByStudentId =>
    exact (reissueSignupActivationToken_through untouched id issuedByStudentId).bind fun _ _ _ => .ret trivial
  | activateMember token passwordHash => exact activateMember_through untouched token passwordHash

/-! ## Sequential runs -/

/-- Members that are there already, and no request. -/
structure Start (world : World) : Prop where
  members : world.members.Quiet
  signupRequests : world.signupRequests = .empty
  deactivated : ∀ studentId, world.deactivated studentId = 0

structure Idle (config : Config machine Unit) : Prop where
  closed : ∀ me, config.pool me = none
  members : config.world.members.Quiet
  requests : config.world.signupRequests.Quiet
  accounted : Accounted config.world

structure Serving (me : SessionId) (program : Handler Unit) (config : Config machine Unit) : Prop where
  opened : config.pool me = some program
  closed : ∀ other, other ≠ me → config.pool other = none
  members : config.world.members.Only me
  requests : config.world.signupRequests.Only me
  accounted : Accounted config.world
  upholds : (upholding me).Through config.world program fun _ _ => True

theorem Start.idle (started : Start world) : Idle { world, pool := fun _ => none } where
  closed _ := rfl
  members := started.members
  requests id := by rw [started.signupRequests]; rfl
  accounted studentId := by
    have none_ : granted world studentId = 0 := by rw [granted, started.signupRequests]; rfl
    rw [none_]
    exact Nat.zero_le _

theorem Idle.untouched {config : Config machine Unit} (idle : Idle config) (me : SessionId) :
    Untouched me config.world where
  accounted := idle.accounted
  undrafted id version drafted := by simp [idle.requests id] at drafted
  members studentId version drafted := by simp [idle.members studentId] at drafted

/-- What a session works under. -/
def Within (me : SessionId) (world : World) : Prop :=
  world.members.Only me ∧ world.signupRequests.Only me ∧ Accounted world

/-- A session keeps what it works under, as long as it commits only where it may. -/
theorem Within.exec (within : Within me world) {stmt : Stmt} {choice : Choice}
    {reply : Except Failure (Reply stmt)} (allowed : (upholding me).allow world stmt)
    (done : Source.Accounts.exec me stmt choice world = some (reply, world')) :
    Within me world' := by
  obtain ⟨members, requests, accounted⟩ := within
  by_cases commits : stmt = .commit
  · subst commits
    have published := allowed rfl
    rcases answering.exec_cases done with ⟨reason, -, rfl, rfl⟩ | ⟨-, done⟩
    · exact ⟨members, requests, accounted⟩
    · cases done
      exact ⟨members.commit_quiet.only, requests.commit_quiet.only, published⟩
  · have drafts := exec_drafts done commits
    exact ⟨drafts.members.only members, drafts.signupRequests.only requests,
      accounted.drafts drafts⟩

/-- The transaction of a session that ends or crashes is rolled back. -/
theorem Within.leave (within : Within me world) :
    Idle { world := world.rollback me, pool := fun _ => none } where
  closed _ := rfl
  members := within.1.abort_quiet
  requests := within.2.1.abort_quiet
  accounted := within.2.2.drafts (world.rollback_drafts me)

/-- Requests that come one after the other keep the granted requests accounted for, whatever fails or
crashes. -/
theorem accounting_keeps (text : TextRules) :
    Sequential.Keeps machine (Request.program text) (fun _ me => upholding me)
      (fun world => Idle { world, pool := fun _ => none }) fun _ => Within where
  opens request me _ idle :=
    ⟨⟨idle.members.only, idle.requests.only, idle.accounted⟩,
      request_through text (idle.untouched me) request⟩
  exec _ _ _ _ choice _ _ within allowed done := ⟨within.exec allowed done, choice, done⟩
  close _ _ _ within := within.leave
  crash _ _ _ within := within.leave
  inside := inferInstanceAs (IsEmpty Empty)

/-- At any time of a run no session is open, or a single one is and the rest of its request keeps the
account. -/
theorem SequentialRun.cases {text : TextRules} {initial : World} {config : Config machine Unit}
    (run : SequentialRun text initial config) (started : Start initial) :
    Idle config ∨ ∃ me program, Serving me program config := by
  obtain ⟨last, sequential⟩ := run
  rcases (accounting_keeps text).holds sequential started.idle with
    idle | ⟨request, me, program, -, serving⟩
  · have settled := idle.settled
    exact .inl ⟨idle.closed, settled.members, settled.requests, settled.accounted⟩
  · obtain ⟨members, requests, accounted⟩ := serving.working
    exact .inr ⟨me, program, serving.opened, serving.closed, members, requests, accounted,
      serving.through⟩

/-- A student has at most one granted request more than the member was taken out of active. -/
theorem SequentialRun.granted_le {text : TextRules} {initial : World} {config : Config machine Unit}
    (run : SequentialRun text initial config) (started : Start initial) (studentId : String) :
    granted config.world studentId ≤ 1 + config.world.deactivated studentId := by
  have accounted : Accounted config.world := by
    rcases run.cases started with idle | ⟨me, program, serving⟩
    · exact idle.accounted
    · exact serving.accounted
  have bound := accounted studentId
  have one := Bool.toNat_le (config.world.active studentId)
  omega

theorem granted_accepts {studentId : String} {id : Nat} {row : SignupRequest}
    (found : world.signupRequests.committed id = some row) (student : row.studentId = studentId)
    (status : row.status = .approved ∨ row.status = .activated) :
    Table.accepts (isGranted studentId) id (world.signupRequests.committed id) = true := by
  rw [found]
  simp only [Table.accepts, Option.map_some, Option.getD_some, isGranted, decide_eq_true_eq]
  exact ⟨student, status⟩

/-- The token of a request that is not approved is refused before anything is written. -/
theorem refused {id : Nat} {studentId passwordHash : String} {choices : Nat → Choice}
    {out : Except Failure Unit} {after : World}
    (refuses : ∀ row, world.signupRequests.row me id = some row → row.studentId = studentId →
      row.status ≠ .approved)
    (done : machine.eval me (activateMember (some ⟨id, studentId⟩) passwordHash) choices world =
      some (out, after)) : after = world ∧ ∃ reason, out = .error reason := by
  have raises : (activateMember (some ⟨id, studentId⟩) passwordHash).Ensures (machine.alone me fun _ => True)
      (fun _ _ => False) (fun _ reached => reached = world) world := by
    simp only [activateMember, resolveActivationSignupRequest, bind_eq, ensures_bind]
    refine (ensures_issue world).mpr ⟨fun choice _ => ?_, ?_, ?_⟩
    · simp only [machine, Source.Accounts.exec]
      split <;> rfl
    · rintro found reached ⟨choice, -, done⟩
      rcases answering.exec_cases done with ⟨reason, -, failed, -⟩ | ⟨-, done⟩
      · cases failed
      · cases done
        split
        · rfl
        · next row seen =>
          split
          · rfl
          · next student =>
            split
            · rfl
            · split
              · rfl
              · next approved =>
                exact absurd (by simpa using approved) (refuses row seen (by simpa using student))
    · rintro reason reached ⟨choice, -, done⟩
      rcases answering.exec_cases done with ⟨failed, -, -, rfl⟩ | ⟨-, done⟩
      · rfl
      · cases done
  obtain ⟨ended, reached, evaluated, told⟩ :=
    @Machine.eval_of_ensures accounts machine _ me _ _ _ _ choices world raises fun _ => trivial
  rw [done] at evaluated
  cases evaluated
  cases out with
  | ok value => exact told.elim
  | error reason => exact ⟨told, reason, rfl⟩

/-- At every point of a sequential run, a student has at most one approved or activated request
more than the times that the member was taken out of active. While that has not happened, once
a request is activated the token of every other request of the student is refused. -/
theorem one_activatable_request (text : TextRules) (initial : World) (started : Start initial)
    (config : Config machine Unit) (run : SequentialRun text initial config) (studentId : String) :
    granted config.world studentId ≤ 1 + config.world.deactivated studentId ∧
      (config.world.deactivated studentId = 0 → (∀ me, config.pool me = none) →
        ∀ id row, config.world.signupRequests.committed id = some row → row.studentId = studentId →
          row.status = .activated → ∀ other, other ≠ id → ∀ me passwordHash choices out after,
            machine.eval me (activateMember (some ⟨other, studentId⟩) passwordHash) choices config.world =
              some (out, after) → after = config.world ∧ ∃ reason, out = .error reason) := by
  have bound := run.granted_le started studentId
  refine ⟨bound, ?_⟩
  intro kept closed id row found student activated other different me passwordHash choices out after done
  refine refused (fun second seen sameStudent approved => ?_) done
  rcases run.cases started with idle | ⟨open_, program, serving⟩
  · rw [idle.requests.row_eq] at seen
    have one := granted_accepts found student (.inr activated)
    have two := granted_accepts seen sameStudent (.inl approved)
    have both : 2 ≤ granted config.world studentId := Table.two_le_countCommitted (Ne.symm different) one two
    omega
  · have opened := serving.opened
    rw [closed open_] at opened
    cases opened

/-! ## Requests in turn -/

/-- Each request runs to its end before the next one starts. -/
def inTurn (text : TextRules) (world : World) : List Request → Option World
  | [] => some world
  | request :: rest =>
    match machine.eval 0 (request.program text) (fun _ => {}) world with
    | some (_, after) => inTurn text (after.rollback 0) rest
    | none => none

theorem inTurn_eq_turns (text : TextRules) (world : World) (requests : List Request) :
    inTurn text world requests =
      machine.turns (Request.program text)
        (requests.map fun request => { me := 0, request, choices := fun _ => {} }) world := by
  induction requests generalizing world with
  | nil => rfl
  | cons request rest ih =>
    simp only [inTurn, List.map_cons, Machine.turns]
    cases machine.eval 0 (request.program text) (fun _ => {}) world with
    | none => rfl
    | some ended => exact ih (ended.2.rollback 0)

theorem SequentialRun.start (text : TextRules) (initial : World) :
    SequentialRun text initial { world := initial, pool := fun _ => none } := ⟨none, .start⟩

theorem SequentialRun.inTurn {text : TextRules} {initial : World} {requests : List Request}
    {world after : World} (before : SequentialRun text initial { world, pool := fun _ => none })
    (served : SignupUniqueness.inTurn text world requests = some after) :
    SequentialRun text initial { world := after, pool := fun _ => none } := by
  obtain ⟨last, sequential⟩ := before
  rw [inTurn_eq_turns] at served
  exact sequential.turns served

def application : SignupRequestCreate :=
  { studentId := "kim", email := "kim@x", name := "kim", cohort := 1, phone := "1" }

/-- A student applies, is approved and activated. -/
def activation : List Request :=
  [.createSignupRequest application, .approveSignupRequest 0 "root", .activateMember (some ⟨0, "kim"⟩) "first"]

theorem blank_start : Start World.blank where
  members _ := rfl
  signupRequests := rfl
  deactivated _ := rfl

set_option maxRecDepth 10000 in
theorem one_activatable_request_activation : ∃ world, inTurn .plain .blank activation = some world ∧
    (world.signupRequests.committed 0).map (·.status) = some .activated ∧ granted world "kim" ≤ 1 ∧
      ∀ choices out after, machine.eval 0 (activateMember (some ⟨1, "kim"⟩) "second") choices world =
        some (out, after) → after = world ∧ ∃ reason, out = .error reason := by
  have ran : (inTurn .plain .blank activation).map (fun world =>
      (world.signupRequests.committed 0, world.deactivated "kim")) =
      some (some { application.row with
        status := .activated, decidedAt := some 0, activatedAt := some 0
        decidedByStudentId := some "root" }, 0) := by decide
  obtain ⟨world, served, same⟩ := Option.map_eq_some_iff.mp ran
  simp only [Prod.mk.injEq] at same
  obtain ⟨found, kept⟩ := same
  have unique := one_activatable_request .plain .blank blank_start _
    ((SequentialRun.start .plain .blank).inTurn served) "kim"
  refine ⟨world, served, by rw [found]; rfl, by have bound := unique.1; rw [kept] at bound; exact bound, ?_⟩
  exact fun choices out after => unique.2 kept (fun _ => rfl) 0 _ found rfl rfl 1 (by decide) 0 "second"
    choices out after

/-- After an approval the member is suspended, and the student applies and is approved again. -/
def reapplication : List Request :=
  [.createSignupRequest application, .approveSignupRequest 0 "root",
    .updateMemberProfileAdmin "kim" { status := some (some .suspended) },
    .createSignupRequest application, .approveSignupRequest 1 "root"]

set_option maxRecDepth 10000 in
/-- Two requests of the student are approved, and the tokens of both store a password. -/
theorem reapplication_approves_twice : ∃ twice first second,
    SequentialRun .plain .blank { world := twice, pool := fun _ => none } ∧
      (twice.signupRequests.committed 0).map (fun row => (row.studentId, row.status)) = some ("kim", .approved) ∧
      (twice.signupRequests.committed 1).map (fun row => (row.studentId, row.status)) = some ("kim", .approved) ∧
      inTurn .plain twice [.activateMember (some ⟨0, "kim"⟩) "first"] = some first ∧
      (first.signupRequests.committed 0).map (·.status) = some .activated ∧
      inTurn .plain first [.activateMember (some ⟨1, "kim"⟩) "second"] = some second ∧
      (second.auths.committed "kim").map (·.passwordHash) = some "second" := by
  have ran : ((inTurn .plain .blank reapplication).bind fun twice =>
      (inTurn .plain twice [.activateMember (some ⟨0, "kim"⟩) "first"]).bind fun first =>
        (inTurn .plain first [.activateMember (some ⟨1, "kim"⟩) "second"]).map fun second =>
          ((twice.signupRequests.committed 0).map (fun row => (row.studentId, row.status)),
            (twice.signupRequests.committed 1).map (fun row => (row.studentId, row.status)),
            (first.signupRequests.committed 0).map (·.status),
            (second.auths.committed "kim").map (·.passwordHash))) =
      some (some ("kim", .approved), some ("kim", .approved), some .activated, some "second") := by decide
  obtain ⟨twice, served, later⟩ := Option.bind_eq_some_iff.mp ran
  obtain ⟨first, once, later⟩ := Option.bind_eq_some_iff.mp later
  obtain ⟨second, again, same⟩ := Option.map_eq_some_iff.mp later
  simp only [Prod.mk.injEq] at same
  exact ⟨twice, first, second, (SequentialRun.start .plain .blank).inTurn served, same.1, same.2.1,
    once, same.2.2.1, again, same.2.2.2⟩

end SogeconApp.Guarantees.SignupUniqueness
