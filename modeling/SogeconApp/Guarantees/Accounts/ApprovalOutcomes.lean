import SogeconApp.Guarantees.Accounts.SuperAdminGuard
import SogeconApp.Guarantees.Accounts.UniqueColumns

/-!
# How an approval ends

The member row of an approval takes the e-mail address of the request, and nothing asks before
whether another member has it: a request is checked for a member of its student id only. The write is
refused then by the column, and unlike the administrator's writes the approval does not turn that
into a conflict of the API.
-/

namespace SogeconApp.Guarantees.ApprovalOutcomes

open Library Program Source.Accounts
open AccountsAlone UniqueColumns

/-- The errors of the API that an approval raises. -/
def approvalCodes : List String :=
  ["signup_request_not_found", "signup_request_not_pending", "member_already_active"]

/-- No row has changed. -/
structure SameRows (before after : World) : Prop where
  members : ∀ studentId, after.members.committed studentId = before.members.committed studentId
  signupRequests : ∀ id, after.signupRequests.committed id = before.signupRequests.committed id
  issueLogs : ∀ id, after.issueLogs.committed id = before.issueLogs.committed id
  auths : ∀ studentId, after.auths.committed studentId = before.auths.committed studentId

/-- A success, or an error of the API that leaves every row as it was. -/
def Domain {α : Type} (out : Except Failure α) (before after : World) : Prop :=
  ∀ reason, out = .error reason → (∃ code ∈ approvalCodes, reason = .api code) ∧ SameRows before after

/-- No other member has the address that the approval stores, if it stores one. -/
def AddressFree (world : World) (id : Nat) : Prop :=
  ∀ request, world.signupRequests.committed id = some request → request.status = .pending →
    world.active request.studentId = false →
      ∀ other member, other ≠ request.studentId → world.members.committed other = some member →
        member.email ≠ some request.email

section Approval

variable {α : Type} {me : SessionId} {world : World} {studentId : String} {row : Member}

theorem rollback_sameRows (me : SessionId) (world : World) : SameRows world (world.rollback me) where
  members _ := Table.abort_committed
  signupRequests _ := Table.abort_committed
  issueLogs _ := Table.abort_committed
  auths _ := Table.abort_committed

/-- With a free number the write of a row depends on the address. -/
theorem storeMember_written (solo : Solo me world) {reply : Except Failure Unit} {after : World}
    (done : storeMember me studentId (world.members.write me studentId (some row)) world =
      some (reply, after))
    (phone : ¬Taken Member.phone (world.members.row me) studentId row.phone) :
    reply = .error (.unique .memberEmail) ∧ Taken Member.email (world.members.row me) studentId row.email ∨
      reply = .ok () ∧ ¬Taken Member.email (world.members.row me) studentId row.email ∧
        after = { world with members := world.members.write me studentId (some row) } := by
  have own : (world.members.write me studentId (some row)).row me studentId = some row := by
    rw [Table.row_write, if_pos rfl]
  rw [storeMember_eq (solo.members.write studentId (some row)) own, taken_write, taken_write] at done
  split at done
  · next taken =>
    cases done
    exact .inl ⟨rfl, taken⟩
  · next free =>
    cases done
    exact .inr ⟨rfl, free, rfl⟩

/-- What the rest of the approval starts from: the member row is written, nothing else is. -/
def Saved (me : SessionId) (before after : World) : Prop :=
  Solo me after ∧ after.signupRequests = before.signupRequests

theorem saveApprovedMember_ends {request : SignupRequest} (constrained : Constrained world)
    (inactive : world.active request.studentId = false) :
    let taken := Taken Member.email (world.members.row me) request.studentId (some request.email)
    Ensures (machine.replies me Works) (fun _ after => ¬taken ∧ Saved me world after)
      (fun reason _ => reason = .unique .memberEmail ∧ taken)
      (saveApprovedMember request (world.members.row me request.studentId)) world := by
  intro taken
  have solo := constrained.toResting.solo me
  have saved (latest : Member) :
      Saved me world { world with
        members := world.members.write me request.studentId (some latest) } :=
    ⟨⟨solo.members.write _ _, solo.signupRequests, solo.issueLogs, solo.auths, solo.advisory⟩, rfl⟩
  cases found : world.members.row me request.studentId with
  | none =>
    refine (ensures_issue world).mpr ⟨trivial, fun answer after moved => ?_, fun reason after moved => ?_⟩
    all_goals
      obtain ⟨choice, done⟩ := replied moved
      simp only [Source.Accounts.answer, insertMember, solo.members.insertRow, found,
        Option.bind_eq_bind, Option.bind_some, if_true] at done
      rcases storeMember_written solo done (fun held => held.1 rfl) with
        ⟨ended, held⟩ | ⟨ended, free, rfl⟩
      all_goals cases ended
    · exact ⟨free, saved _⟩
    · exact ⟨rfl, held⟩
  | some member =>
    -- The loaded row is not active, so it is written.
    have stale : member.status ≠ .active := by
      intro active
      rw [constrained.members.row_eq] at found
      simp [World.active, found, active] at inactive
    have different : { member with
        email := some request.email, name := request.name, cohort := request.cohort
        major := request.major, status := .active } ≠ member := by
      intro same
      exact stale (congrArg Member.status same).symm
    -- Its number is its own.
    have phone : ¬Taken Member.phone (world.members.row me) request.studentId member.phone := by
      rintro ⟨some_, other, row, apart, seen, same⟩
      obtain ⟨number, numbered⟩ := Option.ne_none_iff_exists'.mp some_
      exact (constrained.keyed me).view.phone request.studentId other member row number
        (Ne.symm apart) found seen numbered (same.trans numbered)
    simp only [saveApprovedMember, saveMember, if_neg different]
    refine (ensures_issue world).mpr ⟨trivial, fun answer after moved => ?_, fun reason after moved => ?_⟩
    all_goals
      obtain ⟨choice, done⟩ := replied moved
      simp only [Source.Accounts.answer, flushMember, solo.members.updateRow, found, if_true,
        Option.bind_eq_bind, Option.bind_some, flushedMember_loaded] at done
      rcases storeMember_written solo done phone with ⟨ended, held⟩ | ⟨ended, free, rfl⟩
      all_goals cases ended
    · exact ⟨free, saved _⟩
    · exact ⟨rfl, held⟩

/-- Nothing that follows the member row is refused. -/
theorem recordApproval_ends {request latest : SignupRequest} {log : SignupActivationIssueLog}
    {id : Nat} {value : α} (solo : Solo me world)
    (found : world.signupRequests.row me id = some request) :
    Ensures (machine.replies me Works) (fun _ _ => True) (fun _ _ => False)
      (do
        ask (.flushSignupRequest id request latest)
        ask (.insertIssueLog log)
        ask .refresh
        ask .commit
        ask .refresh
        pure value) world := by
  refine ensures_ask (fun choice _ flushed _ => ?_) fun choice reason after done => ?_
  · refine ensures_known (fun _ => ()) (fun _ => insertIssueLog me log flushed) (fun _ => rfl) fun _ => ?_
    refine ensures_read () (fun _ => rfl) ?_
    refine ensures_known (fun _ => ()) (fun _ => (insertIssueLog me log flushed).commit me)
      (fun _ => rfl) fun _ => ?_
    exact ensures_read () (fun _ => rfl) trivial
  · simp [Source.Accounts.answer, flushSignupRequest, solo.signupRequests.updateRow, found] at done

/-- How an approval ends, by whether the address is free. -/
theorem approveSignupRequest_ends (constrained : Constrained world) (id : Nat)
    (decidedByStudentId : String) :
    Ensures (machine.replies me Works) (fun _ _ => AddressFree world id)
      (fun reason after => (∃ code ∈ approvalCodes, reason = .api code) ∧ after = world ∧
          AddressFree world id ∨ reason = .unique .memberEmail ∧ ¬AddressFree world id)
      (approveSignupRequest id decidedByStudentId) world := by
  unfold approveSignupRequest signupRequestById
  rw [bind_eq, ensures_bind]
  refine ensures_read (world.signupRequests.row me id) (fun _ => rfl) ?_
  have rows := constrained.signupRequests.row_eq me id
  cases found : world.signupRequests.row me id with
  | none =>
    refine .inl ⟨⟨_, by decide, rfl⟩, rfl, fun request stored => ?_⟩
    rw [← rows, found] at stored
    cases stored
  | some request =>
    have free_iff : AddressFree world id ↔ (request.status = .pending →
        world.active request.studentId = false →
          ¬Taken Member.email (world.members.row me) request.studentId (some request.email)) := by
      have view : world.members.row me = world.members.committed :=
        funext fun key => constrained.members.row_eq me key
      rw [view]
      constructor
      · rintro free pending inactive ⟨-, other, member, apart, seen, same⟩
        exact free request (rows ▸ found) pending inactive other member apart seen same
      · intro free request' stored pending inactive other member apart seen same
        rw [← rows, found, Option.some.injEq] at stored
        subst stored
        exact free pending inactive ⟨by simp, other, member, apart, seen, same⟩
    show Ensures _ _ _ (if request.status ≠ .pending then _ else _) world
    split
    · next decided =>
      exact .inl ⟨⟨_, by decide, rfl⟩, rfl, free_iff.mpr fun pending => absurd pending decided⟩
    · next waiting =>
      have pending : request.status = .pending := not_not.mp waiting
      refine ensures_read (world.members.row me request.studentId) (fun _ => rfl) ?_
      have active : world.active request.studentId =
          (world.members.row me request.studentId).any fun member => member.status = .active := by
        rw [World.active, constrained.members.row_eq]
      rw [← active]
      split
      · next active =>
        refine .inl ⟨⟨_, by decide, rfl⟩, rfl, free_iff.mpr fun _ inactive => ?_⟩
        rw [active] at inactive
        cases inactive
      · next inactive =>
        rw [Bool.not_eq_true] at inactive
        refine ensures_known Choice.now (fun _ => world) (fun _ => rfl) fun choice => ?_
        rw [bind_eq, ensures_bind]
        refine (saveApprovedMember_ends constrained inactive).weaken ?_ ?_
        · rintro _ after ⟨free, solo, kept⟩
          refine (recordApproval_ends solo (by rw [kept]; exact found)).weaken (fun _ _ _ => ?_) nofun
          exact free_iff.mpr fun _ _ => free
        · rintro reason after ⟨rfl, taken⟩
          exact .inr ⟨rfl, fun free => free_iff.mp free pending inactive taken⟩

end Approval

/-- The database after the requests. -/
def reached (requests : List Request) : World :=
  (machine.turns (Request.program .plain) (inSequence requests) .blank).getD .blank

theorem reached_constrained (requests : List Request) : Constrained (reached requests) := by
  unfold reached
  cases served : machine.turns (Request.program .plain) (inSequence requests) .blank with
  | none => exact blank_constrained
  | some after => exact constrained_turns blank_constrained served

def kim : SignupRequestCreate :=
  { studentId := "kim", email := "office@sogang.ac.kr", name := "kim", cohort := 1, phone := "01012345678" }

def lee : SignupRequestCreate :=
  { studentId := "lee", email := "office@sogang.ac.kr", name := "lee", cohort := 1, phone := "01023456789" }

end SogeconApp.Guarantees.ApprovalOutcomes
