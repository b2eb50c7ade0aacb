import SogeconApp.Source.Accounts.Signup

/-!
# The decision on a signup request

Approving and rejecting read the request, check that it is pending and write it by its key
later. A decision that another one has overtaken is written all the same. As long as each
decision is written over a row that is pending still, one decision on a request takes effect
at most, it stays, and members and tokens come from approved requests only.
-/

namespace SogeconApp.Guarantees.SignupDecision

open Library Program Source.Accounts

/-- The decisions on a request that have taken effect, oldest first. -/
def decisions (world : World) (id : Nat) : List SignupStatus :=
  (world.decided.filter fun decision => decision.1 = id).map Prod.snd

/-- What has become of the requests of one state in a later one. -/
structure DecidedOnce (before after : World) : Prop where
  once : ∀ id, decisions after id = [] ∧
      after.signupRequests.committed id = before.signupRequests.committed id ∨
    ∃ row, after.signupRequests.committed id = some row ∧ decisions after id = [row.status]
  members : ∀ studentId, after.members.committed studentId ≠ before.members.committed studentId →
    ∃ id row, after.signupRequests.committed id = some row ∧ row.studentId = studentId ∧
      row.status = .approved ∧ decisions after id = [.approved]
  rejected : ∀ id row, after.signupRequests.committed id = some row → row.status = .rejected →
    ∀ key log, after.issueLogs.committed key = some log → log.signupRequestId = id →
      before.issueLogs.committed key = some log

/-- The status of the request is written over a row that is not pending. -/
def overwrites (world : World) (me : SessionId) : Stmt → Bool
  | .flushSignupRequest id _ _ => (world.signupRequests.row me id).any fun row => row.status ≠ .pending
  | _ => false

def StillPending (world : World) (me : SessionId) (stmt : Stmt) (choice : Choice) : Prop :=
  choice.fails = none → overwrites world me stmt = false

instance (world : World) (me : SessionId) (stmt : Stmt) (choice : Choice) :
    Decidable (StillPending world me stmt choice) :=
  inferInstanceAs (Decidable (_ → _))

/-! ## Phases -/

/-- The member row and the decision that the open transaction of a session has drafted. -/
structure Phase where
  saved : Option String := none
  decision : Option (Nat × SignupStatus) := none

def Phase.next (phase : Phase) : (stmt : Stmt) → Except Failure (Reply stmt) → Phase
  | .insertMember studentId _, .ok _ | .flushMember studentId _ _, .ok _ =>
    { phase with saved := some studentId }
  | .flushSignupRequest id _ latest, .ok _ => { phase with decision := some (id, latest.status) }
  | .commit, .ok _ => {}
  | _, _ => phase

/-- A member is saved with the approval of a request of the student, or not at all. -/
def Phase.allow (student : Nat → String) (phase : Phase) : Stmt → Prop
  | .now | .getMember _ | .getSignupRequest _ | .refresh => True
  | .insertMember .. | .flushMember .. => phase.saved = none
  | .flushSignupRequest _ loaded latest =>
    phase.decision = none ∧ loaded.status = .pending ∧ latest.status ≠ .pending
  | .insertIssueLog log => phase.decision = some (log.signupRequestId, .approved)
  | .commit => ∀ studentId, phase.saved = some studentId →
      ∃ id, phase.decision = some (id, .approved) ∧ student id = studentId
  | _ => False

abbrev handler (student : Nat → String) : Protocol accounts where
  Phase := Phase
  gone := {}
  allow := Phase.allow student
  next := Phase.next
  answers stmt answer :=
    match stmt, answer with
    | .getSignupRequest id, some row => row.studentId = student id
    | _, _ => True

variable {student : Nat → String}

/-- The request that is read is one of the student it was created for. -/
theorem signupRequestById_through (phase : Phase) (id : Nat) :
    (handler student).Through phase (signupRequestById id)
      fun row reached => reached = phase ∧ row.studentId = student id := by
  refine .step trivial fun found known => ?_
  cases found with
  | none => exact .raise
  | some row => exact .ret ⟨rfl, known⟩

theorem saveMember_through (studentId : String) (loaded latest : Member) :
    (handler student).Through {} (saveMember studentId loaded latest) fun _ reached =>
      reached.decision = none ∧ ∀ saved, reached.saved = some saved → saved = studentId := by
  unfold saveMember
  split
  · exact .ret ⟨rfl, fun saved named => by cases named⟩
  · exact .ask rfl fun _ _ => ⟨rfl, fun saved named => (Option.some.inj named).symm⟩

theorem saveApprovedMember_through (row : SignupRequest) (member : Option Member) :
    (handler student).Through {} (saveApprovedMember row member) fun _ reached =>
      reached.decision = none ∧ ∀ saved, reached.saved = some saved → saved = row.studentId := by
  unfold saveApprovedMember
  split
  · exact .ask rfl fun _ _ => ⟨rfl, fun saved named => (Option.some.inj named).symm⟩
  · exact saveMember_through row.studentId _ _

/-- An approval saves the member of the request, decides the request and issues its token, and commits
them together. -/
theorem approveSignupRequest_through (id : Nat) (decidedByStudentId : String) :
    (handler student).Through {} (approveSignupRequest id decidedByStudentId) fun _ _ => True := by
  refine (signupRequestById_through _ id).bind ?_
  rintro row _ ⟨rfl, same⟩
  split
  · exact .raise
  · next pending =>
    refine .step trivial fun member _ => ?_
    split
    · exact .raise
    · refine .step trivial fun decidedAt _ => ?_
      refine (saveApprovedMember_through row member).bind ?_
      rintro _ phase ⟨undecided, saved⟩
      have loaded : row.status = .pending := by simpa using pending
      refine .step ⟨undecided, loaded, by simp⟩ fun _ _ => ?_
      refine .step rfl fun _ _ => .step trivial fun _ _ => ?_
      refine .step (fun studentId named => ⟨id, rfl, ?_⟩) fun _ _ => ?_
      · rw [saved studentId named, same]
      · exact .step trivial fun _ _ => .ret trivial

theorem rejectSignupRequest_through (id : Nat) (decidedByStudentId rejectReason : String) :
    (handler student).Through {} (rejectSignupRequest id decidedByStudentId rejectReason) fun _ _ => True := by
  refine (signupRequestById_through _ id).bind ?_
  rintro row _ ⟨rfl, -⟩
  split
  · exact .raise
  · next pending =>
    refine .step trivial fun decidedAt _ => ?_
    have loaded : row.status = .pending := by simpa using pending
    refine .step ⟨rfl, loaded, by simp⟩ fun _ _ => .step (fun studentId named => ?_) fun _ _ => ?_
    · cases named
    · exact .ask trivial fun _ _ => trivial

/-- An approval or a rejection. -/
def decides : Request → Bool
  | .approveSignupRequest .. | .rejectSignupRequest .. => true
  | _ => false

theorem request_follows {text : TextRules} {request : Request} (decision : decides request = true) :
    (handler student).Follows {} (request.program text) := by
  cases request with
  | approveSignupRequest id decidedByStudentId =>
    have through : (handler student).Through {}
        (Request.program text (.approveSignupRequest id decidedByStudentId)) fun _ _ => True :=
      (approveSignupRequest_through id decidedByStudentId).bind fun _ _ _ => .ret trivial
    exact through.follows
  | rejectSignupRequest id decidedByStudentId rejectReason =>
    exact (rejectSignupRequest_through id decidedByStudentId rejectReason).follows
  | updateMemberRoles _ _ _ | updateMemberProfileAdmin _ _ | createMemberDirect _ | createSignupRequest _
  | reissueSignupActivationToken _ _ | activateMember _ _ => cases decision

/-! ## The invariant -/

def studentOf (before : World) (id : Nat) : String :=
  ((before.signupRequests.committed id).map (·.studentId)).getD ""

def pendingIn (world : World) (id : Nat) : Bool :=
  (world.signupRequests.committed id).any fun row => row.status = .pending

/-- The student has a request whose approval has taken effect. -/
def Approved (world : World) (studentId : String) : Prop :=
  ∃ id row, world.signupRequests.committed id = some row ∧ row.studentId = studentId ∧
    row.status = .approved ∧ decisions world id = [.approved]

structure DecisionInv (before world : World) (phase : SessionId → Phase) : Prop where
  saved : world.members.Drafted fun me => (phase me).saved
  deciding : ∀ me, world.deciding me = (phase me).decision
  drafted : ∀ me id status, (phase me).decision = some (id, status) →
    ∃ version, (world.signupRequests.slot id).draft = some (me, version)
  drafts : ∀ id owner version, (world.signupRequests.slot id).draft = some (owner, version) →
    ∃ row, version = some row ∧ (phase owner).decision = some (id, row.status) ∧ row.status ≠ .pending ∧
      row.studentId = studentOf before id ∧ pendingIn world id = true
  logs : ∀ key owner version, (world.issueLogs.slot key).draft = some (owner, version) →
    ∃ log, version = some log ∧ (phase owner).decision = some (log.signupRequestId, .approved)
  settled : ∀ id, decisions world id = [] ∧
      world.signupRequests.committed id = before.signupRequests.committed id ∨
    ∃ row, world.signupRequests.committed id = some row ∧ decisions world id = [row.status] ∧
      row.status ≠ .pending ∧ row.studentId = studentOf before id
  members : ∀ studentId, world.members.committed studentId ≠ before.members.committed studentId →
    Approved world studentId
  tokens : ∀ key log, world.issueLogs.committed key = some log →
    before.issueLogs.committed key = some log ∨
      (world.signupRequests.committed log.signupRequestId).any (fun row => row.status = .approved) = true

variable {before world world' : World} {phase : SessionId → Phase} {me : SessionId}

/-- A request that is read belongs to the student it belonged to at the start. -/
theorem DecisionInv.student_of (inv : DecisionInv before world phase) {id : Nat} {row : SignupRequest}
    (seen : world.signupRequests.row me id = some row) : row.studentId = studentOf before id := by
  rcases Table.row_cases me world.signupRequests id with committed | drafted
  · rw [seen] at committed
    rcases inv.settled id with ⟨-, same⟩ | ⟨other, found, -, -, same⟩
    · rw [committed] at same
      simp [studentOf, ← same]
    · rw [committed] at found
      cases found
      exact same
  · rw [seen] at drafted
    obtain ⟨other, same, -, -, student, -⟩ := inv.drafts id me _ drafted
    cases same
    exact student

/-- A row is pending only as long as nothing has been decided. -/
theorem DecisionInv.undecided (inv : DecisionInv before world phase) {id : Nat}
    (pending : pendingIn world id = true) : decisions world id = [] := by
  rcases inv.settled id with ⟨none_, -⟩ | ⟨row, found, -, decided, -⟩
  · exact none_
  · simp [pendingIn, found, decided] at pending

/-- A commit adds the decision of the session to those of its request, behind the earlier ones. -/
theorem decisions_commit (world : World) (me : SessionId) (id : Nat) :
    decisions (world.commit me) id = decisions world id ++
      ((world.deciding me).toList.filter fun decision => decision.1 = id).map Prod.snd := by
  simp [decisions, World.commit]

section Commit

variable {id : Nat} {status : SignupStatus}

/-- The row that the session has decided. -/
theorem DecisionInv.decided (inv : DecisionInv before world phase)
    (decision : (phase me).decision = some (id, status)) :
    ∃ row, (world.commit me).signupRequests.committed id = some row ∧ row.status = status ∧
      decisions (world.commit me) id = [status] ∧ status ≠ .pending ∧ row.studentId = studentOf before id ∧
      pendingIn world id = true := by
  obtain ⟨version, draft⟩ := inv.drafted me id status decision
  obtain ⟨row, rfl, mine, unpending, student, pending⟩ := inv.drafts id me version draft
  rw [decision, Option.some.injEq, Prod.mk.injEq] at mine
  obtain ⟨-, rfl⟩ := mine
  refine ⟨row, Table.committed_commit_of_draft draft, rfl, ?_, unpending, student, pending⟩
  rw [decisions_commit, inv.deciding, decision, inv.undecided pending]
  simp

/-- Every other request stays as it is. -/
theorem DecisionInv.others (inv : DecisionInv before world phase) {other : Nat}
    (apart : ∀ status, (phase me).decision ≠ some (other, status)) :
    (world.commit me).signupRequests.committed other = world.signupRequests.committed other ∧
      decisions (world.commit me) other = decisions world other := by
  constructor
  · refine Table.committed_commit_of_not_mine fun version draft => ?_
    obtain ⟨row, -, mine, -⟩ := inv.drafts other me version draft
    exact apart row.status mine
  · rw [decisions_commit, inv.deciding]
    cases decision : (phase me).decision with
    | none => simp
    | some decided =>
      obtain ⟨id, status⟩ := decided
      have different : id ≠ other := by
        rintro rfl
        exact apart status decision
      simp [different]

/-- A request that is not pending is not the one that the session decides. -/
theorem DecisionInv.settled_stays (inv : DecisionInv before world phase) {other : Nat}
    (settled : pendingIn world other = false) :
    (world.commit me).signupRequests.committed other = world.signupRequests.committed other ∧
      decisions (world.commit me) other = decisions world other := by
  refine inv.others fun status decision => ?_
  obtain ⟨-, -, -, -, -, -, pending⟩ := inv.decided decision
  rw [settled] at pending
  cases pending

theorem DecisionInv.approved_stays (inv : DecisionInv before world phase) {studentId : String}
    (approved : Approved world studentId) : Approved (world.commit me) studentId := by
  obtain ⟨other, row, found, student, approved, decided⟩ := approved
  have settled : pendingIn world other = false := by simp [pendingIn, found, approved]
  have stays : (world.commit me).signupRequests.committed other = world.signupRequests.committed other ∧
      decisions (world.commit me) other = decisions world other := inv.settled_stays settled
  obtain ⟨same, also⟩ := stays
  exact ⟨other, row, by rw [same, found], student, approved, by rw [also, decided]⟩

/-- The end of a transaction: what the session had drafted is gone or published. -/
theorem DecisionInv.leave (inv : DecisionInv before world phase)
    (membersEnded : world.members.Ended me world'.members)
    (requestsEnded : world.signupRequests.Ended me world'.signupRequests)
    (logsEnded : world.issueLogs.Ended me world'.issueLogs)
    (deciding : world'.deciding = Function.update world.deciding me none)
    (settled : ∀ id, decisions world' id = [] ∧
        world'.signupRequests.committed id = before.signupRequests.committed id ∨
      ∃ row, world'.signupRequests.committed id = some row ∧ decisions world' id = [row.status] ∧
        row.status ≠ .pending ∧ row.studentId = studentOf before id)
    (members : ∀ studentId, world'.members.committed studentId ≠ before.members.committed studentId →
      Approved world' studentId)
    (tokens : ∀ key log, world'.issueLogs.committed key = some log →
      before.issueLogs.committed key = some log ∨
        (world'.signupRequests.committed log.signupRequestId).any (fun row => row.status = .approved) = true) :
    DecisionInv before world' (Function.update phase me {}) := by
  refine ⟨inv.saved.ended membersEnded fun other different => by simp [different], ?_, ?_, ?_, ?_, settled,
    members, tokens⟩
  · intro other
    rw [deciding]
    by_cases mine : other = me
    · subst mine
      simp
    · simp [mine, inv.deciding]
  · intro other id status decision
    by_cases mine : other = me
    · subst mine
      simp at decision
    · rw [Function.update_of_ne mine] at decision
      obtain ⟨version, draft⟩ := inv.drafted other id status decision
      exact ⟨version, (requestsEnded.draft id other version).mpr ⟨draft, mine⟩⟩
  · intro id owner version draft
    obtain ⟨earlier, different⟩ := (requestsEnded.draft id owner version).mp draft
    obtain ⟨row, same, decision, unpending, student, pending⟩ := inv.drafts id owner version earlier
    rw [Function.update_of_ne different]
    refine ⟨row, same, decision, unpending, student, ?_⟩
    rw [pendingIn, requestsEnded.kept_of_draft draft]
    exact pending
  · intro key owner version draft
    obtain ⟨earlier, different⟩ := (logsEnded.draft key owner version).mp draft
    rw [Function.update_of_ne different]
    exact inv.logs key owner version earlier

/-- A commit publishes a member only beside the approval of the request that it was saved for. -/
theorem DecisionInv.commit (inv : DecisionInv before world phase)
    (saved : ∀ studentId, (phase me).saved = some studentId →
      ∃ id, (phase me).decision = some (id, .approved) ∧ studentOf before id = studentId) :
    DecisionInv before (world.commit me) (Function.update phase me {}) := by
  refine inv.leave (Table.commit_ended me world.members) (Table.commit_ended me world.signupRequests)
    (Table.commit_ended me world.issueLogs) rfl ?_ ?_ ?_
  · intro id
    by_cases mine : ∃ status, (phase me).decision = some (id, status)
    · obtain ⟨status, decision⟩ := mine
      obtain ⟨row, found, rfl, decided, unpending, student, -⟩ := inv.decided decision
      exact .inr ⟨row, found, decided, unpending, student⟩
    · obtain ⟨same, also⟩ := inv.others fun status decision => mine ⟨status, decision⟩
      rw [same, also]
      exact inv.settled id
  · intro studentId changed
    by_cases drafted : ∃ version, (world.members.slot studentId).draft = some (me, version)
    · obtain ⟨version, draft⟩ := drafted
      obtain ⟨id, decision, rfl⟩ := saved studentId (inv.saved studentId me version draft)
      obtain ⟨row, found, approved, decided, -, student, -⟩ := inv.decided decision
      exact ⟨id, row, found, student, approved, decided⟩
    · have same : (world.commit me).members.committed studentId = world.members.committed studentId :=
        Table.committed_commit_of_not_mine fun version draft => drafted ⟨version, draft⟩
      rw [same] at changed
      exact inv.approved_stays (inv.members studentId changed)
  · intro key log found
    by_cases drafted : ∃ version, (world.issueLogs.slot key).draft = some (me, version)
    · obtain ⟨version, draft⟩ := drafted
      obtain ⟨issued, rfl, decision⟩ := inv.logs key me version draft
      have published : (world.commit me).issueLogs.committed key = some issued :=
        Table.committed_commit_of_draft draft
      rw [found] at published
      cases published
      obtain ⟨row, shown, approved, -⟩ := inv.decided decision
      exact .inr (by simp [shown, approved])
    · have same : (world.commit me).issueLogs.committed key = world.issueLogs.committed key :=
        Table.committed_commit_of_not_mine fun version draft => drafted ⟨version, draft⟩
      rw [same] at found
      rcases inv.tokens key log found with old | approved
      · exact .inl old
      · have settled : pendingIn world log.signupRequestId = false := by
          obtain ⟨row, shown, accepted⟩ := (Option.any_eq_true ..).mp approved
          simp only [decide_eq_true_eq] at accepted
          simp [pendingIn, shown, accepted]
        rw [(inv.settled_stays settled).1]
        exact .inr approved

end Commit

theorem DecisionInv.rollback (inv : DecisionInv before world phase) :
    DecisionInv before (world.rollback me) (Function.update phase me {}) := by
  refine inv.leave (Table.abort_ended me world.members) (Table.abort_ended me world.signupRequests)
    (Table.abort_ended me world.issueLogs) rfl ?_ ?_ ?_
  · intro id
    simpa [World.rollback, decisions] using inv.settled id
  · intro studentId changed
    have approved := inv.members studentId (by simpa [World.rollback] using changed)
    simpa [Approved, World.rollback, decisions] using approved
  · intro key log found
    have told := inv.tokens key log (by simpa [World.rollback] using found)
    simpa [World.rollback] using told

theorem DecisionInv.still (inv : DecisionInv before world phase) :
    DecisionInv before world (Function.update phase me (phase me)) := by
  rw [Function.update_eq_self]
  exact inv

theorem DecisionInv.save (inv : DecisionInv before world phase) {studentId : String} {version : Option Member}
    (first : (phase me).saved = none) :
    DecisionInv before { world with members := world.members.write me studentId version }
      (Function.update phase me { phase me with saved := some studentId }) := by
  have same : ∀ other, (Function.update phase me { phase me with saved := some studentId } other).decision =
      (phase other).decision := by
    intro other
    by_cases mine : other = me
    · subst mine
      simp
    · simp [mine]
  refine ⟨?_, ?_, ?_, ?_, ?_, inv.settled, ?_, inv.tokens⟩
  · exact inv.saved.write (.inl first) (by simp) fun other different => by simp [different]
  · intro other
    rw [same]
    exact inv.deciding other
  · intro other id status decision
    rw [same] at decision
    exact inv.drafted other id status decision
  · intro id owner latest draft
    rw [same]
    exact inv.drafts id owner latest draft
  · intro key owner latest draft
    rw [same]
    exact inv.logs key owner latest draft
  · intro other changed
    rw [Table.write_committed] at changed
    exact inv.members other changed

/-- The decision is drafted over a pending row. -/
theorem DecisionInv.decide (inv : DecisionInv before world phase) {id : Nat} {row stored : SignupRequest}
    (first : (phase me).decision = none) (free : (world.signupRequests.slot id).lockedFor me = false)
    (seen : world.signupRequests.row me id = some stored) (pending : stored.status = .pending)
    (unpending : row.status ≠ .pending) (student : row.studentId = stored.studentId) :
    DecisionInv before { world with
        signupRequests := world.signupRequests.write me id (some row)
        deciding := Function.update world.deciding me (some (id, row.status)) }
      (Function.update phase me { phase me with decision := some (id, row.status) }) := by
  have unheld : ∀ other version, (world.signupRequests.slot other).draft ≠ some (me, version) := by
    intro other version draft
    obtain ⟨held, -, mine, -⟩ := inv.drafts other me version draft
    rw [first] at mine
    cases mine
  have stays : pendingIn world id = true := by
    rcases Table.row_cases me world.signupRequests id with committed | drafted
    · rw [pendingIn, committed, seen, Option.any_some, pending]
      rfl
    · exact absurd drafted (unheld id _)
  refine ⟨?_, ?_, ?_, ?_, ?_, ?_, ?_, ?_⟩
  · refine inv.saved.same fun other => ?_
    by_cases mine : other = me
    · subst mine
      simp
    · simp [mine]
  · intro other
    by_cases mine : other = me
    · subst mine
      simp
    · simp [mine, inv.deciding]
  · intro other key status decision
    by_cases mine : other = me
    · subst mine
      simp only [Function.update_self, Option.some.injEq, Prod.mk.injEq] at decision
      obtain ⟨rfl, -⟩ := decision
      exact ⟨some row, by simp⟩
    · rw [Function.update_of_ne mine] at decision
      obtain ⟨version, draft⟩ := inv.drafted other key status decision
      have elsewhere : key ≠ id := by
        rintro rfl
        exact mine (Slot.lockedFor_eq_false.mp free other version draft)
      exact ⟨version, (congrArg Slot.draft (Table.write_slot_of_ne elsewhere)).trans draft⟩
  · intro key owner version draft
    by_cases here : key = id
    · subst here
      simp only [Table.write_slot_self, Slot.write_draft, Option.some.injEq, Prod.mk.injEq] at draft
      obtain ⟨rfl, rfl⟩ := draft
      refine ⟨row, rfl, by simp, unpending, ?_, ?_⟩
      · rw [student]
        exact inv.student_of seen
      · rw [pendingIn, Table.write_committed]
        exact stays
    · rw [Table.write_slot_of_ne here] at draft
      have different : owner ≠ me := by
        rintro rfl
        exact unheld key version draft
      obtain ⟨latest, same, decision, others⟩ := inv.drafts key owner version draft
      rw [Function.update_of_ne different]
      refine ⟨latest, same, decision, others.1, others.2.1, ?_⟩
      rw [pendingIn, Table.write_committed]
      exact others.2.2
  · intro key owner version draft
    have different : owner ≠ me := by
      rintro rfl
      obtain ⟨log, -, mine⟩ := inv.logs key owner version draft
      rw [first] at mine
      cases mine
    rw [Function.update_of_ne different]
    exact inv.logs key owner version draft
  · intro other
    simpa [decisions] using inv.settled other
  · intro studentId changed
    simpa [Approved, decisions] using inv.members studentId changed
  · intro key log found
    simpa using inv.tokens key log found

theorem DecisionInv.issue (inv : DecisionInv before world phase) {log : SignupActivationIssueLog}
    (approved : (phase me).decision = some (log.signupRequestId, .approved)) :
    DecisionInv before (insertIssueLog me log world) phase := by
  refine ⟨inv.saved, inv.deciding, inv.drafted, inv.drafts, ?_, inv.settled, inv.members, ?_⟩
  · intro key owner version draft
    by_cases here : key = world.nextIssueLog
    · subst here
      simp only [insertIssueLog, Table.write_slot_self, Slot.write_draft, Option.some.injEq,
        Prod.mk.injEq] at draft
      obtain ⟨rfl, rfl⟩ := draft
      exact ⟨log, rfl, approved⟩
    · simp only [insertIssueLog, Table.write_slot_of_ne here] at draft
      exact inv.logs key owner version draft
  · intro key issued found
    exact inv.tokens key issued (Table.write_committed.symm.trans found)

/-! ## Every interleaving -/

/-- Every answered statement that a phase allows keeps the invariant, unless it overwrites a decision.
-/
theorem DecisionInv.answer (inv : DecisionInv before world phase) {stmt : Stmt} {choice : Choice}
    {reply : Except Failure (Reply stmt)} (succeeds : choice.fails = none)
    (still : StillPending world me stmt choice) (allowed : (phase me).allow (studentOf before) stmt)
    (done : Source.Accounts.answer me stmt choice world = some (reply, world')) :
    DecisionInv before world' (Function.update phase me ((phase me).next stmt reply)) := by
  cases stmt with
  | now | getMember _ | getSignupRequest _ | refresh =>
    cases done
    exact inv.still
  | insertMember studentId row =>
    rcases insertMember_cases done with ⟨⟨reason, rfl⟩, rfl⟩ | ⟨rfl, -, -, rfl⟩
    · exact inv.still
    · exact inv.save allowed
  | flushMember studentId loaded latest =>
    rcases flushMember_cases done with ⟨⟨reason, rfl⟩, rfl⟩ | ⟨rfl, -, stored, -, rfl⟩
    · exact inv.still
    · exact inv.save allowed
  | flushSignupRequest id loaded latest =>
    obtain ⟨first, loadedPending, unpending⟩ := allowed
    rcases flushSignupRequest_cases done with ⟨⟨reason, rfl⟩, rfl⟩ | ⟨rfl, free, stored, seen, rfl⟩
    · exact inv.still
    · have differs : latest.status ≠ loaded.status := by
        rw [loadedPending]
        exact unpending
      have pending : stored.status = .pending := by
        have kept := still succeeds
        simpa [overwrites, seen] using kept
      have status : (flushedRequest loaded latest stored).status = latest.status := if_neg differs
      have written : (flushedRequest loaded latest stored).status ≠ .pending := by
        rw [status]
        exact unpending
      have decided := inv.decide first free seen pending written rfl
      rw [status] at decided
      rw [if_neg differs]
      exact decided
  | insertIssueLog log =>
    cases done
    have issued := inv.issue allowed
    exact issued.still
  | commit =>
    cases done
    exact inv.commit allowed
  | emailTaken _ _ | phoneTaken _ _ | advisoryLock | countActiveMembersWithRole _ | pendingByStudentId _
  | insertSignupRequest _ | getAuth _ | insertAuth _ _ _ | updateAuth _ _ _ | rollback =>
    exact absurd allowed id

theorem decisionInv_keeps (before : World) :
    (handler (studentOf before)).Keeps machine StillPending (DecisionInv before) where
  exec := by
    refine Protocol.Keeps.exec_of_answer answering ?_ ?_
    · intro phase stmt reason
      cases stmt <;> rfl
    · intro world phase me stmt choice reply world' inv still allowed succeeds answered
      exact inv.answer succeeds still allowed answered
  known world phase me stmt choice answer world' inv done := by
    cases stmt with
    | getSignupRequest id =>
      cases answer with
      | none => trivial
      | some row =>
        rcases answering.exec_cases done with ⟨reason, -, failed, -⟩ | ⟨-, answered⟩
        · cases failed
        · simp only [answering, Source.Accounts.answer, Option.some.injEq, Prod.mk.injEq,
            Except.ok.injEq] at answered
          exact inv.student_of answered.1
    | _ => trivial
  close _ _ _ inv := inv.rollback
  crash _ _ _ inv := inv.rollback
  outside _ _ change _ := nomatch change

/-- What has been decided stays as it is. -/
theorem settled_keeps (before : World) {id : Nat} {row : SignupRequest} (settled : row.status ≠ .pending) :
    (handler (studentOf before)).Keeps machine StillPending fun world phase =>
      DecisionInv before world phase ∧ world.signupRequests.committed id = some row where
  exec world phase me stmt choice reply world' inv still allowed done := by
    refine ⟨(decisionInv_keeps before).exec _ _ _ _ _ _ _ inv.1 still allowed done, ?_⟩
    by_cases commits : stmt = .commit
    · subst commits
      rcases answering.exec_cases done with ⟨reason, -, rfl, rfl⟩ | ⟨-, done⟩
      · exact inv.2
      · cases done
        have decided : pendingIn world id = false := by simp [pendingIn, inv.2, settled]
        rw [(inv.1.settled_stays decided).1]
        exact inv.2
    · rw [(exec_drafts done commits).signupRequests.committed]
      exact inv.2
  known world phase me stmt choice answer world' inv done :=
    (decisionInv_keeps before).known _ _ _ _ _ _ _ inv.1 done
  close world phase me inv := ⟨inv.1.rollback,
    ((world.rollback_drafts me).signupRequests.committed id).trans inv.2⟩
  crash world phase me inv := ⟨inv.1.rollback,
    ((world.rollback_drafts me).signupRequests.committed id).trans inv.2⟩
  outside _ _ change _ := nomatch change

/-- No transaction is open, and nothing has been decided. -/
structure Fresh (world : World) : Prop where
  members : world.members.Quiet
  signupRequests : world.signupRequests.Quiet
  issueLogs : world.issueLogs.Quiet
  decided : world.decided = []
  deciding : ∀ me, world.deciding me = none

theorem start_holds {text : TextRules} {world : World} {requests : SessionId → Option Request}
    (deciders : ∀ me request, requests me = some request → decides request = true) (fresh : Fresh world) :
    (handler (studentOf world)).Holds (DecisionInv world) (start text world requests) := by
  refine ⟨fun _ => {}, ⟨fresh.members.drafted, fresh.deciding, ?_, ?_, ?_, ?_, ?_, ?_⟩,
    fun me program running => ?_, fun _ _ => rfl⟩
  · intro me id status decision
    cases decision
  · intro id owner version draft
    simp [start, fresh.signupRequests id] at draft
  · intro key owner version draft
    simp [start, fresh.issueLogs key] at draft
  · exact fun id => .inl ⟨by simp [decisions, start, fresh.decided], rfl⟩
  · exact fun studentId changed => absurd rfl changed
  · exact fun key log found => .inl found
  · obtain ⟨request, given, rfl⟩ := Option.map_eq_some_iff.mp running
    exact request_follows (deciders me request given)

/-- Of what the invariant says at any time, this is the part about what is committed. -/
theorem DecisionInv.once (inv : DecisionInv before world phase) : DecidedOnce before world where
  once id := by
    rcases inv.settled id with undecided | ⟨row, found, decided, -⟩
    · exact .inl undecided
    · exact .inr ⟨row, found, decided⟩
  members := inv.members
  rejected id row found status key log issued same := by
    rcases inv.tokens key log issued with old | approved
    · exact old
    · simp [same, found, status] at approved

/-- Approvals and rejections interleaved in any way, with failures and crashes anywhere: as
long as each decision is written over a row that is pending still, a request is decided once
at most, and what has been decided stays to the end of the run. -/
theorem signup_decision_final (text : TextRules) (world : World) (requests : SessionId → Option Request)
    (deciders : ∀ me request, requests me = some request → decides request = true) (fresh : Fresh world)
    (first second : List (Action machine)) (middle after : Config machine Unit)
    (still : (start text world requests).Meets StillPending (first ++ second))
    (reached : (start text world requests).run first = some middle)
    (onward : middle.run second = some after) :
    DecidedOnce world after.world ∧ ∀ id row, middle.world.signupRequests.committed id = some row →
      row.status ≠ .pending → after.world.signupRequests.committed id = some row := by
  obtain ⟨stillFirst, stillSecond⟩ := still.append reached
  have holds := (decisionInv_keeps world).run (start_holds deciders fresh) stillFirst reached
  constructor
  · obtain ⟨phase, inv, -, -⟩ := (decisionInv_keeps world).run holds stillSecond onward
    exact inv.once
  · intro id row found settled
    obtain ⟨phase, inv, follows, closed⟩ := holds
    obtain ⟨phase, kept, -, -⟩ := (settled_keeps world settled).run
      ⟨phase, ⟨inv, found⟩, follows, closed⟩ stillSecond onward
    exact kept.2

/-! ## One pending request -/

def onePending : World :=
  { World.blank with
    signupRequests := .seeded [(0, { studentId := "kim", email := "kim@x", name := "kim", cohort := 1 })]
    nextRequest := 1 }

theorem onePending_fresh : Fresh onePending where
  members _ := rfl
  signupRequests := Table.seeded_quiet _
  issueLogs _ := rfl
  decided := rfl
  deciding _ := rfl

/-- One admin approves the request, and another one rejects it. -/
def bothDecide : List Request :=
  [.approveSignupRequest 0 "root", .rejectSignupRequest 0 "lee" "unknown student"]

def bothDecideSessions (me : SessionId) : Option Request := bothDecide[me]?

theorem bothDecideSessions_decide (me : SessionId) (request : Request)
    (given : bothDecideSessions me = some request) : decides request = true := by
  have every : ∀ request ∈ bothDecide, decides request = true := by decide
  exact every request (List.mem_of_getElem? given)

set_option maxRecDepth 10000 in
/-- The rejection comes after the approval and finds the request decided. -/
theorem signup_decision_final_in_turn : ∃ middle after,
    (start .plain onePending bothDecideSessions).run (executes 0 9) = some middle ∧
      middle.run (executes 1 1) = some after ∧ DecidedOnce onePending after.world ∧
      (after.world.signupRequests.committed 0).map (·.status) = some .approved := by
  have ran : ((start .plain onePending bothDecideSessions).run (executes 0 9)).bind (fun middle =>
      (middle.run (executes 1 1)).map fun after =>
        ((middle.world.signupRequests.committed 0).map (·.status),
          (after.world.signupRequests.committed 0).map (·.status))) = some (some .approved, some .approved) := by
    decide
  obtain ⟨middle, reached, onward⟩ := Option.bind_eq_some_iff.mp ran
  obtain ⟨after, onward, same⟩ := Option.map_eq_some_iff.mp onward
  simp only [Prod.mk.injEq] at same
  have final := signup_decision_final .plain onePending bothDecideSessions bothDecideSessions_decide
    onePending_fresh (executes 0 9) (executes 1 1) middle after (Config.meets_of_checks (by decide))
      reached onward
  exact ⟨middle, after, reached, onward, final.1, same.2⟩

set_option maxRecDepth 10000 in
/-- Both have read the pending request; the rejection is written over the approval. -/
theorem rejection_overwrites_approval : ∃ after,
    (start .plain onePending bothDecideSessions).run
        (executes 0 1 ++ executes 1 1 ++ executes 0 8 ++ executes 1 4) = some after ∧
      decisions after.world 0 = [.approved, .rejected] ∧
      (after.world.signupRequests.committed 0).map (·.status) = some .rejected ∧
      (after.world.members.committed "kim").map (·.status) = some .active ∧
      after.world.issueLogs.committed 0 = some ⟨0, .approve, "root"⟩ := by
  have ran : ((start .plain onePending bothDecideSessions).run
      (executes 0 1 ++ executes 1 1 ++ executes 0 8 ++ executes 1 4)).map (fun after =>
        (decisions after.world 0, (after.world.signupRequests.committed 0).map (·.status),
          (after.world.members.committed "kim").map (·.status), after.world.issueLogs.committed 0)) =
      some ([.approved, .rejected], some .rejected, some .active, some ⟨0, .approve, "root"⟩) := by decide
  obtain ⟨after, reached, same⟩ := Option.map_eq_some_iff.mp ran
  simp only [Prod.mk.injEq] at same
  exact ⟨after, reached, same.1, same.2.1, same.2.2.1, same.2.2.2⟩

end SogeconApp.Guarantees.SignupDecision
