import SogeconApp.Source.ProfileChanges

/-!
# The decision on a profile change request

Reviewers read one request, check that it is pending and write it by its key later, so a
decision that another one has overtaken is written all the same. As long as each decision is
written over a row that is pending still, one decision takes effect at most: a rejection
leaves the member alone, an approval sets the requested value, and the decision stays.
-/

namespace SogeconApp.Guarantees.ProfileDecision

open Library Program Source.ProfileChanges

/-- The decisions on a request that have taken effect, oldest first. -/
def decisions (world : World) (requestId : Nat) : List RequestStatus :=
  (world.decided.filter fun decision => decision.1 = requestId).map Prod.snd

/-- The status of the request is written over a row that is not pending. -/
def overwrites (world : World) (me : SessionId) : Stmt → Bool
  | .flushRequest requestId _ _ => (world.requests.row me requestId).any fun row => row.status ≠ .pending
  | _ => false

def StillPending (world : World) (me : SessionId) (stmt : Stmt) (choice : Choice) : Prop :=
  choice.fails = none → overwrites world me stmt = false

instance (world : World) (me : SessionId) (stmt : Stmt) (choice : Choice) :
    Decidable (StillPending world me stmt choice) :=
  inferInstanceAs (Decidable (_ → _))

/-! ## What a decision does -/

section Target

variable (intOf : String → Option Int) (requestId : Nat) (before : World)

/-- The member that the request is about. -/
def memberOf : Nat := ((before.requests.committed requestId).map (·.memberId)).getD 0

/-- The member row with the requested value. -/
def requested (member : Member) : Option Member :=
  (before.requests.committed requestId).bind fun row => applied intOf row member

def requestedMember : Option Member :=
  (before.members.committed (memberOf requestId before)).bind (requested intOf requestId before)

/-- What has become of the request, and with it of the members. -/
inductive Settled (after : World) : Prop where
  | undecided (none_ : decisions after requestId = [])
      (request : after.requests.committed requestId = before.requests.committed requestId)
      (members : ∀ memberId, after.members.committed memberId = before.members.committed memberId)
  | rejected (row : ProfileChangeRequest) (found : after.requests.committed requestId = some row)
      (status : row.status = .rejected) (once : decisions after requestId = [.rejected])
      (members : ∀ memberId, after.members.committed memberId = before.members.committed memberId)
  | approved (row : ProfileChangeRequest) (found : after.requests.committed requestId = some row)
      (status : row.status = .approved) (once : decisions after requestId = [.approved])
      (member : Member) (wanted : requestedMember intOf requestId before = some member)
      (set : after.members.committed (memberOf requestId before) = some member)
      (others : ∀ memberId, memberId ≠ memberOf requestId before →
        after.members.committed memberId = before.members.committed memberId)

end Target

def pendingIn (world : World) (requestId : Nat) : Bool :=
  (world.requests.committed requestId).any fun row => row.status = .pending

variable {intOf : String → Option Int} {requestId : Nat} {before world world' : World}

theorem applied_again {row : ProfileChangeRequest} {member latest : Member}
    (once : applied intOf row member = some latest) : applied intOf row latest = some latest := by
  unfold applied at once ⊢
  cases field : row.fieldName with
  | name =>
    rw [field] at once
    cases once
    rfl
  | cohort =>
    rw [field] at once
    obtain ⟨cohort, number, rfl⟩ := Option.map_eq_some_iff.mp once
    simp [number]

theorem requested_again {member latest : Member} (once : requested intOf requestId before member = some latest) :
    requested intOf requestId before latest = some latest := by
  obtain ⟨row, found, once⟩ := Option.bind_eq_some_iff.mp once
  exact Option.bind_eq_some_iff.mpr ⟨row, found, applied_again once⟩

/-- While the request is pending nothing has been decided, and no member has changed. -/
theorem Settled.undecided_of_pending (settled : Settled intOf requestId before world)
    (pending : pendingIn world requestId = true) : decisions world requestId = [] ∧
      ∀ memberId, world.members.committed memberId = before.members.committed memberId := by
  cases settled with
  | undecided none_ request members => exact ⟨none_, members⟩
  | rejected row found status once members => simp [pendingIn, found, status] at pending
  | approved row found status once member wanted set others => simp [pendingIn, found, status] at pending

/-- The member that a reviewer reads. -/
theorem Settled.member_row (settled : Settled intOf requestId before world) {member : Member}
    (found : world.members.committed (memberOf requestId before) = some member) :
    before.members.committed (memberOf requestId before) = some member ∨
      decisions world requestId ≠ [] ∧ requestedMember intOf requestId before = some member := by
  cases settled with
  | undecided none_ request members => exact .inl ((members _).symm.trans found)
  | rejected row _ status once members => exact .inl ((members _).symm.trans found)
  | approved row _ status once latest wanted set others =>
    rw [set] at found
    cases found
    exact .inr ⟨by simp [once], wanted⟩

/-! ## Phases -/

/-- The member row that an approval has loaded, whether it has drafted it, and the decision
that the open transaction has drafted. -/
structure Phase where
  loaded : Option Member := none
  saved : Bool := false
  decision : Option RequestStatus := none
  deriving DecidableEq

def Phase.next (phase : Phase) : (stmt : Stmt) → Except Failure (Reply stmt) → Phase
  | .getMember _, .ok member => { phase with loaded := member }
  | .flushMember _ _ _, .ok _ => { phase with saved := true }
  | .flushRequest _ _ latest, .ok _ => { phase with decision := some latest.status }
  | .commit, .ok _ => {}
  | _, _ => phase

/-- An approval has drafted the member, unless the member had the value already. -/
def Phase.approves (phase : Phase) (intOf : String → Option Int) (requestId : Nat) (before : World) : Prop :=
  ∃ member latest, phase.loaded = some member ∧ requested intOf requestId before member = some latest ∧
    (phase.saved = true ∨ latest = member)

def Phase.allow (phase : Phase) (intOf : String → Option Int) (requestId : Nat) (before : World) : Stmt → Prop
  | .now | .getById _ | .refresh => True
  | .getMember memberId => memberId = memberOf requestId before ∧ phase = {}
  | .flushMember memberId loaded latest => memberId = memberOf requestId before ∧
      phase = { loaded := some loaded } ∧ requested intOf requestId before loaded = some latest ∧ latest ≠ loaded
  | .flushRequest id loaded latest => id = requestId ∧ loaded.status = .pending ∧ phase.decision = none ∧
      (latest.status = .rejected ∧ phase.saved = false ∨
        latest.status = .approved ∧ phase.approves intOf requestId before)
  | .commit => phase.decision ≠ none

abbrev handler (intOf : String → Option Int) (requestId : Nat) (before : World) : Protocol profileChanges where
  Phase := Phase
  gone := {}
  allow phase := phase.allow intOf requestId before
  next := Phase.next
  answers stmt answer :=
    match stmt, answer with
    | .getById id, some row =>
      id = requestId → row.status = .pending → before.requests.committed requestId = some row
    | _, _ => True

theorem pendingRequest_through (phase : Phase) :
    (handler intOf requestId before).Through phase (pendingRequest requestId) fun row reached =>
      reached = phase ∧ row.status = .pending ∧ before.requests.committed requestId = some row := by
  refine .step trivial fun found known => ?_
  cases found with
  | none => exact .raise
  | some row =>
    dsimp only
    split
    · exact .raise
    · next pending =>
      have pending : row.status = .pending := by simpa using pending
      exact .ret ⟨rfl, pending, known rfl pending⟩

/-- A decision is flushed and committed, and nothing comes after it but a refresh. -/
theorem save_through {phase : Phase} {loaded latest : ProfileChangeRequest}
    (allowed : phase.allow intOf requestId before (.flushRequest requestId loaded latest)) :
    (handler intOf requestId before).Through phase (save requestId loaded latest) fun _ _ => True := by
  refine .step allowed fun _ _ => ?_
  refine .step (by simp [Phase.allow, Phase.next]) fun _ _ => ?_
  exact .ask trivial fun _ _ => trivial

theorem saveMember_through {loaded latest : Member}
    (wanted : requested intOf requestId before loaded = some latest) :
    (handler intOf requestId before).Through { loaded := some loaded }
      (saveMember (memberOf requestId before) loaded latest) fun _ reached =>
        reached.decision = none ∧ reached.approves intOf requestId before := by
  unfold saveMember
  split
  · next same => exact .ret ⟨rfl, loaded, latest, rfl, wanted, .inr same⟩
  · next differs =>
    exact .ask ⟨rfl, rfl, wanted, differs⟩ fun _ _ => ⟨rfl, loaded, latest, rfl, wanted, .inl rfl⟩

/-- An approval loads the member, saves the requested value and decides, all in one transaction. -/
theorem approveRequest_through (decidedByStudentId : String) :
    (handler intOf requestId before).Through {} (approveRequest intOf requestId decidedByStudentId)
      fun _ _ => True := by
  refine (pendingRequest_through _).bind ?_
  rintro row _ ⟨rfl, pending, target⟩
  have about : row.memberId = memberOf requestId before := by simp [memberOf, target]
  rw [about]
  refine .step ⟨rfl, rfl⟩ fun found _ => ?_
  cases found with
  | none => exact .raise
  | some member =>
    dsimp only
    split
    · exact .raise
    · next latest change =>
      have wanted : requested intOf requestId before member = some latest := by
        rw [requested, target]
        exact change
      refine .step trivial fun decidedAt _ => ?_
      refine (saveMember_through wanted).bind ?_
      rintro _ phase ⟨undecided, approves⟩
      exact save_through ⟨rfl, pending, undecided, .inr ⟨rfl, approves⟩⟩

theorem rejectRequest_through (decidedByStudentId reason : String) :
    (handler intOf requestId before).Through {} (rejectRequest requestId decidedByStudentId reason)
      fun _ _ => True := by
  refine (pendingRequest_through _).bind ?_
  rintro row _ ⟨rfl, pending, -⟩
  refine .step trivial fun decidedAt _ => ?_
  exact save_through ⟨rfl, pending, rfl, .inl ⟨rfl, rfl⟩⟩

theorem decision_follows (decision : Decision) :
    (handler intOf requestId before).Follows {} (decision.program intOf requestId) := by
  cases decision with
  | approve decidedByStudentId => exact (approveRequest_through decidedByStudentId).follows
  | reject decidedByStudentId reason => exact (rejectRequest_through decidedByStudentId reason).follows

/-! ## The invariant -/

/-- What a session has read, drafted and decided. -/
structure SessionInv (intOf : String → Option Int) (requestId : Nat) (before world : World) (me : SessionId)
    (now : Phase) : Prop where
  saved : now.saved = true →
    ∃ version, (world.members.slot (memberOf requestId before)).draft = some (me, version)
  loaded : ∀ member, now.loaded = some member →
    before.members.committed (memberOf requestId before) = some member ∨
      decisions world requestId ≠ [] ∧ requestedMember intOf requestId before = some member
  deciding : world.deciding me = now.decision.map fun status => (requestId, status)
  drafted : ∀ status, now.decision = some status →
    ∃ version, (world.requests.slot requestId).draft = some (me, version)
  decided : ∀ status, now.decision = some status →
    status = .rejected ∧ now.saved = false ∨
      status = .approved ∧ ∃ member, requestedMember intOf requestId before = some member ∧
        (now.saved = true ∨ before.members.committed (memberOf requestId before) = some member)

structure DecisionInv (intOf : String → Option Int) (requestId : Nat) (before world : World)
    (phase : SessionId → Phase) : Prop where
  session : ∀ me, SessionInv intOf requestId before world me (phase me)
  members : ∀ memberId owner version, (world.members.slot memberId).draft = some (owner, version) →
    memberId = memberOf requestId before ∧ (phase owner).saved = true ∧
      version = requestedMember intOf requestId before
  requests : ∀ key owner version, (world.requests.slot key).draft = some (owner, version) →
    key = requestId ∧ ∃ row, version = some row ∧ (phase owner).decision = some row.status ∧
      pendingIn world requestId = true
  settled : Settled intOf requestId before world

variable {phase : SessionId → Phase} {me : SessionId}

theorem SessionInv.fresh (undecided : world.deciding me = none) :
    SessionInv intOf requestId before world me {} where
  saved := nofun
  loaded := nofun
  deciding := undecided
  drafted := nofun
  decided := nofun

/-- Rows that are committed alike settle the request alike. -/
theorem Settled.same (settled : Settled intOf requestId before world)
    (request : world'.requests.committed requestId = world.requests.committed requestId)
    (members : ∀ memberId, world'.members.committed memberId = world.members.committed memberId)
    (decided : world'.decided = world.decided) : Settled intOf requestId before world' := by
  have once : decisions world' requestId = decisions world requestId := by
    unfold decisions
    rw [decided]
  cases settled with
  | undecided none_ original same =>
    exact .undecided (once.trans none_) (request.trans original) fun memberId =>
      (members memberId).trans (same memberId)
  | rejected row found status first same =>
    exact .rejected row (request.trans found) status (once.trans first) fun memberId =>
      (members memberId).trans (same memberId)
  | approved row found status first member wanted set others =>
    exact .approved row (request.trans found) status (once.trans first) member wanted ((members _).trans set)
      fun memberId different => (members memberId).trans (others memberId different)

/-- A session without drafts of its own reads the members that are committed. -/
theorem DecisionInv.reads (inv : DecisionInv intOf requestId before world phase)
    (unsaved : (phase me).saved = false) (memberId : Nat) :
    world.members.row me memberId = world.members.committed memberId := by
  rcases Table.row_cases me world.members memberId with same | drafted
  · exact same.symm
  · obtain ⟨-, saved, -⟩ := inv.members memberId me _ drafted
    rw [unsaved] at saved
    cases saved

theorem DecisionInv.undrafted (inv : DecisionInv intOf requestId before world phase)
    (undecided : (phase me).decision = none) (key : Nat) (version : Option ProfileChangeRequest) :
    (world.requests.slot key).draft ≠ some (me, version) := by
  intro drafted
  obtain ⟨-, row, -, decision, -⟩ := inv.requests key me version drafted
  rw [undecided] at decision
  cases decision

/-- Who has drafted a request has decided. -/
theorem DecisionInv.drafter_decided (inv : DecisionInv intOf requestId before world phase)
    (undecided : (phase me).decision = none) {key : Nat} {owner : SessionId}
    {version : Option ProfileChangeRequest}
    (drafted : (world.requests.slot key).draft = some (owner, version)) : owner ≠ me := by
  rintro rfl
  exact inv.undrafted undecided key version drafted

/-- A pending request is the one that the run began with. -/
theorem DecisionInv.pending_row (inv : DecisionInv intOf requestId before world phase)
    {row : ProfileChangeRequest}
    (seen : world.requests.row me requestId = some row) (pending : row.status = .pending) :
    before.requests.committed requestId = some row := by
  rcases Table.row_cases me world.requests requestId with committed | drafted
  · rw [seen] at committed
    cases inv.settled with
    | undecided none_ request members => exact request.symm.trans committed
    | rejected other found status once members =>
      rw [found, Option.some.injEq] at committed
      rw [committed, pending] at status
      cases status
    | approved other found status once member wanted set others =>
      rw [found, Option.some.injEq] at committed
      rw [committed, pending] at status
      cases status
  · obtain ⟨-, other, same, decision, -⟩ := inv.requests requestId me _ drafted
    rw [seen, Option.some.injEq] at same
    subst same
    rw [pending] at decision
    rcases (inv.session me).decided .pending decision with ⟨status, -⟩ | ⟨status, -⟩ <;> cases status

/-! ## The end of a transaction -/

/-- What the session had drafted is gone or published. -/
theorem DecisionInv.leave (inv : DecisionInv intOf requestId before world phase)
    (membersEnded : world.members.Ended me world'.members)
    (requestsEnded : world.requests.Ended me world'.requests)
    (deciding : world'.deciding = Function.update world.deciding me none)
    (grows : decisions world requestId ≠ [] → decisions world' requestId ≠ [])
    (settled : Settled intOf requestId before world') :
    DecisionInv intOf requestId before world' (Function.update phase me {}) := by
  refine ⟨?_, ?_, ?_, settled⟩
  · apply (Function.forall_update_iff phase fun other now =>
      SessionInv intOf requestId before world' other now).mpr
    refine ⟨SessionInv.fresh (by rw [deciding, Function.update_self]), fun other different => ?_⟩
    have session := inv.session other
    refine ⟨fun saved => ?_, fun member loaded => ?_, ?_, fun status decision => ?_, session.decided⟩
    · obtain ⟨version, drafted⟩ := session.saved saved
      exact ⟨version, (membersEnded.draft _ _ _).mpr ⟨drafted, different⟩⟩
    · exact (session.loaded member loaded).imp id fun later => ⟨grows later.1, later.2⟩
    · rw [deciding, Function.update_of_ne different]
      exact session.deciding
    · obtain ⟨version, drafted⟩ := session.drafted status decision
      exact ⟨version, (requestsEnded.draft _ _ _).mpr ⟨drafted, different⟩⟩
  · intro memberId owner version drafted
    obtain ⟨earlier, different⟩ := (membersEnded.draft memberId owner version).mp drafted
    rw [Function.update_of_ne different]
    exact inv.members memberId owner version earlier
  · intro key owner version drafted
    obtain ⟨earlier, different⟩ := (requestsEnded.draft key owner version).mp drafted
    obtain ⟨rfl, row, same, decision, pending⟩ := inv.requests key owner version earlier
    refine ⟨rfl, row, same, ?_, ?_⟩
    · rw [Function.update_of_ne different]
      exact decision
    · rw [pendingIn, requestsEnded.kept_of_draft drafted]
      exact pending

theorem DecisionInv.rollback (inv : DecisionInv intOf requestId before world phase) :
    DecisionInv intOf requestId before (world.rollback me) (Function.update phase me {}) :=
  inv.leave (Table.abort_ended me _) (Table.abort_ended me _) rfl id
    (inv.settled.same Table.abort_committed (fun _ => Table.abort_committed) rfl)

theorem decisions_commit (world : World) (me : SessionId) (requestId : Nat) :
    decisions (world.commit me) requestId = decisions world requestId ++
      ((world.deciding me).toList.filter fun decision => decision.1 = requestId).map Prod.snd := by
  simp [decisions, World.commit]

/-- A member that the session has not drafted stays as it is. -/
theorem DecisionInv.member_stays (inv : DecisionInv intOf requestId before world phase) {memberId : Nat}
    (other : memberId ≠ memberOf requestId before ∨ (phase me).saved = false) :
    (world.commit me).members.committed memberId = world.members.committed memberId := by
  refine Table.committed_commit_of_not_mine fun version drafted => ?_
  obtain ⟨about, saved, -⟩ := inv.members memberId me version drafted
  rcases other with different | unsaved
  · exact different about
  · rw [unsaved] at saved
    cases saved

/-- The commit of a decision: the request was pending, so it is the first one. -/
theorem DecisionInv.settle (inv : DecisionInv intOf requestId before world phase) {status : RequestStatus}
    (decision : (phase me).decision = some status) : Settled intOf requestId before (world.commit me) ∧
      decisions (world.commit me) requestId ≠ [] := by
  obtain ⟨version, draft⟩ := (inv.session me).drafted status decision
  obtain ⟨-, row, rfl, mine, pending⟩ := inv.requests requestId me version draft
  rw [decision, Option.some.injEq] at mine
  subst mine
  obtain ⟨first, members⟩ := inv.settled.undecided_of_pending pending
  have found : (world.commit me).requests.committed requestId = some row :=
    Table.committed_commit_of_draft draft
  have once : decisions (world.commit me) requestId = [row.status] := by
    rw [decisions_commit, first, (inv.session me).deciding, decision]
    simp
  refine ⟨?_, by simp [once]⟩
  rcases (inv.session me).decided row.status decision with ⟨rejected, unsaved⟩ | ⟨approved, member, wanted, kept⟩
  · rw [rejected] at once
    exact .rejected row found rejected once fun memberId =>
      (inv.member_stays (.inr unsaved)).trans (members memberId)
  · rw [approved] at once
    refine .approved row found approved once member wanted ?_ fun memberId different =>
      (inv.member_stays (.inl different)).trans (members memberId)
    cases saved : (phase me).saved with
    | true =>
      obtain ⟨version, drafted⟩ := (inv.session me).saved saved
      obtain ⟨-, -, same⟩ := inv.members _ me version drafted
      rw [same, wanted] at drafted
      exact Table.committed_commit_of_draft drafted
    | false =>
      rw [inv.member_stays (.inr saved), members]
      exact kept.resolve_left (by simp [saved])

theorem DecisionInv.commit (inv : DecisionInv intOf requestId before world phase)
    (decided : (phase me).decision ≠ none) :
    DecisionInv intOf requestId before (world.commit me) (Function.update phase me {}) := by
  obtain ⟨status, decision⟩ := Option.ne_none_iff_exists'.mp decided
  obtain ⟨settled, some⟩ := inv.settle decision
  exact inv.leave (Table.commit_ended me _) (Table.commit_ended me _) rfl (fun _ => some) settled

/-- A request that is not pending is not the one that a session decides. -/
theorem DecisionInv.settled_stays (inv : DecisionInv intOf requestId before world phase)
    (settled : pendingIn world requestId = false) :
    (world.commit me).requests.committed requestId = world.requests.committed requestId := by
  refine Table.committed_commit_of_not_mine fun version drafted => ?_
  obtain ⟨-, -, -, -, pending⟩ := inv.requests requestId me version drafted
  rw [settled] at pending
  cases pending

/-! ## The statements of a decision -/

theorem DecisionInv.still (inv : DecisionInv intOf requestId before world phase) :
    DecisionInv intOf requestId before world (Function.update phase me (phase me)) := by
  rw [Function.update_eq_self]
  exact inv

theorem DecisionInv.load (inv : DecisionInv intOf requestId before world phase) (fresh : phase me = {})
    {member : Option Member} (seen : world.members.row me (memberOf requestId before) = member) :
    DecisionInv intOf requestId before world (Function.update phase me { phase me with loaded := member }) := by
  have unsaved : (phase me).saved = false := by rw [fresh]
  have undecided : (phase me).decision = none := by rw [fresh]
  refine ⟨?_, ?_, ?_, inv.settled⟩
  · apply (Function.forall_update_iff phase fun other now =>
      SessionInv intOf requestId before world other now).mpr
    refine ⟨{ inv.session me with loaded := fun row loaded => ?_ }, fun other _ => inv.session other⟩
    obtain rfl : member = some row := loaded
    rw [inv.reads unsaved] at seen
    exact inv.settled.member_row seen
  · intro memberId owner version drafted
    obtain ⟨about, saved, same⟩ := inv.members memberId owner version drafted
    have different : owner ≠ me := by
      rintro rfl
      rw [unsaved] at saved
      cases saved
    rw [Function.update_of_ne different]
    exact ⟨about, saved, same⟩
  · intro key owner version drafted
    rw [Function.update_of_ne (inv.drafter_decided undecided drafted)]
    exact inv.requests key owner version drafted

/-- The flush of the member: the row is as it was loaded, or has the value by now. -/
theorem DecisionInv.save (inv : DecisionInv intOf requestId before world phase) {loaded latest stored : Member}
    (fresh : phase me = { loaded := some loaded })
    (wanted : requested intOf requestId before loaded = some latest)
    (differs : latest ≠ loaded)
    (free : (world.members.slot (memberOf requestId before)).lockedFor me = false)
    (seen : world.members.row me (memberOf requestId before) = some stored) :
    DecisionInv intOf requestId before { world with
        members := world.members.write me (memberOf requestId before)
          (some (flushedMember loaded latest stored)) }
      (Function.update phase me { phase me with saved := true }) := by
  have unsaved : (phase me).saved = false := by rw [fresh]
  have undecided : (phase me).decision = none := by rw [fresh]
  have original : before.members.committed (memberOf requestId before) = some loaded := by
    rcases (inv.session me).loaded loaded (by rw [fresh]) with original | ⟨-, set⟩
    · exact original
    · obtain ⟨row, -, change⟩ := Option.bind_eq_some_iff.mp set
      rw [requested_again change] at wanted
      exact absurd (Option.some.inj wanted).symm differs
  have target : requestedMember intOf requestId before = some latest := by
    rw [requestedMember, original]
    exact wanted
  have either : stored = loaded ∨ stored = latest := by
    rw [inv.reads unsaved] at seen
    rcases inv.settled.member_row seen with same | ⟨-, set⟩
    · exact .inl (Option.some.inj (same.symm.trans original))
    · exact .inr (Option.some.inj (set.symm.trans target))
  rw [flushedMember_of_either either]
  refine ⟨?_, ?_, ?_, inv.settled.same rfl (fun _ => Table.write_committed) rfl⟩
  · apply (Function.forall_update_iff phase fun other now =>
      SessionInv intOf requestId before _ other now).mpr
    refine ⟨?_, fun other different => { inv.session other with saved := fun saved => ?_ }⟩
    · exact
        { saved := fun _ => ⟨some latest, by simp⟩
          loaded := (inv.session me).loaded
          deciding := (inv.session me).deciding
          drafted := (inv.session me).drafted
          decided := fun status decision => by simp [undecided] at decision }
    · obtain ⟨version, drafted⟩ := (inv.session other).saved saved
      exact absurd (Slot.lockedFor_eq_false.mp free other version drafted) different
  · intro memberId owner version drafted
    by_cases here : memberId = memberOf requestId before
    · subst here
      simp only [Table.write_slot_self, Slot.write_draft, Option.some.injEq, Prod.mk.injEq] at drafted
      obtain ⟨rfl, rfl⟩ := drafted
      exact ⟨rfl, by simp, target.symm⟩
    · rw [Table.write_slot_of_ne here] at drafted
      exact absurd (inv.members memberId owner version drafted).1 here
  · intro key owner version drafted
    rw [Function.update_of_ne (inv.drafter_decided undecided drafted)]
    exact inv.requests key owner version drafted

/-- The flush of the decision over a row that is pending still. -/
theorem DecisionInv.decide (inv : DecisionInv intOf requestId before world phase)
    {loaded latest stored : ProfileChangeRequest} (loadedPending : loaded.status = .pending)
    (undecided : (phase me).decision = none)
    (decision : latest.status = .rejected ∧ (phase me).saved = false ∨
      latest.status = .approved ∧ (phase me).approves intOf requestId before)
    (free : (world.requests.slot requestId).lockedFor me = false)
    (seen : world.requests.row me requestId = some stored) (pending : stored.status = .pending) :
    DecisionInv intOf requestId before { world with
        requests := world.requests.write me requestId (some (flushedRequest loaded latest stored))
        deciding := Function.update world.deciding me (some (requestId, latest.status)) }
      (Function.update phase me { phase me with decision := some latest.status }) := by
  have unpending : latest.status ≠ .pending := by
    rcases decision with ⟨status, -⟩ | ⟨status, -⟩ <;> rw [status] <;> nofun
  have status : (flushedRequest loaded latest stored).status = latest.status := by
    apply if_neg
    rw [loadedPending]
    exact unpending
  have stays : pendingIn world requestId = true := by
    rcases Table.row_cases me world.requests requestId with committed | drafted
    · rw [pendingIn, committed, seen, Option.any_some, pending]
      rfl
    · exact absurd drafted (inv.undrafted undecided requestId _)
  refine ⟨?_, ?_, ?_, inv.settled.same Table.write_committed (fun _ => rfl) rfl⟩
  · apply (Function.forall_update_iff phase fun other now =>
      SessionInv intOf requestId before _ other now).mpr
    refine ⟨?_, fun other different => ?_⟩
    · refine ⟨(inv.session me).saved, (inv.session me).loaded, by simp,
        fun _ _ => ⟨some (flushedRequest loaded latest stored), by simp⟩, ?_⟩
      intro named same
      obtain rfl : latest.status = named := Option.some.inj same
      refine decision.imp id fun ⟨approved, member, change, loaded, wanted, saved⟩ => ⟨approved, ?_⟩
      have original : before.members.committed (memberOf requestId before) = some member :=
        ((inv.session me).loaded member loaded).resolve_right fun later =>
          later.1 (inv.settled.undecided_of_pending stays).1
      refine ⟨change, ?_, saved.imp id fun same => by rw [same]; exact original⟩
      rw [requestedMember, original]
      exact wanted
    · have session := inv.session other
      refine ⟨session.saved, session.loaded, ?_, fun named same => ?_, session.decided⟩
      · exact (Function.update_of_ne different ..).trans session.deciding
      · obtain ⟨version, drafted⟩ := session.drafted named same
        exact absurd (Slot.lockedFor_eq_false.mp free other version drafted) different
  · intro memberId owner version drafted
    obtain ⟨about, saved, same⟩ := inv.members memberId owner version drafted
    refine ⟨about, ?_, same⟩
    by_cases mine : owner = me
    · subst mine
      simpa using saved
    · rw [Function.update_of_ne mine]
      exact saved
  · intro key owner version drafted
    by_cases here : key = requestId
    · subst here
      simp only [Table.write_slot_self, Slot.write_draft, Option.some.injEq, Prod.mk.injEq] at drafted
      obtain ⟨rfl, rfl⟩ := drafted
      refine ⟨rfl, _, rfl, by simp [status], ?_⟩
      rw [pendingIn, Table.write_committed]
      exact stays
    · rw [Table.write_slot_of_ne here] at drafted
      exact absurd (inv.requests key owner version drafted).1 here

/-! ## Every interleaving -/

/-- Every answered statement that a phase allows keeps the invariant, unless it overwrites a decision.
-/
theorem DecisionInv.answer (inv : DecisionInv intOf requestId before world phase) {stmt : Stmt} {choice : Choice}
    {reply : Except Failure (Reply stmt)} (succeeds : choice.fails = none)
    (still : StillPending world me stmt choice) (allowed : (phase me).allow intOf requestId before stmt)
    (done : Source.ProfileChanges.answer me stmt choice world = some (reply, world')) :
    DecisionInv intOf requestId before world' (Function.update phase me ((phase me).next stmt reply)) := by
  cases stmt with
  | now | getById _ | refresh =>
    cases done
    exact inv.still
  | getMember memberId =>
    obtain ⟨rfl, fresh⟩ := allowed
    cases done
    exact inv.load fresh rfl
  | flushMember memberId loaded latest =>
    obtain ⟨rfl, fresh, wanted, differs⟩ := allowed
    rcases flushMember_cases done with ⟨⟨reason, rfl⟩, rfl⟩ | ⟨rfl, free, stored, seen, rfl⟩
    · exact inv.still
    · exact inv.save fresh wanted differs free seen
  | flushRequest id loaded latest =>
    obtain ⟨rfl, pending, undecided, decision⟩ := allowed
    rcases flushRequest_cases done with ⟨⟨reason, rfl⟩, rfl⟩ | ⟨rfl, free, stored, seen, rfl⟩
    · exact inv.still
    · have storedPending : stored.status = .pending := by
        have kept := still succeeds
        simpa [overwrites, seen] using kept
      exact inv.decide pending undecided decision free seen storedPending
  | commit =>
    cases done
    exact inv.commit allowed

theorem decisionInv_keeps (intOf : String → Option Int) (requestId : Nat) (before : World) :
    (handler intOf requestId before).Keeps machine StillPending (DecisionInv intOf requestId before) where
  exec := by
    refine Protocol.Keeps.exec_of_answer answering ?_ ?_
    · intro phase stmt reason
      cases stmt <;> rfl
    · intro world phase me stmt choice reply world' inv still allowed succeeds answered
      exact inv.answer succeeds still allowed answered
  known world phase me stmt choice answer world' inv done := by
    cases stmt with
    | getById id =>
      cases answer with
      | none => trivial
      | some row =>
        rcases answering.exec_cases done with ⟨reason, -, failed, -⟩ | ⟨-, answered⟩
        · cases failed
        · simp only [answering, Source.ProfileChanges.answer, Option.some.injEq, Prod.mk.injEq,
            Except.ok.injEq] at answered
          rintro rfl pending
          exact inv.pending_row answered.1 pending
    | _ => trivial
  close _ _ _ inv := inv.rollback
  crash _ _ _ inv := inv.rollback
  outside _ _ change _ := nomatch change

/-- What a statement that is no commit leaves of the requests. -/
theorem exec_requests {stmt : Stmt} {choice : Choice} {reply : Except Failure (Reply stmt)}
    (done : Source.ProfileChanges.exec me stmt choice world = some (reply, world')) (other : stmt ≠ .commit) :
    world.requests.Drafts me world'.requests := by
  rcases answering.exec_cases done with ⟨reason, -, rfl, rfl⟩ | ⟨-, done⟩
  · exact .same
  · cases stmt with
    | now | getById _ | getMember _ | refresh =>
      cases done
      exact .same
    | flushMember memberId loaded latest =>
      rcases flushMember_cases done with ⟨-, rfl⟩ | ⟨-, -, stored, -, rfl⟩
      · exact .same
      · exact .same
    | flushRequest id loaded latest =>
      rcases flushRequest_cases done with ⟨-, rfl⟩ | ⟨-, -, stored, -, rfl⟩
      · exact .same
      · exact .write _ _
    | commit => exact absurd rfl other

/-- What has been decided stays as it is. -/
theorem settled_keeps (intOf : String → Option Int) (requestId : Nat) (before : World)
    {row : ProfileChangeRequest} (settled : row.status ≠ .pending) :
    (handler intOf requestId before).Keeps machine StillPending fun world phase =>
      DecisionInv intOf requestId before world phase ∧ world.requests.committed requestId = some row where
  exec world phase me stmt choice reply world' inv still allowed done := by
    refine ⟨(decisionInv_keeps intOf requestId before).exec _ _ _ _ _ _ _ inv.1 still allowed done, ?_⟩
    by_cases commits : stmt = .commit
    · subst commits
      rcases answering.exec_cases done with ⟨reason, -, rfl, rfl⟩ | ⟨-, done⟩
      · exact inv.2
      · cases done
        have decided : pendingIn world requestId = false := by simp [pendingIn, inv.2, settled]
        rw [inv.1.settled_stays decided]
        exact inv.2
    · rw [(exec_requests done commits).committed]
      exact inv.2
  known world phase me stmt choice answer world' inv done :=
    (decisionInv_keeps intOf requestId before).known _ _ _ _ _ _ _ inv.1 done
  close _ _ _ inv := ⟨inv.1.rollback, Table.abort_committed.trans inv.2⟩
  crash _ _ _ inv := ⟨inv.1.rollback, Table.abort_committed.trans inv.2⟩
  outside _ _ change _ := nomatch change

/-- No transaction is open, and nothing has been decided. -/
structure Fresh (world : World) : Prop where
  members : world.members.Quiet
  requests : world.requests.Quiet
  decided : world.decided = []
  deciding : ∀ me, world.deciding me = none

theorem start_holds {world : World} {reviewers : SessionId → Option Decision} (fresh : Fresh world) :
    (handler intOf requestId world).Holds (DecisionInv intOf requestId world)
      (start intOf requestId world reviewers) := by
  refine ⟨fun _ => {}, ⟨fun me => SessionInv.fresh (fresh.deciding me), ?_, ?_, ?_⟩,
    fun me program running => ?_, fun _ _ => rfl⟩
  · intro memberId owner version drafted
    simp [start, fresh.members memberId] at drafted
  · intro key owner version drafted
    simp [start, fresh.requests key] at drafted
  · exact .undecided (by simp [decisions, start, fresh.decided]) rfl fun _ => rfl
  · obtain ⟨decision, -, rfl⟩ := Option.map_eq_some_iff.mp running
    exact decision_follows decision

/-- Reviewers of one request in any interleaving, with failures and crashes anywhere: as long
as each decision is written over a row that is pending still, one takes effect at most, and
what has been decided stays to the end of the run. -/
theorem profile_decision_final (intOf : String → Option Int) (requestId : Nat) (world : World)
    (reviewers : SessionId → Option Decision) (fresh : Fresh world) (first second : List (Action machine))
    (middle after : Config machine Unit)
    (still : (start intOf requestId world reviewers).Meets StillPending (first ++ second))
    (reached : (start intOf requestId world reviewers).run first = some middle)
    (onward : middle.run second = some after) :
    Settled intOf requestId world after.world ∧ ∀ row, middle.world.requests.committed requestId = some row →
      row.status ≠ .pending → after.world.requests.committed requestId = some row := by
  obtain ⟨stillFirst, stillSecond⟩ := still.append reached
  have holds := (decisionInv_keeps intOf requestId world).run (start_holds fresh) stillFirst reached
  constructor
  · obtain ⟨phase, inv, -, -⟩ := (decisionInv_keeps intOf requestId world).run holds stillSecond onward
    exact inv.settled
  · intro row found settled
    obtain ⟨phase, inv, follows, closed⟩ := holds
    obtain ⟨phase, kept, -, -⟩ := (settled_keeps intOf requestId world settled).run
      ⟨phase, ⟨inv, found⟩, follows, closed⟩ stillSecond onward
    exact kept.2

/-! ## One pending request -/

/-- A member asks for another name. -/
def onePending : World where
  members := .seeded [(7, { name := "Kim", cohort := 10 })]
  requests := .seeded [(1, { memberId := 7, fieldName := .name, newValue := "Lee" })]
  decided := []
  deciding _ := none

theorem onePending_fresh : Fresh onePending where
  members := Table.seeded_quiet _
  requests := Table.seeded_quiet _
  decided := rfl
  deciding _ := rfl

/-- One reviewer approves the request, and another one rejects it. -/
def bothDecide (me : SessionId) : Option Decision :=
  [Decision.approve "root", .reject "han" "no document"][me]?

/-- No text reads as a number; the request is about a name. -/
def noNumber : String → Option Int := fun _ => none

abbrev bothStart : Config machine Unit := start noNumber 1 onePending bothDecide

set_option maxRecDepth 10000 in
/-- The rejection comes after the approval and finds the request decided. -/
theorem profile_decision_final_in_turn : ∃ middle after,
    bothStart.run (executes 0 7) = some middle ∧ middle.run (executes 1 1) = some after ∧
      Settled noNumber 1 onePending after.world ∧
      (after.world.requests.committed 1).map (·.status) = some .approved := by
  have ran : (bothStart.run (executes 0 7)).bind (fun middle =>
      (middle.run (executes 1 1)).map fun after =>
        (after.world.requests.committed 1).map (·.status)) = some (some .approved) := by
    decide
  obtain ⟨middle, reached, onward⟩ := Option.bind_eq_some_iff.mp ran
  obtain ⟨after, onward, same⟩ := Option.map_eq_some_iff.mp onward
  have final := profile_decision_final noNumber 1 onePending bothDecide onePending_fresh (executes 0 7)
    (executes 1 1) middle after (Config.meets_of_checks (by decide)) reached onward
  exact ⟨middle, after, reached, onward, final.1, same⟩

set_option maxRecDepth 10000 in
/-- Both have read the pending request: it ends rejected, and the member has the new name. -/
theorem rejection_overtakes_approval : ∃ after,
    bothStart.run (executes 0 1 ++ executes 1 1 ++ executes 0 6 ++ executes 1 4) = some after ∧
      decisions after.world 1 = [.approved, .rejected] ∧
      (after.world.requests.committed 1).map (·.status) = some .rejected ∧
      (after.world.members.committed 7).map (·.name) = some "Lee" := by
  have ran : (bothStart.run (executes 0 1 ++ executes 1 1 ++ executes 0 6 ++ executes 1 4)).map (fun after =>
      (decisions after.world 1, (after.world.requests.committed 1).map (·.status),
        (after.world.members.committed 7).map (·.name))) =
      some ([.approved, .rejected], some .rejected, some "Lee") := by
    decide
  obtain ⟨after, reached, same⟩ := Option.map_eq_some_iff.mp ran
  simp only [Prod.mk.injEq] at same
  exact ⟨after, reached, same.1, same.2.1, same.2.2⟩

end SogeconApp.Guarantees.ProfileDecision
