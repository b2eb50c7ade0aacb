import SogeconApp.Guarantees.Numerals
import SogeconApp.Source.ProfileRequests

/-!
# An accepted profile change

A change of the name that is accepted is a change, and an approval of it sets the name. The cohort that
was asked for is compared as a text, so another spelling of the cohort that the member has is accepted
as well; with any other accepted cohort the request is a change too.

The time of the last update of the member row, which the database keeps, is not a field here.
-/

namespace SogeconApp.Guarantees.ProfileRequests

open Library Source.ProfileChanges Source.ProfileRequests

/-- A value in the type of its field. -/
inductive FieldValue where
  | name (text : String)
  | cohort (number : Int)
  deriving DecidableEq, Repr

/-- The requested value; none where it cannot be converted. -/
def requested (row : ProfileChangeRequest) : Option FieldValue :=
  match row.fieldName with
  | .name => some (.name row.newValue)
  | .cohort => (intOf row.newValue).map .cohort

def current (fieldName : ProfileField) (member : Member) : FieldValue :=
  match fieldName with
  | .name => .name member.name
  | .cohort => .cohort member.cohort

/-- The member with one field set. -/
def withValue (member : Member) : FieldValue → Member
  | .name name => { member with name }
  | .cohort cohort => { member with cohort }

/-- No transaction is open, and the request and the member are as they were stored. -/
structure Unchanged (world : World) (requestId : Nat) (row : ProfileChangeRequest) (member : Member) : Prop where
  members : world.members.Quiet
  requests : world.requests.Quiet
  request : world.requests.committed requestId = some row
  member : world.members.committed row.memberId = some member

/-- An approval by a session alone, any statement of which may fail, ends. It fails only where a statement
does, sets the member's row to the given one if it succeeds, and leaves every other row alone. -/
def ApprovalSets (row : ProfileChangeRequest) (member latest : Member) : Prop :=
  ∀ (me : SessionId) (requestId : Nat) (decidedByStudentId : String) (choices : Nat → Choice) (world : World),
    Unchanged world requestId row member →
      ∃ out after,
        machine.eval me (approveRequest intOf requestId decidedByStudentId) choices world = some (out, after) ∧
        ((∀ index, (choices index).fails = none) → out = .ok ()) ∧
        (out = .ok () → after.members.committed row.memberId = some latest) ∧
        (after.members.committed row.memberId = some member ∨
          after.members.committed row.memberId = some latest) ∧
        ∀ other, other ≠ row.memberId → after.members.committed other = world.members.committed other

/-- The requested value differs from the current one, and an approval sets the field to it. -/
def RealChange (member : Member) (row : ProfileChangeRequest) : Prop :=
  ∃ value, requested row = some value ∧ value ≠ current row.fieldName member ∧
    ApprovalSets row member (withValue member value)

/-- The text has the digits of the member's cohort, without leading zeros and in any script. -/
def SpellsCohort (member : Member) (newValue : String) : Prop :=
  1 ≤ member.cohort ∧ Digits.significant (Numerals.decimals newValue.toList) =
    Digits.significant (Numerals.decimals (toString member.cohort).toList)

instance (member : Member) (newValue : String) : Decidable (SpellsCohort member newValue) :=
  inferInstanceAs (Decidable (_ ∧ _))

/-! ## An approval -/

section Approval

variable {me : SessionId} {may : Choice → Prop} {E : Failure → World → Prop} {world : World}

/-- The rows of the members during an approval. -/
structure Kept (before : World) (row : ProfileChangeRequest) (member latest : Member) (world : World) : Prop where
  own : world.members.committed row.memberId = some member ∨ world.members.committed row.memberId = some latest
  others : ∀ other, other ≠ row.memberId → world.members.committed other = before.members.committed other

/-- The member's row is ready to be committed, and the request is as it was. -/
structure Drafted (me : SessionId) (before : World) (row : ProfileChangeRequest) (member latest : Member)
    (world : World) : Prop where
  kept : Kept before row member latest world
  requests : world.requests = before.requests
  committing : (world.members.commit me).committed row.memberId = some latest
  others : ∀ other, other ≠ row.memberId → 
    (world.members.commit me).committed other = before.members.committed other

variable {requestId : Nat} {row : ProfileChangeRequest} {member latest : Member}

theorem Unchanged.kept (unchanged : Unchanged world requestId row member) : Kept world row member latest world :=
  ⟨.inl unchanged.member, fun _ _ => rfl⟩

theorem Unchanged.drafted (unchanged : Unchanged world requestId row member) :
    Drafted me world row member member world where
  kept := unchanged.kept
  requests := rfl
  committing := by rw [unchanged.members.commit_eq, unchanged.member]
  others other _ := by rw [unchanged.members.commit_eq]

theorem Unchanged.flushed (unchanged : Unchanged world requestId row member) :
    Drafted me world row member latest
      { world with members := world.members.write me row.memberId (some latest) } where
  kept := ⟨.inl (Table.write_committed.trans unchanged.member), fun _ _ => Table.write_committed⟩
  requests := rfl
  committing := Table.committed_commit_of_draft (by rw [Table.write_slot_self, Slot.write_draft])
  others other different := by
    refine (Table.committed_commit_of_not_mine fun version drafted => ?_).trans Table.write_committed
    rw [Table.write_slot_of_ne different, unchanged.members other] at drafted
    cases drafted

section Program

variable (raises : ∀ choice reason reached, may choice → choice.fails = some reason →
  Kept world row member latest reached → E reason reached)

include raises

/-- A statement that is answered whenever it does not fail. -/
theorem ensures_ask {stmt : Stmt} {Q : Reply stmt → World → Prop} {reached world' : World}
    (kept : Kept world row member latest reached) (value : Choice → Reply stmt)
    (answers : ∀ choice, answer me stmt choice reached = some (.ok (value choice), world'))
    (then_ : ∀ choice, Q (value choice) world') : (ask stmt).Ensures (machine.alone me may) Q E reached := by
  refine (Program.ensures_issue reached).mpr ⟨fun choice _ => ?_, ?_, ?_⟩
  · cases fails : choice.fails <;> simp [exec, fails, answers]
  · intro value' after ⟨choice, _, done⟩
    rcases answering.exec_cases done with ⟨reason, -, failed, -⟩ | ⟨-, done⟩
    · cases failed
    · change answer me stmt choice reached = _ at done
      rw [answers] at done
      cases done
      exact then_ choice
  · intro reason after ⟨choice, allowed, done⟩
    rcases answering.exec_cases done with ⟨reason', fails, failed, rfl⟩ | ⟨-, done⟩
    · cases failed
      exact raises choice reason after allowed fails kept
    · change answer me stmt choice reached = _ at done
      rw [answers] at done
      cases done

/-- A statement that is answered in one way is passed with its answer, or fails where the environment
lets it. -/
theorem ensures_step {α : Type} {stmt : Stmt} {next : Reply stmt → Handler α} {Q : α → World → Prop}
    {reached world' : World} (kept : Kept world row member latest reached) (value : Choice → Reply stmt)
    (answers : ∀ choice, answer me stmt choice reached = some (.ok (value choice), world'))
    (then_ : ∀ choice, (next (value choice)).Ensures (machine.alone me may) Q E world') :
    (ask stmt >>= next).Ensures (machine.alone me may) Q E reached := by
  rw [Program.bind_eq, Program.ensures_bind]
  exact ensures_ask raises kept value answers then_

theorem pendingRequest_ensures (unchanged : Unchanged world requestId row member)
    (pending : row.status = .pending) :
    (pendingRequest requestId).Ensures (machine.alone me may)
      (fun found reached => found = row ∧ reached = world) E world := by
  have seen : world.requests.row me requestId = some row :=
    (unchanged.requests.row_eq me requestId).trans unchanged.request
  apply ensures_step raises unchanged.kept fun _ => some row
  · intro choice
    rw [answer, seen]
  · intro choice
    simp [pending]

/-- The member is saved or found to have the value already; either way its row is ready. -/
theorem saveMember_ensures (unchanged : Unchanged world requestId row member) :
    (saveMember row.memberId member latest).Ensures (machine.alone me may)
      (fun _ reached => Drafted me world row member latest reached) E world := by
  unfold saveMember
  split
  · rename_i same
    subst same
    exact unchanged.drafted
  · have seen : world.members.row me row.memberId = some member :=
      (unchanged.members.row_eq me row.memberId).trans unchanged.member
    refine ensures_ask raises unchanged.kept (fun _ => ()) (fun choice => ?_) fun _ => unchanged.flushed
    rw [answer, flushMember, unchanged.members.only.updateRow, seen]
    simp [flushedMember_of_either]

theorem save_ensures (unchanged : Unchanged world requestId row member) {reached : World}
    (drafted : Drafted me world row member latest reached) (decided : ProfileChangeRequest) :
    (save requestId row decided).Ensures (machine.alone me may)
      (fun _ after => after.members.committed row.memberId = some latest ∧ Kept world row member latest after) E
      reached := by
  have seen : reached.requests.row me requestId = some row := by
    rw [drafted.requests, unchanged.requests.row_eq, unchanged.request]
  have free : reached.requests.Only me := by
    rw [drafted.requests]
    exact unchanged.requests.only
  let flushed : World := { reached with
    requests := reached.requests.write me requestId (some (flushedRequest row decided row))
    deciding := Function.update reached.deciding me (some (requestId, decided.status)) }
  have before : Kept world row member latest flushed := ⟨drafted.kept.own, drafted.kept.others⟩
  have committed : Kept world row member latest (flushed.commit me) := ⟨.inr drafted.committing, drafted.others⟩
  have writes (choice : Choice) :
      answer me (.flushRequest requestId row decided) choice reached = some (.ok (), flushed) := by
    rw [answer, flushRequest, free.updateRow, seen]
    rfl
  unfold save
  apply ensures_step raises drafted.kept (fun _ => ()) writes
  intro _
  apply ensures_step raises before (fun _ => ()) fun _ => rfl
  intro _
  apply ensures_ask raises committed (fun _ => ()) fun _ => rfl
  intro _
  exact ⟨drafted.committing, committed⟩

/-- What an approval of a pending request does whose value can be converted. -/
theorem approveRequest_ensures (unchanged : Unchanged world requestId row member)
    (pending : row.status = .pending)
    (converted : applied intOf row member = some latest) (decidedByStudentId : String) :
    (approveRequest intOf requestId decidedByStudentId).Ensures (machine.alone me may)
      (fun _ after => after.members.committed row.memberId = some latest ∧ Kept world row member latest after) E
      world := by
  unfold approveRequest
  rw [Program.bind_eq, Program.ensures_bind]
  refine (pendingRequest_ensures raises unchanged pending).weaken ?_ fun _ _ raised => raised
  intro found reached ⟨same, here⟩
  subst same here
  have seen : reached.members.row me found.memberId = some member :=
    (unchanged.members.row_eq me found.memberId).trans unchanged.member
  apply ensures_step raises unchanged.kept fun _ => some member
  · intro choice
    rw [answer, seen]
  · intro choice
    dsimp only
    rw [converted]
    apply ensures_step raises unchanged.kept Choice.now fun _ => rfl
    intro choice
    rw [Program.bind_eq, Program.ensures_bind]
    refine (saveMember_ensures raises unchanged).weaken ?_ fun _ _ raised => raised
    exact fun _ saved drafted => save_ensures raises unchanged drafted _

end Program

/-- An approval of a pending request whose value can be converted sets the member's row. -/
theorem approval_sets (pending : row.status = .pending) (converted : applied intOf row member = some latest) :
    ApprovalSets row member latest := by
  intro me requestId decidedByStudentId choices world unchanged
  have any : (approveRequest intOf requestId decidedByStudentId).Ensures (machine.alone me fun _ => True) _
      (fun _ after => Kept world row member latest after) world :=
    approveRequest_ensures (fun _ _ _ _ _ kept => kept) unchanged pending converted decidedByStudentId
  obtain ⟨out, after, done, outcome⟩ := Machine.eval_of_ensures any fun _ => trivial
  have works (never : ∀ index, (choices index).fails = none) : out = .ok () := by
    have works : (approveRequest intOf requestId decidedByStudentId).Ensures
        (machine.alone me fun choice => choice.fails = none) _ (fun _ _ => False) world :=
      approveRequest_ensures
        (fun choice reason reached allowed fails _ => by rw [allowed] at fails; cases fails)
        unchanged pending converted decidedByStudentId
    obtain ⟨out', after', done', outcome'⟩ := Machine.eval_of_ensures works never
    rw [done] at done'
    cases done'
    cases out with
    | error reason => exact outcome'.elim
    | ok value => rfl
  refine ⟨out, after, done, works, ?_, ?_⟩
  · rintro rfl
    exact outcome.1
  · cases out with
    | error reason => exact ⟨outcome.own, outcome.others⟩
    | ok value => exact ⟨outcome.2.own, outcome.2.others⟩

end Approval

/-! ## A request that is accepted -/

section Accepted

variable {existing : Option ProfileChangeRequest} {insertion : Insertion} {memberId : Nat} {member : Member}
  {fieldName : ProfileField} {newValue : String} {created : CreatedRequest}

/-- A cohort that passes the check is a positive number. -/
theorem checkCohort_ok (checked : checkCohort newValue = .ok ()) :
    ∃ cohort, intOf newValue = some cohort ∧ 1 ≤ cohort := by
  unfold checkCohort at checked
  split at checked
  · cases checked
  · rename_i cohort read
    split at checked
    · cases checked
    · exact ⟨cohort, read, by omega⟩

/-- What is known of the row of an accepted request. -/
structure Created (member : Member) (fieldName : ProfileField) (newValue : String) (row : ProfileChangeRequest) :
    Prop where
  field : row.fieldName = fieldName
  trimmed : row.newValue.toList = Source.MediaPaths.strip newValue.toList
  pending : row.status = .pending
  differs : row.newValue ≠ oldValueOf fieldName member
  cohort : fieldName = .cohort → ∃ cohort, intOf row.newValue = some cohort ∧ 1 ≤ cohort

theorem insertRequest_ok {row : CreatedRequest} (inserted : insertRequest existing insertion row = .ok created) :
    created = row := by
  unfold insertRequest at inserted
  split at inserted
  · cases inserted
  · split at inserted
    · exact (Except.ok.inj inserted).symm
    · split at inserted <;> cases inserted

/-- A created request has the fields of the payload, a value that differs from the stored one, and a
cohort that passed its check. -/
theorem created_of_create {data : ProfileChangeRequestCreate}
    (accepted : createChangeRequest existing insertion memberId member data = .ok created) :
    created.toProfileChangeRequest = { memberId, fieldName := data.fieldName, newValue := data.newValue } ∧
      data.newValue ≠ oldValueOf data.fieldName member ∧
      (data.fieldName = .cohort → checkCohort data.newValue = .ok ()) := by
  unfold createChangeRequest at accepted
  dsimp only at accepted
  split at accepted
  · cases accepted
  · rename_i differs
    simp only [bind, Except.bind] at accepted
    split at accepted
    · split at accepted
      · cases accepted
      · rename_i checked
        rw [insertRequest_ok accepted]
        exact ⟨rfl, differs, fun _ => checked⟩
    · rename_i other
      rw [insertRequest_ok accepted]
      exact ⟨rfl, differs, fun cohort => absurd cohort other⟩

theorem created_of_post
    (accepted : postChangeRequest existing insertion memberId member fieldName newValue = .ok created) :
    Created member fieldName newValue created.toProfileChangeRequest := by
  unfold postChangeRequest at accepted
  cases valid : ProfileChangeRequestCreate.validate fieldName newValue with
  | error reason =>
    rw [valid] at accepted
    cases accepted
  | ok data =>
    rw [valid] at accepted
    have same : data = { fieldName, newValue := String.ofList (Source.MediaPaths.strip newValue.toList) } := by
      unfold ProfileChangeRequestCreate.validate at valid
      split at valid
      · cases valid
      · dsimp only at valid
        split at valid
        · cases valid
        · exact (Except.ok.inj valid).symm
    obtain ⟨row, differs, checked⟩ := created_of_create accepted
    subst same
    rw [row]
    exact ⟨rfl, String.toList_ofList, rfl, differs, fun cohort => checkCohort_ok (checked cohort)⟩

theorem applied_eq (row : ProfileChangeRequest) (member : Member) :
    applied intOf row member = (requested row).map (withValue member) := by
  unfold applied requested
  cases row.fieldName with
  | name => rfl
  | cohort =>
    rw [Option.map_map]
    rfl

/-- An accepted request is a real change unless it asks for the cohort and spells the one that the
member has. For every other field the two texts differ, so an approval changes the row. -/
theorem accepted_change_real_iff
    (accepted : postChangeRequest existing insertion memberId member fieldName newValue = .ok created) :
    RealChange member created.toProfileChangeRequest ↔ ¬(fieldName = .cohort ∧ SpellsCohort member newValue) := by
  have row := created_of_post accepted
  have sets {value : FieldValue} (read : requested created.toProfileChangeRequest = some value) :
      ApprovalSets created.toProfileChangeRequest member (withValue member value) :=
    approval_sets row.pending (by rw [applied_eq, read, Option.map_some])
  have field := row.field
  cases fieldName with
  | name =>
    have read : requested created.toProfileChangeRequest = some (.name created.newValue) := by
      rw [requested, field]
    have differs : FieldValue.name created.newValue ≠ current .name member := fun same =>
      row.differs (FieldValue.name.inj same)
    simp only [reduceCtorEq, false_and, not_false_eq_true, iff_true]
    exact ⟨_, read, by rwa [field], sets read⟩
  | cohort =>
    obtain ⟨cohort, number, positive⟩ := row.cohort rfl
    have read : requested created.toProfileChangeRequest = some (.cohort cohort) := by
      rw [requested, field, number]
      rfl
    have spelled : cohort = member.cohort ↔ SpellsCohort member newValue := by
      rw [Numerals.int_eq_iff number positive, row.trimmed, Numerals.decimals_strip]
      rfl
    rw [eq_self, true_and, ← spelled]
    constructor
    · intro ⟨value, read', differs, _⟩ same
      rw [read, Option.some.injEq] at read'
      rw [← read', field, same] at differs
      exact differs rfl
    · intro different
      refine ⟨_, read, ?_, sets read⟩
      rw [field]
      exact fun same => different (FieldValue.cohort.inj same)

end Accepted

/-- Another spelling of the cohort is accepted, and changes nothing. -/
theorem respelled_cohort_accepted :
    ∃ created, postChangeRequest none .stored 1 ⟨"kim", 7⟩ .cohort "007" = .ok created ∧
      ¬RealChange ⟨"kim", 7⟩ created.toProfileChangeRequest := by
  refine ⟨{ memberId := 1, fieldName := .cohort, newValue := "007", oldValue := "7" }, rfl, ?_⟩
  intro ⟨value, read, differs, _⟩
  have seven : some value = some (.cohort 7) := read.symm.trans (by decide +kernel)
  cases seven
  exact differs rfl

/-- Another cohort is a change, whatever its spelling. -/
theorem accepted_change_real_eight :
    RealChange ⟨"kim", 7⟩ { memberId := 1, fieldName := .cohort, newValue := "+08" } := by
  have accepted : postChangeRequest none .stored 1 ⟨"kim", 7⟩ .cohort " +08 " =
      .ok { memberId := 1, fieldName := .cohort, newValue := "+08", oldValue := "7" } := rfl
  exact (accepted_change_real_iff accepted).mpr (by decide +kernel)

end SogeconApp.Guarantees.ProfileRequests
