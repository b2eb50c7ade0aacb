import SogeconApp.Library.Traced

/-!
# Counted columns

A session adds to a column of a row and commits later, or never does. What is counted of a trace is what its
sessions added before their commits. If every write of a row adds to the column what the trace counts, then
the committed row has what has been committed, however the sessions interleave: none of it is lost.
-/

namespace SogeconApp.Library

/-! ## What a trace has committed -/

namespace Trace

variable {S : Signature}

section Counting

variable (adds ends : Exchange S → Bool)

def endsOf (me : SessionId) (entry : SessionId × Exchange S) : Bool := decide (entry.1 = me) && ends entry.2

/-- How many additions of the session it has not committed. -/
def pending (me : SessionId) : Trace S → Nat
  | [] => 0
  | entry :: later =>
    (if entry.1 = me ∧ adds entry.2 = true ∧ later.any (endsOf ends me) = false then 1 else 0) + pending me later

/-- How many additions their sessions have committed. -/
def settled : Trace S → Nat
  | [] => 0
  | entry :: later =>
    (if adds entry.2 = true ∧ later.any (endsOf ends entry.1) = true then 1 else 0) + settled later

variable {adds ends}

theorem pending_other {me other : SessionId} (different : other ≠ me) (exchange : Exchange S) (trace : Trace S) :
    pending adds ends me (trace ++ [(other, exchange)]) = pending adds ends me trace := by
  induction trace with
  | nil => simp [pending, different]
  | cons entry later ih =>
    have apart : endsOf ends me (other, exchange) = false := by simp [endsOf, different]
    simp only [List.cons_append, pending, ih, List.any_append, List.any_cons, List.any_nil, apart, Bool.or_false]

/-- An exchange that commits nothing. -/
theorem pending_self {me : SessionId} {exchange : Exchange S} (goesOn : ends exchange = false) (trace : Trace S) :
    pending adds ends me (trace ++ [(me, exchange)]) =
      pending adds ends me trace + if adds exchange = true then 1 else 0 := by
  induction trace with
  | nil => simp [pending]
  | cons entry later ih =>
    have apart : endsOf ends me (me, exchange) = false := by simp [endsOf, goesOn]
    simp only [List.cons_append, pending, ih, List.any_append, List.any_cons, List.any_nil, apart, Bool.or_false]
    omega

theorem pending_ends {me : SessionId} {exchange : Exchange S} (commits : ends exchange = true)
    (plain : adds exchange = false) (trace : Trace S) :
    pending adds ends me (trace ++ [(me, exchange)]) = 0 := by
  induction trace with
  | nil => simp [pending, plain]
  | cons entry later ih =>
    have here : endsOf ends me (me, exchange) = true := by simp [endsOf, commits]
    simp [pending, ih, here]

theorem settled_same {me : SessionId} {exchange : Exchange S} (goesOn : ends exchange = false) (trace : Trace S) :
    settled adds ends (trace ++ [(me, exchange)]) = settled adds ends trace := by
  induction trace with
  | nil => simp [settled]
  | cons entry later ih =>
    have apart : endsOf ends entry.1 (me, exchange) = false := by simp [endsOf, goesOn]
    simp only [List.cons_append, settled, ih, List.any_append, List.any_cons, List.any_nil, apart, Bool.or_false]

/-- A commit settles what was pending of its session. -/
theorem settled_ends {me : SessionId} {exchange : Exchange S} (commits : ends exchange = true)
    (plain : adds exchange = false) (trace : Trace S) :
    settled adds ends (trace ++ [(me, exchange)]) = settled adds ends trace + pending adds ends me trace := by
  induction trace with
  | nil => simp [settled, pending, plain]
  | cons entry later ih =>
    simp only [List.cons_append, settled, pending, ih, List.any_append, List.any_cons, List.any_nil,
      Bool.or_false]
    by_cases mine : entry.1 = me
    · have here : endsOf ends entry.1 (me, exchange) = true := by simp [endsOf, mine, commits]
      rw [here, mine]
      cases later.any (endsOf ends me) <;> cases adds entry.2 <;> simp <;> omega
    · have apart : endsOf ends entry.1 (me, exchange) = false := by
        simp only [endsOf, Bool.and_eq_false_iff, decide_eq_false_iff_not]
        exact .inl fun same => mine same.symm
      have none_ : ¬(entry.1 = me ∧ adds entry.2 = true ∧ later.any (endsOf ends me) = false) :=
        fun both => mine both.1
      rw [apart, Bool.or_false, if_neg none_]
      omega

theorem pending_plain {me other : SessionId} {exchange : Exchange S} (plain : adds exchange = false)
    (goesOn : ends exchange = false) (trace : Trace S) :
    pending adds ends me (trace ++ [(other, exchange)]) = pending adds ends me trace := by
  by_cases mine : other = me
  · rw [mine, pending_self goesOn, plain]
    rfl
  · exact pending_other mine exchange trace

variable (adds ends)

/-- What each session that still runs has added and not committed. -/
def uncommitted (running : SessionId → Bool) (trace : Trace S) (me : SessionId) : Nat :=
  if running me = true then pending adds ends me trace else 0

variable {adds ends} {running : SessionId → Bool} {me : SessionId} {exchange : Exchange S} {trace : Trace S}

theorem uncommitted_plain (plain : adds exchange = false) (goesOn : ends exchange = false) :
    uncommitted adds ends running (trace ++ [(me, exchange)]) = uncommitted adds ends running trace := by
  funext other
  simp only [uncommitted, pending_plain plain goesOn]

/-- What adds to the count is pending for its session, and for no other one. -/
theorem uncommitted_adds (runs : running me = true) (one : adds exchange = true)
    (goesOn : ends exchange = false) :
    uncommitted adds ends running (trace ++ [(me, exchange)]) =
      Function.update (uncommitted adds ends running trace) me (uncommitted adds ends running trace me + 1) := by
  funext other
  by_cases mine : other = me
  · rw [mine, Function.update_self]
    simp only [uncommitted, if_pos runs, pending_self goesOn, if_pos one]
  · rw [Function.update_of_ne mine]
    simp only [uncommitted, pending_other (fun same => mine same.symm)]

theorem uncommitted_ends (commits : ends exchange = true) (plain : adds exchange = false) :
    uncommitted adds ends running (trace ++ [(me, exchange)]) =
      Function.update (uncommitted adds ends running trace) me 0 := by
  funext other
  by_cases mine : other = me
  · rw [mine, Function.update_self]
    simp [uncommitted, pending_ends commits plain]
  · rw [Function.update_of_ne mine]
    simp only [uncommitted, pending_other (fun same => mine same.symm)]

/-- A session that is gone has lost what it has not committed. -/
theorem uncommitted_gone :
    uncommitted adds ends (Function.update running me false) trace =
      Function.update (uncommitted adds ends running trace) me 0 := by
  funext other
  by_cases mine : other = me
  · rw [mine, Function.update_self]
    simp [uncommitted]
  · rw [Function.update_of_ne mine]
    simp only [uncommitted, Function.update_of_ne mine]

end Counting

end Trace

/-! ## Sessions that are gone -/

/-- A session that has been closed or has crashed issues nothing more. -/
def Protocol.alive (S : Signature) : Protocol S where
  Phase := Bool
  gone := false
  allow phase _ := phase = true
  next phase _ _ := phase
  answers _ _ := True

theorem Protocol.follows_alive {S : Signature} {α : Type} {running : Bool} (runs : running = true)
    (program : Program S α) : (Protocol.alive S).Follows running program := by
  induction program with
  | ret value => trivial
  | raise reason => trivial
  | exec stmt next ih =>
    refine ⟨runs, ?_⟩
    rintro reply phase ⟨rfl, -⟩
    exact ih reply

/-! ## The column -/

namespace Table

variable {κ ρ : Type} [DecidableEq κ] {count : ρ → Int} {key : κ} {total : Int} {pending : SessionId → Nat}
  {table : Table κ ρ} {me : SessionId}

/-- The committed row has the total, a draft has what its session has added beside it, and who has added
something holds the row, unless there is none any more. -/
structure Tallied (count : ρ → Int) (key : κ) (total : Int) (pending : SessionId → Nat)
    (table : Table κ ρ) : Prop where
  committed : ∀ row, table.committed key = some row → count row = total
  drafted : ∀ owner row, (table.slot key).draft = some (owner, some row) →
    table.committed key ≠ none ∧ count row = total + pending owner
  held : ∀ owner, 0 < pending owner →
    (∃ version, (table.slot key).draft = some (owner, version)) ∨ table.committed key = none

omit [DecidableEq κ] in
theorem Quiet.tallied (quiet : table.Quiet) (stored : ∀ row, table.committed key = some row → count row = total) :
    table.Tallied count key total fun _ => 0 where
  committed := stored
  drafted owner row drafted := by
    rw [quiet key] at drafted
    cases drafted
  held owner some_ := absurd some_ (Nat.lt_irrefl 0)

namespace Tallied

omit [DecidableEq κ] in
/-- Who holds no draft of a row that is there has added nothing. -/
theorem pending_eq_zero (tallied : table.Tallied count key total pending) (stored : table.committed key ≠ none)
    (other : ∀ version, (table.slot key).draft ≠ some (me, version)) : pending me = 0 := by
  by_contra some_
  rcases tallied.held me (Nat.pos_of_ne_zero some_) with ⟨version, mine⟩ | none_
  · exact other version mine
  · exact stored none_

omit [DecidableEq κ] in
/-- What a session finds that may write the row. -/
theorem row (tallied : table.Tallied count key total pending) (free : (table.slot key).lockedFor me = false)
    {version : ρ} (seen : table.row me key = some version) :
    table.committed key ≠ none ∧ count version = total + pending me := by
  cases drafted : (table.slot key).draft with
  | none =>
    have same : table.committed key = some version := (Slot.row_of_no_draft drafted).symm.trans seen
    have stored : table.committed key ≠ none := by simp [same]
    have zero : pending me = 0 := tallied.pending_eq_zero stored (by simp [drafted])
    refine ⟨stored, ?_⟩
    rw [tallied.committed version same, zero]
    omega
  | some held =>
    obtain ⟨owner, latest⟩ := held
    obtain rfl := Slot.lockedFor_eq_false.mp free owner latest drafted
    obtain rfl : latest = some version := (Slot.row_of_draft drafted).symm.trans seen
    exact tallied.drafted owner version drafted

/-- A write of the row that adds to the column. -/
theorem write (tallied : table.Tallied count key total pending) (free : (table.slot key).lockedFor me = false)
    {version latest : ρ} (seen : table.row me key = some version) {more : Nat}
    (adds : count latest = count version + more) :
    (table.write me key (some latest)).Tallied count key total
      (Function.update pending me (pending me + more)) := by
  obtain ⟨stored, counted⟩ := tallied.row free seen
  refine ⟨fun row committed => ?_, fun owner row drafted => ?_, fun owner some_ => ?_⟩
  · rw [write_committed] at committed
    exact tallied.committed row committed
  · rw [write_slot_self] at drafted
    cases drafted
    rw [write_committed, Function.update_self]
    refine ⟨stored, ?_⟩
    omega
  · rw [write_slot_self, write_committed]
    by_cases mine : owner = me
    · rw [mine]
      exact .inl ⟨_, rfl⟩
    · rw [Function.update_of_ne mine] at some_
      rcases tallied.held owner some_ with ⟨earlier, drafted⟩ | none_
      · exact absurd (Slot.lockedFor_eq_false.mp free owner earlier drafted) mine
      · exact absurd none_ stored

/-- A row that is deleted unlocked leaves no count to be kept. -/
theorem delete (tallied : table.Tallied count key total pending) (free : (table.slot key).lockedFor me = false) :
    (table.write me key none).Tallied count key total pending := by
  refine ⟨fun row committed => ?_, fun owner row drafted => ?_, fun owner some_ => ?_⟩
  · rw [write_committed] at committed
    exact tallied.committed row committed
  · rw [write_slot_self] at drafted
    cases drafted
  · rw [write_slot_self, write_committed]
    rcases tallied.held owner some_ with ⟨earlier, drafted⟩ | none_
    · obtain rfl := Slot.lockedFor_eq_false.mp free owner earlier drafted
      exact .inl ⟨_, rfl⟩
    · exact .inr none_

theorem elsewhere (tallied : table.Tallied count key total pending) {other : κ} (different : key ≠ other)
    (version : Option ρ) : (table.write me other version).Tallied count key total pending := by
  refine ⟨fun row committed => ?_, fun owner row drafted => ?_, fun owner some_ => ?_⟩
  · rw [write_committed] at committed
    exact tallied.committed row committed
  · rw [write_slot_of_ne different] at drafted
    rw [write_committed]
    exact tallied.drafted owner row drafted
  · rw [write_slot_of_ne different, write_committed]
    exact tallied.held owner some_

omit [DecidableEq κ] in
/-- An update that finds no row. -/
theorem missed (tallied : table.Tallied count key total pending)
    (none_ : table.committed key = none ∨ table.row me key = none) (more : Nat) :
    table.Tallied count key total (Function.update pending me (pending me + more)) := by
  have held : (∃ version, (table.slot key).draft = some (me, version)) ∨ table.committed key = none := by
    rcases none_ with gone | unseen
    · exact .inr gone
    · rcases table.row_cases me key with same | drafted
      · exact .inr (same.trans unseen)
      · exact .inl ⟨_, drafted⟩
  refine ⟨tallied.committed, fun owner row drafted => ?_, fun owner some_ => ?_⟩
  · have other : owner ≠ me := by
      rintro rfl
      have seen : table.row owner key = some row := Slot.row_of_draft drafted
      rcases none_ with gone | unseen
      · exact (tallied.drafted owner row drafted).1 gone
      · rw [unseen] at seen
        cases seen
    rw [Function.update_of_ne other]
    exact tallied.drafted owner row drafted
  · by_cases mine : owner = me
    · rw [mine]
      exact held
    · rw [Function.update_of_ne mine] at some_
      exact tallied.held owner some_

omit [DecidableEq κ] in
/-- The row with all that its session has added. -/
theorem commit (tallied : table.Tallied count key total pending) (me : SessionId) :
    (table.commit me).Tallied count key (total + pending me) (Function.update pending me 0) := by
  by_cases mine : ∃ version, (table.slot key).draft = some (me, version)
  · obtain ⟨version, drafted⟩ := mine
    have now := committed_commit_of_draft drafted
    have none_ : ((table.commit me).slot key).draft = none := by
      cases held : ((table.commit me).slot key).draft with
      | none => rfl
      | some other =>
        obtain ⟨before, different⟩ := Slot.draft_commit_eq.mp held
        rw [drafted] at before
        cases before
        exact absurd rfl different
    refine ⟨fun row committed => ?_, fun owner row drafted' => ?_, fun owner some_ => ?_⟩
    · rw [now] at committed
      rw [committed] at drafted
      exact (tallied.drafted me row drafted).2
    · rw [none_] at drafted'
      cases drafted'
    · have other : owner ≠ me := by
        rintro rfl
        rw [Function.update_self] at some_
        exact Nat.lt_irrefl 0 some_
      rw [Function.update_of_ne other] at some_
      rcases tallied.held owner some_ with ⟨earlier, drafted'⟩ | gone
      · rw [drafted] at drafted'
        cases drafted'
        exact absurd rfl other
      · cases version with
        | none => exact .inr now
        | some row => exact absurd gone (tallied.drafted me row drafted).1
  · have other : ∀ version, (table.slot key).draft ≠ some (me, version) :=
      fun version drafted => mine ⟨version, drafted⟩
    have same := committed_commit_of_not_mine other
    refine ⟨fun row committed => ?_, fun owner row drafted => ?_, fun owner some_ => ?_⟩
    · rw [same] at committed
      rw [tallied.pending_eq_zero (by simp [committed]) other, tallied.committed row committed]
      omega
    · obtain ⟨before, different⟩ := Slot.draft_commit_eq.mp drafted
      obtain ⟨stored, counted⟩ := tallied.drafted owner row before
      rw [same, Function.update_of_ne different, tallied.pending_eq_zero stored other]
      refine ⟨stored, ?_⟩
      omega
    · have different : owner ≠ me := by
        rintro rfl
        rw [Function.update_self] at some_
        exact Nat.lt_irrefl 0 some_
      rw [Function.update_of_ne different] at some_
      rw [same]
      rcases tallied.held owner some_ with ⟨version, drafted⟩ | gone
      · exact .inl ⟨version, Slot.draft_commit_eq.mpr ⟨drafted, different⟩⟩
      · exact .inr gone

omit [DecidableEq κ] in
/-- A session that is rolled back takes what it has added with it. -/
theorem abort (tallied : table.Tallied count key total pending) (me : SessionId) :
    (table.abort me).Tallied count key total (Function.update pending me 0) := by
  refine ⟨fun row committed => ?_, fun owner row drafted => ?_, fun owner some_ => ?_⟩
  · rw [abort_committed] at committed
    exact tallied.committed row committed
  · obtain ⟨before, different⟩ := Slot.draft_abort_eq.mp drafted
    rw [abort_committed, Function.update_of_ne different]
    exact tallied.drafted owner row before
  · have different : owner ≠ me := by
      rintro rfl
      rw [Function.update_self] at some_
      exact Nat.lt_irrefl 0 some_
    rw [Function.update_of_ne different] at some_
    rw [abort_committed]
    rcases tallied.held owner some_ with ⟨version, drafted⟩ | gone
    · exact .inl ⟨version, Slot.draft_abort_eq.mpr ⟨drafted, different⟩⟩
    · exact .inr gone

end Tallied

end Table

end SogeconApp.Library
