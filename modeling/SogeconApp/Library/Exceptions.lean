import SogeconApp.Library.Sessions

/-!
# The exceptions of a run

A program with handlers may end well although statements of it raised. What it met on the
way is recorded beside the state: the states that the exceptions left, in order. A program
without handlers passes every exception of a statement on, so whatever its weakest
precondition says holds with nothing recorded when it returns and with one more state, the
one it is left in, when it raises.
-/

namespace SogeconApp.Library

variable {S : Signature} {α β σ : Type}

/-- The state that a reply leaves, if the reply is an exception. -/
def leftBy {ρ : Type} : Except S.Exn ρ → σ → List σ
  | .ok _, _ => []
  | .error _, state => [state]

/-- The rules with the record of what exceptions left. -/
def Rules.recording (R : Rules S σ) : Rules S (σ × List σ) where
  allow state stmt := R.allow state.1 stmt
  after state stmt reply state' := R.after state.1 stmt reply state'.1 ∧
    state'.2 = state.2 ++ leftBy reply state'.1

namespace Program

/-- No handler, and no exception but those of its statements. -/
def Plain : Program S α → Prop
  | ret _ => True
  | raise _ => False
  | exec _ next => (∀ reason, next (.error reason) = raise reason) ∧ ∀ reply, Plain (next (.ok reply))

theorem plain_issue (stmt : S.Stmt) : Plain (issue stmt) :=
  ⟨fun _ => rfl, fun _ => trivial⟩

theorem plain_bind {p : Program S α} {f : α → Program S β} (first : p.Plain)
    (rest : ∀ value, (f value).Plain) : (p.bind f).Plain := by
  induction p with
  | ret value => exact rest value
  | raise reason => exact first.elim
  | exec stmt next ih =>
    obtain ⟨passed, answered⟩ := first
    refine ⟨fun reason => ?_, fun reply => ih (.ok reply) (answered reply)⟩
    dsimp only
    rw [passed reason]
    rfl

theorem plain_ite {cond : Prop} [Decidable cond] {p q : Program S α} (yes : p.Plain) (no : q.Plain) :
    (if cond then p else q).Plain := by
  split
  · exact yes
  · exact no

theorem plain_forEach {ι : Type} {body : ι → Program S Unit} (plain : ∀ item, (body item).Plain)
    (items : List ι) : (forEach body items).Plain := by
  induction items with
  | nil => exact trivial
  | cons item rest ih => exact plain_bind (plain item) fun _ => ih

theorem plain_collectEach {ι : Type} {body : ι → Program S (Option β)}
    (plain : ∀ item, (body item).Plain) (items : List ι) : (collectEach body items).Plain := by
  induction items with
  | nil => exact trivial
  | cons item rest ih => exact plain_bind (plain item) fun _ => plain_bind ih fun _ => trivial

variable {R : Rules S σ} {Q : α → σ → Prop} {E : S.Exn → σ → Prop}

/-- A program without handlers adds nothing to the record when it returns, and when it
raises, the state that its exception left. -/
theorem Ensures.recorded {p : Program S α} {Q' : α → σ × List σ → Prop} {E' : S.Exn → σ × List σ → Prop}
    (plain : p.Plain) {state : σ} {before : List σ} (ensures : p.Ensures R Q E state)
    (returns : ∀ value after, Q value after → Q' value (after, before))
    (raises : ∀ reason after, E reason after → E' reason (after, before ++ [after])) :
    p.Ensures R.recording Q' E' (state, before) := by
  induction p generalizing state with
  | ret value => exact returns value state ensures
  | raise reason => exact plain.elim
  | exec stmt next ih =>
    obtain ⟨passed, answered⟩ := plain
    obtain ⟨allowed, continues⟩ := ensures
    refine ⟨allowed, fun reply after moved => ?_⟩
    obtain ⟨state', record⟩ := after
    obtain ⟨stepped, recorded⟩ := moved
    dsimp only at stepped recorded
    subst recorded
    have rest := continues reply state' stepped
    cases reply with
    | ok reply =>
      rw [leftBy, List.append_nil]
      exact ih (.ok reply) (answered reply) rest
    | error reason =>
      rw [passed reason] at rest ⊢
      exact raises reason state' rest

/-- What holds with the record holds without it. -/
theorem Ensures.forget {p : Program S α} {Q' : α → σ × List σ → Prop} {E' : S.Exn → σ × List σ → Prop}
    {state : σ} {before : List σ} (ensures : p.Ensures R.recording Q' E' (state, before))
    (returns : ∀ value after record, Q' value (after, record) → Q value after)
    (raises : ∀ reason after record, E' reason (after, record) → E reason after) : p.Ensures R Q E state := by
  induction p generalizing state before with
  | ret value => exact returns value state before ensures
  | raise reason => exact raises reason state before ensures
  | exec stmt next ih =>
    obtain ⟨allowed, continues⟩ := ensures
    exact ⟨allowed, fun reply after moved =>
      ih reply (continues reply (after, before ++ leftBy reply after) ⟨moved, rfl⟩)⟩

end Program

namespace Machine

variable {M : Machine S}

/-- The stores that the exceptions of a program's statements leave, in order, when it runs alone. -/
def exceptions (M : Machine S) (me : SessionId) :
    Program S α → (Nat → M.Choice) → M.World → List M.World
  | .ret _, _, _ => []
  | .raise _, _, _ => []
  | .exec stmt next, choices, world =>
    match M.exec me stmt (choices 0) world with
    | some (reply, world') => 
      leftBy reply world' ++ M.exceptions me (next reply) (fun n => choices (n + 1)) world'
    | none => []

/-- A weakest precondition with the record is total, and the record is that of the run. -/
theorem eval_of_recorded {me : SessionId} {may : M.Choice → Prop} {Q : α → M.World × List M.World → Prop}
    {E : S.Exn → M.World × List M.World → Prop} {program : Program S α} {choices : Nat → M.Choice}
    {world : M.World} {before : List M.World}
    (ensures : program.Ensures (M.alone me may).recording Q E (world, before)) (allowed : ∀ n, may (choices n)) :
    ∃ out after, M.eval me program choices world = some (out, after) ∧
      match out with
      | .ok value => Q value (after, before ++ M.exceptions me program choices world)
      | .error reason => E reason (after, before ++ M.exceptions me program choices world) := by
  induction program generalizing choices world before with
  | ret value => exact ⟨.ok value, world, rfl, by simpa [exceptions] using ensures⟩
  | raise reason => exact ⟨.error reason, world, rfl, by simpa [exceptions] using ensures⟩
  | exec stmt next ih =>
    obtain ⟨progress, continues⟩ := ensures
    obtain ⟨⟨reply, world'⟩, done⟩ := Option.isSome_iff_exists.mp (progress _ (allowed 0))
    have rest := ih reply (continues reply (world', before ++ leftBy reply world') ⟨⟨_, allowed 0, done⟩, rfl⟩)
      fun n => allowed (n + 1)
    simpa only [eval, exceptions, done, List.append_assoc] using rest

end Machine

end SogeconApp.Library
