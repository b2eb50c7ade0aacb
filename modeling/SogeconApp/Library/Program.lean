import Mathlib.Logic.Function.Basic

/-!
# Programs of statements

A request handler is a finite tree: it issues a statement, and what it does next
depends on the reply. The tree leaves open what a statement means, so one
program can run alone against a store, or statement by statement among others.

`Ensures` is the weakest precondition of a program over any rules that say which
statements are allowed in a state and which states may follow each reply. The
same laws (sequencing, handlers, loops, consequence) serve the store semantics
and the per-session phases used for interleavings.
-/

namespace SogeconApp.Library

/-- The statements a component can issue, what each one answers, and what it can raise. -/
structure Signature where
  Stmt : Type
  Reply : Stmt → Type
  Exn : Type

inductive Program (S : Signature) (α : Type) : Type where
  | ret (value : α)
  | raise (reason : S.Exn)
  | exec (stmt : S.Stmt) (next : Except S.Exn (S.Reply stmt) → Program S α)

namespace Program

variable {S : Signature} {α β : Type}

def bind : Program S α → (α → Program S β) → Program S β
  | ret value, f => f value
  | raise reason, _ => raise reason
  | exec stmt next, f => exec stmt fun reply => (next reply).bind f

/-- `try ... except`: the handler sees what the body raised. -/
def catchWith : Program S α → (S.Exn → Program S α) → Program S α
  | ret value, _ => ret value
  | raise reason, handler => handler reason
  | exec stmt next, handler => exec stmt fun reply => (next reply).catchWith handler

instance : Monad (Program S) where
  pure := ret
  bind := bind

/-- One statement: its answer is returned, what it raises is raised. -/
def issue (stmt : S.Stmt) : Program S (S.Reply stmt) :=
  exec stmt fun
    | .ok answer => ret answer
    | .error reason => raise reason

/-- The program that has ended with an outcome. -/
def ended : Except S.Exn α → Program S α
  | .ok value => ret value
  | .error reason => raise reason

/-- Run the body for each element, in order. -/
def forEach {ι : Type} (body : ι → Program S Unit) : List ι → Program S Unit
  | [] => pure ()
  | item :: rest => do
      body item
      forEach body rest

/-- Run the body for each element, in order, and collect what it finds. -/
def collectEach {ι : Type} (body : ι → Program S (Option β)) : List ι → Program S (List β)
  | [] => pure []
  | item :: rest => do
      let found ← body item
      let others ← collectEach body rest
      pure (found.toList ++ others)

@[simp] theorem pure_eq (value : α) : (pure value : Program S α) = ret value := rfl

@[simp] theorem bind_eq (p : Program S α) (f : α → Program S β) : p >>= f = p.bind f := rfl

end Program

/-- What each statement may do to a state: where it is allowed, and the states
each reply may leave. -/
structure Rules (S : Signature) (σ : Type) where
  allow : σ → S.Stmt → Prop
  after : σ → (stmt : S.Stmt) → Except S.Exn (S.Reply stmt) → σ → Prop

namespace Program

variable {S : Signature} {α β σ : Type} {R : Rules S σ}

/-- From the state, every statement of the program is allowed whatever was answered
before it, it returns only with `Q` and raises only with `E`. -/
def Ensures (R : Rules S σ) (Q : α → σ → Prop) (E : S.Exn → σ → Prop) : Program S α → σ → Prop
  | ret value, state => Q value state
  | raise reason, state => E reason state
  | exec stmt next, state =>
      R.allow state stmt ∧
        ∀ reply state', R.after state stmt reply state' → Ensures R Q E (next reply) state'

@[simp] theorem ensures_ret {Q : α → σ → Prop} {E : S.Exn → σ → Prop} (value : α) :
    Ensures R Q E (ret value) = Q value := rfl

@[simp] theorem ensures_raise {Q : α → σ → Prop} {E : S.Exn → σ → Prop} (reason : S.Exn) :
    Ensures R Q E (raise reason : Program S α) = E reason := rfl

/-- A single statement, its answer and its exception read apart. -/
@[simp] theorem ensures_issue {stmt : S.Stmt} {Q : S.Reply stmt → σ → Prop}
    {E : S.Exn → σ → Prop} (state : σ) :
    Ensures R Q E (issue stmt) state ↔
      R.allow state stmt ∧
        (∀ answer state', R.after state stmt (.ok answer) state' → Q answer state') ∧
        ∀ reason state', R.after state stmt (.error reason) state' → E reason state' := by
  constructor
  · rintro ⟨allowed, next⟩
    exact ⟨allowed, fun answer => next (.ok answer), fun reason => next (.error reason)⟩
  · rintro ⟨allowed, answered, raised⟩
    refine ⟨allowed, fun reply => ?_⟩
    cases reply with
    | ok answer => exact answered answer
    | error reason => exact raised reason

/-- Sequencing: the second program starts where the first returned. -/
@[simp] theorem ensures_bind {Q : β → σ → Prop} {E : S.Exn → σ → Prop} (p : Program S α)
    (f : α → Program S β) :
    Ensures R Q E (p.bind f) = Ensures R (fun value => Ensures R Q E (f value)) E p := by
  funext state
  induction p generalizing state with
  | ret value => rfl
  | raise reason => rfl
  | exec stmt next ih => simp only [bind, Ensures, ih]

/-- A handler starts where the body raised. -/
@[simp] theorem ensures_catchWith {Q : α → σ → Prop} {E : S.Exn → σ → Prop} (p : Program S α)
    (handler : S.Exn → Program S α) :
    Ensures R Q E (p.catchWith handler) =
      Ensures R Q (fun reason => Ensures R Q E (handler reason)) p := by
  funext state
  induction p generalizing state with
  | ret value => rfl
  | raise reason => rfl
  | exec stmt next ih => simp only [catchWith, Ensures, ih]

/-- Consequence. -/
theorem Ensures.weaken {Q Q' : α → σ → Prop} {E E' : S.Exn → σ → Prop} {p : Program S α}
    {state : σ} (h : Ensures R Q E p state) (returns : ∀ value state, Q value state → Q' value state)
    (raises : ∀ reason state, E reason state → E' reason state) : Ensures R Q' E' p state := by
  induction p generalizing state with
  | ret value => exact returns value state h
  | raise reason => exact raises reason state h
  | exec stmt next ih => exact ⟨h.1, fun reply state' moved => ih reply (h.2 reply state' moved)⟩

/-- Loop rule: `I done` holds before the loop for `done = []` and each round
moves one element over. -/
theorem ensures_forEach {ι : Type} {E : S.Exn → σ → Prop} (I : List ι → σ → Prop)
    {body : ι → Program S Unit} (items done : List ι) {state : σ} (start : I done state)
    (round : ∀ item ∈ items, ∀ done state, I done state →
      Ensures R (fun _ => I (done ++ [item])) E (body item) state) :
    Ensures R (fun _ => I (done ++ items)) E (forEach body items) state := by
  induction items generalizing done state with
  | nil => simpa [forEach] using start
  | cons item rest ih =>
    simp only [forEach, bind_eq, ensures_bind]
    refine (round item (by simp) done state start).weaken ?_ (fun _ _ h => h)
    intro _ state' progressed
    have remaining := ih (done ++ [item]) progressed (fun next member => round next (by simp [member]))
    simpa [List.append_assoc] using remaining

/-- Loop rule for an invariant that does not look at the elements done. -/
theorem ensures_forEach_same {ι : Type} {E : S.Exn → σ → Prop} (I : σ → Prop)
    {body : ι → Program S Unit} (items : List ι) {state : σ} (start : I state)
    (round : ∀ item ∈ items, ∀ state, I state → Ensures R (fun _ => I) E (body item) state) :
    Ensures R (fun _ => I) E (forEach body items) state :=
  ensures_forEach (fun _ => I) items [] start fun item member _ => round item member

end Program

/-- `Ensures` for a program whose exceptions may leave any state. -/
def Rules.Through {S : Signature} {α σ : Type} (R : Rules S σ) (state : σ) (program : Program S α)
    (Q : α → σ → Prop) : Prop :=
  program.Ensures R Q (fun _ _ => True) state

namespace Rules.Through

variable {S : Signature} {α β σ : Type} {R : Rules S σ} {state : σ} {Q Q' : α → σ → Prop}

theorem ret {value : α} (returned : Q value state) : R.Through state (pure value) Q := returned

theorem raise {reason : S.Exn} : R.Through state (Program.raise reason : Program S α) Q := trivial

theorem ask {stmt : S.Stmt} {Q : S.Reply stmt → σ → Prop} (allowed : R.allow state stmt)
    (answered : ∀ answer state', R.after state stmt (.ok answer) state' → Q answer state') :
    R.Through state (Program.issue stmt) Q :=
  (Program.ensures_issue state).mpr ⟨allowed, answered, fun _ _ _ => trivial⟩

/-- What a program ensures at its end may be replaced by anything that follows from it. -/
theorem weaken {program : Program S α} (through : R.Through state program Q)
    (returns : ∀ value state, Q value state → Q' value state) : R.Through state program Q' :=
  Program.Ensures.weaken through returns fun _ _ _ => trivial

/-- Two programs one after the other: the second starts where the first one returns, with what it has
returned. -/
theorem bind {program : Program S β} {next : β → Program S α} {middle : β → σ → Prop}
    (first : R.Through state program middle)
    (then_ : ∀ value state, middle value state → R.Through state (next value) Q) :
    R.Through state (program >>= next) Q := by
  unfold Through
  rw [Program.bind_eq, Program.ensures_bind]
  exact Program.Ensures.weaken first then_ fun _ _ _ => trivial

/-- One statement, and then the rest. -/
theorem step {stmt : S.Stmt} {next : S.Reply stmt → Program S α} (allowed : R.allow state stmt)
    (then_ : ∀ answer state', R.after state stmt (.ok answer) state' → R.Through state' (next answer) Q) :
    R.Through state (Program.issue stmt >>= next) Q :=
  have first : R.Through state (Program.issue stmt) fun answer state' =>
      R.Through state' (next answer) Q := ask allowed then_
  first.bind fun _ _ rest => rest

/-- A handler runs in whatever state the body raised. -/
theorem «catch» {program : Program S α} {handler : S.Exn → Program S α} (body : R.Through state program Q)
    (raised : ∀ reason state, R.Through state (handler reason) Q) :
    R.Through state (program.catchWith handler) Q := by
  unfold Through
  rw [Program.ensures_catchWith]
  exact Program.Ensures.weaken body (fun _ _ returned => returned) fun reason state _ => raised reason state

end Rules.Through

end SogeconApp.Library
