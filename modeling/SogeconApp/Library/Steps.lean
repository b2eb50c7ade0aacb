import Mathlib.Data.List.Basic

/-!
# Steps that may be refused

A state machine whose steps are functions of the state and of an event, and which has no step for an
event that cannot happen where it stands. What is required of a run is often required only of the
places where its events happen: no such event while something is under way.
-/

namespace SogeconApp.Library

variable {σ ε α : Type}

/-- One event after the other; `none` if one of them cannot happen where its turn comes. -/
def runSteps (step : σ → ε → Option σ) (state : σ) : List ε → Option σ
  | [] => some state
  | event :: rest => (step state event).bind fun next => runSteps step next rest

section Runs

variable {step : σ → ε → Option σ} {state after : σ}

@[simp] theorem runSteps_nil : runSteps step state [] = some state := rfl

theorem runSteps_cons {event : ε} {rest : List ε} :
    runSteps step state (event :: rest) = some after ↔
      ∃ next, step state event = some next ∧ runSteps step next rest = some after :=
  Option.bind_eq_some_iff

/-- A run over two lists of events is one over the first and then, from where that ends, over the
second. -/
theorem runSteps_append (first rest : List ε) :
    runSteps step state (first ++ rest) =
      (runSteps step state first).bind fun middle => runSteps step middle rest := by
  induction first generalizing state with
  | nil => rfl
  | cons event first ih =>
    cases taken : step state event with
    | none => simp [runSteps, taken]
    | some next => simp [runSteps, taken, ih]

/-- Every event happens in a state in which it is allowed. -/
def Throughout (step : σ → ε → Option σ) (allowed : σ → ε → Prop) (state : σ) (events : List ε) : Prop :=
  ∀ first event rest reached, events = first ++ event :: rest →
    runSteps step state first = some reached → allowed reached event

namespace Throughout

variable {allowed : σ → ε → Prop} {events : List ε}

theorem nil : Throughout step allowed state [] := by
  intro first event rest reached split
  simp at split

theorem cons_iff {event : ε} {rest : List ε} :
    Throughout step allowed state (event :: rest) ↔
      allowed state event ∧ ∀ next, step state event = some next → Throughout step allowed next rest := by
  constructor
  · intro all
    refine ⟨all [] event rest state rfl rfl, fun next taken first later end_ reached split runs => ?_⟩
    refine all (event :: first) later end_ reached (by rw [split]; rfl) ?_
    exact runSteps_cons.mpr ⟨next, taken, runs⟩
  · rintro ⟨here, later⟩ first other end_ reached split runs
    cases first with
    | nil =>
      cases split
      cases runs
      exact here
    | cons head first =>
      obtain ⟨rfl, rest_⟩ := List.cons.inj split
      obtain ⟨next, taken, runs⟩ := runSteps_cons.mp runs
      exact later next taken first other end_ reached rest_ runs

instance decidable [∀ state event, Decidable (allowed state event)] :
    ∀ state events, Decidable (Throughout step allowed state events)
  | _, [] => isTrue nil
  | state, event :: rest =>
    match taken : step state event with
    | none => decidable_of_iff (allowed state event) (by simp [cons_iff, taken])
    | some next =>
      have := decidable next rest
      decidable_of_iff (allowed state event ∧ Throughout step allowed next rest) (by simp [cons_iff, taken])

theorem of_forall (all : ∀ state, ∀ event ∈ events, allowed state event) :
    Throughout step allowed state events := by
  intro first event rest reached split _
  exact all reached event (by rw [split]; simp)

/-- A run that keeps beside it what each event does to an abstract value. -/
theorem simulates {spec : α → ε → α} {R : σ → α → Prop} {value : α}
    (kept : ∀ {state value event next}, R state value → allowed state event →
      step state event = some next → R next (spec value event))
    (all : Throughout step allowed state events) (start : R state value)
    (runs : runSteps step state events = some after) : R after (events.foldl spec value) := by
  induction events generalizing state value with
  | nil =>
    cases runs
    exact start
  | cons event rest ih =>
    obtain ⟨here, later⟩ := cons_iff.mp all
    obtain ⟨next, taken, runs⟩ := runSteps_cons.mp runs
    exact ih (later next taken) (kept start here taken) runs

/-- What every allowed step keeps holds at the end of a run whose steps were all allowed where they were
taken. -/
theorem keeps {I : σ → Prop}
    (kept : ∀ {state event next}, I state → allowed state event → step state event = some next → I next)
    (all : Throughout step allowed state events) (start : I state)
    (runs : runSteps step state events = some after) : I after :=
  @simulates _ _ Unit step state after allowed events (fun value _ => value) (fun reached _ => I reached) ()
    (fun held here taken => kept held here taken) all start runs

end Throughout

end Runs

end SogeconApp.Library
