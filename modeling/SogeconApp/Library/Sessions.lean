import SogeconApp.Library.Lists
import SogeconApp.Library.Program
import SogeconApp.Library.Table

/-!
# Sessions over a shared store

A machine gives statements their meaning. A configuration runs one program in each
session: a step executes the next statement of some session, closes a finished
session, crashes one at any point, or lets something outside the component change
the store. A session with an open transaction loses it when it closes or crashes.

For every interleaving, a protocol follows each program through phases; an
invariant over the store and the phases that each statement keeps holds in every
run. For a session alone, the weakest precondition of its program is total: the
program ends, whatever the environment chooses.
-/

namespace SogeconApp.Library

structure Machine (S : Signature) where
  World : Type
  /-- What the environment decides at a statement: a service's answer, a failure. -/
  Choice : Type
  /-- A change of the store from outside the component. -/
  Outside : Type
  /-- `none`: the session waits for a lock. -/
  exec : SessionId → (stmt : S.Stmt) → Choice → World → Option (Except S.Exn (S.Reply stmt) × World)
  close : SessionId → World → World
  crash : SessionId → World → World
  outside : Outside → World → World

variable {S : Signature} {M : Machine S} {α : Type}

inductive Action (M : Machine S) where
  | exec (me : SessionId) (choice : M.Choice)
  | close (me : SessionId)
  | crash (me : SessionId)
  | outside (change : M.Outside)

/-- The session that an action is a step of. -/
def Action.session : Action M → Option SessionId
  | .exec me _ | .close me | .crash me => some me
  | .outside _ => none

/-- The store, and what each open session still has to do. -/
structure Config (M : Machine S) (α : Type) where
  world : M.World
  pool : SessionId → Option (Program S α)

namespace Config

def step (config : Config M α) : Action M → Option (Config M α)
  | .exec me choice =>
    match config.pool me with
    | some (.exec stmt next) =>
      (M.exec me stmt choice config.world).map fun (reply, world) =>
        { world, pool := Function.update config.pool me (some (next reply)) }
    | _ => none
  | .close me =>
    match config.pool me with
    | some (.ret _) | some (.raise _) =>
      some { world := M.close me config.world, pool := Function.update config.pool me none }
    | _ => none
  | .crash me =>
    match config.pool me with
    | some _ => some { world := M.crash me config.world, pool := Function.update config.pool me none }
    | none => none
  | .outside change => some { config with world := M.outside change config.world }

/-- A schedule; `none` when one of its actions is not enabled. -/
def run (config : Config M α) : List (Action M) → Option (Config M α)
  | [] => some config
  | action :: rest => (config.step action).bind fun after => after.run rest

/-- Every statement of the schedule meets a condition on the store it is issued in and on
what the environment decides. -/
def Meets (cond : M.World → SessionId → S.Stmt → M.Choice → Prop) (config : Config M α) :
    List (Action M) → Prop
  | [] => True
  | action :: rest =>
    (∀ me choice stmt next, action = .exec me choice → config.pool me = some (.exec stmt next) →
      cond config.world me stmt choice) ∧
    ∀ after, config.step action = some after → after.Meets cond rest

/-- What a step of each kind finds and leaves. -/
inductive Stepped (config : Config M α) : Action M → Config M α → Prop
  | exec {me : SessionId} {choice : M.Choice} {stmt : S.Stmt}
      {next : Except S.Exn (S.Reply stmt) → Program S α} {reply : Except S.Exn (S.Reply stmt)}
      {world : M.World} (running : config.pool me = some (.exec stmt next))
      (done : M.exec me stmt choice config.world = some (reply, world)) :
      Stepped config (.exec me choice)
        { world, pool := Function.update config.pool me (some (next reply)) }
  | close {me : SessionId} {out : Except S.Exn α} (ended : config.pool me = some (.ended out)) :
      Stepped config (.close me)
        { world := M.close me config.world, pool := Function.update config.pool me none }
  | crash {me : SessionId} {program : Program S α} (running : config.pool me = some program) :
      Stepped config (.crash me)
        { world := M.crash me config.world, pool := Function.update config.pool me none }
  | outside (change : M.Outside) :
      Stepped config (.outside change) { config with world := M.outside change config.world }

/-- A step is the next statement of an open session, the end of one, a crash, or a change from outside.
-/
theorem step_cases {config after : Config M α} {action : Action M}
    (stepped : config.step action = some after) : config.Stepped action after := by
  cases action with
  | exec me choice =>
    simp only [step] at stepped
    split at stepped
    · next stmt next running =>
      obtain ⟨⟨reply, world⟩, done, rfl⟩ := Option.map_eq_some_iff.mp stepped
      exact .exec running done
    · cases stepped
  | close me =>
    simp only [step] at stepped
    split at stepped
    · next value ended =>
      cases stepped
      exact @Stepped.close _ _ _ config me (.ok value) ended
    · next reason ended =>
      cases stepped
      exact @Stepped.close _ _ _ config me (.error reason) ended
    · cases stepped
  | crash me =>
    simp only [step] at stepped
    split at stepped
    · next program running =>
      cases stepped
      exact .crash running
    · cases stepped
  | outside change =>
    cases stepped
    exact .outside change

/-- A session that is closed stays closed. -/
theorem step_closed {config after : Config M α} {action : Action M} (stepped : config.step action = some after)
    {me : SessionId} (closed : config.pool me = none) : after.pool me = none := by
  have shut : ∀ other, Function.update config.pool other none me = none := by
    intro other
    by_cases same : me = other
    · rw [same, Function.update_self]
    · rw [Function.update_of_ne same, closed]
  cases step_cases stepped with
  | @exec other choice stmt next reply world running done =>
    have different : me ≠ other := by
      rintro rfl
      rw [closed] at running
      cases running
    exact (Function.update_of_ne different ..).trans closed
  | close ended => exact shut _
  | crash running => exact shut _
  | outside change => exact closed

theorem run_closed {config after : Config M α} {actions : List (Action M)}
    (reached : config.run actions = some after) {me : SessionId} (closed : config.pool me = none) :
    after.pool me = none := by
  induction actions generalizing config with
  | nil =>
    cases reached
    exact closed
  | cons action rest ih =>
    obtain ⟨middle, stepped, onward⟩ := Option.bind_eq_some_iff.mp reached
    exact ih onward (step_closed stepped closed)

theorem Meets.append {cond : M.World → SessionId → S.Stmt → M.Choice → Prop} {config middle : Config M α}
    {first second : List (Action M)} (meets : config.Meets cond (first ++ second))
    (reached : config.run first = some middle) :
    config.Meets cond first ∧ middle.Meets cond second := by
  induction first generalizing config with
  | nil =>
    obtain rfl : config = middle := by simpa [run] using reached
    exact ⟨trivial, meets⟩
  | cons action rest ih =>
    simp only [run] at reached
    cases stepped : config.step action with
    | none => simp [stepped] at reached
    | some after =>
      simp only [stepped, Option.bind_some] at reached
      obtain ⟨now, later⟩ := meets
      refine ⟨⟨now, fun other moved => ?_⟩, (ih (later after stepped) reached).2⟩
      obtain rfl : after = other := by simpa [stepped] using moved
      exact (ih (later after stepped) reached).1

/-- A schedule always meets the condition that asks for nothing. -/
theorem meets_true (config : Config M α) (actions : List (Action M)) :
    config.Meets (fun _ _ _ _ => True) actions := by
  induction actions generalizing config with
  | nil => trivial
  | cons action rest ih => exact ⟨fun _ _ _ _ _ _ => trivial, fun after _ => ih after⟩

/-- Evaluates `Meets` along a schedule. -/
def checks (cond : M.World → SessionId → S.Stmt → M.Choice → Bool) (config : Config M α) : List (Action M) → Bool
  | [] => true
  | action :: rest =>
    (match action with
      | .exec me choice =>
        match config.pool me with
        | some (.exec stmt _) => cond config.world me stmt choice
        | _ => true
      | _ => true) &&
    match config.step action with
    | some after => after.checks cond rest
    | none => true

/-- A condition that can be decided is checked along a schedule by evaluation. -/
theorem meets_of_checks {cond : M.World → SessionId → S.Stmt → M.Choice → Prop}
    [∀ world me stmt choice, Decidable (cond world me stmt choice)] {config : Config M α}
    {actions : List (Action M)}
    (checked : config.checks (fun world me stmt choice => decide (cond world me stmt choice)) actions = true) :
    config.Meets cond actions := by
  induction actions generalizing config with
  | nil => trivial
  | cons action rest ih =>
    simp only [checks, Bool.and_eq_true] at checked
    obtain ⟨now, later⟩ := checked
    constructor
    · rintro me choice stmt next rfl open_
      simpa [open_] using now
    · intro after stepped
      rw [stepped] at later
      exact ih later

end Config

/-! ## Statements that fail -/

/-- The environment decides whether a statement fails, and one that fails leaves the store. -/
structure Answering (M : Machine S) where
  fails : M.Choice → Option S.Exn
  answer : SessionId → (stmt : S.Stmt) → M.Choice → M.World →
    Option (Except S.Exn (S.Reply stmt) × M.World)
  exec_eq : ∀ me stmt choice world, M.exec me stmt choice world =
    match fails choice with
    | some reason => some (.error reason, world)
    | none => answer me stmt choice world

/-- A statement fails and leaves the store, or is answered by it. -/
theorem Answering.exec_cases (answering : Answering M) {me : SessionId} {stmt : S.Stmt}
    {choice : M.Choice} {world world' : M.World} {reply : Except S.Exn (S.Reply stmt)}
    (done : M.exec me stmt choice world = some (reply, world')) :
    (∃ reason, answering.fails choice = some reason ∧ reply = .error reason ∧ world' = world) ∨
      answering.fails choice = none ∧
        answering.answer me stmt choice world = some (reply, world') := by
  rw [answering.exec_eq] at done
  split at done
  · next reason fails =>
    cases done
    exact .inl ⟨reason, fails, rfl, rfl⟩
  · next succeeds => exact .inr ⟨succeeds, done⟩

/-! ## Protocols -/

/-- The phases a session moves through as its statements are answered. -/
structure Protocol (S : Signature) where
  Phase : Type
  /-- The phase of a session that is closed or crashed. -/
  gone : Phase
  allow : Phase → S.Stmt → Prop
  next : Phase → (stmt : S.Stmt) → Except S.Exn (S.Reply stmt) → Phase
  /-- What is known of an answer, whatever the store. -/
  answers : (stmt : S.Stmt) → S.Reply stmt → Prop

namespace Protocol

variable {P : Protocol S}

def rules (P : Protocol S) : Rules S P.Phase where
  allow := P.allow
  after phase stmt reply phase' :=
    phase' = P.next phase stmt reply ∧ ∀ answer, reply = .ok answer → P.answers stmt answer

/-- From the phase on, the program issues only statements its phases allow. -/
def Follows (P : Protocol S) (phase : P.Phase) (program : Program S α) : Prop :=
  program.Ensures P.rules (fun _ _ => True) (fun _ _ => True) phase

theorem Follows.allowed {phase : P.Phase} {stmt : S.Stmt}
    {next : Except S.Exn (S.Reply stmt) → Program S α} (follows : P.Follows phase (.exec stmt next)) :
    P.allow phase stmt := follows.1

theorem Follows.continue {phase : P.Phase} {stmt : S.Stmt}
    {next : Except S.Exn (S.Reply stmt) → Program S α} (follows : P.Follows phase (.exec stmt next))
    (reply : Except S.Exn (S.Reply stmt)) (known : ∀ answer, reply = .ok answer → P.answers stmt answer) :
    P.Follows (P.next phase stmt reply) (next reply) :=
  follows.2 reply _ ⟨rfl, known⟩

/-- One statement under a protocol: its phases, with what is known of the answer. -/
@[simp] theorem ensures_issue {stmt : S.Stmt} {Q : S.Reply stmt → P.Phase → Prop}
    {E : S.Exn → P.Phase → Prop} (phase : P.Phase) :
    (Program.issue stmt).Ensures P.rules Q E phase ↔
      P.allow phase stmt ∧
        (∀ answer, P.answers stmt answer → Q answer (P.next phase stmt (.ok answer))) ∧
        ∀ reason, E reason (P.next phase stmt (.error reason)) := by
  simp only [Program.ensures_issue, rules]
  refine and_congr_right fun _ => and_congr ⟨fun h answer known => ?_, ?_⟩ ⟨fun h reason => ?_, ?_⟩
  · exact h answer _ ⟨rfl, fun other same => by cases same; exact known⟩
  · rintro h answer phase' ⟨rfl, known⟩
    exact h answer (known answer rfl)
  · exact h reason _ ⟨rfl, fun other same => by cases same⟩
  · rintro h reason phase' ⟨rfl, _⟩
    exact h reason

/-- From the phase on, the program issues allowed statements only, and what it returns
comes in a phase that `Q` describes. -/
abbrev Through (P : Protocol S) (phase : P.Phase) (program : Program S α) (Q : α → P.Phase → Prop) : Prop :=
  P.rules.Through phase program Q

section Through

variable {phase : P.Phase} {Q : α → P.Phase → Prop}

theorem Through.follows {program : Program S α} (through : P.Through phase program Q) :
    P.Follows phase program :=
  Program.Ensures.weaken through (fun _ _ _ => trivial) fun _ _ _ => trivial

theorem Through.bind {β : Type} {program : Program S β} {next : β → Program S α} {middle : β → P.Phase → Prop}
    (first : P.Through phase program middle)
    (then_ : ∀ value phase, middle value phase → P.Through phase (next value) Q) :
    P.Through phase (program >>= next) Q :=
  Rules.Through.bind first then_

/-- Whatever the body raises, in whatever phase, its handler has to come to the same end. -/
theorem Through.catch {program : Program S α} {handler : S.Exn → Program S α}
    (body : P.Through phase program Q) (raised : ∀ reason phase, P.Through phase (handler reason) Q) :
    P.Through phase (program.catchWith handler) Q :=
  Rules.Through.catch body raised

theorem Through.ask {stmt : S.Stmt} {Q : S.Reply stmt → P.Phase → Prop} (allowed : P.allow phase stmt)
    (answered : ∀ answer, P.answers stmt answer → Q answer (P.next phase stmt (.ok answer))) :
    P.Through phase (Program.issue stmt) Q :=
  (ensures_issue phase).mpr ⟨allowed, answered, fun _ => trivial⟩

/-- One statement, and then the rest. -/
theorem Through.step {stmt : S.Stmt} {next : S.Reply stmt → Program S α} (allowed : P.allow phase stmt)
    (then_ : ∀ answer, P.answers stmt answer →
      P.Through (P.next phase stmt (.ok answer)) (next answer) Q) :
    P.Through phase (Program.issue stmt >>= next) Q :=
  have first : P.Through phase (Program.issue stmt) fun answer reached =>
      P.Through reached (next answer) Q := .ask allowed then_
  first.bind fun _ _ rest => rest

end Through

/-- An invariant over the store and the phases of all sessions, kept by every
statement that the phase allows and the condition admits. -/
structure Keeps (P : Protocol S) (M : Machine S) (cond : M.World → SessionId → S.Stmt → M.Choice → Prop)
    (J : M.World → (SessionId → P.Phase) → Prop) : Prop where
  exec : ∀ world phase me stmt choice reply world', J world phase → cond world me stmt choice →
    P.allow (phase me) stmt → M.exec me stmt choice world = some (reply, world') →
    J world' (Function.update phase me (P.next (phase me) stmt reply))
  known : ∀ world phase me stmt choice answer world', J world phase →
    M.exec me stmt choice world = some (.ok answer, world') → P.answers stmt answer
  close : ∀ world phase me, J world phase → J (M.close me world) (Function.update phase me P.gone)
  crash : ∀ world phase me, J world phase → J (M.crash me world) (Function.update phase me P.gone)
  outside : ∀ world phase change, J world phase → J (M.outside change world) phase

/-- Where a statement that fails leaves the phase, an invariant is kept that every answer keeps. -/
theorem Keeps.exec_of_answer {cond : M.World → SessionId → S.Stmt → M.Choice → Prop}
    {J : M.World → (SessionId → P.Phase) → Prop} (answering : Answering M)
    (steady : ∀ phase stmt reason, P.next phase stmt (.error reason) = phase)
    (answered : ∀ world phase me stmt choice reply world', J world phase →
      cond world me stmt choice → P.allow (phase me) stmt → answering.fails choice = none →
      answering.answer me stmt choice world = some (reply, world') →
        J world' (Function.update phase me (P.next (phase me) stmt reply))) :
    ∀ world phase me stmt choice reply world', J world phase → cond world me stmt choice →
      P.allow (phase me) stmt → M.exec me stmt choice world = some (reply, world') →
        J world' (Function.update phase me (P.next (phase me) stmt reply)) := by
  intro world phase me stmt choice reply world' inv meets allowed done
  rcases answering.exec_cases done with ⟨reason, -, rfl, rfl⟩ | ⟨succeeds, answers⟩
  · rw [steady, Function.update_eq_self]
    exact inv
  · exact answered world phase me stmt choice reply world' inv meets allowed succeeds answers

/-- The invariant holds of a configuration for some phases its programs follow. -/
def Holds (P : Protocol S) (J : M.World → (SessionId → P.Phase) → Prop) (config : Config M α) : Prop :=
  ∃ phase, J config.world phase ∧
    (∀ me program, config.pool me = some program → P.Follows (phase me) program) ∧
    ∀ me, config.pool me = none → phase me = P.gone

variable {cond : M.World → SessionId → S.Stmt → M.Choice → Prop} {J : M.World → (SessionId → P.Phase) → Prop}

/-- One session moves on or is gone, and the others are where they were. -/
theorem Holds.update {config : Config M α} {phase : SessionId → P.Phase} {world : M.World}
    {me : SessionId} {now : P.Phase} {running : Option (Program S α)}
    (kept : J world (Function.update phase me now))
    (follows : ∀ other program, config.pool other = some program → P.Follows (phase other) program)
    (closed : ∀ other, config.pool other = none → phase other = P.gone)
    (onward : ∀ program, running = some program → P.Follows now program)
    (left : running = none → now = P.gone) :
    P.Holds J { world, pool := Function.update config.pool me running } := by
  refine ⟨_, kept, fun other program opened => ?_, fun other shut => ?_⟩
  · by_cases same : other = me
    · subst same
      simp only [Function.update_self] at opened ⊢
      exact onward program opened
    · simp only [Function.update_of_ne same] at opened ⊢
      exact follows other program opened
  · by_cases same : other = me
    · subst same
      simp only [Function.update_self] at shut ⊢
      exact left shut
    · simp only [Function.update_of_ne same] at shut ⊢
      exact closed other shut

/-- A step of any session keeps the invariant, if the statement meets the condition where it is issued.
-/
theorem Keeps.step (keeps : P.Keeps M cond J) {config after : Config M α} {action : Action M}
    (holds : P.Holds J config)
    (meets : ∀ me choice stmt next, action = .exec me choice →
      config.pool me = some (.exec stmt next) → cond config.world me stmt choice)
    (stepped : config.step action = some after) : P.Holds J after := by
  obtain ⟨phase, invariant, follows, closed⟩ := holds
  cases Config.step_cases stepped with
  | @exec me choice stmt next reply world' opened done =>
    have mine := follows me _ opened
    have kept := keeps.exec _ phase me stmt choice reply world' invariant
      (meets me choice stmt next rfl opened) mine.allowed done
    refine .update kept follows closed (fun program running => ?_) nofun
    cases running
    refine mine.continue reply fun answer answered => ?_
    subst answered
    exact keeps.known _ phase me stmt choice answer world' invariant done
  | close ended =>
    exact .update (keeps.close _ phase _ invariant) follows closed nofun fun _ => rfl
  | crash running =>
    exact .update (keeps.crash _ phase _ invariant) follows closed nofun fun _ => rfl
  | outside change => exact ⟨phase, keeps.outside _ phase change invariant, follows, closed⟩

/-- The invariant holds along every schedule whose statements meet the condition. -/
theorem Keeps.run (keeps : P.Keeps M cond J) {config after : Config M α} {actions : List (Action M)}
    (holds : P.Holds J config) (meets : config.Meets cond actions)
    (reached : config.run actions = some after) : P.Holds J after := by
  induction actions generalizing config with
  | nil =>
    obtain rfl : config = after := by simpa [Config.run] using reached
    exact holds
  | cons action rest ih =>
    simp only [Config.run] at reached
    cases stepped : config.step action with
    | none => simp [stepped] at reached
    | some middle =>
      simp only [stepped, Option.bind_some] at reached
      exact ih (keeps.step holds meets.1 stepped) (meets.2 middle stepped) reached

end Protocol

/-! ## One session alone -/

namespace Machine

/-- Run a program in one session while nothing else happens; `none` if it waits. -/
def eval (M : Machine S) (me : SessionId) :
    Program S α → (Nat → M.Choice) → M.World → Option (Except S.Exn α × M.World)
  | .ret value, _, world => some (.ok value, world)
  | .raise reason, _, world => some (.error reason, world)
  | .exec stmt next, choices, world =>
    match M.exec me stmt (choices 0) world with
    | some (reply, world') => M.eval me (next reply) (fun n => choices (n + 1)) world'
    | none => none

/-- What a statement does for a session alone, for the choices the environment may make. -/
def alone (M : Machine S) (me : SessionId) (may : M.Choice → Prop) : Rules S M.World where
  allow world stmt := ∀ choice, may choice → (M.exec me stmt choice world).isSome
  after world stmt reply world' := ∃ choice, may choice ∧ M.exec me stmt choice world = some (reply, world')

/-- A weakest precondition over a session alone is total: the program ends. -/
theorem eval_of_ensures {me : SessionId} {may : M.Choice → Prop} {Q : α → M.World → Prop}
    {E : S.Exn → M.World → Prop} {program : Program S α} {choices : Nat → M.Choice} {world : M.World}
    (ensures : program.Ensures (M.alone me may) Q E world) (allowed : ∀ n, may (choices n)) :
    ∃ out after, M.eval me program choices world = some (out, after) ∧
      match out with
      | .ok value => Q value after
      | .error reason => E reason after := by
  induction program generalizing choices world with
  | ret value => exact ⟨.ok value, world, rfl, ensures⟩
  | raise reason => exact ⟨.error reason, world, rfl, ensures⟩
  | exec stmt next ih =>
    obtain ⟨progress, continues⟩ := ensures
    obtain ⟨⟨reply, world'⟩, done⟩ := Option.isSome_iff_exists.mp (progress _ (allowed 0))
    have rest := ih reply (continues reply world' ⟨_, allowed 0, done⟩) fun n => allowed (n + 1)
    simpa only [eval, done] using rest

/-- What the statements of a session answer, for the choices the environment may make. -/
def replies (M : Machine S) (me : SessionId) (may : M.Choice → Prop) : Rules S M.World where
  allow _ _ := True
  after world stmt reply world' := ∃ choice, may choice ∧ M.exec me stmt choice world = some (reply, world')

/-- What is known of a program that ends. -/
theorem eval_ensured {me : SessionId} {may : M.Choice → Prop} {Q : α → M.World → Prop}
    {E : S.Exn → M.World → Prop} {program : Program S α} {choices : Nat → M.Choice}
    {world after : M.World} {out : Except S.Exn α}
    (ensures : program.Ensures (M.replies me may) Q E world) (allowed : ∀ n, may (choices n))
    (done : M.eval me program choices world = some (out, after)) :
    (∀ value, out = .ok value → Q value after) ∧ ∀ reason, out = .error reason → E reason after := by
  induction program generalizing choices world with
  | ret value =>
    cases done
    exact ⟨fun _ same => by cases same; exact ensures, nofun⟩
  | raise reason =>
    cases done
    exact ⟨nofun, fun _ same => by cases same; exact ensures⟩
  | exec stmt next ih =>
    simp only [eval] at done
    split at done
    · next reply middle answered =>
      exact ih reply (ensures.2 reply middle ⟨_, allowed 0, answered⟩) (fun n => allowed (n + 1)) done
    · cases done

/-- What every statement of a session keeps is there at the end of its program. -/
theorem eval_keeps {me : SessionId} {I : M.World → Prop}
    (exec : ∀ stmt choice world reply world', I world →
      M.exec me stmt choice world = some (reply, world') → I world')
    {program : Program S α} {choices : Nat → M.Choice} {world after : M.World} {out : Except S.Exn α}
    (start : I world) (done : M.eval me program choices world = some (out, after)) : I after := by
  induction program generalizing choices world with
  | ret value =>
    cases done
    exact start
  | raise reason =>
    cases done
    exact start
  | exec stmt next ih =>
    simp only [eval] at done
    split at done
    · next reply middle answered => exact ih reply (exec stmt _ world reply middle start answered) done
    · cases done

/-- Running alone is one of the schedules: the session executes its statements one
after the other and is left with its result. -/
theorem eval_is_run {me : SessionId} {program : Program S α} {choices : Nat → M.Choice}
    {config : Config M α} {out : Except S.Exn α} {world' : M.World}
    (started : config.pool me = some program)
    (done : M.eval me program choices config.world = some (out, world')) :
    ∃ actions, config.run actions = some
      { world := world', pool := Function.update config.pool me (some (.ended out)) } := by
  induction program generalizing choices config with
  | ret value =>
    cases done
    exact ⟨[], by simp [Config.run, Program.ended, ← started]⟩
  | raise reason =>
    cases done
    exact ⟨[], by simp [Config.run, Program.ended, ← started]⟩
  | exec stmt next ih =>
    simp only [eval] at done
    cases answered : M.exec me stmt (choices 0) config.world with
    | none => simp [answered] at done
    | some result =>
      obtain ⟨reply, middle⟩ := result
      simp only [answered] at done
      have resumed : (Config.mk middle (Function.update config.pool me (some (next reply))) :
          Config M α).pool me = some (next reply) := by simp
      obtain ⟨actions, reached⟩ := ih reply resumed done
      refine ⟨.exec me (choices 0) :: actions, ?_⟩
      have first : config.step (.exec me (choices 0)) =
          some { world := middle, pool := Function.update config.pool me (some (next reply)) } := by
        simp [Config.step, started, answered]
      simpa [Config.run, first] using reached

end Machine

end SogeconApp.Library
