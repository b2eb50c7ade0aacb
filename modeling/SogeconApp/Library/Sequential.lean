import SogeconApp.Library.Sessions

/-!
# One session at a time

A request is taken up when no session is open. Its statements then run one after the other,
any of them may fail, and the session may crash at any point, which leaves the store as the
machine says. Between two requests the store is settled; inside one it keeps what the session
works under, and each statement is one that the rules of the session allow where it is issued.
-/

namespace SogeconApp.Library

variable {S : Signature} {M : Machine S} {α ι : Type}

/-- What a session may issue, answered as the machine answers it. -/
def Machine.issuing (M : Machine S) (me : SessionId) (allow : M.World → S.Stmt → Prop) :
    Rules S M.World where
  allow := allow
  after world stmt reply world' := ∃ choice, M.exec me stmt choice world = some (reply, world')

/-- A statement that leaves the store as it is, and then the rest. -/
theorem Machine.issuing_read {me : SessionId} {allow : M.World → S.Stmt → Prop} {stmt : S.Stmt}
    {next : S.Reply stmt → Program S α} {Q : α → M.World → Prop} {world : M.World}
    {known : S.Reply stmt → Prop} (allowed : allow world stmt)
    (reads : ∀ choice answer world', M.exec me stmt choice world = some (.ok answer, world') →
      world' = world ∧ known answer)
    (then_ : ∀ answer, known answer → (M.issuing me allow).Through world (next answer) Q) :
    (M.issuing me allow).Through world (Program.issue stmt >>= next) Q := by
  refine .step allowed fun answer world' after => ?_
  obtain ⟨choice, done⟩ := after
  obtain ⟨rfl, knows⟩ := reads choice answer world' done
  exact then_ answer knows

/-- The configurations that requests reach one after the other, and the request that was taken up
last. -/
inductive Sequential (M : Machine S) (program : ι → Program S α) (initial : M.World) :
    Option ι → Config M α → Prop
  | start : Sequential M program initial none { world := initial, pool := fun _ => none }
  | arrives {last : Option ι} {config : Config M α}
      (before : Sequential M program initial last config)
      (idle : ∀ me, config.pool me = none) (me : SessionId) (request : ι) :
      Sequential M program initial (some request)
        { config with pool := Function.update config.pool me (some (program request)) }
  | step {last : Option ι} {config after : Config M α} {action : Action M}
      (before : Sequential M program initial last config)
      (stepped : config.step action = some after) :
      Sequential M program initial last after

namespace Sequential

/-- What holds of a store between requests, what a session works under, and what each step of the
session keeps. Nothing outside of the sessions changes the store. -/
structure Keeps (M : Machine S) (program : ι → Program S α)
    (rules : ι → SessionId → Rules S M.World) (settled : M.World → Prop)
    (working : ι → SessionId → M.World → Prop) : Prop where
  opens : ∀ request me world, settled world →
    working request me world ∧ (rules request me).Through world (program request) fun _ _ => True
  exec : ∀ request me world stmt choice reply world', working request me world →
    (rules request me).allow world stmt → M.exec me stmt choice world = some (reply, world') →
      working request me world' ∧ (rules request me).after world stmt reply world'
  close : ∀ request me world, working request me world → settled (M.close me world)
  crash : ∀ request me world, working request me world → settled (M.crash me world)
  inside : IsEmpty M.Outside

structure Idle (settled : M.World → Prop) (config : Config M α) : Prop where
  closed : ∀ me, config.pool me = none
  settled : settled config.world

/-- One session is open. -/
structure Serving (rules : ι → SessionId → Rules S M.World)
    (working : ι → SessionId → M.World → Prop)
    (request : ι) (me : SessionId) (program : Program S α) (config : Config M α) : Prop where
  opened : config.pool me = some program
  closed : ∀ other, other ≠ me → config.pool other = none
  working : working request me config.world
  through : (rules request me).Through config.world program fun _ _ => True

variable {program : ι → Program S α} {rules : ι → SessionId → Rules S M.World}
    {settled : M.World → Prop}
  {working : ι → SessionId → M.World → Prop} {config after : Config M α} {action : Action M}

theorem Keeps.serve (keeps : Keeps M program rules settled working)
    (idle : Idle settled config) (request : ι)
    (me : SessionId) : Serving rules working request me (program request)
      { config with pool := Function.update config.pool me (some (program request)) } where
  opened := Function.update_self ..
  closed other different := (Function.update_of_ne different ..).trans (idle.closed other)
  working := (keeps.opens request me config.world idle.settled).1
  through := (keeps.opens request me config.world idle.settled).2

/-- Without an open session nothing happens. -/
theorem Keeps.stuck (keeps : Keeps M program rules settled working) (idle : Idle settled config)
    (stepped : config.step action = some after) : False := by
  cases Config.step_cases stepped with
  | exec opened done => simp [idle.closed] at opened
  | close opened => simp [idle.closed] at opened
  | crash opened => simp [idle.closed] at opened
  | outside change => exact keeps.inside.false change

variable {request : ι} {me : SessionId} {running : Program S α}

/-- The session ends, and leaves a settled store. -/
theorem Serving.leave (serving : Serving rules working request me running config) {world : M.World}
    (left : settled world) :
    Idle settled { world, pool := Function.update config.pool me none } where
  closed other := by
    by_cases mine : other = me
    · rw [mine]
      exact Function.update_self ..
    · exact (Function.update_of_ne mine ..).trans (serving.closed other mine)
  settled := left

/-- The open session is the one that a step belongs to. -/
theorem Serving.only (serving : Serving rules working request me running config) {other : SessionId}
    {program : Program S α} (opened : config.pool other = some program) :
    other = me ∧ running = program := by
  by_cases same : other = me
  · subst same
    rw [serving.opened] at opened
    exact ⟨rfl, Option.some.inj opened⟩
  · rw [serving.closed other same] at opened
    cases opened

/-- A step of the one open session keeps what it works under, or ends the request and leaves the store
settled. -/
theorem Keeps.step (keeps : Keeps M program rules settled working)
    (serving : Serving rules working request me running config)
    (stepped : config.step action = some after) :
    Idle settled after ∨ ∃ onward, Serving rules working request me onward after := by
  cases Config.step_cases stepped with
  | @exec other choice stmt next reply world' opened done =>
    obtain ⟨rfl, rfl⟩ := serving.only opened
    obtain ⟨worked, answered⟩ := keeps.exec request other config.world stmt choice reply world'
      serving.working serving.through.1 done
    exact .inr ⟨next reply, Function.update_self .., fun another different =>
      (Function.update_of_ne different ..).trans (serving.closed another different), worked,
      serving.through.2 reply world' answered⟩
  | close ended =>
    obtain ⟨rfl, -⟩ := serving.only ended
    exact .inl (serving.leave (keeps.close request _ config.world serving.working))
  | crash opened =>
    obtain ⟨rfl, -⟩ := serving.only opened
    exact .inl (serving.leave (keeps.crash request _ config.world serving.working))
  | outside change => exact (keeps.inside.false change).elim

/-- In every configuration that is reached no session is open and the store is settled, or one
session is open and follows its rules. -/
theorem Keeps.holds (keeps : Keeps M program rules settled working) {initial : M.World}
    {last : Option ι} (run : Sequential M program initial last config) (start : settled initial) :
    Idle settled config ∨ ∃ request me running, last = some request ∧
      Serving rules working request me running config := by
  induction run with
  | start => exact .inl ⟨fun _ => rfl, start⟩
  | arrives before idle me request ih =>
    rcases ih with settled | ⟨request', other, running, -, serving⟩
    · exact .inr ⟨request, me, program request, rfl, keeps.serve settled request me⟩
    · have opened := serving.opened
      rw [idle other] at opened
      cases opened
  | step before stepped ih =>
    rcases ih with settled | ⟨request, me, running, named, serving⟩
    · exact (keeps.stuck settled stepped).elim
    · rcases keeps.step serving stepped with left | ⟨onward, serving⟩
      · exact .inl left
      · exact .inr ⟨request, me, onward, named, serving⟩

/-- A schedule goes on with the request that was taken up. -/
theorem onward {initial : M.World} {last : Option ι} {actions : List (Action M)}
    (run : Sequential M program initial last config) (reached : config.run actions = some after) :
    Sequential M program initial last after := by
  induction actions generalizing config with
  | nil =>
    cases reached
    exact run
  | cons action rest ih =>
    obtain ⟨middle, stepped, onward⟩ := Option.bind_eq_some_iff.mp reached
    exact ih (run.step stepped) onward

end Sequential

/-! ## Requests that run to their end -/

/-- A request, the session that serves it, and what the environment decides at its statements. -/
structure Turn (M : Machine S) (ι : Type) where
  me : SessionId
  request : ι
  choices : Nat → M.Choice

/-- Each request runs to its end, and its session is closed, before the next one is taken up. -/
def Machine.turns (M : Machine S) (program : ι → Program S α) :
    List (Turn M ι) → M.World → Option M.World
  | [], world => some world
  | turn :: rest, world =>
    (M.eval turn.me (program turn.request) turn.choices world).bind fun (_, after) =>
      M.turns program rest (M.close turn.me after)

/-- Each request meets a condition on the store that it is taken up in. -/
def Machine.TurnsMeet (M : Machine S) (program : ι → Program S α) (cond : M.World → ι → Prop) :
    List (Turn M ι) → M.World → Prop
  | [], _ => True
  | turn :: rest, world =>
    cond world turn.request ∧ ∀ out after,
      M.eval turn.me (program turn.request) turn.choices world = some (out, after) →
        M.TurnsMeet program cond rest (M.close turn.me after)

/-- What a request keeps that meets the condition, a run of such requests keeps. -/
theorem Machine.turns_keep {program : ι → Program S α} {cond : M.World → ι → Prop}
    {settled : M.World → Prop}
    (keeps : ∀ turn : Turn M ι, ∀ world out after, settled world → cond world turn.request →
      M.eval turn.me (program turn.request) turn.choices world = some (out, after) →
        settled (M.close turn.me after))
    {requests : List (Turn M ι)} {world after : M.World} (start : settled world)
    (meets : M.TurnsMeet program cond requests world)
    (served : M.turns program requests world = some after) : settled after := by
  induction requests generalizing world with
  | nil =>
    cases served
    exact start
  | cons turn rest ih =>
    obtain ⟨⟨out, reached⟩, done, served⟩ := Option.bind_eq_some_iff.mp served
    exact ih (keeps turn world out reached start meets.1 done) (meets.2 out reached done) served

/-- A program that issues what it may keeps what every such statement keeps. -/
theorem Machine.eval_follows {me : SessionId} {allow : M.World → S.Stmt → Prop}
    {working : M.World → Prop} {program : Program S α} {Q : α → M.World → Prop}
    (keeps : ∀ world stmt choice reply world', working world → allow world stmt →
      M.exec me stmt choice world = some (reply, world') → working world')
    {choices : Nat → M.Choice} {world after : M.World} {out : Except S.Exn α}
    (start : working world) (through : (M.issuing me allow).Through world program Q)
    (done : M.eval me program choices world = some (out, after)) : working after := by
  induction program generalizing choices world with
  | ret value =>
    cases done
    exact start
  | raise reason =>
    cases done
    exact start
  | exec stmt next ih =>
    simp only [Machine.eval] at done
    split at done
    · next reply middle answered =>
      exact ih reply (keeps world stmt _ reply middle start through.1 answered)
        (through.2 reply middle ⟨_, answered⟩) done
    · cases done

/-- Requests that run to their end are taken up one after the other. -/
theorem Sequential.turns {program : ι → Program S α} {initial world after : M.World}
    {last : Option ι} {requests : List (Turn M ι)}
    (run : Sequential M program initial last { world := world, pool := fun _ => none })
    (served : M.turns program requests world = some after) :
    ∃ last, Sequential M program initial last { world := after, pool := fun _ => none } := by
  induction requests generalizing world last with
  | nil =>
    cases served
    exact ⟨last, run⟩
  | cons turn rest ih =>
    obtain ⟨⟨out, reached⟩, done, served⟩ := Option.bind_eq_some_iff.mp served
    have arrived := run.arrives (fun _ => rfl) turn.me turn.request
    have opened : (Config.mk world
        (Function.update (fun _ => none) turn.me (some (program turn.request))) :
        Config M α).pool turn.me = some (program turn.request) := by simp
    obtain ⟨actions, ran⟩ := Machine.eval_is_run opened done
    have closes : Config.step
        { world := reached
          pool := Function.update
            (Function.update (fun _ => none) turn.me (some (program turn.request)))
            turn.me (some (Program.ended out)) }
        (.close turn.me) =
        some { world := M.close turn.me reached, pool := fun _ => none } := by
      cases out <;> simp [Config.step, Program.ended]
    exact ih ((arrived.onward ran).step closes) served

end SogeconApp.Library
