import SogeconApp.Library.Sessions

/-!
# Traces and policies

A traced machine records every statement that was answered, with its answer. A policy says which statements
a session may issue after the exchanges it has had so far; the more of these, the more it may. When every
program follows the policy, in every interleaving each entry of the trace was allowed by what the
same session had exchanged before it.
-/

namespace SogeconApp.Library

variable {S : Signature} {M : Machine S} {α β : Type}

/-- A statement and its answer. -/
structure Exchange (S : Signature) where
  stmt : S.Stmt
  reply : S.Reply stmt

abbrev Trace (S : Signature) := List (SessionId × Exchange S)

namespace Trace

def own (me : SessionId) (trace : Trace S) : List (Exchange S) :=
  trace.filterMap fun entry => if entry.1 = me then some entry.2 else none

/-- A statement that raises is not recorded. -/
def recorded (me : SessionId) (stmt : S.Stmt) : Except S.Exn (S.Reply stmt) → Trace S
  | .ok reply => [(me, ⟨stmt, reply⟩)]
  | .error _ => []

theorem own_append (me : SessionId) (first second : Trace S) :
    own me (first ++ second) = own me first ++ own me second :=
  List.filterMap_append ..

/-- What a session has exchanged is what the trace shows of it. -/
theorem mem_own {me : SessionId} {trace : Trace S} {exchange : Exchange S} :
    exchange ∈ own me trace ↔ (me, exchange) ∈ trace := by
  unfold own
  rw [List.mem_filterMap]
  constructor
  · rintro ⟨⟨other, same⟩, member, mine⟩
    split at mine
    · next owner =>
      obtain rfl := owner
      cases mine
      exact member
    · cases mine
  · intro member
    exact ⟨(me, exchange), member, if_pos rfl⟩

theorem own_recorded_self (me : SessionId) (stmt : S.Stmt) (reply : S.Reply stmt) :
    own me (recorded me stmt (.ok reply)) = [⟨stmt, reply⟩] := by
  simp [own, recorded]

theorem own_subset {first trace : Trace S} (sub : first ⊆ trace) (me : SessionId) : own me first ⊆ own me trace :=
  fun _ member => mem_own.mpr (sub (mem_own.mp member))

/-- Of each entry, with what came before it. -/
def Each (P : Trace S → SessionId × Exchange S → Prop) (trace : Trace S) : Prop :=
  ∀ earlier entry later, trace = earlier ++ entry :: later → P earlier entry

variable {P : Trace S → SessionId × Exchange S → Prop} {trace : Trace S}

theorem each_nil : Each P [] := by
  intro earlier entry later split
  simp at split

/-- A statement about every entry and those before it holds of one entry more, if it holds of that one.
-/
theorem Each.snoc {entry : SessionId × Exchange S} (each : Each P trace) (last : P trace entry) :
    Each P (trace ++ [entry]) := by
  intro earlier other later split
  rcases List.eq_nil_or_concat later with rfl | ⟨front, final, rfl⟩
  · obtain ⟨rfl, same⟩ := List.append_inj' split rfl
    cases same
    exact last
  · rw [List.concat_eq_append, ← List.cons_append, ← List.append_assoc] at split
    obtain ⟨same, -⟩ := List.append_inj' split rfl
    exact each earlier other front same

theorem Each.recorded {me : SessionId} {stmt : S.Stmt} {reply : Except S.Exn (S.Reply stmt)} (each : Each P trace)
    (last : ∀ answer, reply = .ok answer → P trace (me, ⟨stmt, answer⟩)) :
    Each P (trace ++ recorded me stmt reply) := by
  cases reply with
  | ok answer => exact each.snoc (last answer rfl)
  | error reason => simpa [Trace.recorded] using each

theorem Each.front {first second : Trace S} (each : Each P (first ++ second)) : Each P first := by
  intro earlier entry later split
  exact each earlier entry (later ++ second) (by rw [split, List.append_assoc, List.cons_append])

/-- The statement was answered to a session, for a reason in what came before. -/
def By (trace : Trace S) (stmt : S.Stmt) (reason : Trace S → SessionId → Prop) : Prop :=
  ∃ earlier me reply later, trace = earlier ++ (me, ⟨stmt, reply⟩) :: later ∧ reason earlier me

variable {stmt : S.Stmt} {reason : Trace S → SessionId → Prop}

theorem By.append {later : Trace S} (by_ : By trace stmt reason) : By (trace ++ later) stmt reason := by
  obtain ⟨earlier, me, reply, between, rfl, holds⟩ := by_
  exact ⟨earlier, me, reply, between ++ later, by rw [List.append_assoc, List.cons_append], holds⟩

/-- The session whose statement has just been answered. -/
theorem By.last {me : SessionId} (reply : S.Reply stmt) (holds : reason trace me) :
    By (trace ++ recorded me stmt (.ok reply)) stmt reason :=
  ⟨trace, me, reply, [], rfl, holds⟩

end Trace

/-- The machine with the trace of its answers. -/
def Machine.traced (M : Machine S) : Machine S where
  World := M.World × Trace S
  Choice := M.Choice
  Outside := M.Outside
  exec me stmt choice world := (M.exec me stmt choice world.1).map fun (reply, after) =>
    (reply, after, world.2 ++ Trace.recorded me stmt reply)
  close me world := (M.close me world.1, world.2)
  crash me world := (M.crash me world.1, world.2)
  outside change world := (M.outside change world.1, world.2)

theorem Machine.traced_exec {me : SessionId} {stmt : S.Stmt} {choice : M.Choice} {world world' : M.traced.World}
    {reply : Except S.Exn (S.Reply stmt)} (done : M.traced.exec me stmt choice world = some (reply, world')) :
    M.exec me stmt choice world.1 = some (reply, world'.1) ∧
      world'.2 = world.2 ++ Trace.recorded me stmt reply := by
  obtain ⟨⟨reply', after⟩, ran, same⟩ := Option.map_eq_some_iff.mp done
  cases same
  exact ⟨ran, rfl⟩

structure Policy (S : Signature) where
  allow : List (Exchange S) → S.Stmt → Prop
  mono : ∀ {before after : List (Exchange S)} {stmt : S.Stmt}, before ⊆ after → allow before stmt →
    allow after stmt

namespace Policy

variable {policy : Policy S}

/-- The phase of a session is what it has exchanged. -/
def protocol (policy : Policy S) : Protocol S where
  Phase := List (Exchange S)
  gone := []
  allow := policy.allow
  next phase stmt
    | .ok reply => phase ++ [⟨stmt, reply⟩]
    | .error _ => phase
  answers _ _ := True

/-- Every entry was allowed by the earlier entries of its session. -/
def Justifies (policy : Policy S) (trace : Trace S) : Prop :=
  Trace.Each (fun earlier entry => policy.allow (Trace.own entry.1 earlier) entry.2.stmt) trace

/-- An invariant of the store and the trace, beside the policy. -/
structure Keeps (policy : Policy S) (M : Machine S) (I : M.World → Trace S → Prop) : Prop where
  exec : ∀ world trace me stmt choice reply world', I world trace → policy.Justifies trace →
    policy.allow (Trace.own me trace) stmt → M.exec me stmt choice world = some (reply, world') →
      I world' (trace ++ Trace.recorded me stmt reply)
  close : ∀ world trace me, I world trace → I (M.close me world) trace
  crash : ∀ world trace me, I world trace → I (M.crash me world) trace
  outside : ∀ world trace change, I world trace → I (M.outside change world) trace

/-- The phases know no more than the trace. -/
def Recorded (policy : Policy S) (I : M.World → Trace S → Prop) (world : M.traced.World)
    (phase : SessionId → List (Exchange S)) : Prop :=
  I world.1 world.2 ∧ policy.Justifies world.2 ∧ ∀ me, phase me ⊆ Trace.own me world.2

/-- A session that has ended is not asked any more what it knows. -/
theorem forgotten {trace : Trace S} {phase : SessionId → List (Exchange S)} {me : SessionId}
    (known : ∀ other, phase other ⊆ Trace.own other trace) (other : SessionId) :
    Function.update phase me [] other ⊆ Trace.own other trace := by
  by_cases same : other = me
  · rw [same, Function.update_self]
    exact List.nil_subset _
  · rw [Function.update_of_ne same]
    exact known other

/-- An invariant over the store and the trace that every allowed statement keeps is one of the protocol.
-/
theorem Keeps.protocol {I : M.World → Trace S → Prop} (keeps : policy.Keeps M I) :
    policy.protocol.Keeps M.traced (fun _ _ _ _ => True) (policy.Recorded I) where
  exec world phase me stmt choice reply world' inv _ allowed done := by
    obtain ⟨holds, justified, known⟩ := inv
    obtain ⟨ran, recorded⟩ := Machine.traced_exec done
    have permitted : policy.allow (Trace.own me world.2) stmt := policy.mono (known me) allowed
    unfold Recorded
    rw [recorded]
    refine ⟨keeps.exec _ _ me stmt choice reply _ holds justified permitted ran,
      justified.recorded fun _ _ => permitted, ?_⟩
    intro other
    rw [Trace.own_append]
    by_cases same : other = me
    · subst same
      rw [Function.update_self]
      cases reply with
      | ok answer =>
        rw [Trace.own_recorded_self]
        exact List.append_subset.mpr ⟨List.subset_append_of_subset_left _ (known other),
          List.subset_append_right ..⟩
      | error reason => exact List.subset_append_of_subset_left _ (known other)
    · rw [Function.update_of_ne same]
      exact List.subset_append_of_subset_left _ (known other)
  known _ _ _ _ _ _ _ _ _ := trivial
  close world phase me inv := by
    obtain ⟨holds, justified, known⟩ := inv
    exact ⟨keeps.close _ _ me holds, justified, forgotten known⟩
  crash world phase me inv := by
    obtain ⟨holds, justified, known⟩ := inv
    exact ⟨keeps.crash _ _ me holds, justified, forgotten known⟩
  outside world phase change inv := by
    obtain ⟨holds, justified, known⟩ := inv
    exact ⟨keeps.outside _ _ change holds, justified, known⟩

theorem begins {I : M.World → Trace S → Prop} {config : Config M.traced α} (blank : config.world.2 = [])
    (start : I config.world.1 [])
    (follows : ∀ me program, config.pool me = some program → policy.protocol.Follows [] program) :
    policy.protocol.Holds (policy.Recorded I) config :=
  ⟨fun _ => [], ⟨by rwa [blank], by rw [blank]; exact Trace.each_nil, fun _ => List.nil_subset _⟩, follows,
    fun _ _ => rfl⟩

/-- A run from programs that follow the policy keeps the invariant, and its trace is justified. -/
theorem Keeps.run {I : M.World → Trace S → Prop} (keeps : policy.Keeps M I) {config after : Config M.traced α}
    {actions : List (Action M.traced)} (blank : config.world.2 = []) (start : I config.world.1 [])
    (follows : ∀ me program, config.pool me = some program → policy.protocol.Follows [] program)
    (reached : config.run actions = some after) :
    I after.world.1 after.world.2 ∧ policy.Justifies after.world.2 := by
  obtain ⟨phase, ⟨holds, justified, -⟩, -⟩ :=
    keeps.protocol.run (begins blank start follows) (Config.meets_true _ actions) reached
  exact ⟨holds, justified⟩

/-- An invariant that a state in the middle of a run satisfies holds from there on. -/
theorem Keeps.onward {I J : M.World → Trace S → Prop} (keeps : policy.Keeps M J)
    {middle after : Config M.traced α}
    {actions : List (Action M.traced)} (holds : policy.protocol.Holds (policy.Recorded I) middle)
    (start : J middle.world.1 middle.world.2) (reached : middle.run actions = some after) :
    J after.world.1 after.world.2 := by
  obtain ⟨phase, ⟨-, justified, known⟩, follows, gone⟩ := holds
  have again : policy.protocol.Holds (policy.Recorded J) middle :=
    ⟨phase, ⟨start, justified, known⟩, follows, gone⟩
  obtain ⟨_, ⟨kept, -⟩, -⟩ := keeps.protocol.run again (Config.meets_true _ actions) reached
  exact kept

/-! ## Programs that follow a policy -/

/-- From what is known on, only allowed statements; what it ends with is known beside that. -/
def Grows (policy : Policy S) (known : List (Exchange S)) (program : Program S α)
    (Q : α → List (Exchange S) → Prop) : Prop :=
  program.Ensures policy.protocol.rules (fun value phase => known ⊆ phase ∧ Q value phase)
    (fun _ phase => known ⊆ phase) known

namespace Grows

variable {known : List (Exchange S)} {Q Q' : α → List (Exchange S) → Prop}

theorem follows {program : Program S α} (grows : policy.Grows known program Q) :
    policy.protocol.Follows known program :=
  Program.Ensures.weaken grows (fun _ _ _ => trivial) fun _ _ _ => trivial

theorem ret {value : α} (returned : Q value known) : policy.Grows known (pure value) Q :=
  ⟨List.Subset.refl _, returned⟩

theorem raise {reason : S.Exn} : policy.Grows known (Program.raise reason : Program S α) Q :=
  List.Subset.refl _

/-- What a request knows at its end may be replaced by anything that follows from it. -/
theorem weaken {program : Program S α} (grows : policy.Grows known program Q)
    (returns : ∀ value phase, known ⊆ phase → Q value phase → Q' value phase) : policy.Grows known program Q' :=
  Program.Ensures.weaken grows (fun value phase ended => ⟨ended.1, returns value phase ended.1 ended.2⟩)
    fun _ _ kept => kept

/-- The second of two programs starts with what the first one has learnt. -/
theorem bind {program : Program S β} {next : β → Program S α} {middle : β → List (Exchange S) → Prop}
    (first : policy.Grows known program middle)
    (then_ : ∀ value phase, known ⊆ phase → middle value phase → policy.Grows phase (next value) Q) :
    policy.Grows known (program >>= next) Q := by
  unfold Grows
  rw [Program.bind_eq, Program.ensures_bind]
  refine Program.Ensures.weaken first (fun value phase ended => ?_) fun _ _ kept => kept
  exact Program.Ensures.weaken (then_ value phase ended.1 ended.2)
    (fun _ _ last => ⟨List.Subset.trans ended.1 last.1, last.2⟩) fun _ _ kept => List.Subset.trans ended.1 kept

/-- The exchange is known from then on. -/
theorem ask {stmt : S.Stmt} {Q : S.Reply stmt → List (Exchange S) → Prop} (allowed : policy.allow known stmt)
    (answered : ∀ reply, Q reply (known ++ [⟨stmt, reply⟩])) : policy.Grows known (Program.issue stmt) Q := by
  refine (Protocol.ensures_issue (P := policy.protocol) known).mpr ⟨allowed, fun reply _ => ?_, fun _ => ?_⟩
  · exact ⟨List.subset_append_left .., answered reply⟩
  · exact List.Subset.refl _

/-- A statement that is allowed to what is known by then adds its answer to what is known. -/
theorem step {stmt : S.Stmt} {next : S.Reply stmt → Program S α} (allowed : policy.allow known stmt)
    (then_ : ∀ reply, policy.Grows (known ++ [⟨stmt, reply⟩]) (next reply) Q) :
    policy.Grows known (Program.issue stmt >>= next) Q :=
  bind (ask (Q := fun reply phase => phase = known ++ [⟨stmt, reply⟩]) allowed fun _ => rfl)
    fun reply phase _ same => by rw [same]; exact then_ reply

theorem forEach {ι : Type} {body : ι → Program S Unit} {items : List ι}
    (each : ∀ item ∈ items, ∀ phase, known ⊆ phase → policy.Grows phase (body item) fun _ _ => True) :
    policy.Grows known (Program.forEach body items) fun _ _ => True := by
  refine (Program.ensures_forEach_same (fun phase : List (Exchange S) => known ⊆ phase) items (List.Subset.refl _)
    fun item member phase more => ?_).weaken (fun _ _ more => ⟨more, trivial⟩) fun _ _ more => more
  exact Program.Ensures.weaken (each item member phase more) (fun _ _ ended => List.Subset.trans more ended.1)
    fun _ _ kept => List.Subset.trans more kept

/-- The handler knows what was known when the body began, and more. -/
theorem «catch» {program : Program S α} {handler : S.Exn → Program S α} (body : policy.Grows known program Q)
    (raised : ∀ reason phase, known ⊆ phase → policy.Grows phase (handler reason) Q) :
    policy.Grows known (program.catchWith handler) Q := by
  unfold Grows
  rw [Program.ensures_catchWith]
  refine Program.Ensures.weaken body (fun _ _ ended => ended) fun reason phase kept => ?_
  exact Program.Ensures.weaken (raised reason phase kept)
    (fun _ _ last => ⟨List.Subset.trans kept last.1, last.2⟩)
    fun _ _ more => List.Subset.trans kept more

end Grows

/-- Every statement of the program is of the kind, whatever is answered or raised. -/
def Within (kind : S.Stmt → Prop) (program : Program S α) : Prop :=
  program.Ensures ⟨fun _ : Unit => kind, fun _ _ _ _ => True⟩ (fun _ _ => True) (fun _ _ => True) ()

namespace Within

variable {kind : S.Stmt → Prop}

theorem ret {value : α} : Within kind (pure value : Program S α) := trivial

theorem raise {reason : S.Exn} : Within kind (Program.raise reason : Program S α) := trivial

theorem ask {stmt : S.Stmt} (here : kind stmt) : Within kind (Program.issue stmt) :=
  (Program.ensures_issue ()).mpr ⟨here, fun _ _ _ => trivial, fun _ _ _ => trivial⟩

theorem bind {program : Program S β} {next : β → Program S α} (first : Within kind program)
    (then_ : ∀ value, Within kind (next value)) : Within kind (program >>= next) := by
  unfold Within
  rw [Program.bind_eq, Program.ensures_bind]
  exact Program.Ensures.weaken first (fun value _ _ => then_ value) fun _ _ _ => trivial

theorem «catch» {program : Program S α} {handler : S.Exn → Program S α} (body : Within kind program)
    (raised : ∀ reason, Within kind (handler reason)) : Within kind (program.catchWith handler) := by
  unfold Within
  rw [Program.ensures_catchWith]
  exact Program.Ensures.weaken body (fun _ _ _ => trivial) fun reason _ _ => raised reason

theorem forEach {body : β → Program S Unit} (each : ∀ value, Within kind (body value)) (values : List β) :
    Within kind (Program.forEach body values) := by
  induction values with
  | nil => exact .ret
  | cons value rest ih => exact (each value).bind fun _ => ih

theorem weaken {kind' : S.Stmt → Prop} {program : Program S α} (within : Within kind program)
    (more : ∀ stmt, kind stmt → kind' stmt) : Within kind' program := by
  unfold Within
  induction program with
  | ret value => trivial
  | raise reason => trivial
  | exec stmt next ih => exact ⟨more stmt within.1, fun reply _ _ => ih reply (within.2 reply () trivial)⟩

/-- What is known already allows all of it. -/
theorem grows {program : Program S α} {known : List (Exchange S)} (within : Within kind program)
    (allowed : ∀ stmt, kind stmt → policy.allow known stmt) : policy.Grows known program fun _ _ => True := by
  suffices from_ : ∀ phase, known ⊆ phase → program.Ensures policy.protocol.rules
      (fun _ phase => known ⊆ phase ∧ True) (fun _ phase => known ⊆ phase) phase by
    exact from_ known (List.Subset.refl _)
  induction program with
  | ret value => exact fun _ kept => ⟨kept, trivial⟩
  | raise reason => exact fun _ kept => kept
  | exec stmt next ih =>
    intro phase kept
    refine ⟨policy.mono kept (allowed stmt within.1), ?_⟩
    rintro reply phase' ⟨rfl, -⟩
    refine ih reply (within.2 reply () trivial) _ ?_
    cases reply with
    | ok answer => exact List.subset_append_of_subset_left _ kept
    | error reason => exact kept

end Within

end Policy

end SogeconApp.Library
