import SogeconApp.Library.Traced

/-!
# What one session exchanges

A policy speaks of reasons, and more reasons allow more. Other facts are about all that one session does in
a run: that its statements are of the kinds that its own request asks for, or that it issues a statement no
more than so many times. They follow from the program of the session, through a relation between what has
been exchanged and the phase that the program is in.
-/

namespace SogeconApp.Library

variable {S : Signature} {M : Machine S} {α β : Type} {me : SessionId}

theorem Trace.own_recorded_other {other : SessionId} (different : other ≠ me) (stmt : S.Stmt)
    (reply : Except S.Exn (S.Reply stmt)) : Trace.own other (Trace.recorded me stmt reply) = [] := by
  cases reply with
  | ok answer => simp [Trace.own, Trace.recorded, different.symm]
  | error reason => rfl

namespace Protocol

variable {P : Protocol S} {R : SessionId → List (Exchange S) → P.Phase → Prop}

/-- The relation goes on with every statement that the phase allows, and when the session ends. -/
structure Describes (P : Protocol S) (R : SessionId → List (Exchange S) → P.Phase → Prop) : Prop where
  answered : ∀ me known phase stmt answer, R me known phase → P.allow phase stmt →
    R me (known ++ [⟨stmt, answer⟩]) (P.next phase stmt (.ok answer))
  raised : ∀ me known phase stmt reason, R me known phase → P.allow phase stmt →
    R me known (P.next phase stmt (.error reason))
  gone : ∀ me known phase, R me known phase → R me known P.gone
  answers : ∀ stmt answer, P.answers stmt answer

/-- Every session has exchanged what its phase says. -/
def Described (P : Protocol S) (R : SessionId → List (Exchange S) → P.Phase → Prop) (world : M.traced.World)
    (phase : SessionId → P.Phase) : Prop :=
  ∀ me, R me (Trace.own me world.2) (phase me)

theorem Describes.ended (describes : P.Describes R) {world : M.World} {trace : Trace S}
    {phase : SessionId → P.Phase} (described : P.Described (M := M) R (world, trace) phase)
    (left : M.World) (me : SessionId) :
    P.Described (M := M) R (left, trace) (Function.update phase me P.gone) := by
  intro other
  by_cases same : other = me
  · subst same
    rw [Function.update_self]
    exact describes.gone other _ _ (described other)
  · rw [Function.update_of_ne same]
    exact described other

theorem Describes.keeps (describes : P.Describes R) :
    P.Keeps M.traced (fun _ _ _ _ => True) (P.Described R) where
  exec world phase me stmt choice reply world' described _ allowed done := by
    obtain ⟨-, recorded⟩ := Machine.traced_exec done
    intro other
    rw [recorded, Trace.own_append]
    by_cases same : other = me
    · subst same
      rw [Function.update_self]
      cases reply with
      | ok answer =>
        rw [Trace.own_recorded_self]
        exact describes.answered other _ _ stmt answer (described other) allowed
      | error reason =>
        rw [show Trace.own other (Trace.recorded other stmt (.error reason)) = [] from rfl, List.append_nil]
        exact describes.raised other _ _ stmt reason (described other) allowed
    · rw [Function.update_of_ne same, Trace.own_recorded_other same, List.append_nil]
      exact described other
  known _ _ _ _ _ answer _ _ _ := describes.answers _ answer
  close world phase me described := describes.ended described _ me
  crash world phase me described := describes.ended described _ me
  outside _ _ _ described := described

/-- Whatever the programs of a run exchange, each stays in the relation that it starts in. -/
theorem Describes.run (describes : P.Describes R) {config after : Config M.traced α}
    {actions : List (Action M.traced)} (blank : config.world.2 = []) (phase : SessionId → P.Phase)
    (start : ∀ me, R me [] (phase me))
    (follows : ∀ me program, config.pool me = some program → P.Follows (phase me) program)
    (closed : ∀ me, config.pool me = none → phase me = P.gone) (reached : config.run actions = some after)
    (me : SessionId) : ∃ last, R me (Trace.own me after.world.2) last := by
  have begins : P.Holds (P.Described R) config := by
    refine ⟨phase, fun other => ?_, follows, closed⟩
    rw [blank]
    exact start other
  obtain ⟨last, described, -⟩ := describes.keeps.run begins (Config.meets_true _ actions) reached
  exact ⟨last me, described me⟩

/-! ## Kinds of statements -/

/-- The phase is the kind of statements that a session keeps to. -/
abbrev kinds (S : Signature) : Protocol S where
  Phase := S.Stmt → Prop
  gone _ := False
  allow kind stmt := kind stmt
  next kind _ _ := kind
  answers _ _ := True

theorem follows_kinds {kind : S.Stmt → Prop} {program : Program S α} (within : Policy.Within kind program) :
    (kinds S).Follows kind program := by
  unfold Policy.Within at within
  induction program with
  | ret value => trivial
  | raise reason => trivial
  | exec stmt next ih =>
    refine ⟨within.1, ?_⟩
    rintro reply _ ⟨rfl, -⟩
    exact ih reply (within.2 reply () trivial)

theorem describes_kinds (kind : SessionId → S.Stmt → Prop) :
    (kinds S).Describes fun me known phase =>
      (∀ exchange ∈ known, kind me exchange.stmt) ∧ ∀ stmt, phase stmt → kind me stmt where
  answered me known phase stmt answer described allowed := by
    refine ⟨fun exchange member => ?_, described.2⟩
    rcases List.mem_append.mp member with earlier | now
    · exact described.1 exchange earlier
    · rw [List.mem_singleton.mp now]
      exact described.2 stmt allowed
  raised _ _ _ _ _ described _ := described
  gone _ _ _ described := ⟨described.1, fun _ never => never.elim⟩
  answers _ _ := trivial

/-! ## How often -/

/-- What is left after a statement. -/
def spent (kind : S.Stmt → Bool) (left : Nat) (stmt : S.Stmt) : Nat :=
  if kind stmt = true then left - 1 else left

/-- The phase is how many statements of the kind the session may still issue. -/
abbrev budget (kind : S.Stmt → Bool) : Protocol S where
  Phase := Nat
  gone := 0
  allow left stmt := kind stmt = true → 0 < left
  next left stmt _ := spent kind left stmt
  answers _ _ := True

/-- What has been issued of the kind, and what may still be, is no more than at the start. -/
theorem describes_budget (kind : S.Stmt → Bool) (total : Nat) :
    (budget kind).Describes fun _ known left =>
      known.countP (fun exchange => kind exchange.stmt) + left ≤ total where
  answered me known left stmt answer described allowed := by
    rw [List.countP_append, List.countP_singleton]
    by_cases here : kind stmt = true
    · have some_ := allowed here
      simp only [spent, here, if_true]
      omega
    · simpa [spent, here] using described
  raised me known left stmt reason described _ := by
    have less : spent kind left stmt ≤ left := by
      unfold spent
      split <;> omega
    exact Nat.le_trans (Nat.add_le_add_left less _) described
  gone _ _ left described := by
    dsimp only
    omega
  answers _ _ := trivial

/-- A program that issues no statement of the kind leaves the budget. -/
theorem through_budget {kind : S.Stmt → Bool} {program : Program S α}
    (within : Policy.Within (fun stmt => kind stmt = false) program) (left : Nat) :
    (budget kind).Through left program fun _ after => after = left := by
  unfold Policy.Within at within
  induction program with
  | ret value => exact rfl
  | raise reason => trivial
  | exec stmt next ih =>
    obtain ⟨other, continues⟩ := within
    dsimp only at other
    refine ⟨fun same => ?_, ?_⟩
    · rw [other] at same
      cases same
    · rintro reply _ ⟨rfl, -⟩
      have same : spent kind left stmt = left := by simp [spent, other]
      dsimp only
      rw [same]
      exact ih reply (continues reply () trivial)

end Protocol

namespace Policy

/-- In every interleaving, each session exchanges the statements of its own kind only. -/
theorem Within.run {kind : SessionId → S.Stmt → Prop} {config after : Config M.traced α}
    {actions : List (Action M.traced)} (blank : config.world.2 = [])
    (within : ∀ me program, config.pool me = some program → Within (kind me) program)
    (reached : config.run actions = some after) (exchange : Exchange S)
    (member : (me, exchange) ∈ after.world.2) :
    kind me exchange.stmt := by
  have run := (Protocol.describes_kinds kind).run blank
    (fun me => (config.pool me).elim (fun _ => False) fun _ => kind me) (fun me => ?_)
      (fun me program running => ?_)
    (fun me shut => ?_) reached me
  · obtain ⟨_, described, -⟩ := run
    exact described exchange (Trace.mem_own.mpr member)
  · refine ⟨by simp, fun stmt allowed => ?_⟩
    cases running : config.pool me with
    | none =>
      rw [running] at allowed
      exact allowed.elim
    | some program =>
      rw [running] at allowed
      exact allowed
  · rw [running]
    exact Protocol.follows_kinds (within me program running)
  · rw [shut]
    rfl

/-- In every interleaving, each session issues no more statements of the kind than its program may. -/
theorem count_le {kind : S.Stmt → Bool} {total : Nat} {config after : Config M.traced α}
    {actions : List (Action M.traced)} (blank : config.world.2 = [])
    (through : ∀ me program, config.pool me = some program → (Protocol.budget kind).Follows total program)
    (reached : config.run actions = some after) (me : SessionId) :
    (Trace.own me after.world.2).countP (fun exchange => kind exchange.stmt) ≤ total := by
  have run := (Protocol.describes_budget kind total).run blank
    (fun me => ((config.pool me).elim 0 fun _ => total : Nat)) (fun me => ?_) (fun me program running => ?_)
    (fun me shut => ?_) reached me
  · obtain ⟨_, described⟩ := run
    exact Nat.le_trans (Nat.le_add_right ..) described
  · cases running : config.pool me <;> simp
  · rw [running]
    exact through me program running
  · rw [shut]
    rfl

end Policy

end SogeconApp.Library
