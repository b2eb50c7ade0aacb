import SogeconApp.Source.HeroControls

/-!
# Failed hero changes

A failed mutation puts back the whole response that was cached when it started. What it addressed is then
as before. The other targets are left alone if and only if no response was cached when it started, or
they are at the failure what they were at the start, so that no other change is put back with its own.
-/

namespace SogeconApp.Guarantees.HeroControls

open Source.HeroControls

/-- What the cache has for a target. -/
def entriesOf (cache : Cache) (target : Int) : List HeroTargetLookupItem :=
  cache.items.filter fun item => item.targetId = target

/-- The target of a new item, or of the cached item that is updated. -/
def Addresses (cache : Cache) : Variables → Int → Prop
  | .create targetId, target => target = targetId
  | .update payload, target => ∃ item ∈ cache.items, item.targetId = target ∧ item.heroItemId = payload.id

instance (cache : Cache) (args : Variables) (target : Int) : Decidable (Addresses cache args target) :=
  match args with
  | .create _ => inferInstanceAs (Decidable (_ = _))
  | .update _ => inferInstanceAs (Decidable (∃ _ ∈ _, _ ∧ _))

/-- In a run of the hook from a cached response or none, a mutation that starts and later fails. -/
structure Failure (initial : Cache) (trace : List Step) where
  number : Nat
  args : Variables
  first : List Step
  between : List Step
  rest : List Step
  before : Controls
  current : Controls
  after : Controls
  steps : trace = first ++ .start number args :: (between ++ .fail number :: rest)
  underWay : ∀ step ∈ between, ¬step.settles number
  reaches : (opened initial).run first = some before
  continues : before.run (.start number args :: between) = some current
  fails : current.step (.fail number) = some after

namespace Failure

variable {initial : Cache} {trace : List Step}

/-- The failure changes no target that the mutation did not address, and puts back the one it did. -/
def UndoesItself (failure : Failure initial trace) : Prop :=
  (∀ target, ¬Addresses failure.before.cache failure.args target →
      entriesOf failure.after.cache target = entriesOf failure.current.cache target) ∧
    ∀ target, Addresses failure.before.cache failure.args target →
      entriesOf failure.after.cache target = entriesOf failure.before.cache target

/-- No response was cached at the start, or the other targets are what they were at the start. -/
def Undisturbed (failure : Failure initial trace) : Prop :=
  failure.before.cache = none ∨
    ∀ target, ¬Addresses failure.before.cache failure.args target →
      entriesOf failure.current.cache target = entriesOf failure.before.cache target

end Failure

variable {initial cache : Cache} {trace between : List Step} {controls before current after : Controls}
  {number : Nat} {target : Int} {args : Variables} {mutation : Mutation}

/-! ## A mutation keeps its context while it is under way -/

theorem step_keeps_running {step : Step} (others : ¬step.settles number)
    (running : before.running number = some mutation) (steps : before.step step = some after) :
    after.running number = some mutation := by
  cases step with
  | start other args =>
    simp only [Controls.step] at steps
    split at steps
    · cases steps
    · next free =>
      cases steps
      have apart : number ≠ other := by
        rintro rfl
        rw [running] at free
        cases free
      simpa only [Function.update_of_ne apart] using running
  | succeed other answer =>
    obtain ⟨ended, -, rfl⟩ := Option.map_eq_some_iff.mp steps
    simpa only [Function.update_of_ne (Ne.symm others)] using running
  | fail other =>
    obtain ⟨ended, -, rfl⟩ := Option.map_eq_some_iff.mp steps
    simpa only [Function.update_of_ne (Ne.symm others)] using running

theorem run_keeps_running (underWay : ∀ step ∈ between, ¬step.settles number)
    (running : before.running number = some mutation) (runs : before.run between = some after) :
    after.running number = some mutation := by
  induction between generalizing before with
  | nil =>
    cases runs
    exact running
  | cons step rest ih =>
    obtain ⟨next, steps, continues⟩ := Option.bind_eq_some_iff.mp runs
    have kept := step_keeps_running (underWay step List.mem_cons_self) running steps
    exact ih (fun step member => underWay step (List.mem_cons_of_mem _ member)) kept continues

theorem start_step (steps : before.step (.start number args) = some after) :
    after.cache = onMutate args before.cache ∧
      after.running number = some { args, previous := before.cache } := by
  simp only [Controls.step] at steps
  split at steps
  · cases steps
  · cases steps
    exact ⟨rfl, Function.update_self _ _ _⟩

/-- What fails is what has started, with the cache of the start. -/
theorem Failure.cache_after (failure : Failure initial trace) :
    failure.after.cache =
      onError failure.args failure.before.cache failure.current.cache := by
  obtain ⟨started, starts, continues⟩ := Option.bind_eq_some_iff.mp failure.continues
  have kept := run_keeps_running failure.underWay (start_step starts).2 continues
  obtain ⟨mutation, running, fails⟩ := Option.map_eq_some_iff.mp failure.fails
  rw [kept] at running
  cases running
  rw [← fails]

/-! ## What a failure puts back -/

theorem onError_cached {items : List HeroTargetLookupItem} (cached : before.cache = some items) :
    onError args before.cache cache = before.cache := by
  rw [cached]
  cases args <;> rfl

/-- Without a snapshot, only the new item of the mutation is taken out again. -/
theorem onError_uncached_keeps (others : ¬Addresses none args target) :
    entriesOf (onError args none cache) target = entriesOf cache target := by
  cases args with
  | create targetId =>
    have apart (item : HeroTargetLookupItem) :
        (decide (item.targetId = target) && decide (item.targetId ≠ targetId)) =
          decide (item.targetId = target) := by
      have different : target ≠ targetId := others
      by_cases same : item.targetId = target
      · simp [same, different]
      · simp [same]
    simp only [onError, createFails, entriesOf, Cache.items, Option.getD_some, List.filter_filter, apart]
  | update payload => rfl

/-- Where no response was cached, the failure removes what the mutation has added. -/
theorem onError_uncached_restores (addressed : Addresses none args target) :
    entriesOf (onError args none cache) target = entriesOf none target := by
  cases args with
  | create targetId =>
    cases addressed
    simp [onError, createFails, entriesOf, Cache.items, List.filter_filter]
  | update payload =>
    obtain ⟨item, member, -⟩ := addressed
    cases member

/-- The target that the mutation addressed is after the failure what it was at the start. -/
theorem Failure.restores (failure : Failure initial trace)
    (addressed : Addresses failure.before.cache failure.args target) :
    entriesOf failure.after.cache target = entriesOf failure.before.cache target := by
  rw [failure.cache_after]
  cases cached : failure.before.cache with
  | none =>
    rw [cached] at addressed
    exact onError_uncached_restores addressed
  | some items => rw [← cached, onError_cached cached]

theorem Failure.Undisturbed.undoesItself {failure : Failure initial trace} (undisturbed : failure.Undisturbed) :
    failure.UndoesItself := by
  refine ⟨fun target apart => ?_, fun target => failure.restores⟩
  rw [failure.cache_after]
  cases cached : failure.before.cache with
  | none =>
    rw [cached] at apart
    exact onError_uncached_keeps apart
  | some items =>
    obtain uncached | same := undisturbed
    · rw [uncached] at cached
      cases cached
    · rw [← cached, onError_cached cached, same target apart]

/-- In every run, a failed mutation undoes itself and nothing else if and only if no response was cached
when it started, or the other targets in it are what they were then. -/
theorem failure_undoes_itself_iff (initial : Cache) (trace : List Step) (failure : Failure initial trace) :
    failure.UndoesItself ↔ failure.Undisturbed := by
  refine ⟨?_, Failure.Undisturbed.undoesItself⟩
  rintro ⟨others, -⟩
  cases cached : failure.before.cache with
  | none => exact .inl cached
  | some items =>
    refine .inr fun target apart => ?_
    rw [← others target apart, failure.cache_after, onError_cached cached]

/-! ## A mutation that has the hook to itself -/

/-- Items that keep their target, and of this one all they have. -/
theorem filter_map_target {items : List HeroTargetLookupItem} {f : HeroTargetLookupItem → HeroTargetLookupItem}
    (keeps : ∀ item, (f item).targetId = item.targetId)
    (same : ∀ item ∈ items, item.targetId = target → f item = item) :
    (items.map f).filter (fun item => item.targetId = target) =
      items.filter fun item => item.targetId = target := by
  rw [List.filter_map]
  simp only [Function.comp_def, keeps]
  refine (List.map_congr_left fun item member => ?_).trans (List.map_id _)
  obtain ⟨listed, ofTarget⟩ := List.mem_filter.mp member
  exact same item listed (of_decide_eq_true ofTarget)

theorem onMutate_keeps_others (others : ¬Addresses cache args target) :
    entriesOf (onMutate args cache) target = entriesOf cache target := by
  cases args with
  | create targetId =>
    have different : targetId ≠ target := fun same => others same.symm
    simp only [onMutate, createOptimistically]
    split
    · cases cache <;> rfl
    · simp [entriesOf, Cache.items, different]
  | update payload =>
    refine filter_map_target (fun item => ?_) fun item listed ofTarget => ?_
    · split <;> rfl
    · have different : item.heroItemId ≠ payload.id := fun same => others ⟨item, listed, ofTarget, same⟩
      exact if_pos different

theorem alone_undoes_itself (failure : Failure initial trace) (alone : failure.between = []) :
    failure.UndoesItself := by
  refine Failure.Undisturbed.undoesItself (.inr fun target apart => ?_)
  obtain ⟨started, starts, continues⟩ := Option.bind_eq_some_iff.mp failure.continues
  rw [alone] at continues
  cases continues
  rw [(start_step starts).1, onMutate_keeps_others apart]

/-! ## Two new items at once -/

def first : Mutation where
  args := .create 1
  previous := some []

def second : Mutation where
  args := .create 2
  previous := some [⟨1, 0, true, false⟩]

/-- Target 2 is confirmed while target 1 is under way, and then target 1 fails. -/
def overlapping : Failure (some [])
    [.start 0 (.create 1), .start 1 (.create 2), .succeed 1 ⟨12, true, false⟩, .fail 0] where
  number := 0
  args := .create 1
  first := []
  between := [.start 1 (.create 2), .succeed 1 ⟨12, true, false⟩]
  rest := []
  before := opened (some [])
  current :=
    { cache := some [⟨1, 0, true, false⟩, ⟨2, 12, true, false⟩]
      running := Function.update (Function.update (Function.update (fun _ => none) 0 (some first)) 1
        (some second)) 1 none }
  after :=
    { cache := some []
      running := Function.update (Function.update (Function.update (Function.update (fun _ => none) 0
        (some first)) 1 (some second)) 1 none) 0 none }
  steps := rfl
  underWay := by simp [Step.settles]
  reaches := rfl
  continues := rfl
  fails := rfl

/-- The confirmed target is lost. -/
theorem overlapping_failure_loses_a_target :
    entriesOf overlapping.current.cache 2 = [⟨2, 12, true, false⟩] ∧ entriesOf overlapping.after.cache 2 = [] ∧
      ¬overlapping.UndoesItself := by
  refine ⟨by decide, by decide, ?_⟩
  rintro ⟨others, -⟩
  have kept := others 2 (by decide)
  revert kept
  decide

/-! ## Other mutations in between -/

def disabling : Mutation where
  args := .update { id := 12, enabled := some false }
  previous := some [⟨2, 12, true, false⟩, ⟨1, 0, true, false⟩]

/-- While target 1 is under way, target 2 is disabled, and that fails too. -/
def bothFail : Failure (some [⟨2, 12, true, false⟩])
    [.start 0 (.create 1), .start 1 disabling.args, .fail 1, .fail 0] where
  number := 0
  args := .create 1
  first := []
  between := [.start 1 disabling.args, .fail 1]
  rest := []
  before := opened (some [⟨2, 12, true, false⟩])
  current :=
    { cache := disabling.previous
      running := Function.update (Function.update (Function.update (fun _ => none) 0
        (some ⟨.create 1, some [⟨2, 12, true, false⟩]⟩)) 1 (some disabling)) 1 none }
  after :=
    { cache := some [⟨2, 12, true, false⟩]
      running := Function.update (Function.update (Function.update (Function.update (fun _ => none) 0
        (some ⟨.create 1, some [⟨2, 12, true, false⟩]⟩)) 1 (some disabling)) 1 none) 0 none }
  steps := rfl
  underWay := by simp [Step.settles]
  reaches := rfl
  continues := rfl
  fails := rfl

/-- The second mutation has undone itself when the first one fails, so the other target is what it was.
-/
theorem bothFail_undisturbed : bothFail.Undisturbed := by
  refine .inr fun target apart => ?_
  have different : ¬(1 : Int) = target := fun same => apart same.symm
  simp [bothFail, disabling, opened, entriesOf, Cache.items, List.filter_cons, different]

/-- The same two new items as before, but nothing was cached when the first one started. -/
def uncached : Failure none
    [.start 0 (.create 1), .start 1 (.create 2), .succeed 1 ⟨12, true, false⟩, .fail 0] where
  number := 0
  args := .create 1
  first := []
  between := [.start 1 (.create 2), .succeed 1 ⟨12, true, false⟩]
  rest := []
  before := opened none
  current :=
    { cache := some [⟨1, 0, true, false⟩, ⟨2, 12, true, false⟩]
      running := Function.update (Function.update (Function.update (fun _ => none) 0
        (some ⟨.create 1, none⟩)) 1 (some second)) 1 none }
  after :=
    { cache := some [⟨2, 12, true, false⟩]
      running := Function.update (Function.update (Function.update (Function.update (fun _ => none) 0
        (some ⟨.create 1, none⟩)) 1 (some second)) 1 none) 0 none }
  steps := rfl
  underWay := by simp [Step.settles]
  reaches := rfl
  continues := rfl
  fails := rfl

/-- Both failures are undisturbed, and the second leaves the confirmed target in the cache. -/
theorem interleaved_failures_undo_themselves :
    bothFail.UndoesItself ∧ uncached.UndoesItself ∧ entriesOf uncached.after.cache 2 = [⟨2, 12, true, false⟩] :=
  ⟨bothFail_undisturbed.undoesItself, Failure.Undisturbed.undoesItself (.inl rfl), by decide⟩

end SogeconApp.Guarantees.HeroControls
