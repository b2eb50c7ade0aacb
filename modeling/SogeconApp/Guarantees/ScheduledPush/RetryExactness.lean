import SogeconApp.Guarantees.ScheduledPush.OneRun

/-!
# Retry exactness

After any interleaving of runs, sweeps, failures and crashes, once nobody is at work and
the log is absent, failed or stale, a run in which nothing is raised acquires the log and
attempts exactly the eligible endpoints whose delivery was absent, pending or failed when
it started: each once, whatever the number of subscriptions, and nothing else.
-/

namespace SogeconApp.Guarantees.ScheduledPush

open Library Program Source.ScheduledPush

/-- The attempts of a run, each with the provider's answers: a claim with its bounded
calls, or one recorded decrypt failure. -/
structure RetriedExactly (me : SessionId) (crypto : Crypto) (logId : LogId) (before after : World)
    (attempts : List (PushSubscription × List (Bool × Option Nat))) : Prop where
  acquired : after.acquirer logId = some me
  exactly : attempts.map Prod.fst = (eligible "event" before).filter fun sub =>
    waiting (committedStatus before ⟨logId, sub.endpointHash⟩)
  once : (attempts.map fun attempt => attempt.1.endpointHash).Nodup
  bounded : ∀ attempt ∈ attempts, CalledFor crypto 3 attempt.1 attempt.2
  nothingElse : after.history = before.history ++
    attempts.flatMap fun attempt => worked ⟨logId, attempt.1.endpointHash⟩ attempt.2
  settled : ∀ attempt ∈ attempts,
    committedStatus after ⟨logId, attempt.1.endpointHash⟩ = some (verdict attempt.2) ∧
      verdict attempt.2 ∈ [.completed, .failed, .unknown]

theorem verdict_settled (answers : List (Bool × Option Nat)) :
    verdict answers ∈ [.completed, .failed, .unknown] := by
  unfold verdict
  split <;> decide

theorem Finished.retriedExactly {me : SessionId} {crypto : Crypto} {logId : LogId} {before after : World}
    {attempts : List (PushSubscription × List (Bool × Option Nat))} (idle : Idle me before)
    (finished : Finished me crypto logId before attempts after) :
    RetriedExactly me crypto logId before after attempts where
  acquired := finished.acquired
  exactly := by
    rw [finished.listed]
    refine List.filter_congr fun sub _ => ?_
    rw [seen_of_idle idle, committedStatus]
  once := by
    have listed : attempts.map (fun attempt => attempt.1.endpointHash) =
        (attempts.map Prod.fst).map (·.endpointHash) := by simp
    rw [listed, finished.listed]
    exact (eligible_unique "event" before).sublist (List.Sublist.map _ List.filter_sublist)
  bounded := finished.called
  nothingElse := finished.history
  settled attempt member := by
    have status := finished.finished attempt member
    rw [seen_of_idle finished.idle] at status
    exact ⟨status, verdict_settled attempt.2⟩

/-- From any state between two runs, whatever a crash has left there, a run that acquires its log
attempts exactly the eligible deliveries that wait for it, each of them once. Every attempt settles its
delivery by what the provider answered. -/
theorem retry_exact (world : World) (between : BetweenRuns world) (me : SessionId) (crypto : Crypto)
    (event : Event) (dType : DType) (available : Available ⟨event.id, dType⟩ world)
    (choices : Nat → Choice) (fine : ∀ n, (choices n).fails = none) :
    ∃ result after attempts,
      machine.eval me (processSingleEvent crypto event dType) choices world = some (.ok result, after) ∧
        result.skipped = false ∧ RetriedExactly me crypto ⟨event.id, dType⟩ world after attempts := by
  have idle := between.atRest.idle me
  have run := @processSingleEvent_recorded me (fun choice => choice.fails = none) world crypto event dType idle
  obtain ⟨out, after, done, outcome⟩ := Machine.eval_of_recorded run fine
  cases out with
  | error reason => exact absurd outcome.1 not_canRaise
  | ok result =>
    have returned : Returned me _ crypto ⟨event.id, dType⟩ world result.skipped (after, _) := outcome
    rw [List.nil_append] at returned
    generalize machine.exceptions me _ choices world = raised at returned
    cases kept : result.skipped with
    | true =>
      rw [kept] at returned
      cases returned with
      | skipped taken _ => exact absurd available taken
    | false =>
      rw [kept] at returned
      cases returned with
      | handled handled => exact absurd handled.canRaise not_canRaise
      | finished attempts finished =>
        exact ⟨result, after, attempts, done, kept, finished.retriedExactly idle⟩

/-! ## A crash before the claim -/

/-- The worker has prepared the deliveries and crashes; its log grows stale. -/
def crashBeforeClaim : List (Action machine) :=
  List.replicate 15 (.exec 0 {}) ++ [.crash 0, .outside (.tick 2000)]

/-- Nobody is at work once the workers that were started have ended. -/
theorem meetingWorkers_between {world : World} {count : Nat} {actions : List (Action machine)}
    {config : Config machine Unit} (fresh : Fresh world)
    (reached : (start world (meetingWorkers count)).run actions = some config)
    (ended : ∀ me < count, config.pool me = none) : BetweenRuns config.world := by
  refine ⟨world, _, actions, config, fresh, reached, fun me => ?_, rfl⟩
  by_cases started : me < count
  · exact ended me started
  · exact Config.run_closed reached (by simp [start, meetingWorkers, started])

set_option maxRecDepth 10000 in
theorem retry_exact_crash : ∃ world result after attempts, BetweenRuns world ∧
    (world.logs.committed ⟨7, .d3⟩).map (·.status) = some .inProgress ∧
    committedStatus world ⟨⟨7, .d3⟩, "hash"⟩ = some .pending ∧
    machine.eval 1 (processSingleEvent plainCrypto meeting .d3) (fun _ => { answer := (true, some 201) }) world =
      some (.ok result, after) ∧
    result.skipped = false ∧ RetriedExactly 1 plainCrypto ⟨7, .d3⟩ world after attempts := by
  have facts : ((start oneSubscriber (meetingWorkers 1)).run crashBeforeClaim).map (fun after =>
      ((after.pool 0).isNone, (after.world.logs.committed ⟨7, .d3⟩).map fun row => (row.status, row.updatedAt),
        after.world.clock, committedStatus after.world ⟨⟨7, .d3⟩, "hash"⟩)) =
      some (true, some (.inProgress, 1000), 3000, some .pending) := by rfl
  obtain ⟨config, reached, same⟩ := Option.map_eq_some_iff.mp facts
  simp only [Prod.mk.injEq] at same
  obtain ⟨closed, log, clock, pending⟩ := same
  have between : BetweenRuns config.world := by
    refine meetingWorkers_between (fresh_blank _ _ _) reached fun me started => ?_
    obtain rfl : me = 0 := by omega
    exact Option.isNone_iff_eq_none.mp closed
  have available : Available ⟨7, .d3⟩ config.world := by
    intro row stored
    rw [stored] at log
    simp only [Option.map_some, Option.some.injEq, Prod.mk.injEq] at log
    refine .inr ?_
    simp [isStale, log.1, log.2, clock, scheduledLogStaleAfter]
  obtain ⟨result, after, attempts, done, kept, exact_⟩ :=
    retry_exact config.world between 1 plainCrypto meeting .d3 available
      (fun _ => { answer := (true, some 201) }) fun _ => rfl
  have status : (config.world.logs.committed ⟨7, .d3⟩).map (·.status) = some .inProgress := by
    obtain ⟨row, stored, same⟩ := Option.map_eq_some_iff.mp log
    rw [stored, Option.map_some]
    simp only [Prod.mk.injEq] at same
    rw [same.1]
  exact ⟨config.world, result, after, attempts, between, status, pending, done, kept, exact_⟩

end SogeconApp.Guarantees.ScheduledPush
