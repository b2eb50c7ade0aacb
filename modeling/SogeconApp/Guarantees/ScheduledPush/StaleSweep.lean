import SogeconApp.Guarantees.ScheduledPush.Alone
import SogeconApp.Library.Sequential

/-!
# The sweep of all stale logs and the sweep of one

`reclaim_stale_logs` finalizes every stale log in one transaction, `reclaim_stale_log` one log in a
transaction of its own. What a session sees of the two tables is followed row by row: finalizing a log fails
it with the counts of its deliveries, of which a claim that is still open becomes unknown, and leaves every
other row. An unknown delivery counts as an open claim does, so the counts of the other logs and of a log that
was finalized are what they were, and the order of the logs does not matter.
-/

namespace SogeconApp.Guarantees.ScheduledPush

open Library Program Source.ScheduledPush

/-! ## What a session sees -/

/-- The rows of the two tables, and the counts of the deliveries. -/
structure View where
  log : LogId → Option ScheduledNotificationLog
  delivery : DeliveryId → Option ScheduledNotificationDelivery
  counts : LogId → DeliveryCounts

def view (me : SessionId) (world : World) : View where
  log := world.logs.row me
  delivery := world.deliveries.row me
  counts := deliveryCounts me world.deliveries

/-- These logs are finalized, and nothing else is changed. -/
structure Reclaimed (logs : List LogId) (before after : View) : Prop where
  logRows : ∀ log ∈ logs, ∃ now, after.log log = (before.log log).map (failedLog now (before.counts log))
  otherLogs : ∀ log, log ∉ logs → after.log log = before.log log
  deliveryRows : ∀ delivery, delivery.log ∈ logs →
    ∃ now, after.delivery delivery = (before.delivery delivery).map (expiredRow now)
  otherDeliveries : ∀ delivery, delivery.log ∉ logs → after.delivery delivery = before.delivery delivery
  counts : after.counts = before.counts

variable {me : SessionId} {may : Choice → Prop} {world start after : World} {logId : LogId}
  {logs first second : List LogId} {before middle last : View}

theorem Reclaimed.refl (view : View) : Reclaimed [] view view :=
  ⟨by simp, fun _ _ => rfl, by simp, fun _ _ => rfl, rfl⟩

/-- Logs that are finalized one after the other are finalized together: neither touches the counts of
the other. -/
theorem Reclaimed.trans (one : Reclaimed first before middle) (two : Reclaimed second middle last) :
    Reclaimed (first ++ second) before last where
  logRows log member := by
    by_cases later : log ∈ second
    · obtain ⟨now, row⟩ := two.logRows log later
      rw [row, one.counts]
      by_cases earlier : log ∈ first
      · obtain ⟨now', row'⟩ := one.logRows log earlier
        rw [row', Option.map_map]
        exact ⟨now, rfl⟩
      · rw [one.otherLogs log earlier]
        exact ⟨now, rfl⟩
    · rw [two.otherLogs log later]
      exact one.logRows log ((List.mem_append.mp member).resolve_right later)
  otherLogs log absent := by
    rw [List.mem_append, not_or] at absent
    rw [two.otherLogs log absent.2, one.otherLogs log absent.1]
  deliveryRows delivery member := by
    by_cases later : delivery.log ∈ second
    · by_cases earlier : delivery.log ∈ first
      · exact expired_twice (one.deliveryRows delivery earlier) (two.deliveryRows delivery later)
      · rw [← one.otherDeliveries delivery earlier]
        exact two.deliveryRows delivery later
    · rw [two.otherDeliveries delivery later]
      exact one.deliveryRows delivery ((List.mem_append.mp member).resolve_right later)
  otherDeliveries delivery absent := by
    rw [List.mem_append, not_or] at absent
    rw [two.otherDeliveries delivery absent.2, one.otherDeliveries delivery absent.1]
  counts := two.counts.trans one.counts

/-! ## Finalizing one log -/

/-- A transaction in which these logs have been finalized. -/
structure Sweeping (me : SessionId) (logs : List LogId) (start after : World) : Prop where
  working : Working me after
  attempt : after.attempt = start.attempt
  intent : ∀ other, other ≠ me → after.intent other = start.intent other
  reclaimed : Reclaimed logs (view me start) (view me after)
  committed : ∀ log, after.logs.committed log = start.logs.committed log

theorem Sweeping.trans {middle : World} (one : Sweeping me first start middle)
    (two : Sweeping me second middle after) :
    Sweeping me (first ++ second) start after where
  working := two.working
  attempt := two.attempt.trans one.attempt
  intent other different := (two.intent other different).trans (one.intent other different)
  reclaimed := one.reclaimed.trans two.reclaimed
  committed log := (two.committed log).trans (one.committed log)

theorem Sweeping.tick (working : Working me world) (seconds : Nat) :
    Sweeping me [] world (world.tick seconds) where
  working := working.tick seconds
  attempt := rfl
  intent _ _ := rfl
  reclaimed := Reclaimed.refl _
  committed _ := rfl

/-- One `UPDATE` of a log, as the session sees it. -/
theorem updateLog_rows (logId : LogId) (cond : ScheduledNotificationLog → Bool)
    (change : ScheduledNotificationLog → ScheduledNotificationLog) (working : Working me world) :
    ∃ logs, updateLog me logId cond change world =
        some (((world.logs.row me logId).map cond).getD false, { world with logs }) ∧
      logs.Only me ∧ (∀ log, logs.committed log = world.logs.committed log) ∧ ∀ log, logs.row me log =
        if log = logId then (world.logs.row me log).map fun row => if cond row then change row else row
        else world.logs.row me log := by
  obtain ⟨logs, updated, only, rows⟩ := working.logs.updateRow_rows logId cond change
  refine ⟨logs, ?_, only, fun log => (Table.updateRow_drafts updated).committed log, rows⟩
  rw [updateLog, updated]
  rfl

/-- To finalize a log fails it with its counts and expires its open claims. -/
theorem finalizeStaleLog_sweeps (working : Working me world) :
    (finalizeStaleLog logId).Ensures (machine.alone me may)
      (fun _ after => Sweeping me [logId] world after) (Raised me may world) world := by
  unfold finalizeStaleLog
  simp only [bind_eq, ensures_bind, pure_eq, ensures_ret]
  refine (expireClaims_rows working).weaken ?_ fun _ _ raised => raised
  rintro _ expired_ ⟨still, aside, rows, others⟩
  have counts : deliveryCounts me expired_.deliveries = deliveryCounts me world.deliveries := by
    refine deliveryCounts_eq_of_expired fun delivery => ?_
    by_cases ofLog : delivery.log = logId
    · obtain ⟨now, row⟩ := rows delivery ofLog
      rw [row, status_expiredRow]
      exact .inr rfl
    · rw [others delivery ofLog]
      exact .inl rfl
  have same (log : LogId) : expired_.logs.committed log = world.logs.committed log := by rw [aside.logs]
  refine Ensures.weaken (read_alone (.countDeliveries logId) (deliveryCounts me expired_.deliveries logId) still
    fun _ _ => rfl) ?_ fun _ _ raised => raised.of_same same
  rintro _ _ ⟨rfl, seconds, rfl⟩
  refine Ensures.weaken (ask_alone (.finishLog logId _) (still.tick seconds) ?_) (fun _ _ done => done)
    fun _ _ raised => raised.of_tick.of_same same
  intro choice later
  obtain ⟨written, done, only, committed, logRows⟩ := updateLog_rows logId (fun _ => true)
    (failedLog ((expired_.tick seconds).tick later).clock (deliveryCounts me expired_.deliveries logId))
    ((still.tick seconds).tick later)
  have read (log : LogId) : written.row me log =
      if log = logId then (world.logs.row me log).map (failedLog ((expired_.tick seconds).tick later).clock
        (deliveryCounts me world.deliveries logId))
      else world.logs.row me log := by
    rw [logRows, counts]
    simp only [if_true, World.tick, aside.logs]
  refine ⟨(), { (expired_.tick seconds).tick later with logs := written }, by simp [answer, done], ?_⟩
  refine ⟨⟨only, still.deliveries⟩, aside.attempt, fun other _ => congrFun aside.intent other, ?_,
    fun log => (committed log).trans (same log)⟩
  refine ⟨fun log member => ?_, fun log absent => ?_, fun delivery member => ?_,
    fun delivery absent => ?_, counts⟩
  · rw [List.mem_singleton.mp member]
    exact ⟨((expired_.tick seconds).tick later).clock, (read logId).trans (if_pos rfl)⟩
  · rw [List.mem_singleton] at absent
    exact (read log).trans (if_neg absent)
  · exact rows delivery (List.mem_singleton.mp member)
  · rw [List.mem_singleton] at absent
    exact others delivery absent

/-! ## The end of a transaction -/

theorem view_commit (working : Working me world) : view me (world.commit me) = view me world := by
  have logRow (log : LogId) : (world.logs.commit me).row me log = world.logs.row me log :=
    (working.logs.commit_quiet.row_eq me log).trans working.logs.committed_commit
  have deliveryRow (delivery : DeliveryId) :
      (world.deliveries.commit me).row me delivery = world.deliveries.row me delivery :=
    (working.deliveries.commit_quiet.row_eq me delivery).trans working.deliveries.committed_commit
  have counts : deliveryCounts me (world.deliveries.commit me) = deliveryCounts me world.deliveries :=
    deliveryCounts_eq_of_expired fun delivery => .inl (by rw [deliveryRow])
  simp only [view, World.commit]
  rw [funext logRow, funext deliveryRow, counts]

/-- The transaction commits, and nobody has one open. -/
theorem Sweeping.commit (rest : AtRest start) (sweeping : Sweeping me logs start world) :
    (ask .commit).Ensures (machine.alone me may)
      (fun _ after => AtRest after ∧ Reclaimed logs (view me start) (view me after))
        (Raised me may start) world := by
  refine (commit_alone sweeping.working).weaken ?_ fun _ _ raised => raised.of_same sweeping.committed
  rintro _ _ ⟨seconds, rfl⟩
  have working := sweeping.working.tick seconds
  have attempt : world.attempt me = .idle := by rw [sweeping.attempt, rest.attempt me]
  refine ⟨⟨working.logs.commit_quiet, working.deliveries.commit_quiet, fun other => ?_, fun other => ?_⟩, ?_⟩
  · have here : (world.tick seconds).attempt me = .idle := attempt
    simp only [World.commit, here, World.attemptCommitted]
    by_cases same : other = me
    · rw [same, Function.update_self]
    · rw [Function.update_of_ne same]
      exact (congrFun sweeping.attempt other).trans (rest.attempt other)
  · by_cases same : other = me
    · rw [same]
      exact Function.update_self ..
    · exact (Function.update_of_ne same ..).trans ((sweeping.intent other same).trans (rest.intent other))
  · rw [view_commit working]
    exact sweeping.reclaimed

/-! ## One log -/

/-- The log is stale, as the store has it. -/
def StaleIn (cutoff : Nat) (world : World) (logId : LogId) : Prop :=
  ∃ row, world.logs.committed logId = some row ∧ isStale cutoff row = true

/-- The log is marked failed, and its deliveries are still to be worked off. -/
structure Taken (me : SessionId) (logId : LogId) (row : ScheduledNotificationLog)
    (start after : World) : Prop where
  working : Working me after
  attempt : after.attempt = start.attempt
  intent : ∀ other, other ≠ me → after.intent other = start.intent other
  committed : ∀ log, after.logs.committed log = start.logs.committed log
  deliveries : after.deliveries = start.deliveries
  marked : ∃ now, after.logs.row me logId = some { row with status := .failed, updatedAt := now }
  others : ∀ log, log ≠ logId → after.logs.row me log = start.logs.row me log

theorem takeStaleLog_rows {row : ScheduledNotificationLog} (cutoff : Nat) (working : Working me world)
    (read : world.logs.row me logId = some row) (stale : isStale cutoff row = true) :
    (ask (.takeStaleLog logId cutoff)).Ensures (machine.alone me may)
      (fun taken after => taken = true ∧ Taken me logId row world after) (Raised me may world) world := by
  refine ask_alone _ working fun choice seconds => ?_
  let now := (world.tick seconds).clock
  obtain ⟨written, done, only, committed, rows⟩ := updateLog_rows logId (isStale cutoff)
    (fun row => { row with status := .failed, updatedAt := now }) (working.tick seconds)
  have hit : ((world.tick seconds).logs.row me logId).map (isStale cutoff) = some true := by
    simp [World.tick, read, stale]
  refine ⟨true, { world.tick seconds with
    logs := written, intent := Function.update (world.tick seconds).intent me .reclaim }, ?_, rfl, ?_⟩
  · rw [hit] at done
    simp only [answer, now] at done ⊢
    rw [done]
    rfl
  · refine ⟨⟨only, working.deliveries⟩, rfl, fun other different => Function.update_of_ne different ..,
      committed, rfl,
      ⟨now, ?_⟩, fun log different => ?_⟩
    · have here := rows logId
      rw [if_pos rfl] at here
      rw [here]
      simp [World.tick, read, stale]
    · rw [rows, if_neg different]
      rfl

theorem Taken.finalized {row : ScheduledNotificationLog} {current : World}
    (taken : Taken me logId row world current)
    (read : world.logs.row me logId = some row) (sweeping : Sweeping me [logId] current after) :
    Sweeping me [logId] world after where
  working := sweeping.working
  attempt := sweeping.attempt.trans taken.attempt
  intent other different := (sweeping.intent other different).trans (taken.intent other different)
  committed log := (sweeping.committed log).trans (taken.committed log)
  reclaimed := by
    obtain ⟨logRows, otherLogs, deliveryRows, otherDeliveries, counts⟩ := sweeping.reclaimed
    have deliveries : (view me current).delivery = (view me world).delivery := by
      simp only [view, taken.deliveries]
    have counted : (view me current).counts = (view me world).counts := by
      simp only [view, taken.deliveries]
    rw [deliveries] at deliveryRows otherDeliveries
    rw [counted] at logRows counts
    refine ⟨fun log member => ?_, fun log absent => ?_, deliveryRows, otherDeliveries, counts⟩
    · obtain ⟨now, finished⟩ := logRows log member
      obtain ⟨taken_, marked⟩ := taken.marked
      have before : (view me world).log log = some row := by rwa [List.mem_singleton.mp member]
      have between : (view me current).log log = some { row with status := .failed, updatedAt := taken_ } := by
        rwa [List.mem_singleton.mp member]
      refine ⟨now, ?_⟩
      rw [finished, between, before]
      rfl
    · rw [List.mem_singleton] at absent
      exact (otherLogs log (by simpa using absent)).trans (taken.others log absent)

/-- `reclaim_stale_log` of a stale log finalizes it. -/
theorem reclaimStaleLog_sweeps (cutoff : Nat) (rest : AtRest world) (stale : StaleIn cutoff world logId) :
    (reclaimStaleLog logId cutoff).Ensures (machine.alone me may)
      (fun taken after => taken = true ∧ AtRest after ∧ Reclaimed [logId] (view me world) (view me after))
      (Raised me may world) world := by
  obtain ⟨row, stored, old⟩ := stale
  have read : world.logs.row me logId = some row := (rest.logs.row_eq me logId).trans stored
  unfold reclaimStaleLog
  rw [bind_eq, ensures_bind]
  refine (takeStaleLog_rows cutoff (rest.idle me).working read old).weaken ?_ fun _ _ raised => raised
  rintro _ current ⟨rfl, taken⟩
  rw [if_pos rfl]
  simp only [bind_eq, ensures_bind, pure_eq, ensures_ret]
  refine (finalizeStaleLog_sweeps taken.working).weaken ?_ fun _ _ raised => raised.of_same taken.committed
  intro _ finished sweeping
  refine (Sweeping.commit rest (taken.finalized read sweeping)).weaken ?_ fun _ _ raised => raised
  rintro _ after ⟨again, reclaimed⟩
  exact ⟨trivial, again, reclaimed⟩

/-! ## All stale logs -/

/-- `FOR UPDATE` of a stale log: it is locked, and no row is changed. -/
theorem lockStaleLog_sweeps {row : ScheduledNotificationLog} (cutoff : Nat) (working : Working me world)
    (read : world.logs.row me logId = some row) (stale : isStale cutoff row = true) :
    (lockStaleLog cutoff logId).Ensures (machine.alone me may)
      (fun found after => found = some logId ∧ Sweeping me [] world after) (Raised me may world) world := by
  unfold lockStaleLog
  simp only [bind_eq, ensures_bind, pure_eq, ensures_ret]
  refine ask_alone _ working fun choice seconds => ?_
  have locks := working.logs.lockRow logId (isStale cutoff)
  rw [read] at locks
  simp only [stale, if_true] at locks
  refine ⟨true, { world.tick seconds with
    logs := world.logs.write me logId (some row)
    intent := Function.update (world.tick seconds).intent me .reclaim }, ?_, if_pos rfl, ?_⟩
  · simp [answer, World.tick, locks]
  · have rows (log : LogId) : (world.logs.write me logId (some row)).row me log = world.logs.row me log := by
      rw [Table.row_write]
      by_cases same : log = logId
      · rw [if_pos same, same, read]
      · rw [if_neg same]
    exact ⟨⟨working.logs.write _ _, working.deliveries⟩, rfl, fun other different =>
      Function.update_of_ne different ..,
      ⟨by simp, fun log _ => rows log, by simp, fun _ _ => rfl, rfl⟩, fun log => Table.write_committed⟩

/-- The loop over the candidates finalizes all of them, since they are stale. -/
theorem lockStaleLogs_sweeps (cutoff : Nat) {candidates : List LogId} (working : Working me world)
    (stale : ∀ log ∈ candidates, ∃ row, world.logs.row me log = some row ∧ isStale cutoff row = true) :
    (collectEach (lockStaleLog cutoff) candidates).Ensures (machine.alone me may)
      (fun found after => found = candidates ∧ Sweeping me [] world after) (Raised me may world) world := by
  induction candidates generalizing world with
  | nil => exact ⟨rfl, working, rfl, fun _ _ => rfl, Reclaimed.refl _, fun _ => rfl⟩
  | cons log rest ih =>
    simp only [collectEach, bind_eq, ensures_bind, pure_eq, ensures_ret]
    obtain ⟨row, read, old⟩ := stale log List.mem_cons_self
    refine (lockStaleLog_sweeps cutoff working read old).weaken ?_ fun _ _ raised => raised
    rintro _ locked ⟨rfl, sweeping⟩
    have still (other : LogId) (member : other ∈ rest) :
        ∃ row, locked.logs.row me other = some row ∧ isStale cutoff row = true := by
      obtain ⟨row, read, old⟩ := stale other (List.mem_cons_of_mem _ member)
      refine ⟨row, ?_, old⟩
      exact (sweeping.reclaimed.otherLogs other List.not_mem_nil).trans read
    refine (ih sweeping.working still).weaken ?_ fun _ _ raised => raised.of_same sweeping.committed
    rintro _ after ⟨rfl, others⟩
    exact ⟨rfl, sweeping.trans others⟩

/-- The stale logs, in the order of the table. -/
def staleLogs (cutoff : Nat) (world : World) : List LogId :=
  world.logs.keys.filter fun log => ((world.logs.committed log).map (isStale cutoff)).getD false

theorem mem_staleLogs {cutoff : Nat} : logId ∈ staleLogs cutoff world ↔ StaleIn cutoff world logId := by
  rw [staleLogs, List.mem_filter, StaleIn]
  constructor
  · rintro ⟨-, old⟩
    cases stored : world.logs.committed logId with
    | none => simp [stored] at old
    | some row => exact ⟨row, rfl, by simpa [stored] using old⟩
  · rintro ⟨row, stored, old⟩
    exact ⟨Table.mem_keys_of_committed stored, by simp [stored, old]⟩

theorem staleLogs_nodup (cutoff : Nat) (world : World) : (staleLogs cutoff world).Nodup :=
  world.logs.nodup.filter _

theorem select_stale (cutoff : Nat) (quiet : world.logs.Quiet) (me : SessionId) :
    world.logs.select me (fun _ => isStale cutoff) = staleLogs cutoff world := by
  unfold Table.select staleLogs
  refine List.filter_congr fun log _ => ?_
  rw [Table.holds, quiet.row_eq me log]
  cases world.logs.committed log with
  | none => rfl
  | some row => rfl

/-- `reclaim_stale_logs` finalizes all stale logs and returns how many they are. -/
theorem reclaimStaleLogs_sweeps (cutoff : Nat) (rest : AtRest world) :
    (reclaimStaleLogs cutoff).Ensures (machine.alone me may)
      (fun count after => count = (staleLogs cutoff world).length ∧ AtRest after ∧
        Reclaimed (staleLogs cutoff world) (view me world) (view me after))
      (Raised me may world) world := by
  have working := (rest.idle me).working
  unfold reclaimStaleLogs
  simp only [bind_eq, ensures_bind]
  refine Ensures.weaken (read_alone (.selectStaleLogs cutoff) (staleLogs cutoff world) working ?_) ?_
    fun _ _ raised => raised
  · intro choice seconds
    exact congrArg (fun logs => some (logs, world.tick seconds)) (select_stale cutoff rest.logs me)
  · rintro _ _ ⟨rfl, seconds, rfl⟩
    have stale (log : LogId) (member : log ∈ staleLogs cutoff world) :
        ∃ row, (world.tick seconds).logs.row me log = some row ∧ isStale cutoff row = true := by
      obtain ⟨row, stored, old⟩ := mem_staleLogs.mp member
      exact ⟨row, (rest.logs.row_eq me log).trans stored, old⟩
    refine (lockStaleLogs_sweeps cutoff (working.tick seconds) stale).weaken ?_ fun _ _ raised => raised.of_tick
    rintro _ locked ⟨rfl, begun⟩
    have begun := (Sweeping.tick working seconds).trans begun
    have finish {current : World} (sweeping : Sweeping me (staleLogs cutoff world) world current) {count : Nat}
        (counted : count = (staleLogs cutoff world).length) :
        (ask .commit >>= fun _ => pure count).Ensures (machine.alone me may)
          (fun count after => count = (staleLogs cutoff world).length ∧ AtRest after ∧
            Reclaimed (staleLogs cutoff world) (view me world) (view me after))
              (Raised me may world) current := by
      rw [bind_eq, ensures_bind]
      refine (Sweeping.commit rest sweeping).weaken ?_ fun _ _ raised => raised
      rintro _ after ⟨again, reclaimed⟩
      exact ⟨counted, again, reclaimed⟩
    split
    · next none_ =>
      refine finish ?_ (by rw [none_]; rfl)
      rw [none_]
      exact begun
    · rw [ensures_bind]
      refine Ensures.weaken (ensures_forEach (fun done => Sweeping me done world) (staleLogs cutoff world)
        [] begun ?_) ?_
        fun _ _ raised => raised
      · intro log _ done current sweeping
        simp only [ensures_bind, pure_eq, ensures_ret]
        refine (finalizeStaleLog_sweeps sweeping.working).weaken (fun _ after here => sweeping.trans here) ?_
        exact fun _ _ raised => raised.of_same sweeping.committed
      · intro _ swept sweeping
        exact finish sweeping rfl

/-! ## In any order -/

/-- Nobody has a transaction open, so every session sees the same. -/
theorem AtRest.view_eq (rest : AtRest world) (me me' : SessionId) : view me world = view me' world := by
  have counts : deliveryCounts me world.deliveries = deliveryCounts me' world.deliveries :=
    deliveryCounts_eq_of_expired fun delivery => by
      rw [rest.deliveries.row_eq me, rest.deliveries.row_eq me']
      exact .inl rfl
  have logs : world.logs.row me = world.logs.row me' :=
    funext fun log => (rest.logs.row_eq me log).trans (rest.logs.row_eq me' log).symm
  have deliveries : world.deliveries.row me = world.deliveries.row me' :=
    funext fun delivery => (rest.deliveries.row_eq me delivery).trans (rest.deliveries.row_eq me' delivery).symm
  rw [view, view, logs, deliveries, counts]

theorem AtRest.leave (rest : AtRest world) (me : SessionId) :
    AtRest (world.leave me) ∧ view me (world.leave me) = view me world := by
  have logs : world.logs.abort me = world.logs := rest.logs.abort_eq
  have deliveries : world.deliveries.abort me = world.deliveries := rest.deliveries.abort_eq
  refine ⟨⟨?_, ?_, fun other => ?_, fun other => ?_⟩, ?_⟩
  · simp only [World.leave, World.rollback, logs]
    exact rest.logs
  · simp only [World.leave, World.rollback, deliveries]
    exact rest.deliveries
  · by_cases same : other = me
    · rw [same]
      exact Function.update_self ..
    · exact (Function.update_of_ne same ..).trans (rest.attempt other)
  · by_cases same : other = me
    · rw [same]
      exact Function.update_self ..
    · exact (Function.update_of_ne same ..).trans (rest.intent other)
  · simp only [view, World.leave, World.rollback, logs, deliveries]

/-- Nothing raises. -/
def Answered (choices : Nat → Choice) : Prop := ∀ index, (choices index).fails = none

/-- One call of `reclaim_stale_log` after the other, each for another stale log. -/
theorem reclaimStaleLog_turns (cutoff : Nat) {turns : List (Turn machine LogId)} (rest : AtRest world)
    (answered : ∀ turn ∈ turns, Answered turn.choices) (distinct : (turns.map (·.request)).Nodup)
    (stale : ∀ turn ∈ turns, StaleIn cutoff world turn.request) :
    ∃ last, machine.turns (fun logId => reclaimStaleLog logId cutoff) turns world = some last ∧ AtRest last ∧
      Reclaimed (turns.map (·.request)) (view me world) (view me last) := by
  induction turns generalizing world with
  | nil => exact ⟨world, rfl, rest, Reclaimed.refl _⟩
  | cons turn turns ih =>
    obtain ⟨fresh, distinct⟩ := List.nodup_cons.mp distinct
    have ensures : (reclaimStaleLog turn.request cutoff).Ensures
        (machine.alone turn.me fun choice => choice.fails = none) _ _ _ :=
      reclaimStaleLog_sweeps cutoff rest (stale turn List.mem_cons_self)
    obtain ⟨out, after, done, result⟩ := Machine.eval_of_ensures ensures (answered turn List.mem_cons_self)
    cases out with
    | error reason => exact absurd result.1 not_canRaise
    | ok taken =>
      obtain ⟨-, again, reclaimed⟩ := result
      obtain ⟨left, seenLeft⟩ := again.leave turn.me
      rw [← seenLeft, rest.view_eq turn.me me, left.view_eq turn.me me] at reclaimed
      have still (later : Turn machine LogId) (member : later ∈ turns) :
          StaleIn cutoff (after.leave turn.me) later.request := by
        obtain ⟨row, stored, old⟩ := stale later (List.mem_cons_of_mem _ member)
        have different : later.request ∉ [turn.request] := by
          intro same
          rw [List.mem_singleton] at same
          exact fresh (List.mem_map.mpr ⟨later, member, same⟩)
        have kept := reclaimed.otherLogs later.request different
        simp only [view, left.logs.row_eq, rest.logs.row_eq] at kept
        exact ⟨row, kept.trans stored, old⟩
      obtain ⟨last, served, settled, others⟩ :=
        ih left (fun later member => answered later (List.mem_cons_of_mem _ member)) distinct still
      refine ⟨last, ?_, settled, reclaimed.trans others⟩
      rw [Machine.turns, done]
      exact served

/-! ## The two sweeps -/

/-- The same logs and deliveries but for the times at which they were written. -/
structure SameFields (one other : World) : Prop where
  logs : ∀ log, (one.logs.committed log).map (fun row => { row with updatedAt := 0 }) =
    (other.logs.committed log).map fun row => { row with updatedAt := 0 }
  deliveries : ∀ delivery, (one.deliveries.committed delivery).map (fun row => { row with finishedAt := none }) =
    (other.deliveries.committed delivery).map fun row => { row with finishedAt := none }

/-- Two sweeps of the same logs leave the same rows, apart from the times at which they were written. -/
theorem Reclaimed.sameFields {one other : World} (same : ∀ log, log ∈ first ↔ log ∈ second) (rest : AtRest one)
    (rest' : AtRest other) (left : Reclaimed first (view me world) (view me one))
    (right : Reclaimed second (view me world) (view me other)) : SameFields one other := by
  have timeless (now now' : Nat) (row : ScheduledNotificationDelivery) :
      { expiredRow now row with finishedAt := none } = { expiredRow now' row with finishedAt := none } := by
    by_cases running : row.status = .inProgress
    · simp [expiredRow, running]
    · simp [expiredRow, running]
  constructor
  · intro log
    rw [← rest.logs.row_eq me, ← rest'.logs.row_eq me]
    by_cases member : log ∈ first
    · obtain ⟨now, row⟩ := left.logRows log member
      obtain ⟨now', row'⟩ := right.logRows log ((same log).mp member)
      simp only [view] at row row'
      rw [row, row', Option.map_map, Option.map_map]
      rfl
    · have row := left.otherLogs log member
      have row' := right.otherLogs log fun listed => member ((same log).mpr listed)
      simp only [view] at row row'
      rw [row, row']
  · intro delivery
    rw [← rest.deliveries.row_eq me, ← rest'.deliveries.row_eq me]
    by_cases member : delivery.log ∈ first
    · obtain ⟨now, row⟩ := left.deliveryRows delivery member
      obtain ⟨now', row'⟩ := right.deliveryRows delivery ((same _).mp member)
      simp only [view] at row row'
      rw [row, row', Option.map_map, Option.map_map]
      exact congrArg (fun change => Option.map change _) (funext fun row => timeless now now' row)
    · have row := left.otherDeliveries delivery member
      have row' := right.otherDeliveries delivery fun listed => member ((same _).mpr listed)
      simp only [view] at row row'
      rw [row, row']

/-- A log is finalized by being marked failed, which a stale log is not. -/
theorem Reclaimed.changed_iff {cutoff : Nat} (rest : AtRest world) (rest' : AtRest after)
    (reclaimed : Reclaimed (staleLogs cutoff world) (view me world) (view me after)) (log : LogId) :
    log ∈ staleLogs cutoff world ↔ after.logs.committed log ≠ world.logs.committed log := by
  rw [← rest.logs.row_eq me, ← rest'.logs.row_eq me]
  constructor
  · intro member same
    obtain ⟨now, row⟩ := reclaimed.logRows log member
    obtain ⟨stored, found, old⟩ := mem_staleLogs.mp member
    rw [← rest.logs.row_eq me] at found
    simp only [view] at row
    rw [same, found, Option.map_some] at row
    have status : stored.status = .failed := congrArg (·.status) (Option.some.inj row)
    simp [isStale, status] at old
  · intro differs
    by_contra absent
    exact differs (reclaimed.otherLogs log absent)

/-- With no concurrent writer the sweep of all stale logs leaves what one sweep for each of them leaves, in any
order, by whichever sessions; every other log and its deliveries are as they were, and what it returns is
the number of the logs that it changed. -/
theorem stale_sweep_equals_single_sweeps (rest : AtRest world) (cutoff : Nat) (me : SessionId)
    {choices : Nat → Choice} (answered : Answered choices) :
    ∃ count after, machine.eval me (reclaimStaleLogs cutoff) choices world = some (.ok count, after) ∧
      (∀ turns : List (Turn machine LogId), (∀ turn ∈ turns, Answered turn.choices) →
        (turns.map (·.request)).Nodup → (∀ log, log ∈ turns.map (·.request) ↔ StaleIn cutoff world log) →
        ∃ last, machine.turns (fun logId => reclaimStaleLog logId cutoff) turns world = some last ∧
          SameFields after last) ∧
      (∀ log, ¬StaleIn cutoff world log → after.logs.committed log = world.logs.committed log ∧
        ∀ delivery, delivery.log = log →
          after.deliveries.committed delivery = world.deliveries.committed delivery) ∧
      ∃ changed : List LogId, changed.Nodup ∧ changed.length = count ∧
        ∀ log, log ∈ changed ↔ after.logs.committed log ≠ world.logs.committed log := by
  have ensures : (reclaimStaleLogs cutoff).Ensures (machine.alone me fun choice => choice.fails = none) _ _ _ :=
    reclaimStaleLogs_sweeps cutoff rest
  obtain ⟨out, after, done, result⟩ := Machine.eval_of_ensures ensures answered
  cases out with
  | error reason => exact absurd result.1 not_canRaise
  | ok count =>
    obtain ⟨counted, again, reclaimed⟩ := result
    refine ⟨count, after, done, fun turns quiet distinct stale => ?_, fun log fresh => ?_,
      staleLogs cutoff world, staleLogs_nodup cutoff world, counted.symm, reclaimed.changed_iff rest again⟩
    · obtain ⟨last, served, settled, singly⟩ := reclaimStaleLog_turns cutoff rest quiet distinct
        fun turn member => (stale _).mp (List.mem_map_of_mem member)
      exact ⟨last, served, reclaimed.sameFields (fun log => mem_staleLogs.trans (stale log).symm) again
        settled singly⟩
    · have unlisted : log ∉ staleLogs cutoff world := fun member => fresh (mem_staleLogs.mp member)
      rw [← rest.logs.row_eq me, ← again.logs.row_eq me]
      refine ⟨reclaimed.otherLogs log unlisted, fun delivery ofLog => ?_⟩
      rw [← rest.deliveries.row_eq me, ← again.deliveries.row_eq me]
      exact reclaimed.otherDeliveries delivery (by rwa [ofLog])

def sampleLog (status : LogStatus) (updatedAt : Nat) : ScheduledNotificationLog :=
  { scheduledAt := 5, sentAt := none, acceptedCount := 0, failedCount := 0, status, updatedAt }

def sampleDelivery (status : DeliveryStatus) : ScheduledNotificationDelivery :=
  { status, statusCode := none, attempts := 1, claimedAt := some 7, finishedAt := none }

/-- Two stale logs, one of them with an open claim, and a recent log with another. -/
def twoStale : World :=
  { oneSubscriber with
    clock := 3000
    logs := Table.seeded [(⟨7, .d3⟩, sampleLog .inProgress 900), (⟨8, .d1⟩, sampleLog .pending 950),
      (⟨9, .d1⟩, sampleLog .inProgress 2900)]
    deliveries := Table.seeded [(⟨⟨7, .d3⟩, "a"⟩, sampleDelivery .inProgress),
      (⟨⟨7, .d3⟩, "b"⟩, sampleDelivery .completed), (⟨⟨9, .d1⟩, "a"⟩, sampleDelivery .inProgress)] }

theorem twoStale_atRest : AtRest twoStale :=
  ⟨Table.seeded_quiet _, Table.seeded_quiet _, fun _ => rfl, fun _ => rfl⟩

/-- The logs in the other order, each by a session of its own. -/
theorem stale_sweep_equals_single_sweeps_twice : ∃ count after last,
    machine.eval 0 (reclaimStaleLogs 2000) (fun _ => {}) twoStale = some (.ok count, after) ∧
      machine.turns (fun logId => reclaimStaleLog logId 2000)
        [⟨1, ⟨8, .d1⟩, fun _ => {}⟩, ⟨2, ⟨7, .d3⟩, fun _ => { elapsed := 4 }⟩] twoStale = some last ∧
      SameFields after last := by
  have answered : Answered fun _ => {} := fun _ => rfl
  obtain ⟨count, after, done, same, -⟩ := stale_sweep_equals_single_sweeps twoStale_atRest 2000 0 answered
  have listed : staleLogs 2000 twoStale = [⟨7, .d3⟩, ⟨8, .d1⟩] := by decide +kernel
  obtain ⟨last, served, fields⟩ := same
    [⟨1, ⟨8, .d1⟩, fun _ => {}⟩, ⟨2, ⟨7, .d3⟩, fun _ => { elapsed := 4 }⟩]
    (by simp [Answered]) (by decide) fun log => by
      rw [← mem_staleLogs, listed]
      simp [or_comm]
  exact ⟨count, after, last, done, served, fields⟩

end SogeconApp.Guarantees.ScheduledPush
