import SogeconApp.Guarantees.ScheduledPush.LogAlone
import SogeconApp.Guarantees.ScheduledPush.Unhandled

/-!
# A run that fails

What the handlers of `process_single_event` do with the log: they roll back, mark the log
failed and store the counts of its deliveries, or, when there is no delivery to count, the
number of subscriptions they were to be sent to. Marking the log may raise in turn. The
log then stays as the exception found it.
-/

namespace SogeconApp.Guarantees.ScheduledPush

open Library Program Source.ScheduledPush

variable {me : SessionId} {may : Choice → Prop} {world start after : World} {logId : LogId}

/-! ## Counting deliveries -/

/-- States pending, in_progress, failed and unknown. -/
def unresolved (status : DeliveryStatus) : Bool :=
  status ∈ [.pending, .inProgress, .failed, .unknown]

/-- The committed deliveries of a log in some states. -/
def deliveriesIn (world : World) (logId : LogId) (states : DeliveryStatus → Bool) : Nat :=
  world.deliveries.countCommitted fun id row => id.log = logId ∧ states row.status = true

/-- The deliveries that count as accepted, and those that count as failed. -/
def committedCounts (world : World) (logId : LogId) : DeliveryCounts :=
  ⟨deliveriesIn world logId fun status => status = .completed, deliveriesIn world logId unresolved⟩

/-- Nobody else is at work, so the counts that a session reads are those of the committed rows. -/
theorem deliveryCounts_eq (idle : Idle me world) :
    deliveryCounts me world.deliveries logId = committedCounts world logId := by
  have counted : ∀ cond : DeliveryId → ScheduledNotificationDelivery → Bool,
      (world.deliveries.select me cond).length = world.deliveries.countCommitted cond :=
    Table.length_select fun delivery version drafted => by simp [idle.deliveries delivery] at drafted
  simp only [deliveryCounts, committedCounts, counted, deliveriesIn, unresolved, decide_eq_true_eq]

/-! ## Marking the log -/

/-- The log of a run that has acquired it and not ended: open, and without a failure. -/
def Opened (logId : LogId) (world : World) : Prop :=
  ∃ row, world.logs.committed logId = some row ∧ row.status ≠ .completed ∧ row.failedCount = 0

theorem Opened.uncompleted (opened : Opened logId world) : Uncompleted logId world := by
  obtain ⟨row, stored, open_, -⟩ := opened
  intro other found
  rw [stored] at found
  cases found
  exact open_

theorem Opened.of_same (opened : Opened logId world)
    (same : after.logs.committed logId = world.logs.committed logId) : Opened logId after := by
  unfold Opened
  rw [same]
  exact opened

/-- The counts that `mark_log_failed` stores, and whether there was nothing to count. -/
def failureCounts (fallbackFailed : Nat) (counts : DeliveryCounts) : DeliveryCounts :=
  if counts.accepted = 0 ∧ counts.failed = 0 ∧ fallbackFailed > 0 then ⟨0, fallbackFailed⟩ else counts

/-- The log is marked failed with the counts of the deliveries that the exception left. -/
structure Marked (logId : LogId) (fallbackFailed : Nat) (failing after : World) : Prop where
  counts : committedCounts after logId = committedCounts failing logId
  recorded : Recorded logId .failed (failureCounts fallbackFailed (committedCounts failing logId)) after

theorem Marked.uncompleted {fallbackFailed : Nat} {failing : World}
    (marked : Marked logId fallbackFailed failing after) : Uncompleted logId after :=
  marked.recorded.uncompleted (by decide)

/-- Whatever was drafted is dropped. -/
theorem rollback_alone (working : Working me world) :
    (ask .rollback).Ensures (machine.alone me may)
      (fun _ after => Idle me after ∧ (∀ log, after.logs.committed log = world.logs.committed log) ∧
        ∀ log, committedCounts after log = committedCounts world log)
      (Raised me may world) world := by
  refine ask_alone .rollback working fun _ seconds =>
    ⟨(), _, rfl, ⟨?_, ?_, ?_, ?_⟩, fun log => ?_, fun log => ?_⟩
  · exact working.logs.abort_quiet
  · exact working.deliveries.abort_quiet
  · exact Function.update_self ..
  · exact Function.update_self ..
  · exact Table.abort_committed
  · simp only [committedCounts, deliveriesIn, World.rollback, Table.countCommitted_abort]
    rfl

/-- The update that marks a log failed, and its commit. -/
theorem finishLog_commit_alone (counts : DeliveryCounts) (quiet : world.logs.Quiet) (working : Working me world)
    (attempt : world.attempt me = .idle) (opened : Opened logId world) :
    (do
      ask (.finishLog logId counts)
      ask .commit
      pure counts : Push DeliveryCounts).Ensures (machine.alone me may)
      (fun _ after => Idle me after ∧ Recorded logId .failed counts after ∧
        after.deliveries = world.deliveries.commit me) (Raised me may world) world := by
  obtain ⟨row, stored, -, -⟩ := opened
  simp only [bind_eq, ensures_bind, pure_eq, ensures_ret]
  refine ask_alone (.finishLog logId counts) working fun choice seconds => ?_
  have read : world.logs.row me logId = some row := (quiet.row_eq me logId).trans stored
  have written : Working me { world.tick seconds with
      logs := world.logs.write me logId (some (failedLog (world.tick seconds).clock counts row)) } :=
    ⟨working.logs.write _ _, working.deliveries⟩
  refine ⟨(), _, ?_, (@commit_alone me may _ written).weaken ?_ fun _ _ raised =>
    raised.of_same fun log => Table.write_committed⟩
  · simp [answer, updateLog, World.tick, working.logs.updateRow, read]
  · rintro _ _ ⟨later, rfl⟩
    refine ⟨(written.tick later).commit_idle attempt,
      ⟨failedLog (world.tick seconds).clock counts row, ?_, rfl, rfl, rfl⟩, rfl⟩
    exact Table.committed_commit_of_draft (by simp [World.tick])

/-- The log is marked failed with the counts as they are committed, or a statement raises and it stays
open. -/
theorem markLogFailed_alone (fallbackFailed : Nat) (idle : Idle me world) (opened : Opened logId world) :
    (markLogFailed logId fallbackFailed).Ensures (machine.alone me may)
      (fun _ after => Marked logId fallbackFailed world after) (Raised me may world) world := by
  unfold markLogFailed
  rw [bind_eq, ensures_bind]
  refine (expireClaims_alone idle.working).weaken ?_ fun _ _ raised => raised
  rintro _ emptied ⟨working, across⟩
  have logs : emptied.logs = world.logs := across.1.logs
  have same : ∀ log, emptied.logs.committed log = world.logs.committed log := fun log => by rw [logs]
  -- An open claim counts as failed before and after it expires, so the counts are those of the start.
  have counted : deliveryCounts me emptied.deliveries = deliveryCounts me world.deliveries := by
    refine deliveryCounts_eq_of_expired fun delivery => ?_
    have status := across.2 delivery
    split at status
    · exact .inr status
    · exact .inl status
  rw [bind_eq, ensures_bind]
  refine (countDeliveries_alone working).weaken ?_ fun _ _ raised => raised.of_same same
  rintro counts _ ⟨rfl, seconds, rfl⟩
  have quiet : (emptied.tick seconds).logs.Quiet := by
    change emptied.logs.Quiet
    rw [logs]
    exact idle.logs
  have attempt : (emptied.tick seconds).attempt me = .idle := by
    change emptied.attempt me = .idle
    rw [across.1.attempt]
    exact idle.attempt
  refine (finishLog_commit_alone _ quiet (working.tick seconds) attempt (opened.of_same (same logId))).weaken ?_
    fun _ _ raised => raised.of_same same
  rintro _ last ⟨closed, recorded, deliveries⟩
  have committed : deliveryCounts me last.deliveries = deliveryCounts me emptied.deliveries := by
    refine deliveryCounts_eq_of_expired fun delivery => .inl ?_
    rw [deliveries, (working.tick seconds).deliveries.commit_quiet.row_eq,
      (working.tick seconds).deliveries.committed_commit]
    rfl
  have whole : committedCounts last logId = committedCounts world logId := by
    rw [← deliveryCounts_eq closed, committed, counted, deliveryCounts_eq idle]
  refine ⟨whole, ?_⟩
  rw [counted, deliveryCounts_eq idle] at recorded
  exact recorded

/-- How a handled exception ends: the log is marked failed, or a second exception keeps it
from being marked. -/
inductive Handled (may : Choice → Prop) (logId : LogId) (failing : World) : World × List World → Prop where
  | marked {after : World} (fallbackFailed : Nat) (raises : CanRaise may)
      (marked : Marked logId fallbackFailed failing after) : Handled may logId failing (after, [failing])
  | unmarked {after again : World} (raises : CanRaise may) (opened : Opened logId after) :
      Handled may logId failing (after, [failing, again])

theorem Handled.canRaise {failing : World} {ended : World × List World}
    (handled : Handled may logId failing ended) :
    CanRaise may := by
  cases handled <;> assumption

theorem Handled.uncompleted {failing : World} {ended : World × List World}
    (handled : Handled may logId failing ended) : Uncompleted logId ended.1 := by
  cases handled with
  | marked _ _ marked => exact marked.uncompleted
  | unmarked _ opened => exact opened.uncompleted

/-- `_finalize_failed_notification`, after the exception that left `world`. -/
theorem finalizeFailedNotification_recorded (fallbackFailed : Nat) (raises : CanRaise may)
    (working : Working me world) (opened : Opened logId world) :
    (finalizeFailedNotification logId fallbackFailed).Ensures (machine.alone me may).recording
      (fun _ ended => Handled may logId world ended)
      (fun reason ended => Failed me may logId reason ended.1) (world, [world]) := by
  unfold finalizeFailedNotification
  rw [bind_eq, ensures_bind]
  refine (rollback_alone working).recorded (ask_plain _) ?_ fun _ _ raised => raised.failed opened.uncompleted
  rintro _ fresh ⟨idle, same, counts⟩
  have still : Opened logId fresh := opened.of_same (same logId)
  rw [ensures_catchWith]
  refine (markLogFailed_alone fallbackFailed idle still).recorded (markLogFailed_plain _) ?_ ?_
  · intro _ last marked
    refine .marked fallbackFailed raises ⟨marked.counts.trans (counts logId), ?_⟩
    rw [← counts logId]
    exact marked.recorded
  · intro reason again raised
    have left : Opened logId again := still.of_same (raised.2.2 logId)
    cases reason with
    | sqlAlchemy =>
      dsimp only
      rw [bind_eq, ensures_bind]
      refine (rollback_alone raised.2.1).recorded (ask_plain _) ?_ fun _ _ later => later.failed left.uncompleted
      rintro _ cleared ⟨-, unchanged, -⟩
      exact .unmarked raises (left.of_same (unchanged logId))
    | cancelled | operational | other => exact raised.failed still.uncompleted

end SogeconApp.Guarantees.ScheduledPush
