import SogeconApp.Guarantees.ScheduledPush.Alone

/-!
# The log of a session alone

How a run takes back a stale log, acquires its own and updates it, while nobody else is at
work: each transaction over the log drafts its row, and the commit stores what was drafted.
-/

namespace SogeconApp.Guarantees.ScheduledPush

open Library Program Source.ScheduledPush

variable {me : SessionId} {may : Choice → Prop} {world start after : World} {logId : LogId}

/-- The log is not marked completed. -/
def Uncompleted (logId : LogId) (world : World) : Prop :=
  ∀ row, world.logs.committed logId = some row → row.status ≠ .completed

/-- Something was raised, and the log is not marked completed. -/
def Failed (me : SessionId) (may : Choice → Prop) (logId : LogId) (_ : Failure) (after : World) : Prop :=
  CanRaise may ∧ Working me after ∧ Uncompleted logId after

theorem Uncompleted.of_same (open_ : Uncompleted logId world)
    (same : after.logs.committed logId = world.logs.committed logId) : Uncompleted logId after := by
  intro row stored
  rw [same] at stored
  exact open_ row stored

theorem Raised.failed {reason : Failure} (raised : Raised me may world reason after)
    (open_ : Uncompleted logId world) : Failed me may logId reason after :=
  ⟨raised.1, raised.2.1, open_.of_same (raised.2.2 logId)⟩

/-- Before anything is sent: claims of an earlier run may have expired, and that is all. -/
structure Begun (me : SessionId) (start after : World) : Prop where
  idle : Idle me after
  subscriptions : after.subscriptions = start.subscriptions
  preferences : after.preferences = start.preferences
  history : after.history = start.history
  status : ∀ delivery, seen me after delivery = seen me start delivery ∨
    seen me after delivery = expired (seen me start delivery)

theorem Begun.trans (first : Begun me start world) (second : Begun me world after) : Begun me start after where
  idle := second.idle
  subscriptions := second.subscriptions.trans first.subscriptions
  preferences := second.preferences.trans first.preferences
  history := second.history.trans first.history
  status delivery := by
    rcases second.status delivery with later | later
    · rw [later]
      exact first.status delivery
    · rcases first.status delivery with earlier | earlier
      · rw [later, earlier]
        exact .inr rfl
      · rw [later, earlier, expired_idem]
        exact .inr rfl

theorem Begun.tick (idle : Idle me world) (seconds : Nat) : Begun me world (world.tick seconds) :=
  ⟨idle.tick seconds, rfl, rfl, rfl, fun _ => .inl rfl⟩

/-! ## The log -/

/-- The open transaction of a session that has drafted the log, for whatever purpose. -/
structure Writing (me : SessionId) (logId : LogId) (row : ScheduledNotificationLog) (intent : LogIntent)
    (start after : World) : Prop where
  working : Working me after
  drafted : (after.logs.slot logId).draft = some (me, some row)
  purpose : after.intent me = intent
  committed : ∀ log, after.logs.committed log = start.logs.committed log
  subscriptions : after.subscriptions = start.subscriptions
  preferences : after.preferences = start.preferences
  history : after.history = start.history
  attempt : after.attempt me = .idle
  acquirer : after.acquirer = start.acquirer
  status : ∀ delivery, seen me after delivery = seen me start delivery ∨
    seen me after delivery = expired (seen me start delivery)

variable {row : ScheduledNotificationLog} {intent : LogIntent}

theorem Idle.writing (idle : Idle me world) (row : ScheduledNotificationLog) (intent : LogIntent)
    (seconds : Nat) :
    Writing me logId row intent world { world.tick seconds with
      logs := world.logs.write me logId (some row)
      intent := Function.update world.intent me intent } where
  working := ⟨idle.logs.only.write _ _, idle.deliveries.only⟩
  drafted := by simp
  purpose := Function.update_self ..
  committed _ := Table.write_committed
  subscriptions := rfl
  preferences := rfl
  history := rfl
  attempt := idle.attempt
  acquirer := rfl
  status _ := .inl rfl

theorem Writing.read (writing : Writing me logId row intent start world) :
    world.logs.row me logId = some row := Slot.row_of_draft writing.drafted

theorem Writing.tick (writing : Writing me logId row intent start world) (seconds : Nat) :
    Writing me logId row intent start (world.tick seconds) where
  working := writing.working.tick seconds
  drafted := writing.drafted
  purpose := writing.purpose
  committed := writing.committed
  subscriptions := writing.subscriptions
  preferences := writing.preferences
  history := writing.history
  attempt := writing.attempt
  acquirer := writing.acquirer
  status := writing.status

/-- Claims of an earlier run expire in the same transaction. -/
theorem Writing.expire (writing : Writing me logId row intent start world) (working : Working me after)
    (across : Across me logId (fun _ => expired) world after) :
    Writing me logId row intent start after where
  working := working
  drafted := by rw [across.1.logs]; exact writing.drafted
  purpose := by rw [across.1.intent]; exact writing.purpose
  committed log := by rw [across.1.logs]; exact writing.committed log
  subscriptions := across.1.subscriptions.trans writing.subscriptions
  preferences := across.1.preferences.trans writing.preferences
  history := across.1.history.trans writing.history
  attempt := by rw [across.1.attempt]; exact writing.attempt
  acquirer := across.1.acquirer.trans writing.acquirer
  status delivery := by
    rw [across.2]
    by_cases ofLog : delivery.log = logId
    · rw [if_pos ofLog]
      dsimp only
      rcases writing.status delivery with same | same
      · rw [same]
        exact .inr rfl
      · rw [same, expired_idem]
        exact .inr rfl
    · rw [if_neg ofLog]
      exact writing.status delivery

/-- What the commit of that transaction leaves. -/
structure LogStored (me : SessionId) (logId : LogId) (row : ScheduledNotificationLog) (intent : LogIntent)
    (start after : World) : Prop where
  begun : Begun me start after
  stored : after.logs.committed logId = some row
  acquirer : after.acquirer logId = match intent with
    | .acquire => some me
    | .reclaim => none
    | .own => start.acquirer logId

theorem Writing.commit (writing : Writing me logId row intent start world) :
    (ask .commit).Ensures (machine.alone me may)
      (fun _ after => LogStored me logId row intent start after ∧
        after.deliveries = world.deliveries.commit me)
      (Raised me may start) world := by
  refine (commit_alone writing.working).weaken ?_ fun _ _ raised => raised.of_same writing.committed
  rintro _ _ ⟨seconds, rfl⟩
  have ticked := writing.tick seconds
  refine ⟨⟨⟨ticked.working.commit_idle ticked.attempt, ticked.subscriptions, ticked.preferences, ?_, ?_⟩,
    ?_, ?_⟩, rfl⟩
  · have quiet : (world.tick seconds).attempt me = .idle := ticked.attempt
    simp only [World.commit, quiet, World.attemptNews, List.append_nil]
    exact ticked.history
  · intro delivery
    rw [ticked.working.seen_commit]
    exact ticked.status delivery
  · exact Table.committed_commit_of_draft ticked.drafted
  · rw [World.commit_acquirer_of_draft ticked.drafted, ticked.purpose]
    cases intent with
    | own => exact congrFun ticked.acquirer logId
    | acquire | reclaim => rfl

/-- The log row that the transaction holds is written once more. -/
theorem Writing.rewrite (change : ScheduledNotificationLog → ScheduledNotificationLog)
    (writing : Writing me logId row intent start world) :
    ∃ logs, updateLog me logId (fun _ => true) change world = some (true, { world with logs }) ∧
      Writing me logId (change row) intent start { world with logs } := by
  refine ⟨world.logs.write me logId (some (change row)), ?_, ?_⟩
  · simp [updateLog, writing.working.logs.updateRow, writing.read]
  · exact {
      working := ⟨writing.working.logs.write _ _, writing.working.deliveries⟩
      drafted := by simp
      purpose := writing.purpose
      committed := fun log => Table.write_committed.trans (writing.committed log)
      subscriptions := writing.subscriptions
      preferences := writing.preferences
      history := writing.history
      attempt := writing.attempt
      acquirer := writing.acquirer
      status := writing.status }

/-- The counts that are returned are those of the deliveries as the session sees them. -/
theorem countDeliveries_alone (working : Working me world) :
    (getDeliveryCounts logId).Ensures (machine.alone me may)
      (fun counts after => counts = deliveryCounts me world.deliveries logId ∧
        ∃ seconds, after = world.tick seconds)
      (Raised me may world) world :=
  Ensures.weaken (read_alone (.countDeliveries logId) (deliveryCounts me world.deliveries logId)
    working fun _ _ => rfl) (fun _ _ read => read) fun _ _ raised => raised

theorem finishLog_alone (counts : DeliveryCounts) (writing : Writing me logId row intent start world) :
    (ask (.finishLog logId counts)).Ensures (machine.alone me may)
      (fun _ after => ∃ now, Writing me logId (failedLog now counts row) intent start after)
      (Raised me may start) world := by
  refine (@ask_alone me may world (.finishLog logId counts) (fun _ after =>
    ∃ now, Writing me logId (failedLog now counts row) intent start after) writing.working ?_).weaken
      (fun _ _ stored => stored) fun _ _ raised => raised.of_same writing.committed
  intro choice seconds
  obtain ⟨logs, done, again⟩ :=
    (writing.tick seconds).rewrite (failedLog (world.tick seconds).clock counts)
  exact ⟨(), _, by simp [answer, done], _, again⟩

/-- `_finalize_stale_log` and the tail of `mark_log_failed`. -/
theorem finalizeStaleLog_alone (writing : Writing me logId row intent start world) :
    (finalizeStaleLog logId).Ensures (machine.alone me may)
      (fun counts after => ∃ now, Writing me logId (failedLog now counts row) intent start after)
      (Raised me may start) world := by
  unfold finalizeStaleLog
  simp only [bind_eq, ensures_bind, pure_eq, ensures_ret]
  refine (expireClaims_alone writing.working).weaken ?_ fun _ _ raised => raised.of_same writing.committed
  rintro _ expired_ ⟨working, across⟩
  have emptied := writing.expire working across
  refine (countDeliveries_alone working).weaken ?_ fun _ _ raised => raised.of_same emptied.committed
  rintro counts _ ⟨-, seconds, rfl⟩
  exact finishLog_alone counts (emptied.tick seconds)

/-- A log that a run may take: it is absent, failed, or older than the cutoff. -/
def Available (logId : LogId) (world : World) : Prop :=
  ∀ row, world.logs.committed logId = some row →
    row.status = .failed ∨ isStale (world.clock - scheduledLogStaleAfter) row = true

/-- The log after the sweep of its own run: failed, or as it was. -/
def Cleared (logId : LogId) (cutoff : Nat) (start after : World) : Prop :=
  (∃ row row', start.logs.committed logId = some row ∧ isStale cutoff row = true ∧
      after.logs.committed logId = some row' ∧ row'.status = .failed) ∨
    (∀ row, start.logs.committed logId = some row → isStale cutoff row = false) ∧
      after.logs.committed logId = start.logs.committed logId

/-- A stale log is taken and drafted as failed; any other one is left. -/
theorem takeStaleLog_alone (cutoff : Nat) (idle : Idle me world) :
    (ask (.takeStaleLog logId cutoff)).Ensures (machine.alone me may)
      (fun taken after =>
        taken = true ∧ (∃ row now, world.logs.committed logId = some row ∧ isStale cutoff row = true ∧
            Writing me logId { row with status := .failed, updatedAt := now } .reclaim world after) ∨
          taken = false ∧ (∀ row, world.logs.committed logId = some row → isStale cutoff row = false) ∧
            ∃ seconds, after = world.tick seconds)
      (Raised me may world) world := by
  refine ask_alone _ idle.working fun choice seconds => ?_
  have read : world.logs.row me logId = world.logs.committed logId := idle.logs.row_eq me logId
  cases stored : world.logs.committed logId with
  | none =>
    refine ⟨false, world.tick seconds, ?_, .inr ⟨rfl, by simp, seconds, rfl⟩⟩
    simp [answer, updateLog, World.tick, idle.logs.only.updateRow, read, stored]
  | some row =>
    cases old : isStale cutoff row with
    | false =>
      refine ⟨false, world.tick seconds, ?_, .inr ⟨rfl, by simp [old], seconds, rfl⟩⟩
      simp [answer, updateLog, World.tick, idle.logs.only.updateRow, read, stored, old]
    | true =>
      have writing := @Idle.writing me world logId idle
        { row with status := .failed, updatedAt := (world.tick seconds).clock } .reclaim seconds
      refine ⟨true, _, ?_, .inl ⟨rfl, row, _, rfl, old, writing⟩⟩
      simp [answer, updateLog, World.tick, idle.logs.only.updateRow, read, stored, old]

/-- A commit with no draft of the log. -/
theorem commit_begun (idle : Idle me world) :
    (ask .commit).Ensures (machine.alone me may)
      (fun _ after => Begun me world after ∧ after.logs = world.logs) (Raised me may world) world := by
  refine (commit_alone idle.working).weaken ?_ fun _ _ raised => raised
  rintro _ _ ⟨seconds, rfl⟩
  have ticked := idle.tick seconds
  have aside := commit_aside ticked.logs ticked.attempt ticked.intent
  exact ⟨⟨ticked.working.commit_idle ticked.attempt, rfl, rfl, aside.history,
    fun delivery => .inl (ticked.working.seen_commit delivery)⟩, aside.logs⟩

/-- The sweep of one log fails it if it is stale, and leaves it otherwise. -/
theorem reclaimStaleLog_alone (cutoff : Nat) (idle : Idle me world) :
    (reclaimStaleLog logId cutoff).Ensures (machine.alone me may)
      (fun _ after => Begun me world after ∧ Cleared logId cutoff world after) (Raised me may world) world := by
  unfold reclaimStaleLog
  rw [bind_eq, ensures_bind]
  refine (takeStaleLog_alone cutoff idle).weaken ?_ fun _ _ raised => raised
  rintro taken current (⟨rfl, row, now, stored, old, writing⟩ | ⟨rfl, recent, seconds, rfl⟩)
  · rw [if_pos rfl]
    simp only [bind_eq, ensures_bind, pure_eq, ensures_ret]
    refine (finalizeStaleLog_alone writing).weaken ?_ fun _ _ raised => raised
    rintro counts finished ⟨later, written⟩
    refine written.commit.weaken ?_ fun _ _ raised => raised
    rintro _ after ⟨⟨begun, last, -⟩, -⟩
    exact ⟨begun, .inl ⟨row, _, stored, old, last, rfl⟩⟩
  · rw [if_neg (by simp)]
    simp only [bind_eq, ensures_bind, pure_eq, ensures_ret]
    refine (commit_begun (idle.tick seconds)).weaken ?_ fun _ _ raised => raised.of_tick
    rintro _ after ⟨begun, same⟩
    refine ⟨(Begun.tick idle seconds).trans begun, .inr ⟨recent, ?_⟩⟩
    rw [same]
    rfl

/-- What the upsert stores is a new pending log; it passes by a log that is not failed. -/
theorem acquiredLog_cases (now scheduledAt : Nat) (visible : Option ScheduledNotificationLog) :
    (∃ log, acquiredLog now scheduledAt visible = some log ∧ log.status = .pending ∧
        log.acceptedCount = 0 ∧ log.failedCount = 0) ∨
      acquiredLog now scheduledAt visible = none ∧ ∃ row, visible = some row ∧ row.status ≠ .failed := by
  cases visible with
  | none => exact .inl ⟨_, rfl, rfl, rfl, rfl⟩
  | some row =>
    by_cases free : row.status = .failed
    · exact .inl ⟨_, if_pos free, rfl, rfl, rfl⟩
    · exact .inr ⟨if_neg free, row, rfl, free⟩

/-- The upsert acquires a log that is absent or failed, and leaves any other one. -/
theorem upsertLog_alone (scheduledAt : Nat) (idle : Idle me world) :
    (ask (.upsertLog logId scheduledAt)).Ensures (machine.alone me may)
      (fun returned after =>
        returned = true ∧ (∃ log, log.status = .pending ∧ log.acceptedCount = 0 ∧ log.failedCount = 0 ∧
            Writing me logId log .acquire world after) ∨
          returned = false ∧ (∃ row, world.logs.committed logId = some row ∧ row.status ≠ .failed) ∧
            ∃ seconds, after = world.tick seconds)
      (Raised me may world) world := by
  refine ask_alone _ idle.working fun choice seconds => ?_
  have read : world.logs.row me logId = world.logs.committed logId := idle.logs.row_eq me logId
  have free : (world.logs.slot logId).lockedFor me = false := idle.logs.only.free logId
  rcases acquiredLog_cases (world.tick seconds).clock scheduledAt (world.logs.committed logId) with
    ⟨log, taken, pending, accepted, failed⟩ | ⟨passed, row, stored, held⟩
  · refine ⟨true, _, ?_, .inl ⟨rfl, log, pending, accepted, failed, idle.writing log .acquire seconds⟩⟩
    rw [← read] at taken
    simp only [World.tick] at taken ⊢
    simp [answer, free, taken]
  · refine ⟨false, world.tick seconds, ?_, .inr ⟨rfl, ⟨row, stored, held⟩, seconds, rfl⟩⟩
    rw [← read] at passed
    simp only [World.tick] at passed ⊢
    simp [answer, free, passed]

/-- `create_notification_log`: the log is acquired, or stays with whoever has it. -/
theorem createNotificationLog_alone (scheduledAt : Nat) (idle : Idle me world)
    (open_ : Uncompleted logId world) :
    (createNotificationLog logId scheduledAt).Ensures (machine.alone me may)
      (fun created after => Begun me world after ∧
        match created with
        | some log => log.status = .pending ∧ log.acceptedCount = 0 ∧ log.failedCount = 0 ∧
            after.logs.committed logId = some log ∧ after.acquirer logId = some me
        | none => ∃ row, world.logs.committed logId = some row ∧ row.status ≠ .failed ∧
            after.logs.committed logId = some row)
      (Failed me may logId) world := by
  unfold createNotificationLog
  simp only [bind_eq, ensures_bind]
  refine (upsertLog_alone scheduledAt idle).weaken ?_ fun _ _ raised => raised.failed open_
  rintro returned current (⟨rfl, log, pending, accepted, failed, writing⟩ |
    ⟨rfl, ⟨row, stored, held⟩, seconds, rfl⟩)
  · refine writing.commit.weaken ?_ fun _ _ raised => raised.failed open_
    rintro _ taken ⟨⟨begun, stored, acquirer⟩, -⟩
    have still : Uncompleted logId taken := by
      intro row found
      rw [stored] at found
      cases found
      rw [pending]
      decide
    rw [if_pos rfl, ensures_bind]
    refine Ensures.weaken (read_alone (.refreshLog logId) log begun.idle.working fun _ later => ?_) ?_
      fun _ _ raised => raised.failed still
    · have read : taken.logs.row me logId = some log := (begun.idle.logs.row_eq me logId).trans stored
      simp [answer, World.tick, read]
    · rintro _ _ ⟨rfl, later, rfl⟩
      exact ⟨begun.trans (Begun.tick begun.idle later), pending, accepted, failed, stored, acquirer⟩
  · refine (commit_begun (idle.tick seconds)).weaken ?_ fun _ _ raised => raised.of_tick.failed open_
    rintro _ after ⟨begun, same⟩
    rw [if_neg (by simp)]
    refine ⟨(Begun.tick idle seconds).trans begun, row, stored, held, ?_⟩
    rw [same]
    exact stored

/-- The log is stored with a status and counts. -/
def Recorded (logId : LogId) (status : LogStatus) (counts : DeliveryCounts) (world : World) : Prop :=
  ∃ row, world.logs.committed logId = some row ∧ row.status = status ∧
    row.acceptedCount = counts.accepted ∧ row.failedCount = counts.failed

theorem Recorded.uncompleted {status : LogStatus} {counts : DeliveryCounts}
    (recorded : Recorded logId status counts world) (open_ : status ≠ .completed) :
    Uncompleted logId world := by
  obtain ⟨row, stored, same, -, -⟩ := recorded
  intro other found
  rw [stored] at found
  cases found
  rw [same]
  exact open_

/-- `update_notification_log` with an object that has the stored status and counts. -/
theorem updateNotificationLog_alone (log : ScheduledNotificationLog) (status : LogStatus)
    (accepted failed : Nat) (idle : Idle me world)
    (loaded : Recorded logId log.status ⟨log.acceptedCount, log.failedCount⟩ world) :
    (updateNotificationLog logId log status accepted failed).Ensures (machine.alone me may)
      (fun latest after => latest.status = status ∧ latest.acceptedCount = accepted ∧
        latest.failedCount = failed ∧ Begun me world after ∧ after.deliveries = world.deliveries ∧
        Recorded logId status ⟨accepted, failed⟩ after ∧ after.acquirer logId = world.acquirer logId)
      (Raised me may world) world := by
  obtain ⟨row, stored, sameStatus, sameAccepted, sameFailed⟩ := loaded
  unfold updateNotificationLog
  extract_lets latest
  simp only [bind_eq, ensures_bind, pure_eq, ensures_ret]
  refine ask_alone (.flushLog logId log latest) idle.working fun choice seconds => ?_
  have read : world.logs.row me logId = some row := (idle.logs.row_eq me logId).trans stored
  have writing := @Idle.writing me world logId idle
    (flushedLog (world.tick seconds).clock log latest row) .own seconds
  rw [← idle.intent, Function.update_eq_self] at writing
  refine ⟨(), _, ?_, Ensures.weaken writing.commit ?_ fun _ _ raised => raised⟩
  · simp [answer, updateLog, World.tick, idle.logs.only.updateRow, read]
  · rintro _ after ⟨⟨begun, last, acquirer⟩, deliveries⟩
    rw [idle.intent] at acquirer
    refine ⟨rfl, rfl, rfl, begun, ?_, ⟨_, last, ?_, ?_, ?_⟩, acquirer⟩
    · rw [deliveries]
      exact idle.deliveries.commit_eq
    · by_cases same : status = log.status <;> simp [flushedLog, changed, latest, same, sameStatus]
    · by_cases same : accepted = log.acceptedCount <;> simp [flushedLog, changed, latest, same, sameAccepted]
    · by_cases same : failed = log.failedCount <;> simp [flushedLog, changed, latest, same, sameFailed]

end SogeconApp.Guarantees.ScheduledPush
