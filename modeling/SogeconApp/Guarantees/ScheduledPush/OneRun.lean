import SogeconApp.Guarantees.ScheduledPush.Batches
import SogeconApp.Guarantees.ScheduledPush.Finalizing

/-!
# One run of `process_single_event`

The whole run of a session alone, for any choices of the environment: what it returns,
which deliveries it worked off, what it stored in the log, and which exceptions it met on
the way. A run returns with at most two of them: the one that it handled, and one more
that kept it from marking its log failed.
-/

namespace SogeconApp.Guarantees.ScheduledPush

open Library Program Source.ScheduledPush

variable {me : SessionId} {may : Choice → Prop} {world start after : World} {logId : LogId}

/-! ## A run that sends -/

/-- What `get_eligible_subscriptions` returns on this store. -/
def eligible (topic : String) (world : World) : List PushSubscription :=
  let optedOut := (world.preferences.filter fun pref =>
    pref.channel = "webpush" ∧ pref.topic = topic ∧ pref.enabled = false).map (·.memberId)
  (world.subscriptions.rows.filter fun sub => sub.revokedAt.isNone).filter fun sub =>
    match sub.memberId with
    | some memberId => memberId ∉ optedOut
    | none => true

theorem eligible_unique (topic : String) (world : World) :
    ((eligible topic world).map (·.endpointHash)).Nodup :=
  world.subscriptions.unique.sublist (List.Sublist.map _ (List.filter_sublist.trans List.filter_sublist))

theorem eligible_hashed {topic : String} {sub : PushSubscription} (member : sub ∈ eligible topic world) :
    sub.endpointHash ≠ "" :=
  world.subscriptions.hashed sub (List.mem_filter.mp (List.mem_filter.mp member).1).1

theorem Begun.eligible_eq (begun : Begun me start world) (topic : String) :
    eligible topic world = eligible topic start := by
  simp only [eligible, begun.subscriptions, begun.preferences]

theorem getEligibleSubscriptions_alone (topic : String) (idle : Idle me world) :
    (getEligibleSubscriptions topic).Ensures (machine.alone me may)
      (fun subs after => subs = eligible topic world ∧ ∃ seconds, after = world.tick seconds)
      (Raised me may world) world := by
  unfold getEligibleSubscriptions
  simp only [bind_eq, ensures_bind, pure_eq, ensures_ret]
  refine Ensures.weaken (read_alone .selectActiveSubscriptions
    (world.subscriptions.rows.filter fun sub => sub.revokedAt.isNone) idle.working fun _ _ => rfl) ?_
    fun _ _ raised => raised
  rintro active _ ⟨rfl, seconds, rfl⟩
  refine Ensures.weaken (read_alone (.selectOptedOut "webpush" topic) ((world.preferences.filter fun pref =>
    pref.channel = "webpush" ∧ pref.topic = topic ∧ pref.enabled = false).map (·.memberId))
    (idle.tick seconds).working fun _ _ => rfl) ?_ fun _ _ raised => raised.of_tick
  rintro optedOut _ ⟨rfl, later, rfl⟩
  exact ⟨rfl, seconds + later, by simp [World.tick, Nat.add_assoc]⟩

/-- Absent, pending or failed: an eligible endpoint in this state is attempted. -/
def waiting : Option DeliveryStatus → Bool
  | none | some .pending | some .failed => true
  | some _ => false

theorem claimable_prepared (status : Option DeliveryStatus) : claimable (prepared status) = waiting status := by
  cases status with
  | none => rfl
  | some status => cases status <;> rfl

/-- An expired claim does not wait any more than an open one. -/
theorem waiting_expired (status : Option DeliveryStatus) : waiting (expired status) = waiting status := by
  cases status with
  | none => rfl
  | some status => cases status <;> rfl

/-- The counts and the status with which a run closes its log. -/
def closing (subs : List PushSubscription) (counts : DeliveryCounts) : LogStatus × DeliveryCounts :=
  if subs = [] then (.completed, ⟨0, 0⟩)
  else (if counts.failed ≠ 0 then .failed else .completed, counts)

/-- A run that acquired the log and in which nothing was raised. -/
structure Finished (me : SessionId) (crypto : Crypto) (logId : LogId) (start : World)
    (attempts : List (PushSubscription × List (Bool × Option Nat))) (after : World) : Prop where
  idle : Idle me after
  acquired : after.acquirer logId = some me
  listed : attempts.map Prod.fst = (eligible "event" start).filter fun sub =>
    waiting (seen me start ⟨logId, sub.endpointHash⟩)
  called : ∀ attempt ∈ attempts, CalledFor crypto 3 attempt.1 attempt.2
  history : after.history = start.history ++
    attempts.flatMap fun attempt => worked ⟨logId, attempt.1.endpointHash⟩ attempt.2
  finished : ∀ attempt ∈ attempts,
    seen me after ⟨logId, attempt.1.endpointHash⟩ = some (verdict attempt.2)
  passed : ∀ sub ∈ eligible "event" start, waiting (seen me start ⟨logId, sub.endpointHash⟩) = false →
    seen me after ⟨logId, sub.endpointHash⟩ = expired (seen me start ⟨logId, sub.endpointHash⟩) ∨
      seen me after ⟨logId, sub.endpointHash⟩ = seen me start ⟨logId, sub.endpointHash⟩
  nobody : eligible "event" start = [] → ∀ delivery, seen me after delivery = seen me start delivery ∨
    seen me after delivery = expired (seen me start delivery)
  recorded : Recorded logId
    (closing (eligible "event" start) (deliveryCounts me after.deliveries logId)).1
    (closing (eligible "event" start) (deliveryCounts me after.deliveries logId)).2 after

/-- How the `try` of a run that has acquired the log ends, and the exception that it handled. -/
def SendingDone (me : SessionId) (may : Choice → Prop) (crypto : Crypto) (logId : LogId) (start : World) :
    Sending → World × List World → Prop
  | .raised _ _, (after, raised) => CanRaise may ∧ Working me after ∧ Opened logId after ∧ raised = [after]
  | .nobody, (after, raised) => Finished me crypto logId start [] after ∧ raised = []
  | .sent log result, (after, raised) => eligible "event" start ≠ [] ∧
      Recorded logId log.status ⟨log.acceptedCount, log.failedCount⟩ after ∧ Opened logId after ∧
      deliveryCounts me after.deliveries logId = ⟨result.accepted, result.failed⟩ ∧ raised = [] ∧
      ∃ begun ready attempts, Begun me start begun ∧ begun.acquirer logId = some me ∧
        Across me logId (ensured ((eligible "event" start).map (·.endpointHash))) begun ready ∧
        Sent me crypto 3 logId ready (eligible "event" start) attempts after

/-- The exception leaves the log open. -/
theorem SendingDone.of_raised {crypto : Crypto} {fallbackFailed : Nat} {reason failure : Failure}
    (raised : Raised me may world failure after) (opened : Opened logId world) :
    SendingDone me may crypto logId start (.raised fallbackFailed reason) (after, [] ++ [after]) :=
  ⟨raised.1, raised.2.1, opened.of_same (raised.2.2 logId), rfl⟩

/-- The `try` of a run ends with an exception, with nobody to send to, or with everything sent and
counted. -/
theorem sendToEligible_recorded (crypto : Crypto) (event : Event) (dType : DType)
    (log : ScheduledNotificationLog) (begun : Begun me start world)
    (acquired : world.acquirer logId = some me) (pending : log.status = .pending) (fresh : log.failedCount = 0)
    (stored : world.logs.committed logId = some log) :
    (sendToEligible crypto event dType logId log).Ensures (machine.alone me may).recording
      (SendingDone me may crypto logId start) (fun _ _ => False) (world, []) := by
  unfold sendToEligible
  simp only [bind_eq, ensures_bind, ensures_catchWith, pure_eq, ensures_ret]
  have before : Recorded logId log.status ⟨log.acceptedCount, log.failedCount⟩ world :=
    ⟨log, stored, rfl, rfl, rfl⟩
  have opened : Opened logId world := ⟨log, stored, by rw [pending]; decide, fresh⟩
  refine (updateNotificationLog_alone log .inProgress 0 0 begun.idle before).recorded
    (updateNotificationLog_plain ..) ?_ fun _ _ raised => .of_raised raised opened
  rintro latest current ⟨status, none_, noneFailed, started, -, running, owner⟩
  have progressed := begun.trans started
  have still : Opened logId current := by
    obtain ⟨row, found, sameStatus, -, sameFailed⟩ := running
    exact ⟨row, found, by rw [sameStatus]; decide, sameFailed⟩
  refine (getEligibleSubscriptions_alone "event" started.idle).recorded
    (getEligibleSubscriptions_plain _) ?_ fun _ _ raised => .of_raised raised still
  rintro subs _ ⟨rfl, seconds, rfl⟩
  rw [progressed.eligible_eq]
  have ticked := started.idle.tick seconds
  have reached := progressed.trans (Begun.tick started.idle seconds)
  have mine : current.acquirer logId = some me := owner.trans acquired
  have matches_ : Recorded logId latest.status ⟨latest.acceptedCount, latest.failedCount⟩
      (current.tick seconds) := by
    rw [status, none_, noneFailed]
    exact running
  split
  · next nobody =>
    rw [ensures_bind]
    refine (updateNotificationLog_alone latest .completed 0 0 ticked matches_).recorded
      (updateNotificationLog_plain ..) ?_ fun _ _ raised => .of_raised raised still
    rintro _ after ⟨-, -, -, closed, -, recorded, kept⟩
    have whole := reached.trans closed
    refine ⟨?_, rfl⟩
    exact {
      idle := whole.idle
      acquired := kept.trans mine
      listed := by rw [nobody]; rfl
      called := by simp
      history := by rw [whole.history]; simp
      finished := by simp
      passed := by simp [nobody]
      nobody := fun _ => whole.status
      recorded := by simpa [closing, nobody] using recorded }
  · next somebody =>
    rw [ensures_bind]
    refine (sendBatchNotifications_alone _ (eventPayload event dType) (eligible_unique "event" start)
      (fun sub member => eligible_hashed member) ticked).recorded (sendBatchNotifications_plain ..) ?_
        fun _ _ raised => .of_raised raised still
    rintro result after ⟨ready, attempts, prepared_, across, sent, counted⟩
    have logs : after.logs = (current.tick seconds).logs := sent.logs.trans across.1.logs
    have recorded : Recorded logId latest.status ⟨latest.acceptedCount, latest.failedCount⟩ after := by
      unfold Recorded
      rw [logs]
      exact matches_
    exact ⟨somebody, recorded, still.of_same (by rw [logs]; rfl), counted, rfl,
      current.tick seconds, ready, attempts, reached, mine, across, sent⟩

theorem ensured_member {hashes : List String} {hash : String} (member : hash ∈ hashes) (given : hash ≠ "")
    (status : Option DeliveryStatus) : ensured hashes hash status = prepared status := by
  refine if_pos ?_
  simp [cleanHashes, List.mem_eraseDups, member, given]

/-- What was sent, seen from the start of the run. -/
theorem Sent.finished_of {crypto : Crypto} {begun ready : World}
    {attempts : List (PushSubscription × List (Bool × Option Nat))} (somebody : eligible "event" start ≠ [])
    (started : Begun me start begun)
    (across : Across me logId (ensured ((eligible "event" start).map (·.endpointHash))) begun ready)
    (sent : Sent me crypto 3 logId ready (eligible "event" start) attempts world)
    (closed : Begun me world after) (deliveries : after.deliveries = world.deliveries)
    (acquired : after.acquirer logId = some me)
    (recorded : Recorded logId
      (closing (eligible "event" start) (deliveryCounts me after.deliveries logId)).1
      (closing (eligible "event" start) (deliveryCounts me after.deliveries logId)).2 after) :
    Finished me crypto logId start attempts after := by
  have rows : ∀ delivery, seen me after delivery = seen me world delivery := by
    intro delivery
    rw [seen, deliveries, seen]
  have prepares : ∀ sub ∈ eligible "event" start, seen me ready ⟨logId, sub.endpointHash⟩ =
      prepared (seen me begun ⟨logId, sub.endpointHash⟩) := by
    intro sub member
    rw [across.2, if_pos rfl, ensured_member (List.mem_map_of_mem member) (eligible_hashed member)]
  have sameWaiting : ∀ delivery, waiting (seen me begun delivery) = waiting (seen me start delivery) := by
    intro delivery
    rcases started.status delivery with same | same <;> rw [same]
    exact waiting_expired _
  have isDue : ∀ sub ∈ eligible "event" start, claimable (seen me ready ⟨logId, sub.endpointHash⟩) =
      waiting (seen me start ⟨logId, sub.endpointHash⟩) := by
    intro sub member
    rw [prepares sub member, claimable_prepared, sameWaiting]
  exact {
    idle := closed.idle
    acquired := acquired
    listed := by
      rw [sent.listed]
      exact List.filter_congr isDue
    called := sent.called
    history := by rw [closed.history, sent.history, across.1.history, started.history]
    finished := fun attempt member => (rows _).trans (sent.finished attempt member)
    passed := by
      intro sub member settled
      have shut := isDue sub member
      rw [settled] at shut
      have kept : seen me ready ⟨logId, sub.endpointHash⟩ = seen me begun ⟨logId, sub.endpointHash⟩ := by
        have present : seen me begun ⟨logId, sub.endpointHash⟩ ≠ none := by
          intro absent
          have waits := sameWaiting ⟨logId, sub.endpointHash⟩
          rw [settled, absent] at waits
          cases waits
        rw [prepares sub member]
        cases status : seen me begun ⟨logId, sub.endpointHash⟩ with
        | none => exact absurd status present
        | some status => rfl
      rw [rows, sent.closed sub member shut, kept]
      exact (started.status _).symm
    nobody := fun empty => absurd empty somebody
    recorded := recorded }

/-- The last update, or the failure of it. -/
theorem finishNotification_recorded {crypto : Crypto} {log : ScheduledNotificationLog} {result : SendResult}
    {begun ready : World} {attempts : List (PushSubscription × List (Bool × Option Nat))}
    (somebody : eligible "event" start ≠ [])
    (loaded : Recorded logId log.status ⟨log.acceptedCount, log.failedCount⟩ world)
    (opened : Opened logId world)
    (counted : deliveryCounts me world.deliveries logId = ⟨result.accepted, result.failed⟩)
    (started : Begun me start begun) (acquired : begun.acquirer logId = some me)
    (across : Across me logId (ensured ((eligible "event" start).map (·.endpointHash))) begun ready)
    (sent : Sent me crypto 3 logId ready (eligible "event" start) attempts world) :
    (finishNotification logId log result).Ensures (machine.alone me may).recording
      (fun finished ended => match finished with
        | none => Finished me crypto logId start attempts ended.1 ∧ ended.2 = []
        | some _ => ∃ failing, Handled may logId failing ended)
      (fun reason ended => Failed me may logId reason ended.1) (world, []) := by
  unfold finishNotification
  simp only [ensures_catchWith, bind_eq, ensures_bind, pure_eq, ensures_ret]
  refine (updateNotificationLog_alone log _ _ _ sent.idle loaded).recorded (updateNotificationLog_plain ..) ?_ ?_
  · rintro _ after ⟨-, -, -, closed, deliveries, recorded, kept⟩
    have mine : after.acquirer logId = some me := by
      rw [kept, sent.acquirer, across.1.acquirer]
      exact acquired
    refine ⟨sent.finished_of somebody started across closed deliveries mine ?_, rfl⟩
    rw [deliveries, counted, closing, if_neg somebody]
    exact recorded
  · intro reason failing raised
    have still : Opened logId failing := opened.of_same (raised.2.2 logId)
    cases reason with
    | sqlAlchemy =>
      dsimp only
      rw [ensures_bind]
      exact (finalizeFailedNotification_recorded result.failed raised.1 raised.2.1 still).weaken
        (fun _ _ handled => ⟨failing, handled⟩) fun _ _ failed => failed
    | cancelled | operational | other => exact raised.failed opened.uncompleted

/-! ## The whole run -/

/-- How a run alone ends when it returns, and the exceptions that it met: the log was not
to be had, an exception was handled, or the run finished. -/
inductive Returned (me : SessionId) (may : Choice → Prop) (crypto : Crypto) (logId : LogId) (start : World) :
    Bool → World × List World → Prop where
  | skipped {ended : World × List World} (taken : ¬ Available logId start)
      (open_ : Uncompleted logId start → Uncompleted logId ended.1) :
      Returned me may crypto logId start true ended
  | handled {failing : World} {ended : World × List World} (handled : Handled may logId failing ended) :
      Returned me may crypto logId start false ended
  | finished {after : World} (attempts : List (PushSubscription × List (Bool × Option Nat)))
      (finished : Finished me crypto logId start attempts after) :
      Returned me may crypto logId start false (after, [])

/-- A log that the run finds in other hands was not to be had at its start. -/
theorem Cleared.not_available {cutoff : Nat} {row : ScheduledNotificationLog}
    (cleared : Cleared logId cutoff start world) (later : start.clock - scheduledLogStaleAfter ≤ cutoff)
    (stored : world.logs.committed logId = some row) (held : row.status ≠ .failed) :
    ¬ Available logId start := by
  intro available
  rcases cleared with ⟨_, row', -, -, last, failed⟩ | ⟨recent, same⟩
  · rw [stored] at last
    cases last
    exact held failed
  · rw [same] at stored
    rcases available row stored with failed | old
    · exact held failed
    · have old' : isStale cutoff row = true := by
        simp only [isStale, decide_eq_true_eq] at old ⊢
        exact ⟨old.1, by omega⟩
      rw [recent row stored] at old'
      cases old'

theorem Cleared.uncompleted {cutoff : Nat} (cleared : Cleared logId cutoff start world)
    (open_ : Uncompleted logId start) : Uncompleted logId world := by
  rcases cleared with ⟨_, row', -, -, last, failed⟩ | ⟨-, same⟩
  · intro row stored
    rw [last] at stored
    cases stored
    rw [failed]
    decide
  · exact open_.of_same same

/-- `is_already_sent`. -/
theorem isAlreadySent_alone (idle : Idle me world) :
    (isAlreadySent logId).Ensures (machine.alone me may)
      (fun sent after => (∃ seconds, after = world.tick seconds) ∧
        if sent then ∃ row, world.logs.committed logId = some row ∧ row.status ≠ .failed
        else Uncompleted logId world)
      (Raised me may world) world := by
  unfold isAlreadySent
  refine Ensures.weaken (read_alone (.selectSent logId)
    (world.logs.holds me logId fun row => row.status = .completed ∨ row.status = .inProgress)
    idle.working fun _ _ => rfl) ?_ fun _ _ raised => raised
  rintro sent after ⟨rfl, passed⟩
  refine ⟨passed, ?_⟩
  have read : world.logs.row me logId = world.logs.committed logId := idle.logs.row_eq me logId
  unfold Table.holds Uncompleted
  rw [read]
  cases stored : world.logs.committed logId with
  | none => simp
  | some row => cases status : row.status <;> simp [status]

/-- What a run alone does, from a store where no transaction is open. -/
theorem processSingleEvent_recorded (crypto : Crypto) (event : Event) (dType : DType) (idle : Idle me start) :
    (processSingleEvent crypto event dType).Ensures (machine.alone me may).recording
      (fun result ended => Returned me may crypto ⟨event.id, dType⟩ start result.skipped ended)
      (fun _ ended => CanRaise may ∧
        (Uncompleted ⟨event.id, dType⟩ start → Uncompleted ⟨event.id, dType⟩ ended.1)) (start, []) := by
  unfold processSingleEvent
  extract_lets logId
  simp only [bind_eq, ensures_bind]
  have lost : ∀ before, (Uncompleted logId start → Uncompleted logId before) →
      ∀ reason after, Raised me may before reason after →
        CanRaise may ∧ (Uncompleted logId start → Uncompleted logId after) :=
    fun _ kept _ _ raised => ⟨raised.1, fun open_ => (kept open_).of_same (raised.2.2 logId)⟩
  refine (@ask_alone me may start .utcNow
    (fun now after => ∃ seconds, now = start.clock + seconds ∧ after = start.tick seconds) idle.working
    fun choice seconds => ⟨_, _, rfl, seconds, rfl, rfl⟩).recorded (ask_plain _) ?_ (lost _ id)
  rintro now _ ⟨seconds, later, rfl⟩
  have cutoff : start.clock - scheduledLogStaleAfter ≤ now - scheduledLogStaleAfter := by
    rw [later]
    exact Nat.sub_le_sub_right (Nat.le_add_right _ _) _
  refine (reclaimStaleLog_alone _ (idle.tick seconds)).recorded (reclaimStaleLog_plain _) ?_ (lost _ id)
  rintro _ swept ⟨first, cleared⟩
  replace cleared : Cleared logId (now - scheduledLogStaleAfter) start swept := cleared
  have begun := (Begun.tick idle seconds).trans first
  refine (isAlreadySent_alone begun.idle).recorded isAlreadySent_plain ?_ (lost _ cleared.uncompleted)
  rintro sent _ ⟨⟨later, rfl⟩, found⟩
  cases sent with
  | true =>
    rw [if_pos rfl] at found ⊢
    obtain ⟨row, stored, held⟩ := found
    exact .skipped (cleared.not_available cutoff stored held) cleared.uncompleted
  | false =>
    rw [if_neg (by simp)] at found ⊢
    rw [ensures_bind]
    refine (@ask_alone me may (swept.tick later) .utcNow
      (fun _ after => ∃ seconds, after = (swept.tick later).tick seconds) (begun.idle.tick later).working
      fun choice seconds => ⟨_, _, rfl, seconds, rfl⟩).recorded (ask_plain _) ?_ (lost _ fun _ => found)
    rintro scheduledAt _ ⟨moment, rfl⟩
    have ready := (Begun.tick begun.idle later).trans (Begun.tick (begun.idle.tick later) moment)
    rw [ensures_bind]
    refine (createNotificationLog_alone scheduledAt ready.idle found).recorded (createNotificationLog_plain _) ?_
      fun _ _ raised => ⟨raised.1, fun _ => raised.2.2⟩
    rintro created taken ⟨creating, outcome⟩
    have whole := (begun.trans ready).trans creating
    cases created with
    | none =>
      obtain ⟨row, stored, held, kept⟩ := outcome
      refine .skipped (cleared.not_available cutoff stored held) fun _ => ?_
      exact found.of_same (kept.trans stored.symm)
    | some log =>
      obtain ⟨pending, -, failed, stored, acquired⟩ := outcome
      dsimp only
      rw [ensures_bind]
      refine (sendToEligible_recorded crypto event dType log whole acquired pending failed stored).weaken ?_
        fun _ _ never => never.elim
      rintro sending ⟨after, record⟩ done
      cases sending with
      | raised fallbackFailed reason =>
        obtain ⟨raises, working, opened, rfl⟩ := done
        have finalize := @finalizeFailedNotification_recorded me may after logId fallbackFailed raises
          working opened
        cases reason with
        | cancelled =>
          dsimp only
          rw [ensures_bind]
          exact finalize.weaken (fun _ _ handled => ⟨handled.canRaise, fun _ => handled.uncompleted⟩)
            fun _ _ left => ⟨left.1, fun _ => left.2.2⟩
        | other => exact ⟨raises, fun _ => opened.uncompleted⟩
        | sqlAlchemy | operational =>
          dsimp only
          rw [ensures_bind]
          exact finalize.weaken (fun _ _ handled => .handled handled)
            fun _ _ left => ⟨left.1, fun _ => left.2.2⟩
      | nobody =>
        obtain ⟨finished, rfl⟩ := done
        exact .finished [] finished
      | sent log result =>
        obtain ⟨somebody, recorded, opened, counted, rfl, current, prepared_, attempts, started, owner, across,
          sent⟩ := done
        dsimp only
        rw [ensures_bind]
        refine (finishNotification_recorded somebody recorded opened counted started owner across sent).weaken ?_
          fun _ _ raised => ⟨raised.1, fun _ => raised.2.2⟩
        rintro finished ⟨last, record⟩ closed
        cases finished with
        | none =>
          obtain ⟨finished, rfl⟩ := closed
          exact .finished attempts finished
        | some counts =>
          obtain ⟨failing, handled⟩ := closed
          exact .handled handled

end SogeconApp.Guarantees.ScheduledPush
