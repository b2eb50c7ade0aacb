import SogeconApp.Library.Sessions

/-!
# Scheduled push: rows, statements and the store

Source: `apps/api/models.py` (ScheduledNotificationLog, ScheduledNotificationDelivery,
PushSubscription, NotificationPreference), and the statements of
`apps/api/repositories/scheduled_notifications.py`, `notifications.py`,
`notification_preferences.py`, `send_logs.py` and
`apps/api/services/scheduled_notifications_service.py`.

A log row is addressed by the pair its unique index makes a key, a delivery row by its
log and endpoint hash. `func.now()` is the clock at the statement. Send logs and
subscriptions change only by statements that the repository commits at once. The
fields of `World` from `history` on are not in the database: they record who does
what, and no statement answers from them.
-/

namespace SogeconApp.Source.ScheduledPush

open Library

inductive DType where
  | d3 | d1
  deriving DecidableEq, Repr

/-- `ix_scheduled_notification_event_dtype`: one log for an event and a d_type. -/
structure LogId where
  eventId : Nat
  dType : DType
  deriving DecidableEq, Repr

inductive LogStatus where
  | pending | inProgress | completed | failed
  deriving DecidableEq, Repr

inductive DeliveryStatus where
  | pending | inProgress | completed | failed | unknown | abandoned
  deriving DecidableEq, Repr

structure ScheduledNotificationLog where
  scheduledAt : Nat
  sentAt : Option Nat
  acceptedCount : Nat
  failedCount : Nat
  status : LogStatus
  updatedAt : Nat
  deriving DecidableEq, Repr

/-- `uq_scheduled_notification_delivery_log_endpoint`: one delivery for a log and an endpoint. -/
structure DeliveryId where
  log : LogId
  endpointHash : String
  deriving DecidableEq, Repr

structure ScheduledNotificationDelivery where
  status : DeliveryStatus
  statusCode : Option Nat
  attempts : Nat
  claimedAt : Option Nat
  finishedAt : Option Nat
  deriving DecidableEq, Repr

structure PushSubscription where
  memberId : Option Nat
  endpoint : String
  endpointHash : String
  p256dh : String
  auth : String
  revokedAt : Option Nat
  deriving DecidableEq, Repr

/-- `push_subscriptions`: `endpoint_hash` is unique, and what `upsert_subscription` stores
there is a SHA-256 digest. -/
structure Subscriptions where
  rows : List PushSubscription
  unique : (rows.map (·.endpointHash)).Nodup
  hashed : ∀ sub ∈ rows, sub.endpointHash ≠ ""

def Subscriptions.delete (hashes : List String) (subscriptions : Subscriptions) : Subscriptions where
  rows := subscriptions.rows.filter fun sub => sub.endpointHash ∉ hashes
  unique := subscriptions.unique.sublist (List.Sublist.map _ List.filter_sublist)
  hashed sub member := subscriptions.hashed sub (List.mem_filter.mp member).1

structure NotificationPreference where
  memberId : Nat
  channel : String
  topic : String
  enabled : Bool
  deriving DecidableEq, Repr

structure DeliveryCounts where
  accepted : Nat
  failed : Nat
  deriving DecidableEq, Repr

structure NotificationSendLog where
  ok : Bool
  statusCode : Option Nat
  endpointHash : String
  endpointTail : String
  deriving DecidableEq, Repr

structure Payload where
  title : String
  body : String
  url : String
  deriving DecidableEq, Repr

/-- The exceptions that `process_single_event` tells apart. -/
inductive Failure where
  | cancelled
  | sqlAlchemy
  /-- RuntimeError, TypeError, ValueError, OSError and RequestException. -/
  | operational
  | other
  deriving DecidableEq, Repr

inductive Stmt where
  | utcNow
  | sleep
  | selectSent (log : LogId)
  | upsertLog (log : LogId) (scheduledAt : Nat)
  | refreshLog (log : LogId)
  | flushLog (log : LogId) (loaded latest : ScheduledNotificationLog)
  | takeStaleLog (log : LogId) (cutoff : Nat)
  | selectStaleLogs (cutoff : Nat)
  | lockStaleLog (log : LogId) (cutoff : Nat)
  | finishLog (log : LogId) (counts : DeliveryCounts)
  | selectDeliveries (log : LogId) (statuses : List DeliveryStatus)
  | expireClaim (delivery : DeliveryId)
  | abandonDelivery (delivery : DeliveryId)
  | insertDelivery (delivery : DeliveryId)
  | selectStates (log : LogId) (hashes : List String)
  | selectClaimable (log : LogId) (hashes : List String)
  | lockClaimable (delivery : DeliveryId)
  | flushClaim (delivery : DeliveryId) (loaded : ScheduledNotificationDelivery)
  | recordResult (delivery : DeliveryId) (status : DeliveryStatus) (statusCode : Option Nat)
  | countDeliveries (log : LogId)
  | selectActiveSubscriptions
  | selectOptedOut (channel topic : String)
  | insertSendLogs (rows : List NotificationSendLog)
  | deleteSubscriptions (hashes : List String)
  /-- The provider's request leaves; the delivery is the one it is made for, if any. -/
  | dispatch (delivery : Option DeliveryId) (sub : PushSubscription) (payload : Payload)
  | awaitAnswer (delivery : Option DeliveryId)
  | commit
  | rollback
  deriving DecidableEq

@[reducible] def Reply : Stmt → Type
  | .utcNow => Nat
  | .selectSent _ | .upsertLog .. | .takeStaleLog .. | .lockStaleLog .. => Bool
  | .refreshLog _ => ScheduledNotificationLog
  | .selectStaleLogs _ => List LogId
  | .selectDeliveries .. | .selectClaimable .. => List DeliveryId
  | .selectStates .. => List (String × DeliveryStatus)
  | .lockClaimable _ => Option ScheduledNotificationDelivery
  | .countDeliveries _ => DeliveryCounts
  | .selectActiveSubscriptions => List PushSubscription
  | .selectOptedOut .. => List Nat
  | .awaitAnswer _ => Bool × Option Nat
  | _ => Unit

abbrev push : Signature where
  Stmt := Stmt
  Reply := Reply
  Exn := Failure

/-! ## The store -/

/-- What happened to a delivery, as the provider and the claim columns see it. -/
inductive Happening where
  | claimed (delivery : DeliveryId)
  | dispatched (delivery : DeliveryId)
  | answered (delivery : DeliveryId) (ok : Bool) (status : Option Nat)
  | raised (delivery : DeliveryId)
  | recorded (delivery : DeliveryId) (status : DeliveryStatus)
  /-- The session that claimed the delivery rolled back, ended or crashed before
  `record_delivery_results` committed. -/
  | lost (delivery : DeliveryId)
  deriving DecidableEq, Repr

/-- The claim that a session is working on. -/
inductive Attempt where
  | idle
  | claiming (delivery : DeliveryId)
  | holding (delivery : DeliveryId)
  | recording (delivery : DeliveryId) (status : DeliveryStatus)
  deriving DecidableEq, Repr

/-- Why the open transaction of a session writes log rows. -/
inductive LogIntent where
  | own | acquire | reclaim
  deriving DecidableEq, Repr

structure World where
  logs : Table LogId ScheduledNotificationLog
  deliveries : Table DeliveryId ScheduledNotificationDelivery
  subscriptions : Subscriptions
  preferences : List NotificationPreference
  sendLogs : List NotificationSendLog
  clock : Nat
  history : List Happening
  attempt : SessionId → Attempt
  intent : SessionId → LogIntent
  /-- The session that acquired the log last, until a stale sweep takes the log back. -/
  acquirer : LogId → Option SessionId
  gone : SessionId → Bool

def isClaimable (row : ScheduledNotificationDelivery) : Bool :=
  row.status = .pending ∨ row.status = .failed

/-- `status IN ('pending', 'in_progress') AND updated_at < cutoff`. -/
def isStale (cutoff : Nat) (row : ScheduledNotificationLog) : Bool :=
  (row.status = .pending ∨ row.status = .inProgress) ∧ row.updatedAt < cutoff

/-- The ORM writes the columns that differ from the loaded object. -/
def changed {β : Type} [DecidableEq β] (loaded latest stored : β) : β :=
  if latest = loaded then stored else latest

/-- `UPDATE` of the changed columns of a log object; `sent_at` and `updated_at` are SQL expressions. -/
def flushedLog (now : Nat) (loaded latest stored : ScheduledNotificationLog) :
    ScheduledNotificationLog where
  scheduledAt := stored.scheduledAt
  sentAt := if latest.status = .completed then some now else stored.sentAt
  acceptedCount := changed loaded.acceptedCount latest.acceptedCount stored.acceptedCount
  failedCount := changed loaded.failedCount latest.failedCount stored.failedCount
  status := changed loaded.status latest.status stored.status
  updatedAt := now

/-- `.values(status="failed", accepted_count=.., failed_count=.., sent_at=None, updated_at=now())`. -/
def failedLog (now : Nat) (counts : DeliveryCounts) (stored : ScheduledNotificationLog) :
    ScheduledNotificationLog :=
  { stored with
    status := .failed
    acceptedCount := counts.accepted
    failedCount := counts.failed
    sentAt := none
    updatedAt := now }

/-- `INSERT .. ON CONFLICT (event_id, d_type) DO UPDATE .. WHERE status = 'failed'`, on the
visible row. -/
def acquiredLog (now scheduledAt : Nat) : Option ScheduledNotificationLog → Option ScheduledNotificationLog
  | none =>
    some { scheduledAt, sentAt := none, acceptedCount := 0, failedCount := 0, status := .pending
           updatedAt := now }
  | some row =>
    if row.status = .failed then
      some { row with status := .pending, scheduledAt, acceptedCount := 0, failedCount := 0
                      sentAt := none, updatedAt := now }
    else none

/-- `COUNT` of completed and of unresolved deliveries of a log, as the session sees them. -/
def deliveryCounts (me : SessionId) (deliveries : Table DeliveryId ScheduledNotificationDelivery)
    (log : LogId) : DeliveryCounts where
  accepted := (deliveries.select me fun id row => id.log = log ∧ row.status = .completed).length
  failed := (deliveries.select me fun id row => id.log = log ∧
    row.status ∈ [.pending, .inProgress, .failed, .unknown]).length

namespace World

/-- A database without logs and deliveries. -/
def blank (clock : Nat) (subscriptions : Subscriptions) (preferences : List NotificationPreference) :
    World where
  logs := .empty
  deliveries := .empty
  subscriptions := subscriptions
  preferences := preferences
  sendLogs := []
  clock := clock
  history := []
  attempt _ := .idle
  intent _ := .own
  acquirer _ := none
  gone _ := false

/-- What the open claim of a session becomes when its transaction commits. -/
def attemptCommitted : Attempt → Attempt
  | .claiming delivery => .holding delivery
  | .recording .. => .idle
  | .idle => .idle
  | .holding delivery => .holding delivery

def attemptNews : Attempt → List Happening
  | .claiming delivery => [.claimed delivery]
  | .recording delivery status => [.recorded delivery status]
  | _ => []

def lostNews : Attempt → List Happening
  | .holding delivery | .recording delivery _ => [.lost delivery]
  | _ => []

def commit (me : SessionId) (world : World) : World :=
  { world with
    logs := world.logs.commit me
    deliveries := world.deliveries.commit me
    history := world.history ++ attemptNews (world.attempt me)
    attempt := Function.update world.attempt me (attemptCommitted (world.attempt me))
    acquirer := fun log =>
      match (world.logs.slot log).draft with
      | some (owner, _) =>
        if owner = me then
          match world.intent me with
          | .acquire => some me
          | .reclaim => none
          | .own => world.acquirer log
        else world.acquirer log
      | none => world.acquirer log
    intent := Function.update world.intent me .own }

/-- The commit of a drafted log makes its session the acquirer, or nobody, as the transaction was meant.
-/
theorem commit_acquirer_of_draft {me : SessionId} {world : World} {log : LogId}
    {version : Option ScheduledNotificationLog} (mine : (world.logs.slot log).draft = some (me, version)) :
    (world.commit me).acquirer log =
      match world.intent me with
      | .acquire => some me
      | .reclaim => none
      | .own => world.acquirer log := by
  simp [commit, mine]

theorem commit_acquirer_of_not_mine {me : SessionId} {world : World} {log : LogId}
    (other : ∀ version, (world.logs.slot log).draft ≠ some (me, version)) :
    (world.commit me).acquirer log = world.acquirer log := by
  simp only [commit]
  split
  · next owner version drafted =>
    rw [if_neg]
    rintro rfl
    exact other version drafted
  · rfl

def rollback (me : SessionId) (world : World) : World :=
  { world with
    logs := world.logs.abort me
    deliveries := world.deliveries.abort me
    history := world.history ++ lostNews (world.attempt me)
    attempt := Function.update world.attempt me .idle
    intent := Function.update world.intent me .own }

/-- The connection goes back to the pool: an open transaction is rolled back. -/
def leave (me : SessionId) (world : World) : World :=
  { world.rollback me with gone := Function.update world.gone me true }

def tick (seconds : Nat) (world : World) : World :=
  { world with clock := world.clock + seconds }

def happen (news : List Happening) (world : World) : World :=
  { world with history := world.history ++ news }

end World

/-! ## Statements -/

/-- What the environment decides at a statement: an exception, the provider's answer, and
the time that passes before it. -/
structure Choice where
  fails : Option Failure := none
  answer : Bool × Option Nat := (false, none)
  elapsed : Nat := 0

def updateLog (me : SessionId) (log : LogId) (cond : ScheduledNotificationLog → Bool)
    (change : ScheduledNotificationLog → ScheduledNotificationLog) (world : World) :
    Option (Bool × World) :=
  (world.logs.updateRow me log cond change).map fun (hit, logs) => (hit, { world with logs })

def updateDelivery (me : SessionId) (delivery : DeliveryId)
    (cond : ScheduledNotificationDelivery → Bool)
    (change : ScheduledNotificationDelivery → ScheduledNotificationDelivery) (world : World) :
    Option (Unit × World) :=
  (world.deliveries.updateRow me delivery cond change).map fun (_, deliveries) =>
    ((), { world with deliveries })

/-- A provider call that raised is recorded against the delivery it was made for. -/
def failed (stmt : Stmt) (world : World) : World :=
  match stmt with
  | .dispatch (some delivery) .. | .awaitAnswer (some delivery) => world.happen [.raised delivery]
  | _ => world

/-- A statement that does not raise. -/
def answer (me : SessionId) (stmt : Stmt) (choice : Choice) (world : World) :
    Option (Reply stmt × World) :=
  match stmt with
  | .utcNow => some (world.clock, world)
  | .sleep => some ((), world)
  | .selectSent log =>
    some (world.logs.holds me log fun row => row.status = .completed ∨ row.status = .inProgress, world)
  | .upsertLog log scheduledAt =>
    if (world.logs.slot log).lockedFor me then none
    else
      match acquiredLog world.clock scheduledAt (world.logs.row me log) with
      | some row =>
        some (true, { world with
          logs := world.logs.write me log (some row)
          intent := Function.update world.intent me .acquire })
      | none => some (false, world)
  | .refreshLog log => (world.logs.row me log).map fun row => (row, world)
  | .flushLog log loaded latest =>
    (updateLog me log (fun _ => true) (flushedLog world.clock loaded latest) world).map
      fun (_, world) => ((), world)
  | .takeStaleLog log cutoff =>
    (updateLog me log (isStale cutoff)
      (fun row => { row with status := .failed, updatedAt := world.clock }) world).map
      fun (hit, world) =>
        (hit, if hit then { world with intent := Function.update world.intent me .reclaim } else world)
  | .selectStaleLogs cutoff => some (world.logs.select me fun _ => isStale cutoff, world)
  | .lockStaleLog log cutoff =>
    match world.logs.lockRow me log (isStale cutoff) with
    | (some _, logs) =>
      some (true, { world with logs, intent := Function.update world.intent me .reclaim })
    | (none, _) => some (false, world)
  | .finishLog log counts =>
    (updateLog me log (fun _ => true) (failedLog world.clock counts) world).map
      fun (_, world) => ((), world)
  | .selectDeliveries log statuses =>
    some (world.deliveries.select me fun id row => id.log = log ∧ row.status ∈ statuses, world)
  | .expireClaim delivery =>
    updateDelivery me delivery (fun row => row.status = .inProgress)
      (fun row => { row with status := .unknown, statusCode := none, finishedAt := some world.clock }) world
  | .abandonDelivery delivery =>
    updateDelivery me delivery isClaimable
      (fun row => { row with status := .abandoned, finishedAt := some world.clock }) world
  | .insertDelivery delivery =>
    (world.deliveries.insertRow me delivery
      { status := .pending, statusCode := none, attempts := 0, claimedAt := none
        finishedAt := none }).map fun (_, deliveries) => ((), { world with deliveries })
  | .selectStates log hashes =>
    some ((world.deliveries.select me fun id _ => id.log = log ∧ id.endpointHash ∈ hashes).filterMap
      fun id => (world.deliveries.row me id).map fun row => (id.endpointHash, row.status), world)
  | .selectClaimable log hashes =>
    some (world.deliveries.select me fun id row =>
      id.log = log ∧ id.endpointHash ∈ hashes ∧ isClaimable row, world)
  | .lockClaimable delivery =>
    match world.deliveries.lockRow me delivery isClaimable with
    | (some row, deliveries) =>
      some (some row, { world with
        deliveries, attempt := Function.update world.attempt me (.claiming delivery) })
    | (none, _) => some (none, world)
  | .flushClaim delivery loaded =>
    updateDelivery me delivery (fun _ => true)
      (fun row => { row with
        status := .inProgress, attempts := loaded.attempts + 1, claimedAt := some world.clock
        finishedAt := none, statusCode := none }) world
  | .recordResult delivery status statusCode =>
    (updateDelivery me delivery (fun _ => true)
      (fun row => { row with status, statusCode, finishedAt := some world.clock }) world).map
      fun (_, world) =>
        ((), { world with attempt := Function.update world.attempt me (.recording delivery status) })
  | .countDeliveries log => some (deliveryCounts me world.deliveries log, world)
  | .selectActiveSubscriptions =>
    some (world.subscriptions.rows.filter fun sub => sub.revokedAt.isNone, world)
  | .selectOptedOut channel topic =>
    some ((world.preferences.filter fun pref =>
      pref.channel = channel ∧ pref.topic = topic ∧ pref.enabled = false).map (·.memberId), world)
  | .insertSendLogs rows => some ((), { world with sendLogs := world.sendLogs ++ rows })
  | .deleteSubscriptions hashes =>
    some ((), { world with subscriptions := world.subscriptions.delete hashes })
  | .dispatch delivery _ _ =>
    some ((), world.happen (delivery.toList.map .dispatched))
  | .awaitAnswer delivery =>
    some (choice.answer, world.happen
      (delivery.toList.map fun id => .answered id choice.answer.1 choice.answer.2))
  | .commit => some ((), world.commit me)
  | .rollback => some ((), world.rollback me)

def exec (me : SessionId) (stmt : Stmt) (choice : Choice) (world : World) :
    Option (Except Failure (Reply stmt) × World) :=
  match choice.fails with
  | some reason => some (.error reason, failed stmt (world.tick choice.elapsed))
  | none => (answer me stmt choice (world.tick choice.elapsed)).map fun (reply, world) => (.ok reply, world)

/-- A statement raises or answers. -/
theorem exec_cases {me : SessionId} {stmt : Stmt} {choice : Choice} {world world' : World}
    {reply : Except Failure (Reply stmt)} (done : exec me stmt choice world = some (reply, world')) :
    (∃ reason, choice.fails = some reason ∧ reply = .error reason ∧
        world' = failed stmt (world.tick choice.elapsed)) ∨
      ∃ answered, choice.fails = none ∧ reply = .ok answered ∧
        answer me stmt choice (world.tick choice.elapsed) = some (answered, world') := by
  unfold exec at done
  split at done
  · next reason fails =>
    cases done
    exact .inl ⟨reason, fails, rfl, rfl⟩
  · next fails =>
    obtain ⟨⟨answered, world₁⟩, answers, same⟩ := Option.map_eq_some_iff.mp done
    cases same
    exact .inr ⟨answered, fails, rfl, answers⟩

theorem updateLog_world {me : SessionId} {world world' : World} {log : LogId}
    {cond : ScheduledNotificationLog → Bool}
    {change : ScheduledNotificationLog → ScheduledNotificationLog} {hit : Bool}
    (done : updateLog me log cond change world = some (hit, world')) :
    ∃ logs, world.logs.updateRow me log cond change = some (hit, logs) ∧ world' = { world with logs } := by
  obtain ⟨⟨found, logs⟩, updated, same⟩ := Option.map_eq_some_iff.mp done
  cases same
  exact ⟨logs, updated, rfl⟩

theorem updateDelivery_world {me : SessionId} {world world' : World} {delivery : DeliveryId}
    {cond : ScheduledNotificationDelivery → Bool}
    {change : ScheduledNotificationDelivery → ScheduledNotificationDelivery} {reply : Unit}
    (done : updateDelivery me delivery cond change world = some (reply, world')) :
    ∃ hit deliveries, world.deliveries.updateRow me delivery cond change = some (hit, deliveries) ∧
      world' = { world with deliveries } := by
  obtain ⟨⟨hit, deliveries⟩, updated, same⟩ := Option.map_eq_some_iff.mp done
  cases same
  exact ⟨hit, deliveries, updated, rfl⟩

/-- A step that is no commit concerns its own session: its drafts, its claim, its intent. -/
structure Private (me : SessionId) (before after : World) : Prop where
  logs : before.logs.Drafts me after.logs
  deliveries : before.deliveries.Drafts me after.deliveries
  attempt : ∀ other, other ≠ me → after.attempt other = before.attempt other
  intent : ∀ other, other ≠ me → after.intent other = before.intent other

/-- Short of a commit, a statement drafts rows for its own session and no more. -/
theorem answer_private {me : SessionId} {stmt : Stmt} {choice : Choice} {world world' : World}
    {reply : Reply stmt} (done : answer me stmt choice world = some (reply, world'))
    (short : stmt ≠ .commit) : Private me world world' := by
  have untouched : ∀ {β : Type} {f : SessionId → β} {value : β} (other : SessionId), other ≠ me →
      Function.update f me value other = f other := fun other different =>
    Function.update_of_ne different ..
  cases stmt with
  | utcNow | sleep | selectSent log | selectStaleLogs cutoff | selectDeliveries log statuses
  | selectStates log hashes | selectClaimable log hashes | countDeliveries log
  | selectActiveSubscriptions | selectOptedOut channel topic | insertSendLogs rows
  | deleteSubscriptions hashes | dispatch target sub payload | awaitAnswer target =>
    cases done
    exact ⟨.same, .same, fun _ _ => rfl, fun _ _ => rfl⟩
  | refreshLog log =>
    obtain ⟨row, seen, same⟩ := Option.map_eq_some_iff.mp done
    cases same
    exact ⟨.same, .same, fun _ _ => rfl, fun _ _ => rfl⟩
  | expireClaim target | abandonDelivery target | flushClaim target loaded =>
    obtain ⟨hit, deliveries, updated, rfl⟩ := updateDelivery_world done
    exact ⟨.same, Table.updateRow_drafts updated, fun _ _ => rfl, fun _ _ => rfl⟩
  | insertDelivery target =>
    obtain ⟨⟨hit, deliveries⟩, inserted, same⟩ := Option.map_eq_some_iff.mp done
    cases same
    rcases Table.insertRow_cases inserted with ⟨-, rfl⟩ | ⟨-, -, -, rfl⟩
    · exact ⟨.same, .same, fun _ _ => rfl, fun _ _ => rfl⟩
    · exact ⟨.same, .write target _, fun _ _ => rfl, fun _ _ => rfl⟩
  | lockClaimable target =>
    simp only [answer] at done
    split at done
    · next row deliveries locked =>
      cases done
      rcases Table.lockRow_cases locked with ⟨missing, -⟩ | ⟨version, -, -, -, -, rfl⟩
      · cases missing
      · exact ⟨.same, .write target _, untouched, fun _ _ => rfl⟩
    · cases done
      exact ⟨.same, .same, fun _ _ => rfl, fun _ _ => rfl⟩
  | recordResult target status code =>
    obtain ⟨⟨answered, world₁⟩, stored, same⟩ := Option.map_eq_some_iff.mp done
    cases same
    obtain ⟨hit, deliveries, updated, rfl⟩ := updateDelivery_world stored
    exact ⟨.same, Table.updateRow_drafts updated, untouched, fun _ _ => rfl⟩
  | upsertLog target scheduledAt =>
    simp only [answer] at done
    split at done
    · cases done
    · split at done <;> cases done
      · exact ⟨.write target _, .same, fun _ _ => rfl, untouched⟩
      · exact ⟨.same, .same, fun _ _ => rfl, fun _ _ => rfl⟩
  | flushLog target loaded latest | finishLog target counts =>
    obtain ⟨⟨hit, world₁⟩, updated, same⟩ := Option.map_eq_some_iff.mp done
    cases same
    obtain ⟨logs, stored, rfl⟩ := updateLog_world updated
    exact ⟨Table.updateRow_drafts stored, .same, fun _ _ => rfl, fun _ _ => rfl⟩
  | takeStaleLog target cutoff =>
    obtain ⟨⟨hit, world₁⟩, updated, same⟩ := Option.map_eq_some_iff.mp done
    cases same
    obtain ⟨logs, stored, rfl⟩ := updateLog_world updated
    have drafts := Table.updateRow_drafts stored
    cases reply with
    | false => exact ⟨drafts, .same, fun _ _ => rfl, fun _ _ => rfl⟩
    | true => exact ⟨drafts, .same, fun _ _ => rfl, untouched⟩
  | lockStaleLog target cutoff =>
    simp only [answer] at done
    split at done
    · next row logs locked =>
      cases done
      rcases Table.lockRow_cases locked with ⟨missing, -⟩ | ⟨version, -, -, -, -, rfl⟩
      · cases missing
      · exact ⟨.write target _, .same, fun _ _ => rfl, untouched⟩
    · cases done
      exact ⟨.same, .same, fun _ _ => rfl, fun _ _ => rfl⟩
  | commit => exact absurd rfl short
  | rollback =>
    cases done
    exact ⟨.abort, .abort, untouched, untouched⟩

/-- Subscriptions and preferences of other requests, and the passing of time. -/
inductive Outside where
  | tick (seconds : Nat)
  | subscribe (subscriptions : Subscriptions)
  | prefer (preferences : List NotificationPreference)

def outside : Outside → World → World
  | .tick seconds, world => world.tick seconds
  | .subscribe subscriptions, world => { world with subscriptions }
  | .prefer preferences, world => { world with preferences }

abbrev machine : Machine push where
  World := World
  Choice := Choice
  Outside := Outside
  exec := exec
  close := World.leave
  crash := World.leave
  outside := outside

end SogeconApp.Source.ScheduledPush
