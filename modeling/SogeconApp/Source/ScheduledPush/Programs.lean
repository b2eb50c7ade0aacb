import SogeconApp.Source.ScheduledPush.Store

/-!
# Scheduled push: repositories and services as programs

Source: `apps/api/repositories/scheduled_notifications.py`, `send_logs.py`,
`notifications.py`, `apps/api/services/scheduled_delivery_service.py` and
`scheduled_notifications_service.py`. Every `await db.execute`, commit, rollback and
provider call is a statement, in source order; a statement over many rows reads the
matching keys and then visits the rows one by one. An exception leaves at the
statement that raises it. Logging is left out.
-/

namespace SogeconApp.Source.ScheduledPush

open Library Program

abbrev Push (α : Type) := Program push α

abbrev ask (stmt : Stmt) : Push (Reply stmt) := @issue push stmt

/-- `crypto_utils.decrypt_str` under the current settings (`none`: CryptoError), and SHA-256. -/
structure Crypto where
  decryptStr : String → Option String
  sha256Hex : String → String

/-! ## repositories/scheduled_notifications.py -/

structure DeliveryClaim where
  id : DeliveryId
  endpointHash : String
  deriving DecidableEq, Repr

structure DeliveryResult where
  claim : DeliveryClaim
  ok : Bool
  statusCode : Option Nat
  uncertain : Bool := false
  deriving DecidableEq, Repr

/-- `list(dict.fromkeys(value for value in endpoint_hashes if value))`. -/
def cleanHashes (endpointHashes : List String) : List String :=
  (endpointHashes.filter fun value => value ≠ "").eraseDups

/-- `UPDATE .. SET status='unknown' WHERE scheduled_log_id = .. AND status = 'in_progress'`. -/
def expireClaims (logId : LogId) : Push Unit := do
  let rows ← ask (.selectDeliveries logId [.inProgress])
  forEach (fun delivery => ask (.expireClaim delivery)) rows

def ensureDeliveries (logId : LogId) (endpointHashes : List String) : Push Unit := do
  let hashes := cleanHashes endpointHashes
  let rows ← ask (.selectDeliveries logId [.pending, .failed])
  forEach (fun delivery => ask (.abandonDelivery delivery))
    (rows.filter fun delivery => delivery.endpointHash ∉ hashes)
  if hashes = [] then
    ask .commit
  else
    forEach (fun hash => ask (.insertDelivery ⟨logId, hash⟩)) hashes
    ask .commit

def getDeliveryStates (logId : LogId) (endpointHashes : List String) :
    Push (List (String × DeliveryStatus)) := do
  let hashes := cleanHashes endpointHashes
  if hashes = [] then
    pure []
  else
    ask (.selectStates logId hashes)

/-- The row that `FOR UPDATE SKIP LOCKED` returns under a key, if it is still claimable. -/
def lockClaimable (delivery : DeliveryId) :
    Push (Option (DeliveryId × ScheduledNotificationDelivery)) := do
  let row ← ask (.lockClaimable delivery)
  pure (row.map fun loaded => (delivery, loaded))

def claimDeliveries (logId : LogId) (endpointHashes : List String) : Push (List DeliveryClaim) := do
  let hashes := cleanHashes endpointHashes
  if hashes = [] then
    ask .commit
    pure []
  else
    let candidates ← ask (.selectClaimable logId hashes)
    let rows ← collectEach lockClaimable candidates
    let claims := rows.map fun row => { id := row.1, endpointHash := row.1.endpointHash : DeliveryClaim }
    forEach (fun row => ask (.flushClaim row.1 row.2)) rows
    ask .commit
    pure claims

def recordDeliveryResults (results : List DeliveryResult) : Push Unit := do
  forEach (fun result => ask (.recordResult result.claim.id
    (if result.uncertain then .unknown else if result.ok then .completed else .failed)
    result.statusCode)) results
  ask .commit

def getDeliveryCounts (logId : LogId) : Push DeliveryCounts :=
  ask (.countDeliveries logId)

def finalizeStaleLog (logId : LogId) : Push DeliveryCounts := do
  expireClaims logId
  let counts ← getDeliveryCounts logId
  ask (.finishLog logId counts)
  pure counts

def reclaimStaleLog (logId : LogId) (cutoff : Nat) : Push Bool := do
  let taken ← ask (.takeStaleLog logId cutoff)
  if taken then
    let _ ← finalizeStaleLog logId
    ask .commit
    pure true
  else
    ask .commit
    pure false

/-- The log that `FOR UPDATE SKIP LOCKED` returns under a key, if it is still stale. -/
def lockStaleLog (cutoff : Nat) (logId : LogId) : Push (Option LogId) := do
  let locked ← ask (.lockStaleLog logId cutoff)
  pure (if locked then some logId else none)

def reclaimStaleLogs (cutoff : Nat) : Push Nat := do
  let candidates ← ask (.selectStaleLogs cutoff)
  let logIds ← collectEach (lockStaleLog cutoff) candidates
  if logIds = [] then
    ask .commit
    pure 0
  else
    forEach (fun logId => do
      let _ ← finalizeStaleLog logId
      pure ()) logIds
    ask .commit
    pure logIds.length

def markLogFailed (logId : LogId) (fallbackFailed : Nat) : Push DeliveryCounts := do
  expireClaims logId
  let counts ← getDeliveryCounts logId
  let counts : DeliveryCounts :=
    if counts.accepted = 0 ∧ counts.failed = 0 ∧ fallbackFailed > 0 then
      { accepted := 0, failed := fallbackFailed }
    else counts
  ask (.finishLog logId counts)
  ask .commit
  pure counts

/-! ## repositories/send_logs.py and notifications.py -/

structure SendLogItem where
  ok : Bool
  statusCode : Option Nat
  endpoint : Option String := none
  storedEndpointHash : Option String := none
  deriving DecidableEq, Repr

/-- `value[-16:]`. -/
def tail16 (value : String) : String :=
  String.ofList (value.toList.drop (value.length - 16))

def sendLogRow (crypto : Crypto) (item : SendLogItem) : Option NotificationSendLog :=
  let row (endpointHash tail : String) : NotificationSendLog :=
    { ok := item.ok, statusCode := item.statusCode, endpointHash, endpointTail := tail }
  match item.storedEndpointHash, item.endpoint with
  | some stored, endpoint =>
    if stored ≠ "" then some (row stored (tail16 stored))
    else endpoint.bind fun plain =>
      if plain ≠ "" then some (row (crypto.sha256Hex plain) (tail16 plain)) else none
  | none, some plain => if plain ≠ "" then some (row (crypto.sha256Hex plain) (tail16 plain)) else none
  | none, none => none

/-- `create_logs_batch`: nothing is sent to the database for an empty batch. -/
def createLogsBatch (crypto : Crypto) (items : List SendLogItem) : Push Unit := do
  let rows := items.filterMap (sendLogRow crypto)
  if rows = [] then
    pure ()
  else
    ask (.insertSendLogs rows)
    ask .commit

/-- `values[i : i + size] for i in range(0, len(values), size)`. -/
def batches {β : Type} (size : Nat) (values : List β) : List (List β) :=
  (List.range' 0 ((values.length + size - 1) / size) size).map fun i => (values.drop i).take size

/-- The slices of a list from multiples of the size, put together again. -/
theorem slices_flatten {β : Type} (values : List β) (size count first : Nat) :
    ((List.range' first count size).map fun i => (values.drop i).take size).flatten =
      (values.drop first).take (count * size) := by
  induction count generalizing first with
  | zero => simp
  | succ count ih =>
    have rearranged : (count + 1) * size = size + count * size := by rw [Nat.succ_mul, Nat.add_comm]
    rw [List.range'_succ, List.map_cons, List.flatten_cons, ih, rearranged, List.take_add, List.drop_drop]

theorem batches_flatten {β : Type} (size : Nat) (values : List β) (positive : 0 < size) :
    (batches size values).flatten = values := by
  have covered : values.length ≤ (values.length + size - 1) / size * size := by
    have rounded := Nat.div_add_mod (values.length + size - 1) size
    have rest := Nat.mod_lt (values.length + size - 1) positive
    rw [Nat.mul_comm] at rounded
    omega
  rw [batches, slices_flatten, List.drop_zero, List.take_of_length_le covered]

def removeByEndpointHashes (hashes : List String) : Push Unit :=
  forEach (fun chunk => do
    ask (.deleteSubscriptions chunk)
    ask .commit) (batches 100 (hashes.filter fun hash => hash ≠ ""))

/-! ## services/scheduled_delivery_service.py -/

structure DeliveryBatchConfig where
  maxRetries : Nat := 3
  scheduledLogId : Option LogId := none

structure DeliveryAttempt where
  ok : Bool
  statusCode : Option Nat
  uncertain : Bool := false
  deriving DecidableEq, Repr

/-- `provider.send_async`: the request leaves, then the answer is awaited. -/
def sendAsync (delivery : Option DeliveryId) (sub : PushSubscription) (payload : Payload) :
    Push (Bool × Option Nat) := do
  ask (.dispatch delivery sub payload)
  ask (.awaitAnswer delivery)

/-- The attempts that `range(max_retries + 1)` has left, and the last status. -/
def sendAttempts (delivery : Option DeliveryId) (sub : PushSubscription) (payload : Payload) :
    Nat → Option Nat → Push DeliveryAttempt
  | 0, status => pure { ok := false, statusCode := status }
  | left + 1, _ => do
    let (ok, status) ← sendAsync delivery sub payload
    if ok then
      pure { ok := true, statusCode := status }
    else
      match status with
      | none => pure { ok := false, statusCode := none, uncertain := true }
      | some code =>
        if code = 400 ∨ code = 404 ∨ code = 410 then
          pure { ok := false, statusCode := some code }
        else if left = 0 then
          pure { ok := false, statusCode := some code }
        else
          ask .sleep
          sendAttempts delivery sub payload left (some code)

def sendWithRetry (delivery : Option DeliveryId) (sub : PushSubscription) (payload : Payload)
    (maxRetries : Nat) : Push DeliveryAttempt :=
  sendAttempts delivery sub payload (maxRetries + 1) none

/-- The endpoint in the clear, or `none` for a CryptoError in any of the three fields. -/
def decryptSubscription (crypto : Crypto) (sub : PushSubscription) : Option String := do
  let endpointPlain ← crypto.decryptStr sub.endpoint
  let _ ← crypto.decryptStr sub.p256dh
  let _ ← crypto.decryptStr sub.auth
  pure endpointPlain

def prepareScheduledDelivery (endpointHash : String) (logId : LogId) :
    Push (Option DeliveryClaim × Option DeliveryStatus) := do
  let states ← getDeliveryStates logId [endpointHash]
  let state := states.lookup endpointHash
  if state ∈ [some .completed, some .unknown, some .abandoned, some .inProgress] then
    pure (none, state)
  else
    match ← claimDeliveries logId [endpointHash] with
    | claim :: _ => pure (some claim, none)
    | [] => pure (none, state)

structure SendResult where
  accepted : Nat
  failed : Nat
  deriving DecidableEq, Repr

/-- What a batch has counted so far, and the rows it will write at its end. -/
structure BatchTally where
  accepted : Nat := 0
  failed : Nat := 0
  logItems : List SendLogItem := []
  expiredHashes : List String := []

/-- The send log item and the expired hash of one provider result. -/
def BatchTally.count (crypto : Crypto) (tally : BatchTally) (endpointHash : String)
    (endpointPlain : Option String) (attempt : DeliveryAttempt) : BatchTally where
  accepted := if attempt.ok then tally.accepted + 1 else tally.accepted
  failed := if attempt.ok then tally.failed else tally.failed + 1
  logItems := tally.logItems ++ [match endpointPlain with
    | none => { ok := attempt.ok, statusCode := attempt.statusCode, storedEndpointHash := some endpointHash }
    | some plain => { ok := attempt.ok, statusCode := attempt.statusCode, endpoint := some plain }]
  expiredHashes :=
    match endpointPlain with
    | some plain =>
      if ¬ attempt.ok ∧ (attempt.statusCode = some 404 ∨ attempt.statusCode = some 410) then
        tally.expiredHashes ++ [crypto.sha256Hex plain]
      else tally.expiredHashes
    | none => tally.expiredHashes

/-- One subscription of `_send_untracked_batch`. -/
def sendUntracked (crypto : Crypto) (payload : Payload) (maxRetries : Nat) (tally : BatchTally)
    (sub : PushSubscription) : Push BatchTally :=
  match decryptSubscription crypto sub with
  | none => pure (tally.count crypto sub.endpointHash none { ok := false, statusCode := none })
  | some plain => do
    let attempt ← sendWithRetry none sub payload maxRetries
    pure (tally.count crypto sub.endpointHash (some plain) attempt)

/-- One subscription of a scheduled batch: claim, call, record. -/
def sendScheduled (crypto : Crypto) (payload : Payload) (maxRetries : Nat) (logId : LogId)
    (tally : BatchTally) (sub : PushSubscription) : Push BatchTally := do
  match ← prepareScheduledDelivery sub.endpointHash logId with
  | (none, state) =>
    if state = some .unknown then
      pure { tally with
        failed := tally.failed + 1
        logItems := tally.logItems ++
          [{ ok := false, statusCode := none, storedEndpointHash := some sub.endpointHash }] }
    else
      pure tally
  | (some claim, _) =>
    let endpointPlain := decryptSubscription crypto sub
    let attempt ←
      match endpointPlain with
      | none => pure { ok := false, statusCode := none }
      | some _ => sendWithRetry (some claim.id) sub payload maxRetries
    recordDeliveryResults
      [{ claim, ok := attempt.ok, statusCode := attempt.statusCode, uncertain := attempt.uncertain }]
    pure (tally.count crypto sub.endpointHash endpointPlain attempt)

/-- The loop over a batch, with what it has counted. -/
def sendEach (one : BatchTally → PushSubscription → Push BatchTally) :
    BatchTally → List PushSubscription → Push BatchTally
  | tally, [] => pure tally
  | tally, sub :: rest => do
    let tally ← one tally sub
    sendEach one tally rest

def sendBatchChunk (crypto : Crypto) (batch : List PushSubscription) (payload : Payload)
    (config : DeliveryBatchConfig) : Push (Nat × Nat) := do
  let one :=
    match config.scheduledLogId with
    | none => sendUntracked crypto payload config.maxRetries
    | some logId => sendScheduled crypto payload config.maxRetries logId
  let tally ← sendEach one {} batch
  createLogsBatch crypto tally.logItems
  removeByEndpointHashes tally.expiredHashes
  pure (tally.accepted, tally.failed)

/-! ## services/scheduled_notifications_service.py -/

/-- `SCHEDULED_LOG_STALE_AFTER`, in seconds. -/
def scheduledLogStaleAfter : Nat := 15 * 60

structure BatchConfig where
  batchSize : Nat := 50
  maxRetries : Nat := 3
  scheduledLogId : Option LogId := none

def isAlreadySent (logId : LogId) : Push Bool :=
  ask (.selectSent logId)

def getEligibleSubscriptions (topic : String) : Push (List PushSubscription) := do
  let allSubs ← ask .selectActiveSubscriptions
  let optedOut ← ask (.selectOptedOut "webpush" topic)
  pure (allSubs.filter fun sub =>
    match sub.memberId with
    | some memberId => memberId ∉ optedOut
    | none => true)

/-- The chunks in order; a delay separates them. -/
def sendBatches (crypto : Crypto) (payload : Payload) (config : DeliveryBatchConfig) :
    SendResult → List (List PushSubscription) → Push SendResult
  | total, [] => pure total
  | total, batch :: rest => do
    let (accepted, failed) ← sendBatchChunk crypto batch payload config
    let total := { accepted := total.accepted + accepted, failed := total.failed + failed : SendResult }
    if rest = [] then
      pure total
    else
      ask .sleep
      sendBatches crypto payload config total rest

def sendBatchNotifications (crypto : Crypto) (subscriptions : List PushSubscription)
    (payload : Payload) (config : BatchConfig) : Push SendResult := do
  let chunks := batches config.batchSize subscriptions
  let delivery : DeliveryBatchConfig :=
    { maxRetries := config.maxRetries, scheduledLogId := config.scheduledLogId }
  match config.scheduledLogId with
  | none => sendBatches crypto payload delivery { accepted := 0, failed := 0 } chunks
  | some logId =>
    ensureDeliveries logId (subscriptions.map (·.endpointHash))
    let _ ← sendBatches crypto payload delivery { accepted := 0, failed := 0 } chunks
    let counts ← getDeliveryCounts logId
    pure { accepted := counts.accepted, failed := counts.failed }

def createNotificationLog (logId : LogId) (scheduledAt : Nat) :
    Push (Option ScheduledNotificationLog) := do
  let returned ← ask (.upsertLog logId scheduledAt)
  ask .commit
  if returned then
    let row ← ask (.refreshLog logId)
    pure (some row)
  else
    pure none

/-- `db.get` returns the object the session already holds; the new object is returned. -/
def updateNotificationLog (logId : LogId) (log : ScheduledNotificationLog) (status : LogStatus)
    (acceptedCount failedCount : Nat) : Push ScheduledNotificationLog := do
  let latest := { log with status, acceptedCount, failedCount }
  ask (.flushLog logId log latest)
  ask .commit
  pure latest

def finalizeFailedNotification (logId : LogId) (fallbackFailed : Nat) : Push DeliveryCounts := do
  ask .rollback
  (markLogFailed logId fallbackFailed).catchWith fun
    | .sqlAlchemy => do
      ask .rollback
      pure { accepted := 0, failed := fallbackFailed }
    | reason => raise reason

structure Event where
  id : Nat
  title : String
  location : Option String

structure ProcessResult where
  eventId : Nat
  dType : DType
  skipped : Bool
  accepted : Nat
  failed : Nat
  deriving DecidableEq, Repr

def eventPayload (event : Event) (dType : DType) : Payload where
  title := "[행사 알림] " ++ event.title
  body := (match dType with | .d3 => "3일" | .d1 => "1일") ++ " 후 행사가 있습니다. " ++
    event.location.getD ""
  url := "/events/" ++ toString event.id

/-- How the `try` of `process_single_event` ends; a handler reads `len(subs)` at the exception. -/
inductive Sending where
  | raised (fallbackFailed : Nat) (reason : Failure)
  | nobody
  | sent (log : ScheduledNotificationLog) (result : SendResult)

def sendToEligible (crypto : Crypto) (event : Event) (dType : DType) (logId : LogId)
    (log : ScheduledNotificationLog) : Push Sending :=
  (do
    let log ← updateNotificationLog logId log .inProgress 0 0
    let subs ← getEligibleSubscriptions "event"
    (do
      if subs = [] then
        let _ ← updateNotificationLog logId log .completed 0 0
        pure .nobody
      else
        let result ← sendBatchNotifications crypto subs (eventPayload event dType)
          { scheduledLogId := some logId }
        pure (.sent log result) : Push Sending).catchWith
          fun reason => pure (.raised subs.length reason) : Push Sending).catchWith
            fun reason => pure (.raised 0 reason)

/-- The final `update_notification_log`; `some counts` when its failure was finalized. -/
def finishNotification (logId : LogId) (log : ScheduledNotificationLog) (result : SendResult) :
    Push (Option DeliveryCounts) :=
  (do
    let _ ← updateNotificationLog logId log (if result.failed ≠ 0 then .failed else .completed)
      result.accepted result.failed
    pure none : Push (Option DeliveryCounts)).catchWith fun
      | .sqlAlchemy => do
        let counts ← finalizeFailedNotification logId result.failed
        pure (some counts)
      | reason => raise reason

def processSingleEvent (crypto : Crypto) (event : Event) (dType : DType) : Push ProcessResult := do
  let logId : LogId := ⟨event.id, dType⟩
  let now ← ask .utcNow
  let _ ← reclaimStaleLog logId (now - scheduledLogStaleAfter)
  let alreadySent ← isAlreadySent logId
  if alreadySent then
    pure ⟨event.id, dType, true, 0, 0⟩
  else
    let scheduledAt ← ask .utcNow
    let created ← createNotificationLog logId scheduledAt
    match created with
    | none => pure ⟨event.id, dType, true, 0, 0⟩
    | some log =>
      let sending ← sendToEligible crypto event dType logId log
      match sending with
      | .raised fallbackFailed .cancelled =>
        let _ ← finalizeFailedNotification logId fallbackFailed
        raise .cancelled
      | .raised _ .other => raise .other
      | .raised fallbackFailed _ =>
        let counts ← finalizeFailedNotification logId fallbackFailed
        pure ⟨event.id, dType, false, counts.accepted, counts.failed⟩
      | .nobody => pure ⟨event.id, dType, false, 0, 0⟩
      | .sent log result =>
        let finished ← finishNotification logId log result
        match finished with
        | none => pure ⟨event.id, dType, false, result.accepted, result.failed⟩
        | some counts => pure ⟨event.id, dType, false, counts.accepted, counts.failed⟩

def reclaimStaleScheduledLogs : Push Nat := do
  let now ← ask .utcNow
  reclaimStaleLogs (now - scheduledLogStaleAfter)

/-- What a worker or an administrator's process runs. -/
inductive Request where
  | processSingleEvent (crypto : Crypto) (event : Event) (dType : DType)
  | sendBatchChunk (crypto : Crypto) (batch : List PushSubscription) (payload : Payload)
      (config : DeliveryBatchConfig)
  | reclaimStaleLog (logId : LogId) (cutoff : Nat)
  | reclaimStaleLogs (cutoff : Nat)
  | reclaimStaleScheduledLogs

def Request.program : Request → Push Unit
  | .processSingleEvent crypto event dType => do
    let _ ← ScheduledPush.processSingleEvent crypto event dType
    pure ()
  | .sendBatchChunk crypto batch payload config => do
    let _ ← ScheduledPush.sendBatchChunk crypto batch payload config
    pure ()
  | .reclaimStaleLog logId cutoff => do
    let _ ← ScheduledPush.reclaimStaleLog logId cutoff
    pure ()
  | .reclaimStaleLogs cutoff => do
    let _ ← ScheduledPush.reclaimStaleLogs cutoff
    pure ()
  | .reclaimStaleScheduledLogs => do
    let _ ← ScheduledPush.reclaimStaleScheduledLogs
    pure ()

/-- Every session with its request, and no statement issued yet. -/
def start (world : World) (requests : SessionId → Option Request) : Config machine Unit where
  world := world
  pool me := (requests me).map Request.program

end SogeconApp.Source.ScheduledPush
