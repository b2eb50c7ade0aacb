import SogeconApp.Source.PushCrypto
import SogeconApp.Source.ScheduledPush.Programs

/-!
# Broadcasts to all subscriptions

Source: `apps/api/services/notifications_service.py` (send_to_all) and `repositories/notifications.py`
(upsert_subscription, list_active_subscriptions, remove_by_endpoint_hashes). The send log rows and the
batches are those of `repositories/send_logs.py` and of the scheduled push.

A committed upsert is one statement, so the table that a series of upserts leaves is that of some
order of them. Its rows lack the columns that no function here reads (`id`, `ua`, `created_at`,
`last_seen_at`). The provider is a parameter: what it answers for each subscription and payload.
-/

namespace SogeconApp.Source.Broadcast

open Library PushCrypto
open ScheduledPush (PushSubscription Subscriptions NotificationSendLog SendLogItem SendResult Crypto
  sendLogRow batches)

/-- `hashlib.sha256(endpoint.encode()).hexdigest()`, with its 64 digits. -/
structure PushRules extends CryptoRules where
  hashEndpoint : String → String
  hexdigest : ∀ endpoint, (hashEndpoint endpoint).length = 64

theorem PushRules.hash_ne_empty (rules : PushRules) (endpoint : String) :
    rules.hashEndpoint endpoint ≠ "" := by
  intro empty
  have digits := rules.hexdigest endpoint
  rw [empty] at digits
  cases digits

structure SubscriptionData where
  endpoint : String
  p256dh : String
  auth : String
  deriving DecidableEq, Repr

inductive Failure where
  | crypto (error : CryptoError)
  | subscriptionOwnership
  /-- A text that is too long for its column, or the unique index of `endpoint`. -/
  | database
  deriving DecidableEq, Repr

/-! ## repositories/notifications.py -/

/-- `INSERT .. ON CONFLICT (endpoint_hash) DO UPDATE`: the row takes the place of the one under its hash. -/
def putRow (row : PushSubscription) (rows : List PushSubscription) : List PushSubscription :=
  if row.endpointHash ∈ rows.map (·.endpointHash) then
    rows.map fun stored => if stored.endpointHash = row.endpointHash then row else stored
  else rows ++ [row]

theorem mem_putRow {row sub : PushSubscription} {rows : List PushSubscription}
    (member : sub ∈ putRow row rows) :
    sub = row ∨ sub ∈ rows := by
  unfold putRow at member
  split at member
  · obtain ⟨stored, present, same⟩ := List.mem_map.mp member
    split at same
    · exact .inl same.symm
    · exact .inr (same ▸ present)
  · rcases List.mem_append.mp member with present | only
    · exact .inr present
    · exact .inl (List.mem_singleton.mp only)

theorem putRow_unique (row : PushSubscription) {rows : List PushSubscription}
    (unique : (rows.map (·.endpointHash)).Nodup) : ((putRow row rows).map (·.endpointHash)).Nodup := by
  unfold putRow
  split
  · have hashes : (rows.map fun stored => if stored.endpointHash = row.endpointHash then row else stored).map
        (·.endpointHash) = rows.map (·.endpointHash) := by
      rw [List.map_map]
      apply List.map_congr_left
      intro stored _
      dsimp only [Function.comp_apply]
      split
      · next same => exact same.symm
      · rfl
    rw [hashes]
    exact unique
  · next absent =>
    rw [List.map_append]
    refine List.nodup_append.mpr ⟨unique, List.nodup_singleton _, fun hash present other only same => ?_⟩
    rw [List.map_cons, List.map_nil, List.mem_singleton] at only
    rw [same, only] at present
    exact absent present

def put (row : PushSubscription) (hashed : row.endpointHash ≠ "") (subs : Subscriptions) : Subscriptions where
  rows := putRow row subs.rows
  unique := putRow_unique row subs.unique
  hashed sub member := by
    rcases mem_putRow member with rfl | present
    · exact hashed
    · exact subs.hashed sub present

/-- The columns take 512 and 255 characters. -/
def fits (row : PushSubscription) : Bool :=
  row.endpoint.length ≤ 512 && row.p256dh.length ≤ 255 && row.auth.length ≤ 255

/-- No other row has the stored endpoint, which is unique too. -/
def endpointFree (row : PushSubscription) (subs : Subscriptions) : Bool :=
  subs.rows.all fun stored => stored.endpointHash = row.endpointHash ∨ stored.endpoint ≠ row.endpoint

/-- The statement of the upsert. `revoked_at` is not among the columns it sets. -/
def execUpsert (row : PushSubscription) (hashed : row.endpointHash ≠ "") (subs : Subscriptions) :
    Except Failure Subscriptions :=
  if ¬fits row then .error .database
  else
    match subs.rows.find? fun stored => stored.endpointHash = row.endpointHash with
    | some stored =>
      if stored.memberId = none ∨ stored.memberId = row.memberId then
        if endpointFree row subs then .ok (put { row with revokedAt := stored.revokedAt } hashed subs)
        else .error .database
      else .error .subscriptionOwnership
    | none => if endpointFree row subs then .ok (put row hashed subs) else .error .database

/-- One request to subscribe, under the settings of its time. -/
structure Upsert where
  settings : Settings
  nonces : Nonce × Nonce × Nonce
  data : SubscriptionData
  actorMemberId : Nat

def upsertSubscription (rules : PushRules) (upsert : Upsert) (subs : Subscriptions) :
    Except Failure Subscriptions := do
  let encrypted (nonce : Nonce) (text : String) : Except Failure String :=
    (encryptStr rules.toCryptoRules upsert.settings nonce text).mapError .crypto
  let endpoint ← encrypted upsert.nonces.1 upsert.data.endpoint
  let p256dh ← encrypted upsert.nonces.2.1 upsert.data.p256dh
  let auth ← encrypted upsert.nonces.2.2 upsert.data.auth
  let row : PushSubscription :=
    { memberId := some upsert.actorMemberId, endpoint, p256dh, auth
      endpointHash := rules.hashEndpoint upsert.data.endpoint, revokedAt := none }
  execUpsert row (rules.hash_ne_empty _) subs

def noSubscriptions : Subscriptions where
  rows := []
  unique := List.nodup_nil
  hashed := nofun

/-- The table after a series of requests; one that fails leaves it as it was. -/
def afterUpserts (rules : PushRules) (upserts : List Upsert) : Subscriptions :=
  upserts.foldl (fun subs upsert => (upsertSubscription rules upsert subs).toOption.getD subs) noSubscriptions

def listActiveSubscriptions (subs : Subscriptions) : List PushSubscription :=
  subs.rows.filter fun sub => sub.revokedAt.isNone

def removeByEndpointHashes (hashes : List String) (subs : Subscriptions) : Subscriptions :=
  (batches 100 (hashes.filter fun hash => hash ≠ "")).foldl (fun subs chunk => subs.delete chunk) subs

/-! ## services/notifications_service.py -/

/-- `{"title": title, "body": body, **({"url": url} if url else {})}`. -/
structure Payload where
  title : String
  body : String
  url : Option String
  deriving DecidableEq, Repr

def payloadOf (title body : String) (url : Option String) : Payload :=
  { title, body, url := url.filter fun url => url ≠ "" }

/-- `provider.send_async`: the acceptance and the status. -/
abbrev PushProvider := PushSubscription → Payload → Bool × Option Nat

/-- What the loop of a broadcast has gathered, and the subscriptions that the provider was called for. -/
structure Tally where
  accepted : Nat := 0
  failed : Nat := 0
  logItems : List SendLogItem := []
  expiredHashes : List String := []
  called : List PushSubscription := []

section Broadcast

variable (rules : PushRules) (settings : Settings)

/-- One round of the loop. -/
def sendOne (provider : PushProvider) (payload : Payload) (tally : Tally) (sub : PushSubscription) : Tally :=
  match decryptStr rules.toCryptoRules settings sub.endpoint with
  | .error _ =>
    { tally with
      failed := tally.failed + 1
      logItems := tally.logItems ++
        [{ ok := false, statusCode := none, storedEndpointHash := some sub.endpointHash }] }
  | .ok endpointPlain =>
    let (ok, status) := provider sub payload
    { accepted := if ok then tally.accepted + 1 else tally.accepted
      failed := if ok then tally.failed else tally.failed + 1
      logItems := tally.logItems ++ [{ ok, statusCode := status, endpoint := some endpointPlain }]
      expiredHashes :=
        if ¬ok ∧ (status = some 404 ∨ status = some 410) then
          tally.expiredHashes ++ [rules.hashEndpoint endpointPlain]
        else tally.expiredHashes
      called := tally.called ++ [sub] }

/-- The tables that a broadcast writes. -/
structure Tables where
  subscriptions : Subscriptions
  sendLogs : List NotificationSendLog

/-- What a broadcast leaves behind. -/
structure Sent where
  result : SendResult
  tables : Tables
  called : List PushSubscription

def crypto : Crypto where
  decryptStr stored := (decryptStr rules.toCryptoRules settings stored).toOption
  sha256Hex := rules.hashEndpoint

def sendToAll (provider : PushProvider) (title body : String) (url : Option String) (tables : Tables) :
    Sent :=
  let subs := listActiveSubscriptions tables.subscriptions
  let tally := subs.foldl (sendOne rules settings provider (payloadOf title body url)) {}
  { result := { accepted := tally.accepted, failed := tally.failed }
    tables :=
      { sendLogs := tables.sendLogs ++ tally.logItems.filterMap (sendLogRow (crypto rules settings))
        subscriptions := removeByEndpointHashes tally.expiredHashes tables.subscriptions }
    called := tally.called }

end Broadcast

end SogeconApp.Source.Broadcast
