import Mathlib.Data.List.Induction
import SogeconApp.Source.Broadcast

/-!
# What a broadcast counts, logs and removes

After any series of upserts, under settings that may have changed between them, what a stored
endpoint decrypts to is the endpoint that was sent: its hash is the stored one. So the log rows, the
counts and the removals, which the broadcast joins again through the hash of the decrypted endpoint,
are those of the subscriptions themselves, whatever the provider answers for each.
-/

namespace SogeconApp.Guarantees.BroadcastAccounting

open Library Source.PushCrypto Source.Broadcast
open Source.ScheduledPush (PushSubscription Subscriptions NotificationSendLog SendLogItem sendLogRow tail16
  batches batches_flatten)

/-- What `HttpUrl` accepts begins so. -/
def IsUrl (endpoint : String) : Prop :=
  "http://".toList <+: endpoint.toList ∨ "https://".toList <+: endpoint.toList

instance (endpoint : String) : Decidable (IsUrl endpoint) := inferInstanceAs (Decidable (_ ∨ _))

/-- AES-GCM authenticates: under the key of the broadcast, a text that an upsert has encrypted is
not opened as another one. -/
def Authenticates (rules : PushRules) (settings : Settings) (upserts : List Upsert) : Prop :=
  ∀ upsert ∈ upserts, ∀ key ∈ decodePushKek rules.toCryptoRules upsert.settings.pushKek,
    ∀ current ∈ decodePushKek rules.toCryptoRules settings.pushKek,
      ∀ opened ∈ rules.decrypt current upsert.nonces.1.val
          (rules.encrypt key upsert.nonces.1.val (encodeUtf8 upsert.data.endpoint)),
        opened = encodeUtf8 upsert.data.endpoint

instance (rules : PushRules) (settings : Settings) (upserts : List Upsert) :
    Decidable (Authenticates rules settings upserts) :=
  inferInstanceAs (Decidable (∀ upsert ∈ upserts, ∀ _ ∈ _, ∀ _ ∈ _, ∀ _ ∈ _, _ = _))

section Outcomes

variable (rules : PushRules) (settings : Settings) (provider : PushProvider) (payload : Payload)
  (sub : PushSubscription)

/-- The endpoint of the subscription can be decrypted. -/
def readable : Bool := (decryptStr rules.toCryptoRules settings sub.endpoint).isOk

/-- The outcome of a subscription: that of its provider call if there is one. -/
def outcome : Bool × Option Nat :=
  if readable rules settings sub then provider sub payload else (false, none)

/-- The provider call of the subscription failed with 404 or 410. -/
def expired : Bool :=
  readable rules settings sub && !(outcome rules settings provider payload sub).1 &&
    ((outcome rules settings provider payload sub).2 = some 404 ∨
      (outcome rules settings provider payload sub).2 = some 410)

end Outcomes

/-! ## Stored endpoints -/

section Stored

variable {rules : PushRules} {settings : Settings}

theorem url_not_encrypted {endpoint : String} (url : IsUrl endpoint) :
    encPrefix.isPrefixOf endpoint.toList = false := by
  rcases url with ⟨rest, split⟩ | ⟨rest, split⟩ <;>
  · rw [← split]
    rfl

theorem url_ne_empty {endpoint : String} (url : IsUrl endpoint) : endpoint ≠ "" := by
  rintro rfl
  revert url
  decide

/-- What `encrypt_str` has made of a text is not opened as another one. -/
theorem decrypt_encrypt {upsert : Upsert} {upserts : List Upsert} (member : upsert ∈ upserts)
    (authentic : Authenticates rules settings upserts) (url : IsUrl upsert.data.endpoint)
    {stored plain : String}
    (encrypted : encryptStr rules.toCryptoRules upsert.settings upsert.nonces.1 upsert.data.endpoint = .ok stored)
    (decrypted : decryptStr rules.toCryptoRules settings stored = .ok plain) :
    plain = upsert.data.endpoint := by
  rcases encryptStr_cases _ _ encrypted with rfl | ⟨key, decoded, sealed⟩
  · rcases decryptStr_cases _ _ decrypted with ⟨-, same⟩ | ⟨current, -, opened⟩
    · exact same
    · rw [decryptStr, if_pos (by simp [url_not_encrypted url])] at decrypted
      exact (Except.ok.inj decrypted).symm
  · rcases decryptStr_cases _ _ decrypted with ⟨unmarked, -⟩ | ⟨current, read, opened⟩
    · rw [sealed, List.isPrefixOf_iff_prefix.mpr (List.prefix_append ..)] at unmarked
      cases unmarked
    · rw [sealed, List.drop_left, openBlob_encode] at opened
      obtain ⟨text, unsealed, decoded'⟩ := Option.bind_eq_some_iff.mp opened
      rw [authentic upsert member key decoded current read text unsealed, decodeUtf8_encodeUtf8] at decoded'
      exact (Option.some.inj decoded').symm

/-- The row was written by an upsert of its endpoint. -/
def Origin (rules : PushRules) (upserts : List Upsert) (sub : PushSubscription) : Prop :=
  ∃ upsert ∈ upserts, sub.endpointHash = rules.hashEndpoint upsert.data.endpoint ∧
    encryptStr rules.toCryptoRules upsert.settings upsert.nonces.1 upsert.data.endpoint = .ok sub.endpoint

theorem execUpsert_rows {row : PushSubscription} {hashed : row.endpointHash ≠ ""} {subs after : Subscriptions}
    (done : execUpsert row hashed subs = .ok after) {sub : PushSubscription} (member : sub ∈ after.rows) :
    sub ∈ subs.rows ∨ sub.endpointHash = row.endpointHash ∧ sub.endpoint = row.endpoint := by
  unfold execUpsert at done
  split at done
  · cases done
  split at done
  · next stored _ =>
    split at done
    · split at done
      · cases done
        rcases mem_putRow member with rfl | present
        · exact .inr ⟨rfl, rfl⟩
        · exact .inl present
      · cases done
    · cases done
  · split at done
    · cases done
      rcases mem_putRow member with rfl | present
      · exact .inr ⟨rfl, rfl⟩
      · exact .inl present
    · cases done

theorem upsertSubscription_rows {upsert : Upsert} {subs after : Subscriptions}
    (done : upsertSubscription rules upsert subs = .ok after) {sub : PushSubscription}
    (member : sub ∈ after.rows) :
    sub ∈ subs.rows ∨ sub.endpointHash = rules.hashEndpoint upsert.data.endpoint ∧
      encryptStr rules.toCryptoRules upsert.settings upsert.nonces.1 upsert.data.endpoint =
        .ok sub.endpoint := by
  unfold upsertSubscription at done
  simp only [bind, Except.bind] at done
  cases encrypted : encryptStr rules.toCryptoRules upsert.settings upsert.nonces.1 upsert.data.endpoint with
  | error reason =>
    rw [encrypted] at done
    cases done
  | ok endpoint =>
    rw [encrypted] at done
    simp only [Except.mapError] at done
    split at done
    · cases done
    split at done
    · cases done
    rcases execUpsert_rows done member with present | ⟨hash, same⟩
    · exact .inl present
    · exact .inr ⟨hash, congrArg Except.ok same.symm⟩

/-- Every row of the table goes back to an upsert. -/
theorem afterUpserts_rows (upserts : List Upsert) :
    ∀ sub ∈ (afterUpserts rules upserts).rows, Origin rules upserts sub := by
  induction upserts using List.reverseRecOn with
  | nil => nofun
  | append_singleton before upsert ih =>
    intro sub member
    rw [afterUpserts, List.foldl_append, List.foldl_cons, List.foldl_nil] at member
    have earlier (present : sub ∈ (afterUpserts rules before).rows) :
        Origin rules (before ++ [upsert]) sub := by
      obtain ⟨origin, listed, written⟩ := ih sub present
      exact ⟨origin, List.mem_append_left _ listed, written⟩
    cases done : upsertSubscription rules upsert (afterUpserts rules before) with
    | error reason =>
      unfold afterUpserts at done
      rw [done] at member
      exact earlier member
    | ok after =>
      have done' := done
      unfold afterUpserts at done'
      rw [done'] at member
      rcases upsertSubscription_rows done member with present | written
      · exact earlier present
      · exact ⟨upsert, List.mem_append_right _ List.mem_cons_self, written⟩

/-- What the broadcast reads of a row: a hash, and if anything the endpoint that was hashed. -/
structure Faithful (rules : PushRules) (settings : Settings) (sub : PushSubscription) : Prop where
  hashed : sub.endpointHash ≠ ""
  plain : ∀ plain, decryptStr rules.toCryptoRules settings sub.endpoint = .ok plain →
    plain ≠ "" ∧ rules.hashEndpoint plain = sub.endpointHash

theorem afterUpserts_faithful {upserts : List Upsert} (urls : ∀ upsert ∈ upserts, IsUrl upsert.data.endpoint)
    (authentic : Authenticates rules settings upserts) :
    ∀ sub ∈ (afterUpserts rules upserts).rows, Faithful rules settings sub := by
  intro sub member
  obtain ⟨upsert, listed, hash, encrypted⟩ := afterUpserts_rows upserts sub member
  refine ⟨(afterUpserts rules upserts).hashed sub member, fun plain decrypted => ?_⟩
  have same := decrypt_encrypt listed authentic (urls upsert listed) encrypted decrypted
  subst same
  exact ⟨url_ne_empty (urls upsert listed), hash.symm⟩

end Stored

/-! ## The loop -/

section Loop

variable (rules : PushRules) (settings : Settings) (provider : PushProvider) (payload : Payload)

/-- The send log row of a subscription. -/
def logged (sub : PushSubscription) : NotificationSendLog where
  ok := (outcome rules settings provider payload sub).1
  statusCode := (outcome rules settings provider payload sub).2
  endpointHash := sub.endpointHash
  endpointTail :=
    match decryptStr rules.toCryptoRules settings sub.endpoint with
    | .error _ => tail16 sub.endpointHash
    | .ok plain => tail16 plain

/-- What the loop has gathered after some subscriptions. -/
structure Gathered (done : List PushSubscription) (tally : Tally) : Prop where
  accepted : tally.accepted = done.countP fun sub => (outcome rules settings provider payload sub).1
  failed : tally.failed = done.countP fun sub => !(outcome rules settings provider payload sub).1
  logs : tally.logItems.filterMap (sendLogRow (crypto rules settings)) =
    done.map (logged rules settings provider payload)
  removals : tally.expiredHashes =
    (done.filter (expired rules settings provider payload)).map (·.endpointHash)
  called : tally.called = done.filter (readable rules settings)

/-- What one round adds, read off the subscription. -/
theorem sendOne_eq (tally : Tally) {sub : PushSubscription} (faithful : Faithful rules settings sub) :
    ∃ item, sendLogRow (crypto rules settings) item = some (logged rules settings provider payload sub) ∧
      sendOne rules settings provider payload tally sub =
        { accepted := tally.accepted + if (outcome rules settings provider payload sub).1 then 1 else 0
          failed := tally.failed + if (outcome rules settings provider payload sub).1 then 0 else 1
          logItems := tally.logItems ++ [item]
          expiredHashes := tally.expiredHashes ++
            if expired rules settings provider payload sub then [sub.endpointHash] else []
          called := tally.called ++ if readable rules settings sub then [sub] else [] } := by
  cases decrypted : decryptStr rules.toCryptoRules settings sub.endpoint with
  | error reason =>
    have unread : readable rules settings sub = false := by rw [readable, decrypted]; rfl
    have silent : outcome rules settings provider payload sub = (false, none) := by simp [outcome, unread]
    refine ⟨{ ok := false, statusCode := none, storedEndpointHash := some sub.endpointHash }, ?_, ?_⟩
    · simp [sendLogRow, faithful.hashed, logged, silent, decrypted]
    · simp [sendOne, decrypted, silent, expired, unread]
  | ok plain =>
    obtain ⟨present, hash⟩ := faithful.plain plain decrypted
    have reads : readable rules settings sub = true := by rw [readable, decrypted]; rfl
    rcases answer : provider sub payload with ⟨ok, status⟩
    have asked : outcome rules settings provider payload sub = (ok, status) := by
      simp [outcome, reads, answer]
    refine ⟨{ ok, statusCode := status, endpoint := some plain }, ?_, ?_⟩
    · simp [sendLogRow, present, logged, asked, decrypted, crypto, hash]
    · have gone : expired rules settings provider payload sub =
          decide (¬ok ∧ (status = some 404 ∨ status = some 410)) := by
        simp [expired, reads, asked]
      cases ok <;> by_cases missing : status = some 404 ∨ status = some 410 <;>
        simp [sendOne, decrypted, answer, asked, gone, reads, hash, missing]

variable {rules settings provider payload}

/-- One round gathers one subscription more. -/
theorem Gathered.sendOne {done : List PushSubscription} {tally : Tally} {sub : PushSubscription}
    (gathered : Gathered rules settings provider payload done tally)
    (faithful : Faithful rules settings sub) :
    Gathered rules settings provider payload (done ++ [sub])
      (sendOne rules settings provider payload tally sub) := by
  obtain ⟨item, row, same⟩ := sendOne_eq rules settings provider payload tally faithful
  rw [same]
  constructor
  · rw [List.countP_append, List.countP_singleton, gathered.accepted]
  · rw [List.countP_append, List.countP_singleton, gathered.failed]
    cases (outcome rules settings provider payload sub).1 <;> rfl
  · rw [List.filterMap_append, gathered.logs, List.map_append]
    simp [row]
  · rw [List.filter_append, List.map_append, gathered.removals, List.filter_singleton]
    cases expired rules settings provider payload sub <;> rfl
  · rw [List.filter_append, gathered.called, List.filter_singleton]
    cases readable rules settings sub <;> rfl

/-- The loop gathers all subscriptions. -/
theorem gathered_foldl (provider : PushProvider) (payload : Payload) (subs : List PushSubscription)
    (faithful : ∀ sub ∈ subs, Faithful rules settings sub) :
    Gathered rules settings provider payload subs
      (subs.foldl (Source.Broadcast.sendOne rules settings provider payload) {}) := by
  induction subs using List.reverseRecOn with
  | nil => exact ⟨rfl, rfl, rfl, rfl, rfl⟩
  | append_singleton before sub ih =>
    rw [List.foldl_append, List.foldl_cons, List.foldl_nil]
    have earlier := ih fun other member => faithful other (List.mem_append_left _ member)
    exact earlier.sendOne (faithful sub (List.mem_append_right _ List.mem_cons_self))

end Loop

/-! ## The removal -/

theorem deleted_chunks (chunks : List (List String)) (subs : Subscriptions) :
    (chunks.foldl (fun subs chunk => subs.delete chunk) subs).rows =
      subs.rows.filter fun sub => sub.endpointHash ∉ chunks.flatten := by
  induction chunks generalizing subs with
  | nil => simp
  | cons chunk rest ih =>
    rw [List.foldl_cons, ih]
    simp [Subscriptions.delete, List.filter_filter, Bool.and_comm]

/-- The batches together delete the rows of the hashes. -/
theorem removed_rows {hashes : List String} (hashed : ∀ hash ∈ hashes, hash ≠ "") (subs : Subscriptions) :
    (removeByEndpointHashes hashes subs).rows = subs.rows.filter fun sub => sub.endpointHash ∉ hashes := by
  have kept : (hashes.filter fun hash => hash ≠ "") = hashes :=
    List.filter_eq_self.mpr fun hash member => by simpa using hashed hash member
  rw [removeByEndpointHashes, kept, deleted_chunks, batches_flatten 100 hashes (by decide)]

/-- A row with the hash of some listed row is that row. -/
theorem mem_of_hash {subs : Subscriptions} {listed : List PushSubscription}
    (among : ∀ sub ∈ listed, sub ∈ subs.rows) {sub : PushSubscription} (member : sub ∈ subs.rows) :
    sub.endpointHash ∈ listed.map (·.endpointHash) ↔ sub ∈ listed := by
  constructor
  · intro hash
    obtain ⟨other, present, same⟩ := List.mem_map.mp hash
    rw [← List.inj_on_of_nodup_map subs.unique (among other present) member same]
    exact present
  · exact fun present => List.mem_map.mpr ⟨sub, present, rfl⟩

/-! ## The broadcast -/

/-- What a broadcast has done with the active subscriptions. -/
structure Accounted (rules : PushRules) (settings : Settings) (provider : PushProvider) (payload : Payload)
    (before : Tables) (sent : Sent) : Prop where
  total : sent.result.accepted + sent.result.failed = (listActiveSubscriptions before.subscriptions).length
  accepted : sent.result.accepted =
    (listActiveSubscriptions before.subscriptions).countP fun sub =>
      (outcome rules settings provider payload sub).1
  /-- One row for each, with its hash and its outcome. -/
  logs : ∃ rows, sent.tables.sendLogs = before.sendLogs ++ rows ∧
    List.Forall₂ (fun sub row => row.endpointHash = sub.endpointHash ∧
      (row.ok, row.statusCode) = outcome rules settings provider payload sub)
      (listActiveSubscriptions before.subscriptions) rows
  /-- The provider is called for those that can be decrypted, and for no other. -/
  called : sent.called = (listActiveSubscriptions before.subscriptions).filter (readable rules settings)
  removed : ∀ sub, sub ∈ sent.tables.subscriptions.rows ↔ sub ∈ before.subscriptions.rows ∧
    ¬(sub ∈ listActiveSubscriptions before.subscriptions ∧ expired rules settings provider payload sub = true)

/-- After any series of upserts of URLs, a broadcast counts, logs and removes by the outcome of each
active subscription. -/
theorem broadcast_accounts (rules : PushRules) (upserts : List Upsert) (settings : Settings)
    (urls : ∀ upsert ∈ upserts, IsUrl upsert.data.endpoint) (authentic : Authenticates rules settings upserts)
    (provider : PushProvider) (title body : String) (url : Option String)
    (sendLogs : List NotificationSendLog) :
    Accounted rules settings provider (payloadOf title body url)
      { subscriptions := afterUpserts rules upserts, sendLogs }
      (sendToAll rules settings provider title body url
        { subscriptions := afterUpserts rules upserts, sendLogs }) := by
  have among (sub : PushSubscription) (active : sub ∈ listActiveSubscriptions (afterUpserts rules upserts)) :
      sub ∈ (afterUpserts rules upserts).rows := List.mem_of_mem_filter active
  have faithful (sub : PushSubscription)
      (active : sub ∈ listActiveSubscriptions (afterUpserts rules upserts)) :
      Faithful rules settings sub := afterUpserts_faithful urls authentic sub (among sub active)
  have gathered := gathered_foldl provider (payloadOf title body url) _ faithful
  constructor
  · have all := List.length_eq_countP_add_countP
      (fun sub => (outcome rules settings provider (payloadOf title body url) sub).1)
      (l := listActiveSubscriptions (afterUpserts rules upserts))
    simp only [sendToAll, gathered.accepted, gathered.failed]
    rw [all]
    congr 1
    exact List.countP_congr fun sub _ => by simp
  · exact gathered.accepted
  · refine ⟨_, rfl, ?_⟩
    rw [gathered.logs, List.forall₂_map_right_iff, List.forall₂_same]
    exact fun sub _ => ⟨rfl, rfl⟩
  · exact gathered.called
  · intro sub
    have hashes : ∀ hash ∈ ((listActiveSubscriptions (afterUpserts rules upserts)).filter
        (expired rules settings provider (payloadOf title body url))).map (·.endpointHash), hash ≠ "" := by
      intro hash member
      obtain ⟨other, present, rfl⟩ := List.mem_map.mp member
      exact (afterUpserts rules upserts).hashed other (among other (List.mem_of_mem_filter present))
    simp only [sendToAll, gathered.removals, removed_rows hashes, List.mem_filter]
    rw [decide_eq_true_iff]
    refine and_congr_right fun member => not_congr ?_
    rw [mem_of_hash (fun other present => among other (List.mem_of_mem_filter present)) member,
      List.mem_filter]

/-- A key is put before what it seals, and a digest is the beginning of the text. -/
def plainRules : PushRules where
  strip text := text
  encrypt key _ data := key ++ data
  decrypt key _ data := if key.isPrefixOf data then some (data.drop key.length) else none
  hashEndpoint endpoint := String.ofList ((endpoint.toList ++ List.replicate 64 '0').take 64)
  hexdigest endpoint := by simp

def kekA : Settings := { pushEncryptAtRest := true, pushKek := "MDEyMzQ1Njc4OWFiY2RlZg==" }
def kekB : Settings := { pushEncryptAtRest := true, pushKek := "YWJjZGVmMDEyMzQ1Njc4OQ==" }

def zeroNonce : Nonce := ⟨List.replicate 12 0, by decide⟩

def subscribes (settings : Settings) (endpoint : String) : Upsert where
  settings := settings
  nonces := (zeroNonce, zeroNonce, zeroNonce)
  data := { endpoint, p256dh := "k", auth := "a" }
  actorMemberId := 1

/-- Stored in the clear, under a key that was replaced, and under the current one. -/
def mixed : List Upsert :=
  [subscribes { pushEncryptAtRest := false, pushKek := "" } "https://a", subscribes kekA "https://b",
    subscribes kekB "https://c"]

/-- The push service knows one of the endpoints no more. -/
def answers : PushProvider := fun sub _ =>
  if sub.endpoint = "https://a" then (true, some 201) else (false, some 410)

/-- One is accepted, one cannot be decrypted, and one is gone. -/
theorem broadcast_accounts_mixed :
    let before : Tables := { subscriptions := afterUpserts plainRules mixed, sendLogs := [] }
    let sent := sendToAll plainRules kekB answers "title" "body" none before
    (sent.result.accepted, sent.result.failed, sent.tables.subscriptions.rows.length) = (1, 2, 2) ∧
      Accounted plainRules kekB answers (payloadOf "title" "body" none) before sent := by
  refine ⟨by decide +kernel, ?_⟩
  exact broadcast_accounts plainRules mixed kekB (by decide +kernel) (by decide +kernel) answers
    "title" "body" none []

end SogeconApp.Guarantees.BroadcastAccounting
