import SogeconApp.Source.ScheduledPush.Programs

/-!
# Scheduled push: the phases of a worker

Between two statements a worker is somewhere in the life of one claim (lock, flush,
commit, provider call, result) and somewhere in the life of a log (acquired, owned,
closing, or being reclaimed). After an exception it can only roll back or end. Every
program of the component follows these phases, whatever is answered to it; this is
read off the programs alone, without the store.
-/

namespace SogeconApp.Guarantees.ScheduledPush

open Library Program Source.ScheduledPush

inductive Claim where
  | free
  | locked (delivery : DeliveryId)
  | flushed (delivery : DeliveryId)
  | claimed (delivery : DeliveryId)
  | calling (delivery : DeliveryId)
  | accepted (delivery : DeliveryId)
  | uncertain (delivery : DeliveryId)
  | recording (delivery : DeliveryId) (status : DeliveryStatus)
  deriving DecidableEq

inductive LogPhase where
  | outside
  | acquiring (log : LogId)
  | owner (log : LogId)
  | closing (log : LogId)
  | reclaiming (logs : List LogId)
  deriving DecidableEq

/-- The session at the database: usable, good for a rollback only, or closed. -/
inductive Connection where
  | ready
  | aborted
  | gone
  deriving DecidableEq

structure Phase where
  claim : Claim := .free
  log : LogPhase := .outside
  connection : Connection := .ready

namespace Claim

/-- The claim after a provider's answer. -/
def answered (delivery : DeliveryId) : Bool × Option Nat → Claim
  | (true, _) => .accepted delivery
  | (false, none) => .uncertain delivery
  | (false, some _) => .claimed delivery

/-- The status that the claim lets `record_delivery_results` write. -/
def Records (claim : Claim) (delivery : DeliveryId) (status : DeliveryStatus) : Prop :=
  claim = .claimed delivery ∧ status = .failed ∨ claim = .accepted delivery ∧ status = .completed ∨
    claim = .uncertain delivery ∧ status = .unknown

def Committable : Claim → Prop
  | .free | .flushed _ | .recording .. => True
  | _ => False

def committed : Claim → Claim
  | .flushed delivery => .claimed delivery
  | .recording .. => .free
  | other => other

end Claim

namespace LogPhase

def committed : LogPhase → LogPhase
  | .acquiring log => .owner log
  | .closing _ | .reclaiming _ => .outside
  | other => other

/-- Where a rollback leads. -/
def retreat : LogPhase → LogPhase
  | .acquiring _ | .reclaiming _ => .outside
  | .closing log => .owner log
  | other => other

def reclaimed (log : LogId) : LogPhase → LogPhase
  | .reclaiming logs => .reclaiming (log :: logs)
  | _ => .reclaiming [log]

def finished (log : LogId) : LogPhase → LogPhase
  | .owner _ => .closing log
  | other => other

def Sweeping : LogPhase → Prop
  | .outside | .reclaiming _ => True
  | _ => False

/-- `mark_log_failed` writes the log it owns, `_finalize_stale_log` one it has taken. -/
def MayFinish (log : LogId) : LogPhase → Prop
  | .owner owned => owned = log
  | .reclaiming logs => log ∈ logs
  | _ => False

end LogPhase

namespace Phase

def next (phase : Phase) (stmt : Stmt) (reply : Except Failure (Reply stmt)) : Phase :=
  match stmt, reply with
  | _, .error _ => { phase with connection := .aborted }
  | .rollback, .ok _ => { log := phase.log.retreat }
  | .commit, .ok _ => { phase with claim := phase.claim.committed, log := phase.log.committed }
  | .lockClaimable delivery, .ok (some _) => { phase with claim := .locked delivery }
  | .flushClaim delivery _, .ok _ => { phase with claim := .flushed delivery }
  | .dispatch (some delivery) _ _, .ok _ => { phase with claim := .calling delivery }
  | .awaitAnswer (some delivery), .ok answer => { phase with claim := .answered delivery answer }
  | .recordResult delivery status _, .ok _ => { phase with claim := .recording delivery status }
  | .upsertLog log _, .ok true => { phase with log := .acquiring log }
  | .flushLog log _ latest, .ok _ =>
    if latest.status = .completed ∨ latest.status = .failed then { phase with log := .closing log }
    else phase
  | .takeStaleLog log _, .ok true => { phase with log := phase.log.reclaimed log }
  | .lockStaleLog log _, .ok true => { phase with log := phase.log.reclaimed log }
  | .finishLog log _, .ok _ => { phase with log := phase.log.finished log }
  | _, _ => phase

/-- The statements of a phase whose transaction is in order. -/
def Permits (phase : Phase) : Stmt → Prop
  | .expireClaim _ | .abandonDelivery _ | .insertDelivery _ | .lockClaimable _ => phase.claim = .free
  | .flushClaim delivery _ => phase.claim = .locked delivery
  | .dispatch (some delivery) _ _ => phase.claim = .claimed delivery
  | .awaitAnswer (some delivery) => phase.claim = .calling delivery
  | .recordResult delivery status _ => phase.claim.Records delivery status
  | .commit => phase.claim.Committable
  | .upsertLog .. => phase.log = .outside
  | .takeStaleLog .. | .lockStaleLog .. => phase.log.Sweeping
  | .flushLog log _ _ => phase.log = .owner log
  | .finishLog log _ => phase.log.MayFinish log
  | _ => True

def allow (phase : Phase) (stmt : Stmt) : Prop :=
  phase.connection = .ready ∧ phase.Permits stmt ∨ phase.connection = .aborted ∧ stmt = .rollback

/-- What a phase allows besides a rollback needs a usable connection. -/
theorem permitted {phase : Phase} {stmt : Stmt} (allowed : phase.allow stmt)
    (other : stmt ≠ .rollback) : phase.connection = .ready ∧ phase.Permits stmt :=
  allowed.resolve_right fun aborted => other aborted.2

end Phase

/-- A statement over candidate rows answers each key once. -/
def Answers : (stmt : Stmt) → Reply stmt → Prop
  | .selectClaimable log hashes, answer =>
    answer.Nodup ∧ ∀ delivery ∈ answer, delivery.log = log ∧ delivery.endpointHash ∈ hashes
  | _, _ => True

/-- The protocol of the workers. -/
abbrev worker : Protocol push where
  Phase := Phase
  gone := { connection := .gone }
  allow := Phase.allow
  next := Phase.next
  answers := Answers

/-! ## Reading the programs -/

/-- No claim is open and the transaction is in order. -/
def calm (log : LogPhase) : Phase := { log }

/-- What an exception leaves: the transaction can only be rolled back. -/
def Broken (log : LogPhase) (phase : Phase) : Prop :=
  phase.connection = .aborted ∧ phase.log.retreat = log.retreat

variable {α : Type} {log : LogPhase} {logId : LogId}

/-- The program starts and returns with no claim open, and leaves the log where it is. -/
def Steady (log : LogPhase) (p : Push α) : Prop :=
  p.Ensures worker.rules (fun _ phase => phase = calm log) (fun _ => Broken log) (calm log)

/-- A steady program may be used where less is asked of its end. -/
theorem Steady.weaken {p : Push α} (steady : Steady log p) {Q : α → Phase → Prop}
    {E : Failure → Phase → Prop} (returns : ∀ value, Q value (calm log))
    (raises : ∀ reason phase, Broken log phase → E reason phase) :
    p.Ensures worker.rules Q E (calm log) := by
  refine Ensures.weaken steady ?_ raises
  rintro value _ rfl
  exact returns value

theorem Steady.forEach {ι : Type} {body : ι → Push Unit} (items : List ι)
    (each : ∀ item ∈ items, Steady log (body item)) : Steady log (forEach body items) := by
  refine ensures_forEach_same (fun phase => phase = calm log) items rfl fun item member state same => ?_
  rw [same]
  exact each item member

/-- One statement in some phase of a transaction that is in order. -/
theorem ask_ensures (stmt : Stmt) {phase : Phase} {Q : Reply stmt → Phase → Prop}
    (permitted : phase.Permits stmt)
    (answered : ∀ answer, Answers stmt answer → Q answer (phase.next stmt (.ok answer)))
    (ready : phase.connection = .ready) (home : phase.log.retreat = log.retreat) :
    (ask stmt).Ensures worker.rules Q (fun _ => Broken log) phase := by
  refine (Protocol.ensures_issue _).mpr ⟨.inl ⟨ready, permitted⟩, answered, fun reason => ?_⟩
  exact ⟨by simp [Phase.next], by simpa [Phase.next] using home⟩

/-- A statement that moves no phase. -/
theorem steady_ask (stmt : Stmt) (permitted : (calm log).Permits stmt)
    (still : ∀ answer, (calm log).next stmt (.ok answer) = calm log) : Steady log (ask stmt) :=
  ask_ensures stmt permitted (fun answer _ => still answer) rfl rfl

theorem Steady.ret (value : α) : Steady log (pure value : Push α) := rfl

theorem Steady.bind {β : Type} {p : Push α} {f : α → Push β} (first : Steady log p)
    (then_ : ∀ value, Steady log (f value)) : Steady log (p >>= f) := by
  unfold Steady
  rw [bind_eq, ensures_bind]
  exact first.weaken then_ fun _ _ broken => broken

/-! ## Repositories -/

theorem expireClaims_steady : Steady log (expireClaims logId) := by
  unfold expireClaims
  refine Steady.bind (steady_ask _ trivial fun _ => rfl) fun rows => ?_
  exact Steady.forEach rows fun delivery _ => steady_ask _ rfl fun _ => rfl

theorem commit_steady (settled : log.committed = log) : Steady log (ask .commit) :=
  steady_ask _ trivial fun _ => by simp [Phase.next, calm, Claim.committed, settled]

/-- The deliveries are prepared and committed, and the session is where it was. -/
theorem ensureDeliveries_steady (hashes : List String) (settled : log.committed = log) :
    Steady log (ensureDeliveries logId hashes) := by
  unfold ensureDeliveries
  refine Steady.bind (steady_ask _ trivial fun _ => rfl) fun rows => ?_
  refine Steady.bind (Steady.forEach _ fun delivery _ => steady_ask _ rfl fun _ => rfl) fun _ => ?_
  split
  · exact commit_steady settled
  · refine Steady.bind (Steady.forEach _ fun hash _ => steady_ask _ rfl fun _ => rfl) fun _ => ?_
    exact commit_steady settled

theorem getDeliveryStates_steady (hashes : List String) : Steady log (getDeliveryStates logId hashes) := by
  unfold getDeliveryStates
  dsimp only
  split
  · exact Steady.ret _
  · exact steady_ask _ trivial fun _ => rfl

theorem getDeliveryCounts_steady : Steady log (getDeliveryCounts logId) :=
  steady_ask _ trivial fun _ => rfl

/-- A log may be finished by whoever owns or reclaims it. -/
theorem finalizeStaleLog_ensures (mine : log.MayFinish logId) (stays : log.finished logId = log) :
    Steady log (finalizeStaleLog logId) := by
  unfold finalizeStaleLog
  refine Steady.bind expireClaims_steady fun _ => ?_
  refine Steady.bind getDeliveryCounts_steady fun counts => ?_
  refine Steady.bind (steady_ask _ mine fun _ => ?_) fun _ => Steady.ret _
  simp [Phase.next, calm, stays]

/-! ## One claim -/

theorem cleanHashes_mem {hashes : List String} {hash : String} :
    hash ∈ cleanHashes hashes ↔ hash ∈ hashes ∧ hash ≠ "" := by
  simp [cleanHashes]

/-- The rows that can answer for a single endpoint. -/
theorem candidates_single {hash : String} {candidates : List DeliveryId} (unique : candidates.Nodup)
    (asked : ∀ delivery ∈ candidates, delivery.log = logId ∧ delivery.endpointHash ∈ cleanHashes [hash]) :
    candidates = [] ∨ candidates = [⟨logId, hash⟩] := by
  have same : ∀ delivery ∈ candidates, delivery = ⟨logId, hash⟩ := by
    intro delivery member
    obtain ⟨ofLog, ofHash⟩ := asked delivery member
    have equal : delivery.endpointHash = hash := by simpa using (cleanHashes_mem.mp ofHash).1
    cases delivery
    simp_all
  cases candidates with
  | nil => exact .inl rfl
  | cons first rest =>
    right
    have head := same first (by simp)
    cases rest with
    | nil => rw [head]
    | cons second others =>
      have next := same second (by simp)
      simp [head, next] at unique

/-- What `claim_deliveries` returns for one endpoint: nothing, or its claim. -/
def Claimed (log : LogPhase) (logId : LogId) (hash : String) (claims : List DeliveryClaim)
    (phase : Phase) : Prop :=
  claims = [] ∧ phase = calm log ∨
    claims = [⟨⟨logId, hash⟩, hash⟩] ∧ phase = { claim := .claimed ⟨logId, hash⟩, log }

/-- Lock the only candidate: it may have been taken or passed by. -/
theorem lockSingle_ensures (delivery : DeliveryId) :
    (collectEach lockClaimable [delivery]).Ensures worker.rules
      (fun rows phase => rows = [] ∧ phase = calm log ∨
        ∃ row, rows = [(delivery, row)] ∧ phase = { claim := .locked delivery, log })
      (fun _ => Broken log) (calm log) := by
  simp only [collectEach, lockClaimable, bind_eq, ensures_bind, pure_eq]
  refine ask_ensures _ rfl (fun row _ => ?_) rfl rfl
  cases row with
  | none => exact .inl ⟨rfl, rfl⟩
  | some row => exact .inr ⟨row, rfl, rfl⟩

/-- The claim of one hash ends with the committed claim, or with none. -/
theorem claimDeliveries_ensures (hash : String) (settled : log.committed = log) :
    (claimDeliveries logId [hash]).Ensures worker.rules (Claimed log logId hash)
      (fun _ => Broken log) (calm log) := by
  have empty : (do ask .commit; pure [] : Push (List DeliveryClaim)).Ensures worker.rules
      (Claimed log logId hash) (fun _ => Broken log) (calm log) := by
    simp only [bind_eq, ensures_bind, pure_eq]
    exact (commit_steady settled).weaken (fun _ => .inl ⟨rfl, rfl⟩) fun _ _ broken => broken
  unfold claimDeliveries
  dsimp only
  split
  · exact empty
  · rw [bind_eq, ensures_bind]
    refine ask_ensures _ trivial (fun candidates known => ?_) rfl rfl
    rcases candidates_single known.1 known.2 with none_ | single
    · subst none_
      exact empty
    · subst single
      rw [bind_eq, ensures_bind]
      refine (lockSingle_ensures _).weaken ?_ fun _ _ broken => broken
      rintro rows phase (⟨rfl, rfl⟩ | ⟨row, rfl, rfl⟩)
      · exact empty
      · simp only [forEach, bind_eq, ensures_bind, pure_eq]
        refine ask_ensures _ rfl (fun _ _ => ?_) rfl rfl
        refine ask_ensures .commit trivial (fun _ _ => .inr ⟨rfl, ?_⟩) rfl rfl
        simp [Phase.next, Claim.committed, settled]

/-! ## Provider calls and results -/

/-- The claim that an attempt leaves to be recorded. -/
def Attempted (delivery : DeliveryId) (attempt : DeliveryAttempt) : Claim → Prop
  | .claimed held => held = delivery ∧ attempt.ok = false ∧ attempt.uncertain = false
  | .accepted held => held = delivery ∧ attempt.ok = true ∧ attempt.uncertain = false
  | .uncertain held => held = delivery ∧ attempt.uncertain = true
  | _ => False

/-- The calls end with what the last answer makes of the claim. -/
theorem sendAttempts_ensures (delivery : DeliveryId) (sub : PushSubscription) (payload : Payload)
    (left : Nat) (status : Option Nat) :
    (sendAttempts (some delivery) sub payload left status).Ensures worker.rules
      (fun attempt phase => ∃ claim, Attempted delivery attempt claim ∧ phase = { claim, log })
      (fun _ => Broken log) { claim := .claimed delivery, log } := by
  induction left generalizing status with
  | zero => exact ⟨.claimed delivery, ⟨rfl, rfl, rfl⟩, rfl⟩
  | succ left again =>
    simp only [sendAttempts, sendAsync, bind_eq, ensures_bind]
    refine ask_ensures _ rfl (fun _ _ => ?_) rfl rfl
    refine ask_ensures _ rfl (fun answer _ => ?_) rfl rfl
    obtain ⟨ok, status⟩ := answer
    cases ok with
    | true => exact ⟨.accepted delivery, ⟨rfl, rfl, rfl⟩, rfl⟩
    | false =>
      cases status with
      | none => exact ⟨.uncertain delivery, ⟨rfl, rfl⟩, rfl⟩
      | some code =>
        simp only [Bool.false_eq_true, if_false]
        split
        · exact ⟨.claimed delivery, ⟨rfl, rfl, rfl⟩, rfl⟩
        · split
          · exact ⟨.claimed delivery, ⟨rfl, rfl, rfl⟩, rfl⟩
          · rw [ensures_bind]
            exact ask_ensures .sleep trivial (fun _ _ => again _) rfl rfl

theorem sendUntracked_attempts_steady (sub : PushSubscription) (payload : Payload) (left : Nat)
    (status : Option Nat) : Steady log (sendAttempts none sub payload left status) := by
  induction left generalizing status with
  | zero => exact Steady.ret _
  | succ left again =>
    unfold sendAttempts sendAsync
    refine Steady.bind ?_ fun answer => ?_
    · exact (steady_ask (.dispatch none sub payload) trivial fun _ => rfl).bind fun _ =>
        steady_ask (.awaitAnswer none) trivial fun _ => rfl
    · obtain ⟨ok, status⟩ := answer
      dsimp only
      split
      · exact Steady.ret _
      · split
        · exact Steady.ret _
        · split
          · exact Steady.ret _
          · split
            · exact Steady.ret _
            · exact (steady_ask .sleep trivial fun _ => rfl).bind fun _ => again _

/-- The result that is recorded is the one that the claim lets through, and with its commit the claim is
free. -/
theorem recordDeliveryResults_ensures {delivery : DeliveryId} {claim : Claim} {hash : String}
    {attempt : DeliveryAttempt} (settled : log.committed = log)
    (attempted : Attempted delivery attempt claim) :
    (recordDeliveryResults [⟨⟨delivery, hash⟩, attempt.ok, attempt.statusCode, attempt.uncertain⟩]).Ensures
      worker.rules (fun _ phase => phase = calm log) (fun _ => Broken log) { claim, log } := by
  simp only [recordDeliveryResults, forEach, bind_eq, ensures_bind, pure_eq]
  refine ask_ensures _ ?_ (fun _ _ => ?_) rfl rfl
  · unfold Attempted at attempted
    split at attempted
    · obtain ⟨rfl, failed, definite⟩ := attempted
      exact .inl ⟨rfl, by simp [failed, definite]⟩
    · obtain ⟨rfl, succeeded, definite⟩ := attempted
      exact .inr (.inl ⟨rfl, by simp [succeeded, definite]⟩)
    · obtain ⟨rfl, doubtful⟩ := attempted
      exact .inr (.inr ⟨rfl, by simp [doubtful]⟩)
    · exact attempted.elim
  · refine ask_ensures _ trivial (fun _ _ => ?_) rfl rfl
    simp [Phase.next, Claim.committed, calm, settled]

/-! ## Batches -/

section Batches

variable (crypto : Crypto) (payload : Payload) (retries : Nat)

theorem sendUntracked_steady (tally : BatchTally) (sub : PushSubscription) :
    Steady log (sendUntracked crypto payload retries tally sub) := by
  unfold sendUntracked
  split
  · exact Steady.ret _
  · exact (sendUntracked_attempts_steady sub payload _ _).bind fun _ => Steady.ret _

/-- A delivery is prepared with its claim, or with none where it is not to be had. -/
theorem prepareScheduledDelivery_ensures (hash : String) (settled : log.committed = log) :
    (prepareScheduledDelivery hash logId).Ensures worker.rules
      (fun found phase => (∃ state, found = (none, state)) ∧ phase = calm log ∨
        found = (some ⟨⟨logId, hash⟩, hash⟩, none) ∧ phase = { claim := .claimed ⟨logId, hash⟩, log })
      (fun _ => Broken log) (calm log) := by
  unfold prepareScheduledDelivery
  rw [bind_eq, ensures_bind]
  refine (getDeliveryStates_steady _).weaken (fun states => ?_) fun _ _ broken => broken
  dsimp only
  split
  · exact .inl ⟨⟨_, rfl⟩, rfl⟩
  · rw [bind_eq, ensures_bind]
    refine (claimDeliveries_ensures hash settled).weaken ?_ fun _ _ broken => broken
    rintro claims phase (⟨rfl, rfl⟩ | ⟨rfl, rfl⟩)
    · exact .inl ⟨⟨_, rfl⟩, rfl⟩
    · exact .inr ⟨rfl, rfl⟩

/-- A subscription is worked off from its claim to its result, and the session is free again. -/
theorem sendScheduled_steady (tally : BatchTally) (sub : PushSubscription) (settled : log.committed = log) :
    Steady log (sendScheduled crypto payload retries logId tally sub) := by
  unfold sendScheduled Steady
  rw [bind_eq, ensures_bind]
  refine (prepareScheduledDelivery_ensures sub.endpointHash settled).weaken ?_ fun _ _ broken => broken
  rintro found phase (⟨⟨state, rfl⟩, rfl⟩ | ⟨rfl, rfl⟩)
  · dsimp only
    split
    · exact Steady.ret _
    · exact Steady.ret _
  · have recorded : ∀ attempt phase, (∃ claim, Attempted ⟨logId, sub.endpointHash⟩ attempt claim ∧
        phase = { claim, log }) →
        (do
          recordDeliveryResults [⟨⟨⟨logId, sub.endpointHash⟩, sub.endpointHash⟩, attempt.ok,
            attempt.statusCode, attempt.uncertain⟩]
          pure (tally.count crypto sub.endpointHash (decryptSubscription crypto sub) attempt) :
            Push BatchTally).Ensures worker.rules (fun _ phase => phase = calm log)
          (fun _ => Broken log) phase := by
      rintro attempt phase ⟨claim, attempted, rfl⟩
      rw [bind_eq, ensures_bind]
      exact recordDeliveryResults_ensures settled attempted
    dsimp only
    split
    · exact recorded _ _ ⟨.claimed _, ⟨rfl, rfl, rfl⟩, rfl⟩
    · rw [bind_eq, ensures_bind]
      exact (sendAttempts_ensures _ sub payload _ none).weaken recorded fun _ _ broken => broken

theorem sendEach_steady {one : BatchTally → PushSubscription → Push BatchTally}
    (each : ∀ tally sub, Steady log (one tally sub)) (tally : BatchTally) (subs : List PushSubscription) :
    Steady log (sendEach one tally subs) := by
  induction subs generalizing tally with
  | nil => exact Steady.ret _
  | cons sub rest ih => exact (each tally sub).bind fun counted => ih counted

theorem createLogsBatch_steady (items : List SendLogItem) (settled : log.committed = log) :
    Steady log (createLogsBatch crypto items) := by
  unfold createLogsBatch
  dsimp only
  split
  · exact Steady.ret _
  · exact (steady_ask (.insertSendLogs _) trivial fun _ => rfl).bind fun _ => commit_steady settled

theorem removeByEndpointHashes_steady (hashes : List String) (settled : log.committed = log) :
    Steady log (removeByEndpointHashes hashes) := by
  refine Steady.forEach _ fun chunk _ => ?_
  exact (steady_ask (.deleteSubscriptions chunk) trivial fun _ => rfl).bind fun _ => commit_steady settled

theorem sendBatchChunk_steady (batch : List PushSubscription) (config : DeliveryBatchConfig)
    (settled : log.committed = log) : Steady log (sendBatchChunk crypto batch payload config) := by
  unfold sendBatchChunk
  refine Steady.bind (sendEach_steady (fun tally sub => ?_) _ _) fun tally => ?_
  · cases config.scheduledLogId with
    | none => exact sendUntracked_steady crypto payload _ tally sub
    | some logId => exact sendScheduled_steady crypto payload _ tally sub settled
  · refine (createLogsBatch_steady crypto _ settled).bind fun _ => ?_
    exact (removeByEndpointHashes_steady _ settled).bind fun _ => Steady.ret _

theorem sendBatches_steady (config : DeliveryBatchConfig) (total : SendResult)
    (chunks : List (List PushSubscription)) (settled : log.committed = log) :
    Steady log (sendBatches crypto payload config total chunks) := by
  induction chunks generalizing total with
  | nil => exact Steady.ret _
  | cons batch rest ih =>
    refine (sendBatchChunk_steady crypto payload batch config settled).bind fun counts => ?_
    dsimp only
    split
    · exact Steady.ret _
    · exact (steady_ask .sleep trivial fun _ => rfl).bind fun _ => ih _

theorem sendBatchNotifications_steady (subs : List PushSubscription) (config : BatchConfig)
    (settled : log.committed = log) :
    Steady log (sendBatchNotifications crypto subs payload config) := by
  unfold sendBatchNotifications
  dsimp only
  split
  · exact sendBatches_steady crypto payload _ _ _ settled
  · refine (ensureDeliveries_steady _ settled).bind fun _ => ?_
    refine (sendBatches_steady crypto payload _ _ _ settled).bind fun _ => ?_
    exact getDeliveryCounts_steady.bind fun _ => Steady.ret _

end Batches

/-! ## The log of a run -/

theorem getEligibleSubscriptions_steady (topic : String) : Steady log (getEligibleSubscriptions topic) := by
  refine (steady_ask .selectActiveSubscriptions trivial fun _ => rfl).bind fun subs => ?_
  exact (steady_ask (.selectOptedOut _ topic) trivial fun _ => rfl).bind fun _ => Steady.ret _

/-- A finished log is let go with the commit that finishes it. -/
def afterUpdate (logId : LogId) (status : LogStatus) : LogPhase :=
  if status = .completed ∨ status = .failed then .outside else .owner logId

/-- The owner updates its log, and gives it up with a status that is final. -/
theorem updateNotificationLog_ensures (row : ScheduledNotificationLog) (status : LogStatus)
    (accepted failed : Nat) :
    (updateNotificationLog logId row status accepted failed).Ensures worker.rules
      (fun _ phase => phase = calm (afterUpdate logId status))
      (fun _ => Broken (.owner logId)) (calm (.owner logId)) := by
  unfold updateNotificationLog
  simp only [bind_eq, ensures_bind, pure_eq]
  refine ask_ensures _ rfl (fun _ _ => ?_) rfl rfl
  by_cases closes : status = .completed ∨ status = .failed
  · have moved : (calm (.owner logId)).next (.flushLog logId row
        { row with status, acceptedCount := accepted, failedCount := failed }) (.ok ()) =
          calm (.closing logId) := by
      simp [Phase.next, calm, closes]
    rw [moved]
    refine ask_ensures .commit trivial (fun _ _ => ?_) rfl rfl
    simp [Phase.next, calm, Claim.committed, LogPhase.committed, afterUpdate, closes]
  · have still : (calm (.owner logId)).next (.flushLog logId row
        { row with status, acceptedCount := accepted, failedCount := failed }) (.ok ()) =
          calm (.owner logId) := by
      simp [Phase.next, closes]
    rw [still]
    refine ask_ensures .commit trivial (fun _ _ => ?_) rfl rfl
    simp [Phase.next, calm, Claim.committed, LogPhase.committed, afterUpdate, closes]

/-- Whoever gets the row back owns the log. -/
def Acquired (logId : LogId) (created : Option ScheduledNotificationLog) (phase : Phase) : Prop :=
  created = none ∧ phase = calm .outside ∨ created.isSome ∧ phase = calm (.owner logId)

/-- The upsert and its commit make the session the owner, or leave it outside. -/
theorem createNotificationLog_ensures (scheduledAt : Nat) :
    (createNotificationLog logId scheduledAt).Ensures worker.rules (Acquired logId)
      (fun _ _ => True) (calm .outside) := by
  unfold createNotificationLog
  simp only [bind_eq, ensures_bind]
  have any : ∀ (log : LogPhase) (_ : Failure) (phase : Phase), Broken log phase → True :=
    fun _ _ _ _ => trivial
  refine Ensures.weaken (ask_ensures (.upsertLog logId scheduledAt) rfl (fun returned _ => ?_) rfl rfl)
    (fun _ _ found => found) (any .outside)
  cases returned with
  | false =>
    refine Ensures.weaken (ask_ensures .commit trivial (fun _ _ => ?_) rfl rfl)
      (fun _ _ found => found) (any .outside)
    exact .inl ⟨rfl, rfl⟩
  | true =>
    refine Ensures.weaken (ask_ensures .commit trivial (fun _ _ => ?_) rfl rfl)
      (fun _ _ found => found) (any .outside)
    simp only [if_true, ensures_bind]
    exact Ensures.weaken (ask_ensures (.refreshLog logId) trivial (fun row _ => .inr ⟨rfl, rfl⟩) rfl rfl)
      (fun _ _ found => found) (any (.owner logId))

/-- The owner marks its log failed and gives it up. -/
theorem markLogFailed_ensures (fallback : Nat) :
    (markLogFailed logId fallback).Ensures worker.rules (fun _ _ => True)
      (fun _ => Broken (.owner logId)) (calm (.owner logId)) := by
  unfold markLogFailed
  simp only [bind_eq, ensures_bind]
  refine expireClaims_steady.weaken (fun _ => ?_) fun _ _ broken => broken
  refine getDeliveryCounts_steady.weaken (fun counts => ?_) fun _ _ broken => broken
  refine ask_ensures _ rfl (fun _ _ => ?_) rfl rfl
  exact ask_ensures .commit trivial (fun _ _ => trivial) rfl rfl

/-- After an exception a rollback is all that is left. -/
theorem rollback_ensures {phase : Phase} (aborted : phase.connection = .aborted) {Q : Unit → Phase → Prop}
    {E : Failure → Phase → Prop}
    (rolledBack : Q () (calm phase.log.retreat))
    (raised : ∀ reason, E reason { phase with connection := .aborted }) :
    (ask .rollback).Ensures worker.rules Q E phase :=
  (Protocol.ensures_issue _).mpr ⟨.inr ⟨aborted, rfl⟩, fun _ _ => rolledBack, raised⟩

/-- The handler rolls back before it touches the log, and handles an exception of its own as well. -/
theorem finalizeFailedNotification_ensures (fallback : Nat) {phase : Phase}
    (broken : Broken (.owner logId) phase) :
    (finalizeFailedNotification logId fallback).Ensures worker.rules (fun _ _ => True)
      (fun _ _ => True) phase := by
  have home : phase.log.retreat = .owner logId := broken.2
  unfold finalizeFailedNotification
  simp only [bind_eq, ensures_bind, ensures_catchWith]
  refine rollback_ensures broken.1 ?_ fun _ => trivial
  rw [home]
  refine (markLogFailed_ensures fallback).weaken (fun _ _ done => done) fun reason phase again => ?_
  cases reason with
  | sqlAlchemy =>
    rw [ensures_bind]
    exact rollback_ensures again.1 trivial fun _ => trivial
  | cancelled => trivial
  | operational => trivial
  | other => trivial

/-- Where the `try` of a run leaves its log. -/
def Ended (logId : LogId) : Sending → Phase → Prop
  | .raised _ _, phase => Broken (.owner logId) phase
  | .nobody, _ => True
  | .sent _ _, phase => phase = calm (.owner logId)

/-- The `try` of a run ends in its log, outside of it with nobody to send to, or after an exception. -/
theorem sendToEligible_ensures (crypto : Crypto) (event : Event) (dType : DType)
    (row : ScheduledNotificationLog) :
    (sendToEligible crypto event dType logId row).Ensures worker.rules (Ended logId)
      (fun _ _ => False) (calm (.owner logId)) := by
  unfold sendToEligible
  simp only [bind_eq, ensures_bind, ensures_catchWith]
  have caught : ∀ (fallback : Nat) (reason : Failure) (phase : Phase), Broken (.owner logId) phase →
      Ensures worker.rules (Ended logId) (fun _ _ => False) (pure (.raised fallback reason)) phase :=
    fun _ _ _ broken => broken
  refine (updateNotificationLog_ensures row .inProgress 0 0).weaken ?_ (caught 0)
  rintro log _ rfl
  refine (getEligibleSubscriptions_steady "event").weaken (fun subs => ?_) (caught 0)
  split
  · rw [ensures_bind]
    exact (updateNotificationLog_ensures log .completed 0 0).weaken (fun _ _ _ => trivial) (caught _)
  · rw [ensures_bind]
    exact (sendBatchNotifications_steady crypto _ subs _ rfl).weaken (fun _ => rfl) (caught _)

/-- What follows the `try` updates the log of the run. -/
theorem finishNotification_ensures (row : ScheduledNotificationLog) (result : SendResult) :
    (finishNotification logId row result).Ensures worker.rules (fun _ _ => True) (fun _ _ => True)
      (calm (.owner logId)) := by
  unfold finishNotification
  simp only [bind_eq, ensures_bind, ensures_catchWith]
  refine (updateNotificationLog_ensures row _ _ _).weaken (fun _ _ _ => trivial) fun reason phase broken => ?_
  cases reason with
  | sqlAlchemy =>
    rw [ensures_bind]
    exact (finalizeFailedNotification_ensures _ broken).weaken (fun _ _ _ => trivial) fun _ _ _ => trivial
  | cancelled => trivial
  | operational => trivial
  | other => trivial

/-! ## Requests -/

/-- The sweep of one log leaves the session outside. -/
theorem reclaimStaleLog_ensures (cutoff : Nat) :
    Steady .outside (reclaimStaleLog logId cutoff) := by
  unfold reclaimStaleLog Steady
  simp only [bind_eq, ensures_bind]
  refine ask_ensures _ trivial (fun taken _ => ?_) rfl rfl
  cases taken with
  | false => exact (commit_steady rfl).bind fun _ => Steady.ret _
  | true =>
    simp only [if_true, ensures_bind]
    have mine : (LogPhase.reclaiming [logId]).MayFinish logId := List.mem_singleton.mpr rfl
    refine (finalizeStaleLog_ensures mine rfl).weaken (fun _ => ?_) fun _ _ broken => broken
    exact ask_ensures .commit trivial (fun _ _ => rfl) rfl rfl

/-- A sweep holds the locks it had and those of the logs it found. -/
def Swept (before : LogPhase) (found : List LogId) (phase : Phase) : Prop :=
  ∃ log, phase = calm log ∧ log.Sweeping ∧ (∀ logId, before.MayFinish logId → log.MayFinish logId) ∧
    ∀ logId ∈ found, log.MayFinish logId

theorem LogPhase.Sweeping.retreat_eq (sweeping : log.Sweeping) : log.retreat = .outside := by
  cases log <;> first | rfl | exact sweeping.elim

theorem LogPhase.Sweeping.committed_eq (sweeping : log.Sweeping) : log.committed = .outside := by
  cases log <;> first | rfl | exact sweeping.elim

/-- A sweep may take one log more, and finish those that it has. -/
theorem LogPhase.Sweeping.reclaimed (sweeping : log.Sweeping) (taken : LogId) :
    (log.reclaimed taken).Sweeping ∧ (log.reclaimed taken).MayFinish taken ∧
      ∀ logId, log.MayFinish logId → (log.reclaimed taken).MayFinish logId := by
  cases log with
  | outside => exact ⟨trivial, List.mem_singleton.mpr rfl, fun _ mine => mine.elim⟩
  | reclaiming logs => exact ⟨trivial, List.mem_cons_self, fun _ mine => List.mem_cons_of_mem _ mine⟩
  | acquiring _ => exact sweeping.elim
  | owner _ => exact sweeping.elim
  | closing _ => exact sweeping.elim

/-- The sweep of all logs locks them one after the other in one transaction. -/
theorem lockStaleLogs_ensures (cutoff : Nat) (candidates : List LogId) (sweeping : log.Sweeping) :
    (collectEach (lockStaleLog cutoff) candidates).Ensures worker.rules (Swept log)
      (fun _ => Broken .outside) (calm log) := by
  induction candidates generalizing log with
  | nil => exact ⟨log, rfl, sweeping, fun _ mine => mine, fun _ member => by simp at member⟩
  | cons candidate rest ih =>
    simp only [collectEach, lockStaleLog, bind_eq, ensures_bind, pure_eq, ensures_ret]
    refine ask_ensures _ sweeping (fun locked _ => ?_) rfl sweeping.retreat_eq
    cases locked with
    | false => exact (ih sweeping).weaken (fun _ _ found => found) fun _ _ broken => broken
    | true =>
      have taken := sweeping.reclaimed candidate
      refine (ih taken.1).weaken ?_ fun _ _ broken => broken
      rintro found phase ⟨held, rfl, still, kept, each⟩
      refine ⟨held, rfl, still, fun logId mine => kept logId (taken.2.2 logId mine), ?_⟩
      intro logId member
      rcases List.mem_cons.mp member with same | later
      · rw [same]
        exact kept _ taken.2.1
      · exact each logId later

theorem reclaimStaleLogs_ensures (cutoff : Nat) : Steady .outside (reclaimStaleLogs cutoff) := by
  unfold reclaimStaleLogs Steady
  simp only [bind_eq, ensures_bind]
  refine ask_ensures _ trivial (fun candidates _ => ?_) rfl rfl
  have fresh : LogPhase.outside.Sweeping := trivial
  refine (lockStaleLogs_ensures cutoff candidates fresh).weaken ?_ fun _ _ broken => broken
  rintro found _ ⟨log, rfl, sweeping, -, mine⟩
  have let_go : ∀ count, (do ask .commit; pure count : Push Nat).Ensures worker.rules
      (fun _ phase => phase = calm .outside) (fun _ => Broken .outside) (calm log) := by
    intro count
    simp only [bind_eq, ensures_bind]
    refine ask_ensures _ trivial (fun _ _ => ?_) rfl sweeping.retreat_eq
    simp [Phase.next, calm, Claim.committed, sweeping.committed_eq]
  split
  · exact let_go 0
  · rw [ensures_bind]
    have settled : ∀ logId ∈ found, log.finished logId = log := by
      intro logId _
      cases log <;> first | rfl | exact sweeping.elim
    have swept : Steady log (Program.forEach (fun logId => do
        let _ ← finalizeStaleLog logId
        pure ()) found) :=
      Steady.forEach found fun logId member =>
        (finalizeStaleLog_ensures (mine logId member) (settled logId member)).bind fun _ => Steady.ret _
    refine swept.weaken (fun _ => let_go _) ?_
    intro _ phase broken
    exact ⟨broken.1, broken.2.trans sweeping.retreat_eq⟩

/-- A run keeps to the phases from its beginning to its end, whatever is answered or raised. -/
theorem processSingleEvent_ensures (crypto : Crypto) (event : Event) (dType : DType) :
    (processSingleEvent crypto event dType).Ensures worker.rules (fun _ _ => True) (fun _ _ => True)
      (calm .outside) := by
  unfold processSingleEvent
  simp only [bind_eq, ensures_bind]
  have any : ∀ (reason : Failure) (phase : Phase), Broken .outside phase → True := fun _ _ _ => trivial
  refine Steady.weaken (steady_ask .utcNow trivial fun _ => rfl) (fun now => ?_) any
  refine (reclaimStaleLog_ensures _).weaken (fun _ => ?_) any
  refine Steady.weaken (steady_ask (.selectSent _) trivial fun _ => rfl) (fun sent => ?_) any
  split
  · trivial
  · rw [ensures_bind]
    refine Steady.weaken (steady_ask .utcNow trivial fun _ => rfl) (fun scheduledAt => ?_) any
    rw [ensures_bind]
    refine (createNotificationLog_ensures scheduledAt).weaken ?_ fun _ _ h => h
    rintro created _ (⟨rfl, rfl⟩ | ⟨acquired, rfl⟩)
    · trivial
    · obtain ⟨log, rfl⟩ := Option.isSome_iff_exists.mp acquired
      rw [ensures_bind]
      refine (sendToEligible_ensures crypto event dType log).weaken ?_ fun _ _ never => never.elim
      intro sending phase ended
      cases sending with
      | raised fallback reason =>
        have finalized := finalizeFailedNotification_ensures fallback ended
        cases reason with
        | other => trivial
        | cancelled =>
          rw [ensures_bind]
          exact finalized
        | sqlAlchemy =>
          rw [ensures_bind]
          exact finalized
        | operational =>
          rw [ensures_bind]
          exact finalized
      | nobody => trivial
      | sent log result =>
        obtain rfl := ended
        rw [ensures_bind]
        refine (finishNotification_ensures log result).weaken (fun finished _ _ => ?_) fun _ _ h => h
        cases finished with
        | none => trivial
        | some counts => trivial

/-- Whatever a worker runs, it keeps to the phases, from a fresh session on. -/
theorem request_follows (request : Request) : worker.Follows ({} : Phase) request.program := by
  have any : ∀ (reason : Failure) (phase : Phase), Broken .outside phase → True := fun _ _ _ => trivial
  unfold Protocol.Follows
  cases request with
  | processSingleEvent crypto event dType =>
    rw [Request.program, bind_eq, ensures_bind]
    exact processSingleEvent_ensures crypto event dType
  | sendBatchChunk crypto batch payload config =>
    rw [Request.program, bind_eq, ensures_bind]
    exact (sendBatchChunk_steady crypto payload batch config rfl).weaken (fun _ => trivial) any
  | reclaimStaleLog logId cutoff =>
    rw [Request.program, bind_eq, ensures_bind]
    exact (reclaimStaleLog_ensures cutoff).weaken (fun _ => trivial) any
  | reclaimStaleLogs cutoff =>
    rw [Request.program, bind_eq, ensures_bind]
    exact (reclaimStaleLogs_ensures cutoff).weaken (fun _ => trivial) any
  | reclaimStaleScheduledLogs =>
    rw [Request.program, bind_eq, ensures_bind, reclaimStaleScheduledLogs, bind_eq, ensures_bind]
    refine Steady.weaken (steady_ask .utcNow trivial fun _ => rfl) (fun now => ?_) any
    exact (reclaimStaleLogs_ensures _).weaken (fun _ => trivial) any

/-! ## The first configuration -/

/-- No session has begun yet; rows of earlier runs may be there. -/
structure Fresh (world : World) : Prop where
  logs : world.logs.Quiet
  deliveries : world.deliveries.Quiet
  history : world.history = []
  attempt : ∀ me, world.attempt me = .idle
  intent : ∀ me, world.intent me = .own
  acquirer : ∀ log, world.acquirer log = none
  gone : ∀ me, world.gone me = false

theorem fresh_blank (clock : Nat) (subscriptions : Subscriptions)
    (preferences : List NotificationPreference) : Fresh (.blank clock subscriptions preferences) where
  logs _ := rfl
  deliveries _ := rfl
  history := rfl
  attempt _ := rfl
  intent _ := rfl
  acquirer _ := rfl
  gone _ := rfl

/-- A session with a request is ready; one without never opens. -/
def startPhase (requests : SessionId → Option Request) (me : SessionId) : Phase :=
  if (requests me).isSome then {} else { connection := .gone }

@[simp] theorem startPhase_claim (requests : SessionId → Option Request) (me : SessionId) :
    (startPhase requests me).claim = .free := by
  unfold startPhase
  split <;> rfl

@[simp] theorem startPhase_log (requests : SessionId → Option Request) (me : SessionId) :
    (startPhase requests me).log = .outside := by
  unfold startPhase
  split <;> rfl

/-- An invariant of the first world is an invariant of the first configuration. -/
theorem start_holds {J : World → (SessionId → Phase) → Prop} {world : World}
    {requests : SessionId → Option Request} (first : J world (startPhase requests)) :
    worker.Holds J (start world requests) := by
  refine ⟨startPhase requests, first, fun me program running => ?_, fun me absent => ?_⟩
  · obtain ⟨request, requested, rfl⟩ := Option.map_eq_some_iff.mp running
    have ready : startPhase requests me = {} := by simp [startPhase, requested]
    rw [ready]
    exact request_follows request
  · have missing : requests me = none := Option.map_eq_none_iff.mp absent
    simp [startPhase, missing]

end SogeconApp.Guarantees.ScheduledPush
