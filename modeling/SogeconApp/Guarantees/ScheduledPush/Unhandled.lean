import SogeconApp.Library.Exceptions
import SogeconApp.Source.ScheduledPush.Programs

/-!
# What handles no exception

Only the `try` blocks of `process_single_event` and the one in
`_finalize_failed_notification` handle an exception. The repositories, the batches and the
retries of a delivery pass on whatever a statement raises, and raise nothing of their own.
-/

namespace SogeconApp.Guarantees.ScheduledPush

open Library Program Source.ScheduledPush

variable {logId : LogId} {crypto : Crypto}

theorem ask_plain (stmt : Stmt) : (ask stmt).Plain :=
  @plain_issue push stmt

/-! ## Repositories -/

theorem expireClaims_plain : (expireClaims logId).Plain :=
  plain_bind (ask_plain _) fun rows => plain_forEach (fun _ => ask_plain _) rows

theorem ensureDeliveries_plain (hashes : List String) : (ensureDeliveries logId hashes).Plain := by
  refine plain_bind (ask_plain _) fun rows => plain_bind (plain_forEach (fun _ => ask_plain _) _) fun _ => ?_
  exact plain_ite (ask_plain _) (plain_bind (plain_forEach (fun _ => ask_plain _) _) fun _ => ask_plain _)

theorem getDeliveryStates_plain (hashes : List String) : (getDeliveryStates logId hashes).Plain :=
  plain_ite trivial (ask_plain _)

theorem claimDeliveries_plain (hashes : List String) : (claimDeliveries logId hashes).Plain := by
  refine plain_ite (plain_bind (ask_plain _) fun _ => trivial) (plain_bind (ask_plain _) fun candidates => ?_)
  have lock : ∀ delivery, (lockClaimable delivery).Plain := fun delivery =>
    plain_bind (ask_plain (.lockClaimable delivery)) fun _ => trivial
  refine plain_bind (plain_collectEach lock candidates) fun rows => ?_
  exact plain_bind (plain_forEach (fun _ => ask_plain _) rows) fun _ => plain_bind (ask_plain _) fun _ => trivial

theorem recordDeliveryResults_plain (results : List DeliveryResult) : (recordDeliveryResults results).Plain :=
  plain_bind (plain_forEach (fun _ => ask_plain _) results) fun _ => ask_plain _

theorem getDeliveryCounts_plain : (getDeliveryCounts logId).Plain :=
  ask_plain _

theorem finalizeStaleLog_plain : (finalizeStaleLog logId).Plain :=
  plain_bind expireClaims_plain fun _ => plain_bind getDeliveryCounts_plain fun _ =>
    plain_bind (ask_plain _) fun _ => trivial

theorem reclaimStaleLog_plain (cutoff : Nat) : (reclaimStaleLog logId cutoff).Plain := by
  refine plain_bind (ask_plain _) fun taken => plain_ite ?_ ?_
  · exact plain_bind finalizeStaleLog_plain fun _ => plain_bind (ask_plain _) fun _ => trivial
  · exact plain_bind (ask_plain _) fun _ => trivial

theorem markLogFailed_plain (fallbackFailed : Nat) : (markLogFailed logId fallbackFailed).Plain :=
  plain_bind expireClaims_plain fun _ => plain_bind getDeliveryCounts_plain fun _ =>
    plain_bind (ask_plain _) fun _ => plain_bind (ask_plain _) fun _ => trivial

theorem createLogsBatch_plain (items : List SendLogItem) : (createLogsBatch crypto items).Plain :=
  plain_ite trivial (plain_bind (ask_plain _) fun _ => ask_plain _)

theorem removeByEndpointHashes_plain (hashes : List String) : (removeByEndpointHashes hashes).Plain :=
  plain_forEach (fun _ => plain_bind (ask_plain _) fun _ => ask_plain _) _

/-! ## Deliveries -/

variable {payload : Payload} {maxRetries : Nat}

/-- A provider that raises ends the attempts: the retries are for its answers. -/
theorem sendAttempts_plain (delivery : Option DeliveryId) (sub : PushSubscription) (left : Nat)
    (status : Option Nat) : (sendAttempts delivery sub payload left status).Plain := by
  induction left generalizing status with
  | zero => exact trivial
  | succ left ih =>
    have call : (sendAsync delivery sub payload).Plain := plain_bind (ask_plain _) fun _ => ask_plain _
    refine plain_bind call fun answer => plain_ite trivial ?_
    obtain ⟨ok, code⟩ := answer
    cases code with
    | none => exact trivial
    | some code => exact plain_ite trivial (plain_ite trivial (plain_bind (ask_plain _) fun _ => ih _))

theorem prepareScheduledDelivery_plain (hash : String) : (prepareScheduledDelivery hash logId).Plain := by
  refine plain_bind (getDeliveryStates_plain _) fun states => plain_ite trivial ?_
  refine plain_bind (claimDeliveries_plain _) fun claims => ?_
  cases claims <;> exact trivial

theorem sendUntracked_plain (tally : BatchTally) (sub : PushSubscription) :
    (sendUntracked crypto payload maxRetries tally sub).Plain := by
  unfold sendUntracked
  split
  · exact trivial
  · exact plain_bind (sendAttempts_plain ..) fun _ => trivial

theorem sendScheduled_plain (tally : BatchTally) (sub : PushSubscription) :
    (sendScheduled crypto payload maxRetries logId tally sub).Plain := by
  refine plain_bind (prepareScheduledDelivery_plain _) fun prepared => ?_
  obtain ⟨claim, state⟩ := prepared
  cases claim with
  | none => exact plain_ite trivial trivial
  | some claim =>
    have record : ∀ attempt : DeliveryAttempt, (do
        recordDeliveryResults [{ claim, ok := attempt.ok, statusCode := attempt.statusCode
                                 uncertain := attempt.uncertain }]
        pure (tally.count crypto sub.endpointHash (decryptSubscription crypto sub) attempt) :
          Push BatchTally).Plain := fun _ => plain_bind (recordDeliveryResults_plain _) fun _ => trivial
    dsimp only
    split
    · exact record _
    · exact plain_bind (sendAttempts_plain ..) record

/-- A loop over subscriptions passes on what its rounds raise. -/
theorem sendEach_plain {one : BatchTally → PushSubscription → Push BatchTally}
    (plain : ∀ tally sub, (one tally sub).Plain) (tally : BatchTally) (subs : List PushSubscription) :
    (sendEach one tally subs).Plain := by
  induction subs generalizing tally with
  | nil => exact trivial
  | cons sub rest ih => exact plain_bind (plain tally sub) fun tally => ih tally

theorem sendBatchChunk_plain (batch : List PushSubscription) (config : DeliveryBatchConfig) :
    (sendBatchChunk crypto batch payload config).Plain := by
  refine plain_bind (sendEach_plain (fun tally sub => ?_) _ _) fun tally => ?_
  · cases config.scheduledLogId with
    | none => exact sendUntracked_plain tally sub
    | some logId => exact sendScheduled_plain tally sub
  · exact plain_bind (createLogsBatch_plain _) fun _ =>
      plain_bind (removeByEndpointHashes_plain _) fun _ => trivial

/-! ## The service -/

theorem isAlreadySent_plain : (isAlreadySent logId).Plain :=
  ask_plain _

theorem getEligibleSubscriptions_plain (topic : String) : (getEligibleSubscriptions topic).Plain :=
  plain_bind (ask_plain _) fun _ => plain_bind (ask_plain _) fun _ => trivial

theorem sendBatches_plain (config : DeliveryBatchConfig) (total : SendResult)
    (chunks : List (List PushSubscription)) : (sendBatches crypto payload config total chunks).Plain := by
  induction chunks generalizing total with
  | nil => exact trivial
  | cons batch rest ih =>
    refine plain_bind (sendBatchChunk_plain batch config) fun counts => ?_
    exact plain_ite trivial (plain_bind (ask_plain _) fun _ => ih _)

theorem sendBatchNotifications_plain (subs : List PushSubscription) (config : BatchConfig) :
    (sendBatchNotifications crypto subs payload config).Plain := by
  unfold sendBatchNotifications
  dsimp only
  split
  · exact sendBatches_plain ..
  · exact plain_bind (ensureDeliveries_plain _) fun _ => plain_bind (sendBatches_plain ..) fun _ =>
      plain_bind getDeliveryCounts_plain fun _ => trivial

theorem createNotificationLog_plain (scheduledAt : Nat) : (createNotificationLog logId scheduledAt).Plain :=
  plain_bind (ask_plain _) fun _ => plain_bind (ask_plain _) fun _ =>
    plain_ite (plain_bind (ask_plain _) fun _ => trivial) trivial

theorem updateNotificationLog_plain (log : ScheduledNotificationLog) (status : LogStatus)
    (accepted failed : Nat) : (updateNotificationLog logId log status accepted failed).Plain :=
  plain_bind (ask_plain _) fun _ => plain_bind (ask_plain _) fun _ => trivial

end SogeconApp.Guarantees.ScheduledPush
