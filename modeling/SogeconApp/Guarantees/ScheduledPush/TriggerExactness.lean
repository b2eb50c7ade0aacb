import SogeconApp.Guarantees.ScheduledPush.Trigger
import Mathlib.Algebra.GroupWithZero.Nat

/-!
# A trigger among no others

Apart from a rollback every statement of `process_single_event` concerns the log of its own event, so a run
spares the logs and deliveries of the other events: they find at their turn what the trigger's own sweep
left. Of the subscriptions only those that the provider reported gone are missing by then.
-/

namespace SogeconApp.Guarantees.ScheduledPush

open Library Program Source.ScheduledPush

/-! ## The statements of one event -/

/-- The statement writes the log and its deliveries only, and rolls nothing back. -/
def Concerns (logId : LogId) : Stmt → Prop
  | .upsertLog log _ | .flushLog log _ _ | .takeStaleLog log _ | .lockStaleLog log _ | .finishLog log _ =>
    log = logId
  | .expireClaim delivery | .abandonDelivery delivery | .insertDelivery delivery | .lockClaimable delivery
  | .flushClaim delivery _ | .recordResult delivery _ _ => delivery.log = logId
  | .rollback => False
  | _ => True

/-- The statements of the log; deliveries are selected by their log. -/
def ofLog (logId : LogId) : Kind push where
  within := Concerns logId
  answers
    | .selectDeliveries log _, answer => ∀ delivery ∈ answer, delivery.log = log
    | .selectClaimable log _, answer => ∀ delivery ∈ answer, delivery.log = log
    | _, _ => True

variable {logId : LogId} {crypto : Crypto} {payload : Payload}

/-- A statement whose answer does not matter here. -/
theorem ask_ofLog {stmt : Stmt} (concerns : Concerns logId stmt) :
    (ofLog logId).Confined (ask stmt) fun _ => True :=
  .ask concerns fun _ _ => trivial

section Traversal

/-- The claims that expire are those of the log. -/
theorem expireClaims_ofLog : (ofLog logId).Confined (expireClaims logId) fun _ => True := by
  unfold expireClaims
  refine Kind.Confined.bind (Kind.Confined.ask trivial fun _ known => known) fun rows known => ?_
  exact .forEach fun delivery member => ask_ofLog (known delivery member)

theorem ensureDeliveries_ofLog (hashes : List String) :
    (ofLog logId).Confined (ensureDeliveries logId hashes) fun _ => True := by
  unfold ensureDeliveries
  refine Kind.Confined.bind (Kind.Confined.ask trivial fun _ known => known) fun rows known => ?_
  refine Kind.Confined.bind (.forEach fun delivery member => ask_ofLog ?_) fun _ _ => ?_
  · exact known delivery (List.mem_of_mem_filter member)
  · split
    · exact ask_ofLog trivial
    · exact Kind.Confined.bind (.forEach fun hash _ => ask_ofLog rfl) fun _ _ => ask_ofLog trivial

theorem getDeliveryStates_ofLog (hashes : List String) :
    (ofLog logId).Confined (getDeliveryStates logId hashes) fun _ => True := by
  unfold getDeliveryStates
  dsimp only
  split
  · exact .ret trivial
  · exact ask_ofLog trivial

theorem lockClaimable_ofLog {delivery : DeliveryId} (mine : delivery.log = logId) :
    (ofLog logId).Confined (lockClaimable delivery) fun found => ∀ row ∈ found, row.1.log = logId := by
  unfold lockClaimable
  refine Kind.Confined.bind (ask_ofLog mine) fun row _ => .ret ?_
  intro locked member
  obtain ⟨loaded, -, rfl⟩ := Option.mem_map.mp member
  exact mine

/-- What is claimed for a log belongs to it. -/
theorem claimDeliveries_ofLog (hashes : List String) :
    (ofLog logId).Confined (claimDeliveries logId hashes) fun claims => ∀ claim ∈ claims,
      claim.id.log = logId := by
  unfold claimDeliveries
  dsimp only
  split
  · exact Kind.Confined.bind (ask_ofLog trivial) fun _ _ => .ret (by simp)
  · refine Kind.Confined.bind (Kind.Confined.ask trivial fun _ known => known) fun candidates known => ?_
    refine Kind.Confined.bind (.collectEach fun delivery member => lockClaimable_ofLog (known delivery member))
      fun rows mine => ?_
    refine Kind.Confined.bind (.forEach fun row member => ask_ofLog (mine row member)) fun _ _ => ?_
    refine Kind.Confined.bind (ask_ofLog trivial) fun _ _ => .ret ?_
    intro claim member
    obtain ⟨row, belongs, rfl⟩ := List.mem_map.mp member
    exact mine row belongs

/-- Results are recorded for the log that they were claimed in. -/
theorem recordDeliveryResults_ofLog {results : List DeliveryResult}
    (mine : ∀ result ∈ results, result.claim.id.log = logId) :
    (ofLog logId).Confined (recordDeliveryResults results) fun _ => True := by
  unfold recordDeliveryResults
  refine Kind.Confined.bind (.forEach fun result member => ask_ofLog (mine result member)) fun _ _ => ?_
  exact ask_ofLog trivial

theorem finalizeStaleLog_ofLog : (ofLog logId).Confined (finalizeStaleLog logId) fun _ => True := by
  unfold finalizeStaleLog getDeliveryCounts
  refine Kind.Confined.bind expireClaims_ofLog fun _ _ => ?_
  refine Kind.Confined.bind (ask_ofLog trivial) fun counts _ => ?_
  exact Kind.Confined.bind (ask_ofLog rfl) fun _ _ => .ret trivial

theorem reclaimStaleLog_ofLog (cutoff : Nat) :
    (ofLog logId).Confined (reclaimStaleLog logId cutoff) fun _ => True := by
  unfold reclaimStaleLog
  refine Kind.Confined.bind (ask_ofLog rfl) fun taken _ => ?_
  split
  · refine Kind.Confined.bind finalizeStaleLog_ofLog fun _ _ => ?_
    exact Kind.Confined.bind (ask_ofLog trivial) fun _ _ => .ret trivial
  · exact Kind.Confined.bind (ask_ofLog trivial) fun _ _ => .ret trivial

theorem sendAttempts_ofLog (delivery : Option DeliveryId) (sub : PushSubscription) (left : Nat)
    (status : Option Nat) :
    (ofLog logId).Confined (sendAttempts delivery sub payload left status) fun _ => True := by
  induction left generalizing status with
  | zero => exact .ret trivial
  | succ left ih =>
    unfold sendAttempts sendAsync
    refine Kind.Confined.bind (Kind.Confined.bind (ask_ofLog trivial) fun _ _ => ask_ofLog trivial)
      fun answer _ => ?_
    obtain ⟨ok, code⟩ := answer
    dsimp only
    split
    · exact .ret trivial
    · split
      · exact .ret trivial
      · split
        · exact .ret trivial
        · split
          · exact .ret trivial
          · exact Kind.Confined.bind (ask_ofLog trivial) fun _ _ => ih _

theorem prepareScheduledDelivery_ofLog (hash : String) :
    (ofLog logId).Confined (prepareScheduledDelivery hash logId)
      fun found => ∀ claim ∈ found.1, claim.id.log = logId := by
  unfold prepareScheduledDelivery
  refine Kind.Confined.bind (getDeliveryStates_ofLog _) fun states _ => ?_
  dsimp only
  split
  · exact .ret (by simp)
  · refine Kind.Confined.bind (claimDeliveries_ofLog _) fun claims mine => ?_
    cases claims with
    | nil => exact .ret (by simp)
    | cons claim rest =>
      refine .ret ?_
      rintro _ ⟨⟩
      exact mine claim List.mem_cons_self

theorem sendScheduled_ofLog (retries : Nat) (tally : BatchTally) (sub : PushSubscription) :
    (ofLog logId).Confined (sendScheduled crypto payload retries logId tally sub) fun _ => True := by
  unfold sendScheduled
  refine Kind.Confined.bind (prepareScheduledDelivery_ofLog _) fun found mine => ?_
  obtain ⟨claim, state⟩ := found
  cases claim with
  | none =>
    dsimp only
    split
    · exact .ret trivial
    · exact .ret trivial
  | some claim =>
    have records (attempt : DeliveryAttempt) (counted : BatchTally) : (ofLog logId).Confined (do
        recordDeliveryResults
          [{ claim, ok := attempt.ok, statusCode := attempt.statusCode, uncertain := attempt.uncertain }]
        pure counted) fun _ => True := by
      refine Kind.Confined.bind (recordDeliveryResults_ofLog ?_) fun _ _ => .ret trivial
      intro result member
      obtain rfl := List.mem_singleton.mp member
      exact mine claim rfl
    dsimp only
    split
    · exact records _ _
    · exact Kind.Confined.bind (sendAttempts_ofLog ..) fun attempt _ => records attempt _

theorem sendEach_ofLog (retries : Nat) (tally : BatchTally) (batch : List PushSubscription) :
    (ofLog logId).Confined (sendEach (sendScheduled crypto payload retries logId) tally batch) fun _ => True := by
  induction batch generalizing tally with
  | nil => exact .ret trivial
  | cons sub rest ih => exact Kind.Confined.bind (sendScheduled_ofLog retries tally sub) fun tally _ => ih tally

theorem createLogsBatch_ofLog (items : List SendLogItem) :
    (ofLog logId).Confined (createLogsBatch crypto items) fun _ => True := by
  unfold createLogsBatch
  dsimp only
  split
  · exact .ret trivial
  · exact Kind.Confined.bind (ask_ofLog trivial) fun _ _ => ask_ofLog trivial

theorem removeByEndpointHashes_ofLog (hashes : List String) :
    (ofLog logId).Confined (removeByEndpointHashes hashes) fun _ => True :=
  .forEach fun _ _ => Kind.Confined.bind (ask_ofLog trivial) fun _ _ => ask_ofLog trivial

theorem sendBatchChunk_ofLog (retries : Nat) (batch : List PushSubscription) :
    (ofLog logId).Confined
      (sendBatchChunk crypto batch payload { maxRetries := retries, scheduledLogId := some logId })
      fun _ => True := by
  unfold sendBatchChunk
  refine Kind.Confined.bind (sendEach_ofLog retries {} batch) fun tally _ => ?_
  refine Kind.Confined.bind (createLogsBatch_ofLog _) fun _ _ => ?_
  exact Kind.Confined.bind (removeByEndpointHashes_ofLog _) fun _ _ => .ret trivial

theorem sendBatches_ofLog (retries : Nat) (total : SendResult) (chunks : List (List PushSubscription)) :
    (ofLog logId).Confined
      (sendBatches crypto payload { maxRetries := retries, scheduledLogId := some logId } total chunks)
      fun _ => True := by
  induction chunks generalizing total with
  | nil => exact .ret trivial
  | cons batch rest ih =>
    refine Kind.Confined.bind (sendBatchChunk_ofLog retries batch) fun counts _ => ?_
    dsimp only
    split
    · exact .ret trivial
    · exact Kind.Confined.bind (ask_ofLog trivial) fun _ _ => ih _

theorem sendBatchNotifications_ofLog (subs : List PushSubscription) :
    (ofLog logId).Confined (sendBatchNotifications crypto subs payload { scheduledLogId := some logId })
      fun _ => True := by
  unfold sendBatchNotifications
  refine Kind.Confined.bind (ensureDeliveries_ofLog _) fun _ _ => ?_
  refine Kind.Confined.bind (sendBatches_ofLog ..) fun _ _ => ?_
  exact Kind.Confined.bind (ask_ofLog trivial) fun _ _ => .ret trivial

theorem createNotificationLog_ofLog (scheduledAt : Nat) :
    (ofLog logId).Confined (createNotificationLog logId scheduledAt) fun _ => True := by
  unfold createNotificationLog
  refine Kind.Confined.bind (ask_ofLog rfl) fun returned _ => ?_
  refine Kind.Confined.bind (ask_ofLog trivial) fun _ _ => ?_
  split
  · exact Kind.Confined.bind (ask_ofLog trivial) fun _ _ => .ret trivial
  · exact .ret trivial

theorem updateNotificationLog_ofLog (row : ScheduledNotificationLog) (status : LogStatus)
    (accepted failed : Nat) :
    (ofLog logId).Confined (updateNotificationLog logId row status accepted failed) fun _ => True := by
  unfold updateNotificationLog
  refine Kind.Confined.bind (ask_ofLog rfl) fun _ _ => ?_
  exact Kind.Confined.bind (ask_ofLog trivial) fun _ _ => .ret trivial

theorem getEligibleSubscriptions_ofLog (topic : String) :
    (ofLog logId).Confined (getEligibleSubscriptions topic) fun _ => True := by
  unfold getEligibleSubscriptions
  refine Kind.Confined.bind (ask_ofLog trivial) fun allSubs _ => ?_
  exact Kind.Confined.bind (ask_ofLog trivial) fun optedOut _ => .ret trivial

/-- While nothing raises, the `try` of a run catches nothing. -/
theorem sendToEligible_ofLog (event : Event) (dType : DType) (row : ScheduledNotificationLog) :
    (ofLog logId).Confined (sendToEligible crypto event dType logId row)
      fun sending => ∀ fallback reason, sending ≠ .raised fallback reason := by
  unfold sendToEligible
  refine Kind.Confined.catch ?_
  refine Kind.Confined.bind (updateNotificationLog_ofLog ..) fun log _ => ?_
  refine Kind.Confined.bind (getEligibleSubscriptions_ofLog _) fun subs _ => Kind.Confined.catch ?_
  split
  · exact Kind.Confined.bind (updateNotificationLog_ofLog ..) fun _ _ => .ret (by simp)
  · exact Kind.Confined.bind (sendBatchNotifications_ofLog _) fun _ _ => .ret (by simp)

theorem finishNotification_ofLog (row : ScheduledNotificationLog) (result : SendResult) :
    (ofLog logId).Confined (finishNotification logId row result) fun _ => True :=
  Kind.Confined.catch (Kind.Confined.bind (updateNotificationLog_ofLog ..) fun _ _ => .ret trivial)

/-- Apart from a rollback a run concerns the log of its event only, and returns its name. -/
theorem processSingleEvent_ofLog (event : Event) (dType : DType) :
    (ofLog ⟨event.id, dType⟩).Confined (processSingleEvent crypto event dType)
      fun result => result.eventId = event.id ∧ result.dType = dType := by
  unfold processSingleEvent
  refine Kind.Confined.bind (ask_ofLog trivial) fun now _ => ?_
  refine Kind.Confined.bind (reclaimStaleLog_ofLog _) fun _ _ => ?_
  refine Kind.Confined.bind (ask_ofLog trivial) fun sent _ => ?_
  split
  · exact .ret ⟨rfl, rfl⟩
  · refine Kind.Confined.bind (ask_ofLog trivial) fun scheduledAt _ => ?_
    refine Kind.Confined.bind (createNotificationLog_ofLog _) fun created _ => ?_
    split
    · exact .ret ⟨rfl, rfl⟩
    · refine Kind.Confined.bind (sendToEligible_ofLog event dType _) fun sending caught => ?_
      cases sending with
      | raised fallback reason => exact absurd rfl (caught fallback reason)
      | nobody => exact .ret ⟨rfl, rfl⟩
      | sent log result =>
        refine Kind.Confined.bind (finishNotification_ofLog log result) fun finished _ => ?_
        cases finished with
        | none => exact .ret ⟨rfl, rfl⟩
        | some counts => exact .ret ⟨rfl, rfl⟩

/-- A program that rolls nothing back. -/
theorem rollingBack_ofLog {α : Type} {program : Push α} {Q : α → Prop} {seen : Bool}
    (confined : (ofLog logId).Confined program Q) :
    (ofLog logId).Confined (rollingBack seen program) fun result => Q result.1 ∧ result.2 = seen := by
  induction program generalizing seen with
  | ret value => exact ⟨confined, rfl⟩
  | raise reason => exact confined.elim
  | exec stmt next ih =>
    have still : (seen || decide (stmt = .rollback)) = seen := by
      have other : stmt ≠ .rollback := by
        rintro rfl
        exact confined.1
      simp [other]
    refine ⟨confined.1, fun reply state answered => ?_⟩
    rw [still]
    exact ih reply (confined.2 reply state answered)

end Traversal

/-! ## What a run spares -/

section Slots

variable {κ ρ : Type} [DecidableEq κ] {me : SessionId} {key other : κ} {table after : Table κ ρ}

theorem updateRow_slot {cond : ρ → Bool} {change : ρ → ρ} {hit : Bool}
    (done : table.updateRow me key cond change = some (hit, after)) (different : other ≠ key) :
    after.slot other = table.slot other := by
  rcases Table.updateRow_cases done with ⟨-, rfl⟩ | ⟨-, -, version, -, -, rfl⟩
  · rfl
  · exact Table.write_slot_of_ne different

theorem insertRow_slot {version : ρ} {hit : Bool} (done : table.insertRow me key version = some (hit, after))
    (different : other ≠ key) : after.slot other = table.slot other := by
  rcases Table.insertRow_cases done with ⟨-, rfl⟩ | ⟨-, -, -, rfl⟩
  · rfl
  · exact Table.write_slot_of_ne different

theorem lockRow_slot {cond : ρ → Bool} {found : Option ρ} (done : table.lockRow me key cond = (found, after))
    (different : other ≠ key) : after.slot other = table.slot other := by
  rcases Table.lockRow_cases done with ⟨-, rfl⟩ | ⟨version, -, -, -, -, rfl⟩
  · rfl
  · exact Table.write_slot_of_ne different

end Slots

/-- A commit leaves the slots that nobody has drafted. -/
theorem commit_slot {κ ρ : Type} {me : SessionId} {key : κ} {table : Table κ ρ}
    (quiet : (table.slot key).draft = none) : (table.commit me).slot key = table.slot key :=
  Slot.commit_of_not_mine fun version drafted => by rw [quiet] at drafted; cases drafted

/-- The rows of other logs are as they were, and so are the preferences; subscriptions may be gone. -/
structure Spared (logId : LogId) (before after : World) : Prop where
  logs : ∀ log, log ≠ logId → after.logs.slot log = before.logs.slot log
  deliveries : ∀ delivery : DeliveryId, delivery.log ≠ logId →
    after.deliveries.slot delivery = before.deliveries.slot delivery
  subscriptions : after.subscriptions.rows.Sublist before.subscriptions.rows
  preferences : after.preferences = before.preferences

variable {me : SessionId} {start world world' : World}

theorem Spared.refl (world : World) : Spared logId world world :=
  ⟨fun _ _ => rfl, fun _ _ => rfl, .refl _, rfl⟩

theorem Spared.tick (spared : Spared logId start world) (seconds : Nat) :
    Spared logId start (world.tick seconds) :=
  ⟨spared.logs, spared.deliveries, spared.subscriptions, spared.preferences⟩

/-- A statement that writes the logs and deliveries of the log only. -/
theorem Spared.writes (spared : Spared logId start world)
    (logs : ∀ log, log ≠ logId → world'.logs.slot log = world.logs.slot log)
    (deliveries : ∀ delivery : DeliveryId, delivery.log ≠ logId →
      world'.deliveries.slot delivery = world.deliveries.slot delivery)
    (subscriptions : world'.subscriptions.rows.Sublist world.subscriptions.rows)
    (preferences : world'.preferences = world.preferences) : Spared logId start world' where
  logs log other := (logs log other).trans (spared.logs log other)
  deliveries delivery other := (deliveries delivery other).trans (spared.deliveries delivery other)
  subscriptions := subscriptions.trans spared.subscriptions
  preferences := preferences.trans spared.preferences

/-- An update of a delivery of the log spares the others. -/
theorem Spared.updateDelivery {delivery : DeliveryId} {cond : ScheduledNotificationDelivery → Bool}
    {change : ScheduledNotificationDelivery → ScheduledNotificationDelivery} {reply : Unit}
    (spared : Spared logId start world) (mine : delivery.log = logId)
    (done : updateDelivery me delivery cond change world = some (reply, world')) : Spared logId start world' := by
  obtain ⟨hit, deliveries, updated, rfl⟩ := updateDelivery_world done
  refine spared.writes (fun _ _ => rfl) (fun other apart => updateRow_slot updated ?_) (.refl _) rfl
  rintro rfl
  exact apart mine

theorem Spared.updateLog {log : LogId} {cond : ScheduledNotificationLog → Bool}
    {change : ScheduledNotificationLog → ScheduledNotificationLog} {hit : Bool}
    (spared : Spared logId start world) (mine : log = logId)
    (done : updateLog me log cond change world = some (hit, world')) : Spared logId start world' := by
  obtain ⟨logs, updated, rfl⟩ := updateLog_world done
  refine spared.writes (fun other apart => updateRow_slot updated ?_) (fun _ _ => rfl) (.refl _) rfl
  rintro rfl
  exact apart mine

/-- A statement of the log spares the rest, once no transaction is open there. -/
theorem Spared.answer {stmt : Stmt} {choice : Choice} {reply : Reply stmt} (idle : Idle me start)
    (spared : Spared logId start world) (concerns : Concerns logId stmt)
    (done : Source.ScheduledPush.answer me stmt choice world = some (reply, world')) :
    Spared logId start world' := by
  cases stmt with
  | utcNow | sleep | selectSent log | selectStaleLogs cutoff | selectDeliveries log statuses
  | selectStates log hashes | selectClaimable log hashes | countDeliveries log
  | selectActiveSubscriptions | selectOptedOut channel topic | insertSendLogs rows
  | dispatch target sub payload | awaitAnswer target =>
    cases done
    exact spared.writes (fun _ _ => rfl) (fun _ _ => rfl) (.refl _) rfl
  | deleteSubscriptions hashes =>
    cases done
    exact spared.writes (fun _ _ => rfl) (fun _ _ => rfl) List.filter_sublist rfl
  | refreshLog log =>
    obtain ⟨row, -, same⟩ := Option.map_eq_some_iff.mp done
    cases same
    exact spared
  | expireClaim target | abandonDelivery target | flushClaim target loaded =>
    exact spared.updateDelivery concerns done
  | recordResult target status code =>
    obtain ⟨⟨answered, world₁⟩, stored, same⟩ := Option.map_eq_some_iff.mp done
    cases same
    have writes := spared.updateDelivery concerns stored
    exact writes.writes (fun _ _ => rfl) (fun _ _ => rfl) (.refl _) rfl
  | insertDelivery target =>
    obtain ⟨⟨hit, deliveries⟩, inserted, same⟩ := Option.map_eq_some_iff.mp done
    cases same
    refine spared.writes (fun _ _ => rfl) (fun other apart => insertRow_slot inserted ?_) (.refl _) rfl
    rintro rfl
    exact apart concerns
  | lockClaimable target =>
    simp only [Source.ScheduledPush.answer] at done
    split at done
    · next row deliveries locked =>
      cases done
      refine spared.writes (fun _ _ => rfl) (fun other apart => lockRow_slot locked ?_) (.refl _) rfl
      rintro rfl
      exact apart concerns
    · cases done
      exact spared
  | upsertLog target scheduledAt =>
    simp only [Source.ScheduledPush.answer] at done
    split at done
    · cases done
    · split at done
      · cases done
        refine spared.writes (fun other apart => Table.write_slot_of_ne ?_) (fun _ _ => rfl) (.refl _) rfl
        rintro rfl
        exact apart concerns
      · cases done
        exact spared
  | flushLog target loaded latest | finishLog target counts =>
    obtain ⟨⟨hit, world₁⟩, updated, same⟩ := Option.map_eq_some_iff.mp done
    cases same
    exact spared.updateLog concerns updated
  | takeStaleLog target cutoff =>
    obtain ⟨⟨hit, world₁⟩, updated, same⟩ := Option.map_eq_some_iff.mp done
    cases same
    have writes := spared.updateLog concerns updated
    cases reply with
    | false => exact writes
    | true => exact writes.writes (fun _ _ => rfl) (fun _ _ => rfl) (.refl _) rfl
  | lockStaleLog target cutoff =>
    simp only [Source.ScheduledPush.answer] at done
    split at done
    · next row logs locked =>
      cases done
      refine spared.writes (fun other apart => lockRow_slot locked ?_) (fun _ _ => rfl) (.refl _) rfl
      rintro rfl
      exact apart concerns
    · cases done
      exact spared
  | commit =>
    cases done
    refine spared.writes (fun log apart => commit_slot ?_) (fun delivery apart => commit_slot ?_) (.refl _) rfl
    · rw [spared.logs log apart]
      exact idle.logs log
    · rw [spared.deliveries delivery apart]
      exact idle.deliveries delivery
  | rollback => exact concerns.elim

/-- What is known of the answers of a log's statements. -/
theorem answers_ofLog {stmt : Stmt} {choice : Choice} {reply : Reply stmt}
    (done : answer me stmt choice world = some (reply, world')) : (ofLog logId).answers stmt reply := by
  cases stmt with
  | selectDeliveries log statuses =>
    cases done
    intro delivery member
    obtain ⟨row, -, belongs⟩ := Table.mem_select.mp member
    simp only [decide_eq_true_eq] at belongs
    exact belongs.1
  | selectClaimable log hashes =>
    cases done
    intro delivery member
    obtain ⟨row, -, belongs⟩ := Table.mem_select.mp member
    simp only [decide_eq_true_eq] at belongs
    exact belongs.1
  | _ => trivial

/-! ## One event -/

/-- Nothing is raised. -/
def Fine (choice : Choice) : Prop := choice.fails = none

/-- Where nothing is raised there is nothing to handle. -/
theorem fine_never {reason : Failure} {after : World} (raised : Raised me Fine world reason after) : False :=
  not_canRaise raised.1

/-- A run in which nothing is raised skips a log that is not to be had, and finishes otherwise. -/
def RanAlone (me : SessionId) (crypto : Crypto) (logId : LogId) (start : World) (skipped : Bool) (after : World) :
    Prop :=
  match skipped with
  | true => ¬ Available logId start ∧ Begun me start after
  | false => ∃ attempts, Finished me crypto logId start attempts after

/-- A run in which nothing is raised skips a log that is not to be had, and finishes otherwise. -/
theorem processSingleEvent_fine (event : Event) (dType : DType) (idle : Idle me start) :
    (processSingleEvent crypto event dType).Ensures (machine.alone me Fine)
      (fun result after => RanAlone me crypto ⟨event.id, dType⟩ start result.skipped after)
      (fun _ _ => True) start := by
  unfold processSingleEvent
  extract_lets logId
  simp only [bind_eq, ensures_bind]
  have asked {current : World} (here : Idle me current) {Q : Nat → World → Prop}
      (then_ : ∀ seconds, Q (current.tick seconds).clock (current.tick seconds)) :
      (ask .utcNow).Ensures (machine.alone me Fine) Q (fun _ _ => True) current :=
    (ask_alone .utcNow here.working fun _ seconds => ⟨_, _, rfl, then_ seconds⟩).weaken (fun _ _ q => q)
      fun _ _ _ => trivial
  refine asked idle fun seconds => ?_
  have cutoff : start.clock - scheduledLogStaleAfter ≤ (start.tick seconds).clock - scheduledLogStaleAfter :=
    Nat.sub_le_sub_right (Nat.le_add_right _ _) _
  refine (reclaimStaleLog_alone _ (idle.tick seconds)).weaken ?_ fun _ _ _ => trivial
  rintro _ swept ⟨first, cleared⟩
  replace cleared : Cleared logId _ start swept := cleared
  have begun := (Begun.tick idle seconds).trans first
  refine (isAlreadySent_alone begun.idle).weaken ?_ fun _ _ _ => trivial
  rintro sent _ ⟨⟨later, rfl⟩, found⟩
  have ticked := begun.trans (Begun.tick begun.idle later)
  cases sent with
  | true =>
    obtain ⟨row, stored, held⟩ := found
    exact ⟨cleared.not_available cutoff stored held, ticked⟩
  | false =>
    rw [if_neg (by simp)] at found ⊢
    rw [ensures_bind]
    refine asked ticked.idle fun moment => ?_
    have ready := ticked.trans (Begun.tick ticked.idle moment)
    rw [ensures_bind]
    refine (createNotificationLog_alone _ ready.idle found).weaken ?_ fun _ _ _ => trivial
    rintro created taken ⟨creating, outcome⟩
    have whole := ready.trans creating
    cases created with
    | none =>
      obtain ⟨row, stored, held, -⟩ := outcome
      exact ⟨cleared.not_available cutoff stored held, whole⟩
    | some log =>
      obtain ⟨pending, -, failed, stored, acquired⟩ := outcome
      dsimp only
      rw [ensures_bind]
      refine (sendToEligible_recorded crypto event dType log whole acquired pending failed stored).forget ?_
        fun _ _ _ never => never.elim
      intro sending after record done
      cases sending with
      | raised fallbackFailed reason => exact absurd done.1 not_canRaise
      | nobody => exact ⟨[], done.1⟩
      | sent log result =>
        obtain ⟨somebody, recorded, opened, counted, -, current, prepared_, attempts, started, owner, across,
          sent⟩ := done
        dsimp only
        rw [ensures_bind]
        refine (finishNotification_recorded somebody recorded opened counted started owner across sent).forget ?_
          fun _ _ _ _ => trivial
        intro finished last record closed
        cases finished with
        | none => exact ⟨attempts, closed.1⟩
        | some counts =>
          obtain ⟨failing, handled⟩ := closed
          exact absurd handled.canRaise not_canRaise

/-! ## The turns of a trigger -/

/-- One due event: what its run found, returned and left, and what it attempted. -/
structure EventTurn where
  event : EventRow
  dType : DType
  before : World
  result : ProcessResult
  attempts : List (PushSubscription × List (Bool × Option Nat))
  after : World

def EventTurn.job (turn : EventTurn) : EventRow × DType := (turn.event, turn.dType)

def EventTurn.log (turn : EventTurn) : LogId := ⟨turn.event.id, turn.dType⟩

def EventTurn.work (turn : EventTurn) : List Happening :=
  turn.attempts.flatMap fun attempt => worked ⟨turn.log, attempt.1.endpointHash⟩ attempt.2

/-- A turn is skipped only when the log is not to be had, and is a retry to the letter otherwise. -/
structure EventTurn.Right (me : SessionId) (crypto : Crypto) (turn : EventTurn) : Prop where
  named : turn.result.eventId = turn.event.id ∧ turn.result.dType = turn.dType
  skips : turn.result.skipped = true → ¬ Available turn.log turn.before ∧ turn.attempts = []
  retries : turn.result.skipped = false →
    RetriedExactly me crypto turn.log turn.before turn.after turn.attempts

/-- The rows of the log of a turn are the same in both. -/
def EventTurn.Same (turn : EventTurn) (one other : World) : Prop :=
  one.logs.slot turn.log = other.logs.slot turn.log ∧
    ∀ delivery : DeliveryId, delivery.log = turn.log →
      one.deliveries.slot delivery = other.deliveries.slot delivery

/-- What the turns find, do and leave, one after the other. -/
structure Worked (me : SessionId) (crypto : Crypto) (start : World) (turns : List EventTurn)
    (after : World) : Prop where
  idle : Idle me after
  right : ∀ turn ∈ turns, turn.Right me crypto
  found : ∀ turn ∈ turns, turn.Same turn.before start
  subscriptions : ∀ turn ∈ turns, turn.before.subscriptions.rows.Sublist start.subscriptions.rows
  preferences : ∀ turn ∈ turns, turn.before.preferences = start.preferences
  left : ∀ turn ∈ turns, turn.Same after turn.after
  spared : ∀ turn : EventTurn, (∀ other ∈ turns, turn.log ≠ other.log) → turn.Same after start
  history : after.history = start.history ++ turns.flatMap EventTurn.work

theorem Worked.nothing {crypto : Crypto} (idle : Idle me start) : Worked me crypto start [] start where
  idle := idle
  right := by simp
  found := by simp
  subscriptions := by simp
  preferences := by simp
  left := by simp
  spared _ _ := ⟨rfl, fun _ _ => rfl⟩
  history := by simp

/-- A log that is spared is the same as before. -/
theorem Spared.same {turn : EventTurn} (spared : Spared logId start world) (other : turn.log ≠ logId) :
    turn.Same world start :=
  ⟨spared.logs _ other, fun delivery mine => spared.deliveries delivery (by rw [mine]; exact other)⟩

theorem EventTurn.Same.trans {turn : EventTurn} {one two three : World} (first : turn.Same one two)
    (second : turn.Same two three) : turn.Same one three :=
  ⟨first.1.trans second.1, fun delivery mine => (first.2 delivery mine).trans (second.2 delivery mine)⟩

/-- A turn, and the turns of other logs after it. -/
theorem Worked.cons {crypto : Crypto} {first : EventTurn} {rest : List EventTurn} {after : World}
    (right : first.Right me crypto) (spared : Spared first.log first.before first.after)
    (work : first.after.history = first.before.history ++ first.work)
    (distinct : ∀ turn ∈ rest, turn.log ≠ first.log)
    (worked_ : Worked me crypto first.after rest after) :
    Worked me crypto first.before (first :: rest) after where
  idle := worked_.idle
  right := List.forall_mem_cons.mpr ⟨right, worked_.right⟩
  found := List.forall_mem_cons.mpr ⟨⟨rfl, fun _ _ => rfl⟩, fun turn member =>
    (worked_.found turn member).trans (spared.same (distinct turn member))⟩
  subscriptions := List.forall_mem_cons.mpr ⟨.refl _, fun turn member =>
    (worked_.subscriptions turn member).trans spared.subscriptions⟩
  preferences := List.forall_mem_cons.mpr ⟨rfl, fun turn member =>
    (worked_.preferences turn member).trans spared.preferences⟩
  left := List.forall_mem_cons.mpr ⟨worked_.spared first fun turn member => (distinct turn member).symm,
    worked_.left⟩
  spared turn others := by
    obtain ⟨here, later⟩ := List.forall_mem_cons.mp others
    exact (worked_.spared turn later).trans (spared.same here)
  history := by rw [worked_.history, work, List.flatMap_cons, List.append_assoc]

/-- The exec step of a session alone, for the statements of a log. -/
theorem spared_exec {stmt : Stmt} {choice : Choice} {reply : Except Failure (Reply stmt)} (idle : Idle me start)
    (concerns : Concerns logId stmt) (fine : Fine choice) (spared : Spared logId start world)
    (done : Source.ScheduledPush.exec me stmt choice world = some (reply, world')) :
    Spared logId start world' ∧ ∃ answer, reply = .ok answer ∧ (ofLog logId).answers stmt answer := by
  rcases exec_cases done with ⟨reason, fails, -, -⟩ | ⟨answered, -, rfl, answers⟩
  · rw [fine] at fails
    cases fails
  · exact ⟨(spared.tick _).answer idle concerns answers, answered, rfl, answers_ofLog answers⟩

/-- One turn of the loop. -/
theorem eventTurn_alone (row : EventRow) (dType : DType) (idle : Idle me start) :
    (rollingBack false (processSingleEvent crypto row.toEvent dType)).Ensures (machine.alone me Fine)
      (fun result after => result.2 = false ∧ Idle me after ∧ ∃ attempts,
        (EventTurn.mk row dType start result.1 attempts after).Right me crypto ∧
        Spared ⟨row.id, dType⟩ start after ∧
        after.history = start.history ++ (EventTurn.mk row dType start result.1 attempts after).work)
      (fun _ _ => False) start := by
  have ran : (processSingleEvent crypto row.toEvent dType).Ensures (machine.alone me Fine) _ _ start :=
    processSingleEvent_fine row.toEvent dType idle
  have confined : (ofLog ⟨row.id, dType⟩).Confined
    (rollingBack false (processSingleEvent crypto row.toEvent dType)) _ :=
    rollingBack_ofLog (processSingleEvent_ofLog row.toEvent dType)
  have joined := confined.alone (I := Spared ⟨row.id, dType⟩ start)
    (fun _ _ _ _ _ concerns fine spared done => spared_exec idle concerns fine spared done) (Spared.refl start)
    (ensures_rollingBack (ensures_noted false ran))
  refine joined.weaken ?_ fun _ _ never => never
  rintro ⟨result, rolledBack⟩ after ⟨⟨named, kept⟩, ⟨alone, -⟩, spared⟩
  refine ⟨kept, ?_⟩
  unfold RanAlone at alone
  split at alone
  · next skipped =>
    refine ⟨alone.2.idle, [], ⟨named, fun _ => ⟨alone.1, rfl⟩, ?_⟩, spared, ?_⟩
    · intro handled
      rw [skipped] at handled
      cases handled
    · rw [alone.2.history, EventTurn.work, List.flatMap_nil, List.append_nil]
  · next handled =>
    obtain ⟨attempts, finished⟩ := alone
    refine ⟨finished.idle, attempts, ⟨named, ?_, fun _ => finished.retriedExactly idle⟩, spared, finished.history⟩
    intro skipped
    rw [handled] at skipped
    cases skipped

/-- Every due event has its turn, and finds its log as the trigger's own sweep has left it. -/
theorem processDueEvents_alone (due : List (EventRow × DType)) (total : TriggerResult) (idle : Idle me start)
    (distinct : (due.map fun job => LogId.mk job.1.id job.2).Nodup) :
    (processDueEvents crypto false total due).Ensures (machine.alone me Fine)
      (fun result after => ∃ turns : List EventTurn, turns.map EventTurn.job = due ∧
        Worked me crypto start turns after ∧ result = (turns.map (·.result)).foldl TriggerResult.count total)
      (fun _ _ => False) start := by
  induction due generalizing total start with
  | nil => exact ⟨[], rfl, .nothing idle, rfl⟩
  | cons job rest ih =>
    obtain ⟨row, dType⟩ := job
    obtain ⟨fresh, distinct⟩ := List.nodup_cons.mp distinct
    simp only [processDueEvents, Bool.false_eq_true, if_false, bind_eq, ensures_bind]
    refine (eventTurn_alone row dType idle).weaken ?_ fun _ _ never => never
    rintro ⟨result, rolledBack⟩ middle ⟨rfl, again, attempts, right, spared, work⟩
    refine (ih (total.count result) again distinct).weaken ?_ fun _ _ never => never
    rintro final after ⟨turns, inOrder, worked_, counted⟩
    refine ⟨⟨row, dType, start, result, attempts, middle⟩ :: turns, ?_, ?_, ?_⟩
    · rw [List.map_cons, inOrder]
      rfl
    · refine Worked.cons right spared work (fun turn member same => fresh ?_) worked_
      have named : turn.job ∈ rest := by
        rw [← inOrder]
        exact List.mem_map_of_mem member
      exact List.mem_map.mpr ⟨turn.job, named, same⟩
    · rw [List.map_cons, List.foldl_cons]
      exact counted

/-! ## The sweep before the turns -/

/-- The statements of a sweep. -/
def ofSweep : Kind push where
  within
    | .utcNow | .selectStaleLogs _ | .lockStaleLog .. | .selectDeliveries .. | .expireClaim _
    | .countDeliveries _ | .finishLog .. | .commit => True
    | _ => False
  answers _ _ := True

theorem ask_ofSweep {stmt : Stmt} (within : ofSweep.within stmt) : ofSweep.Confined (ask stmt) fun _ => True :=
  .ask within fun _ _ => trivial

/-- The sweep of a trigger issues the statements of a sweep only. -/
theorem reclaimStaleScheduledLogs_ofSweep : ofSweep.Confined reclaimStaleScheduledLogs fun _ => True := by
  unfold reclaimStaleScheduledLogs reclaimStaleLogs
  refine Kind.Confined.bind (ask_ofSweep trivial) fun now _ => ?_
  refine Kind.Confined.bind (ask_ofSweep trivial) fun candidates _ => ?_
  have locked : ofSweep.Confined (collectEach (lockStaleLog (now - scheduledLogStaleAfter)) candidates)
      fun found => ∀ log ∈ found, True := by
    refine .collectEach fun log _ => ?_
    unfold lockStaleLog
    exact Kind.Confined.bind (ask_ofSweep trivial) fun _ _ => .ret fun _ _ => trivial
  refine Kind.Confined.bind locked fun found _ => ?_
  split
  · exact Kind.Confined.bind (ask_ofSweep trivial) fun _ _ => .ret trivial
  · have finalized : ofSweep.Confined (forEach (fun log => do
        let _ ← finalizeStaleLog log
        pure ()) found) fun _ => True := by
      refine .forEach fun log _ => ?_
      unfold finalizeStaleLog expireClaims getDeliveryCounts
      refine Kind.Confined.bind ?_ fun _ (_ : True) => .ret trivial
      refine Kind.Confined.bind ?_ fun _ (_ : True) => ?_
      · refine Kind.Confined.bind (ask_ofSweep trivial) fun _ _ => ?_
        exact .forEach fun _ _ => ask_ofSweep trivial
      · refine Kind.Confined.bind (ask_ofSweep trivial) fun _ _ => ?_
        exact Kind.Confined.bind (ask_ofSweep trivial) fun _ _ => .ret trivial
    refine Kind.Confined.bind finalized fun _ _ => ?_
    exact Kind.Confined.bind (ask_ofSweep trivial) fun _ _ => .ret trivial

/-- Nothing is sent, and nobody subscribes, opts out or is removed. -/
structure Unsent (me : SessionId) (start world : World) : Prop where
  history : world.history = start.history
  subscriptions : world.subscriptions = start.subscriptions
  preferences : world.preferences = start.preferences
  attempt : world.attempt me = .idle
  clock : start.clock ≤ world.clock

theorem unsent_exec {stmt : Stmt} {choice : Choice} {reply : Except Failure (Reply stmt)}
    (within : ofSweep.within stmt) (fine : Fine choice) (unsent : Unsent me start world)
    (done : Source.ScheduledPush.exec me stmt choice world = some (reply, world')) :
    Unsent me start world' ∧ ∃ answer, reply = .ok answer ∧ ofSweep.answers stmt answer := by
  rcases exec_cases done with ⟨reason, fails, -, -⟩ | ⟨answered, -, rfl, answers⟩
  · rw [fine] at fails
    cases fails
  · refine ⟨?_, answered, rfl, trivial⟩
    have same := unsent
    have later : start.clock ≤ world.clock + choice.elapsed := Nat.le_add_right_of_le unsent.clock
    cases stmt with
    | utcNow | selectStaleLogs cutoff | selectDeliveries log statuses | countDeliveries log =>
      cases answers
      exact ⟨same.history, same.subscriptions, same.preferences, same.attempt, later⟩
    | lockStaleLog log cutoff =>
      simp only [answer] at answers
      split at answers
      · cases answers
        exact ⟨same.history, same.subscriptions, same.preferences, same.attempt, later⟩
      · cases answers
        exact ⟨same.history, same.subscriptions, same.preferences, same.attempt, later⟩
    | expireClaim delivery =>
      obtain ⟨hit, deliveries, -, rfl⟩ := updateDelivery_world answers
      exact ⟨same.history, same.subscriptions, same.preferences, same.attempt, later⟩
    | finishLog log counts =>
      obtain ⟨⟨hit, world₁⟩, updated, again⟩ := Option.map_eq_some_iff.mp answers
      cases again
      obtain ⟨logs, -, rfl⟩ := updateLog_world updated
      exact ⟨same.history, same.subscriptions, same.preferences, same.attempt, later⟩
    | commit =>
      cases answers
      have idle : (world.tick choice.elapsed).attempt me = .idle := same.attempt
      refine ⟨?_, same.subscriptions, same.preferences, ?_, later⟩
      · simp only [World.commit, idle, World.attemptNews, List.append_nil]
        exact same.history
      · simp [World.commit, idle, World.attemptCommitted]
    | _ => exact within.elim

/-- A log that was to be had before the sweep is absent or failed after it. -/
theorem Reclaimed.available {cutoff : Nat} (rest : AtRest world) (again : AtRest world')
    (reclaimed : Reclaimed (staleLogs cutoff world) (view me world) (view me world'))
    (late : world.clock - scheduledLogStaleAfter ≤ cutoff) (available : Available logId world) :
    ∀ row, world'.logs.committed logId = some row → row.status = .failed := by
  intro row stored
  have read (log : LogId) : (view me world).log log = world.logs.committed log := rest.logs.row_eq me log
  have read' (log : LogId) : (view me world').log log = world'.logs.committed log := again.logs.row_eq me log
  by_cases stale : logId ∈ staleLogs cutoff world
  · obtain ⟨now, changed⟩ := reclaimed.logRows logId stale
    rw [read, read', stored] at changed
    obtain ⟨before, -, rfl⟩ := Option.map_eq_some_iff.mp changed.symm
    rfl
  · have same := reclaimed.otherLogs logId stale
    rw [read, read', stored] at same
    refine (available row same.symm).resolve_right fun old => stale (mem_staleLogs.mpr ⟨row, same.symm, ?_⟩)
    simp only [isStale, decide_eq_true_eq] at old ⊢
    exact ⟨old.1, by omega⟩

/-- The sweep makes no delivery wait and keeps none from it. -/
theorem Reclaimed.waiting {cutoff : Nat} (rest : AtRest world) (again : AtRest world')
    (reclaimed : Reclaimed (staleLogs cutoff world) (view me world) (view me world')) (delivery : DeliveryId) :
    ScheduledPush.waiting (committedStatus world' delivery) =
      ScheduledPush.waiting (committedStatus world delivery) := by
  have read : (view me world).delivery delivery = world.deliveries.committed delivery :=
    rest.deliveries.row_eq me delivery
  have read' : (view me world').delivery delivery = world'.deliveries.committed delivery :=
    again.deliveries.row_eq me delivery
  unfold committedStatus
  by_cases stale : delivery.log ∈ staleLogs cutoff world
  · obtain ⟨now, changed⟩ := reclaimed.deliveryRows delivery stale
    rw [read, read'] at changed
    rw [changed, status_expiredRow, waiting_expired]
  · have same := reclaimed.otherDeliveries delivery stale
    rw [read, read'] at same
    rw [same]

/-- What the sweep of a trigger leaves to the turns. -/
structure Unstuck (me : SessionId) (world after : World) : Prop where
  rest : AtRest after
  unsent : Unsent me world after
  available : ∀ logId, Available logId world → ∀ row, after.logs.committed logId = some row → row.status = .failed
  waiting : ∀ delivery, ScheduledPush.waiting (committedStatus after delivery) =
    ScheduledPush.waiting (committedStatus world delivery)

/-- The sweep of a trigger alone leaves a store at rest, in which every log that was to be had can be
acquired. -/
theorem reclaimStaleScheduledLogs_alone (rest : AtRest world) :
    reclaimStaleScheduledLogs.Ensures (machine.alone me Fine) (fun _ after => Unstuck me world after)
      (fun _ _ => False) world := by
  have sweeps : reclaimStaleScheduledLogs.Ensures (machine.alone me Fine)
      (fun _ after => AtRest after ∧ ∃ cutoff, world.clock - scheduledLogStaleAfter ≤ cutoff ∧
        Reclaimed (staleLogs cutoff world) (view me world) (view me after))
      (fun _ _ => True) world := by
    unfold reclaimStaleScheduledLogs
    simp only [bind_eq, ensures_bind]
    have asked : (ask .utcNow).Ensures (machine.alone me Fine)
        (fun now after => ∃ seconds, now = world.clock + seconds ∧ after = world.tick seconds) (fun _ _ => True)
        world :=
      (ask_alone .utcNow (rest.idle me).working fun _ seconds => ⟨_, _, rfl, seconds, rfl, rfl⟩).weaken
        (fun _ _ told => told) fun _ _ _ => trivial
    refine asked.weaken ?_ fun _ _ _ => trivial
    rintro _ _ ⟨seconds, rfl, rfl⟩
    have still : AtRest (world.tick seconds) := ⟨rest.logs, rest.deliveries, rest.attempt, rest.intent⟩
    refine (reclaimStaleLogs_sweeps _ still).weaken ?_ fun _ _ _ => trivial
    rintro count after ⟨-, again, reclaimed⟩
    exact ⟨again, _, Nat.sub_le_sub_right (Nat.le_add_right ..) _, reclaimed⟩
  have unsent : Unsent me world world := ⟨rfl, rfl, rfl, rest.attempt me, le_rfl⟩
  have joined := reclaimStaleScheduledLogs_ofSweep.alone (I := Unsent me world)
    (fun _ _ _ _ _ within fine unsent done => unsent_exec within fine unsent done) unsent sweeps
  refine joined.weaken ?_ fun _ _ never => never
  rintro count after ⟨-, ⟨again, cutoff, late, reclaimed⟩, unsent⟩
  exact ⟨again, unsent, fun _ available => reclaimed.available rest again late available,
    reclaimed.waiting rest again⟩

/-! ## The whole trigger -/

/-- The half-open window of a day holds the instants whose date it is. -/
theorem startsWithin_iff (day : Int) (row : EventRow) :
    startsWithin day row = true ↔ kstDate row.startsAt = day := by
  have day_pos : (0 : Int) < dayLength := by decide
  rw [kstDate, Int.ediv_eq_iff_of_pos day_pos, startsWithin, decide_eq_true_eq, dayStart]
  omega

/-- An event is due if it starts in as many days as the type says. -/
theorem mem_dueEvents {events : DType → List EventRow} {today : Int} {job : EventRow × DType} :
    job ∈ findEventsDueForNotification events today ↔
      job.1 ∈ events job.2 ∧ kstDate job.1.startsAt = today + job.2.days := by
  obtain ⟨row, dType⟩ := job
  have every : dType ∈ [DType.d3, DType.d1] := by cases dType <;> decide
  simp only [findEventsDueForNotification, List.mem_flatMap, List.mem_map, List.mem_filter, startsWithin_iff,
    Prod.mk.injEq]
  constructor
  · rintro ⟨other, -, found, here, rfl, rfl⟩
    exact here
  · exact fun here => ⟨dType, every, row, here, rfl, rfl⟩

theorem dueEvents_distinct {events : DType → List EventRow} (today : Int)
    (distinct : ∀ dType, ((events dType).map (·.id)).Nodup) :
    ((findEventsDueForNotification events today).map fun job => LogId.mk job.1.id job.2).Nodup := by
  have each (dType : DType) : ((((events dType).filter (startsWithin (today + dType.days))).map fun row =>
      (row, dType)).map fun job => LogId.mk job.1.id job.2).Nodup := by
    rw [List.map_map]
    have ids := (distinct dType).sublist
      (List.Sublist.map (·.id) (List.filter_sublist (p := startsWithin (today + dType.days))))
    refine List.Nodup.of_map LogId.eventId ?_
    rw [List.map_map]
    exact ids
  simp only [findEventsDueForNotification, List.flatMap_cons, List.flatMap_nil, List.append_nil, List.map_append]
  refine List.nodup_append.mpr ⟨each .d3, each .d1, ?_⟩
  intro log first other second same
  obtain ⟨job, here, rfl⟩ := List.mem_map.mp first
  obtain ⟨job', here', rfl⟩ := List.mem_map.mp second
  obtain ⟨row, -, rfl⟩ := List.mem_map.mp here
  obtain ⟨row', -, rfl⟩ := List.mem_map.mp here'
  have types : DType.d3 = DType.d1 := congrArg LogId.dType same
  cases types

/-- The totals of a trigger are the sums over its runs. -/
theorem count_all (results : List ProcessResult) (total : TriggerResult) :
    results.foldl TriggerResult.count total =
      { totalEvents := total.totalEvents
        processed := total.processed + results.countP fun result => !result.skipped
        skipped := total.skipped + results.countP fun result => result.skipped
        totalAccepted := total.totalAccepted +
          ((results.filter fun result => !result.skipped).map (·.accepted)).sum
        totalFailed := total.totalFailed +
          ((results.filter fun result => !result.skipped).map (·.failed)).sum } := by
  induction results generalizing total with
  | nil => simp
  | cons result rest ih =>
    rw [List.foldl_cons, ih]
    unfold TriggerResult.count
    cases skipped : result.skipped with
    | true => simp [skipped, Nat.add_assoc, Nat.add_comm 1]
    | false => simp [skipped, Nat.add_assoc, Nat.add_comm 1]

/-- The states that triggers and other requests lead to, once every session has ended or crashed. -/
def BetweenTriggers (world : World) : Prop :=
  ∃ first jobs actions config, Fresh first ∧ (launch first jobs).run actions = some config ∧
    (∀ me, config.pool me = none) ∧ config.world = world

/-- Once every session has ended or crashed no transaction is open. -/
theorem BetweenTriggers.atRest (between : BetweenTriggers world) : AtRest world := by
  obtain ⟨first, jobs, actions, config, fresh, reached, ended, rfl⟩ := between
  have begins : OpenDrafts first (startPhase (opened jobs)) := by
    refine ⟨fun log owner version drafted => ?_, fun delivery owner version drafted => ?_,
      fun me _ => fresh.attempt me, fun me _ => fresh.intent me⟩
    · simp [fresh.logs log] at drafted
    · simp [fresh.deliveries delivery] at drafted
  obtain ⟨phase, inv, -, closed⟩ :=
    openDrafts_keeps.run (launch_holds begins) (Config.meets_true _ actions) reached
  have gone (me : SessionId) : (phase me).connection = .gone := by rw [closed me (ended me)]
  refine ⟨fun log => ?_, fun delivery => ?_, fun me => inv.attempt me (gone me), fun me =>
    inv.intent me (gone me)⟩
  · exact Option.eq_none_iff_forall_ne_some.mpr fun held drafted =>
      inv.logs log held.1 held.2 drafted (gone held.1)
  · exact Option.eq_none_iff_forall_ne_some.mpr fun held drafted =>
      inv.deliveries delivery held.1 held.2 drafted (gone held.1)

/-- What a trigger finds, does and reports. -/
structure Triggered (me : SessionId) (crypto : Crypto) (events : DType → List EventRow) (today : Int)
    (world : World) (turns : List EventTurn) (result : TriggerResult) (after : World) : Prop where
  due : ∀ row dType, (row, dType) ∈ turns.map EventTurn.job ↔
    row ∈ events dType ∧ kstDate row.startsAt = today + dType.days
  once : (turns.map EventTurn.log).Nodup
  right : ∀ turn ∈ turns, turn.Right me crypto
  available : ∀ turn ∈ turns, Available turn.log world → turn.result.skipped = false
  attempted : ∀ turn ∈ turns, turn.result.skipped = false →
    turn.attempts.map Prod.fst = (eligible "event" turn.before).filter fun sub =>
      waiting (committedStatus world ⟨turn.log, sub.endpointHash⟩)
  eligible : ∀ turn ∈ turns, (eligible "event" turn.before).Sublist (eligible "event" world)
  settled : ∀ turn ∈ turns, ∀ attempt ∈ turn.attempts,
    committedStatus after ⟨turn.log, attempt.1.endpointHash⟩ = some (verdict attempt.2)
  nothingElse : after.history = world.history ++ turns.flatMap EventTurn.work
  counted : result =
    { totalEvents := turns.length
      processed := turns.countP fun turn => !turn.result.skipped
      skipped := turns.countP fun turn => turn.result.skipped
      totalAccepted := ((turns.filter fun turn => !turn.result.skipped).map (·.result.accepted)).sum
      totalFailed := ((turns.filter fun turn => !turn.result.skipped).map (·.result.failed)).sum }

/-- The date that was asked for, or the date of a time at which the trigger was running. -/
def TodayOf (targetDate : Option Int) (world : World) (today : Int) : Prop :=
  match targetDate with
  | some date => today = date
  | none => ∃ now, world.clock ≤ now ∧ today = kstDate (now * 1000000)

/-- Without a date of its own the trigger takes the one in Korea. -/
theorem triggerDate_alone (targetDate : Option Int) (idle : Idle me start) (later : world.clock ≤ start.clock) :
    (triggerDate targetDate).Ensures (machine.alone me Fine)
      (fun today after => TodayOf targetDate world today ∧ ∃ seconds, after = start.tick seconds)
      (fun _ _ => False) start := by
  cases targetDate with
  | some date => exact ⟨rfl, 0, rfl⟩
  | none =>
    simp only [triggerDate, bind_eq, ensures_bind]
    refine (ask_alone .utcNow idle.working fun _ seconds => ⟨_, _, rfl, ?_⟩).weaken (fun _ _ q => q)
      fun _ _ raised => fine_never raised
    exact ⟨⟨start.clock + seconds, Nat.le_add_right_of_le later, rfl⟩, seconds, rfl⟩

/-- With fewer subscriptions there are no more eligible ones. -/
theorem eligible_shrinks {topic : String}
    (subscriptions : world'.subscriptions.rows.Sublist world.subscriptions.rows)
    (preferences : world'.preferences = world.preferences) :
    (eligible topic world').Sublist (eligible topic world) := by
  unfold eligible
  rw [preferences]
  exact (subscriptions.filter _).filter _

/-- The turns that follow a sweep, in terms of the world before the sweep. -/
theorem Worked.triggered {crypto : Crypto} {events : DType → List EventRow} {today : Int} {swept after : World}
    {turns : List EventTurn} {seconds : Nat} (sweep : Unstuck me world swept)
    (distinct : ∀ dType, ((events dType).map (·.id)).Nodup)
    (inOrder : turns.map EventTurn.job = findEventsDueForNotification events today)
    (worked_ : Worked me crypto (swept.tick seconds) turns after) :
    Triggered me crypto events today world turns
      ((turns.map (·.result)).foldl TriggerResult.count { totalEvents := turns.length }) after := by
  have logs : turns.map EventTurn.log = (turns.map EventTurn.job).map fun job => LogId.mk job.1.id job.2 := by
    rw [List.map_map]
    rfl
  refine
    { due := fun row dType => by rw [inOrder, mem_dueEvents]
      once := by
        rw [logs, inOrder]
        exact dueEvents_distinct today distinct
      right := worked_.right
      available := fun turn member available => ?_
      attempted := fun turn member handled => ?_
      eligible := fun turn member => ?_
      settled := fun turn member attempt listed => ?_
      nothingElse := by rw [worked_.history]; exact congrArg (· ++ _) sweep.unsent.history
      counted := ?_ }
  · by_contra handled
    have skipped : turn.result.skipped = true := by simpa using handled
    refine ((worked_.right turn member).skips skipped).1 fun row stored => .inl ?_
    have found : turn.before.logs.committed turn.log = swept.logs.committed turn.log :=
      congrArg (·.committed) (worked_.found turn member).1
    exact sweep.available turn.log available row (found.symm.trans stored)
  · rw [((worked_.right turn member).retries handled).exactly]
    refine List.filter_congr fun sub _ => ?_
    have found : turn.before.deliveries.committed ⟨turn.log, sub.endpointHash⟩ =
        swept.deliveries.committed ⟨turn.log, sub.endpointHash⟩ :=
      congrArg (·.committed) ((worked_.found turn member).2 ⟨turn.log, sub.endpointHash⟩ rfl)
    rw [← sweep.waiting, committedStatus, committedStatus, found]
  · refine eligible_shrinks ?_ ((worked_.preferences turn member).trans sweep.unsent.preferences)
    have smaller := worked_.subscriptions turn member
    rwa [show (swept.tick seconds).subscriptions = world.subscriptions from sweep.unsent.subscriptions] at smaller
  · have right := worked_.right turn member
    cases skipped : turn.result.skipped with
    | true =>
      rw [(right.skips skipped).2] at listed
      cases listed
    | false =>
      have left : after.deliveries.committed ⟨turn.log, attempt.1.endpointHash⟩ =
          turn.after.deliveries.committed ⟨turn.log, attempt.1.endpointHash⟩ :=
        congrArg (·.committed) ((worked_.left turn member).2 ⟨turn.log, attempt.1.endpointHash⟩ rfl)
      rw [committedStatus, left]
      exact ((right.retries skipped).settled attempt listed).1
  · rw [count_all]
    simp [List.countP_map, List.filter_map, Function.comp_def]

/-- Once nobody is at work, a trigger in which nothing is raised visits each event whose date in Korea is
three days or one day away exactly once for each. It handles every one whose log is to be had, attempts
there exactly the subscriptions that were still waiting and are not gone, and counts what its turns report. -/
theorem trigger_exact (world : World) (between : BetweenTriggers world) (me : SessionId) (crypto : Crypto)
    (events : DType → List EventRow) (distinct : ∀ dType, ((events dType).map (·.id)).Nodup)
    (targetDate : Option Int) (choices : Nat → Choice) (fine : ∀ n, (choices n).fails = none) :
    ∃ today turns result after, TodayOf targetDate world today ∧
      machine.eval me (triggerScheduledNotifications crypto events targetDate) choices world =
        some (.ok result, after) ∧
      Triggered me crypto events today world turns result after := by
  have rest := between.atRest
  have ensures : (triggerScheduledNotifications crypto events targetDate).Ensures (machine.alone me Fine)
      (fun result after => ∃ today turns, TodayOf targetDate world today ∧
        Triggered me crypto events today world turns result after)
      (fun _ _ => False) world := by
    unfold triggerScheduledNotifications
    simp only [bind_eq, ensures_bind]
    refine (reclaimStaleScheduledLogs_alone rest).weaken ?_ fun _ _ never => never
    intro count swept sweep
    refine (triggerDate_alone targetDate (sweep.rest.idle me) sweep.unsent.clock).weaken ?_ fun _ _ never => never
    rintro today _ ⟨dated, seconds, rfl⟩
    have idle : Idle me (swept.tick seconds) := (sweep.rest.idle me).tick seconds
    refine (processDueEvents_alone _ _ idle (dueEvents_distinct today distinct)).weaken ?_ fun _ _ never => never
    rintro result after ⟨turns, inOrder, worked_, rfl⟩
    have length : (findEventsDueForNotification events today).length = turns.length := by
      rw [← inOrder, List.length_map]
    rw [length]
    exact ⟨today, turns, dated, worked_.triggered sweep distinct inOrder⟩
  obtain ⟨out, after, done, outcome⟩ := Machine.eval_of_ensures ensures fine
  cases out with
  | error reason => exact outcome.elim
  | ok result =>
    obtain ⟨today, turns, dated, triggered⟩ := outcome
    exact ⟨today, turns, result, after, dated, done, triggered⟩

/-- The trigger has prepared the deliveries and crashes; its log grows stale. -/
def triggerCrashesEarly : List (Action machine) :=
  List.replicate 18 (.exec 0 {}) ++ [.crash 0, .outside (.tick 2000)]

set_option maxRecDepth 10000 in
theorem trigger_exact_crash : ∃ world turns result after, BetweenTriggers world ∧
    (world.logs.committed ⟨7, .d3⟩).map (·.status) = some .inProgress ∧
    machine.eval 1 (triggerScheduledNotifications plainCrypto meetingDue (some 0))
      (fun _ => { answer := (true, some 201) }) world = some (.ok result, after) ∧
    Triggered 1 plainCrypto meetingDue 0 world turns result after := by
  have facts : ((launch oneSubscriber (meetingTriggers 1)).run triggerCrashesEarly).map (fun after =>
      ((after.pool 0).isNone, (after.world.logs.committed ⟨7, .d3⟩).map (·.status))) =
      some (true, some .inProgress) := by rfl
  obtain ⟨config, reached, same⟩ := Option.map_eq_some_iff.mp facts
  simp only [Prod.mk.injEq] at same
  have between : BetweenTriggers config.world := by
    refine ⟨oneSubscriber, meetingTriggers 1, _, config, fresh_blank _ _ _, reached, fun me => ?_, rfl⟩
    by_cases first : me = 0
    · rw [first]
      exact Option.isNone_iff_eq_none.mp same.1
    · exact Config.run_closed reached (by simp [launch, meetingTriggers, first])
  have distinct (dType : DType) : ((meetingDue dType).map (·.id)).Nodup := by cases dType <;> decide
  obtain ⟨today, turns, result, after, rfl, done, triggered⟩ :=
    trigger_exact config.world between 1 plainCrypto meetingDue distinct (some 0)
      (fun _ => { answer := (true, some 201) }) fun _ => rfl
  exact ⟨config.world, turns, result, after, between, same.2, done, triggered⟩

end SogeconApp.Guarantees.ScheduledPush
