import SogeconApp.Guarantees.ScheduledPush.RetryExactness

/-!
# What a finished log says about its deliveries

The counters of a log when a run that acquired it returns, and what its status `completed`
means for the endpoints that were eligible in that run. Neither holds for every state. A
run that finds nobody eligible completes its log without a look at the deliveries that
earlier runs left. A run that handles an exception marks its log failed also when no
delivery of it is unresolved, and leaves it open when a second exception keeps it from
that. A delivery that was abandoned while its endpoint was not eligible stays abandoned
once the endpoint is eligible again, and counts neither as accepted nor as failed.
-/

namespace SogeconApp.Guarantees.ScheduledPush

open Library Program Source.ScheduledPush

variable {me : SessionId} {may : Choice → Prop} {logId : LogId} {world start after : World}

/-! ## The counters -/

/-- The counters and the status of a log agree with its deliveries. -/
def Accounted (logId : LogId) (world : World) : Prop :=
  ∃ row, world.logs.committed logId = some row ∧
    row.acceptedCount = deliveriesIn world logId (fun status => status = .completed) ∧
    row.failedCount = deliveriesIn world logId unresolved ∧
    (row.status = .completed ↔ row.failedCount = 0)

/-- For a log that is stored with a status and counts, these agree with its deliveries or not. -/
theorem Recorded.accounted {status : LogStatus} {counts : DeliveryCounts}
    (recorded : Recorded logId status counts world) :
    Accounted logId world ↔
      counts = committedCounts world logId ∧ (status = .completed ↔ counts.failed = 0) := by
  obtain ⟨row, stored, rfl, accepted, failed⟩ := recorded
  have same : counts = committedCounts world logId ↔
      row.acceptedCount = deliveriesIn world logId (fun status => status = .completed) ∧
        row.failedCount = deliveriesIn world logId unresolved := by
    rw [accepted, failed, committedCounts]
    cases counts
    simp
  constructor
  · rintro ⟨other, found, agree, agree', marked⟩
    rw [stored] at found
    cases found
    exact ⟨same.mpr ⟨agree, agree'⟩, by rw [← failed]; exact marked⟩
  · rintro ⟨agree, marked⟩
    exact ⟨row, stored, (same.mp agree).1, (same.mp agree).2, by rw [failed]; exact marked⟩

theorem deliveriesIn_eq_zero {states : DeliveryStatus → Bool} :
    deliveriesIn world logId states = 0 ↔
      ∀ delivery status, delivery.log = logId → committedStatus world delivery = some status →
        states status = false := by
  rw [deliveriesIn, Table.countCommitted, List.countP_eq_zero]
  constructor
  · intro none_ delivery status ofLog found
    obtain ⟨row, stored, rfl⟩ := Option.map_eq_some_iff.mp found
    have listed : delivery ∈ world.deliveries.keys := by
      by_contra absent
      have vacant := world.deliveries.covers delivery absent
      simp [Table.committed, vacant] at stored
    have refused := none_ delivery listed
    simpa [Table.accepts, stored, ofLog] using refused
  · intro refused delivery _ accepted
    cases stored : world.deliveries.committed delivery with
    | none => simp [Table.accepts, stored] at accepted
    | some row =>
      have status : committedStatus world delivery = some row.status := by
        rw [committedStatus, stored]
        rfl
      simp only [Table.accepts, stored, Option.map_some, Option.getD_some, decide_eq_true_eq] at accepted
      have shut := refused delivery row.status accepted.1 status
      rw [accepted.2] at shut
      cases shut

/-- Every delivery of the log is abandoned, if there is any. -/
def AllAbandoned (logId : LogId) (world : World) : Prop :=
  ∀ delivery status, delivery.log = logId → committedStatus world delivery = some status →
    status = .abandoned

theorem allAbandoned_iff_counts :
    AllAbandoned logId world ↔ deliveriesIn world logId (fun status => status = .completed) = 0 ∧
      deliveriesIn world logId unresolved = 0 := by
  rw [deliveriesIn_eq_zero, deliveriesIn_eq_zero]
  constructor
  · intro given_up
    constructor
    · intro delivery status ofLog found
      rw [given_up delivery status ofLog found]
      rfl
    · intro delivery status ofLog found
      rw [given_up delivery status ofLog found]
      rfl
  · rintro ⟨notCompleted, resolved⟩ delivery status ofLog found
    have first := notCompleted delivery status ofLog found
    have second := resolved delivery status ofLog found
    cases status with
    | abandoned => rfl
    | completed => simp at first
    | pending | inProgress | failed | unknown => simp [unresolved] at second

/-- A run that found nobody eligible leaves every delivery, up to expired claims. -/
theorem Finished.allAbandoned_iff {crypto : Crypto}
    {attempts : List (PushSubscription × List (Bool × Option Nat))} (idle : Idle me start)
    (finished : Finished me crypto logId start attempts after) (nobody : eligible "event" start = []) :
    AllAbandoned logId after ↔ AllAbandoned logId start := by
  have same : ∀ delivery, committedStatus after delivery = committedStatus start delivery ∨
      committedStatus after delivery = expired (committedStatus start delivery) := by
    intro delivery
    have status := finished.nobody nobody delivery
    rw [seen_of_idle finished.idle, seen_of_idle idle] at status
    exact status
  constructor
  · intro given_up delivery status ofLog found
    rcases same delivery with unchanged | unchanged
    · exact given_up delivery status ofLog (by rw [unchanged, found])
    · rw [found] at unchanged
      cases status with
      | abandoned => rfl
      | pending | inProgress | failed | unknown | completed =>
        cases given_up delivery _ ofLog unchanged
  · intro given_up delivery status ofLog found
    cases before : committedStatus start delivery with
    | none =>
      rcases same delivery with unchanged | unchanged <;> rw [before, found] at unchanged <;> cases unchanged
    | some earlier =>
      rw [given_up delivery earlier ofLog before] at before
      rcases same delivery with unchanged | unchanged <;> rw [before, found] at unchanged <;> cases unchanged
      · rfl
      · rfl

theorem Finished.accounted_eligible {crypto : Crypto}
    {attempts : List (PushSubscription × List (Bool × Option Nat))} (idle : Idle me start)
    (finished : Finished me crypto logId start attempts after) :
    Accounted logId after ↔ eligible "event" start ≠ [] ∨ AllAbandoned logId start := by
  rw [finished.recorded.accounted, deliveryCounts_eq finished.idle]
  by_cases nobody : eligible "event" start = []
  · rw [closing, if_pos nobody, ← finished.allAbandoned_iff idle nobody, allAbandoned_iff_counts]
    simp [nobody, committedCounts, eq_comm]
  · rw [closing, if_neg nobody]
    refine iff_of_true ⟨rfl, ?_⟩ (.inl nobody)
    dsimp only
    split
    · next some_ => exact iff_of_false (by decide) some_
    · next none_ => exact iff_of_true rfl (not_not.mp none_)

/-- A log that is marked failed agrees with its deliveries if one of them is unresolved. With
none it counts no failure, or, with nothing to count at all, the subscriptions that the run
was to send to. -/
theorem Marked.accounted {fallbackFailed : Nat} {failing : World}
    (marked : Marked logId fallbackFailed failing after) :
    Accounted logId after ↔ deliveriesIn failing logId unresolved ≠ 0 := by
  rw [marked.recorded.accounted, marked.counts]
  have failed : (committedCounts failing logId).failed = deliveriesIn failing logId unresolved := rfl
  constructor
  · rintro ⟨counts, marks⟩ none_
    rw [counts, failed] at marks
    cases marks.mpr none_
  · intro some_
    have counted : failureCounts fallbackFailed (committedCounts failing logId) = committedCounts failing logId :=
      if_neg fun nothing => some_ nothing.2.1
    rw [counted, failed]
    exact ⟨rfl, iff_of_false (by decide) some_⟩

/-- An open log without a failure is not marked completed, so it agrees with no deliveries. -/
theorem Opened.not_accounted (opened : Opened logId world) : ¬ Accounted logId world := by
  obtain ⟨row, stored, open_, none_⟩ := opened
  rintro ⟨other, found, -, -, marked⟩
  rw [stored] at found
  cases found
  exact open_ (marked.mpr none_)

/-- When a run accounts for its deliveries, by the stores that its exceptions left. Without
an exception: it found somebody eligible, or nothing but abandoned deliveries. With one
that it handled: that left a delivery unresolved. A second one keeps the log open. -/
def Accountable (logId : LogId) (start : World) : List World → Prop
  | [] => eligible "event" start ≠ [] ∨ AllAbandoned logId start
  | [failing] => deliveriesIn failing logId unresolved ≠ 0
  | _ => False

theorem Handled.accounted {failing : World} {raised : List World}
    (handled : Handled may logId failing (after, raised)) :
    Accounted logId after ↔ Accountable logId start raised := by
  cases handled with
  | marked _ _ marked => exact marked.accounted
  | unmarked _ opened => exact iff_of_false opened.not_accounted id

/-- Whatever happened before, whatever the provider answers and whichever statements raise: a
run that acquired the log and returns leaves counters and status that agree with the
deliveries in exactly these cases. -/
theorem accounted_iff (world : World) (between : BetweenRuns world) (me : SessionId) (crypto : Crypto)
    (event : Event) (dType : DType) (choices : Nat → Choice) (result : ProcessResult) (after : World)
    (ran : machine.eval me (processSingleEvent crypto event dType) choices world = some (.ok result, after))
    (acquired : result.skipped = false) :
    Accounted ⟨event.id, dType⟩ after ↔
      Accountable ⟨event.id, dType⟩ world
        (machine.exceptions me (processSingleEvent crypto event dType) choices world) := by
  have idle := between.atRest.idle me
  have run := @processSingleEvent_recorded me (fun _ => True) world crypto event dType idle
  obtain ⟨out, last, done, outcome⟩ := Machine.eval_of_recorded run (fun n => trivial)
  rw [ran] at done
  cases done
  have returned : Returned me _ crypto ⟨event.id, dType⟩ world result.skipped (after, _) := outcome
  rw [acquired, List.nil_append] at returned
  generalize machine.exceptions me _ choices world = raised at returned
  cases returned with
  | handled handled => exact handled.accounted
  | finished attempts finished => exact finished.accounted_eligible idle

/-- Every call is accepted, and one statement of the run raises, counted from zero. -/
def raisingAt (index : Nat) (reason : Failure) (n : Nat) : Choice :=
  { fails := if n = index then some reason else none, answer := (true, some 201) }

set_option maxRecDepth 10000 in
/-- A run that delivers, and one whose call of the provider raises: the delivery is then
unknown and counts as failed. -/
theorem accounted_first_run :
    (∃ result after,
      machine.eval 0 (processSingleEvent plainCrypto meeting .d3) (fun _ => { answer := (true, some 201) })
        oneSubscriber = some (.ok result, after) ∧
      result.skipped = false ∧ Accounted ⟨7, .d3⟩ after) ∧
    ∃ result after,
      machine.eval 0 (processSingleEvent plainCrypto meeting .d3) (raisingAt 20 .operational)
        oneSubscriber = some (.ok result, after) ∧
      result.skipped = false ∧ Accounted ⟨7, .d3⟩ after := by
  have between : BetweenRuns oneSubscriber := Fresh.between (fresh_blank _ _ _)
  constructor
  · have ends : (machine.eval 0 (processSingleEvent plainCrypto meeting .d3)
        (fun _ => { answer := (true, some 201) }) oneSubscriber).map (fun done => done.1) =
          some (.ok ⟨7, .d3, false, 1, 0⟩) := by rfl
    have quiet : machine.exceptions 0 (processSingleEvent plainCrypto meeting .d3)
        (fun _ => { answer := (true, some 201) }) oneSubscriber = [] := by rfl
    obtain ⟨⟨out, after⟩, ran, same⟩ := Option.map_eq_some_iff.mp ends
    obtain rfl : out = .ok ⟨7, .d3, false, 1, 0⟩ := same
    have agrees := accounted_iff oneSubscriber between 0 plainCrypto meeting .d3
      (fun _ => { answer := (true, some 201) }) _ after ran rfl
    refine ⟨_, after, ran, rfl, agrees.mpr ?_⟩
    rw [quiet]
    exact .inl (by decide)
  · have ends : (machine.eval 0 (processSingleEvent plainCrypto meeting .d3) (raisingAt 20 .operational)
        oneSubscriber).map (fun done => done.1) = some (.ok ⟨7, .d3, false, 0, 1⟩) := by rfl
    have once : (machine.exceptions 0 (processSingleEvent plainCrypto meeting .d3) (raisingAt 20 .operational)
        oneSubscriber).map (fun failing => deliveriesIn failing ⟨7, .d3⟩ unresolved) = [1] := by rfl
    obtain ⟨⟨out, after⟩, ran, same⟩ := Option.map_eq_some_iff.mp ends
    obtain rfl : out = .ok ⟨7, .d3, false, 0, 1⟩ := same
    obtain ⟨failing, left, counted⟩ := List.map_eq_singleton_iff.mp once
    have agrees := accounted_iff oneSubscriber between 0 plainCrypto meeting .d3
      (raisingAt 20 .operational) _ after ran rfl
    refine ⟨_, after, ran, rfl, agrees.mpr ?_⟩
    rw [left]
    change deliveriesIn failing ⟨7, .d3⟩ unresolved ≠ 0
    rw [counted]
    decide

set_option maxRecDepth 10000 in
/-- The send logs of the only batch cannot be written after its delivery is done: the log
is marked failed, with one accepted and none failed. -/
example :
    (machine.eval 0 (processSingleEvent plainCrypto meeting .d3) (raisingAt 24 .sqlAlchemy) oneSubscriber).map
        (fun done => (done.1, (done.2.logs.committed ⟨7, .d3⟩).map fun row =>
          (row.status, row.acceptedCount, row.failedCount), committedStatus done.2 ⟨⟨7, .d3⟩, "hash"⟩)) =
      some (.ok ⟨7, .d3, false, 1, 0⟩, some (.failed, 1, 0), some .completed) := by rfl

def goneSubscriber : PushSubscription := { subscriber with endpointHash := "endpoint" }

def goneEndpoint : World :=
  .blank 1000 { rows := [goneSubscriber], unique := by decide, hashed := by decide } []

/-- The provider says that the endpoint is gone, so the run removes its subscription. -/
def refusedRun : List (Action machine) :=
  List.replicate 31 (.exec 0 { answer := (false, some 410) }) ++ [.close 0]

set_option maxRecDepth 10000 in
/-- The next run finds nobody and completes the log; its failed delivery is not counted. -/
theorem nobody_left_not_accounted : ∃ world result after, BetweenRuns world ∧
    machine.eval 1 (processSingleEvent plainCrypto meeting .d3) (fun _ => {}) world =
      some (.ok result, after) ∧
    result.skipped = false ∧ ¬ Accounted ⟨7, .d3⟩ after := by
  have facts : (((start goneEndpoint (meetingWorkers 1)).run refusedRun).bind fun config =>
      (machine.eval 1 (processSingleEvent plainCrypto meeting .d3) (fun _ => {}) config.world).map fun done =>
        ((config.pool 0).isNone, done.1, (done.2.logs.committed ⟨7, .d3⟩).map (·.failedCount),
          committedStatus done.2 ⟨⟨7, .d3⟩, "endpoint"⟩)) =
      some (true, .ok ⟨7, .d3, false, 0, 0⟩, some 0, some .failed) := by rfl
  obtain ⟨config, reached, rest⟩ := Option.bind_eq_some_iff.mp facts
  obtain ⟨⟨out, after⟩, ran, same⟩ := Option.map_eq_some_iff.mp rest
  simp only [Prod.mk.injEq] at same
  obtain ⟨closed, rfl, counted, left⟩ := same
  have between : BetweenRuns config.world := by
    refine meetingWorkers_between (fresh_blank _ _ _) reached fun me started => ?_
    obtain rfl : me = 0 := by omega
    exact Option.isNone_iff_eq_none.mp closed
  refine ⟨config.world, _, after, between, ran, rfl, ?_⟩
  rintro ⟨row, stored, -, failed, -⟩
  rw [stored] at counted
  have none_ : deliveriesIn after ⟨7, .d3⟩ unresolved = 0 := by
    rw [← failed]
    exact Option.some.inj counted
  have resolved := deliveriesIn_eq_zero.mp none_ ⟨⟨7, .d3⟩, "endpoint"⟩ .failed rfl left
  cases resolved

/-! ## What completed means -/

theorem Finished.delivered_iff {crypto : Crypto}
    {attempts : List (PushSubscription × List (Bool × Option Nat))} (idle : Idle me start)
    (finished : Finished me crypto logId start attempts after)
    (marked : ∃ row, after.logs.committed logId = some row ∧ row.status = .completed)
    {sub : PushSubscription} (member : sub ∈ eligible "event" start) :
    committedStatus after ⟨logId, sub.endpointHash⟩ = some .completed ↔
      committedStatus start ⟨logId, sub.endpointHash⟩ ≠ some .abandoned := by
  obtain ⟨row, stored, status, -, -⟩ := finished.recorded
  obtain ⟨row', stored', completed⟩ := marked
  rw [stored] at stored'
  cases stored'
  have somebody : eligible "event" start ≠ [] := List.ne_nil_of_mem member
  rw [deliveryCounts_eq finished.idle, completed] at status
  simp only [closing, somebody, if_false] at status
  have resolved : deliveriesIn after logId unresolved = 0 := by
    by_contra some_
    have failed : (committedCounts after logId).failed ≠ 0 := some_
    rw [if_pos failed] at status
    cases status
  rw [deliveriesIn_eq_zero] at resolved
  have settled : ∀ status, committedStatus after ⟨logId, sub.endpointHash⟩ = some status →
      status = .completed ∨ status = .abandoned := by
    intro status found
    have shut := resolved ⟨logId, sub.endpointHash⟩ status rfl found
    cases status with
    | completed => exact .inl rfl
    | abandoned => exact .inr rfl
    | pending | inProgress | failed | unknown => simp [unresolved] at shut
  have exactly := finished.retriedExactly idle
  cases waits : waiting (committedStatus start ⟨logId, sub.endpointHash⟩) with
  | true =>
    have listed : sub ∈ attempts.map Prod.fst := by
      rw [exactly.exactly]
      exact List.mem_filter.mpr ⟨member, waits⟩
    obtain ⟨attempt, tried, rfl⟩ := List.mem_map.mp listed
    obtain ⟨final, among⟩ := exactly.settled attempt tried
    have open_ : committedStatus start ⟨logId, attempt.1.endpointHash⟩ ≠ some .abandoned := by
      intro given_up
      rw [given_up] at waits
      cases waits
    refine iff_of_true ?_ open_
    rcases settled _ final with done | given_up
    · rw [final, done]
    · rw [given_up] at among
      simp at among
  | false =>
    have kept := finished.passed sub member (by rw [seen_of_idle idle]; exact waits)
    rw [seen_of_idle finished.idle, seen_of_idle idle] at kept
    change committedStatus after _ = expired (committedStatus start _) ∨
      committedStatus after _ = committedStatus start _ at kept
    cases before : committedStatus start ⟨logId, sub.endpointHash⟩ with
    | none =>
      rw [before] at waits
      cases waits
    | some earlier =>
      rw [before] at kept waits
      cases earlier with
      | pending | failed => cases waits
      | completed => rcases kept with same | same <;> simp [same, expired]
      | abandoned => rcases kept with same | same <;> simp [same, expired]
      | inProgress | unknown =>
        rcases kept with same | same <;> rcases settled _ same with wrong | wrong <;> cases wrong

/-- Whatever happened before, and whatever happens in the run: when it marks the log
completed, every endpoint that was eligible in it is delivered, unless the delivery of
one was abandoned when the run started. -/
theorem completed_delivered_iff (world : World) (between : BetweenRuns world) (me : SessionId)
    (crypto : Crypto) (event : Event) (dType : DType) (choices : Nat → Choice)
    (out : Except Failure ProcessResult) (after : World)
    (ran : machine.eval me (processSingleEvent crypto event dType) choices world = some (out, after))
    (open_ : Uncompleted ⟨event.id, dType⟩ world)
    (marked : ∃ row, after.logs.committed ⟨event.id, dType⟩ = some row ∧ row.status = .completed) :
    (∀ sub ∈ eligible "event" world,
        committedStatus after ⟨⟨event.id, dType⟩, sub.endpointHash⟩ = some .completed) ↔
      ∀ sub ∈ eligible "event" world,
        committedStatus world ⟨⟨event.id, dType⟩, sub.endpointHash⟩ ≠ some .abandoned := by
  have idle := between.atRest.idle me
  have run := @processSingleEvent_recorded me (fun _ => True) world crypto event dType idle
  obtain ⟨out', last, done, outcome⟩ := Machine.eval_of_recorded run (fun n => trivial)
  rw [ran] at done
  cases done
  have not_open : ¬ Uncompleted ⟨event.id, dType⟩ after := by
    obtain ⟨row, stored, completed⟩ := marked
    exact fun open_ => open_ row stored completed
  cases out with
  | error reason => exact absurd (outcome.2 open_) not_open
  | ok result =>
    have returned : Returned me _ crypto ⟨event.id, dType⟩ world result.skipped (after, _) := outcome
    rw [List.nil_append] at returned
    generalize result.skipped = skipped at returned
    generalize machine.exceptions me _ choices world = raised at returned
    cases returned with
    | skipped _ kept => exact absurd (kept open_) not_open
    | handled handled => exact absurd handled.uncompleted not_open
    | finished attempts finished =>
      exact forall₂_congr fun sub member => finished.delivered_iff idle marked member

set_option maxRecDepth 10000 in
theorem completed_first_run : ∃ after,
    machine.eval 0 (processSingleEvent plainCrypto meeting .d3) (fun _ => { answer := (true, some 201) })
      oneSubscriber = some (.ok ⟨7, .d3, false, 1, 0⟩, after) ∧
    ∀ sub ∈ eligible "event" oneSubscriber,
      committedStatus after ⟨⟨7, .d3⟩, sub.endpointHash⟩ = some .completed := by
  have facts : (machine.eval 0 (processSingleEvent plainCrypto meeting .d3)
      (fun _ => { answer := (true, some 201) }) oneSubscriber).map (fun done =>
        (done.1, (done.2.logs.committed ⟨7, .d3⟩).map (·.status))) =
        some (.ok ⟨7, .d3, false, 1, 0⟩, some .completed) := by rfl
  obtain ⟨⟨out, after⟩, ran, same⟩ := Option.map_eq_some_iff.mp facts
  simp only [Prod.mk.injEq] at same
  obtain ⟨rfl, completed⟩ := same
  obtain ⟨row, stored, status⟩ := Option.map_eq_some_iff.mp completed
  have delivered := completed_delivered_iff oneSubscriber (Fresh.between (fresh_blank _ _ _)) 0 plainCrypto
    meeting .d3 (fun _ => { answer := (true, some 201) }) _ after ran
    (fun _ absent => by cases absent) ⟨row, stored, status⟩
  exact ⟨after, ran, delivered.mpr fun sub _ => by simp [committedStatus, oneSubscriber, World.blank,
    Table.committed, Table.empty]⟩

def otherSubscriber : PushSubscription :=
  { subscriber with memberId := some 2, endpoint := "other", endpointHash := "other" }

def onlyOther : Subscriptions := ⟨[otherSubscriber], by decide, by decide⟩

def bothSubscribers : Subscriptions := ⟨[subscriber, otherSubscriber], by decide, by decide⟩

/-- The first subscriber unsubscribes between two runs that crash, and subscribes again. -/
def subscribeAgain : List (Action machine) :=
  crashBeforeClaim ++ [.outside (.subscribe onlyOther)] ++ List.replicate 19 (.exec 1 {}) ++
    [.crash 1, .outside (.tick 2000), .outside (.subscribe bothSubscribers)]

set_option maxRecDepth 10000 in
/-- The third run finds it eligible and completes the log without a call for it. -/
theorem completed_without_delivery : ∃ world after, BetweenRuns world ∧
    machine.eval 2 (processSingleEvent plainCrypto meeting .d3) (fun _ => { answer := (true, some 201) }) world =
      some (.ok ⟨7, .d3, false, 1, 0⟩, after) ∧
    Uncompleted ⟨7, .d3⟩ world ∧
    (∃ row, after.logs.committed ⟨7, .d3⟩ = some row ∧ row.status = .completed) ∧
    subscriber ∈ eligible "event" world ∧
    committedStatus after ⟨⟨7, .d3⟩, subscriber.endpointHash⟩ = some .abandoned := by
  have facts : (((start oneSubscriber (meetingWorkers 2)).run subscribeAgain).bind fun config =>
      (machine.eval 2 (processSingleEvent plainCrypto meeting .d3) (fun _ => { answer := (true, some 201) })
        config.world).map fun done =>
          (((config.pool 0).isNone, (config.pool 1).isNone),
            (config.world.logs.committed ⟨7, .d3⟩).map (·.status),
            decide (subscriber ∈ eligible "event" config.world), done.1,
            (done.2.logs.committed ⟨7, .d3⟩).map (·.status), committedStatus done.2 ⟨⟨7, .d3⟩, "hash"⟩)) =
      some ((true, true), some .inProgress, true, .ok ⟨7, .d3, false, 1, 0⟩, some .completed,
        some .abandoned) := by rfl
  obtain ⟨config, reached, rest⟩ := Option.bind_eq_some_iff.mp facts
  obtain ⟨⟨out, after⟩, ran, same⟩ := Option.map_eq_some_iff.mp rest
  simp only [Prod.mk.injEq] at same
  obtain ⟨⟨first, second⟩, open_, among, rfl, completed, given_up⟩ := same
  have between : BetweenRuns config.world := by
    refine meetingWorkers_between (fresh_blank _ _ _) reached fun me started => ?_
    rcases Nat.lt_or_ge me 1 with zero | one
    · obtain rfl : me = 0 := by omega
      exact Option.isNone_iff_eq_none.mp first
    · obtain rfl : me = 1 := by omega
      exact Option.isNone_iff_eq_none.mp second
  have uncompleted : Uncompleted ⟨7, .d3⟩ config.world := by
    intro row stored
    rw [stored] at open_
    have running : row.status = .inProgress := Option.some.inj open_
    rw [running]
    decide
  obtain ⟨row, stored, status⟩ := Option.map_eq_some_iff.mp completed
  exact ⟨config.world, after, between, ran, uncompleted, ⟨row, stored, status⟩, of_decide_eq_true among, given_up⟩

end SogeconApp.Guarantees.ScheduledPush
