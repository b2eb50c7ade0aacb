import SogeconApp.Guarantees.ScheduledPush.Alone

/-!
# The batches of a run

One subscription at a time: a delivery that is pending or failed is claimed, called for
at most the bounded number of times and recorded; any other is passed by. Over a batch,
and over the chunks of all batches, every claimable delivery is worked off exactly once.
-/

namespace SogeconApp.Guarantees.ScheduledPush

open Library Program Source.ScheduledPush

variable {me : SessionId} {may : Choice → Prop} {world : World} {logId : LogId}

/-! ## Provider calls -/

/-- The calls of one claim, as the provider answers them. -/
def calls (delivery : DeliveryId) (answers : List (Bool × Option Nat)) : List Happening :=
  answers.flatMap fun answer => [.dispatched delivery, .answered delivery answer.1 answer.2]

/-- What the last answer makes of the delivery; without any call it has failed. -/
def verdict (answers : List (Bool × Option Nat)) : DeliveryStatus :=
  match answers.getLast? with
  | some (true, _) => .completed
  | some (false, none) => .unknown
  | some (false, some _) => .failed
  | none => .failed

/-- The status that an attempt is recorded with. -/
def recordedStatus (attempt : DeliveryAttempt) : DeliveryStatus :=
  if attempt.uncertain then .unknown else if attempt.ok then .completed else .failed

/-- The calls of one claim: only a definite failure is tried again, at most `left` times. -/
structure Tried (left : Nat) (answers : List (Bool × Option Nat)) : Prop where
  bounded : answers.length ≤ left
  called : 0 < left → answers ≠ []
  retried : ∀ answer ∈ answers.dropLast, answer.1 = false ∧ answer.2.isSome

theorem Tried.single {left : Nat} (answer : Bool × Option Nat) : Tried (left + 1) [answer] :=
  ⟨by simp, fun _ => by simp, by simp⟩

/-- After a definite failure the calls go on, as long as some are left. -/
theorem Tried.again {left code : Nat} {answers : List (Bool × Option Nat)} (tried : Tried left answers)
    (more : 0 < left) : Tried (left + 1) ((false, some code) :: answers) where
  bounded := Nat.succ_le_succ tried.bounded
  called _ := by simp
  retried := by
    rw [List.dropLast_cons_of_ne_nil (tried.called more)]
    rintro answer member
    rcases List.mem_cons.mp member with rfl | member
    · exact ⟨rfl, rfl⟩
    · exact tried.retried answer member

theorem verdict_cons {answer : Bool × Option Nat} {answers : List (Bool × Option Nat)}
    (more : answers ≠ []) : verdict (answer :: answers) = verdict answers := by
  unfold verdict
  rw [List.getLast?_cons_of_ne_nil more]

/-- The provider was called, and nothing else happened. -/
structure Called (delivery : DeliveryId) (answers : List (Bool × Option Nat)) (before after : World) :
    Prop where
  beside : Beside before after
  deliveries : after.deliveries = before.deliveries
  attempt : after.attempt = before.attempt
  history : after.history = before.history ++ calls delivery answers

theorem Called.trans {delivery : DeliveryId} {first second : List (Bool × Option Nat)} {middle after : World}
    (one : Called delivery first world middle) (two : Called delivery second middle after) :
    Called delivery (first ++ second) world after where
  beside := one.beside.trans two.beside
  deliveries := two.deliveries.trans one.deliveries
  attempt := two.attempt.trans one.attempt
  history := by
    rw [two.history, one.history, calls, calls, calls, List.flatMap_append, List.append_assoc]

theorem Called.working {delivery : DeliveryId} {answers : List (Bool × Option Nat)} {after : World}
    (called : Called delivery answers world after) (working : Working me world) : Working me after := by
  refine ⟨?_, ?_⟩
  · rw [called.beside.logs]
    exact working.logs
  · rw [called.deliveries]
    exact working.deliveries

theorem Called.tick {delivery : DeliveryId} (world : World) (seconds : Nat) :
    Called delivery [] world (world.tick seconds) :=
  ⟨⟨rfl, rfl, rfl, rfl, rfl⟩, rfl, rfl, by simp [calls, World.tick]⟩

/-- One call: the request leaves, and is answered. -/
theorem sendAsync_alone (delivery : DeliveryId) (sub : PushSubscription) (payload : Payload)
    (working : Working me world) :
    (sendAsync (some delivery) sub payload).Ensures (machine.alone me may)
      (fun answer after => Called delivery [answer] world after) (Raised me may world) world := by
  unfold sendAsync
  rw [bind_eq, ensures_bind]
  have left : ∀ seconds, Working me ((world.tick seconds).happen [.dispatched delivery]) := fun seconds =>
    ⟨working.logs, working.deliveries⟩
  refine ask_alone (.dispatch (some delivery) sub payload) working fun _ seconds => ⟨(), _, rfl, ?_⟩
  refine Ensures.weaken (ask_alone (.awaitAnswer (some delivery)) (left seconds) fun choice later =>
    ⟨choice.answer, _, rfl, ?_⟩) (fun _ _ called => called) fun _ _ raised => raised.of_same fun _ => rfl
  exact ⟨⟨rfl, rfl, rfl, rfl, rfl⟩, rfl, rfl, by simp [World.happen, World.tick, calls]⟩

theorem sleep_alone (working : Working me world) :
    (ask .sleep).Ensures (machine.alone me may) (fun _ after => ∃ seconds, after = world.tick seconds)
      (Raised me may world) world :=
  ask_alone .sleep working fun _ seconds => ⟨(), _, rfl, seconds, rfl⟩

/-- The calls of one claim stay within their bound, and the attempt that is returned is the verdict on
them. -/
theorem sendAttempts_alone (delivery : DeliveryId) (sub : PushSubscription) (payload : Payload)
    (left : Nat) (status : Option Nat) (working : Working me world) :
    (sendAttempts (some delivery) sub payload left status).Ensures (machine.alone me may)
      (fun attempt after => ∃ answers, Tried left answers ∧ recordedStatus attempt = verdict answers ∧
        Called delivery answers world after)
      (Raised me may world) world := by
  induction left generalizing status world with
  | zero =>
    exact ⟨[], ⟨by simp, by simp, by simp⟩, rfl, beside_refl world, rfl, rfl, by simp [calls]⟩
  | succ left again =>
    rw [sendAttempts, bind_eq, ensures_bind]
    refine (sendAsync_alone delivery sub payload working).weaken ?_ fun _ _ raised => raised
    rintro ⟨ok, status⟩ middle called
    have same : ∀ log, middle.logs.committed log = world.logs.committed log := fun log => by
      rw [called.beside.logs]
    cases ok with
    | true => exact ⟨[(true, status)], Tried.single _, rfl, called⟩
    | false =>
      cases status with
      | none => exact ⟨[(false, none)], Tried.single _, rfl, called⟩
      | some code =>
        simp only [Bool.false_eq_true, if_false]
        split
        · exact ⟨[(false, some code)], Tried.single _, rfl, called⟩
        · split
          · exact ⟨[(false, some code)], Tried.single _, rfl, called⟩
          · next more =>
            rw [bind_eq, ensures_bind]
            refine (sleep_alone (called.working working)).weaken ?_ fun _ _ raised => raised.of_same same
            rintro _ _ ⟨seconds, rfl⟩
            have waited := called.trans (Called.tick middle seconds)
            refine (again (some code) ((called.working working).tick seconds)).weaken ?_
              fun _ _ raised => raised.of_same same
            rintro attempt after ⟨answers, tried, result, further⟩
            have remaining : 0 < left := Nat.pos_of_ne_zero more
            refine ⟨(false, some code) :: answers, tried.again remaining, ?_, waited.trans further⟩
            rw [result, verdict_cons (tried.called remaining)]

/-! ## One claim -/

section OneClaim

variable {hash : String}

theorem cleanHashes_single (given : hash ≠ "") : cleanHashes [hash] = [hash] := by
  simp [cleanHashes, given, List.eraseDups_cons]

/-- The candidates for one endpoint, by what the session sees of it. -/
theorem select_single {cond : ScheduledNotificationDelivery → Bool} (logId : LogId) :
    world.deliveries.select me (fun id row => id.log = logId ∧ id.endpointHash ∈ [hash] ∧ cond row) =
      if world.deliveries.holds me ⟨logId, hash⟩ cond then [⟨logId, hash⟩] else [] := by
  have unique : (world.deliveries.select me
      (fun id row => id.log = logId ∧ id.endpointHash ∈ [hash] ∧ cond row)).Nodup :=
    world.deliveries.nodup.filter _
  have only : ∀ delivery ∈ world.deliveries.select me
      (fun id row => id.log = logId ∧ id.endpointHash ∈ [hash] ∧ cond row), delivery = ⟨logId, hash⟩ := by
    intro delivery member
    obtain ⟨version, -, accepted⟩ := Table.mem_select.mp member
    simp only [List.mem_singleton, decide_eq_true_eq] at accepted
    cases delivery
    simp_all
  have listed : (⟨logId, hash⟩ : DeliveryId) ∈ world.deliveries.select me
      (fun id row => id.log = logId ∧ id.endpointHash ∈ [hash] ∧ cond row) ↔
        world.deliveries.holds me ⟨logId, hash⟩ cond = true := by
    simp [Table.mem_select, Table.holds_iff]
  split
  · next held =>
    have member := listed.mpr held
    generalize world.deliveries.select me
      (fun id row => id.log = logId ∧ id.endpointHash ∈ [hash] ∧ cond row) = rows at unique only member
    cases rows with
    | nil => simp at member
    | cons first rest =>
      have head := only first (by simp)
      cases rest with
      | nil => rw [head]
      | cons second others =>
        have next := only second (by simp)
        simp [head, next] at unique
  · next missing =>
    refine List.eq_nil_iff_forall_not_mem.mpr fun delivery member => missing ?_
    rw [only delivery member] at member
    exact listed.mp member

/-- The state that is read of one hash is the one that the session sees. -/
theorem getDeliveryStates_alone (given : hash ≠ "") (working : Working me world) :
    (getDeliveryStates logId [hash]).Ensures (machine.alone me may)
      (fun states after => states.lookup hash = seen me world ⟨logId, hash⟩ ∧
        ∃ seconds, after = world.tick seconds)
      (Raised me may world) world := by
  unfold getDeliveryStates
  rw [cleanHashes_single given, if_neg (by simp)]
  have states := @select_single me world hash (fun _ => true) logId
  simp only [and_true] at states
  refine Ensures.weaken (read_alone (.selectStates logId [hash])
    ((world.deliveries.select me fun id _ => id.log = logId ∧ id.endpointHash ∈ [hash]).filterMap
      fun id => (world.deliveries.row me id).map fun row => (id.endpointHash, row.status))
    working fun _ _ => rfl) ?_ fun _ _ raised => raised
  rintro found after ⟨rfl, passed⟩
  refine ⟨?_, passed⟩
  rw [states]
  unfold seen Table.holds
  cases row : world.deliveries.row me ⟨logId, hash⟩ <;> simp [row]

def claimable : Option DeliveryStatus → Bool
  | some .pending | some .failed => true
  | _ => false

/-- The condition of the claim in the query is the one on the status that is seen. -/
theorem holds_isClaimable (delivery : DeliveryId) :
    world.deliveries.holds me delivery isClaimable = claimable (seen me world delivery) := by
  unfold Table.holds seen
  cases row : world.deliveries.row me delivery with
  | none => rfl
  | some version => cases status : version.status <;> simp [isClaimable, claimable, status]

/-- The session has drafted a row of the delivery with the status, and moved on to its attempt. -/
structure Drafted (me : SessionId) (delivery : DeliveryId) (status : DeliveryStatus) (attempt : Attempt)
    (before after : World) : Prop where
  working : Working me after
  beside : Beside before after
  history : after.history = before.history
  attempt : after.attempt = Function.update before.attempt me attempt
  status : ∀ other, seen me after other = if other = delivery then some status else seen me before other

/-- A draft of one delivery. -/
theorem drafted_write {delivery : DeliveryId} {version : ScheduledNotificationDelivery} {attempt : Attempt}
    {seconds : Nat} (working : Working me world) :
    Drafted me delivery version.status attempt world
      { world.tick seconds with
        deliveries := world.deliveries.write me delivery (some version)
        attempt := Function.update world.attempt me attempt } where
  working := ⟨working.logs, working.deliveries.write _ _⟩
  beside := ⟨rfl, rfl, rfl, rfl, rfl⟩
  history := rfl
  attempt := rfl
  status other := by
    simp only [seen, Table.row_write]
    split <;> rfl

/-- Commit of such a draft: the attempt moves on and the history tells of it. -/
structure Published (me : SessionId) (delivery : DeliveryId) (status : DeliveryStatus) (attempt : Attempt)
    (before after : World) : Prop where
  quiet : after.deliveries.Quiet
  beside : Beside before after
  history : after.history = before.history ++ World.attemptNews attempt
  attempt : after.attempt = Function.update before.attempt me (World.attemptCommitted attempt)
  status : ∀ other, seen me after other = if other = delivery then some status else seen me before other

theorem Published.of_tick {delivery : DeliveryId} {status : DeliveryStatus} {attempt : Attempt}
    {seconds : Nat} {after : World}
    (published : Published me delivery status attempt (world.tick seconds) after) :
    Published me delivery status attempt world after where
  quiet := published.quiet
  beside := (aside_tick world seconds).toBeside.trans published.beside
  history := published.history
  attempt := published.attempt
  status := published.status

/-- The commit of a drafted delivery publishes its status and tells the history. -/
theorem commit_published {delivery : DeliveryId} {status : DeliveryStatus} {attempt : Attempt}
    {before : World} (logs : before.logs.Quiet) (intent : before.intent me = .own)
    (drafted : Drafted me delivery status attempt before world) :
    (ask .commit).Ensures (machine.alone me may)
      (fun _ after => Published me delivery status attempt before after) (Raised me may before) world := by
  refine (commit_alone drafted.working).weaken ?_ fun _ _ raised =>
    raised.of_same fun log => by rw [drafted.beside.logs]
  rintro _ _ ⟨seconds, rfl⟩
  have mine : (world.tick seconds).attempt me = attempt := by
    simp [World.tick, drafted.attempt]
  have quiet : (world.tick seconds).logs.Quiet := by
    change world.logs.Quiet
    rw [drafted.beside.logs]
    exact logs
  have own : world.intent me = .own := by rw [drafted.beside.intent]; exact intent
  refine ⟨drafted.working.deliveries.commit_quiet, drafted.beside.trans ⟨?_, rfl, rfl, ?_, ?_⟩, ?_, ?_, ?_⟩
  · exact quiet.commit_eq
  · exact Function.update_eq_self_iff.mpr own.symm
  · exact funext fun log => World.commit_acquirer_of_not_mine fun version held => by
      simp [quiet log] at held
  · simp only [World.commit, mine]
    rw [← drafted.history]
    rfl
  · simp only [World.commit, mine]
    change Function.update world.attempt me _ = _
    rw [drafted.attempt, Function.update_idem]
  · intro other
    rw [(drafted.working.tick seconds).seen_commit, ← drafted.status]
    rfl

/-- A delivery that is drafted twice in a transaction has the later status. -/
theorem Drafted.trans {delivery : DeliveryId} {first last : DeliveryStatus} {one two : Attempt}
    {middle after : World} (begun : Drafted me delivery first one world middle)
    (goes_on : Drafted me delivery last two middle after) : Drafted me delivery last two world after where
  working := goes_on.working
  beside := begun.beside.trans goes_on.beside
  history := goes_on.history.trans begun.history
  attempt := by rw [goes_on.attempt, begun.attempt, Function.update_idem]
  status other := by
    rw [goes_on.status, begun.status]
    split <;> rfl

/-- A statement that writes a row of one delivery which the session sees. -/
theorem updateDelivery_drafted {delivery : DeliveryId} (status : DeliveryStatus) (attempt : Attempt)
    (modify : ScheduledNotificationDelivery → ScheduledNotificationDelivery)
    (working : Working me world) (present : seen me world delivery ≠ none)
    (moved : ∀ row, (modify row).status = status) (seconds : Nat) :
    ∃ deliveries, updateDelivery me delivery (fun _ => true) modify (world.tick seconds) =
        some ((), { world.tick seconds with deliveries }) ∧
      Drafted me delivery status attempt world
        { world.tick seconds with deliveries, attempt := Function.update world.attempt me attempt } := by
  cases row : world.deliveries.row me delivery with
  | none => simp [seen, row] at present
  | some version =>
    refine ⟨world.deliveries.write me delivery (some (modify version)), ?_, ?_⟩
    · simp [updateDelivery, World.tick, working.deliveries.updateRow, row]
    · have drafted := @drafted_write me world delivery (modify version) attempt seconds working
      rw [moved] at drafted
      exact drafted

theorem lockClaimable_alone {delivery : DeliveryId} (working : Working me world)
    (open_ : claimable (seen me world delivery) = true) :
    (lockClaimable delivery).Ensures (machine.alone me may)
      (fun row after => ∃ version, row = some (delivery, version) ∧
        Drafted me delivery version.status (.claiming delivery) world after)
      (Raised me may world) world := by
  rw [← holds_isClaimable, Table.holds_iff] at open_
  obtain ⟨version, found, accepted⟩ := open_
  unfold lockClaimable
  rw [bind_eq, ensures_bind]
  refine ask_alone (.lockClaimable delivery) working fun choice seconds => ?_
  refine ⟨some version, { world.tick seconds with
    deliveries := world.deliveries.write me delivery (some version)
    attempt := Function.update world.attempt me (.claiming delivery) }, ?_, version, rfl, drafted_write working⟩
  simp [answer, World.tick, working.deliveries.lockRow, found, accepted]

theorem flushClaim_alone {delivery : DeliveryId} (loaded : ScheduledNotificationDelivery)
    (working : Working me world) (present : seen me world delivery ≠ none) :
    (ask (.flushClaim delivery loaded)).Ensures (machine.alone me may)
      (fun _ after => Drafted me delivery .inProgress (world.attempt me) world after)
      (Raised me may world) world := by
  refine ask_alone _ working fun choice seconds => ?_
  obtain ⟨deliveries, done, drafted⟩ := updateDelivery_drafted .inProgress (world.attempt me)
    (fun row => { row with
      status := .inProgress, attempts := loaded.attempts + 1, claimedAt := some (world.tick seconds).clock
      finishedAt := none, statusCode := none }) working present (fun _ => rfl) seconds
  rw [Function.update_eq_self] at drafted
  exact ⟨(), _, done, drafted⟩

/-- A claimable delivery is claimed and the claim is committed; any other one is left. -/
theorem claimDeliveries_alone (given : hash ≠ "") (idle : Idle me world) :
    (claimDeliveries logId [hash]).Ensures (machine.alone me may)
      (fun claims after =>
        claimable (seen me world ⟨logId, hash⟩) = true ∧ claims = [⟨⟨logId, hash⟩, hash⟩] ∧
            Published me ⟨logId, hash⟩ .inProgress (.claiming ⟨logId, hash⟩) world after ∨
          claimable (seen me world ⟨logId, hash⟩) = false ∧ claims = [] ∧ Idle me after ∧
            Aside world after ∧ ∀ other, seen me after other = seen me world other)
      (Raised me may world) world := by
  unfold claimDeliveries
  rw [cleanHashes_single given]
  simp only [List.cons_ne_nil, if_false, bind_eq, ensures_bind]
  refine Ensures.weaken (read_alone (.selectClaimable logId [hash]) (world.deliveries.select me fun id row =>
    id.log = logId ∧ id.endpointHash ∈ [hash] ∧ isClaimable row) idle.working fun _ _ => rfl) ?_
    fun _ _ raised => raised
  rintro candidates _ ⟨rfl, seconds, rfl⟩
  rw [select_single, holds_isClaimable]
  have ticked := idle.tick seconds
  cases open_ : claimable (seen me world ⟨logId, hash⟩) with
  | false =>
    simp only [Bool.false_eq_true, if_false, collectEach, pure_eq, ensures_ret, forEach]
    refine (commit_alone ticked.working).weaken ?_ fun _ _ raised => raised.of_tick
    rintro _ _ ⟨later, rfl⟩
    have again := (ticked.tick later).working
    refine .inr ⟨trivial, rfl, again.commit_idle idle.attempt, ?_, fun other => again.seen_commit other⟩
    exact ((aside_tick world seconds).trans (aside_tick _ later)).trans
      (commit_aside idle.logs idle.attempt idle.intent)
  | true =>
    simp only [if_true, collectEach, bind_eq, pure_eq, ensures_bind]
    refine (lockClaimable_alone ticked.working open_).weaken ?_ fun _ _ raised => raised.of_tick
    rintro row locked ⟨version, rfl, drafted⟩
    have present : seen me locked ⟨logId, hash⟩ ≠ none := by simp [drafted.status]
    have same : ∀ log, locked.logs.committed log = world.logs.committed log := fun log => by
      rw [drafted.beside.logs]
      rfl
    simp only [ensures_ret, Option.toList_some, List.append_nil, forEach, bind_eq, pure_eq, ensures_bind]
    refine (flushClaim_alone version drafted.working present).weaken ?_ fun _ _ raised => raised.of_same same
    intro _ flushed moved
    have attempt : locked.attempt me = .claiming ⟨logId, hash⟩ := by simp [drafted.attempt]
    rw [attempt] at moved
    refine (commit_published ticked.logs ticked.intent (drafted.trans moved)).weaken ?_
      fun _ _ raised => raised.of_same fun _ => rfl
    intro _ after published
    exact .inl ⟨trivial, rfl, published.of_tick⟩

/-- The result of the claim that the session holds. -/
theorem recordDeliveryResults_alone {delivery : DeliveryId} {attempt : DeliveryAttempt}
    (logs : world.logs.Quiet) (intent : world.intent me = .own) (working : Working me world)
    (present : seen me world delivery ≠ none) :
    (recordDeliveryResults [⟨⟨delivery, hash⟩, attempt.ok, attempt.statusCode, attempt.uncertain⟩]).Ensures
      (machine.alone me may)
      (fun _ after => Published me delivery (recordedStatus attempt)
        (.recording delivery (recordedStatus attempt)) world after)
      (Raised me may world) world := by
  simp only [recordDeliveryResults, forEach, bind_eq, ensures_bind, pure_eq, ensures_ret]
  refine ask_alone _ working fun choice seconds => ?_
  obtain ⟨deliveries, done, drafted⟩ := updateDelivery_drafted (recordedStatus attempt)
    (.recording delivery (recordedStatus attempt))
    (fun row => { row with
      status := recordedStatus attempt, statusCode := attempt.statusCode
      finishedAt := some (world.tick seconds).clock }) working present (fun _ => rfl) seconds
  refine ⟨(), { world.tick seconds with
    deliveries, attempt := Function.update world.attempt me
      (.recording delivery (recordedStatus attempt)) }, ?_, ?_⟩
  · simp only [answer]
    exact Option.map_eq_some_iff.mpr ⟨_, done, rfl⟩
  · exact commit_published logs intent drafted

/-- The claim, the calls and the result of one attempt. -/
def worked (delivery : DeliveryId) (answers : List (Bool × Option Nat)) : List Happening :=
  [.claimed delivery] ++ calls delivery answers ++ [.recorded delivery (verdict answers)]

/-- A subscription that cannot be decrypted is not called for. -/
def CalledFor (crypto : Crypto) (retries : Nat) (sub : PushSubscription)
    (answers : List (Bool × Option Nat)) : Prop :=
  match decryptSubscription crypto sub with
  | none => answers = []
  | some _ => Tried (retries + 1) answers

/-- What one subscription of a scheduled batch leads to. -/
structure WorkedOff (me : SessionId) (crypto : Crypto) (retries : Nat) (logId : LogId)
    (sub : PushSubscription) (answers : List (Bool × Option Nat)) (before after : World) : Prop where
  attempted : CalledFor crypto retries sub answers
  idle : Idle me after
  logs : after.logs = before.logs
  acquirer : after.acquirer = before.acquirer
  history : after.history = before.history ++ worked ⟨logId, sub.endpointHash⟩ answers
  status : ∀ other, seen me after other =
    if other = ⟨logId, sub.endpointHash⟩ then some (verdict answers) else seen me before other

/-- Nothing is done for the subscription. -/
structure PassedBy (me : SessionId) (before after : World) : Prop where
  idle : Idle me after
  logs : after.logs = before.logs
  acquirer : after.acquirer = before.acquirer
  history : after.history = before.history
  status : ∀ other, seen me after other = seen me before other

/-- A subscription is passed by if nothing but reads were made for it. -/
theorem Aside.passedBy {after : World} (aside : Aside world after) (idle : Idle me after)
    (status : ∀ other, seen me after other = seen me world other) : PassedBy me world after :=
  ⟨idle, aside.logs, aside.acquirer, aside.history, status⟩

theorem prepareScheduledDelivery_alone (given : hash ≠ "") (idle : Idle me world) :
    (prepareScheduledDelivery hash logId).Ensures (machine.alone me may)
      (fun found after =>
        claimable (seen me world ⟨logId, hash⟩) = true ∧ found = (some ⟨⟨logId, hash⟩, hash⟩, none) ∧
            Published me ⟨logId, hash⟩ .inProgress (.claiming ⟨logId, hash⟩) world after ∨
          claimable (seen me world ⟨logId, hash⟩) = false ∧
            found = (none, seen me world ⟨logId, hash⟩) ∧ PassedBy me world after)
      (Raised me may world) world := by
  unfold prepareScheduledDelivery
  simp only [bind_eq, ensures_bind]
  refine (getDeliveryStates_alone given idle.working).weaken ?_ fun _ _ raised => raised
  rintro states _ ⟨state, seconds, rfl⟩
  have ticked := idle.tick seconds
  simp only [state]
  split
  · next final =>
    have closed : claimable (seen me world ⟨logId, hash⟩) = false := by
      simp only [List.mem_cons, List.not_mem_nil, or_false] at final
      rcases final with status | status | status | status <;> rw [status] <;> rfl
    exact .inr ⟨closed, rfl, (aside_tick world seconds).passedBy ticked fun _ => rfl⟩
  · rw [ensures_bind]
    refine (claimDeliveries_alone given ticked).weaken ?_ fun _ _ raised => raised.of_tick
    rintro claims after (⟨open_, rfl, published⟩ | ⟨closed, rfl, still, aside, status⟩)
    · exact .inl ⟨open_, rfl, published.of_tick⟩
    · exact .inr ⟨closed, rfl, ((aside_tick world seconds).trans aside).passedBy still status⟩

/-- The calls of a claim and its result. -/
theorem work_alone (crypto : Crypto) (retries : Nat) (tally : BatchTally) (sub : PushSubscription)
    {claimed : World} {attempt : DeliveryAttempt} {answers : List (Bool × Option Nat)} {called : World}
    (idle : Idle me world) (attempted : CalledFor crypto retries sub answers)
    (result : recordedStatus attempt = verdict answers)
    (published : Published me ⟨logId, sub.endpointHash⟩ .inProgress
      (.claiming ⟨logId, sub.endpointHash⟩) world claimed)
    (calling : Called ⟨logId, sub.endpointHash⟩ answers claimed called) :
    (do
      recordDeliveryResults [⟨⟨⟨logId, sub.endpointHash⟩, sub.endpointHash⟩, attempt.ok,
        attempt.statusCode, attempt.uncertain⟩]
      pure (tally.count crypto sub.endpointHash (decryptSubscription crypto sub) attempt) :
        Push BatchTally).Ensures (machine.alone me may)
      (fun _ after => ∃ answers, WorkedOff me crypto retries logId sub answers world after)
      (Raised me may world) called := by
  have logs : called.logs = world.logs := calling.beside.logs.trans published.beside.logs
  have rows : ∀ other, seen me called other = seen me claimed other := by
    intro other
    rw [seen, calling.deliveries, seen]
  have working : Working me called := by
    refine ⟨?_, ?_⟩
    · rw [logs]
      exact idle.logs.only
    · rw [calling.deliveries]
      exact published.quiet.only
  have present : seen me called ⟨logId, sub.endpointHash⟩ ≠ none := by
    rw [rows, published.status]
    simp
  rw [bind_eq, ensures_bind]
  refine (recordDeliveryResults_alone (by rw [logs]; exact idle.logs) ?_ working present).weaken ?_
    fun _ _ raised => raised.of_same fun log => by rw [logs]
  · rw [calling.beside.intent, published.beside.intent]
    exact idle.intent
  · intro _ after recorded
    have beside := (published.beside.trans calling.beside).trans recorded.beside
    refine ⟨answers, attempted, ⟨?_, recorded.quiet, ?_, ?_⟩, beside.logs, beside.acquirer, ?_, ?_⟩
    · rw [beside.logs]
      exact idle.logs
    · rw [recorded.attempt]
      simp [World.attemptCommitted]
    · rw [beside.intent]
      exact idle.intent
    · rw [recorded.history, calling.history, published.history, result]
      simp [worked, World.attemptNews, List.append_assoc]
    · intro other
      rw [recorded.status, rows, published.status, result]
      split <;> rfl

/-- A claimable delivery is worked off, from its claim to its result; any other one is passed by. -/
theorem sendScheduled_alone (crypto : Crypto) (payload : Payload) (retries : Nat) (tally : BatchTally)
    (sub : PushSubscription) (given : sub.endpointHash ≠ "") (idle : Idle me world) :
    (sendScheduled crypto payload retries logId tally sub).Ensures (machine.alone me may)
      (fun _ after =>
        if claimable (seen me world ⟨logId, sub.endpointHash⟩) then
          ∃ answers, WorkedOff me crypto retries logId sub answers world after
        else PassedBy me world after)
      (Raised me may world) world := by
  unfold sendScheduled
  rw [bind_eq, ensures_bind]
  refine (prepareScheduledDelivery_alone given idle).weaken ?_ fun _ _ raised => raised
  rintro found claimed (⟨open_, rfl, published⟩ | ⟨closed, rfl, passed⟩)
  · simp only [open_, if_true]
    have working : Working me claimed := by
      refine ⟨?_, published.quiet.only⟩
      rw [published.beside.logs]
      exact idle.logs.only
    split
    · next encrypted =>
      have attempted : CalledFor crypto retries sub [] := by simp [CalledFor, encrypted]
      exact work_alone crypto retries tally sub idle attempted rfl published
        ⟨beside_refl claimed, rfl, rfl, by simp [calls]⟩
    · next plain decrypted =>
      rw [bind_eq, ensures_bind]
      refine (sendAttempts_alone _ sub payload (retries + 1) none working).weaken ?_
        fun _ _ raised => raised.of_same fun log => by rw [published.beside.logs]
      rintro attempt called ⟨answers, tried, result, calling⟩
      have attempted : CalledFor crypto retries sub answers := by simpa [CalledFor, decrypted] using tried
      exact work_alone crypto retries tally sub idle attempted result published calling
  · simp only [closed, Bool.false_eq_true, if_false]
    split <;> exact passed

end OneClaim

/-! ## All batches -/

section AllBatches

variable {crypto : Crypto} {retries : Nat} {start after : World}

/-- The subscriptions whose delivery waits to be sent. -/
def due (me : SessionId) (world : World) (logId : LogId) (subs : List PushSubscription) :
    List PushSubscription :=
  subs.filter fun sub => claimable (seen me world ⟨logId, sub.endpointHash⟩)

/-- What working off subscriptions leads to: an attempt for each one that was due, in
order, with the answers it got. -/
structure Sent (me : SessionId) (crypto : Crypto) (retries : Nat) (logId : LogId) (start : World)
    (done : List PushSubscription) (attempts : List (PushSubscription × List (Bool × Option Nat)))
    (after : World) : Prop where
  idle : Idle me after
  logs : after.logs = start.logs
  acquirer : after.acquirer = start.acquirer
  listed : attempts.map Prod.fst = due me start logId done
  called : ∀ attempt ∈ attempts, CalledFor crypto retries attempt.1 attempt.2
  history : after.history = start.history ++
    attempts.flatMap fun attempt => worked ⟨logId, attempt.1.endpointHash⟩ attempt.2
  finished : ∀ attempt ∈ attempts,
    seen me after ⟨logId, attempt.1.endpointHash⟩ = some (verdict attempt.2)
  untouched : ∀ other, (∀ sub ∈ done, other ≠ ⟨logId, sub.endpointHash⟩) →
    seen me after other = seen me start other
  closed : ∀ sub ∈ done, claimable (seen me start ⟨logId, sub.endpointHash⟩) = false →
    seen me after ⟨logId, sub.endpointHash⟩ = seen me start ⟨logId, sub.endpointHash⟩

theorem sent_nothing (idle : Idle me start) : Sent me crypto retries logId start [] [] start where
  idle := idle
  logs := rfl
  acquirer := rfl
  listed := rfl
  called := by simp
  history := by simp
  finished := by simp
  untouched _ _ := rfl
  closed := by simp

variable {done : List PushSubscription} {sub : PushSubscription}
  {attempts : List (PushSubscription × List (Bool × Option Nat))}

theorem Sent.passed (sent : Sent me crypto retries logId start done attempts world)
    (passed : PassedBy me world after) : Sent me crypto retries logId start done attempts after where
  idle := passed.idle
  logs := passed.logs.trans sent.logs
  acquirer := passed.acquirer.trans sent.acquirer
  listed := sent.listed
  called := sent.called
  history := passed.history.trans sent.history
  finished attempt member := (passed.status _).trans (sent.finished attempt member)
  untouched other apart := (passed.status _).trans (sent.untouched other apart)
  closed one member shut := (passed.status _).trans (sent.closed one member shut)

theorem Sent.subset (sent : Sent me crypto retries logId start done attempts world)
    {attempt : PushSubscription × List (Bool × Option Nat)} (member : attempt ∈ attempts) :
    attempt.1 ∈ done := by
  have among : attempt.1 ∈ attempts.map Prod.fst := List.mem_map_of_mem member
  rw [sent.listed] at among
  exact (List.mem_filter.mp among).1

/-- A delivery that is not claimable is passed by, and its subscription is done. -/
theorem Sent.over (sent : Sent me crypto retries logId start done attempts world)
    (shut : claimable (seen me start ⟨logId, sub.endpointHash⟩) = false)
    (fresh : seen me world ⟨logId, sub.endpointHash⟩ = seen me start ⟨logId, sub.endpointHash⟩) :
    Sent me crypto retries logId start (done ++ [sub]) attempts world where
  idle := sent.idle
  logs := sent.logs
  acquirer := sent.acquirer
  listed := by simp [sent.listed, due, shut]
  called := sent.called
  history := sent.history
  finished := sent.finished
  untouched other apart := sent.untouched other fun one member => apart one (by simp [member])
  closed one member shut := by
    rcases List.mem_append.mp member with earlier | last
    · exact sent.closed one earlier shut
    · rw [List.mem_singleton.mp last]
      exact fresh

/-- A delivery that was claimable is worked off, and its attempt joins the others in order. -/
theorem Sent.worked (sent : Sent me crypto retries logId start done attempts world)
    (fresh : ∀ one ∈ done, one.endpointHash ≠ sub.endpointHash)
    (open_ : claimable (seen me start ⟨logId, sub.endpointHash⟩) = true)
    {answers : List (Bool × Option Nat)}
    (off : WorkedOff me crypto retries logId sub answers world after) :
    Sent me crypto retries logId start (done ++ [sub]) (attempts ++ [(sub, answers)]) after where
  idle := off.idle
  logs := off.logs.trans sent.logs
  acquirer := off.acquirer.trans sent.acquirer
  listed := by simp [sent.listed, due, open_]
  called attempt member := by
    rcases List.mem_append.mp member with earlier | last
    · exact sent.called attempt earlier
    · rw [List.mem_singleton.mp last]
      exact off.attempted
  history := by
    rw [off.history, sent.history]
    simp
  finished attempt member := by
    rw [off.status]
    rcases List.mem_append.mp member with earlier | last
    · have apart := fresh attempt.1 (sent.subset earlier)
      rw [if_neg (by simpa using apart)]
      exact sent.finished attempt earlier
    · rw [List.mem_singleton.mp last, if_pos rfl]
  untouched other apart := by
    rw [off.status, if_neg (apart sub (by simp))]
    exact sent.untouched other fun one member => apart one (by simp [member])
  closed one member shut := by
    rcases List.mem_append.mp member with earlier | last
    · rw [off.status, if_neg (by simpa using fresh one earlier)]
      exact sent.closed one earlier shut
    · rw [List.mem_singleton.mp last, open_] at shut
      cases shut

/-- Over a batch of different subscriptions every claimable delivery is worked off once. -/
theorem sendEach_alone (payload : Payload) (tally : BatchTally) (batch : List PushSubscription)
    (unique : ((done ++ batch).map (·.endpointHash)).Nodup) (given : ∀ sub ∈ batch, sub.endpointHash ≠ "")
    (sent : Sent me crypto retries logId start done attempts world) :
    (sendEach (sendScheduled crypto payload retries logId) tally batch).Ensures (machine.alone me may)
      (fun _ after => ∃ attempts, Sent me crypto retries logId start (done ++ batch) attempts after)
      (Raised me may start) world := by
  induction batch generalizing tally done attempts world with
  | nil =>
    rw [List.append_nil]
    exact ⟨attempts, sent⟩
  | cons sub rest ih =>
    have apart : ∀ one ∈ done, one.endpointHash ≠ sub.endpointHash := by
      rw [List.map_append, List.nodup_append] at unique
      exact fun one member => unique.2.2 _ (List.mem_map_of_mem member) _ (by simp)
    have fresh : seen me world ⟨logId, sub.endpointHash⟩ = seen me start ⟨logId, sub.endpointHash⟩ :=
      sent.untouched _ fun one member => by simpa using (apart one member).symm
    have rearranged : done ++ sub :: rest = (done ++ [sub]) ++ rest := by simp
    rw [rearranged] at unique ⊢
    simp only [sendEach, bind_eq, ensures_bind]
    refine (sendScheduled_alone crypto payload retries tally sub (given sub (by simp)) sent.idle).weaken ?_
      fun _ _ raised => raised.of_same fun log => by rw [sent.logs]
    intro tally after worked
    have later : ∀ other ∈ rest, other.endpointHash ≠ "" := fun other member => given other (by simp [member])
    rw [fresh] at worked
    cases open_ : claimable (seen me start ⟨logId, sub.endpointHash⟩) with
    | true =>
      rw [open_, if_pos rfl] at worked
      obtain ⟨answers, off⟩ := worked
      exact ih tally unique later (sent.worked apart open_ off)
    | false =>
      rw [open_, if_neg (by simp)] at worked
      exact ih tally unique later ((sent.over open_ fresh).passed worked)

theorem passedBy_refl (idle : Idle me world) : PassedBy me world world :=
  (Aside.refl world).passedBy idle fun _ => rfl

theorem PassedBy.trans {middle : World} (first : PassedBy me world middle)
    (second : PassedBy me middle after) : PassedBy me world after where
  idle := second.idle
  logs := second.logs.trans first.logs
  acquirer := second.acquirer.trans first.acquirer
  history := second.history.trans first.history
  status other := (second.status other).trans (first.status other)

/-- A commit with nothing of this kind to publish. -/
theorem commit_passedBy (idle : Idle me world) :
    (ask .commit).Ensures (machine.alone me may) (fun _ after => PassedBy me world after)
      (Raised me may world) world := by
  refine (commit_alone idle.working).weaken ?_ fun _ _ raised => raised
  rintro _ _ ⟨seconds, rfl⟩
  have ticked := idle.tick seconds
  have aside := (aside_tick world seconds).trans (commit_aside ticked.logs ticked.attempt ticked.intent)
  exact aside.passedBy (ticked.working.commit_idle ticked.attempt) ticked.working.seen_commit

theorem createLogsBatch_alone (items : List SendLogItem) (idle : Idle me world) :
    (createLogsBatch crypto items).Ensures (machine.alone me may) (fun _ after => PassedBy me world after)
      (Raised me may world) world := by
  unfold createLogsBatch
  extract_lets rows
  split
  · exact passedBy_refl idle
  · rw [bind_eq, ensures_bind]
    refine ask_alone _ idle.working fun choice seconds => ⟨(), _, rfl, ?_⟩
    have stored : PassedBy me world { world.tick seconds with
        sendLogs := world.sendLogs ++ items.filterMap (sendLogRow crypto) } :=
      ⟨⟨idle.logs, idle.deliveries, idle.attempt, idle.intent⟩, rfl, rfl, rfl, fun _ => rfl⟩
    exact (commit_passedBy stored.idle).weaken (fun _ _ passed => stored.trans passed)
      fun _ _ raised => raised.of_same fun _ => rfl

theorem removeByEndpointHashes_alone (hashes : List String) (idle : Idle me world) :
    (removeByEndpointHashes hashes).Ensures (machine.alone me may) (fun _ after => PassedBy me world after)
      (Raised me may world) world := by
  unfold removeByEndpointHashes
  refine ensures_forEach_same (PassedBy me world) _ (passedBy_refl idle) fun chunk _ current passed => ?_
  rw [bind_eq, ensures_bind]
  have same : ∀ log, current.logs.committed log = world.logs.committed log := fun log => by rw [passed.logs]
  refine (@ask_alone me may current (.deleteSubscriptions chunk) (fun _ after => PassedBy me current after)
    passed.idle.working fun choice seconds => ⟨(), _, rfl, ?_⟩).weaken ?_ fun _ _ raised => raised.of_same same
  · exact ⟨⟨passed.idle.logs, passed.idle.deliveries, passed.idle.attempt, passed.idle.intent⟩, rfl, rfl, rfl,
      fun _ => rfl⟩
  · intro _ deleted removed
    exact (commit_passedBy removed.idle).weaken (fun _ _ last => (passed.trans removed).trans last)
      fun _ _ raised => raised.of_same fun log => by rw [removed.logs, same]

/-- A chunk is sent, logged and cleaned up, with the attempts of its batch. -/
theorem sendBatchChunk_alone (payload : Payload) (batch : List PushSubscription)
    (unique : ((done ++ batch).map (·.endpointHash)).Nodup) (given : ∀ sub ∈ batch, sub.endpointHash ≠ "")
    (sent : Sent me crypto retries logId start done attempts world) :
    (sendBatchChunk crypto batch payload ⟨retries, some logId⟩).Ensures (machine.alone me may)
      (fun _ after => ∃ attempts, Sent me crypto retries logId start (done ++ batch) attempts after)
      (Raised me may start) world := by
  unfold sendBatchChunk
  simp only [bind_eq, ensures_bind]
  refine (sendEach_alone payload {} batch unique given sent).weaken ?_ fun _ _ raised => raised
  rintro tally worked ⟨attempts, progressed⟩
  refine (createLogsBatch_alone tally.logItems progressed.idle).weaken ?_ fun _ _ raised =>
    raised.of_same fun log => by rw [progressed.logs]
  intro _ logged noted
  refine (removeByEndpointHashes_alone tally.expiredHashes noted.idle).weaken ?_ fun _ _ raised =>
    raised.of_same fun log => by rw [noted.logs, progressed.logs]
  intro _ after removed
  exact ⟨attempts, progressed.passed (noted.trans removed)⟩

/-- The chunks together do what one batch of all subscriptions would. -/
theorem sendBatches_alone (payload : Payload) (total : SendResult) (chunks : List (List PushSubscription))
    (unique : ((done ++ chunks.flatten).map (·.endpointHash)).Nodup)
    (given : ∀ sub ∈ chunks.flatten, sub.endpointHash ≠ "")
    (sent : Sent me crypto retries logId start done attempts world) :
    (sendBatches crypto payload ⟨retries, some logId⟩ total chunks).Ensures (machine.alone me may)
      (fun _ after => ∃ attempts, Sent me crypto retries logId start (done ++ chunks.flatten) attempts after)
      (Raised me may start) world := by
  induction chunks generalizing total done attempts world with
  | nil =>
    rw [List.flatten_nil, List.append_nil]
    exact ⟨attempts, sent⟩
  | cons batch rest ih =>
    rw [List.flatten_cons, ← List.append_assoc] at unique ⊢
    have first : ((done ++ batch).map (·.endpointHash)).Nodup := by
      rw [List.map_append] at unique
      exact (List.nodup_append.mp unique).1
    simp only [sendBatches, bind_eq, ensures_bind]
    refine (sendBatchChunk_alone payload batch first (fun sub member => given sub (by simp [member])) sent).weaken
      ?_ fun _ _ raised => raised
    rintro ⟨accepted, failed⟩ worked ⟨attempts, progressed⟩
    dsimp only
    split
    · next last =>
      rw [last, List.flatten_nil, List.append_nil]
      exact ⟨attempts, progressed⟩
    · rw [ensures_bind]
      refine (sleep_alone progressed.idle.working).weaken ?_ fun _ _ raised =>
        raised.of_same fun log => by rw [progressed.logs]
      rintro _ _ ⟨seconds, rfl⟩
      have slept := (aside_tick worked seconds).passedBy (progressed.idle.tick seconds) fun _ => rfl
      exact ih _ unique (fun sub member => given sub (by
        rw [List.flatten_cons]
        exact List.mem_append_right _ member)) (progressed.passed slept)

/-- Every chunk of every batch, for subscriptions as the table holds them. -/
theorem sendBatchNotifications_alone (subs : List PushSubscription) (payload : Payload)
    (unique : (subs.map (·.endpointHash)).Nodup) (given : ∀ sub ∈ subs, sub.endpointHash ≠ "")
    (idle : Idle me world) :
    (sendBatchNotifications crypto subs payload { scheduledLogId := some logId }).Ensures
      (machine.alone me may)
      (fun result after => ∃ ready attempts,
        Idle me ready ∧ Across me logId (ensured (subs.map (·.endpointHash))) world ready ∧
        Sent me crypto 3 logId ready subs attempts after ∧
        deliveryCounts me after.deliveries logId = ⟨result.accepted, result.failed⟩)
      (Raised me may world) world := by
  unfold sendBatchNotifications
  simp only [bind_eq, ensures_bind]
  refine (ensureDeliveries_alone _ idle).weaken ?_ fun _ _ raised => raised
  rintro _ ready ⟨begins, across⟩
  have same : ∀ log, ready.logs.committed log = world.logs.committed log := fun log => by rw [across.1.logs]
  have whole : (batches 50 subs).flatten = subs := batches_flatten 50 subs (by decide)
  have chunks := @sendBatches_alone me may ready logId crypto 3 ready [] [] payload ⟨0, 0⟩ (batches 50 subs)
    (by simpa [whole] using unique) (by simpa [whole] using given) (sent_nothing begins)
  rw [whole, List.nil_append] at chunks
  refine chunks.weaken ?_ fun _ _ raised => raised.of_same same
  rintro _ worked ⟨attempts, sent⟩
  refine Ensures.weaken (read_alone (.countDeliveries logId) (deliveryCounts me worked.deliveries logId)
    sent.idle.working fun _ _ => rfl) ?_ fun _ _ raised => raised.of_same fun log => by rw [sent.logs, same]
  rintro _ _ ⟨rfl, seconds, rfl⟩
  have counted := (aside_tick worked seconds).passedBy (sent.idle.tick seconds) fun _ => rfl
  exact ⟨ready, attempts, begins, across, sent.passed counted, rfl⟩

end AllBatches

end SogeconApp.Guarantees.ScheduledPush
