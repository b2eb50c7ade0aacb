import SogeconApp.Guarantees.ScheduledPush.LogFencing

/-!
# A run among no others

Every draft belongs to an open session, so once all sessions have ended or crashed no
transaction is open and a new run reads what is committed. What each program does then
is stated for any choices of the environment: what it returns and leaves, or, if the
environment may make a statement raise, that nothing it leaves is committed.
-/

namespace SogeconApp.Guarantees.ScheduledPush

open Library Program Source.ScheduledPush

/-! ## Between runs -/

/-- Drafts, claims and intents belong to open sessions. -/
structure OpenDrafts (world : World) (phase : SessionId → Phase) : Prop where
  logs : ∀ log owner version, (world.logs.slot log).draft = some (owner, version) →
    (phase owner).connection ≠ .gone
  deliveries : ∀ delivery owner version, (world.deliveries.slot delivery).draft = some (owner, version) →
    (phase owner).connection ≠ .gone
  attempt : ∀ me, (phase me).connection = .gone → world.attempt me = .idle
  intent : ∀ me, (phase me).connection = .gone → world.intent me = .own

section Keeping

variable {world world' : World} {phase : SessionId → Phase} {me : SessionId} {after : Phase}

/-- A session that goes on may draft; the others keep what they have. -/
theorem OpenDrafts.goes_on (inv : OpenDrafts world phase) (still : after.connection ≠ .gone)
    (logs : ∀ log owner version, (world'.logs.slot log).draft = some (owner, version) →
      owner = me ∨ ∃ earlier, (world.logs.slot log).draft = some (owner, earlier))
    (deliveries : ∀ delivery owner version, (world'.deliveries.slot delivery).draft = some (owner, version) →
      owner = me ∨ ∃ earlier, (world.deliveries.slot delivery).draft = some (owner, earlier))
    (attempt : ∀ other, other ≠ me → world'.attempt other = world.attempt other)
    (intent : ∀ other, other ≠ me → world'.intent other = world.intent other) :
    OpenDrafts world' (Function.update phase me after) := by
  have left : ∀ other, (Function.update phase me after other).connection = .gone →
      other ≠ me ∧ (phase other).connection = .gone := by
    intro other gone
    by_cases equal : other = me
    · rw [equal, Function.update_self] at gone
      exact absurd gone still
    · rw [Function.update_of_ne equal] at gone
      exact ⟨equal, gone⟩
  constructor
  · intro log owner version drafted gone
    obtain ⟨different, before⟩ := left owner gone
    obtain ⟨earlier, held⟩ := (logs log owner version drafted).resolve_left different
    exact inv.logs log owner earlier held before
  · intro delivery owner version drafted gone
    obtain ⟨different, before⟩ := left owner gone
    obtain ⟨earlier, held⟩ := (deliveries delivery owner version drafted).resolve_left different
    exact inv.deliveries delivery owner earlier held before
  · intro other gone
    obtain ⟨different, before⟩ := left other gone
    rw [attempt other different]
    exact inv.attempt other before
  · intro other gone
    obtain ⟨different, before⟩ := left other gone
    rw [intent other different]
    exact inv.intent other before

/-- A session that leaves takes its drafts, its claim and its purpose with it. -/
theorem OpenDrafts.leave (inv : OpenDrafts world phase) :
    OpenDrafts (world.leave me) (Function.update phase me { connection := .gone }) := by
  constructor
  · intro log owner version drafted
    obtain ⟨before, different⟩ := Slot.draft_abort_eq.mp drafted
    rw [Function.update_of_ne different]
    exact inv.logs log owner version before
  · intro delivery owner version drafted
    obtain ⟨before, different⟩ := Slot.draft_abort_eq.mp drafted
    rw [Function.update_of_ne different]
    exact inv.deliveries delivery owner version before
  · intro other gone
    by_cases equal : other = me
    · rw [equal]
      exact Function.update_self ..
    · rw [Function.update_of_ne equal] at gone
      exact (Function.update_of_ne equal ..).trans (inv.attempt other gone)
  · intro other gone
    by_cases equal : other = me
    · rw [equal]
      exact Function.update_self ..
    · rw [Function.update_of_ne equal] at gone
      exact (Function.update_of_ne equal ..).trans (inv.intent other gone)

end Keeping

/-- No statement closes a session; that is left to its end and to a crash. -/
theorem next_connection {phase : Phase} {stmt : Stmt} {reply : Except Failure (Reply stmt)}
    (allowed : phase.allow stmt) : (phase.next stmt reply).connection ≠ .gone := by
  have here : phase.connection ≠ .gone := by
    rcases allowed with ⟨ready, -⟩ | ⟨aborted, -⟩
    · simp [ready]
    · simp [aborted]
  unfold Phase.next
  split
  all_goals first
    | exact here
    | (split <;> exact here)
    | simp

/-- A statement that raised left the tables and the sessions as they were. -/
theorem failed_same (stmt : Stmt) (world : World) :
    (failed stmt world).logs = world.logs ∧ (failed stmt world).deliveries = world.deliveries ∧
      (failed stmt world).attempt = world.attempt ∧ (failed stmt world).intent = world.intent := by
  unfold failed
  split <;> exact ⟨rfl, rfl, rfl, rfl⟩

theorem openDrafts_keeps : worker.Keeps machine (fun _ _ _ _ => True) OpenDrafts where
  exec world phase me stmt choice reply world' inv _ allowed done := by
    have still : ((phase me).next stmt reply).connection ≠ .gone := next_connection allowed
    rcases exec_cases done with ⟨reason, -, rfl, rfl⟩ | ⟨answered, -, rfl, answers⟩
    · obtain ⟨logs, deliveries, attempt, intent⟩ := failed_same stmt (world.tick choice.elapsed)
      refine inv.goes_on still ?_ ?_ ?_ ?_
      · rw [logs]
        exact fun _ _ version drafted => .inr ⟨version, drafted⟩
      · rw [deliveries]
        exact fun _ _ version drafted => .inr ⟨version, drafted⟩
      · rw [attempt]
        exact fun _ _ => rfl
      · rw [intent]
        exact fun _ _ => rfl
    · by_cases commits : stmt = .commit
      · subst commits
        cases answers
        exact inv.goes_on still (fun _ _ version drafted => .inr ⟨version, (Slot.draft_commit_eq.mp drafted).1⟩)
          (fun _ _ version drafted => .inr ⟨version, (Slot.draft_commit_eq.mp drafted).1⟩)
          (fun other different => Function.update_of_ne different ..)
          fun other different => Function.update_of_ne different ..
      · have own := answer_private answers commits
        exact inv.goes_on still (fun _ _ _ drafted => own.logs.owner drafted)
          (fun _ _ _ drafted => own.deliveries.owner drafted) own.attempt own.intent
  known world phase me stmt choice reply world' _ done := exec_known done
  close world phase me inv := inv.leave
  crash world phase me inv := inv.leave
  outside world phase change inv := by
    cases change <;> exact ⟨inv.logs, inv.deliveries, inv.attempt, inv.intent⟩

/-- The states that workers, sweeps, failures and crashes lead to, once every session has
ended or crashed. -/
def BetweenRuns (world : World) : Prop :=
  ∃ first requests actions config, Fresh first ∧ (start first requests).run actions = some config ∧
    (∀ me, config.pool me = none) ∧ config.world = world

theorem Fresh.between {world : World} (fresh : Fresh world) : BetweenRuns world :=
  ⟨world, fun _ => none, [], _, fresh, rfl, fun _ => rfl, rfl⟩

/-- No transaction is open. -/
structure AtRest (world : World) : Prop where
  logs : world.logs.Quiet
  deliveries : world.deliveries.Quiet
  attempt : ∀ me, world.attempt me = .idle
  intent : ∀ me, world.intent me = .own

/-- Once every session has ended or crashed no transaction is open. -/
theorem BetweenRuns.atRest {world : World} (between : BetweenRuns world) : AtRest world := by
  obtain ⟨first, requests, actions, config, fresh, reached, ended, rfl⟩ := between
  have begins : OpenDrafts first (startPhase requests) := by
    refine ⟨fun log owner version drafted => ?_, fun delivery owner version drafted => ?_,
      fun me _ => fresh.attempt me, fun me _ => fresh.intent me⟩
    · simp [fresh.logs log] at drafted
    · simp [fresh.deliveries delivery] at drafted
  obtain ⟨phase, inv, -, closed⟩ :=
    openDrafts_keeps.run (start_holds begins) (Config.meets_true _ actions) reached
  have gone : ∀ me, (phase me).connection = .gone := by
    intro me
    rw [closed me (ended me)]
  refine ⟨fun log => ?_, fun delivery => ?_, fun me => inv.attempt me (gone me),
    fun me => inv.intent me (gone me)⟩
  · cases drafted : (config.world.logs.slot log).draft with
    | none => rfl
    | some held => exact absurd (gone held.1) (inv.logs log held.1 held.2 drafted)
  · cases drafted : (config.world.deliveries.slot delivery).draft with
    | none => rfl
    | some held => exact absurd (gone held.1) (inv.deliveries delivery held.1 held.2 drafted)

/-! ## One session alone -/

/-- Only the session has drafts. -/
structure Working (me : SessionId) (world : World) : Prop where
  logs : world.logs.Only me
  deliveries : world.deliveries.Only me

/-- The session has no transaction open, and neither has anybody else. -/
structure Idle (me : SessionId) (world : World) : Prop where
  logs : world.logs.Quiet
  deliveries : world.deliveries.Quiet
  attempt : world.attempt me = .idle
  intent : world.intent me = .own

/-- Logs, subscriptions and preferences are as they were. -/
structure Beside (before after : World) : Prop where
  logs : after.logs = before.logs
  subscriptions : after.subscriptions = before.subscriptions
  preferences : after.preferences = before.preferences
  intent : after.intent = before.intent
  acquirer : after.acquirer = before.acquirer

/-- What does not concern the rows of deliveries is as it was. -/
structure Aside (before after : World) : Prop extends Beside before after where
  history : after.history = before.history
  attempt : after.attempt = before.attempt

/-- The status of a delivery as the session sees it. -/
def seen (me : SessionId) (world : World) (delivery : DeliveryId) : Option DeliveryStatus :=
  (world.deliveries.row me delivery).map (·.status)

/-- What a delivery has come to for everybody. -/
def committedStatus (world : World) (delivery : DeliveryId) : Option DeliveryStatus :=
  (world.deliveries.committed delivery).map (·.status)

/-- The environment may let a statement raise. -/
def CanRaise (may : Choice → Prop) : Prop := ∃ choice, may choice ∧ choice.fails ≠ none

theorem not_canRaise : ¬ CanRaise fun choice => choice.fails = none := by
  rintro ⟨choice, never, raises⟩
  exact raises never

/-- Something was raised, and what is committed of the logs is as it was. -/
def Raised (me : SessionId) (may : Choice → Prop) (before : World) (_ : Failure) (after : World) : Prop :=
  CanRaise may ∧ Working me after ∧ ∀ log, after.logs.committed log = before.logs.committed log

variable {me : SessionId} {may : Choice → Prop} {world world' : World} {α : Type}

theorem AtRest.idle (rest : AtRest world) (me : SessionId) : Idle me world :=
  ⟨rest.logs, rest.deliveries, rest.attempt me, rest.intent me⟩

theorem Idle.working (idle : Idle me world) : Working me world :=
  ⟨idle.logs.only, idle.deliveries.only⟩

theorem Idle.tick (idle : Idle me world) (seconds : Nat) : Idle me (world.tick seconds) :=
  ⟨idle.logs, idle.deliveries, idle.attempt, idle.intent⟩

theorem Working.tick (working : Working me world) (seconds : Nat) : Working me (world.tick seconds) :=
  ⟨working.logs, working.deliveries⟩

theorem Beside.trans {later : World} (first : Beside world world') (second : Beside world' later) :
    Beside world later where
  logs := second.logs.trans first.logs
  subscriptions := second.subscriptions.trans first.subscriptions
  preferences := second.preferences.trans first.preferences
  intent := second.intent.trans first.intent
  acquirer := second.acquirer.trans first.acquirer

theorem Aside.trans {later : World} (first : Aside world world') (second : Aside world' later) :
    Aside world later where
  toBeside := first.toBeside.trans second.toBeside
  history := second.history.trans first.history
  attempt := second.attempt.trans first.attempt

theorem beside_refl (world : World) : Beside world world := ⟨rfl, rfl, rfl, rfl, rfl⟩

theorem Aside.refl (world : World) : Aside world world := ⟨beside_refl world, rfl, rfl⟩

theorem aside_tick (world : World) (seconds : Nat) : Aside world (world.tick seconds) :=
  ⟨⟨rfl, rfl, rfl, rfl, rfl⟩, rfl, rfl⟩

/-- An exception that is raised later has still changed no committed log, if the statements before it
have not. -/
theorem Raised.of_same {reason : Failure} {after : World} (raised : Raised me may world' reason after)
    (same : ∀ log, world'.logs.committed log = world.logs.committed log) :
    Raised me may world reason after :=
  ⟨raised.1, raised.2.1, fun log => (raised.2.2 log).trans (same log)⟩

/-- One statement of a session alone: it answers, or it raises and only the history of
the provider calls tells of it. -/
theorem ask_alone (stmt : Stmt) {Q : Reply stmt → World → Prop} (working : Working me world)
    (answers : ∀ choice seconds, ∃ reply after,
      answer me stmt choice (world.tick seconds) = some (reply, after) ∧ Q reply after) :
    (ask stmt).Ensures (machine.alone me may) Q (Raised me may world) world := by
  refine (Program.ensures_issue world).mpr ⟨?_, ?_, ?_⟩
  · intro choice _
    obtain ⟨reply, after, done, -⟩ := answers choice choice.elapsed
    simp only [machine, Source.ScheduledPush.exec]
    split
    · rfl
    · simp [done]
  · rintro reply after ⟨choice, -, done⟩
    obtain ⟨_, _, done', holds⟩ := answers choice choice.elapsed
    rcases exec_cases done with ⟨reason, -, same, -⟩ | ⟨answered, -, same, answered_⟩
    · cases same
    · cases same
      rw [done'] at answered_
      cases answered_
      exact holds
  · rintro reason after ⟨choice, allowed, done⟩
    rcases exec_cases done with ⟨_, fails, -, rfl⟩ | ⟨answered, -, same, -⟩
    · obtain ⟨logs, deliveries, -, -⟩ := failed_same stmt (world.tick choice.elapsed)
      refine ⟨⟨choice, allowed, by simp [fails]⟩, ⟨?_, ?_⟩, fun log => by rw [logs]; rfl⟩
      · rw [logs]
        exact working.logs
      · rw [deliveries]
        exact working.deliveries
    · cases same

theorem seen_of_idle (idle : Idle me world) (delivery : DeliveryId) :
    seen me world delivery = (world.deliveries.committed delivery).map (·.status) := by
  rw [seen, idle.deliveries.row_eq]

/-- A statement on one delivery changes its status, as the session sees it, by `change`. -/
def Changes (me : SessionId) (change : Option DeliveryStatus → Option DeliveryStatus)
    (targets : List DeliveryId) (before after : World) : Prop :=
  Working me after ∧ Aside before after ∧
    ∀ delivery, seen me after delivery =
      if delivery ∈ targets then change (seen me before delivery) else seen me before delivery

/-- The loop of such statements over candidates. -/
theorem forEach_changes {ι : Type} {change : Option DeliveryStatus → Option DeliveryStatus}
    (again : ∀ status, change (change status) = change status) (key : ι → DeliveryId)
    {body : ι → Push Unit}
    (each : ∀ item world, Working me world → (body item).Ensures (machine.alone me may)
      (fun _ => Changes me change [key item] world) (Raised me may world) world)
    (items : List ι) (working : Working me world) :
    (forEach body items).Ensures (machine.alone me may)
      (fun _ => Changes me change (items.map key) world) (Raised me may world) world := by
  refine ensures_forEach (fun done => Changes me change (done.map key) world) items []
    ⟨working, Aside.refl world, by simp⟩ fun item _ done current begun => ?_
  obtain ⟨now, aside, status⟩ := begun
  refine (each item current now).weaken (fun _ after moved => ?_) fun _ _ raised =>
    raised.of_same fun log => by rw [aside.logs]
  obtain ⟨still, further, moved⟩ := moved
  refine ⟨still, aside.trans further, fun delivery => ?_⟩
  rw [moved, status]
  by_cases here : delivery = key item
  · have all : key item ∈ (done ++ [item]).map key := by simp
    rw [here, if_pos (List.mem_singleton.mpr rfl), if_pos all]
    split
    · exact again _
    · rfl
  · simp [here]

/-- One `UPDATE` of a delivery, when the new status depends on the old one alone. -/
theorem updateDelivery_changes (delivery : DeliveryId) (cond : ScheduledNotificationDelivery → Bool)
    (modify : ScheduledNotificationDelivery → ScheduledNotificationDelivery)
    (change : Option DeliveryStatus → Option DeliveryStatus) (working : Working me world)
    (absent : change none = none)
    (hit : ∀ row, cond row = true → change (some row.status) = some (modify row).status)
    (miss : ∀ row, cond row = false → change (some row.status) = some row.status) :
    ∃ after, updateDelivery me delivery cond modify world = some ((), after) ∧
      Changes me change [delivery] world after := by
  have unchanged : (∀ row, world.deliveries.row me delivery = some row → cond row = false) →
      Changes me change [delivery] world world := by
    intro misses
    refine ⟨working, Aside.refl world, fun other => ?_⟩
    by_cases here : other = delivery
    · subst here
      cases row : world.deliveries.row me other with
      | none => simp [seen, row, absent]
      | some version => simp [seen, row, miss version (misses version row)]
    · simp [here]
  simp only [updateDelivery, working.deliveries.updateRow]
  cases row : world.deliveries.row me delivery with
  | none => exact ⟨world, rfl, unchanged fun version found => by rw [row] at found; cases found⟩
  | some version =>
    cases accepted : cond version with
    | false =>
      refine ⟨world, by simp [accepted], unchanged fun other found => ?_⟩
      rw [row] at found
      cases found
      exact accepted
    | true =>
      refine ⟨{ world with deliveries := world.deliveries.write me delivery (some (modify version)) },
        by simp [accepted], ⟨working.logs, working.deliveries.write _ _⟩,
        ⟨⟨rfl, rfl, rfl, rfl, rfl⟩, rfl, rfl⟩, fun other => ?_⟩
      simp only [seen, Table.row_write, List.mem_singleton]
      by_cases here : other = delivery
      · subst here
        simp [row, hit version accepted]
      · simp [here]

/-- A statement that only reads. -/
theorem read_alone (stmt : Stmt) (value : Reply stmt) (working : Working me world)
    (answers : ∀ choice seconds,
      answer me stmt choice (world.tick seconds) = some (value, world.tick seconds)) :
    (ask stmt).Ensures (machine.alone me may)
      (fun reply after => reply = value ∧ ∃ seconds, after = world.tick seconds)
      (Raised me may world) world :=
  ask_alone stmt working fun choice seconds =>
    ⟨value, world.tick seconds, answers choice seconds, rfl, seconds, rfl⟩

theorem Raised.of_tick {seconds : Nat} {reason : Failure} {after : World}
    (raised : Raised me may (world.tick seconds) reason after) : Raised me may world reason after :=
  raised.of_same fun _ => rfl

theorem Changes.of_tick {change : Option DeliveryStatus → Option DeliveryStatus}
    {targets : List DeliveryId} {seconds : Nat} {after : World}
    (changes : Changes me change targets (world.tick seconds) after) :
    Changes me change targets world after :=
  ⟨changes.1, (aside_tick world seconds).trans changes.2.1, changes.2.2⟩

/-- Every delivery of the log goes through `change`. -/
def Across (me : SessionId) (logId : LogId) (change : String → Option DeliveryStatus → Option DeliveryStatus)
    (before after : World) : Prop :=
  Aside before after ∧ ∀ delivery, seen me after delivery =
    if delivery.log = logId then change delivery.endpointHash (seen me before delivery)
    else seen me before delivery

/-- A commit of a session alone. -/
theorem commit_alone (working : Working me world) :
    (ask .commit).Ensures (machine.alone me may)
      (fun _ after => ∃ seconds, after = (world.tick seconds).commit me) (Raised me may world) world :=
  ask_alone .commit working fun _ seconds => ⟨(), _, rfl, seconds, rfl⟩

theorem Working.commit_idle (working : Working me world) (attempt : world.attempt me = .idle) :
    Idle me (world.commit me) where
  logs := working.logs.commit_quiet
  deliveries := working.deliveries.commit_quiet
  attempt := by simp [World.commit, attempt, World.attemptCommitted]
  intent := by simp [World.commit]

/-- A commit shows to others what the session has seen already. -/
theorem Working.seen_commit (working : Working me world) (delivery : DeliveryId) :
    seen me (world.commit me) delivery = seen me world delivery := by
  have published := working.deliveries.commit_quiet.row_eq me delivery
  rw [working.deliveries.committed_commit] at published
  exact congrArg _ published

/-- A commit that publishes deliveries only. -/
theorem commit_aside (logs : world.logs.Quiet) (attempt : world.attempt me = .idle)
    (intent : world.intent me = .own) : Aside world (world.commit me) where
  logs := logs.commit_eq
  subscriptions := rfl
  preferences := rfl
  history := by simp [World.commit, attempt, World.attemptNews]
  attempt := by
    simp only [World.commit, attempt, World.attemptCommitted]
    exact Function.update_eq_self_iff.mpr attempt.symm
  intent := Function.update_eq_self_iff.mpr intent.symm
  acquirer := funext fun log => World.commit_acquirer_of_not_mine fun version drafted => by
    simp [logs log] at drafted

/-- The commit that ends a transaction over deliveries. -/
theorem commit_across {logId : LogId} {change : String → Option DeliveryStatus → Option DeliveryStatus}
    {before : World} (idle : Idle me before) (working : Working me world)
    (changed : Across me logId change before world) :
    (ask .commit).Ensures (machine.alone me may)
      (fun _ after => Idle me after ∧ Across me logId change before after) (Raised me may before) world := by
  obtain ⟨aside, status⟩ := changed
  have attempt : world.attempt me = .idle := by rw [aside.attempt]; exact idle.attempt
  have intent : world.intent me = .own := by rw [aside.intent]; exact idle.intent
  have logs : world.logs.Quiet := by rw [aside.logs]; exact idle.logs
  refine (commit_alone working).weaken ?_ fun _ _ raised => raised.of_same fun log => by rw [aside.logs]
  rintro _ _ ⟨seconds, rfl⟩
  have ticked := working.tick seconds
  refine ⟨ticked.commit_idle attempt, ?_, fun delivery => ?_⟩
  · exact (aside.trans (aside_tick world seconds)).trans (commit_aside logs attempt intent)
  · rw [ticked.seen_commit, ← status]
    rfl

/-! ## Deliveries of a log -/

section Deliveries

variable {logId : LogId}

/-- `in_progress` becomes `unknown`. -/
def expired : Option DeliveryStatus → Option DeliveryStatus
  | some .inProgress => some .unknown
  | other => other

/-- `pending` and `failed` become `abandoned`. -/
def abandoned : Option DeliveryStatus → Option DeliveryStatus
  | some .pending | some .failed => some .abandoned
  | other => other

/-- A missing delivery becomes `pending`. -/
def prepared : Option DeliveryStatus → Option DeliveryStatus
  | none => some .pending
  | other => other

/-- An abandonment concerns its delivery only, or raises and commits nothing. -/
theorem abandonDelivery_alone (delivery : DeliveryId) (working : Working me world) :
    (ask (.abandonDelivery delivery)).Ensures (machine.alone me may)
      (fun _ => Changes me abandoned [delivery] world) (Raised me may world) world := by
  refine ask_alone _ working fun choice seconds => ?_
  obtain ⟨after, done, changes⟩ := updateDelivery_changes delivery isClaimable
    (fun row => { row with status := .abandoned, finishedAt := some (world.tick seconds).clock })
    abandoned (working.tick seconds) rfl
    (fun row claimable => by cases status : row.status <;> simp_all [isClaimable, abandoned])
    (fun row other => by cases status : row.status <;> simp_all [isClaimable, abandoned])
  exact ⟨(), after, done, changes.of_tick⟩

/-- An insert prepares its delivery, and leaves one that is there. -/
theorem insertDelivery_alone (delivery : DeliveryId) (working : Working me world) :
    (ask (.insertDelivery delivery)).Ensures (machine.alone me may)
      (fun _ => Changes me prepared [delivery] world) (Raised me may world) world := by
  refine ask_alone _ working fun choice seconds => ?_
  have inserted := working.deliveries.insertRow delivery
    { status := .pending, statusCode := none, attempts := 0, claimedAt := none, finishedAt := none }
  cases row : world.deliveries.row me delivery with
  | some version =>
    refine ⟨(), world.tick seconds, ?_, working.tick seconds, aside_tick world seconds, fun other => ?_⟩
    · simp [answer, World.tick, inserted, row]
    · by_cases here : other = delivery
      · subst here
        simp [seen, World.tick, row, prepared]
      · simp [seen, World.tick, here]
  | none =>
    refine ⟨(), { world.tick seconds with deliveries := world.deliveries.write me delivery (some
      { status := .pending, statusCode := none, attempts := 0, claimedAt := none, finishedAt := none }) },
      ?_, ⟨working.logs, working.deliveries.write _ _⟩, ⟨⟨rfl, rfl, rfl, rfl, rfl⟩, rfl, rfl⟩, fun other => ?_⟩
    · simp [answer, World.tick, inserted, row]
    · simp only [seen, Table.row_write]
      by_cases here : other = delivery
      · subst here
        simp [row, prepared]
      · simp [here]

theorem expired_idem (status : Option DeliveryStatus) : expired (expired status) = expired status := by
  cases status with
  | none => rfl
  | some status => cases status <;> rfl

theorem abandoned_idem (status : Option DeliveryStatus) :
    abandoned (abandoned status) = abandoned status := by
  cases status with
  | none => rfl
  | some status => cases status <;> rfl

theorem prepared_idem (status : Option DeliveryStatus) : prepared (prepared status) = prepared status := by
  cases status <;> rfl

/-- The deliveries of a log in some states. -/
theorem selectDeliveries_alone (logId : LogId) (statuses : List DeliveryStatus) (working : Working me world) :
    (ask (.selectDeliveries logId statuses)).Ensures (machine.alone me may)
      (fun rows after => (∀ delivery, delivery ∈ rows ↔
        delivery.log = logId ∧ ∃ status ∈ statuses, seen me world delivery = some status) ∧
          ∃ seconds, after = world.tick seconds)
      (Raised me may world) world := by
  refine Ensures.weaken (read_alone (.selectDeliveries logId statuses) (world.deliveries.select me fun id row =>
    id.log = logId ∧ row.status ∈ statuses) working fun _ _ => rfl) ?_ fun _ _ raised => raised
  rintro rows after ⟨rfl, passed⟩
  refine ⟨fun delivery => ?_, passed⟩
  simp only [Table.mem_select, decide_eq_true_eq, seen, Option.map_eq_some_iff]
  constructor
  · rintro ⟨version, found, ofLog, member⟩
    exact ⟨ofLog, version.status, member, version, found, rfl⟩
  · rintro ⟨ofLog, status, member, version, found, rfl⟩
    exact ⟨version, found, ofLog, member⟩

/-- `.values(status="unknown", status_code=None, finished_at=now())` of a claim that is open. -/
def expiredRow (now : Nat) (row : ScheduledNotificationDelivery) : ScheduledNotificationDelivery :=
  if row.status = .inProgress then { row with status := .unknown, statusCode := none, finishedAt := some now }
  else row

theorem expiredRow_again (now later : Nat) (row : ScheduledNotificationDelivery) :
    expiredRow later (expiredRow now row) = expiredRow now row := by
  by_cases running : row.status = .inProgress
  · have settled : ((expiredRow now row).status = .inProgress) = False := by simp [expiredRow, running]
    rw [expiredRow, if_neg (by simp [settled])]
  · simp [expiredRow, running]

theorem status_expiredRow (now : Nat) (row : Option ScheduledNotificationDelivery) :
    (row.map (expiredRow now)).map (·.status) = expired (row.map (·.status)) := by
  cases row with
  | none => rfl
  | some row => cases status : row.status <;> simp [expiredRow, expired, status]

/-- A delivery that is worked off twice is as the first time left it. -/
theorem expired_twice {first second third : Option ScheduledNotificationDelivery}
    (one : ∃ now, second = first.map (expiredRow now)) (two : ∃ now, third = second.map (expiredRow now)) :
    ∃ now, third = first.map (expiredRow now) := by
  obtain ⟨now, rfl⟩ := one
  obtain ⟨later, rfl⟩ := two
  refine ⟨now, ?_⟩
  rw [Option.map_map]
  exact congrArg (fun change => Option.map change first) (funext fun row => expiredRow_again now later row)

/-- The rows of these deliveries have been worked off, the others are as they were. -/
structure Expired (me : SessionId) (deliveries : List DeliveryId) (before after : World) : Prop where
  working : Working me after
  aside : Aside before after
  rows : ∀ delivery ∈ deliveries,
    ∃ now, after.deliveries.row me delivery = (before.deliveries.row me delivery).map (expiredRow now)
  others : ∀ delivery, delivery ∉ deliveries →
    after.deliveries.row me delivery = before.deliveries.row me delivery

/-- Deliveries that expire one after the other have expired together. -/
theorem Expired.trans {one two : List DeliveryId} {middle after : World} (earlier : Expired me one world middle)
    (later : Expired me two middle after) : Expired me (one ++ two) world after where
  working := later.working
  aside := earlier.aside.trans later.aside
  rows delivery member := by
    by_cases again : delivery ∈ two
    · by_cases before : delivery ∈ one
      · exact expired_twice (earlier.rows delivery before) (later.rows delivery again)
      · rw [← earlier.others delivery before]
        exact later.rows delivery again
    · rw [later.others delivery again]
      exact earlier.rows delivery ((List.mem_append.mp member).resolve_right again)
  others delivery absent := by
    rw [List.mem_append, not_or] at absent
    rw [later.others delivery absent.2, earlier.others delivery absent.1]

/-- An expiry works off the row of its delivery and leaves every other one. -/
theorem expireClaim_rows (delivery : DeliveryId) (working : Working me world) :
    (ask (.expireClaim delivery)).Ensures (machine.alone me may)
      (fun _ after => Expired me [delivery] world after) (Raised me may world) world := by
  refine ask_alone _ working fun choice seconds => ?_
  obtain ⟨deliveries, updated, only, rows⟩ := working.deliveries.updateRow_rows delivery
    (fun row => row.status = .inProgress)
    fun row => { row with status := .unknown, statusCode := none, finishedAt := some (world.tick seconds).clock }
  refine ⟨(), { world.tick seconds with deliveries }, ?_, ⟨working.logs, only⟩,
    ⟨⟨rfl, rfl, rfl, rfl, rfl⟩, rfl, rfl⟩, fun other listed => ⟨(world.tick seconds).clock, ?_⟩,
      fun other absent => ?_⟩
  · simp only [answer, updateDelivery, World.tick] at updated ⊢
    rw [updated]
    rfl
  · rw [rows, if_pos (List.mem_singleton.mp listed)]
    simp only [decide_eq_true_eq]
    rfl
  · rw [List.mem_singleton] at absent
    rw [rows, if_neg absent]

/-- All deliveries of the log are worked off: the statement passes by those whose claim is not open. -/
theorem expireClaims_rows (working : Working me world) :
    (expireClaims logId).Ensures (machine.alone me may)
      (fun _ after => Working me after ∧ Aside world after ∧
        (∀ delivery, delivery.log = logId →
          ∃ now, after.deliveries.row me delivery = (world.deliveries.row me delivery).map (expiredRow now)) ∧
        ∀ delivery, delivery.log ≠ logId →
          after.deliveries.row me delivery = world.deliveries.row me delivery)
      (Raised me may world) world := by
  unfold expireClaims
  rw [bind_eq, ensures_bind]
  refine (selectDeliveries_alone logId [.inProgress] working).weaken ?_ fun _ _ raised => raised
  rintro rows _ ⟨member, seconds, rfl⟩
  have begins : Expired me [] world (world.tick seconds) :=
    ⟨working.tick seconds, aside_tick world seconds, nofun, fun _ _ => rfl⟩
  refine Ensures.weaken (ensures_forEach (fun done => Expired me done world) rows [] begins ?_) ?_
    fun _ _ raised => raised
  · intro delivery _ done current expired_
    refine (expireClaim_rows delivery expired_.working).weaken (fun _ after here => expired_.trans here) ?_
    exact fun _ _ raised => raised.of_same fun log => by rw [expired_.aside.logs]
  · intro _ after expired_
    rw [List.nil_append] at expired_
    refine ⟨expired_.working, expired_.aside, fun delivery ofLog => ?_, fun delivery other => ?_⟩
    · by_cases listed : delivery ∈ rows
      · exact expired_.rows delivery listed
      · rw [expired_.others delivery listed]
        have settled : seen me world delivery ≠ some .inProgress := fun running =>
          listed ((member delivery).mpr ⟨ofLog, .inProgress, List.mem_singleton_self _, running⟩)
        refine ⟨0, ?_⟩
        cases row : world.deliveries.row me delivery with
        | none => rfl
        | some version =>
          have done : version.status ≠ .inProgress := by simpa [seen, row] using settled
          rw [Option.map_some, expiredRow, if_neg done]
    · exact expired_.others delivery fun listed => other ((member delivery).mp listed).1

/-- The statement as far as the states of the deliveries go. -/
theorem expireClaims_alone (working : Working me world) :
    (expireClaims logId).Ensures (machine.alone me may)
      (fun _ after => Working me after ∧ Across me logId (fun _ => expired) world after)
      (Raised me may world) world := by
  refine (expireClaims_rows working).weaken ?_ fun _ _ raised => raised
  rintro _ after ⟨now, aside, rows, others⟩
  refine ⟨now, aside, fun delivery => ?_⟩
  by_cases ofLog : delivery.log = logId
  · obtain ⟨finished, row⟩ := rows delivery ofLog
    rw [if_pos ofLog, seen, row, status_expiredRow, seen]
  · rw [if_neg ofLog, seen, others delivery ofLog, seen]

/-- What `ensure_deliveries` makes of a delivery of its log. -/
def ensured (hashes : List String) (hash : String) (status : Option DeliveryStatus) : Option DeliveryStatus :=
  if hash ∈ cleanHashes hashes then prepared status else abandoned status

/-- The deliveries of the hashes are prepared, the other ones of the log abandoned, and those of other
logs left. -/
theorem ensureDeliveries_alone (hashes : List String) (idle : Idle me world) :
    (ensureDeliveries logId hashes).Ensures (machine.alone me may)
      (fun _ after => Idle me after ∧ Across me logId (ensured hashes) world after)
      (Raised me may world) world := by
  unfold ensureDeliveries
  simp only [bind_eq, ensures_bind]
  refine (selectDeliveries_alone logId _ idle.working).weaken ?_ fun _ _ raised => raised
  rintro rows _ ⟨member, seconds, rfl⟩
  have given_up : ∀ delivery, delivery ∈ rows.filter
    (fun delivery => delivery.endpointHash ∉ cleanHashes hashes) ↔
      delivery.log = logId ∧ delivery.endpointHash ∉ cleanHashes hashes ∧
        (seen me world delivery = some .pending ∨ seen me world delivery = some .failed) := by
    intro delivery
    simp only [List.mem_filter, member, decide_eq_true_eq]
    simp
    tauto
  refine Ensures.weaken (forEach_changes abandoned_idem (fun delivery => delivery)
    (fun delivery current now => abandonDelivery_alone delivery now) _ (idle.working.tick seconds))
    (fun _ middle moved => ?_) fun _ _ raised => raised.of_tick
  obtain ⟨now, aside, status⟩ := moved.of_tick
  simp only [List.map_id', given_up] at status
  have given : Across me logId (fun hash status => if hash ∈ cleanHashes hashes then status else abandoned status)
      world middle := by
    refine ⟨aside, fun delivery => ?_⟩
    rw [status]
    by_cases kept : delivery.endpointHash ∈ cleanHashes hashes
    · simp [kept]
    · by_cases open_ : seen me world delivery = some .pending ∨ seen me world delivery = some .failed
      · simp [kept, open_]
      · have same : abandoned (seen me world delivery) = seen me world delivery := by
          cases here : seen me world delivery with
          | none => rfl
          | some state => cases state <;> simp_all [abandoned]
        simp [kept, open_, same]
  split
  · next empty =>
    refine commit_across idle now ⟨given.1, fun delivery => ?_⟩
    rw [given.2]
    simp [ensured, empty]
  · rw [ensures_bind]
    refine Ensures.weaken (forEach_changes prepared_idem (fun hash => ⟨logId, hash⟩)
      (fun hash current ready => insertDelivery_alone ⟨logId, hash⟩ ready) _ now)
      (fun _ last added => ?_) fun _ _ raised => raised.of_same fun log => by rw [given.1.logs]
    obtain ⟨ready, further, filled⟩ := added
    refine commit_across idle ready ⟨given.1.trans further, fun delivery => ?_⟩
    have listed : delivery ∈ (cleanHashes hashes).map (fun hash => (⟨logId, hash⟩ : DeliveryId)) ↔
        delivery.log = logId ∧ delivery.endpointHash ∈ cleanHashes hashes := by
      simp only [List.mem_map]
      constructor
      · rintro ⟨hash, present, rfl⟩
        exact ⟨rfl, present⟩
      · rintro ⟨ofLog, present⟩
        exact ⟨delivery.endpointHash, present, by rw [← ofLog]⟩
    simp only [filled, listed, given.2, ensured]
    by_cases ofLog : delivery.log = logId
    · by_cases kept : delivery.endpointHash ∈ cleanHashes hashes <;> simp [ofLog, kept]
    · simp [ofLog]

/-- The deliveries of a log in some states, as a session sees them. -/
theorem mem_select_states {deliveries : Table DeliveryId ScheduledNotificationDelivery} {log : LogId}
    {states : DeliveryStatus → Bool} {delivery : DeliveryId} :
    delivery ∈ deliveries.select me (fun id row => id.log = log ∧ states row.status = true) ↔
      delivery.log = log ∧ ∃ status, (deliveries.row me delivery).map (·.status) = some status ∧
        states status = true := by
  simp only [Table.mem_select, decide_eq_true_eq, Option.map_eq_some_iff]
  constructor
  · rintro ⟨row, found, ofLog, counts⟩
    exact ⟨ofLog, row.status, ⟨row, found, rfl⟩, counts⟩
  · rintro ⟨ofLog, _, ⟨row, found, rfl⟩, counts⟩
    exact ⟨row, found, ofLog, counts⟩

/-- States that do not tell an open claim from an unknown delivery count the same after a claim was given up. -/
theorem length_select_expired {me' : SessionId}
    {deliveries deliveries' : Table DeliveryId ScheduledNotificationDelivery}
    (same : ∀ delivery, (deliveries'.row me' delivery).map (·.status) =
      (deliveries.row me delivery).map (·.status) ∨
      (deliveries'.row me' delivery).map (·.status) = expired ((deliveries.row me delivery).map (·.status)))
    (log : LogId) (states : DeliveryStatus → Bool) (closed : states .inProgress = states .unknown) :
    (deliveries'.select me' fun id row => id.log = log ∧ states row.status = true).length =
      (deliveries.select me fun id row => id.log = log ∧ states row.status = true).length := by
  have members (delivery : DeliveryId) :
      (∃ status, (deliveries'.row me' delivery).map (·.status) = some status ∧ states status = true) ↔
        ∃ status, (deliveries.row me delivery).map (·.status) = some status ∧ states status = true := by
    rcases same delivery with equal | given_up
    · rw [equal]
    · rw [given_up]
      cases (deliveries.row me delivery).map (·.status) with
      | none => rfl
      | some status => cases status <;> simp [expired, closed]
  refine ((List.perm_ext_iff_of_nodup ?_ ?_).mpr fun delivery => ?_).length_eq
  · exact deliveries'.nodup.filter _
  · exact deliveries.nodup.filter _
  · rw [mem_select_states, mem_select_states, members]

/-- An expired claim counts as an open one does, so the counts stay. -/
theorem deliveryCounts_eq_of_expired {me' : SessionId}
    {deliveries deliveries' : Table DeliveryId ScheduledNotificationDelivery}
    (same : ∀ delivery, (deliveries'.row me' delivery).map (·.status) =
      (deliveries.row me delivery).map (·.status) ∨
      (deliveries'.row me' delivery).map (·.status) = expired ((deliveries.row me delivery).map (·.status))) :
    deliveryCounts me' deliveries' = deliveryCounts me deliveries := by
  funext log
  have accepted := length_select_expired same log (fun status => status = .completed) rfl
  have failed := length_select_expired same log
    (fun status => status ∈ [.pending, .inProgress, .failed, .unknown]) rfl
  simp only [decide_eq_true_eq] at accepted failed
  rw [deliveryCounts, deliveryCounts, accepted, failed]

end Deliveries

end SogeconApp.Guarantees.ScheduledPush
