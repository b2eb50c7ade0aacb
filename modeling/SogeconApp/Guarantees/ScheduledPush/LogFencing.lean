import SogeconApp.Guarantees.ScheduledPush.AtMostOnce

/-!
# Who may write a log

A worker owns a log from the commit of its conditional upsert on. The finishing writes
address the log by its id alone, so ownership is respected only as long as no stale
sweep takes the log of a worker that is still there. Under that condition every change
of a log's status, counters and `sent_at` is its latest acquirer's or a sweep's; without
it a slow worker overwrites the run that came after it.
-/

namespace SogeconApp.Guarantees.ScheduledPush

open Library Program Source.ScheduledPush

/-! ## What must never happen -/

/-- What only the owner of a log may change. -/
def outcome (world : World) (log : LogId) : Option (LogStatus × Nat × Nat × Option Nat) :=
  (world.logs.committed log).map fun row => (row.status, row.acceptedCount, row.failedCount, row.sentAt)

/-- A step that changes a log is a step of its latest acquirer, or of a stale sweep. -/
def Fenced (before : World) (action : Action machine) (after : World) : Prop :=
  ∀ log, outcome after log ≠ outcome before log →
    ∃ me choice, action = .exec me choice ∧ (after.acquirer log = some me ∨ before.intent me = .reclaim)

/-- A sweep takes a log only when the session that acquired it last has ended. -/
def SweepsEnded (world : World) (me : SessionId) (stmt : Stmt) (_choice : Choice) : Prop :=
  match stmt with
  | .takeStaleLog log cutoff | .lockStaleLog log cutoff =>
    world.logs.holds me log (isStale cutoff) = true →
      ∀ acquirer, world.acquirer log = some acquirer → world.gone acquirer = true
  | _ => True

instance (world : World) (me : SessionId) (stmt : Stmt) (choice : Choice) :
    Decidable (SweepsEnded world me stmt choice) := by
  cases stmt
  all_goals
    unfold SweepsEnded
    infer_instance

/-! ## The invariant -/

namespace LogPhase

def owned : LogPhase → Option LogId
  | .owner log | .closing log => some log
  | _ => none

def intent : LogPhase → LogIntent
  | .acquiring _ => .acquire
  | .reclaiming _ => .reclaim
  | _ => .own

/-- The phase holds the row lock of the log. -/
def Locks (log : LogId) : LogPhase → Prop
  | .acquiring acquired => acquired = log
  | .reclaiming logs => log ∈ logs
  | _ => False

end LogPhase

def Held (committed : Option ScheduledNotificationLog) : Prop :=
  ∃ row, committed = some row ∧ (row.status = .pending ∨ row.status = .inProgress)

def Takeable (committed : Option ScheduledNotificationLog) : Prop :=
  ∀ row, committed = some row → row.status = .failed

/-- What the upsert stores is pending, in the place of no row or of a failed one. -/
theorem acquiredLog_some {now scheduledAt : Nat} {visible : Option ScheduledNotificationLog}
    {row : ScheduledNotificationLog} (acquired : acquiredLog now scheduledAt visible = some row) :
    Takeable visible ∧ row.status = .pending := by
  unfold acquiredLog at acquired
  split at acquired
  · cases acquired
    exact ⟨nofun, rfl⟩
  · split at acquired
    · next stored failed =>
      cases acquired
      refine ⟨fun other same => ?_, rfl⟩
      cases same
      exact failed
    · cases acquired

theorem Held.not_takeable {committed : Option ScheduledNotificationLog} (held : Held committed)
    (takeable : Takeable committed) : False := by
  obtain ⟨row, present, status⟩ := held
  have failed := takeable row present
  rcases status with status | status <;> simp [status] at failed

def Ownerless (world : World) (log : LogId) : Prop :=
  ∀ acquirer, world.acquirer log = some acquirer → world.gone acquirer = true

/-- What an uncommitted version of a log can be. -/
inductive LogShape (world : World) (phase : LogPhase) (log : LogId) (version : ScheduledNotificationLog) :
    Prop where
  | acquiring (mine : phase = .acquiring log) (takeable : Takeable (world.logs.committed log))
      (status : version.status = .pending)
  | keeping (mine : phase = .owner log) (status : version.status = .pending ∨ version.status = .inProgress)
  | closing (mine : phase = .closing log)
  | reclaiming (logs : List LogId) (mine : phase = .reclaiming logs) (member : log ∈ logs)
      (ownerless : Ownerless world log)

structure LogInv (world : World) (phase : SessionId → Phase) : Prop where
  owned : ∀ me log, (phase me).log.owned = some log →
    world.acquirer log = some me ∧ world.gone me = false ∧ Held (world.logs.committed log)
  locks : ∀ me log, (phase me).log.Locks log → ∃ version, (world.logs.slot log).draft = some (me, version)
  drafts : ∀ log owner version, (world.logs.slot log).draft = some (owner, version) →
    ∃ row, version = some row ∧ LogShape world (phase owner).log log row
  intents : ∀ me, world.intent me = (phase me).log.intent
  gone : ∀ me, world.gone me = true → (phase me).connection = .gone

section Steps

variable {world world' : World} {phase : SessionId → Phase} {me : SessionId} {log : LogId} {after : Phase}

theorem LogInv.intents_update (inv : LogInv world phase)
    (intent : world'.intent = Function.update world.intent me after.log.intent)
    (other : SessionId) :
    world'.intent other = (Function.update phase me after other).log.intent := by
  rw [intent]
  by_cases equal : other = me
  · rw [equal, Function.update_self, Function.update_self]
  · rw [Function.update_of_ne equal, Function.update_of_ne equal]
    exact inv.intents other

/-- A session drafts a log only while it works on one. -/
theorem LogShape.inside {version : ScheduledNotificationLog} :
    ¬LogShape world .outside log version := by
  intro shape
  cases shape with
  | acquiring mine _ _ => cases mine
  | keeping mine _ => cases mine
  | closing mine => cases mine
  | reclaiming _ mine _ _ => cases mine

/-- A shape looks at the committed logs, the acquirers and the ended sessions only. -/
theorem LogShape.transfer {stage : LogPhase} {version : ScheduledNotificationLog}
    (shape : LogShape world stage log version)
    (committed : world'.logs.committed log = world.logs.committed log)
    (acquirer : world'.acquirer log = world.acquirer log)
    (gone : ∀ other, world.gone other = true → world'.gone other = true) :
    LogShape world' stage log version := by
  cases shape with
  | acquiring mine takeable status => exact .acquiring mine (by rw [committed]; exact takeable) status
  | keeping mine status => exact .keeping mine status
  | closing mine => exact .closing mine
  | reclaiming logs mine member ownerless =>
    refine .reclaiming logs mine member fun other acquired => gone other (ownerless other ?_)
    rw [← acquirer]
    exact acquired

theorem LogInv.neutral {phase' : SessionId → Phase} (inv : LogInv world phase)
    (logs : world'.logs = world.logs) (acquirer : world'.acquirer = world.acquirer)
    (intent : world'.intent = world.intent) (gone : world'.gone = world.gone)
    (same : ∀ other, (phase' other).log = (phase other).log)
    (ended : ∀ other, (phase other).connection = .gone → (phase' other).connection = .gone) :
    LogInv world' phase' where
  owned other target held := by
    rw [same] at held
    rw [acquirer, gone, logs]
    exact inv.owned other target held
  locks other target := by
    rw [same, logs]
    exact inv.locks other target
  drafts target owner version drafted := by
    rw [logs] at drafted
    obtain ⟨row, some_, shape⟩ := inv.drafts target owner version drafted
    refine ⟨row, some_, ?_⟩
    rw [same]
    exact shape.transfer (by rw [logs]) (by rw [acquirer]) fun other => by rw [gone]; exact id
  intents other := by
    rw [intent, same]
    exact inv.intents other
  gone other := by
    rw [gone]
    exact fun left => ended other (inv.gone other left)

theorem LogInv.tick (inv : LogInv world phase) (seconds : Nat) : LogInv (world.tick seconds) phase :=
  inv.neutral rfl rfl rfl rfl (fun _ => rfl) fun _ => id

/-- A step that leaves the logs and the log phase of its session alone. -/
theorem LogInv.still (inv : LogInv world phase) (logs : world'.logs = world.logs)
    (acquirer : world'.acquirer = world.acquirer) (intent : world'.intent = world.intent)
    (gone : world'.gone = world.gone) (here : (phase me).connection ≠ .gone)
    (same : after.log = (phase me).log) : LogInv world' (Function.update phase me after) := by
  refine inv.neutral logs acquirer intent gone (fun other => ?_) fun other left => ?_
  · by_cases equal : other = me
    · rw [equal, Function.update_self, same]
    · rw [Function.update_of_ne equal]
  · by_cases equal : other = me
    · rw [equal] at left
      exact absurd left here
    · rw [Function.update_of_ne equal]
      exact left

/-- A session drafts a version of a log. -/
theorem LogInv.draft (inv : LogInv world phase) {version : ScheduledNotificationLog}
    (logs : world'.logs = world.logs.write me log (some version))
    (acquirer : world'.acquirer = world.acquirer) (gone : world'.gone = world.gone)
    (intent : world'.intent = Function.update world.intent me after.log.intent)
    (unlocked : (world.logs.slot log).lockedFor me = false) (here : (phase me).connection ≠ .gone)
    (owned : ∀ target, after.log.owned = some target → (phase me).log.owned = some target)
    (shape : LogShape world after.log log version)
    (loose : ∀ other row, other ≠ log → LogShape world (phase me).log other row →
      LogShape world after.log other row)
    (locks : ∀ target, after.log.Locks target → target = log ∨ (phase me).log.Locks target) :
    LogInv world' (Function.update phase me after) := by
  have committed : ∀ target, world'.logs.committed target = world.logs.committed target := by
    intro target
    rw [logs, Table.write_committed]
  have moved : ∀ {stage : LogPhase} {target : LogId} {row : ScheduledNotificationLog},
      LogShape world stage target row → LogShape world' stage target row := fun shape =>
    shape.transfer (committed _) (by rw [acquirer]) fun other => by rw [gone]; exact id
  constructor
  · intro other target held
    rw [acquirer, gone, committed]
    by_cases equal : other = me
    · rw [equal, Function.update_self] at held
      rw [equal]
      exact inv.owned me target (owned target held)
    · rw [Function.update_of_ne equal] at held
      exact inv.owned other target held
  · intro other target holding
    rw [logs]
    by_cases here : target = log
    · by_cases equal : other = me
      · rw [here, equal]
        exact ⟨_, by rw [Table.write_slot_self]; rfl⟩
      · rw [Function.update_of_ne equal] at holding
        obtain ⟨latest, drafted⟩ := inv.locks other target holding
        rw [here] at drafted
        exact absurd (Slot.lockedFor_eq_false.mp unlocked other latest drafted) equal
    · rw [Table.write_slot_of_ne here]
      by_cases equal : other = me
      · rw [equal, Function.update_self] at holding
        rw [equal]
        exact inv.locks me target ((locks target holding).resolve_left here)
      · rw [Function.update_of_ne equal] at holding
        exact inv.locks other target holding
  · intro target owner latest drafted
    rw [logs] at drafted
    by_cases here : target = log
    · rw [here] at drafted ⊢
      simp only [Table.write_slot_self, Slot.write_draft, Option.some.injEq, Prod.mk.injEq] at drafted
      obtain ⟨rfl, rfl⟩ := drafted
      rw [Function.update_self]
      exact ⟨version, rfl, moved shape⟩
    · rw [Table.write_slot_of_ne here] at drafted
      obtain ⟨row, some_, before⟩ := inv.drafts target owner latest drafted
      refine ⟨row, some_, moved ?_⟩
      by_cases equal : owner = me
      · rw [equal] at before ⊢
        rw [Function.update_self]
        exact loose target row here before
      · rw [Function.update_of_ne equal]
        exact before
  · exact inv.intents_update intent
  · intro other left
    rw [gone] at left
    by_cases equal : other = me
    · rw [equal] at left
      exact absurd (inv.gone me left) here
    · rw [Function.update_of_ne equal]
      exact inv.gone other left

/-- A rollback, or the end of a session. -/
theorem LogInv.rollback (inv : LogInv world phase) (logs : world'.logs = world.logs.abort me)
    (acquirer : world'.acquirer = world.acquirer)
    (intent : world'.intent = Function.update world.intent me after.log.intent)
    (gone : ∀ other, world'.gone other = true ↔
      world.gone other = true ∨ other = me ∧ after.connection = .gone)
    (ended : (phase me).connection = .gone → after.connection = .gone)
    (owned : ∀ target, after.log.owned = some target →
      (phase me).log.owned = some target ∧ after.connection ≠ .gone)
    (unlocked : ∀ target, ¬ after.log.Locks target) :
    LogInv world' (Function.update phase me after) := by
  have committed : ∀ target, world'.logs.committed target = world.logs.committed target := by
    intro target
    rw [logs, Table.abort_committed]
  constructor
  · intro other target held
    rw [acquirer, committed]
    by_cases equal : other = me
    · rw [equal, Function.update_self] at held
      obtain ⟨before, present⟩ := owned target held
      obtain ⟨acquired, alive, running⟩ := inv.owned me target before
      rw [equal]
      refine ⟨acquired, ?_, running⟩
      cases left : world'.gone me with
      | false => rfl
      | true => rcases (gone me).mp left with left | left <;> simp_all
    · rw [Function.update_of_ne equal] at held
      obtain ⟨acquired, alive, running⟩ := inv.owned other target held
      refine ⟨acquired, ?_, running⟩
      cases left : world'.gone other with
      | false => rfl
      | true => rcases (gone other).mp left with left | left <;> simp_all
  · intro other target holding
    by_cases equal : other = me
    · rw [equal, Function.update_self] at holding
      exact absurd holding (unlocked target)
    · rw [Function.update_of_ne equal] at holding
      obtain ⟨version, drafted⟩ := inv.locks other target holding
      refine ⟨version, ?_⟩
      rw [logs]
      exact Slot.draft_abort_eq.mpr ⟨drafted, equal⟩
  · intro target owner version drafted
    rw [logs] at drafted
    obtain ⟨before, different⟩ := Slot.draft_abort_eq.mp drafted
    obtain ⟨row, some_, shape⟩ := inv.drafts target owner version before
    rw [Function.update_of_ne different]
    exact ⟨row, some_, shape.transfer (committed target) (by rw [acquirer])
      fun other left => (gone other).mpr (.inl left)⟩
  · exact inv.intents_update intent
  · intro other left
    by_cases equal : other = me
    · rw [equal, Function.update_self]
      rw [equal] at left
      rcases (gone me).mp left with before | ⟨-, closed⟩
      · exact ended (inv.gone me before)
      · exact closed
    · rw [Function.update_of_ne equal]
      rcases (gone other).mp left with before | ⟨same, -⟩
      · exact inv.gone other before
      · exact absurd same equal

theorem LogInv.leave (inv : LogInv world phase) :
    LogInv (world.leave me) (Function.update phase me { connection := .gone }) := by
  refine inv.rollback rfl rfl rfl (fun other => ?_) (fun _ => rfl) (fun target held => by cases held)
    fun target => id
  by_cases equal : other = me
  · simp [World.leave, equal]
  · simp [World.leave, World.rollback, equal]

/-- Nobody else's commit touches a log that a session owns. -/
theorem LogInv.not_drafted (inv : LogInv world phase) {other : SessionId} (different : other ≠ me)
    (owned : (phase other).log.owned = some log) :
    ∀ version, (world.logs.slot log).draft ≠ some (me, version) := by
  intro version drafted
  obtain ⟨acquired, alive, running⟩ := inv.owned other log owned
  obtain ⟨row, -, shape⟩ := inv.drafts log me version drafted
  have mine : (phase me).log.owned = some log → False := fun held => by
    have same := (inv.owned me log held).1
    rw [acquired] at same
    exact different (Option.some.inj same)
  cases shape with
  | acquiring _ takeable _ => exact running.not_takeable takeable
  | keeping held _ => exact mine (by rw [held]; rfl)
  | closing held => exact mine (by rw [held]; rfl)
  | reclaiming _ _ _ ownerless => simp [ownerless other acquired] at alive

/-- A commit hands a log over, keeps it, or lets it go. -/
theorem LogInv.commit (inv : LogInv world phase) (ready : (phase me).connection = .ready)
    (stage : after.log = (phase me).log.committed) :
    LogInv (world.commit me) (Function.update phase me after) := by
  have alive : world.gone me = false := by
    cases left : world.gone me with
    | false => rfl
    | true => simp [inv.gone me left] at ready
  constructor
  · intro other target held
    by_cases equal : other = me
    · rw [equal, Function.update_self, stage] at held
      rw [equal]
      cases before : (phase me).log with
      | outside => simp [before, LogPhase.committed, LogPhase.owned] at held
      | closing _ => simp [before, LogPhase.committed, LogPhase.owned] at held
      | reclaiming _ => simp [before, LogPhase.committed, LogPhase.owned] at held
      | acquiring acquired =>
        obtain rfl : acquired = target := by
          simpa [before, LogPhase.committed, LogPhase.owned] using held
        obtain ⟨version, drafted⟩ := inv.locks me acquired (by rw [before]; rfl)
        obtain ⟨row, rfl, shape⟩ := inv.drafts acquired me version drafted
        have intent : world.intent me = .acquire := by rw [inv.intents, before]; rfl
        refine ⟨?_, alive, row, Table.committed_commit_of_draft drafted, ?_⟩
        · rw [World.commit_acquirer_of_draft drafted, intent]
        · cases shape with
          | acquiring _ _ status => exact .inl status
          | keeping mine _ => simp [before] at mine
          | closing mine => simp [before] at mine
          | reclaiming _ mine _ _ => simp [before] at mine
      | owner mine =>
        obtain rfl : mine = target := by
          simpa [before, LogPhase.committed, LogPhase.owned] using held
        obtain ⟨acquired, -, running⟩ := inv.owned me mine (by rw [before]; rfl)
        have intent : world.intent me = .own := by rw [inv.intents, before]; rfl
        by_cases drafting : ∃ version, (world.logs.slot mine).draft = some (me, version)
        · obtain ⟨version, drafted⟩ := drafting
          obtain ⟨row, rfl, shape⟩ := inv.drafts mine me version drafted
          refine ⟨?_, alive, row, Table.committed_commit_of_draft drafted, ?_⟩
          · rw [World.commit_acquirer_of_draft drafted, intent]
            exact acquired
          · cases shape with
            | acquiring mine _ _ => simp [before] at mine
            | keeping _ status => exact status
            | closing mine => simp [before] at mine
            | reclaiming _ mine _ _ => simp [before] at mine
        · have untouched := fun version drafted => drafting ⟨version, drafted⟩
          refine ⟨?_, alive, ?_⟩
          · rw [World.commit_acquirer_of_not_mine untouched]
            exact acquired
          · change Held ((world.logs.commit me).committed mine)
            rw [Table.committed_commit_of_not_mine untouched]
            exact running
    · rw [Function.update_of_ne equal] at held
      have untouched := inv.not_drafted equal held
      rw [World.commit_acquirer_of_not_mine untouched]
      obtain ⟨acquired, present, running⟩ := inv.owned other target held
      refine ⟨acquired, present, ?_⟩
      change Held ((world.logs.commit me).committed target)
      rw [Table.committed_commit_of_not_mine untouched]
      exact running
  · intro other target holding
    by_cases equal : other = me
    · rw [equal, Function.update_self, stage] at holding
      cases before : (phase me).log <;> rw [before] at holding <;> exact holding.elim
    · rw [Function.update_of_ne equal] at holding
      obtain ⟨version, drafted⟩ := inv.locks other target holding
      exact ⟨version, Slot.draft_commit_eq.mpr ⟨drafted, equal⟩⟩
  · intro target owner version drafted
    obtain ⟨before, different⟩ := Slot.draft_commit_eq.mp drafted
    obtain ⟨row, some_, shape⟩ := inv.drafts target owner version before
    have theirs : ∀ latest, (world.logs.slot target).draft ≠ some (me, latest) := by
      intro latest mine
      rw [before] at mine
      cases mine
      exact different rfl
    rw [Function.update_of_ne different]
    exact ⟨row, some_, shape.transfer (Table.committed_commit_of_not_mine theirs)
      (World.commit_acquirer_of_not_mine theirs) fun _ => id⟩
  · intro other
    by_cases equal : other = me
    · rw [equal, Function.update_self, stage]
      have own : (phase me).log.committed.intent = .own := by
        cases (phase me).log <;> rfl
      rw [own]
      exact Function.update_self ..
    · rw [Function.update_of_ne equal, ← inv.intents other]
      exact Function.update_of_ne equal ..
  · intro other left
    have before := inv.gone other left
    by_cases equal : other = me
    · rw [equal] at before
      simp [before] at ready
    · rw [Function.update_of_ne equal]
      exact before

/-- What a session sees of a log: what is committed, or its own draft. -/
theorem LogInv.visible (inv : LogInv world phase) {found : Option ScheduledNotificationLog}
    (seen : world.logs.row me log = found) :
    world.logs.committed log = found ∨ ∃ row, found = some row ∧ LogShape world (phase me).log log row := by
  rcases world.logs.row_cases me log with committed | drafted
  · exact .inl (committed.trans seen)
  · rw [seen] at drafted
    exact .inr (inv.drafts log me found drafted)

/-- The owner of a log sees it held. -/
theorem LogInv.owner_sees (inv : LogInv world phase) (owner : (phase me).log = .owner log) :
    ∃ row, world.logs.row me log = some row ∧ (row.status = .pending ∨ row.status = .inProgress) := by
  obtain ⟨-, -, stored, present, running⟩ := inv.owned me log (by rw [owner]; rfl)
  rcases @LogInv.visible world phase me log inv _ rfl with committed | ⟨row, seen, shape⟩
  · exact ⟨stored, by rw [← committed, present], running⟩
  · refine ⟨row, seen, ?_⟩
    cases shape with
    | acquiring mine _ _ => simp [owner] at mine
    | keeping _ status => exact status
    | closing mine => simp [owner] at mine
    | reclaiming _ mine _ _ => simp [owner] at mine

/-- A sweep drafts a log that it takes. -/
theorem LogInv.take (inv : LogInv world phase) {version : ScheduledNotificationLog}
    (logs : world'.logs = world.logs.write me log (some version))
    (acquirer : world'.acquirer = world.acquirer) (gone : world'.gone = world.gone)
    (intent : world'.intent = Function.update world.intent me .reclaim)
    (unlocked : (world.logs.slot log).lockedFor me = false) (here : (phase me).connection ≠ .gone)
    (sweeping : (phase me).log.Sweeping) (ownerless : Ownerless world log)
    (stage : after.log = (phase me).log.reclaimed log) : LogInv world' (Function.update phase me after) := by
  cases before : (phase me).log with
  | outside =>
    rw [before] at stage
    refine inv.draft logs acquirer gone (by rw [intent, stage]; rfl) unlocked here ?_ ?_ ?_ ?_
    · intro target held
      simp [stage, LogPhase.reclaimed, LogPhase.owned] at held
    · rw [stage]
      exact .reclaiming [log] rfl (List.mem_singleton.mpr rfl) ownerless
    · intro other row _ shape
      rw [before] at shape
      cases shape with
      | acquiring mine _ _ => cases mine
      | keeping mine _ => cases mine
      | closing mine => cases mine
      | reclaiming _ mine _ _ => cases mine
    · intro target holding
      rw [stage] at holding
      exact .inl (List.mem_singleton.mp holding)
  | reclaiming taken =>
    rw [before] at stage
    refine inv.draft logs acquirer gone (by rw [intent, stage]; rfl) unlocked here ?_ ?_ ?_ ?_
    · intro target held
      simp [stage, LogPhase.reclaimed, LogPhase.owned] at held
    · rw [stage]
      exact .reclaiming (log :: taken) rfl List.mem_cons_self ownerless
    · intro other row _ shape
      rw [before] at shape
      rw [stage]
      cases shape with
      | acquiring mine _ _ => cases mine
      | keeping mine _ => cases mine
      | closing mine => cases mine
      | reclaiming logs mine member free =>
        cases mine
        exact .reclaiming (log :: taken) rfl (List.mem_cons_of_mem _ member) free
    · intro target holding
      rw [stage] at holding
      rw [before]
      exact List.mem_cons.mp holding
  | acquiring _ => rw [before] at sweeping; exact sweeping.elim
  | owner _ => rw [before] at sweeping; exact sweeping.elim
  | closing _ => rw [before] at sweeping; exact sweeping.elim

/-- The owner writes its log, to keep it or to close it. -/
theorem LogInv.own (inv : LogInv world phase) {version : ScheduledNotificationLog}
    (logs : world'.logs = world.logs.write me log (some version))
    (acquirer : world'.acquirer = world.acquirer) (gone : world'.gone = world.gone)
    (intent : world'.intent = world.intent)
    (unlocked : (world.logs.slot log).lockedFor me = false) (here : (phase me).connection ≠ .gone)
    (owner : (phase me).log = .owner log)
    (stage : after.log = .closing log ∨
      after.log = .owner log ∧ (version.status = .pending ∨ version.status = .inProgress)) :
    LogInv world' (Function.update phase me after) := by
  have own : world.intent me = .own := by rw [inv.intents, owner]; rfl
  refine inv.draft logs acquirer gone ?_ unlocked here ?_ ?_ ?_ ?_
  · have same : after.log.intent = .own := by rcases stage with stage | ⟨stage, -⟩ <;> rw [stage] <;> rfl
    rw [intent, same]
    exact (Function.update_eq_self_iff.mpr own.symm).symm
  · intro target held
    rw [owner]
    rcases stage with stage | ⟨stage, -⟩ <;> rw [stage] at held <;> exact held
  · rcases stage with stage | ⟨stage, status⟩
    · exact .closing stage
    · exact .keeping stage status
  · intro other row different shape
    rw [owner] at shape
    cases shape with
    | acquiring mine _ _ => cases mine
    | keeping mine _ => cases mine; exact absurd rfl different
    | closing mine => cases mine
    | reclaiming _ mine _ _ => cases mine
  · intro target holding
    rcases stage with stage | ⟨stage, -⟩ <;> rw [stage] at holding <;> exact holding.elim

/-- A run that is acquired is one that may be taken, and pending. -/
theorem LogInv.upsertLog (inv : LogInv world phase) {scheduledAt : Nat} {choice : Choice}
    {reply : Reply (.upsertLog log scheduledAt)} (allowed : (phase me).allow (.upsertLog log scheduledAt))
    (here : (phase me).connection ≠ .gone)
    (done : Source.ScheduledPush.answer me (.upsertLog log scheduledAt) choice world = some (reply, world')) :
    LogInv world' (Function.update phase me ((phase me).next (.upsertLog log scheduledAt) (.ok reply))) := by
  have outside : (phase me).log = .outside := (Phase.permitted allowed (by simp)).2
  simp only [Source.ScheduledPush.answer] at done
  split at done
  · cases done
  · next free =>
    split at done
    · next row acquired =>
      cases done
      have committed : world.logs.committed log = world.logs.row me log := by
        rcases @LogInv.visible world phase me log inv _ rfl with committed | ⟨version, -, shape⟩
        · exact committed
        · rw [outside] at shape
          exact absurd shape LogShape.inside
      obtain ⟨takeable, pending⟩ := acquiredLog_some acquired
      rw [← committed] at takeable
      refine inv.draft rfl rfl rfl rfl (by simpa using free) here ?_ (.acquiring rfl takeable pending) ?_ ?_
      · intro target held
        cases held
      · intro other version _ shape
        rw [outside] at shape
        exact absurd shape LogShape.inside
      · intro target holding
        exact .inl holding.symm
    · cases done
      exact inv.still rfl rfl rfl rfl here rfl

/-- The owner writes a row that goes on running, or closes it. -/
theorem LogInv.flushLog (inv : LogInv world phase) {loaded latest : ScheduledNotificationLog} {choice : Choice}
    {reply : Reply (.flushLog log loaded latest)} (allowed : (phase me).allow (.flushLog log loaded latest))
    (here : (phase me).connection ≠ .gone)
    (done : Source.ScheduledPush.answer me (.flushLog log loaded latest) choice world = some (reply, world')) :
    LogInv world' (Function.update phase me ((phase me).next (.flushLog log loaded latest) (.ok reply))) := by
  have owner : (phase me).log = .owner log := (Phase.permitted allowed (by simp)).2
  obtain ⟨row, seen, running⟩ := inv.owner_sees owner
  obtain ⟨⟨hit, world₁⟩, updated, same⟩ := Option.map_eq_some_iff.mp done
  cases same
  obtain ⟨logs, stored, rfl⟩ := updateLog_world updated
  obtain ⟨-, unlocked, rfl⟩ := Table.updateRow_of_row seen rfl stored
  refine inv.own rfl rfl rfl rfl unlocked here owner ?_
  simp only [Phase.next]
  split
  · exact .inl rfl
  · next open_ =>
    refine .inr ⟨owner, ?_⟩
    simp only [flushedLog, changed]
    split
    · exact running
    · cases status : latest.status <;> simp_all

/-- A run is finished by its owner, or by a sweep that has it locked. -/
theorem LogInv.finishLog (inv : LogInv world phase) {counts : DeliveryCounts} {choice : Choice}
    {reply : Reply (.finishLog log counts)} (allowed : (phase me).allow (.finishLog log counts))
    (here : (phase me).connection ≠ .gone)
    (done : Source.ScheduledPush.answer me (.finishLog log counts) choice world = some (reply, world')) :
    LogInv world' (Function.update phase me ((phase me).next (.finishLog log counts) (.ok reply))) := by
  obtain ⟨⟨hit, world₁⟩, updated, same⟩ := Option.map_eq_some_iff.mp done
  cases same
  obtain ⟨logs, stored, rfl⟩ := updateLog_world updated
  have mine : (phase me).log.MayFinish log := (Phase.permitted allowed (by simp)).2
  cases before : (phase me).log with
  | owner owned =>
    obtain rfl : owned = log := by
      rw [before] at mine
      exact mine
    obtain ⟨row, seen, -⟩ := inv.owner_sees before
    obtain ⟨-, unlocked, rfl⟩ := Table.updateRow_of_row seen rfl stored
    refine inv.own rfl rfl rfl rfl unlocked here before (.inl ?_)
    simp [Phase.next, before, LogPhase.finished]
  | reclaiming taken =>
    have locked : log ∈ taken := by
      rw [before] at mine
      exact mine
    obtain ⟨version, drafted⟩ := inv.locks me log (by rw [before]; exact locked)
    obtain ⟨row, rfl, shape⟩ := inv.drafts log me version drafted
    obtain ⟨-, unlocked, rfl⟩ := Table.updateRow_of_row (Slot.row_of_draft drafted) rfl stored
    have ownerless : Ownerless world log := by
      cases shape with
      | acquiring mine _ _ => simp [before] at mine
      | keeping mine _ => simp [before] at mine
      | closing mine => simp [before] at mine
      | reclaiming _ _ _ ownerless => exact ownerless
    have stays : ((phase me).next (.finishLog log counts) (.ok ())).log = .reclaiming taken := by
      simp [Phase.next, before, LogPhase.finished]
    have intent : world.intent me = .reclaim := by rw [inv.intents, before]; rfl
    refine inv.draft rfl rfl rfl ?_ unlocked here ?_ ?_ ?_ ?_
    · rw [stays]
      exact (Function.update_eq_self_iff.mpr intent.symm).symm
    · intro target held
      rw [stays] at held
      cases held
    · rw [stays]
      exact .reclaiming taken rfl locked ownerless
    · intro other latest _ shape
      rw [stays, ← before]
      exact shape
    · intro target holding
      rw [stays, ← before] at holding
      exact .inr holding
  | outside => rw [before] at mine; exact mine.elim
  | acquiring _ => rw [before] at mine; exact mine.elim
  | closing _ => rw [before] at mine; exact mine.elim

/-- Every statement that a phase permits keeps the invariant, if sweeps take ended runs only. -/
theorem LogInv.answer (inv : LogInv world phase) {stmt : Stmt} {choice : Choice} {reply : Reply stmt}
    (allowed : (phase me).allow stmt) (ended : SweepsEnded world me stmt choice)
    (done : answer me stmt choice world = some (reply, world')) :
    LogInv world' (Function.update phase me ((phase me).next stmt (.ok reply))) := by
  have here : (phase me).connection ≠ .gone := by
    rcases allowed with ⟨ready, -⟩ | ⟨aborted, -⟩
    · simp [ready]
    · simp [aborted]
  cases stmt with
  | utcNow | sleep | selectSent log | selectStaleLogs cutoff | selectDeliveries log statuses
  | selectStates log hashes | selectClaimable log hashes | countDeliveries log
  | selectActiveSubscriptions | selectOptedOut channel topic | insertSendLogs rows
  | deleteSubscriptions hashes =>
    cases done
    exact inv.still rfl rfl rfl rfl here rfl
  | dispatch target sub payload =>
    cases done
    cases target <;> exact inv.still rfl rfl rfl rfl here rfl
  | awaitAnswer target =>
    cases done
    cases target <;> exact inv.still rfl rfl rfl rfl here rfl
  | refreshLog log =>
    obtain ⟨row, seen, same⟩ := Option.map_eq_some_iff.mp done
    cases same
    exact inv.still rfl rfl rfl rfl here rfl
  | expireClaim target | abandonDelivery target | flushClaim target loaded =>
    obtain ⟨hit, deliveries, -, rfl⟩ := updateDelivery_world done
    exact inv.still rfl rfl rfl rfl here rfl
  | insertDelivery target =>
    obtain ⟨⟨hit, deliveries⟩, -, same⟩ := Option.map_eq_some_iff.mp done
    cases same
    exact inv.still rfl rfl rfl rfl here rfl
  | lockClaimable target =>
    simp only [Source.ScheduledPush.answer] at done
    split at done
    · cases done
      exact inv.still rfl rfl rfl rfl here rfl
    · cases done
      exact inv.still rfl rfl rfl rfl here rfl
  | recordResult target status code =>
    obtain ⟨⟨answer, world₁⟩, stored, same⟩ := Option.map_eq_some_iff.mp done
    cases same
    obtain ⟨hit, deliveries, -, rfl⟩ := updateDelivery_world stored
    exact inv.still rfl rfl rfl rfl here rfl
  | upsertLog log scheduledAt => exact inv.upsertLog allowed here done
  | flushLog log loaded latest => exact inv.flushLog allowed here done
  | finishLog log counts => exact inv.finishLog allowed here done
  | takeStaleLog log cutoff =>
    have sweeping : (phase me).log.Sweeping := (Phase.permitted allowed (by simp)).2
    obtain ⟨⟨hit, world₁⟩, updated, same⟩ := Option.map_eq_some_iff.mp done
    cases same
    obtain ⟨logs, stored, rfl⟩ := updateLog_world updated
    rcases Table.updateRow_cases stored with ⟨rfl, rfl⟩ | ⟨rfl, unlocked, version, seen, stale, rfl⟩
    · exact inv.still rfl rfl rfl rfl here rfl
    · have ownerless : Ownerless world log := ended (Table.holds_iff.mpr ⟨version, seen, stale⟩)
      exact inv.take rfl rfl rfl rfl unlocked here sweeping ownerless rfl
  | lockStaleLog log cutoff =>
    have sweeping : (phase me).log.Sweeping := (Phase.permitted allowed (by simp)).2
    simp only [Source.ScheduledPush.answer] at done
    split at done
    · next row logs locked =>
      cases done
      rcases Table.lockRow_cases locked with ⟨missing, -⟩ | ⟨version, same, unlocked, seen, stale, rfl⟩
      · cases missing
      · have ownerless : Ownerless world log := ended (Table.holds_iff.mpr ⟨version, seen, stale⟩)
        exact inv.take rfl rfl rfl rfl unlocked here sweeping ownerless rfl
    · cases done
      exact inv.still rfl rfl rfl rfl here rfl
  | commit =>
    cases done
    obtain ⟨ready, -⟩ := Phase.permitted allowed (by simp)
    exact inv.commit ready rfl
  | rollback =>
    cases done
    have own : (phase me).log.retreat.intent = .own := by
      cases (phase me).log <;> rfl
    refine inv.rollback rfl rfl ?_ (fun other => by simp [World.rollback, Phase.next]) ?_ ?_ ?_
    · simp only [Phase.next, own]
      rfl
    · exact fun left => absurd left here
    · intro target held
      refine ⟨?_, by simp [Phase.next]⟩
      simp only [Phase.next] at held
      cases before : (phase me).log <;> rw [before] at held <;> exact held
    · intro target
      simp only [Phase.next]
      cases (phase me).log <;> exact id

end Steps

/-! ## Every interleaving -/

theorem logInv_keeps : worker.Keeps machine SweepsEnded LogInv where
  exec world phase me stmt choice reply world' inv ended allowed done := by
    rcases exec_cases done with ⟨reason, -, rfl, rfl⟩ | ⟨answered, -, rfl, answers⟩
    · have here : (phase me).connection ≠ .gone := by
        rcases allowed with ⟨ready, -⟩ | ⟨aborted, -⟩
        · simp [ready]
        · simp [aborted]
      refine (inv.tick choice.elapsed).still ?_ ?_ ?_ ?_ here (by simp [Phase.next])
      all_goals
        unfold failed
        split <;> rfl
    · have still : SweepsEnded (world.tick choice.elapsed) me stmt choice := by
        cases stmt <;> exact ended
      exact (inv.tick choice.elapsed).answer allowed still answers
  known world phase me stmt choice reply world' _ done := exec_known done
  close world phase me inv := inv.leave
  crash world phase me inv := inv.leave
  outside world phase change inv := by
    cases change with
    | tick seconds => exact inv.tick seconds
    | subscribe subscriptions => exact inv.neutral rfl rfl rfl rfl (fun _ => rfl) fun _ => id
    | prefer preferences => exact inv.neutral rfl rfl rfl rfl (fun _ => rfl) fun _ => id

theorem Fresh.logInv {world : World} (fresh : Fresh world) (requests : SessionId → Option Request) :
    LogInv world (startPhase requests) where
  owned me log held := by simp [LogPhase.owned] at held
  locks me log holding := by
    rw [startPhase_log] at holding
    exact holding.elim
  drafts log owner version drafted := by simp [fresh.logs log] at drafted
  intents me := by
    rw [startPhase_log]
    exact fresh.intent me
  gone me left := by simp [fresh.gone me] at left

/-- The commit of a session writes the logs that it owns, acquires or sweeps. -/
theorem LogInv.fenced_commit {world : World} {phase : SessionId → Phase} {me : SessionId} {log : LogId}
    (inv : LogInv world phase) (changed : (world.logs.commit me).committed log ≠ world.logs.committed log) :
    (world.commit me).acquirer log = some me ∨ world.intent me = .reclaim := by
  obtain ⟨version, drafted⟩ := Table.drafted_of_committed_ne changed
  obtain ⟨row, rfl, shape⟩ := inv.drafts log me version drafted
  rw [World.commit_acquirer_of_draft drafted, inv.intents]
  cases shape with
  | acquiring mine _ _ => simp [mine, LogPhase.intent]
  | keeping mine _ =>
    have acquired := (inv.owned me log (by rw [mine]; rfl)).1
    simp [mine, LogPhase.intent, acquired]
  | closing mine =>
    have acquired := (inv.owned me log (by rw [mine]; rfl)).1
    simp [mine, LogPhase.intent, acquired]
  | reclaiming logs mine _ _ => simp [mine, LogPhase.intent]

/-- As long as sweeps take the logs of ended runs only, whatever changes the status, the
counters or `sent_at` of a log is a step of its latest acquirer or a stale sweep. -/
theorem log_fenced (world : World) (requests : SessionId → Option Request) (fresh : Fresh world)
    (actions : List (Action machine)) (action : Action machine) (before after : Config machine Unit)
    (ended : (start world requests).Meets SweepsEnded actions)
    (reached : (start world requests).run actions = some before)
    (stepped : before.step action = some after) : Fenced before.world action after.world := by
  obtain ⟨phase, inv, -, -⟩ := logInv_keeps.run (start_holds (fresh.logInv requests)) ended reached
  intro log changed
  have moved : after.world.logs.committed log ≠ before.world.logs.committed log := by
    intro same
    exact changed (by rw [outcome, outcome, same])
  cases Config.step_cases stepped with
  | @exec me choice stmt next reply world' running done =>
    rcases exec_cases done with ⟨reason, -, rfl, rfl⟩ | ⟨answered, -, rfl, answers⟩
    · refine absurd ?_ moved
      simp only [failed]
      split <;> rfl
    · by_cases commits : stmt = .commit
      · subst commits
        cases answers
        exact ⟨me, choice, rfl, inv.fenced_commit moved⟩
      · exact absurd ((answer_private answers commits).logs.committed log) moved
  | close ended => exact absurd Table.abort_committed moved
  | crash running => exact absurd Table.abort_committed moved
  | outside change => cases change <;> exact absurd rfl moved

/-- After a crash the next worker takes the log over. -/
def takeOver : List (Action machine) :=
  List.replicate 21 (.exec 0 {}) ++ [.crash 0, .outside (.tick 2000)] ++ List.replicate 10 (.exec 1 {})

/-- What a step changes of the log of the meeting. -/
def meetingStep (actions : List (Action machine)) (action : Action machine) :
    Option (Option (LogStatus × Nat × Nat × Option Nat) × Option (LogStatus × Nat × Nat × Option Nat) ×
      Option SessionId) :=
  ((start oneSubscriber (meetingWorkers 2)).run actions).bind fun before =>
    (before.step action).map fun after =>
      (outcome before.world ⟨7, .d3⟩, outcome after.world ⟨7, .d3⟩, after.world.acquirer ⟨7, .d3⟩)

set_option maxRecDepth 10000 in
theorem log_fenced_takeover : ∃ before after,
    (start oneSubscriber (meetingWorkers 2)).run takeOver = some before ∧
    before.step (.exec 1 {}) = some after ∧ outcome before.world ⟨7, .d3⟩ = some (.failed, 0, 1, none) ∧
    outcome after.world ⟨7, .d3⟩ = some (.pending, 0, 0, none) ∧
    Fenced before.world (.exec 1 {}) after.world := by
  have seen : meetingStep takeOver (.exec 1 {}) =
      some (some (.failed, 0, 1, none), some (.pending, 0, 0, none), some 1) := by rfl
  have ended : (start oneSubscriber (meetingWorkers 2)).Meets SweepsEnded takeOver :=
    Config.meets_of_checks (by decide)
  obtain ⟨before, reached, moved⟩ := Option.bind_eq_some_iff.mp seen
  obtain ⟨after, stepped, same⟩ := Option.map_eq_some_iff.mp moved
  simp only [Prod.mk.injEq] at same
  exact ⟨before, after, reached, stepped, same.1, same.2.1,
    log_fenced _ _ (fresh_blank _ _ _) takeOver _ before after ended reached stepped⟩

/-- A worker is slow inside a provider call; its log is reclaimed and acquired anew. -/
def slowOwner : List (Action machine) :=
  List.replicate 21 (.exec 0 {}) ++ [.outside (.tick 2000)] ++ List.replicate 14 (.exec 1 {}) ++
    List.replicate 7 (.exec 0 { answer := (true, some 201) })

set_option maxRecDepth 10000 in
/-- The slow worker completes the log that the next one is still working on. -/
theorem slow_owner_overwrites : ∃ before after,
    (start oneSubscriber (meetingWorkers 2)).run slowOwner = some before ∧
    before.step (.exec 0 {}) = some after ∧ ¬ Fenced before.world (.exec 0 {}) after.world := by
  have seen : meetingStep slowOwner (.exec 0 {}) =
      some (some (.inProgress, 0, 0, none), some (.completed, 1, 0, some 3000), some 1) := by rfl
  have intent : ((start oneSubscriber (meetingWorkers 2)).run slowOwner).map
      (fun before => before.world.intent 0) = some .own := by decide
  obtain ⟨before, reached, moved⟩ := Option.bind_eq_some_iff.mp seen
  obtain ⟨after, stepped, same⟩ := Option.map_eq_some_iff.mp moved
  simp only [Prod.mk.injEq] at same
  refine ⟨before, after, reached, stepped, fun fenced => ?_⟩
  obtain ⟨me, choice, mine, writer⟩ := fenced ⟨7, .d3⟩ (by rw [same.1, same.2.1]; decide)
  cases mine
  rw [reached] at intent
  rcases writer with acquirer | reclaim
  · rw [same.2.2] at acquirer
    cases acquirer
  · simp [reclaim] at intent

end SogeconApp.Guarantees.ScheduledPush
