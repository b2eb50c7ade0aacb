import SogeconApp.Guarantees.ScheduledPush.RetryExactness
import SogeconApp.Guarantees.ScheduledPush.StaleSweep
import SogeconApp.Library.Confined
import SogeconApp.Source.ScheduledPush.Trigger

/-!
# The trigger

Triggers keep to the phases of the workers, event after event: a run that was not rolled back leaves its
session outside of every log, and after a rollback no further event is taken up. So whatever triggers,
workers and sweeps run at the same time, no delivery is accepted twice. A trigger among no others takes up
every due event whose log is to be had and leaves the logs of the other events alone while it works.
-/

namespace SogeconApp.Guarantees.ScheduledPush

open Library Program Source.ScheduledPush

/-! ## Rollbacks -/

section Rollbacks

variable {α σ : Type} {R : Rules push σ} {Q : α → σ → Prop} {E : Failure → σ → Prop} {state : σ}

/-- The rules over a state that also tells whether there was a rollback. -/
def noted (R : Rules push σ) : Rules push (σ × Bool) where
  allow state := R.allow state.1
  after state stmt reply state' :=
    R.after state.1 stmt reply state'.1 ∧ state'.2 = (state.2 || decide (stmt = .rollback))

/-- A rollback is not forgotten. -/
theorem ensures_noted {program : Push α} (seen : Bool) (ensures : program.Ensures R Q E state) :
    program.Ensures (noted R) (fun value after => Q value after.1 ∧ (seen = true → after.2 = true))
      (fun reason after => E reason after.1 ∧ (seen = true → after.2 = true)) (state, seen) := by
  induction program generalizing state seen with
  | ret value => exact ⟨ensures, id⟩
  | raise reason => exact ⟨ensures, id⟩
  | exec stmt next ih =>
    refine ⟨ensures.1, ?_⟩
    rintro reply ⟨state', seen'⟩ ⟨moved, rolledBack⟩
    have kept (earlier : seen = true) : seen' = true := by simpa [earlier] using rolledBack
    refine (ih reply seen' (ensures.2 reply state' moved)).weaken ?_ ?_
    · exact fun value after here => ⟨here.1, fun earlier => here.2 (kept earlier)⟩
    · exact fun reason after here => ⟨here.1, fun earlier => here.2 (kept earlier)⟩

/-- What a program ensures under the rules that note a rollback, it ensures with a report of its own. -/
theorem ensures_rollingBack {program : Push α} {seen : Bool} {Q : α → σ × Bool → Prop}
    {E : Failure → σ × Bool → Prop} (ensures : program.Ensures (noted R) Q E (state, seen)) :
    (rollingBack seen program).Ensures R (fun result after => Q result.1 (after, result.2))
      (fun reason after => ∃ rolledBack, E reason (after, rolledBack)) state := by
  induction program generalizing state seen with
  | ret value => exact ensures
  | raise reason => exact ⟨seen, ensures⟩
  | exec stmt next ih =>
    exact ⟨ensures.1, fun reply state' moved => ih reply (ensures.2 reply (state', _) ⟨moved, rfl⟩)⟩

end Rollbacks

/-- The session is outside of every log, or it has rolled back. -/
def Released (after : Phase × Bool) : Prop :=
  after.2 = true ∨ after.1 = calm .outside

variable {logId : LogId}

theorem finalizeFailedNotification_rolledBack (fallback : Nat) {phase : Phase} (seen : Bool)
    (broken : Broken (.owner logId) phase) :
    (finalizeFailedNotification logId fallback).Ensures (noted worker.rules) (fun _ => Released)
      (fun _ _ => True) (phase, seen) := by
  have ensures := finalizeFailedNotification_ensures fallback broken
  unfold finalizeFailedNotification at ensures ⊢
  rw [bind_eq] at ensures ⊢
  refine ⟨ensures.1, ?_⟩
  rintro reply ⟨phase', seen'⟩ ⟨moved, rolledBack⟩
  have marked : seen' = true := by simpa using rolledBack
  refine (ensures_noted seen' (ensures.2 reply phase' moved)).weaken ?_ fun _ _ _ => trivial
  exact fun _ _ here => .inl (here.2 marked)

/-- Where the `try` of a run leaves its log, a run with nobody to send to included. -/
def EndedAt (logId : LogId) : Sending → Phase → Prop
  | .raised _ _, phase => Broken (.owner logId) phase
  | .nobody, phase => phase = calm .outside
  | .sent _ _, phase => phase = calm (.owner logId)

theorem sendToEligible_endedAt (crypto : Crypto) (event : Event) (dType : DType)
    (row : ScheduledNotificationLog) :
    (sendToEligible crypto event dType logId row).Ensures worker.rules (EndedAt logId)
      (fun _ _ => False) (calm (.owner logId)) := by
  unfold sendToEligible
  simp only [bind_eq, ensures_bind, ensures_catchWith]
  have caught (fallback : Nat) (reason : Failure) (phase : Phase) (broken : Broken (.owner logId) phase) :
      Ensures worker.rules (EndedAt logId) (fun _ _ => False) (pure (.raised fallback reason)) phase := broken
  refine (updateNotificationLog_ensures row .inProgress 0 0).weaken ?_ (caught 0)
  rintro log _ rfl
  refine (getEligibleSubscriptions_steady "event").weaken (fun subs => ?_) (caught 0)
  split
  · rw [ensures_bind]
    refine (updateNotificationLog_ensures log .completed 0 0).weaken ?_ (caught _)
    rintro _ _ rfl
    simp [EndedAt, afterUpdate]
  · rw [ensures_bind]
    exact (sendBatchNotifications_steady crypto _ subs _ rfl).weaken (fun _ => rfl) (caught _)

theorem finishNotification_released (row : ScheduledNotificationLog) (result : SendResult) (seen : Bool) :
    (finishNotification logId row result).Ensures (noted worker.rules) (fun _ => Released) (fun _ _ => True)
      (calm (.owner logId), seen) := by
  unfold finishNotification
  simp only [bind_eq, ensures_bind, ensures_catchWith]
  refine (ensures_noted seen (updateNotificationLog_ensures row _ _ _)).weaken ?_ ?_
  · rintro _ ⟨_, _⟩ ⟨rfl, -⟩
    refine .inr ?_
    by_cases failed : result.failed = 0 <;> simp [afterUpdate, failed]
  · rintro reason ⟨phase, rolledBack⟩ ⟨broken, -⟩
    cases reason with
    | sqlAlchemy =>
      rw [ensures_bind]
      exact (finalizeFailedNotification_rolledBack _ rolledBack broken).weaken (fun _ _ left => left)
        fun _ _ _ => trivial
    | cancelled | operational | other => trivial

/-- A run without a rollback ends outside of every log. -/
theorem processSingleEvent_released (crypto : Crypto) (event : Event) (dType : DType) :
    (processSingleEvent crypto event dType).Ensures (noted worker.rules) (fun _ => Released) (fun _ _ => True)
      (calm .outside, false) := by
  unfold processSingleEvent
  simp only [bind_eq, ensures_bind]
  refine (ensures_noted false (steady_ask .utcNow trivial fun _ => rfl)).weaken ?_ fun _ _ _ => trivial
  rintro now ⟨_, rolledBack⟩ ⟨rfl, -⟩
  refine (ensures_noted rolledBack (reclaimStaleLog_ensures _)).weaken ?_ fun _ _ _ => trivial
  rintro _ ⟨_, rolledBack⟩ ⟨rfl, -⟩
  refine (ensures_noted rolledBack (steady_ask (.selectSent _) trivial fun _ => rfl)).weaken ?_
    fun _ _ _ => trivial
  rintro sent ⟨_, rolledBack⟩ ⟨rfl, -⟩
  split
  · exact .inr rfl
  · rw [ensures_bind]
    refine (ensures_noted rolledBack (steady_ask .utcNow trivial fun _ => rfl)).weaken ?_ fun _ _ _ => trivial
    rintro scheduledAt ⟨_, rolledBack⟩ ⟨rfl, -⟩
    rw [ensures_bind]
    refine (ensures_noted rolledBack (createNotificationLog_ensures scheduledAt)).weaken ?_ fun _ _ _ => trivial
    rintro created ⟨_, rolledBack⟩ ⟨⟨rfl, rfl⟩ | ⟨acquired, rfl⟩, -⟩
    · exact .inr rfl
    · obtain ⟨log, rfl⟩ := Option.isSome_iff_exists.mp acquired
      rw [ensures_bind]
      refine (ensures_noted rolledBack (sendToEligible_endedAt crypto event dType log)).weaken ?_
        fun _ _ never => never.1.elim
      rintro sending ⟨phase, rolledBack⟩ ⟨ended, -⟩
      cases sending with
      | raised fallback reason =>
        have finalized := finalizeFailedNotification_rolledBack fallback rolledBack ended
        cases reason with
        | other => trivial
        | cancelled =>
          rw [ensures_bind]
          exact finalized.weaken (fun _ _ _ => trivial) fun _ _ _ => trivial
        | sqlAlchemy | operational =>
          rw [ensures_bind]
          exact finalized
      | nobody => exact .inr ended
      | sent log result =>
        obtain rfl := ended
        rw [ensures_bind]
        refine (finishNotification_released log result rolledBack).weaken ?_ fun _ _ _ => trivial
        intro finished after left
        cases finished with
        | none => exact left
        | some counts => exact left

/-! ## Triggers among others -/

/-- Over the due events a run begins only where the one before it has released its log. -/
theorem processDueEvents_ensures (crypto : Crypto) {expired : Bool} (total : TriggerResult)
    (due : List (EventRow × DType)) {phase : Phase} (released : Released (phase, expired)) :
    (processDueEvents crypto expired total due).Ensures worker.rules (fun _ _ => True)
    (fun _ _ => True) phase := by
  induction due generalizing expired total phase with
  | nil => trivial
  | cons job rest ih =>
    unfold processDueEvents
    cases expired with
    | true => trivial
    | false =>
      obtain rfl : phase = calm .outside := released.resolve_left (by simp)
      simp only [Bool.false_eq_true, if_false, bind_eq, ensures_bind]
      refine (ensures_rollingBack (processSingleEvent_released crypto job.1.toEvent job.2)).weaken ?_
        fun _ _ _ => trivial
      exact fun result after left => ih (total.count result.1) left

theorem job_follows (job : Job) : worker.Follows ({} : Phase) job.program := by
  cases job with
  | other request => exact request_follows request
  | triggerScheduledNotifications crypto events targetDate =>
    unfold Protocol.Follows Job.program Source.ScheduledPush.triggerScheduledNotifications
      reclaimStaleScheduledLogs
    simp only [bind_eq, ensures_bind]
    have any (reason : Failure) (phase : Phase) (_ : Broken .outside phase) : True := trivial
    have triggers (today : Int) := processDueEvents_ensures crypto
      { totalEvents := (findEventsDueForNotification events today).length }
      (findEventsDueForNotification events today) (.inr rfl : Released (calm .outside, false))
    refine Steady.weaken (steady_ask .utcNow trivial fun _ => rfl) (fun now => ?_) any
    refine (reclaimStaleLogs_ensures _).weaken (fun _ => ?_) any
    cases targetDate with
    | some today => exact triggers today
    | none =>
      simp only [triggerDate, bind_eq, ensures_bind]
      exact Steady.weaken (steady_ask .utcNow trivial fun _ => rfl) (fun now => triggers _) any

/-- For the phases it only matters which sessions there are. -/
def opened (jobs : SessionId → Option Job) (me : SessionId) : Option Request :=
  (jobs me).map fun _ => .reclaimStaleScheduledLogs

/-- Jobs that all have still to begin start within every invariant of a start. -/
theorem launch_holds {J : World → (SessionId → Phase) → Prop} {world : World} {jobs : SessionId → Option Job}
    (first : J world (startPhase (opened jobs))) : worker.Holds J (launch world jobs) := by
  refine ⟨startPhase (opened jobs), first, fun me program running => ?_, fun me absent => ?_⟩
  · obtain ⟨job, launched, rfl⟩ := Option.map_eq_some_iff.mp running
    have ready : startPhase (opened jobs) me = {} := by simp [startPhase, opened, launched]
    rw [ready]
    exact job_follows job
  · have missing : jobs me = none := Option.map_eq_none_iff.mp absent
    simp [startPhase, opened, missing]

/-- It begins with the third day, in Korea. -/
def meetingRow : EventRow := { meeting with startsAt := dayStart 3 }

def meetingDue : DType → List EventRow
  | .d3 => [meetingRow]
  | .d1 => []

/-- The sessions below the number are triggered for day zero. -/
def meetingTriggers (count : Nat) (me : SessionId) : Option Job :=
  if me < count then some (.triggerScheduledNotifications plainCrypto meetingDue (some 0)) else none

/-- A trigger crashes with its call under way; the sweep of the next one fails the log. -/
def triggerCrashes : List (Action machine) :=
  List.replicate 24 (.exec 0 {}) ++ [.crash 0, .outside (.tick 2000)] ++ List.replicate 29 (.exec 1 {})

end SogeconApp.Guarantees.ScheduledPush
