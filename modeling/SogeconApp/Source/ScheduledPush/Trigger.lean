import SogeconApp.Source.ScheduledPush.Programs

/-!
# Scheduled push: the daily trigger

Source: `find_events_due_for_notification` and `trigger_scheduled_notifications` of
`apps/api/services/scheduled_notifications_service.py`, and the jobs of `apps/api/scheduler.py`.

Nothing here writes the events table: the rows that it has at each of the two SELECTs are arguments.
Instants of events are microseconds from the epoch, days are days from the epoch in Korean time. An
event object that a rollback has expired cannot be read again in an async session, which the comment
in `reclaim_stale_log` warns of: `event.id` of the next event raises. Logging is left out.
-/

namespace SogeconApp.Source.ScheduledPush

open Library Program

/-- `KST`, in microseconds. -/
def kst : Int := 9 * 3600 * 1000000

def dayLength : Int := 24 * 3600 * 1000000

/-- `datetime.combine(day, datetime.min.time(), tzinfo=KST)`. -/
def dayStart (day : Int) : Int := day * dayLength - kst

/-- `datetime.fromtimestamp(instant, KST).date()`. -/
def kstDate (instant : Int) : Int := (instant + kst) / dayLength

structure EventRow extends Event where
  startsAt : Int

/-- `starts_at >= start AND starts_at < end`, of a day. -/
def startsWithin (day : Int) (row : EventRow) : Bool :=
  dayStart day ≤ row.startsAt ∧ row.startsAt < dayStart day + dayLength

/-- The days that the event is away. -/
def DType.days : DType → Int
  | .d3 => 3
  | .d1 => 1

/-- The entries of the result, d-3 before d-1, as the caller's loops visit them. -/
def findEventsDueForNotification (events : DType → List EventRow) (today : Int) : List (EventRow × DType) :=
  [DType.d3, DType.d1].flatMap fun dType =>
    ((events dType).filter (startsWithin (today + dType.days))).map fun row => (row, dType)

structure TriggerResult where
  totalEvents : Nat
  processed : Nat := 0
  skipped : Nat := 0
  totalAccepted : Nat := 0
  totalFailed : Nat := 0
  deriving DecidableEq, Repr

def TriggerResult.count (total : TriggerResult) (result : ProcessResult) : TriggerResult :=
  if result.skipped then { total with skipped := total.skipped + 1 }
  else
    { total with
      processed := total.processed + 1
      totalAccepted := total.totalAccepted + result.accepted
      totalFailed := total.totalFailed + result.failed }

/-- Whether the session has rolled back, beside what the program returns. -/
def rollingBack {α : Type} (seen : Bool) : Push α → Push (α × Bool)
  | .ret value => .ret (value, seen)
  | .raise reason => .raise reason
  | .exec stmt next => .exec stmt fun reply => rollingBack (seen || decide (stmt = .rollback)) (next reply)

def processDueEvents (crypto : Crypto) :
    Bool → TriggerResult → List (EventRow × DType) → Push TriggerResult
  | _, total, [] => pure total
  | expired, total, (row, dType) :: rest =>
    -- MissingGreenlet, an InvalidRequestError of SQLAlchemy
    if expired then raise .sqlAlchemy
    else do
      let (result, expired) ← rollingBack false (processSingleEvent crypto row.toEvent dType)
      processDueEvents crypto expired (total.count result) rest

def triggerDate : Option Int → Push Int
  | some targetDate => pure targetDate
  | none => do
    let now ← ask .utcNow
    pure (kstDate (now * 1000000))

def triggerScheduledNotifications (crypto : Crypto) (events : DType → List EventRow)
    (targetDate : Option Int) : Push TriggerResult := do
  let _ ← reclaimStaleScheduledLogs
  let today ← triggerDate targetDate
  let due := findEventsDueForNotification events today
  processDueEvents crypto false { totalEvents := due.length } due

/-- A job of the scheduler, a manual trigger, or another request. -/
inductive Job where
  | triggerScheduledNotifications (crypto : Crypto) (events : DType → List EventRow) (targetDate : Option Int)
  | other (request : Request)

def Job.program : Job → Push Unit
  | .triggerScheduledNotifications crypto events targetDate => do
    let _ ← ScheduledPush.triggerScheduledNotifications crypto events targetDate
    pure ()
  | .other request => request.program

/-- Every session with its job, and no statement issued yet. -/
def launch (world : World) (jobs : SessionId → Option Job) : Config machine Unit where
  world := world
  pool me := (jobs me).map Job.program

end SogeconApp.Source.ScheduledPush
