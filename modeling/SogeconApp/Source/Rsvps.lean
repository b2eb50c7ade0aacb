import Mathlib.Data.List.Sort
import SogeconApp.Library.Sessions

/-!
# RSVPs

Source: `apps/api/services/events_service.py` (normalize_rsvp_status_for_capacity,
upsert_rsvp_status, _promote_waitlist_candidate), `rsvps_service.py` (create_rsvp) and
`repositories/rsvps.py`. Every query, flush and commit is a statement. A row is
flushed at the commit, and only if the request changed its status (`autoflush=False`,
`expire_on_commit=False`). The savepoint of a promotion is left out: an exception inside
it leaves the request, and the session rolls everything back.

`granted` and `sawSeat` are not in the database: they count the seats granted of an event,
and tell when a session last saw a free one. No statement answers from them.
-/

namespace SogeconApp.Source.Rsvps

open Library Program

inductive RSVPStatus where
  | going | waitlist | cancel
  deriving DecidableEq, Repr

/-- The composite primary key of `rsvps`. -/
structure RsvpId where
  memberId : Nat
  eventId : Nat
  deriving DecidableEq, Repr, Inhabited

structure RSVP where
  status : RSVPStatus
  createdAt : Nat
  deriving DecidableEq, Repr

inductive Failure where
  | notFound (code : String)
  | alreadyExists (code : String)
  | integrity
  | staleData
  /-- A database error or a cancellation, at any statement. -/
  | interrupted
  deriving DecidableEq, Repr

inductive Stmt where
  | getEvent (eventId : Nat)
  | getMember (memberId : Nat)
  | getRsvp (key : RsvpId)
  | countGoing (eventId : Nat)
  | insertRsvp (key : RsvpId) (status : RSVPStatus)
  | updateRsvp (key : RsvpId) (status : RSVPStatus)
  | selectWaitlist (eventId : Nat)
  | lockWaitlisted (key : RsvpId)
  | refreshRsvp (key : RsvpId)
  | commit
  deriving DecidableEq

@[reducible] def Reply : Stmt → Type
  | .getEvent _ => Option Nat
  | .getMember _ | .lockWaitlisted _ => Bool
  | .getRsvp _ => Option RSVP
  | .countGoing _ => Nat
  | .selectWaitlist _ => List RsvpId
  | _ => Unit

abbrev rsvp : Signature where
  Stmt := Stmt
  Reply := Reply
  Exn := Failure

/-! ## The store -/

structure World where
  /-- The events that exist, each with its capacity. -/
  capacity : Nat → Option Nat
  members : Nat → Bool
  rsvps : Table RsvpId RSVP
  granted : Nat → Nat
  sawSeat : SessionId → Option (Nat × Nat)

def isGoing (eventId : Nat) (key : RsvpId) (row : RSVP) : Bool :=
  key.eventId = eventId ∧ row.status = .going

def isWaitlisted (eventId : Nat) (key : RsvpId) (row : RSVP) : Bool :=
  key.eventId = eventId ∧ row.status = .waitlist

namespace World

def blank (capacity : Nat → Option Nat) (members : Nat → Bool) : World where
  capacity := capacity
  members := members
  rsvps := .empty
  granted _ := 0
  sawSeat _ := none

/-- Committed rows of an event with status going. -/
def going (world : World) (eventId : Nat) : Nat :=
  world.rsvps.countCommitted (isGoing eventId)

/-- Committed rows of an event with status waitlist. -/
def waiting (world : World) (eventId : Nat) : Nat :=
  world.rsvps.countCommitted (isWaitlisted eventId)

/-- A seat is taken under this key. -/
def seated (key : RsvpId) (version : Option RSVP) : Bool :=
  Table.accepts (isGoing key.eventId) key version

/-- The commit of the session grants a seat under this key. -/
def grants (me : SessionId) (world : World) (key : RsvpId) : Bool :=
  seated key ((world.rsvps.commit me).committed key) && !seated key (world.rsvps.committed key)

/-- The commit of the session frees a seat under this key. -/
def frees (me : SessionId) (world : World) (key : RsvpId) : Bool :=
  seated key (world.rsvps.committed key) && !seated key ((world.rsvps.commit me).committed key)

def commit (me : SessionId) (world : World) : World :=
  { world with
    rsvps := world.rsvps.commit me
    granted := fun eventId =>
      if world.rsvps.keys.any fun key => decide (key.eventId = eventId) && world.grants me key then
        world.granted eventId + 1
      else world.granted eventId
    sawSeat :=
      match world.rsvps.keys.find? (world.frees me) with
      | some key => Function.update world.sawSeat me (some (key.eventId, world.granted key.eventId))
      | none => world.sawSeat }

def leave (me : SessionId) (world : World) : World :=
  { world with rsvps := world.rsvps.abort me }

end World

/-- What the environment decides: an exception, and what `now()` is in the transaction. -/
structure Choice where
  fails : Option Failure := none
  startedAt : Nat := 0

/-- The status of a row that the session can write. -/
def updateStatus (me : SessionId) (key : RsvpId) (status : RSVPStatus) (world : World) :
    Option (Except Failure Unit × World) :=
  (world.rsvps.updateRow me key (fun _ => true) fun row => { row with status }).map fun (hit, rsvps) =>
    if hit then (.ok (), { world with rsvps }) else (.error .staleData, world)

def answer (me : SessionId) (stmt : Stmt) (choice : Choice) (world : World) :
    Option (Except Failure (Reply stmt) × World) :=
  match stmt with
  | .getEvent eventId => some (.ok (world.capacity eventId), world)
  | .getMember memberId => some (.ok (world.members memberId), world)
  | .getRsvp key => some (.ok (world.rsvps.row me key), world)
  | .countGoing eventId =>
    let count := (world.rsvps.select me (isGoing eventId)).length
    let free := (world.capacity eventId).any fun capacity => count < capacity
    some (.ok count, if free then
        { world with sawSeat := Function.update world.sawSeat me (some (eventId, world.granted eventId)) }
      else world)
  | .insertRsvp key status =>
    (world.rsvps.insertRow me key { status, createdAt := choice.startedAt }).map fun (hit, rsvps) =>
      if hit then (.ok (), { world with rsvps }) else (.error .integrity, world)
  | .updateRsvp key status => updateStatus me key status world
  | .selectWaitlist eventId =>
    some (.ok ((world.rsvps.select me (isWaitlisted eventId)).insertionSort fun first second =>
      (world.rsvps.row me first).elim 0 (·.createdAt) ≤ (world.rsvps.row me second).elim 0 (·.createdAt)), world)
  | .lockWaitlisted key =>
    match world.rsvps.lockRow me key (isWaitlisted key.eventId key) with
    | (some _, rsvps) => some (.ok true, { world with rsvps })
    | (none, _) => some (.ok false, world)
  | .refreshRsvp _ => some (.ok (), world)
  | .commit => some (.ok (), world.commit me)

def exec (me : SessionId) (stmt : Stmt) (choice : Choice) (world : World) :
    Option (Except Failure (Reply stmt) × World) :=
  match choice.fails with
  | some reason => some (.error reason, world)
  | none => answer me stmt choice world

abbrev machine : Machine rsvp where
  World := World
  Choice := Choice
  Outside := Empty
  exec := exec
  close := World.leave
  crash := World.leave
  outside change := nomatch change

def answering : Answering machine where
  fails := Choice.fails
  answer := answer
  exec_eq me stmt choice world := by
    simp only [exec]
    cases choice.fails <;> rfl

/-! ## Services -/

abbrev Handler (α : Type) := Program rsvp α

abbrev ask (stmt : Stmt) : Handler (Reply stmt) := @issue rsvp stmt

/-- `events_repo.get_event`. -/
def getEvent (eventId : Nat) : Handler Nat := do
  match ← ask (.getEvent eventId) with
  | some capacity => pure capacity
  | none => raise (.notFound "event_not_found")

/-- `members_repo.get_member`. -/
def getMember (memberId : Nat) : Handler Unit := do
  if ← ask (.getMember memberId) then pure () else raise (.notFound "member_not_found")

/-- `rsvps_repo.create_rsvp`. -/
def repoCreateRsvp (key : RsvpId) (status : RSVPStatus) : Handler Unit := do
  match ← ask (.getRsvp key) with
  | some _ => raise (.alreadyExists "rsvp_exists")
  | none =>
    ask (.insertRsvp key status)
    ask .commit
    ask (.refreshRsvp key)

/-- The first of the candidates that `FOR UPDATE SKIP LOCKED` can lock. -/
def lockFirst : List RsvpId → Handler (Option RsvpId)
  | [] => pure none
  | key :: rest => do
    if ← ask (.lockWaitlisted key) then pure (some key) else lockFirst rest

/-- The candidate object is loaded as waitlisted, or it is the cancelled one of the request
itself: either way the new status is a change and is written. -/
def promoteWaitlistCandidate (eventId : Nat) : Handler Unit := do
  let candidates ← ask (.selectWaitlist eventId)
  match ← lockFirst candidates with
  | some candidate =>
    ask (.updateRsvp candidate .going)
    ask .commit
    ask (.refreshRsvp candidate)
  | none => pure ()

def normalizeRsvpStatusForCapacity (eventId capacity : Nat) (requested : RSVPStatus)
    (existing : Option RSVPStatus) : Handler RSVPStatus := do
  if requested ≠ .going then
    pure requested
  else
    let goingCount ← ask (.countGoing eventId)
    let effective : Int := if existing = some .going then (goingCount : Int) - 1 else goingCount
    if effective ≥ capacity then pure .waitlist else pure .going

/-- The flush of a loaded row: only a changed status is written. -/
def flushStatus (key : RsvpId) (loaded latest : RSVPStatus) : Handler Unit :=
  if latest ≠ loaded then ask (.updateRsvp key latest) else pure ()

def upsertRsvpStatus (memberId eventId : Nat) (status : RSVPStatus) : Handler Unit := do
  let key : RsvpId := ⟨memberId, eventId⟩
  let capacity ← getEvent eventId
  getMember memberId
  match ← ask (.getRsvp key) with
  | none =>
    let finalStatus ← normalizeRsvpStatusForCapacity eventId capacity status none
    repoCreateRsvp key finalStatus
  | some loaded =>
    let newStatus ← normalizeRsvpStatusForCapacity eventId capacity status (some loaded.status)
    flushStatus key loaded.status newStatus
    ask .commit
    ask (.refreshRsvp key)
    if newStatus = .cancel then promoteWaitlistCandidate eventId else pure ()

/-- `rsvps_service.create_rsvp`. -/
def createRsvp (memberId eventId : Nat) (status : RSVPStatus) : Handler Unit := do
  let capacity ← getEvent eventId
  getMember memberId
  let finalStatus ← normalizeRsvpStatusForCapacity eventId capacity status none
  repoCreateRsvp ⟨memberId, eventId⟩ finalStatus

inductive Request where
  | createRsvp (memberId eventId : Nat) (status : RSVPStatus)
  | upsertRsvpStatus (memberId eventId : Nat) (status : RSVPStatus)

def Request.program : Request → Handler Unit
  | .createRsvp memberId eventId status => Rsvps.createRsvp memberId eventId status
  | .upsertRsvpStatus memberId eventId status => Rsvps.upsertRsvpStatus memberId eventId status

def start (world : World) (requests : SessionId → Option Request) : Config machine Unit where
  world := world
  pool me := (requests me).map Request.program

end SogeconApp.Source.Rsvps
