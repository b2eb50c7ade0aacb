import SogeconApp.Source.PartialUpdates
import SogeconApp.Source.Rsvps

/-!
# Events and their seats

Source: `apps/api/services/events_service.py` (update_event, beside the requests of the RSVPs) and
`repositories/events.py` (update_event).

One request after the other, each of which runs to its end: the RSVP requests on the rows of the
RSVPs and the capacities of the events, the update of an event on the rows of the events, none of
whose writes looks at an RSVP. No statement fails. The RSVP requests take a capacity below 0 for 0:
they compare it with a number of rows.
-/

namespace SogeconApp.Source.EventSeats

open Library
open PartialUpdates (Event EventUpdate)
open Rsvps (RsvpId RSVP RSVPStatus)

inductive Request where
  | rsvp (request : Rsvps.Request)
  | updateEvent (eventId : Nat) (payload : EventUpdate)

/-- A request, the session that serves it, and what `now()` is at its statements. -/
structure Turn where
  me : SessionId
  request : Request
  now : Nat → Nat := fun _ => 0

def Turn.choices (turn : Turn) (n : Nat) : Rsvps.Choice where
  startedAt := turn.now n

structure State where
  events : Int → Option Event
  rsvps : Rsvps.World

namespace State

def capacities (state : State) (eventId : Nat) : Option Nat :=
  (state.events eventId).map fun event => event.capacity.val.toNat

/-- What an RSVP request runs on. -/
def world (state : State) : Rsvps.World := { state.rsvps with capacity := state.capacities }

/-- The number of rows of an event with status going. -/
def going (state : State) (eventId : Nat) : Nat := state.rsvps.going eventId

/-- The number of rows of an event with status waitlist. -/
def waiting (state : State) (eventId : Nat) : Nat := state.rsvps.waiting eventId

/-- The events, and nobody has answered yet. -/
def blank (events : Int → Option Event) (members : Nat → Bool) : State where
  events := events
  rsvps := .blank (fun _ => none) members

/-- A request runs to its end, and its session is closed. -/
def serve (turn : Turn) (state : State) : Option State :=
  match turn.request with
  | .rsvp request =>
    (Rsvps.machine.eval turn.me request.program turn.choices state.world).map fun (_, after) =>
      { state with rsvps := Rsvps.machine.close turn.me after }
  | .updateEvent eventId payload =>
    some { state with events := (PartialUpdates.updateEvent state.events eventId payload).table }

def run : List Turn → State → Option State
  | [], state => some state
  | turn :: rest, state => (state.serve turn).bind (run rest)

end State

end SogeconApp.Source.EventSeats
