import SogeconApp.Source.Listings
import SogeconApp.Source.PartialUpdates

/-!
# When an event takes place

Source: `apps/api/schemas.py` (EventCreate, EventUpdate), `repositories/events.py` (create_event,
update_event, and the status filter of list_admin_events_with_total), and the web's
`lib/event-experience.ts` (getEventTiming).

Instants of the database are whole microseconds here, and those of the browser whole milliseconds.
`new Date` drops the digits of an ISO text beyond the milliseconds.
-/

namespace SogeconApp.Source.EventTimes

open Library Listings
open PartialUpdates (EventColumns EventObject EventUpdate eventColumns)

/-! ## repositories/events.py -/

/-- From `datetime.min` to `datetime.max`. -/
def IsMoment (instant : Int) : Prop := -62135596800000000 ≤ instant ∧ instant ≤ 253402300799999999

instance (instant : Int) : Decidable (IsMoment instant) := inferInstanceAs (Decidable (_ ∧ _))

abbrev Moment := { instant : Int // IsMoment instant }

def moment : Column Int Moment := .checked IsMoment (fun instant => instant) fun _ _ => rfl

abbrev Event := EventColumns Moment

structure EventCreate where
  title : String
  description : Option String := none
  startsAt : Int
  endsAt : Int
  location : String
  capacity : Int

def eventMapping : Mapping Event EventObject := eventColumns moment

/-- `models.Event(**payload.model_dump())`. -/
def EventCreate.toObject (payload : EventCreate) : EventObject where
  title := some payload.title
  description := payload.description
  startsAt := some payload.startsAt
  endsAt := some payload.endsAt
  location := some payload.location
  capacity := some payload.capacity

/-- The row of the new event, if the database takes it. -/
def createEvent (payload : EventCreate) : Option Event := (eventMapping.check payload.toObject).value

/-- The row of the event after the update, if the database takes it. -/
def updateEvent (event : Event) (payload : EventUpdate) : Option Event :=
  (eventMapping.check ((eventMapping.load event).set payload)).value

/-- The events that the two operations can store. -/
inductive Stored : Event → Prop
  | created {payload : EventCreate} {event : Event} (stores : createEvent payload = some event) : Stored event
  | updated {payload : EventUpdate} {event after : Event} (stored : Stored event)
      (stores : updateEvent event payload = some after) : Stored after

/-- The columns that the admin list reads. -/
def Event.toRow (event : Event) (id : Int) : EventRow where
  id := id
  title := event.title.val
  startsAt := event.startsAt.val
  endsAt := event.endsAt.val

/-- The admin list with this status filter has the event. -/
def Selected (search : TitleSearch) (status : EventStatus) (now : Int) (row : EventRow) : Prop :=
  (Truth.all (adminEventConditions search { status := some status } now row)).Holds

/-! ## lib/event-experience.ts -/

inductive EventTiming where
  | upcoming | ongoing | past
  deriving DecidableEq, Repr

/-- `new Date(text).getTime()` of the text of an instant. -/
def getTime (instant : Int) : Int := instant / 1000

def getEventTiming (event : Event) (current : Int) : EventTiming :=
  let startsAt := getTime event.startsAt.val
  let endsAt := getTime event.endsAt.val
  if endsAt < current then .past
  else if startsAt ≤ current then .ongoing
  else .upcoming

end SogeconApp.Source.EventTimes
