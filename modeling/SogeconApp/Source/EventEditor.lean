import SogeconApp.Library.Calendar
import SogeconApp.Library.Layouts
import SogeconApp.Library.Steps
import SogeconApp.Library.Trim
import SogeconApp.Source.EventTimes

/-!
# The event editor

Source: the web's `app/admin/events/new/page.tsx` and `app/admin/events/[id]/edit/page.tsx`, with the query
client of `app/providers.tsx`, and the API's `PATCH /admin/events/{event_id}` and `POST /events/`.

Times of the browser are whole milliseconds from 1970, and its time zone is an argument: how far a local
time is ahead of UTC. A field of type `datetime-local` is empty or has a local date and time; one that is
not written with four digits for the year and without seconds is read as the browser reads it. A time that
the API reads lies in the years of `datetime`. A query is fresh for a minute, answers with what it has,
and is fetched when a page that shows it opens, or when the browser is online again, if it is not fresh.
Left out are the messages, the deletion and the permission of the routes.
-/

namespace SogeconApp.Source.EventEditor

open Library
open EventTimes (Event EventCreate Moment IsMoment getTime)
open PartialUpdates (EventUpdate)

/-! ## Texts of times -/

abbrev Text := List Char

/-- `YYYY-MM-DDTHH:mm`. -/
def minuteLayout : Layout :=
  [.numeral 4, .sign '-', .numeral 2, .sign '-', .numeral 2, .sign 'T', .numeral 2, .sign ':', .numeral 2]

/-- `YYYY-MM-DDTHH:mm:ss.sssZ`. -/
def isoLayout : Layout := minuteLayout ++ [.sign ':', .numeral 2, .sign '.', .numeral 3, .sign 'Z']

/-- Year, month, day, hour and minute, for minutes from 1970. -/
def minuteFields (minute : Int) : List Nat :=
  let date := Date.ofNumber (minute / 1440)
  [date.year.toNat, date.month.toNat, date.day.toNat, (minute % 1440 / 60).toNat, (minute % 60).toNat]

/-- `new Date(time).toISOString()`, for the years from 0 to 9999. -/
def toISOString (time : Int) : Text :=
  isoLayout.write (minuteFields (time / 60000) ++ [(time % 60000 / 1000).toNat, (time % 1000).toNat])

/-- The minutes from 1970 to a date and time, were it in UTC. -/
def readMinute (text : Text) : Option Int :=
  match minuteLayout.read text with
  | some [year, month, day, hour, minute] =>
    if valid : IsDate year month day ∧ hour < 24 ∧ minute < 60 then
      some (1440 * (Date.mk year month day valid.1).number + 60 * hour + minute)
    else none
  | _ => none

structure Browser where
  /-- What a local time is ahead of UTC, in milliseconds. -/
  offset : Int → Int
  /-- `new Date` of any other text. -/
  parse : Text → Option Int

/-- The time of a local time. -/
def Browser.utc (browser : Browser) (localTime : Int) : Int := localTime - browser.offset localTime

def toLocalInput (moment : Moment) : Text := (toISOString (getTime moment.val)).take 16

/-- `toIso` of the page for a new event. `none` if it throws. -/
def fromLocalInput (browser : Browser) (value : Text) : Option Int :=
  match readMinute value with
  | some minute => some (browser.utc (60000 * minute))
  | none => browser.parse value

/-! ## The form -/

/-- What `trim` removes: blanks of any kind, and ends of lines. -/
def isWhiteSpace (char : Char) : Bool :=
  let code := char.toNat
  (0x9 ≤ code && code ≤ 0xD) || code = 0x20 || code = 0xA0 || code = 0x1680 ||
    (0x2000 ≤ code && code ≤ 0x200A) || code = 0x2028 || code = 0x2029 || code = 0x202F ||
    code = 0x205F || code = 0x3000 || code = 0xFEFF

def trimmed (text : String) : String := String.ofList (trim isWhiteSpace text.toList)

structure FormState where
  title : String := ""
  location : String := ""
  description : String := ""
  /-- `none` is the empty field. -/
  capacity : Option Rat := none
  startsAt : Text := []
  endsAt : Text := []
  deriving DecidableEq, Repr

def isFormDisabled (form : FormState) (isSaving : Bool) : Bool :=
  isSaving || trimmed form.title = "" || trimmed form.location = "" || form.capacity.isNone ||
    form.startsAt = [] || form.endsAt = []

/-- The form of an event that has been fetched. -/
def formOf (event : Event) : FormState where
  title := event.title.val
  location := event.location.val
  description := (event.description.map (·.val)).getD ""
  capacity := some event.capacity.val
  startsAt := toLocalInput event.startsAt
  endsAt := toLocalInput event.endsAt

/-! ## Requests -/

structure UpdateEventPayload where
  title : String
  location : String
  description : Option String
  capacity : Option Rat
  startsAt : Option Int
  endsAt : Option Int
  deriving DecidableEq

/-- `fromLocalInput`, of a field that is not empty. -/
def optionalTime (browser : Browser) (value : Text) : Option (Option Int) :=
  if value = [] then some none else (fromLocalInput browser value).map some

/-- What `updateMutation` sends; `none` if it throws. -/
def updatePayload (browser : Browser) (form : FormState) : Option UpdateEventPayload := do
  let startsAt ← optionalTime browser form.startsAt
  let endsAt ← optionalTime browser form.endsAt
  pure
    { title := form.title
      location := form.location
      description := if trimmed form.description = "" then none else some (trimmed form.description)
      capacity := form.capacity
      startsAt, endsAt }

/-- A time in microseconds. -/
def acceptTime (time : Int) : Option Int := if IsMoment (1000 * time) then some (1000 * time) else none

def acceptCapacity (value : Rat) : Option Int := if value.den = 1 then some value.num else none

/-- A field that may be missing, as `EventUpdate` reads it. -/
def acceptField {α β : Type} (accept : α → Option β) : Option α → Option (Option (Option β))
  | none => some none
  | some value => (accept value).map fun accepted => some (some accepted)

/-- `EventUpdate` of the body; `none` if it is refused. -/
def acceptUpdate (payload : UpdateEventPayload) : Option EventUpdate := do
  let startsAt ← acceptField acceptTime payload.startsAt
  let endsAt ← acceptField acceptTime payload.endsAt
  let capacity ← acceptField acceptCapacity payload.capacity
  pure
    { title := some (some payload.title)
      location := some (some payload.location)
      description := some payload.description
      capacity, startsAt, endsAt }

inductive Failure where
  /-- The body fails its validation. -/
  | refused
  | notFound
  | database
  deriving DecidableEq, Repr

/-- `PATCH /admin/events/{event_id}`, on the row of the event. -/
def updateAdminEvent (row : Option Event) (payload : UpdateEventPayload) : Except Failure Event :=
  match acceptUpdate payload, row with
  | none, _ => .error .refused
  | some _, none => .error .notFound
  | some accepted, some event =>
    match EventTimes.updateEvent event accepted with
    | some after => .ok after
    | none => .error .database

def isValidCapacity (value : Option Rat) : Bool := value.any fun value => decide (0 < value)

/-- The button of the page for a new event. -/
def canSubmit (form : FormState) : Bool :=
  trimmed form.title ≠ "" && trimmed form.location ≠ "" && isValidCapacity form.capacity &&
    form.startsAt ≠ [] && form.endsAt ≠ []

/-- `POST /events/`, as the page for a new event sends it. -/
def createEvent (browser : Browser) (form : FormState) : Option Event :=
  if canSubmit form then do
    let startsAt ← (fromLocalInput browser form.startsAt).bind acceptTime
    let endsAt ← (fromLocalInput browser form.endsAt).bind acceptTime
    let capacity ← acceptCapacity (if isValidCapacity form.capacity then form.capacity.getD 0 else 0)
    EventTimes.createEvent
      { title := form.title
        location := form.location
        capacity
        description := if trimmed form.description = "" then none else some (trimmed form.description)
        startsAt, endsAt }
  else none

/-! ## The page and its query -/

inductive Edit where
  | title (value : String)
  | location (value : String)
  | description (value : String)
  | capacity (value : Option Rat)
  | startsAt (value : Text)
  | endsAt (value : Text)
  deriving DecidableEq, Repr

def FormState.edit (form : FormState) : Edit → FormState
  | .title value => { form with title := value }
  | .location value => { form with location := value }
  | .description value => { form with description := value }
  | .capacity value => { form with capacity := value }
  | .startsAt value => { form with startsAt := value }
  | .endsAt value => { form with endsAt := value }

def staleTime : Int := 60000

def gcTime : Int := 5 * 60000

structure Cached where
  data : Event
  updatedAt : Int
  deriving DecidableEq

def Cached.isStale (cached : Cached) (now : Int) : Bool := cached.updatedAt + staleTime ≤ now

inductive Fetch where
  | sent
  /-- The row as the API has read it. -/
  | answered (row : Option Event)
  deriving DecidableEq

structure Page where
  form : FormState := {}
  isPending : Bool := false
  deriving DecidableEq

structure Mutation where
  payload : UpdateEventPayload
  /-- Which opening of the page began it. -/
  opening : Nat
  /-- Whether the API has stored the update, once it has run. -/
  answer : Option Bool := none
  deriving DecidableEq

/-- The row of the event, and the browser that edits it. -/
structure World where
  now : Int
  row : Option Event
  cache : Option Cached := none
  fetch : Option Fetch := none
  isError : Bool := false
  page : Option Page := none
  openings : Nat := 0
  mutations : List Mutation := []
  deriving DecidableEq

inductive Action where
  | wait (duration : Nat)
  /-- Anything else writes the row. -/
  | write (row : Option Event)
  | openPage
  | leave
  | reconnect
  | answer
  | arrive
  | fetchFails
  | edit (change : Edit)
  | save
  /-- The API runs the update of a mutation. -/
  | update (index : Nat)
  | succeed (index : Nat)
  | fail (index : Nat)
  | collect
  deriving DecidableEq

namespace World

/-- The query is fetched, unless it is fresh or being fetched. -/
def fetched (world : World) : World :=
  if (world.cache.all fun cached => cached.isStale world.now) ∧ world.fetch = none then
    { world with fetch := some .sent, isError := world.isError && world.cache.isSome }
  else world

/-- The form appears when the event has been fetched, and no fetch has failed since. -/
def formShown (world : World) : Option Page :=
  if world.isError = false ∧ world.cache.isSome then world.page else none

/-- The effect of the page, for an event other than the one it has. -/
def synced (world : World) (data : Event) : Option Page :=
  if world.cache.map (·.data) = some data then world.page
  else world.page.map fun page => { page with form := formOf data }

def step (browser : Browser) (world : World) : Action → Option World
  | .wait duration => some { world with now := world.now + duration }
  | .write row => some { world with row }
  | .openPage =>
    if world.page = none then
      some (fetched
        { world with
          page := some { form := (world.cache.map fun cached => formOf cached.data).getD {} }
          openings := world.openings + 1 })
    else none
  | .leave => world.page.map fun _ => { world with page := none }
  | .reconnect => world.page.map fun _ => world.fetched
  | .answer =>
    if world.fetch = some .sent then some { world with fetch := some (.answered world.row) } else none
  | .arrive =>
    match world.fetch with
    | some (.answered (some data)) =>
      some
        { world with
          cache := some { data, updatedAt := world.now }
          fetch := none
          isError := false
          page := world.synced data }
    | _ => none
  | .fetchFails => world.fetch.map fun _ => { world with fetch := none, isError := true }
  | .edit change =>
    world.formShown.map fun page => { world with page := some { page with form := page.form.edit change } }
  | .save =>
    world.formShown.bind fun page =>
      if isFormDisabled page.form page.isPending then none
      else
        match updatePayload browser page.form with
        | none => some world
        | some payload =>
          some
            { world with
              page := some { page with isPending := true }
              mutations := world.mutations ++ [{ payload, opening := world.openings }] }
  | .update index =>
    world.mutations[index]?.bind fun mutation =>
      if mutation.answer = none then
        match updateAdminEvent world.row mutation.payload with
        | .ok after =>
          some
            { world with
              row := some after
              mutations := world.mutations.set index { mutation with answer := some true } }
        | .error _ =>
          some
            { world with
              mutations := world.mutations.set index { mutation with answer := some false } }
      else none
  | .succeed index =>
    world.mutations[index]?.bind fun mutation =>
      if mutation.answer = some true then
        some { world with page := none, mutations := world.mutations.eraseIdx index }
      else none
  | .fail index =>
    world.mutations[index]?.map fun mutation =>
      { world with
        page :=
          if mutation.opening = world.openings then
            world.page.map fun page => { page with isPending := false }
          else world.page
        mutations := world.mutations.eraseIdx index }
  | .collect =>
    if world.page = none ∧ world.cache.any fun cached => cached.updatedAt + gcTime ≤ world.now then
      some { world with cache := none, isError := false }
    else none

def run (browser : Browser) (world : World) (actions : List Action) : Option World :=
  runSteps (step browser) world actions

end World

end SogeconApp.Source.EventEditor
