import SogeconApp.Source.EventTimes

/-!
# The timing of an event on the server and on the web

Of the three status filters of the admin list exactly one selects an event, and it is the one of the
web's timing, except at an instant before the start at which the event has already ended, or which
lies in the same millisecond as the start. Nothing keeps an event from ending before it starts.
-/

namespace SogeconApp.Guarantees.EventTimes

open Library Source.EventTimes Source.Listings
open Source.Directory (whenTruthy)
open Source.PartialUpdates (varchar text integer)

/-- The timing that the web has for a status. -/
def timingOf : EventStatus → EventTiming
  | .upcoming => .upcoming
  | .ongoing => .ongoing
  | .ended => .past

/-- At the millisecond, one filter selects the event, and it is the filter of the web's timing. -/
def Agrees (search : TitleSearch) (event : Event) (id current : Int) : Prop :=
  ∃ status, (∀ other, Selected search other (1000 * current) (event.toRow id) ↔ other = status) ∧
    getEventTiming event current = timingOf status

variable {search : TitleSearch} {row : EventRow} {now : Int}

@[simp] theorem selected_upcoming : Selected search .upcoming now row ↔ now < row.startsAt := by
  simp [Selected, adminEventConditions, whenTruthy]

@[simp] theorem selected_ongoing :
    Selected search .ongoing now row ↔ row.startsAt ≤ now ∧ now ≤ row.endsAt := by
  simp [Selected, adminEventConditions, whenTruthy]

@[simp] theorem selected_ended : Selected search .ended now row ↔ row.endsAt < now := by
  simp [Selected, adminEventConditions, whenTruthy]

/-! ## The web's timing in the units of the database -/

/-- An instant lies before a millisecond exactly if the one that the web makes of it does. -/
theorem getTime_lt {instant current : Int} : getTime instant < current ↔ instant < 1000 * current := by
  unfold getTime
  omega

/-- What the web makes of an instant is reached in the millisecond in which the instant lies, be it
earlier than the instant. -/
theorem getTime_le {instant current : Int} : getTime instant ≤ current ↔ instant < 1000 * current + 1000 := by
  unfold getTime
  omega

variable {event : Event} {id current : Int}

/-- The web takes an event that has ended for a past one. -/
theorem timing_past (ended : event.endsAt.val < 1000 * current) : getEventTiming event current = .past := by
  simp only [getEventTiming, getTime_lt, if_pos ended]

/-- An event that has not ended is ongoing from the millisecond of its start on. -/
theorem timing_ongoing (lasts : 1000 * current ≤ event.endsAt.val)
    (started : event.startsAt.val < 1000 * current + 1000) : getEventTiming event current = .ongoing := by
  simp only [getEventTiming, getTime_lt, getTime_le, if_neg (not_lt.mpr lasts), if_pos started]

theorem timing_upcoming (lasts : 1000 * current ≤ event.endsAt.val)
    (ahead : 1000 * current + 1000 ≤ event.startsAt.val) : getEventTiming event current = .upcoming := by
  simp only [getEventTiming, getTime_lt, getTime_le, if_neg (not_lt.mpr lasts), if_neg (not_lt.mpr ahead)]

/-! ## Agreement -/

/-- The two agree on an event that has started and ended. -/
theorem agrees_of_ended (started : event.startsAt.val ≤ 1000 * current)
    (ended : event.endsAt.val < 1000 * current) : Agrees search event id current := by
  refine ⟨.ended, ?_, timing_past ended⟩
  intro other
  cases other with
  | upcoming => simp [Event.toRow, started]
  | ongoing => simp [Event.toRow, ended]
  | ended => simp [Event.toRow, ended]

theorem agrees_of_ongoing (started : event.startsAt.val ≤ 1000 * current)
    (lasts : 1000 * current ≤ event.endsAt.val) : Agrees search event id current := by
  refine ⟨.ongoing, ?_, timing_ongoing lasts (by omega)⟩
  intro other
  cases other with
  | upcoming => simp [Event.toRow, started]
  | ongoing => simp [Event.toRow, started, lasts]
  | ended => simp [Event.toRow, lasts]

theorem agrees_of_upcoming (ahead : 1000 * current + 1000 ≤ event.startsAt.val)
    (lasts : 1000 * current ≤ event.endsAt.val) : Agrees search event id current := by
  have before : 1000 * current < event.startsAt.val := by omega
  refine ⟨.upcoming, ?_, timing_upcoming lasts ahead⟩
  intro other
  cases other with
  | upcoming => simp [Event.toRow, before]
  | ongoing => simp [Event.toRow, before]
  | ended => simp [Event.toRow, lasts]

/-- Before the start, and after the end or within the millisecond of the start. -/
def Crossed (event : Event) (current : Int) : Prop :=
  1000 * current < event.startsAt.val ∧
    (event.endsAt.val < 1000 * current ∨ event.startsAt.val < 1000 * current + 1000)

instance (event : Event) (current : Int) : Decidable (Crossed event current) :=
  inferInstanceAs (Decidable (_ ∧ _))

theorem agrees_iff : Agrees search event id current ↔ ¬Crossed event current := by
  constructor
  · rintro ⟨status, only, timing⟩ ⟨before, ended | starting⟩
    · -- Both filters select the event.
      have first := (only .upcoming).mp (selected_upcoming.mpr before)
      have second := (only .ended).mp (selected_ended.mpr ended)
      rw [← second] at first
      cases first
    · have upcoming := (only .upcoming).mp (selected_upcoming.mpr before)
      subst upcoming
      by_cases ended : event.endsAt.val < 1000 * current
      · rw [timing_past ended] at timing
        cases timing
      · rw [timing_ongoing (not_lt.mp ended) starting] at timing
        cases timing
  · intro apart
    unfold Crossed at apart
    by_cases started : event.startsAt.val ≤ 1000 * current
    · by_cases ended : event.endsAt.val < 1000 * current
      · exact agrees_of_ended started ended
      · exact agrees_of_ongoing started (not_lt.mp ended)
    · exact agrees_of_upcoming (by omega) (by omega)

/-- The instants that cross an event are none if it starts on a whole millisecond and ends no more than
one before its start. -/
theorem never_crossed_iff :
    (∀ current, ¬Crossed event current) ↔
      1000 ∣ event.startsAt.val ∧ event.startsAt.val ≤ event.endsAt.val + 1000 := by
  unfold Crossed
  constructor
  · intro never
    have sameMillisecond := never (event.startsAt.val / 1000)
    have justAfterEnd := never (event.endsAt.val / 1000 + 1)
    omega
  · intro aligned current
    omega

/-- Every event can be stored by creating it. -/
theorem stored_every (event : Event) : Stored event := by
  have created : createEvent
      { title := (varchar 255).load event.title
        description := event.description.map text.load
        startsAt := moment.load event.startsAt
        endsAt := moment.load event.endsAt
        location := (varchar 255).load event.location
        capacity := integer.load event.capacity } = some event := eventMapping.check_load event
  exact .created created

/-- Every event can be stored. The server and the web agree on it at exactly the instants that do not
cross it, and always if and only if no instant does. -/
theorem event_timing_agrees_iff (search : TitleSearch) (event : Event) (id : Int) :
    Stored event ∧ (∀ current, Agrees search event id current ↔ ¬Crossed event current) ∧
      ((∀ current, Agrees search event id current) ↔
        1000 ∣ event.startsAt.val ∧ event.startsAt.val ≤ event.endsAt.val + 1000) := by
  refine ⟨stored_every event, fun current => agrees_iff, ?_⟩
  simp only [agrees_iff, never_crossed_iff]

/-- From 10:00:02 to 10:00:00. -/
def reversed : Event where
  title := ⟨"reunion", by decide⟩
  description := none
  startsAt := ⟨1767261602000000, by decide⟩
  endsAt := ⟨1767261600000000, by decide⟩
  location := ⟨"Seoul", by decide⟩
  capacity := ⟨12, by decide⟩

/-- Both `upcoming` and `ended` select the event that the API has stored. -/
theorem reversed_event_is_listed_twice :
    createEvent
        { title := "reunion", startsAt := 1767261602000000, endsAt := 1767261600000000, location := "Seoul",
          capacity := 12 } = some reversed ∧
      ∀ search, Selected search .upcoming 1767261601000000 (reversed.toRow 1) ∧
        Selected search .ended 1767261601000000 (reversed.toRow 1) ∧
          ¬Agrees search reversed 1 1767261601000 := by
  refine ⟨by decide +kernel, fun search => ⟨?_, ?_, ?_⟩⟩
  · exact selected_upcoming.mpr (by decide)
  · exact selected_ended.mpr (by decide)
  · rw [agrees_iff]
    decide

end SogeconApp.Guarantees.EventTimes
