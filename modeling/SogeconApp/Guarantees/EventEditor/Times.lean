import SogeconApp.Source.EventEditor

/-!
# The times of an event in its editor

The page shows the UTC date and time of an event, in a field that is read as local time. What an
administrator types is stored as its local time, so that the page then shows it as it was typed only
where the local time is that of UTC, and each save of an event as it is shown moves it by the offset.
-/

namespace SogeconApp.Guarantees.EventEditor

open Library
open Source EventTimes Source.EventEditor

variable {browser : Browser}

/-! ## Texts -/

/-- The minute has a date whose year is written with four digits. -/
def FourDigits (minute : Int) : Prop :=
  0 ≤ (Date.ofNumber (minute / 1440)).year ∧ (Date.ofNumber (minute / 1440)).year ≤ 9999

/-- A minute of a year with four digits fits the layout of the field. -/
theorem minuteFields_fits {minute : Int} (digits : FourDigits minute) :
    minuteLayout.Fits (minuteFields minute) := by
  obtain ⟨early, late⟩ := digits
  obtain ⟨january, december, first, -⟩ := (Date.ofNumber (minute / 1440)).valid
  have last := (Date.ofNumber (minute / 1440)).day_le
  simp only [minuteLayout, minuteFields, Layout.Fits]
  refine ⟨by omega, by omega, by omega, by omega, by omega, trivial⟩

/-- What is read is the minute that was written. -/
theorem readMinute_write {minute : Int} (digits : FourDigits minute) :
    readMinute (minuteLayout.write (minuteFields minute)) = some minute := by
  obtain ⟨january, -, first, -⟩ := (Date.ofNumber (minute / 1440)).valid
  have hours : ((minute % 1440 / 60).toNat : Int) = minute % 1440 / 60 := by omega
  have minutes : ((minute % 60).toNat : Int) = minute % 60 := by omega
  have same : Date.mk _ _ _ (Date.ofNumber (minute / 1440)).valid = Date.ofNumber (minute / 1440) := rfl
  rw [readMinute, Layout.read_write (minuteFields_fits digits), minuteFields]
  simp only [Int.toNat_of_nonneg digits.1, Int.toNat_of_nonneg (Int.le_trans (by decide) january),
    Int.toNat_of_nonneg (Int.le_trans (by decide) first), Date.valid]
  rw [dif_pos ⟨trivial, by omega, by omega⟩, same, Date.number_ofNumber, hours, minutes]
  congr 1
  omega

/-- Only that text is read as the minute. -/
theorem readMinute_eq_some {text : Text} {minute : Int} (reads : readMinute text = some minute) :
    FourDigits minute ∧ minuteLayout.write (minuteFields minute) = text := by
  unfold readMinute at reads
  split at reads
  · next year month day hour minute' found =>
    split at reads
    · next valid =>
      cases reads
      obtain ⟨fits, written⟩ := Layout.read_eq_some found
      simp only [minuteLayout, Layout.Fits] at fits
      have number : (1440 * (Date.mk year month day valid.1).number + 60 * hour + minute') / 1440 =
          (Date.mk year month day valid.1).number := by omega
      have hours : ((1440 * (Date.mk year month day valid.1).number + 60 * hour + minute') % 1440 / 60).toNat =
          hour := by omega
      have minutes : ((1440 * (Date.mk year month day valid.1).number + 60 * hour + minute') % 60).toNat =
          minute' := by omega
      constructor
      · unfold FourDigits
        rw [number, Date.ofNumber_number]
        change 0 ≤ (year : Int) ∧ (year : Int) ≤ 9999
        omega
      · rw [← written, minuteFields, number, Date.ofNumber_number, hours, minutes]
        rfl
    · cases reads
  · cases reads

/-! ## What the page shows -/

theorem newYear_first : Date.newYear 1 = -719162 := by decide

theorem newYear_last : Date.newYear 10000 = 2932897 := by decide

/-- The minute of a stored moment. -/
def minuteOf (moment : Moment) : Int := moment.val / 60000000

theorem fourDigits_minuteOf (moment : Moment) : FourDigits (minuteOf moment) := by
  obtain ⟨first, last⟩ := moment.property
  have here := Date.newYear_number (Date.ofNumber (minuteOf moment / 1440))
  rw [Date.number_ofNumber] at here
  have days : -719162 ≤ minuteOf moment / 1440 ∧ minuteOf moment / 1440 < 2932897 := by
    unfold minuteOf
    omega
  rw [← newYear_first, ← newYear_last] at days
  constructor
  · by_contra negative
    have earlier : Date.newYear ((Date.ofNumber (minuteOf moment / 1440)).year + 1) ≤ Date.newYear 1 :=
      Date.newYear_mono (by omega)
    omega
  · by_contra large
    have later : Date.newYear 10000 ≤ Date.newYear (Date.ofNumber (minuteOf moment / 1440)).year :=
      Date.newYear_mono (by omega)
    omega

theorem toLocalInput_eq (moment : Moment) :
    toLocalInput moment = minuteLayout.write (minuteFields (minuteOf moment)) := by
  have minute : getTime moment.val / 60000 = minuteOf moment := by
    unfold getTime minuteOf
    omega
  rw [toLocalInput, toISOString, isoLayout, minute,
    Layout.write_append (minuteFields_fits (fourDigits_minuteOf moment)), List.take_left']
  exact Layout.length_write _ _

/-- The page shows a moment by the minute in UTC, and reads it back as local time. -/
theorem readMinute_toLocalInput (moment : Moment) :
    readMinute (toLocalInput moment) = some (minuteOf moment) := by
  rw [toLocalInput_eq, readMinute_write (fourDigits_minuteOf moment)]

/-- What the page shows is read as local time, and so as another moment unless the offset is none. -/
theorem fromLocalInput_toLocalInput (moment : Moment) :
    fromLocalInput browser (toLocalInput moment) = some (browser.utc (60000 * minuteOf moment)) := by
  rw [fromLocalInput, readMinute_toLocalInput]

theorem toLocalInput_ne_nil (moment : Moment) : toLocalInput moment ≠ [] := by
  intro empty
  have reads := readMinute_toLocalInput moment
  rw [empty] at reads
  cases reads

/-! ## Saves -/

/-- The row after a save of the form. -/
def savedRow (browser : Browser) (form : FormState) (row : Event) : Option Event :=
  if isFormDisabled form false then none
  else (updatePayload browser form).bind fun payload => (updateAdminEvent (some row) payload).toOption

/-- What is stored for a time that the page has shown. -/
def shownTime (browser : Browser) (moment : Moment) : Int := 1000 * browser.utc (60000 * minuteOf moment)

/-- A trimmed text can be stored as well as the text itself. -/
theorem isText_trimmed {text : String} (isText : PartialUpdates.IsText text) :
    PartialUpdates.IsText (trimmed text) := by
  intro null
  unfold trimmed at null
  rw [String.toList_ofList] at null
  exact isText ((trim_sublist _).subset null)

/-- The description without the blanks at its ends, and null if nothing else is there. -/
def tidied (description : Option PartialUpdates.Text) : Option PartialUpdates.Text :=
  description.bind fun text =>
    if trimmed text.val = "" then none else some ⟨trimmed text.val, isText_trimmed text.property⟩

theorem trimmed_trimmed (text : String) : trimmed (trimmed text) = trimmed text := by
  unfold trimmed
  rw [String.toList_ofList, trim_trim]

theorem tidied_tidied (description : Option PartialUpdates.Text) :
    tidied (tidied description) = tidied description := by
  cases description with
  | none => rfl
  | some text =>
    by_cases blank : trimmed text.val = ""
    · simp [tidied, blank]
    · simp [tidied, blank, trimmed_trimmed]

/-- The event with its times moved. -/
def moved (event : Event) (startsAt endsAt : Moment) : Event :=
  { event with description := tidied event.description, startsAt, endsAt }

theorem tidied_val (description : Option PartialUpdates.Text) :
    (tidied description).map (·.val) =
      if trimmed ((description.map (·.val)).getD "") = "" then none
      else some (trimmed ((description.map (·.val)).getD "")) := by
  cases description with
  | none => decide
  | some text =>
    by_cases blank : trimmed text.val = "" <;> simp [tidied, blank]

/-- An event that is saved as it is shown sends its own fields, and its times as the browser reads them.
-/
theorem payload_formOf (event : Event) :
    updatePayload browser (formOf event) = some
      { title := event.title.val
        location := event.location.val
        description := (tidied event.description).map (·.val)
        capacity := some event.capacity.val
        startsAt := some (browser.utc (60000 * minuteOf event.startsAt))
        endsAt := some (browser.utc (60000 * minuteOf event.endsAt)) } := by
  simp only [updatePayload, optionalTime, formOf, toLocalInput_ne_nil, if_false,
    fromLocalInput_toLocalInput, Option.map_some, tidied_val]
  rfl

theorem acceptCapacity_whole (value : Int) : acceptCapacity (value : Rat) = some value := by
  rw [acceptCapacity, if_pos (Rat.den_intCast value), Rat.num_intCast]

/-- The body of a form as it was loaded, once it is accepted: it sets every column. -/
theorem updateEvent_moved (event row : Event) (startsAt endsAt : Moment) :
    EventTimes.updateEvent row
      { title := some (some event.title.val)
        location := some (some event.location.val)
        description := some ((tidied event.description).map (·.val))
        capacity := some (some event.capacity.val)
        startsAt := some (some startsAt.val)
        endsAt := some (some endsAt.val) } = some (moved event startsAt endsAt) :=
  EventTimes.eventMapping.check_load (moved event startsAt endsAt)

/-- A time in milliseconds is accepted if it is a moment that can be stored. -/
theorem acceptTime_eq_some {time accepted : Int} :
    acceptTime time = some accepted ↔ IsMoment (1000 * time) ∧ accepted = 1000 * time := by
  unfold acceptTime
  split
  · next fits => simp [fits, eq_comm]
  · next unfit => simp [unfit]

/-- A body with both times and a whole capacity. -/
theorem updateAdminEvent_eq {row : Event} {title location : String} {description : Option String}
    {capacity startsAt endsAt starts ends : Int} (first : acceptTime startsAt = some starts)
    (last : acceptTime endsAt = some ends) :
    (updateAdminEvent (some row)
        { title, location, description, capacity := some capacity, startsAt := some startsAt,
          endsAt := some endsAt }).toOption =
      EventTimes.updateEvent row
        { title := some (some title), location := some (some location), description := some description,
          capacity := some (some capacity), startsAt := some (some starts), endsAt := some (some ends) } := by
  simp only [updateAdminEvent, acceptUpdate, acceptField, first, last, acceptCapacity_whole, Option.map_some,
    Option.bind_eq_bind, Option.bind_some, Option.pure_def]
  split
  · next after stores =>
    rw [stores]
    rfl
  · next refuses =>
    rw [refuses]
    rfl

theorem updateAdminEvent_refused {row : Option Event} {title location : String} {description : Option String}
    {capacity : Option Rat} {startsAt endsAt : Int}
    (refused : acceptTime startsAt = none ∨ acceptTime endsAt = none) :
    updateAdminEvent row
      { title, location, description, capacity, startsAt := some startsAt, endsAt := some endsAt } =
      .error .refused := by
  rcases refused with refused | refused
  · simp [updateAdminEvent, acceptUpdate, acceptField, refused]
  · cases first : acceptTime startsAt <;> simp [updateAdminEvent, acceptUpdate, acceptField, refused, first]

/-- A form as it was loaded is saved over any row, with the times that the page has shown. -/
theorem savedRow_formOf {event row after : Event} :
    savedRow browser (formOf event) row = some after ↔
      isFormDisabled (formOf event) false = false ∧ ∃ startsAt endsAt : Moment,
        startsAt.val = shownTime browser event.startsAt ∧ endsAt.val = shownTime browser event.endsAt ∧
          after = moved event startsAt endsAt := by
  unfold savedRow
  by_cases disabled : isFormDisabled (formOf event) false = true
  · simp [disabled]
  rw [if_neg disabled, payload_formOf, Option.bind_some]
  simp only [disabled, true_and]
  constructor
  · intro saved
    cases first : acceptTime (browser.utc (60000 * minuteOf event.startsAt)) with
    | none =>
      rw [updateAdminEvent_refused (.inl first)] at saved
      cases saved
    | some starts =>
      cases last : acceptTime (browser.utc (60000 * minuteOf event.endsAt)) with
      | none =>
        rw [updateAdminEvent_refused (.inr last)] at saved
        cases saved
      | some ends =>
        rw [updateAdminEvent_eq first last] at saved
        obtain ⟨startsFits, rfl⟩ := acceptTime_eq_some.mp first
        obtain ⟨endsFits, rfl⟩ := acceptTime_eq_some.mp last
        have stores := updateEvent_moved event row ⟨_, startsFits⟩ ⟨_, endsFits⟩
        rw [stores, Option.some.injEq] at saved
        exact ⟨⟨_, startsFits⟩, ⟨_, endsFits⟩, rfl, rfl, saved.symm⟩
  · rintro ⟨startsAt, endsAt, starts, ends, rfl⟩
    have first : acceptTime (browser.utc (60000 * minuteOf event.startsAt)) = some startsAt.val :=
      acceptTime_eq_some.mpr ⟨by rw [← shownTime, ← starts]; exact startsAt.property, starts⟩
    have last : acceptTime (browser.utc (60000 * minuteOf event.endsAt)) = some endsAt.val :=
      acceptTime_eq_some.mpr ⟨by rw [← shownTime, ← ends]; exact endsAt.property, ends⟩
    rw [updateAdminEvent_eq first last, updateEvent_moved]

/-! ## Rounds -/

/-- The event is opened, saved as it is shown, opened again, and so on. -/
def resaves (browser : Browser) : Nat → Event → Option Event
  | 0, event => some event
  | rounds + 1, event => (savedRow browser (formOf event) event).bind (resaves browser rounds)

theorem disabled_moved (event : Event) (startsAt endsAt : Moment) :
    isFormDisabled (formOf (moved event startsAt endsAt)) false = isFormDisabled (formOf event) false := by
  simp [isFormDisabled, formOf, moved, toLocalInput_ne_nil]

theorem minuteOf_eq {moment : Moment} {minute : Int} (is : moment.val = 60000000 * minute) :
    minuteOf moment = minute := by
  unfold minuteOf
  omega

/-- Where local time is always the same minutes ahead, the page shows and stores whole minutes. -/
theorem shownTime_eq {minutes : Int} (zone : ∀ localTime, browser.offset localTime = 60000 * minutes)
    (moment : Moment) : shownTime browser moment = 60000000 * (minuteOf moment - minutes) := by
  rw [shownTime, Browser.utc, zone]
  omega

/-- A time between two is a moment if they are. -/
theorem isMoment_between {minute minutes : Int} {rounds : Nat} (first : IsMoment (60000000 * minute))
    (last : IsMoment (60000000 * (minute - (rounds + 1 : Nat) * minutes))) :
    IsMoment (60000000 * (minute - minutes)) := by
  unfold IsMoment at first last ⊢
  have whole : ((rounds + 1 : Nat) : Int) * minutes = rounds * minutes + minutes := by
    rw [Int.natCast_add, Int.add_mul]
    omega
  rw [whole] at last
  rcases Int.le_total 0 minutes with ahead | behind
  · have more := Int.mul_nonneg (Int.natCast_nonneg rounds) ahead
    omega
  · have less := Int.mul_nonpos_of_nonneg_of_nonpos (Int.natCast_nonneg rounds) behind
    omega

theorem isMoment_minuteOf (moment : Moment) : IsMoment (60000000 * minuteOf moment) := by
  have range := moment.property
  unfold IsMoment at range ⊢
  unfold minuteOf
  omega

theorem moved_moved (event : Event) (startsAt endsAt first last : Moment) :
    moved (moved event startsAt endsAt) first last = moved event first last := by
  simp only [moved, tidied_tidied]

/-- Saved again and again as it is shown, in a zone that is always the same number of minutes ahead of UTC,
an event keeps its title, place and capacity, loses the blanks around its description, and goes back by
that many minutes each time, until a time would leave the years of `datetime`. -/
theorem unedited_saves_drift {minutes : Int} (zone : ∀ localTime, browser.offset localTime = 60000 * minutes)
    {event after : Event} (rounds : Nat) :
    resaves browser (rounds + 1) event = some after ↔
      isFormDisabled (formOf event) false = false ∧ ∃ startsAt endsAt : Moment,
        startsAt.val = 60000000 * (minuteOf event.startsAt - (rounds + 1 : Nat) * minutes) ∧
          endsAt.val = 60000000 * (minuteOf event.endsAt - (rounds + 1 : Nat) * minutes) ∧
            after = moved event startsAt endsAt := by
  induction rounds generalizing event with
  | zero =>
    rw [resaves, Option.bind_eq_some_iff]
    simp only [resaves, Option.some.injEq, exists_eq_right, savedRow_formOf, shownTime_eq zone, Nat.zero_add,
      Int.natCast_one, Int.one_mul]
  | succ rounds ih =>
    have whole : ((rounds + 1 + 1 : Nat) : Int) * minutes = minutes + (rounds + 1 : Nat) * minutes := by
      rw [Int.natCast_add, Int.add_mul]
      omega
    rw [resaves, Option.bind_eq_some_iff]
    constructor
    · rintro ⟨middle, saved, rest⟩
      obtain ⟨enabled, startsAt, endsAt, starts, ends, rfl⟩ := savedRow_formOf.mp saved
      obtain ⟨-, first, last, firstIs, lastIs, rfl⟩ := ih.mp rest
      rw [shownTime_eq zone] at starts ends
      refine ⟨enabled, first, last, ?_, ?_, moved_moved _ _ _ _ _⟩
      · rw [firstIs, whole, moved, minuteOf_eq starts]
        omega
      · rw [lastIs, whole, moved, minuteOf_eq ends]
        omega
    · rintro ⟨enabled, first, last, firstIs, lastIs, rfl⟩
      have starts : IsMoment (60000000 * (minuteOf event.startsAt - minutes)) :=
        isMoment_between (isMoment_minuteOf _) (firstIs ▸ first.property)
      have ends : IsMoment (60000000 * (minuteOf event.endsAt - minutes)) :=
        isMoment_between (isMoment_minuteOf _) (lastIs ▸ last.property)
      refine ⟨moved event ⟨_, starts⟩ ⟨_, ends⟩,
        savedRow_formOf.mpr ⟨enabled, ⟨_, starts⟩, ⟨_, ends⟩, ?_, ?_, rfl⟩, ?_⟩
      · rw [shownTime_eq zone]
      · rw [shownTime_eq zone]
      · refine ih.mpr ⟨by rw [disabled_moved]; exact enabled, first, last, ?_, ?_, (moved_moved _ _ _ _ _).symm⟩
        · have middle : minuteOf (moved event ⟨_, starts⟩ ⟨_, ends⟩).startsAt =
            minuteOf event.startsAt - minutes :=
            minuteOf_eq rfl
          rw [firstIs, whole, middle]
          omega
        · have middle : minuteOf (moved event ⟨_, starts⟩ ⟨_, ends⟩).endsAt = minuteOf event.endsAt - minutes :=
            minuteOf_eq rfl
          rw [lastIs, whole, middle]
          omega

/-- Nine hours ahead of UTC. -/
def seoul : Browser where
  offset _ := 32400000
  parse _ := none

/-- From 10:00 to 12:00 on 1 March 2026, in UTC. -/
def gathering : Event where
  title := ⟨"gathering", by decide⟩
  description := none
  startsAt := ⟨1772359200000000, by decide⟩
  endsAt := ⟨1772366400000000, by decide⟩
  location := ⟨"Gangnam", by decide⟩
  capacity := ⟨24, by decide⟩

/-- After two saves it is on the day before. -/
theorem unedited_saves_drift_seoul :
    ∃ after, resaves seoul 2 gathering = some after ∧ after.startsAt.val = 1772359200000000 - 64800000000 ∧
      toLocalInput after.startsAt = "2026-02-28T16:00".toList := by
  have minutes : ∀ localTime, seoul.offset localTime = 60000 * 540 := fun _ => rfl
  refine ⟨moved gathering ⟨1772294400000000, by decide⟩ ⟨1772301600000000, by decide⟩,
    (unedited_saves_drift minutes 1).mpr ⟨by decide +kernel, _, _, ?_, ?_, rfl⟩, by decide, by decide +kernel⟩
  · decide
  · decide

/-! ## What is typed -/

theorem passed_times {object : PartialUpdates.EventObject} {stored : Event}
    (passed : (EventTimes.eventMapping.check object).value = some stored) :
    object.startsAt = some stored.startsAt.val ∧ object.endsAt = some stored.endsAt.val := by
  obtain ⟨_, capacity, five, -, rfl⟩ := Checked.passed_seq passed
  obtain ⟨_, location, four, -, rfl⟩ := Checked.passed_seq five
  obtain ⟨_, endsAt, three, ends, rfl⟩ := Checked.passed_seq four
  obtain ⟨_, startsAt, two, starts, rfl⟩ := Checked.passed_seq three
  obtain ⟨_, description, one, -, rfl⟩ := Checked.passed_seq two
  obtain ⟨title, -, rfl⟩ := Checked.passed_map one
  obtain ⟨first, setStarts, keptStarts⟩ := Column.passed_required starts
  obtain ⟨last, setEnds, keptEnds⟩ := Column.passed_required ends
  have startIs : startsAt.val = first := Column.stored_checked keptStarts
  have endIs : endsAt.val = last := Column.stored_checked keptEnds
  exact ⟨by rw [setStarts, ← startIs], by rw [setEnds, ← endIs]⟩

/-- A field is stored as its local time. -/
def Entered (browser : Browser) (field : Text) (moment : Moment) : Prop :=
  ∀ minute, readMinute field = some minute →
    moment.val = 1000 * browser.utc (60000 * minute) ∧
      (toLocalInput moment = field ↔
        -60000 < browser.offset (60000 * minute) ∧ browser.offset (60000 * minute) ≤ 0)

/-- A field that is read as a time, and stored as that, is entered as its local time. -/
theorem entered_of {field : Text} {moment : Moment} {time : Int}
    (reads : fromLocalInput browser field = some time) (stored : moment.val = 1000 * time) :
    Entered browser field moment := by
  intro minute is
  rw [fromLocalInput, is, Option.some.injEq] at reads
  refine ⟨by rw [stored, reads], ?_⟩
  have shows : toLocalInput moment = field ↔ minuteOf moment = minute := by
    constructor
    · intro same
      have again := readMinute_toLocalInput moment
      rw [same, is, Option.some.injEq] at again
      exact again.symm
    · intro same
      rw [toLocalInput_eq, same]
      exact (readMinute_eq_some is).2
  rw [shows, minuteOf, stored, ← reads, Browser.utc]
  omega

/-- A new event has the times that were entered in its form. -/
theorem createEvent_times {form : FormState} {after : Event} (created : createEvent browser form = some after) :
    Entered browser form.startsAt after.startsAt ∧ Entered browser form.endsAt after.endsAt := by
  unfold Source.EventEditor.createEvent at created
  split at created
  · obtain ⟨starts, first, created⟩ := Option.bind_eq_some_iff.mp created
    obtain ⟨ends, last, created⟩ := Option.bind_eq_some_iff.mp created
    obtain ⟨capacity, -, created⟩ := Option.bind_eq_some_iff.mp created
    obtain ⟨startTime, startReads, startFits⟩ := Option.bind_eq_some_iff.mp first
    obtain ⟨endTime, endReads, endFits⟩ := Option.bind_eq_some_iff.mp last
    obtain ⟨startStored, endStored⟩ := passed_times created
    simp only [EventCreate.toObject, Option.some.injEq] at startStored endStored
    obtain ⟨-, rfl⟩ := acceptTime_eq_some.mp startFits
    obtain ⟨-, rfl⟩ := acceptTime_eq_some.mp endFits
    exact ⟨entered_of startReads startStored.symm, entered_of endReads endStored.symm⟩
  · cases created

/-- A field that is not empty is sent as its time, or the page throws. -/
theorem optionalTime_eq_some {field : Text} {sent : Option Int} (given : field ≠ [])
    (sends : optionalTime browser field = some sent) :
    ∃ time, fromLocalInput browser field = some time ∧ sent = some time := by
  rw [optionalTime, if_neg given] at sends
  obtain ⟨time, reads, rfl⟩ := Option.map_eq_some_iff.mp sends
  exact ⟨time, reads, rfl⟩

theorem acceptField_time {time : Int} {accepted : Option (Option Int)}
    (accepts : acceptField acceptTime (some time) = some accepted) : accepted = some (some (1000 * time)) := by
  obtain ⟨moment, fits, rfl⟩ := Option.map_eq_some_iff.mp accepts
  rw [(acceptTime_eq_some.mp fits).2]

/-- A saved event has the times that its form shows, as local times. -/
theorem savedRow_times {form : FormState} {row after : Event} (saved : savedRow browser form row = some after) :
    Entered browser form.startsAt after.startsAt ∧ Entered browser form.endsAt after.endsAt := by
  unfold savedRow at saved
  by_cases disabled : isFormDisabled form false = true
  · rw [if_pos disabled] at saved
    cases saved
  rw [if_neg disabled] at saved
  have given : form.startsAt ≠ [] ∧ form.endsAt ≠ [] := by
    simp only [isFormDisabled, Bool.or_eq_true, decide_eq_true_eq, not_or] at disabled
    exact ⟨disabled.1.2, disabled.2⟩
  obtain ⟨payload, sends, stores⟩ := Option.bind_eq_some_iff.mp saved
  obtain ⟨sentStart, first, sends⟩ := Option.bind_eq_some_iff.mp sends
  obtain ⟨sentEnd, last, sends⟩ := Option.bind_eq_some_iff.mp sends
  obtain ⟨startTime, startReads, rfl⟩ := optionalTime_eq_some given.1 first
  obtain ⟨endTime, endReads, rfl⟩ := optionalTime_eq_some given.2 last
  cases sends
  unfold updateAdminEvent at stores
  split at stores
  · cases stores
  · cases stores
  · next accepted event accepts found =>
    cases found
    obtain ⟨startField, startAccepts, accepts⟩ := Option.bind_eq_some_iff.mp accepts
    obtain ⟨endField, endAccepts, accepts⟩ := Option.bind_eq_some_iff.mp accepts
    obtain ⟨capacity, -, accepts⟩ := Option.bind_eq_some_iff.mp accepts
    cases acceptField_time startAccepts
    cases acceptField_time endAccepts
    cases accepts
    split at stores
    · next stored updates =>
      cases stores
      obtain ⟨startStored, endStored⟩ := passed_times updates
      exact ⟨entered_of startReads (Option.some.inj startStored).symm,
        entered_of endReads (Option.some.inj endStored).symm⟩
    · cases stores

/-- Whatever form is saved: a time typed is stored as that local time, and the page shows it as it was
typed if and only if the local time is not ahead of UTC, and behind it by less than a minute. -/
theorem entered_time_shown_iff {form : FormState} {after : Event}
    (stored : createEvent browser form = some after ∨ ∃ row, savedRow browser form row = some after) :
    Entered browser form.startsAt after.startsAt ∧ Entered browser form.endsAt after.endsAt := by
  rcases stored with created | ⟨row, saved⟩
  · exact createEvent_times created
  · exact savedRow_times saved

/-- Nineteen o'clock in Seoul is shown as ten. -/
theorem entered_time_shown_iff_seoul :
    toLocalInput gathering.startsAt = "2026-03-01T10:00".toList ∧
      Entered seoul "2026-03-01T19:00".toList gathering.startsAt ∧
        Entered seoul "2026-03-01T21:00".toList gathering.endsAt := by
  have created : createEvent seoul
      { title := "gathering", location := "Gangnam", capacity := some 24, startsAt := "2026-03-01T19:00".toList,
        endsAt := "2026-03-01T21:00".toList } = some gathering := by decide +kernel
  exact ⟨by decide +kernel, entered_time_shown_iff (.inl created)⟩

end SogeconApp.Guarantees.EventEditor
