import SogeconApp.Source.PartialUpdates

/-!
# Partial updates and NOT NULL columns

The schemas of the five updates tell an unset field from a null one, and let a client set a null
where the column is NOT NULL, as they let it set a value that the column type does not take.
Nothing between the schema and the database looks at either, so an update keeps its row whole if
and only if the payload does neither, or one of the service's own checks refuses it first.
-/

namespace SogeconApp.Guarantees.PartialUpdates

open Library Source.PartialUpdates
open Source.Accounts (TextRules)
open Source.Posts (Instant)
open Source.PostWrites (PostCategory PostUpdate PostObject)

/-- An error of the API. -/
def ApiError (reason : Failure) : Prop := ∃ code detail status, reason = .api code detail status

theorem database_not_api (refusal : Refusal UniqueColumn) : ¬ApiError (.database refusal) := by
  rintro ⟨code, detail, status, same⟩
  cases same

theorem withRow_found {ρ : Type} {table : Int → Option ρ} {id : Int} {row : ρ}
    (found : table id = some row) (code detail : String) (next : ρ → Result ρ) :
    withRow table id code detail next = next row := by
  simp only [withRow, getRow, found]

/-! ## Posts -/

/-- What the payload sets `published_at` to. -/
def publishedAtField (payload : PostUpdate) : Option (Option Instant) :=
  if payload.unpublish then some none else payload.publishedAt

def PostFits (payload : PostUpdate) : Prop :=
  (varchar 255).Fits payload.title ∧ text.Fits payload.content ∧
    timestamp.Fits (publishedAtField payload) ∧
    (varchar 512).Fits payload.coverImage ∧ texts.Fits payload.images

def PostNotNull (payload : PostUpdate) : Prop :=
  payload.title ≠ some none ∧ payload.content ≠ some none ∧ payload.pinned ≠ some none

theorem set_category (payload : PostUpdate) (post : PostObject) :
    (post.set payload).category =
    (payload.category.map fun category => some category.text).getD post.category := by
  unfold PostObject.set
  cases payload.category <;> rfl

/-- The date of publication is set to what the payload says of it, or stays. -/
theorem set_publishedAt (payload : PostUpdate) (post : PostObject) :
    (post.set payload).publishedAt = (publishedAtField payload).getD post.publishedAt := by
  simp only [PostObject.set, publishedAtField]
  split <;> rfl

/-- The categories of the schema are texts that the column takes. -/
theorem category_fits (payload : PostUpdate) :
    (varchar 64).Fits (payload.category.map fun category => some category.text) := by
  intro value set
  obtain ⟨category, -, same⟩ := Option.map_eq_some_iff.mp set
  cases same
  cases category <;> decide

/-- The columns take the post exactly if they take what the payload sets. -/
theorem post_unfit (post : Post) (payload : PostUpdate) :
    (postMapping.check ((postMapping.load post).set payload)).unfit = [] ↔ PostFits payload := by
  have category := category_fits payload
  simp only [postMapping, set_category, set_publishedAt]
  simp only [PostObject.set, Checked.unfit_seq, Checked.unfit_map, List.append_eq_nil_iff,
    Column.unfit_required, Column.unfit_optional, Column.fits_whole, category, PostFits, and_assoc,
    and_true]

/-- No NOT NULL column is null exactly if the payload sets none of them to null. -/
theorem post_nulls (post : Post) (payload : PostUpdate) :
    (postMapping.check ((postMapping.load post).set payload)).nulls = [] ↔ PostNotNull payload := by
  simp only [postMapping, PostObject.set, Checked.nulls_seq, Checked.nulls_map,
    List.append_eq_nil_iff, Column.nulls_required, Column.nulls_optional, PostNotNull, and_assoc,
    and_true]

variable {posts : Int → Option Post} {postId : Int} {post : Post}

/-- The repository keeps the row whole exactly on the payloads that fit and set no such null. -/
theorem updatePost_sound (found : posts postId = some post) (payload : PostUpdate) :
    (updatePost posts postId payload).Sound ApiError postMapping posts postId ↔
      PostFits payload ∧ PostNotNull payload := by
  rw [updatePost, withRow_found found,
    postMapping.save_sound found (fun _ _ clash => by cases clash)
    fun _ => database_not_api _, post_unfit, post_nulls]

/-- The check of the service refuses the payload. -/
def BoardCategoryRefused (post : Post) (payload : PostUpdate) : Prop :=
  ∃ category, payload.category = some category ∧ crossesBoundary post category = true

theorem updateAdminPost_sound (found : posts postId = some post) (payload : PostUpdate) :
    (updateAdminPost posts postId payload).Sound ApiError postMapping posts postId ↔
      BoardCategoryRefused post payload ∨ PostFits payload ∧ PostNotNull payload := by
  have update := updatePost_sound found payload
  unfold updateAdminPost
  cases named : payload.category with
  | none =>
    have passed : ¬BoardCategoryRefused post payload := by
      rintro ⟨category, same, -⟩
      rw [named] at same
      cases same
    rw [update, or_iff_right passed]
  | some category =>
    simp only [withRow_found found]
    have refused : BoardCategoryRefused post payload ↔ crossesBoundary post category = true := by
      simp only [BoardCategoryRefused, named, Option.some.injEq, exists_eq_left']
    rw [refused]
    split
    · next crosses => exact iff_of_true (Outcome.raised_sound ⟨_, _, _, rfl⟩) (.inl crosses)
    · next stays => rw [update, or_iff_right stays]

/-! ## Events -/

def EventFits (payload : EventUpdate) : Prop :=
  (varchar 255).Fits payload.title ∧ text.Fits payload.description ∧
    timestamp.Fits payload.startsAt ∧ timestamp.Fits payload.endsAt ∧
    (varchar 255).Fits payload.location ∧ integer.Fits payload.capacity

def EventNotNull (payload : EventUpdate) : Prop :=
  payload.title ≠ some none ∧ payload.startsAt ≠ some none ∧ payload.endsAt ≠ some none ∧
    payload.location ≠ some none ∧ payload.capacity ≠ some none

theorem event_unfit (event : Event) (payload : EventUpdate) :
    (eventMapping.check ((eventMapping.load event).set payload)).unfit = [] ↔
      EventFits payload := by
  simp only [eventMapping, eventColumns, EventObject.set, Checked.unfit_seq, Checked.unfit_map,
    List.append_eq_nil_iff, Column.unfit_required, Column.unfit_optional, EventFits, and_assoc]

theorem event_nulls (event : Event) (payload : EventUpdate) :
    (eventMapping.check ((eventMapping.load event).set payload)).nulls = [] ↔
      EventNotNull payload := by
  simp only [eventMapping, eventColumns, EventObject.set, Checked.nulls_seq, Checked.nulls_map,
    List.append_eq_nil_iff, Column.nulls_required, Column.nulls_optional, EventNotNull, and_assoc,
    and_true]

/-- An event is kept whole exactly on the payloads that fit and set no such null. -/
theorem updateEvent_sound {events : Int → Option Event} {eventId : Int} {event : Event}
    (found : events eventId = some event) (payload : EventUpdate) :
    (updateEvent events eventId payload).Sound ApiError eventMapping events eventId ↔
      EventFits payload ∧ EventNotNull payload := by
  rw [updateEvent, withRow_found found,
    eventMapping.save_sound found (fun _ _ clash => by cases clash)
    fun _ => database_not_api _, event_unfit, event_nulls]

/-- The capacity that an event is stored with is the one that the payload sets, or the one it had. -/
theorem stored_capacity {event stored : Event} {payload : EventUpdate}
    (checked : (eventMapping.check ((eventMapping.load event).set payload)).value = some stored) :
    payload.capacity = some (some stored.capacity.val) ∨
      payload.capacity = none ∧ stored.capacity = event.capacity := by
  obtain ⟨_, capacity, five, passed, rfl⟩ := Checked.passed_seq checked
  obtain ⟨_, location, four, -, rfl⟩ := Checked.passed_seq five
  obtain ⟨_, endsAt, three, -, rfl⟩ := Checked.passed_seq four
  obtain ⟨_, startsAt, two, -, rfl⟩ := Checked.passed_seq three
  obtain ⟨_, description, one, -, rfl⟩ := Checked.passed_seq two
  obtain ⟨title, -, rfl⟩ := Checked.passed_map one
  obtain ⟨given, set, accepted⟩ := Column.passed_required passed
  have kept : capacity.val = given := Column.stored_checked accepted
  change payload.capacity.getD (some event.capacity.val) = some given at set
  change payload.capacity = some (some capacity.val) ∨
    payload.capacity = none ∧ capacity = event.capacity
  rw [kept]
  cases unset : payload.capacity with
  | none =>
    rw [unset, Option.getD_none, Option.some.injEq] at set
    exact .inr ⟨rfl, Subtype.ext (kept.trans set.symm)⟩
  | some value =>
    rw [unset, Option.getD_some] at set
    exact .inl (congrArg some set)

/-- What an update does to the events: nothing, or it stores the event, with the capacity that the
payload sets or with the one it had. -/
theorem updateEvent_cases (events : Int → Option Event) (eventId : Int) (payload : EventUpdate) :
    (updateEvent events eventId payload).table = events ∨
    ∃ event stored, events eventId = some event ∧
      (updateEvent events eventId payload).table = Function.update events eventId (some stored) ∧
      (payload.capacity = some (some stored.capacity.val) ∨
        payload.capacity = none ∧ stored.capacity = event.capacity) := by
  cases found : events eventId with
  | none =>
    have missed : updateEvent events eventId payload =
        .raised events (.api "event_not_found" "Event not found" 404) := by
      simp only [updateEvent, withRow, getRow, found]
    rw [missed]
    exact .inl rfl
  | some event =>
    rw [updateEvent, withRow_found found]
    rcases eventMapping.save_cases with same | ⟨stored, checked, saved⟩
    · exact .inl same
    · exact .inr ⟨event, stored, rfl, saved, stored_capacity checked⟩

/-! ## Hero items -/

def HeroItemFits (payload : HeroItemUpdate) : Prop :=
  integer.Fits payload.targetId ∧ (varchar 255).Fits payload.titleOverride ∧
    text.Fits payload.descriptionOverride ∧ (varchar 512).Fits payload.imageOverride

def HeroItemNotNull (payload : HeroItemUpdate) : Prop :=
  payload.targetType ≠ some none ∧ payload.targetId ≠ some none ∧ payload.enabled ≠ some none ∧
    payload.pinned ≠ some none

theorem heroItem_unfit (item : HeroItem) (payload : HeroItemUpdate) :
    (heroItemMapping.check ((heroItemMapping.load item).set payload)).unfit = [] ↔
      HeroItemFits payload := by
  simp only [heroItemMapping, HeroItemObject.set, Checked.unfit_seq, Checked.unfit_map,
    List.append_eq_nil_iff, Column.unfit_required, Column.unfit_optional, Column.fits_whole,
    HeroItemFits, and_assoc, and_true, true_and]

theorem heroItem_nulls (item : HeroItem) (payload : HeroItemUpdate) :
    (heroItemMapping.check ((heroItemMapping.load item).set payload)).nulls = [] ↔
      HeroItemNotNull payload := by
  simp only [heroItemMapping, HeroItemObject.set, Checked.nulls_seq, Checked.nulls_map,
    List.append_eq_nil_iff, Column.nulls_required, Column.nulls_optional, HeroItemNotNull,
    and_assoc, and_true]

/-- The lookup of a target finds none. -/
def Missing (targets : Targets) (targetType : HeroTargetType) (targetId : Int) : Prop :=
  IsInteger targetId ∧
    match targetType with
    | .post => targets.posts targetId = none
    | .event => targets.events targetId = none

/-- The payload names a target, and the lookup finds none. -/
def TargetMissing (targets : Targets) (item : HeroItem) (payload : HeroItemUpdate) : Prop :=
  ∃ targetType targetId, nextTarget item payload = some (targetType, targetId) ∧
    Missing targets targetType targetId

variable {targets : Targets} {items : Int → Option HeroItem} {heroItemId : Int} {item : HeroItem}

/-- The repository keeps a hero item whole on the same kind of payloads. -/
theorem updateHeroItem_sound (found : items heroItemId = some item) (payload : HeroItemUpdate) :
    (updateHeroItem items heroItemId payload).Sound ApiError heroItemMapping items heroItemId ↔
      HeroItemFits payload ∧ HeroItemNotNull payload := by
  rw [updateHeroItem, withRow_found found,
    heroItemMapping.save_sound found (fun _ _ clash => by cases clash)
    fun _ => database_not_api _, heroItem_unfit, heroItem_nulls]

/-- The check of a target passes, raises an error of the API where the target is missing, or fails on an
id that no column takes. -/
theorem ensureTargetExists_cases (targets : Targets) (targetType : HeroTargetType)
    (targetId : Int) :
    (ensureTargetExists targets targetType targetId = .ok () ∧
      ¬Missing targets targetType targetId) ∨
    (∃ reason, ensureTargetExists targets targetType targetId = .error reason ∧ ApiError reason ∧
      Missing targets targetType targetId) ∨
    ∃ reason, ensureTargetExists targets targetType targetId = .error reason ∧ ¬ApiError reason ∧
      ¬IsInteger targetId := by
  by_cases fits : IsInteger targetId
  · cases targetType with
    | post =>
      cases found : targets.posts targetId with
      | none => simp [ensureTargetExists, getRow, Missing, Except.map, ApiError, fits, found]
      | some post => simp [ensureTargetExists, getRow, Missing, Except.map, fits, found]
    | event =>
      cases found : targets.events targetId with
      | none => simp [ensureTargetExists, getRow, Missing, Except.map, ApiError, fits, found]
      | some event => simp [ensureTargetExists, getRow, Missing, Except.map, fits, found]
  · exact .inr (.inr ⟨_, if_neg fits, database_not_api _, fits⟩)

/-- A key beyond `INTEGER` is one that the payload sets. -/
theorem nextTarget_unfit {payload : HeroItemUpdate} {targetType : HeroTargetType} {targetId : Int}
    (named : nextTarget item payload = some (targetType, targetId)) (beyond : ¬IsInteger targetId) :
    ¬HeroItemFits payload := by
  intro fits
  simp only [nextTarget] at named
  split at named
  · cases set : payload.targetId with
    | none =>
      simp only [set, Option.join_none, Option.getD_none] at named
      cases named
      exact beyond item.targetId.property
    | some value =>
      cases value with
      | none =>
        simp only [set, Option.join_some, Option.getD_none] at named
        cases named
        exact beyond item.targetId.property
      | some value =>
        simp only [set, Option.join_some, Option.getD_some] at named
        cases named
        exact beyond ((Column.accept_checked _).mp (fits.1 _ set))
  · cases named

theorem updateAdminHeroItem_sound (found : items heroItemId = some item)
    (payload : HeroItemUpdate) :
    (updateAdminHeroItem targets items heroItemId payload).Sound ApiError heroItemMapping
        items heroItemId ↔
      TargetMissing targets item payload ∨ HeroItemFits payload ∧ HeroItemNotNull payload := by
  have update := updateHeroItem_sound found payload
  unfold updateAdminHeroItem
  rw [withRow_found found]
  cases named : nextTarget item payload with
  | none =>
    have passed : ¬TargetMissing targets item payload := by
      rintro ⟨targetType, targetId, same, -⟩
      rw [named] at same
      cases same
    rw [update, or_iff_right passed]
  | some target =>
    obtain ⟨targetType, targetId⟩ := target
    have missing : TargetMissing targets item payload ↔ Missing targets targetType targetId := by
      simp only [TargetMissing, named, Option.some.injEq, Prod.mk.injEq, and_assoc, exists_and_left,
        exists_eq_left']
    rw [missing]
    rcases ensureTargetExists_cases targets targetType targetId with
      ⟨exists_, there⟩ | ⟨reason, absent, known, missed⟩ | ⟨reason, refused, unknown, beyond⟩
    · simp only [exists_]
      rw [update, or_iff_right there]
    · simp only [absent]
      exact iff_of_true (Outcome.raised_sound known) (.inl missed)
    · simp only [refused]
      refine iff_of_false (Outcome.raised_unsound unknown) ?_
      rintro (missed | ⟨fits, -⟩)
      · exact beyond missed.1
      · exact nextTarget_unfit named beyond fits

/-! ## Members -/

def MemberFits (payload : MemberUpdate) : Prop :=
  (varchar 255).Fits payload.email ∧ (varchar 255).Fits payload.major ∧
    (varchar 10).Fits payload.birthDate ∧ (varchar 64).Fits payload.phone ∧
    (varchar 255).Fits payload.company ∧ (varchar 255).Fits payload.department ∧
    (varchar 255).Fits payload.jobTitle ∧ (varchar 64).Fits payload.companyPhone ∧
    (varchar 255).Fits payload.addrPersonal ∧ (varchar 255).Fits payload.addrCompany ∧
    (varchar 255).Fits payload.industry

def MemberNotNull (payload : MemberUpdate) : Prop := payload.visibility ≠ some none

def AdminMemberFits (payload : AdminMemberUpdate) : Prop :=
  MemberFits payload.toMemberUpdate ∧ (varchar 255).Fits payload.name ∧ integer.Fits payload.cohort

def AdminMemberNotNull (payload : AdminMemberUpdate) : Prop :=
  MemberNotNull payload.toMemberUpdate ∧ payload.name ≠ some none ∧ payload.cohort ≠ some none ∧
    payload.status ≠ some none

theorem member_unfit (member : Member) (payload : AdminMemberUpdate) :
    (memberMapping.check ((memberMapping.load member).set payload)).unfit = [] ↔
      AdminMemberFits payload := by
  simp only [memberMapping, MemberObject.set, Checked.unfit_seq, Checked.unfit_map,
    Checked.unfit_pure, List.append_eq_nil_iff, Column.unfit_required, Column.unfit_optional,
    Column.fits_whole, AdminMemberFits, MemberFits, and_assoc, and_true]
  constructor
  · rintro ⟨email, name, cohort, major, birthDate, phone, company, department, jobTitle,
      companyPhone, addrPersonal, addrCompany, industry⟩
    exact ⟨email, major, birthDate, phone, company, department, jobTitle, companyPhone,
      addrPersonal, addrCompany, industry, name, cohort⟩
  · rintro ⟨email, major, birthDate, phone, company, department, jobTitle, companyPhone,
      addrPersonal, addrCompany, industry, name, cohort⟩
    exact ⟨email, name, cohort, major, birthDate, phone, company, department, jobTitle,
      companyPhone, addrPersonal, addrCompany, industry⟩

theorem member_nulls (member : Member) (payload : AdminMemberUpdate) :
    (memberMapping.check ((memberMapping.load member).set payload)).nulls = [] ↔
      AdminMemberNotNull payload := by
  simp only [memberMapping, MemberObject.set, Checked.nulls_seq, Checked.nulls_map,
    Checked.nulls_pure, List.append_eq_nil_iff, Column.nulls_required, Column.nulls_optional,
    AdminMemberNotNull, MemberNotNull, and_assoc, and_true, true_and]
  constructor
  · rintro ⟨name, cohort, status, visibility⟩
    exact ⟨visibility, name, cohort, status⟩
  · rintro ⟨visibility, name, cohort, status⟩
    exact ⟨name, cohort, status, visibility⟩

/-- A key that is taken is told to the client. -/
theorem memberConflict_unique (driver : DriverMessages) (index : UniqueColumn) :
    ApiError (memberConflict driver.message (.database (.unique index))) := by
  have email := driver.email
  have phone := driver.phone
  simp only [memberConflict]
  split
  · exact ⟨_, _, _, rfl⟩
  · next other =>
    split
    · exact ⟨_, _, _, rfl⟩
    · next neither => cases index <;> simp_all

variable {rules : TextRules} (driver : DriverMessages) {members : Members} {memberId : Int}
    {member : Member}

/-- A profile is kept whole where an address or a number is found in use, or where the payload fits and
sets no such null. -/
theorem saveProfile_sound (found : members.rows memberId = some member)
    (payload : AdminMemberUpdate) :
    (saveProfile driver members memberId payload).Sound ApiError memberMapping
        members.rows memberId ↔
      (emailInUse members memberId payload.toMemberUpdate = true ∨
        phoneInUse members memberId payload.toMemberUpdate = true) ∨
      AdminMemberFits payload ∧ AdminMemberNotNull payload := by
  unfold saveProfile
  split
  · next taken => exact iff_of_true (Outcome.raised_sound ⟨_, _, _, rfl⟩) (.inl (.inl taken))
  · next free =>
    split
    · next taken => exact iff_of_true (Outcome.raised_sound ⟨_, _, _, rfl⟩) (.inl (.inr taken))
    · next unused =>
      have none_taken := not_or.mpr ⟨free, unused⟩
      rw [or_iff_right none_taken, repoUpdateMemberProfile, withRow_found found,
        Mapping.rescue_save]
      refine (memberMapping.save_sound found ?_ ?_).trans (by rw [member_unfit, member_nulls])
      · intro stored index _
        exact memberConflict_unique driver index
      · intro columns
        exact database_not_api _

/-- Sanitizing a payload sets no field to null that must not be. -/
theorem sanitize_notNull (payload : AdminMemberUpdate) :
    AdminMemberNotNull (payload.sanitize rules) ↔ AdminMemberNotNull payload := by
  have name : payload.name.map (Option.map rules.strip) ≠ some none ↔ payload.name ≠ some none := by
    simp
  simp only [AdminMemberNotNull, MemberNotNull, AdminMemberUpdate.sanitize, MemberUpdate.sanitize,
    name]

theorem updateMemberProfileAdmin_sound (found : members.rows memberId = some member)
    (payload : AdminMemberUpdate) :
    (updateMemberProfileAdmin rules driver members memberId payload).Sound ApiError
        memberMapping members.rows memberId ↔
      (deactivatesLastSuperAdmin rules members member payload.status = true ∨
        emailInUse members memberId (payload.sanitize rules).toMemberUpdate = true ∨
        phoneInUse members memberId (payload.sanitize rules).toMemberUpdate = true) ∨
      AdminMemberFits (payload.sanitize rules) ∧ AdminMemberNotNull payload := by
  have save := saveProfile_sound driver found (payload.sanitize rules)
  unfold updateMemberProfileAdmin
  rw [withRow_found found]
  split
  · next empty =>
    subst empty
    refine iff_of_true (Outcome.unchanged_sound found) (.inr ⟨?_, ?_⟩)
    · simp [AdminMemberFits, MemberFits, AdminMemberUpdate.sanitize, MemberUpdate.sanitize]
    · simp [AdminMemberNotNull, MemberNotNull]
  · split
    · next last => exact iff_of_true (Outcome.raised_sound ⟨_, _, _, rfl⟩) (.inl (.inl last))
    · next others => rw [save, sanitize_notNull, or_iff_right others]

/-- The member's own update has the checks of the address and of the number alone. -/
theorem updateMemberProfile_sound (found : members.rows memberId = some member)
    (payload : MemberUpdate) :
    (updateMemberProfile rules driver members memberId payload).Sound ApiError
        memberMapping members.rows memberId ↔
      (emailInUse members memberId (payload.sanitize rules) = true ∨
        phoneInUse members memberId (payload.sanitize rules) = true) ∨
      MemberFits (payload.sanitize rules) ∧ MemberNotNull payload := by
  have save := saveProfile_sound driver found { toMemberUpdate := payload.sanitize rules }
  unfold updateMemberProfile
  split
  · next empty =>
    subst empty
    have unchanged :
        (memberMapping.load member).set { toMemberUpdate := {} } = memberMapping.load member := rfl
    rw [repoUpdateMemberProfile, withRow_found found, unchanged, Mapping.save, if_pos rfl]
    refine iff_of_true (Outcome.unchanged_sound found) (.inr ⟨?_, ?_⟩)
    · simp [MemberFits, MemberUpdate.sanitize]
    · simp [MemberNotNull]
  · have fits : AdminMemberFits { toMemberUpdate := payload.sanitize rules } ↔
        MemberFits (payload.sanitize rules) := by
      simp [AdminMemberFits]
    have notNull : AdminMemberNotNull { toMemberUpdate := payload.sanitize rules } ↔
        MemberNotNull payload := by
      simp [AdminMemberNotNull, MemberNotNull, MemberUpdate.sanitize]
    rw [save, fits, notNull]

/-! ## The five updates -/

/-- For every payload and every existing row: the update succeeds without a null in a NOT NULL
column, or raises an error of the API and leaves the row, and never sends a null for such a column,
exactly when a check of the service refuses it, or the payload sets no such column to null and every
value that it sets is one the column takes. -/
theorem partial_updates_sound (rules : TextRules) (driver : DriverMessages) :
    (∀ (posts : Int → Option Post) postId post (payload : PostUpdate), posts postId = some post →
      ((updateAdminPost posts postId payload).Sound ApiError postMapping posts postId ↔
        BoardCategoryRefused post payload ∨ PostFits payload ∧ PostNotNull payload)) ∧
    (∀ (events : Int → Option Event) eventId event (payload : EventUpdate),
      events eventId = some event →
      ((updateEvent events eventId payload).Sound ApiError eventMapping events eventId ↔
        EventFits payload ∧ EventNotNull payload)) ∧
    (∀ (targets : Targets) (items : Int → Option HeroItem) heroItemId item
        (payload : HeroItemUpdate), items heroItemId = some item →
      ((updateAdminHeroItem targets items heroItemId payload).Sound ApiError heroItemMapping
          items heroItemId ↔
        TargetMissing targets item payload ∨ HeroItemFits payload ∧ HeroItemNotNull payload)) ∧
    (∀ (members : Members) memberId member (payload : MemberUpdate),
      members.rows memberId = some member →
      ((updateMemberProfile rules driver members memberId payload).Sound ApiError
          memberMapping members.rows memberId ↔
        (emailInUse members memberId (payload.sanitize rules) = true ∨
          phoneInUse members memberId (payload.sanitize rules) = true) ∨
        MemberFits (payload.sanitize rules) ∧ MemberNotNull payload)) ∧
    ∀ (members : Members) memberId member (payload : AdminMemberUpdate),
      members.rows memberId = some member →
      ((updateMemberProfileAdmin rules driver members memberId payload).Sound ApiError
          memberMapping members.rows memberId ↔
        (deactivatesLastSuperAdmin rules members member payload.status = true ∨
          emailInUse members memberId (payload.sanitize rules).toMemberUpdate = true ∨
          phoneInUse members memberId (payload.sanitize rules).toMemberUpdate = true) ∨
        AdminMemberFits (payload.sanitize rules) ∧ AdminMemberNotNull payload) := by
  refine ⟨?_, ?_, ?_, ?_, ?_⟩
  · intro posts postId post payload found
    exact updateAdminPost_sound found payload
  · intro events eventId event payload found
    exact updateEvent_sound found payload
  · intro targets items heroItemId item payload found
    exact updateAdminHeroItem_sound found payload
  · intro members memberId member payload found
    exact updateMemberProfile_sound driver found payload
  · intro members memberId member payload found
    exact updateMemberProfileAdmin_sound driver found payload

/-! ## One row -/

/-- A table with one row. -/
def only {ρ : Type} (id : Int) (row : ρ) (key : Int) : Option ρ :=
  if key = id then some row else none

def notice : Post where
  title := ⟨"Notice", by decide⟩
  content := ⟨"Text", by decide⟩
  category := some ⟨"notice", by decide⟩
  pinned := false
  publishedAt := none
  coverImage := none
  images := none

def reunion : Event where
  title := ⟨"Reunion", by decide⟩
  description := none
  startsAt := ⟨0, by decide⟩
  endsAt := ⟨3600000, by decide⟩
  location := ⟨"Hall", by decide⟩
  capacity := ⟨30, by decide⟩

def banner : HeroItem where
  targetType := .event
  targetId := ⟨7, by decide⟩
  enabled := true
  pinned := false
  titleOverride := none
  descriptionOverride := none
  imageOverride := none

def kim : Member where
  email := none
  name := ⟨"Kim", by decide⟩
  cohort := ⟨10, by decide⟩
  major := none
  roles := ["member"]
  status := .active
  visibility := .all
  birthDate := none
  birthLunar := none
  phone := none
  company := none
  department := none
  jobTitle := none
  companyPhone := none
  addrPersonal := none
  addrCompany := none
  industry := none

def onlyKim : Members where
  rows := only 1 kim
  keys := [1]
  distinct := by decide
  listed id there := by
    by_cases mine : id = 1
    · simp [mine]
    · simp [only, mine] at there

def driverMessages : DriverMessages where
  message
    | .unique .email => "violates unique constraint \"ix_members_email\""
    | .unique .phone => "violates unique constraint \"ix_members_phone\""
    | _ => "violates not-null constraint"
  email := by decide
  phone := by decide

theorem partial_updates_sound_one_row :
    (updateAdminPost (only 3 notice) 3 { coverImage := some none }).Sound ApiError postMapping
      (only 3 notice) 3 ∧
    (updateEvent (only 7 reunion) 7 { capacity := some (some 40) }).Sound ApiError eventMapping
      (only 7 reunion) 7 ∧
    (updateAdminHeroItem ⟨only 3 notice, only 7 reunion⟩ (only 1 banner) 1
      { targetId := some (some 8) }).Sound ApiError heroItemMapping (only 1 banner) 1 ∧
    (updateMemberProfile .plain driverMessages onlyKim 1
      { visibility := some (some .cohort) }).Sound ApiError memberMapping onlyKim.rows 1 ∧
    ¬(updateMemberProfileAdmin .plain driverMessages onlyKim 1 { name := some none }).Sound
      ApiError memberMapping onlyKim.rows 1 := by
  obtain ⟨posts, events, heroItems, profiles, administered⟩ :=
    partial_updates_sound .plain driverMessages
  refine ⟨?_, ?_, ?_, ?_, ?_⟩
  · exact (posts _ 3 notice _ rfl).mpr
      (.inr ⟨by simp [PostFits, publishedAtField], by simp [PostNotNull]⟩)
  · refine (events _ 7 reunion _ rfl).mpr ⟨?_, by simp [EventNotNull]⟩
    simp only [EventFits, Column.fits_unset, true_and]
    decide
  · exact (heroItems _ _ 1 banner _ rfl).mpr (.inl ⟨.event, 8, rfl, by decide, rfl⟩)
  · exact (profiles _ 1 kim _ rfl).mpr
      (.inr ⟨by simp [MemberFits, MemberUpdate.sanitize], by simp [MemberNotNull]⟩)
  · rw [administered _ 1 kim _ rfl]
    rintro ((last | taken | taken) | ⟨-, notNull⟩)
    · cases last
    · cases taken
    · cases taken
    · exact notNull.2.1 rfl

/-- A null title reaches the database, which refuses it with an error that is not the API's. -/
theorem null_title_reaches_database :
    (updateEvent (only 7 reunion) 7 { title := some none }).nullsSent = ["title"] ∧
    (updateEvent (only 7 reunion) 7 { title := some none }).reply =
      .error (.database (.notNull ["title"])) ∧
    ¬(updateEvent (only 7 reunion) 7 { title := some none }).Sound ApiError eventMapping
      (only 7 reunion) 7 := by
  have sent :
      (updateEvent (only 7 reunion) 7 { title := some none }).nullsSent = ["title"] := by decide
  refine ⟨sent, by decide, fun sound => ?_⟩
  have quiet := sound.quiet
  rw [sent] at quiet
  cases quiet

end SogeconApp.Guarantees.PartialUpdates
