import Mathlib.Algebra.Group.Int.Defs
import SogeconApp.Library.Columns
import SogeconApp.Source.Accounts.Members
import SogeconApp.Source.Directory
import SogeconApp.Source.PostWrites

/-!
# Partial updates

Source: `apps/api/schemas.py` (EventUpdate, HeroItemUpdate, MemberUpdate, AdminMemberUpdate, and the
PostUpdate of the writes of posts), `models.py` (Post, Event, HeroItem, Member),
`services/posts_service.py` (update_admin_post), `events_service.py` (update_event), `hero_service.py`
(update_admin_hero_item), `members_service.py` (update_member_profile, update_member_profile_admin)
and the update functions of the four repositories.

A payload is what its schema has accepted. An update runs alone on the committed rows of its
table, each by its primary key, and a row has the columns that a payload can set and those that
the services read. Of PostgreSQL the column types are modelled: a text without NUL, a `VARCHAR`
that loses only blanks beyond its length, a 32-bit `INTEGER`, and a timestamp that is a `datetime`
in UTC. The values of a literal type, a flag, or a status that a CHECK allows are stored as they are.
-/

namespace SogeconApp.Source.PartialUpdates

open Library
open Accounts (MemberStatus TextRules orNone parseRoles)
open Directory (Visibility)
open Posts (Instant isBoard)
open PostWrites (PostCategory PostUpdate PostObject)

/-! ## Column types -/

def IsText (value : String) : Prop := '\x00' ∉ value.toList

instance (value : String) : Decidable (IsText value) := inferInstanceAs (Decidable (¬_))

def IsVarchar (limit : Nat) (value : String) : Prop := IsText value ∧ value.length ≤ limit

instance (limit : Nat) (value : String) : Decidable (IsVarchar limit value) :=
  inferInstanceAs (Decidable (_ ∧ _))

/-- Blanks beyond the length of a `VARCHAR` are cut off. -/
def cutBlanks (limit : Nat) (value : String) : String :=
  if (value.toList.drop limit).all fun char => char = ' ' then
    String.ofList (value.toList.take limit)
  else value

theorem cutBlanks_short {limit : Nat} {value : String} (short : value.length ≤ limit) :
    cutBlanks limit value = value := by
  have length : value.toList.length ≤ limit := by
    rw [String.length_toList]
    exact short
  simp [cutBlanks, List.drop_eq_nil_of_le length, List.take_of_length_le length]

def IsInteger (value : Int) : Prop := -2 ^ 31 ≤ value ∧ value < 2 ^ 31

instance (value : Int) : Decidable (IsInteger value) := inferInstanceAs (Decidable (_ ∧ _))

/-- From `datetime.min` to `datetime.max`. -/
def IsTimestamp (instant : Instant) : Prop := -62135596800000 ≤ instant ∧ instant ≤ 253402300799999

instance (instant : Instant) : Decidable (IsTimestamp instant) :=
  inferInstanceAs (Decidable (_ ∧ _))

abbrev Text := { value : String // IsText value }

abbrev Varchar (limit : Nat) := { value : String // IsVarchar limit value }

abbrev Integer := { value : Int // IsInteger value }

abbrev Timestamp := { instant : Instant // IsTimestamp instant }

def text : Column String Text := .checked IsText (fun value => value) fun _ _ => rfl

def varchar (limit : Nat) : Column String (Varchar limit) :=
  .checked (IsVarchar limit) (cutBlanks limit) fun _ fits => cutBlanks_short fits.2

def integer : Column Int Integer := .checked IsInteger (fun value => value) fun _ _ => rfl

def timestamp : Column Instant Timestamp :=
  .checked IsTimestamp (fun instant => instant) fun _ _ => rfl

def texts : Column (List String) { items : List String // ∀ item ∈ items, IsText item } :=
  .checked (fun items => ∀ item ∈ items, IsText item) (fun items => items) fun _ _ => rfl

/-! ## Errors -/

/-- The unique indexes of the columns that an update can set. -/
inductive UniqueColumn where
  | email | phone
  deriving DecidableEq, Repr

inductive Failure where
  /-- ApiError, NotFoundError and AlreadyExistsError. -/
  | api (code detail : String) (status : Nat)
  | database (refusal : Refusal UniqueColumn)
  deriving DecidableEq, Repr

abbrev Result (ρ : Type) := Outcome Failure ρ

/-- A row by its primary key. -/
def getRow {ρ : Type} (table : Int → Option ρ) (id : Int) (code detail : String) :
    Except Failure ρ :=
  match table id with
  | some row => .ok row
  | none => .error (.api code detail 404)

/-- The row is read, and the update goes on with it. -/
def withRow {ρ : Type} (table : Int → Option ρ) (id : Int) (code detail : String)
    (next : ρ → Result ρ) : Result ρ :=
  match getRow table id code detail with
  | .ok row => next row
  | .error reason => .raised table reason

/-! ## Posts -/

structure Post where
  title : Varchar 255
  content : Text
  category : Option (Varchar 64)
  pinned : Bool
  publishedAt : Option Timestamp
  coverImage : Option (Varchar 512)
  images : Option { items : List String // ∀ item ∈ items, IsText item }
  deriving DecidableEq

def postMapping : Mapping Post PostObject where
  load post :=
    { title := some ((varchar 255).load post.title)
      content := some (text.load post.content)
      category := post.category.map (varchar 64).load
      pinned := some ((Column.whole Bool).load post.pinned)
      publishedAt := post.publishedAt.map timestamp.load
      coverImage := post.coverImage.map (varchar 512).load
      images := post.images.map texts.load }
  check post :=
    Post.mk <$>
      (varchar 255).required "title" post.title <*>
      text.required "content" post.content <*>
      (varchar 64).optional "category" post.category <*>
      (Column.whole Bool).required "pinned" post.pinned <*>
      timestamp.optional "published_at" post.publishedAt <*>
      (varchar 512).optional "cover_image" post.coverImage <*>
      texts.optional "images" post.images
  check_load post := by simp

def updatePost (posts : Int → Option Post) (postId : Int) (payload : PostUpdate) : Result Post :=
  withRow posts postId "post_not_found" "Post not found" fun post =>
    postMapping.save (fun _ => none) .database posts postId post
      ((postMapping.load post).set payload)

/-- The category of the payload crosses the boundary between board and published posts. -/
def crossesBoundary (post : Post) (category : PostCategory) : Bool :=
  isBoard (post.category.map (·.val)) ≠ isBoard (some category.text)

def updateAdminPost (posts : Int → Option Post) (postId : Int) (payload : PostUpdate) :
    Result Post :=
  match payload.category with
  | none => updatePost posts postId payload
  | some category =>
    withRow posts postId "post_not_found" "Post not found" fun current =>
      if crossesBoundary current category then
        .raised posts (.api "board_category_immutable"
          "post category cannot cross board and published visibility boundaries" 422)
      else updatePost posts postId payload

/-! ## Events -/

/-- An event, its times counted in one unit or another. -/
structure EventColumns (Time : Type) where
  title : Varchar 255
  description : Option Text
  startsAt : Time
  endsAt : Time
  location : Varchar 255
  capacity : Integer
  deriving DecidableEq

abbrev Event := EventColumns Timestamp

structure EventObject where
  title : Option String
  description : Option String
  startsAt : Option Instant
  endsAt : Option Instant
  location : Option String
  capacity : Option Int
  deriving DecidableEq

structure EventUpdate where
  title : Accounts.Field String := none
  description : Accounts.Field String := none
  startsAt : Accounts.Field Instant := none
  endsAt : Accounts.Field Instant := none
  location : Accounts.Field String := none
  capacity : Accounts.Field Int := none
  deriving DecidableEq

/-- `setattr` for each field of the payload. -/
def EventObject.set (payload : EventUpdate) (event : EventObject) : EventObject where
  title := payload.title.getD event.title
  description := payload.description.getD event.description
  startsAt := payload.startsAt.getD event.startsAt
  endsAt := payload.endsAt.getD event.endsAt
  location := payload.location.getD event.location
  capacity := payload.capacity.getD event.capacity

def eventColumns {Time : Type} (time : Column Instant Time) : Mapping (EventColumns Time) EventObject where
  load event :=
    { title := some ((varchar 255).load event.title)
      description := event.description.map text.load
      startsAt := some (time.load event.startsAt)
      endsAt := some (time.load event.endsAt)
      location := some ((varchar 255).load event.location)
      capacity := some (integer.load event.capacity) }
  check event :=
    EventColumns.mk <$>
      (varchar 255).required "title" event.title <*>
      text.optional "description" event.description <*>
      time.required "starts_at" event.startsAt <*>
      time.required "ends_at" event.endsAt <*>
      (varchar 255).required "location" event.location <*>
      integer.required "capacity" event.capacity
  check_load event := by simp

def eventMapping : Mapping Event EventObject := eventColumns timestamp

def updateEvent (events : Int → Option Event) (eventId : Int) (payload : EventUpdate) :
    Result Event :=
  withRow events eventId "event_not_found" "Event not found" fun event =>
    eventMapping.save (fun _ => none) .database events eventId event
      ((eventMapping.load event).set payload)

/-! ## Hero items -/

inductive HeroTargetType where
  | post | event
  deriving DecidableEq, Repr

structure HeroItem where
  targetType : HeroTargetType
  targetId : Integer
  enabled : Bool
  pinned : Bool
  titleOverride : Option (Varchar 255)
  descriptionOverride : Option Text
  imageOverride : Option (Varchar 512)
  deriving DecidableEq

structure HeroItemObject where
  targetType : Option HeroTargetType
  targetId : Option Int
  enabled : Option Bool
  pinned : Option Bool
  titleOverride : Option String
  descriptionOverride : Option String
  imageOverride : Option String
  deriving DecidableEq

structure HeroItemUpdate where
  targetType : Accounts.Field HeroTargetType := none
  targetId : Accounts.Field Int := none
  enabled : Accounts.Field Bool := none
  pinned : Accounts.Field Bool := none
  titleOverride : Accounts.Field String := none
  descriptionOverride : Accounts.Field String := none
  imageOverride : Accounts.Field String := none
  deriving DecidableEq

def HeroItemObject.set (payload : HeroItemUpdate) (item : HeroItemObject) : HeroItemObject where
  targetType := payload.targetType.getD item.targetType
  targetId := payload.targetId.getD item.targetId
  enabled := payload.enabled.getD item.enabled
  pinned := payload.pinned.getD item.pinned
  titleOverride := payload.titleOverride.getD item.titleOverride
  descriptionOverride := payload.descriptionOverride.getD item.descriptionOverride
  imageOverride := payload.imageOverride.getD item.imageOverride

def heroItemMapping : Mapping HeroItem HeroItemObject where
  load item :=
    { targetType := some ((Column.whole HeroTargetType).load item.targetType)
      targetId := some (integer.load item.targetId)
      enabled := some ((Column.whole Bool).load item.enabled)
      pinned := some ((Column.whole Bool).load item.pinned)
      titleOverride := item.titleOverride.map (varchar 255).load
      descriptionOverride := item.descriptionOverride.map text.load
      imageOverride := item.imageOverride.map (varchar 512).load }
  check item :=
    HeroItem.mk <$>
      (Column.whole HeroTargetType).required "target_type" item.targetType <*>
      integer.required "target_id" item.targetId <*>
      (Column.whole Bool).required "enabled" item.enabled <*>
      (Column.whole Bool).required "pinned" item.pinned <*>
      (varchar 255).optional "title_override" item.titleOverride <*>
      text.optional "description_override" item.descriptionOverride <*>
      (varchar 512).optional "image_override" item.imageOverride
  check_load item := by simp

/-- The tables that a hero item can point into. -/
structure Targets where
  posts : Int → Option Post
  events : Int → Option Event

/-- `_ensure_target_exists`. A key beyond `INTEGER` is refused by the database. -/
def ensureTargetExists (targets : Targets) (targetType : HeroTargetType) (targetId : Int) :
    Except Failure Unit :=
  if IsInteger targetId then
    match targetType with
    | .post => (getRow targets.posts targetId "post_not_found" "Post not found").map fun _ => ()
    | .event => (getRow targets.events targetId "event_not_found" "Event not found").map fun _ => ()
  else .error (.database (.data ["id"]))

def updateHeroItem (items : Int → Option HeroItem) (heroItemId : Int) (payload : HeroItemUpdate) :
    Result HeroItem :=
  withRow items heroItemId "hero_item_not_found" "Hero item not found" fun item =>
    heroItemMapping.save (fun _ => none) .database items heroItemId item
      ((heroItemMapping.load item).set payload)

/-- The target that the item would have, if the payload names one. -/
def nextTarget (current : HeroItem) (payload : HeroItemUpdate) : Option (HeroTargetType × Int) :=
  let nextType := payload.targetType.join.getD current.targetType
  let nextId := payload.targetId.join.getD current.targetId.val
  if payload.targetType.join.isSome || payload.targetId.join.isSome then some (nextType, nextId)
  else none

def updateAdminHeroItem (targets : Targets) (items : Int → Option HeroItem) (heroItemId : Int)
    (payload : HeroItemUpdate) : Result HeroItem :=
  withRow items heroItemId "hero_item_not_found" "Hero item not found" fun current =>
    match nextTarget current payload with
    | none => updateHeroItem items heroItemId payload
    | some (nextType, nextId) =>
      match ensureTargetExists targets nextType nextId with
      | .ok () => updateHeroItem items heroItemId payload
      | .error reason => .raised items reason

/-! ## Members -/

structure Member where
  email : Option (Varchar 255)
  name : Varchar 255
  cohort : Integer
  major : Option (Varchar 255)
  roles : List String
  status : MemberStatus
  visibility : Visibility
  birthDate : Option (Varchar 10)
  birthLunar : Option Bool
  phone : Option (Varchar 64)
  company : Option (Varchar 255)
  department : Option (Varchar 255)
  jobTitle : Option (Varchar 255)
  companyPhone : Option (Varchar 64)
  addrPersonal : Option (Varchar 255)
  addrCompany : Option (Varchar 255)
  industry : Option (Varchar 255)
  deriving DecidableEq

structure MemberObject where
  email : Option String
  name : Option String
  cohort : Option Int
  major : Option String
  roles : List String
  status : Option MemberStatus
  visibility : Option Visibility
  birthDate : Option String
  birthLunar : Option Bool
  phone : Option String
  company : Option String
  department : Option String
  jobTitle : Option String
  companyPhone : Option String
  addrPersonal : Option String
  addrCompany : Option String
  industry : Option String
  deriving DecidableEq

structure MemberUpdate where
  email : Accounts.Field String := none
  major : Accounts.Field String := none
  visibility : Accounts.Field Visibility := none
  birthDate : Accounts.Field String := none
  birthLunar : Accounts.Field Bool := none
  phone : Accounts.Field String := none
  company : Accounts.Field String := none
  department : Accounts.Field String := none
  jobTitle : Accounts.Field String := none
  companyPhone : Accounts.Field String := none
  addrPersonal : Accounts.Field String := none
  addrCompany : Accounts.Field String := none
  industry : Accounts.Field String := none
  deriving DecidableEq

structure AdminMemberUpdate extends MemberUpdate where
  name : Accounts.Field String := none
  cohort : Accounts.Field Int := none
  status : Accounts.Field MemberStatus := none
  deriving DecidableEq

def MemberObject.set (payload : AdminMemberUpdate) (member : MemberObject) : MemberObject :=
  { member with
    email := payload.email.getD member.email
    name := payload.name.getD member.name
    cohort := payload.cohort.getD member.cohort
    major := payload.major.getD member.major
    status := payload.status.getD member.status
    visibility := payload.visibility.getD member.visibility
    birthDate := payload.birthDate.getD member.birthDate
    birthLunar := payload.birthLunar.getD member.birthLunar
    phone := payload.phone.getD member.phone
    company := payload.company.getD member.company
    department := payload.department.getD member.department
    jobTitle := payload.jobTitle.getD member.jobTitle
    companyPhone := payload.companyPhone.getD member.companyPhone
    addrPersonal := payload.addrPersonal.getD member.addrPersonal
    addrCompany := payload.addrCompany.getD member.addrCompany
    industry := payload.industry.getD member.industry }

def memberMapping : Mapping Member MemberObject where
  load member :=
    { email := member.email.map (varchar 255).load
      name := some ((varchar 255).load member.name)
      cohort := some (integer.load member.cohort)
      major := member.major.map (varchar 255).load
      roles := member.roles
      status := some ((Column.whole MemberStatus).load member.status)
      visibility := some ((Column.whole Visibility).load member.visibility)
      birthDate := member.birthDate.map (varchar 10).load
      birthLunar := member.birthLunar.map (Column.whole Bool).load
      phone := member.phone.map (varchar 64).load
      company := member.company.map (varchar 255).load
      department := member.department.map (varchar 255).load
      jobTitle := member.jobTitle.map (varchar 255).load
      companyPhone := member.companyPhone.map (varchar 64).load
      addrPersonal := member.addrPersonal.map (varchar 255).load
      addrCompany := member.addrCompany.map (varchar 255).load
      industry := member.industry.map (varchar 255).load }
  check member :=
    Member.mk <$>
      (varchar 255).optional "email" member.email <*>
      (varchar 255).required "name" member.name <*>
      integer.required "cohort" member.cohort <*>
      (varchar 255).optional "major" member.major <*>
      pure member.roles <*>
      (Column.whole MemberStatus).required "status" member.status <*>
      (Column.whole Visibility).required "visibility" member.visibility <*>
      (varchar 10).optional "birth_date" member.birthDate <*>
      (Column.whole Bool).optional "birth_lunar" member.birthLunar <*>
      (varchar 64).optional "phone" member.phone <*>
      (varchar 255).optional "company" member.company <*>
      (varchar 255).optional "department" member.department <*>
      (varchar 255).optional "job_title" member.jobTitle <*>
      (varchar 64).optional "company_phone" member.companyPhone <*>
      (varchar 255).optional "addr_personal" member.addrPersonal <*>
      (varchar 255).optional "addr_company" member.addrCompany <*>
      (varchar 255).optional "industry" member.industry
  check_load member := by simp

/-- The rows by primary key, and the keys that are taken. -/
structure Members where
  rows : Int → Option Member
  keys : List Int
  distinct : keys.Nodup
  listed : ∀ id, (rows id).isSome = true → id ∈ keys

namespace Members

/-- Another member has the value in a column. -/
def taken (members : Members) (memberId : Int) (column : Member → Option String)
    (value : String) : Bool :=
  members.keys.any fun other =>
    decide (other ≠ memberId) && (members.rows other).any fun row => column row = some value

def emailOf (member : Member) : Option String := member.email.map (·.val)

def phoneOf (member : Member) : Option String := member.phone.map (·.val)

/-- The unique index that a row would violate. -/
def clash (members : Members) (memberId : Int) (row : Member) : Option UniqueColumn :=
  if (emailOf row).any (members.taken memberId emailOf) then some .email
  else if (phoneOf row).any (members.taken memberId phoneOf) then some .phone
  else none

/-- `count_active_members_with_role`, for super_admin. -/
def countActiveSuperAdmins (members : Members) : Nat :=
  (members.keys.filter fun id =>
    (members.rows id).any fun row => "super_admin" ∈ row.roles ∧ row.status = .active).length

end Members

/-- `members_repo.update_member_profile` and `update_member_profile_admin`, which have one body. -/
def repoUpdateMemberProfile (members : Members) (memberId : Int) (payload : AdminMemberUpdate) :
    Result Member :=
  withRow members.rows memberId "member_not_found" "Member not found" fun member =>
    memberMapping.save (members.clash memberId) .database members.rows memberId member
      ((memberMapping.load member).set payload)

/-- `part in message`. -/
def containsPart (part message : String) : Bool :=
  message.toList.tails.any fun rest => part.toList.isPrefixOf rest

/-- `_raise_member_conflict_from_integrity_error`; the message is the one of the driver in lower case. -/
def memberConflict (message : Refusal UniqueColumn → String) : Failure → Failure
  | .database (.data columns) => .database (.data columns)
  | .database refusal =>
    let mentions part := containsPart part (message refusal)
    if mentions "ix_members_phone" || mentions "members.phone" || mentions "key (phone)" then
      .api "member_phone_already_in_use" "Phone already in use" 409
    else if mentions "ix_members_email" || mentions "members.email" || mentions "key (email)" then
      .api "member_email_already_in_use" "Email already in use" 409
    else if mentions "ix_members_student_id" || mentions "members.student_id" ||
        mentions "key (student_id)" then
      .api "member_exists" "Student ID already in use" 409
    else .database refusal
  | reason => reason

/-- The messages of the driver, which name the index that a row violates. -/
structure DriverMessages where
  message : Refusal UniqueColumn → String
  email : containsPart "ix_members_email" (message (.unique .email)) = true
  phone : containsPart "ix_members_phone" (message (.unique .phone)) = true

/-- `sanitized_data`: every text is stripped; the e-mail address and the phone number once more, and
an address is put in lower case. -/
def MemberUpdate.sanitize (rules : TextRules) (payload : MemberUpdate) : MemberUpdate :=
  let strip := Option.map (Option.map rules.strip)
  { payload with
    email := payload.email.map fun value => value.bind fun email =>
      orNone (rules.lower (rules.strip (rules.strip email)))
    major := strip payload.major
    birthDate := strip payload.birthDate
    phone := payload.phone.map fun value => value.bind fun phone =>
      orNone (rules.strip (rules.strip phone))
    company := strip payload.company
    department := strip payload.department
    jobTitle := strip payload.jobTitle
    companyPhone := strip payload.companyPhone
    addrPersonal := strip payload.addrPersonal
    addrCompany := strip payload.addrCompany
    industry := strip payload.industry }

def AdminMemberUpdate.sanitize (rules : TextRules) (payload : AdminMemberUpdate) :
    AdminMemberUpdate :=
  { payload with
    toMemberUpdate := payload.toMemberUpdate.sanitize rules
    name := payload.name.map (Option.map rules.strip) }

/-- The address of a sanitized payload is another member's. -/
def emailInUse (members : Members) (memberId : Int) (payload : MemberUpdate) : Bool :=
  payload.email.join.any (members.taken memberId Members.emailOf)

def phoneInUse (members : Members) (memberId : Int) (payload : MemberUpdate) : Bool :=
  payload.phone.join.any (members.taken memberId Members.phoneOf)

/-- The common end of the two services, on the sanitized payload. -/
def saveProfile (driver : DriverMessages) (members : Members) (memberId : Int)
    (payload : AdminMemberUpdate) : Result Member :=
  if emailInUse members memberId payload.toMemberUpdate then
    .raised members.rows (.api "member_email_already_in_use" "Email already in use" 409)
  else if phoneInUse members memberId payload.toMemberUpdate then
    .raised members.rows (.api "member_phone_already_in_use" "Phone already in use" 409)
  else (repoUpdateMemberProfile members memberId payload).rescue (memberConflict driver.message)

/-- The status would deactivate the last active super_admin. -/
def deactivatesLastSuperAdmin (rules : TextRules) (members : Members) (member : Member)
    (nextStatus : Accounts.Field MemberStatus) : Bool :=
  match nextStatus with
  | some (some status) =>
    status ≠ .active ∧ member.status = .active ∧
      (parseRoles rules member.roles).grade = .superAdmin ∧
      members.countActiveSuperAdmins ≤ 1
  | _ => false

def updateMemberProfileAdmin (rules : TextRules) (driver : DriverMessages) (members : Members)
    (memberId : Int) (payload : AdminMemberUpdate) : Result Member :=
  withRow members.rows memberId "member_not_found" "Member not found" fun member =>
    if payload = {} then { reply := .ok member, table := members.rows, nullsSent := [] }
    else if deactivatesLastSuperAdmin rules members member payload.status then
      .raised members.rows
        (.api "last_super_admin_forbidden" "Cannot deactivate the last super_admin" 422)
    else saveProfile driver members memberId (payload.sanitize rules)

def updateMemberProfile (rules : TextRules) (driver : DriverMessages) (members : Members)
    (memberId : Int) (payload : MemberUpdate) : Result Member :=
  if payload = {} then repoUpdateMemberProfile members memberId { toMemberUpdate := payload }
  else saveProfile driver members memberId { toMemberUpdate := payload.sanitize rules }

end SogeconApp.Source.PartialUpdates
