import SogeconApp.Source.Accounts.Store

/-!
# Accounts: roles and members

Source: `apps/api/services/roles_service.py`, `members_service.py`
(update_member_roles, update_member_profile_admin, create_member_direct) and
`repositories/members.py`. A row is flushed at the next flush or commit; a loaded row with
no change is not flushed. The order in which Python runs through a set of tokens is not
specified; here it is the order of their declaration.
-/

namespace SogeconApp.Source.Accounts

open Library Program

abbrev Handler (α : Type) := Program accounts α

abbrev ask (stmt : Stmt) : Handler (Reply stmt) := @issue accounts stmt

/-! ## services/roles_service.py -/

def adminPermissionTokens : List String :=
  ["admin_posts", "admin_events", "admin_hero", "admin_notifications", "admin_signup", "admin_roles",
    "admin_profile", "admin_support"]

def allowedRoleTokens : List String :=
  ["member", "admin", "super_admin"] ++ adminPermissionTokens

/-- `str.strip` and `str.lower`, which leave the role tokens as they are. -/
structure TextRules where
  strip : String → String
  lower : String → String
  strip_token : ∀ token ∈ allowedRoleTokens, strip token = token
  lower_token : ∀ token ∈ allowedRoleTokens, lower token = token

/-- On texts without blanks at their ends and without capitals. -/
def TextRules.plain : TextRules where
  strip text := text
  lower text := text
  strip_token _ _ := rfl
  lower_token _ _ := rfl

inductive RoleGrade where
  | member | admin | superAdmin
  deriving DecidableEq, Repr

structure RoleProfile where
  grade : RoleGrade
  permissions : List String

def normalizeRoles (text : TextRules) (value : List String) : List String :=
  ((value.filter fun part => text.strip part ≠ "").map fun part => text.lower (text.strip part)).eraseDups

def ensureMemberRole (roles : List String) : List String :=
  if "member" ∈ roles then roles else "member" :: roles

def parseRoles (text : TextRules) (rawRoles : List String) : RoleProfile :=
  let tokens := normalizeRoles text rawRoles
  { grade :=
      if "super_admin" ∈ tokens then .superAdmin
      else if "admin" ∈ tokens then .admin
      else .member
    permissions := tokens.filter fun token => token ∈ adminPermissionTokens }

def normalizeAssignableRoles (text : TextRules) (value : List String) : List String :=
  let filtered := (normalizeRoles text value).filter fun role => role ∈ allowedRoleTokens
  ensureMemberRole <|
    if "super_admin" ∈ filtered then
      filtered ++ ("admin" :: adminPermissionTokens).filter fun token => token ∉ filtered
    else if "admin" ∉ filtered then
      filtered.filter fun role => role ∉ adminPermissionTokens
    else filtered

/-- The parts of the stored string. -/
def serializeRoles (roles : List String) : List String := roles.eraseDups

/-! ## repositories/members.py -/

def repoGetMember (studentId : String) : Handler Member := do
  match ← ask (.getMember studentId) with
  | some member => pure member
  | none => raise (.api "member_not_found")

/-- The flush of a loaded member row. -/
def saveMember (studentId : String) (loaded latest : Member) : Handler Unit :=
  if latest = loaded then pure () else ask (.flushMember studentId loaded latest)

/-- `serialize_super_admin_changes=True`: the transaction lock comes before the count. -/
def countActiveSuperAdmins : Handler Nat := do
  ask .advisoryLock
  ask (.countActiveMembersWithRole "super_admin")

def repoUpdateMemberRoles (studentId : String) (member : Member) (roles : List String) : Handler Unit := do
  saveMember studentId member { member with roles }
  ask .commit
  ask .refresh

/-! ## services/members_service.py -/

/-- The loaded row says that the new roles remove a super_admin. -/
def demotes (text : TextRules) (member : Member) (normalizedRoles : List String) : Bool :=
  (parseRoles text member.roles).grade = .superAdmin ∧ "super_admin" ∉ normalizedRoles

def ensureNotLastSuperAdmin (code : String) : Handler Unit := do
  let superAdminCount ← countActiveSuperAdmins
  if superAdminCount ≤ 1 then raise (.api code) else pure ()

def updateMemberRoles (text : TextRules) (studentId actorStudentId : String) (roles : List String) :
    Handler Unit := do
  let member ← repoGetMember studentId
  let normalizedRoles := normalizeAssignableRoles text roles
  if studentId = actorStudentId ∧ demotes text member normalizedRoles = true then
    raise (.api "self_demotion_forbidden")
  else if demotes text member normalizedRoles then
    ensureNotLastSuperAdmin "last_super_admin_forbidden"
    repoUpdateMemberRoles studentId member (serializeRoles normalizedRoles)
  else
    repoUpdateMemberRoles studentId member (serializeRoles normalizedRoles)

/-- A field that is unset, set to null, or set to a value. -/
abbrev Field (α : Type) := Option (Option α)

/-- The payload of the administrator's update, less the fields that nothing here reads. -/
structure AdminMemberUpdate where
  email : Field String := none
  phone : Field String := none
  name : Field String := none
  cohort : Field Int := none
  major : Field String := none
  status : Field MemberStatus := none
  deriving DecidableEq, Repr

/-- The loaded row says that the new status deactivates an active super_admin. -/
def deactivatesSuperAdmin (text : TextRules) (member : Member) (nextStatus : Field MemberStatus) : Bool :=
  match nextStatus with
  | some (some status) =>
    status ≠ .active ∧ member.status = .active ∧ (parseRoles text member.roles).grade = .superAdmin
  | _ => false

def ensureNotDeactivatingLastSuperAdmin (text : TextRules) (member : Member)
    (nextStatus : Field MemberStatus) : Handler Unit :=
  if deactivatesSuperAdmin text member nextStatus then ensureNotLastSuperAdmin "last_super_admin_forbidden"
  else pure ()

/-- `value or None`. -/
def orNone (value : String) : Option String := if value = "" then none else some value

/-- `sanitized_data`: the strings are stripped, an e-mail address is put in lower case. -/
def sanitize (text : TextRules) (payload : AdminMemberUpdate) : AdminMemberUpdate :=
  { payload with
    email := payload.email.map fun value => value.bind fun email => orNone (text.lower (text.strip email))
    phone := payload.phone.map fun value => value.bind fun phone => orNone (text.strip phone)
    name := payload.name.map fun value => value.map text.strip
    major := payload.major.map fun value => value.map text.strip }

/-- The e-mail address and the phone number of the payload are not another member's. -/
def ensureEmailFree (studentId : String) (payload : AdminMemberUpdate) : Handler Unit := do
  match payload.email with
  | some (some email) =>
    if ← ask (.emailTaken email (some studentId)) then raise (.api "member_email_already_in_use") else pure ()
  | _ => pure ()

def ensurePhoneFree (studentId : String) (payload : AdminMemberUpdate) : Handler Unit := do
  match payload.phone with
  | some (some phone) =>
    if ← ask (.phoneTaken phone (some studentId)) then raise (.api "member_phone_already_in_use") else pure ()
  | _ => pure ()

/-- `setattr` for every field that is set; `none` when a column must not be null. -/
def AdminMemberUpdate.applyTo (member : Member) (updates : AdminMemberUpdate) : Option Member := do
  let name ← updates.name.getD (some member.name)
  let cohort ← updates.cohort.getD (some member.cohort)
  let status ← updates.status.getD (some member.status)
  pure { member with
    email := updates.email.getD member.email
    phone := updates.phone.getD member.phone
    major := updates.major.getD member.major
    name, cohort, status }

/-- `members_repo.update_member_profile_admin`: `db.get` returns the object already loaded. -/
def repoUpdateMemberProfileAdmin (studentId : String) (member : Member) (updates : AdminMemberUpdate) :
    Handler Unit :=
  match updates.applyTo member with
  | some latest => do
    saveMember studentId member latest
    ask .commit
    ask .refresh
  | none => raise .notNull

/-- `_raise_member_conflict_from_integrity_error`, after the rollback. -/
def memberConflict : Failure → Handler Unit
  | .unique .memberPhone => do ask .rollback; raise (.api "member_phone_already_in_use")
  | .unique .memberEmail => do ask .rollback; raise (.api "member_email_already_in_use")
  | .unique .memberStudentId => do ask .rollback; raise (.api "member_exists")
  | .unique column => do ask .rollback; raise (.unique column)
  | .notNull => do ask .rollback; raise .notNull
  | reason => raise reason

def updateMemberProfileAdmin (text : TextRules) (studentId : String) (payload : AdminMemberUpdate) :
    Handler Unit := do
  let member ← repoGetMember studentId
  if payload = {} then
    pure ()
  else
    ensureNotDeactivatingLastSuperAdmin text member payload.status
    ensureEmailFree studentId (sanitize text payload)
    ensurePhoneFree studentId (sanitize text payload)
    (repoUpdateMemberProfileAdmin studentId member (sanitize text payload)).catchWith memberConflict

structure DirectMemberCreatePayload where
  studentId : String
  email : String
  name : String
  cohort : Int
  roles : List String := ["member"]
  deriving DecidableEq, Repr

def createMemberDirect (text : TextRules) (payload : DirectMemberCreatePayload) :
    Handler ActivationPayload := do
  match ← ask (.getMember payload.studentId) with
  | some _ => raise (.api "member_exists")
  | none =>
    if ← ask (.emailTaken payload.email none) then
      raise (.api "member_email_already_in_use")
    else
      ask (.insertMember payload.studentId
        { email := some payload.email, name := payload.name, cohort := payload.cohort, major := none
          roles := serializeRoles (normalizeAssignableRoles text payload.roles), status := .active })
      let id ← ask (.insertSignupRequest
        { studentId := payload.studentId, email := payload.email, name := payload.name
          cohort := payload.cohort, status := .approved })
      (ask .commit).catchWith memberConflict
      ask .refresh
      pure ⟨id, payload.studentId⟩

end SogeconApp.Source.Accounts
