import SogeconApp.Source.Accounts.Members

/-!
# Sessions and permission checks

Source: `apps/api/services/auth_service.py` (session parsing, `_refresh_user_session` and the
permission dependencies), `roles_service.py` (normalize_roles of any object, has_permission)
and `repositories/members.py` (get_member_by_student_id).

A session is the decoded JSON object behind the signed cookie; the order of its keys is not
kept. A database state is the list of its member rows, with the columns that these functions
read. `int(str)` is a parameter; a database that fails is not modelled.
-/

namespace SogeconApp.Source.Auth

open SogeconApp.Source.Accounts

inductive Value where
  | null
  | bool (value : Bool)
  | int (value : Int)
  | float (literal : String)
  | text (value : String)
  | list (items : List Value)
  | dict (entries : List (String × Value))

abbrev Session := List (String × Value)

/-- `dict.get`. -/
def getKey (entries : List (String × Value)) (key : String) : Value :=
  (entries.lookup key).getD .null

def setKey (session : Session) (key : String) (value : Value) : Session :=
  (key, value) :: session.filter fun entry => entry.1 ≠ key

/-- `dict.pop` with a default. -/
def popKey (session : Session) (key : String) : Session :=
  session.filter fun entry => entry.1 ≠ key

inductive Failure where
  | http (statusCode : Nat) (detail : String)
  | valueError
  deriving DecidableEq, Repr

/-- A request handler over the session, which keeps its writes when it raises. -/
abbrev Handler := ExceptT Failure (StateM Session)

/-- The text rules of the roles, and `int` on a text. -/
structure SessionRules extends TextRules where
  intOf : String → Option Int

structure MemberRow where
  id : Int
  studentId : String
  email : Option String
  roles : String
  status : MemberStatus
  deriving DecidableEq, Repr

structure CurrentAdmin where
  id : Int
  email : String
  studentId : String
  deriving DecidableEq, Repr

structure CurrentMember where
  studentId : String
  id : Option Int
  deriving DecidableEq, Repr

structure CurrentUser where
  studentId : String
  roles : List String
  id : Option Int
  email : Option String
  deriving DecidableEq, Repr

/-! ## services/roles_service.py -/

/-- `str.split(",")`, by the part read so far. -/
def splitComma (part : List Char) : List Char → List String
  | [] => [String.ofList part.reverse]
  | char :: rest =>
    if char = ',' then String.ofList part.reverse :: splitComma [] rest
    else splitComma (char :: part) rest

def textItem : Value → Option String
  | .text value => some value
  | _ => none

/-- `normalize_roles` of any object. -/
def normalizeRolesOf (text : TextRules) : Value → List String
  | .text value => normalizeRoles text (splitComma [] value.toList)
  | .list items => normalizeRoles text (items.filterMap textItem)
  | _ => []

def hasPermission (text : TextRules) (rawRoles : List String) (permission : String)
    (allowAdminFallback : Bool) : Bool :=
  let profile := parseRoles text rawRoles
  if profile.grade = .superAdmin then true
  else if permission ∈ profile.permissions then true
  else if allowAdminFallback = true ∧ profile.grade = .admin then true
  else false

/-! ## repositories/members.py -/

def getMemberByStudentId (members : List MemberRow) (studentId : String) : Option MemberRow :=
  members.find? fun row => row.studentId = studentId

/-! ## Session parsing -/

/-- `int(mid) if isinstance(mid, (int, str)) else None`; a Python bool is an int. -/
def sessionId (rules : SessionRules) : Value → Except Failure (Option Int)
  | .int value => .ok (some value)
  | .bool value => .ok (some (if value then 1 else 0))
  | .text value =>
    match rules.intOf value with
    | some number => .ok (some number)
    | none => .error .valueError
  | _ => .ok none

def getUserSession (rules : SessionRules) (session : Session) : Except Failure (Option CurrentUser) :=
  match getKey session "user" with
  | .dict data =>
    match getKey data "student_id" with
    | .text studentId =>
      if studentId = "" then .ok none
      else
        match sessionId rules (getKey data "id") with
        | .error failure => .error failure
        | .ok id => .ok (some
            { studentId
              roles := normalizeRolesOf rules.toTextRules (getKey data "roles")
              id
              email := textItem (getKey data "email") })
    | _ => .ok none
  | _ => .ok none

/-- The entry that `_set_user_session` stores. -/
def userEntry (user : CurrentUser) : Value :=
  .dict
    [("student_id", .text user.studentId),
      ("roles", .list (user.roles.map .text)),
      ("id", match user.id with | some id => .int id | none => .null),
      ("email", match user.email with | some email => .text email | none => .null)]

def setUserSession (user : CurrentUser) : Handler Unit :=
  modify fun session => setKey session "user" (userEntry user)

def cleared (session : Session) : Session :=
  popKey (popKey (popKey session "user") "member") "admin"

def clearSession : Handler Unit := modify cleared

def unauthorized : Failure := .http 401 "unauthorized"

def refreshedUser (text : TextRules) (member : MemberRow) : CurrentUser where
  studentId := member.studentId
  roles := ensureMemberRole (normalizeRolesOf text (.text member.roles))
  id := some member.id
  email := member.email

def refreshUserSession (rules : SessionRules) (members : List MemberRow) (user : CurrentUser) :
    Handler CurrentUser :=
  match getMemberByStudentId members user.studentId with
  | none => do
    clearSession
    throw unauthorized
  | some member =>
    if member.status ≠ .active then do
      clearSession
      throw unauthorized
    else do
      let refreshed := refreshedUser rules.toTextRules member
      if refreshed ≠ user then setUserSession refreshed
      return refreshed

/-! ## Permission checks -/

/-- `user = _get_user_session(req)` and, when there is one, its refresh. -/
def currentUser (rules : SessionRules) (members : List MemberRow) : Handler (Option CurrentUser) := do
  match getUserSession rules (← get) with
  | .error failure => throw failure
  | .ok none => return none
  | .ok (some user) => return some (← refreshUserSession rules members user)

def requireAdmin (rules : SessionRules) (members : List MemberRow) : Handler CurrentAdmin := do
  match ← currentUser rules members with
  | none => throw unauthorized
  | some user =>
    if "admin" ∉ user.roles ∧ "super_admin" ∉ user.roles then throw (.http 403 "admin_required")
    else
      return {
        id := user.id.getD 0
        email := match user.email with
          | some email => if email = "" then user.studentId else email
          | none => user.studentId
        studentId := user.studentId }

/-- An empty sequence of permissions fails when the dependency is built. -/
def requireAnyPermission (rules : SessionRules) (permissions : List String) (allowAdminFallback : Bool)
    (members : List MemberRow) : Handler CurrentUser :=
  if permissions = [] then throw .valueError
  else do
    match ← currentUser rules members with
    | none => throw unauthorized
    | some user =>
      if permissions.any fun permission =>
          hasPermission rules.toTextRules user.roles permission allowAdminFallback then
        return user
      else throw (.http 403 "admin_permission_required")

def requireSuperAdmin (rules : SessionRules) (members : List MemberRow) : Handler CurrentUser := do
  match ← currentUser rules members with
  | none => throw unauthorized
  | some user =>
    if "super_admin" ∈ user.roles then return user
    else throw (.http 403 "super_admin_required")

/-- `except HTTPException as exc`: a 401 answers False, after the session was cleared. -/
def falseOnUnauthorized (body : Handler Bool) : Handler Bool :=
  tryCatch body fun
    | .http 401 _ => return false
    | failure => throw failure

def isAdmin (rules : SessionRules) (members : List MemberRow) : Handler Bool :=
  falseOnUnauthorized do
    match ← currentUser rules members with
    | none => return false
    | some user => return decide ("admin" ∈ user.roles ∨ "super_admin" ∈ user.roles)

def hasAnyPermission (rules : SessionRules) (permissions : List String) (members : List MemberRow) :
    Handler Bool :=
  falseOnUnauthorized do
    match ← currentUser rules members with
    | none => return false
    | some user =>
      return permissions.any fun permission =>
        hasPermission rules.toTextRules user.roles permission false

def requireMember (rules : SessionRules) (members : List MemberRow) : Handler CurrentMember := do
  match ← currentUser rules members with
  | none => throw unauthorized
  | some user =>
    if ¬("member" ∈ user.roles ∨ "admin" ∈ user.roles ∨ "super_admin" ∈ user.roles) then
      throw (.http 403 "member_required")
    else return { studentId := user.studentId, id := user.id }

end SogeconApp.Source.Auth
