import SogeconApp.Library.FormUrlencoded
import SogeconApp.Library.Traced
import SogeconApp.Source.Accounts.Signup
import SogeconApp.Source.Auth

/-!
# Signing in

Source: `apps/api/services/auth_service.py` (login_member, logout, activate_member,
change_member_password, get_member_email, get_session_info), `passwords.py`,
`repositories/auth.py`, the routes of `routers/auth.py`, and the routes of
`routers/admin_members.py` and `admin_signup_requests.py` that write.

A request begins with the session of the cookie that it presents, which is empty or one that a
response has set before: the middleware signs it, and nothing takes a cookie back. Its
response sets the session that the request leaves. An exception without a handler is answered outside
the middleware, and sets none. A route's member id stands for the student id of its row. A limit,
bcrypt and the signature are statements; a body that fails its validation is no request.
Left out are the expiry of a cookie, the rows of responses and the routes that only read lists.
An object that a check has loaded is read again by the route.
-/

namespace SogeconApp.Source.SignIn

open Library Program Library.FormUrlencoded
open SogeconApp.Source.Accounts (ActivationPayload AdminMemberUpdate DirectMemberCreatePayload Failure
  MemberAuth SignupRequestCreate)
open SogeconApp.Source.Auth (CurrentAdmin CurrentMember CurrentUser MemberRow Session SessionRules)

/-- The keys of the member rows, which nothing changes, and bcrypt. -/
structure Rules extends SessionRules where
  idOf : String → Int
  /-- `none`: ValueError. -/
  checkpw : Bytes → String → Option Bool
  hashpw : Bytes → Nat → String

/-! ## Responses and statements -/

structure SessionInfo where
  kind : String
  studentId : String
  email : String
  name : String
  id : Int
  roles : List String
  deriving DecidableEq, Repr

inductive Response where
  | ok
  | noContent
  | me (id : Int) (email : String)
  | email (email : String)
  | session (info : SessionInfo)
  deriving DecidableEq, Repr

inductive Stmt where
  | account (stmt : Accounts.Stmt)
  /-- The session of the cookie. -/
  | receive
  | consumeLimit
  | checkpw (encoded : Bytes) (passwordHash : String)
  | hashpw (encoded : Bytes)
  | changeAuth (studentId passwordHash : String)
  | respond (session : Session) (outcome : Except Failure Response)

@[reducible] def Reply : Stmt → Type
  | .account stmt => Accounts.Reply stmt
  | .receive => Session
  | .checkpw .. => Option Bool
  | .hashpw _ => String
  | _ => Unit

abbrev signIn : Signature where
  Stmt := Stmt
  Reply := Reply
  Exn := Failure

abbrev Handler (α : Type) := Program signIn α

abbrev ask (stmt : Stmt) : Handler (Reply stmt) := @issue signIn stmt

/-! ## The store -/

structure World where
  db : Accounts.World
  /-- The sessions of the cookies that were set. -/
  issued : List Session

/-- What the environment decides: the cookie, by its place, and the salt among other things. -/
structure Choice where
  account : Accounts.Choice := {}
  cookie : Option Nat := none
  /-- The limit that is exceeded. -/
  limited : Option String := none
  salt : Nat := 0

/-- The UPDATE of a changed password, which is not stored through a request. -/
def changeAuth (me : SessionId) (studentId passwordHash : String) (db : Accounts.World) :
    Option (Except Failure Unit × Accounts.World) := do
  let (found, auths) ← db.auths.updateRow me studentId (fun _ => true) fun _ => { passwordHash }
  if found then pure (.ok (), { db with auths }) else pure (.error .staleData, db)

def exec (rules : Rules) (me : SessionId) (stmt : Stmt) (choice : Choice) (world : World) :
    Option (Except Failure (Reply stmt) × World) :=
  match stmt with
  | .account stmt => (Accounts.exec me stmt choice.account world.db).map fun (reply, db) =>
    (reply, { world with db })
  | .receive => some (.ok ((choice.cookie.bind fun place => world.issued[place]?).getD []), world)
  | .consumeLimit =>
    match choice.limited with
    | some detail => some (.error (.http 429 detail), world)
    | none => some (.ok (), world)
  | .checkpw encoded passwordHash => some (.ok (rules.checkpw encoded passwordHash), world)
  | .hashpw encoded => some (.ok (rules.hashpw encoded choice.salt), world)
  | .changeAuth studentId passwordHash =>
    match choice.account.fails with
    | some reason => some (.error reason, world)
    | none => (changeAuth me studentId passwordHash world.db).map fun (reply, db) => (reply, { world with db })
  | .respond session _ => some (.ok (), { world with issued := world.issued ++ [session] })

abbrev machine (rules : Rules) : Machine signIn where
  World := World
  Choice := Choice
  Outside := Empty
  exec := exec rules
  close me world := { world with db := world.db.rollback me }
  crash me world := { world with db := world.db.rollback me }
  outside change := nomatch change

/-! ## passwords.py -/

def bcryptMaxPasswordBytes : Nat := 72

def encodePasswordForHash (password : String) : Option Bytes :=
  if bcryptMaxPasswordBytes < (utf8 password).length then none else some (utf8 password)

/-- What `validate_password_for_hash` accepts. -/
structure NewPassword where
  password : String
  short : (encodePasswordForHash password).isSome

/-- A ValueError has no handler. -/
def hashPassword (password : String) : Handler String :=
  match encodePasswordForHash password with
  | some encoded => ask (.hashpw encoded)
  | none => raise .interrupted

def verifyPassword (password passwordHash : String) : Handler Bool := do
  let matched ← ask (.checkpw ((utf8 password).take bcryptMaxPasswordBytes) passwordHash)
  pure (matched.getD false)

/-! ## Handlers -/

/-- The statements of the accounts. -/
def lift {α : Type} : Accounts.Handler α → Handler α
  | .ret value => .ret value
  | .raise reason => .raise reason
  | .exec stmt next => .exec (.account stmt) fun reply => lift (next reply)

/-- What an exception handler answers, and what the caller sees. -/
def attempt {α : Type} (program : Handler α) : Handler (Except Failure α) :=
  (do let value ← program; pure (Except.ok value)).catchWith fun reason => pure (Except.error reason)

def raised : Auth.Failure → Failure
  | .http statusCode detail => .http statusCode detail
  | .valueError => .interrupted

def memberRow (rules : Rules) (studentId : String) (row : Accounts.Member) : MemberRow where
  id := rules.idOf studentId
  studentId := studentId
  email := row.email
  roles := String.intercalate "," row.roles
  status := row.status

/-- The row that `_refresh_user_session` selects, when there is a user. -/
def sessionRow (rules : Rules) (session : Session) : Handler (Option (String × Accounts.Member)) :=
  match Auth.getUserSession rules.toSessionRules session with
  | .ok (some user) => do
    let row ← ask (.account (.getMember user.studentId))
    pure (row.map fun row => (user.studentId, row))
  | _ => pure none

/-- What a check of the session finds, and the session after it. -/
def runCheck {α : Type} (rules : Rules) (check : List MemberRow → Auth.Handler α)
    (row : Option (String × Accounts.Member)) (session : Session) : Except Failure α × Session :=
  let (outcome, session) := ((check (row.toList.map fun found =>
    memberRow rules found.1 found.2)).run).run session
  (outcome.mapError raised, session)

/-- What a route does: its outcome, and the session that it leaves. -/
abbrev Endpoint := Session → Handler (Except Failure Response × Session)

/-- A route behind one of the permission dependencies. -/
def guarded {α : Type} (rules : Rules) (check : List MemberRow → Auth.Handler α)
    (body : α → Session → Handler Response) : Endpoint := fun session => do
  let row ← sessionRow rules session
  match runCheck rules check row session with
  | (.error reason, session) => pure (.error reason, session)
  | (.ok actor, session) => do
    let outcome ← attempt (body actor session)
    pure (outcome, session)

/-- `ApiError` and `HTTPException`. -/
def hasHandler : Failure → Bool
  | .api _ | .http .. => true
  | _ => false

/-- The session middleware around a route. -/
def serve (endpoint : Endpoint) : Handler Unit := do
  let session ← ask .receive
  let (outcome, session) ← endpoint session
  match outcome with
  | .ok _ => ask (.respond session outcome)
  | .error reason => if hasHandler reason then ask (.respond session outcome) else raise reason

/-! ## services/auth_service.py -/

/-- The entry that signing in sets, or the session as it was. -/
def signedIn (signs : Handler CurrentUser) : Endpoint := fun session => do
  match ← attempt signs with
  | .ok user => pure (.ok .ok, Auth.setKey session "user" (Auth.userEntry user))
  | .error reason => pure (.error reason, session)

def refreshed (rules : Rules) (studentId : String) (member : Accounts.Member) : CurrentUser :=
  Auth.refreshedUser rules.toTextRules (memberRow rules studentId member)

def loginMember (rules : Rules) (studentId password : String) : Handler CurrentUser := do
  ask .consumeLimit
  let member ← ask (.account (.getMember studentId))
  let creds ← ask (.account (.getAuth studentId))
  match member, creds with
  | some member, some creds => do
    if !(← verifyPassword password creds.passwordHash) then raise (.api "login_failed")
    else if member.status = .pending then raise (.api "member_pending_approval")
    else if member.status ≠ .active then raise (.api "member_not_active")
    else if studentId = "" then raise (.http 500 "invalid_member_student_id")
    else pure (refreshed rules studentId member)
  | _, _ => raise (.api "login_failed")

def activateMember (rules : Rules) (token : Option ActivationPayload) (password : NewPassword) :
    Handler CurrentUser := do
  ask .consumeLimit
  match token with
  | none => raise (.http 401 "invalid_or_expired_activation_token")
  | some payload => do
    let row ← lift (Accounts.resolveActivationSignupRequest payload)
    let member ← lift (Accounts.resolveActivationMember payload.studentId)
    let passwordHash ← hashPassword password.password
    lift (Accounts.createOrUpdateMemberAuth payload.signupRequestId payload.studentId passwordHash)
    let activatedAt ← ask (.account .now)
    ask (.account (.flushSignupRequest payload.signupRequestId row
      { row with status := .activated, activatedAt := some activatedAt }))
    ask (.account .commit)
    ask (.account .refresh)
    pure (refreshed rules payload.studentId member)

def changeMemberPassword (member : CurrentMember) (currentPassword : String) (newPassword : NewPassword) :
    Handler Unit := do
  ask .consumeLimit
  match ← ask (.account (.getAuth member.studentId)) with
  | none => raise (.http 401 "unauthorized")
  | some auth => do
    if !(← verifyPassword currentPassword auth.passwordHash) then raise (.http 401 "login_failed")
    else do
      let newHash ← hashPassword newPassword.password
      ask (.changeAuth member.studentId newHash)
      ask (.account .commit)

def getMemberEmail (rules : Rules) (member : CurrentMember) (session : Session) : Handler Response :=
  match Auth.getUserSession rules.toSessionRules session with
  | .ok (some { email := some email, .. }) => pure (.email email)
  | .error failure => raise (raised failure)
  | _ => do
    let row ← lift (Accounts.repoGetMember member.studentId)
    pure (.email (row.email.getD ""))

def sessionInfo (rules : Rules) (user : CurrentUser) (member : Accounts.Member) : SessionInfo where
  kind := if "admin" ∈ user.roles ∨ "super_admin" ∈ user.roles then "admin" else "member"
  studentId := user.studentId
  email :=
    match user.email with
    | some email => if email = "" then member.email.getD "" else email
    | none => member.email.getD ""
  name := member.name
  id := rules.idOf user.studentId
  roles := user.roles

/-- `_refresh_user_session` gives the row as well. -/
def getSessionInfo (rules : Rules) : Endpoint := fun session => do
  let row ← sessionRow rules session
  match runCheck rules (Auth.currentUser rules.toSessionRules) row session, row with
  | (.ok (some user), session), some (_, member) => pure (.ok (.session (sessionInfo rules user member)), session)
  | (.error reason, session), _ => pure (.error reason, session)
  | (_, session), _ => pure (.error (.http 401 "unauthorized"), session)

/-! ## The routes -/

inductive Request where
  | login (studentId password : String)
  | logout
  | activate (token : Option ActivationPayload) (password : NewPassword)
  | changePassword (currentPassword : String) (newPassword : NewPassword)
  | me
  | memberMe
  | session
  | memberSignup (payload : SignupRequestCreate)
  | approveSignupRequest (id : Nat)
  | rejectSignupRequest (id : Nat) (rejectReason : String)
  | reissueSignupActivationToken (id : Nat)
  | createMemberDirect (payload : DirectMemberCreatePayload)
  | updateMemberAdmin (studentId : String) (payload : AdminMemberUpdate)
  | updateMemberRoles (studentId : String) (roles : List String)

/-- `require_permission("admin_signup", allow_admin_fallback=False)`. -/
def requireAdminSignup (rules : Rules) : List MemberRow → Auth.Handler CurrentUser :=
  Auth.requireAnyPermission rules.toSessionRules ["admin_signup"] false

def requireSuperAdmin (rules : Rules) : List MemberRow → Auth.Handler CurrentUser :=
  Auth.requireSuperAdmin rules.toSessionRules

/-- An account request of the user that passed the check. -/
def decided {α : Type} (program : Accounts.Handler α) : Handler Response := do
  let _ ← lift program
  pure .ok

def Request.endpoint (rules : Rules) : Request → Endpoint
  | .login studentId password => signedIn (loginMember rules studentId password)
  | .logout => fun session => pure (.ok .noContent, Auth.cleared session)
  | .activate token password => signedIn (activateMember rules token password)
  | .changePassword currentPassword newPassword =>
    guarded rules (Auth.requireMember rules.toSessionRules) fun member _ => do
      changeMemberPassword member currentPassword newPassword
      pure .ok
  | .me => guarded rules (Auth.requireAdmin rules.toSessionRules) fun admin _ => pure (.me admin.id admin.email)
  | .memberMe =>
    guarded rules (Auth.requireMember rules.toSessionRules) fun member session =>
      getMemberEmail rules member session
  | .session => getSessionInfo rules
  | .memberSignup payload => fun session => do
    let outcome ← attempt (decided (Accounts.createSignupRequest payload))
    pure (outcome, session)
  | .approveSignupRequest id => guarded rules (requireAdminSignup rules) fun user _ =>
    decided (Accounts.approveSignupRequest id user.studentId)
  | .rejectSignupRequest id rejectReason => guarded rules (requireAdminSignup rules) fun user _ =>
    decided (Accounts.rejectSignupRequest id user.studentId rejectReason)
  | .reissueSignupActivationToken id => guarded rules (requireAdminSignup rules) fun user _ =>
    decided (Accounts.reissueSignupActivationToken id user.studentId)
  | .createMemberDirect payload => guarded rules (requireSuperAdmin rules) fun _ _ =>
    decided (Accounts.createMemberDirect rules.toTextRules payload)
  | .updateMemberAdmin studentId payload => guarded rules (requireSuperAdmin rules) fun _ _ =>
    decided (Accounts.updateMemberProfileAdmin rules.toTextRules studentId payload)
  | .updateMemberRoles studentId roles => guarded rules (requireSuperAdmin rules) fun actor _ =>
    decided (Accounts.updateMemberRoles rules.toTextRules studentId actor.studentId roles)

def Request.program (rules : Rules) (request : Request) : Handler Unit := serve (request.endpoint rules)

/-- No cookie has been set; every session has its request, and the trace is empty. -/
def start (rules : Rules) (db : Accounts.World) (requests : SessionId → Option Request) :
    Config (machine rules).traced Unit where
  world := ({ db, issued := [] }, [])
  pool me := (requests me).map (Request.program rules)

end SogeconApp.Source.SignIn
