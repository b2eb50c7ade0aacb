import SogeconApp.Source.Accounts.Members

/-!
# Accounts: signup requests and activation

Source: `apps/api/services/signup_service.py`, `activation_service.py`,
`auth_service.py` (activate_member) and their repositories. A token is what it carries
for the loader, or `none` when its signature or its age is refused. Rate limits and the
login session that follows an activation are left out.
-/

namespace SogeconApp.Source.Accounts

open Library Program

/-! ## services/signup_service.py -/

structure SignupRequestCreate where
  studentId : String
  email : String
  name : String
  cohort : Int
  major : Option String := none
  phone : String
  note : Option String := none
  deriving DecidableEq, Repr

def SignupRequestCreate.row (payload : SignupRequestCreate) : SignupRequest where
  studentId := payload.studentId
  email := payload.email
  name := payload.name
  cohort := payload.cohort
  major := payload.major
  phone := some payload.phone
  note := payload.note

/-- What becomes of an IntegrityError of the insert, after the rollback. -/
def signupConflict : Failure → Handler Unit
  | .unique .pendingStudentId => do ask .rollback; raise (.api "signup_already_pending")
  | .unique column => do ask .rollback; raise (.unique column)
  | .notNull => do ask .rollback; raise .notNull
  | reason => raise reason

def repoCreateSignupRequest (payload : SignupRequestCreate) : Handler Unit := do
  let _ ← ask (.insertSignupRequest payload.row)
  ask .commit
  ask .refresh

def createSignupRequest (payload : SignupRequestCreate) : Handler Unit := do
  let existingMember ← ask (.getMember payload.studentId)
  if existingMember.any fun member => member.status = .active then
    raise (.api "member_already_active")
  else
    if ← ask (.pendingByStudentId payload.studentId) then
      raise (.api "signup_already_pending")
    else
      (repoCreateSignupRequest payload).catchWith signupConflict

def signupRequestById (id : Nat) : Handler SignupRequest := do
  match ← ask (.getSignupRequest id) with
  | some row => pure row
  | none => raise (.api "signup_request_not_found")

/-- The member row of an approved request: a new one, or the one that was not active. -/
def saveApprovedMember (row : SignupRequest) : Option Member → Handler Unit
  | none => ask (.insertMember row.studentId
      { email := some row.email, name := row.name, cohort := row.cohort, major := row.major
        roles := ["member"], status := .active })
  | some member => saveMember row.studentId member
      { member with email := some row.email, name := row.name, cohort := row.cohort, major := row.major
                    status := .active }

/-- Everything is flushed when the issue log is, and one commit publishes it. -/
def approveSignupRequest (id : Nat) (decidedByStudentId : String) : Handler ActivationPayload := do
  let row ← signupRequestById id
  if row.status ≠ .pending then
    raise (.api "signup_request_not_pending")
  else
    let member ← ask (.getMember row.studentId)
    if member.any fun member => member.status = .active then
      raise (.api "member_already_active")
    else
      let decidedAt ← ask .now
      saveApprovedMember row member
      ask (.flushSignupRequest id row { row with
        status := .approved, decidedAt := some decidedAt, decidedByStudentId := some decidedByStudentId
        rejectReason := none })
      ask (.insertIssueLog ⟨id, .approve, decidedByStudentId⟩)
      ask .refresh
      ask .commit
      ask .refresh
      pure ⟨id, row.studentId⟩

def reissueSignupActivationToken (id : Nat) (issuedByStudentId : String) : Handler ActivationPayload := do
  let row ← signupRequestById id
  if row.status ≠ .approved then
    raise (.api "signup_request_not_approved")
  else
    ask (.insertIssueLog ⟨id, .reissue, issuedByStudentId⟩)
    ask .commit
    ask .refresh
    pure ⟨id, row.studentId⟩

def rejectSignupRequest (id : Nat) (decidedByStudentId rejectReason : String) : Handler Unit := do
  let row ← signupRequestById id
  if row.status ≠ .pending then
    raise (.api "signup_request_not_pending")
  else
    let decidedAt ← ask .now
    ask (.flushSignupRequest id row { row with
      status := .rejected, decidedAt := some decidedAt, decidedByStudentId := some decidedByStudentId
      rejectReason := some rejectReason })
    ask .commit
    ask .refresh

/-! ## services/activation_service.py and auth_service.py -/

def resolveActivationSignupRequest (payload : ActivationPayload) : Handler SignupRequest := do
  match ← ask (.getSignupRequest payload.signupRequestId) with
  | none => raise (.http 401 "invalid_or_expired_activation_token")
  | some row =>
    if row.studentId ≠ payload.studentId then
      raise (.http 401 "invalid_or_expired_activation_token")
    else if row.status = .activated then
      raise (.http 409 "activation_already_used")
    else if row.status ≠ .approved then
      raise (.http 401 "invalid_or_expired_activation_token")
    else
      pure row

def resolveActivationMember (studentId : String) : Handler Member := do
  match ← ask (.getMember studentId) with
  | none => raise (.http 409 "activation_member_missing")
  | some member =>
    if member.status ≠ .active then raise (.http 403 "member_not_active") else pure member

/-- A hash equal to the stored one is written as well, which changes nothing. -/
def createOrUpdateMemberAuth (through : Nat) (studentId passwordHash : String) : Handler Unit := do
  match ← ask (.getAuth studentId) with
  | none =>
    ask (.insertAuth through studentId { passwordHash })
    ask .commit
  | some _ =>
    ask (.updateAuth through studentId passwordHash)
    ask .commit

def activateMember (token : Option ActivationPayload) (passwordHash : String) : Handler Unit :=
  match token with
  | none => raise (.http 401 "invalid_or_expired_activation_token")
  | some payload => do
    let row ← resolveActivationSignupRequest payload
    let _ ← resolveActivationMember payload.studentId
    createOrUpdateMemberAuth payload.signupRequestId payload.studentId passwordHash
    let activatedAt ← ask .now
    ask (.flushSignupRequest payload.signupRequestId row
      { row with status := .activated, activatedAt := some activatedAt })
    ask .commit
    ask .refresh

/-! ## Requests -/

inductive Request where
  | updateMemberRoles (studentId actorStudentId : String) (roles : List String)
  | updateMemberProfileAdmin (studentId : String) (payload : AdminMemberUpdate)
  | createMemberDirect (payload : DirectMemberCreatePayload)
  | createSignupRequest (payload : SignupRequestCreate)
  | approveSignupRequest (id : Nat) (decidedByStudentId : String)
  | rejectSignupRequest (id : Nat) (decidedByStudentId rejectReason : String)
  | reissueSignupActivationToken (id : Nat) (issuedByStudentId : String)
  | activateMember (token : Option ActivationPayload) (passwordHash : String)
  deriving DecidableEq

def Request.program (text : TextRules) : Request → Handler Unit
  | .updateMemberRoles studentId actorStudentId roles =>
    Accounts.updateMemberRoles text studentId actorStudentId roles
  | .updateMemberProfileAdmin studentId payload => Accounts.updateMemberProfileAdmin text studentId payload
  | .createMemberDirect payload => do
    let _ ← Accounts.createMemberDirect text payload
    pure ()
  | .createSignupRequest payload => Accounts.createSignupRequest payload
  | .approveSignupRequest id decidedByStudentId => do
    let _ ← Accounts.approveSignupRequest id decidedByStudentId
    pure ()
  | .rejectSignupRequest id decidedByStudentId rejectReason =>
    Accounts.rejectSignupRequest id decidedByStudentId rejectReason
  | .reissueSignupActivationToken id issuedByStudentId => do
    let _ ← Accounts.reissueSignupActivationToken id issuedByStudentId
    pure ()
  | .activateMember token passwordHash => Accounts.activateMember token passwordHash

def start (text : TextRules) (world : World) (requests : SessionId → Option Request) :
    Config machine Unit where
  world := world
  pool me := (requests me).map (Request.program text)

/-- The next statements of a session, none of which fails. -/
def executes (me : SessionId) (statements : Nat) : List (Action machine) :=
  List.replicate statements (.exec me {})

end SogeconApp.Source.Accounts
