import SogeconApp.Library.Sessions

/-!
# Accounts: rows, statements and the store

Source: `apps/api/models.py` (Member, SignupRequest, SignupActivationIssueLog, MemberAuth)
and the statements of `apps/api/repositories/members.py`, `signup_requests.py` and `auth.py`.

A member row and a password row are addressed by the student id, which is unique in both
tables and which no statement here changes. The `roles` column is the list of the parts
between its commas. A flush writes the columns that differ from the loaded object
(`expire_on_commit=False`, no row is read again before it is written). Left out are the
member columns that nothing here reads, and the hash of an issued token.

The fields of `World` from `deactivated` on are not in the database: they record who
did what, and no statement answers from them.
-/

namespace SogeconApp.Source.Accounts

open Library Program

inductive MemberStatus where
  | pending | active | suspended | rejected
  deriving DecidableEq, Repr

structure Member where
  email : Option String
  phone : Option String := none
  name : String
  cohort : Int
  major : Option String
  roles : List String
  status : MemberStatus
  deriving DecidableEq, Repr

inductive SignupStatus where
  | pending | approved | rejected | activated
  deriving DecidableEq, Repr

structure SignupRequest where
  studentId : String
  email : String
  name : String
  cohort : Int
  major : Option String := none
  phone : Option String := none
  note : Option String := none
  status : SignupStatus := .pending
  decidedAt : Option Nat := none
  activatedAt : Option Nat := none
  decidedByStudentId : Option String := none
  rejectReason : Option String := none
  deriving DecidableEq, Repr

inductive IssueType where
  | approve | reissue
  deriving DecidableEq, Repr

structure SignupActivationIssueLog where
  signupRequestId : Nat
  issuedType : IssueType
  issuedByStudentId : String
  deriving DecidableEq, Repr

/-- What a signed activation token carries for `load_activation_payload`. -/
structure ActivationPayload where
  signupRequestId : Nat
  studentId : String
  deriving DecidableEq, Repr

/-- The password hash of a student. -/
structure MemberAuth where
  passwordHash : String
  deriving DecidableEq, Repr

inductive UniqueColumn where
  | memberStudentId | memberEmail | memberPhone | pendingStudentId | authStudentId
  deriving DecidableEq, Repr

inductive Failure where
  /-- ApiError, ConflictError, NotFoundError and AlreadyExistsError, by code. -/
  | api (code : String)
  | http (statusCode : Nat) (detail : String)
  | unique (column : UniqueColumn)
  | notNull
  | staleData
  /-- Any other exception, at any statement. -/
  | interrupted
  deriving DecidableEq, Repr

inductive Stmt where
  | now
  | getMember (studentId : String)
  | emailTaken (email : String) (besides : Option String)
  | phoneTaken (phone : String) (besides : Option String)
  | advisoryLock
  | countActiveMembersWithRole (role : String)
  | insertMember (studentId : String) (row : Member)
  | flushMember (studentId : String) (loaded latest : Member)
  | pendingByStudentId (studentId : String)
  | getSignupRequest (id : Nat)
  | insertSignupRequest (row : SignupRequest)
  | flushSignupRequest (id : Nat) (loaded latest : SignupRequest)
  | insertIssueLog (row : SignupActivationIssueLog)
  | getAuth (studentId : String)
  /-- The request is the one that the password is stored through. -/
  | insertAuth (through : Nat) (studentId : String) (row : MemberAuth)
  | updateAuth (through : Nat) (studentId : String) (passwordHash : String)
  | refresh
  | commit
  | rollback
  deriving DecidableEq

@[reducible] def Reply : Stmt → Type
  | .now => Nat
  | .getMember _ => Option Member
  | .emailTaken .. | .phoneTaken .. | .pendingByStudentId _ => Bool
  | .countActiveMembersWithRole _ => Nat
  | .getSignupRequest _ => Option SignupRequest
  | .insertSignupRequest _ => Nat
  | .getAuth _ => Option MemberAuth
  | _ => Unit

abbrev accounts : Signature where
  Stmt := Stmt
  Reply := Reply
  Exn := Failure

/-! ## The store -/

structure World where
  members : Table String Member
  signupRequests : Table Nat SignupRequest
  issueLogs : Table Nat SignupActivationIssueLog
  auths : Table String MemberAuth
  /-- The sequences of the two autoincrement keys. -/
  nextRequest : Nat
  nextIssueLog : Nat
  /-- The session that holds the transaction lock of super_admin changes. -/
  advisory : Option SessionId
  /-- How often the commit of a session has taken a member out of status active. -/
  deactivated : String → Nat
  /-- How often a password has been stored through a request, and by the open transactions. -/
  stored : Nat → Nat
  storing : SessionId → Option Nat
  /-- The changes of a request's status, in the order of their commits, and the open ones. -/
  decided : List (Nat × SignupStatus)
  deciding : SessionId → Option (Nat × SignupStatus)

/-- The ORM writes the columns that differ from the loaded object. -/
def changed {β : Type} [DecidableEq β] (loaded latest stored : β) : β :=
  if latest = loaded then stored else latest

def flushedMember (loaded latest stored : Member) : Member where
  email := changed loaded.email latest.email stored.email
  phone := changed loaded.phone latest.phone stored.phone
  name := changed loaded.name latest.name stored.name
  cohort := changed loaded.cohort latest.cohort stored.cohort
  major := changed loaded.major latest.major stored.major
  roles := changed loaded.roles latest.roles stored.roles
  status := changed loaded.status latest.status stored.status

/-- Over the loaded row itself the whole change is written. -/
theorem flushedMember_loaded (loaded latest : Member) : flushedMember loaded latest loaded = latest := by
  have same : ∀ {β : Type} [DecidableEq β] (before after : β), changed before after before = after := by
    intro β _ before after
    unfold changed
    split
    · next equal => exact equal.symm
    · rfl
  simp [flushedMember, same]

/-- The columns that a decision or an activation sets. -/
def flushedRequest (loaded latest stored : SignupRequest) : SignupRequest :=
  { stored with
    status := changed loaded.status latest.status stored.status
    decidedAt := changed loaded.decidedAt latest.decidedAt stored.decidedAt
    activatedAt := changed loaded.activatedAt latest.activatedAt stored.activatedAt
    decidedByStudentId := changed loaded.decidedByStudentId latest.decidedByStudentId stored.decidedByStudentId
    rejectReason := changed loaded.rejectReason latest.rejectReason stored.rejectReason }

/-- `concat(',', roles, ',') LIKE '%,role,%' AND status = 'active'`. -/
def isActiveWithRole (role : String) (row : Member) : Bool :=
  row.status = .active ∧ role ∈ row.roles

namespace World

/-- No rows, and nothing has happened. -/
def blank : World where
  members := .empty
  signupRequests := .empty
  issueLogs := .empty
  auths := .empty
  nextRequest := 0
  nextIssueLog := 0
  advisory := none
  deactivated _ := 0
  stored _ := 0
  storing _ := none
  decided := []
  deciding _ := none

/-- The member has a committed row with status active. -/
def active (world : World) (studentId : String) : Bool :=
  (world.members.committed studentId).any fun row => row.status = .active

/-- Commit of the session takes the member out of status active. -/
def deactivates (me : SessionId) (world : World) (studentId : String) : Bool :=
  world.active studentId && !((world.members.commit me).committed studentId).any fun row => row.status = .active

def commit (me : SessionId) (world : World) : World :=
  { world with
    members := world.members.commit me
    signupRequests := world.signupRequests.commit me
    issueLogs := world.issueLogs.commit me
    auths := world.auths.commit me
    advisory := if world.advisory = some me then none else world.advisory
    deactivated := fun studentId =>
      if world.deactivates me studentId then world.deactivated studentId + 1 else world.deactivated studentId
    stored := fun id => if world.storing me = some id then world.stored id + 1 else world.stored id
    storing := Function.update world.storing me none
    decided := world.decided ++ (world.deciding me).toList
    deciding := Function.update world.deciding me none }

def rollback (me : SessionId) (world : World) : World :=
  { world with
    members := world.members.abort me
    signupRequests := world.signupRequests.abort me
    issueLogs := world.issueLogs.abort me
    auths := world.auths.abort me
    advisory := if world.advisory = some me then none else world.advisory
    storing := Function.update world.storing me none
    deciding := Function.update world.deciding me none }

end World

/-- What the environment decides: an exception, and the clock of the application. -/
structure Choice where
  fails : Option Failure := none
  now : Nat := 0

/-- The unique columns of a member besides the student id, after the row was written. -/
def memberClash (me : SessionId) (studentId : String) (members : Table String Member) :
    Option (Option UniqueColumn) := do
  let row := members.row me studentId
  let email ← members.clash me studentId fun other =>
    other.email.isSome && row.any fun row => other.email = row.email
  let phone ← members.clash me studentId fun other =>
    other.phone.isSome && row.any fun row => other.phone = row.phone
  pure (if email then some .memberEmail else if phone then some .memberPhone else none)

/-- A member row is written unless that breaks a unique column. -/
def storeMember (me : SessionId) (studentId : String) (members : Table String Member) (world : World) :
    Option (Except Failure Unit × World) := do
  match ← memberClash me studentId members with
  | some column => pure (.error (.unique column), world)
  | none => pure (.ok (), { world with members })

def insertMember (me : SessionId) (studentId : String) (row : Member) (world : World) :
    Option (Except Failure Unit × World) := do
  let (fresh, members) ← world.members.insertRow me studentId row
  if fresh then storeMember me studentId members world
  else pure (.error (.unique .memberStudentId), world)

def flushMember (me : SessionId) (studentId : String) (loaded latest : Member) (world : World) :
    Option (Except Failure Unit × World) := do
  let (found, members) ← world.members.updateRow me studentId (fun _ => true) (flushedMember loaded latest)
  if found then storeMember me studentId members world else pure (.error .staleData, world)

/-- A new request gets the next id of its sequence, which no rollback gives back. -/
def insertSignupRequest (me : SessionId) (row : SignupRequest) (world : World) :
    Option (Except Failure Nat × World) := do
  let id := world.nextRequest
  let clash ← world.signupRequests.clash me id fun other =>
    row.status = .pending ∧ other.status = .pending ∧ other.studentId = row.studentId
  if clash then
    pure (.error (.unique .pendingStudentId), { world with nextRequest := id + 1 })
  else
    pure (.ok id, { world with
      signupRequests := world.signupRequests.write me id (some row), nextRequest := id + 1 })

def flushSignupRequest (me : SessionId) (id : Nat) (loaded latest : SignupRequest) (world : World) :
    Option (Except Failure Unit × World) := do
  let (found, signupRequests) ←
    world.signupRequests.updateRow me id (fun _ => true) (flushedRequest loaded latest)
  if found then
    pure (.ok (), { world with
      signupRequests
      deciding := if latest.status = loaded.status then world.deciding
        else Function.update world.deciding me (some (id, latest.status)) })
  else
    pure (.error .staleData, world)

def insertIssueLog (me : SessionId) (row : SignupActivationIssueLog) (world : World) : World :=
  { world with
    issueLogs := world.issueLogs.write me world.nextIssueLog (some row)
    nextIssueLog := world.nextIssueLog + 1 }

def insertAuth (me : SessionId) (through : Nat) (studentId : String) (row : MemberAuth) (world : World) :
    Option (Except Failure Unit × World) := do
  let (fresh, auths) ← world.auths.insertRow me studentId row
  if fresh then
    pure (.ok (), { world with auths, storing := Function.update world.storing me (some through) })
  else
    pure (.error (.unique .authStudentId), world)

def updateAuth (me : SessionId) (through : Nat) (studentId passwordHash : String) (world : World) :
    Option (Except Failure Unit × World) := do
  let (found, auths) ← world.auths.updateRow me studentId (fun _ => true) fun _ => { passwordHash }
  if found then
    pure (.ok (), { world with auths, storing := Function.update world.storing me (some through) })
  else
    pure (.error .staleData, world)

def answer (me : SessionId) (stmt : Stmt) (choice : Choice) (world : World) :
    Option (Except Failure (Reply stmt) × World) :=
  match stmt with
  | .now => some (.ok choice.now, world)
  | .getMember studentId => some (.ok (world.members.row me studentId), world)
  | .emailTaken email besides =>
    some (.ok (!(world.members.select me fun studentId row =>
      row.email = some email ∧ some studentId ≠ besides).isEmpty), world)
  | .phoneTaken phone besides =>
    some (.ok (!(world.members.select me fun studentId row =>
      row.phone = some phone ∧ some studentId ≠ besides).isEmpty), world)
  | .advisoryLock =>
    match world.advisory with
    | some holder => if holder = me then some (.ok (), world) else none
    | none => some (.ok (), { world with advisory := some me })
  | .countActiveMembersWithRole role =>
    some (.ok (world.members.select me fun _ row => isActiveWithRole role row).length, world)
  | .insertMember studentId row => insertMember me studentId row world
  | .flushMember studentId loaded latest => flushMember me studentId loaded latest world
  | .pendingByStudentId studentId =>
    some (.ok (!(world.signupRequests.select me fun _ row =>
      row.studentId = studentId ∧ row.status = .pending).isEmpty), world)
  | .getSignupRequest id => some (.ok (world.signupRequests.row me id), world)
  | .insertSignupRequest row => insertSignupRequest me row world
  | .flushSignupRequest id loaded latest => flushSignupRequest me id loaded latest world
  | .insertIssueLog row => some (.ok (), insertIssueLog me row world)
  | .getAuth studentId => some (.ok (world.auths.row me studentId), world)
  | .insertAuth through studentId row => insertAuth me through studentId row world
  | .updateAuth through studentId passwordHash => updateAuth me through studentId passwordHash world
  | .refresh => some (.ok (), world)
  | .commit => some (.ok (), world.commit me)
  | .rollback => some (.ok (), world.rollback me)

def exec (me : SessionId) (stmt : Stmt) (choice : Choice) (world : World) :
    Option (Except Failure (Reply stmt) × World) :=
  match choice.fails with
  | some reason => some (.error reason, world)
  | none => answer me stmt choice world

abbrev machine : Machine accounts where
  World := World
  Choice := Choice
  Outside := Empty
  exec := exec
  close := World.rollback
  crash := World.rollback
  outside change := nomatch change

def answering : Answering machine where
  fails := Choice.fails
  answer := answer
  exec_eq me stmt choice world := by
    simp only [exec]
    cases choice.fails <;> rfl

/-! ## What a write does -/

variable {me : SessionId} {world world' : World}

/-- A write raises and changes no row, or it drafts the one row of the session. -/
theorem storeMember_cases {studentId : String} {members : Table String Member} {reply : Except Failure Unit}
    (done : storeMember me studentId members world = some (reply, world')) :
    (∃ reason, reply = .error reason) ∧ world' = world ∨ reply = .ok () ∧ world' = { world with members } := by
  obtain ⟨clash, -, stored⟩ := Option.bind_eq_some_iff.mp done
  cases clash with
  | some column =>
    cases stored
    exact .inl ⟨⟨_, rfl⟩, rfl⟩
  | none =>
    cases stored
    exact .inr ⟨rfl, rfl⟩

/-- An insert is refused and leaves the store, or drafts the row under a student id that is free. -/
theorem insertMember_cases {studentId : String} {row : Member} {reply : Except Failure Unit}
    (done : insertMember me studentId row world = some (reply, world')) :
    (∃ reason, reply = .error reason) ∧ world' = world ∨
      reply = .ok () ∧ (world.members.slot studentId).lockedFor me = false ∧
        world.members.row me studentId = none ∧
        world' = { world with members := world.members.write me studentId (some row) } := by
  obtain ⟨⟨fresh, members⟩, inserted, stored⟩ := Option.bind_eq_some_iff.mp done
  rcases Table.insertRow_cases inserted with ⟨rfl, rfl⟩ | ⟨rfl, free, absent, rfl⟩
  · cases stored
    exact .inl ⟨⟨_, rfl⟩, rfl⟩
  · rcases storeMember_cases stored with failed | ⟨rfl, rfl⟩
    · exact .inl failed
    · exact .inr ⟨rfl, free, absent, rfl⟩

/-- A flush is refused and leaves the store, or drafts the stored row with the columns that have
changed. -/
theorem flushMember_cases {studentId : String} {loaded latest : Member} {reply : Except Failure Unit}
    (done : flushMember me studentId loaded latest world = some (reply, world')) :
    (∃ reason, reply = .error reason) ∧ world' = world ∨
      reply = .ok () ∧ (world.members.slot studentId).lockedFor me = false ∧ ∃ stored,
        world.members.row me studentId = some stored ∧ world' = { world with
          members := world.members.write me studentId (some (flushedMember loaded latest stored)) } := by
  obtain ⟨⟨found, members⟩, updated, stored⟩ := Option.bind_eq_some_iff.mp done
  rcases Table.updateRow_cases updated with ⟨rfl, rfl⟩ | ⟨rfl, free, version, seen, -, rfl⟩
  · cases stored
    exact .inl ⟨⟨_, rfl⟩, rfl⟩
  · rcases storeMember_cases stored with failed | ⟨rfl, rfl⟩
    · exact .inl failed
    · exact .inr ⟨rfl, free, version, seen, rfl⟩

/-- An insert uses a number of the sequence, even if it is refused. -/
theorem insertSignupRequest_cases {row : SignupRequest} {reply : Except Failure Nat}
    (done : insertSignupRequest me row world = some (reply, world')) :
    (∃ reason, reply = .error reason) ∧ world' = { world with nextRequest := world.nextRequest + 1 } ∨
      reply = .ok world.nextRequest ∧ world' = { world with
        signupRequests := world.signupRequests.write me world.nextRequest (some row)
        nextRequest := world.nextRequest + 1 } := by
  obtain ⟨clash, -, stored⟩ := Option.bind_eq_some_iff.mp done
  cases clash with
  | true =>
    cases stored
    exact .inl ⟨⟨_, rfl⟩, rfl⟩
  | false =>
    cases stored
    exact .inr ⟨rfl, rfl⟩

/-- A flush of a request is refused and leaves the store, or drafts the row and the decision. -/
theorem flushSignupRequest_cases {id : Nat} {loaded latest : SignupRequest} {reply : Except Failure Unit}
    (done : flushSignupRequest me id loaded latest world = some (reply, world')) :
    (∃ reason, reply = .error reason) ∧ world' = world ∨
      reply = .ok () ∧ (world.signupRequests.slot id).lockedFor me = false ∧ ∃ stored,
        world.signupRequests.row me id = some stored ∧ world' = { world with
          signupRequests := world.signupRequests.write me id (some (flushedRequest loaded latest stored))
          deciding := if latest.status = loaded.status then world.deciding
            else Function.update world.deciding me (some (id, latest.status)) } := by
  obtain ⟨⟨found, requests⟩, updated, stored⟩ := Option.bind_eq_some_iff.mp done
  rcases Table.updateRow_cases updated with ⟨rfl, rfl⟩ | ⟨rfl, free, version, seen, -, rfl⟩
  · cases stored
    exact .inl ⟨⟨_, rfl⟩, rfl⟩
  · cases stored
    exact .inr ⟨rfl, free, version, seen, rfl⟩

theorem insertAuth_cases {through : Nat} {studentId : String} {row : MemberAuth} {reply : Except Failure Unit}
    (done : insertAuth me through studentId row world = some (reply, world')) :
    (∃ reason, reply = .error reason) ∧ world' = world ∨
      reply = .ok () ∧ world' = { world with
        auths := world.auths.write me studentId (some row)
        storing := Function.update world.storing me (some through) } := by
  obtain ⟨⟨fresh, auths⟩, inserted, stored⟩ := Option.bind_eq_some_iff.mp done
  rcases Table.insertRow_cases inserted with ⟨rfl, rfl⟩ | ⟨rfl, free, absent, rfl⟩
  · cases stored
    exact .inl ⟨⟨_, rfl⟩, rfl⟩
  · cases stored
    exact .inr ⟨rfl, rfl⟩

theorem updateAuth_cases {through : Nat} {studentId passwordHash : String} {reply : Except Failure Unit}
    (done : updateAuth me through studentId passwordHash world = some (reply, world')) :
    (∃ reason, reply = .error reason) ∧ world' = world ∨
      reply = .ok () ∧ world' = { world with
        auths := world.auths.write me studentId (some { passwordHash })
        storing := Function.update world.storing me (some through) } := by
  obtain ⟨⟨found, auths⟩, updated, stored⟩ := Option.bind_eq_some_iff.mp done
  rcases Table.updateRow_cases updated with ⟨rfl, rfl⟩ | ⟨rfl, free, version, seen, -, rfl⟩
  · cases stored
    exact .inl ⟨⟨_, rfl⟩, rfl⟩
  · cases stored
    exact .inr ⟨rfl, rfl⟩

/-- What a statement that is no commit leaves: drafts of its own session. -/
structure World.Drafts (me : SessionId) (before after : World) : Prop where
  members : before.members.Drafts me after.members
  signupRequests : before.signupRequests.Drafts me after.signupRequests
  issueLogs : before.issueLogs.Drafts me after.issueLogs
  auths : before.auths.Drafts me after.auths
  deactivated : after.deactivated = before.deactivated

theorem World.Drafts.refl (me : SessionId) (world : World) : world.Drafts me world :=
  ⟨.same, .same, .same, .same, rfl⟩

theorem World.rollback_drafts (me : SessionId) (world : World) : world.Drafts me (world.rollback me) :=
  ⟨.abort, .abort, .abort, .abort, rfl⟩

/-- Only a commit changes what is committed. -/
theorem exec_drafts {stmt : Stmt} {choice : Choice} {reply : Except Failure (Reply stmt)}
    (done : exec me stmt choice world = some (reply, world')) (other : stmt ≠ .commit) :
    world.Drafts me world' := by
  unfold exec at done
  split at done
  · cases done
    exact .refl me world
  · cases stmt with
    | commit => exact absurd rfl other
    | rollback =>
      cases done
      exact world.rollback_drafts me
    | advisoryLock =>
      simp only [answer] at done
      split at done
      · split at done <;> cases done
        exact .refl me world
      · cases done
        exact ⟨.same, .same, .same, .same, rfl⟩
    | insertMember studentId row =>
      rcases insertMember_cases done with ⟨-, rfl⟩ | ⟨-, -, -, rfl⟩
      · exact .refl me world'
      · exact ⟨.write _ _, .same, .same, .same, rfl⟩
    | flushMember studentId loaded latest =>
      rcases flushMember_cases done with ⟨-, rfl⟩ | ⟨-, -, stored, -, rfl⟩
      · exact .refl me world'
      · exact ⟨.write _ _, .same, .same, .same, rfl⟩
    | insertSignupRequest row =>
      rcases insertSignupRequest_cases done with ⟨-, rfl⟩ | ⟨-, rfl⟩
      · exact ⟨.same, .same, .same, .same, rfl⟩
      · exact ⟨.same, .write _ _, .same, .same, rfl⟩
    | flushSignupRequest id loaded latest =>
      rcases flushSignupRequest_cases done with ⟨-, rfl⟩ | ⟨-, -, stored, -, rfl⟩
      · exact .refl me world'
      · exact ⟨.same, .write _ _, .same, .same, rfl⟩
    | insertIssueLog row =>
      cases done
      exact ⟨.same, .same, .write _ _, .same, rfl⟩
    | insertAuth through studentId row =>
      rcases insertAuth_cases done with ⟨-, rfl⟩ | ⟨-, rfl⟩
      · exact .refl me world'
      · exact ⟨.same, .same, .same, .write _ _, rfl⟩
    | updateAuth through studentId passwordHash =>
      rcases updateAuth_cases done with ⟨-, rfl⟩ | ⟨-, rfl⟩
      · exact .refl me world'
      · exact ⟨.same, .same, .same, .write _ _, rfl⟩
    | now | getMember _ | emailTaken _ _ | phoneTaken _ _ | countActiveMembersWithRole _
    | pendingByStudentId _ | getSignupRequest _ | getAuth _ | refresh =>
      cases done
      exact .refl me world

end SogeconApp.Source.Accounts
