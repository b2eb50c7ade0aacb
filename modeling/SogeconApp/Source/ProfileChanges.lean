import SogeconApp.Library.Sessions

/-!
# Profile change requests

Source: `apps/api/services/profile_change_service.py` (approve_request, reject_request) and
`repositories/profile_change_requests.py` (get_by_id, save). The rows that a decision has
changed are flushed at its commit, the member before the request, each in one `UPDATE` of
the columns that differ from the loaded object. `int(str)` is a parameter. Left out are the
columns that a decision neither reads nor writes.

`decided` and `deciding` are not in the database: they record the decisions in the order of
their commits, and those of the open transactions.
-/

namespace SogeconApp.Source.ProfileChanges

open Library Program

inductive ProfileField where
  | name | cohort
  deriving DecidableEq, Repr

inductive RequestStatus where
  | pending | approved | rejected
  deriving DecidableEq, Repr

structure Member where
  name : String
  cohort : Int
  deriving DecidableEq, Repr

structure ProfileChangeRequest where
  memberId : Nat
  fieldName : ProfileField
  newValue : String
  status : RequestStatus := .pending
  decidedAt : Option Nat := none
  decidedByStudentId : Option String := none
  rejectReason : Option String := none
  deriving DecidableEq, Repr

inductive Failure where
  | notFound (code : String)
  | conflict (code : String)
  | valueError
  | staleData
  /-- A database error or a cancellation, at any statement. -/
  | interrupted
  deriving DecidableEq, Repr

inductive Stmt where
  | now
  | getById (requestId : Nat)
  | getMember (memberId : Nat)
  | flushMember (memberId : Nat) (loaded latest : Member)
  | flushRequest (requestId : Nat) (loaded latest : ProfileChangeRequest)
  | refresh
  | commit
  deriving DecidableEq

@[reducible] def Reply : Stmt → Type
  | .now => Nat
  | .getById _ => Option ProfileChangeRequest
  | .getMember _ => Option Member
  | _ => Unit

abbrev profileChanges : Signature where
  Stmt := Stmt
  Reply := Reply
  Exn := Failure

/-! ## The store -/

structure World where
  members : Table Nat Member
  requests : Table Nat ProfileChangeRequest
  decided : List (Nat × RequestStatus)
  deciding : SessionId → Option (Nat × RequestStatus)

def flushedMember (loaded latest stored : Member) : Member where
  name := flushedColumn loaded.name latest.name stored.name
  cohort := flushedColumn loaded.cohort latest.cohort stored.cohort

def flushedRequest (loaded latest stored : ProfileChangeRequest) : ProfileChangeRequest :=
  { stored with
    status := flushedColumn loaded.status latest.status stored.status
    decidedAt := flushedColumn loaded.decidedAt latest.decidedAt stored.decidedAt
    decidedByStudentId := flushedColumn loaded.decidedByStudentId latest.decidedByStudentId
      stored.decidedByStudentId
    rejectReason := flushedColumn loaded.rejectReason latest.rejectReason stored.rejectReason }

/-- Over the loaded row the whole change is written, and over the changed row nothing new. -/
theorem flushedMember_of_either {loaded latest stored : Member} (either : stored = loaded ∨ stored = latest) :
    flushedMember loaded latest stored = latest := by
  rcases either with rfl | rfl
  · simp only [flushedMember, flushedColumn_loaded]
  · simp only [flushedMember, flushedColumn_latest]

namespace World

def commit (me : SessionId) (world : World) : World where
  members := world.members.commit me
  requests := world.requests.commit me
  decided := world.decided ++ (world.deciding me).toList
  deciding := Function.update world.deciding me none

def rollback (me : SessionId) (world : World) : World where
  members := world.members.abort me
  requests := world.requests.abort me
  decided := world.decided
  deciding := Function.update world.deciding me none

end World

/-- What the environment decides: an exception, and the clock of the application. -/
structure Choice where
  fails : Option Failure := none
  now : Nat := 0

def flushMember (me : SessionId) (memberId : Nat) (loaded latest : Member) (world : World) :
    Option (Except Failure Unit × World) :=
  (world.members.updateRow me memberId (fun _ => true) (flushedMember loaded latest)).map fun (hit, members) =>
    if hit then (.ok (), { world with members }) else (.error .staleData, world)

def flushRequest (me : SessionId) (requestId : Nat) (loaded latest : ProfileChangeRequest) (world : World) :
    Option (Except Failure Unit × World) :=
  (world.requests.updateRow me requestId (fun _ => true) (flushedRequest loaded latest)).map
    fun (hit, requests) =>
    if hit then
      (.ok (), { world with
        requests, deciding := Function.update world.deciding me (some (requestId, latest.status)) })
    else (.error .staleData, world)

def answer (me : SessionId) (stmt : Stmt) (choice : Choice) (world : World) :
    Option (Except Failure (Reply stmt) × World) :=
  match stmt with
  | .now => some (.ok choice.now, world)
  | .getById requestId => some (.ok (world.requests.row me requestId), world)
  | .getMember memberId => some (.ok (world.members.row me memberId), world)
  | .flushMember memberId loaded latest => flushMember me memberId loaded latest world
  | .flushRequest requestId loaded latest => flushRequest me requestId loaded latest world
  | .refresh => some (.ok (), world)
  | .commit => some (.ok (), world.commit me)

def exec (me : SessionId) (stmt : Stmt) (choice : Choice) (world : World) :
    Option (Except Failure (Reply stmt) × World) :=
  match choice.fails with
  | some reason => some (.error reason, world)
  | none => answer me stmt choice world

abbrev machine : Machine profileChanges where
  World := World
  Choice := Choice
  Outside := Empty
  exec := exec
  close := World.rollback
  crash := World.rollback
  outside change := nomatch change

def answering : Answering machine where
  fails := Choice.fails
  answer := answer
  exec_eq me stmt choice world := by
    simp only [exec]
    cases choice.fails <;> rfl

section Writes

variable {me : SessionId} {world world' : World}

theorem flushMember_cases {memberId : Nat} {loaded latest : Member} {reply : Except Failure Unit}
    (done : flushMember me memberId loaded latest world = some (reply, world')) :
    (∃ reason, reply = .error reason) ∧ world' = world ∨
      reply = .ok () ∧ (world.members.slot memberId).lockedFor me = false ∧ ∃ stored,
        world.members.row me memberId = some stored ∧ world' = { world with
          members := world.members.write me memberId (some (flushedMember loaded latest stored)) } := by
  obtain ⟨⟨hit, members⟩, updated, written⟩ := Option.map_eq_some_iff.mp done
  rcases Table.updateRow_cases updated with ⟨rfl, rfl⟩ | ⟨rfl, free, version, seen, -, rfl⟩
  · cases written
    exact .inl ⟨⟨_, rfl⟩, rfl⟩
  · cases written
    exact .inr ⟨rfl, free, version, seen, rfl⟩

theorem flushRequest_cases {requestId : Nat} {loaded latest : ProfileChangeRequest} {reply : Except Failure Unit}
    (done : flushRequest me requestId loaded latest world = some (reply, world')) :
    (∃ reason, reply = .error reason) ∧ world' = world ∨
      reply = .ok () ∧ (world.requests.slot requestId).lockedFor me = false ∧ ∃ stored,
        world.requests.row me requestId = some stored ∧ world' = { world with
          requests := world.requests.write me requestId (some (flushedRequest loaded latest stored))
          deciding := Function.update world.deciding me (some (requestId, latest.status)) } := by
  obtain ⟨⟨hit, requests⟩, updated, written⟩ := Option.map_eq_some_iff.mp done
  rcases Table.updateRow_cases updated with ⟨rfl, rfl⟩ | ⟨rfl, free, version, seen, -, rfl⟩
  · cases written
    exact .inl ⟨⟨_, rfl⟩, rfl⟩
  · cases written
    exact .inr ⟨rfl, free, version, seen, rfl⟩

end Writes

/-! ## services/profile_change_service.py -/

abbrev Handler (α : Type) := Program profileChanges α

abbrev ask (stmt : Stmt) : Handler (Reply stmt) := @issue profileChanges stmt

/-- The row of a pending request. -/
def pendingRequest (requestId : Nat) : Handler ProfileChangeRequest := do
  match ← ask (.getById requestId) with
  | none => raise (.notFound "profile_change_request_not_found")
  | some row => if row.status ≠ .pending then raise (.conflict "profile_change_not_pending") else pure row

/-- `setattr(member, field, new_value)`; `none` where `int(new_value)` raises. -/
def applied (intOf : String → Option Int) (row : ProfileChangeRequest) (member : Member) : Option Member :=
  match row.fieldName with
  | .name => some { member with name := row.newValue }
  | .cohort => (intOf row.newValue).map fun cohort => { member with cohort }

/-- The flush of a loaded member row; without a change there is none. -/
def saveMember (memberId : Nat) (loaded latest : Member) : Handler Unit :=
  if latest = loaded then pure () else ask (.flushMember memberId loaded latest)

/-- `profile_change_requests_repo.save`, after the flush of the member. -/
def save (requestId : Nat) (loaded latest : ProfileChangeRequest) : Handler Unit := do
  ask (.flushRequest requestId loaded latest)
  ask .commit
  ask .refresh

def approveRequest (intOf : String → Option Int) (requestId : Nat) (decidedByStudentId : String) :
    Handler Unit := do
  let row ← pendingRequest requestId
  match ← ask (.getMember row.memberId) with
  | none => raise (.notFound "member_not_found")
  | some member =>
    match applied intOf row member with
    | none => raise .valueError
    | some latest =>
      let decidedAt ← ask .now
      saveMember row.memberId member latest
      save requestId row { row with
        status := .approved, decidedAt := some decidedAt, decidedByStudentId := some decidedByStudentId }

def rejectRequest (requestId : Nat) (decidedByStudentId reason : String) : Handler Unit := do
  let row ← pendingRequest requestId
  let decidedAt ← ask .now
  save requestId row { row with
    status := .rejected, decidedAt := some decidedAt, decidedByStudentId := some decidedByStudentId
    rejectReason := some reason }

inductive Decision where
  | approve (decidedByStudentId : String)
  | reject (decidedByStudentId reason : String)

def Decision.program (intOf : String → Option Int) (requestId : Nat) : Decision → Handler Unit
  | .approve decidedByStudentId => approveRequest intOf requestId decidedByStudentId
  | .reject decidedByStudentId reason => rejectRequest requestId decidedByStudentId reason

def start (intOf : String → Option Int) (requestId : Nat) (world : World)
    (reviewers : SessionId → Option Decision) : Config machine Unit where
  world := world
  pool me := (reviewers me).map (Decision.program intOf requestId)

/-- The next statements of a session, none of which fails. -/
def executes (me : SessionId) (statements : Nat) : List (Action machine) :=
  List.replicate statements (.exec me {})

end SogeconApp.Source.ProfileChanges
