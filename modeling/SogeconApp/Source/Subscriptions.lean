import SogeconApp.Library.Sessions

/-!
# Push subscriptions

Source: `apps/api/repositories/notifications.py` (upsert_subscription, delete_subscription),
`services/notifications_service.py` (save_subscription, delete_subscription) and `models.py`
(PushSubscription, whose owner is set to NULL when the member is deleted).

The table is keyed by `endpoint_hash`, which is unique and never changes in a row; the hash is
a parameter, and what `encrypt_str` makes of a text is up to the environment. A deletion is
flushed by primary key at the commit of its transaction. A member has no deletion request in
the service; its effect on the subscriptions is that of one statement over the rows it owns,
and the check of the foreign key, which could only make an upsert fail, is left out. So are
the columns `created_at`, `last_seen_at` and `revoked_at`.
-/

namespace SogeconApp.Source.Subscriptions

open Library Program

structure PushSubscription where
  id : Nat
  memberId : Option Nat
  endpoint : String
  p256dh : String
  auth : String
  ua : Option String := none
  deriving DecidableEq, Repr

/-- What a member sends to subscribe. -/
structure SubscriptionData where
  endpoint : String
  p256dh : String
  auth : String
  ua : Option String := none
  deriving DecidableEq, Repr

inductive Failure where
  | subscriptionOwnership
  | api (code detail : String) (status : Nat)
  /-- A database error or a cancellation, at any statement. -/
  | interrupted
  deriving DecidableEq, Repr

inductive Stmt where
  /-- `INSERT .. ON CONFLICT (endpoint_hash) DO UPDATE .. WHERE .. RETURNING`. -/
  | upsert (endpointHash : String) (data : SubscriptionData) (actor : Nat)
  | findByHash (endpointHash : String)
  /-- `DELETE .. WHERE id = ..`, for the loaded row. -/
  | deleteLoaded (endpointHash : String) (loaded : PushSubscription)
  /-- The rows of a member, and `SET member_id = NULL` in one of them. -/
  | ownedBy (memberId : Nat)
  | disown (memberId : Nat) (endpointHash : String)
  | refresh
  | commit
  | rollback
  deriving DecidableEq

@[reducible] def Reply : Stmt → Type
  | .upsert _ _ _ | .findByHash _ => Option PushSubscription
  | .ownedBy _ => List String
  | _ => Unit

abbrev subscriptions : Signature where
  Stmt := Stmt
  Reply := Reply
  Exn := Failure

/-! ## The store -/

/-- The rows by `endpoint_hash`, and the sequence of their primary keys. -/
structure World where
  subs : Table String PushSubscription
  nextId : Nat

namespace World

def commit (me : SessionId) (world : World) : World := { world with subs := world.subs.commit me }

def rollback (me : SessionId) (world : World) : World := { world with subs := world.subs.abort me }

end World

/-- What the environment decides: an exception, and what encryption makes of a text. -/
structure Choice where
  fails : Option Failure := none
  encrypt : String → String := id

/-- The condition of the upsert: the row is nobody's, or the actor's own. -/
def claimable (actor : Nat) (row : PushSubscription) : Bool :=
  row.memberId = none ∨ row.memberId = some actor

def upsert (me : SessionId) (endpointHash : String) (data : SubscriptionData) (actor : Nat)
    (encrypt : String → String) (world : World) : Option (Except Failure (Option PushSubscription) × World) :=
  let excluded : PushSubscription :=
    { id := world.nextId
      memberId := some actor
      endpoint := encrypt data.endpoint
      p256dh := encrypt data.p256dh
      auth := encrypt data.auth
      ua := data.ua }
  (world.subs.upsertRow me endpointHash excluded (claimable actor) fun row => { excluded with id := row.id }).map
    fun (written, subs) => (.ok written, { subs, nextId := world.nextId + 1 })

def deleteLoaded (me : SessionId) (endpointHash : String) (loaded : PushSubscription) (world : World) :
    Option (Except Failure Unit × World) :=
  (world.subs.deleteRow me endpointHash fun row => row.id = loaded.id).map
    fun (_, subs) => (.ok (), { world with subs })

def disown (me : SessionId) (memberId : Nat) (endpointHash : String) (world : World) :
    Option (Except Failure Unit × World) :=
  (world.subs.updateRow me endpointHash (fun row => row.memberId = some memberId)
      fun row => { row with memberId := none }).map
    fun (_, subs) => (.ok (), { world with subs })

def answer (me : SessionId) (stmt : Stmt) (choice : Choice) (world : World) :
    Option (Except Failure (Reply stmt) × World) :=
  match stmt with
  | .upsert endpointHash data actor => upsert me endpointHash data actor choice.encrypt world
  | .findByHash endpointHash => some (.ok (world.subs.row me endpointHash), world)
  | .deleteLoaded endpointHash loaded => deleteLoaded me endpointHash loaded world
  | .ownedBy memberId => some (.ok (world.subs.select me fun _ row => row.memberId = some memberId), world)
  | .disown memberId endpointHash => disown me memberId endpointHash world
  | .refresh => some (.ok (), world)
  | .commit => some (.ok (), world.commit me)
  | .rollback => some (.ok (), world.rollback me)

def exec (me : SessionId) (stmt : Stmt) (choice : Choice) (world : World) :
    Option (Except Failure (Reply stmt) × World) :=
  match choice.fails with
  | some reason => some (.error reason, world)
  | none => answer me stmt choice world

abbrev machine : Machine subscriptions where
  World := World
  Choice := Choice
  Outside := Empty
  exec := exec
  close := World.rollback
  crash := World.rollback
  outside change := nomatch change

def answering : Answering machine where
  fails := Choice.fails
  answer := answer
  exec_eq me stmt choice world := by
    simp only [exec]
    cases choice.fails <;> rfl

/-! ## The services -/

abbrev Handler (α : Type) := Program subscriptions α

abbrev ask (stmt : Stmt) : Handler (Reply stmt) := @issue subscriptions stmt

section Services

variable (hashEndpoint : String → String)

def upsertSubscription (data : SubscriptionData) (actorMemberId : Nat) : Handler Unit := do
  let sub ← ask (.upsert (hashEndpoint data.endpoint) data actorMemberId)
  match sub with
  | none =>
    ask .rollback
    raise .subscriptionOwnership
  | some _ =>
    ask .commit
    ask .refresh

def repoDeleteSubscription (endpoint : String) (actorMemberId : Nat) : Handler Unit := do
  let h := hashEndpoint endpoint
  match ← ask (.findByHash h) with
  | none => pure ()
  | some sub =>
    if sub.memberId ≠ none ∧ sub.memberId ≠ some actorMemberId then raise .subscriptionOwnership
    else
      ask (.deleteLoaded h sub)
      ask .commit

/-- `except SubscriptionOwnershipError`. -/
def ownershipError : Failure → Handler Unit
  | .subscriptionOwnership => raise (.api "subscription_forbidden" "subscription_forbidden" 403)
  | reason => raise reason

def saveSubscription (data : SubscriptionData) (actorMemberId : Nat) : Handler Unit :=
  (upsertSubscription hashEndpoint data actorMemberId).catchWith ownershipError

def deleteSubscription (endpoint : String) (actorMemberId : Nat) : Handler Unit :=
  (repoDeleteSubscription hashEndpoint endpoint actorMemberId).catchWith ownershipError

end Services

/-- `ON DELETE SET NULL`. -/
def deleteMember (memberId : Nat) : Handler Unit := do
  let owned ← ask (.ownedBy memberId)
  forEach (fun endpointHash => ask (.disown memberId endpointHash)) owned
  ask .commit

inductive Request where
  | save (data : SubscriptionData) (actorMemberId : Nat)
  | delete (endpoint : String) (actorMemberId : Nat)
  | deleteMember (memberId : Nat)

/-- The member on whose behalf a request runs. -/
def Request.actor : Request → Option Nat
  | .save _ actorMemberId | .delete _ actorMemberId => some actorMemberId
  | .deleteMember _ => none

def Request.program (hashEndpoint : String → String) : Request → Handler Unit
  | .save data actorMemberId => saveSubscription hashEndpoint data actorMemberId
  | .delete endpoint actorMemberId => deleteSubscription hashEndpoint endpoint actorMemberId
  | .deleteMember memberId => Subscriptions.deleteMember memberId

def start (hashEndpoint : String → String) (world : World) (requests : SessionId → Option Request) :
    Config machine Unit where
  world := world
  pool me := (requests me).map (Request.program hashEndpoint)

/-- The next statements of a session, none of which fails. -/
def executes (me : SessionId) (statements : Nat) : List (Action machine) :=
  List.replicate statements (.exec me {})

end SogeconApp.Source.Subscriptions
