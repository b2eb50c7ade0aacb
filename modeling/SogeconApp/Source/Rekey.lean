import Mathlib.Data.List.Sort
import SogeconApp.Library.Sessions
import SogeconApp.Source.PushCrypto

/-!
# Replacing the key of the push subscriptions

Source: `ops/rekey_push_kek.py` (_is_encrypted, _enc_with, _dec_with, _hash_endpoint, rekey_once).

AES-GCM and SHA-256 are parameters. `os.urandom`, the query and the commit are statements, each of
which may fail. A changed row is written at the commit, one `UPDATE` after the other in one
transaction; before it nothing of the table changes. The columns `created_at`, `last_seen_at` and
`revoked_at`, which the script leaves alone, are left out.
-/

namespace SogeconApp.Source.Rekey

open Library Base64 Program PushCrypto

/-- The two errors of `AESGCM.decrypt`. -/
inductive AesError where
  | invalidTag | valueError
  deriving DecidableEq, Repr

structure AesRules where
  encrypt : (key nonce data : Bytes) → Bytes
  decrypt : (key nonce data : Bytes) → Except AesError Bytes
  /-- `hashlib.sha256(..).hexdigest()`. -/
  hashEndpoint : String → String

/-- Both keys were checked when they were read from the environment. -/
structure Keys where
  old : Bytes
  new : Bytes
  oldSized : old.length ∈ [16, 24, 32]
  newSized : new.length ∈ [16, 24, 32]

structure PushSubscription where
  id : Nat
  memberId : Option Nat
  endpoint : String
  endpointHash : String
  p256dh : String
  auth : String
  ua : Option String
  deriving DecidableEq, Repr

/-! ## The store -/

/-- The primary key, the unique columns and their lengths. -/
structure Constraints (rows : List PushSubscription) : Prop where
  ids : (rows.map (·.id)).Nodup
  endpoints : (rows.map (·.endpoint)).Nodup
  hashes : (rows.map (·.endpointHash)).Nodup
  lengths : ∀ row ∈ rows, row.endpoint.length ≤ 512 ∧ row.endpointHash.length ≤ 64 ∧
    row.p256dh.length ≤ 255 ∧ row.auth.length ≤ 255

theorem constraints_iff (rows : List PushSubscription) : Constraints rows ↔
    (rows.map (·.id)).Nodup ∧ (rows.map (·.endpoint)).Nodup ∧ (rows.map (·.endpointHash)).Nodup ∧
      ∀ row ∈ rows, row.endpoint.length ≤ 512 ∧ row.endpointHash.length ≤ 64 ∧
        row.p256dh.length ≤ 255 ∧ row.auth.length ≤ 255 :=
  ⟨fun ⟨ids, endpoints, hashes, lengths⟩ => ⟨ids, endpoints, hashes, lengths⟩,
    fun ⟨ids, endpoints, hashes, lengths⟩ => ⟨ids, endpoints, hashes, lengths⟩⟩

instance (rows : List PushSubscription) : Decidable (Constraints rows) :=
  decidable_of_iff' _ (constraints_iff rows)

structure Subscriptions where
  rows : List PushSubscription
  valid : Constraints rows

/-- `ORDER BY id ASC LIMIT ..`; a negative limit is an error. -/
def Subscriptions.scan (subs : Subscriptions) (limit : Option Int) : Option (List PushSubscription) :=
  let ordered := subs.rows.insertionSort fun first second => first.id ≤ second.id
  match limit with
  | none => some ordered
  | some limit => if limit < 0 then none else some (ordered.take limit.toNat)

/-- `UPDATE .. WHERE id = ..`; `none` if a constraint is violated. -/
def Subscriptions.update (subs : Subscriptions) (row : PushSubscription) : Option Subscriptions :=
  let rows := subs.rows.map fun other => if other.id = row.id then row else other
  if valid : Constraints rows then some { rows, valid } else none

inductive Failure where
  | runtimeError (message : String)
  | valueError
  /-- A database error, or whatever else ends the script. -/
  | interrupted
  deriving DecidableEq, Repr

inductive Stmt where
  | scan (limit : Option Int)
  | urandom
  /-- `db.add(row)`, for a loaded row whose attributes were set. -/
  | add (row : PushSubscription)
  | commit

@[reducible] def Reply : Stmt → Type
  | .scan _ => List PushSubscription
  | .urandom => Nonce
  | _ => Unit

abbrev rekeying : Signature where
  Stmt := Stmt
  Reply := Reply
  Exn := Failure

/-- The table, and the rows that the session has to write. -/
structure World where
  subs : Subscriptions
  dirty : List PushSubscription

structure Choice where
  fails : Option Failure
  nonce : Nonce

def answer (stmt : Stmt) (choice : Choice) (world : World) : Except Failure (Reply stmt) × World :=
  match stmt with
  | .scan limit =>
    match world.subs.scan limit with
    | some rows => (.ok rows, world)
    | none => (.error .interrupted, world)
  | .urandom => (.ok choice.nonce, world)
  | .add row => (.ok (), { world with dirty := world.dirty ++ [row] })
  | .commit =>
    match world.dirty.foldlM Subscriptions.update world.subs with
    | some subs => (.ok (), { subs, dirty := [] })
    | none => (.error .interrupted, world)

def exec (stmt : Stmt) (choice : Choice) (world : World) : Except Failure (Reply stmt) × World :=
  match choice.fails with
  | some reason => (.error reason, world)
  | none => answer stmt choice world

/-- A session that ends loses what it has not committed. -/
def World.drop (world : World) : World := { world with dirty := [] }

abbrev machine : Machine rekeying where
  World := World
  Choice := Choice
  Outside := Empty
  exec _ stmt choice world := some (exec stmt choice world)
  close _ := World.drop
  crash _ := World.drop
  outside change := nomatch change

/-! ## The script -/

abbrev Script (α : Type) := Program rekeying α

abbrev ask (stmt : Stmt) : Script (Reply stmt) := @issue rekeying stmt

def isEncrypted (text : String) : Bool := encPrefix.isPrefixOf text.toList

section Script

variable (rules : AesRules) (keys : Keys)

def sealWith (key : Bytes) (nonce : Nonce) (plaintext : String) : String :=
  String.ofList (encPrefix ++ Base64.encode (nonce.val ++ rules.encrypt key nonce.val (encodeUtf8 plaintext)))

def encWith (key : Bytes) (plaintext : String) : Script String := do
  let nonce ← ask .urandom
  return sealWith rules key nonce plaintext

def decWith (key : Bytes) (ciphertext : String) : Except AesError String :=
  if ¬isEncrypted ciphertext then .ok ciphertext
  else
    match Base64.decode false (ciphertext.toList.drop encPrefix.length) with
    | none => .error .valueError
    | some data => do
      let pt ← rules.decrypt key (data.take 12) (data.drop 12)
      match decodeUtf8 pt with
      | some text => .ok text
      | none => .error .valueError

/-- The old key first, then the new one. -/
def decGuess (text : String) : Except Failure String :=
  if ¬isEncrypted text then .ok text
  else
    match decWith rules keys.old text with
    | .ok plain => .ok plain
    | .error .valueError => .error .valueError
    | .error .invalidTag =>
      match decWith rules keys.new text with
      | .ok plain => .ok plain
      | .error .valueError => .error .valueError
      | .error .invalidTag => .error (.runtimeError "Cannot decrypt with old/new key; 중단")

/-- The body of the loop; it returns `need_update`. -/
def rekeyRow (dryRun : Bool) (row : PushSubscription) : Script Bool := do
  let epPt ← Program.ended (decGuess rules keys row.endpoint)
  let kPt ← Program.ended (decGuess rules keys row.p256dh)
  let aPt ← Program.ended (decGuess rules keys row.auth)
  let epNew ← encWith rules keys.new epPt
  let kNew ← encWith rules keys.new kPt
  let aNew ← encWith rules keys.new aPt
  let needUpdate : Bool := row.endpoint ≠ epNew ∨ row.p256dh ≠ kNew ∨ row.auth ≠ aNew
  if needUpdate = true ∧ dryRun = false then
    ask (.add { row with
      endpoint := epNew, p256dh := kNew, auth := aNew, endpointHash := rules.hashEndpoint epPt })
  return needUpdate

def rekeyRows (dryRun : Bool) : List PushSubscription → (scanned updated : Nat) → Script (Nat × Nat)
  | [], scanned, updated => pure (scanned, updated)
  | row :: rest, scanned, updated => do
    let needUpdate ← rekeyRow rules keys dryRun row
    rekeyRows dryRun rest (scanned + 1) (if needUpdate then updated + 1 else updated)

def rekeyOnce (dryRun : Bool) (limit : Option Int) : Script (Nat × Nat) := do
  let rows ← ask (.scan limit)
  let (scanned, updated) ← rekeyRows rules keys dryRun rows 0 0
  if dryRun = false ∧ updated ≠ 0 then ask .commit
  return (scanned, updated)

end Script

end SogeconApp.Source.Rekey
