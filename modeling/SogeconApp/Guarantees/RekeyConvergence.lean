import Mathlib.Algebra.Group.Nat.Defs
import SogeconApp.Guarantees.Rekey

/-!
# Repeating the replacement of the key

A run scans the first rows by their ids, and every run seals what it scans anew: a row that is already
under the new key is not passed over. So repeated runs with a limit never come to the rows after it, and a
run after the last one that was needed still writes every row that it scans.
-/

namespace SogeconApp.Guarantees.RekeyConvergence

open Library Base64 Source.PushCrypto Source.Rekey Guarantees.Rekey

/-- The tag has 16 bytes, and whether there is a ValueError does not depend on the key. -/
structure AesGcm (rules : AesRules) (keys : Keys) : Prop extends Authenticates rules keys where
  tag : ∀ (nonce : Nonce) (data : Bytes), (rules.encrypt keys.new nonce.val data).length = data.length + 16
  sizes : ∀ nonce data, rules.decrypt keys.old nonce data = .error .valueError →
    rules.decrypt keys.new nonce data = .error .valueError

section Texts

variable {rules : AesRules} {keys : Keys} {text plain : String} {nonce : Nonce}

/-- The script finds out what a text says if one of the keys opens it. -/
theorem decGuess_of_plaintext (aes : AesGcm rules keys) (read : Plaintext rules keys text plain) :
    decGuess rules keys text = .ok plain := by
  by_cases marked : isEncrypted text = true
  · rw [decGuess, if_neg (by simpa using marked)]
    cases old : decWith rules keys.old text with
    | ok other => exact congrArg Except.ok (read.unique aes.toAuthenticates (.inl old))
    | error reason =>
      have new : decWith rules keys.new text = .ok plain := by
        rcases read with old' | new
        · rw [old] at old'
          cases old'
        · exact new
      cases reason with
      | invalidTag => simp only [new]
      | valueError =>
        obtain ⟨data, bytes, decoded, unsealed⟩ := decWith_ok marked new
        exfalso
        cases opened : rules.decrypt keys.old (data.take 12) (data.drop 12) with
        | error reason =>
          rw [decWith, if_neg (by simpa using marked), decoded] at old
          simp only [opened] at old
          cases old
          rw [aes.sizes _ _ opened] at unsealed
          cases unsealed
        | ok other =>
          rw [aes.rejects _ _ _ _ opened unsealed, new] at old
          cases old
  · have clear : decWith rules keys.old text = .ok text := by rw [decWith, if_pos marked]
    rw [decGuess, if_pos marked, read.unique aes.toAuthenticates (.inl clear)]

/-- What the script reads a text as. -/
def opened (rules : AesRules) (keys : Keys) (text : String) : String :=
  match decGuess rules keys text with
  | .ok plain => plain
  | .error _ => ""

theorem opened_of_guess (guessed : decGuess rules keys text = .ok plain) : opened rules keys text = plain := by
  rw [opened, guessed]

/-- The length of a text once it is sealed: the marker, and the nonce, the text and the tag in base64. -/
def sealedLength (plain : String) : Nat := 7 + (12 + ((encodeUtf8 plain).length + 16) + 2) / 3 * 4

/-- The length of a sealed text is that of its text, apart from what the sealing adds. -/
theorem length_sealWith (aes : AesGcm rules keys) :
    (sealWith rules keys.new nonce plain).length = sealedLength plain := by
  have marker : encPrefix.length = 7 := rfl
  rw [sealWith, String.length_ofList, List.length_append, Base64.length_encode, List.length_append,
    aes.tag, marker,
    nonce.property, sealedLength]

/-- Sealed under the new key. -/
def Renewed (rules : AesRules) (keys : Keys) (row : PushSubscription) : Prop :=
  ∀ column ∈ columns row, isEncrypted column = true ∧ ∃ plain, decWith rules keys.new column = .ok plain

/-- What the written row holds. -/
theorem resealed_of (aes : AesGcm rules keys) {text' : String} (resealed : Resealed rules keys text text') :
    isEncrypted text' = true ∧ decWith rules keys.new text' = .ok (opened rules keys text) ∧
      text'.length = sealedLength (opened rules keys text) := by
  obtain ⟨plain, nonce, guessed, rfl⟩ := resealed
  rw [opened_of_guess guessed]
  exact ⟨isEncrypted_sealWith rules keys.new nonce plain, decWith_sealWith aes.toAuthenticates,
    length_sealWith aes⟩

theorem renewed_of_rekeyed (aes : AesGcm rules keys) {row row' : PushSubscription}
    (rekeyed : Rekeyed rules keys row row') : Renewed rules keys row' := by
  have each {text text' : String} (resealed : Resealed rules keys text text') :
      isEncrypted text' = true ∧ ∃ plain, decWith rules keys.new text' = .ok plain := by
    obtain ⟨marked, read, -⟩ := resealed_of aes resealed
    exact ⟨marked, _, read⟩
  intro column listed
  simp only [columns, List.mem_cons, List.not_mem_nil, or_false] at listed
  rcases listed with rfl | rfl | rfl
  · exact each rekeyed.endpoint
  · exact each rekeyed.p256dh
  · exact each rekeyed.auth

/-- Every column can be read under one of the keys. -/
def Readable (rules : AesRules) (keys : Keys) (subs : Subscriptions) : Prop :=
  ∀ row ∈ subs.rows, ∀ column ∈ columns row, ∃ plain, Plaintext rules keys column plain

theorem hash_of_rekeyed {row row' : PushSubscription} (rekeyed : Rekeyed rules keys row row') :
    row'.endpointHash = rules.hashEndpoint (opened rules keys row.endpoint) := by
  obtain ⟨plain, nonce, guessed, -⟩ := rekeyed.endpoint
  rw [opened_of_guess guessed]
  exact rekeyed.hash plain guessed

end Texts

/-! ## Whether the scanned rows can be stored -/

/-- The lengths of the sealed columns, and of the hash. -/
def Fits (rules : AesRules) (keys : Keys) (row : PushSubscription) : Prop :=
  sealedLength (opened rules keys row.endpoint) ≤ 512 ∧
    (rules.hashEndpoint (opened rules keys row.endpoint)).length ≤ 64 ∧
    sealedLength (opened rules keys row.p256dh) ≤ 255 ∧ sealedLength (opened rules keys row.auth) ≤ 255

instance (rules : AesRules) (keys : Keys) (row : PushSubscription) : Decidable (Fits rules keys row) :=
  inferInstanceAs (Decidable (_ ∧ _))

/-- The hash of another row when the row is written: the rows before it have been written. -/
def hashThen (rules : AesRules) (keys : Keys) (row other : PushSubscription) : String :=
  if other.id < row.id then rules.hashEndpoint (opened rules keys other.endpoint) else other.endpointHash

/-- The row fits into its columns, and no other row has its hash. -/
def Stores (rules : AesRules) (keys : Keys) (before : Subscriptions) (row : PushSubscription) : Prop :=
  Fits rules keys row ∧ ∀ other ∈ before.rows, other.id ≠ row.id →
    hashThen rules keys row other ≠ rules.hashEndpoint (opened rules keys row.endpoint)

instance (rules : AesRules) (keys : Keys) (before : Subscriptions) (row : PushSubscription) :
    Decidable (Stores rules keys before row) :=
  inferInstanceAs (Decidable (_ ∧ _))

def ordered (subs : Subscriptions) : List PushSubscription :=
  subs.rows.insertionSort fun first second => first.id ≤ second.id

/-- The rows that a run with the limit scans, and the rows that it never comes to. -/
def firstRows (subs : Subscriptions) (limit : Nat) : List PushSubscription := (ordered subs).take limit

def laterRows (subs : Subscriptions) (limit : Nat) : List PushSubscription := (ordered subs).drop limit

section Table

variable {rules : AesRules} {keys : Keys} {subs before current after : Subscriptions} {limit : Nat}
  {row row' : PushSubscription} {front rest rest' done later : List PushSubscription}

theorem scan_limit (subs : Subscriptions) (limit : Nat) :
    subs.scan (some (limit : Int)) = some (firstRows subs limit) := by
  have nonneg : ¬(limit : Int) < 0 := by omega
  simp only [Subscriptions.scan, if_neg nonneg, Int.toNat_natCast, firstRows, ordered]

theorem mem_ordered : row ∈ ordered subs ↔ row ∈ subs.rows :=
  (List.perm_insertionSort _ _).mem_iff

theorem mem_rows_iff : row ∈ subs.rows ↔ row ∈ firstRows subs limit ∨ row ∈ laterRows subs limit := by
  rw [← mem_ordered, ← List.mem_append, firstRows, laterRows, List.take_append_drop]

theorem ordered_pairwise (subs : Subscriptions) :
    (ordered subs).Pairwise fun first second => first.id < second.id := by
  let below (first second : PushSubscription) : Prop := first.id ≤ second.id
  have : Std.Total below := ⟨fun first second => Nat.le_total first.id second.id⟩
  have : IsTrans PushSubscription below := ⟨fun _ _ _ => Nat.le_trans⟩
  have sorted : (ordered subs).Pairwise below := List.pairwise_insertionSort below subs.rows
  have distinct : ((ordered subs).map (·.id)).Nodup :=
    ((List.perm_insertionSort below subs.rows).map _).nodup_iff.mpr subs.valid.ids
  refine (sorted.and (List.pairwise_map.mp distinct)).imp ?_
  rintro first second ⟨le, apart⟩
  exact Nat.lt_of_le_of_ne le apart

/-- The row with another in its place keeps a unique column unique unless another row has the same value. -/
theorem nodup_replace (column : PushSubscription → String) {rows : List PushSubscription}
    (ids : (rows.map (·.id)).Nodup) (unique : (rows.map column).Nodup) (known : ∃ row ∈ rows, row.id = row'.id) :
    ((rows.map fun other => if other.id = row'.id then row' else other).map column).Nodup ↔
      ∀ other ∈ rows, other.id ≠ row'.id → column other ≠ column row' := by
  rw [List.map_map]
  constructor
  · intro distinct other member apart same
    obtain ⟨row, stored, id⟩ := known
    have both := List.inj_on_of_nodup_map distinct member stored
    simp only [Function.comp_apply, if_neg apart, if_pos id] at both
    rw [both same, id] at apart
    exact apart rfl
  · intro apart
    refine List.Nodup.map_on ?_ (List.Nodup.of_map _ ids)
    intro first member second member' same
    simp only [Function.comp_apply] at same
    by_cases here : first.id = row'.id
    · by_cases there : second.id = row'.id
      · exact List.inj_on_of_nodup_map ids member member' (here.trans there.symm)
      · rw [if_pos here, if_neg there] at same
        exact absurd same.symm (apart second member' there)
    · by_cases there : second.id = row'.id
      · rw [if_neg here, if_pos there] at same
        exact absurd same (apart first member here)
      · rw [if_neg here, if_neg there] at same
        exact List.inj_on_of_nodup_map unique member member' same

/-- A row can be written that fits into its columns and shares neither endpoint nor hash with another
one. -/
theorem update_isSome_iff (known : ∃ row ∈ subs.rows, row.id = row'.id) :
    (subs.update row').isSome ↔
      (row'.endpoint.length ≤ 512 ∧ row'.endpointHash.length ≤ 64 ∧ row'.p256dh.length ≤ 255 ∧
        row'.auth.length ≤ 255) ∧
      ∀ other ∈ subs.rows, other.id ≠ row'.id →
        other.endpoint ≠ row'.endpoint ∧ other.endpointHash ≠ row'.endpointHash := by
  have stores : (subs.update row').isSome ↔
      Constraints (subs.rows.map fun other => if other.id = row'.id then row' else other) := by
    unfold Subscriptions.update
    extract_lets rows
    split
    · next valid => exact ⟨fun _ => valid, fun _ => rfl⟩
    · next invalid => exact ⟨by simp, fun valid => absurd valid invalid⟩
  rw [stores]
  constructor
  · intro valid
    have endpoints := (nodup_replace (·.endpoint) subs.valid.ids subs.valid.endpoints known).mp valid.endpoints
    have hashes := (nodup_replace (·.endpointHash) subs.valid.ids subs.valid.hashes known).mp valid.hashes
    obtain ⟨row, stored, id⟩ := known
    refine ⟨valid.lengths row' ?_, fun other member apart => ?_⟩
    · exact List.mem_map.mpr ⟨row, stored, if_pos id⟩
    · exact ⟨endpoints other member apart, hashes other member apart⟩
  · rintro ⟨lengths, apart⟩
    refine ⟨?_, ?_, ?_, fun other member => ?_⟩
    · have same : (subs.rows.map fun other => if other.id = row'.id then row' else other).map (·.id) =
          subs.rows.map (·.id) := by
        rw [List.map_map]
        refine List.map_congr_left fun other _ => ?_
        by_cases here : other.id = row'.id
        · simp [here]
        · simp [here]
      rw [same]
      exact subs.valid.ids
    · refine (nodup_replace (·.endpoint) subs.valid.ids subs.valid.endpoints known).mpr fun other member ne => ?_
      exact (apart other member ne).1
    · refine (nodup_replace (·.endpointHash) subs.valid.ids subs.valid.hashes known).mpr fun other member ne => ?_
      exact (apart other member ne).2
    · obtain ⟨old, stored, rfl⟩ := List.mem_map.mp member
      by_cases here : old.id = row'.id
      · rw [if_pos here]
        exact lengths
      · rw [if_neg here]
        exact subs.valid.lengths old stored

theorem overlay_id (written : List PushSubscription) (row : PushSubscription) :
    (overlay written row).id = row.id := by
  cases found : written.find? fun other => other.id = row.id with
  | none => rw [overlay, found]; rfl
  | some other =>
    rw [overlay, found]
    simpa using List.find?_some found

/-- While the rows are written in the order of their ids: the rows before this one have been written, the others
are as they were. -/
structure Midway (rules : AesRules) (keys : Keys) (before : Subscriptions) (front : List PushSubscription)
    (row : PushSubscription) (later done : List PushSubscription) (current : Subscriptions) : Prop where
  sorted : (front ++ row :: later).Pairwise fun first second => first.id < second.id
  complete : ∀ other, other ∈ before.rows ↔ other ∈ front ++ row :: later
  written : List.Forall₂ (Rekeyed rules keys) front done
  rows : current.rows = before.rows.map (overlay done)

/-- While the rows are written in order, those with a smaller id are as they were written, and the
others as they were. -/
theorem Midway.other (midway : Midway rules keys before front row later done current)
    {other : PushSubscription} (member : other ∈ before.rows) (apart : other.id ≠ row.id) :
    (∃ written ∈ done, Rekeyed rules keys other written ∧ overlay done other = written ∧ other.id < row.id) ∨
      (overlay done other = other ∧ ¬other.id < row.id) := by
  obtain ⟨ahead, ⟨behind, -⟩, across⟩ := List.pairwise_append.mp midway.sorted |>.imp id
    (And.imp_left List.pairwise_cons.mp)
  have ids := Rekeyed.ids midway.written
  have distinct : (done.map (·.id)).Nodup := by
    rw [ids]
    exact (List.pairwise_map.mpr ahead).imp fun less => Nat.ne_of_lt less
  rcases List.mem_append.mp ((midway.complete other).mp member) with before_ | after_
  · obtain ⟨written, listed, rekeyed⟩ := Rekeyed.exists_written midway.written before_
    refine .inl ⟨written, listed, rekeyed, overlay_of_mem distinct listed rekeyed.others.1, ?_⟩
    exact across other before_ row List.mem_cons_self
  · rcases List.mem_cons.mp after_ with rfl | after_
    · exact absurd rfl apart
    · have less := behind other after_
      refine .inr ⟨overlay_none fun written listed same => ?_, by omega⟩
      have known : other.id ∈ front.map (·.id) := by
        rw [← ids, ← same]
        exact List.mem_map_of_mem listed
      obtain ⟨earlier, inFront, id⟩ := List.mem_map.mp known
      have less' := across earlier inFront other (List.mem_cons_of_mem _ after_)
      omega

/-- A sealed row is written if it can be stored; of the endpoints none is twice if none of the hashes is. -/
theorem Midway.stores_iff (midway : Midway rules keys before front row later done current)
    (aes : AesGcm rules keys) (rekeyed : Rekeyed rules keys row row') (anew : Anew before row') :
    (current.update row').isSome ↔ Stores rules keys before row := by
  have id : row'.id = row.id := rekeyed.others.1
  have member : row ∈ before.rows := (midway.complete row).mpr (by simp)
  have known : ∃ stored ∈ current.rows, stored.id = row'.id := by
    refine ⟨overlay done row, ?_, ?_⟩
    · rw [midway.rows]
      exact List.mem_map_of_mem member
    · rw [overlay_id, id]
  obtain ⟨-, endpoint, length⟩ := resealed_of aes rekeyed.endpoint
  obtain ⟨-, -, p256dh⟩ := resealed_of aes rekeyed.p256dh
  obtain ⟨-, -, auth⟩ := resealed_of aes rekeyed.auth
  have hash := hash_of_rekeyed rekeyed
  rw [update_isSome_iff known, length, p256dh, auth, hash, id, midway.rows]
  refine and_congr Iff.rfl ⟨fun apart other stored ne => ?_, fun unique written listed ne => ?_⟩
  · have differs := (apart _ (List.mem_map_of_mem stored) (by rwa [overlay_id])).2
    rcases midway.other stored ne with ⟨written, -, rekeyed', here, less⟩ | ⟨here, less⟩
    · rw [hashThen, if_pos less, ← hash_of_rekeyed rekeyed', ← here]
      exact differs
    · rw [hashThen, if_neg less, ← here]
      exact differs
  · obtain ⟨other, stored, rfl⟩ := List.mem_map.mp listed
    rw [overlay_id] at ne
    have differs := unique other stored ne
    rcases midway.other stored ne with ⟨written, -, rekeyed', here, less⟩ | ⟨here, less⟩
    · rw [hashThen, if_pos less] at differs
      rw [here, hash_of_rekeyed rekeyed']
      refine ⟨fun same => differs ?_, differs⟩
      obtain ⟨-, endpoint', -⟩ := resealed_of aes rekeyed'.endpoint
      rw [same, endpoint] at endpoint'
      rw [Except.ok.inj endpoint']
    · rw [hashThen, if_neg less] at differs
      rw [here]
      exact ⟨anew other stored, differs⟩

/-- The commit goes through if every scanned row can be stored. -/
theorem foldlM_isSome_iff (aes : AesGcm rules keys) (rekeyed : List.Forall₂ (Rekeyed rules keys) rest rest')
    (anew : ∀ row' ∈ rest', Anew before row') (written : List.Forall₂ (Rekeyed rules keys) front done)
    (sorted : (front ++ (rest ++ later)).Pairwise fun first second => first.id < second.id)
    (complete : ∀ other, other ∈ before.rows ↔ other ∈ front ++ (rest ++ later))
    (committed : done.foldlM Subscriptions.update before = some current) :
    (rest'.foldlM Subscriptions.update current).isSome ↔ ∀ row ∈ rest, Stores rules keys before row := by
  induction rekeyed generalizing front done current with
  | nil => exact ⟨fun _ => nofun, fun _ => rfl⟩
  | @cons row row' rest rest' here _ ih =>
    have ids : (done.map (·.id)).Nodup := by
      rw [Rekeyed.ids written]
      exact (List.pairwise_map.mpr (List.pairwise_append.mp sorted).1).imp fun less => Nat.ne_of_lt less
    have midway : Midway rules keys before front row (rest ++ later) done current :=
      ⟨sorted, complete, written, foldlM_update ids committed⟩
    have stores := midway.stores_iff aes here (anew row' List.mem_cons_self)
    rw [List.foldlM_cons]
    cases updated : current.update row' with
    | none =>
      rw [updated] at stores
      refine ⟨nofun, fun all => ?_⟩
      exact absurd (stores.mpr (all row List.mem_cons_self)) (by simp)
    | some next =>
      rw [updated] at stores
      have onward : (done ++ [row']).foldlM Subscriptions.update before = some next := by
        rw [List.foldlM_append, committed]
        simp [updated]
      have again := ih (fun other listed => anew other (List.mem_cons_of_mem _ listed))
        (List.rel_append written (.cons here .nil))
        (by rwa [List.append_assoc, List.singleton_append]) (fun other => by simpa using complete other) onward
      rw [List.forall_mem_cons]
      exact ⟨fun through => ⟨stores.mp rfl, again.mp through⟩, fun all => again.mpr all.2⟩

/-- All rows can be written exactly if each of them can when its turn comes. -/
theorem commit_isSome_iff (aes : AesGcm rules keys) {rows written : List PushSubscription}
    (writes : Writes rules keys before (some (limit : Int)) rows written) :
    (written.foldlM Subscriptions.update before).isSome ↔
      ∀ row ∈ firstRows before limit, Stores rules keys before row := by
  have scanned := writes.scanned
  rw [scan_limit] at scanned
  cases scanned
  have whole : firstRows before limit ++ laterRows before limit = ordered before := List.take_append_drop _ _
  have sorted := ordered_pairwise before
  rw [← whole] at sorted
  refine foldlM_isSome_iff aes writes.rekeyed writes.anew .nil sorted (fun other => ?_) rfl
  rw [List.nil_append, List.mem_append]
  exact mem_rows_iff

end Table

/-! ## Runs that nothing interrupts -/

/-- One run of the script that is not a dry one; its nonces sealed no stored endpoint. -/
def Run (rules : AesRules) (keys : Keys) (me : SessionId) (limit : Nat) (before after : Subscriptions) : Prop :=
  ∃ choices : Nat → Choice, (∀ index, (choices index).fails = none ∧ Fresh before (choices index).nonce) ∧
    ∃ out world, machine.eval me (rekeyOnce rules keys false (some (limit : Int))) choices
      { subs := before, dirty := [] } = some (out, world) ∧ world.subs = after

/-- However often and with whatever nonces it is repeated, the rows come to be under the new key. -/
def Converges (rules : AesRules) (keys : Keys) (me : SessionId) (limit : Nat) (before : Subscriptions) : Prop :=
  ∀ states : Nat → Subscriptions, states 0 = before →
    (∀ runs, Run rules keys me limit (states runs) (states (runs + 1))) →
    ∃ runs, ∀ row ∈ (states runs).rows, Renewed rules keys row

/-- A run, dry or not, reports no row and changes nothing. -/
def Idle (rules : AesRules) (keys : Keys) (me : SessionId) (dryRun : Bool) (limit : Option Int)
    (state : Subscriptions) : Prop :=
  ∀ choices : Nat → Choice, (∀ index, (choices index).fails = none) →
    ∃ scanned, machine.eval me (rekeyOnce rules keys dryRun limit) choices { subs := state, dirty := [] } =
      some (.ok (scanned, 0), { subs := state, dirty := [] })

section Runs

variable {rules : AesRules} {keys : Keys} {me : SessionId} {limit : Nat} {before after : Subscriptions}

/-- The choices of such a run. -/
def Undisturbed (before : Subscriptions) (choice : Choice) : Prop :=
  choice.fails = none ∧ Fresh before choice.nonce

/-- A run leaves the table as it is and has a problem, or has written every row that it scanned. -/
theorem run_cases (run : Run rules keys me limit before after) :
    (after = before ∧ Problem rules keys before (some (limit : Int))) ∨
      ∃ written, Writes rules keys before (some (limit : Int)) (firstRows before limit) written ∧
        written.foldlM Subscriptions.update before = some after := by
  obtain ⟨choices, undisturbed, out, world, done, rfl⟩ := run
  have ensures : (rekeyOnce rules keys false (some (limit : Int))).Ensures
      (machine.alone me (Undisturbed before)) _ _ _ := rekeyOnce_ensures (fun _ allowed => allowed.2) false _
  obtain ⟨out', after', done', result⟩ := Machine.eval_of_ensures ensures undisturbed
  rw [done] at done'
  cases done'
  cases out with
  | error reason => exact .inl ⟨result.1, result.2 fun _ allowed => allowed.1⟩
  | ok counts =>
    obtain ⟨rows, written, writes, committed⟩ := result.2 rfl
    have scanned := writes.scanned
    rw [scan_limit] at scanned
    cases scanned
    exact .inr ⟨written, writes, committed⟩

/-- There is a run from every table, as long as there is a fresh nonce. -/
theorem exists_run (rules : AesRules) (keys : Keys) (me : SessionId) (limit : Nat) {nonce : Nonce}
    (fresh : Fresh before nonce) : ∃ after, Run rules keys me limit before after := by
  have ensures : (rekeyOnce rules keys false (some (limit : Int))).Ensures
      (machine.alone me (Undisturbed before)) _ _ _ := rekeyOnce_ensures (fun _ allowed => allowed.2) false _
  let choices : Nat → Choice := fun _ => { fails := none, nonce }
  have undisturbed : ∀ index, Undisturbed before (choices index) := fun _ => ⟨rfl, fresh⟩
  obtain ⟨out, world, done, -⟩ := Machine.eval_of_ensures ensures undisturbed
  exact ⟨world.subs, choices, undisturbed, out, world, done, rfl⟩

theorem written_distinct {written : List PushSubscription}
    (writes : Writes rules keys before (some (limit : Int)) (firstRows before limit) written) :
    (written.map (·.id)).Nodup := by
  rw [Rekeyed.ids writes.rekeyed]
  exact (scan_cases (scan_limit before limit)).2

theorem overlay_later {written : List PushSubscription}
    (writes : Writes rules keys before (some (limit : Int)) (firstRows before limit) written)
    {row : PushSubscription} (later : row ∈ laterRows before limit) : overlay written row = row := by
  have sorted := ordered_pairwise before
  rw [← List.take_append_drop limit (ordered before)] at sorted
  refine overlay_none fun other listed same => ?_
  have known : row.id ∈ (firstRows before limit).map (·.id) := by
    rw [← Rekeyed.ids writes.rekeyed, ← same]
    exact List.mem_map_of_mem listed
  obtain ⟨first, scanned, id⟩ := List.mem_map.mp known
  have less := (List.pairwise_append.mp sorted).2.2 first scanned row later
  omega

/-- A run changes only the rows that it scans. -/
theorem run_rows (run : Run rules keys me limit before after) :
    after.rows.map (·.id) = before.rows.map (·.id) ∧ ∀ row ∈ laterRows before limit, row ∈ after.rows := by
  rcases run_cases run with ⟨rfl, -⟩ | ⟨written, writes, committed⟩
  · exact ⟨rfl, fun row later => mem_rows_iff.mpr (.inr later)⟩
  · rw [foldlM_update (written_distinct writes) committed]
    constructor
    · rw [List.map_map]
      exact List.map_congr_left fun row _ => overlay_id written row
    · intro row later
      exact List.mem_map.mpr ⟨row, mem_rows_iff.mpr (.inr later), overlay_later writes later⟩

/-- The ids alone say which rows a run does not come to. -/
theorem mem_laterRows (ids : after.rows.map (·.id) = before.rows.map (·.id)) {row : PushSubscription}
    (later : row ∈ laterRows before limit) (stored : row ∈ after.rows) : row ∈ laterRows after limit := by
  have byIds (subs : Subscriptions) :
      (laterRows subs limit).map (·.id) = ((subs.rows.map (·.id)).insertionSort (· ≤ ·)).drop limit := by
    have sorted : (ordered subs).map (·.id) = (subs.rows.map (·.id)).insertionSort (· ≤ ·) :=
      List.map_insertionSort (r := fun first second : PushSubscription => first.id ≤ second.id) (s := (· ≤ ·))
        (·.id) subs.rows fun _ _ _ _ => Iff.rfl
    rw [laterRows, List.map_drop, sorted]
  have known : row.id ∈ (laterRows after limit).map (·.id) := by
    rw [byIds, ids, ← byIds]
    exact List.mem_map_of_mem later
  obtain ⟨other, later', id⟩ := List.mem_map.mp known
  have same := List.inj_on_of_nodup_map after.valid.ids (mem_rows_iff.mpr (.inr later')) stored id
  rwa [← same]

/-! ## Nonces that were not used -/

/-- The first four bytes count. -/
def numbered (number : Nat) : Nonce :=
  ⟨[.ofNat number, .ofNat (number / 256), .ofNat (number / 65536), .ofNat (number / 16777216), 0, 0, 0, 0,
    0, 0, 0, 0],
    rfl⟩

theorem numbered_inj {first second : Nat} (small : first < 2 ^ 32) (small' : second < 2 ^ 32)
    (same : (numbered first).val = (numbered second).val) : first = second := by
  have bytes {left right : Nat} (same : UInt8.ofNat left = UInt8.ofNat right) : left % 256 = right % 256 := by
    simpa using congrArg UInt8.toNat same
  simp only [numbered, List.cons.injEq, and_true] at same
  obtain ⟨one, two, three, four⟩ := same
  have one := bytes one
  have two := bytes two
  have three := bytes three
  have four := bytes four
  omega

/-- There are more nonces than rows. -/
theorem exists_fresh (small : before.rows.length < 2 ^ 32 - 1) : ∃ nonce, Fresh before nonce := by
  by_contra all
  simp only [not_exists] at all
  let used : List Bytes := before.rows.filterMap fun row =>
    (Base64.decode false (row.endpoint.toList.drop encPrefix.length)).map (·.take 12)
  let drawn : List Bytes := (List.range (before.rows.length + 1)).map fun number => (numbered number).val
  have distinct : drawn.Nodup := by
    refine List.Nodup.map_on (fun first listed second listed' same => ?_) List.nodup_range
    rw [List.mem_range] at listed listed'
    exact numbered_inj (by omega) (by omega) same
  have within : drawn ⊆ used := by
    intro bytes member
    obtain ⟨number, -, rfl⟩ := List.mem_map.mp member
    have stale := all (numbered number)
    simp only [Fresh, not_forall, not_not] at stale
    obtain ⟨row, stored, -, data, decoded, same⟩ := stale
    refine List.mem_filterMap.mpr ⟨row, stored, ?_⟩
    rw [Option.mem_def.mp decoded, Option.map_some, same]
  have more := (distinct.subperm within).length_le
  have fewer : used.length ≤ before.rows.length := List.length_filterMap_le _ _
  simp only [drawn, List.length_map, List.length_range] at more
  omega

theorem length_le_of_ids {bound : Nat} (ids : ∀ row ∈ before.rows, row.id < bound) :
    before.rows.length ≤ bound := by
  have within : before.rows.map (·.id) ⊆ List.range bound := by
    intro id listed
    obtain ⟨row, stored, rfl⟩ := List.mem_map.mp listed
    exact List.mem_range.mpr (ids row stored)
  have fewer := (before.valid.ids.subperm within).length_le
  rwa [List.length_map, List.length_range] at fewer

/-- The ids fit into the column, which is an `Integer`. -/
def IntegerIds (subs : Subscriptions) : Prop := ∀ row ∈ subs.rows, row.id < 2 ^ 31

theorem IntegerIds.of_same (integers : IntegerIds before) (ids : after.rows.map (·.id) = before.rows.map (·.id)) :
    IntegerIds after := by
  intro row stored
  have listed : row.id ∈ before.rows.map (·.id) := by
    rw [← ids]
    exact List.mem_map_of_mem stored
  obtain ⟨other, stored', id⟩ := List.mem_map.mp listed
  rw [← id]
  exact integers other stored'

/-- The script can be run again and again. -/
theorem exists_runs (rules : AesRules) (keys : Keys) (me : SessionId) (limit : Nat)
    (integers : IntegerIds before) :
    ∃ states : Nat → Subscriptions, states 0 = before ∧
      ∀ runs, Run rules keys me limit (states runs) (states (runs + 1)) := by
  have onward (subs : { subs // IntegerIds subs }) :
      ∃ next : { subs // IntegerIds subs }, Run rules keys me limit subs.val next.val := by
    have few := length_le_of_ids subs.property
    obtain ⟨nonce, fresh⟩ := exists_fresh (Nat.lt_of_le_of_lt few (by decide))
    obtain ⟨after, run⟩ := exists_run rules keys me limit fresh
    exact ⟨⟨after, subs.property.of_same (run_rows run).1⟩, run⟩
  choose next run using onward
  refine ⟨fun runs => (next^[runs] ⟨before, integers⟩).val, rfl, fun runs => ?_⟩
  have step : next^[runs + 1] ⟨before, integers⟩ = next (next^[runs] ⟨before, integers⟩) :=
    Function.iterate_succ_apply' next runs _
  simp only [step]
  exact run _

/-! ## When repeated runs come to an end -/

/-- Without an interruption a run goes through if its rows can be read and stored. -/
theorem run_commits (aes : AesGcm rules keys)
    (readable : Readable rules keys before)
    (stores : ∀ row ∈ firstRows before limit, Stores rules keys before row)
    (run : Run rules keys me limit before after) :
    ∃ written, Writes rules keys before (some (limit : Int)) (firstRows before limit) written ∧
      written.foldlM Subscriptions.update before = some after := by
  rcases run_cases run with ⟨-, unscanned | ⟨rows, scanned, row, member, column, listed, unread⟩ |
    problem⟩ | committed
  · rw [scan_limit] at unscanned
    cases unscanned
  · obtain ⟨plain, read⟩ := readable row ((scan_cases scanned).1 row member) column listed
    exact absurd (decGuess_of_plaintext aes read) (unread plain)
  · obtain ⟨rows, written, writes, refused⟩ := problem
    have through := (commit_isSome_iff aes writes).mpr stores
    rw [refused] at through
    cases through
  · exact committed

/-- After a run that has written its rows all of them are under the new key, if the later ones were. -/
theorem renewed_of_commit (aes : AesGcm rules keys) {written : List PushSubscription}
    (writes : Writes rules keys before (some (limit : Int)) (firstRows before limit) written)
    (committed : written.foldlM Subscriptions.update before = some after)
    (renewed : ∀ row ∈ laterRows before limit, Renewed rules keys row) :
    ∀ row ∈ after.rows, Renewed rules keys row := by
  have distinct := written_distinct writes
  rw [foldlM_update distinct committed]
  intro row' stored
  obtain ⟨row, member, rfl⟩ := List.mem_map.mp stored
  rcases mem_rows_iff.mp member with first | later
  · obtain ⟨row', listed, rekeyed⟩ := Rekeyed.exists_written writes.rekeyed first
    rw [overlay_of_mem distinct listed rekeyed.others.1]
    exact renewed_of_rekeyed aes rekeyed
  · rw [overlay_later writes later]
    exact renewed row later

/-- No run comes to a row after the limit. -/
theorem later_row_stays {states : Nat → Subscriptions}
    (repeats : ∀ runs, Run rules keys me limit (states runs) (states (runs + 1))) {row : PushSubscription}
    (later : row ∈ laterRows (states 0) limit) (runs : Nat) : row ∈ laterRows (states runs) limit := by
  induction runs with
  | zero => exact later
  | succ runs ih =>
    obtain ⟨ids, kept⟩ := run_rows (repeats runs)
    exact mem_laterRows ids ih (kept row ih)

/-- A table that cannot be stored again stays as it is. -/
theorem states_stay (aes : AesGcm rules keys) {states : Nat → Subscriptions}
    (repeats : ∀ runs, Run rules keys me limit (states runs) (states (runs + 1)))
    (refused : ¬∀ row ∈ firstRows (states 0) limit, Stores rules keys (states 0) row) (runs : Nat) :
    states runs = states 0 := by
  induction runs with
  | zero => rfl
  | succ runs ih =>
    rcases run_cases (repeats runs) with ⟨same, -⟩ | ⟨written, writes, committed⟩
    · exact same.trans ih
    · rw [ih] at writes committed
      have through := commit_isSome_iff aes writes
      rw [committed] at through
      exact absurd (through.mp rfl) refused

/-- Repeated runs come to the end exactly if all rows are renewed already, or those that no run scans
are and the others can be stored. -/
theorem converges_iff (aes : AesGcm rules keys) (integers : IntegerIds before)
    (readable : Readable rules keys before) :
    Converges rules keys me limit before ↔
      (∀ row ∈ before.rows, Renewed rules keys row) ∨
        (∀ row ∈ laterRows before limit, Renewed rules keys row) ∧
          ∀ row ∈ firstRows before limit, Stores rules keys before row := by
  constructor
  · intro converges
    obtain ⟨states, start, repeats⟩ := exists_runs rules keys me limit integers
    obtain ⟨runs, renewed⟩ := converges states start repeats
    subst start
    by_cases stores : ∀ row ∈ firstRows (states 0) limit, Stores rules keys (states 0) row
    · refine .inr ⟨fun row later => ?_, stores⟩
      exact renewed row (mem_rows_iff.mpr (.inr (later_row_stays repeats later runs)))
    · rw [states_stay aes repeats stores runs] at renewed
      exact .inl renewed
  · intro condition states start repeats
    rcases condition with renewed | ⟨renewed, stores⟩
    · refine ⟨0, ?_⟩
      rwa [start]
    · have first := repeats 0
      rw [start] at first
      obtain ⟨written, writes, committed⟩ := run_commits aes readable stores first
      exact ⟨1, renewed_of_commit aes writes committed renewed⟩

end Runs

/-! ## A run with nothing to do -/

section Reports

variable {rules : AesRules} {keys : Keys} {me : SessionId} {α : Type} {may : Choice → Prop} {dryRun : Bool}
  {limit : Option Int} {state : Subscriptions} {world : World}

/-- A statement is always answered. -/
theorem ensures_end (program : Script α) :
    program.Ensures (machine.alone me may) (fun _ _ => True) (fun _ _ => True) world := by
  induction program generalizing world with
  | ret value => exact trivial
  | raise reason => exact trivial
  | exec stmt next ih => exact ⟨fun _ _ => rfl, fun reply _ _ => ih reply⟩

theorem rekeyRows_updated (rows : List PushSubscription) (scanned updated : Nat) :
    (rekeyRows rules keys dryRun rows scanned updated).Ensures (machine.alone me may)
      (fun counts _ => updated ≤ counts.2) (fun _ _ => True) world := by
  induction rows generalizing scanned updated world with
  | nil => exact Nat.le_refl updated
  | cons row rest ih =>
    rw [rekeyRows, Program.bind_eq, Program.ensures_bind]
    refine (ensures_end _).weaken (fun needUpdate world' _ => ?_) fun _ _ _ => trivial
    refine (ih (scanned + 1) _).weaken (fun counts _ more => ?_) fun _ _ _ => trivial
    cases needUpdate
    · exact more
    · exact Nat.le_of_succ_le more

/-- The table of one row. -/
def single {row : PushSubscription} (stored : row ∈ state.rows) : Subscriptions where
  rows := [row]
  valid :=
    { ids := List.nodup_singleton _
      endpoints := List.nodup_singleton _
      hashes := List.nodup_singleton _
      lengths := fun _ only => state.valid.lengths _ (by rwa [List.mem_singleton.mp only]) }

/-- With some nonces the first row that is scanned counts as updated. -/
theorem exists_report (rules : AesRules) (keys : Keys) (me : SessionId) (dryRun : Bool) (limit : Option Int)
    (state : Subscriptions) : ∃ choice : Choice, choice.fails = none ∧
      (rekeyOnce rules keys dryRun limit).Ensures (machine.alone me (· = choice))
        (fun counts _ => state.scan limit = some [] ∨ 0 < counts.2) (fun _ _ => True)
        { subs := state, dirty := [] } := by
  obtain ⟨nonce, fresh⟩ : ∃ nonce, ∀ row rest, state.scan limit = some (row :: rest) →
      ∃ stored : row ∈ state.rows, Fresh (single stored) nonce := by
    cases scanned : state.scan limit with
    | none => exact ⟨numbered 0, nofun⟩
    | some rows =>
      cases rows with
      | nil => exact ⟨numbered 0, nofun⟩
      | cons row rest =>
        have stored := (scan_cases scanned).1 row List.mem_cons_self
        have few : (single stored).rows.length < 2 ^ 32 - 1 := by simp [single]
        obtain ⟨nonce, fresh⟩ := exists_fresh few
        refine ⟨nonce, fun row' rest' same => ?_⟩
        cases same
        exact ⟨stored, fresh⟩
  refine ⟨{ fails := none, nonce }, rfl, ?_⟩
  unfold rekeyOnce
  refine ensures_ask (fun _ _ _ _ => trivial) (fun _ _ _ _ => trivial) ?_
  intro choice rows world' _ done
  simp only [answer] at done
  split at done
  · next scanned =>
    cases done
    cases rows with
    | nil => exact (ensures_end _).weaken (fun _ _ _ => .inl scanned) fun _ _ _ => trivial
    | cons row rest =>
      obtain ⟨stored, fresh⟩ := fresh row rest scanned
      have drawn : ∀ choice : Choice, choice = { fails := none, nonce } → Fresh (single stored) choice.nonce := by
        rintro choice rfl
        exact fresh
      rw [Program.bind_eq, Program.ensures_bind, rekeyRows, Program.bind_eq, Program.ensures_bind]
      refine (rekeyRow_ensures drawn dryRun List.mem_cons_self).weaken ?_ fun _ _ _ => trivial
      rintro _ world ⟨rfl, -, -⟩
      refine (rekeyRows_updated rest 1 1).weaken (fun counts world' more => ?_) fun _ _ _ => trivial
      obtain ⟨scanned, updated⟩ := counts
      by_cases commits : dryRun = false ∧ updated ≠ 0
      · simp only [if_pos commits]
        exact ensures_ask (fun _ _ _ _ => trivial) (fun _ _ _ _ => trivial) fun _ _ _ _ _ => Or.inr more
      · simp only [if_neg commits]
        exact Or.inr more
  · cases done

theorem scan_eq_nil_iff : state.scan limit = some [] ↔
    limit = some 0 ∨ state.rows = [] ∧ ∀ bound, limit = some bound → 0 ≤ bound := by
  have sorts : (state.rows.insertionSort fun first second => first.id ≤ second.id) = [] ↔ state.rows = [] := by
    rw [← List.length_eq_zero_iff, List.length_insertionSort, List.length_eq_zero_iff]
  cases limit with
  | none => simp [Subscriptions.scan, sorts]
  | some bound =>
    by_cases negative : bound < 0
    · have nonzero : bound ≠ 0 := by omega
      simp [Subscriptions.scan, negative, nonzero]
    · have zero : bound.toNat = 0 ↔ bound = 0 := by omega
      simp [Subscriptions.scan, negative, sorts, zero, not_lt.mp negative]

theorem idle_iff : Idle rules keys me dryRun limit state ↔
    limit = some 0 ∨ state.rows = [] ∧ ∀ bound, limit = some bound → 0 ≤ bound := by
  rw [← scan_eq_nil_iff]
  constructor
  · intro idle
    obtain ⟨choice, answered, ensures⟩ := exists_report rules keys me dryRun limit state
    obtain ⟨out, world, done, result⟩ := Machine.eval_of_ensures ensures fun _ => rfl
    obtain ⟨scanned, done'⟩ := idle (fun _ => choice) fun _ => answered
    rw [done'] at done
    cases done
    exact result.resolve_right (by simp)
  · intro scanned choices undisturbed
    let start : World := { subs := state, dirty := [] }
    have ensures : (rekeyOnce rules keys dryRun limit).Ensures
      (machine.alone me fun choice => choice.fails = none)
        (fun counts after => counts = (0, 0) ∧ after = start) (fun _ _ => False) start := by
      unfold rekeyOnce
      refine ensures_ask (fun choice reason allowed fails => ?_) (fun choice reason world' done => ?_) ?_
      · rw [allowed] at fails
        cases fails
      · simp only [answer, start, scanned] at done
        cases done
      · intro choice rows world' _ done
        simp only [answer, start, scanned] at done
        cases done
        cases dryRun
        · exact And.intro rfl rfl
        · exact And.intro rfl rfl
    obtain ⟨out, after, done, result⟩ := Machine.eval_of_ensures ensures undisturbed
    cases out with
    | error reason => exact result.elim
    | ok counts =>
      obtain ⟨rfl, rfl⟩ := result
      exact ⟨0, done⟩

end Reports

/-- Repeated runs bring all rows under the new key exactly when the rows after the limit are under it and the rows
before it can be stored, or when there was nothing to do. A further run reports no row and changes nothing
exactly when it scans no row, whatever key the rows are under. -/
theorem rekey_converges_iff {rules : AesRules} {keys : Keys} (aes : AesGcm rules keys) (me : SessionId) :
    (∀ (before : Subscriptions) (limit : Nat), IntegerIds before → Readable rules keys before →
      (Converges rules keys me limit before ↔
        (∀ row ∈ before.rows, Renewed rules keys row) ∨
          (∀ row ∈ laterRows before limit, Renewed rules keys row) ∧
            ∀ row ∈ firstRows before limit, Stores rules keys before row)) ∧
    ∀ (state : Subscriptions) (dryRun : Bool) (limit : Option Int),
      Idle rules keys me dryRun limit state ↔
        limit = some 0 ∨ state.rows = [] ∧ ∀ bound, limit = some bound → 0 ≤ bound :=
  ⟨fun _ _ integers readable => converges_iff aes integers readable, fun _ _ _ => idle_iff⟩

/-! ## Two tables -/

theorem keyFirst_aesGcm : AesGcm keyFirst twoKeys where
  toAuthenticates := keyFirst_authenticates
  tag nonce data := by
    have sixteen : twoKeys.new.length = 16 := rfl
    rw [keyFirst, List.length_append, sixteen, Nat.add_comm]
  sizes nonce data failed := by
    unfold keyFirst at failed
    dsimp only at failed
    split at failed
    · cases failed
    · cases failed

theorem mixed_readable : Readable keyFirst twoKeys mixed := by
  have guessed : ∀ row ∈ mixed.rows, ∀ column ∈ columns row,
      (decGuess keyFirst twoKeys column).toOption.isSome = true := by decide +kernel
  intro row stored column listed
  have read := guessed row stored column listed
  cases plain : decGuess keyFirst twoKeys column with
  | ok text => exact ⟨text, Plaintext.of_guess plain⟩
  | error reason =>
    rw [plain] at read
    cases read

theorem mixed_integers : IntegerIds mixed := by
  unfold IntegerIds
  decide +kernel

/-- Without a row after the limit the mixed table converges. -/
theorem rekey_converges_mixed : Converges keyFirst twoKeys 0 3 mixed :=
  ((rekey_converges_iff keyFirst_aesGcm 0).1 mixed 3 mixed_integers mixed_readable).mpr
    (.inr ⟨by simp [show laterRows mixed 3 = [] by decide +kernel], by decide +kernel⟩)

/-- A row under the new key, with the hash of its endpoint. -/
def renewedTable : Subscriptions where
  rows :=
    [{ id := 1, memberId := none, endpoint := sealedUnder twoKeys.new "a", endpointHash := "a",
       p256dh := sealedUnder twoKeys.new "k", auth := sealedUnder twoKeys.new "s", ua := none }]
  valid := by decide +kernel

/-- With the limit 1 the row with the id 3 stays under the old key, and a row under the new key is reported
as one to be updated. -/
theorem rekey_repeats :
    (Readable keyFirst twoKeys mixed ∧ ¬Converges keyFirst twoKeys 0 1 mixed) ∧
    (∀ row ∈ renewedTable.rows, Renewed keyFirst twoKeys row ∧
      row.endpointHash = keyFirst.hashEndpoint (opened keyFirst twoKeys row.endpoint)) ∧
    (machine.eval 0 (rekeyOnce keyFirst twoKeys true none) quiet
      { subs := renewedTable, dirty := [] }).map (·.1) =
      some (.ok (1, 1)) := by
  have stuck : ¬Converges keyFirst twoKeys 0 1 mixed := by
    intro converges
    have later : mixedRows[0] ∈ laterRows mixed 1 := by decide +kernel
    have unread : (decWith keyFirst twoKeys.new mixedRows[0].endpoint).toOption = none := by decide +kernel
    have old : ¬Renewed keyFirst twoKeys mixedRows[0] := by
      intro renewed
      obtain ⟨-, plain, read⟩ := renewed mixedRows[0].endpoint (by simp [columns])
      rw [read] at unread
      cases unread
    rcases (converges_iff keyFirst_aesGcm mixed_integers mixed_readable).mp converges with all | ⟨renewed, -⟩
    · exact old (all _ (mem_rows_iff.mpr (.inr later)))
    · exact old (renewed _ later)
  refine ⟨⟨mixed_readable, stuck⟩, fun row stored => ?_, by decide +kernel⟩
  cases List.mem_singleton.mp stored
  refine ⟨fun column listed => ?_, by decide +kernel⟩
  have sealed : ∃ text, column = sealWith keyFirst twoKeys.new (filled 7) text := by
    simp only [columns, List.mem_cons, List.not_mem_nil, or_false] at listed
    rcases listed with rfl | rfl | rfl
    · exact ⟨"a", rfl⟩
    · exact ⟨"k", rfl⟩
    · exact ⟨"s", rfl⟩
  obtain ⟨text, rfl⟩ := sealed
  exact ⟨isEncrypted_sealWith _ _ _ _, text, decWith_sealWith keyFirst_authenticates⟩

end SogeconApp.Guarantees.RekeyConvergence
