import SogeconApp.Source.Rekey

/-!
# Replacing the key

The script reads a row under the old or the new key, seals its three columns again, and writes all
rows in the one transaction at its end. So it changes nothing before the last row was read, and what it
writes opens under the new key to what was there before.
-/

namespace SogeconApp.Guarantees.Rekey

open Library Base64 Source.PushCrypto Source.Rekey

/-- AES-GCM opens what it has sealed, and rejects it under the other key. -/
structure Authenticates (rules : AesRules) (keys : Keys) : Prop where
  opens : ∀ (nonce : Nonce) (data : Bytes),
    rules.decrypt keys.new nonce.val (rules.encrypt keys.new nonce.val data) = .ok data
  rejects : ∀ nonce data opened other, rules.decrypt keys.old nonce data = .ok opened →
    rules.decrypt keys.new nonce data = .ok other → keys.old = keys.new

/-- The text can be read under one of the keys, and says this. -/
def Plaintext (rules : AesRules) (keys : Keys) (text plain : String) : Prop :=
  decWith rules keys.old text = .ok plain ∨ decWith rules keys.new text = .ok plain

/-- No endpoint was sealed with the nonce. -/
def Fresh (subs : Subscriptions) (nonce : Nonce) : Prop :=
  ∀ row ∈ subs.rows, isEncrypted row.endpoint = true →
    ∀ data ∈ Base64.decode false (row.endpoint.toList.drop encPrefix.length), data.take 12 ≠ nonce.val

instance (subs : Subscriptions) (nonce : Nonce) : Decidable (Fresh subs nonce) :=
  inferInstanceAs (Decidable (∀ _ ∈ _, _ = true → ∀ _ ∈ _, _ ≠ _))

section Texts

variable {rules : AesRules} {keys : Keys} {text plain other : String} {nonce : Nonce}

theorem isEncrypted_sealWith (rules : AesRules) (key : Bytes) (nonce : Nonce) (plain : String) :
    isEncrypted (sealWith rules key nonce plain) = true := by
  rw [isEncrypted, sealWith, String.toList_ofList]
  exact List.isPrefixOf_iff_prefix.mpr (List.prefix_append ..)

theorem decode_sealWith (rules : AesRules) (key : Bytes) (nonce : Nonce) (plain : String) :
    Base64.decode false ((sealWith rules key nonce plain).toList.drop encPrefix.length) =
      some (nonce.val ++ rules.encrypt key nonce.val (encodeUtf8 plain)) := by
  rw [sealWith, String.toList_ofList, List.drop_left, Base64.decode_encode]

theorem take_nonce (nonce : Nonce) (data : Bytes) : (nonce.val ++ data).take 12 = nonce.val :=
  List.take_left' nonce.property

theorem drop_nonce (nonce : Nonce) (data : Bytes) : (nonce.val ++ data).drop 12 = data :=
  List.drop_left' nonce.property

/-- What is sealed under the new key is read under it. -/
theorem decWith_sealWith (authentic : Authenticates rules keys) :
    decWith rules keys.new (sealWith rules keys.new nonce plain) = .ok plain := by
  rw [decWith, if_neg (by simp [isEncrypted_sealWith]), decode_sealWith]
  simp only [take_nonce, drop_nonce, authentic.opens]
  simp only [bind, Except.bind, decodeUtf8_encodeUtf8]

/-- A text with the marker that is read under a key is opened by it. -/
theorem decWith_ok {key : Bytes} (marked : isEncrypted text = true) (read : decWith rules key text = .ok plain) :
    ∃ data opened, Base64.decode false (text.toList.drop encPrefix.length) = some data ∧
      rules.decrypt key (data.take 12) (data.drop 12) = .ok opened := by
  rw [decWith, if_neg (by simp [marked])] at read
  split at read
  · cases read
  · next data decoded =>
    cases opened : rules.decrypt key (data.take 12) (data.drop 12) with
    | error reason =>
      rw [opened] at read
      cases read
    | ok bytes => exact ⟨data, bytes, decoded, opened⟩

/-- A text that both keys open is read the same under both. -/
theorem decWith_agree (authentic : Authenticates rules keys) (old : decWith rules keys.old text = .ok plain)
    (new : decWith rules keys.new text = .ok other) : plain = other := by
  cases marked : isEncrypted text with
  | false =>
    rw [decWith, if_pos (by simp [marked])] at old new
    exact Except.ok.inj (old.symm.trans new)
  | true =>
    obtain ⟨data, opened, decoded, unsealed⟩ := decWith_ok marked old
    obtain ⟨data', opened', decoded', unsealed'⟩ := decWith_ok marked new
    cases Option.some.inj (decoded.symm.trans decoded')
    rw [authentic.rejects _ _ _ _ unsealed unsealed'] at old
    exact Except.ok.inj (old.symm.trans new)

/-- A text says one thing only, whichever of the keys it is read under. -/
theorem Plaintext.unique (authentic : Authenticates rules keys) (read : Plaintext rules keys text plain)
    (read' : Plaintext rules keys text other) : other = plain := by
  rcases read with old | new <;> rcases read' with old' | new'
  · exact Except.ok.inj (old'.symm.trans old)
  · exact (decWith_agree authentic old new').symm
  · exact decWith_agree authentic old' new
  · exact Except.ok.inj (new'.symm.trans new)

/-- What the script reads is what the text says under one of the keys. -/
theorem Plaintext.of_guess (guessed : decGuess rules keys text = .ok plain) :
    Plaintext rules keys text plain := by
  unfold decGuess at guessed
  split at guessed
  · next unmarked =>
    refine .inl ?_
    cases guessed
    rw [decWith, if_pos unmarked]
  · split at guessed
    · next read =>
      cases guessed
      exact .inl read
    · cases guessed
    · split at guessed
      · next read =>
        cases guessed
        exact .inr read
      · cases guessed
      · cases guessed

/-- An endpoint is never sealed again as it was. -/
theorem sealWith_ne {subs : Subscriptions} (fresh : Fresh subs nonce) {row : PushSubscription}
    (member : row ∈ subs.rows) (key : Bytes) : row.endpoint ≠ sealWith rules key nonce plain := by
  intro same
  have marked := isEncrypted_sealWith rules key nonce plain
  rw [← same] at marked
  have decoded := decode_sealWith rules key nonce plain
  rw [← same] at decoded
  exact fresh row member marked _ decoded (take_nonce nonce _)

end Texts

/-! ## The rows -/

/-- A text that was sealed again: it is read under the new key as it could be read before. -/
def Resealed (rules : AesRules) (keys : Keys) (text text' : String) : Prop :=
  ∃ plain nonce, decGuess rules keys text = .ok plain ∧ text' = sealWith rules keys.new nonce plain

/-- What the script makes of a row. -/
structure Rekeyed (rules : AesRules) (keys : Keys) (row row' : PushSubscription) : Prop where
  endpoint : Resealed rules keys row.endpoint row'.endpoint
  p256dh : Resealed rules keys row.p256dh row'.p256dh
  auth : Resealed rules keys row.auth row'.auth
  hash : ∀ plain, decGuess rules keys row.endpoint = .ok plain → row'.endpointHash = rules.hashEndpoint plain
  others : row'.id = row.id ∧ row'.memberId = row.memberId ∧ row'.ua = row.ua

section Run

variable {rules : AesRules} {keys : Keys} {before : Subscriptions} {me : SessionId} {α : Type}
  {may : Choice → Prop} {Q : α → World → Prop} {E : Failure → World → Prop} {world : World}

/-- How a run ends with an error: nothing is written, and unless it was interrupted there is a problem. -/
def Stopped (may : Choice → Prop) (problem : Prop) (before : Subscriptions) (world : World) : Prop :=
  world.subs = before ∧ ((∀ choice, may choice → choice.fails = none) → problem)

theorem Stopped.interrupted {problem : Prop} {choice : Choice} {reason : Failure} (allowed : may choice)
    (fails : choice.fails = some reason) : Stopped may problem world.subs world := by
  refine ⟨rfl, fun undisturbed => ?_⟩
  rw [undisturbed choice allowed] at fails
  cases fails

theorem Stopped.weaken {problem problem' : Prop} {after : World} (stopped : Stopped may problem world.subs after)
    (same : world.subs = before) (explains : problem → problem') : Stopped may problem' before after :=
  ⟨stopped.1.trans same, fun undisturbed => explains (stopped.2 undisturbed)⟩

/-- One statement, and then the rest. -/
theorem ensures_ask {stmt : Stmt} {next : Reply stmt → Script α}
    (interrupted : ∀ choice reason, may choice → choice.fails = some reason → E reason world)
    (lost : ∀ choice reason world', answer stmt choice world = (.error reason, world') → E reason world')
    (answered : ∀ choice value world', may choice →
      answer stmt choice world = (.ok value, world') → (next value).Ensures (machine.alone me may) Q E world') :
    (ask stmt >>= next).Ensures (machine.alone me may) Q E world := by
  rw [Program.bind_eq, Program.ensures_bind]
  refine (Program.ensures_issue world).mpr ⟨fun _ _ => rfl, ?_, ?_⟩
  · rintro value world' ⟨choice, allowed, done⟩
    have done := Option.some.inj done
    unfold Source.Rekey.exec at done
    split at done
    · cases done
    · exact answered choice value world' allowed done
  · rintro reason world' ⟨choice, allowed, done⟩
    have done := Option.some.inj done
    unfold Source.Rekey.exec at done
    split at done
    · next fails =>
      cases done
      exact interrupted choice reason allowed fails
    · exact lost choice reason world' done

theorem ensures_ended {value : Except Failure String} {next : String → Script α}
    (failed : ∀ reason, value = .error reason → E reason world)
    (read : ∀ text, value = .ok text → (next text).Ensures (machine.alone me may) Q E world) :
    (Program.ended value >>= next).Ensures (machine.alone me may) Q E world := by
  cases value with
  | ok text => exact read text rfl
  | error reason => exact failed reason rfl

/-- To seal a text draws a nonce, and may be interrupted there. -/
theorem ensures_encWith {plain : String} {next : String → Script α}
    (interrupted : ∀ choice reason, may choice → choice.fails = some reason → E reason world)
    (drawn : ∀ choice, may choice →
      (next (sealWith rules keys.new choice.nonce plain)).Ensures (machine.alone me may) Q E world) :
    (encWith rules keys.new plain >>= next).Ensures (machine.alone me may) Q E world := by
  rw [Program.bind_eq, Program.ensures_bind]
  refine ensures_ask interrupted (fun _ _ _ done => by cases done) fun choice nonce world' allowed done => ?_
  cases done
  exact drawn choice allowed

/-- The three sealed columns. -/
def columns (row : PushSubscription) : List String := [row.endpoint, row.p256dh, row.auth]

def Unreadable (rules : AesRules) (keys : Keys) (row : PushSubscription) : Prop :=
  ∃ column ∈ columns row, ∀ plain, decGuess rules keys column ≠ .ok plain

theorem unreadable_of_error {row : PushSubscription} {column : String} {reason : Failure}
    (listed : column ∈ columns row) (failed : decGuess rules keys column = .error reason) :
    Unreadable rules keys row := by
  refine ⟨column, listed, fun plain read => ?_⟩
  rw [failed] at read
  cases read

/-- The endpoint is none that is stored. -/
def Anew (before : Subscriptions) (row' : PushSubscription) : Prop :=
  ∀ other ∈ before.rows, other.endpoint ≠ row'.endpoint

/-- What a scanned row leaves: nothing in a dry run, and otherwise the row to be written. -/
structure Read (rules : AesRules) (keys : Keys) (dryRun : Bool) (row : PushSubscription) (world after : World) :
    Prop where
  subs : after.subs = world.subs
  readable : ∀ column ∈ columns row, ∃ plain, decGuess rules keys column = .ok plain
  written : dryRun = false → ∃ row', after.dirty = world.dirty ++ [row'] ∧ Rekeyed rules keys row row'

/-- Every row counts as one that needs an update: the endpoint sealed with a fresh nonce is never the
stored one. -/
theorem rekeyRow_ensures (fresh : ∀ choice, may choice → Fresh before choice.nonce) (dryRun : Bool)
    {row : PushSubscription} (member : row ∈ before.rows) :
    (rekeyRow rules keys dryRun row).Ensures (machine.alone me may)
      (fun needUpdate after => needUpdate = true ∧ Read rules keys dryRun row world after ∧
        ∀ row' ∈ after.dirty, row' ∈ world.dirty ∨ Anew before row')
      (fun _ after => Stopped may (Unreadable rules keys row) world.subs after) world := by
  unfold rekeyRow
  refine ensures_ended (fun _ failed => ⟨rfl, fun _ => ?_⟩) fun epPt ep => ?_
  · exact unreadable_of_error (by simp [columns]) failed
  refine ensures_ended (fun _ failed => ⟨rfl, fun _ => ?_⟩) fun kPt k => ?_
  · exact unreadable_of_error (by simp [columns]) failed
  refine ensures_ended (fun _ failed => ⟨rfl, fun _ => ?_⟩) fun aPt a => ?_
  · exact unreadable_of_error (by simp [columns]) failed
  refine ensures_encWith (fun _ _ => Stopped.interrupted) fun epDraw epAllowed => ?_
  refine ensures_encWith (fun _ _ => Stopped.interrupted) fun kDraw _ => ?_
  refine ensures_encWith (fun _ _ => Stopped.interrupted) fun aDraw _ => ?_
  have anew (other : PushSubscription) (stored : other ∈ before.rows) :
      other.endpoint ≠ sealWith rules keys.new epDraw.nonce epPt :=
    sealWith_ne (fresh epDraw epAllowed) stored keys.new
  have readable : ∀ column ∈ columns row, ∃ plain, decGuess rules keys column = .ok plain := by
    intro column listed
    simp only [columns, List.mem_cons, List.not_mem_nil, or_false] at listed
    rcases listed with rfl | rfl | rfl
    · exact ⟨epPt, ep⟩
    · exact ⟨kPt, k⟩
    · exact ⟨aPt, a⟩
  simp only [anew row member, ne_eq, not_false_eq_true, true_or, decide_true, true_and]
  cases dryRun with
  | true => exact ⟨rfl, ⟨rfl, readable, by simp⟩, fun _ => .inl⟩
  | false =>
    refine ensures_ask (fun _ _ => Stopped.interrupted) (fun _ _ _ done => by cases done) ?_
    intro choice value world' _ done
    cases done
    refine ⟨rfl, ⟨rfl, readable, fun _ => ⟨_, rfl, ?_⟩⟩, fun row' listed => ?_⟩
    · exact
        { endpoint := ⟨epPt, epDraw.nonce, ep, rfl⟩
          p256dh := ⟨kPt, kDraw.nonce, k, rfl⟩
          auth := ⟨aPt, aDraw.nonce, a, rfl⟩
          hash := fun plain read => congrArg rules.hashEndpoint (Except.ok.inj (ep.symm.trans read))
          others := ⟨rfl, rfl, rfl⟩ }
    · rcases List.mem_append.mp listed with earlier | last
      · exact .inl earlier
      · rw [List.mem_singleton.mp last]
        exact .inr anew

/-- What the loop leaves. -/
structure ReadAll (rules : AesRules) (keys : Keys) (dryRun : Bool) (rows : List PushSubscription)
    (world after : World) : Prop where
  subs : after.subs = world.subs
  readable : ∀ row ∈ rows, ∀ column ∈ columns row, ∃ plain, decGuess rules keys column = .ok plain
  written : dryRun = false → ∃ written, after.dirty = world.dirty ++ written ∧
    List.Forall₂ (Rekeyed rules keys) rows written

/-- A row and the rest of the rows are read as all of them. -/
theorem Read.cons {dryRun : Bool} {row : PushSubscription} {rest : List PushSubscription} {middle after : World}
    (first : Read rules keys dryRun row world middle) (others : ReadAll rules keys dryRun rest middle after) :
    ReadAll rules keys dryRun (row :: rest) world after where
  subs := others.subs.trans first.subs
  readable other member := by
    rcases List.mem_cons.mp member with rfl | later
    · exact first.readable
    · exact others.readable other later
  written wet := by
    obtain ⟨row', here, rekeyed⟩ := first.written wet
    obtain ⟨written, there, rest⟩ := others.written wet
    refine ⟨row' :: written, ?_, .cons rekeyed rest⟩
    rw [there, here, List.append_assoc, List.singleton_append]

/-- The loop reads all rows or stops at the first one that is unreadable, and writes none of them yet.
-/
theorem rekeyRows_ensures (fresh : ∀ choice, may choice → Fresh before choice.nonce) (dryRun : Bool)
    {rows : List PushSubscription} (among : ∀ row ∈ rows, row ∈ before.rows) (scanned updated : Nat) :
    (rekeyRows rules keys dryRun rows scanned updated).Ensures (machine.alone me may)
      (fun counts after => counts = (scanned + rows.length, updated + rows.length) ∧
        ReadAll rules keys dryRun rows world after ∧ ∀ row' ∈ after.dirty, row' ∈ world.dirty ∨ Anew before row')
      (fun _ after => Stopped may (∃ row ∈ rows, Unreadable rules keys row) world.subs after) world := by
  induction rows generalizing scanned updated world with
  | nil => exact ⟨rfl, ⟨rfl, nofun, fun _ => ⟨[], (List.append_nil _).symm, .nil⟩⟩, fun _ => .inl⟩
  | cons row rest ih =>
    rw [rekeyRows, Program.bind_eq, Program.ensures_bind]
    refine (rekeyRow_ensures fresh dryRun (among row List.mem_cons_self)).weaken ?_ ?_
    · rintro _ middle ⟨rfl, read, anew⟩
      refine (ih (fun other later => among other (List.mem_cons_of_mem _ later)) _ _).weaken ?_ ?_
      · rintro counts after ⟨rfl, others, anew'⟩
        refine ⟨?_, read.cons others, fun row' listed => ?_⟩
        · simp only [if_true, List.length_cons]
          congr 1 <;> omega
        · rcases anew' row' listed with earlier | new
          · exact anew row' earlier
          · exact .inr new
      · intro reason after stopped
        refine stopped.weaken read.subs ?_
        rintro ⟨other, later, unreadable⟩
        exact ⟨other, List.mem_cons_of_mem _ later, unreadable⟩
    · intro reason after stopped
      exact stopped.weaken rfl fun unreadable => ⟨row, List.mem_cons_self, unreadable⟩

end Run

/-! ## The commit -/

section Commit

variable {rules : AesRules} {keys : Keys} {subs after : Subscriptions} {limit : Option Int}
  {rows written : List PushSubscription}

/-- The row, as it was written if it was. -/
def overlay (written : List PushSubscription) (row : PushSubscription) : PushSubscription :=
  (written.find? fun other => other.id = row.id).getD row

theorem overlay_none {row : PushSubscription} (left : ∀ other ∈ written, other.id ≠ row.id) :
    overlay written row = row := by
  have absent : written.find? (fun other => other.id = row.id) = none :=
    List.find?_eq_none.mpr fun other member => by simpa using left other member
  rw [overlay, absent]
  rfl

/-- The first row may be written before the others, since none of them has its id. -/
theorem overlay_cons (row first : PushSubscription) (fresh : ∀ other ∈ written, other.id ≠ first.id) :
    overlay (first :: written) row = overlay written (if row.id = first.id then first else row) := by
  by_cases same : row.id = first.id
  · rw [if_pos same, overlay_none fresh, overlay, List.find?_cons_of_pos (by simpa using same.symm)]
    rfl
  · rw [if_neg same, overlay, List.find?_cons_of_neg (by simpa using Ne.symm same)]
    rfl

theorem overlay_of_mem (distinct : (written.map (·.id)).Nodup) {row row' : PushSubscription}
    (member : row' ∈ written) (same : row'.id = row.id) : overlay written row = row' := by
  cases found : written.find? fun other => other.id = row.id with
  | none => exact absurd same (by simpa using List.find?_eq_none.mp found row' member)
  | some other =>
    have listed := List.mem_of_find?_eq_some found
    have id : other.id = row.id := by simpa using List.find?_some found
    rw [overlay, found]
    exact List.inj_on_of_nodup_map distinct listed member (id.trans same.symm)

/-- Rows of different ids that are all written are seen as written, the others as they were. -/
theorem foldlM_update (distinct : (written.map (·.id)).Nodup)
    (done : written.foldlM Subscriptions.update subs = some after) :
    after.rows = subs.rows.map (overlay written) := by
  induction written generalizing subs with
  | nil =>
    cases done
    exact (List.map_id'' (fun _ => rfl) _).symm
  | cons first rest ih =>
    obtain ⟨middle, here, there⟩ := Option.bind_eq_some_iff.mp done
    obtain ⟨fresh, distinct⟩ := List.nodup_cons.mp distinct
    have rows : middle.rows = subs.rows.map fun row => if row.id = first.id then first else row := by
      simp only [Subscriptions.update, Option.dite_none_right_eq_some] at here
      obtain ⟨valid, stored⟩ := here
      cases stored
      rfl
    rw [ih distinct there, rows, List.map_map]
    refine List.map_congr_left fun row _ => (overlay_cons row first fun other member same => fresh ?_).symm
    exact List.mem_map.mpr ⟨other, member, same⟩

theorem scan_cases (scanned : subs.scan limit = some rows) :
    (∀ row ∈ rows, row ∈ subs.rows) ∧ (rows.map (·.id)).Nodup := by
  have sorted := List.perm_insertionSort (fun first second : PushSubscription => first.id ≤ second.id) subs.rows
  have part : rows.Sublist (subs.rows.insertionSort fun first second => first.id ≤ second.id) := by
    unfold Subscriptions.scan at scanned
    split at scanned
    · cases scanned
      exact .refl _
    · split at scanned
      · cases scanned
      · cases scanned
        exact List.take_sublist _ _
  exact ⟨fun row member => sorted.mem_iff.mp (part.subset member),
    (part.map _).nodup ((sorted.map _).nodup_iff.mpr subs.valid.ids)⟩

/-- A scanned row has its written one. -/
theorem Rekeyed.exists_written (all : List.Forall₂ (Rekeyed rules keys) rows written) {row : PushSubscription}
    (member : row ∈ rows) : ∃ row' ∈ written, Rekeyed rules keys row row' := by
  induction all with
  | nil => cases member
  | @cons first first' rest rest' rekeyed _ ih =>
    rcases List.mem_cons.mp member with rfl | later
    · exact ⟨first', List.mem_cons_self, rekeyed⟩
    · obtain ⟨row', listed, rekeyed'⟩ := ih later
      exact ⟨row', List.mem_cons_of_mem _ listed, rekeyed'⟩

theorem Rekeyed.ids (all : List.Forall₂ (Rekeyed rules keys) rows written) :
    written.map (·.id) = rows.map (·.id) := by
  induction all with
  | nil => rfl
  | cons first _ ih => rw [List.map_cons, List.map_cons, ih, first.others.1]

end Commit

/-! ## The run -/

/-- A text says under the new key what it could be read as before, and nothing else. -/
def SamePlaintext (rules : AesRules) (keys : Keys) (text text' : String) : Prop :=
  ∃ plain, Plaintext rules keys text plain ∧ (∀ other, Plaintext rules keys text other → other = plain) ∧
    decWith rules keys.new text' = .ok plain

structure Preserved (rules : AesRules) (keys : Keys) (row row' : PushSubscription) : Prop where
  columns : List.Forall₂ (SamePlaintext rules keys) (columns row) (columns row')
  hash : ∀ plain, Plaintext rules keys row.endpoint plain → row'.endpointHash = rules.hashEndpoint plain
  others : row'.id = row.id ∧ row'.memberId = row.memberId ∧ row'.ua = row.ua

section Outcome

variable {rules : AesRules} {keys : Keys} {row row' : PushSubscription}

/-- A text that was sealed again says under the new key what it said before. -/
theorem Resealed.samePlaintext (authentic : Authenticates rules keys) {text text' : String}
    (resealed : Resealed rules keys text text') : SamePlaintext rules keys text text' := by
  obtain ⟨plain, nonce, guessed, rfl⟩ := resealed
  have read := Plaintext.of_guess guessed
  exact ⟨plain, read, fun other reads => read.unique authentic reads, decWith_sealWith authentic⟩

theorem Rekeyed.preserved (authentic : Authenticates rules keys) (rekeyed : Rekeyed rules keys row row') :
    Preserved rules keys row row' where
  columns := .cons (rekeyed.endpoint.samePlaintext authentic) <|
    .cons (rekeyed.p256dh.samePlaintext authentic) <| .cons (rekeyed.auth.samePlaintext authentic) .nil
  hash plain read := by
    obtain ⟨guess, nonce, guessed, -⟩ := rekeyed.endpoint
    rw [(Plaintext.of_guess guessed).unique authentic read]
    exact rekeyed.hash guess guessed
  others := rekeyed.others

/-- What a run that returns leaves. -/
structure Completed (rules : AesRules) (keys : Keys) (dryRun : Bool) (limit : Option Int)
    (before after : Subscriptions) : Prop where
  scanned : ∃ rows, before.scan limit = some rows ∧
    (∀ row ∈ rows, ∀ column ∈ columns row, ∃ plain, decGuess rules keys column = .ok plain) ∧
      (dryRun = false → ∃ written, List.Forall₂ (Rekeyed rules keys) rows written ∧
        after.rows = before.rows.map (overlay written))
  dry : dryRun = true → after = before

/-- What a run makes of the rows that it scans. -/
structure Writes (rules : AesRules) (keys : Keys) (before : Subscriptions) (limit : Option Int)
    (rows written : List PushSubscription) : Prop where
  scanned : before.scan limit = some rows
  rekeyed : List.Forall₂ (Rekeyed rules keys) rows written
  anew : ∀ row' ∈ written, Anew before row'

/-- Why a run ends with an error, if nothing interrupts it. -/
def Problem (rules : AesRules) (keys : Keys) (before : Subscriptions) (limit : Option Int) : Prop :=
  before.scan limit = none ∨ (∃ rows, before.scan limit = some rows ∧ ∃ row ∈ rows, Unreadable rules keys row) ∨
    ∃ rows written, Writes rules keys before limit rows written ∧
      written.foldlM Subscriptions.update before = none

/-- A run writes all rows that it has scanned, or nothing and says why. -/
theorem rekeyOnce_ensures {before : Subscriptions} {me : SessionId} {may : Choice → Prop}
    (fresh : ∀ choice, may choice → Fresh before choice.nonce) (dryRun : Bool) (limit : Option Int) :
    (rekeyOnce rules keys dryRun limit).Ensures (machine.alone me may)
      (fun _ after => Completed rules keys dryRun limit before after.subs ∧
        (dryRun = false → ∃ rows written, Writes rules keys before limit rows written ∧
          written.foldlM Subscriptions.update before = some after.subs))
      (fun _ after => Stopped may (Problem rules keys before limit) before after)
      { subs := before, dirty := [] } := by
  unfold rekeyOnce
  refine ensures_ask (fun _ _ => Stopped.interrupted) ?_ ?_
  · intro choice reason world' done
    simp only [answer] at done
    split at done
    · cases done
    · next scanned =>
      cases done
      exact ⟨rfl, fun _ => .inl scanned⟩
  · intro choice rows world' _ done
    simp only [answer] at done
    split at done
    · next scanned =>
      cases done
      obtain ⟨among, distinct⟩ := scan_cases scanned
      rw [Program.bind_eq, Program.ensures_bind]
      refine (rekeyRows_ensures fresh dryRun among 0 0).weaken ?_ ?_
      · rintro _ world ⟨rfl, all, anew⟩
        have untouched : world.subs = before := all.subs
        cases dryRun with
        | true => exact ⟨⟨⟨rows, scanned, all.readable, by simp⟩, fun _ => untouched⟩, by simp⟩
        | false =>
          obtain ⟨written, dirty, rekeyed⟩ := all.written rfl
          rw [List.nil_append] at dirty
          have distinct' : (written.map (·.id)).Nodup := Rekeyed.ids rekeyed ▸ distinct
          have writes : Writes rules keys before limit rows written := by
            refine ⟨scanned, rekeyed, fun row' listed => ?_⟩
            rw [← dirty] at listed
            exact (anew row' listed).resolve_left (by simp)
          simp only [Nat.zero_add, ne_eq, true_and]
          split
          · refine ensures_ask (fun choice reason allowed fails => ?_) ?_ ?_
            · exact (Stopped.interrupted allowed fails).weaken untouched id
            · intro choice reason world' done
              simp only [answer] at done
              split at done
              · cases done
              · next refused =>
                cases done
                rw [dirty, untouched] at refused
                exact ⟨untouched, fun _ => .inr (.inr ⟨rows, written, writes, refused⟩)⟩
            · intro choice value world' _ done
              simp only [answer] at done
              split at done
              · next subs committed =>
                cases done
                rw [dirty, untouched] at committed
                have stored := foldlM_update distinct' committed
                exact ⟨⟨⟨rows, scanned, all.readable, fun _ => ⟨written, rekeyed, stored⟩⟩, by simp⟩,
                  fun _ => ⟨rows, written, writes, committed⟩⟩
              · cases done
          · next none_ =>
            have empty : rows = [] := by simpa using none_
            subst empty
            cases rekeyed
            refine ⟨⟨⟨[], scanned, all.readable, fun _ => ⟨[], .nil, ?_⟩⟩, by simp⟩, fun _ =>
              ⟨[], [], writes, ?_⟩⟩
            · rw [untouched]
              exact (List.map_id'' (fun _ => rfl) _).symm
            · exact congrArg some untouched.symm
      · intro reason after stopped
        exact stopped.weaken rfl fun unreadable => .inr (.inl ⟨rows, scanned, unreadable⟩)
    · cases done

/-- What the script promises of the table, however it ends. -/
structure Settled (rules : AesRules) (keys : Keys) (dryRun : Bool) (limit : Option Int)
    (before after : Subscriptions) (out : Except Failure (Nat × Nat)) : Prop where
  unreadable : ∀ rows, before.scan limit = some rows → ∀ row ∈ rows, ∀ column ∈ columns row,
    (∀ plain, ¬Plaintext rules keys column plain) → ∃ reason, out = .error reason
  failed : ∀ reason, out = .error reason → after = before
  dry : dryRun = true → after = before
  completed : ∀ counts, out = .ok counts → dryRun = false →
    ∃ rows, before.scan limit = some rows ∧ ∃ rekeyed : PushSubscription → PushSubscription,
      after.rows = before.rows.map rekeyed ∧ (∀ row ∈ rows, Preserved rules keys row (rekeyed row)) ∧
        ∀ row ∈ before.rows, row ∉ rows → rekeyed row = row

/-- A run that has completed leaves every scanned row with what it said before. -/
theorem Completed.rekeyed (authentic : Authenticates rules keys) {limit : Option Int}
    {before after : Subscriptions}
    (completed : Completed rules keys false limit before after) :
    ∃ rows, before.scan limit = some rows ∧ ∃ rekeyed : PushSubscription → PushSubscription,
      after.rows = before.rows.map rekeyed ∧ (∀ row ∈ rows, Preserved rules keys row (rekeyed row)) ∧
        ∀ row ∈ before.rows, row ∉ rows → rekeyed row = row := by
  obtain ⟨rows, scanned, -, wet⟩ := completed.scanned
  obtain ⟨written, all, stored⟩ := wet rfl
  obtain ⟨among, distinct⟩ := scan_cases scanned
  have ids := Rekeyed.ids all
  refine ⟨rows, scanned, overlay written, stored, fun row member => ?_, fun row member left => ?_⟩
  · obtain ⟨row', listed, rekeyed⟩ := Rekeyed.exists_written all member
    rw [overlay_of_mem (ids ▸ distinct) listed rekeyed.others.1]
    exact rekeyed.preserved authentic
  · refine overlay_none fun other listed same => left ?_
    have shared : row.id ∈ rows.map (·.id) := by
      rw [← ids, ← same]
      exact List.mem_map_of_mem listed
    obtain ⟨row', scanned', id⟩ := List.mem_map.mp shared
    rw [← List.inj_on_of_nodup_map before.valid.ids (among row' scanned') member id]
    exact scanned'

end Outcome

/-- The service reads a text under its key as the script does. -/
theorem decryptStr_eq_decWith {rules : AesRules} {crypto : CryptoRules} {settings : Settings} {key : Bytes}
    (same : ∀ nonce data, crypto.decrypt key nonce data = (rules.decrypt key nonce data).toOption)
    (on : settings.pushEncryptAtRest = true) (kek : decodePushKek crypto settings.pushKek = some key)
    (stored plain : String) :
    decryptStr crypto settings stored = .ok plain ↔ decWith rules key stored = .ok plain := by
  have config : cfg crypto settings = .ok { enabled := true, key := some key } := by simp [cfg, on, kek]
  unfold decryptStr decWith
  by_cases marked : isEncrypted stored = true
  · rw [if_neg (by simpa [isEncrypted] using marked), if_neg (by simpa using marked), config]
    simp only [bind, Except.bind, openBlob]
    cases decoded : Base64.decode false (stored.toList.drop encPrefix.length) with
    | none => simp
    | some data =>
      simp only [Option.bind_some, same]
      cases opened : rules.decrypt key (data.take 12) (data.drop 12) with
      | error reason => simp [Except.toOption]
      | ok bytes =>
        simp only [Except.toOption, Option.bind_some]
        cases decodeUtf8 bytes <;> simp [pure, Except.pure]
  · rw [if_pos (by simpa [isEncrypted] using marked), if_pos (by simpa using marked)]
    simp

/-- The script ends. If a scanned row cannot be read or anything else fails, or in a dry run, nothing
has changed; otherwise every scanned row says under the new key what it said before, with the hash of
its endpoint, and every other row is as it was. -/
theorem rekey_once_atomic {rules : AesRules} {keys : Keys} (authentic : Authenticates rules keys)
    (before : Subscriptions) (me : SessionId) (dryRun : Bool) (limit : Option Int) {choices : Nat → Choice}
    (fresh : ∀ index, Fresh before (choices index).nonce) :
    ∃ out after, machine.eval me (rekeyOnce rules keys dryRun limit) choices { subs := before, dirty := [] } =
        some (out, after) ∧ Settled rules keys dryRun limit before after.subs out := by
  have ensures : (rekeyOnce rules keys dryRun limit).Ensures
      (machine.alone me fun choice => Fresh before choice.nonce) _ _ _ :=
    rekeyOnce_ensures (fun _ => id) dryRun limit
  obtain ⟨out, after, done, result⟩ := Machine.eval_of_ensures ensures fresh
  refine ⟨out, after, done, ?_⟩
  cases out with
  | error reason =>
    exact
      { unreadable := fun _ _ _ _ _ _ _ => ⟨reason, rfl⟩
        failed := fun _ _ => result.1
        dry := fun _ => result.1
        completed := nofun }
  | ok counts =>
    obtain ⟨completed, -⟩ := result
    refine ⟨fun rows scanned row member column listed unread => ?_, nofun, completed.dry, fun _ _ wet => ?_⟩
    · obtain ⟨rows', scanned', readable, -⟩ := completed.scanned
      cases Option.some.inj (scanned.symm.trans scanned')
      obtain ⟨plain, guessed⟩ := readable row member column listed
      exact absurd (Plaintext.of_guess guessed) (unread plain)
    · subst wet
      exact completed.rekeyed authentic

/-- The key stands before what it seals, and a digest is the text. -/
def keyFirst : AesRules where
  encrypt key _ data := key ++ data
  decrypt key _ data := if key <+: data then .ok (data.drop key.length) else .error .invalidTag
  hashEndpoint endpoint := endpoint

def twoKeys : Keys where
  old := List.replicate 16 1
  new := List.replicate 16 2
  oldSized := by decide
  newSized := by decide

theorem keyFirst_authenticates : Authenticates keyFirst twoKeys where
  opens nonce data := by simp [keyFirst]
  rejects nonce data opened other old new := by
    have shared : twoKeys.old <+: data ∧ twoKeys.new <+: data := by
      constructor
      · by_contra apart
        simp [keyFirst, apart] at old
      · by_contra apart
        simp [keyFirst, apart] at new
    exact (List.prefix_of_prefix_length_le shared.1 shared.2 (by decide)).eq_of_length (by decide)

def filled (byte : UInt8) : Nonce := ⟨List.replicate 12 byte, by simp⟩

def sealedUnder (key : Bytes) (text : String) : String := sealWith keyFirst key (filled 7) text

/-- A row in the clear and under both keys, one under the old key with a wrong hash, and one that the
limit leaves out. -/
def mixedRows : List PushSubscription :=
  [{ id := 3, memberId := some 1, endpoint := sealedUnder twoKeys.old "c", endpointHash := "c",
     p256dh := "k", auth := "a", ua := none },
   { id := 1, memberId := none, endpoint := "a", endpointHash := "a", p256dh := sealedUnder twoKeys.old "k",
     auth := sealedUnder twoKeys.new "a", ua := none },
   { id := 2, memberId := some 1, endpoint := sealedUnder twoKeys.old "b", endpointHash := "x",
     p256dh := sealedUnder twoKeys.old "k", auth := sealedUnder twoKeys.old "a", ua := none }]

def mixed : Subscriptions where
  rows := mixedRows
  valid := by decide +kernel

def quiet : Nat → Choice := fun _ => { fails := none, nonce := filled 0 }

theorem rekey_once_atomic_mixed :
    (machine.eval 0 (rekeyOnce keyFirst twoKeys false (some 2)) quiet { subs := mixed, dirty := [] }).map (·.1) =
        some (.ok (2, 2)) ∧
      ∃ out after,
        machine.eval 0 (rekeyOnce keyFirst twoKeys false (some 2)) quiet { subs := mixed, dirty := [] } =
          some (out, after) ∧ Settled keyFirst twoKeys false (some 2) mixed after.subs out :=
  have fresh : Fresh mixed (filled 0) := by decide +kernel
  ⟨by decide +kernel, rekey_once_atomic keyFirst_authenticates mixed 0 false (some 2) fun _ => fresh⟩

end SogeconApp.Guarantees.Rekey
