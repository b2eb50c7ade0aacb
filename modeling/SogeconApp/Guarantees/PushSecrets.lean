import SogeconApp.Source.PushCrypto

/-!
# Secrets of a push subscription

Under encryption a text is stored behind the marker `enc:v1:`, and without it as it is. When it is
read, the marker alone says which of the two was done: a text that carries the marker and was stored
as it is counts as a ciphertext, and is refused or opened as one, never returned as it was.
-/

namespace SogeconApp.Guarantees.PushSecrets

open Library Base64 Source.PushCrypto

/-- What is relied on of AES-GCM: it decrypts what it has encrypted under the same key and nonce, and
its plaintext is no longer than its ciphertext. -/
structure AesGcm (rules : CryptoRules) : Prop where
  opens : ∀ (key : Bytes) (nonce : Nonce) (data : Bytes), key.length ∈ [16, 24, 32] →
    rules.decrypt key nonce.val (rules.encrypt key nonce.val data) = some data
  shrinks : ∀ key nonce data plain, rules.decrypt key nonce data = some plain → plain.length ≤ data.length

/-- The settings a secret is stored and read under: stored without encryption, or with it and read
under the same key. -/
inductive Compatible (rules : CryptoRules) (stored read : Settings) : Prop
  | off (plain : stored.pushEncryptAtRest = false) (valid : (cfg rules read).isOk = true)
  | sameKey {key : Bytes} (on : stored.pushEncryptAtRest = true)
      (kek : decodePushKek rules stored.pushKek = some key) (still : read.pushEncryptAtRest = true)
      (same : decodePushKek rules read.pushKek = some key)

section Secrets

variable {rules : CryptoRules} {settings : Settings} {key : Bytes} {nonce : Nonce} {text : String}

theorem decodePushKek_length {raw : String} (decoded : decodePushKek rules raw = some key) :
    key.length ∈ [16, 24, 32] := by
  obtain ⟨bytes, -, kept⟩ := Option.bind_eq_some_iff.mp decoded
  split at kept
  · next sized =>
    cases kept
    exact sized
  · cases kept

theorem cfg_off (off : settings.pushEncryptAtRest = false) :
    cfg rules settings = .ok { enabled := false, key := none } := by
  simp [cfg, off]

theorem cfg_on (on : settings.pushEncryptAtRest = true)
    (kek : decodePushKek rules settings.pushKek = some key) :
    cfg rules settings = .ok { enabled := true, key := some key } := by
  simp [cfg, on, kek]

theorem encryptStr_off (off : settings.pushEncryptAtRest = false) :
    encryptStr rules settings nonce text = .ok text := by
  rw [encryptStr, cfg_off off]
  rfl

/-- With it the nonce and the ciphertext stand behind the marker, in base64. -/
theorem encryptStr_on (on : settings.pushEncryptAtRest = true)
    (kek : decodePushKek rules settings.pushKek = some key) :
    encryptStr rules settings nonce text = .ok (String.ofList (encPrefix ++
      Base64.encode (nonce.val ++ rules.encrypt key nonce.val (encodeUtf8 text)))) := by
  rw [encryptStr, cfg_on on kek]
  rfl

/-- A text without the marker is read as it is, under any settings. -/
theorem decryptStr_unmarked (unmarked : ¬encPrefix <+: text.toList) :
    decryptStr rules settings text = .ok text := by
  rw [decryptStr, if_pos (by simpa [List.isPrefixOf_iff_prefix] using unmarked)]

/-- A text with the marker is opened as a ciphertext, however it got there. -/
theorem decryptStr_on (on : settings.pushEncryptAtRest = true)
    (kek : decodePushKek rules settings.pushKek = some key) (blob : List Char) :
    decryptStr rules settings (String.ofList (encPrefix ++ blob)) =
      match openBlob rules key blob with
      | some text => .ok text
      | none => .error ⟨"failed to decrypt push subscription field"⟩ := by
  have marked : encPrefix.isPrefixOf (encPrefix ++ blob) = true :=
    List.isPrefixOf_iff_prefix.mpr (List.prefix_append ..)
  rw [decryptStr, String.toList_ofList, marked, cfg_on on kek, List.drop_left]
  rfl

theorem length_encodeUtf8 (text : String) : text.toList.length ≤ (encodeUtf8 text).length := by
  have bytes : (encodeUtf8 text).length = text.toList.utf8Encode.size := by
    rw [String.utf8Encode_toList]
    exact Array.length_toList
  rw [bytes]
  induction text.toList with
  | nil => simp
  | cons char rest ih =>
    have wide := char.utf8Size_pos
    rw [List.utf8Encode_cons, ByteArray.size_append, List.utf8Encode_singleton]
    simp only [List.length_cons, List.size_toByteArray, String.length_utf8EncodeChar]
    omega

theorem encodeUtf8_of_decodeUtf8 {bytes : Bytes} (decoded : decodeUtf8 bytes = some text) :
    encodeUtf8 text = bytes := by
  unfold decodeUtf8 String.fromUTF8? at decoded
  split at decoded
  · cases decoded
    rfl
  · cases decoded

/-- What a blob opens to is no longer than the blob. -/
theorem openBlob_length (gcm : AesGcm rules) {blob : List Char} (opened : openBlob rules key blob = some text) :
    text.toList.length ≤ blob.length := by
  obtain ⟨data, decoded, opened⟩ := Option.bind_eq_some_iff.mp opened
  obtain ⟨plain, unsealed, read⟩ := Option.bind_eq_some_iff.mp opened
  calc text.toList.length
    _ ≤ (encodeUtf8 text).length := length_encodeUtf8 text
    _ = plain.length := by rw [encodeUtf8_of_decodeUtf8 read]
    _ ≤ (data.drop 12).length := gcm.shrinks _ _ _ _ unsealed
    _ ≤ data.length := by simp
    _ ≤ blob.length := Base64.decode_length decoded

/-- A text that carries the marker is never read as it is. -/
theorem decryptStr_marked (gcm : AesGcm rules) (marked : encPrefix <+: text.toList) :
    decryptStr rules settings text ≠ .ok text := by
  intro read
  rcases decryptStr_cases rules settings read with ⟨unmarked, -⟩ | ⟨key, -, opened⟩
  · rw [List.isPrefixOf_iff_prefix.mpr marked] at unmarked
    cases unmarked
  · have short := openBlob_length gcm opened
    have long := marked.length_le
    have some_ : encPrefix.length = 7 := rfl
    rw [List.length_drop] at short
    omega

end Secrets

/-- A secret is read as it was stored exactly when it was encrypted or does not carry the marker. What
was stored plain with the marker in front is taken for a ciphertext. -/
theorem secret_round_trip {rules : CryptoRules} (gcm : AesGcm rules) {stored read : Settings}
    (settings : Compatible rules stored read) (nonce : Nonce) (text : String) :
    (encryptStr rules stored nonce text >>= decryptStr rules read) = .ok text ↔
      stored.pushEncryptAtRest = true ∨ ¬encPrefix <+: text.toList := by
  cases settings with
  | off plain valid =>
    have as_is : (encryptStr rules stored nonce text >>= decryptStr rules read) =
        decryptStr rules read text := by
      rw [encryptStr_off plain]
      rfl
    rw [as_is, plain]
    constructor
    · intro kept
      exact .inr fun marked => decryptStr_marked gcm marked kept
    · rintro (on | unmarked)
      · cases on
      · exact decryptStr_unmarked unmarked
  | @sameKey key on kek still same =>
    refine iff_of_true ?_ (.inl on)
    have opened : openBlob rules key
        (Base64.encode (nonce.val ++ rules.encrypt key nonce.val (encodeUtf8 text))) = some text := by
      rw [openBlob_encode, gcm.opens key nonce _ (decodePushKek_length kek)]
      exact decodeUtf8_encodeUtf8 text
    rw [encryptStr_on on kek]
    simp only [bind, Except.bind]
    rw [decryptStr_on still same, opened]

/-- The key stands before what it seals. -/
def keyFirst : CryptoRules where
  strip text := text
  encrypt key _ data := key ++ data
  decrypt key _ data := if key <+: data then some (data.drop key.length) else none

theorem keyFirst_aesGcm : AesGcm keyFirst where
  opens key nonce data _ := by simp [keyFirst]
  shrinks key nonce data plain opened := by
    simp only [keyFirst, Option.ite_none_right_eq_some, Option.some.injEq] at opened
    rw [← opened.2, List.length_drop]
    omega

def withoutKek : Settings := { pushEncryptAtRest := false, pushKek := "" }
def withKek : Settings := { pushEncryptAtRest := true, pushKek := "MDEyMzQ1Njc4OWFiY2RlZg==" }

def someNonce : Nonce := ⟨List.replicate 12 7, by decide⟩

/-- Under encryption even a text that looks like a stored ciphertext is read as it was. -/
theorem secret_round_trip_sealed :
    (encryptStr keyFirst withKek someNonce "enc:v1:bad" >>= decryptStr keyFirst withKek) =
      .ok "enc:v1:bad" :=
  have kek : decodePushKek keyFirst withKek.pushKek = some (encodeUtf8 "0123456789abcdef") := by
    decide +kernel
  (secret_round_trip keyFirst_aesGcm (.sameKey rfl kek rfl kek) someNonce "enc:v1:bad").mpr (.inl rfl)

/-- Without encryption such a text is stored as it is, and is not read again. -/
theorem marked_secret_refused :
    Compatible keyFirst withoutKek withoutKek ∧
      (encryptStr keyFirst withoutKek someNonce "enc:v1:bad" >>= decryptStr keyFirst withoutKek) =
        .error ⟨"encrypted value present but push encryption is not effective"⟩ :=
  ⟨.off rfl rfl, rfl⟩

end SogeconApp.Guarantees.PushSecrets
