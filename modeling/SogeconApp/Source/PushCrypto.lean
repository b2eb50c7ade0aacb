import SogeconApp.Library.Base64

/-!
# Encryption of push subscriptions at rest

Source: `apps/api/crypto_utils.py` (decode_push_kek, _cfg, encrypt_str, decrypt_str).

AES-GCM and `str.strip` are parameters; the nonce is what `os.urandom(12)` returns.
-/

namespace SogeconApp.Source.PushCrypto

open Library Base64

def encPrefix : List Char := "enc:v1:".toList

/-- The two settings that are read at every call. -/
structure Settings where
  pushEncryptAtRest : Bool
  pushKek : String
  deriving DecidableEq, Repr

/-- `encrypt(nonce, data, None)` and `decrypt(nonce, data, None)` of `AESGCM(key)`; `none` is
InvalidTag or a ValueError. -/
structure CryptoRules where
  strip : String → String
  encrypt : (key nonce data : Bytes) → Bytes
  decrypt : (key nonce data : Bytes) → Option Bytes

structure CryptoError where
  message : String
  deriving DecidableEq, Repr

abbrev Nonce := { bytes : Bytes // bytes.length = 12 }

/-- `p.encode("utf-8")`. -/
def encodeUtf8 (text : String) : Bytes := text.toUTF8.data.toList

/-- `pt.decode("utf-8")`; `none` is UnicodeDecodeError. -/
def decodeUtf8 (bytes : Bytes) : Option String := String.fromUTF8? ⟨bytes.toArray⟩

@[simp] theorem decodeUtf8_encodeUtf8 (text : String) : decodeUtf8 (encodeUtf8 text) = some text := by
  have same : (⟨(encodeUtf8 text).toArray⟩ : ByteArray) = text.toUTF8 := by simp [encodeUtf8]
  rw [decodeUtf8, same, String.fromUTF8?, String.toUTF8_eq_toByteArray, dif_pos text.isValidUTF8]
  rfl

section Crypto

variable (rules : CryptoRules) (settings : Settings)

/-- `none` is its ValueError. -/
def decodePushKek (raw : String) : Option Bytes := do
  let key ← Base64.decode true (rules.strip raw).toList
  if key.length ∈ [16, 24, 32] then some key else none

structure CryptoConfig where
  enabled : Bool
  key : Option Bytes

def cfg : Except CryptoError CryptoConfig :=
  if ¬settings.pushEncryptAtRest then .ok { enabled := false, key := none }
  else
    match decodePushKek rules settings.pushKek with
    | none => .error ⟨"push encryption enabled but PUSH_KEK is invalid"⟩
    | some key => .ok { enabled := true, key := some key }

theorem cfg_cases {config : CryptoConfig} (read : cfg rules settings = .ok config) :
    config = { enabled := false, key := none } ∨
      ∃ key, decodePushKek rules settings.pushKek = some key ∧
        config = { enabled := true, key := some key } := by
  unfold cfg at read
  split at read
  · exact .inl (Except.ok.inj read).symm
  · split at read
    · cases read
    · next key decoded => exact .inr ⟨key, decoded, (Except.ok.inj read).symm⟩

def encryptStr (nonce : Nonce) (text : String) : Except CryptoError String := do
  let config ← cfg rules settings
  if ¬config.enabled then return text
  match config.key with
  | none => throw ⟨"push encryption enabled but key is missing"⟩
  | some key =>
    let blob := Base64.encode (nonce.val ++ rules.encrypt key nonce.val (encodeUtf8 text))
    return String.ofList (encPrefix ++ blob)

/-- A text is stored as it is, or sealed under the key of the settings. -/
theorem encryptStr_cases {nonce : Nonce} {text stored : String}
    (encrypted : encryptStr rules settings nonce text = .ok stored) :
    stored = text ∨ ∃ key, decodePushKek rules settings.pushKek = some key ∧
      stored.toList = encPrefix ++ Base64.encode
        (nonce.val ++ rules.encrypt key nonce.val (encodeUtf8 text)) := by
  unfold encryptStr at encrypted
  cases read : cfg rules settings with
  | error reason =>
    rw [read] at encrypted
    cases encrypted
  | ok config =>
    rw [read] at encrypted
    rcases cfg_cases rules settings read with rfl | ⟨key, decoded, rfl⟩
    · cases encrypted
      exact .inl rfl
    · cases encrypted
      exact .inr ⟨key, decoded, String.toList_ofList⟩

/-- The part that turns every error into one. -/
def openBlob (key : Bytes) (blob : List Char) : Option String := do
  let data ← Base64.decode false blob
  let text ← rules.decrypt key (data.take 12) (data.drop 12)
  decodeUtf8 text

def decryptStr (stored : String) : Except CryptoError String :=
  if ¬encPrefix.isPrefixOf stored.toList then .ok stored
  else do
    let config ← cfg rules settings
    match config.enabled, config.key with
    | true, some key =>
      match openBlob rules key (stored.toList.drop encPrefix.length) with
      | some text => return text
      | none => throw ⟨"failed to decrypt push subscription field"⟩
    | _, _ => throw ⟨"encrypted value present but push encryption is not effective"⟩

/-- Without the prefix a text is read as it is, and otherwise opened under the key of the settings. -/
theorem decryptStr_cases {stored plain : String} (decrypted : decryptStr rules settings stored = .ok plain) :
    encPrefix.isPrefixOf stored.toList = false ∧ plain = stored ∨
      ∃ key, decodePushKek rules settings.pushKek = some key ∧
        openBlob rules key (stored.toList.drop encPrefix.length) = some plain := by
  unfold decryptStr at decrypted
  split at decrypted
  · next unmarked => exact .inl ⟨eq_false_of_ne_true unmarked, (Except.ok.inj decrypted).symm⟩
  · cases read : cfg rules settings with
    | error reason =>
      rw [read] at decrypted
      cases decrypted
    | ok config =>
      rw [read] at decrypted
      rcases cfg_cases rules settings read with rfl | ⟨key, decoded, rfl⟩
      · cases decrypted
      · refine .inr ⟨key, decoded, ?_⟩
        simp only [bind, Except.bind] at decrypted
        split at decrypted
        · next text opened =>
          cases decrypted
          exact opened
        · cases decrypted

/-- A blob is opened with the nonce that it begins with. -/
theorem openBlob_encode (key : Bytes) (nonce : Nonce) (sealed : Bytes) :
    openBlob rules key (Base64.encode (nonce.val ++ sealed)) =
      (rules.decrypt key nonce.val sealed).bind decodeUtf8 := by
  have front : (nonce.val ++ sealed).take 12 = nonce.val := List.take_left' nonce.property
  have back : (nonce.val ++ sealed).drop 12 = sealed := List.drop_left' nonce.property
  simp only [openBlob, Base64.decode_encode, bind, Option.bind_some, front, back]

end Crypto

end SogeconApp.Source.PushCrypto
