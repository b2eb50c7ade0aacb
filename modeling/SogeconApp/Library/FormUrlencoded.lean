import Mathlib.Data.List.Basic

/-!
# The application/x-www-form-urlencoded format

Lists of names and values as a query string, over the UTF-8 bytes of their texts. What the parser makes of
bytes that are no UTF-8 is a parameter. What is serialized is parsed back, and it has no `?` and no `#`.
-/

namespace SogeconApp.Library.FormUrlencoded

abbrev Bytes := List UInt8

def utf8 (text : String) : Bytes := text.toList.flatMap String.utf8EncodeChar

def decodeUtf8 (malformed : Bytes → String) (bytes : Bytes) : String :=
  (String.fromUTF8? bytes.toByteArray).getD (malformed bytes)

/-! ## The serializer -/

/-- The bytes that stand for themselves. -/
def isPlain (byte : UInt8) : Bool :=
  (0x30 ≤ byte ∧ byte ≤ 0x39) ∨ (0x41 ≤ byte ∧ byte ≤ 0x5a) ∨ (0x61 ≤ byte ∧ byte ≤ 0x7a) ∨ byte = 0x2a ∨
    byte = 0x2d ∨ byte = 0x2e ∨ byte = 0x5f

def hexDigit (value : UInt8) : UInt8 := if value < 10 then 0x30 + value else 0x37 + value

def encodeByte (byte : UInt8) : Bytes :=
  if byte = 0x20 then [0x2b]
  else if isPlain byte then [byte]
  else [0x25, hexDigit (byte / 16), hexDigit (byte % 16)]

def encodeText (text : String) : Bytes := (utf8 text).flatMap encodeByte

def encodePair (pair : String × String) : Bytes := encodeText pair.1 ++ 0x3d :: encodeText pair.2

def serializeBytes (pairs : List (String × String)) : Bytes := [0x26].intercalate (pairs.map encodePair)

/-- All the bytes are ASCII. -/
def serialize (pairs : List (String × String)) : String :=
  String.ofList ((serializeBytes pairs).map fun byte => Char.ofNat byte.toNat)

/-! ## The parser -/

def hexValue (byte : UInt8) : Option UInt8 :=
  if 0x30 ≤ byte ∧ byte ≤ 0x39 then some (byte - 0x30)
  else if 0x41 ≤ byte ∧ byte ≤ 0x46 then some (byte - 0x37)
  else if 0x61 ≤ byte ∧ byte ≤ 0x66 then some (byte - 0x57)
  else none

def percentDecode : Bytes → Bytes
  | [] => []
  | [first] => [first]
  | [first, second] => [first, second]
  | first :: high :: low :: rest =>
    match if first = 0x25 then (hexValue high).bind fun high => (hexValue low).map (16 * high + ·) else none with
    | some byte => byte :: percentDecode rest
    | none => first :: percentDecode (high :: low :: rest)

def plusToSpace (byte : UInt8) : UInt8 := if byte = 0x2b then 0x20 else byte

def decodeText (malformed : Bytes → String) (bytes : Bytes) : String :=
  decodeUtf8 malformed (percentDecode (bytes.map plusToSpace))

def parsePair (malformed : Bytes → String) (sequence : Bytes) : String × String :=
  (decodeText malformed (sequence.takeWhile (· ≠ 0x3d)),
    decodeText malformed ((sequence.dropWhile (· ≠ 0x3d)).drop 1))

def parseBytes (malformed : Bytes → String) (bytes : Bytes) : List (String × String) :=
  ((bytes.splitOn 0x26).filter (· ≠ [])).map (parsePair malformed)

/-- Of a text that may start with a question mark. -/
def parse (malformed : Bytes → String) (text : String) : List (String × String) :=
  match utf8 text with
  | 0x3f :: rest => parseBytes malformed rest
  | bytes => parseBytes malformed bytes

/-! ## One byte, and one text -/

variable {byte : UInt8} {text : String} {malformed : Bytes → String}

theorem forall_byte {holds : UInt8 → Prop} (each : ∀ value < 256, holds (UInt8.ofNat value)) (byte : UInt8) :
    holds byte := by
  have small : byte.toNat < 256 := byte.toNat_lt
  have this := each byte.toNat small
  rwa [UInt8.ofNat_toNat] at this

theorem percentDecode_cons_of_ne (unescaped : byte ≠ 0x25) (rest : Bytes) :
    percentDecode (byte :: rest) = byte :: percentDecode rest := by
  match rest with
  | [] => rfl
  | [_] => rfl
  | _ :: _ :: _ => rw [percentDecode, if_neg unescaped]

/-- A percent sign with two hexadecimal digits is decoded to the byte that they write. -/
theorem percentDecode_escape {high low upper lower : UInt8} (first : hexValue upper = some high)
    (second : hexValue lower = some low) (rest : Bytes) :
    percentDecode (0x25 :: upper :: lower :: rest) = (16 * high + low) :: percentDecode rest := by
  rw [percentDecode, if_pos rfl, first, second]
  rfl

theorem hexValue_hexDigit : ∀ value : UInt8, value < 16 →
    hexValue (hexDigit value) = some value ∧ plusToSpace (hexDigit value) = hexDigit value :=
  forall_byte (by decide +kernel)

theorem halves (byte : UInt8) : byte / 16 < 16 ∧ byte % 16 < 16 ∧ 16 * (byte / 16) + byte % 16 = byte := by
  revert byte
  exact forall_byte (by decide +kernel)

theorem isPlain_unescaped : ∀ byte : UInt8, isPlain byte = true → byte ≠ 0x25 ∧ byte ≠ 0x2b :=
  forall_byte (by decide +kernel)

/-- A byte is read back. A plus sign is a space before the escapes are read, and a plus sign of the text is
escaped. -/
theorem percentDecode_encodeByte (byte : UInt8) (rest : Bytes) :
    percentDecode ((encodeByte byte).map plusToSpace ++ rest) = byte :: percentDecode rest := by
  unfold encodeByte
  split
  · next space =>
    subst space
    exact percentDecode_cons_of_ne (by decide) rest
  · split
    · next plain =>
      obtain ⟨unescaped, noPlus⟩ := isPlain_unescaped byte plain
      rw [List.map_singleton, plusToSpace, if_neg noPlus]
      exact percentDecode_cons_of_ne unescaped rest
    · obtain ⟨high, low, whole⟩ := halves byte
      obtain ⟨first, keepsFirst⟩ := hexValue_hexDigit _ high
      obtain ⟨second, keepsSecond⟩ := hexValue_hexDigit _ low
      have percent : plusToSpace 0x25 = 0x25 := by decide
      rw [List.map_cons, List.map_cons, List.map_singleton, keepsFirst, keepsSecond, percent]
      rw [List.cons_append, List.cons_append, List.singleton_append, percentDecode_escape first second, whole]

/-- Every sequence of bytes is decoded to itself, once the plus signs are blanks again. -/
theorem percentDecode_encodeBytes (bytes : Bytes) :
    percentDecode ((bytes.flatMap encodeByte).map plusToSpace) = bytes := by
  induction bytes with
  | nil => rfl
  | cons byte bytes ih => rw [List.flatMap_cons, List.map_append, percentDecode_encodeByte, ih]

theorem decodeUtf8_utf8 (malformed : Bytes → String) (text : String) :
    decodeUtf8 malformed (utf8 text) = text := by
  have same : (utf8 text).toByteArray = text.toByteArray := by
    rw [← String.utf8Encode_toList]
    rfl
  rw [decodeUtf8, same, String.fromUTF8?, dif_pos text.isValidUTF8]
  rfl

/-- Every text is decoded to itself, so the malformed bytes never come up. -/
theorem decodeText_encodeText (malformed : Bytes → String) (text : String) :
    decodeText malformed (encodeText text) = text := by
  rw [decodeText, encodeText, percentDecode_encodeBytes, decodeUtf8_utf8]

/-! ## The bytes between which the texts are cut -/

/-- An ASCII byte that no parser of URLs or of queries cuts at. -/
def Inner (byte : UInt8) : Prop := byte < 0x80 ∧ byte ≠ 0x23 ∧ byte ≠ 0x26 ∧ byte ≠ 0x3d ∧ byte ≠ 0x3f

instance (byte : UInt8) : Decidable (Inner byte) := inferInstanceAs (Decidable (_ ∧ _))

theorem inner_encodeByte (byte : UInt8) : ∀ encoded ∈ encodeByte byte, Inner encoded := by
  have each : ∀ byte, (encodeByte byte).all (fun encoded => Inner encoded) = true :=
    forall_byte (by decide +kernel)
  intro encoded member
  exact of_decide_eq_true (List.all_eq_true.mp (each byte) encoded member)

theorem inner_encodeText : ∀ byte ∈ encodeText text, Inner byte := by
  intro encoded member
  obtain ⟨byte, -, inside⟩ := List.mem_flatMap.mp member
  exact inner_encodeByte byte encoded inside

theorem mem_encodePair {pair : String × String} (member : byte ∈ encodePair pair) : Inner byte ∨ byte = 0x3d := by
  rcases List.mem_append.mp member with name | value
  · exact .inl (inner_encodeText byte name)
  · rcases List.mem_cons.mp value with equals | value
    · exact .inr equals
    · exact .inl (inner_encodeText byte value)

/-- Neither side of a pair has an equals sign of its own, so the pair is cut where it was joined. -/
theorem parsePair_encodePair (malformed : Bytes → String) (pair : String × String) :
    parsePair malformed (encodePair pair) = pair := by
  have inside : ∀ byte ∈ encodeText pair.1, decide (byte ≠ 0x3d) = true := by
    intro byte member
    exact decide_eq_true (inner_encodeText byte member).2.2.2.1
  have name : (encodePair pair).takeWhile (· ≠ 0x3d) = encodeText pair.1 := by
    rw [encodePair, List.takeWhile_append_of_pos inside, List.takeWhile_cons_of_neg (by decide), List.append_nil]
  have value : ((encodePair pair).dropWhile (· ≠ 0x3d)).drop 1 = encodeText pair.2 := by
    rw [encodePair, List.dropWhile_append_of_pos inside, List.dropWhile_cons_of_neg (by decide)]
    rfl
  rw [parsePair, name, value, decodeText_encodeText, decodeText_encodeText]

/-- Round trip over lists of pairs: the ampersands that join them are the only ones there. -/
theorem parseBytes_serializeBytes (malformed : Bytes → String) (pairs : List (String × String)) :
    parseBytes malformed (serializeBytes pairs) = pairs := by
  cases pairs with
  | nil => rfl
  | cons first rest =>
    have ampersand : ∀ sequence ∈ (first :: rest).map encodePair, (0x26 : UInt8) ∉ sequence := by
      intro sequence member inside
      obtain ⟨pair, -, rfl⟩ := List.mem_map.mp member
      rcases mem_encodePair inside with inner | equals
      · exact inner.2.2.1 rfl
      · exact absurd equals (by decide)
    have kept : ∀ sequence ∈ (first :: rest).map encodePair, decide (sequence ≠ []) = true := by
      intro sequence member
      obtain ⟨pair, -, rfl⟩ := List.mem_map.mp member
      simp [encodePair]
    rw [parseBytes, serializeBytes, List.splitOn_intercalate _ ampersand (by simp), List.filter_eq_self.mpr kept,
      List.map_map]
    exact List.map_id'' (parsePair_encodePair malformed) _

theorem mem_intercalate {separator : UInt8} {sequences : List Bytes}
    (member : byte ∈ [separator].intercalate sequences) :
    byte = separator ∨ ∃ sequence ∈ sequences, byte ∈ sequence := by
  induction sequences with
  | nil => cases member
  | cons first rest ih =>
    cases rest with
    | nil =>
      rw [List.intercalate_singleton] at member
      exact .inr ⟨first, List.mem_cons_self, member⟩
    | cons second rest =>
      rw [List.intercalate_cons_cons] at member
      rcases List.mem_append.mp member with front | later
      · rcases List.mem_append.mp front with inside | between
        · exact .inr ⟨first, List.mem_cons_self, inside⟩
        · exact .inl (List.mem_singleton.mp between)
      · rcases ih later with between | ⟨sequence, known, inside⟩
        · exact .inl between
        · exact .inr ⟨sequence, List.mem_cons_of_mem _ known, inside⟩

/-- A serialized byte is written as one character, which ends no part of a URL. -/
def Safe (byte : UInt8) : Prop :=
  String.utf8EncodeChar (Char.ofNat byte.toNat) = [byte] ∧ Char.ofNat byte.toNat ≠ '#' ∧ byte ≠ 0x3f

instance (byte : UInt8) : Decidable (Safe byte) := inferInstanceAs (Decidable (_ ∧ _))

theorem safe_of_inner : ∀ byte, Inner byte → Safe byte :=
  forall_byte (by decide +kernel)

theorem safe_serializeBytes {pairs : List (String × String)}
    (member : byte ∈ serializeBytes pairs) : Safe byte := by
  rcases mem_intercalate member with rfl | ⟨sequence, known, inside⟩
  · decide
  · obtain ⟨pair, -, rfl⟩ := List.mem_map.mp known
    rcases mem_encodePair inside with inner | rfl
    · exact safe_of_inner byte inner
    · decide

/-- The bytes of the query string are those that were serialized, each of them one ASCII character. -/
theorem utf8_serialize (pairs : List (String × String)) : utf8 (serialize pairs) = serializeBytes pairs := by
  have each (bytes : Bytes) (safe : ∀ byte ∈ bytes, Safe byte) :
      (bytes.map fun byte => Char.ofNat byte.toNat).flatMap String.utf8EncodeChar = bytes := by
    induction bytes with
    | nil => rfl
    | cons byte bytes ih =>
      rw [List.map_cons, List.flatMap_cons, (safe byte List.mem_cons_self).1,
        ih fun other member => safe other (List.mem_cons_of_mem _ member), List.singleton_append]
  rw [utf8, serialize, String.toList_ofList]
  exact each _ fun byte member => safe_serializeBytes member

theorem serialize_hash (pairs : List (String × String)) : '#' ∉ (serialize pairs).toList := by
  rw [serialize, String.toList_ofList]
  intro member
  obtain ⟨byte, inside, hash⟩ := List.mem_map.mp member
  exact (safe_serializeBytes inside).2.1 hash

/-- What is serialized is parsed back. -/
theorem parse_serialize (malformed : Bytes → String) (pairs : List (String × String)) :
    parse malformed (serialize pairs) = pairs := by
  rw [parse, utf8_serialize]
  split
  · next rest question =>
    have first : (0x3f : UInt8) ∈ serializeBytes pairs := by
      rw [question]
      exact List.mem_cons_self
    exact absurd rfl (safe_serializeBytes first).2.2
  · exact parseBytes_serializeBytes malformed pairs

/-! ## The pairs of one name -/

/-- The pairs that a query is parsed to. -/
abbrev SearchParams := List (String × String)

/-- The value of the first pair of the name. -/
def SearchParams.get (pairs : SearchParams) (name : String) : Option String :=
  (pairs.find? fun pair => pair.1 = name).map Prod.snd

/-- Instead of the first pair of the name, and no other pair of the name is kept; at the end without one. -/
def SearchParams.set (pairs : SearchParams) (name value : String) : SearchParams :=
  match pairs with
  | [] => [(name, value)]
  | pair :: rest =>
    if pair.1 = name then (name, value) :: rest.filter (·.1 ≠ name) else pair :: SearchParams.set rest name value

theorem SearchParams.get_filter (pairs : SearchParams) {name other : String} (kept : other ≠ name) :
    SearchParams.get (pairs.filter (·.1 ≠ name)) other = pairs.get other := by
  induction pairs with
  | nil => rfl
  | cons pair rest ih =>
    unfold get at ih ⊢
    by_cases dropped : pair.1 = name
    · rw [List.filter_cons_of_neg (by simpa using dropped), ih,
        List.find?_cons_of_neg (by simpa [dropped] using Ne.symm kept)]
    · rw [List.filter_cons_of_pos (by simpa using dropped)]
      by_cases here : pair.1 = other
      · rw [List.find?_cons_of_pos (by simpa using here), List.find?_cons_of_pos (by simpa using here)]
      · rw [List.find?_cons_of_neg (by simpa using here), List.find?_cons_of_neg (by simpa using here), ih]

theorem SearchParams.get_cons (pair : String × String) (rest : SearchParams) (name : String) :
    SearchParams.get (pair :: rest) name = if pair.1 = name then some pair.2 else rest.get name := by
  by_cases here : pair.1 = name
  · simp [get, here]
  · simp [get, here]

/-- After a name was set it has the value, and every other name has what it had. -/
theorem SearchParams.get_set (pairs : SearchParams) (name value other : String) :
    (pairs.set name value).get other = if other = name then some value else pairs.get other := by
  induction pairs with
  | nil =>
    rw [set, get_cons]
    simp only [eq_comm]
  | cons pair rest ih =>
    unfold set
    by_cases first : pair.1 = name
    · rw [if_pos first, get_cons, get_cons, first]
      by_cases same : other = name
      · rw [if_pos same.symm, if_pos same]
      · rw [if_neg (Ne.symm same), if_neg same, if_neg (Ne.symm same), get_filter rest same]
    · rw [if_neg first, get_cons, get_cons, ih]
      by_cases here : pair.1 = other
      · have kept : other ≠ name := by rwa [← here]
        rw [if_pos here, if_pos here, if_neg kept]
      · rw [if_neg here, if_neg here]

end SogeconApp.Library.FormUrlencoded
