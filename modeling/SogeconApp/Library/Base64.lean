import Mathlib.Data.List.Basic
import Mathlib.Data.Nat.Notation

/-!
# Base64

`base64.b64encode` and `binascii.a2b_base64`. The decoder reads its text character by character,
with the position in the current group of four, the bits that are left over from the last character
and the number of paddings so far. Outside of strict mode it passes over what is not in the alphabet,
and in both modes it stops at the padding that completes a group.
-/

namespace SogeconApp.Library

namespace Base64

abbrev Bytes := List UInt8

/-- `A`–`Z`, `a`–`z`, `0`–`9`, `+` and `/`. -/
def letter (value : Nat) : Char :=
  if value < 26 then Char.ofNat (value + 65)
  else if value < 52 then Char.ofNat (value + 71)
  else if value < 62 then Char.ofNat (value - 4)
  else if value = 62 then '+'
  else '/'

def value (char : Char) : Option Nat :=
  let code := char.toNat
  if 65 ≤ code ∧ code ≤ 90 then some (code - 65)
  else if 97 ≤ code ∧ code ≤ 122 then some (code - 71)
  else if 48 ≤ code ∧ code ≤ 57 then some (code + 4)
  else if char = '+' then some 62
  else if char = '/' then some 63
  else none

theorem value_letter : ∀ index < 64, value (letter index) = some index ∧ letter index ≠ '=' := by decide

def encode : Bytes → List Char
  | [] => []
  | [a] => [letter (a.toNat / 4), letter (a.toNat % 4 * 16), '=', '=']
  | [a, b] =>
    [letter (a.toNat / 4), letter (a.toNat % 4 * 16 + b.toNat / 16), letter (b.toNat % 16 * 4), '=']
  | a :: b :: c :: rest =>
    letter (a.toNat / 4) :: letter (a.toNat % 4 * 16 + b.toNat / 16) ::
      letter (b.toNat % 16 * 4 + c.toNat / 64) :: letter (c.toNat % 64) :: encode rest

/-- The bytes that a character of the alphabet completes at a position, and what it leaves over. -/
def fill (position left value : Nat) : Bytes × Nat :=
  match position with
  | 0 => ([], value)
  | 1 => ([.ofNat (left * 4 + value / 16)], value % 16)
  | 2 => ([.ofNat (left * 16 + value / 4)], value % 4)
  | _ => ([.ofNat (left * 64 + value)], 0)

def decodeFrom (strict : Bool) : (position left pads : Nat) → (padded : Bool) → List Char → Option Bytes
  | position, _, _, _, [] => if position = 0 then some [] else none
  | position, left, pads, padded, char :: rest =>
    if char = '=' then
      if position < 2 then decodeFrom strict position left pads true rest
      else if position + (pads + 1) < 4 then decodeFrom strict position left (pads + 1) true rest
      else if strict && !rest.isEmpty then none
      else some []
    else
      match value char with
      | none => if strict then none else decodeFrom strict position left pads padded rest
      | some value =>
        if strict && padded then none
        else
          let (filled, left) := fill position left value
          (decodeFrom strict ((position + 1) % 4) left 0 padded rest).map (filled ++ ·)

/-- `base64.b64decode(text, validate=strict)`; `none` is its ValueError. -/
def decode (strict : Bool) (text : List Char) : Option Bytes :=
  if text.any fun char => 128 ≤ char.toNat then none
  else if strict && text.head? = some '=' then none
  else decodeFrom strict 0 0 0 false text

section RoundTrip

variable {strict : Bool} {position left pads index : Nat} {rest : List Char}

/-- A letter of the alphabet is read as its index. -/
theorem decodeFrom_letter (bound : index < 64) :
    decodeFrom strict position left pads false (letter index :: rest) =
      (decodeFrom strict ((position + 1) % 4) (fill position left index).2 0 false rest).map
        ((fill position left index).1 ++ ·) := by
  obtain ⟨found, different⟩ := value_letter index bound
  rw [decodeFrom, if_neg different, found]
  simp

/-- The padding that completes a group of four ends the text; the bits that are left over then count no
more. -/
theorem decodeFrom_pad (open_ : 2 ≤ position) (last : 4 ≤ position + (pads + 1)) {padded : Bool} :
    decodeFrom strict position left pads padded ['='] = some [] := by
  rw [decodeFrom, if_pos rfl, if_neg (by omega), if_neg (by omega)]
  simp

theorem decodeFrom_pad_next (open_ : 2 ≤ position) (more : position + (pads + 1) < 4) {padded : Bool} :
    decodeFrom strict position left pads padded ('=' :: rest) =
      decodeFrom strict position left (pads + 1) true rest := by
  rw [decodeFrom, if_pos rfl, if_neg (by omega), if_pos more]

theorem ofNat_of_eq (byte : UInt8) {value : Nat} (same : value = byte.toNat) : UInt8.ofNat value = byte := by
  rw [same, UInt8.ofNat_toNat]

/-- Round trip, in either mode: each group of four characters gives back the bytes that it was made of.
-/
theorem decodeFrom_encode (bytes : Bytes) : decodeFrom strict 0 0 0 false (encode bytes) = some bytes := by
  induction bytes using encode.induct with
  | case1 => rfl
  | case2 a =>
    have small := a.toNat_lt
    rw [encode, decodeFrom_letter (by omega), decodeFrom_letter (by omega),
      decodeFrom_pad_next (by decide) (by decide),
      decodeFrom_pad (by decide) (by decide)]
    simp only [fill, Option.map_some, List.nil_append, List.append_nil]
    rw [ofNat_of_eq a (by omega)]
  | case3 a b =>
    have small := a.toNat_lt
    have small' := b.toNat_lt
    rw [encode, decodeFrom_letter (by omega), decodeFrom_letter (by omega), decodeFrom_letter (by omega),
      decodeFrom_pad (by decide) (by decide)]
    simp only [fill, Option.map_some, List.nil_append, List.singleton_append]
    rw [ofNat_of_eq a (by omega), ofNat_of_eq b (by omega)]
  | case4 a b c rest ih =>
    have small := a.toNat_lt
    have small' := b.toNat_lt
    have small'' := c.toNat_lt
    rw [encode, decodeFrom_letter (by omega), decodeFrom_letter (by omega), decodeFrom_letter (by omega),
      decodeFrom_letter (by omega)]
    simp only [fill, Nat.reduceAdd, Nat.reduceMod]
    rw [ih]
    simp only [Option.map_some, List.nil_append, List.singleton_append]
    rw [ofNat_of_eq a (by omega), ofNat_of_eq b (by omega), ofNat_of_eq c (by omega)]

/-- Every three bytes, or what is left of them at the end, are written as four characters. -/
theorem length_encode (bytes : Bytes) : (encode bytes).length = (bytes.length + 2) / 3 * 4 := by
  induction bytes using encode.induct with
  | case1 => rfl
  | case2 a => simp [encode]
  | case3 a b => simp [encode]
  | case4 a b c rest ih =>
    simp only [encode, List.length_cons, ih]
    omega

theorem letter_ascii (index : Nat) : (letter index).toNat < 128 := by
  have all : ∀ index < 63, (letter index).toNat < 128 := by decide
  by_cases within : index < 63
  · exact all index within
  · have last : letter index = '/' := by
      unfold letter
      rw [if_neg (by omega), if_neg (by omega), if_neg (by omega), if_neg (by omega)]
    rw [last]
    decide

/-- The text that is written is ASCII, so the decoder does not refuse it for its characters. -/
theorem encode_ascii (bytes : Bytes) : ∀ char ∈ encode bytes, char.toNat < 128 := by
  induction bytes using encode.induct with
  | case1 => nofun
  | case2 a => simp [encode, letter_ascii]
  | case3 a b => simp [encode, letter_ascii]
  | case4 a b c rest ih => simpa [encode, letter_ascii] using ih

theorem encode_head (bytes : Bytes) : (encode bytes).head? ≠ some '=' := by
  have first (a : UInt8) : letter (a.toNat / 4) ≠ '=' := by
    have small := a.toNat_lt
    exact (value_letter _ (by omega)).2
  match bytes with
  | [] => nofun
  | [a] | [a, b] | a :: b :: c :: rest => simpa [encode] using first a

/-- What was encoded is decoded, strictly or not. -/
theorem decode_encode (strict : Bool) (bytes : Bytes) : decode strict (encode bytes) = some bytes := by
  have ascii : (encode bytes).any (fun char => 128 ≤ char.toNat) = false :=
    List.any_eq_false.mpr fun char member => by simpa using encode_ascii bytes char member
  rw [decode, ascii, decide_eq_false (encode_head bytes)]
  simpa using decodeFrom_encode bytes

end RoundTrip

theorem fill_length (position left value : Nat) : (fill position left value).1.length ≤ 1 := by
  unfold fill
  split <;> simp

/-- Every byte takes a character of its own, at least. -/
theorem decodeFrom_length {strict padded : Bool} {position left pads : Nat} {text : List Char}
    {bytes : Bytes} (read : decodeFrom strict position left pads padded text = some bytes) :
    bytes.length ≤ text.length := by
  induction text generalizing position left pads padded bytes with
  | nil =>
    simp only [decodeFrom] at read
    split at read <;> simp_all
  | cons char rest ih =>
    simp only [decodeFrom] at read
    simp only [List.length_cons]
    split at read
    · split at read
      · exact Nat.le_succ_of_le (ih read)
      · split at read
        · exact Nat.le_succ_of_le (ih read)
        · split at read
          · cases read
          · cases read
            simp
    · split at read
      · split at read
        · cases read
        · exact Nat.le_succ_of_le (ih read)
      · next value _ =>
        split at read
        · cases read
        · obtain ⟨others, found, rfl⟩ := Option.map_eq_some_iff.mp read
          have first := fill_length position left value
          have later := ih found
          simp only [List.length_append]
          omega

/-- No character completes more than one byte, so a decoded text has no more bytes than characters. -/
theorem decode_length {strict : Bool} {text : List Char} {bytes : Bytes}
    (read : decode strict text = some bytes) : bytes.length ≤ text.length := by
  unfold decode at read
  split at read
  · cases read
  · split at read
    · cases read
    · exact decodeFrom_length read

end Base64

end SogeconApp.Library
