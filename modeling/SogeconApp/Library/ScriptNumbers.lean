import SogeconApp.Library.Binary64
import SogeconApp.Library.Trim

/-!
# Numbers and their texts in ECMAScript

`Number` of a string, rounded to the nearest number, and `String` of a whole number that is not negative:
the shortest decimal that rounds to it, in the exponent form from 10^21 on. Of the decimals with as many
digits the closest is taken. A number is read back from its text.
-/

namespace SogeconApp.Library.ScriptNumbers

open Binary64

inductive Number where
  | nan
  | infinity (negative : Bool)
  | finite (negative : Bool) (magnitude : Magnitude)

def ofValue (negative : Bool) (value : ℚ) (nonneg : 0 ≤ value) : Number :=
  match Binary64.round value nonneg with
  | some magnitude => .finite negative magnitude
  | none => .infinity negative

/-! ## Number(text) -/

/-- WhiteSpace and LineTerminator. -/
def isStrWhiteSpace (char : Char) : Bool :=
  let code := char.toNat
  (0x09 ≤ code ∧ code ≤ 0x0d) ∨ code = 0x20 ∨ code = 0xa0 ∨ code = 0x1680 ∨ (0x2000 ≤ code ∧ code ≤ 0x200a) ∨
    code = 0x2028 ∨ code = 0x2029 ∨ code = 0x202f ∨ code = 0x205f ∨ code = 0x3000 ∨ code = 0xfeff

def digitValue (char : Char) : Option Nat :=
  if char.isDigit then some (char.toNat - 0x30)
  else if 'a' ≤ char ∧ char ≤ 'f' then some (char.toNat - 0x57)
  else if 'A' ≤ char ∧ char ≤ 'F' then some (char.toNat - 0x37)
  else none

/-- One digit of the base after the other. -/
def readInBase (base : Nat) (number : Nat) : List Char → Option Nat
  | [] => some number
  | char :: rest =>
    match digitValue char with
    | some digit => if digit < base then readInBase base (base * number + digit) rest else none
    | none => none

/-- The digits after the prefix, at least one of them. -/
def integerInBase (base : Nat) (digits : List Char) : Option Nat :=
  if digits = [] then none else readInBase base 0 digits

/-- NonDecimalIntegerLiteral. -/
def nonDecimal : List Char → Option Nat
  | '0' :: 'x' :: digits | '0' :: 'X' :: digits => integerInBase 16 digits
  | '0' :: 'o' :: digits | '0' :: 'O' :: digits => integerInBase 8 digits
  | '0' :: 'b' :: digits | '0' :: 'B' :: digits => integerInBase 2 digits
  | _ => none

def decimalDigits (chars : List Char) : Option Nat :=
  if chars ≠ [] ∧ chars.all Char.isDigit then some (Nat.ofDigitChars 10 chars 0) else none

def signedInteger : List Char → Option Int
  | '+' :: digits => (decimalDigits digits).map Int.ofNat
  | '-' :: digits => (decimalDigits digits).map fun number => -(number : Int)
  | digits => (decimalDigits digits).map Int.ofNat

def exponentPart : List Char → Option Int
  | [] => some 0
  | 'e' :: rest | 'E' :: rest => signedInteger rest
  | _ => none

structure Decimal where
  significand : Nat
  exponent : Int
  deriving DecidableEq, Repr

def Decimal.value (decimal : Decimal) : ℚ := decimal.significand * 10 ^ decimal.exponent

theorem Decimal.value_nonneg (decimal : Decimal) : 0 ≤ decimal.value :=
  mul_nonneg (Nat.cast_nonneg _) (zpow_pos (by norm_num) _).le

/-- The digits after a point, and what follows them. -/
def fraction : List Char → List Char × List Char
  | '.' :: rest => (rest.takeWhile Char.isDigit, rest.dropWhile Char.isDigit)
  | rest => ([], rest)

/-- Digits with or without a point, and an exponent. -/
def scanDecimal (chars : List Char) : Option Decimal :=
  let whole := chars.takeWhile Char.isDigit
  let (part, rest) := fraction (chars.dropWhile Char.isDigit)
  if whole = [] ∧ part = [] then none
  else
    (exponentPart rest).map fun exponent =>
      { significand := Nat.ofDigitChars 10 (whole ++ part) 0, exponent := exponent - part.length }

/-- StrUnsignedDecimalLiteral. -/
def unsigned (negative : Bool) (chars : List Char) : Option Number :=
  if chars = "Infinity".toList then some (.infinity negative)
  else (scanDecimal chars).map fun decimal => ofValue negative decimal.value decimal.value_nonneg

/-- StrDecimalLiteral. -/
def strDecimal : List Char → Option Number
  | '+' :: rest => unsigned false rest
  | '-' :: rest => unsigned true rest
  | rest => unsigned false rest

def toNumber (text : String) : Number :=
  let body := trim isStrWhiteSpace text.toList
  if body = [] then ofValue false 0 (le_refl _)
  else
    match nonDecimal body with
    | some number => ofValue false number (Nat.cast_nonneg _)
    | none => (strDecimal body).getD .nan

/-! ## String(number) -/

/-- The decimal is read as the number. -/
def Reads (decimal number : Nat) : Prop :=
  (Binary64.round decimal (Nat.cast_nonneg _)).map Subtype.val = some (number : ℚ)

instance (decimal number : Nat) : Decidable (Reads decimal number) := inferInstanceAs (Decidable (_ = _))

/-- The closest multiple of the unit that is read as the number, an even one at a tie. -/
def multiple (number unit : Nat) : Option Nat :=
  let low := number / unit * unit
  let high := low + unit
  let closer := high - number < number - low ∨ (high - number = number - low ∧ number / unit % 2 = 1)
  if Reads low number ∧ ¬(Reads high number ∧ closer) then some low
  else if Reads high number then some high
  else none

/-- With as many zeros at the end as possible. -/
def shortestFrom (number : Nat) : (zeros : Nat) → Nat
  | 0 => number
  | zeros + 1 => (multiple number (10 ^ (zeros + 1))).getD (shortestFrom number zeros)

def shortest (number : Nat) : Nat := shortestFrom number (Nat.toDigits 10 number).length

/-- `Number::toString` of a whole number that is not negative. -/
def toText (number : Nat) : String :=
  let digits := Nat.toDigits 10 (shortest number)
  if digits.length ≤ 21 then String.ofList digits
  else
    match digits.rdropWhile (· = '0') with
    | [] => String.ofList digits
    | first :: rest =>
      let point := if rest = [] then [] else '.' :: rest
      String.ofList (first :: (point ++ 'e' :: '+' :: Nat.toDigits 10 (digits.length - 1)))

/-! ## What a text of digits is read as -/

variable {number : Nat} {digits body : List Char} {char : Char}

/-- The characters of the texts that are written. -/
def Written (char : Char) : Prop := char.isDigit = true ∨ char = '.' ∨ char = 'e' ∨ char = '+'

instance (char : Char) : Decidable (Written char) := inferInstanceAs (Decidable (_ ∨ _ ∨ _ ∨ _))

theorem isStrWhiteSpace_written (written : Written char) : isStrWhiteSpace char = false := by
  rcases written with digit | rfl | rfl | rfl
  · simp only [Char.isDigit, Bool.and_eq_true, decide_eq_true_eq, UInt32.le_iff_toNat_le] at digit
    have low : 48 ≤ char.toNat := digit.1
    have high : char.toNat ≤ 57 := digit.2
    simp only [isStrWhiteSpace, decide_eq_false_iff_not]
    omega
  · decide
  · decide
  · decide

/-- A text of digits, points and exponents is none of the prefixed or infinite numbers. -/
theorem nonDecimal_written (written : ∀ char ∈ body, Written char) : nonDecimal body = none := by
  have absent (letter : Char) (member : letter ∈ body) (unwritten : ¬Written letter) : False :=
    unwritten (written letter member)
  unfold nonDecimal
  split
  · exact (absent 'x' (by simp) (by decide)).elim
  · exact (absent 'X' (by simp) (by decide)).elim
  · exact (absent 'o' (by simp) (by decide)).elim
  · exact (absent 'O' (by simp) (by decide)).elim
  · exact (absent 'b' (by simp) (by decide)).elim
  · exact (absent 'B' (by simp) (by decide)).elim
  · rfl

theorem strDecimal_digit (digit : char.isDigit = true) :
    strDecimal (char :: body) =
      (scanDecimal (char :: body)).map fun decimal => ofValue false decimal.value decimal.value_nonneg := by
  have unsigned_ : unsigned false (char :: body) =
      (scanDecimal (char :: body)).map fun decimal => ofValue false decimal.value decimal.value_nonneg := by
    have finite : char :: body ≠ "Infinity".toList := by
      intro same
      have first : char = 'I' := (List.cons.inj same).1
      rw [first] at digit
      cases digit
    rw [unsigned, if_neg finite]
  unfold strDecimal
  split
  · next rest same =>
    obtain ⟨rfl, -⟩ := List.cons.inj same
    cases digit
  · next rest same =>
    obtain ⟨rfl, -⟩ := List.cons.inj same
    cases digit
  · exact unsigned_

/-- A text that begins with a digit and is scanned as a decimal. -/
theorem toNumber_written {decimal : Decimal} (digit : char.isDigit = true)
    (written : ∀ char ∈ body, Written char) (scans : scanDecimal (char :: body) = some decimal) :
    toNumber (String.ofList (char :: body)) = ofValue false decimal.value decimal.value_nonneg := by
  have all : ∀ other ∈ char :: body, Written other := by
    intro other member
    rcases List.mem_cons.mp member with rfl | later
    · exact .inl digit
    · exact written other later
  have trimmed : trim isStrWhiteSpace (char :: body) = char :: body :=
    trim_eq_self_iff.mpr ⟨fun other first => isStrWhiteSpace_written (all other (List.mem_of_head? first)),
      fun other last => isStrWhiteSpace_written (all other (List.mem_of_getLast? last))⟩
  simp only [toNumber, String.toList_ofList, trimmed, if_neg (List.cons_ne_nil char body),
    nonDecimal_written all, strDecimal_digit digit, scans, Option.map_some, Option.getD_some]

theorem takeWhile_digits (all : ∀ char ∈ digits, char.isDigit = true) (rest : List Char)
    (stops : ∀ char, rest.head? = some char → char.isDigit = false) :
    (digits ++ rest).takeWhile Char.isDigit = digits ∧ (digits ++ rest).dropWhile Char.isDigit = rest := by
  rw [List.takeWhile_append_of_pos all, List.dropWhile_append_of_pos all, dropWhile_eq_self_iff_head.mpr stops]
  have none_ : rest.takeWhile Char.isDigit = [] := by
    cases rest with
    | nil => rfl
    | cons first rest =>
      have stop := stops first rfl
      rw [List.takeWhile_cons_of_neg (by simp [stop])]
  rw [none_, List.append_nil]
  exact ⟨rfl, rfl⟩

theorem scanDecimal_digits (some_ : digits ≠ []) (all : ∀ char ∈ digits, char.isDigit = true) :
    scanDecimal digits = some ⟨Nat.ofDigitChars 10 digits 0, 0⟩ := by
  have split := takeWhile_digits all [] (by simp)
  rw [List.append_nil] at split
  simp [scanDecimal, split.1, split.2, fraction, some_, exponentPart]

theorem isDigit_toDigits (number : Nat) : ∀ char ∈ Nat.toDigits 10 number, char.isDigit = true :=
  fun _ member => Nat.isDigit_of_mem_toDigits (by decide) (by decide) member

theorem exponentPart_toDigits (number : Nat) :
    exponentPart ('e' :: '+' :: Nat.toDigits 10 number) = some number := by
  have digits : decimalDigits (Nat.toDigits 10 number) = some number := by
    have all : (Nat.toDigits 10 number).all Char.isDigit = true := List.all_eq_true.mpr (isDigit_toDigits number)
    rw [decimalDigits, if_pos ⟨Nat.toDigits_ne_nil, all⟩, Nat.ofDigitChars_ten_toDigits]
  simp only [exponentPart, signedInteger, digits, Option.map_some]
  rfl

/-- The exponential form of a number is scanned to its digits and to the exponent that was written. -/
theorem scanDecimal_exponent {rest : List Char} (digit : char.isDigit = true)
    (all : ∀ other ∈ rest, other.isDigit = true) (exponent : Nat) :
    scanDecimal (char :: ((if rest = [] then [] else '.' :: rest) ++ 'e' :: '+' :: Nat.toDigits 10 exponent)) =
      some ⟨Nat.ofDigitChars 10 (char :: rest) 0, exponent - rest.length⟩ := by
  have head : ∀ other ∈ [char], other.isDigit = true := by simpa using digit
  have letter (first : Char) (tail : List Char) (stop : first.isDigit = false) :
      ∀ other, (first :: tail).head? = some other → other.isDigit = false := by
    intro other found
    cases found
    exact stop
  by_cases none_ : rest = []
  · have split := takeWhile_digits head ('e' :: '+' :: Nat.toDigits 10 exponent) (letter _ _ (by decide))
    rw [List.singleton_append] at split
    simp [scanDecimal, none_, split.1, split.2, fraction, exponentPart_toDigits]
  · have split := takeWhile_digits head ('.' :: (rest ++ 'e' :: '+' :: Nat.toDigits 10 exponent))
      (letter _ _ (by decide))
    have part := takeWhile_digits all ('e' :: '+' :: Nat.toDigits 10 exponent) (letter _ _ (by decide))
    rw [List.singleton_append] at split
    simp [scanDecimal, none_, split.1, split.2, fraction, part.1, part.2, exponentPart_toDigits]

theorem written_exponent {rest : List Char} (all : ∀ other ∈ rest, other.isDigit = true) (exponent : Nat) :
    ∀ other ∈ (if rest = [] then [] else '.' :: rest) ++ 'e' :: '+' :: Nat.toDigits 10 exponent,
      Written other := by
  have point : ∀ other ∈ (if rest = [] then [] else '.' :: rest), Written other := by
    split
    · simp
    · intro other member
      rcases List.mem_cons.mp member with rfl | digit
      · exact .inr (.inl rfl)
      · exact .inl (all other digit)
  intro other member
  rcases List.mem_append.mp member with before | after
  · exact point other before
  · simp only [List.mem_cons] at after
    rcases after with rfl | rfl | digit
    · exact .inr (.inr (.inl rfl))
    · exact .inr (.inr (.inr rfl))
    · exact .inl (isDigit_toDigits exponent other digit)

/-! ## A number is read back from its text -/

theorem reads_multiple {unit decimal : Nat} (found : multiple number unit = some decimal) :
    Reads decimal number := by
  unfold multiple at found
  extract_lets low high closer at found
  split at found
  · next reads =>
    rw [← Option.some.inj found]
    exact reads.1
  · split at found
    · next reads =>
      rw [← Option.some.inj found]
      exact reads
    · cases found

/-- The digits that are chosen read as the number, whichever of the candidates they are. -/
theorem reads_shortestFrom (itself : Reads number number) (zeros : Nat) :
    Reads (shortestFrom number zeros) number := by
  induction zeros with
  | zero => exact itself
  | succ zeros ih =>
    rw [shortestFrom]
    cases found : multiple number (10 ^ (zeros + 1)) with
    | none => exact ih
    | some decimal => exact reads_multiple found

theorem reads_itself (representable : IsBinary64 (number : ℚ)) : Reads number number := by
  rw [Reads, round_of_isBinary64 representable]
  rfl

/-- A decimal that reads as a number of the format is rounded to that number. -/
theorem ofValue_reads (representable : IsBinary64 (number : ℚ)) {decimal : Nat} (reads : Reads decimal number)
    {value : ℚ} (same : value = decimal) (nonneg : 0 ≤ value) :
    ofValue false value nonneg = .finite false ⟨number, representable⟩ := by
  subst same
  obtain ⟨magnitude, rounds, equal⟩ := Option.map_eq_some_iff.mp reads
  have whole : magnitude = ⟨number, representable⟩ := Subtype.ext equal
  simp only [ofValue, rounds, whole]

/-- A list of digits is what is left of it without the zeros at its end, and those zeros. -/
theorem value_without_zeros (digits : List Char) :
    ∃ zeros, digits.length = (digits.rdropWhile (· = '0')).length + zeros ∧
      Nat.ofDigitChars 10 digits 0 = 10 ^ zeros * Nat.ofDigitChars 10 (digits.rdropWhile (· = '0')) 0 := by
  obtain ⟨count, same⟩ : ∃ count, digits.rtakeWhile (· = '0') = List.replicate count '0' := by
    refine ⟨_, List.eq_replicate_of_mem fun char member => ?_⟩
    simpa using List.mem_rtakeWhile_imp member
  have whole : digits.rdropWhile (· = '0') ++ digits.rtakeWhile (· = '0') = digits :=
    List.rdropWhile_append_rtakeWhile
  rw [same] at whole
  refine ⟨count, ?_, ?_⟩
  · conv_lhs => rw [← whole]
    rw [List.length_append, List.length_replicate]
  · conv_lhs => rw [← whole]
    rw [Nat.ofDigitChars_append, Nat.ofDigitChars_replicate_zero]

/-- The plain digits of a decimal that is read as the number. -/
theorem toNumber_digits (representable : IsBinary64 (number : ℚ)) {decimal : Nat} (reads : Reads decimal number) :
    toNumber (String.ofList (Nat.toDigits 10 decimal)) = .finite false ⟨number, representable⟩ := by
  have all := isDigit_toDigits decimal
  have scans := scanDecimal_digits Nat.toDigits_ne_nil all
  rw [Nat.ofDigitChars_ten_toDigits] at scans
  obtain ⟨first, rest, digits⟩ := List.exists_cons_of_ne_nil (Nat.toDigits_ne_nil (n := decimal) (b := 10))
  rw [digits] at all scans ⊢
  rw [toNumber_written (all first List.mem_cons_self)
    (fun char member => .inl (all char (List.mem_cons_of_mem _ member))) scans]
  exact ofValue_reads representable reads (by simp [Decimal.value]) _

/-- A number is read back from its text. -/
theorem toNumber_toText (representable : IsBinary64 (number : ℚ)) :
    toNumber (toText number) = .finite false ⟨number, representable⟩ := by
  have reads : Reads (shortest number) number := reads_shortestFrom (reads_itself representable) _
  have all := isDigit_toDigits (shortest number)
  unfold toText
  extract_lets digits
  split
  · exact toNumber_digits representable reads
  · split
    · exact toNumber_digits representable reads
    · next first rest kept =>
      obtain ⟨zeros, length, value⟩ := value_without_zeros digits
      rw [kept, List.length_cons] at length
      rw [kept, Nat.ofDigitChars_ten_toDigits] at value
      have inDigits : ∀ char ∈ first :: rest, char.isDigit = true := by
        rw [← kept]
        exact fun char member => all char ((List.rdropWhile_prefix _ _).subset member)
      have digit := inDigits first List.mem_cons_self
      have inRest : ∀ char ∈ rest, char.isDigit = true :=
        fun char member => inDigits char (List.mem_cons_of_mem _ member)
      have scans := scanDecimal_exponent digit inRest (digits.length - 1)
      rw [toNumber_written digit (written_exponent inRest _) scans]
      refine ofValue_reads representable reads ?_ _
      have exponent : ((digits.length - 1 : Nat) : Int) - rest.length = zeros := by omega
      rw [Decimal.value, exponent, value, zpow_natCast]
      push_cast
      ring

end SogeconApp.Library.ScriptNumbers
