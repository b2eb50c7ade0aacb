import SogeconApp.Library.Trim
import SogeconApp.Source.PhoneNumbers

/-!
# Phone numbers through the profile form

The pattern counts all characters of a number, and only its digits are stored. What is stored can be
shown and submitted again if and only if the submitted text has at least seven digits.
-/

namespace SogeconApp.Guarantees.PhoneNumbers

open Library Source.PhoneNumbers
open Source.MediaPaths (isSpace)
open Source.Listings (stripText)
open Source.Accounts (TextRules orNone)
open Source.PartialUpdates (MemberUpdate)

example : formatPhone (some "01089656747") = "010-8965-6747" := by decide +kernel

example : formatPhone (some "0212345678") = "02-1234-5678" := by decide +kernel

example : formatPhone (some "0311234567") = "031-123-4567" := by decide +kernel

example : formatPhone (some "15881234") = "15881234" := by decide +kernel

/-- The services sanitize the two fields so. -/
theorem sanitize_phones (rules : TextRules) (strips : rules.strip = stripText) (payload : MemberUpdate) :
    (payload.sanitize rules).phone = payload.phone.map (sanitized .phone) ∧
      (payload.sanitize rules).companyPhone = payload.companyPhone.map (sanitized .companyPhone) := by
  simp only [MemberUpdate.sanitize, strips]
  exact ⟨rfl, rfl⟩

variable {char : Char} {digits : List Char} {text submitted value : String} {field : PhoneField}

/-! ## Digits -/

def AllDigits (digits : List Char) : Prop := ∀ char ∈ digits, char.isDigit = true

instance (digits : List Char) : Decidable (AllDigits digits) := List.decidableBAll _ _

theorem isSpace_digit (digit : char.isDigit = true) : isSpace char = false := by
  simp only [Char.isDigit, Bool.and_eq_true, decide_eq_true_eq, UInt32.le_iff_toNat_le] at digit
  simp only [isSpace, Char.toNat, decide_eq_false_iff_not]
  have low : 48 ≤ char.val.toNat := digit.1
  have high : char.val.toNat ≤ 57 := digit.2
  omega

theorem filter_digits (all : AllDigits digits) : digits.filter Char.isDigit = digits :=
  List.filter_eq_self.mpr all

theorem allDigits_filter (chars : List Char) : AllDigits (chars.filter Char.isDigit) :=
  fun _ member => List.of_mem_filter member

/-- Stripping loses no digit. -/
theorem filter_strip (text : String) :
    (stripText text).toList.filter Char.isDigit = text.toList.filter Char.isDigit := by
  rw [stripText, String.toList_ofList]
  exact filter_trim fun _ => isSpace_digit

/-- The characters of a number as it is shown. -/
def Hyphenated (text : String) : Prop := ∀ char ∈ text.toList, char.isDigit = true ∨ char = '-'

theorem strip_hyphenated (shown : Hyphenated text) : stripText text = text := by
  have solid : ∀ char ∈ text.toList, isSpace char = false := by
    intro char member
    obtain digit | rfl := shown char member
    · exact isSpace_digit digit
    · decide
  have trimmed : Source.MediaPaths.strip text.toList = text.toList :=
    trim_eq_self_iff.mpr ⟨fun char first => solid char (List.mem_of_head? first),
      fun char last => solid char (List.mem_of_getLast? last)⟩
  rw [stripText, trimmed, String.ofList_toList]

theorem hyphenated_digits (all : AllDigits digits) : Hyphenated (String.ofList digits) := by
  intro char member
  rw [String.toList_ofList] at member
  exact .inl (all char member)

/-! ## Showing a number -/

/-- A format puts two hyphens between the digits and changes nothing else. -/
theorem replace_groups (format : PhoneFormat) (digits : List Char) :
    ∃ first middle last, format.replace digits = first ++ '-' :: (middle ++ '-' :: last) ∧
      digits = first ++ (middle ++ last) :=
  ⟨_, _, _, rfl, by rw [List.take_append_drop, List.take_append_drop]⟩

/-- A shown number has the stored digits, and two hyphens if it has nine to eleven of them. -/
structure Shows (digits : List Char) (shown : String) : Prop where
  keeps : shown.toList.filter Char.isDigit = digits
  hyphenated : Hyphenated shown
  length : shown.toList.length = digits.length ∨
    (9 ≤ digits.length ∧ digits.length ≤ 11 ∧ shown.toList.length = digits.length + 2)

theorem shows_raw (all : AllDigits digits) : Shows digits (String.ofList digits) where
  keeps := by rw [String.toList_ofList, filter_digits all]
  hyphenated := hyphenated_digits all
  length := .inl (by rw [String.toList_ofList])

theorem length_of_listed {format : PhoneFormat} (listed : format ∈ phoneFormats)
    (matches_ : format.test digits = true) : 9 ≤ digits.length ∧ digits.length ≤ 11 := by
  have groups : ∀ format ∈ phoneFormats, 9 ≤ format.lead.length + format.middle + format.last ∧
      format.lead.length + format.middle + format.last ≤ 11 := by
    simp [phoneFormats]
  simp only [PhoneFormat.test, decide_eq_true_eq] at matches_
  rw [matches_.1]
  exact groups format listed

/-- Every listed format shows the digits that it is given. -/
theorem shows_replaced (all : AllDigits digits) {format : PhoneFormat} (listed : format ∈ phoneFormats)
    (matches_ : format.test digits = true) : Shows digits (String.ofList (format.replace digits)) := by
  obtain ⟨low, high⟩ := length_of_listed listed matches_
  obtain ⟨first, middle, last, replaced, rfl⟩ := replace_groups format digits
  have inFirst : AllDigits first := fun char member => all char (by simp [member])
  have inMiddle : AllDigits middle := fun char member => all char (by simp [member])
  have inLast : AllDigits last := fun char member => all char (by simp [member])
  rw [replaced]
  refine ⟨?_, ?_, .inr ⟨low, high, ?_⟩⟩
  · have hyphen : ¬Char.isDigit '-' = true := by decide
    rw [String.toList_ofList, List.filter_append, List.filter_cons_of_neg hyphen, List.filter_append,
      List.filter_cons_of_neg hyphen, filter_digits inFirst, filter_digits inMiddle, filter_digits inLast]
  · intro char member
    simp only [String.toList_ofList, List.mem_append, List.mem_cons] at member
    rcases member with member | rfl | member | rfl | member
    · exact .inl (inFirst char member)
    · exact .inr rfl
    · exact .inl (inMiddle char member)
    · exact .inr rfl
    · exact .inl (inLast char member)
  · simp only [String.toList_ofList, List.length_append, List.length_cons]
    omega

/-- A stored number is shown with its digits, in a format or as it is. -/
theorem formatPhone_shows (some_ : digits ≠ []) (all : AllDigits digits) :
    Shows digits (formatPhone (some (String.ofList digits))) := by
  have nonempty : String.ofList digits ≠ "" := by simpa using some_
  simp only [formatPhone, if_neg nonempty, String.toList_ofList, filter_digits all, if_neg some_]
  split
  · next format found =>
    exact shows_replaced all (List.mem_of_find?_eq_some found)
      (List.find?_some (p := fun format : PhoneFormat => format.test digits) found)
  · exact shows_raw all

/-! ## Submitting a number -/

theorem validate_blank (blank : stripText text = "") : validatePhone (some text) = .ok none := by
  simp only [validatePhone, if_pos blank]

/-- A number that matches the pattern is stored as its digits. -/
theorem validate_filled (filled : stripText text ≠ "") (matches_ : matchesPhonePattern (stripText text) = true) :
    validatePhone (some text) = .ok (some (String.ofList (text.toList.filter Char.isDigit))) := by
  simp only [validatePhone, if_neg filled, matches_, normalizePhoneDigits, filter_strip]
  rfl

theorem validate_refused (filled : stripText text ≠ "") (fails : matchesPhonePattern (stripText text) = false) :
    validatePhone (some text) = .error phoneError := by
  simp only [validatePhone, if_neg filled, fails, if_true]

/-- A field keeps the digits, but not a personal number without any. -/
theorem sanitized_digits (all : AllDigits digits) :
    sanitized field (some (String.ofList digits)) =
      if digits = [] ∧ field = .phone then none else some (String.ofList digits) := by
  have stripped := strip_hyphenated (hyphenated_digits all)
  cases field with
  | phone =>
    simp only [sanitized, Option.bind_some, stripped, orNone, and_true]
    by_cases none_ : digits = []
    · simp [none_]
    · simp [none_]
  | companyPhone => simp [sanitized, stripped]

/-- A submission that stores a value has matched the pattern, and the value is its digits. -/
theorem submit_stores (stores : submit field (some submitted) = .ok (some value)) :
    matchesPhonePattern (stripText submitted) = true ∧
      value = String.ofList (submitted.toList.filter Char.isDigit) := by
  by_cases blank : stripText submitted = ""
  · rw [submit, validate_blank blank] at stores
    cases field <;> cases stores
  · cases matches_ : matchesPhonePattern (stripText submitted) with
    | false =>
      rw [submit, validate_refused blank matches_] at stores
      cases stores
    | true =>
      rw [submit, validate_filled blank matches_] at stores
      simp only [Except.map, sanitized_digits (allDigits_filter _)] at stores
      split at stores
      · cases stores
      · cases stores
        exact ⟨rfl, rfl⟩

/-- What is shown matches the pattern exactly from seven digits on, since the hyphens come with nine. -/
theorem matches_shown_iff {shown : String} (shows_ : Shows digits shown) (short : digits.length ≤ 20) :
    matchesPhonePattern shown = true ↔ 7 ≤ digits.length := by
  have admitted : shown.toList.all isPhoneChar = true := by
    refine List.all_eq_true.mpr fun char member => ?_
    rcases shows_.hyphenated char member with digit | hyphen
    · simp [isPhoneChar, digit]
    · simp [isPhoneChar, hyphen]
  simp only [matchesPhonePattern, admitted, and_true, decide_eq_true_eq]
  have length := shows_.length
  omega

theorem resubmit_iff (some_ : digits ≠ []) (all : AllDigits digits) (short : digits.length ≤ 20) :
    submit field (some (formatPhone (some (String.ofList digits)))) = .ok (some (String.ofList digits)) ↔
      7 ≤ digits.length := by
  have shows_ := formatPhone_shows some_ all
  generalize formatPhone (some (String.ofList digits)) = shown at shows_ ⊢
  have same := strip_hyphenated shows_.hyphenated
  have filled : stripText shown ≠ "" := by
    rintro blank
    rw [← shows_.keeps, ← same, blank] at some_
    exact some_ rfl
  rw [← matches_shown_iff shows_ short]
  cases matches_ : matchesPhonePattern shown with
  | true =>
    have valid := validate_filled filled (by rw [same, matches_])
    have kept : ¬(digits = [] ∧ field = .phone) := fun none_ => some_ none_.1
    rw [submit, valid, shows_.keeps, Except.map, sanitized_digits all, if_neg kept]
    exact iff_of_true rfl rfl
  | false =>
    rw [submit, validate_refused filled (by rw [same, matches_])]
    simp [Except.map]

/-- The stored value is a number, and shown and submitted again it is stored again. -/
def Survives (field : PhoneField) (value : String) : Prop :=
  value ≠ "" ∧ AllDigits value.toList ∧ submit field (some (formatPhone (some value))) = .ok (some value)

instance (field : PhoneField) (value : String) : Decidable (Survives field value) :=
  inferInstanceAs (Decidable (_ ∧ AllDigits _ ∧ _))

/-- A stored number is digits only and survives being shown and submitted again, if and only if the text
that stored it has at least seven digits. -/
theorem stored_number_survives_iff (stores : submit field (some submitted) = .ok (some value)) :
    Survives field value ↔ 7 ≤ (submitted.toList.filter Char.isDigit).length := by
  obtain ⟨matches_, rfl⟩ := submit_stores stores
  have short : (submitted.toList.filter Char.isDigit).length ≤ 20 := by
    simp only [matchesPhonePattern, decide_eq_true_eq] at matches_
    rw [← filter_strip]
    exact (List.length_filter_le _ _).trans matches_.2.1
  have all := allDigits_filter submitted.toList
  generalize submitted.toList.filter Char.isDigit = digits at short all ⊢
  constructor
  · rintro ⟨nonempty, -, again⟩
    have some_ : digits ≠ [] := by
      rintro rfl
      exact nonempty rfl
    exact (resubmit_iff some_ all short).mp again
  · intro enough
    have some_ : digits ≠ [] := by
      rintro rfl
      cases enough
    exact ⟨by simpa using some_, by rwa [String.toList_ofList], (resubmit_iff some_ all short).mpr enough⟩

theorem stored_number_survives_seoul : Survives .companyPhone "0212345678" := by
  have stores : submit .companyPhone (some " +02-1234 5678\n") = .ok (some "0212345678") := by decide +kernel
  exact (stored_number_survives_iff stores).mpr (by decide +kernel)

/-- One digit among hyphens is stored and then rejected, and hyphens alone are stored as no number. -/
theorem hyphens_are_stored :
    submit .phone (some "1------") = .ok (some "1") ∧ ¬Survives .phone "1" ∧
      submit .companyPhone (some "-------") = .ok (some "") ∧ ¬Survives .companyPhone "" := by
  decide +kernel

end SogeconApp.Guarantees.PhoneNumbers
