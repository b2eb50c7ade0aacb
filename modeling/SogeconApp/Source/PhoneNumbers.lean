import SogeconApp.Source.Listings
import SogeconApp.Source.PartialUpdates

/-!
# Phone numbers

Source: `apps/api/schemas.py` (_PHONE_PATTERN, normalize_phone_digits, MemberUpdate._validate_phone, which
AdminMemberUpdate inherits), `services/members_service.py` (sanitized_data of the two profile updates), and
the web's `lib/phone-utils.ts` (formatPhone).
-/

namespace SogeconApp.Source.PhoneNumbers

open MediaPaths (Text isSpace)
open Listings (stripText)
open Accounts (orNone)

/-! ## schemas.py -/

def isPhoneChar (char : Char) : Bool := char.isDigit ∨ char = '+' ∨ char = '-' ∨ isSpace char

/-- `_PHONE_PATTERN.fullmatch`. -/
def matchesPhonePattern (text : String) : Bool :=
  7 ≤ text.toList.length ∧ text.toList.length ≤ 20 ∧ text.toList.all isPhoneChar

def normalizePhoneDigits (value : String) : String := String.ofList (value.toList.filter Char.isDigit)

def phoneError : String := "전화번호는 숫자, +, -, 공백으로만 7~20자 입력해주세요."

def validatePhone : Option String → Except String (Option String)
  | none => .ok none
  | some value =>
    let trimmed := stripText value
    if trimmed = "" then .ok none
    else if matchesPhonePattern trimmed = false then .error phoneError
    else .ok (some (normalizePhoneDigits trimmed))

/-! ## services/members_service.py -/

/-- The two fields that the validator checks. -/
inductive PhoneField where
  | phone | companyPhone
  deriving DecidableEq, Repr

/-- What the service sets the column to, of an accepted value. -/
def sanitized : PhoneField → Option String → Option String
  | .phone, value => value.bind fun phone => orNone (stripText (stripText phone))
  | .companyPhone, value => value.map stripText

/-- What submitting a value stores, or the error that rejects it. -/
def submit (field : PhoneField) (value : Option String) : Except String (Option String) :=
  (validatePhone value).map (sanitized field)

/-! ## lib/phone-utils.ts -/

/-- `^(lead)(\d{middle})(\d{last})$`, with a test for each character of the lead. -/
structure PhoneFormat where
  lead : List (Char → Bool)
  middle : Nat
  last : Nat

def PhoneFormat.test (format : PhoneFormat) (digits : Text) : Bool :=
  digits.length = format.lead.length + format.middle + format.last ∧
    (format.lead.zipWith (fun admits char => admits char) digits).all id ∧ digits.all Char.isDigit

/-- `$1-$2-$3`. -/
def PhoneFormat.replace (format : PhoneFormat) (digits : Text) : Text :=
  digits.take format.lead.length ++ '-' :: ((digits.drop format.lead.length).take format.middle ++
    '-' :: (digits.drop format.lead.length).drop format.middle)

/-- `PHONE_FORMATS`. -/
def phoneFormats : List PhoneFormat :=
  [{ lead := [(· = '0'), (· = '1'), Char.isDigit], middle := 4, last := 4 },
    { lead := [(· = '0'), (· = '2')], middle := 4, last := 4 },
    { lead := [(· = '0'), (· = '2')], middle := 3, last := 4 },
    { lead := [(· = '0'), Char.isDigit, Char.isDigit], middle := 4, last := 4 },
    { lead := [(· = '0'), Char.isDigit, Char.isDigit], middle := 3, last := 4 }]

def formatPhone : Option String → String
  | none => ""
  | some raw =>
    if raw = "" then ""
    else
      let digits := raw.toList.filter Char.isDigit
      if digits = [] then raw
      else
        match phoneFormats.find? fun format => format.test digits with
        | some format => String.ofList (format.replace digits)
        | none => raw

end SogeconApp.Source.PhoneNumbers
