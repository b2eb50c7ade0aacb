import Mathlib.Data.List.Infix
import SogeconApp.Source.Numerals
import SogeconApp.Source.ProfileChanges

/-!
# Asking for a profile change

Source: `apps/api/routers/profile.py` (create_change_request), `services/profile_change_service.py`
(create_change_request) and `schemas.py` (ProfileChangeRequestCreate). The pending request that the
database finds and the outcome of the INSERT are arguments. The new row is pending; its id and the
time of the request are the database's.
-/

namespace SogeconApp.Source.ProfileRequests

open Library ProfileChanges

/-- `int(str)`. -/
def intOf (text : String) : Option Int := Numerals.int text.toList

inductive Refusal where
  | validation
  | conflict (code : String)
  | integrity (message : String)
  deriving DecidableEq, Repr

/-! ## schemas.py -/

structure ProfileChangeRequestCreate where
  fieldName : ProfileField
  newValue : String
  deriving DecidableEq, Repr

def newValueMaxLength : Nat := 255

/-- The bound on the length of what was sent, and then `_strip_and_require`. -/
def ProfileChangeRequestCreate.validate (fieldName : ProfileField) (newValue : String) :
    Except Refusal ProfileChangeRequestCreate :=
  if newValueMaxLength < newValue.toList.length then throw .validation
  else
    let trimmed := MediaPaths.strip newValue.toList
    if trimmed = [] then throw .validation else return { fieldName, newValue := String.ofList trimmed }

/-! ## services/profile_change_service.py -/

/-- `_COHORT_MAX`. -/
def cohortMax : Int := 2147483647

def pendingIndex : String := "uq_profile_change_requests_member_field_pending"

/-- What the database answers to the INSERT and its commit. -/
inductive Insertion where
  | stored
  | violates (message : String)

structure CreatedRequest extends ProfileChangeRequest where
  oldValue : String
  deriving DecidableEq, Repr

def oldValueOf (fieldName : ProfileField) (member : Member) : String :=
  match fieldName with
  | .name => member.name
  | .cohort => toString member.cohort

/-- The conversion and the range of a cohort. -/
def checkCohort (newValue : String) : Except Refusal Unit :=
  match intOf newValue with
  | none => throw (.conflict "profile_change_invalid_cohort")
  | some cohort =>
    if cohort < 1 ∨ cohortMax < cohort then throw (.conflict "profile_change_invalid_cohort") else return ()

/-- The search for a pending request of the member and the field, and the INSERT. -/
def insertRequest (existing : Option ProfileChangeRequest) (insertion : Insertion) (row : CreatedRequest) :
    Except Refusal CreatedRequest :=
  if existing.isSome then throw (.conflict "profile_change_already_pending")
  else
    match insertion with
    | .stored => return row
    | .violates message =>
      if pendingIndex.toList <:+: message.toList then throw (.conflict "profile_change_already_pending")
      else throw (.integrity message)

def createChangeRequest (existing : Option ProfileChangeRequest) (insertion : Insertion) (memberId : Nat)
    (member : Member) (data : ProfileChangeRequestCreate) : Except Refusal CreatedRequest := do
  let oldValue := oldValueOf data.fieldName member
  if data.newValue = oldValue then throw (.conflict "profile_change_same_value")
  if data.fieldName = .cohort then checkCohort data.newValue
  insertRequest existing insertion { memberId, fieldName := data.fieldName, newValue := data.newValue, oldValue }

/-! ## routers/profile.py -/

def postChangeRequest (existing : Option ProfileChangeRequest) (insertion : Insertion) (memberId : Nat)
    (member : Member) (fieldName : ProfileField) (newValue : String) : Except Refusal CreatedRequest := do
  let payload ← ProfileChangeRequestCreate.validate fieldName newValue
  createChangeRequest existing insertion memberId member payload

end SogeconApp.Source.ProfileRequests
