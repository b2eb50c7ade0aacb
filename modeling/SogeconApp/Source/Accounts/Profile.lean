import SogeconApp.Source.Accounts.Signup

/-!
# Accounts: a member's own profile

Source: `apps/api/services/members_service.py` (update_member_profile) and
`repositories/members.py` (update_member_profile). The payload has the fields of the
administrator's one less the name, the cohort and the status; its values are looked up before the
member is loaded.
-/

namespace SogeconApp.Source.Accounts

open Library Program

/-- The payload of a member's own update, less the fields that nothing here reads. -/
structure MemberUpdate where
  email : Field String := none
  phone : Field String := none
  major : Field String := none
  deriving DecidableEq, Repr

def MemberUpdate.fields (payload : MemberUpdate) : AdminMemberUpdate where
  email := payload.email
  phone := payload.phone
  major := payload.major

def repoUpdateMemberProfile (studentId : String) (updates : AdminMemberUpdate) : Handler Unit := do
  let member ← repoGetMember studentId
  if updates = {} then pure () else repoUpdateMemberProfileAdmin studentId member updates

def updateMemberProfile (text : TextRules) (studentId : String) (payload : MemberUpdate) : Handler Unit :=
  if payload = {} then repoUpdateMemberProfile studentId {}
  else do
    ensureEmailFree studentId (sanitize text payload.fields)
    ensurePhoneFree studentId (sanitize text payload.fields)
    (repoUpdateMemberProfile studentId (sanitize text payload.fields)).catchWith memberConflict

/-- The requests by which an e-mail address gets to a member. -/
inductive AddressRequest where
  | createMemberDirect (payload : DirectMemberCreatePayload)
  | createSignupRequest (payload : SignupRequestCreate)
  | approveSignupRequest (id : Nat) (decidedByStudentId : String)
  | updateMemberProfile (studentId : String) (payload : MemberUpdate)
  | updateMemberProfileAdmin (studentId : String) (payload : AdminMemberUpdate)
  deriving DecidableEq

def AddressRequest.program (text : TextRules) : AddressRequest → Handler Unit
  | .createMemberDirect payload => Request.program text (.createMemberDirect payload)
  | .createSignupRequest payload => Request.program text (.createSignupRequest payload)
  | .approveSignupRequest id decidedByStudentId =>
    Request.program text (.approveSignupRequest id decidedByStudentId)
  | .updateMemberProfile studentId payload => Accounts.updateMemberProfile text studentId payload
  | .updateMemberProfileAdmin studentId payload => Accounts.updateMemberProfileAdmin text studentId payload

end SogeconApp.Source.Accounts
