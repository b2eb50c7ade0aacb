import SogeconApp.Guarantees.SignIn.Policy
import SogeconApp.Library.Exchanged

/-!
# The passwords that requests hash

Only an activation and a change of a password hash anything, and they hash the password that
the request carries.
-/

namespace SogeconApp.Guarantees.SignIn

open Library Program Policy Source.SignIn
open SogeconApp.Source.Accounts (Failure)
open SogeconApp.Source.Auth (CurrentUser MemberRow Session)

variable {rules : Rules} {kind : Stmt → Prop} {α : Type}

/-- The new password that a request carries. -/
def carriedPassword : Request → Option NewPassword
  | .activate _ password | .changePassword _ password => some password
  | _ => none

/-- What a request may hash. -/
def HashesOwn (request : Request) : Stmt → Prop
  | .hashpw encoded => ∃ password, carriedPassword request = some password ∧
      encodePasswordForHash password.password = some encoded
  | _ => True

/-! ## Sessions and responses -/

/-- The services of the accounts hash nothing; they are given the hash. -/
theorem lift_free (account : ∀ stmt, kind (.account stmt)) (program : Source.Accounts.Handler α) :
    Within kind (lift program) := by
  unfold Within
  induction program with
  | ret value => trivial
  | raise reason => trivial
  | exec stmt next ih => exact ⟨account stmt, fun reply _ _ => ih reply⟩

theorem attempt_within {program : Handler α} (within : Within kind program) : Within kind (attempt program) :=
  Within.catch (within.bind fun _ => .ret) fun _ => .ret

theorem sessionRow_within (account : ∀ stmt, kind (.account stmt)) (session : Session) :
    Within kind (sessionRow rules session) := by
  unfold sessionRow
  split
  · exact Within.bind (.ask (account _)) fun _ => .ret
  · exact .ret

/-- A checked route issues what its check and its body do. -/
theorem guarded_within {check : List MemberRow → Source.Auth.Handler α} {body : α → Session → Handler Response}
    (account : ∀ stmt, kind (.account stmt)) (bodies : ∀ actor session, Within kind (body actor session))
    (session : Session) : Within kind (guarded rules check body session) := by
  unfold guarded
  refine (sessionRow_within account session).bind fun row => ?_
  split
  · exact .ret
  · exact (attempt_within (bodies _ _)).bind fun _ => .ret

theorem signedIn_within {signs : Handler CurrentUser} (within : Within kind signs) (session : Session) :
    Within kind (signedIn signs session) := by
  unfold signedIn
  refine (attempt_within within).bind fun outcome => ?_
  cases outcome <;> exact .ret

/-- A request receives its session, runs its route and responds. -/
theorem serve_within {endpoint : Endpoint} (receives : kind .receive)
    (responds : ∀ session outcome, kind (.respond session outcome))
    (within : ∀ session, Within kind (endpoint session)) :
    Within kind (serve endpoint) := by
  unfold serve
  refine Within.bind (.ask receives) fun session => (within session).bind fun done => ?_
  obtain ⟨outcome, after⟩ := done
  cases outcome with
  | ok response => exact .ask (responds _ _)
  | error reason =>
    dsimp only
    split
    · exact .ask (responds _ _)
    · exact .raise

/-! ## Passwords -/

theorem verifyPassword_within (checks : ∀ encoded passwordHash, kind (.checkpw encoded passwordHash))
    (password passwordHash : String) : Within kind (verifyPassword password passwordHash) :=
  Within.bind (.ask (checks _ _)) fun _ => .ret

/-- The only password that is hashed is the one that is given. -/
theorem hashPassword_within {password : NewPassword}
    (hashes : ∀ encoded, encodePasswordForHash password.password = some encoded → kind (.hashpw encoded)) :
    Within kind (hashPassword password.password) := by
  unfold hashPassword
  split
  · next encoded accepted => exact .ask (hashes encoded accepted)
  · exact .raise

theorem loginMember_within (request : Request) (studentId password : String) :
    Within (HashesOwn request) (loginMember rules studentId password) := by
  unfold loginMember
  refine Within.bind (.ask trivial) fun _ => Within.bind (.ask trivial) fun member =>
    Within.bind (.ask trivial) fun creds => ?_
  split
  · refine (verifyPassword_within (fun _ _ => trivial) password _).bind fun matched => ?_
    split
    · exact .raise
    · split
      · exact .raise
      · split
        · exact .raise
        · split
          · exact .raise
          · exact .ret
  · exact .raise

theorem activateMember_within {request : Request} {password : NewPassword}
    (own : carriedPassword request = some password)
    (token : Option Source.Accounts.ActivationPayload) :
    Within (HashesOwn request) (activateMember rules token password) := by
  have account : ∀ stmt, HashesOwn request (.account stmt) := fun _ => trivial
  unfold activateMember
  refine Within.bind (.ask trivial) fun _ => ?_
  cases token with
  | none => exact .raise
  | some payload =>
    refine Within.bind (lift_free account _) fun row => Within.bind (lift_free account _) fun member => ?_
    refine (hashPassword_within fun encoded accepted => ⟨password, own, accepted⟩).bind fun passwordHash => ?_
    refine Within.bind (lift_free account _) fun _ => ?_
    exact Within.bind (.ask trivial) fun _ => Within.bind (.ask trivial) fun _ =>
      Within.bind (.ask trivial) fun _ =>
      Within.bind (.ask trivial) fun _ => .ret

/-- A change of the password hashes the new one that it brings, not the current one. -/
theorem changeMemberPassword_within {request : Request} {password : NewPassword}
    (own : carriedPassword request = some password) (member : Source.Auth.CurrentMember)
    (currentPassword : String) :
    Within (HashesOwn request) (changeMemberPassword member currentPassword password) := by
  unfold changeMemberPassword
  refine Within.bind (.ask trivial) fun _ => Within.bind (.ask trivial) fun auth => ?_
  cases auth with
  | none => exact .raise
  | some auth =>
    refine (verifyPassword_within (fun _ _ => trivial) currentPassword _).bind fun matched => ?_
    split
    · exact .raise
    · refine (hashPassword_within fun encoded accepted => ⟨password, own, accepted⟩).bind fun newHash => ?_
      exact Within.bind (.ask trivial) fun _ => .ask trivial

/-! ## All routes -/

/-- Every route hashes the password of its request, if it hashes any. -/
theorem endpoint_within (request : Request) (session : Session) :
    Within (HashesOwn request) (request.endpoint rules session) := by
  have account : ∀ stmt, HashesOwn request (.account stmt) := fun _ => trivial
  have decides {β : Type} (program : Source.Accounts.Handler β) : Within (HashesOwn request) (decided program) :=
    (lift_free account program).bind fun _ => .ret
  cases request with
  | login studentId password => exact signedIn_within (loginMember_within _ studentId password) session
  | logout => exact .ret
  | activate token password => exact signedIn_within (activateMember_within rfl token) session
  | changePassword currentPassword newPassword =>
    refine guarded_within account (fun member _ => ?_) session
    exact (changeMemberPassword_within rfl member currentPassword).bind fun _ => .ret
  | me => exact guarded_within account (fun _ _ => .ret) session
  | memberMe =>
    refine guarded_within account (fun member after => ?_) session
    unfold getMemberEmail
    split
    · exact .ret
    · exact .raise
    · exact (lift_free account _).bind fun _ => .ret
  | session =>
    refine (sessionRow_within account session).bind fun row => ?_
    split <;> exact .ret
  | memberSignup payload => exact (attempt_within (decides _)).bind fun _ => .ret
  | approveSignupRequest _ | rejectSignupRequest _ _ | reissueSignupActivationToken _ | createMemberDirect _
  | updateMemberAdmin _ _ | updateMemberRoles _ _ => exact guarded_within account (fun _ _ => decides _) session

theorem request_within (request : Request) : Within (HashesOwn request) (request.program rules) :=
  serve_within trivial (fun _ _ => trivial) (endpoint_within request)

/-- In every interleaving, what a session has hashed is the new password that its own request carries. -/
theorem hashed_own {db : Source.Accounts.World} {requests : SessionId → Option Request}
    {actions : List (Action (machine rules).traced)} {after : Config (machine rules).traced Unit}
    (reached : (start rules db requests).run actions = some after) {me : SessionId}
    {encoded : FormUrlencoded.Bytes}
    {passwordHash : String} (hashed : (me, ⟨.hashpw encoded, passwordHash⟩) ∈ after.world.2) :
    ∃ request password, requests me = some request ∧ carriedPassword request = some password ∧
      encodePasswordForHash password.password = some encoded := by
  have within : ∀ other program, (start rules db requests).pool other = some program →
      Within (fun stmt => ∃ request, requests other = some request ∧ HashesOwn request stmt) program := by
    intro other program running
    obtain ⟨request, asked, rfl⟩ := Option.map_eq_some_iff.mp running
    exact (request_within request).weaken fun stmt own => ⟨request, asked, own⟩
  obtain ⟨request, asked, password, own, accepted⟩ :=
    Within.run rfl within reached ⟨.hashpw encoded, passwordHash⟩ hashed
  exact ⟨request, password, asked, own, accepted⟩

end SogeconApp.Guarantees.SignIn
