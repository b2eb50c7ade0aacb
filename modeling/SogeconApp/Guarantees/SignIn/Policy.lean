import SogeconApp.Guarantees.SessionAuthority
import SogeconApp.Source.SignIn

/-!
# What a request may do

Each statement that writes, and each response, needs a reason among the exchanges of its own request: the
cookie presented, the rows read, the passwords checked. Every route follows this policy.
-/

namespace SogeconApp.Guarantees.SignIn

open Library Program Library.FormUrlencoded Source.SignIn
open SogeconApp.Source.Accounts (ActivationPayload Failure MemberAuth SignupRequest)
open SogeconApp.Source.Auth (CurrentAdmin CurrentMember CurrentUser Session getUserSession)

/-- What a request has exchanged. -/
abbrev Known := List (Exchange signIn)

section Reasons

variable (rules : Rules) (known : Known)

/-- The cookie has the entry of the student. -/
def Presented (studentId : String) : Prop :=
  ∃ session user, ⟨.receive, session⟩ ∈ known ∧ getUserSession rules.toSessionRules session = .ok (some user) ∧
    user.studentId = studentId

/-- The row was found active. -/
def Active (studentId : String) (row : Source.Accounts.Member) : Prop :=
  ⟨.account (.getMember studentId), some row⟩ ∈ known ∧ row.status = .active

/-- The request acts for the user that the cookie and the row make. -/
def Acting (user : CurrentUser) : Prop :=
  Presented rules known user.studentId ∧
    ∃ row, Active known user.studentId row ∧ user = refreshed rules user.studentId row

def SuperAdmin : Prop := ∃ user, Acting rules known user ∧ "super_admin" ∈ user.roles

def Reviewer (studentId : String) : Prop :=
  ∃ user, Acting rules known user ∧ user.studentId = studentId ∧
    Source.Auth.hasPermission rules.toTextRules user.roles "admin_signup" false = true

/-- bcrypt found the password to be the stored one. -/
def Verified (studentId : String) : Prop :=
  ∃ auth password, ⟨.account (.getAuth studentId), some auth⟩ ∈ known ∧
    ⟨.checkpw ((utf8 password).take bcryptMaxPasswordBytes) auth.passwordHash, some true⟩ ∈ known

def LoggedIn (studentId : String) : Prop :=
  Verified known studentId ∧ ∃ row, Active known studentId row

/-- An approved request of an active member was found. -/
def Activating (id : Nat) (studentId : String) : Prop :=
  (∃ row : SignupRequest, ⟨.account (.getSignupRequest id), some row⟩ ∈ known ∧ row.studentId = studentId ∧
    row.status = .approved) ∧ ∃ row, Active known studentId row

/-- The request has been marked as activated. -/
def Activated (studentId : String) : Prop :=
  ∃ id, Activating known id studentId ∧ ∃ loaded latest, latest.status = .activated ∧
    ⟨.account (.flushSignupRequest id loaded latest), ()⟩ ∈ known

/-- bcrypt made the hash of a password that the policy accepts. -/
def Hashed (passwordHash : String) : Prop :=
  ∃ password encoded, encodePasswordForHash password = some encoded ∧ ⟨.hashpw encoded, passwordHash⟩ ∈ known

/-- What a response tells is of the user that the request acts for. -/
def Told : Except Failure Response → Prop
  | .ok (.session info) => ∃ user row, Acting rules known user ∧ Active known user.studentId row ∧
      user = refreshed rules user.studentId row ∧ info = sessionInfo rules user row
  | .ok (.me id _) => ∃ user, Acting rules known user ∧ ("admin" ∈ user.roles ∨ "super_admin" ∈ user.roles) ∧
      id = rules.idOf user.studentId
  | .ok (.email email) => ∃ user row, Acting rules known user ∧
      ⟨.account (.getMember user.studentId), some row⟩ ∈ known ∧ email = row.email.getD ""
  | _ => True

/-- A cookie is for the student of the presented one, or of a sign-in. -/
def Entitled (session : Session) : Prop :=
  ∀ user, getUserSession rules.toSessionRules session = .ok (some user) →
    Presented rules known user.studentId ∨ LoggedIn known user.studentId ∨ Activated known user.studentId

def MayWrite : Source.Accounts.Stmt → Prop
  | .insertMember _ row => SuperAdmin rules known ∨ row.roles = ["member"] ∧ ∃ actor, Reviewer rules known actor
  | .flushMember _ loaded latest =>
    SuperAdmin rules known ∨ latest.roles = loaded.roles ∧ ∃ actor, Reviewer rules known actor
  | .insertSignupRequest row => row.decidedByStudentId = none ∧ (row.status = .pending ∨ SuperAdmin rules known)
  | .flushSignupRequest id loaded latest =>
    (∃ actor, Reviewer rules known actor ∧ latest.decidedByStudentId = some actor ∧
      (latest.status = .approved ∨ latest.status = .rejected)) ∨
    latest.status = .activated ∧ latest.decidedByStudentId = loaded.decidedByStudentId ∧
      ∃ studentId, Activating known id studentId
  | .insertIssueLog row => Reviewer rules known row.issuedByStudentId
  | .insertAuth id studentId row => Activating known id studentId ∧ Hashed known row.passwordHash
  | .updateAuth id studentId passwordHash => Activating known id studentId ∧ Hashed known passwordHash
  | _ => True

def May : Stmt → Prop
  | .account stmt => MayWrite rules known stmt
  | .changeAuth studentId passwordHash =>
    (∃ user, Acting rules known user ∧ user.studentId = studentId) ∧ Verified known studentId ∧
      Hashed known passwordHash
  | .respond session outcome => Entitled rules known session ∧ Told rules known outcome
  | _ => True

end Reasons

variable {rules : Rules} {known later : Known} {studentId : String}

section More

variable (sub : known ⊆ later)
include sub

theorem Presented.more (presented : Presented rules known studentId) : Presented rules later studentId := by
  obtain ⟨session, user, received, found, same⟩ := presented
  exact ⟨session, user, sub received, found, same⟩

theorem Active.more {row : Source.Accounts.Member} (active : Active known studentId row) :
    Active later studentId row :=
  ⟨sub active.1, active.2⟩

/-- A reason stays one when the request learns more: what it has exchanged is only added to. -/
theorem Acting.more {user : CurrentUser} (acting : Acting rules known user) : Acting rules later user := by
  obtain ⟨presented, row, active, same⟩ := acting
  exact ⟨presented.more sub, row, active.more sub, same⟩

theorem SuperAdmin.more (super : SuperAdmin rules known) : SuperAdmin rules later := by
  obtain ⟨user, acting, listed⟩ := super
  exact ⟨user, acting.more sub, listed⟩

theorem Reviewer.more (reviewer : Reviewer rules known studentId) : Reviewer rules later studentId := by
  obtain ⟨user, acting, same, permitted⟩ := reviewer
  exact ⟨user, acting.more sub, same, permitted⟩

theorem Verified.more (verified : Verified known studentId) : Verified later studentId := by
  obtain ⟨auth, password, read, matched⟩ := verified
  exact ⟨auth, password, sub read, sub matched⟩

theorem LoggedIn.more (loggedIn : LoggedIn known studentId) : LoggedIn later studentId := by
  obtain ⟨verified, row, active⟩ := loggedIn
  exact ⟨verified.more sub, row, active.more sub⟩

theorem Activating.more {id : Nat} (activating : Activating known id studentId) :
    Activating later id studentId := by
  obtain ⟨⟨row, read, ofStudent, approved⟩, member, active⟩ := activating
  exact ⟨⟨row, sub read, ofStudent, approved⟩, member, active.more sub⟩

theorem Activated.more (activated : Activated known studentId) : Activated later studentId := by
  obtain ⟨id, activating, loaded, latest, marked, flushed⟩ := activated
  exact ⟨id, activating.more sub, loaded, latest, marked, sub flushed⟩

theorem Hashed.more {passwordHash : String} (hashed : Hashed known passwordHash) : Hashed later passwordHash := by
  obtain ⟨password, encoded, accepted, made⟩ := hashed
  exact ⟨password, encoded, accepted, sub made⟩

theorem Told.more {outcome : Except Failure Response} (told : Told rules known outcome) :
    Told rules later outcome := by
  cases outcome with
  | error reason => trivial
  | ok response =>
    cases response with
    | ok | noContent => trivial
    | session info =>
      obtain ⟨user, row, acting, active, same⟩ := told
      exact ⟨user, row, acting.more sub, active.more sub, same⟩
    | me id email =>
      obtain ⟨user, acting, admin⟩ := told
      exact ⟨user, acting.more sub, admin⟩
    | email email =>
      obtain ⟨user, row, acting, read, same⟩ := told
      exact ⟨user, row, acting.more sub, sub read, same⟩

theorem Entitled.more {session : Session} (entitled : Entitled rules known session) :
    Entitled rules later session := by
  intro user found
  rcases entitled user found with presented | loggedIn | activated
  · exact .inl (presented.more sub)
  · exact .inr (.inl (loggedIn.more sub))
  · exact .inr (.inr (activated.more sub))

/-- What a request was allowed to write it stays allowed to write. -/
theorem MayWrite.more {stmt : Source.Accounts.Stmt} (may : MayWrite rules known stmt) :
    MayWrite rules later stmt := by
  have reviewed : (∃ actor, Reviewer rules known actor) → ∃ actor, Reviewer rules later actor := by
    rintro ⟨actor, reviewer⟩
    exact ⟨actor, reviewer.more sub⟩
  cases stmt with
  | insertMember studentId row => exact may.imp (·.more sub) fun ⟨same, actor⟩ => ⟨same, reviewed actor⟩
  | flushMember studentId loaded latest => exact may.imp (·.more sub) fun ⟨same, actor⟩ => ⟨same, reviewed actor⟩
  | insertSignupRequest row => exact ⟨may.1, may.2.imp id (·.more sub)⟩
  | flushSignupRequest id loaded latest =>
    rcases may with ⟨actor, reviewer, decides⟩ | ⟨activates, same, studentId, activating⟩
    · exact .inl ⟨actor, reviewer.more sub, decides⟩
    · exact .inr ⟨activates, same, studentId, activating.more sub⟩
  | insertIssueLog row => exact Reviewer.more sub may
  | insertAuth id studentId row => exact ⟨may.1.more sub, may.2.more sub⟩
  | updateAuth id studentId passwordHash => exact ⟨may.1.more sub, may.2.more sub⟩
  | _ => trivial

theorem May.more {stmt : Stmt} (may : May rules known stmt) : May rules later stmt := by
  cases stmt with
  | account stmt => exact MayWrite.more sub may
  | changeAuth studentId passwordHash =>
    obtain ⟨⟨user, acting, same⟩, verified, hashed⟩ := may
    exact ⟨⟨user, acting.more sub, same⟩, verified.more sub, hashed.more sub⟩
  | respond session outcome => exact ⟨may.1.more sub, may.2.more sub⟩
  | _ => trivial

end More

/-- The policy of the routes. -/
def routes (rules : Rules) : Policy signIn where
  allow := May rules
  mono sub may := May.more sub may

end SogeconApp.Guarantees.SignIn
