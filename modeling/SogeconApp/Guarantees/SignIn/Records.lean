import SogeconApp.Guarantees.SignIn.Provenance

/-!
# Passwords and decisions have an author

A stored password was set by an activation of an approved request, or by a signed-in student who gave the
stored password; a decision or an issued token bears the name of a signed-in reviewer who made it.
-/

namespace SogeconApp.Guarantees.SignIn

open Library Program Policy Source.SignIn
open SogeconApp.Source.Accounts (Failure MemberAuth SignupActivationIssueLog SignupRequest)

variable {rules : Source.SignIn.Rules} {first db : Source.Accounts.World} {trace later : Trace signIn}
  {me : SessionId}
  {studentId : String}

/-- The statement stores the hash for the student. -/
def StoresHash (studentId passwordHash : String) : Stmt → Prop
  | .account (.insertAuth _ owner row) => owner = studentId ∧ row.passwordHash = passwordHash
  | .account (.updateAuth _ owner hash) => owner = studentId ∧ hash = passwordHash
  | .changeAuth owner hash => owner = studentId ∧ hash = passwordHash
  | _ => False

/-- What a request has done before it stores a hash for the student: it has hashed a password that the policy
accepts, and it activates an approved request of the student, or acts for the signed-in student and has
verified the password stored then. -/
def MayStore (rules : Source.SignIn.Rules) (studentId passwordHash : String) (earlier : Trace signIn)
    (me : SessionId) : Prop :=
  Hashed (Trace.own me earlier) passwordHash ∧
    ((∃ id, Activating (Trace.own me earlier) id studentId) ∨
      SignedIn earlier studentId ∧ Verified (Trace.own me earlier) studentId ∧
        ∃ user, Acting rules (Trace.own me earlier) user ∧ user.studentId = studentId)

/-- The session stored the hash for the student, for a reason. -/
def PasswordSetBy (rules : Source.SignIn.Rules) (trace : Trace signIn) (studentId passwordHash : String)
    (author : SessionId) : Prop :=
  ∃ stmt, StoresHash studentId passwordHash stmt ∧
    Trace.By trace stmt fun earlier me => me = author ∧ MayStore rules studentId passwordHash earlier me

/-- Some request stored the hash for the student, for a reason. -/
def PasswordSet (rules : Source.SignIn.Rules) (trace : Trace signIn) (studentId passwordHash : String) : Prop :=
  ∃ author, PasswordSetBy rules trace studentId passwordHash author

/-- The request acts for the reviewer, who signed in before. -/
def Reviewed (rules : Source.SignIn.Rules) (actor : String) (earlier : Trace signIn) (me : SessionId) : Prop :=
  Reviewer rules (Trace.own me earlier) actor ∧ SignedIn earlier actor

/-- A request that acts for the reviewer wrote the decision on the signup request, in the reviewer's name. -/
def Decided (rules : Source.SignIn.Rules) (trace : Trace signIn) (id : Nat) (actor : String) : Prop :=
  ∃ loaded latest, latest.decidedByStudentId = some actor ∧
    (latest.status = .approved ∨ latest.status = .rejected) ∧
    Trace.By trace (.account (.flushSignupRequest id loaded latest)) (Reviewed rules actor)

/-- A request that acts for the issuer wrote the log. -/
def Issued (rules : Source.SignIn.Rules) (trace : Trace signIn) (log : SignupActivationIssueLog) : Prop :=
  Trace.By trace (.account (.insertIssueLog log)) (Reviewed rules log.issuedByStudentId)

/-- A password that a trace shows to be set is shown by every longer one. -/
theorem PasswordSet.append {passwordHash : String} (set_ : PasswordSet rules trace studentId passwordHash) :
    PasswordSet rules (trace ++ later) studentId passwordHash := by
  obtain ⟨author, stmt, stores, by_⟩ := set_
  exact ⟨author, stmt, stores, by_.append⟩

theorem Decided.append {id : Nat} {actor : String} (decided : Decided rules trace id actor) :
    Decided rules (trace ++ later) id actor := by
  obtain ⟨loaded, latest, named, status, by_⟩ := decided
  exact ⟨loaded, latest, named, status, by_.append⟩

theorem Issued.append {log : SignupActivationIssueLog} (issued : Issued rules trace log) :
    Issued rules (trace ++ later) log := Trace.By.append issued

section Authored

variable (rules : Source.SignIn.Rules) (first : Source.Accounts.World) (trace : Trace signIn)

/-- The password of the start, or one that was set. -/
def AuthoredAuth (studentId : String) : Option MemberAuth → Prop
  | none => first.auths.committed studentId = none
  | some auth => first.auths.committed studentId = some auth ∨ PasswordSet rules trace studentId auth.passwordHash

/-- Whoever decided did so before the start, or as a reviewer. -/
def AuthoredRequest (id : Nat) (version : Option SignupRequest) : Prop :=
  ∀ row actor, version = some row → row.decidedByStudentId = some actor →
    (∃ before, first.signupRequests.committed id = some before ∧ before.decidedByStudentId = some actor) ∨
      Decided rules trace id actor

def AuthoredLog (id : Nat) (version : Option SignupActivationIssueLog) : Prop :=
  ∀ row, version = some row → first.issueLogs.committed id = some row ∨ Issued rules trace row

def authored : Rows where
  request := AuthoredRequest rules first trace
  issueLog := AuthoredLog rules first trace
  auth := AuthoredAuth rules first trace

end Authored

/-- What a trace says of the authors of the rows, a longer one says too. -/
theorem authored_append (hold : (authored rules first trace).Hold db) :
    (authored rules first (trace ++ later)).Hold db := by
  refine hold.mono (fun _ _ => id) (fun id version holds row actor stored named => ?_)
    (fun id version holds row stored => ?_) fun studentId version holds => ?_
  · exact (holds row actor stored named).imp_right Decided.append
  · exact (holds row stored).imp_right Issued.append
  · cases version with
    | none => exact holds
    | some auth => exact Or.imp_right PasswordSet.append holds

/-- Once it is answered, what may be written has its author. -/
theorem mayWrite_authored {stmt : Stmt} {reply : Reply stmt} (justified : (routes rules).Justifies trace)
    (circulated : Trace.Each Circulated trace) (may : May rules (Trace.own me trace) stmt)
    (hold : (authored rules first trace).Hold db) :
    (authored rules first (trace ++ Trace.recorded (S := signIn) me stmt
      (.ok reply))).RequestWrites me db stmt := by
  have reviewed {actor : String} (reviewer : Reviewer rules (Trace.own me trace) actor) : Reviewed rules
    actor trace me := by
    refine ⟨reviewer, ?_⟩
    obtain ⟨user, acting, rfl, -⟩ := reviewer
    exact presented_signedIn justified circulated acting.1
  have now {reason : Trace signIn → SessionId → Prop} (holds : reason trace me) :
      Trace.By (trace ++ Trace.recorded (S := signIn) me stmt (.ok reply)) stmt reason :=
    Trace.By.last (S := signIn) reply holds
  cases stmt with
  | account stmt =>
    cases stmt with
    | insertSignupRequest row =>
      rintro other actor same named
      cases same
      rw [may.1] at named
      cases named
    | flushSignupRequest id loaded latest =>
      rintro stored seen other actor same named
      cases same
      have read := hold.requests.row me id
      rw [seen] at read
      have written : (Source.Accounts.flushedRequest loaded latest stored).decidedByStudentId =
          if latest.decidedByStudentId = loaded.decidedByStudentId then stored.decidedByStudentId
          else latest.decidedByStudentId := rfl
      rw [written] at named
      split at named
      · exact (read stored actor rfl named).imp_right Decided.append
      · next differs =>
        rcases may with ⟨reviewer, acts, decides, status⟩ | ⟨-, same, -⟩
        · rw [decides] at named
          cases named
          exact .inr ⟨loaded, latest, decides, status, now (reviewed acts)⟩
        · exact absurd same differs
    | insertIssueLog row =>
      rintro other same
      cases same
      exact .inr (now (reviewed may))
    | insertAuth id studentId row =>
      exact .inr ⟨me, .account (.insertAuth id studentId row), ⟨rfl, rfl⟩, now ⟨rfl, may.2, .inl ⟨id, may.1⟩⟩⟩
    | updateAuth id studentId passwordHash =>
      exact .inr ⟨me, .account (.updateAuth id studentId passwordHash), ⟨rfl, rfl⟩,
        now ⟨rfl, may.2, .inl ⟨id, may.1⟩⟩⟩
    | insertMember _ _ => exact fun _ => trivial
    | flushMember _ _ _ => exact fun _ _ => trivial
    | _ => trivial
  | changeAuth studentId passwordHash =>
    obtain ⟨⟨user, acting, rfl⟩, verified, hashed⟩ := may
    have signed := presented_signedIn justified circulated acting.1
    exact .inr ⟨me, .changeAuth user.studentId passwordHash, ⟨rfl, rfl⟩,
      now ⟨rfl, hashed, .inr ⟨signed, verified, user, acting, rfl⟩⟩⟩
  | _ => trivial

/-- Over every interleaving each password, decision and token in the tables has its author in the trace.
-/
theorem authored_keeps : (routes rules).Keeps (machine rules) fun world trace =>
    Cookies world trace ∧ (authored rules first trace).Hold world.db where
  exec world trace me stmt choice reply world' inv justified allowed done := by
    refine ⟨cookies_keeps.exec world trace me stmt choice reply world' inv.1 justified allowed done, ?_⟩
    have before : (authored rules first (trace ++ Trace.recorded me stmt reply)).Hold world.db :=
      authored_append inv.2
    refine before.exec (fun answer answered => ?_) done
    subst answered
    exact mayWrite_authored justified inv.1.circulated allowed inv.2
  close world trace me inv := ⟨cookies_keeps.close world trace me inv.1, inv.2.rollback⟩
  crash world trace me inv := ⟨cookies_keeps.crash world trace me inv.1, inv.2.rollback⟩
  outside world trace change inv := nomatch change

theorem run_authored {requests : SessionId → Option Request} {actions : List (Action (machine rules).traced)}
    {after : Config (machine rules).traced Unit} (rest : Rows.AtRest db)
    (reached : (start rules db requests).run actions = some after) :
    (authored rules db after.world.2).Hold after.world.1.db := by
  have begins : Cookies { db, issued := [] } [] ∧ (authored rules db []).Hold db := by
    refine ⟨⟨by simp, Trace.each_nil⟩, rest.members.versions fun _ => trivial, rest.requests.versions ?_,
      rest.issueLogs.versions ?_, rest.auths.versions ?_⟩
    · exact fun id row actor stored named => .inl ⟨row, stored, named⟩
    · exact fun id row stored => .inl stored
    · intro studentId
      cases stored : db.auths.committed studentId with
      | none => exact stored
      | some auth => exact .inl stored
  exact (authored_keeps.run rfl begins (follows db requests) reached).1.2

/-- A stored password that is not of the start was hashed from one that the policy accepts, in the activation of
an approved request of the student, or by the signed-in student who gave the password stored then. -/
theorem credential_provenance (rules : Source.SignIn.Rules) (db : Source.Accounts.World) (rest : Rows.AtRest db)
    (requests : SessionId → Option Request) (actions : List (Action (machine rules).traced))
    (after : Config (machine rules).traced Unit) (reached : (start rules db requests).run actions = some after)
    (studentId : String) (auth : MemberAuth) (stored : after.world.1.db.auths.committed studentId = some auth) :
    db.auths.committed studentId = some auth ∨ PasswordSet rules after.world.2 studentId auth.passwordHash := by
  have holds := (run_authored rest reached).auths.committed studentId
  rw [stored] at holds
  exact holds

def newPassword : NewPassword := ⟨"new password", by decide⟩

/-- The first request signs in, the second changes the password. -/
def changingRequests : SessionId → Option Request
  | 0 => some (.login "s" "password")
  | 1 => some (.changePassword "password" newPassword)
  | _ => none

def signInAndChange : List (Action (machine sampleRules).traced) :=
  List.replicate 6 (.exec 0 {}) ++ .exec 1 { cookie := some 0 } :: List.replicate 7 (.exec 1 { salt := 1 })

theorem credential_provenance_changed : ∃ after,
    (start sampleRules sampleAccounts changingRequests).run signInAndChange = some after ∧
    after.world.1.db.auths.committed "s" = some { passwordHash := "1new password" } ∧
    PasswordSet sampleRules after.world.2 "s" "1new password" := by
  have stored : ((start sampleRules sampleAccounts changingRequests).run signInAndChange).map
      (fun after => after.world.1.db.auths.committed "s") =
        some (some { passwordHash := "1new password" }) := by rfl
  obtain ⟨after, reached, same⟩ := Option.map_eq_some_iff.mp stored
  have other : sampleAccounts.auths.committed "s" ≠ some { passwordHash := "1new password" } := by decide
  exact ⟨after, reached, same, (credential_provenance sampleRules sampleAccounts sampleAccounts_atRest
    changingRequests signInAndChange
    after reached "s" _ same).resolve_left other⟩

/-- A decision that is not of the start, and an issued token that is not, bears the name of a member who signed
in and held the permission, as the row said that the request found. -/
theorem decision_attribution (rules : Source.SignIn.Rules) (db : Source.Accounts.World) (rest : Rows.AtRest db)
    (requests : SessionId → Option Request) (actions : List (Action (machine rules).traced))
    (after : Config (machine rules).traced Unit)
    (reached : (start rules db requests).run actions = some after) (id : Nat) :
    (∀ row actor, after.world.1.db.signupRequests.committed id = some row → row.decidedByStudentId = some actor →
      (∃ before, db.signupRequests.committed id = some before ∧ before.decidedByStudentId = some actor) ∨
        Decided rules after.world.2 id actor) ∧
    ∀ log, after.world.1.db.issueLogs.committed id = some log →
      db.issueLogs.committed id = some log ∨ Issued rules after.world.2 log := by
  have holds := run_authored rest reached
  exact ⟨fun row actor stored named => holds.requests.committed id row actor stored named,
    fun log stored => holds.issueLogs.committed id log stored⟩

/-- A reviewer, and a pending request. -/
def reviewAccounts : Source.Accounts.World :=
  { sampleAccounts with
    members := Table.seeded [("s", { sampleMember with roles := ["member", "admin_signup"] })]
    signupRequests :=
      Table.seeded [(0, { studentId := "t", email := "t@example.com", name := "t", cohort := 20 })]
    nextRequest := 1 }

/-- The first request signs in, the second approves. -/
def reviewingRequests : SessionId → Option Request
  | 0 => some (.login "s" "password")
  | 1 => some (.approveSignupRequest 0)
  | _ => none

def signInAndApprove : List (Action (machine sampleRules).traced) :=
  List.replicate 6 (.exec 0 {}) ++ .exec 1 { cookie := some 0 } :: List.replicate 11 (.exec 1 {})

theorem decision_attribution_approved : ∃ after,
    (start sampleRules reviewAccounts reviewingRequests).run signInAndApprove = some after ∧
    (after.world.1.db.signupRequests.committed 0).map (fun row => (row.status, row.decidedByStudentId)) =
      some (.approved, some "s") ∧ Decided sampleRules after.world.2 0 "s" := by
  have decided : ((start sampleRules reviewAccounts reviewingRequests).run signInAndApprove).map (fun after =>
      (after.world.1.db.signupRequests.committed 0).map fun row => (row.status, row.decidedByStudentId)) =
      some (some (.approved, some "s")) := by rfl
  obtain ⟨after, reached, same⟩ := Option.map_eq_some_iff.mp decided
  have rest : Rows.AtRest reviewAccounts :=
    ⟨Table.seeded_quiet _, Table.seeded_quiet _, fun _ => rfl, Table.seeded_quiet _⟩
  obtain ⟨row, stored, named⟩ := Option.map_eq_some_iff.mp same
  simp only [Prod.mk.injEq] at named
  refine ⟨after, reached, same, ?_⟩
  rcases (decision_attribution sampleRules reviewAccounts rest reviewingRequests signInAndApprove after
    reached 0).1
    row "s" stored named.2 with before | reviewed
  · obtain ⟨before, found, decided⟩ := before
    have pending : (reviewAccounts.signupRequests.committed 0).map (·.decidedByStudentId) = some none := by rfl
    rw [found, Option.map_some, decided] at pending
    cases pending
  · exact reviewed

end SogeconApp.Guarantees.SignIn
