import SogeconApp.Library.Versions
import SogeconApp.Source.SignIn

/-!
# Every version of every row

What holds of the committed and drafted rows of the four tables is kept by a statement whose write has it.
-/

namespace SogeconApp.Guarantees.SignIn

open Library Source.SignIn
open SogeconApp.Source.Accounts (Failure Member MemberAuth SignupActivationIssueLog SignupRequest flushedMember
  flushedRequest)

/-- What is to hold of the versions in each table. -/
structure Rows where
  member : String → Option Member → Prop := fun _ _ => True
  request : Nat → Option SignupRequest → Prop := fun _ _ => True
  issueLog : Nat → Option SignupActivationIssueLog → Prop := fun _ _ => True
  auth : String → Option MemberAuth → Prop := fun _ _ => True

namespace Rows

variable {P Q : Rows} {me : SessionId} {db db' : Source.Accounts.World}

structure Hold (P : Rows) (db : Source.Accounts.World) : Prop where
  members : db.members.Versions P.member
  requests : db.signupRequests.Versions P.request
  issueLogs : db.issueLogs.Versions P.issueLog
  auths : db.auths.Versions P.auth

/-- No transaction is open. -/
structure AtRest (db : Source.Accounts.World) : Prop where
  members : db.members.Quiet
  requests : db.signupRequests.Quiet
  issueLogs : db.issueLogs.Quiet
  auths : db.auths.Quiet

/-- The row that the statement writes. -/
def Writes (P : Rows) (me : SessionId) (db : Source.Accounts.World) : Source.Accounts.Stmt → Prop
  | .insertMember studentId row => db.members.row me studentId = none → P.member studentId (some row)
  | .flushMember studentId loaded latest => ∀ stored, db.members.row me studentId = some stored →
      P.member studentId (some (flushedMember loaded latest stored))
  | .insertSignupRequest row => P.request db.nextRequest (some row)
  | .flushSignupRequest id loaded latest => ∀ stored, db.signupRequests.row me id = some stored →
      P.request id (some (flushedRequest loaded latest stored))
  | .insertIssueLog row => P.issueLog db.nextIssueLog (some row)
  | .insertAuth _ studentId row => P.auth studentId (some row)
  | .updateAuth _ studentId passwordHash => P.auth studentId (some { passwordHash })
  | _ => True

/-- What holds of every version still holds when less is asked. -/
theorem Hold.mono (hold : P.Hold db) (member : ∀ key version, P.member key version → Q.member key version)
    (request : ∀ key version, P.request key version → Q.request key version)
    (issueLog : ∀ key version, P.issueLog key version → Q.issueLog key version)
    (auth : ∀ key version, P.auth key version → Q.auth key version) : Q.Hold db :=
  ⟨hold.members.mono member, hold.requests.mono request, hold.issueLogs.mono issueLog, hold.auths.mono auth⟩

theorem Hold.commit (hold : P.Hold db) : P.Hold (db.commit me) :=
  ⟨hold.members.commit, hold.requests.commit, hold.issueLogs.commit, hold.auths.commit⟩

theorem Hold.rollback (hold : P.Hold db) : P.Hold (db.rollback me) :=
  ⟨hold.members.abort, hold.requests.abort, hold.issueLogs.abort, hold.auths.abort⟩

/-- A statement of the services keeps what holds, if the row that it writes has it. -/
theorem Hold.answer {stmt : Source.Accounts.Stmt} {choice : Source.Accounts.Choice}
    {reply : Except Failure (Source.Accounts.Reply stmt)} (hold : P.Hold db)
    (writes : ∀ answer, reply = .ok answer → P.Writes me db stmt)
    (done : Source.Accounts.answer me stmt choice db = some (reply, db')) : P.Hold db' := by
  cases stmt with
  | commit =>
    cases done
    exact hold.commit
  | rollback =>
    cases done
    exact hold.rollback
  | advisoryLock =>
    simp only [Source.Accounts.answer] at done
    split at done
    · split at done <;> cases done
      exact hold
    · cases done
      exact ⟨hold.members, hold.requests, hold.issueLogs, hold.auths⟩
  | insertMember studentId row =>
    rcases Source.Accounts.insertMember_cases done with ⟨-, rfl⟩ | ⟨rfl, -, absent, rfl⟩
    · exact hold
    · exact ⟨hold.members.write (writes () rfl absent), hold.requests, hold.issueLogs, hold.auths⟩
  | flushMember studentId loaded latest =>
    rcases Source.Accounts.flushMember_cases done with ⟨-, rfl⟩ | ⟨rfl, -, stored, seen, rfl⟩
    · exact hold
    · exact ⟨hold.members.write (writes () rfl stored seen), hold.requests, hold.issueLogs, hold.auths⟩
  | insertSignupRequest row =>
    rcases Source.Accounts.insertSignupRequest_cases done with ⟨-, rfl⟩ | ⟨rfl, rfl⟩
    · exact ⟨hold.members, hold.requests, hold.issueLogs, hold.auths⟩
    · exact ⟨hold.members, hold.requests.write (writes _ rfl), hold.issueLogs, hold.auths⟩
  | flushSignupRequest id loaded latest =>
    rcases Source.Accounts.flushSignupRequest_cases done with ⟨-, rfl⟩ | ⟨rfl, -, stored, seen, rfl⟩
    · exact hold
    · exact ⟨hold.members, hold.requests.write (writes () rfl stored seen), hold.issueLogs, hold.auths⟩
  | insertIssueLog row =>
    cases done
    exact ⟨hold.members, hold.requests, hold.issueLogs.write (writes () rfl), hold.auths⟩
  | insertAuth through studentId row =>
    rcases Source.Accounts.insertAuth_cases done with ⟨-, rfl⟩ | ⟨rfl, rfl⟩
    · exact hold
    · exact ⟨hold.members, hold.requests, hold.issueLogs, hold.auths.write (writes () rfl)⟩
  | updateAuth through studentId passwordHash =>
    rcases Source.Accounts.updateAuth_cases done with ⟨-, rfl⟩ | ⟨rfl, rfl⟩
    · exact hold
    · exact ⟨hold.members, hold.requests, hold.issueLogs, hold.auths.write (writes () rfl)⟩
  | now | getMember _ | emailTaken _ _ | phoneTaken _ _ | countActiveMembersWithRole _ | pendingByStudentId _
  | getSignupRequest _ | getAuth _ | refresh =>
    cases done
    exact hold

/-- A change of the password fails and changes nothing, or writes the one row. -/
theorem changeAuth_cases {studentId passwordHash : String} {reply : Except Failure Unit}
    (done : changeAuth me studentId passwordHash db = some (reply, db')) :
    (∃ reason, reply = .error reason) ∧ db' = db ∨
      reply = .ok () ∧ db' = { db with auths := db.auths.write me studentId (some { passwordHash }) } := by
  obtain ⟨⟨found, auths⟩, updated, stored⟩ := Option.bind_eq_some_iff.mp done
  rcases Table.updateRow_cases updated with ⟨rfl, rfl⟩ | ⟨rfl, free, version, seen, -, rfl⟩
  · cases stored
    exact .inl ⟨⟨_, rfl⟩, rfl⟩
  · cases stored
    exact .inr ⟨rfl, rfl⟩

/-- The row that a statement of a request writes. -/
def RequestWrites (P : Rows) (me : SessionId) (db : Source.Accounts.World) : Stmt → Prop
  | .account stmt => P.Writes me db stmt
  | .changeAuth studentId passwordHash => P.auth studentId (some { passwordHash })
  | _ => True

theorem Hold.exec {rules : Source.SignIn.Rules} {stmt : Stmt} {choice : Choice} {world world' : World}
    {reply : Except Failure (Reply stmt)}
    (hold : P.Hold world.db) (writes : ∀ answer, reply = .ok answer → P.RequestWrites me world.db stmt)
    (done : Source.SignIn.exec rules me stmt choice world = some (reply, world')) : P.Hold world'.db := by
  cases stmt with
  | account stmt =>
    obtain ⟨⟨reply', db⟩, ran, same⟩ := Option.map_eq_some_iff.mp done
    cases same
    unfold Source.Accounts.exec at ran
    split at ran
    · cases ran
      exact hold
    · exact hold.answer writes ran
  | changeAuth studentId passwordHash =>
    simp only [Source.SignIn.exec] at done
    split at done
    · cases done
      exact hold
    · obtain ⟨⟨reply', db⟩, ran, same⟩ := Option.map_eq_some_iff.mp done
      cases same
      rcases changeAuth_cases ran with ⟨-, rfl⟩ | ⟨rfl, rfl⟩
      · exact hold
      · exact ⟨hold.members, hold.requests, hold.issueLogs, hold.auths.write (writes () rfl)⟩
  | consumeLimit =>
    simp only [Source.SignIn.exec] at done
    split at done <;> cases done <;> exact hold
  | receive | checkpw _ _ | hashpw _ | respond _ _ =>
    cases done
    exact hold

end Rows

end SogeconApp.Guarantees.SignIn
