import SogeconApp.Library.Sequential
import SogeconApp.Source.Accounts.Members
import SogeconApp.Source.Accounts.Signup

/-!
# An account request that runs alone

What one statement of the session does, for any rules about what the session may issue: a
reading statement leaves the store as it is, and the signup requests are changed by the two
statements that write them and by the end of a transaction.
-/

namespace SogeconApp.Guarantees.AccountsAlone

open Library Program Source.Accounts

variable {me : SessionId} {world world' : World} {allow : World → Stmt → Prop}

theorem executed {stmt : Stmt} {answer : Reply stmt} {choice : Choice}
    (done : Source.Accounts.exec me stmt choice world = some (.ok answer, world')) :
    Source.Accounts.answer me stmt choice world = some (.ok answer, world') := by
  rcases answering.exec_cases done with ⟨reason, -, failed, -⟩ | ⟨-, done⟩
  · cases failed
  · exact done

/-- A statement that only reads. -/
theorem through_read {α : Type} {stmt : Stmt} {next : Reply stmt → Handler α} {Q : α → World → Prop}
    (value : Choice → Reply stmt)
    (reads : ∀ choice, Source.Accounts.answer me stmt choice world = some
      (.ok (value choice), world))
    (allowed : allow world stmt)
    (then_ : ∀ choice, (machine.issuing me allow).Through world (next (value choice)) Q) :
    (machine.issuing me allow).Through world (ask stmt >>= next) Q := by
  have seen : ∀ choice answer world', Source.Accounts.exec me stmt choice world = some (.ok answer, world') →
      world' = world ∧ ∃ choice, answer = value choice := by
    intro choice answer world' done
    have done := executed done
    rw [reads] at done
    cases done
    exact ⟨rfl, choice, rfl⟩
  refine Machine.issuing_read allowed seen ?_
  rintro answer ⟨choice, rfl⟩
  exact then_ choice

/-! ## The parts of the handlers that write nothing -/

/-- The request that is returned is the one that the session reads under its id. -/
theorem signupRequestById_through (id : Nat) (allowed : allow world (.getSignupRequest id)) :
    (machine.issuing me allow).Through world (signupRequestById id)
      fun row reached => reached = world ∧ world.signupRequests.row me id = some row := by
  refine through_read (fun _ => world.signupRequests.row me id) (fun _ => rfl) allowed
    fun choice => ?_
  split
  · next row seen => exact .ret ⟨rfl, seen⟩
  · exact .raise

/-- What a token resolves to is an approved request of the student that the token names. -/
theorem resolveActivationSignupRequest_through (payload : ActivationPayload)
    (allowed : allow world (.getSignupRequest payload.signupRequestId)) :
    (machine.issuing me allow).Through world (resolveActivationSignupRequest payload)
      fun row reached => reached = world ∧
        world.signupRequests.row me payload.signupRequestId = some row ∧
        row.studentId = payload.studentId ∧ row.status = .approved := by
  refine through_read (fun _ => world.signupRequests.row me payload.signupRequestId)
    (fun _ => rfl) allowed fun choice => ?_
  split
  · exact .raise
  · next row seen =>
    split
    · exact .raise
    · next student =>
      split
      · exact .raise
      · split
        · exact .raise
        · next approved => exact .ret ⟨rfl, seen, by simpa using student, by simpa using approved⟩

theorem resolveActivationMember_through (studentId : String)
    (allowed : allow world (.getMember studentId)) :
    (machine.issuing me allow).Through world (resolveActivationMember studentId)
      fun _ reached => reached = world ∧ (world.members.row me studentId).isSome = true := by
  refine through_read (fun _ => world.members.row me studentId) (fun _ => rfl) allowed
    fun choice => ?_
  split
  · exact .raise
  · next member seen =>
    split
    · exact .raise
    · exact .ret ⟨rfl, by rw [seen]; rfl⟩

theorem rollback_raises (reason : Failure) {α : Type} (allowed : allow world .rollback) :
    (machine.issuing me allow).Through world
      (ask .rollback >>= fun _ => (raise reason : Handler α)) fun _ _ => True :=
  .step allowed fun _ _ _ => .raise

theorem signupConflict_through (reason : Failure) (allowed : allow world .rollback) :
    (machine.issuing me allow).Through world (signupConflict reason) fun _ _ => True := by
  unfold signupConflict
  split
  · exact rollback_raises _ allowed
  · exact rollback_raises _ allowed
  · exact rollback_raises _ allowed
  · exact .raise

theorem memberConflict_through (reason : Failure) (allowed : allow world .rollback) :
    (machine.issuing me allow).Through world (memberConflict reason) fun _ _ => True := by
  unfold memberConflict
  split
  · exact rollback_raises _ allowed
  · exact rollback_raises _ allowed
  · exact rollback_raises _ allowed
  · exact rollback_raises _ allowed
  · exact rollback_raises _ allowed
  · exact .raise

/-! ## The statements that write a request -/

/-- Statements that write a request. -/
def writesRequest : Stmt → Bool
  | .insertSignupRequest _ | .flushSignupRequest .. => true
  | _ => false

/-- Only the two statements that write a signup request and the two that end a transaction change the
requests. -/
theorem requests_kept {stmt : Stmt} {choice : Choice} {reply : Except Failure (Reply stmt)}
    (done : Source.Accounts.answer me stmt choice world = some (reply, world'))
    (reads : writesRequest stmt = false) :
    world'.signupRequests = world.signupRequests ∨ stmt = .commit ∨ stmt = .rollback := by
  cases stmt with
  | commit => exact .inr (.inl rfl)
  | rollback => exact .inr (.inr rfl)
  | insertSignupRequest row | flushSignupRequest id loaded latest => cases reads
  | advisoryLock =>
    simp only [Source.Accounts.answer] at done
    split at done
    · split at done <;> cases done
      exact .inl rfl
    · cases done
      exact .inl rfl
  | insertMember studentId row =>
    rcases insertMember_cases done with ⟨-, rfl⟩ | ⟨-, -, -, rfl⟩ <;> exact .inl rfl
  | flushMember studentId loaded latest =>
    rcases flushMember_cases done with ⟨-, rfl⟩ | ⟨-, -, stored, -, rfl⟩ <;> exact .inl rfl
  | insertAuth through studentId row =>
    rcases insertAuth_cases done with ⟨-, rfl⟩ | ⟨-, rfl⟩ <;> exact .inl rfl
  | updateAuth through studentId passwordHash =>
    rcases updateAuth_cases done with ⟨-, rfl⟩ | ⟨-, rfl⟩ <;> exact .inl rfl
  | now | getMember _ | emailTaken _ _ | phoneTaken _ _ | countActiveMembersWithRole _ | pendingByStudentId _
  | getSignupRequest _ | insertIssueLog _ | getAuth _ | refresh =>
    cases done
    exact .inl rfl

/-- A request that is in no draft is changed only by a statement that writes it. -/
theorem requests_stay (quiet : world.signupRequests.Quiet) {stmt : Stmt} {choice : Choice}
    {reply : Except Failure (Reply stmt)}
    (done : Source.Accounts.exec me stmt choice world = some (reply, world'))
    (reads : writesRequest stmt = false) : world'.signupRequests = world.signupRequests := by
  rcases answering.exec_cases done with ⟨reason, -, rfl, rfl⟩ | ⟨-, done⟩
  · rfl
  · rcases requests_kept done reads with same | rfl | rfl
    · exact same
    · cases done
      exact quiet.commit_eq
    · cases done
      exact quiet.abort_eq

/-! ## A session that waits for nobody -/

/-- No transaction is open. -/
structure Resting (world : World) : Prop where
  members : world.members.Quiet
  signupRequests : world.signupRequests.Quiet
  issueLogs : world.issueLogs.Quiet
  auths : world.auths.Quiet
  advisory : world.advisory = none

/-- No other session has a transaction open. -/
structure Solo (me : SessionId) (world : World) : Prop where
  members : world.members.Only me
  signupRequests : world.signupRequests.Only me
  issueLogs : world.issueLogs.Only me
  auths : world.auths.Only me
  advisory : world.advisory = none ∨ world.advisory = some me

theorem Resting.solo (resting : Resting world) (me : SessionId) : Solo me world where
  members := resting.members.only
  signupRequests := resting.signupRequests.only
  issueLogs := resting.issueLogs.only
  auths := resting.auths.only
  advisory := .inl resting.advisory

/-- The end of the transaction. -/
theorem Solo.rollback (solo : Solo me world) : Resting (world.rollback me) where
  members := solo.members.abort_quiet
  signupRequests := solo.signupRequests.abort_quiet
  issueLogs := solo.issueLogs.abort_quiet
  auths := solo.auths.abort_quiet
  advisory := by
    simp only [World.rollback]
    rcases solo.advisory with none_ | mine
    · simp [none_]
    · simp [mine]

theorem Solo.commit (solo : Solo me world) : Solo me (world.commit me) where
  members := solo.members.commit_quiet.only
  signupRequests := solo.signupRequests.commit_quiet.only
  issueLogs := solo.issueLogs.commit_quiet.only
  auths := solo.auths.commit_quiet.only
  advisory := by
    left
    simp only [World.commit]
    rcases solo.advisory with none_ | mine
    · simp [none_]
    · simp [mine]

/-- A session that is alone is so after it has drafted something, and after it has taken the lock. -/
theorem Solo.drafts (solo : Solo me world) (drafts : world.Drafts me world')
    (advisory : world'.advisory = none ∨ world'.advisory = some me) : Solo me world' where
  members := drafts.members.only solo.members
  signupRequests := drafts.signupRequests.only solo.signupRequests
  issueLogs := drafts.issueLogs.only solo.issueLogs
  auths := drafts.auths.only solo.auths
  advisory := advisory

theorem storeMember_answers {members : Table String Member} (alone : members.Only me)
    (studentId : String) :
    ∃ reply world', storeMember me studentId members world = some (reply, world') := by
  simp only [storeMember, memberClash, alone.clash, Option.bind_eq_bind, Option.bind_some,
    Option.pure_def]
  split
  · exact ⟨_, _, rfl⟩
  · exact ⟨_, _, rfl⟩

/-- Every statement of a session that is alone is answered, so none of them waits. -/
theorem Solo.answers (solo : Solo me world) (stmt : Stmt) (choice : Choice) :
    ∃ reply world', Source.Accounts.answer me stmt choice world = some (reply, world') := by
  cases stmt with
  | now | getMember _ | emailTaken _ _ | phoneTaken _ _ | countActiveMembersWithRole _
  | pendingByStudentId _ | getSignupRequest _ | insertIssueLog _ | getAuth _ | refresh | commit
  | rollback => exact ⟨_, _, rfl⟩
  | advisoryLock =>
    rcases solo.advisory with none_ | mine
    · simp [Source.Accounts.answer, none_]
    · simp [Source.Accounts.answer, mine]
  | insertMember studentId row =>
    simp only [Source.Accounts.answer, insertMember, solo.members.insertRow]
    cases world.members.row me studentId with
    | some stored => exact ⟨_, _, rfl⟩
    | none => exact storeMember_answers (solo.members.write _ _) studentId
  | flushMember studentId loaded latest =>
    simp only [Source.Accounts.answer, flushMember, solo.members.updateRow]
    cases world.members.row me studentId with
    | some stored => exact storeMember_answers (solo.members.write _ _) studentId
    | none => exact ⟨_, _, rfl⟩
  | insertSignupRequest row =>
    simp only [Source.Accounts.answer, insertSignupRequest, solo.signupRequests.clash,
      Option.bind_eq_bind, Option.bind_some, Option.pure_def]
    split
    · exact ⟨_, _, rfl⟩
    · exact ⟨_, _, rfl⟩
  | flushSignupRequest id loaded latest =>
    simp only [Source.Accounts.answer, flushSignupRequest, solo.signupRequests.updateRow]
    cases world.signupRequests.row me id with
    | some stored => exact ⟨_, _, rfl⟩
    | none => exact ⟨_, _, rfl⟩
  | insertAuth through studentId row =>
    simp only [Source.Accounts.answer, insertAuth, solo.auths.insertRow]
    cases world.auths.row me studentId with
    | some stored => exact ⟨_, _, rfl⟩
    | none => exact ⟨_, _, rfl⟩
  | updateAuth through studentId passwordHash =>
    simp only [Source.Accounts.answer, updateAuth, solo.auths.updateRow]
    cases world.auths.row me studentId with
    | some stored => exact ⟨_, _, rfl⟩
    | none => exact ⟨_, _, rfl⟩

/-- A statement that is no commit leaves the lock with whom it was, or takes it. -/
theorem answer_advisory {stmt : Stmt} {choice : Choice} {reply : Except Failure (Reply stmt)}
    (done : Source.Accounts.answer me stmt choice world = some (reply, world')) :
    world'.advisory = world.advisory ∨ world'.advisory = some me ∨
      world'.advisory = (world.rollback me).advisory := by
  cases stmt with
  | now | getMember _ | emailTaken _ _ | phoneTaken _ _ | countActiveMembersWithRole _
  | pendingByStudentId _ | getSignupRequest _ | insertIssueLog _ | getAuth _ | refresh =>
    cases done
    exact .inl rfl
  | commit | rollback =>
    cases done
    exact .inr (.inr rfl)
  | advisoryLock =>
    simp only [Source.Accounts.answer] at done
    split at done
    · split at done <;> cases done
      exact .inl rfl
    · cases done
      exact .inr (.inl rfl)
  | insertMember studentId row =>
    rcases insertMember_cases done with ⟨-, rfl⟩ | ⟨-, -, -, rfl⟩ <;> exact .inl rfl
  | flushMember studentId loaded latest =>
    rcases flushMember_cases done with ⟨-, rfl⟩ | ⟨-, -, stored, -, rfl⟩ <;> exact .inl rfl
  | insertSignupRequest row =>
    rcases insertSignupRequest_cases done with ⟨-, rfl⟩ | ⟨-, rfl⟩ <;> exact .inl rfl
  | flushSignupRequest id loaded latest =>
    rcases flushSignupRequest_cases done with ⟨-, rfl⟩ | ⟨-, -, stored, -, rfl⟩ <;> exact .inl rfl
  | insertAuth through studentId row =>
    rcases insertAuth_cases done with ⟨-, rfl⟩ | ⟨-, rfl⟩ <;> exact .inl rfl
  | updateAuth through studentId passwordHash =>
    rcases updateAuth_cases done with ⟨-, rfl⟩ | ⟨-, rfl⟩ <;> exact .inl rfl

theorem Solo.exec (solo : Solo me world) {stmt : Stmt} {choice : Choice}
    {reply : Except Failure (Reply stmt)}
    (done : machine.exec me stmt choice world = some (reply, world')) : Solo me world' := by
  by_cases commits : stmt = .commit
  · subst commits
    rcases answering.exec_cases done with ⟨reason, -, -, rfl⟩ | ⟨-, answered⟩
    · exact solo
    · cases answered
      exact solo.commit
  · refine solo.drafts (exec_drafts done commits) ?_
    rcases answering.exec_cases done with ⟨reason, -, -, rfl⟩ | ⟨-, answered⟩
    · exact solo.advisory
    · rcases answer_advisory answered with same | mine | ended
      · rw [same]
        exact solo.advisory
      · exact .inr mine
      · rw [ended]
        exact .inl solo.rollback.advisory

/-- A program that runs while no other transaction is open comes to its end. -/
theorem Solo.ends {α : Type} (solo : Solo me world) (program : Handler α) (choices : Nat → Choice) :
    ∃ out after, machine.eval me program choices world = some (out, after) ∧ Solo me after := by
  induction program generalizing choices world with
  | ret value => exact ⟨.ok value, world, rfl, solo⟩
  | raise reason => exact ⟨.error reason, world, rfl, solo⟩
  | exec stmt next ih =>
    have executes : ∃ reply world', machine.exec me stmt (choices 0) world = some (reply, world') := by
      simp only [machine, Source.Accounts.exec]
      split
      · exact ⟨_, _, rfl⟩
      · exact solo.answers stmt (choices 0)
    obtain ⟨reply, middle, done⟩ := executes
    obtain ⟨out, after, rest, alone⟩ := ih reply (solo.exec done) fun n => choices (n + 1)
    refine ⟨out, after, ?_, alone⟩
    rw [Machine.eval, done]
    exact rest

/-! ## Statements that do not fail -/

def Works (choice : Choice) : Prop := choice.fails = none

section Replies

variable {α : Type} {Q : α → World → Prop} {E : Failure → World → Prop}

theorem replied {stmt : Stmt} {reply : Except Failure (Reply stmt)}
    (after : (machine.replies me Works).after world stmt reply world') :
    ∃ choice, Source.Accounts.answer me stmt choice world = some (reply, world') := by
  obtain ⟨choice, works, done⟩ := after
  rcases answering.exec_cases done with ⟨reason, fails, -, -⟩ | ⟨-, answered⟩
  · rw [show answering.fails choice = choice.fails from rfl, works] at fails
    cases fails
  · exact ⟨choice, answered⟩

/-- A statement, what it may answer, and what it may raise. -/
theorem ensures_ask {stmt : Stmt} {next : Reply stmt → Handler α}
    (answered : ∀ choice answer world', Source.Accounts.answer me stmt choice world =
      some (.ok answer, world') → Ensures (machine.replies me Works) Q E (next answer) world')
    (raised : ∀ choice reason world', Source.Accounts.answer me stmt choice world =
      some (.error reason, world') → E reason world') :
    Ensures (machine.replies me Works) Q E (ask stmt >>= next) world := by
  rw [bind_eq, ensures_bind, ask, ensures_issue]
  refine ⟨trivial, fun answer world' after => ?_, fun reason world' after => ?_⟩
  · obtain ⟨choice, done⟩ := replied after
    exact answered choice answer world' done
  · obtain ⟨choice, done⟩ := replied after
    exact raised choice reason world' done

/-- A statement of which the answer and the store after it are known. -/
theorem ensures_known {stmt : Stmt} {next : Reply stmt → Handler α} (value : Choice → Reply stmt)
    (after : Choice → World)
    (answers : ∀ choice, Source.Accounts.answer me stmt choice world =
      some (.ok (value choice), after choice))
    (then_ : ∀ choice, Ensures (machine.replies me Works) Q E (next (value choice)) (after choice)) :
    Ensures (machine.replies me Works) Q E (ask stmt >>= next) world := by
  refine ensures_ask (fun choice answer world' done => ?_) fun choice reason world' done => ?_
  · rw [answers] at done
    cases done
    exact then_ choice
  · rw [answers] at done
    cases done

/-- A statement that reads one value in every case is passed by going on with that value. -/
theorem ensures_read {stmt : Stmt} {next : Reply stmt → Handler α} (value : Reply stmt)
    (reads : ∀ choice, Source.Accounts.answer me stmt choice world = some (.ok value, world))
    (then_ : Ensures (machine.replies me Works) Q E (next value) world) :
    Ensures (machine.replies me Works) Q E (ask stmt >>= next) world :=
  ensures_known (fun _ => value) (fun _ => world) reads fun _ => then_

end Replies

end SogeconApp.Guarantees.AccountsAlone
