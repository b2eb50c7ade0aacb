import SogeconApp.Guarantees.SignIn.NewPasswords
import SogeconApp.Guarantees.SignIn.Records

/-!
# The password that was set opens

A sign-in among no others succeeds exactly for an active member whose stored hash bcrypt matches with the
first bytes of the password. With a bcrypt that matches what it hashed, the password that the request brought
which set the stored hash opens the account.
-/

namespace SogeconApp.Guarantees.SignIn

open Library Program Policy Library.FormUrlencoded Source.SignIn
open SogeconApp.Source.Accounts (Failure Member MemberAuth)
open SogeconApp.Source.Auth (CurrentUser Session getUserSession setKey userEntry)

variable {rules : Source.SignIn.Rules} {world : World} {me : SessionId} {studentId password : String}

/-- Nothing fails, no limit is exceeded, and no cookie is presented. -/
def Calm (choice : Choice) : Prop := choice.account.fails = none ∧ choice.limited = none ∧ choice.cookie = none

/-- The member is active, and bcrypt matches the password. -/
def Opens (rules : Source.SignIn.Rules) (db : Source.Accounts.World) (studentId password : String) : Prop :=
  studentId ≠ "" ∧ (∃ row, db.members.committed studentId = some row ∧ row.status = .active) ∧
    ∃ auth, db.auths.committed studentId = some auth ∧
      rules.checkpw ((utf8 password).take bcryptMaxPasswordBytes) auth.passwordHash = some true

/-- No open transaction has written the rows of the student. -/
def Unwritten (db : Source.Accounts.World) (studentId : String) : Prop :=
  (db.members.slot studentId).draft = none ∧ (db.auths.slot studentId).draft = none

/-- The session that a sign-in of the member sets. -/
def openedSession (rules : Source.SignIn.Rules) (studentId : String) (row : Member) : Session :=
  setKey [] "user" (userEntry (refreshed rules studentId row))

theorem calm_ask {stmt : Stmt} (value : Reply stmt) {Q : Reply stmt → World → Prop}
    (answers : ∀ choice, Calm choice → Source.SignIn.exec rules me stmt choice world = some (.ok value, world))
    (then_ : Q value world) :
    (ask stmt).Ensures ((machine rules).alone me Calm) Q (fun _ _ => False) world := by
  refine (ensures_issue world).mpr ⟨fun choice calm => ?_, ?_, ?_⟩
  · exact Option.isSome_iff_exists.mpr ⟨_, answers choice calm⟩
  · rintro answer world' ⟨choice, calm, done⟩
    have same := (answers choice calm).symm.trans done
    cases same
    exact then_
  · rintro reason world' ⟨choice, calm, done⟩
    have same := (answers choice calm).symm.trans done
    cases same

theorem calm_account {stmt : Source.Accounts.Stmt} (value : Source.Accounts.Reply stmt)
    {Q : Source.Accounts.Reply stmt → World → Prop}
    (answers : ∀ choice, Source.Accounts.answer me stmt choice world.db = some (.ok value, world.db))
    (then_ : Q value world) :
    (ask (.account stmt)).Ensures ((machine rules).alone me Calm) Q (fun _ _ => False) world := by
  refine calm_ask value (fun choice calm => ?_) then_
  simp only [Source.SignIn.exec, Source.Accounts.exec, calm.1, answers]
  rfl

/-- What a sign-in comes to. -/
theorem loginMember_alone (rest : Unwritten world.db studentId) :
    (loginMember rules studentId password).Ensures ((machine rules).alone me Calm)
      (fun user after => after = world ∧ Opens rules world.db studentId password ∧
        ∃ row, world.db.members.committed studentId = some row ∧ user = refreshed rules studentId row)
      (fun reason after => after = world ∧ ¬ Opens rules world.db studentId password ∧ hasHandler reason = true)
      world := by
  unfold loginMember
  simp only [bind_eq, ensures_bind]
  refine (calm_ask () (fun choice calm => by simp only [Source.SignIn.exec, calm.2.1]) ?_).weaken (fun _ _ q => q)
    fun _ _ never => never.elim
  refine (calm_account (world.db.members.committed studentId) (fun choice => ?_) ?_).weaken (fun _ _ q => q)
    fun _ _ never => never.elim
  · have read : world.db.members.row me studentId = world.db.members.committed studentId :=
      Slot.row_of_no_draft rest.1
    rw [← read]
    rfl
  refine (calm_account (world.db.auths.committed studentId) (fun choice => ?_) ?_).weaken (fun _ _ q => q)
    fun _ _ never => never.elim
  · have read : world.db.auths.row me studentId = world.db.auths.committed studentId :=
      Slot.row_of_no_draft rest.2
    rw [← read]
    rfl
  cases member : world.db.members.committed studentId with
  | none => exact ⟨rfl, fun opens => by simp [Opens, member] at opens, rfl⟩
  | some row =>
    cases creds : world.db.auths.committed studentId with
    | none => exact ⟨rfl, fun opens => by simp [Opens, creds] at opens, rfl⟩
    | some auth =>
      simp only [verifyPassword, bind_eq, ensures_bind, pure_eq, ensures_ret]
      refine (calm_ask _ (fun choice calm => rfl) ?_).weaken (fun _ _ q => q) fun _ _ never => never.elim
      have opens_iff : Opens rules world.db studentId password ↔ studentId ≠ "" ∧ row.status = .active ∧
          rules.checkpw ((utf8 password).take bcryptMaxPasswordBytes) auth.passwordHash = some true := by
        simp [Opens, member, creds]
      have matched_iff : (rules.checkpw ((utf8 password).take bcryptMaxPasswordBytes)
        auth.passwordHash).getD false =
          true ↔ rules.checkpw ((utf8 password).take bcryptMaxPasswordBytes) auth.passwordHash = some true := by
        cases rules.checkpw ((utf8 password).take bcryptMaxPasswordBytes) auth.passwordHash <;> simp
      split
      · next failed => exact ⟨rfl, fun opens => by simp [matched_iff.mpr (opens_iff.mp opens).2.2] at failed, rfl⟩
      · next matched =>
        split
        · next pending => exact ⟨rfl, fun opens => by simp [(opens_iff.mp opens).2.1] at pending, rfl⟩
        · split
          · next inactive => exact ⟨rfl, fun opens => inactive (opens_iff.mp opens).2.1, rfl⟩
          · next active =>
            split
            · next nameless => exact ⟨rfl, fun opens => (opens_iff.mp opens).1 nameless, rfl⟩
            · next named =>
              exact ⟨rfl, opens_iff.mpr ⟨named, by simpa using active,
                matched_iff.mp (by simpa using matched)⟩, row, rfl, rfl⟩

/-- What the whole request leaves: one more cookie. -/
def Answered (rules : Source.SignIn.Rules) (world : World) (studentId password : String) (after : World) : Prop :=
  ∃ session, after = { world with issued := world.issued ++ [session] } ∧
    (Opens rules world.db studentId password ∧ (∃ row, world.db.members.committed studentId = some row ∧
        session = openedSession rules studentId row) ∨
      ¬ Opens rules world.db studentId password ∧ session = [])

theorem login_alone (me : SessionId) (password : String) (rest : Unwritten world.db studentId) :
    (Request.program rules (.login studentId password)).Ensures ((machine rules).alone me Calm)
      (fun _ after => Answered rules world studentId password after) (fun _ _ => False) world := by
  have respond (session : Session) (outcome : Except Failure Response)
      (answered : Answered rules world studentId password { world with issued := world.issued ++ [session] }) :
      (ask (.respond session outcome)).Ensures ((machine rules).alone me Calm)
        (fun _ after => Answered rules world studentId password after) (fun _ _ => False) world := by
    refine (ensures_issue world).mpr ⟨fun choice calm => rfl, ?_, ?_⟩
    · rintro answer world' ⟨choice, calm, done⟩
      cases done
      exact answered
    · rintro reason world' ⟨choice, calm, done⟩
      cases done
  unfold Request.program Request.endpoint serve signedIn attempt
  simp only [bind_eq, ensures_bind, ensures_catchWith, pure_eq, ensures_ret]
  refine (calm_ask [] (fun choice calm => by simp only [Source.SignIn.exec, calm.2.2]; rfl) ?_).weaken
    (fun _ _ q => q)
    fun _ _ never => never.elim
  refine (loginMember_alone rest).weaken ?_ ?_
  · rintro user _ ⟨rfl, opens, row, stored, rfl⟩
    exact respond _ _ ⟨_, rfl, .inl ⟨opens, row, stored, rfl⟩⟩
  · rintro reason _ ⟨rfl, refused, handled⟩
    simp only [handled, if_true]
    exact respond _ _ ⟨_, rfl, .inr ⟨refused, rfl⟩⟩

theorem openedSession_user (rules : Source.SignIn.Rules) (row : Member) (named : studentId ≠ "") :
    ∃ user, getUserSession rules.toSessionRules (openedSession rules studentId row) = .ok (some user) := by
  unfold getUserSession openedSession
  rw [SessionAuthority.getKey_setKey]
  obtain ⟨email, phone, name, cohort, major, roles, status⟩ := row
  cases email <;>
    simp [userEntry, Source.Auth.getKey, List.lookup_cons, named, Source.Auth.sessionId, Source.Auth.textItem,
      refreshed, Source.Auth.refreshedUser, memberRow]

/-- While nobody writes the rows of the student, a sign-in sets a cookie of the student if and only if
the member is active and bcrypt matches the first bytes of the password with the stored hash; it sets
none of anybody else. -/
theorem login_exact (rules : Source.SignIn.Rules) (world : World) (me : SessionId) (studentId password : String)
    (rest : Unwritten world.db studentId) (choices : Nat → Choice) (calm : ∀ n, Calm (choices n)) :
    ∃ out session, (machine rules).eval me (Request.program rules (.login studentId password)) choices world =
        some (out, { world with issued := world.issued ++ [session] }) ∧
      ((∃ user, getUserSession rules.toSessionRules session = .ok (some user)) ↔
        Opens rules world.db studentId password) ∧
      ∀ user, getUserSession rules.toSessionRules session = .ok (some user) → user.studentId = studentId := by
  have ensures : (Request.program rules (.login studentId password)).Ensures
    ((machine rules).alone me Calm) _ _ world :=
    login_alone me password rest
  obtain ⟨out, after, done, outcome⟩ := Machine.eval_of_ensures ensures calm
  cases out with
  | error reason => exact outcome.elim
  | ok value =>
    obtain ⟨session, rfl, ⟨opens, row, stored, rfl⟩ | ⟨refused, rfl⟩⟩ := outcome
    · exact ⟨_, _, done, iff_of_true (openedSession_user rules _ opens.1) opens, fun user seen =>
        (getUserSession_set seen).1⟩
    · refine ⟨_, [], done, iff_of_false ?_ refused, ?_⟩
      · rintro ⟨user, seen⟩
        cases seen
      · intro user seen
        cases seen

theorem login_exact_sample : ∃ out session,
    (machine sampleRules).eval 0 (Request.program sampleRules (.login "s" "password")) (fun _ => {})
        { db := sampleAccounts, issued := [] } = some (out, { db := sampleAccounts, issued := [session] }) ∧
      ∃ user, getUserSession sampleRules.toSessionRules session = .ok (some user) ∧ user.studentId = "s" := by
  obtain ⟨out, session, done, opens, named⟩ := login_exact sampleRules { db := sampleAccounts, issued := [] } 0
    "s" "password" ⟨rfl, rfl⟩ (fun _ => {}) fun _ => ⟨rfl, rfl, rfl⟩
  obtain ⟨user, seen⟩ := opens.mpr ⟨by decide, ⟨sampleMember, rfl, rfl⟩,
    { passwordHash := "0password" }, rfl, rfl⟩
  exact ⟨out, session, done, user, seen, named user seen⟩

/-! ## A password that was set -/

/-- A hash is what bcrypt made of the bytes. -/
def Hashing (rules : Source.SignIn.Rules) (trace : Trace signIn) : Prop :=
  ∀ me encoded passwordHash, (me, ⟨.hashpw encoded, passwordHash⟩) ∈ trace →
    ∃ salt, passwordHash = rules.hashpw encoded salt

theorem hashing_keeps : (routes rules).Keeps (machine rules) fun _ trace => Hashing rules trace where
  exec world trace me stmt choice reply world' hashing _ _ done := by
    intro other encoded passwordHash member
    rcases List.mem_append.mp member with earlier | now
    · exact hashing other encoded passwordHash earlier
    · cases reply with
      | error reason => simp [Trace.recorded] at now
      | ok answer =>
        have same := List.mem_singleton.mp now
        cases same
        cases done
        exact ⟨choice.salt, rfl⟩
  close _ _ _ hashing := hashing
  crash _ _ _ hashing := hashing
  outside _ _ change _ := nomatch change

/-- A password that the policy accepts is hashed and matched whole. -/
theorem accepted_whole {encoded : Bytes} (accepted : encodePasswordForHash password = some encoded) :
    (utf8 password).take bcryptMaxPasswordBytes = encoded := by
  unfold encodePasswordForHash at accepted
  split at accepted
  · cases accepted
  · next short =>
    cases accepted
    exact List.take_of_length_le (Nat.le_of_not_lt short)

/-- Whoever stored a hash made it. -/
theorem PasswordSetBy.hashed {trace : Trace signIn} {passwordHash : String} {author : SessionId}
    (set_ : PasswordSetBy rules trace studentId passwordHash author) :
    ∃ encoded, (author, ⟨.hashpw encoded, passwordHash⟩) ∈ trace := by
  obtain ⟨stmt, -, earlier, later, me, reply, rfl, rfl, ⟨password, encoded, -, made⟩, -⟩ := set_
  exact ⟨encoded, List.mem_append_left _ (Trace.mem_own.mp made)⟩

/-- After any run, while nobody writes the rows of an active member whose stored password was set in the run,
the member signs in with the new password that the request carries which set it, and as nobody else. -/
theorem last_password_opens (rules : Source.SignIn.Rules)
    (matches_ : ∀ encoded salt, rules.checkpw encoded (rules.hashpw encoded salt) = some true)
    (db : Source.Accounts.World) (rest : Rows.AtRest db) (requests : SessionId → Option Request)
    (actions : List (Action (machine rules).traced)) (after : Config (machine rules).traced Unit)
    (reached : (start rules db requests).run actions = some after) (studentId : String)
    (quiet : Unwritten after.world.1.db studentId) (named : studentId ≠ "") (row : Member) (auth : MemberAuth)
    (member : after.world.1.db.members.committed studentId = some row) (active : row.status = .active)
    (stored : after.world.1.db.auths.committed studentId = some auth)
    (changed : db.auths.committed studentId ≠ some auth) (me : SessionId) (choices : Nat → Choice)
    (calm : ∀ n, Calm (choices n)) :
    ∃ (author : SessionId) (request : Request) (password : NewPassword) (out : Except Failure Unit)
        (session : Session) (user : CurrentUser),
      requests author = some request ∧ carriedPassword request = some password ∧
        PasswordSetBy rules after.world.2 studentId auth.passwordHash author ∧
        (machine rules).eval me (Request.program rules (.login studentId password.password)) choices
          after.world.1 =
          some (out, { after.world.1 with issued := after.world.1.issued ++ [session] }) ∧
        getUserSession rules.toSessionRules session = .ok (some user) ∧ user.studentId = studentId := by
  have holds := (run_authored rest reached).auths.committed studentId
  rw [stored] at holds
  obtain ⟨author, set_⟩ := holds.resolve_left changed
  obtain ⟨encoded, hashed⟩ := set_.hashed
  -- the hash was made in the author's request, so from the password that this request carries
  obtain ⟨request, password, asked, own, accepted⟩ := hashed_own reached hashed
  have none_ : Hashing rules [] := by simp [Hashing]
  have keeps : (routes rules).Keeps (machine rules) fun _ trace => Hashing rules trace := hashing_keeps
  obtain ⟨hashing, -⟩ := keeps.run rfl none_ (follows db requests) reached
  obtain ⟨salt, hash⟩ := hashing author encoded auth.passwordHash hashed
  have opens : Opens rules after.world.1.db studentId password.password :=
    ⟨named, ⟨row, member, active⟩, auth, stored,
      by rw [accepted_whole accepted, hash]; exact matches_ encoded salt⟩
  have alone : (Request.program rules (.login studentId password.password)).Ensures
    ((machine rules).alone me Calm) _ _ _ :=
    login_alone me password.password quiet
  obtain ⟨out, last, done, outcome⟩ := Machine.eval_of_ensures alone calm
  cases out with
  | error reason => exact outcome.elim
  | ok value =>
    obtain ⟨session, rfl, ⟨-, found, -, rfl⟩ | ⟨refused, -⟩⟩ := outcome
    · obtain ⟨user, seen⟩ := openedSession_user rules found named
      exact ⟨author, request, password, _, _, user, asked, own, set_, done, seen, (getUserSession_set seen).1⟩
    · exact absurd opens refused

/-- A student signs in, changes the password, and signs in with the new one. -/
theorem last_password_opens_changed : ∃ (after : Config (machine sampleRules).traced Unit)
    (password : NewPassword) (out : Except Failure Unit) (session : Session) (user : CurrentUser),
    (start sampleRules sampleAccounts changingRequests).run signInAndChange = some after ∧
      after.world.1.db.auths.committed "s" = some { passwordHash := "1new password" } ∧
      password.password = "new password" ∧
      (machine sampleRules).eval 2 (Request.program sampleRules (.login "s" password.password))
        (fun _ => {}) after.world.1 =
          some (out, { after.world.1 with issued := after.world.1.issued ++ [session] }) ∧
      getUserSession sampleRules.toSessionRules session = .ok (some user) ∧ user.studentId = "s" := by
  have facts : ((start sampleRules sampleAccounts changingRequests).run signInAndChange).map (fun after =>
      (after.world.1.db.members.slot "s", after.world.1.db.auths.slot "s")) =
      some ({ committed := some sampleMember },
        { committed := some { passwordHash := "1new password" } }) := by rfl
  obtain ⟨after, reached, same⟩ := Option.map_eq_some_iff.mp facts
  simp only [Prod.mk.injEq] at same
  have stored : after.world.1.db.auths.committed "s" = some { passwordHash := "1new password" } :=
    congrArg (·.committed) same.2
  obtain ⟨author, request, password, out, session, user, asked, own, -, done, seen, named⟩ := last_password_opens
    sampleRules (fun encoded salt => (sampleRules_checkpw encoded encoded salt).trans (by simp))
    sampleAccounts sampleAccounts_atRest changingRequests signInAndChange after reached "s"
    ⟨congrArg (·.draft) same.1, congrArg (·.draft) same.2⟩ (by decide) sampleMember
    { passwordHash := "1new password" } (congrArg (·.committed) same.1) rfl stored (by decide) 2 (fun _ => {})
    fun _ => ⟨rfl, rfl, rfl⟩
  have carried : password.password = "new password" := by
    rcases author with _ | _ | author
    · cases asked
      cases own
    · cases asked
      cases own
      rfl
    · cases asked
  exact ⟨after, password, out, session, user, reached, stored, carried, done, seen, named⟩

end SogeconApp.Guarantees.SignIn
