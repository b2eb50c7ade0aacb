import SogeconApp.Guarantees.SignIn.Checks

/-!
# Every route follows the policy
-/

namespace SogeconApp.Guarantees.SignIn

open Library Program Library.FormUrlencoded Policy Source.SignIn
open SogeconApp.Source.Accounts (ActivationPayload Failure MemberAuth SignupRequest)
open SogeconApp.Source.Auth (CurrentAdmin CurrentMember CurrentUser MemberRow Session getUserSession)
open SessionAuthority (result)

variable {rules : Rules} {known : Known} {session after : Session} {α β : Type}

/-! ## Account statements -/

@[simp] theorem lift_pure (value : α) : lift (pure value : Source.Accounts.Handler α) = pure value := rfl

@[simp] theorem lift_raise (reason : Failure) :
    lift (raise reason : Source.Accounts.Handler α) = raise reason := rfl

@[simp] theorem lift_ask (stmt : Source.Accounts.Stmt) :
    lift (Source.Accounts.ask stmt) = ask (.account stmt) := by
  simp only [Source.Accounts.ask, ask, issue, lift]
  congr 1
  funext reply
  cases reply <;> rfl

@[simp] theorem lift_bind (program : Source.Accounts.Handler α) (next : α → Source.Accounts.Handler β) :
    lift (program >>= next) = lift program >>= fun value => lift (next value) := by
  simp only [bind_eq]
  induction program with
  | ret value => rfl
  | raise reason => rfl
  | exec stmt next_ ih => simp only [Program.bind, lift, ih]

/-- A statement of the accounts' services is one of the request, answered the same. -/
theorem lift_step {stmt : Source.Accounts.Stmt} {next : Source.Accounts.Reply stmt → Source.Accounts.Handler α}
    {Q : α → Known → Prop} (allowed : MayWrite rules known stmt)
    (then_ : ∀ reply, (routes rules).Grows (known ++ [⟨.account stmt, reply⟩]) (lift (next reply)) Q) :
    (routes rules).Grows known (lift (Source.Accounts.ask stmt >>= next)) Q := by
  rw [lift_bind, lift_ask]
  exact Grows.step allowed then_

theorem lift_last {stmt : Source.Accounts.Stmt} {Q : Source.Accounts.Reply stmt → Known → Prop}
    (allowed : MayWrite rules known stmt) (answered : ∀ reply, Q reply (known ++ [⟨.account stmt, reply⟩])) :
    (routes rules).Grows known (lift (Source.Accounts.ask stmt)) Q := by
  rw [lift_ask]
  exact .ask allowed answered

/-- The statements of a lifted program are those of the program. -/
theorem lift_within {kind : Stmt → Prop} {program : Source.Accounts.Handler α}
    (within : Within (fun stmt => kind (.account stmt)) program) : Within kind (lift program) := by
  unfold Within
  induction program with
  | ret value => trivial
  | raise reason => trivial
  | exec stmt next ih => exact ⟨within.1, fun reply _ _ => ih reply (within.2 reply () trivial)⟩

/-- What a reviewer's request may write. -/
def reviewing (actor : String) : Source.Accounts.Stmt → Prop
  | .insertMember _ row => row.roles = ["member"]
  | .flushMember _ loaded latest => latest.roles = loaded.roles
  | .flushSignupRequest _ _ latest => latest.decidedByStudentId = some actor ∧
      (latest.status = .approved ∨ latest.status = .rejected)
  | .insertIssueLog row => row.issuedByStudentId = actor
  | .insertSignupRequest _ | .insertAuth .. | .updateAuth .. => False
  | _ => True

/-- What a super_admin's request may write. -/
def administering : Source.Accounts.Stmt → Prop
  | .insertSignupRequest row => row.decidedByStudentId = none
  | .flushSignupRequest .. | .insertIssueLog _ | .insertAuth .. | .updateAuth .. => False
  | _ => True

/-- What anybody's request may write. -/
def applying : Source.Accounts.Stmt → Prop
  | .insertSignupRequest row => row.decidedByStudentId = none ∧ row.status = .pending
  | .insertMember .. | .flushMember .. | .flushSignupRequest .. | .insertIssueLog _ | .insertAuth ..
  | .updateAuth .. => False
  | _ => True

theorem reviewing_mayWrite {actor : String} (reviewer : Reviewer rules known actor) {stmt : Source.Accounts.Stmt}
    (kind : reviewing actor stmt) : MayWrite rules known stmt := by
  cases stmt with
  | insertMember studentId row => exact .inr ⟨kind, actor, reviewer⟩
  | flushMember studentId loaded latest => exact .inr ⟨kind, actor, reviewer⟩
  | flushSignupRequest id loaded latest => exact .inl ⟨actor, reviewer, kind⟩
  | insertIssueLog row =>
    cases kind
    exact reviewer
  | insertSignupRequest _ | insertAuth _ _ _ | updateAuth _ _ _ => exact kind.elim
  | _ => trivial

theorem administering_mayWrite (super : SuperAdmin rules known) {stmt : Source.Accounts.Stmt}
    (kind : administering stmt) : MayWrite rules known stmt := by
  cases stmt with
  | insertMember studentId row => exact .inl super
  | flushMember studentId loaded latest => exact .inl super
  | insertSignupRequest row => exact ⟨kind, .inr super⟩
  | flushSignupRequest _ _ _ | insertIssueLog _ | insertAuth _ _ _ | updateAuth _ _ _ => exact kind.elim
  | _ => trivial

theorem applying_mayWrite {stmt : Source.Accounts.Stmt} (kind : applying stmt) : MayWrite rules known stmt := by
  cases stmt with
  | insertSignupRequest row => exact ⟨kind.1, .inl kind.2⟩
  | insertMember _ _ | flushMember _ _ _ | flushSignupRequest _ _ _ | insertIssueLog _ | insertAuth _ _ _
  | updateAuth _ _ _ => exact kind.elim
  | _ => trivial

section Accounts

open Source.Accounts (DirectMemberCreatePayload SignupRequestCreate AdminMemberUpdate TextRules Member)

variable {kind : Source.Accounts.Stmt → Prop} {actor : String} (text : TextRules)

theorem saveMember_within {studentId : String} {loaded latest : Member}
    (here : kind (.flushMember studentId loaded latest)) :
    Within kind (Source.Accounts.saveMember studentId loaded latest) := by
  unfold Source.Accounts.saveMember
  split
  · exact .ret
  · exact .ask here

theorem memberConflict_within (rollback : kind .rollback) (reason : Failure) :
    Within kind (Source.Accounts.memberConflict reason) := by
  unfold Source.Accounts.memberConflict
  split
  · exact Within.bind (.ask rollback) fun _ => .raise
  · exact Within.bind (.ask rollback) fun _ => .raise
  · exact Within.bind (.ask rollback) fun _ => .raise
  · exact Within.bind (.ask rollback) fun _ => .raise
  · exact Within.bind (.ask rollback) fun _ => .raise
  · exact .raise

theorem repoGetMember_within (studentId : String) :
    Within administering (Source.Accounts.repoGetMember studentId) := by
  unfold Source.Accounts.repoGetMember
  refine .bind (.ask trivial) fun found => ?_
  cases found with
  | some member => exact .ret
  | none => exact .raise

theorem ensureNotLastSuperAdmin_within (code : String) :
    Within administering (Source.Accounts.ensureNotLastSuperAdmin code) := by
  unfold Source.Accounts.ensureNotLastSuperAdmin Source.Accounts.countActiveSuperAdmins
  refine Within.bind (Within.bind (.ask trivial) fun _ => .ask trivial) fun count => ?_
  split
  · exact .raise
  · exact .ret

/-- The change of the roles writes a member row and nothing else. -/
theorem updateMemberRoles_within (studentId actorStudentId : String) (roles : List String) :
    Within administering (Source.Accounts.updateMemberRoles text studentId actorStudentId roles) := by
  have saved (member : Member) (roles : List String) :
      Within administering (Source.Accounts.repoUpdateMemberRoles studentId member roles) := by
    unfold Source.Accounts.repoUpdateMemberRoles
    exact Within.bind (saveMember_within trivial) fun _ => Within.bind (.ask trivial) fun _ => .ask trivial
  unfold Source.Accounts.updateMemberRoles
  refine .bind (repoGetMember_within studentId) fun member => ?_
  extract_lets normalizedRoles
  split
  · exact .raise
  · split
    · exact .bind (ensureNotLastSuperAdmin_within _) fun _ => saved _ _
    · exact saved _ _

theorem updateMemberProfileAdmin_within (studentId : String) (payload : AdminMemberUpdate) :
    Within administering (Source.Accounts.updateMemberProfileAdmin text studentId payload) := by
  have free (stmt : Source.Accounts.Stmt) {code : String} (reads : administering stmt)
    (taken : Source.Accounts.Reply stmt → Bool) :
      Within administering (do if taken (← Source.Accounts.ask stmt) then raise (.api code) else pure () :
        Source.Accounts.Handler Unit) := by
    refine .bind (.ask reads) fun found => ?_
    split
    · exact .raise
    · exact .ret
  unfold Source.Accounts.updateMemberProfileAdmin
  refine .bind (repoGetMember_within studentId) fun member => ?_
  split
  · exact .ret
  · refine Within.bind ?_ fun _ => Within.bind ?_ fun _ => Within.bind ?_ fun _ =>
      Within.catch ?_ fun reason => memberConflict_within trivial reason
    · unfold Source.Accounts.ensureNotDeactivatingLastSuperAdmin
      split
      · exact ensureNotLastSuperAdmin_within _
      · exact .ret
    · unfold Source.Accounts.ensureEmailFree
      split
      · exact free (.emailTaken _ _) trivial id
      · exact .ret
    · unfold Source.Accounts.ensurePhoneFree
      split
      · exact free (.phoneTaken _ _) trivial id
      · exact .ret
    · unfold Source.Accounts.repoUpdateMemberProfileAdmin
      split
      · exact Within.bind (saveMember_within trivial) fun _ => Within.bind (.ask trivial) fun _ => .ask trivial
      · exact .raise

/-- A direct creation writes a member and an approved request without a reviewer. -/
theorem createMemberDirect_within (payload : DirectMemberCreatePayload) :
    Within administering (Source.Accounts.createMemberDirect text payload) := by
  unfold Source.Accounts.createMemberDirect
  refine .bind (.ask trivial) fun found => ?_
  cases found with
  | some member => exact .raise
  | none =>
    refine .bind (.ask trivial) fun taken => ?_
    split
    · exact .raise
    · refine Within.bind (.ask trivial) fun _ => Within.bind (.ask rfl) fun id => Within.bind ?_ fun _ =>
        Within.bind (.ask trivial) fun _ => .ret
      exact .catch (.ask trivial) fun reason => memberConflict_within trivial reason

theorem signupRequestById_within (id : Nat) :
    Within (reviewing actor) (Source.Accounts.signupRequestById id) := by
  unfold Source.Accounts.signupRequestById
  refine .bind (.ask trivial) fun found => ?_
  cases found with
  | some row => exact .ret
  | none => exact .raise

/-- An approval writes the role of a member, and its decision in the name of the reviewer. -/
theorem approveSignupRequest_within (id : Nat) :
    Within (reviewing actor) (Source.Accounts.approveSignupRequest id actor) := by
  unfold Source.Accounts.approveSignupRequest
  refine .bind (signupRequestById_within id) fun row => ?_
  split
  · exact .raise
  · refine .bind (.ask trivial) fun member => ?_
    split
    · exact .raise
    · refine Within.bind (.ask trivial) fun decidedAt => Within.bind ?_ fun _ =>
        Within.bind (.ask ⟨rfl, .inl rfl⟩) fun _ => Within.bind (.ask rfl) fun _ =>
          Within.bind (.ask trivial) fun _ =>
        Within.bind (.ask trivial) fun _ => Within.bind (.ask trivial) fun _ => .ret
      cases member with
      | none => exact .ask rfl
      | some member => exact saveMember_within rfl

/-- A rejection writes its decision in the name of the reviewer. -/
theorem rejectSignupRequest_within (id : Nat) (rejectReason : String) :
    Within (reviewing actor) (Source.Accounts.rejectSignupRequest id actor rejectReason) := by
  unfold Source.Accounts.rejectSignupRequest
  refine .bind (signupRequestById_within id) fun row => ?_
  split
  · exact .raise
  · exact Within.bind (.ask trivial) fun decidedAt => Within.bind (.ask ⟨rfl, .inr rfl⟩) fun _ =>
      Within.bind (.ask trivial) fun _ => .ask trivial

/-- A token is issued in the name of the reviewer. -/
theorem reissueSignupActivationToken_within (id : Nat) :
    Within (reviewing actor) (Source.Accounts.reissueSignupActivationToken id actor) := by
  unfold Source.Accounts.reissueSignupActivationToken
  refine .bind (signupRequestById_within id) fun row => ?_
  split
  · exact .raise
  · exact Within.bind (.ask rfl) fun _ => Within.bind (.ask trivial) fun _ =>
      Within.bind (.ask trivial) fun _ => .ret

theorem createSignupRequest_within (payload : SignupRequestCreate) :
    Within applying (Source.Accounts.createSignupRequest payload) := by
  have conflict (reason : Failure) : Within applying (Source.Accounts.signupConflict reason) := by
    unfold Source.Accounts.signupConflict
    split
    · exact Within.bind (.ask trivial) fun _ => .raise
    · exact Within.bind (.ask trivial) fun _ => .raise
    · exact Within.bind (.ask trivial) fun _ => .raise
    · exact .raise
  unfold Source.Accounts.createSignupRequest
  refine .bind (.ask trivial) fun existingMember => ?_
  split
  · exact .raise
  · refine .bind (.ask trivial) fun pending => ?_
    split
    · exact .raise
    · refine .catch ?_ conflict
      unfold Source.Accounts.repoCreateSignupRequest
      exact Within.bind (.ask ⟨rfl, rfl⟩) fun _ => Within.bind (.ask trivial) fun _ => .ask trivial

end Accounts

/-! ## Sessions and responses -/

/-- What a route may end with. -/
def Responds (rules : Rules) (done : Except Failure Response × Session) (known : Known) : Prop :=
  Entitled rules known done.2 ∧ Told rules known done.1

/-- A program whose exception is handled leaves what it knows when it succeeds. -/
theorem attempt_grows {program : Handler α} {Q : α → Known → Prop}
    (grows : (routes rules).Grows known program Q) :
    (routes rules).Grows known (attempt program) fun outcome phase => ∀ value, outcome = .ok value →
      Q value phase := by
  refine Grows.catch (grows.bind fun value phase _ returned => .ret ?_) fun reason phase _ => .ret (by simp)
  rintro other same
  cases same
  exact returned

/-- The session keeps the student of the cookie. -/
theorem SameStudent.entitled (same : SameStudent rules session after) (received : ⟨.receive, session⟩ ∈ known) :
    Entitled rules known after := by
  intro user found
  obtain ⟨claimed, seen, student⟩ := same user found
  exact .inl ⟨session, claimed, received, seen, student⟩

/-- The row that is selected is that of the student whom the session names. -/
theorem sessionRow_grows (session : Session) :
    (routes rules).Grows known (sessionRow rules session) fun row phase => Selected rules phase session row := by
  unfold sessionRow
  split
  · next user seen =>
    refine Grows.step trivial fun found => .ret ?_
    rintro selected same
    obtain ⟨row, stored, rfl⟩ := Option.map_eq_some_iff.mp same
    cases stored
    exact ⟨by simp, user, seen, rfl⟩
  · exact .ret (by simp [Selected])

/-- A check that lets the request through makes it act for its user. -/
theorem runCheck_acting {check : List MemberRow → Source.Auth.Handler α} {accepts : CurrentUser → α → Prop}
    (judges : Judges rules check accepts) {row : Option (String × Source.Accounts.Member)}
    (selected : Selected rules known session row) (received : ⟨.receive, session⟩ ∈ known)
    {outcome : Except Failure α} (ran : runCheck rules check row session = (outcome, after)) :
    SameStudent rules session after ∧ ∀ value, outcome = .ok value → ∃ user member, accepts user value ∧
      Acting rules known user ∧ row = some (user.studentId, member) ∧ Active known user.studentId member ∧
      user = refreshed rules user.studentId member ∧
      ∀ seen, getUserSession rules.toSessionRules after = .ok (some seen) → seen.email = user.email := by
  unfold runCheck at ran
  cases judged : result (check (rowsOf rules row)) session with
  | mk found left =>
    have same : (found.mapError raised, left) = (outcome, after) := by
      rw [← ran]
      exact congrArg (fun done => (done.1.mapError raised, done.2)) judged.symm
    cases same
    obtain ⟨current, currently, accepted⟩ := judges _ _ _ _ judged
    obtain ⟨student, refreshes⟩ := currentUser_found selected currently
    refine ⟨student, fun value returned => ?_⟩
    cases found with
    | error failure => cases returned
    | ok value' =>
      cases returned
      obtain ⟨user, rfl, accepts_⟩ := accepted _ rfl
      obtain ⟨⟨claimed, seen, claims⟩, ⟨member, stored, active, made⟩, email⟩ := refreshes user rfl
      exact ⟨user, member, accepts_, ⟨⟨session, claimed, received, seen, claims⟩, member, active, made⟩,
        stored, active,
        made, email⟩

/-- The body of a checked route runs for the user whom the check let pass. -/
theorem guarded_grows {check : List MemberRow → Source.Auth.Handler α} {accepts : CurrentUser → α → Prop}
    {body : α → Session → Handler Response} (judges : Judges rules check accepts)
    (received : ⟨.receive, session⟩ ∈ known)
    (acts : ∀ user member value after phase, accepts user value → Acting rules phase user →
      Active phase user.studentId member → user = refreshed rules user.studentId member →
      (∀ seen, getUserSession rules.toSessionRules after = .ok (some seen) → seen.email = user.email) →
      (routes rules).Grows phase (body value after) fun response phase => Told rules phase (.ok response)) :
    (routes rules).Grows known (guarded rules check body session) (Responds rules) := by
  unfold guarded
  refine (sessionRow_grows session).bind fun row phase more selected => ?_
  cases ran : runCheck rules check row session with
  | mk outcome after =>
    obtain ⟨student, acting⟩ := runCheck_acting judges selected (more received) ran
    cases outcome with
    | error reason => exact .ret ⟨student.entitled (more received), trivial⟩
    | ok value =>
      obtain ⟨user, member, accepted, acting, -, active, made, email⟩ := acting value rfl
      refine (attempt_grows (acts user member value after phase accepted acting active made email)).bind
        fun outcome last later told => .ret ⟨?_, ?_⟩
      · exact student.entitled (later (more received))
      · cases outcome with
        | error reason => trivial
        | ok response => exact told response rfl

/-- A route that signs somebody in sets a cookie for that student. -/
theorem signedIn_grows {signs : Handler CurrentUser} (received : ⟨.receive, session⟩ ∈ known)
    (grows : (routes rules).Grows known signs fun user phase =>
      LoggedIn phase user.studentId ∨ Activated phase user.studentId) :
    (routes rules).Grows known (signedIn signs session) (Responds rules) := by
  unfold signedIn
  refine (attempt_grows grows).bind fun outcome phase more signed => ?_
  cases outcome with
  | error reason => exact .ret ⟨sameStudent_refl.entitled (more received), trivial⟩
  | ok user =>
    refine .ret ⟨fun other found => ?_, trivial⟩
    rw [(getUserSession_set found).1]
    exact .inr (signed user rfl)

/-- The response of a route that follows the policy is allowed. -/
theorem serve_follows {endpoint : Endpoint}
    (grows : ∀ session, (routes rules).Grows [⟨.receive, session⟩] (endpoint session) (Responds rules)) :
    (routes rules).protocol.Follows [] (serve endpoint) := by
  refine Grows.follows (Q := fun _ _ => True) ?_
  unfold serve
  refine Grows.step trivial fun session => (grows session).bind fun done phase _ responds => ?_
  obtain ⟨outcome, after⟩ := done
  cases outcome with
  | ok response => exact .ask responds fun _ => trivial
  | error reason =>
    dsimp only
    split
    · exact .ask responds fun _ => trivial
    · exact .raise

/-! ## The routes of routers/auth.py -/

/-- The hash is that of a password which the policy accepts. -/
theorem hashPassword_grows (password : String) :
    (routes rules).Grows known (hashPassword password) fun passwordHash phase => Hashed phase passwordHash := by
  unfold hashPassword
  split
  · next encoded accepted => exact .ask trivial fun passwordHash => ⟨password, encoded, accepted, by simp⟩
  · exact .raise

/-- A password that matches has been verified against the hash that was read. -/
theorem verifyPassword_grows (studentId : String) {auth : MemberAuth} (password : String)
    (read : ⟨.account (.getAuth studentId), some auth⟩ ∈ known) :
    (routes rules).Grows known (verifyPassword password auth.passwordHash) fun matched phase =>
      matched = true → Verified phase studentId := by
  unfold verifyPassword
  refine Grows.step trivial fun answer => .ret fun matched => ⟨auth, password, by simp [read], ?_⟩
  have yes : answer = some true := by
    cases answer with
    | none => simp at matched
    | some value => simpa using matched
  simp [yes]

/-- Who signs in has verified the password, and was found active. -/
theorem loginMember_grows (studentId password : String) :
    (routes rules).Grows known (loginMember rules studentId password) fun user phase =>
      LoggedIn phase user.studentId := by
  unfold loginMember
  refine Grows.step trivial fun _ => Grows.step trivial fun member => Grows.step trivial fun creds => ?_
  split
  · next member creds =>
    refine (verifyPassword_grows studentId password (by simp)).bind fun matched phase more verified => ?_
    split
    · exact .raise
    · next yes =>
      split
      · exact .raise
      · split
        · exact .raise
        · next active =>
          split
          · exact .raise
          · have loggedIn : LoggedIn phase studentId :=
              ⟨verified (by simpa using yes), member, more (by simp), by simpa using active⟩
            exact .ret loggedIn
  · exact .raise

/-- The token resolves to an approved request of its student. -/
theorem resolveActivation_grows (payload : ActivationPayload) :
    (routes rules).Grows known (lift (Source.Accounts.resolveActivationSignupRequest payload)) fun row phase =>
      ⟨.account (.getSignupRequest payload.signupRequestId), some row⟩ ∈ phase ∧
        row.studentId = payload.studentId ∧
        row.status = .approved := by
  unfold Source.Accounts.resolveActivationSignupRequest
  refine lift_step trivial fun found => ?_
  cases found with
  | none => exact .raise
  | some row =>
    dsimp only
    split
    · exact .raise
    · next ofStudent =>
      split
      · exact .raise
      · split
        · exact .raise
        · next approved => exact .ret ⟨by simp, by simpa using ofStudent, by simpa using approved⟩

theorem resolveMember_grows (studentId : String) :
    (routes rules).Grows known (lift (Source.Accounts.resolveActivationMember studentId)) fun member phase =>
      Active phase studentId member := by
  unfold Source.Accounts.resolveActivationMember
  refine lift_step trivial fun found => ?_
  cases found with
  | none => exact .raise
  | some member =>
    dsimp only
    split
    · exact .raise
    · next active => exact .ret ⟨by simp, by simpa using active⟩

/-- The password is stored for the student whose request is activated. -/
theorem createOrUpdate_grows {id : Nat} {studentId passwordHash : String}
    (activating : Activating known id studentId)
    (hashed : Hashed known passwordHash) :
    (routes rules).Grows known (lift (Source.Accounts.createOrUpdateMemberAuth id studentId passwordHash))
      fun _ _ => True := by
  have sub (exchange : Exchange signIn) : known ⊆ known ++ [exchange] := List.subset_append_left ..
  unfold Source.Accounts.createOrUpdateMemberAuth
  refine lift_step trivial fun found => ?_
  cases found with
  | none =>
    exact lift_step ⟨activating.more (sub _), hashed.more (sub _)⟩ fun _ => lift_last trivial fun _ => trivial
  | some auth =>
    exact lift_step ⟨activating.more (sub _), hashed.more (sub _)⟩ fun _ => lift_last trivial fun _ => trivial

theorem activateMember_grows (token : Option ActivationPayload) (password : NewPassword) :
    (routes rules).Grows known (activateMember rules token password) fun user phase =>
      Activated phase user.studentId := by
  unfold activateMember
  refine Grows.step trivial fun _ => ?_
  cases token with
  | none => exact .raise
  | some payload =>
    dsimp only
    refine (resolveActivation_grows payload).bind fun row first _ found => ?_
    refine (resolveMember_grows payload.studentId).bind fun member second more active => ?_
    have activating : Activating second payload.signupRequestId payload.studentId :=
      ⟨⟨row, more found.1, found.2.1, found.2.2⟩, member, active⟩
    refine (hashPassword_grows password.password).bind fun passwordHash third more hashed => ?_
    replace activating := activating.more more
    refine (createOrUpdate_grows activating hashed).bind fun _ fourth more _ => ?_
    replace activating := activating.more more
    refine Grows.step trivial fun activatedAt => Grows.step (.inr ⟨rfl, rfl, _, activating.more ?_⟩) fun _ =>
      Grows.step trivial fun _ => Grows.step trivial fun _ =>
        .ret ⟨_, activating.more ?_, row,
          { row with status := .activated, activatedAt := some activatedAt }, rfl, ?_⟩
    · exact List.subset_append_left ..
    · intro exchange member
      simp [member]
    · simp

/-- A change stores the hash for the user who acts, after the current password was verified. -/
theorem changeMemberPassword_grows {user : CurrentUser} {member : CurrentMember}
    (acting : Acting rules known user)
    (named : member.studentId = user.studentId) (currentPassword : String) (newPassword : NewPassword) :
    (routes rules).Grows known (changeMemberPassword member currentPassword newPassword) fun _ _ => True := by
  unfold changeMemberPassword
  refine Grows.step trivial fun _ => Grows.step trivial fun auth => ?_
  cases auth with
  | none => exact .raise
  | some auth =>
    dsimp only
    refine (verifyPassword_grows member.studentId currentPassword (by simp)).bind
      fun matched phase more verified => ?_
    split
    · exact .raise
    · next yes =>
      refine (hashPassword_grows newPassword.password).bind fun newHash last more' hashed => ?_
      have grown : known ⊆ last := fun exchange member => more' (more (by simp [member]))
      refine Grows.step ⟨⟨user, acting.more grown, named.symm⟩, ?_, hashed⟩ fun _ => .ask trivial fun _ => trivial
      exact (verified (by simpa using yes)).more more'

/-- The email that is told is that of the user who acts. -/
theorem getMemberEmail_grows {user : CurrentUser} {member : CurrentMember} {row : Source.Accounts.Member}
    (acting : Acting rules known user) (named : member.studentId = user.studentId)
    (active : Active known user.studentId row) (made : user = refreshed rules user.studentId row)
    (email : ∀ seen, getUserSession rules.toSessionRules session = .ok (some seen) → seen.email = user.email) :
    (routes rules).Grows known (getMemberEmail rules member session) fun response phase =>
      Told rules phase (.ok response) := by
  unfold getMemberEmail
  split
  · next address seen =>
    refine .ret ⟨user, row, acting, active.1, ?_⟩
    have same : user.email = row.email := congrArg (·.email) made
    rw [← same, ← email _ seen]
    rfl
  · exact .raise
  · have found : (routes rules).Grows known (lift (Source.Accounts.repoGetMember member.studentId))
        fun found phase => ⟨.account (.getMember user.studentId), some found⟩ ∈ phase := by
      unfold Source.Accounts.repoGetMember
      refine lift_step trivial fun found => ?_
      cases found with
      | none => exact .raise
      | some found => exact .ret (by simp [named])
    exact found.bind fun found phase more read => .ret ⟨user, found, acting.more more, read, rfl⟩

/-- What the session tells is of the user who acts, or nothing. -/
theorem getSessionInfo_grows (received : ⟨.receive, session⟩ ∈ known) :
    (routes rules).Grows known (getSessionInfo rules session) (Responds rules) := by
  unfold getSessionInfo
  refine (sessionRow_grows session).bind fun row phase more selected => ?_
  cases current : result (Source.Auth.currentUser rules.toSessionRules (rowsOf rules row)) session with
  | mk found after =>
    have ran : runCheck rules (Source.Auth.currentUser rules.toSessionRules) row session =
        (found.mapError raised, after) := congrArg (fun done => (done.1.mapError raised, done.2)) current
    obtain ⟨student, refreshes⟩ := currentUser_found selected current
    have entitled : Entitled rules phase after := student.entitled (more received)
    rw [ran]
    cases found with
    | error failure => cases row <;> exact .ret ⟨entitled, trivial⟩
    | ok found =>
      cases found with
      | none => cases row <;> exact .ret ⟨entitled, trivial⟩
      | some user =>
        obtain ⟨⟨claimed, seen, claims⟩, ⟨member, rfl, active, made⟩, -⟩ := refreshes user rfl
        have acting : Acting rules phase user :=
          ⟨⟨session, claimed, more received, seen, claims⟩, member, active, made⟩
        exact .ret ⟨entitled, user, member, acting, active, made, rfl⟩

/-! ## All routes -/

theorem decided_grows {kind : Source.Accounts.Stmt → Prop} {program : Source.Accounts.Handler α}
    (within : Within kind program) (may : ∀ stmt, kind stmt → MayWrite rules known stmt) :
    (routes rules).Grows known (decided program) fun response phase => Told rules phase (.ok response) := by
  have lifted : Within (fun stmt => May rules known stmt) (lift program) :=
    lift_within (within.weaken may)
  exact (lifted.grows fun _ allowed => allowed).bind fun _ _ _ _ => .ret trivial

/-- Every route issues only what the policy allows it, and responds for the user that it acts for. -/
theorem endpoint_grows (request : Request) (session : Session) :
    (routes rules).Grows [⟨.receive, session⟩] (request.endpoint rules session) (Responds rules) := by
  have received : (⟨.receive, session⟩ : Exchange signIn) ∈ [⟨.receive, session⟩] := List.mem_singleton_self _
  cases request with
  | login studentId password =>
    refine signedIn_grows received ?_
    exact (loginMember_grows studentId password).weaken fun _ _ _ loggedIn => .inl loggedIn
  | logout => exact .ret ⟨sameStudent_cleared.entitled received, trivial⟩
  | activate token password =>
    refine signedIn_grows received ?_
    exact (activateMember_grows token password).weaken fun _ _ _ activated => .inr activated
  | changePassword currentPassword newPassword =>
    refine guarded_grows requireMember_judges received fun user _ member _ phase accepted acting _ _ _ => ?_
    have named : member.studentId = user.studentId := by rw [accepted.1]
    exact (changeMemberPassword_grows acting named currentPassword newPassword).bind fun _ _ _ _ => .ret trivial
  | me =>
    refine guarded_grows requireAdmin_judges received fun user row admin _ phase accepted acting _ made _ => ?_
    refine .ret ⟨user, acting, accepted.1, ?_⟩
    rw [accepted.2.1, made]
    rfl
  | memberMe =>
    refine guarded_grows requireMember_judges received
      fun user row member after phase accepted acting active made email => ?_
    have named : member.studentId = user.studentId := by rw [accepted.1]
    exact getMemberEmail_grows acting named active made email
  | session => exact getSessionInfo_grows received
  | memberSignup payload =>
    refine (attempt_grows (decided_grows (createSignupRequest_within payload) fun _ => applying_mayWrite)).bind
      fun outcome phase more told => .ret ⟨sameStudent_refl.entitled (more received), ?_⟩
    cases outcome with
    | error reason => trivial
    | ok response => exact told response rfl
  | approveSignupRequest id =>
    refine guarded_grows (requirePermission_judges "admin_signup") received
      fun user _ actor _ phase accepted acting _ _ _ => ?_
    have reviewer : Reviewer rules phase actor.studentId := ⟨user, acting, by rw [accepted.1], accepted.2⟩
    exact decided_grows (approveSignupRequest_within id) fun _ => reviewing_mayWrite reviewer
  | rejectSignupRequest id rejectReason =>
    refine guarded_grows (requirePermission_judges "admin_signup") received
      fun user _ actor _ phase accepted acting _ _ _ => ?_
    have reviewer : Reviewer rules phase actor.studentId := ⟨user, acting, by rw [accepted.1], accepted.2⟩
    exact decided_grows (rejectSignupRequest_within id rejectReason) fun _ => reviewing_mayWrite reviewer
  | reissueSignupActivationToken id =>
    refine guarded_grows (requirePermission_judges "admin_signup") received
      fun user _ actor _ phase accepted acting _ _ _ => ?_
    have reviewer : Reviewer rules phase actor.studentId := ⟨user, acting, by rw [accepted.1], accepted.2⟩
    exact decided_grows (reissueSignupActivationToken_within id) fun _ => reviewing_mayWrite reviewer
  | createMemberDirect payload =>
    refine guarded_grows requireSuperAdmin_judges received fun user _ actor _ phase accepted acting _ _ _ => ?_
    exact decided_grows (createMemberDirect_within _ payload) fun _ =>
      administering_mayWrite ⟨user, acting, accepted.2⟩
  | updateMemberAdmin studentId payload =>
    refine guarded_grows requireSuperAdmin_judges received fun user _ actor _ phase accepted acting _ _ _ => ?_
    exact decided_grows (updateMemberProfileAdmin_within _ studentId payload) fun _ =>
      administering_mayWrite ⟨user, acting, accepted.2⟩
  | updateMemberRoles studentId roles =>
    refine guarded_grows requireSuperAdmin_judges received fun user _ actor _ phase accepted acting _ _ _ => ?_
    exact decided_grows (updateMemberRoles_within _ studentId _ roles) fun _ =>
      administering_mayWrite ⟨user, acting, accepted.2⟩

theorem request_follows (request : Request) : (routes rules).protocol.Follows [] (request.program rules) :=
  serve_follows (endpoint_grows request)

end SogeconApp.Guarantees.SignIn
