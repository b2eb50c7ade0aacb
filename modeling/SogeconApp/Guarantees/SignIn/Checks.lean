import SogeconApp.Guarantees.SignIn.Policy

/-!
# The checks, seen from a request

A check that lets a request through does so for the user that the cookie and the row of its student make,
and the session that it leaves is the student's or nobody's.
-/

namespace SogeconApp.Guarantees.SignIn

open Library Program Source.SignIn
open SogeconApp.Source.Auth (CurrentAdmin CurrentMember CurrentUser MemberRow Session getUserSession getKey setKey
  cleared currentUser refreshUserSession refreshedUser userEntry unauthorized)
open SessionAuthority (result result_bind getKey_cleared getKey_setKey)

variable {rules : Rules} {known : Known} {session after : Session} {α : Type}

/-- The user entry is of the same student, or there is none. -/
def SameStudent (rules : Rules) (before after : Session) : Prop :=
  ∀ user, getUserSession rules.toSessionRules after = .ok (some user) →
    ∃ claimed, getUserSession rules.toSessionRules before = .ok (some claimed) ∧
      claimed.studentId = user.studentId

theorem sameStudent_refl : SameStudent rules session session := fun user found => ⟨user, found, rfl⟩

theorem sameStudent_cleared : SameStudent rules session (cleared session) := by
  intro user found
  simp [getUserSession] at found

/-- What was written into the session is read from it: the student id and the email. -/
theorem getUserSession_set {entry user : CurrentUser}
    (found : getUserSession rules.toSessionRules (setKey session "user" (userEntry entry)) = .ok (some user)) :
    user.studentId = entry.studentId ∧ user.email = entry.email := by
  obtain ⟨studentId, roles, id, email⟩ := entry
  unfold getUserSession at found
  rw [getKey_setKey] at found
  by_cases named : studentId = ""
  · simp [userEntry, getKey, named] at found
  · cases id <;> cases email <;>
      (simp [userEntry, getKey, List.lookup_cons, named, Source.Auth.sessionId, Source.Auth.textItem] at found
       subst found
       simp)

/-! ## The user of a session -/

/-- The row that was selected for the session. -/
def Selected (rules : Rules) (known : Known) (session : Session)
    (row : Option (String × Source.Accounts.Member)) :
    Prop :=
  ∀ found ∈ row, ⟨.account (.getMember found.1), some found.2⟩ ∈ known ∧
    ∃ claimed, getUserSession rules.toSessionRules session = .ok (some claimed) ∧ claimed.studentId = found.1

def rowsOf (rules : Rules) (row : Option (String × Source.Accounts.Member)) : List MemberRow :=
  row.toList.map fun found => memberRow rules found.1 found.2

/-- The user of the session is the one that the selected row makes. -/
structure Refreshed (rules : Rules) (known : Known) (session after : Session)
    (row : Option (String × Source.Accounts.Member)) (user : CurrentUser) : Prop where
  claimed : ∃ claimed, getUserSession rules.toSessionRules session = .ok (some claimed) ∧
    claimed.studentId = user.studentId
  row : ∃ member, row = some (user.studentId, member) ∧ Active known user.studentId member ∧
    user = refreshed rules user.studentId member
  email : ∀ seen, getUserSession rules.toSessionRules after = .ok (some seen) → seen.email = user.email

/-- A refresh clears the session, or leaves the entry of the row's user. -/
theorem refresh_cases (rules : Rules) (session : Session) (members : List MemberRow) (claimed : CurrentUser) :
    result (refreshUserSession rules.toSessionRules members claimed) session =
        (.error unauthorized, cleared session) ∨
      ∃ member, Source.Auth.getMemberByStudentId members claimed.studentId = some member ∧
        member.status = .active ∧ ∃ after,
          result (refreshUserSession rules.toSessionRules members claimed) session =
            (.ok (refreshedUser rules.toTextRules member), after) ∧
          (after = session ∧ refreshedUser rules.toTextRules member = claimed ∨
            after = setKey session "user" (userEntry (refreshedUser rules.toTextRules member))) := by
  unfold refreshUserSession
  cases Source.Auth.getMemberByStudentId members claimed.studentId with
  | none => exact .inl rfl
  | some member =>
    by_cases active : member.status = .active
    · refine .inr ⟨member, rfl, active, ?_⟩
      by_cases same : refreshedUser rules.toTextRules member = claimed
      · refine ⟨session, ?_, .inl ⟨rfl, same⟩⟩
        simp [active, same, result]
        rfl
      · refine ⟨_, ?_, .inr rfl⟩
        simp [active, same, result, Source.Auth.setUserSession]
        rfl
    · refine .inl ?_
      simp [active, result]
      rfl

theorem currentUser_error {failure : Source.Auth.Failure} (members : List MemberRow)
    (seen : getUserSession rules.toSessionRules session = .error failure) :
    result (currentUser rules.toSessionRules members) session = (.error failure, session) := by
  have read : result (get : Source.Auth.Handler Session) session = (.ok session, session) := rfl
  simp only [currentUser]
  rw [result_bind]
  simp only [read, seen]
  rfl

theorem rowsOf_find {row : Option (String × Source.Accounts.Member)} {studentId : String} {member : MemberRow}
    (found : Source.Auth.getMemberByStudentId (rowsOf rules row) studentId = some member) :
    ∃ stored, row = some (studentId, stored) ∧ member = memberRow rules studentId stored := by
  cases row with
  | none => simp [rowsOf, Source.Auth.getMemberByStudentId] at found
  | some selected =>
    obtain ⟨owner, stored⟩ := selected
    simp only [rowsOf, Source.Auth.getMemberByStudentId, Option.toList_some, List.map_cons, List.map_nil,
      List.find?_singleton, memberRow] at found
    split at found
    · next same =>
      simp only [decide_eq_true_eq] at same
      cases found
      exact ⟨stored, by rw [same], by rw [← same]; rfl⟩
    · cases found

/-- The user of the session is the one that the row makes. -/
structure MadeFrom (rules : Rules) (session after : Session) (row : Option (String × Source.Accounts.Member))
    (user : CurrentUser) : Prop where
  claimed : ∃ claimed, getUserSession rules.toSessionRules session = .ok (some claimed) ∧
    claimed.studentId = user.studentId
  row : ∃ member, row = some (user.studentId, member) ∧ member.status = .active ∧
    user = refreshed rules user.studentId member
  email : ∀ seen, getUserSession rules.toSessionRules after = .ok (some seen) → seen.email = user.email

/-- A current user is what the selected row makes, and the session stays that of the student or
nobody's. -/
theorem currentUser_row {row : Option (String × Source.Accounts.Member)}
    {outcome : Except Source.Auth.Failure (Option CurrentUser)}
    (ran : result (currentUser rules.toSessionRules (rowsOf rules row)) session = (outcome, after)) :
    SameStudent rules session after ∧ ∀ user, outcome = .ok (some user) →
      MadeFrom rules session after row user := by
  cases seen : getUserSession rules.toSessionRules session with
  | error failure =>
    rw [currentUser_error _ seen] at ran
    cases ran
    exact ⟨sameStudent_refl, by simp⟩
  | ok found =>
    rw [SessionAuthority.result_currentUser_of_seen _ _ seen] at ran
    cases found with
    | none =>
      cases ran
      exact ⟨sameStudent_refl, by simp⟩
    | some claimed =>
      dsimp only at ran
      rw [result_bind] at ran
      rcases refresh_cases rules session (rowsOf rules row) claimed with
        cleared_ | ⟨member, found, active, left, refreshed_, kept⟩
      · rw [cleared_] at ran
        cases ran
        exact ⟨sameStudent_cleared, by simp⟩
      · rw [refreshed_] at ran
        cases ran
        obtain ⟨stored, rfl, rfl⟩ := rowsOf_find found
        refine ⟨?_, ?_⟩
        · rcases kept with ⟨rfl, same⟩ | rfl
          · exact sameStudent_refl
          · intro user found
            exact ⟨claimed, seen, (getUserSession_set found).1.symm⟩
        · rintro user same
          cases same
          refine ⟨⟨claimed, seen, rfl⟩, ⟨stored, rfl, active, rfl⟩, fun other found => ?_⟩
          rcases kept with ⟨rfl, same⟩ | rfl
          · rw [seen] at found
            cases found
            rw [same]
          · exact (getUserSession_set found).2

theorem currentUser_found {row : Option (String × Source.Accounts.Member)}
    {outcome : Except Source.Auth.Failure (Option CurrentUser)} (selected : Selected rules known session row)
    (ran : result (currentUser rules.toSessionRules (rowsOf rules row)) session = (outcome, after)) :
    SameStudent rules session after ∧
      ∀ user, outcome = .ok (some user) → Refreshed rules known session after row user := by
  obtain ⟨student, made⟩ := currentUser_row ran
  refine ⟨student, fun user found => ?_⟩
  obtain ⟨claimed, ⟨member, rfl, active, same⟩, email⟩ := made user found
  exact ⟨claimed, ⟨member, rfl, ⟨(selected (user.studentId, member) rfl).1, active⟩, same⟩, email⟩

/-! ## Permission checks -/

/-- What the check returns is what it makes of the current user, and it leaves the session that the refresh
leaves. -/
def Judges (rules : Rules) (check : List MemberRow → Source.Auth.Handler α)
    (accepts : CurrentUser → α → Prop) : Prop :=
  ∀ members session outcome after, result (check members) session = (outcome, after) →
    ∃ found, result (currentUser rules.toSessionRules members) session = (found, after) ∧
      ∀ value, outcome = .ok value → ∃ user, found = .ok (some user) ∧ accepts user value

/-- A check that is made of the current user judges by it alone. -/
theorem judges_of {check : List MemberRow → Source.Auth.Handler α} {accepts : CurrentUser → α → Prop}
    (judge : CurrentUser → Source.Auth.Handler α)
    (same : ∀ members, check members = (currentUser rules.toSessionRules members >>= fun found =>
      match found with
      | none => throw unauthorized
      | some user => judge user))
    (quiet : ∀ user session, ∃ outcome, result (judge user) session = (outcome, session) ∧
      ∀ value, outcome = .ok value → accepts user value) : Judges rules check accepts := by
  intro members session outcome after ran
  rw [same, result_bind] at ran
  cases current : result (currentUser rules.toSessionRules members) session with
  | mk found left =>
    rw [current] at ran
    cases found with
    | error failure =>
      cases ran
      exact ⟨_, rfl, by simp⟩
    | ok found =>
      cases found with
      | none =>
        cases ran
        exact ⟨_, rfl, by simp⟩
      | some user =>
        obtain ⟨judged, judges, accepted⟩ := quiet user left
        dsimp only at ran
        rw [judges] at ran
        cases ran
        exact ⟨_, rfl, fun value returned => ⟨user, rfl, accepted value returned⟩⟩

theorem judge_ite {check : Prop} [Decidable check] {value : α} {failure : Source.Auth.Failure}
    {accepts : α → Prop} (accepted : check → accepts value) (session : Session) :
    ∃ outcome, result (if check then pure value else throw failure : Source.Auth.Handler α) session =
        (outcome, session) ∧ ∀ other, outcome = .ok other → accepts other := by
  split
  · next holds => exact ⟨.ok value, rfl, fun other same => by cases same; exact accepted holds⟩
  · exact ⟨.error failure, rfl, by simp⟩

/-- The member who passes is the current user, with a role of a member. -/
theorem requireMember_judges : Judges rules (Source.Auth.requireMember rules.toSessionRules) fun user member =>
    member = { studentId := user.studentId, id := user.id } ∧
      ("member" ∈ user.roles ∨ "admin" ∈ user.roles ∨ "super_admin" ∈ user.roles) := by
  refine judges_of _ (fun _ => rfl) fun user session => ?_
  split
  · exact ⟨_, rfl, by simp⟩
  · next listed =>
    refine ⟨_, rfl, fun value same => ?_⟩
    cases same
    exact ⟨rfl, by tauto⟩

/-- The one who passes is the current user, with the role of a super_admin. -/
theorem requireSuperAdmin_judges : Judges rules (requireSuperAdmin rules)
    fun user actor => actor = user ∧ "super_admin" ∈ user.roles := by
  refine judges_of (fun user => if "super_admin" ∈ user.roles then return user
    else throw (.http 403 "super_admin_required")) (fun _ => rfl) fun user session => ?_
  exact judge_ite (fun listed => ⟨rfl, listed⟩) session

theorem requirePermission_judges (permission : String) :
    Judges rules (Source.Auth.requireAnyPermission rules.toSessionRules [permission] false) fun user actor =>
      actor = user ∧ Source.Auth.hasPermission rules.toTextRules user.roles permission false = true := by
  refine judges_of (fun user => if [permission].any fun permission =>
      Source.Auth.hasPermission rules.toTextRules user.roles permission false then
    return user else throw (.http 403 "admin_permission_required")) (fun _ => rfl) fun user session => ?_
  refine judge_ite (fun permitted => ⟨rfl, ?_⟩) session
  simpa using permitted

/-- The administrator who passes is the current user, with a role of an administrator. -/
theorem requireAdmin_judges : Judges rules (Source.Auth.requireAdmin rules.toSessionRules) fun user admin =>
    ("admin" ∈ user.roles ∨ "super_admin" ∈ user.roles) ∧ admin.id = user.id.getD 0 ∧
      admin.studentId = user.studentId := by
  refine judges_of _ (fun _ => rfl) fun user session => ?_
  split
  · exact ⟨_, rfl, by simp⟩
  · next admin =>
    refine ⟨_, rfl, fun value same => ?_⟩
    cases same
    exact ⟨by tauto, rfl, rfl⟩

end SogeconApp.Guarantees.SignIn
