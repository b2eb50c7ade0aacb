import SogeconApp.Library.Lists
import SogeconApp.Source.Auth

/-!
# A session carries no authority

Two sessions of one student, over two databases with the same row for that student, get
the same outcome from every permission check, whatever the roles, id and email that their
entries carry; and the entry is the same in both afterwards. A session without a student id
is the exception to the second part: `_get_user_session` does not see it, so every check
refuses and leaves it as it is.
-/

namespace SogeconApp.Guarantees.SessionAuthority

open Library
open SogeconApp.Source.Accounts (TextRules normalizeRoles ensureMemberRole MemberStatus)
open SogeconApp.Source.Auth

inductive Answer where
  | member (identity : CurrentMember)
  | admin (identity : CurrentAdmin)
  | user (identity : CurrentUser)
  | truth (value : Bool)
  deriving DecidableEq, Repr

inductive EntryPoint where
  | requireMember
  | requireAdmin
  | requireSuperAdmin
  | requireAnyPermission (permission : String) (others : List String) (allowAdminFallback : Bool)
  | isAdmin
  | hasAnyPermission (permissions : List String)

def serve (rules : SessionRules) (members : List MemberRow) : EntryPoint → Handler Answer
  | .requireMember => return .member (← requireMember rules members)
  | .requireAdmin => return .admin (← requireAdmin rules members)
  | .requireSuperAdmin => return .user (← requireSuperAdmin rules members)
  | .requireAnyPermission permission others allowAdminFallback =>
    return .user (← requireAnyPermission rules (permission :: others) allowAdminFallback members)
  | .isAdmin => return .truth (← isAdmin rules members)
  | .hasAnyPermission permissions => return .truth (← hasAnyPermission rules permissions members)

/-- The outcome of a handler, and the session it leaves. -/
def result {α : Type} (handler : Handler α) (session : Session) : Except Failure α × Session :=
  handler.run.run session

/-- The session holds an entry that `_set_user_session` writes for the student. -/
def StoredFor (text : TextRules) (studentId : String) (session : Session) : Prop :=
  ∃ user : CurrentUser, user.studentId = studentId ∧ normalizeRoles text user.roles = user.roles ∧
    getKey session "user" = userEntry user

/-! ## The shape of the entry -/

/-- Roles that are trimmed, in lower case and all different are normalized to themselves. -/
theorem normalizeRoles_of_fixed {text : TextRules} {roles : List String} (distinct : roles.Nodup)
    (fixed : ∀ role ∈ roles, text.strip role = role ∧ text.lower role = role ∧ role ≠ "") :
    normalizeRoles text roles = roles := by
  have kept : (roles.filter fun part => text.strip part ≠ "") = roles := by
    rw [List.filter_eq_self]
    intro role member
    obtain ⟨strip, -, some⟩ := fixed role member
    simp [strip, some]
  have mapped : (roles.map fun part => text.lower (text.strip part)) = roles := by
    refine (List.map_congr_left fun role member => ?_).trans (List.map_id roles)
    obtain ⟨strip, lower, -⟩ := fixed role member
    rw [strip, lower, id_eq]
  unfold normalizeRoles
  rw [kept, mapped]
  exact eraseDups_of_nodup distinct

/-! ## Two runs side by side -/

/-- The same outcome, and sessions in the relation. -/
def Alike {α : Type} (rel : Session → Session → Prop) (left right : Handler α)
    (session session' : Session) : Prop :=
  (result left session).1 = (result right session').1 ∧
    rel (result left session).2 (result right session').2

section Rules

variable {α β : Type} {rel : Session → Session → Prop} {session session' : Session}

/-- Two runs that are alike, read apart. -/
theorem Alike.runs {left right : Handler α} (alike : Alike rel left right session session') :
    ∃ outcome after after', result left session = (outcome, after) ∧
      result right session' = (outcome, after') ∧ rel after after' :=
  ⟨(result left session).1, (result left session).2, (result right session').2, rfl,
    Prod.ext alike.1.symm rfl, alike.2⟩

theorem alike_pure (value : α) (related : rel session session') :
    Alike rel (pure value : Handler α) (pure value) session session' :=
  ⟨rfl, related⟩

theorem alike_throw (failure : Failure) (related : rel session session') :
    Alike rel (throw failure : Handler α) (throw failure) session session' :=
  ⟨rfl, related⟩

theorem alike_ite {check : Prop} [Decidable check] {left right left' right' : Handler α}
    (yes : Alike rel left left' session session') (no : Alike rel right right' session session') :
    Alike rel (if check then left else right) (if check then left' else right') session session' := by
  split
  · exact yes
  · exact no

/-- Of two handlers the second one runs in the session that the first one leaves, and only if that
succeeds. -/
theorem result_bind (first : Handler α) (next : α → Handler β) :
    result (first >>= next) session =
      match result first session with
      | (.ok value, after) => result (next value) after
      | (.error failure, after) => (.error failure, after) := by
  simp only [result, ExceptT.run_bind, StateT.run_bind]
  cases StateT.run (ExceptT.run first) session with
  | mk outcome after => cases outcome <;> rfl

/-- Handlers that go on alike after the same value are alike together. -/
theorem Alike.bind {left right : Handler α} {next next' : α → Handler β}
    (first : Alike rel left right session session')
    (rest : ∀ value after after', rel after after' → Alike rel (next value) (next' value) after after') :
    Alike rel (left >>= next) (right >>= next') session session' := by
  obtain ⟨outcome, after, after', ran, ran', related⟩ := first.runs
  unfold Alike
  rw [result_bind, result_bind, ran, ran']
  cases outcome with
  | ok value => exact rest value after after' related
  | error failure => exact ⟨rfl, related⟩

theorem result_tryCatch (body : Handler α) (rescue : Failure → Handler α) :
    result (tryCatch body rescue) session =
      match result body session with
      | (.ok value, after) => (.ok value, after)
      | (.error failure, after) => result (rescue failure) after := by
  simp only [result, tryCatch, tryCatchThe, MonadExceptOf.tryCatch, ExceptT.tryCatch, ExceptT.run_mk]
  rw [StateT.run_bind]
  simp only [ExceptT.run]
  cases StateT.run body session with
  | mk outcome after => cases outcome <;> rfl

/-- To turn a refusal into an answer keeps what is alike. -/
theorem Alike.falseOnUnauthorized {left right : Handler Bool}
    (body : Alike rel left right session session') :
    Alike rel (falseOnUnauthorized left) (falseOnUnauthorized right) session session' := by
  obtain ⟨outcome, after, after', ran, ran', related⟩ := body.runs
  unfold Alike Source.Auth.falseOnUnauthorized
  rw [result_tryCatch, result_tryCatch, ran, ran']
  cases outcome with
  | ok value => exact ⟨rfl, related⟩
  | error failure =>
    simp only
    split
    · exact ⟨rfl, related⟩
    · exact ⟨rfl, related⟩

end Rules

/-! ## The refresh -/

section Refresh

variable (rules : SessionRules) (members : List MemberRow) {studentId : String} {session : Session}

/-- What the member row of a student says. -/
def standing (studentId : String) : Except Failure CurrentUser :=
  match getMemberByStudentId members studentId with
  | some member =>
    if member.status = .active then .ok (refreshedUser rules.toTextRules member) else .error unauthorized
  | none => .error unauthorized

/-- The entry that the standing leaves in the session. -/
def entryOf : Except Failure CurrentUser → Value
  | .ok user => userEntry user
  | .error _ => .null

/-- An entry that names a student is read as it was stored. -/
theorem getUserSession_stored {user : CurrentUser} (named : user.studentId ≠ "")
    (normal : normalizeRoles rules.toTextRules user.roles = user.roles)
    (entry : getKey session "user" = userEntry user) :
    getUserSession rules session = .ok (some user) := by
  have texts : (user.roles.map Value.text).filterMap textItem = user.roles := by
    rw [List.filterMap_map]
    exact List.filterMap_some
  obtain ⟨sid, roles, id, email⟩ := user
  simp only at named normal texts
  unfold getUserSession
  rw [entry]
  cases id <;> cases email <;>
    simp [userEntry, getKey, List.lookup_cons, named, sessionId, normalizeRolesOf, texts, normal, textItem]

/-- An entry without a student id is not seen. -/
theorem getUserSession_nameless {user : CurrentUser} (nameless : user.studentId = "")
    (entry : getKey session "user" = userEntry user) : getUserSession rules session = .ok none := by
  unfold getUserSession
  rw [entry]
  simp [userEntry, getKey, nameless]

@[simp] theorem getKey_cleared : getKey (cleared session) "user" = .null := by
  have gone : (cleared session).lookup "user" = none := by
    rw [List.lookup_eq_none_iff]
    intro entry kept
    simp only [cleared, popKey, List.mem_filter, decide_eq_true_eq] at kept
    rw [bne_iff_ne]
    exact fun same => kept.1.1.2 same.symm
  rw [getKey, gone]
  rfl

@[simp] theorem getKey_setKey (key : String) (value : Value) :
    getKey (setKey session key value) key = value := by
  simp [getKey, setKey]

/-- The refresh answers with the standing of the student and leaves it in the entry. -/
theorem result_refresh (user : CurrentUser) (entry : getKey session "user" = userEntry user) :
    ∃ after, result (refreshUserSession rules members user) session =
        (standing rules members user.studentId, after) ∧
      getKey after "user" = entryOf (standing rules members user.studentId) := by
  unfold refreshUserSession standing
  cases getMemberByStudentId members user.studentId with
  | none => exact ⟨cleared session, rfl, getKey_cleared⟩
  | some member =>
    by_cases active : member.status = .active
    · by_cases same : refreshedUser rules.toTextRules member = user
      · refine ⟨session, ?_, ?_⟩
        · simp [active, same, result]
          rfl
        · simp [active, same, entryOf, entry]
      · refine ⟨setKey session "user" (userEntry (refreshedUser rules.toTextRules member)), ?_, ?_⟩
        · simp [active, same, result, setUserSession]
          rfl
        · simp [active, entryOf]
    · refine ⟨cleared session, ?_, ?_⟩
      · simp [active, result]
        rfl
      · simp [active, entryOf]

/-- The user that the session names is refreshed, if it names one. -/
theorem result_currentUser_of_seen {found : Option CurrentUser}
    (seen : getUserSession rules session = .ok found) :
    result (currentUser rules members) session =
      result (match found with
        | none => pure none
        | some user => do return some (← refreshUserSession rules members user)) session := by
  have read : result (get : Handler Session) session = (.ok session, session) := rfl
  simp only [currentUser]
  rw [result_bind]
  simp only [read, seen]
  cases found <;> rfl

theorem result_currentUser (named : studentId ≠ "")
    (stored : StoredFor rules.toTextRules studentId session) :
    ∃ after, result (currentUser rules members) session =
        ((standing rules members studentId).map some, after) ∧
      getKey after "user" = entryOf (standing rules members studentId) := by
  obtain ⟨user, rfl, normal, entry⟩ := stored
  obtain ⟨after, refreshed, left⟩ := result_refresh rules members user entry
  refine ⟨after, ?_, left⟩
  have seen := getUserSession_stored rules named normal entry
  rw [result_currentUser_of_seen rules members seen, result_bind, refreshed]
  cases standing rules members user.studentId <;> rfl

theorem result_currentUser_nameless (stored : StoredFor rules.toTextRules "" session) :
    result (currentUser rules members) session = (.ok none, session) := by
  obtain ⟨user, nameless, -, entry⟩ := stored
  have seen := getUserSession_nameless rules nameless entry
  rw [result_currentUser_of_seen rules members seen]
  rfl

end Refresh

/-! ## Every entry point reads the session through the refresh -/

section Serve

variable {rules : SessionRules} {members members' : List MemberRow} {session session' : Session}
  {rel : Session → Session → Prop}

/-- Every check is made of the current user, so it answers alike where that does. -/
theorem serve_alike (entry : EntryPoint)
    (current : Alike rel (currentUser rules members) (currentUser rules members') session session') :
    Alike rel (serve rules members entry) (serve rules members' entry) session session' := by
  cases entry with
  | requireMember =>
    apply Alike.bind (current.bind _) fun _ _ _ => alike_pure _
    intro user after after' related
    cases user with
    | none => exact alike_throw _ related
    | some user => exact alike_ite (alike_throw _ related) (alike_pure _ related)
  | requireAdmin =>
    apply Alike.bind (current.bind _) fun _ _ _ => alike_pure _
    intro user after after' related
    cases user with
    | none => exact alike_throw _ related
    | some user => exact alike_ite (alike_throw _ related) (alike_pure _ related)
  | requireSuperAdmin =>
    apply Alike.bind (current.bind _) fun _ _ _ => alike_pure _
    intro user after after' related
    cases user with
    | none => exact alike_throw _ related
    | some user => exact alike_ite (alike_pure _ related) (alike_throw _ related)
  | requireAnyPermission permission others allowAdminFallback =>
    apply Alike.bind (current.bind _) fun _ _ _ => alike_pure _
    intro user after after' related
    cases user with
    | none => exact alike_throw _ related
    | some user => exact alike_ite (alike_pure _ related) (alike_throw _ related)
  | isAdmin =>
    apply Alike.bind (Alike.falseOnUnauthorized (current.bind _)) fun _ _ _ => alike_pure _
    intro user after after' related
    cases user <;> exact alike_pure _ related
  | hasAnyPermission permissions =>
    apply Alike.bind (Alike.falseOnUnauthorized (current.bind _)) fun _ _ _ => alike_pure _
    intro user after after' related
    cases user <;> exact alike_pure _ related

end Serve

/-! ## The two-run statement -/

/-- The outcome depends on the student id and the member row alone, and so does the entry
that a session with a student id ends with. -/
theorem roles_carry_no_authority (rules : SessionRules) (members members' : List MemberRow)
    (studentId : String) (session session' : Session) (entry : EntryPoint)
    (row : getMemberByStudentId members studentId = getMemberByStudentId members' studentId)
    (stored : StoredFor rules.toTextRules studentId session)
    (stored' : StoredFor rules.toTextRules studentId session') :
    let left := result (serve rules members entry) session
    let right := result (serve rules members' entry) session'
    left.1 = right.1 ∧
      (studentId ≠ "" → getKey left.2 "user" = getKey right.2 "user") ∧
      (studentId = "" → left.2 = session ∧ right.2 = session') := by
  intro left right
  by_cases named : studentId = ""
  · subst named
    have current : Alike (fun after after' => after = session ∧ after' = session')
        (currentUser rules members) (currentUser rules members') session session' := by
      unfold Alike
      rw [result_currentUser_nameless rules members stored,
        result_currentUser_nameless rules members' stored']
      exact ⟨rfl, rfl, rfl⟩
    have alike := serve_alike entry current
    exact ⟨alike.1, fun named => absurd rfl named, fun _ => alike.2⟩
  · have same : standing rules members studentId = standing rules members' studentId := by
      unfold standing
      rw [row]
    have current : Alike (fun after after' => getKey after "user" = getKey after' "user")
        (currentUser rules members) (currentUser rules members') session session' := by
      obtain ⟨after, run, left⟩ := result_currentUser rules members named stored
      obtain ⟨after', run', left'⟩ := result_currentUser rules members' named stored'
      unfold Alike
      rw [run, run', same]
      refine ⟨rfl, ?_⟩
      change getKey after "user" = getKey after' "user"
      rw [left, left', same]
    have alike := serve_alike entry current
    exact ⟨alike.1, fun _ => alike.2, fun nameless => absurd nameless named⟩

/-! ## Concrete sessions -/

def plainRules : SessionRules := { TextRules.plain with intOf := fun _ => none }

def sessionOf (user : CurrentUser) : Session := [("user", userEntry user)]

theorem sessionOf_stored (user : CurrentUser)
    (normal : normalizeRoles plainRules.toTextRules user.roles = user.roles) :
    StoredFor plainRules.toTextRules user.studentId (sessionOf user) :=
  ⟨user, rfl, normal, by simp [sessionOf, getKey]⟩

def demoted : MemberRow :=
  { id := 7, studentId := "20180001", email := none, roles := "member", status := .active }

def staleUser : CurrentUser :=
  { studentId := "20180001", roles := ["member", "admin", "super_admin"], id := some 3,
    email := some "old@example.com" }

def freshUser : CurrentUser := { studentId := "20180001", roles := ["member"], id := none, email := none }

theorem roles_carry_no_authority_demoted :
    let left := result (serve plainRules [demoted] .requireAdmin) (sessionOf staleUser)
    let right := result (serve plainRules [demoted] .requireAdmin) (sessionOf freshUser)
    left.1 = .error (.http 403 "admin_required") ∧ left.1 = right.1 ∧
      getKey left.2 "user" = getKey right.2 "user" := by
  have alike := roles_carry_no_authority plainRules [demoted] [demoted] "20180001" (sessionOf staleUser)
    (sessionOf freshUser) .requireAdmin rfl (sessionOf_stored staleUser (by decide))
    (sessionOf_stored freshUser (by decide))
  exact ⟨by decide, alike.1, alike.2.1 (by decide)⟩

/-- A session without a student id, with roles of one's choice. -/
def namelessUser (roles : List String) : CurrentUser := { studentId := "", roles, id := none, email := none }

theorem nameless_entries_stay_apart :
    ∃ session session',
      StoredFor plainRules.toTextRules "" session ∧ StoredFor plainRules.toTextRules "" session' ∧
      getKey (result (serve plainRules [] .isAdmin) session).2 "user" ≠
        getKey (result (serve plainRules [] .isAdmin) session').2 "user" := by
  refine ⟨sessionOf (namelessUser ["member"]), sessionOf (namelessUser ["member", "admin"]),
    sessionOf_stored (namelessUser ["member"]) (by decide),
    sessionOf_stored (namelessUser ["member", "admin"]) (by decide), ?_⟩
  change userEntry (namelessUser ["member"]) ≠ userEntry (namelessUser ["member", "admin"])
  simp [userEntry, namelessUser]

end SogeconApp.Guarantees.SessionAuthority
