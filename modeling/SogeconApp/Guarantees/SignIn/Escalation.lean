import SogeconApp.Guarantees.SignIn.Provenance

/-!
# Nobody gains a role by themselves

Roles are written by requests that act for a super_admin only, and by approvals, which give the role `member`.
So where nobody who signs in was a super_admin at the start, nobody becomes one.
-/

namespace SogeconApp.Guarantees.SignIn

open Library Program Policy Source.SignIn
open SogeconApp.Source.Accounts (Failure Member TextRules normalizeRoles ensureMemberRole)

variable {rules : Source.SignIn.Rules} {first : Source.Accounts.World} {world world' : World}
  {trace : Trace signIn}
  {me : SessionId} {studentId : String}

/-- The roles at the start, or those of an approved member. -/
def RolesKept (first : Source.Accounts.World) (studentId : String) : Option Member → Prop
  | none => first.members.committed studentId = none
  | some row =>
    match first.members.committed studentId with
    | some before => row.roles = before.roles
    | none => row.roles = ["member"]

def rolesKept (first : Source.Accounts.World) : Rows where
  member := RolesKept first

/-- The row makes a super_admin. -/
def Powerful (rules : Source.SignIn.Rules) (studentId : String) (row : Member) : Prop :=
  "super_admin" ∈ (refreshed rules studentId row).roles

/-- Nobody who has signed in was a super_admin at the start. -/
def Powerless (rules : Source.SignIn.Rules) (first : Source.Accounts.World) (trace : Trace signIn) : Prop :=
  ∀ studentId, SignedIn trace studentId → ∀ row, first.members.committed studentId = some row →
    ¬ Powerful rules studentId row

/-- A member row that a request has read. -/
def RolesRead (first : Source.Accounts.World) (trace : Trace signIn) : Prop :=
  ∀ me studentId row, (me, ⟨.account (.getMember studentId), some row⟩) ∈ trace →
    RolesKept first studentId (some row)

theorem member_powerless {row : Member} (roles : row.roles = ["member"]) : ¬ Powerful rules studentId row := by
  have strip := rules.strip_token "member" (by decide)
  have lower := rules.lower_token "member" (by decide)
  have parts : Source.Auth.splitComma [] (String.intercalate "," ["member"]).toList = ["member"] := by decide
  have normal : normalizeRoles rules.toTextRules ["member"] = ["member"] :=
    SessionAuthority.normalizeRoles_of_fixed (by simp) (by simp [strip, lower])
  have made : (refreshed rules studentId row).roles = ["member"] := by
    change ensureMemberRole (normalizeRoles rules.toTextRules
      (Source.Auth.splitComma [] (String.intercalate "," row.roles).toList)) = ["member"]
    rw [roles, parts, normal]
    rfl
  rw [Powerful, made]
  decide

/-- No request acts for a super_admin. -/
theorem powerless_not_superAdmin (justified : (routes rules).Justifies trace)
    (circulated : Trace.Each Circulated trace)
    (powerless : Powerless rules first trace) (read : RolesRead first trace) :
    ¬ SuperAdmin rules (Trace.own me trace) := by
  rintro ⟨user, ⟨presented, row, ⟨found, active⟩, made⟩, listed⟩
  have signed := presented_signedIn justified circulated presented
  have kept := read me user.studentId row (Trace.mem_own.mp found)
  have powerful : Powerful rules user.studentId row := by
    rw [Powerful, ← made]
    exact listed
  cases stored : first.members.committed user.studentId with
  | some before =>
    refine powerless user.studentId signed before stored ?_
    simp only [RolesKept, stored] at kept
    have same : (refreshed rules user.studentId before).roles = (refreshed rules user.studentId row).roles := by
      simp only [refreshed, Source.Auth.refreshedUser, memberRow, kept]
    rw [Powerful, same]
    exact powerful
  | none =>
    simp only [RolesKept, stored] at kept
    exact member_powerless kept powerful

/-- Roles are kept as long as nobody powerful has signed in. -/
structure Unescalated (rules : Source.SignIn.Rules) (first : Source.Accounts.World) (world : World)
    (trace : Trace signIn) : Prop where
  cookies : Cookies world trace
  kept : Powerless rules first trace → (rolesKept first).Hold world.db ∧ RolesRead first trace

theorem flushed_roles {loaded latest : Member} (stored : Member) (same : latest.roles = loaded.roles) :
    (Source.Accounts.flushedMember loaded latest stored).roles = stored.roles := by
  simp [Source.Accounts.flushedMember, Source.Accounts.changed, same]

/-- Without a super_admin, what may be written keeps the roles. -/
theorem mayWrite_rolesKept {known : Known} {db : Source.Accounts.World} {stmt : Stmt}
    (powerless : ¬ SuperAdmin rules known)
    (may : May rules known stmt) (hold : (rolesKept first).Hold db) :
    (rolesKept first).RequestWrites me db stmt := by
  cases stmt with
  | account stmt =>
    cases stmt with
    | insertMember studentId row =>
      intro absent
      have missing : first.members.committed studentId = none := by
        have read := hold.members.row me studentId
        rwa [absent] at read
      have roles := (may.resolve_left powerless).1
      simp only [rolesKept, RolesKept, missing]
      exact roles
    | flushMember studentId loaded latest =>
      intro stored seen
      have read := hold.members.row me studentId
      rw [seen] at read
      have roles := flushed_roles stored (may.resolve_left powerless).1
      simp only [rolesKept, RolesKept, roles] at read ⊢
      exact read
    | flushSignupRequest id loaded latest => exact fun _ _ => trivial
    | _ => trivial
  | _ => trivial

theorem unescalated_keeps : (routes rules).Keeps (machine rules) (Unescalated rules first) where
  exec world trace me stmt choice reply world' inv justified allowed done := by
    refine ⟨cookies_keeps.exec world trace me stmt choice reply world' inv.cookies justified allowed done,
      fun powerless => ?_⟩
    have before : Powerless rules first trace := fun studentId signed =>
      powerless studentId (signed.more (List.subset_append_left ..))
    obtain ⟨hold, read⟩ := inv.kept before
    have nobody : ¬ SuperAdmin rules (Trace.own me trace) :=
      powerless_not_superAdmin justified inv.cookies.circulated before read
    refine ⟨hold.exec (fun _ _ => mayWrite_rolesKept nobody allowed hold) done,
      fun other studentId row member => ?_⟩
    rcases List.mem_append.mp member with earlier | now
    · exact read other studentId row earlier
    · cases reply with
      | error reason => simp [Trace.recorded] at now
      | ok answer =>
        have same := List.mem_singleton.mp now
        cases same
        obtain ⟨⟨reply', db⟩, ran, told⟩ := Option.map_eq_some_iff.mp done
        cases told
        unfold Source.Accounts.exec at ran
        split at ran
        · cases ran
        · have seen : world.db.members.row me studentId = some row := by
            simp only [Source.Accounts.answer, Option.some.injEq, Prod.mk.injEq, Except.ok.injEq] at ran
            exact ran.1
          have kept := hold.members.row me studentId
          rwa [seen] at kept
  close world trace me inv := ⟨cookies_keeps.close world trace me inv.cookies, fun powerless =>
    ⟨(inv.kept powerless).1.rollback, (inv.kept powerless).2⟩⟩
  crash world trace me inv := ⟨cookies_keeps.crash world trace me inv.cookies, fun powerless =>
    ⟨(inv.kept powerless).1.rollback, (inv.kept powerless).2⟩⟩
  outside world trace change inv := nomatch change

/-- Whatever cookies are presented by whomever: if nobody who signs in was a super_admin at the start, every
member still has the roles of the start, and every new one the role `member` alone. -/
theorem no_escalation (rules : Source.SignIn.Rules) (db : Source.Accounts.World) (rest : Rows.AtRest db)
    (requests : SessionId → Option Request) (actions : List (Action (machine rules).traced))
    (after : Config (machine rules).traced Unit) (reached : (start rules db requests).run actions = some after)
    (powerless : Powerless rules db after.world.2) (studentId : String) :
    RolesKept db studentId (after.world.1.db.members.committed studentId) := by
  have begins : Unescalated rules db { db, issued := [] } [] := by
    refine ⟨⟨by simp, Trace.each_nil⟩, fun _ =>
      ⟨⟨rest.members.versions fun studentId => ?_, rest.requests.versions fun _ => trivial,
      rest.issueLogs.versions fun _ => trivial, rest.auths.versions fun _ => trivial⟩, by simp [RolesRead]⟩⟩
    cases stored : db.members.committed studentId with
    | none => exact stored
    | some row => simp [rolesKept, RolesKept, stored]
  obtain ⟨inv, -⟩ := unescalated_keeps.run rfl begins (follows db requests) reached
  exact (inv.kept powerless).1.members.committed studentId

/-- The first request signs in, the second asks for the role. -/
def ambitiousRequests : SessionId → Option Request
  | 0 => some (.login "s" "password")
  | 1 => some (.updateMemberRoles "s" ["super_admin"])
  | _ => none

theorem no_escalation_refused : ∃ after,
    (start sampleRules sampleAccounts ambitiousRequests).run signInAndLook = some after ∧
    (1, ⟨.respond sampleSession (.error (.http 403 "super_admin_required")), ()⟩) ∈ after.world.2 ∧
    RolesKept sampleAccounts "s" (after.world.1.db.members.committed "s") := by
  have trace : ((start sampleRules sampleAccounts ambitiousRequests).run signInAndLook).map
    (fun after => after.world.2) =
      some [(0, ⟨.receive, []⟩), (0, ⟨.consumeLimit, ()⟩), (0, ⟨.account (.getMember "s"), some sampleMember⟩),
        (0, ⟨.account (.getAuth "s"), some { passwordHash := "0password" }⟩),
        (0, ⟨.checkpw (FormUrlencoded.utf8 "password") "0password", some true⟩),
          (0, ⟨.respond sampleSession (.ok .ok), ()⟩),
        (1, ⟨.receive, sampleSession⟩), (1, ⟨.account (.getMember "s"), some sampleMember⟩),
        (1, ⟨.respond sampleSession (.error (.http 403 "super_admin_required")), ()⟩)] := by rfl
  obtain ⟨after, reached, same⟩ := Option.map_eq_some_iff.mp trace
  have powerless : Powerless sampleRules sampleAccounts after.world.2 := by
    rw [same]
    rintro studentId ⟨me, ⟨⟨auth, password, read, -⟩, -⟩ | ⟨id, -, loaded, latest, -, flushed⟩⟩ row stored
    · have named : studentId = "s" := by
        have listed := Trace.mem_own.mp read
        simp at listed
        exact listed.2.1
      subst named
      cases stored
      exact member_powerless rfl
    · have listed := Trace.mem_own.mp flushed
      simp at listed
  refine ⟨after, reached, by simp [same], ?_⟩
  exact no_escalation sampleRules sampleAccounts sampleAccounts_atRest ambitiousRequests signInAndLook
    after reached
    powerless "s"

end SogeconApp.Guarantees.SignIn
