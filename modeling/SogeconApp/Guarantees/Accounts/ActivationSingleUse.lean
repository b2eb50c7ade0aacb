import SogeconApp.Source.Accounts.Signup

/-!
# Single use of an activation

`activate_member` commits the password and only then marks the request as activated. Between
the two commits a password is stored and the request says `approved`: a crash leaves it so,
and the same token stores another password. The code keeps the two in step exactly as long
as no transaction that stores a password commits.
-/

namespace SogeconApp.Guarantees.ActivationSingleUse

open Library Program Source.Accounts

def activated (world : World) (id : Nat) : Bool :=
  (world.signupRequests.committed id).any fun row => row.status = .activated

/-- At most one password stored through each request, and one exactly if it is activated. -/
def SingleUse (world : World) : Prop :=
  ∀ id, world.stored id ≤ 1 ∧ (0 < world.stored id ↔ activated world id = true)

/-- The statement is no commit of a password. -/
def StoresNothing (world : World) (me : SessionId) (stmt : Stmt) (choice : Choice) : Prop :=
  stmt = .commit → choice.fails = none → world.storing me = none

instance (world : World) (me : SessionId) (stmt : Stmt) (choice : Choice) :
    Decidable (StoresNothing world me stmt choice) :=
  inferInstanceAs (Decidable (_ → _))

/-! ## Phases -/

inductive Phase where
  /-- No password written in the open transaction. -/
  | loading
  | storing
  /-- The password is committed. -/
  | stored
  deriving DecidableEq

def Phase.next (phase : Phase) : (stmt : Stmt) → Except Failure (Reply stmt) → Phase
  | .insertAuth .., .ok _ | .updateAuth .., .ok _ => .storing
  | .commit, .ok _ => if phase = .storing then .stored else phase
  | _, _ => phase

def Phase.allow (phase : Phase) : Stmt → Prop
  | .getSignupRequest _ | .getMember _ | .getAuth _ | .now | .refresh | .commit => True
  | .insertAuth .. | .updateAuth .. => phase = .loading
  | .flushSignupRequest .. => phase = .stored
  | _ => False

abbrev handler : Protocol accounts where
  Phase := Phase
  gone := .loading
  allow := Phase.allow
  next := Phase.next
  answers _ _ := True

/-- The request of the token is only read, so the session stays in the phase it is in. -/
theorem resolveActivationSignupRequest_through (phase : Phase) (payload : ActivationPayload) :
    handler.Through phase (resolveActivationSignupRequest payload) fun _ reached => reached = phase := by
  refine .step trivial fun found _ => ?_
  split
  · exact .raise
  · split
    · exact .raise
    · split
      · exact .raise
      · split
        · exact .raise
        · exact .ret rfl

theorem resolveActivationMember_through (phase : Phase) (studentId : String) :
    handler.Through phase (resolveActivationMember studentId) fun _ reached => reached = phase := by
  refine .step trivial fun found _ => ?_
  split
  · exact .raise
  · split
    · exact .raise
    · exact .ret rfl

theorem createOrUpdateMemberAuth_through (through : Nat) (studentId passwordHash : String) :
    handler.Through .loading (createOrUpdateMemberAuth through studentId passwordHash)
      fun _ reached => reached = .stored := by
  refine .step trivial fun found _ => ?_
  cases found with
  | none => exact .step rfl fun _ _ => .ask trivial fun _ _ => rfl
  | some row => exact .step rfl fun _ _ => .ask trivial fun _ _ => rfl

theorem activateMember_through (token : Option ActivationPayload) (passwordHash : String) :
    handler.Through .loading (activateMember token passwordHash) fun _ _ => True := by
  cases token with
  | none => exact .raise
  | some payload =>
    refine (resolveActivationSignupRequest_through _ payload).bind ?_
    rintro row _ rfl
    refine (resolveActivationMember_through _ payload.studentId).bind ?_
    rintro _ _ rfl
    refine (createOrUpdateMemberAuth_through _ payload.studentId passwordHash).bind ?_
    rintro _ _ rfl
    refine .step trivial fun _ _ => .step rfl fun _ _ => ?_
    exact .step trivial fun _ _ => .ask trivial fun _ _ => trivial

/-! ## The invariant -/

/-- Nobody has stored a password, so no request is about to be marked. -/
structure ActivationInv (world : World) (phase : SessionId → Phase) : Prop where
  once : SingleUse world
  quiet : world.signupRequests.Quiet
  early : ∀ me, phase me ≠ .stored
  open_ : ∀ me, phase me = .storing → world.storing me ≠ none

variable {world world' : World} {phase : SessionId → Phase} {me : SessionId}

theorem ActivationInv.still (inv : ActivationInv world phase) :
    ActivationInv world (Function.update phase me (phase me)) := by
  rw [Function.update_eq_self]
  exact inv

theorem ActivationInv.write (inv : ActivationInv world phase) (auths : Table String MemberAuth) (through : Nat) :
    ActivationInv { world with auths, storing := Function.update world.storing me (some through) }
      (Function.update phase me .storing) := by
  refine ⟨inv.once, inv.quiet, fun other => ?_, fun other storing => ?_⟩
  · by_cases mine : other = me
    · subst mine
      simp
    · rw [Function.update_of_ne mine]
      exact inv.early other
  · by_cases mine : other = me
    · subst mine
      simp
    · rw [Function.update_of_ne mine] at storing
      simp only [Function.update_of_ne mine]
      exact inv.open_ other storing

theorem ActivationInv.commit (inv : ActivationInv world phase) (idle : world.storing me = none) :
    ActivationInv (world.commit me) (Function.update phase me ((phase me).next .commit (.ok ()))) := by
  have loading : (phase me).next .commit (.ok ()) = phase me := by
    have unstored : phase me ≠ .storing := fun storing => inv.open_ me storing idle
    simp [Phase.next, unstored]
  have same : (world.commit me).stored = world.stored := by
    funext id
    simp [World.commit, idle]
  rw [loading, Function.update_eq_self]
  refine ⟨fun id => ?_, ?_, inv.early, fun other storing => ?_⟩
  · have kept : activated (world.commit me) id = activated world id := by
      simp [activated, World.commit, inv.quiet.commit_eq]
    rw [same, kept]
    exact inv.once id
  · simp only [World.commit, inv.quiet.commit_eq]
    exact inv.quiet
  · have held := inv.open_ other storing
    have different : other ≠ me := by
      rintro rfl
      exact held idle
    simp only [World.commit, Function.update_of_ne different]
    exact held

/-- A rollback discards what the session has written, and the session is back at its first phase. -/
theorem ActivationInv.rollback (inv : ActivationInv world phase) :
    ActivationInv (world.rollback me) (Function.update phase me .loading) := by
  refine ⟨fun id => ?_, ?_, fun other => ?_, fun other storing => ?_⟩
  · have kept : activated (world.rollback me) id = activated world id := by
      simp [activated, World.rollback]
    rw [kept]
    exact inv.once id
  · simp only [World.rollback, inv.quiet.abort_eq]
    exact inv.quiet
  · by_cases mine : other = me
    · subst mine
      simp
    · rw [Function.update_of_ne mine]
      exact inv.early other
  · by_cases mine : other = me
    · subst mine
      simp at storing
    · rw [Function.update_of_ne mine] at storing
      simp only [World.rollback, Function.update_of_ne mine]
      exact inv.open_ other storing

/-- Every answered statement that a phase allows keeps the invariant, as long as it is no commit of a
password. -/
theorem ActivationInv.answer (inv : ActivationInv world phase) {stmt : Stmt} {choice : Choice}
    {reply : Except Failure (Reply stmt)} (succeeds : choice.fails = none)
    (idle : StoresNothing world me stmt choice) (allowed : (phase me).allow stmt)
    (done : Source.Accounts.answer me stmt choice world = some (reply, world')) :
    ActivationInv world' (Function.update phase me ((phase me).next stmt reply)) := by
  cases stmt with
  | now | getMember _ | getSignupRequest _ | getAuth _ | refresh =>
    cases done
    exact inv.still
  | insertAuth through studentId row =>
    rcases insertAuth_cases done with ⟨⟨reason, rfl⟩, rfl⟩ | ⟨rfl, rfl⟩
    · exact inv.still
    · exact inv.write _ through
  | updateAuth through studentId passwordHash =>
    rcases updateAuth_cases done with ⟨⟨reason, rfl⟩, rfl⟩ | ⟨rfl, rfl⟩
    · exact inv.still
    · exact inv.write _ through
  | flushSignupRequest id loaded latest => exact absurd allowed (inv.early me)
  | commit =>
    cases done
    exact inv.commit (idle rfl succeeds)
  | emailTaken _ _ | phoneTaken _ _ | advisoryLock | countActiveMembersWithRole _ | insertMember _ _
  | flushMember _ _ _ | pendingByStudentId _ | insertSignupRequest _ | insertIssueLog _ | rollback =>
    exact absurd allowed id

/-- Over every interleaving in which no password is committed, each request has been used as often as it
is marked. -/
theorem activationInv_keeps : handler.Keeps machine StoresNothing ActivationInv where
  exec := by
    refine Protocol.Keeps.exec_of_answer answering ?_ ?_
    · intro phase stmt reason
      cases stmt <;> rfl
    · intro world phase me stmt choice reply world' inv idle allowed succeeds answered
      exact inv.answer succeeds idle allowed answered
  known _ _ _ _ _ _ _ _ _ := trivial
  close _ _ _ inv := inv.rollback
  crash _ _ _ inv := inv.rollback
  outside _ _ change _ := nomatch change

/-- The commit of a password breaks single use, whatever the request said before. -/
theorem ActivationInv.broken (inv : ActivationInv world phase) {id : Nat} (storing : world.storing me = some id) :
    ¬ SingleUse (world.commit me) := by
  intro once
  have before := inv.once id
  have after := once id
  have counted : (world.commit me).stored id = world.stored id + 1 := by simp [World.commit, storing]
  have kept : activated (world.commit me) id = activated world id := by
    simp [activated, World.commit, inv.quiet.commit_eq]
  rw [counted, kept] at after
  have marked : activated world id = true := after.2.mp (by omega)
  have stored := before.2.mpr marked
  omega

/-- `SingleUse` holds in the state that each part of the schedule leads to. -/
def AlwaysSingleUse (config : Config machine Unit) (actions : List (Action machine)) : Prop :=
  ∀ first rest middle, actions = first ++ rest → config.run first = some middle → SingleUse middle.world

/-- A run in which the passwords stay in step with the marks commits no password: such a commit would be
one that no mark accounts for yet. -/
theorem meets_of_always {config : Config machine Unit} {actions : List (Action machine)}
    (holds : handler.Holds ActivationInv config) (always : AlwaysSingleUse config actions) :
    config.Meets StoresNothing actions := by
  induction actions generalizing config with
  | nil => trivial
  | cons action rest ih =>
    have now : ∀ me choice stmt next, action = .exec me choice → config.pool me = some (.exec stmt next) →
        StoresNothing config.world me stmt choice := by
      rintro me choice stmt next rfl running rfl succeeds
      cases storing : config.world.storing me with
      | none => rfl
      | some id =>
        have stepped : config.step (.exec me choice) = some
            { world := config.world.commit me,
              pool := Function.update config.pool me (some (next (.ok ()))) } := by
          simp [Config.step, running, Source.Accounts.exec, succeeds, Source.Accounts.answer]
        obtain ⟨phase, inv, -, -⟩ := holds
        have reached : config.run [.exec me choice] = some
            { world := config.world.commit me,
              pool := Function.update config.pool me (some (next (.ok ()))) } := by
          simp only [Config.run, stepped, Option.bind_some]
        exact absurd (always [.exec me choice] rest _ rfl reached) (inv.broken storing)
    refine ⟨now, fun after stepped => ih (activationInv_keeps.step holds now stepped) ?_⟩
    intro first others middle parts reached
    refine always (action :: first) others middle (by rw [parts, List.cons_append]) ?_
    simp only [Config.run, stepped, Option.bind_some, reached]

theorem always_of_meets {config : Config machine Unit} {actions : List (Action machine)}
    (holds : handler.Holds ActivationInv config) (meets : config.Meets StoresNothing actions) :
    AlwaysSingleUse config actions := by
  rintro first rest middle rfl reached
  obtain ⟨phase, inv, -, -⟩ := activationInv_keeps.run holds (meets.append reached).1 reached
  exact inv.once

/-- Activations that all have still to begin start within the invariant, if nothing is drafted and the
store is in step. -/
theorem start_holds {text : TextRules} {world : World} {requests : SessionId → Option Request}
    (activations : ∀ me request, requests me = some request →
      ∃ token passwordHash, request = .activateMember token passwordHash)
    (quiet : world.signupRequests.Quiet) (once : SingleUse world) :
    handler.Holds ActivationInv (start text world requests) := by
  refine ⟨fun _ => .loading, ⟨once, quiet, ?_, ?_⟩, fun me program running => ?_, fun _ _ => rfl⟩
  · intro me stored
    cases stored
  · intro me storing
    cases storing
  · obtain ⟨request, given, rfl⟩ := Option.map_eq_some_iff.mp running
    obtain ⟨token, passwordHash, rfl⟩ := activations me request given
    exact (activateMember_through token passwordHash).follows

/-- Activations interleaved in any way, with failures and crashes anywhere: passwords and
request statuses are in step in every state of the run if and only if no commit of the run
stores a password. -/
theorem single_use_iff_stores_nothing (text : TextRules) (world : World) (requests : SessionId → Option Request)
    (activations : ∀ me request, requests me = some request →
      ∃ token passwordHash, request = .activateMember token passwordHash)
    (quiet : world.signupRequests.Quiet) (once : SingleUse world) (actions : List (Action machine)) :
    AlwaysSingleUse (start text world requests) actions ↔
      (start text world requests).Meets StoresNothing actions :=
  ⟨meets_of_always (start_holds activations quiet once), always_of_meets (start_holds activations quiet once)⟩

/-! ## One approved request -/

/-- Request 0 of an active member is approved. -/
def approvedRequest : World :=
  { World.blank with
    members := .seeded [("kim",
      { email := none, name := "kim", cohort := 1, major := none, roles := ["member"], status := .active })]
    signupRequests := .seeded [(0,
      { studentId := "kim", email := "kim@x", name := "kim", cohort := 1, status := .approved })]
    nextRequest := 1 }

/-- Two calls with the one token. -/
def sameToken (me : SessionId) : Option Request :=
  if me < 2 then some (.activateMember (some ⟨0, "kim"⟩) (if me = 0 then "first" else "second")) else none

theorem sameToken_activations (me : SessionId) (request : Request) (given : sameToken me = some request) :
    ∃ token passwordHash, request = .activateMember token passwordHash := by
  unfold sameToken at given
  split at given
  · cases given
    exact ⟨_, _, rfl⟩
  · cases given

theorem approvedRequest_once : SingleUse approvedRequest := by
  intro id
  have unmarked : activated approvedRequest id = false := by
    by_cases here : id = 0
    · subst here
      decide
    · simp [activated, approvedRequest, Table.seeded, Table.committed, Table.commit, Table.write,
        Table.empty, here,
        Slot.commit]
  have unstored : approvedRequest.stored id = 0 := rfl
  rw [unmarked, unstored]
  decide

/-- The session crashes before its first commit. -/
theorem single_use_iff_stores_nothing_interrupted :
    AlwaysSingleUse (start .plain approvedRequest sameToken) (executes 0 4 ++ [.crash 0]) :=
  (single_use_iff_stores_nothing .plain approvedRequest sameToken sameToken_activations (Table.seeded_quiet _)
    approvedRequest_once _).mpr (Config.meets_of_checks (by decide))

set_option maxRecDepth 10000 in
/-- The session crashes after its first commit, and the token stores another password. -/
theorem crash_then_replay_stores_twice : ∃ crashed after,
    (start .plain approvedRequest sameToken).run (executes 0 5 ++ [.crash 0]) = some crashed ∧
      crashed.world.stored 0 = 1 ∧ activated crashed.world 0 = false ∧
      crashed.run (executes 1 9) = some after ∧ after.world.stored 0 = 2 := by
  have first : ((start .plain approvedRequest sameToken).run (executes 0 5 ++ [.crash 0])).map
      (fun crashed => (crashed.world.stored 0, activated crashed.world 0,
        (crashed.run (executes 1 9)).map fun after => after.world.stored 0)) =
          some (1, false, some 2) := by decide
  obtain ⟨crashed, reached, same⟩ := Option.map_eq_some_iff.mp first
  simp only [Prod.mk.injEq] at same
  obtain ⟨stored, approved, again⟩ := same
  obtain ⟨after, onward, twice⟩ := Option.map_eq_some_iff.mp again
  exact ⟨crashed, after, reached, stored, approved, onward, twice⟩

end SogeconApp.Guarantees.ActivationSingleUse
