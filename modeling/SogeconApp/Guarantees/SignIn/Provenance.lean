import SogeconApp.Guarantees.SignIn.Routes
import SogeconApp.Guarantees.SignIn.Rows

/-!
# Where a cookie comes from

A cookie that a response sets is for the student of the cookie presented or of a sign-in in the same
request, and a cookie presented was set before. So behind every cookie of a student, and behind everything
that is done in the student's name, there is an earlier sign-in of that student.
-/

namespace SogeconApp.Guarantees.SignIn

open Library Program Policy Source.SignIn
open SogeconApp.Source.Accounts (Failure)
open SogeconApp.Source.Auth (CurrentUser Session getUserSession)

variable {rules : Source.SignIn.Rules} {known : Known} {trace : Trace signIn} {me : SessionId}
  {studentId : String}

/-- A password of the student was verified, or a request of the student activated. -/
def SignedIn (trace : Trace signIn) (studentId : String) : Prop :=
  ∃ me, LoggedIn (Trace.own me trace) studentId ∨ Activated (Trace.own me trace) studentId

theorem SignedIn.more {later : Trace signIn} (signed : SignedIn trace studentId) (sub : trace ⊆ later) :
    SignedIn later studentId := by
  obtain ⟨me, signs⟩ := signed
  exact ⟨me, signs.imp (·.more (Trace.own_subset sub me)) (·.more (Trace.own_subset sub me))⟩

/-- A request presents no cookie, or one that was set. -/
def Circulated (earlier : Trace signIn) (entry : SessionId × Exchange signIn) : Prop :=
  ∀ session, entry.2 = ⟨.receive, session⟩ →
    session = [] ∨ ∃ other outcome, (other, ⟨.respond session outcome, ()⟩) ∈ earlier

structure Cookies (world : World) (trace : Trace signIn) : Prop where
  issued : ∀ session ∈ world.issued, ∃ other outcome, (other, ⟨.respond session outcome, ()⟩) ∈ trace
  circulated : Trace.Each Circulated trace

/-- A statement that sets no cookie keeps where the cookies come from. -/
theorem Cookies.keep {world world' : World} {recorded : Trace signIn} (cookies : Cookies world trace)
    (same : world'.issued = world.issued) (circulated : Trace.Each Circulated (trace ++ recorded)) :
    Cookies world' (trace ++ recorded) where
  issued session member := by
    rw [same] at member
    obtain ⟨other, outcome, responded⟩ := cookies.issued session member
    exact ⟨other, outcome, List.mem_append_left _ responded⟩
  circulated := circulated

/-- Over every interleaving each cookie was set by a response, and each one presented was set before. -/
theorem cookies_keeps : (routes rules).Keeps (machine rules) Cookies where
  exec world trace me stmt choice reply world' cookies _ _ done := by
    have others (other : stmt ≠ .receive) : Trace.Each Circulated (trace ++ Trace.recorded me stmt reply) := by
      refine cookies.circulated.recorded fun answer _ session same => ?_
      cases same
      exact absurd rfl other
    cases stmt with
    | account stmt =>
      obtain ⟨⟨reply', db⟩, -, same⟩ := Option.map_eq_some_iff.mp done
      cases same
      exact cookies.keep rfl (others (by simp))
    | receive =>
      cases done
      refine cookies.keep rfl (cookies.circulated.recorded fun answer found session same => ?_)
      cases found
      cases same
      cases presented : choice.cookie.bind fun place => world.issued[place]? with
      | none => exact .inl rfl
      | some session =>
        obtain ⟨place, -, stored⟩ := Option.bind_eq_some_iff.mp presented
        exact .inr (cookies.issued session (List.mem_of_getElem? stored))
    | consumeLimit =>
      simp only [Source.SignIn.exec] at done
      split at done <;> cases done <;> exact cookies.keep rfl (others (by simp))
    | checkpw encoded passwordHash | hashpw encoded =>
      cases done
      exact cookies.keep rfl (others (by simp))
    | changeAuth studentId passwordHash =>
      simp only [Source.SignIn.exec] at done
      split at done
      · cases done
        exact cookies.keep rfl (others (by simp))
      · obtain ⟨⟨reply', db⟩, -, same⟩ := Option.map_eq_some_iff.mp done
        cases same
        exact cookies.keep rfl (others (by simp))
    | respond session outcome =>
      cases done
      refine ⟨fun other member => ?_, others (by simp)⟩
      rcases List.mem_append.mp member with before | now
      · obtain ⟨owner, told, responded⟩ := cookies.issued other before
        exact ⟨owner, told, List.mem_append_left _ responded⟩
      · obtain rfl := List.mem_singleton.mp now
        exact ⟨me, outcome, by simp [Trace.recorded]⟩
  close world trace me cookies := ⟨cookies.issued, cookies.circulated⟩
  crash world trace me cookies := ⟨cookies.issued, cookies.circulated⟩
  outside world trace change cookies := nomatch change

/-- Behind a cookie that is presented there is a sign-in of its student, by induction on what came before. -/
theorem presented_signedIn (justified : (routes rules).Justifies trace) (circulated : Trace.Each Circulated trace)
    (presented : Presented rules (Trace.own me trace) studentId) : SignedIn trace studentId := by
  induction length : trace.length using Nat.strongRecOn generalizing trace me with
  | ind count ih =>
    obtain ⟨session, user, received, seen, rfl⟩ := presented
    obtain ⟨earlier, later, split⟩ := List.append_of_mem (Trace.mem_own.mp received)
    rcases circulated earlier _ later split session rfl with rfl | ⟨other, outcome, responded⟩
    · cases seen
    · obtain ⟨first, between, split'⟩ := List.append_of_mem responded
      have whole : trace = first ++ ((other, ⟨.respond session outcome, ()⟩) :: between ++
          (me, ⟨.receive, session⟩) :: later) := by
        rw [split, split']
        simp
      have sub : first ⊆ trace := by
        rw [whole]
        exact List.subset_append_left ..
      have allowed : May rules (Trace.own other first) (.respond session outcome) :=
        justified first (other, ⟨.respond session outcome, ()⟩) _ whole
      rcases allowed.1 user seen with again | signs
      · have shorter : first.length < count := by
          rw [← length, whole, List.length_append]
          simp
        rw [whole] at justified circulated
        exact (ih first.length shorter justified.front circulated.front again rfl).more sub
      · exact SignedIn.more ⟨other, signs⟩ sub

theorem follows (db : Source.Accounts.World) (requests : SessionId → Option Request) :
    ∀ me program, (start rules db requests).pool me = some program →
      (routes rules).protocol.Follows [] program := by
  intro me program running
  obtain ⟨request, -, rfl⟩ := Option.map_eq_some_iff.mp running
  exact request_follows request

/-- Every run is justified, and its cookies were set before. -/
theorem run_justified {db : Source.Accounts.World} {requests : SessionId → Option Request}
    {actions : List (Action (machine rules).traced)} {after : Config (machine rules).traced Unit}
    (reached : (start rules db requests).run actions = some after) :
    Trace.Each Circulated after.world.2 ∧ (routes rules).Justifies after.world.2 := by
  have begins : Cookies { db, issued := [] } [] := ⟨by simp, Trace.each_nil⟩
  obtain ⟨cookies, justified⟩ := cookies_keeps.run rfl begins (follows db requests) reached
  exact ⟨cookies.circulated, justified⟩

/-- Whoever presents any cookie at any time: a cookie that is set is for a student who has signed in before,
and what a response tells is of a student whose cookie the request presented, whose row it found active, and
who has signed in before. -/
theorem session_provenance (rules : Source.SignIn.Rules) (db : Source.Accounts.World)
    (requests : SessionId → Option Request)
    (actions : List (Action (machine rules).traced)) (after : Config (machine rules).traced Unit)
    (reached : (start rules db requests).run actions = some after) (earlier later : Trace signIn) (me : SessionId)
    (session : Session) (outcome : Except Failure Response)
    (split : after.world.2 = earlier ++ (me, ⟨.respond session outcome, ()⟩) :: later) :
    (∀ user, getUserSession rules.toSessionRules session = .ok (some user) → SignedIn earlier user.studentId) ∧
      Told rules (Trace.own me earlier) outcome ∧
      ∀ user, Acting rules (Trace.own me earlier) user → SignedIn earlier user.studentId := by
  obtain ⟨circulated, justified⟩ := run_justified reached
  have allowed : May rules (Trace.own me earlier) (.respond session outcome) :=
    justified earlier (me, ⟨.respond session outcome, ()⟩) later split
  rw [split] at circulated justified
  have before : ∀ studentId, Presented rules (Trace.own me earlier) studentId → SignedIn earlier studentId :=
    fun _ presented => presented_signedIn justified.front circulated.front presented
  refine ⟨fun user seen => ?_, allowed.2, fun user acting => before _ acting.1⟩
  rcases allowed.1 user seen with presented | signs
  · exact before _ presented
  · exact ⟨me, signs⟩

/-! ## A sign-in and a look at the session -/

/-- A hash that shows the salt, then the password. -/
def sampleHash (encoded : FormUrlencoded.Bytes) (salt : Nat) : String :=
  String.ofList ((if salt = 0 then '0' else '1') :: encoded.map Char.ofUInt8)

theorem ofUInt8_injective : Function.Injective Char.ofUInt8 := by
  intro byte other same
  have codes : byte.toUInt32 = other.toUInt32 := congrArg Char.val same
  exact UInt8.toUInt32_inj.mp codes

theorem sampleHash_inj {encoded other : FormUrlencoded.Bytes} {salt again : Nat}
    (same : sampleHash encoded salt = sampleHash other again) : encoded = other := by
  have chars := String.ofList_injective same
  exact ofUInt8_injective.list_map (List.cons.inj chars).2

/-- A bcrypt with two salts, which matches a hash with the password it is of and with no other. -/
def sampleRules : Source.SignIn.Rules where
  toTextRules := .plain
  intOf _ := none
  idOf _ := 7
  checkpw encoded passwordHash :=
    some (decide (passwordHash = sampleHash encoded 0 ∨ passwordHash = sampleHash encoded 1))
  hashpw := sampleHash

/-- It matches a hash with the password that the hash is of, and with no other. -/
theorem sampleRules_checkpw (encoded other : FormUrlencoded.Bytes) (salt : Nat) :
    sampleRules.checkpw encoded (sampleRules.hashpw other salt) = some (decide (other = encoded)) := by
  have either : sampleHash other salt = sampleHash other 0 ∨ sampleHash other salt = sampleHash other 1 := by
    unfold sampleHash
    split <;> simp
  have matches_iff : (sampleHash other salt = sampleHash encoded 0 ∨
    sampleHash other salt = sampleHash encoded 1) ↔
      other = encoded := by
    constructor
    · rintro (same | same) <;> exact sampleHash_inj same
    · rintro rfl
      exact either
  simp only [sampleRules, matches_iff]

def sampleMember : Source.Accounts.Member where
  email := some "a@example.com"
  name := "name"
  cohort := 20
  major := none
  roles := ["member"]
  status := .active

def sampleAccounts : Source.Accounts.World :=
  { Source.Accounts.World.blank with
    members := Table.seeded [("s", sampleMember)]
    auths := Table.seeded [("s", { passwordHash := "0password" })] }

theorem sampleAccounts_atRest : Rows.AtRest sampleAccounts :=
  ⟨Table.seeded_quiet _, fun _ => rfl, fun _ => rfl, Table.seeded_quiet _⟩

/-- The first request signs in, the second presents the cookie. -/
def sampleRequests : SessionId → Option Request
  | 0 => some (.login "s" "password")
  | 1 => some .session
  | _ => none

def signInAndLook : List (Action (machine sampleRules).traced) :=
  List.replicate 6 (.exec 0 {}) ++ [.exec 1 { cookie := some 0 }, .exec 1 {}, .exec 1 {}]

def sampleUser : CurrentUser where
  studentId := "s"
  roles := ["member"]
  id := some 7
  email := some "a@example.com"

def sampleSession : Session := [("user", Source.Auth.userEntry sampleUser)]

def sampleInfo : SessionInfo where
  kind := "member"
  studentId := "s"
  email := "a@example.com"
  name := "name"
  id := 7
  roles := ["member"]

theorem session_provenance_look : ∃ after earlier,
    (start sampleRules sampleAccounts sampleRequests).run signInAndLook = some after ∧
    after.world.2 = earlier ++ [(1, ⟨.respond sampleSession (.ok (.session sampleInfo)), ()⟩)] ∧
    SignedIn earlier "s" := by
  have trace : ((start sampleRules sampleAccounts sampleRequests).run signInAndLook).map
    (fun after => after.world.2) =
      some ([(0, ⟨.receive, []⟩), (0, ⟨.consumeLimit, ()⟩), (0, ⟨.account (.getMember "s"), some sampleMember⟩),
        (0, ⟨.account (.getAuth "s"), some { passwordHash := "0password" }⟩),
        (0, ⟨.checkpw (FormUrlencoded.utf8 "password") "0password", some true⟩),
          (0, ⟨.respond sampleSession (.ok .ok), ()⟩),
        (1, ⟨.receive, sampleSession⟩), (1, ⟨.account (.getMember "s"), some sampleMember⟩)] ++
        [(1, ⟨.respond sampleSession (.ok (.session sampleInfo)), ()⟩)]) := by rfl
  obtain ⟨after, reached, same⟩ := Option.map_eq_some_iff.mp trace
  have provenance := session_provenance sampleRules sampleAccounts sampleRequests signInAndLook after
    reached _ [] 1
    sampleSession (.ok (.session sampleInfo)) same
  exact ⟨after, _, reached, same, provenance.1 sampleUser rfl⟩

end SogeconApp.Guarantees.SignIn
