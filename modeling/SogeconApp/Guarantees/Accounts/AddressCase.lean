import SogeconApp.Guarantees.Accounts.UniqueColumns
import SogeconApp.Source.Accounts.Profile

/-!
# E-mail addresses that differ in case

An update puts the address in lower case before it looks it up and stores it. A direct creation and a
signup request take it as it is spelled, and the column compares spellings. Two members get one
address in two spellings then; without such a pair at the start, and with no request that stores
another spelling of an address that is there, no run reaches one.
-/

namespace SogeconApp.Guarantees.AddressCase

open Library Program Source.Accounts
open AccountsAlone UniqueColumns

/-- The address without its case. -/
def folded (text : TextRules) (row : Member) : Option String := row.email.map text.lower

/-- No two members have addresses that are equal ignoring case. -/
def CaseUnique (text : TextRules) (world : World) : Prop :=
  Distinct (folded text) world.members.committed

/-- Who else has the address has it in the same spelling. -/
def Spelled (text : TextRules) (view : String → Option Member) (studentId address : String) : Prop :=
  ∀ other row email, other ≠ studentId → view other = some row → row.email = some email →
    text.lower email = text.lower address → email = address

/-- The address that a request is to store for the student: the payload's or the signup request's as
it is, or the sanitized one of an update. -/
def Stores (text : TextRules) (world : World) : AddressRequest → String → String → Prop
  | .createMemberDirect payload, studentId, address =>
    studentId = payload.studentId ∧ world.members.committed studentId = none ∧ address = payload.email
  | .createSignupRequest _, _, _ => False
  | .approveSignupRequest id _, studentId, address =>
    ∃ request, world.signupRequests.committed id = some request ∧ request.status = .pending ∧
      studentId = request.studentId ∧ world.active studentId = false ∧ address = request.email
  | .updateMemberProfile target payload, studentId, address =>
    studentId = target ∧ (world.members.committed studentId).isSome = true ∧
      (sanitize text payload.fields).email = some (some address)
  | .updateMemberProfileAdmin target payload, studentId, address =>
    studentId = target ∧ (world.members.committed studentId).isSome = true ∧
      (sanitize text payload).email = some (some address)

/-- The request stores no other spelling of an address that another member has. -/
def StoresSpelled (text : TextRules) (world : World) (request : AddressRequest) : Prop :=
  ∀ studentId address, Stores text world request studentId address →
    Spelled text world.members.committed studentId address

variable {me : SessionId} {world world' : World} {text : TextRules} {studentId : String} {member : Member}

/-! ## What a session keeps -/

/-- A member row is written in the spelling that the others have. -/
def permits (text : TextRules) (me : SessionId) (world : World) (stmt : Stmt) : Prop :=
  ∀ studentId row, Writes me world stmt studentId row → ∀ address, row.email = some address →
    Spelled text (world.members.row me) studentId address

structure Cased (text : TextRules) (me : SessionId) (world : World) : Prop
    extends Keyed me world where
  published : Distinct (folded text) world.members.committed
  seen : Distinct (folded text) (world.members.row me)

/-- An address in the spelling of the others is free without its case as well. -/
theorem folded_free {view : String → Option Member} {row : Member}
    (spelled : ∀ address, row.email = some address → Spelled text view studentId address)
    (free : ¬Taken Member.email view studentId row.email) :
    ¬Taken (folded text) view studentId (folded text row) := by
  rintro ⟨some_, other, row', different, found, same⟩
  cases written : row.email with
  | none => simp [folded, written] at some_
  | some address =>
    simp only [folded, written, Option.map_some, Option.map_eq_some_iff] at same
    obtain ⟨email, has, folds⟩ := same
    have equal := spelled address written other row' email different found has folds
    refine free ⟨by simp [written], other, row', different, found, ?_⟩
    rw [has, written, equal]

theorem Cased.exec (cased : Cased text me world) {stmt : Stmt} {choice : Choice}
    {reply : Except Failure (Reply stmt)} (permitted : permits text me world stmt)
    (done : machine.exec me stmt choice world = some (reply, world')) : Cased text me world' := by
  obtain ⟨published, seen⟩ := view_exec cased.toSolo cased.published cased.seen
    (fun studentId row wrote => cased.seen.write
      (folded_free (permitted studentId row wrote.writes) wrote.email)) done
  exact ⟨cased.toKeyed.exec done, published, seen⟩

/-! ## The handlers -/

/-- What a request may issue while it runs alone. -/
abbrev spelling (text : TextRules) (me : SessionId) : Rules accounts World :=
  machine.issuing me (permits text me)

section Handlers

/-- The end of a handler that has written what it writes. -/
theorem commit_refresh_through :
    (spelling text me).Through world (do ask .commit; ask .refresh) fun _ _ => True :=
  .step nofun fun _ _ _ => .ask nofun fun _ _ _ => trivial

theorem createSignupRequest_through (payload : SignupRequestCreate) :
    (spelling text me).Through world (createSignupRequest payload) fun _ _ => True := by
  refine .step nofun fun member world _ => ?_
  split
  · exact .raise
  · refine .step nofun fun pending world _ => ?_
    split
    · exact .raise
    · refine .catch (.step nofun fun _ _ _ => commit_refresh_through) fun reason reached => ?_
      exact signupConflict_through reason nofun

/-- A new member takes an address in the spelling of the others. -/
theorem permits_insert {row : Member} {address : String} (has : row.email = some address)
    (spelled : Spelled text (world.members.row me) studentId address) :
    permits text me world (.insertMember studentId row) := by
  intro student row' writes address' has'
  cases writes
  rw [has, Option.some.injEq] at has'
  subst has'
  exact spelled

/-- A write of a member that the session has read is permitted if the address to be stored is spelled as
the others have it. -/
theorem permits_flush {latest : Member} (seen : world.members.row me studentId = some member)
    (spelled : ∀ address, latest.email = some address →
      Spelled text (world.members.row me) studentId address) :
    permits text me world (.flushMember studentId member latest) := by
  intro student row writes address has
  cases writes with
  | @flush _ _ _ stored found =>
    rw [seen, Option.some.injEq] at found
    subst found
    rw [flushedMember_loaded] at has
    exact spelled address has

theorem saveMember_through {latest : Member} (seen : world.members.row me studentId = some member)
    (spelled : ∀ address, latest.email = some address →
      Spelled text (world.members.row me) studentId address) :
    (spelling text me).Through world (saveMember studentId member latest) fun _ _ => True := by
  unfold saveMember
  split
  · exact .ret trivial
  · exact .ask (permits_flush seen spelled) fun _ _ _ => trivial

theorem approveSignupRequest_through (id : Nat) (decidedByStudentId : String)
    (spelled : ∀ request, world.signupRequests.row me id = some request → request.status = .pending →
      (world.members.row me request.studentId).any (fun member => member.status = .active) = false →
        Spelled text (world.members.row me) request.studentId request.email) :
    (spelling text me).Through world (approveSignupRequest id decidedByStudentId) fun _ _ => True := by
  refine (signupRequestById_through id nofun).bind ?_
  rintro row world ⟨rfl, seen⟩
  split
  · exact .raise
  · next pending =>
    have pending : row.status = .pending := by simpa using pending
    refine through_read (fun _ => world.members.row me row.studentId) (fun _ => rfl) nofun
      fun choice => ?_
    split
    · exact .raise
    · next inactive =>
      have spelled := spelled row seen pending (by simpa using inactive)
      refine through_read (fun choice => choice.now) (fun _ => rfl) nofun fun choice => ?_
      have saves : (spelling text me).Through world
          (saveApprovedMember row (world.members.row me row.studentId)) fun _ _ => True := by
        cases found : world.members.row me row.studentId with
        | none => exact .ask (permits_insert rfl spelled) fun _ _ _ => trivial
        | some member =>
          refine saveMember_through found fun address has => ?_
          obtain rfl : row.email = address := by simpa using has
          exact spelled
      refine saves.bind fun _ _ _ => ?_
      refine .step nofun fun _ _ _ => .step nofun fun _ _ _ => .step nofun fun _ _ _ => ?_
      exact .step nofun fun _ _ _ => .step nofun fun _ _ _ => .ret trivial

theorem createMemberDirect_through (payload : DirectMemberCreatePayload)
    (spelled : world.members.row me payload.studentId = none →
      Spelled text (world.members.row me) payload.studentId payload.email) :
    (spelling text me).Through world (createMemberDirect text payload) fun _ _ => True := by
  refine through_read (fun _ => world.members.row me payload.studentId) (fun _ => rfl) nofun
    fun choice => ?_
  split
  · exact .raise
  · next absent =>
    refine through_read (fun _ => _) (fun _ => rfl) nofun fun choice => ?_
    split
    · exact .raise
    · refine .step (permits_insert rfl (spelled absent)) fun _ _ _ => .step nofun fun _ _ _ => ?_
      have commits (world : World) :
          (spelling text me).Through world ((ask .commit).catchWith memberConflict) fun _ _ => True :=
        .catch (.ask nofun fun _ _ _ => trivial) fun reason _ => memberConflict_through reason nofun
      exact (commits _).bind fun _ _ _ => .step nofun fun _ _ _ => .ret trivial

theorem ensureEmailFree_through (payload : AdminMemberUpdate) :
    (spelling text me).Through world (ensureEmailFree studentId payload)
      fun _ reached => reached = world := by
  unfold ensureEmailFree
  split
  · refine through_read (fun _ => _) (fun _ => rfl) nofun fun choice => ?_
    split
    · exact .raise
    · exact .ret rfl
  · exact .ret rfl

theorem ensurePhoneFree_through (payload : AdminMemberUpdate) :
    (spelling text me).Through world (ensurePhoneFree studentId payload)
      fun _ reached => reached = world := by
  unfold ensurePhoneFree
  split
  · refine through_read (fun _ => _) (fun _ => rfl) nofun fun choice => ?_
    split
    · exact .raise
    · exact .ret rfl
  · exact .ret rfl

/-- The lock that the count takes is none of a row. -/
theorem ensureNotDeactivatingLastSuperAdmin_through (nextStatus : Source.Accounts.Field MemberStatus) :
    (spelling text me).Through world (ensureNotDeactivatingLastSuperAdmin text member nextStatus)
      fun _ reached => reached.members = world.members := by
  unfold ensureNotDeactivatingLastSuperAdmin
  split
  · have counts : (spelling text me).Through world countActiveSuperAdmins
        fun _ reached => reached.members = world.members := by
      refine .step nofun fun _ locked after => ?_
      obtain ⟨choice, done⟩ := after
      refine .ask nofun fun _ reached after => ?_
      obtain ⟨choice', done'⟩ := after
      have taken := executed done
      have counted := executed done'
      cases counted
      simp only [Source.Accounts.answer] at taken
      split at taken
      · split at taken <;> cases taken
        rfl
      · cases taken
        rfl
    refine counts.bind fun superAdminCount reached same => ?_
    split
    · exact .raise
    · exact .ret same
  · exact .ret rfl

theorem repoGetMember_through :
    (spelling text me).Through world (repoGetMember studentId)
      fun member reached => reached = world ∧ world.members.row me studentId = some member := by
  refine through_read (fun _ => world.members.row me studentId) (fun _ => rfl) nofun fun choice => ?_
  split
  · next member found => exact .ret ⟨rfl, found⟩
  · exact .raise

/-- An update stores its own address or none, or leaves the address of the member. -/
theorem repoUpdateMemberProfileAdmin_through {updates : AdminMemberUpdate}
    (seen : world.members.row me studentId = some member)
    (distinct : Distinct (folded text) (world.members.row me))
    (spelled : ∀ address, updates.email = some (some address) →
      Spelled text (world.members.row me) studentId address) :
    (spelling text me).Through world (repoUpdateMemberProfileAdmin studentId member updates)
      fun _ _ => True := by
  unfold repoUpdateMemberProfileAdmin
  split
  · next latest applied =>
    refine (saveMember_through seen fun address has => ?_).bind fun _ _ _ => commit_refresh_through
    have stored : latest.email = updates.email.getD member.email := by
      simp only [AdminMemberUpdate.applyTo, Option.bind_eq_bind, Option.bind_eq_some_iff,
        Option.pure_def, Option.some.injEq] at applied
      obtain ⟨name, -, cohort, -, status, -, rfl⟩ := applied
      rfl
    rw [stored] at has
    match set : updates.email with
    | some value =>
      rw [set, Option.getD_some] at has
      exact spelled address (by rw [set, has])
    | none =>
      rw [set, Option.getD_none] at has
      intro other row email different found has' same
      exact absurd (by simp [folded, has', same]) (distinct studentId other member row
        (text.lower address) (Ne.symm different) seen found (by simp [folded, has]))
  · exact .raise

theorem updateMemberProfileAdmin_through {payload : AdminMemberUpdate}
    (distinct : Distinct (folded text) (world.members.row me))
    (spelled : (world.members.row me studentId).isSome = true →
      ∀ address, (sanitize text payload).email = some (some address) →
        Spelled text (world.members.row me) studentId address) :
    (spelling text me).Through world (updateMemberProfileAdmin text studentId payload)
      fun _ _ => True := by
  refine repoGetMember_through.bind ?_
  rintro member world ⟨rfl, seen⟩
  split
  · exact .ret trivial
  · refine (ensureNotDeactivatingLastSuperAdmin_through _).bind fun _ locked same => ?_
    refine (ensureEmailFree_through _).bind ?_
    rintro _ locked rfl
    refine (ensurePhoneFree_through _).bind ?_
    rintro _ locked rfl
    rw [← same] at seen distinct spelled
    refine .catch (repoUpdateMemberProfileAdmin_through seen distinct ?_) fun reason _ =>
      memberConflict_through reason nofun
    exact spelled (by rw [seen]; rfl)

theorem updateMemberProfile_through {payload : MemberUpdate}
    (distinct : Distinct (folded text) (world.members.row me))
    (spelled : (world.members.row me studentId).isSome = true →
      ∀ address, (sanitize text payload.fields).email = some (some address) →
        Spelled text (world.members.row me) studentId address) :
    (spelling text me).Through world (updateMemberProfile text studentId payload)
      fun _ _ => True := by
  have saves (updates : AdminMemberUpdate)
      (spelled : (world.members.row me studentId).isSome = true →
        ∀ address, updates.email = some (some address) →
          Spelled text (world.members.row me) studentId address) :
      (spelling text me).Through world (repoUpdateMemberProfile studentId updates)
        fun _ _ => True := by
    refine repoGetMember_through.bind ?_
    rintro member world ⟨rfl, seen⟩
    split
    · exact .ret trivial
    · exact repoUpdateMemberProfileAdmin_through seen distinct (spelled (by rw [seen]; rfl))
  unfold updateMemberProfile
  split
  · exact saves {} fun _ _ => nofun
  · refine (ensureEmailFree_through _).bind ?_
    rintro _ world rfl
    refine (ensurePhoneFree_through _).bind ?_
    rintro _ world rfl
    exact .catch (saves _ spelled) fun reason _ => memberConflict_through reason nofun

end Handlers

/-! ## The runs -/

/-- A request that stores no other spelling of an address issues what it may. -/
theorem program_through (resting : Resting world) (unique : CaseUnique text world)
    {request : AddressRequest} (spelled : StoresSpelled text world request) (me : SessionId) :
    (spelling text me).Through world (request.program text) fun _ _ => True := by
  have view : world.members.row me = world.members.committed :=
    funext fun key => resting.members.row_eq me key
  have distinct : Distinct (folded text) (world.members.row me) := by
    rw [view]
    exact unique
  cases request with
  | createMemberDirect payload =>
    refine (createMemberDirect_through payload fun absent => ?_).bind fun _ _ _ => .ret trivial
    rw [view] at absent ⊢
    exact spelled payload.studentId payload.email ⟨rfl, absent, rfl⟩
  | createSignupRequest payload => exact createSignupRequest_through payload
  | approveSignupRequest id decidedByStudentId =>
    refine (approveSignupRequest_through id decidedByStudentId fun row seen pending inactive => ?_).bind
      fun _ _ _ => .ret trivial
    rw [view] at inactive ⊢
    rw [resting.signupRequests.row_eq] at seen
    exact spelled row.studentId row.email ⟨row, seen, pending, rfl, inactive, rfl⟩
  | updateMemberProfile studentId payload =>
    refine updateMemberProfile_through distinct fun stored address set => ?_
    rw [view] at stored ⊢
    exact spelled studentId address ⟨rfl, stored, set⟩
  | updateMemberProfileAdmin studentId payload =>
    refine updateMemberProfileAdmin_through distinct fun stored address set => ?_
    rw [view] at stored ⊢
    exact spelled studentId address ⟨rfl, stored, set⟩

/-- One request, any statement of which may fail. -/
theorem case_unique_turn (start : Constrained world) (unique : CaseUnique text world)
    {turn : Turn machine AddressRequest} {out : Except Failure Unit} {after : World}
    (spelled : StoresSpelled text world turn.request)
    (done : machine.eval turn.me (turn.request.program text) turn.choices world = some (out, after)) :
    Constrained (machine.close turn.me after) ∧ CaseUnique text (machine.close turn.me after) := by
  have view : world.members.row turn.me = world.members.committed :=
    funext fun key => start.members.row_eq turn.me key
  have opened : Cased text turn.me world :=
    ⟨start.keyed turn.me, unique, by rw [view]; exact unique⟩
  have cased : Cased text turn.me after :=
    Machine.eval_follows (fun _ _ _ _ _ cased permitted done => cased.exec permitted done) opened
      (program_through start.toResting unique spelled turn.me) done
  have closed : (machine.close turn.me after).members.committed = after.members.committed :=
    funext fun key => Table.abort_committed
  refine ⟨cased.toKeyed.rollback, ?_⟩
  unfold CaseUnique
  rw [closed]
  exact cased.published

/-- From a state without two spellings of an address, in every run of requests each of which stores
no other spelling of an address that another member has, no two members have addresses that are
equal ignoring case. -/
theorem case_unique_run (text : TextRules) (world after : World)
    (turns : List (Turn machine AddressRequest)) (start : Constrained world)
    (unique : CaseUnique text world)
    (spelled : machine.TurnsMeet (AddressRequest.program text) (StoresSpelled text) turns world)
    (served : machine.turns (AddressRequest.program text) turns world = some after) :
    CaseUnique text after := by
  have kept := Machine.turns_keep
    (fun turn world out after (settled : Constrained world ∧ CaseUnique text world) spelled done =>
      case_unique_turn settled.1 settled.2 spelled done) ⟨start, unique⟩ spelled served
  exact kept.2

/-! ## Two spellings -/

/-- Texts without blanks at their ends. -/
def ascii : TextRules where
  strip text := text
  lower text := String.ofList (text.toList.map Char.toLower)
  strip_token _ _ := rfl
  lower_token := by decide

def capital : DirectMemberCreatePayload :=
  { studentId := "kim", email := "Kim@sogang.ac.kr", name := "kim", cohort := 1 }

def small : DirectMemberCreatePayload :=
  { studentId := "lee", email := "kim@sogang.ac.kr", name := "lee", cohort := 1 }

def applicant : SignupRequestCreate :=
  { studentId := "lee", email := "lee@sogang.ac.kr", name := "lee", cohort := 1, phone := "01023456789" }

set_option maxRecDepth 10000 in
/-- A member is created directly, and another student applies. -/
theorem case_unique_run_capital : ∃ after,
    machine.turns (AddressRequest.program ascii)
        (inSequence [.createMemberDirect capital, .createSignupRequest applicant]) .blank = some after ∧
      CaseUnique ascii after := by
  have ends : (machine.turns (AddressRequest.program ascii)
      (inSequence [.createMemberDirect capital, .createSignupRequest applicant]) .blank).isSome = true := by
    decide
  obtain ⟨after, served⟩ := Option.isSome_iff_exists.mp ends
  refine ⟨after, served, case_unique_run ascii .blank after _ blank_constrained
    (Distinct.blank (folded ascii)) ?_ served⟩
  refine ⟨fun _ _ _ other row email different found => ?_, fun _ _ _ => ⟨fun _ _ stores => ?_, ?_⟩⟩
  · cases found
  · exact stores.elim
  · exact fun _ _ _ => trivial

set_option maxRecDepth 10000 in
/-- Two members are created directly with one address in two spellings. -/
theorem two_spellings_are_created : ∃ after,
    machine.turns (AddressRequest.program ascii)
        (inSequence [.createMemberDirect capital, .createMemberDirect small]) .blank = some after ∧
      ¬CaseUnique ascii after := by
  have ran : (machine.turns (AddressRequest.program ascii)
      (inSequence [.createMemberDirect capital, .createMemberDirect small]) .blank).map (fun after =>
        ((after.members.committed "kim").map (·.email), (after.members.committed "lee").map (·.email))) =
      some (some (some "Kim@sogang.ac.kr"), some (some "kim@sogang.ac.kr")) := by decide
  obtain ⟨after, served, same⟩ := Option.map_eq_some_iff.mp ran
  simp only [Prod.mk.injEq, Option.map_eq_some_iff] at same
  obtain ⟨⟨kim, found, has⟩, lee, found', has'⟩ := same
  refine ⟨after, served, fun unique => ?_⟩
  refine unique "kim" "lee" kim lee "kim@sogang.ac.kr" (by decide) found found' ?_ ?_
  · rw [folded, has]
    decide
  · rw [folded, has']
    decide

end SogeconApp.Guarantees.AddressCase
