import SogeconApp.Guarantees.Accounts.Alone
import SogeconApp.Guarantees.Accounts.LastSuperAdmin

/-!
# Credentials need an approval

Requests arrive one after the other, and a session may crash between any two statements. What
a session reads at a commit is what the commit publishes, so it is enough that every statement
keeps the view of the session licensed: each request in it has moved on from its committed
status as it may, and each new password in it has a member and an approved or activated
request. A token is checked against the stored request, so this does not depend on what a
token carries.
-/

namespace SogeconApp.Guarantees.CredentialApproval

open Library Program Source.Accounts AccountsAlone

/-! ## What a store must look like -/

/-- The moves of a request: approved or rejected from pending, activated from approved. -/
def moves : SignupStatus → SignupStatus → Bool
  | .pending, .approved | .pending, .rejected | .approved, .activated => true
  | _, _ => false

/-- A student has a request that is approved or activated. -/
def Granted (requests : Nat → Option SignupRequest) (studentId : String) : Prop :=
  ∃ id row, requests id = some row ∧ row.studentId = studentId ∧
    (row.status = .approved ∨ row.status = .activated)

/-- The password of a student belongs to a member and to a granted request. -/
def Licensed (members : String → Option Member) (requests : Nat → Option SignupRequest)
    (studentId : String) : Prop :=
  (members studentId).isSome = true ∧ Granted requests studentId

/-- Each password that is not an initial one is licensed. -/
def Backed (initial world : World) : Prop :=
  ∀ studentId, (world.auths.committed studentId).isSome = true →
    initial.auths.committed studentId = none →
    Licensed world.members.committed world.signupRequests.committed studentId

/-- A new request is pending, or approved when it is created directly. -/
def opens (direct : Bool) (status : SignupStatus) : Prop :=
  status = .pending ∨ direct = true ∧ status = .approved

/-- How a request may differ from what it was. -/
def Evolves (direct : Bool) (before after : Option SignupRequest) : Prop :=
  match before, after with
  | some row, some latest => latest.studentId = row.studentId ∧
      (latest.status = row.status ∨ moves row.status latest.status = true)
  | none, some latest => opens direct latest.status
  | some _, none => False
  | none, none => True

theorem Evolves.refl (direct : Bool) (row : Option SignupRequest) : Evolves direct row row := by
  cases row with
  | none => trivial
  | some row => exact ⟨rfl, .inl rfl⟩

theorem Granted.evolve {direct : Bool} {before after : Nat → Option SignupRequest}
    {studentId : String}
    (granted : Granted before studentId) (evolves : ∀ id, Evolves direct (before id) (after id)) :
    Granted after studentId := by
  obtain ⟨id, row, found, student, status⟩ := granted
  have moved := evolves id
  rw [found] at moved
  cases latest : after id with
  | none =>
    rw [latest] at moved
    exact moved.elim
  | some version =>
    rw [latest] at moved
    obtain ⟨same, kept | moved⟩ := moved
    · exact ⟨id, version, latest, same.trans student, by rw [kept]; exact status⟩
    · refine ⟨id, version, latest, same.trans student, ?_⟩
      rcases status with approved | activated
      · rw [approved] at moved
        cases next : version.status with
        | activated => exact .inr rfl
        | pending | approved | rejected =>
          rw [next] at moved
          cases moved
      · rw [activated] at moved
        cases next : version.status <;> rw [next] at moved <;> cases moved

/-! ## The view of the open session -/

/-- The session reads the rows as a commit may publish them. -/
structure View (direct : Bool) (me : SessionId) (world : World) : Prop where
  requests : ∀ id, Evolves direct (world.signupRequests.committed id)
    (world.signupRequests.row me id)
  members : ∀ studentId, (world.members.committed studentId).isSome = true →
    (world.members.row me studentId).isSome = true
  auths : ∀ studentId, (world.auths.row me studentId).isSome = true →
    (world.auths.committed studentId).isSome = true ∨
      Licensed (world.members.row me) (world.signupRequests.row me) studentId

/-- Nobody else has a draft, and the sequence of the requests is past every key. -/
structure Working (initial : World) (direct : Bool) (me : SessionId) (world : World) : Prop where
  members : world.members.Only me
  signupRequests : world.signupRequests.Only me
  auths : world.auths.Only me
  keys : ∀ id ∈ world.signupRequests.keys, id < world.nextRequest
  backed : Backed initial world
  view : View direct me world

structure Settled (initial world : World) : Prop where
  members : world.members.Quiet
  signupRequests : world.signupRequests.Quiet
  auths : world.auths.Quiet
  keys : ∀ id ∈ world.signupRequests.keys, id < world.nextRequest
  backed : Backed initial world

variable {initial world world' : World} {direct : Bool} {me : SessionId}

theorem Settled.working (settled : Settled initial world) (direct : Bool) (me : SessionId) :
    Working initial direct me world where
  members := settled.members.only
  signupRequests := settled.signupRequests.only
  auths := settled.auths.only
  keys := settled.keys
  backed := settled.backed
  view :=
    { requests := fun id => by
        rw [settled.signupRequests.row_eq]
        exact .refl direct _
      members := fun studentId found => by rwa [settled.members.row_eq]
      auths := fun studentId found => .inl (by rwa [settled.auths.row_eq] at found) }

/-- What the session reads is what is published. -/
theorem Working.commit (working : Working initial direct me world) :
    Settled initial (world.commit me) where
  members := working.members.commit_quiet
  signupRequests := working.signupRequests.commit_quiet
  auths := working.auths.commit_quiet
  keys := working.keys
  backed studentId found new := by
    have members : (world.commit me).members.committed = world.members.row me :=
      funext fun _ => working.members.committed_commit
    have requests : (world.commit me).signupRequests.committed = world.signupRequests.row me :=
      funext fun _ => working.signupRequests.committed_commit
    have found : (world.auths.row me studentId).isSome = true := by
      rw [← working.auths.committed_commit]
      exact found
    rw [members, requests]
    rcases working.view.auths studentId found with older | licensed
    · obtain ⟨member, granted⟩ := working.backed studentId older new
      exact ⟨working.view.members studentId member, granted.evolve working.view.requests⟩
    · exact licensed

theorem Backed.drafts (backed : Backed initial world) (drafts : world.Drafts me world') :
    Backed initial world' := by
  intro studentId found new
  have members : world'.members.committed = world.members.committed :=
    funext drafts.members.committed
  have requests : world'.signupRequests.committed = world.signupRequests.committed :=
    funext drafts.signupRequests.committed
  rw [members, requests]
  apply backed studentId _ new
  rwa [← drafts.auths.committed]

theorem Working.rollback (working : Working initial direct me world) :
    Settled initial (world.rollback me) where
  members := working.members.abort_quiet
  signupRequests := working.signupRequests.abort_quiet
  auths := working.auths.abort_quiet
  keys := working.keys
  backed := working.backed.drafts (world.rollback_drafts me)

/-! ## What one statement keeps -/

/-- What the session may issue: requests are opened and moved on as they may be, and a password is
created for a licensed student. -/
def permits (direct : Bool) (me : SessionId) (world : World) : Stmt → Prop
  | .insertSignupRequest row => opens direct row.status
  | .flushSignupRequest id loaded latest => world.signupRequests.committed id = some loaded ∧
      world.signupRequests.row me id = some loaded ∧ moves loaded.status latest.status = true
  | .insertAuth _ studentId _ =>
    Licensed (world.members.row me) (world.signupRequests.row me) studentId
  | _ => True

theorem View.memberWritten (view : View direct me world) (studentId : String) (row : Member) :
    View direct me { world with members := world.members.write me studentId (some row) } := by
  have grown (other : String) (found : (world.members.row me other).isSome = true) :
      ((world.members.write me studentId (some row)).row me other).isSome = true := by
    rw [Table.row_write]
    split
    · rfl
    · exact found
  refine ⟨view.requests, fun other found => ?_, fun other found => ?_⟩
  · rw [Table.write_committed] at found
    exact grown other (view.members other found)
  · exact (view.auths other found).imp id fun licensed => ⟨grown other licensed.1, licensed.2⟩

/-- A request is written over what the session reads, as a request may be. -/
theorem View.requestWritten (view : View direct me world) {id : Nat} {row : SignupRequest}
    (nextRequest : Nat) (committed : Evolves direct (world.signupRequests.committed id) (some row))
    (seen : Evolves direct (world.signupRequests.row me id) (some row)) :
    View direct me { world with
      signupRequests := world.signupRequests.write me id (some row)
      nextRequest := nextRequest } := by
  have moved (other : Nat) : Evolves direct (world.signupRequests.row me other)
      ((world.signupRequests.write me id (some row)).row me other) := by
    rw [Table.row_write]
    split
    · next same =>
      rw [same]
      exact seen
    · exact .refl direct _
  refine ⟨fun other => ?_, view.members, fun studentId found => ?_⟩
  · rw [Table.write_committed, Table.row_write]
    split
    · next same =>
      rw [same]
      exact committed
    · exact view.requests other
  · exact (view.auths studentId found).imp (fun older => older)
      fun licensed => ⟨licensed.1, licensed.2.evolve moved⟩

/-- A password is written for a student who has one already or is licensed. -/
theorem View.authWritten (view : View direct me world) {studentId : String} (row : MemberAuth)
    (storing : SessionId → Option Nat)
    (known : (world.auths.row me studentId).isSome = true ∨
      Licensed (world.members.row me) (world.signupRequests.row me) studentId) :
    View direct me
      { world with auths := world.auths.write me studentId (some row), storing := storing } := by
  refine ⟨view.requests, view.members, fun other found => ?_⟩
  rw [Table.write_committed]
  rw [Table.row_write] at found
  split at found
  · next same =>
    subst same
    rcases known with older | licensed
    · exact view.auths other older
    · exact .inr licensed
  · exact view.auths other found

/-- A flushed request has the status that was set. -/
theorem flushedRequest_status {loaded latest : SignupRequest} :
    (flushedRequest loaded latest loaded).status = latest.status := by
  simp only [flushedRequest, changed]
  split
  · next same => exact same.symm
  · rfl

/-- A draft keeps the invariant if the rows that the session reads are still fit to be published. -/
theorem Working.drafts (working : Working initial direct me world) (drafts : world.Drafts me world')
    (keys : ∀ id ∈ world'.signupRequests.keys, id < world'.nextRequest) (view : View direct me world') :
    Working initial direct me world' where
  members := drafts.members.only working.members
  signupRequests := drafts.signupRequests.only working.signupRequests
  auths := drafts.auths.only working.auths
  keys := keys
  backed := working.backed.drafts drafts
  view := view

/-- A request that has no key yet is new. -/
theorem Working.unused (working : Working initial direct me world) :
    world.signupRequests.committed world.nextRequest = none ∧
      world.signupRequests.row me world.nextRequest = none := by
  have vacant : world.signupRequests.slot world.nextRequest = {} := by
    apply world.signupRequests.covers
    intro member
    exact Nat.lt_irrefl _ (working.keys _ member)
  constructor
  · rw [Table.committed, vacant]
  · rw [Table.row, vacant]
    rfl

theorem Working.answer (working : Working initial direct me world) {stmt : Stmt} {choice : Choice}
    {reply : Except Failure (Reply stmt)} (permitted : permits direct me world stmt)
    (drafts : stmt ≠ .commit → world.Drafts me world')
    (done : Source.Accounts.answer me stmt choice world = some (reply, world')) :
    Working initial direct me world' := by
  cases stmt with
  | commit =>
    cases done
    exact working.commit.working direct me
  | rollback =>
    cases done
    exact working.rollback.working direct me
  | now | getMember _ | emailTaken _ _ | phoneTaken _ _ | countActiveMembersWithRole _ | pendingByStudentId _
  | getSignupRequest _ | getAuth _ | refresh =>
    cases done
    exact working
  | insertIssueLog row =>
    have kept := drafts (by simp)
    cases done
    exact working.drafts kept working.keys
      ⟨working.view.requests, working.view.members, working.view.auths⟩
  | advisoryLock =>
    have kept := drafts (by simp)
    simp only [Source.Accounts.answer] at done
    split at done
    · split at done <;> cases done
      exact working
    · cases done
      exact working.drafts kept working.keys
        ⟨working.view.requests, working.view.members, working.view.auths⟩
  | insertMember studentId row =>
    have kept := drafts (by simp)
    rcases insertMember_cases done with ⟨-, rfl⟩ | ⟨-, -, -, rfl⟩
    · exact working
    · exact working.drafts kept working.keys (working.view.memberWritten studentId row)
  | flushMember studentId loaded latest =>
    have kept := drafts (by simp)
    rcases flushMember_cases done with ⟨-, rfl⟩ | ⟨-, -, stored, -, rfl⟩
    · exact working
    · exact working.drafts kept working.keys (working.view.memberWritten studentId _)
  | insertSignupRequest row =>
    have kept := drafts (by simp)
    have older (id : Nat) (member : id ∈ world.signupRequests.keys) : id < world.nextRequest + 1 :=
      Nat.lt_succ_of_lt (working.keys id member)
    rcases insertSignupRequest_cases done with ⟨-, rfl⟩ | ⟨-, rfl⟩
    · exact working.drafts kept older
        ⟨working.view.requests, working.view.members, working.view.auths⟩
    · obtain ⟨committed, seen⟩ := working.unused
      refine working.drafts kept (fun id member => ?_) (working.view.requestWritten _ ?_ ?_)
      · rcases Table.mem_write_keys.mp member with rfl | member
        · exact Nat.lt_succ_self _
        · exact older id member
      · rw [committed]
        exact permitted
      · rw [seen]
        exact permitted
  | flushSignupRequest id loaded latest =>
    have kept := drafts (by simp)
    rcases flushSignupRequest_cases done with ⟨-, rfl⟩ | ⟨-, -, stored, seen, rfl⟩
    · exact working
    · obtain ⟨committed, held, moved⟩ := permitted
      rw [seen, Option.some.injEq] at held
      subst held
      have evolves : Evolves direct (some stored) (some (flushedRequest stored latest stored)) :=
        ⟨rfl, .inr (by rw [flushedRequest_status]; exact moved)⟩
      have published : Evolves direct (world.signupRequests.committed id)
          (some (flushedRequest stored latest stored)) := by
        rw [committed]
        exact evolves
      have view :=
        working.view.requestWritten world.nextRequest published (by rw [seen]; exact evolves)
      refine working.drafts kept (fun other member => ?_) ⟨view.requests, view.members, view.auths⟩
      rcases Table.mem_write_keys.mp member with rfl | member
      · exact working.keys other (Table.mem_keys_of_row seen)
      · exact working.keys other member
  | insertAuth through studentId row =>
    have kept := drafts (by simp)
    rcases insertAuth_cases done with ⟨-, rfl⟩ | ⟨-, rfl⟩
    · exact working
    · exact working.drafts kept working.keys (working.view.authWritten row _ (.inr permitted))
  | updateAuth through studentId passwordHash =>
    have kept := drafts (by simp)
    obtain ⟨⟨found, auths⟩, updated, stored⟩ := Option.bind_eq_some_iff.mp done
    rcases Table.updateRow_cases updated with ⟨rfl, rfl⟩ | ⟨rfl, -, version, seen, -, rfl⟩
    · cases stored
      exact working
    · cases stored
      exact working.drafts kept working.keys
        (working.view.authWritten _ _ (.inl (by rw [seen]; rfl)))

theorem Working.exec (working : Working initial direct me world) {stmt : Stmt} {choice : Choice}
    {reply : Except Failure (Reply stmt)} (permitted : permits direct me world stmt)
    (done : Source.Accounts.exec me stmt choice world = some (reply, world')) :
    Working initial direct me world' := by
  have drafts : stmt ≠ .commit → world.Drafts me world' := exec_drafts done
  rcases answering.exec_cases done with ⟨reason, -, rfl, rfl⟩ | ⟨-, done⟩
  · exact working
  · exact working.answer permitted drafts done

/-! ## The handlers -/

/-- What a request may issue while it runs alone. -/
abbrev licensing (direct : Bool) (me : SessionId) : Rules accounts World :=
  machine.issuing me (permits direct me)

/-- A request creates a member directly. -/
def createsDirectly : Request → Bool
  | .createMemberDirect _ => true
  | _ => false

/-- No request is in a draft, so what the session reads of one is committed. -/
theorem permits_flush (direct : Bool) (quiet : world.signupRequests.Quiet) {id : Nat}
    {row latest : SignupRequest} (seen : world.signupRequests.row me id = some row)
    (moved : moves row.status latest.status = true) :
    permits direct me world (.flushSignupRequest id row latest) :=
  ⟨by rw [← seen, quiet.row_eq], seen, moved⟩

section Handlers

/-- The end of a handler that has written what it writes. -/
theorem commit_refresh_through :
    (licensing direct me).Through world (do ask .commit; ask .refresh) fun _ _ => True :=
  .step trivial fun _ _ _ => .ask trivial fun _ _ _ => trivial

theorem createSignupRequest_through (payload : SignupRequestCreate) :
    (licensing direct me).Through world (createSignupRequest payload) fun _ _ => True := by
  refine .step trivial fun member world _ => ?_
  split
  · exact .raise
  · refine .step trivial fun pending world _ => ?_
    split
    · exact .raise
    · refine .catch (.step (.inl rfl) fun _ _ _ => commit_refresh_through) fun reason reached => ?_
      exact signupConflict_through reason trivial

/-- The member of an approved request is written, and the requests are left alone. -/
theorem saveApprovedMember_through (quiet : world.signupRequests.Quiet) (row : SignupRequest)
    (member : Option Member) :
    (licensing direct me).Through world (saveApprovedMember row member)
      fun _ reached => reached.signupRequests = world.signupRequests := by
  have written (stmt : Stmt) (reads : writesRequest stmt = false)
    (permitted : permits direct me world stmt) :
      (licensing direct me).Through world (ask stmt)
        fun _ reached => reached.signupRequests = world.signupRequests := by
    refine .ask permitted fun _ reached after => ?_
    obtain ⟨choice, done⟩ := after
    exact requests_stay quiet done reads
  cases member with
  | none => exact written (.insertMember _ _) rfl trivial
  | some member =>
    simp only [saveApprovedMember, saveMember]
    split
    · exact .ret rfl
    · exact written (.flushMember _ _ _) rfl trivial

theorem approveSignupRequest_through (quiet : world.signupRequests.Quiet) (id : Nat)
    (decidedByStudentId : String) :
    (licensing direct me).Through world (approveSignupRequest id decidedByStudentId)
      fun _ _ => True := by
  refine (signupRequestById_through id trivial).bind ?_
  rintro row world ⟨rfl, seen⟩
  split
  · exact .raise
  · next pending =>
    have pending : row.status = .pending := by simpa using pending
    refine through_read (fun _ => world.members.row me row.studentId) (fun _ => rfl) trivial
      fun choice => ?_
    split
    · exact .raise
    · refine through_read (fun choice => choice.now) (fun _ => rfl) trivial fun choice => ?_
      refine (saveApprovedMember_through quiet row _).bind ?_
      rintro _ saved same
      rw [← same] at quiet seen
      refine .step (permits_flush direct quiet seen (by rw [pending]; rfl)) fun _ _ _ => ?_
      refine .step trivial fun _ _ _ => .step trivial fun _ _ _ => ?_
      exact .step trivial fun _ _ _ => .step trivial fun _ _ _ => .ret trivial

theorem rejectSignupRequest_through (quiet : world.signupRequests.Quiet) (id : Nat)
    (decidedByStudentId rejectReason : String) :
    (licensing direct me).Through world (rejectSignupRequest id decidedByStudentId rejectReason)
      fun _ _ => True := by
  refine (signupRequestById_through id trivial).bind ?_
  rintro row world ⟨rfl, seen⟩
  split
  · exact .raise
  · next pending =>
    have pending : row.status = .pending := by simpa using pending
    refine through_read (fun choice => choice.now) (fun _ => rfl) trivial fun choice => ?_
    exact .step (permits_flush direct quiet seen (by rw [pending]; rfl))
      fun _ _ _ => commit_refresh_through

theorem reissueSignupActivationToken_through (id : Nat) (issuedByStudentId : String) :
    (licensing direct me).Through world (reissueSignupActivationToken id issuedByStudentId)
      fun _ _ => True := by
  refine (signupRequestById_through id trivial).bind ?_
  rintro row world ⟨rfl, seen⟩
  split
  · exact .raise
  · refine .step trivial fun _ _ _ => .step trivial fun _ _ _ => ?_
    exact .step trivial fun _ _ _ => .ret trivial

/-- The password of a licensed student is committed, and the requests are left alone. -/
theorem createOrUpdateMemberAuth_through (quiet : world.signupRequests.Quiet) (through : Nat)
    {studentId : String} (passwordHash : String)
    (licensed : Licensed (world.members.row me) (world.signupRequests.row me) studentId) :
    (licensing direct me).Through world (createOrUpdateMemberAuth through studentId passwordHash)
      fun _ reached => reached.signupRequests = world.signupRequests := by
  have written (stmt : Stmt) (reads : writesRequest stmt = false)
    (permitted : permits direct me world stmt) :
      (licensing direct me).Through world (do let _ ← ask stmt; ask .commit)
        fun _ reached => reached.signupRequests = world.signupRequests := by
    refine .step permitted fun _ reached after => ?_
    obtain ⟨choice, done⟩ := after
    have same := requests_stay quiet done reads
    refine .ask trivial fun _ last committed => ?_
    obtain ⟨choice, done⟩ := committed
    have quiet : reached.signupRequests.Quiet := by rwa [same]
    rw [requests_stay quiet done rfl, same]
  refine through_read (fun _ => world.auths.row me studentId) (fun _ => rfl) trivial
    fun choice => ?_
  split
  · exact written (.insertAuth _ _ _) rfl licensed
  · exact written (.updateAuth _ _ _) rfl trivial

/-- An activation writes a password after it has read the granted request and the member of the student.
-/
theorem activateMember_through (quiet : world.signupRequests.Quiet)
    (token : Option ActivationPayload) (passwordHash : String) :
    (licensing direct me).Through world (activateMember token passwordHash) fun _ _ => True := by
  cases token with
  | none => exact .raise
  | some payload =>
    refine (resolveActivationSignupRequest_through payload trivial).bind ?_
    rintro row world ⟨rfl, seen, student, approved⟩
    refine (resolveActivationMember_through payload.studentId trivial).bind ?_
    rintro _ world ⟨rfl, member⟩
    have licensed :
        Licensed (world.members.row me) (world.signupRequests.row me) payload.studentId :=
      ⟨member, payload.signupRequestId, row, seen, student, .inl approved⟩
    refine (createOrUpdateMemberAuth_through quiet _ passwordHash licensed).bind ?_
    rintro _ saved same
    rw [← same] at quiet seen
    refine through_read (fun choice => choice.now) (fun _ => rfl) trivial fun choice => ?_
    exact .step (permits_flush direct quiet seen (by rw [approved]; rfl))
      fun _ _ _ => commit_refresh_through

/-- A request that is created directly is approved. -/
theorem createMemberDirect_through (text : TextRules) (payload : DirectMemberCreatePayload) :
    (licensing true me).Through world (createMemberDirect text payload) fun _ _ => True := by
  refine .step trivial fun member _ _ => ?_
  split
  · exact .raise
  · refine .step trivial fun taken _ _ => ?_
    split
    · exact .raise
    · refine .step trivial fun _ _ _ => .step (.inr ⟨rfl, rfl⟩) fun id _ _ => ?_
      have committed {world : World} :
          (licensing true me).Through world (ask .commit) fun _ _ => True :=
        .ask trivial fun _ _ _ => trivial
      refine (committed.catch fun reason _ => memberConflict_through reason trivial).bind
        fun _ _ _ => ?_
      exact .step trivial fun _ _ _ => .ret trivial

/-- A program that writes neither a request nor a new password may do what it does in any store. -/
theorem through_of_follows {α : Type} {P : Protocol accounts} {phase : P.Phase}
    {program : Handler α} (follows : P.Follows phase program)
    (harmless : ∀ phase stmt, P.allow phase stmt → ∀ world, permits direct me world stmt)
    (unknown : ∀ stmt answer, P.answers stmt answer) :
    (licensing direct me).Through world program fun _ _ => True := by
  induction program generalizing phase world with
  | ret value => exact trivial
  | raise reason => exact trivial
  | exec stmt next ih =>
    refine ⟨harmless phase stmt follows.allowed world, fun reply world' after => ?_⟩
    exact ih reply (follows.continue reply fun answer _ => unknown stmt answer)

/-- Each request of the API issues only what it is licensed to, whatever the store holds. -/
theorem request_through (text : TextRules) (settled : Settled initial world) (request : Request) :
    (licensing (createsDirectly request) me).Through world (request.program text)
      fun _ _ => True := by
  have changes : LastSuperAdmin.changesMember request = true →
      (licensing (createsDirectly request) me).Through world (request.program text)
        fun _ _ => True := by
    intro change
    have follows : (LastSuperAdmin.handler text).Follows {} (request.program text) :=
      LastSuperAdmin.request_follows change
    refine through_of_follows follows (fun phase stmt allowed world => ?_) fun _ _ => trivial
    cases stmt <;> trivial
  have quiet := settled.signupRequests
  cases request with
  | updateMemberRoles _ _ _ | updateMemberProfileAdmin _ _ => exact changes rfl
  | createMemberDirect payload =>
    exact (createMemberDirect_through text payload).bind fun _ _ _ => .ret trivial
  | createSignupRequest payload => exact createSignupRequest_through payload
  | approveSignupRequest id decidedByStudentId =>
    exact (approveSignupRequest_through quiet id decidedByStudentId).bind fun _ _ _ => .ret trivial
  | rejectSignupRequest id decidedByStudentId rejectReason =>
    exact rejectSignupRequest_through quiet id decidedByStudentId rejectReason
  | reissueSignupActivationToken id issuedByStudentId =>
    exact (reissueSignupActivationToken_through id issuedByStudentId).bind fun _ _ _ => .ret trivial
  | activateMember token passwordHash => exact activateMember_through quiet token passwordHash

end Handlers

/-! ## Sequential runs -/

/-- No transaction is open, and the sequence of the requests is past every key. -/
structure Start (world : World) : Prop where
  members : world.members.Quiet
  signupRequests : world.signupRequests.Quiet
  auths : world.auths.Quiet
  keys : ∀ id ∈ world.signupRequests.keys, id < world.nextRequest

theorem Start.settled (start : Start initial) : Settled initial initial where
  members := start.members
  signupRequests := start.signupRequests
  auths := start.auths
  keys := start.keys
  backed studentId found new := by
    rw [new] at found
    cases found

/-- Every request, with any statement of it failing and with a crash at any point, keeps each password
backed by an approval. -/
theorem credentials_keeps (text : TextRules) (initial : World) :
    Sequential.Keeps machine (Request.program text)
      (fun request me => licensing (createsDirectly request) me)
      (Settled initial) fun request me => Working initial (createsDirectly request) me where
  opens request me _ settled := ⟨settled.working _ me, request_through text settled request⟩
  exec _ _ _ _ choice _ _ working permitted done := ⟨working.exec permitted done, choice, done⟩
  close _ _ _ working := working.rollback
  crash _ _ _ working := working.rollback
  inside := inferInstanceAs (IsEmpty Empty)

/-- Only the commit of a session changes the requests, to what the session reads. -/
theorem step_evolves {config after : Config machine Unit} {action : Action machine}
    {program : Handler Unit} (closed : ∀ other, other ≠ me → config.pool other = none)
    (opened : config.pool me = some program) (working : Working initial direct me config.world)
    (stepped : config.step action = some after) (id : Nat) :
    Evolves direct (config.world.signupRequests.committed id)
      (after.world.signupRequests.committed id) := by
  cases Config.step_cases stepped with
  | @exec other choice stmt next reply world' running done =>
    have mine : other = me := by
      by_contra different
      rw [closed other different] at running
      cases running
    subst mine
    by_cases commits : stmt = .commit
    · subst commits
      rcases answering.exec_cases done with ⟨reason, -, -, rfl⟩ | ⟨-, answered⟩
      · exact .refl direct _
      · cases answered
        have published : (config.world.signupRequests.commit other).committed id =
            config.world.signupRequests.row other id := working.signupRequests.committed_commit
        simp only [World.commit, published]
        exact working.view.requests id
    · rw [(exec_drafts done commits).signupRequests.committed]
      exact .refl direct _
  | close ended =>
    simp only [machine, World.rollback, Table.abort_committed]
    exact .refl direct _
  | crash running =>
    simp only [machine, World.rollback, Table.abort_committed]
    exact .refl direct _
  | outside change => cases change

/-- At every point of a run of requests one after the other, with failures and crashes anywhere,
each new password has a member and an approved or activated request of its student; and in every
step a new request opens pending, or approved where a member is created directly, and a request
that is there stays or moves on as it may. -/
theorem credentials_need_approval (text : TextRules) (initial : World) (start : Start initial)
    (last : Option Request) (config : Config machine Unit)
    (run : Sequential machine (Request.program text) initial last config) :
    Backed initial config.world ∧ ∀ action after, config.step action = some after → ∀ id,
      Evolves (last.any createsDirectly) (config.world.signupRequests.committed id)
        (after.world.signupRequests.committed id) := by
  have keeps := credentials_keeps text initial
  rcases keeps.holds run start.settled with idle | ⟨request, me, running, rfl, serving⟩
  · exact ⟨idle.settled.backed, fun action after stepped => (keeps.stuck idle stepped).elim⟩
  · exact ⟨serving.working.backed, fun action after stepped id =>
      step_evolves serving.closed serving.opened serving.working stepped id⟩

/-! ## A crash between the password and the request -/

def applied : SignupRequestCreate :=
  { studentId := "kim", email := "kim@x", name := "kim", cohort := 1, phone := "1" }

/-- A student applies and is approved. -/
def approval : List (Turn machine Request) :=
  [⟨0, .createSignupRequest applied, fun _ => {}⟩, ⟨0, .approveSignupRequest 0 "root", fun _ => {}⟩]

/-- The student activates the account. -/
def activating (world : World) : Config machine Unit where
  world := world
  pool := Function.update (fun _ => none) 0
    (some ((Request.activateMember (some ⟨0, "kim"⟩) "secret").program .plain))

theorem blank_opens : Start World.blank where
  members _ := rfl
  signupRequests _ := rfl
  auths _ := rfl
  keys _ member := by cases member

set_option maxRecDepth 10000 in
/-- The session crashes when the password has been committed and the request has not been: the
request is approved still. -/
theorem credentials_need_approval_crash : ∃ world after,
    machine.turns (Request.program .plain) approval .blank = some world ∧
      (activating world).run (executes 0 5 ++ [.crash 0]) = some after ∧
      (after.world.auths.committed "kim").isSome = true ∧
      (after.world.signupRequests.committed 0).map (·.status) = some .approved ∧
      Licensed after.world.members.committed after.world.signupRequests.committed "kim" := by
  have ran : (machine.turns (Request.program .plain) approval .blank).bind (fun world =>
      ((activating world).run (executes 0 5 ++ [.crash 0])).map fun after =>
        ((after.world.auths.committed "kim").isSome,
          (after.world.signupRequests.committed 0).map (·.status))) =
            some (true, some .approved) := by
    decide
  obtain ⟨world, served, ran⟩ := Option.bind_eq_some_iff.mp ran
  obtain ⟨after, reached, facts⟩ := Option.map_eq_some_iff.mp ran
  simp only [Prod.mk.injEq] at facts
  have begun : Sequential machine (Request.program .plain) .blank none
      { world := .blank, pool := fun _ => none } :=
    .start
  obtain ⟨last, run⟩ := begun.turns served
  have arrived := run.arrives (fun _ => rfl) 0 (Request.activateMember (some ⟨0, "kim"⟩) "secret")
  have backed :=
    (credentials_need_approval .plain .blank blank_opens _ after (arrived.onward reached)).1
  exact ⟨world, after, served, reached, facts.1, facts.2, backed "kim" facts.1 rfl⟩

end SogeconApp.Guarantees.CredentialApproval
