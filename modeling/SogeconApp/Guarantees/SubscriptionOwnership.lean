import SogeconApp.Source.Subscriptions

/-!
# Who may change a push subscription

An upsert asks for the owner in the statement that writes the row. A deletion asks for it
when it looks the row up and deletes by primary key later, so a row without an owner can be
claimed in between and is deleted all the same. As long as each deletion finds the row owned
as its lookup did, or by nobody, or by its own member, no step on behalf of one member
touches a row that another one owns at that moment.
-/

namespace SogeconApp.Guarantees.SubscriptionOwnership

open Library Program Source.Subscriptions

/-- Since the lookup of a deletion, nobody but its own member has claimed the row. -/
def unclaimed (actor : Option Nat) (world : World) (me : SessionId) : Stmt → Bool
  | .deleteLoaded endpointHash loaded =>
    (world.subs.row me endpointHash).all fun row =>
      row.id ≠ loaded.id ∨ row.memberId = loaded.memberId ∨ row.memberId = none ∨
        row.memberId = actor
  | _ => true

def Unclaimed (requests : SessionId → Option Request) (world : World) (me : SessionId) (stmt : Stmt)
    (choice : Choice) : Prop :=
  choice.fails = none → unclaimed ((requests me).bind Request.actor) world me stmt = true

instance (requests : SessionId → Option Request) (world : World) (me : SessionId) (stmt : Stmt)
    (choice : Choice) : Decidable (Unclaimed requests world me stmt choice) :=
  inferInstanceAs (Decidable (_ → _))

/-- The committed row under the key belongs to another member than `memberId`. -/
def OwnedByOther (world : World) (memberId : Nat) (endpointHash : String) : Prop :=
  ∃ row owner, world.subs.committed endpointHash = some row ∧ row.memberId = some owner ∧
    owner ≠ memberId

/-- A step on behalf of a member leaves the rows of other members, and their drafts, as they are. -/
def Spares (requests : SessionId → Option Request) (action : Action machine)
    (before after : World) : Prop :=
  ∀ memberId, (action.session.bind requests).bind Request.actor = some memberId →
    ∀ endpointHash, OwnedByOther before memberId endpointHash →
      after.subs.slot endpointHash = before.subs.slot endpointHash

/-! ## Phases -/

/-- On whose behalf an open session acts. -/
inductive Phase where
  | gone
  | acting (actor : Option Nat)

def Phase.allow : Phase → Stmt → Prop
  | .gone, _ => False
  | .acting actor, .upsert _ _ memberId => actor = some memberId
  | .acting actor, .deleteLoaded _ loaded =>
    loaded.memberId = none ∨ actor ≠ none ∧ loaded.memberId = actor
  | .acting actor, .disown _ _ => actor = none
  | .acting _, _ => True

abbrev handler : Protocol subscriptions where
  Phase := Phase
  gone := .gone
  allow := Phase.allow
  next phase _ _ := phase
  answers _ _ := True

theorem ownershipError_through (phase : Phase) (reason : Failure) :
    handler.Through phase (ownershipError reason) fun _ _ => True := by
  cases reason <;> exact .raise

theorem saveSubscription_through (hashEndpoint : String → String) (data : SubscriptionData)
    (memberId : Nat) :
    handler.Through (.acting (some memberId)) (saveSubscription hashEndpoint data memberId)
      fun _ _ => True := by
  apply Protocol.Through.catch
  · refine .step rfl fun sub _ => ?_
    cases sub with
    | none => exact .step trivial fun _ _ => .raise
    | some sub => exact .step trivial fun _ _ => .ask trivial fun _ _ => trivial
  · exact fun reason phase => ownershipError_through phase reason

/-- A deletion is issued for a row that was found without an owner, or as the member's own. -/
theorem deleteSubscription_through (hashEndpoint : String → String) (endpoint : String)
    (memberId : Nat) :
    handler.Through (.acting (some memberId)) (deleteSubscription hashEndpoint endpoint memberId)
      fun _ _ => True := by
  apply Protocol.Through.catch
  · refine .step trivial fun found _ => ?_
    cases found with
    | none => exact .ret trivial
    | some sub =>
      dsimp only
      split
      · exact .raise
      · next owned =>
        have owned : sub.memberId = none ∨ sub.memberId = some memberId := by
          by_cases ownerless : sub.memberId = none
          · exact .inl ownerless
          · by_contra other
            exact owned ⟨ownerless, fun mine => other (.inr mine)⟩
        exact .step (owned.imp id fun mine => ⟨by simp, mine⟩)
          fun _ _ => .ask trivial fun _ _ => trivial
  · exact fun reason phase => ownershipError_through phase reason

theorem deleteMember_through (memberId : Nat) :
    handler.Through (.acting none) (Source.Subscriptions.deleteMember memberId)
      fun _ _ => True := by
  refine .step trivial fun owned _ => ?_
  have loop : handler.Through (.acting none)
      (forEach (fun endpointHash => ask (.disown memberId endpointHash)) owned)
      fun _ phase => phase = .acting none := by
    apply ensures_forEach_same (fun phase => phase = Phase.acting none) owned rfl
    rintro endpointHash - _ rfl
    exact Protocol.Through.ask rfl fun _ _ => rfl
  refine loop.bind ?_
  rintro _ _ rfl
  exact .ask trivial fun _ _ => trivial

theorem request_follows (hashEndpoint : String → String) (request : Request) :
    handler.Follows (.acting request.actor) (request.program hashEndpoint) := by
  cases request with
  | save data memberId => exact (saveSubscription_through hashEndpoint data memberId).follows
  | delete endpoint memberId =>
    exact (deleteSubscription_through hashEndpoint endpoint memberId).follows
  | deleteMember memberId => exact (deleteMember_through memberId).follows

/-! ## The invariant -/

/-- A row that a session acting for a member has in its hands is not another member's. -/
structure OwnershipInv (requests : SessionId → Option Request) (world : World)
    (phase : SessionId → Phase) : Prop where
  acting : ∀ me actor, phase me = .acting actor → actor = (requests me).bind Request.actor
  drafts : ∀ endpointHash owner version memberId,
    (world.subs.slot endpointHash).draft = some (owner, version) →
      (requests owner).bind Request.actor = some memberId →
        ¬ OwnedByOther world memberId endpointHash

variable {requests : SessionId → Option Request} {world world' : World} {phase : SessionId → Phase}
  {me : SessionId}

/-- What a statement other than an end of the transaction may do to the subscriptions: nothing, or
draft one row that is not another member's. -/
inductive Writes (requests : SessionId → Option Request) (me : SessionId)
    (before after : World) : Prop where
  | none (same : after.subs = before.subs)
  | row (endpointHash : String) (version : Option PushSubscription)
      (written : after.subs = before.subs.write me endpointHash version)
      (free : (before.subs.slot endpointHash).lockedFor me = false)
      (own : ∀ memberId, (requests me).bind Request.actor = some memberId →
        ¬ OwnedByOther before memberId endpointHash)

/-- A session that reads a row of its own member, or of nobody, reads what is committed, or has
the row in its hands already. -/
theorem OwnershipInv.own (inv : OwnershipInv requests world phase) {endpointHash : String}
    {memberId : Nat} (actor : (requests me).bind Request.actor = some memberId)
    (seen : ∀ row, world.subs.row me endpointHash = some row → claimable memberId row = true) :
    ¬ OwnedByOther world memberId endpointHash := by
  rcases Table.row_cases me world.subs endpointHash with committed | drafted
  · rintro ⟨row, owner, found, owned, other⟩
    rw [committed] at found
    have mine := seen row found
    simp only [claimable, owned, decide_eq_true_eq, reduceCtorEq, Option.some.injEq,
      false_or] at mine
    exact other mine
  · exact inv.drafts endpointHash me _ memberId drafted actor

theorem OwnershipInv.writes (inv : OwnershipInv requests world phase) {stmt : Stmt}
    {choice : Choice} {reply : Except Failure (Reply stmt)} (succeeds : choice.fails = none)
    (unclaimed : Unclaimed requests world me stmt choice) (allowed : (phase me).allow stmt)
    (ending : stmt ≠ .commit ∧ stmt ≠ .rollback)
    (done : Source.Subscriptions.answer me stmt choice world = some (reply, world')) :
    Writes requests me world world' := by
  cases acts : phase me with
  | gone =>
    rw [acts] at allowed
    exact absurd allowed (by simp [Phase.allow])
  | acting actor =>
    rw [acts] at allowed
    have behalf := inv.acting me actor acts
    cases stmt with
    | findByHash _ | ownedBy _ | refresh =>
      cases done
      exact .none rfl
    | upsert endpointHash data memberId =>
      have actor : (requests me).bind Request.actor = some memberId := behalf.symm.trans allowed
      obtain ⟨⟨written, subs⟩, upserted, same⟩ := Option.map_eq_some_iff.mp done
      cases same
      rcases Table.upsertRow_cases upserted with ⟨-, rfl⟩ | ⟨free, accepted, rfl⟩
      · exact .none rfl
      · refine .row endpointHash written rfl free fun other same => ?_
        rw [actor, Option.some.injEq] at same
        subst same
        exact inv.own actor accepted
    | deleteLoaded endpointHash loaded =>
      obtain ⟨⟨hit, subs⟩, deleted, same⟩ := Option.map_eq_some_iff.mp done
      cases same
      rcases Table.deleteRow_cases deleted with ⟨-, rfl⟩ | ⟨-, free, ⟨stored, seen, same⟩, rfl⟩
      · exact .none rfl
      · refine .row endpointHash none rfl free
          fun memberId actor => inv.own actor fun row found => ?_
        rw [seen, Option.some.injEq] at found
        subst found
        have kept := unclaimed succeeds
        simp only [SubscriptionOwnership.unclaimed, seen, Option.all_some,
          decide_eq_true_eq] at kept same
        rw [behalf, actor] at allowed
        rw [actor] at kept
        simp only [claimable, decide_eq_true_eq]
        rcases kept with different | asFound | ownerless | mine
        · exact absurd same different
        · rw [asFound]
          exact allowed.imp id fun mine => mine.2
        · exact .inl ownerless
        · exact .inr mine
    | disown memberId endpointHash =>
      obtain ⟨⟨hit, subs⟩, updated, same⟩ := Option.map_eq_some_iff.mp done
      cases same
      rcases Table.updateRow_cases updated with ⟨-, rfl⟩ | ⟨-, free, stored, seen, -, rfl⟩
      · exact .none rfl
      · refine .row endpointHash _ rfl free fun other actor => ?_
        rw [← behalf, allowed] at actor
        cases actor
    | commit => exact absurd rfl ending.1
    | rollback => exact absurd rfl ending.2

theorem OwnershipInv.still (inv : OwnershipInv requests world phase) :
    OwnershipInv requests world (Function.update phase me (phase me)) := by
  rw [Function.update_eq_self]
  exact inv

/-- A draft of a row that no other member owns keeps the invariant. -/
theorem OwnershipInv.write (inv : OwnershipInv requests world phase)
    (writes : Writes requests me world world') : OwnershipInv requests world' phase := by
  refine ⟨inv.acting, fun endpointHash owner version memberId drafted actor => ?_⟩
  cases writes with
  | none same =>
    rw [same] at drafted
    unfold OwnedByOther
    rw [same]
    exact inv.drafts endpointHash owner version memberId drafted actor
  | row key latest written free own =>
    unfold OwnedByOther
    rw [written] at drafted ⊢
    simp only [Table.write_committed]
    by_cases here : endpointHash = key
    · subst here
      simp only [Table.write_slot_self, Slot.write_draft, Option.some.injEq,
        Prod.mk.injEq] at drafted
      obtain ⟨rfl, -⟩ := drafted
      exact own memberId actor
    · rw [Table.write_slot_of_ne here] at drafted
      exact inv.drafts endpointHash owner version memberId drafted actor

/-- The end of a transaction, by a commit or a rollback, keeps it. -/
theorem OwnershipInv.ended (inv : OwnershipInv requests world phase)
    (ended : world.subs.Ended me world'.subs) : OwnershipInv requests world' phase := by
  refine ⟨inv.acting, fun endpointHash owner version memberId drafted actor => ?_⟩
  unfold OwnedByOther
  rw [ended.kept_of_draft drafted]
  exact inv.drafts endpointHash owner version memberId ((ended.draft _ _ _).mp drafted).1 actor

theorem OwnershipInv.leave (inv : OwnershipInv requests world phase) :
    OwnershipInv requests world (Function.update phase me .gone) := by
  refine ⟨fun other actor acts => ?_, inv.drafts⟩
  by_cases same : other = me
  · subst same
    rw [Function.update_self] at acts
    cases acts
  · rw [Function.update_of_ne same] at acts
    exact inv.acting other actor acts

/-! ## Every interleaving -/

/-- The invariant holds over every interleaving in which no row is claimed between a look-up and its
deletion. -/
theorem ownershipInv_keeps (requests : SessionId → Option Request) :
    handler.Keeps machine (Unclaimed requests) (OwnershipInv requests) where
  exec world phase me stmt choice reply world' inv unclaimed allowed done := by
    apply OwnershipInv.still
    rcases answering.exec_cases done with ⟨reason, -, rfl, rfl⟩ | ⟨succeeds, answered⟩
    · exact inv
    · by_cases commits : stmt = .commit
      · subst commits
        cases answered
        exact inv.ended (Table.commit_ended me _)
      · by_cases rollsBack : stmt = .rollback
        · subst rollsBack
          cases answered
          exact inv.ended (Table.abort_ended me _)
        · exact inv.write (inv.writes succeeds unclaimed allowed ⟨commits, rollsBack⟩ answered)
  known _ _ _ _ _ _ _ _ _ := trivial
  close _ _ me inv := (inv.ended (Table.abort_ended me _)).leave
  crash _ _ me inv := (inv.ended (Table.abort_ended me _)).leave
  outside _ _ change _ := nomatch change

/-- What one session's commit or rollback leaves alone. -/
theorem OwnershipInv.untouched (inv : OwnershipInv requests world phase) {memberId : Nat}
    {endpointHash : String} (actor : (requests me).bind Request.actor = some memberId)
    (other : OwnedByOther world memberId endpointHash) :
    ((world.subs.slot endpointHash).commit me = world.subs.slot endpointHash) ∧
      (world.subs.slot endpointHash).abort me = world.subs.slot endpointHash := by
  have none_ : ∀ version, (world.subs.slot endpointHash).draft ≠ some (me, version) :=
    fun version drafted => inv.drafts endpointHash me version memberId drafted actor other
  exact ⟨Slot.commit_of_not_mine none_, Slot.abort_of_not_mine none_⟩

/-- A statement on behalf of a member spares the rows of the others. -/
theorem OwnershipInv.exec_spares (inv : OwnershipInv requests world phase) {stmt : Stmt}
    {choice : Choice}
    {reply : Except Failure (Reply stmt)} (unclaimed : Unclaimed requests world me stmt choice)
    (allowed : (phase me).allow stmt)
    (done : Source.Subscriptions.exec me stmt choice world = some (reply, world')) {memberId : Nat}
    (actor : (requests me).bind Request.actor = some memberId) {endpointHash : String}
    (other : OwnedByOther world memberId endpointHash) :
    world'.subs.slot endpointHash = world.subs.slot endpointHash := by
  rcases answering.exec_cases done with ⟨reason, -, rfl, rfl⟩ | ⟨succeeds, answered⟩
  · rfl
  · by_cases commits : stmt = .commit
    · subst commits
      cases answered
      exact (inv.untouched actor other).1
    · by_cases rollsBack : stmt = .rollback
      · subst rollsBack
        cases answered
        exact (inv.untouched actor other).2
      · cases inv.writes succeeds unclaimed allowed ⟨commits, rollsBack⟩ answered with
        | none same => rw [same]
        | row key version written free own =>
          have different : endpointHash ≠ key := by
            rintro rfl
            exact own memberId actor other
          rw [written, Table.write_slot_of_ne different]

/-- From there no step on behalf of a member touches a row of another one. -/
theorem step_spares {config after : Config machine Unit} {action : Action machine}
    (holds : handler.Holds (OwnershipInv requests) config)
    (meets : config.Meets (Unclaimed requests) [action])
    (stepped : config.step action = some after) :
    Spares requests action config.world after.world := by
  obtain ⟨phase, inv, follows, -⟩ := holds
  intro memberId actor endpointHash other
  cases Config.step_cases stepped with
  | @exec me choice stmt next reply world' running done =>
    exact inv.exec_spares (meets.1 me choice stmt next rfl running)
      (follows me _ running).allowed done actor other
  | close ended => exact (inv.untouched actor other).2
  | crash running => exact (inv.untouched actor other).2
  | outside change => cases change

/-- On whose behalf a session acts when the requests come in. -/
def opening (requests : SessionId → Option Request) (me : SessionId) : Phase :=
  match requests me with
  | some request => .acting request.actor
  | none => .gone

theorem opening_of_request {request : Request} (named : requests me = some request) :
    opening requests me = .acting request.actor := by
  simp [opening, named]

theorem start_holds (hashEndpoint : String → String) {world : World} (quiet : world.subs.Quiet)
    (requests : SessionId → Option Request) :
    handler.Holds (OwnershipInv requests) (start hashEndpoint world requests) := by
  refine ⟨opening requests, ⟨fun me actor acts => ?_, ?_⟩, fun me program running => ?_,
    fun me absent => ?_⟩
  · cases named : requests me with
    | none => simp [opening, named] at acts
    | some request =>
      rw [opening_of_request named] at acts
      cases acts
      rfl
  · intro endpointHash owner version memberId drafted
    simp [start, quiet endpointHash] at drafted
  · obtain ⟨request, named, rfl⟩ := Option.map_eq_some_iff.mp running
    rw [opening_of_request named]
    exact request_follows hashEndpoint request
  · have absent : requests me = none := Option.map_eq_none_iff.mp absent
    simp [opening, absent]

/-- Members subscribe and unsubscribe in any interleaving, with failures and crashes anywhere, and
members are deleted: as long as no deletion finds its row claimed by another member since it
looked, each step on behalf of one member spares the rows of all others. -/
theorem others_rows_are_spared (hashEndpoint : String → String) (world : World)
    (requests : SessionId → Option Request) (quiet : world.subs.Quiet)
    (first : List (Action machine)) (action : Action machine) (middle after : Config machine Unit)
    (unclaimed : (start hashEndpoint world requests).Meets (Unclaimed requests) (first ++ [action]))
    (reached : (start hashEndpoint world requests).run first = some middle)
    (stepped : middle.step action = some after) :
    Spares requests action middle.world after.world := by
  obtain ⟨before, now⟩ := unclaimed.append reached
  have holds :=
    (ownershipInv_keeps requests).run (start_holds hashEndpoint quiet requests) before reached
  exact step_spares holds now stepped

/-! ## A row without an owner -/

/-- The member who had subscribed has been deleted. -/
def ownerless : World where
  subs := .seeded [("push.example",
    { id := 1, memberId := none, endpoint := "push.example", p256dh := "k", auth := "a" })]
  nextId := 2

/-- Member 20 unsubscribes the endpoint, and member 10 subscribes it. -/
def bothAct (me : SessionId) : Option Request :=
  [Request.delete "push.example" 20,
    .save { endpoint := "push.example", p256dh := "k2", auth := "a2" } 10][me]?

abbrev bothStart : Config machine Unit := start id ownerless bothAct

/-- The owner of the committed row under the key, if there is such a row. -/
def ownerOf (world : World) (endpointHash : String) : Option (Option Nat) :=
  (world.subs.committed endpointHash).map (·.memberId)

theorem ownedByOther_of_owner {memberId owner : Nat} {endpointHash : String}
    (owned : ownerOf world endpointHash = some (some owner)) (other : owner ≠ memberId) :
    OwnedByOther world memberId endpointHash := by
  obtain ⟨row, found, owned⟩ := Option.map_eq_some_iff.mp owned
  exact ⟨row, owner, found, owned, other⟩

set_option maxRecDepth 10000 in
/-- Member 10 has claimed the row before the other one looks it up: it is refused. -/
theorem others_rows_are_spared_claimed : ∃ middle after,
    bothStart.run (executes 1 3) = some middle ∧ middle.step (.exec 0 {}) = some after ∧
      OwnedByOther middle.world 20 "push.example" ∧
      after.world.subs.slot "push.example" = middle.world.subs.slot "push.example" := by
  have ran : (bothStart.run (executes 1 3)).bind (fun middle =>
      (middle.step (.exec 0 {})).map
        fun _ => ownerOf middle.world "push.example") = some (some (some 10)) := by
    decide
  obtain ⟨middle, reached, stepped⟩ := Option.bind_eq_some_iff.mp ran
  obtain ⟨after, stepped, owned⟩ := Option.map_eq_some_iff.mp stepped
  have other : OwnedByOther middle.world 20 "push.example" :=
    ownedByOther_of_owner owned (by decide)
  have spares :=
    others_rows_are_spared id ownerless bothAct (Table.seeded_quiet _) (executes 1 3) (.exec 0 {})
    middle after (Config.meets_of_checks (by decide)) reached stepped
  exact ⟨middle, after, reached, stepped, other, spares 20 rfl "push.example" other⟩

set_option maxRecDepth 10000 in
/-- Member 20 has found the row without an owner: it deletes what member 10 has claimed since. -/
theorem claimed_row_deleted : ∃ middle after,
    bothStart.run (executes 0 1 ++ executes 1 3) = some middle ∧
      middle.step (.exec 0 {}) = some after ∧
      OwnedByOther middle.world 20 "push.example" ∧
      ¬ Spares bothAct (.exec 0 {}) middle.world after.world := by
  have ran : (bothStart.run (executes 0 1 ++ executes 1 3)).bind (fun middle =>
      (middle.step (.exec 0 {})).map fun after => (ownerOf middle.world "push.example",
        (middle.world.subs.slot "push.example").draft.isSome,
        (after.world.subs.slot "push.example").draft.isSome)) =
          some (some (some 10), false, true) := by
    decide
  obtain ⟨middle, reached, stepped⟩ := Option.bind_eq_some_iff.mp ran
  obtain ⟨after, stepped, facts⟩ := Option.map_eq_some_iff.mp stepped
  simp only [Prod.mk.injEq] at facts
  obtain ⟨owned, idle, deleted⟩ := facts
  have other : OwnedByOther middle.world 20 "push.example" :=
    ownedByOther_of_owner owned (by decide)
  refine ⟨middle, after, reached, stepped, other, fun spares => ?_⟩
  have same := spares 20 rfl "push.example" other
  rw [same, idle] at deleted
  cases deleted

end SogeconApp.Guarantees.SubscriptionOwnership
