import SogeconApp.Source.Rsvps

/-!
# RSVP capacity

A request counts the seats taken, and grants one in a later statement; a cancel
promotes the first of the waitlist whatever the cancelled row was. Both can grant a seat
that is not free. What the code does keep: as long as each commit that grants a seat is
the first to do so since its request saw a free one, by its count or by the commit that
freed a seat, no interleaving seats more than the capacity.
-/

namespace SogeconApp.Guarantees.RsvpCapacity

open Library Program Source.Rsvps

/-! ## Phases -/

/-- The row that the open transaction of a session has drafted or locked. -/
abbrev Phase := Option RsvpId

abbrev handler : Protocol rsvp where
  Phase := Phase
  gone := none
  allow phase stmt :=
    match stmt with
    | .insertRsvp key _ | .updateRsvp key _ | .lockWaitlisted key => phase = none ∨ phase = some key
    | .countGoing _ => phase = none
    | _ => True
  next phase stmt reply :=
    match stmt, reply with
    | .insertRsvp key _, .ok _ => some key
    | .updateRsvp key _, .ok _ => some key
    | .lockWaitlisted key, .ok true => some key
    | .commit, .ok _ => none
    | _, _ => phase
  answers _ _ := True

theorem getEvent_through (eventId : Nat) :
    handler.Through none (getEvent eventId) fun _ phase => phase = none := by
  refine .step trivial fun found _ => ?_
  cases found with
  | none => exact .raise
  | some capacity => exact .ret rfl

theorem getMember_through (memberId : Nat) :
    handler.Through none (getMember memberId) fun _ phase => phase = none := by
  refine .step trivial fun found _ => ?_
  cases found with
  | false => exact .raise
  | true => exact .ret rfl

theorem repoCreateRsvp_through (key : RsvpId) (status : RSVPStatus) :
    handler.Through none (repoCreateRsvp key status) fun _ _ => True := by
  refine .step trivial fun found _ => ?_
  cases found with
  | some row => exact .raise
  | none => exact .step (.inl rfl) fun _ _ => .step trivial fun _ _ => .ask trivial fun _ _ => trivial

/-- A lock that is refused leaves no trace, so one row at most is locked. -/
theorem lockFirst_through (candidates : List RsvpId) :
    handler.Through none (lockFirst candidates) fun locked phase => phase = locked := by
  induction candidates with
  | nil => exact .ret rfl
  | cons key rest ih =>
    refine .step (.inl rfl) fun taken _ => ?_
    cases taken with
    | true => exact .ret rfl
    | false => exact ih

/-- A promotion locks the row that it finds waiting, and writes that one only. -/
theorem promoteWaitlistCandidate_through (eventId : Nat) :
    handler.Through none (promoteWaitlistCandidate eventId) fun _ _ => True := by
  refine .step trivial fun candidates _ => (lockFirst_through candidates).bind ?_
  rintro _ locked rfl
  cases locked with
  | none => exact .ret trivial
  | some candidate =>
    exact .step (.inr rfl) fun _ _ => .step trivial fun _ _ => .ask trivial fun _ _ => trivial

theorem normalizeRsvpStatusForCapacity_through (eventId capacity : Nat) (requested : RSVPStatus)
    (existing : Option RSVPStatus) :
    handler.Through none (normalizeRsvpStatusForCapacity eventId capacity requested existing)
      fun _ phase => phase = none := by
  unfold normalizeRsvpStatusForCapacity
  split
  · exact .ret rfl
  · refine .step rfl fun count _ => ?_
    extract_lets effective
    split <;> exact .ret rfl

theorem upsertRsvpStatus_through (memberId eventId : Nat) (status : RSVPStatus) :
    handler.Through none (upsertRsvpStatus memberId eventId status) fun _ _ => True := by
  refine (getEvent_through eventId).bind ?_
  rintro capacity _ rfl
  refine (getMember_through memberId).bind ?_
  rintro _ _ rfl
  refine .step trivial fun found _ => ?_
  cases found with
  | none =>
    refine (normalizeRsvpStatusForCapacity_through eventId capacity status none).bind ?_
    rintro finalStatus _ rfl
    exact repoCreateRsvp_through _ finalStatus
  | some loaded =>
    refine (normalizeRsvpStatusForCapacity_through eventId capacity status (some loaded.status)).bind ?_
    rintro newStatus _ rfl
    have flushed : handler.Through none (flushStatus ⟨memberId, eventId⟩ loaded.status newStatus)
        fun _ _ => True := by
      unfold flushStatus
      split
      · exact .ask (.inl rfl) fun _ _ => trivial
      · exact .ret trivial
    refine flushed.bind fun _ phase _ => ?_
    refine .step trivial fun _ _ => ?_
    refine .step trivial fun _ _ => ?_
    split
    · exact promoteWaitlistCandidate_through eventId
    · exact .ret trivial

theorem request_follows (request : Request) : handler.Follows none request.program := by
  cases request with
  | createRsvp memberId eventId status =>
    refine ((getEvent_through eventId).bind ?_ : handler.Through none _ fun _ _ => True).follows
    rintro capacity _ rfl
    refine (getMember_through memberId).bind ?_
    rintro _ _ rfl
    refine (normalizeRsvpStatusForCapacity_through eventId capacity status none).bind ?_
    rintro finalStatus _ rfl
    exact repoCreateRsvp_through _ finalStatus
  | upsertRsvpStatus memberId eventId status => exact (upsertRsvpStatus_through memberId eventId status).follows

/-! ## The invariant -/

/-- A commit that grants a seat is the first since its request saw a free one. -/
def SeatStillFree (world : World) (me : SessionId) (stmt : Stmt) (choice : Choice) : Prop :=
  stmt = .commit → choice.fails = none → ∀ key ∈ world.rsvps.keys, world.grants me key = true →
    world.sawSeat me = some (key.eventId, world.granted key.eventId)

instance (world : World) (me : SessionId) (stmt : Stmt) (choice : Choice) :
    Decidable (SeatStillFree world me stmt choice) :=
  inferInstanceAs (Decidable (_ → _))

structure CapacityInv (fixed : Nat → Option Nat) (world : World) (phase : SessionId → Phase) : Prop where
  capacity : world.capacity = fixed
  drafts : world.rsvps.Drafted phase
  within : ∀ eventId capacity, world.capacity eventId = some capacity → world.going eventId ≤ capacity
  order : ∀ me eventId grant, world.sawSeat me = some (eventId, grant) → grant ≤ world.granted eventId
  room : ∀ me eventId, world.sawSeat me = some (eventId, world.granted eventId) →
    ∀ capacity, world.capacity eventId = some capacity → world.going eventId < capacity

variable {fixed : Nat → Option Nat} {world world' : World} {phase : SessionId → Phase} {me : SessionId}

/-- A step that publishes nothing: what was known of the seats stays known. -/
theorem CapacityInv.draft (inv : CapacityInv fixed world phase) {after : Phase} {rsvps : Table RsvpId RSVP}
    (committed : ∀ eventId, rsvps.countCommitted (isGoing eventId) = world.going eventId)
    (drafts : rsvps.Drafted (Function.update phase me after)) :
    CapacityInv fixed { world with rsvps } (Function.update phase me after) where
  capacity := inv.capacity
  drafts := drafts
  within eventId capacity found := by
    rw [World.going, committed]
    exact inv.within eventId capacity found
  order := inv.order
  room other eventId saw capacity found := by
    rw [World.going, committed]
    exact inv.room other eventId saw capacity found

/-- The session goes on without a step of the store. -/
theorem CapacityInv.still (inv : CapacityInv fixed world phase) :
    CapacityInv fixed world (Function.update phase me (phase me)) := by
  rw [Function.update_eq_self]
  exact inv

/-- A row drafted where the session has none but this one. -/
theorem CapacityInv.write (inv : CapacityInv fixed world phase) {key : RsvpId} {version : Option RSVP}
    (first : phase me = none ∨ phase me = some key) :
    CapacityInv fixed { world with rsvps := world.rsvps.write me key version }
      (Function.update phase me (some key)) := by
  refine inv.draft (fun eventId => Table.countCommitted_write _ _ _) ?_
  exact inv.drafts.write first (Function.update_self ..) fun other different => Function.update_of_ne different ..

theorem CapacityInv.leave (inv : CapacityInv fixed world phase) :
    CapacityInv fixed (world.leave me) (Function.update phase me none) := by
  refine inv.draft (fun eventId => Table.countCommitted_abort _) ?_
  exact inv.drafts.ended (Table.abort_ended me world.rsvps) fun other different =>
    Function.update_of_ne different ..

section Commit

variable {key : RsvpId}

/-- The session has drafted a row under this key at most. -/
def Single (me : SessionId) (world : World) (key : RsvpId) : Prop :=
  ∀ other version, (world.rsvps.slot other).draft = some (me, version) → other = key

/-- A commit changes the row that its session has drafted, and no other one. -/
theorem Single.changed_only (single : Single me world key) {other : RsvpId}
    (changed : (world.rsvps.commit me).committed other ≠ world.rsvps.committed other) :
    other = key ∧ other ∈ world.rsvps.keys := by
  obtain ⟨version, drafted⟩ := Table.drafted_of_committed_ne changed
  exact ⟨single other version drafted, Table.mem_keys_of_draft drafted⟩

theorem Single.grants_only (single : Single me world key) {other : RsvpId}
    (granted : world.grants me other = true) : other = key ∧ other ∈ world.rsvps.keys := by
  refine single.changed_only fun same => ?_
  simp [World.grants, same] at granted

theorem Single.frees_only (single : Single me world key) {other : RsvpId}
    (freed : world.frees me other = true) : other = key ∧ other ∈ world.rsvps.keys := by
  refine single.changed_only fun same => ?_
  simp [World.frees, same] at freed

theorem Single.granted_eq (single : Single me world key) (eventId : Nat) :
    (world.commit me).granted eventId =
      if key.eventId = eventId ∧ world.grants me key = true then world.granted eventId + 1
      else world.granted eventId := by
  have same : (world.rsvps.keys.any fun other => decide (other.eventId = eventId) && world.grants me other) =
      true ↔ key.eventId = eventId ∧ world.grants me key = true := by
    simp only [List.any_eq_true, Bool.and_eq_true, decide_eq_true_eq]
    constructor
    · rintro ⟨other, -, ofEvent, granted⟩
      obtain ⟨rfl, -⟩ := single.grants_only granted
      exact ⟨ofEvent, granted⟩
    · rintro ⟨ofEvent, granted⟩
      exact ⟨key, (single.grants_only granted).2, ofEvent, granted⟩
  simp only [World.commit, same]

/-- A session whose commit frees a seat has seen a free one, and no other commit changes what was seen.
-/
theorem Single.sawSeat_eq (single : Single me world key) :
    (world.commit me).sawSeat =
      if world.frees me key then
        Function.update world.sawSeat me (some (key.eventId, world.granted key.eventId))
      else world.sawSeat := by
  simp only [World.commit]
  cases found : world.rsvps.keys.find? (world.frees me) with
  | some other =>
    have freed := List.find?_some found
    obtain ⟨rfl, -⟩ := single.frees_only freed
    simp [freed]
  | none =>
    have kept : world.frees me key = false := by
      cases freed : world.frees me key with
      | false => rfl
      | true =>
        have shut := List.find?_eq_none.mp found key (single.frees_only freed).2
        exact absurd freed shut
    simp [kept]

/-- A commit that grants a seat of an event takes one, a commit that frees one gives it back. -/
theorem Single.going_eq (single : Single me world key) (eventId : Nat) :
    (world.commit me).going eventId +
        (decide (key.eventId = eventId) && world.frees me key).toNat =
      world.going eventId + (decide (key.eventId = eventId) && world.grants me key).toNat := by
  have counted := Table.countCommitted_commit (isGoing eventId) key single
  change (world.commit me).going eventId + _ = world.going eventId + _ at counted
  by_cases ofEvent : key.eventId = eventId
  · subst ofEvent
    simp only [World.grants, World.frees, World.seated, decide_true, Bool.true_and]
    cases before : Table.accepts (isGoing key.eventId) key (world.rsvps.committed key) <;>
      cases after : Table.accepts (isGoing key.eventId) key ((world.rsvps.commit me).committed key) <;>
        rw [before, after] at counted <;> simpa using counted
  · have apart : ∀ version : Option RSVP, Table.accepts (isGoing eventId) key version = false := by
      intro version
      cases version <;> simp [Table.accepts, isGoing, ofEvent]
    simpa [apart, ofEvent] using counted

/-- A commit that grants a seat finds it free, since none was granted in between. -/
theorem CapacityInv.commit (inv : CapacityInv fixed world phase)
    (still : ∀ key ∈ world.rsvps.keys, world.grants me key = true →
      world.sawSeat me = some (key.eventId, world.granted key.eventId)) :
    CapacityInv fixed (world.commit me) (Function.update phase me none) := by
  obtain ⟨key, single⟩ : ∃ key, Single me world key := inv.drafts.single me
  have going := single.going_eq
  have granted := single.granted_eq
  have exclusive : world.grants me key = true → world.frees me key = false := by
    intro grants
    simp only [World.grants, Bool.and_eq_true, Bool.not_eq_true'] at grants
    simp [World.frees, grants]
  refine ⟨inv.capacity, ?_, ?_, ?_, ?_⟩
  · exact inv.drafts.ended (Table.commit_ended me world.rsvps) fun other different =>
      Function.update_of_ne different ..
  · intro eventId capacity found
    have before := inv.within eventId capacity found
    have step := going eventId
    by_cases grant : key.eventId = eventId ∧ world.grants me key = true
    · obtain ⟨rfl, grants⟩ := grant
      -- The seat that the request saw free is free still.
      have free := inv.room me key.eventId
        (still key (single.grants_only grants).2 grants) capacity found
      simp only [decide_true, Bool.true_and, grants, exclusive grants, Bool.toNat_false, Bool.toNat_true] at step
      omega
    · have none_ : (decide (key.eventId = eventId) && world.grants me key) = false := by
        simpa using grant
      rw [none_] at step
      simp only [Bool.toNat_false] at step
      omega
  · intro other eventId grant saw
    have grown : world.granted eventId ≤ (world.commit me).granted eventId := by
      rw [granted]
      split <;> omega
    rw [single.sawSeat_eq] at saw
    split at saw
    · by_cases mine : other = me
      · subst mine
        simp only [Function.update_self, Option.some.injEq, Prod.mk.injEq] at saw
        obtain ⟨rfl, rfl⟩ := saw
        exact grown
      · rw [Function.update_of_ne mine] at saw
        exact (inv.order other eventId grant saw).trans grown
    · exact (inv.order other eventId grant saw).trans grown
  · intro other eventId saw capacity found
    have step := going eventId
    have before := inv.within eventId capacity found
    -- A session that saw a free seat of this event earlier knows of no grant since.
    have earlier : world.sawSeat other = some (eventId, (world.commit me).granted eventId) →
        (world.commit me).going eventId < capacity := by
      intro saw
      have order := inv.order other eventId _ saw
      rw [granted] at saw order
      split at order
      · omega
      · next none_ =>
        rw [if_neg none_] at saw
        have free := inv.room other eventId saw capacity found
        have kept : (decide (key.eventId = eventId) && world.grants me key) = false := by simpa using none_
        rw [kept] at step
        simp only [Bool.toNat_false] at step
        omega
    rw [single.sawSeat_eq] at saw
    split at saw
    · next freed =>
      by_cases mine : other = me
      · subst mine
        simp only [Function.update_self, Option.some.injEq, Prod.mk.injEq] at saw
        obtain ⟨rfl, -⟩ := saw
        have kept : world.grants other key = false := by
          cases grants : world.grants other key with
          | false => rfl
          | true =>
            rw [exclusive grants] at freed
            cases freed
        simp only [decide_true, Bool.true_and, freed, kept, Bool.toNat_true, Bool.toNat_false] at step
        omega
      · rw [Function.update_of_ne mine] at saw
        exact earlier saw
    · exact earlier saw

end Commit

/-! ## Every statement keeps it -/

/-- The count that a request decides on; the request has drafted nothing yet. -/
theorem CapacityInv.count (inv : CapacityInv fixed world phase) (idle : phase me = none) (eventId : Nat)
    {free : Bool}
    (counted : free = (world.capacity eventId).any fun capacity =>
      (world.rsvps.select me (isGoing eventId)).length < capacity) :
    CapacityInv fixed (if free then
        { world with sawSeat := Function.update world.sawSeat me (some (eventId, world.granted eventId)) }
      else world) phase := by
  have length := Table.length_select (fun key version drafted => by
    have mine := inv.drafts key me version drafted
    rw [idle] at mine
    cases mine) (isGoing eventId)
  cases free with
  | false => exact inv
  | true =>
    rw [if_pos rfl]
    refine ⟨inv.capacity, inv.drafts, inv.within, ?_, ?_⟩
    · intro other event grant saw
      by_cases mine : other = me
      · subst mine
        simp only [Function.update_self, Option.some.injEq, Prod.mk.injEq] at saw
        obtain ⟨rfl, rfl⟩ := saw
        exact Nat.le_refl _
      · exact inv.order other event grant ((Function.update_of_ne mine ..).symm.trans saw)
    · intro other event saw capacity found
      by_cases mine : other = me
      · subst mine
        simp only [Function.update_self, Option.some.injEq, Prod.mk.injEq] at saw
        obtain ⟨rfl, -⟩ := saw
        change world.capacity eventId = some capacity at found
        rw [found, length] at counted
        exact of_decide_eq_true counted.symm
      · exact inv.room other event ((Function.update_of_ne mine ..).symm.trans saw) capacity found

/-- An update fails and changes nothing, or writes a row that nobody else has locked. -/
theorem updateStatus_cases {key : RsvpId} {status : RSVPStatus} {reply : Except Failure Unit}
    (done : updateStatus me key status world = some (reply, world')) :
    (∃ reason, reply = .error reason ∧ world' = world) ∨
      reply = .ok () ∧ (world.rsvps.slot key).lockedFor me = false ∧ ∃ version,
        world' = { world with rsvps := world.rsvps.write me key (some version) } := by
  obtain ⟨⟨hit, rsvps⟩, updated, same⟩ := Option.map_eq_some_iff.mp done
  rcases Table.updateRow_cases updated with ⟨rfl, -⟩ | ⟨rfl, free, row, -, -, rfl⟩
  · cases same
    exact .inl ⟨_, rfl, rfl⟩
  · cases same
    exact .inr ⟨rfl, free, _, rfl⟩

/-- Every answered statement keeps the capacity, unless it is a commit that grants a seat which may be
gone. -/
theorem CapacityInv.answer (inv : CapacityInv fixed world phase) {stmt : Stmt} {choice : Choice}
    {reply : Except Failure (Reply stmt)} (succeeds : choice.fails = none)
    (still : SeatStillFree world me stmt choice)
    (allowed : handler.allow (phase me) stmt)
    (done : Source.Rsvps.answer me stmt choice world = some (reply, world')) :
    CapacityInv fixed world' (Function.update phase me (handler.next (phase me) stmt reply)) := by
  cases stmt with
  | getEvent eventId | getMember memberId | getRsvp key | selectWaitlist eventId | refreshRsvp key =>
    cases done
    exact inv.still
  | countGoing eventId =>
    cases done
    change CapacityInv fixed _ (Function.update phase me (phase me))
    rw [Function.update_eq_self]
    exact inv.count allowed eventId rfl
  | insertRsvp key status =>
    obtain ⟨⟨hit, rsvps⟩, inserted, same⟩ := Option.map_eq_some_iff.mp done
    rcases Table.insertRow_cases inserted with ⟨rfl, -⟩ | ⟨rfl, free, -, rfl⟩
    · cases same
      exact inv.still
    · cases same
      exact inv.write allowed
  | updateRsvp key status =>
    rcases updateStatus_cases done with ⟨reason, rfl, rfl⟩ | ⟨rfl, free, version, rfl⟩
    · exact inv.still
    · exact inv.write allowed
  | lockWaitlisted key =>
    simp only [Source.Rsvps.answer] at done
    split at done
    · next row rsvps locked =>
      cases done
      rcases Table.lockRow_cases locked with ⟨missing, -⟩ | ⟨version, -, free, -, -, rfl⟩
      · cases missing
      · exact inv.write allowed
    · cases done
      exact inv.still
  | commit =>
    cases done
    exact inv.commit (still rfl succeeds)

theorem capacityInv_keeps : handler.Keeps machine SeatStillFree (CapacityInv fixed) where
  exec := by
    refine Protocol.Keeps.exec_of_answer answering ?_ ?_
    · intro phase stmt reason
      cases stmt <;> rfl
    · intro world phase me stmt choice reply world' inv still allowed succeeds answered
      exact inv.answer succeeds still allowed answered
  known _ _ _ _ _ _ _ _ _ := trivial
  close _ _ _ inv := inv.leave
  crash _ _ _ inv := inv.leave
  outside _ _ change _ := nomatch change

/-- Requests that all have still to begin start from a store without attendees. -/
theorem start_holds (capacity : Nat → Option Nat) (members : Nat → Bool)
    (requests : SessionId → Option Request) :
    handler.Holds (CapacityInv capacity) (start (.blank capacity members) requests) := by
  refine ⟨fun _ => none, ⟨rfl, ?_, ?_, ?_, ?_⟩, fun me program running => ?_, fun _ _ => rfl⟩
  · intro key owner version drafted
    cases drafted
  · intro eventId capacity_ _
    exact Nat.zero_le _
  · intro me eventId grant saw
    cases saw
  · intro me eventId saw
    cases saw
  · obtain ⟨request, -, rfl⟩ := Option.map_eq_some_iff.mp running
    exact request_follows request

/-- From no RSVPs, whatever is requested and however it is interleaved: as long as each
granted seat is still the free one that its request saw, nobody sits beyond the capacity. -/
theorem going_within_capacity (capacity : Nat → Option Nat) (members : Nat → Bool)
    (requests : SessionId → Option Request) (actions : List (Action machine)) (after : Config machine Unit)
    (still : (start (.blank capacity members) requests).Meets SeatStillFree actions)
    (reached : (start (.blank capacity members) requests).run actions = some after)
    (eventId seats : Nat) (fixed : capacity eventId = some seats) : after.world.going eventId ≤ seats := by
  obtain ⟨phase, inv, -, -⟩ := capacityInv_keeps.run (start_holds capacity members requests) still reached
  exact inv.within eventId seats (by rw [inv.capacity, fixed])

/-! ## One seat -/

/-- Event 7 has one seat; every member exists. -/
def oneSeat : World := .blank (fun eventId => if eventId = 7 then some 1 else none) fun _ => true

/-- The requests of the sessions 0, 1, 2, .. -/
def inOrder (requests : List Request) (me : SessionId) : Option Request := requests[me]?

/-- A session runs to its end and closes before the next one starts. -/
def alone (me : SessionId) (statements : Nat) : List (Action machine) :=
  List.replicate statements (.exec me { startedAt := me }) ++ [.close me]

/-- The attendee cancels, and the member on the waitlist gets the seat. -/
def attendeeCancels : List Request :=
  [.createRsvp 1 7 .going, .createRsvp 2 7 .going, .upsertRsvpStatus 1 7 .cancel]

set_option maxRecDepth 10000 in
theorem going_within_capacity_promotion : ∃ after,
    (start oneSeat (inOrder attendeeCancels)).run (alone 0 7 ++ alone 1 7 ++ alone 2 11) = some after ∧
      (after.world.rsvps.committed ⟨2, 7⟩).map (·.status) = some .going ∧ after.world.going 7 ≤ 1 := by
  have ran : ((start oneSeat (inOrder attendeeCancels)).run (alone 0 7 ++ alone 1 7 ++ alone 2 11)).map
      (fun after => (after.world.rsvps.committed ⟨2, 7⟩).map (·.status)) = some (some .going) := by decide
  have still : (start oneSeat (inOrder attendeeCancels)).Meets SeatStillFree
    (alone 0 7 ++ alone 1 7 ++ alone 2 11) :=
    Config.meets_of_checks (by decide)
  obtain ⟨after, reached, promoted⟩ := Option.map_eq_some_iff.mp ran
  exact ⟨after, reached, promoted, going_within_capacity _ _ _ _ after still reached 7 1 rfl⟩

/-- Two members wait for the seat, and one of them gives up waiting. -/
def waitingCancels : List Request :=
  [.createRsvp 1 7 .going, .createRsvp 2 7 .going, .createRsvp 3 7 .going, .upsertRsvpStatus 2 7 .cancel]

set_option maxRecDepth 10000 in
/-- The cancel frees no seat and promotes the other one nevertheless. -/
theorem waiting_cancel_overbooks : ∃ after,
    (start oneSeat (inOrder waitingCancels)).run
      (alone 0 7 ++ alone 1 7 ++ alone 2 7 ++ alone 3 11) = some after ∧
      after.world.capacity 7 = some 1 ∧ after.world.going 7 = 2 := by
  have ran : ((start oneSeat (inOrder waitingCancels)).run
      (alone 0 7 ++ alone 1 7 ++ alone 2 7 ++ alone 3 11)).map
        (fun after => (after.world.capacity 7, after.world.going 7)) = some (some 1, 2) := by decide
  obtain ⟨after, reached, same⟩ := Option.map_eq_some_iff.mp ran
  simp only [Prod.mk.injEq] at same
  exact ⟨after, reached, same.1, same.2⟩

end SogeconApp.Guarantees.RsvpCapacity
