import SogeconApp.Guarantees.RsvpCapacity
import SogeconApp.Guarantees.Waitlist

/-!
# Holding a seat and giving it up

A cancel promotes the first of the waitlist whatever row was cancelled, so it conserves the seats of
the event only where the member gives up a seat, has not answered yet, or nobody else waits. An
attendee who asks for the seat again is not counted, yet is put on the waitlist when the others alone
take all the seats: that is the case once the capacity was lowered below the number of attendees.
-/

namespace SogeconApp.Guarantees.SeatHolding

open Library Program Source.Rsvps
open Waitlist (Like Wrote Promoted Waits Works Leads leads_read leads_ask leads_commit sits)
open Source.EventSeats (State Turn)
open Source.PartialUpdates (Event EventUpdate)

/-! ## One request and its state -/

/-- A request to set the status of an RSVP. -/
def asks (me : SessionId) (now : Nat → Nat) (key : RsvpId) (status : RSVPStatus) : Turn where
  me := me
  request := .rsvp (.upsertRsvpStatus key.memberId key.eventId status)
  now := now

/-- The event and the member of an RSVP exist. -/
structure Exists (state : State) (key : RsvpId) (event : Event) : Prop where
  event : state.events key.eventId = some event
  member : state.rsvps.members key.memberId = true

def row (world : World) (key : RsvpId) : Option RSVP := world.rsvps.committed key

/-- The member holds a seat of the event. -/
def Attends (world : World) (key : RsvpId) : Prop := (row world key).map (·.status) = some .going

instance (world : World) (key : RsvpId) : Decidable (Attends world key) :=
  inferInstanceAs (Decidable (_ = _))

/-- A request of which it is known where it leads is served. -/
theorem serve_of_leads {state : State} (turn : Turn) {request : Request} {Q : World → Prop}
    (named : turn.request = .rsvp request)
    (leads : Leads turn.me state.world request.program (fun _ => Q) Q)
    (quiet : ∀ world, Q world → world.rsvps.Quiet) :
    ∃ world after, Q world ∧ state.serve turn = some after ∧ after.rsvps.rsvps = world.rsvps := by
  have works (n : Nat) : Works (turn.choices n) := rfl
  obtain ⟨out, world, done, reached⟩ := Machine.eval_of_ensures leads works
  have ends : Q world := by
    cases out <;> exact reached
  let after : State := { state with rsvps := world.leave turn.me }
  refine ⟨world, after, ends, ?_, (quiet world ends).abort_eq⟩
  simp only [State.serve, named, done, Option.map_some]
  rfl

/-! ## A cancel -/

/-- What a cancel leaves behind: a first answer is stored, and an answer that is changed goes with a
promotion. -/
inductive Cancelled (world : World) (key : RsvpId) (after : World) : Prop
  | declines (createdAt : Nat) (fresh : world.rsvps.committed key = none)
      (wrote : Wrote world key ⟨.cancel, createdAt⟩ after)
  | cancels (loaded : RSVP) (found : world.rsvps.committed key = some loaded) (middle : World)
      (wrote : Wrote world key { loaded with status := .cancel } middle)
      (promoted : Promoted middle key.eventId after)

section Cancel

variable {me : SessionId} {world : World} {key : RsvpId} {capacity : Nat}

/-- A row that is written as it was. -/
theorem wrote_again {middle : World} {stored : RSVP} (quiet : world.rsvps.Quiet)
    (found : world.rsvps.committed key = some stored) (like : Like world middle) :
    Wrote world key stored middle where
  quiet := by
    rw [like.rsvps]
    exact quiet
  capacity := like.capacity
  rows other := by
    rw [like.rsvps]
    split
    · next same => rw [same, found]
    · rfl
  counts cond := by rw [like.rsvps, found]

/-- A cancel by a session alone stores a first answer, or changes one and promotes, or leaves one of the
two behind when it raises. -/
theorem cancel_leads (quiet : world.rsvps.Quiet)
    (known : world.capacity key.eventId = some capacity)
    (member : world.members key.memberId = true) :
    Leads me world (upsertRsvpStatus key.memberId key.eventId .cancel)
      (fun _ => Cancelled world key) (Cancelled world key) := by
  refine Leads.bind (Waitlist.getEvent_leads _ fun none_ => by simp [known] at none_) ?_
  rintro capacity _ ⟨rfl, -⟩
  refine Leads.bind (Waitlist.getMember_leads _ fun none_ => by simp [member] at none_) ?_
  rintro _ world rfl
  refine leads_read (world.rsvps.row me key) (fun _ => rfl) ?_
  rw [quiet.row_eq]
  have uncounted (existing : Option RSVPStatus) : Leads me world
      (normalizeRsvpStatusForCapacity key.eventId capacity .cancel existing)
      (fun status after => status = .cancel ∧ after = world) (Cancelled world key) := ⟨rfl, rfl⟩
  cases found : world.rsvps.committed key with
  | none =>
    refine (uncounted none).bind ?_
    rintro _ world ⟨rfl, rfl⟩
    refine Waitlist.repoCreateRsvp_leads quiet (fun there => absurd found there) ?_
    intro _ createdAt after wrote
    exact .declines createdAt found wrote
  | some loaded =>
    refine (uncounted loaded.status).bind ?_
    rintro _ world ⟨rfl, rfl⟩
    refine Leads.bind (Waitlist.flushStatus_leads quiet found .cancel) ?_
    have promotes {middle : World} (wrote : Wrote world key { loaded with status := .cancel } middle) :
        Leads me middle (promoteWaitlistCandidate key.eventId) (fun _ => Cancelled world key)
          (Cancelled world key) :=
      Waitlist.promoteWaitlistCandidate_leads wrote.quiet _ fun after promoted =>
        .cancels loaded found middle wrote promoted
    rintro _ flushed (⟨same, rfl⟩ | ⟨-, table, rfl, pending⟩)
    · -- The row was cancelled before, and the commit leaves the rows as they are.
      refine leads_ask fun _ => ⟨(), flushed.commit me, rfl, leads_read () (fun _ => rfl) ?_⟩
      have committed : Like flushed (flushed.commit me) := ⟨quiet.commit_eq, rfl⟩
      have kept : Wrote flushed key loaded (flushed.commit me) := wrote_again quiet found committed
      have cancelled : { loaded with status := .cancel } = loaded := by rw [same]
      exact promotes (by rw [cancelled]; exact kept)
    · exact leads_commit pending fun after wrote => leads_read () (fun _ => rfl) (promotes wrote)

end Cancel

/-- Another member waits for a seat of the event. -/
def WaitsBehind (world : World) (key other : RsvpId) (latest : RSVP) : Prop :=
  other.eventId = key.eventId ∧ other ≠ key ∧ Waits world other latest

/-- A cancel takes no seat. It promotes the first of those who wait if the member held a seat and
somebody waits, and changes no other row. -/
structure Conserves (key : RsvpId) (before after : World) : Prop where
  seats : after.going key.eventId ≤ before.going key.eventId
  promotes : Attends before key → (∃ other latest, WaitsBehind before key other latest) →
    ∃ first latest, WaitsBehind before key first latest ∧
      (∀ other waiting, WaitsBehind before key other waiting →
        latest.createdAt ≤ waiting.createdAt) ∧
      row after first = some { latest with status := .going } ∧
      ∀ other, other ≠ key → other ≠ first → row after other = row before other
  still : (Attends before key → ∀ other latest, ¬WaitsBehind before key other latest) →
    ∀ other, other ≠ key → row after other = row before other

/-- The member gives up a seat, has not answered, or nobody else waits. -/
def Frees (world : World) (key : RsvpId) : Prop :=
  Attends world key ∨ row world key = none ∨ ∀ other latest, ¬WaitsBehind world key other latest

section Conserve

variable {before after : World} {key : RsvpId}

theorem sits_of_attends (attends : Attends before key) : sits before key = 1 := by
  obtain ⟨held, found, going⟩ := Option.map_eq_some_iff.mp attends
  rw [Waitlist.sits_of_some found, if_pos going]

theorem sits_of_not_attends (standing : ¬Attends before key) : sits before key = 0 := by
  cases found : row before key with
  | none => exact Waitlist.sits_of_none found
  | some held =>
    rw [Waitlist.sits_of_some found, if_neg]
    intro going
    exact standing (by simp [Attends, found, going])

/-- A first answer that declines. -/
theorem conserves_of_declines {createdAt : Nat} (fresh : row before key = none)
    (wrote : Wrote before key ⟨.cancel, createdAt⟩ after) :
    Conserves key before after := by
  have standing : ¬Attends before key := by simp [Attends, fresh]
  refine ⟨?_, fun attends => absurd attends standing, fun _ other different => ?_⟩
  · have seats := wrote.going
    have alone := sits_of_not_attends standing
    simp only [reduceCtorEq, if_false] at seats
    omega
  · rw [row, wrote.rows, if_neg different]
    rfl

section Cancels

variable {loaded : RSVP} {middle : World}
  (wrote : Wrote before key { loaded with status := .cancel } middle)

include wrote

theorem going_of_cancel : middle.going key.eventId + sits before key =
    before.going key.eventId := by
  have seats := wrote.going
  simp only [reduceCtorEq, if_false] at seats
  exact seats

/-- Who waits after the cancel has been waiting behind the member. -/
theorem waits_of_cancel {other : RsvpId} {latest : RSVP} (same : other.eventId = key.eventId) :
    Waits middle other latest ↔ WaitsBehind before key other latest := by
  by_cases mine : other = key
  · constructor
    · rintro ⟨found, waits⟩
      rw [wrote.rows, if_pos mine, Option.some.injEq] at found
      rw [← found] at waits
      cases waits
    · intro behind
      exact absurd mine behind.2.1
  · rw [WaitsBehind, Waits, Waits, wrote.rows, if_neg mine]
    exact ⟨fun waits => ⟨same, mine, waits⟩, fun behind => behind.2.2⟩

theorem conserves_of_cancels (promoted : Promoted middle key.eventId after) :
    Conserves key before after ↔
      Attends before key ∨ ∀ other latest, ¬WaitsBehind before key other latest := by
  have given := going_of_cancel wrote
  cases promoted with
  | nobody alone like =>
    have nobody (other : RsvpId) (latest : RSVP) : ¬WaitsBehind before key other latest := by
      intro behind
      exact alone other latest behind.1 ((waits_of_cancel wrote behind.1).mpr behind)
    refine iff_of_true ⟨?_, ?_, fun _ other different => ?_⟩ (.inr nobody)
    · rw [World.going, like.rsvps]
      change middle.going key.eventId ≤ before.going key.eventId
      omega
    · rintro - ⟨other, latest, behind⟩
      exact absurd behind (nobody other latest)
    · rw [row, like.rsvps, wrote.rows, if_neg different]
      rfl
  | first seat latest ofEvent waits earliest granted =>
    have behind := (waits_of_cancel wrote ofEvent).mp waits
    have seats := granted.going
    rw [Waitlist.sits_of_some waits.1, waits.2, ofEvent] at seats
    simp only [reduceCtorEq, if_false, if_true, Nat.add_zero] at seats
    have taken : after.going key.eventId = middle.going key.eventId + 1 := seats
    constructor
    · -- A seat that is granted without one that is given up is one too many.
      intro conserves
      by_contra failing
      obtain ⟨standing, -⟩ := not_or.mp failing
      have kept := conserves.seats
      rw [sits_of_not_attends standing] at given
      omega
    · intro frees
      have attends : Attends before key :=
        frees.resolve_right fun nobody => nobody seat latest behind
      rw [sits_of_attends attends] at given
      refine ⟨by omega, fun _ _ => ⟨seat, latest, behind, ?_, ?_, ?_⟩, fun nobody => ?_⟩
      · intro other waiting waits
        exact earliest other waiting waits.1 ((waits_of_cancel wrote waits.1).mpr waits)
      · rw [row, granted.rows, if_pos rfl]
      · intro other different apart
        rw [row, granted.rows, if_neg apart, wrote.rows, if_neg different]
        rfl
      · exact absurd behind (nobody attends seat latest)

end Cancels

theorem conserves_iff_frees (cancelled : Cancelled before key after) :
    Conserves key before after ↔ Frees before key := by
  cases cancelled with
  | declines createdAt fresh wrote =>
    exact iff_of_true (conserves_of_declines fresh wrote) (.inr (.inl fresh))
  | cancels loaded found middle wrote promoted =>
    rw [conserves_of_cancels wrote promoted, Frees]
    have answered : ¬row before key = none := by simp [row, found]
    simp only [answered, false_or]

theorem Conserves.of_rows {world : World} (same : after.rsvps = world.rsvps) :
    Conserves key before after ↔ Conserves key before world := by
  have seats : after.going key.eventId = world.going key.eventId := by rw [World.going, same, World.going]
  have rows (other : RsvpId) : row after other = row world other := by rw [row, same, row]
  constructor
  · rintro ⟨fewer, promotes, still⟩
    simp only [seats, rows] at fewer promotes still
    exact ⟨fewer, promotes, still⟩
  · rintro ⟨fewer, promotes, still⟩
    simp only [← seats, ← rows] at fewer promotes still
    exact ⟨fewer, promotes, still⟩

end Conserve

theorem Cancelled.quiet {world after : World} {key : RsvpId} (cancelled : Cancelled world key after) :
    after.rsvps.Quiet := by
  cases cancelled with
  | declines createdAt fresh wrote => exact wrote.quiet
  | cancels loaded found middle wrote promoted => exact (promoted.rest wrote.quiet).1

/-- In every state of the RSVPs, a cancel of a member takes no seat, promotes the first of those who
wait if and only if the member held a seat and another one waits, and changes no other row, if and
only if the member holds a seat, has not answered, or no other member waits. -/
theorem cancel_conserves_iff (state : State) (key : RsvpId) (event : Event) (me : SessionId)
    (now : Nat → Nat) (quiet : state.rsvps.rsvps.Quiet) (there : Exists state key event) :
    ∃ after, state.serve (asks me now key .cancel) = some after ∧
      (Conserves key state.world after.world ↔ Frees state.world key) := by
  have known : state.world.capacity key.eventId = some event.capacity.val.toNat := by
    simp only [State.world, State.capacities, there.event, Option.map_some]
  obtain ⟨world, after, cancelled, served, same⟩ := serve_of_leads (asks me now key .cancel) rfl
    (cancel_leads quiet known there.member) fun _ cancelled => cancelled.quiet
  have rows : after.world.rsvps = world.rsvps := same
  exact ⟨after, served, (Conserves.of_rows rows).trans (conserves_iff_frees cancelled)⟩

/-- The lecture with rows that are there already. -/
def lectureWith (rows : List (RsvpId × RSVP)) : State where
  events := Waitlist.lecture
  rsvps := { World.blank (fun _ => none) fun _ => true with rsvps := .seeded rows }

/-- One member goes, and one waits. -/
def oneWaits : List (RsvpId × RSVP) := [(⟨1, 7⟩, ⟨.going, 0⟩), (⟨2, 7⟩, ⟨.waitlist, 1⟩)]

set_option maxRecDepth 20000 in
theorem cancel_conserves_iff_attendee : ∃ after,
    (lectureWith oneWaits).serve (asks 5 (fun _ => 9) ⟨1, 7⟩ .cancel) = some after ∧
      Conserves ⟨1, 7⟩ (lectureWith oneWaits).world after.world := by
  obtain ⟨event, found⟩ : ∃ event, Waitlist.lecture 7 = some event := ⟨_, rfl⟩
  obtain ⟨after, served, exactly⟩ := cancel_conserves_iff (lectureWith oneWaits) ⟨1, 7⟩ event 5
    (fun _ => 9) (Table.seeded_quiet _) ⟨found, rfl⟩
  exact ⟨after, served, exactly.mpr (.inl (by decide))⟩

set_option maxRecDepth 20000 in
/-- A member who has cancelled already cancels again: the one who waits is seated, and the event with
one seat has two that are taken. -/
theorem cancel_again_takes_a_seat :
    ∃ after, (lectureWith ((⟨3, 7⟩, ⟨.cancel, 0⟩) :: oneWaits)).serve
        (asks 5 (fun _ => 9) ⟨3, 7⟩ .cancel) = some after ∧
      ¬Conserves ⟨3, 7⟩ (lectureWith ((⟨3, 7⟩, ⟨.cancel, 0⟩) :: oneWaits)).world after.world := by
  have ran : ((lectureWith ((⟨3, 7⟩, ⟨.cancel, 0⟩) :: oneWaits)).serve
      (asks 5 (fun _ => 9) ⟨3, 7⟩ .cancel)).map (·.going 7) = some 2 := by decide
  obtain ⟨after, served, two⟩ := Option.map_eq_some_iff.mp ran
  refine ⟨after, served, fun conserves => ?_⟩
  have seats : after.going 7 ≤ (lectureWith ((⟨3, 7⟩, ⟨.cancel, 0⟩) :: oneWaits)).going 7 :=
    conserves.seats
  have one : (lectureWith ((⟨3, 7⟩, ⟨.cancel, 0⟩) :: oneWaits)).going 7 = 1 := by decide
  omega

/-! ## A seat that is asked for again -/

/-- What a request for the own seat leaves behind. -/
inductive AskedAgain (world : World) (key : RsvpId) (held : RSVP) (capacity : Nat)
    (after : World) : Prop
  | keeps (within : world.going key.eventId ≤ capacity) (like : Like world after)
  | demotes (beyond : capacity < world.going key.eventId)
      (wrote : Wrote world key { held with status := .waitlist } after)

section Again

variable {me : SessionId} {world : World} {key : RsvpId} {held : RSVP} {capacity : Nat}

/-- An attendee who asks again keeps the row as it is while the seats taken are within the capacity, and
is put on the waitlist beyond it. -/
theorem again_leads (quiet : world.rsvps.Quiet) (known : world.capacity key.eventId = some capacity)
    (member : world.members key.memberId = true) (found : row world key = some held)
    (going : held.status = .going) :
    Leads me world (upsertRsvpStatus key.memberId key.eventId .going)
      (fun _ => AskedAgain world key held capacity) (AskedAgain world key held capacity) := by
  refine Leads.bind (Waitlist.getEvent_leads _ fun none_ => by simp [known] at none_) ?_
  rintro _ _ ⟨rfl, same⟩
  obtain rfl := Option.some.inj (known.symm.trans same)
  refine Leads.bind (Waitlist.getMember_leads _ fun none_ => by simp [member] at none_) ?_
  rintro _ world rfl
  refine leads_read (world.rsvps.row me key) (fun _ => rfl) ?_
  rw [quiet.row_eq]
  have stored : world.rsvps.committed key = some held := found
  rw [stored]
  refine Leads.bind (Waitlist.normalizeRsvpStatusForCapacity_leads quiet key.eventId capacity .going
    (some held.status)) ?_
  rintro newStatus middle ⟨like, given⟩
  have still : middle.rsvps.Quiet := by
    rw [like.rsvps]
    exact quiet
  have there : middle.rsvps.committed key = some held := by
    rw [like.rsvps]
    exact stored
  simp only [going, if_true] at given
  refine Leads.bind (Waitlist.flushStatus_leads still there newStatus) ?_
  rcases given with ⟨other, -⟩ | ⟨-, rfl, taken⟩ | ⟨-, rfl, free⟩
  · exact absurd rfl other
  · rintro _ flushed (⟨same, -⟩ | ⟨-, table, rfl, pending⟩)
    · rw [going] at same
      cases same
    · refine leads_commit pending fun after wrote => leads_read () (fun _ => rfl) ?_
      exact .demotes taken (wrote.of_like like)
  · rintro _ flushed (⟨-, rfl⟩ | ⟨changed, -⟩)
    · refine leads_ask fun _ => ⟨(), flushed.commit me, rfl, leads_read () (fun _ => rfl) ?_⟩
      exact .keeps (by omega) ⟨still.commit_eq.trans like.rsvps, like.capacity⟩
    · exact absurd going.symm changed

end Again

/-- An attendee is one of those who go. -/
theorem going_pos {world : World} {key : RsvpId} (attends : Attends world key) :
    0 < world.going key.eventId := by
  obtain ⟨held, found, going⟩ := Option.map_eq_some_iff.mp attends
  have stored : world.rsvps.committed key = some held := found
  have accepted : Table.accepts (isGoing key.eventId) key (world.rsvps.committed key) = true := by
    simp [Table.accepts, stored, isGoing, going]
  rw [World.going, Table.countCommitted, List.countP_pos_iff]
  exact ⟨key, Table.mem_keys_of_accepts accepted, accepted⟩

/-- The member has the seat afterwards, and no other row is changed. -/
structure SeatKept (key : RsvpId) (before after : World) : Prop where
  own : Attends after key
  others : ∀ other, other ≠ key → row after other = row before other

theorem seatKept_iff_within {before after : World} {key : RsvpId} {held : RSVP} {capacity : Nat}
    (attends : Attends before key) (asked : AskedAgain before key held capacity after) :
    SeatKept key before after ↔ before.going key.eventId ≤ capacity := by
  cases asked with
  | keeps within like =>
    have same (other : RsvpId) : row after other = row before other := by
      rw [row, like.rsvps]
      rfl
    refine iff_of_true ⟨?_, fun other _ => same other⟩ within
    rw [Attends, same]
    exact attends
  | demotes beyond wrote =>
    refine iff_of_false (fun kept => ?_) (by omega)
    have own := kept.own
    rw [Attends, row, wrote.rows, if_pos rfl] at own
    cases own

/-! ## Runs -/

/-- A session drafts rows of its own only. -/
theorem exec_only {me : SessionId} {stmt : Stmt} {choice : Choice} {world after : World}
    {reply : Except Failure (Reply stmt)} (alone : world.rsvps.Only me)
    (done : machine.exec me stmt choice world = some (reply, after)) : after.rsvps.Only me := by
  rcases answering.exec_cases done with ⟨reason, -, -, rfl⟩ | ⟨-, answered⟩
  · exact alone
  · cases stmt with
    | getEvent _ | getMember _ | getRsvp _ | selectWaitlist _ | refreshRsvp _ =>
      cases answered
      exact alone
    | countGoing eventId =>
      cases answered
      split
      · exact alone
      · exact alone
    | insertRsvp key status =>
      obtain ⟨⟨hit, rsvps⟩, inserted, stored⟩ := Option.map_eq_some_iff.mp answered
      rcases Table.insertRow_cases inserted with ⟨rfl, rfl⟩ | ⟨rfl, -, -, rfl⟩
      · cases stored
        exact alone
      · cases stored
        exact alone.write _ _
    | updateRsvp key status =>
      obtain ⟨⟨hit, rsvps⟩, updated, stored⟩ := Option.map_eq_some_iff.mp answered
      have drafted := (Table.updateRow_drafts updated).only alone
      cases hit with
      | true =>
        cases stored
        exact drafted
      | false =>
        cases stored
        exact alone
    | lockWaitlisted key =>
      simp only [answering, Source.Rsvps.answer] at answered
      split at answered
      · next version rsvps locked =>
        cases answered
        rcases Table.lockRow_cases locked with ⟨absurd_, -⟩ | ⟨version', -, -, -, -, rfl⟩
        · cases absurd_
        · exact alone.write _ _
      · cases answered
        exact alone
    | commit =>
      cases answered
      exact alone.commit_quiet.only

/-- Between two requests no row is drafted. -/
theorem run_quiet {turns : List Turn} {state after : State} (quiet : state.rsvps.rsvps.Quiet)
    (reached : State.run turns state = some after) : after.rsvps.rsvps.Quiet := by
  induction turns generalizing state with
  | nil =>
    cases reached
    exact quiet
  | cons turn rest ih =>
    obtain ⟨middle, served, onward⟩ := Option.bind_eq_some_iff.mp reached
    refine ih ?_ onward
    simp only [State.serve] at served
    split at served
    · next request named =>
      obtain ⟨⟨out, world⟩, done, rfl⟩ := Option.map_eq_some_iff.mp served
      have still : state.world.rsvps.Quiet := quiet
      have alone : world.rsvps.Only turn.me :=
        Machine.eval_keeps (fun _ _ _ _ _ alone done => exec_only alone done) still.only done
      exact alone.abort_quiet
    · cases served
      exact quiet

/-- In every state that a run of the RSVP requests and the updates of events reaches, an attendee who
asks for the seat again has it afterwards, and no other row is changed, if and only if no more
members are going than the event has seats. -/
theorem attendee_keeps_seat_iff (events : Int → Option Event) (members : Nat → Bool)
    (turns : List Turn) (state : State) (key : RsvpId) (event : Event) (me : SessionId)
    (now : Nat → Nat) (reached : State.run turns (.blank events members) = some state)
    (there : Exists state key event) (attends : Attends state.world key) :
    ∃ after, state.serve (asks me now key .going) = some after ∧
      (SeatKept key state.world after.world ↔ state.going key.eventId ≤ event.capacity.val) := by
  have quiet : state.rsvps.rsvps.Quiet := run_quiet (fun _ => rfl) reached
  have known : state.world.capacity key.eventId = some event.capacity.val.toNat := by
    simp only [State.world, State.capacities, there.event, Option.map_some]
  obtain ⟨held, found, going⟩ := Option.map_eq_some_iff.mp attends
  obtain ⟨world, after, asked, served, same⟩ := serve_of_leads (asks me now key .going) rfl
    (again_leads quiet known there.member found going) fun world asked => by
      cases asked with
      | keeps within like =>
        rw [like.rsvps]
        exact quiet
      | demotes beyond wrote => exact wrote.quiet
  have rows (other : RsvpId) : row after.world other = row world other := by
    change after.rsvps.rsvps.committed other = _
    rw [same]
    rfl
  have moved : SeatKept key state.world after.world ↔ SeatKept key state.world world := by
    constructor
    · rintro ⟨own, others⟩
      simp only [Attends, rows] at own others
      exact ⟨own, others⟩
    · rintro ⟨own, others⟩
      simp only [Attends, ← rows] at own others
      exact ⟨own, others⟩
  have seated : 0 < state.world.going key.eventId := going_pos attends
  refine ⟨after, served, moved.trans ((seatKept_iff_within attends asked).trans ?_)⟩
  change state.world.going key.eventId ≤ _ ↔ (state.world.going key.eventId : Int) ≤ _
  omega

open Waitlist (inTurn goes lecture)

/-- Two members take both seats. -/
def twoGo : List Source.EventSeats.Request :=
  [.updateEvent 7 { capacity := some (some 2) }, goes 1, goes 2]

/-- The capacity is lowered below the number of attendees. -/
def lowered : List Source.EventSeats.Request :=
  twoGo ++ [.updateEvent 7 { capacity := some (some 1) }]

set_option maxRecDepth 20000 in
theorem attendee_keeps_seat_iff_full : ∃ state after,
    State.run (inTurn twoGo) (.blank lecture fun _ => true) = some state ∧
      state.serve (asks 5 (fun _ => 9) ⟨1, 7⟩ .going) = some after ∧
      SeatKept ⟨1, 7⟩ state.world after.world := by
  have ran : (State.run (inTurn twoGo) (.blank lecture fun _ => true)).map (fun state =>
      (((row state.world ⟨1, 7⟩).map (·.status), state.rsvps.members 1),
        (state.going 7, (state.events 7).map (·.capacity.val)))) =
      some ((some .going, true), (2, some 2)) := by decide
  obtain ⟨state, reached, seen⟩ := Option.map_eq_some_iff.mp ran
  simp only [Prod.mk.injEq, Option.map_eq_some_iff] at seen
  obtain ⟨⟨attends, member⟩, two, event, found, seats⟩ := seen
  obtain ⟨after, served, exactly⟩ := attendee_keeps_seat_iff lecture (fun _ => true) (inTurn twoGo)
    state ⟨1, 7⟩ event 5 (fun _ => 9) reached ⟨found, member⟩ (Option.map_eq_some_iff.mpr attends)
  refine ⟨state, after, reached, served, exactly.mpr ?_⟩
  rw [two, seats]
  decide

set_option maxRecDepth 20000 in
/-- Two members attend, the capacity is lowered to one, and the first who asks for the seat again is
put on the waitlist. -/
theorem attendee_loses_seat : ∃ state after,
    State.run (inTurn lowered) (.blank lecture fun _ => true) = some state ∧
      Attends state.world ⟨1, 7⟩ ∧
      state.serve (asks 5 (fun _ => 9) ⟨1, 7⟩ .going) = some after ∧
      ¬SeatKept ⟨1, 7⟩ state.world after.world := by
  have ran : (State.run (inTurn lowered) (.blank lecture fun _ => true)).bind (fun state =>
      (state.serve (asks 5 (fun _ => 9) ⟨1, 7⟩ .going)).map fun after =>
        ((row state.world ⟨1, 7⟩).map (·.status), (row after.world ⟨1, 7⟩).map (·.status))) =
      some (some .going, some .waitlist) := by decide
  obtain ⟨state, reached, rest⟩ := Option.bind_eq_some_iff.mp ran
  obtain ⟨after, served, seen⟩ := Option.map_eq_some_iff.mp rest
  simp only [Prod.mk.injEq] at seen
  refine ⟨state, after, reached, seen.1, served, fun kept => ?_⟩
  have own : (row after.world ⟨1, 7⟩).map (·.status) = some .going := kept.own
  rw [seen.2] at own
  cases own

end SogeconApp.Guarantees.SeatHolding
