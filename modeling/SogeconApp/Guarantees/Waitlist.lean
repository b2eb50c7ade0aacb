import SogeconApp.Guarantees.PartialUpdates
import SogeconApp.Source.EventSeats

/-!
# The waitlist of an event

A seat that a cancel frees goes to the first of the waitlist, and a request for a seat that finds
the event full is put on the waitlist. Two operations do neither: the update of an event may raise
its capacity, and a request for the waitlist is granted as it is, also to a member who gives up a
seat for it. Apart from these no seat stays empty while somebody waits, and nobody is granted a
seat before a member who is waiting already.
-/

namespace SogeconApp.Guarantees.Waitlist

open Library Program Source.Rsvps

/-! ## One request alone -/

/-- Another world with the same rows. -/
structure Like (world after : World) : Prop where
  rsvps : after.rsvps = world.rsvps
  capacity : after.capacity = world.capacity

theorem Like.refl (world : World) : Like world world := ⟨rfl, rfl⟩

theorem Like.trans {first second third : World} (left : Like first second)
    (right : Like second third) : Like first third :=
  ⟨right.rsvps.trans left.rsvps, right.capacity.trans left.capacity⟩

/-- A row is committed under a key, whatever was there before. -/
structure Wrote (world : World) (key : RsvpId) (row : RSVP) (after : World) : Prop where
  quiet : after.rsvps.Quiet
  capacity : after.capacity = world.capacity
  rows : ∀ other, after.rsvps.committed other =
    if other = key then some row else world.rsvps.committed other
  counts : ∀ cond, after.rsvps.countCommitted cond +
      (Table.accepts cond key (world.rsvps.committed key)).toNat =
    world.rsvps.countCommitted cond + (Table.accepts cond key (some row)).toNat

theorem Wrote.of_like {world middle after : World} {key : RsvpId} {row : RSVP}
    (like : Like world middle) (wrote : Wrote middle key row after) :
    Wrote world key row after where
  quiet := wrote.quiet
  capacity := wrote.capacity.trans like.capacity
  rows other := by
    rw [wrote.rows, like.rsvps]
  counts cond := by
    have counts := wrote.counts cond
    rw [like.rsvps] at counts
    exact counts

theorem Wrote.like {world middle after : World} {key : RsvpId} {row : RSVP}
    (wrote : Wrote world key row middle) (like : Like middle after) :
    Wrote world key row after where
  quiet := by
    rw [like.rsvps]
    exact wrote.quiet
  capacity := like.capacity.trans wrote.capacity
  rows := by
    rw [like.rsvps]
    exact wrote.rows
  counts := by
    rw [like.rsvps]
    exact wrote.counts

/-- The session has drafted a row, and nothing else. -/
structure Pending (me : SessionId) (before : Table RsvpId RSVP) (key : RsvpId) (row : RSVP)
    (table : Table RsvpId RSVP) : Prop where
  only : table.Only me
  single : ∀ other version, (table.slot other).draft = some (me, version) → other = key
  row : table.row me key = some row
  committed : ∀ other, table.committed other = before.committed other
  counts : ∀ cond, table.countCommitted cond = before.countCommitted cond

section Pending

variable {me : SessionId} {before table : Table RsvpId RSVP} {key : RsvpId} {row latest : RSVP}

theorem pending_write (quiet : before.Quiet) :
    Pending me before key row (before.write me key (some row)) where
  only := quiet.only.write key (some row)
  single other version drafted := by
    by_contra different
    rw [Table.write_slot_of_ne different, quiet other] at drafted
    cases drafted
  row := by simp [Table.row_write]
  committed other := by simp
  counts cond := Table.countCommitted_write ..

theorem Pending.write (pending : Pending me before key row table) :
    Pending me before key latest (table.write me key (some latest)) where
  only := pending.only.write key (some latest)
  single other version drafted := by
    by_contra different
    rw [Table.write_slot_of_ne different] at drafted
    exact different (pending.single other version drafted)
  row := by simp [Table.row_write]
  committed other := by simp [pending.committed]
  counts cond := by rw [Table.countCommitted_write, pending.counts]

theorem Pending.commit {world : World} (pending : Pending me world.rsvps key row table) :
    Wrote world key row (World.commit me { world with rsvps := table }) where
  quiet := pending.only.commit_quiet
  capacity := rfl
  rows other := by
    change (table.commit me).committed other = _
    rw [pending.only.committed_commit]
    split
    · next same =>
      rw [same]
      exact pending.row
    · next different =>
      rcases Table.row_cases me table other with same | drafted
      · rw [← same, pending.committed]
      · exact absurd (pending.single other _ drafted) different
  counts cond := by
    have counted := Table.countCommitted_commit cond key pending.single
    have published : (table.commit me).committed key = some row := by
      rw [pending.only.committed_commit]
      exact pending.row
    rw [published, pending.committed, pending.counts] at counted
    exact counted

end Pending

/-! ## What a request does to the rows -/

/-- A seat is taken under a key. -/
def sits (world : World) (key : RsvpId) : Nat :=
  (World.seated key (world.rsvps.committed key)).toNat

/-- The seats of the event are taken, besides the one under the key. -/
def Full (world : World) (key : RsvpId) : Prop :=
  ∀ capacity, world.capacity key.eventId = some capacity →
    capacity + sits world key ≤ world.going key.eventId

def Waits (world : World) (key : RsvpId) (row : RSVP) : Prop :=
  world.rsvps.committed key = some row ∧ row.status = .waitlist

/-- The first of the waitlist gets a seat, if there is one who waits. -/
inductive Promoted (world : World) (eventId : Nat) : World → Prop
  | nobody {after : World} (alone : ∀ key row, key.eventId = eventId → ¬Waits world key row)
      (like : Like world after) : Promoted world eventId after
  | first {after : World} (key : RsvpId) (row : RSVP) (ofEvent : key.eventId = eventId)
      (waits : Waits world key row)
      (earliest : ∀ other latest, other.eventId = eventId → Waits world other latest →
        row.createdAt ≤ latest.createdAt)
      (wrote : Wrote world key { row with status := .going } after) : Promoted world eventId after

/-- What a request that runs alone does. -/
inductive Served (world : World) : World → Prop
  | nothing {after : World} (like : Like world after) : Served world after
  | books {after : World} (key : RsvpId) (row : RSVP) (going : row.status = .going) (capacity : Nat)
      (known : world.capacity key.eventId = some capacity)
      (free : world.going key.eventId < capacity)
      (wrote : Wrote world key row after) : Served world after
  | waits {after : World} (key : RsvpId) (row : RSVP) (waitlist : row.status = .waitlist)
      (full : Full world key) (wrote : Wrote world key row after) : Served world after
  | declines {after : World} (key : RsvpId) (row : RSVP) (cancel : row.status = .cancel)
      (fresh : world.rsvps.committed key = none) (wrote : Wrote world key row after) :
      Served world after
  | cancels {middle after : World} (key : RsvpId) (row : RSVP) (cancel : row.status = .cancel)
      (wrote : Wrote world key row middle) (promoted : Promoted middle key.eventId after) :
      Served world after
  | cancelsAgain {after : World} (eventId : Nat) (promoted : Promoted world eventId after) :
      Served world after

/-! ## The requests -/

/-- No statement fails. -/
def Works (choice : Choice) : Prop := choice.fails = none

/-- Alone in the database the program ends, with `M` if it returns and with `R` if it raises. -/
abbrev Leads {α : Type} (me : SessionId) (world : World) (program : Handler α)
    (M : α → World → Prop) (R : World → Prop) : Prop :=
  program.Ensures (machine.alone me Works) M (fun _ => R) world

section Leads

variable {α β : Type} {me : SessionId} {world : World} {M : α → World → Prop} {Q : β → World → Prop}
    {R : World → Prop}

/-- What a program leads to, the next one starts from; what it raises is raised. -/
theorem Leads.bind {program : Handler α} {next : α → Handler β} (first : Leads me world program M R)
    (then_ : ∀ value after, M value after → Leads me after (next value) Q R) :
    Leads me world (program >>= next) Q R := by
  unfold Leads
  rw [bind_eq, ensures_bind]
  exact first.weaken then_ fun _ _ raised => raised

theorem exec_works {stmt : Stmt} {choice : Choice} (works : Works choice) :
    machine.exec me stmt choice world = Source.Rsvps.answer me stmt choice world := by
  unfold Works at works
  simp only [machine, Source.Rsvps.exec, works]

/-- A statement that is answered. -/
theorem leads_issue {stmt : Stmt} {M : Reply stmt → World → Prop}
    (answered : ∀ choice, ∃ value after,
      Source.Rsvps.answer me stmt choice world = some (.ok value, after) ∧ M value after) :
    Leads me world (ask stmt) M R := by
  refine (ensures_issue world).mpr
    ⟨fun choice works => ?_, fun value after moved => ?_, fun reason after moved => ?_⟩
  · obtain ⟨value, after, done, -⟩ := answered choice
    rw [exec_works works, done]
    rfl
  · obtain ⟨choice, works, done⟩ := moved
    obtain ⟨answer, next, known, reached⟩ := answered choice
    rw [exec_works works, known] at done
    cases done
    exact reached
  · obtain ⟨choice, works, done⟩ := moved
    obtain ⟨answer, next, known, -⟩ := answered choice
    rw [exec_works works, known] at done
    cases done

/-- A statement that is answered, and then the rest. -/
theorem leads_ask {stmt : Stmt} {next : Reply stmt → Handler β}
    (answered : ∀ choice, ∃ value after,
      Source.Rsvps.answer me stmt choice world = some (.ok value, after) ∧
        Leads me after (next value) Q R) :
    Leads me world (ask stmt >>= next) Q R :=
  (leads_issue answered).bind fun _ _ rest => rest

/-- A statement that only reads. -/
theorem leads_read {stmt : Stmt} {next : Reply stmt → Handler β} (value : Reply stmt)
    (reads : ∀ choice, Source.Rsvps.answer me stmt choice world = some (.ok value, world))
    (then_ : Leads me world (next value) Q R) : Leads me world (ask stmt >>= next) Q R :=
  leads_ask fun choice => ⟨value, world, reads choice, then_⟩

/-- The last statement of a request. -/
theorem leads_refresh (key : RsvpId) (done : R world) :
    Leads me world (ask (.refreshRsvp key)) (fun _ => R) R :=
  leads_issue fun _ => ⟨(), world, rfl, done⟩

theorem getEvent_leads (eventId : Nat) (raised : world.capacity eventId = none → R world) :
    Leads me world (getEvent eventId)
      (fun capacity after => after = world ∧ world.capacity eventId = some capacity) R := by
  refine leads_read (world.capacity eventId) (fun _ => rfl) ?_
  cases known : world.capacity eventId with
  | none => exact raised known
  | some capacity => exact ⟨rfl, rfl⟩

theorem getMember_leads (memberId : Nat) (raised : world.members memberId = false → R world) :
    Leads me world (getMember memberId) (fun _ after => after = world) R := by
  refine leads_read (world.members memberId) (fun _ => rfl) ?_
  cases known : world.members memberId with
  | false => exact raised known
  | true => exact rfl

/-- A row that the session has drafted is committed. -/
theorem leads_commit {key : RsvpId} {row : RSVP} {table : Table RsvpId RSVP}
    {next : Unit → Handler β} (pending : Pending me world.rsvps key row table)
    (then_ : ∀ after, Wrote world key row after → Leads me after (next ()) Q R) :
    Leads me { world with rsvps := table } (ask .commit >>= next) Q R :=
  leads_ask fun _ => ⟨(), _, rfl, then_ _ pending.commit⟩

/-- A creation writes the row if it is the first one, and raises otherwise. -/
theorem repoCreateRsvp_leads {key : RsvpId} {status : RSVPStatus} (quiet : world.rsvps.Quiet)
    (raised : world.rsvps.committed key ≠ none → R world)
    (wrote : world.rsvps.committed key = none → ∀ createdAt after,
      Wrote world key { status, createdAt } after → R after) :
    Leads me world (repoCreateRsvp key status) (fun _ => R) R := by
  refine leads_read (world.rsvps.row me key) (fun _ => rfl) ?_
  rw [quiet.row_eq]
  cases found : world.rsvps.committed key with
  | some row => exact raised (by simp [found])
  | none =>
    have fresh : world.rsvps.committed key = none := found
    refine leads_ask fun choice =>
      ⟨(), { world with rsvps := world.rsvps.write me key (some ⟨status, choice.startedAt⟩) },
      ?_, ?_⟩
    · simp only [Source.Rsvps.answer, quiet.only.insertRow, quiet.row_eq, found, Option.map_some,
        if_true]
    · refine leads_commit (pending_write quiet) fun after committed => ?_
      exact leads_refresh key (wrote fresh _ after committed)

/-- The status that a request is given: the one it asks for, or the waitlist if the seats
besides its own are taken. -/
def Given (world : World) (eventId capacity : Nat) (requested : RSVPStatus) (own : Nat)
    (status : RSVPStatus) : Prop :=
  (requested ≠ .going ∧ status = requested) ∨
  (requested = .going ∧ status = .waitlist ∧ capacity + own ≤ world.going eventId) ∨
  (requested = .going ∧ status = .going ∧ world.going eventId < capacity + own)

/-- The status that is stored is the one that was asked for, or waitlist where the others take all the
seats. -/
theorem normalizeRsvpStatusForCapacity_leads (quiet : world.rsvps.Quiet) (eventId capacity : Nat)
    (requested : RSVPStatus) (existing : Option RSVPStatus) :
    Leads me world (normalizeRsvpStatusForCapacity eventId capacity requested existing)
      (fun status after => Like world after ∧
        Given world eventId capacity requested (if existing = some .going then 1 else 0) status)
      R := by
  unfold normalizeRsvpStatusForCapacity
  split
  · next other => exact ⟨.refl world, .inl ⟨other, rfl⟩⟩
  · next going =>
    have going := not_not.mp going
    have counted : (world.rsvps.select me (isGoing eventId)).length = world.going eventId := by
      refine Table.length_select (fun key version drafted => ?_) _
      rw [quiet key] at drafted
      cases drafted
    refine leads_ask fun _ => ⟨_, _, rfl, ?_⟩
    rw [counted]
    have like : Like world
        (if (world.capacity eventId).any fun capacity => world.going eventId < capacity then
          { world with
            sawSeat := Function.update world.sawSeat me (some (eventId, world.granted eventId)) }
        else world) := by
      split <;> exact ⟨rfl, rfl⟩
    extract_lets effective
    by_cases full : effective ≥ capacity
    · rw [if_pos full]
      refine ⟨like, .inr (.inl ⟨going, rfl, ?_⟩)⟩
      simp only [effective] at full
      split at full
      · next mine => rw [if_pos mine]; omega
      · next none_ => rw [if_neg none_]; omega
    · rw [if_neg full]
      refine ⟨like, .inr (.inr ⟨going, rfl, ?_⟩)⟩
      simp only [effective] at full
      split at full
      · next mine => rw [if_pos mine]; omega
      · next none_ => rw [if_neg none_]; omega

/-- In a quiet world the first candidate can be locked. -/
theorem lockFirst_leads (quiet : world.rsvps.Quiet) (candidates : List RsvpId)
    (listed : ∀ key ∈ candidates, ∃ row, Waits world key row) :
    Leads me world (lockFirst candidates) (fun locked after => locked = candidates.head? ∧
      match candidates.head? with
      | none => after = world
      | some key => ∃ row table, Waits world key row ∧ after = { world with rsvps := table } ∧
          Pending me world.rsvps key row table) R := by
  cases candidates with
  | nil => exact ⟨rfl, rfl⟩
  | cons key rest =>
    obtain ⟨row, waits⟩ := listed key List.mem_cons_self
    have seen : world.rsvps.row me key = some row := by rw [quiet.row_eq, waits.1]
    refine leads_ask fun _ =>
      ⟨true, { world with rsvps := world.rsvps.write me key (some row) }, ?_, ?_⟩
    · simp [Source.Rsvps.answer, quiet.only.lockRow, seen, isWaitlisted, waits.2]
    · exact ⟨rfl, row, _, waits, rfl, pending_write quiet⟩

/-- A promotion gives a seat to the first who waits, if somebody does. -/
theorem promoteWaitlistCandidate_leads (quiet : world.rsvps.Quiet) (eventId : Nat)
    (promoted : ∀ after, Promoted world eventId after → R after) :
    Leads me world (promoteWaitlistCandidate eventId) (fun _ => R) R := by
  refine leads_read _ (fun _ => rfl) ?_
  have seen (key : RsvpId) : world.rsvps.row me key = world.rsvps.committed key :=
    quiet.row_eq me key
  have selected (key : RsvpId) : key ∈ world.rsvps.select me (isWaitlisted eventId) ↔
      key.eventId = eventId ∧ ∃ row, Waits world key row := by
    rw [Table.mem_select]
    simp only [seen, isWaitlisted, decide_eq_true_eq, Waits]
    constructor
    · rintro ⟨row, found, ofEvent, waitlist⟩
      exact ⟨ofEvent, row, found, waitlist⟩
    · rintro ⟨ofEvent, row, found, waitlist⟩
      exact ⟨row, found, ofEvent, waitlist⟩
  refine Leads.bind (lockFirst_leads quiet _ fun key listed => ?_) ?_
  · rw [List.mem_insertionSort] at listed
    exact ((selected key).mp listed).2
  · rintro locked after ⟨rfl, locks⟩
    split at locks
    · next none_ =>
      subst locks
      rw [none_]
      refine promoted after (.nobody (fun key row ofEvent waits => ?_) (.refl after))
      have listed := (selected key).mpr ⟨ofEvent, row, waits⟩
      have nowhere : key ∈ ([] : List RsvpId) := by
        rw [← List.head?_eq_none_iff.mp none_]
        exact (List.mem_insertionSort _).mpr listed
      cases nowhere
    · next key first =>
      obtain ⟨row, table, waits, rfl, pending⟩ := locks
      rw [first]
      obtain ⟨rest, sorted⟩ := List.head?_eq_some_iff.mp first
      obtain ⟨member, least⟩ := insertionSort_head sorted
      obtain ⟨ofEvent, -⟩ := (selected key).mp member
      have earliest : ∀ other latest, other.eventId = eventId → Waits world other latest →
          row.createdAt ≤ latest.createdAt := by
        intro other latest same waiting
        have below := least other ((selected other).mpr ⟨same, latest, waiting⟩)
        simp only [seen, waits.1, waiting.1, Option.elim_some] at below
        exact below
      have updated : ∀ choice,
          Source.Rsvps.answer me (.updateRsvp key .going) choice { world with rsvps := table } =
            some (.ok (),
              { world with rsvps := table.write me key (some { row with status := .going }) }) := by
        intro choice
        simp [Source.Rsvps.answer, updateStatus, pending.only.updateRow, pending.row]
      refine leads_ask fun choice => ⟨(), _, updated choice, ?_⟩
      refine leads_commit pending.write fun after wrote => ?_
      exact leads_refresh key (promoted after (.first key row ofEvent waits earliest wrote))

/-- The flush of a loaded row: its new status is drafted, if it is a new one. -/
theorem flushStatus_leads {key : RsvpId} {row : RSVP} (quiet : world.rsvps.Quiet)
    (found : world.rsvps.committed key = some row) (latest : RSVPStatus) :
    Leads me world (flushStatus key row.status latest) (fun _ after =>
      (latest = row.status ∧ after = world) ∨
      (latest ≠ row.status ∧ ∃ table, after = { world with rsvps := table } ∧
        Pending me world.rsvps key { row with status := latest } table)) R := by
  unfold flushStatus
  split
  · next changed =>
    have seen : world.rsvps.row me key = some row := by rw [quiet.row_eq, found]
    refine leads_issue fun _ =>
      ⟨(), { world with rsvps := world.rsvps.write me key (some { row with status := latest }) },
      ?_, ?_⟩
    · simp [Source.Rsvps.answer, updateStatus, quiet.only.updateRow, seen]
    · exact .inr ⟨changed, _, rfl, pending_write quiet⟩
  · next same => exact .inl ⟨not_not.mp same, rfl⟩

end Leads

/-! ## What the requests do -/

theorem sits_of_none {world : World} {key : RsvpId} (fresh : world.rsvps.committed key = none) :
    sits world key = 0 := by
  rw [sits, fresh]
  rfl

/-- A stored answer takes a seat if it is going. -/
theorem sits_of_some {world : World} {key : RsvpId} {row : RSVP}
    (found : world.rsvps.committed key = some row) :
    sits world key = if row.status = .going then 1 else 0 := by
  rw [sits, found]
  by_cases going : row.status = .going
  · simp [World.seated, Table.accepts, isGoing, going]
  · simp [World.seated, Table.accepts, isGoing, going]

theorem Promoted.of_like {world middle after : World} {eventId : Nat} (like : Like world middle)
    (promoted : Promoted middle eventId after) : Promoted world eventId after := by
  have same (key : RsvpId) (row : RSVP) : Waits middle key row ↔ Waits world key row := by
    rw [Waits, Waits, like.rsvps]
  cases promoted with
  | nobody alone unchanged =>
    refine .nobody (fun key row ofEvent waits => ?_) (like.trans unchanged)
    exact alone key row ofEvent ((same key row).mpr waits)
  | first key row ofEvent waits earliest wrote =>
    refine .first key row ofEvent ((same key row).mp waits) (fun other latest mine waiting => ?_)
      (wrote.of_like like)
    exact earliest other latest mine ((same other latest).mpr waiting)

/-- The seats besides the requester's own are taken, or the waitlist is not asked for. -/
def Asks (world : World) (key : RsvpId) (status : RSVPStatus) : Prop :=
  status = .waitlist → Full world key

/-- A row is given the status of a request that is not a cancel. -/
theorem served_of_given {world middle after : World} {key : RsvpId} {capacity : Nat}
    {requested : RSVPStatus} {row : RSVP}
    (known : world.capacity key.eventId = some capacity) (asks : Asks world key requested)
    (given : Given world key.eventId capacity requested (sits world key) row.status)
    (stays : row.status ≠ .cancel)
    (moved : row.status = .going → sits world key = 0) (like : Like world middle)
    (wrote : Wrote middle key row after) : Served world after := by
  have wrote := wrote.of_like like
  have full (seats : capacity + sits world key ≤ world.going key.eventId) : Full world key := by
    intro other same
    rw [known, Option.some.injEq] at same
    rw [← same]
    exact seats
  rcases given with ⟨other, same⟩ | ⟨going, waitlist, seats⟩ | ⟨going, seat, free⟩
  · cases status : row.status with
    | going => exact absurd (same.symm.trans status) other
    | cancel => exact absurd status stays
    | waitlist => exact .waits key row status (asks (same.symm.trans status)) wrote
  · exact .waits key row waitlist (full seats) wrote
  · rw [moved seat, Nat.add_zero] at free
    exact .books key row seat capacity known free wrote

section Requests

variable {me : SessionId} {world : World}

/-- A new row. -/
theorem created {middle : World} {key : RsvpId} {capacity : Nat} {requested status : RSVPStatus}
    (quiet : world.rsvps.Quiet) (known : world.capacity key.eventId = some capacity)
    (asks : world.rsvps.committed key = none → Asks world key requested)
    (like : Like world middle)
    (given : Given world key.eventId capacity requested 0 status) :
    Leads me middle (repoCreateRsvp key status) (fun _ => Served world) (Served world) := by
  have still : middle.rsvps.Quiet := by
    rw [like.rsvps]
    exact quiet
  refine repoCreateRsvp_leads still (fun _ => .nothing like) fun fresh createdAt after wrote => ?_
  rw [like.rsvps] at fresh
  have own := sits_of_none fresh
  by_cases declines : status = .cancel
  · exact .declines key _ declines fresh (wrote.of_like like)
  · refine served_of_given known (asks fresh) ?_ declines (fun _ => own) like wrote
    rw [own]
    exact given

/-- A creation by a session alone is served as asked. -/
theorem createRsvp_leads (quiet : world.rsvps.Quiet) (memberId eventId : Nat) (status : RSVPStatus)
    (asks : world.rsvps.committed ⟨memberId, eventId⟩ = none →
      Asks world ⟨memberId, eventId⟩ status) :
    Leads me world (createRsvp memberId eventId status) (fun _ => Served world) (Served world) := by
  refine Leads.bind (getEvent_leads eventId fun _ => .nothing (.refl world)) ?_
  rintro capacity _ ⟨rfl, known⟩
  refine Leads.bind (getMember_leads memberId fun _ => .nothing (.refl _)) ?_
  rintro _ _ rfl
  refine Leads.bind (normalizeRsvpStatusForCapacity_leads quiet eventId capacity status none) ?_
  rintro finalStatus middle ⟨like, given⟩
  exact created quiet known asks like given

theorem upsertRsvpStatus_leads (quiet : world.rsvps.Quiet) (memberId eventId : Nat)
    (status : RSVPStatus) (asks : Asks world ⟨memberId, eventId⟩ status) :
    Leads me world (upsertRsvpStatus memberId eventId status) (fun _ => Served world)
      (Served world) := by
  refine Leads.bind (getEvent_leads eventId fun _ => .nothing (.refl world)) ?_
  rintro capacity _ ⟨rfl, known⟩
  refine Leads.bind (getMember_leads memberId fun _ => .nothing (.refl _)) ?_
  rintro _ world rfl
  refine leads_read (world.rsvps.row me ⟨memberId, eventId⟩) (fun _ => rfl) ?_
  rw [quiet.row_eq]
  cases found : world.rsvps.committed ⟨memberId, eventId⟩ with
  | none =>
    refine Leads.bind (normalizeRsvpStatusForCapacity_leads quiet eventId capacity status none) ?_
    rintro finalStatus middle ⟨like, given⟩
    exact created quiet known (fun _ => asks) like given
  | some loaded =>
    refine Leads.bind
      (normalizeRsvpStatusForCapacity_leads quiet eventId capacity status (some loaded.status)) ?_
    rintro newStatus middle ⟨like, given⟩
    have still : middle.rsvps.Quiet := by
      rw [like.rsvps]
      exact quiet
    have there : middle.rsvps.committed ⟨memberId, eventId⟩ = some loaded := by
      rw [like.rsvps]
      exact found
    have own : sits world ⟨memberId, eventId⟩ =
        if some loaded.status = some RSVPStatus.going then 1 else 0 := by
      rw [sits_of_some found]
      simp
    rw [← own] at given
    refine Leads.bind (flushStatus_leads still there newStatus) ?_
    rintro _ flushed (⟨same, rfl⟩ | ⟨changed, table, rfl, pending⟩)
    · -- Nothing has been drafted, and the commit leaves the rows as they are.
      refine leads_ask fun _ => ⟨(), flushed.commit me, rfl, ?_⟩
      have committed : Like world (flushed.commit me) :=
        ⟨still.commit_eq.trans like.rsvps, like.capacity⟩
      refine leads_read () (fun _ => rfl) ?_
      split
      · refine promoteWaitlistCandidate_leads (by rw [committed.rsvps]; exact quiet) eventId
          fun after promoted => ?_
        exact .cancelsAgain eventId (promoted.of_like committed)
      · exact .nothing committed
    · refine leads_commit pending fun after wrote => ?_
      refine leads_read () (fun _ => rfl) ?_
      split
      · next cancel =>
        refine promoteWaitlistCandidate_leads wrote.quiet eventId fun last promoted => ?_
        exact .cancels _ _ cancel (wrote.of_like like) promoted
      · next stays =>
        refine served_of_given known asks given stays (fun going => ?_) like wrote
        have standing : loaded.status ≠ .going := fun seated => changed (going.trans seated.symm)
        rw [own]
        simp [standing]

theorem request_leads (quiet : world.rsvps.Quiet) (request : Request)
    (asks : match request with
      | .createRsvp memberId eventId status =>
        world.rsvps.committed ⟨memberId, eventId⟩ = none → Asks world ⟨memberId, eventId⟩ status
      | .upsertRsvpStatus memberId eventId status => Asks world ⟨memberId, eventId⟩ status) :
    Leads me world request.program (fun _ => Served world) (Served world) := by
  cases request with
  | createRsvp memberId eventId status => exact createRsvp_leads quiet memberId eventId status asks
  | upsertRsvpStatus memberId eventId status =>
    exact upsertRsvpStatus_leads quiet memberId eventId status asks

end Requests

/-! ## Seats and rows that wait -/

section Counts

variable {world middle after : World} {key : RsvpId} {row : RSVP} {eventId : Nat}

theorem waiting_pos :
    0 < world.waiting eventId ↔ ∃ key row, key.eventId = eventId ∧ Waits world key row := by
  rw [World.waiting, Table.countCommitted, List.countP_pos_iff]
  constructor
  · rintro ⟨key, -, accepted⟩
    cases found : world.rsvps.committed key with
    | none => simp [Table.accepts, found] at accepted
    | some row =>
      simp only [Table.accepts, found, Option.map_some, Option.getD_some, isWaitlisted,
        decide_eq_true_eq] at accepted
      exact ⟨key, row, accepted.1, found, accepted.2⟩
  · rintro ⟨key, row, ofEvent, found, waitlist⟩
    have accepted :
        Table.accepts (isWaitlisted eventId) key (world.rsvps.committed key) = true := by
      simp [Table.accepts, found, isWaitlisted, ofEvent, waitlist]
    exact ⟨key, Table.mem_keys_of_accepts accepted, accepted⟩

/-- A row of another event counts for nothing. -/
theorem Wrote.apart (wrote : Wrote world key row after) (other : key.eventId ≠ eventId) :
    after.going eventId = world.going eventId ∧ after.waiting eventId = world.waiting eventId := by
  have uncounted (status : RSVPStatus) (version : Option RSVP) :
      Table.accepts (fun key row => decide (key.eventId = eventId ∧ row.status = status))
        key version = false := by
    cases version <;> simp [Table.accepts, other]
  have seats := wrote.counts (isGoing eventId)
  have waits := wrote.counts (isWaitlisted eventId)
  unfold isGoing at seats
  unfold isWaitlisted at waits
  simp only [uncounted, Bool.toNat_false] at seats waits
  exact ⟨seats, waits⟩

/-- A write changes the seats taken by those of its own row. -/
theorem Wrote.going (wrote : Wrote world key row after) : after.going key.eventId + sits world key =
    world.going key.eventId + if row.status = .going then 1 else 0 := by
  have counted := wrote.counts (isGoing key.eventId)
  have taken : (Table.accepts (isGoing key.eventId) key (some row)).toNat =
      if row.status = .going then 1 else 0 := by
    by_cases going : row.status = .going <;> simp [Table.accepts, isGoing, going]
  rw [taken] at counted
  exact counted

theorem Wrote.waiting_le (wrote : Wrote world key row after) : after.waiting key.eventId ≤
    world.waiting key.eventId + if row.status = .waitlist then 1 else 0 := by
  have counted := wrote.counts (isWaitlisted key.eventId)
  have taken : (Table.accepts (isWaitlisted key.eventId) key (some row)).toNat =
      if row.status = .waitlist then 1 else 0 := by
    by_cases waitlist : row.status = .waitlist <;> simp [Table.accepts, isWaitlisted, waitlist]
  rw [taken] at counted
  unfold World.waiting
  omega

end Counts

/-- No seat of the event is empty while somebody waits for it. -/
def NoIdleSeat (world : World) (eventId : Nat) : Prop :=
  ∀ capacity, world.capacity eventId = some capacity → 0 < world.waiting eventId →
    capacity ≤ world.going eventId

section Steps

variable {world middle after : World} {key : RsvpId} {row : RSVP} {eventId : Nat}

theorem NoIdleSeat.like (like : Like world after) (full : NoIdleSeat world eventId) :
    NoIdleSeat after eventId := by
  intro capacity known waits
  rw [like.capacity] at known
  rw [World.waiting, like.rsvps] at waits
  rw [World.going, like.rsvps]
  exact full capacity known waits

theorem NoIdleSeat.apart (full : NoIdleSeat world eventId) (wrote : Wrote world key row after)
    (other : key.eventId ≠ eventId) : NoIdleSeat after eventId := by
  obtain ⟨seats, waits⟩ := wrote.apart other
  intro capacity known somebody
  rw [wrote.capacity] at known
  rw [waits] at somebody
  rw [seats]
  exact full capacity known somebody

/-- The first of the waitlist takes the seat that may have become free. -/
theorem Promoted.noIdleSeat {cancelled : Nat} (promoted : Promoted world cancelled after)
    (nearly : ∀ capacity, world.capacity cancelled = some capacity → 0 < world.waiting cancelled →
      capacity ≤ world.going cancelled + 1)
    (others : ∀ eventId, eventId ≠ cancelled → NoIdleSeat world eventId) (eventId : Nat) :
    NoIdleSeat after eventId := by
  cases promoted with
  | nobody alone like =>
    by_cases mine : eventId = cancelled
    · subst mine
      intro capacity _ somebody
      rw [World.waiting, like.rsvps] at somebody
      obtain ⟨key, row, ofEvent, waits⟩ := waiting_pos.mp somebody
      exact absurd waits (alone key row ofEvent)
    · exact (others eventId mine).like like
  | first key row ofEvent waits earliest wrote =>
    subst ofEvent
    by_cases mine : eventId = key.eventId
    · subst mine
      intro capacity known _
      rw [wrote.capacity] at known
      have before := nearly capacity known (waiting_pos.mpr ⟨key, row, rfl, waits⟩)
      have seats := wrote.going
      have standing : sits world key = 0 := by
        rw [sits_of_some waits.1, waits.2]
        rfl
      rw [standing, if_pos rfl] at seats
      omega
    · exact (others eventId mine).apart wrote (Ne.symm mine)

/-- No request leaves a seat empty for which somebody waits. -/
theorem Served.noIdleSeat (served : Served world after) (full : ∀ eventId, NoIdleSeat world eventId)
    (eventId : Nat) : NoIdleSeat after eventId := by
  cases served with
  | nothing like => exact (full eventId).like like
  | books key row going capacity known free wrote =>
    by_cases mine : key.eventId = eventId
    · subst mine
      intro capacity known' somebody
      rw [wrote.capacity] at known'
      have before := full key.eventId capacity known'
      have seats := wrote.going
      have waits := wrote.waiting_le
      rw [going] at seats waits
      have alone : sits world key ≤ 1 := Bool.toNat_le _
      simp only [if_true, reduceCtorEq, if_false] at seats waits
      omega
    · exact (full eventId).apart wrote mine
  | waits key row waitlist taken wrote =>
    by_cases mine : key.eventId = eventId
    · subst mine
      intro capacity known _
      rw [wrote.capacity] at known
      have before := taken capacity known
      have seats := wrote.going
      omega
    · exact (full eventId).apart wrote mine
  | declines key row cancel fresh wrote =>
    by_cases mine : key.eventId = eventId
    · subst mine
      intro capacity known somebody
      rw [wrote.capacity] at known
      have before := full key.eventId capacity known
      have seats := wrote.going
      have waits := wrote.waiting_le
      rw [cancel] at waits
      rw [sits_of_none fresh] at seats
      simp only [reduceCtorEq, if_false] at waits
      omega
    · exact (full eventId).apart wrote mine
  | cancels key row cancel wrote promoted =>
    refine promoted.noIdleSeat (fun capacity known somebody => ?_)
      (fun other different => ?_) eventId
    · rw [wrote.capacity] at known
      have before := full key.eventId capacity known
      have seats := wrote.going
      have waits := wrote.waiting_le
      rw [cancel] at waits
      have alone : sits world key ≤ 1 := Bool.toNat_le _
      simp only [reduceCtorEq, if_false] at waits
      omega
    · exact (full other).apart wrote (Ne.symm different)
  | cancelsAgain cancelled promoted =>
    refine promoted.noIdleSeat (fun capacity known somebody => ?_)
      (fun other _ => full other) eventId
    have before := full cancelled capacity known somebody
    omega

end Steps

/-! ## Who gets a seat -/

/-- If somebody still waits, who is granted a seat has been waiting for it, and not for a
shorter time. -/
def NotOvertaken (world after : World) : Prop :=
  ∀ key row, after.rsvps.committed key = some row → row.status = .going → sits world key = 0 →
    ∀ other latest, other.eventId = key.eventId → Waits after other latest →
      ∃ own, Waits world key own ∧ own.createdAt ≤ latest.createdAt

section Fairness

variable {world middle after : World} {key : RsvpId} {row : RSVP}

theorem NotOvertaken.of_same (same : after.rsvps = world.rsvps) : NotOvertaken world after := by
  intro key row found going standing
  rw [same] at found
  rw [sits_of_some found, if_pos going] at standing
  cases standing

/-- Only the row that is written can be granted a seat. -/
theorem Wrote.granted (wrote : Wrote world key row after) {other : RsvpId} {latest : RSVP}
    (found : after.rsvps.committed other = some latest) (going : latest.status = .going)
    (standing : sits world other = 0) : other = key ∧ latest = row := by
  rw [wrote.rows] at found
  split at found
  · next same =>
    cases found
    exact ⟨same, rfl⟩
  · rw [sits_of_some found, if_pos going] at standing
    cases standing

/-- A row that is written without a seat overtakes nobody. -/
theorem NotOvertaken.of_wrote (wrote : Wrote world key row after) (waits : row.status ≠ .going) :
    NotOvertaken world after := by
  intro other latest found going standing
  obtain ⟨-, rfl⟩ := wrote.granted found going standing
  exact absurd going waits

/-- Who waits after the seat of another row is granted has been waiting before. -/
theorem Wrote.waited (wrote : Wrote world key row after) (going : row.status = .going)
    {other : RsvpId} {latest : RSVP}
    (still : Waits after other latest) : Waits world other latest := by
  have kept := still.1
  rw [wrote.rows] at kept
  split at kept
  · cases kept
    have waits := still.2
    rw [going] at waits
    cases waits
  · exact ⟨kept, still.2⟩

/-- The first who waits is promoted, so nobody is overtaken. -/
theorem Promoted.fair {eventId : Nat} (promoted : Promoted world eventId after) :
    NotOvertaken world after := by
  cases promoted with
  | nobody alone like => exact .of_same like.rsvps
  | first first row ofEvent waits earliest wrote =>
    intro key latest found going standing other behind same still
    obtain ⟨rfl, rfl⟩ := wrote.granted found going standing
    exact ⟨row, waits, earliest other behind (same.trans ofEvent) (wrote.waited rfl still)⟩

/-- A cancelled row neither waits nor sits, and the others are as they were. -/
theorem NotOvertaken.of_cancel (wrote : Wrote world key row middle) (cancel : row.status = .cancel)
    (fair : NotOvertaken middle after) : NotOvertaken world after := by
  have elsewhere {other : RsvpId} {latest : RSVP}
    (found : middle.rsvps.committed other = some latest)
      (alive : latest.status ≠ .cancel) : world.rsvps.committed other = some latest := by
    rw [wrote.rows] at found
    split at found
    · cases found
      exact absurd cancel alive
    · exact found
  intro seat latest found going standing other behind same still
  have stood : sits middle seat = 0 := by
    cases seen : middle.rsvps.committed seat with
    | none => exact sits_of_none seen
    | some earlier =>
      rw [sits_of_some seen]
      split
      · next seated =>
        have before := elsewhere seen (by simp [seated])
        rw [sits_of_some before, if_pos seated] at standing
        cases standing
      · rfl
  obtain ⟨own, waits, longer⟩ := fair seat latest found going stood other behind same still
  have alive : own.status ≠ .cancel := by
    simp [waits.2]
  exact ⟨own, ⟨elsewhere waits.1 alive, waits.2⟩, longer⟩

/-- A request overtakes nobody, as long as no seat is idle while somebody waits. -/
theorem Served.fair (served : Served world after) (full : ∀ eventId, NoIdleSeat world eventId) :
    NotOvertaken world after := by
  cases served with
  | nothing like => exact .of_same like.rsvps
  | books key row going capacity known free wrote =>
    intro other latest found seated standing another behind same still
    obtain ⟨rfl, -⟩ := wrote.granted found seated standing
    have somebody := waiting_pos.mpr ⟨another, behind, same, wrote.waited going still⟩
    have taken := full other.eventId capacity known somebody
    omega
  | waits key row waitlist taken wrote => exact .of_wrote wrote (by simp [waitlist])
  | declines key row cancel fresh wrote => exact .of_wrote wrote (by simp [cancel])
  | cancels key row cancel wrote promoted => exact promoted.fair.of_cancel wrote cancel
  | cancelsAgain eventId promoted => exact promoted.fair

end Fairness

/-! ## The operations, one after the other -/

section Closing

variable {world middle after : World} {key : RsvpId} {row : RSVP} {eventId : Nat}

theorem Promoted.rest (promoted : Promoted world eventId after) (quiet : world.rsvps.Quiet) :
    after.rsvps.Quiet ∧ after.capacity = world.capacity := by
  cases promoted with
  | nobody alone like =>
    rw [like.rsvps]
    exact ⟨quiet, like.capacity⟩
  | first key row ofEvent waits earliest wrote => exact ⟨wrote.quiet, wrote.capacity⟩

theorem Served.rest (served : Served world after) (quiet : world.rsvps.Quiet) :
    after.rsvps.Quiet ∧ after.capacity = world.capacity := by
  cases served with
  | nothing like =>
    rw [like.rsvps]
    exact ⟨quiet, like.capacity⟩
  | books key row going capacity known free wrote => exact ⟨wrote.quiet, wrote.capacity⟩
  | waits key row waitlist full wrote => exact ⟨wrote.quiet, wrote.capacity⟩
  | declines key row cancel fresh wrote => exact ⟨wrote.quiet, wrote.capacity⟩
  | cancels key row cancel wrote promoted =>
    obtain ⟨still, same⟩ := promoted.rest wrote.quiet
    exact ⟨still, same.trans wrote.capacity⟩
  | cancelsAgain eventId promoted => exact promoted.rest quiet

theorem Promoted.like (promoted : Promoted world eventId middle) (like : Like middle after) :
    Promoted world eventId after := by
  cases promoted with
  | nobody alone same => exact .nobody alone (same.trans like)
  | first key row ofEvent waits earliest wrote =>
    exact .first key row ofEvent waits earliest (wrote.like like)

theorem Served.like (served : Served world middle) (like : Like middle after) :
    Served world after := by
  cases served with
  | nothing same => exact .nothing (same.trans like)
  | books key row going capacity known free wrote =>
    exact .books key row going capacity known free (wrote.like like)
  | waits key row waitlist full wrote => exact .waits key row waitlist full (wrote.like like)
  | declines key row cancel fresh wrote => exact .declines key row cancel fresh (wrote.like like)
  | cancels key row cancel wrote promoted =>
    exact .cancels key row cancel wrote (promoted.like like)
  | cancelsAgain eventId promoted => exact .cancelsAgain eventId (promoted.like like)

end Closing

open Source.EventSeats (State Turn)
open Source.PartialUpdates (Event EventUpdate)

/-- The update of an event gives nobody who waits a seat that is empty. -/
def Keeps (state : State) (eventId : Nat) (payload : EventUpdate) : Prop :=
  ∀ capacity, payload.capacity = some (some capacity) → 0 < state.waiting eventId →
    capacity ≤ state.going eventId

/-- The waitlist is asked for only where the seats besides the own one are taken, and the capacity is
not raised above the seats taken while somebody waits. -/
def Justified (state : State) : Source.EventSeats.Request → Prop
  | .rsvp (.createRsvp memberId eventId status) =>
    state.world.rsvps.committed ⟨memberId, eventId⟩ = none →
      Asks state.world ⟨memberId, eventId⟩ status
  | .rsvp (.upsertRsvpStatus memberId eventId status) => Asks state.world ⟨memberId, eventId⟩ status
  | .updateEvent eventId payload => Keeps state eventId payload

structure SeatInv (state : State) : Prop where
  quiet : state.rsvps.rsvps.Quiet
  full : ∀ eventId, NoIdleSeat state.world eventId

/-- An RSVP request is served. -/
theorem serve_rsvp {state : State} (inv : SeatInv state) {turn : Turn} {request : Request}
    (named : turn.request = .rsvp request) (justified : Justified state (.rsvp request)) :
    ∃ after, state.serve turn = some after ∧ SeatInv after ∧
      NotOvertaken state.world after.world := by
  have quiet : state.world.rsvps.Quiet := inv.quiet
  have leads : Leads turn.me state.world request.program (fun _ => Served state.world)
      (Served state.world) :=
    request_leads quiet request (by cases request <;> exact justified)
  have works (n : Nat) : Works (turn.choices n) := rfl
  obtain ⟨out, world, done, reached⟩ := Machine.eval_of_ensures leads works
  have served : Served state.world world := by
    cases out <;> exact reached
  obtain ⟨still, capacity⟩ := served.rest quiet
  let after : State := { state with rsvps := world.leave turn.me }
  have closed : after.rsvps.rsvps = world.rsvps := still.abort_eq
  have reaches : Served state.world after.world := served.like ⟨closed, capacity.symm⟩
  refine ⟨after, ?_, ⟨?_, reaches.noIdleSeat inv.full⟩, reaches.fair inv.full⟩
  · simp only [State.serve, named, done, Option.map_some]
    rfl
  · rw [closed]
    exact still

/-- An event is updated. -/
theorem serve_update {state : State} (inv : SeatInv state) {turn : Turn} {eventId : Nat}
    {payload : EventUpdate}
    (named : turn.request = .updateEvent eventId payload) (keeps : Keeps state eventId payload) :
    ∃ after, state.serve turn = some after ∧ SeatInv after ∧
      NotOvertaken state.world after.world := by
  let after : State :=
    { state with events := (Source.PartialUpdates.updateEvent state.events eventId payload).table }
  refine ⟨after, by simp only [State.serve, named, after],
    ⟨inv.quiet, fun other => ?_⟩, .of_same rfl⟩
  rcases PartialUpdates.updateEvent_cases state.events eventId payload with same |
    ⟨event, stored, found, saved, from_⟩
  · intro capacity known
    have unchanged : after.world.capacity other = state.world.capacity other := by
      simp only [State.world, State.capacities, after, same]
    rw [unchanged] at known
    exact inv.full other capacity known
  · intro capacity known somebody
    simp only [State.world, State.capacities, after, saved] at known
    by_cases mine : other = eventId
    · subst mine
      simp only [Function.update_self, Option.map_some, Option.some.injEq] at known
      subst known
      rcases from_ with set | ⟨-, kept⟩
      · have seats := keeps _ set somebody
        change stored.capacity.val.toNat ≤ state.going other
        omega
      · have before : state.world.capacity other = some stored.capacity.val.toNat := by
          simp only [State.world, State.capacities, found, Option.map_some, kept]
        exact inv.full other _ before somebody
    · have apart : (other : Int) ≠ eventId := by
        intro same
        exact mine (Int.ofNat_inj.mp same)
      rw [Function.update_of_ne apart] at known
      exact inv.full other capacity known somebody

/-- Every operation is served, and leaves no seat empty for which somebody waits. -/
theorem serve_keeps {state : State} (inv : SeatInv state) (turn : Turn)
    (justified : Justified state turn.request) :
    ∃ after, state.serve turn = some after ∧ SeatInv after ∧
      NotOvertaken state.world after.world := by
  cases named : turn.request with
  | rsvp request =>
    rw [named] at justified
    exact serve_rsvp inv named justified
  | updateEvent eventId payload =>
    rw [named] at justified
    exact serve_update inv named justified

/-- Every operation of a run is justified where it is taken up. -/
def Meets : State → List Turn → Prop
  | _, [] => True
  | state, turn :: rest =>
    Justified state turn.request ∧
      match state.serve turn with
      | some after => Meets after rest
      | none => True

theorem SeatInv.run {state after : State} (inv : SeatInv state) {turns : List Turn}
    (meets : Meets state turns) (reached : State.run turns state = some after) : SeatInv after := by
  induction turns generalizing state with
  | nil =>
    cases reached
    exact inv
  | cons turn rest ih =>
    obtain ⟨justified, meets⟩ := meets
    obtain ⟨middle, served, kept, -⟩ := serve_keeps inv turn justified
    rw [served] at meets
    simp only [State.run, served, Option.bind_some] at reached
    exact ih kept meets reached

/-- Without any answers no seat is idle while somebody waits. -/
theorem blank_holds (events : Int → Option Event) (members : Nat → Bool) :
    SeatInv (.blank events members) where
  quiet _ := rfl
  full eventId capacity known somebody := by
    cases somebody

/-- In every run of the operations that asks for the waitlist only where the other seats are taken,
and raises no capacity above the seats taken while somebody waits: whenever a row waits, the rows that
are going take all the seats. Every such operation is served, and a seat that it grants while somebody
waits goes to the first who has been waiting. -/
theorem no_idle_seat (events : Int → Option Event) (members : Nat → Bool) (turns : List Turn)
    (state : State) (meets : Meets (.blank events members) turns)
    (reached : State.run turns (.blank events members) = some state) :
    (∀ eventId : Nat, ∀ event, state.events eventId = some event → 0 < state.waiting eventId →
      event.capacity.val ≤ state.going eventId) ∧
    ∀ turn, Justified state turn.request →
      ∃ after, state.serve turn = some after ∧ NotOvertaken state.rsvps after.rsvps := by
  have inv := (blank_holds events members).run meets reached
  constructor
  · intro eventId event found somebody
    have known : state.world.capacity eventId = some event.capacity.val.toNat := by
      simp only [State.world, State.capacities, found, Option.map_some]
    have seats := inv.full eventId _ known somebody
    change event.capacity.val.toNat ≤ state.going eventId at seats
    omega
  · intro turn justified
    obtain ⟨after, served, -, fair⟩ := serve_keeps inv turn justified
    exact ⟨after, served, fair⟩

/-! ## One seat -/

instance (world : World) (key : RsvpId) : Decidable (Full world key) :=
  inferInstanceAs (Decidable
    (∀ capacity ∈ world.capacity key.eventId, capacity + sits world key ≤ world.going key.eventId))

instance (world : World) (key : RsvpId) (status : RSVPStatus) : Decidable (Asks world key status) :=
  inferInstanceAs (Decidable (_ → _))

instance (state : State) (eventId : Nat) (payload : EventUpdate) :
    Decidable (Keeps state eventId payload) :=
  decidable_of_iff (∀ capacity ∈ payload.capacity.join, 0 < state.waiting eventId →
    capacity ≤ state.going eventId) <| by
    simp only [Keeps, Option.mem_def, Option.join_eq_some_iff]

instance (state : State) :
    (request : Source.EventSeats.Request) → Decidable (Justified state request)
  | .rsvp (.createRsvp ..) => inferInstanceAs (Decidable (_ → _))
  | .rsvp (.upsertRsvpStatus memberId eventId status) =>
    inferInstanceAs (Decidable (Asks state.world ⟨memberId, eventId⟩ status))
  | .updateEvent eventId payload => inferInstanceAs (Decidable (Keeps state eventId payload))

def decideMeets : (state : State) → (turns : List Turn) → Decidable (Meets state turns)
  | _, [] => isTrue trivial
  | state, turn :: rest =>
    match served : state.serve turn with
    | some after =>
      have := decideMeets after rest
      decidable_of_iff (Justified state turn.request ∧ Meets after rest)
        (by simp only [Meets, served])
    | none =>
      decidable_of_iff (Justified state turn.request) (by simp only [Meets, served, and_true])

instance (state : State) (turns : List Turn) : Decidable (Meets state turns) :=
  decideMeets state turns

/-- An event with the key 7 and one seat. -/
def lecture (key : Int) : Option Event :=
  if key = 7 then
    some { Guarantees.PartialUpdates.reunion with title := ⟨"Lecture", by decide⟩, capacity := ⟨1, by decide⟩ }
  else none

/-- Requests of different sessions, the one after the other. -/
def inTurn (requests : List Source.EventSeats.Request) : List Turn :=
  requests.zipIdx.map fun (request, index) => { me := index, request, now := fun _ => index }

def goes (memberId : Nat) : Source.EventSeats.Request := .rsvp (.createRsvp memberId 7 .going)

/-- The attendee cancels, the member who waits gets the seat, and only then there is a second one. -/
def cancelled : List Source.EventSeats.Request :=
  [goes 1, goes 2, .rsvp (.upsertRsvpStatus 1 7 .cancel),
    .updateEvent 7 { capacity := some (some 2) }]

set_option maxRecDepth 20000 in
theorem no_idle_seat_promotion :
    ∃ state, State.run (inTurn cancelled) (.blank lecture fun _ => true) = some state ∧
      state.going 7 = 1 ∧ (∀ event, state.events 7 = some event → 0 < state.waiting 7 →
        event.capacity.val ≤ state.going 7) := by
  have meets : Meets (.blank lecture fun _ => true) (inTurn cancelled) := by decide
  have ran : (State.run (inTurn cancelled) (.blank lecture fun _ => true)).map (·.going 7) =
      some 1 := by decide
  obtain ⟨state, reached, one⟩ := Option.map_eq_some_iff.mp ran
  exact ⟨state, reached, one, (no_idle_seat _ _ _ state meets reached).1 7⟩

/-- What is seen of the lecture: the rows that wait, those that go, and the capacity. -/
def seats (state : State) : Nat × Nat × Option Int :=
  (state.waiting 7, state.going 7, (state.events 7).map (·.capacity.val))

/-- The capacity is raised while a member waits, and a third one books the new seat. -/
def raised : List Source.EventSeats.Request :=
  [goes 1, goes 2, .updateEvent 7 { capacity := some (some 2) }]

set_option maxRecDepth 20000 in
/-- A seat stays empty beside a member who waits, after the capacity was raised (and the next one who
asks gets it), and after the waitlist was asked for while seats were free. -/
theorem seat_empty_while_waiting :
    (State.run (inTurn raised) (.blank lecture fun _ => true)).map seats = some (1, 1, some 2) ∧
    (State.run (inTurn (raised ++ [goes 3])) (.blank lecture fun _ => true)).map (fun state =>
      ((state.rsvps.rsvps.committed ⟨2, 7⟩).map (·.status),
        (state.rsvps.rsvps.committed ⟨3, 7⟩).map (·.status))) =
        some (some .waitlist, some .going) ∧
    (State.run (inTurn [.rsvp (.createRsvp 1 7 .waitlist)])
      (.blank lecture fun _ => true)).map seats =
      some (1, 0, some 1) := by
  decide

end SogeconApp.Guarantees.Waitlist
