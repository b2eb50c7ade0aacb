import SogeconApp.Guarantees.ScheduledPush.Phases

/-!
# At most one accepted push, none after an uncertain one

A claim is exclusive from the commit that writes `in_progress` until its result is
committed, because that status is not claimable and no statement leads back to a
claimable one except the recording of a definite failure by the claim itself. The
history records what the provider and the claim columns see; a delivery is closed once
a call was accepted or ended without a definite answer.
-/

namespace SogeconApp.Guarantees.ScheduledPush

open Library Program Source.ScheduledPush

/-! ## What must never happen -/

/-- The call was accepted, or nothing definite is known of it. -/
def closes (delivery : DeliveryId) : Happening → Bool
  | .answered id ok status => id = delivery ∧ (ok = true ∨ status = none)
  | .raised id | .lost id => id = delivery
  | _ => false

def isAccepted (delivery : DeliveryId) : Happening → Bool
  | .answered id ok _ => id = delivery ∧ ok = true
  | _ => false

/-- A history in which every delivery is accepted at most once, and is not called
again once it is closed. -/
def AtMostOnce (history : List Happening) : Prop :=
  ∀ delivery, history.countP (isAccepted delivery) ≤ 1 ∧
    history.Pairwise fun earlier later => closes delivery earlier = true → later ≠ .dispatched delivery

def Closed (history : List Happening) (delivery : DeliveryId) : Prop :=
  ∃ news ∈ history, closes delivery news = true

theorem closed_append {history news : List Happening} {delivery : DeliveryId} :
    Closed (history ++ news) delivery ↔ Closed history delivery ∨ Closed news delivery := by
  simp only [Closed, List.mem_append]
  constructor
  · rintro ⟨event, member | member, closing⟩
    · exact .inl ⟨event, member, closing⟩
    · exact .inr ⟨event, member, closing⟩
  · rintro (⟨event, member, closing⟩ | ⟨event, member, closing⟩)
    · exact ⟨event, .inl member, closing⟩
    · exact ⟨event, .inr member, closing⟩

/-! ## The invariant -/

namespace Claim

/-- The delivery of a committed claim. -/
def held : Claim → Option DeliveryId
  | .claimed delivery | .calling delivery | .accepted delivery | .uncertain delivery
  | .recording delivery _ => some delivery
  | _ => none

def attempt : Claim → Attempt
  | .free => .idle
  | .locked delivery | .flushed delivery => .claiming delivery
  | .claimed delivery | .calling delivery | .accepted delivery | .uncertain delivery => .holding delivery
  | .recording delivery status => .recording delivery status

end Claim

/-- The session may still call the provider for the delivery, or leave it to be called again. -/
def MayCall (phase : Phase) (delivery : DeliveryId) : Prop :=
  phase.connection = .ready ∧ (phase.claim = .claimed delivery ∨ phase.claim = .calling delivery ∨
    phase.claim = .recording delivery .failed)

theorem MayCall.held {phase : Phase} {delivery : DeliveryId} (may : MayCall phase delivery) :
    phase.claim.held = some delivery := by
  rcases may.2 with claim | claim | claim
  · rw [claim]
    rfl
  · rw [claim]
    rfl
  · rw [claim]
    rfl

/-- Absent, pending or failed. -/
def Vacant (committed : Option ScheduledNotificationDelivery) : Prop :=
  ∀ row, committed = some row → isClaimable row = true

def Settled (committed : Option ScheduledNotificationDelivery) : Prop :=
  ∃ row, committed = some row ∧ (row.status = .inProgress ∨ row.status = .unknown ∨ row.status = .completed)

theorem Settled.not_vacant {committed : Option ScheduledNotificationDelivery} (settled : Settled committed)
    (vacant : Vacant committed) : False := by
  obtain ⟨row, present, status⟩ := settled
  have claimable := vacant row present
  rcases status with status | status | status <;> simp [isClaimable, status] at claimable

/-- What an uncommitted version of a delivery can be, given what is committed. -/
inductive Shape (claim : Claim) (delivery : DeliveryId) (committed : Option ScheduledNotificationDelivery)
    (version : ScheduledNotificationDelivery) : Prop where
  | prepared (vacant : Vacant committed) (status : version.status = .pending ∨ version.status = .abandoned)
  | locked (vacant : Vacant committed) (mine : claim = .locked delivery) (claimable : isClaimable version = true)
  | flushed (vacant : Vacant committed) (mine : claim = .flushed delivery) (status : version.status = .inProgress)
  | expired (row : ScheduledNotificationDelivery) (present : committed = some row)
      (running : row.status = .inProgress) (status : version.status = .unknown)
  | recording (mine : claim = .recording delivery version.status)

/-- The invariant of claims, drafts and history. -/
structure ClaimInv (world : World) (phase : SessionId → Phase) : Prop where
  single : ∀ a b delivery, (phase a).claim.held = some delivery → (phase b).claim.held = some delivery → a = b
  settled : ∀ delivery, (∃ me, (phase me).claim.held = some delivery) ∨ Closed world.history delivery →
    Settled (world.deliveries.committed delivery)
  ended : ∀ me delivery, Closed world.history delivery → ¬ MayCall (phase me) delivery
  flushes : ∀ me delivery, (phase me).claim = .locked delivery ∨ (phase me).claim = .flushed delivery →
    ∃ version, (world.deliveries.slot delivery).draft = some (me, some version) ∧
      ((phase me).claim = .locked delivery → isClaimable version = true) ∧
      ((phase me).claim = .flushed delivery → version.status = .inProgress)
  records : ∀ me delivery status, (phase me).claim = .recording delivery status →
    status = .failed ∨ status = .completed ∨ status = .unknown
  drafts : ∀ delivery owner version, (world.deliveries.slot delivery).draft = some (owner, version) →
    ∃ row, version = some row ∧
      Shape (phase owner).claim delivery (world.deliveries.committed delivery) row
  mirrored : ∀ me, world.attempt me = (phase me).claim.attempt
  order : ∀ delivery, world.history.Pairwise fun earlier later =>
    closes delivery earlier = true → later ≠ .dispatched delivery
  accepted : ∀ delivery, world.history.countP (isAccepted delivery) ≤ 1

/-- Only what a session says of its claim, its transaction and the deliveries matters. -/
theorem ClaimInv.neutral {world world' : World} {phase phase' : SessionId → Phase}
    (inv : ClaimInv world phase) (deliveries : world'.deliveries = world.deliveries)
    (history : world'.history = world.history) (attempt : world'.attempt = world.attempt)
    (claims : ∀ me, (phase' me).claim = (phase me).claim)
    (ready : ∀ me, (phase' me).connection = .ready → (phase me).connection = .ready) :
    ClaimInv world' phase' where
  single a b delivery := by
    rw [claims, claims]
    exact inv.single a b delivery
  settled delivery := by
    simp only [claims, history, deliveries]
    exact inv.settled delivery
  ended me delivery closed may := by
    rw [history] at closed
    refine inv.ended me delivery closed ⟨ready me may.1, ?_⟩
    rw [← claims]
    exact may.2
  flushes me delivery := by
    rw [claims, deliveries]
    exact inv.flushes me delivery
  records me delivery status := by
    rw [claims]
    exact inv.records me delivery status
  drafts delivery owner version := by
    rw [claims, deliveries]
    exact inv.drafts delivery owner version
  mirrored me := by
    rw [attempt, claims]
    exact inv.mirrored me
  order delivery := by
    rw [history]
    exact inv.order delivery
  accepted delivery := by
    rw [history]
    exact inv.accepted delivery

theorem ClaimInv.tick {world : World} {phase : SessionId → Phase} (inv : ClaimInv world phase)
    (seconds : Nat) : ClaimInv (world.tick seconds) phase :=
  inv.neutral rfl rfl rfl (fun _ => rfl) fun _ => id

/-! ## What one statement preserves -/

section Steps

variable {world world' : World} {phase : SessionId → Phase} {me : SessionId} {delivery : DeliveryId}
  {after : Phase}

/-- A claim that names no delivery in two ways: another delivery's drafts keep their shape. -/
theorem Shape.of_other {claim claim' : Claim} {other : DeliveryId}
    {committed : Option ScheduledNotificationDelivery} {version : ScheduledNotificationDelivery}
    (shape : Shape claim other committed version) (different : claim.attempt ≠ .claiming other)
    (idle : ∀ status, claim ≠ .recording other status) : Shape claim' other committed version := by
  cases shape with
  | prepared vacant status => exact .prepared vacant status
  | locked vacant mine claimable => exact absurd (by rw [mine]; rfl) different
  | flushed vacant mine status => exact absurd (by rw [mine]; rfl) different
  | expired row present running status => exact .expired row present running status
  | recording mine => exact absurd mine (idle _)

/-- What a session with no open claim sees of a delivery. -/
theorem ClaimInv.visible (inv : ClaimInv world phase) {found : Option ScheduledNotificationDelivery}
    (seen : world.deliveries.row me delivery = found) :
    world.deliveries.committed delivery = found ∨ ∃ row, found = some row ∧
      Shape (phase me).claim delivery (world.deliveries.committed delivery) row := by
  rcases world.deliveries.row_cases me delivery with committed | drafted
  · exact .inl (committed.trans seen)
  · rw [seen] at drafted
    exact .inr (inv.drafts delivery me found drafted)

/-- A session drafts a version of a delivery; its claim may move, but holds what it held. -/
theorem ClaimInv.draft (inv : ClaimInv world phase) {version : ScheduledNotificationDelivery}
    (deliveries : world'.deliveries = world.deliveries.write me delivery (some version))
    (history : world'.history = world.history)
    (attempt : world'.attempt = Function.update world.attempt me after.claim.attempt)
    (unlocked : (world.deliveries.slot delivery).lockedFor me = false)
    (held : after.claim.held = (phase me).claim.held)
    (shape : Shape after.claim delivery (world.deliveries.committed delivery) version)
    (loose : ∀ other, other ≠ delivery → ∀ committed version,
      Shape (phase me).claim other committed version → Shape after.claim other committed version)
    (flushes : ∀ other, after.claim = .locked other ∨ after.claim = .flushed other →
      other = delivery ∧ (after.claim = .locked other → isClaimable version = true) ∧
        (after.claim = .flushed other → version.status = .inProgress))
    (records : ∀ other status, after.claim = .recording other status →
      status = .failed ∨ status = .completed ∨ status = .unknown)
    (may : ∀ other, MayCall after other → MayCall (phase me) other) :
    ClaimInv world' (Function.update phase me after) := by
  have claims : ∀ other, (Function.update phase me after other).claim.held = (phase other).claim.held := by
    intro other
    by_cases same : other = me
    · rw [same, Function.update_self, held]
    · rw [Function.update_of_ne same]
  constructor
  · intro a b target
    rw [claims, claims]
    exact inv.single a b target
  · intro target
    simp only [claims, history, deliveries, Table.write_committed]
    exact inv.settled target
  · intro other target closed
    rw [history] at closed
    by_cases same : other = me
    · rw [same, Function.update_self]
      exact fun calling => inv.ended me target closed (may target calling)
    · rw [Function.update_of_ne same]
      exact inv.ended other target closed
  · intro other target locking
    by_cases same : other = me
    · subst same
      rw [Function.update_self] at locking ⊢
      obtain ⟨rfl, flushed⟩ := flushes target locking
      exact ⟨version, by rw [deliveries]; simp, flushed⟩
    · rw [Function.update_of_ne same] at locking ⊢
      obtain ⟨latest, drafted, flushed⟩ := inv.flushes other target locking
      have elsewhere : target ≠ delivery := by
        rintro rfl
        exact same (Slot.lockedFor_eq_false.mp unlocked other _ drafted)
      exact ⟨latest, by rw [deliveries, Table.write_slot_of_ne elsewhere]; exact drafted, flushed⟩
  · intro other target status recording
    by_cases same : other = me
    · rw [same, Function.update_self] at recording
      exact records target status recording
    · rw [Function.update_of_ne same] at recording
      exact inv.records other target status recording
  · intro target owner latest drafted
    rw [deliveries] at drafted ⊢
    rw [Table.write_committed]
    by_cases here : target = delivery
    · subst here
      simp only [Table.write_slot_self, Slot.write_draft, Option.some.injEq, Prod.mk.injEq] at drafted
      obtain ⟨rfl, rfl⟩ := drafted
      rw [Function.update_self]
      exact ⟨version, rfl, shape⟩
    · rw [Table.write_slot_of_ne here] at drafted
      obtain ⟨row, some_, before⟩ := inv.drafts target owner latest drafted
      refine ⟨row, some_, ?_⟩
      by_cases same : owner = me
      · subst same
        rw [Function.update_self]
        exact loose target here _ _ before
      · rw [Function.update_of_ne same]
        exact before
  · intro other
    rw [attempt]
    by_cases same : other = me
    · rw [same, Function.update_self, Function.update_self]
    · rw [Function.update_of_ne same, Function.update_of_ne same]
      exact inv.mirrored other
  · intro target
    rw [history]
    exact inv.order target
  · intro target
    rw [history]
    exact inv.accepted target

/-- Until a delivery is closed, no call for it was accepted. -/
theorem countP_isAccepted_eq_zero {history : List Happening} (unclosed : ¬ Closed history delivery) :
    history.countP (isAccepted delivery) = 0 := by
  refine List.countP_eq_zero.mpr fun event member accepted => unclosed ⟨event, member, ?_⟩
  cases event <;> simp_all [isAccepted, closes]

/-- The provider's side of the claim that the session holds. -/
theorem ClaimInv.happen (inv : ClaimInv world phase) {news : Happening}
    (deliveries : world'.deliveries = world.deliveries)
    (history : world'.history = world.history ++ [news]) (attempt : world'.attempt = world.attempt)
    (holding : (phase me).claim.held = some delivery) (held : after.claim.held = some delivery)
    (same : after.claim.attempt = (phase me).claim.attempt)
    (records : ∀ other status, after.claim = .recording other status →
      (phase me).claim = .recording other status)
    (concerns : ∀ other, closes other news = true → other = delivery ∧ ¬ MayCall after delivery)
    (may : MayCall after delivery → MayCall (phase me) delivery)
    (called : ∀ other, news = .dispatched other ∨ isAccepted other news = true →
      MayCall (phase me) other) :
    ClaimInv world' (Function.update phase me after) := by
  have claims : ∀ other, (Function.update phase me after other).claim.held = (phase other).claim.held := by
    intro other
    by_cases equal : other = me
    · rw [equal, Function.update_self, held, holding]
    · rw [Function.update_of_ne equal]
  have closing : ∀ target, Closed [news] target → target = delivery ∧ ¬ MayCall after delivery := by
    rintro target ⟨event, member, closed⟩
    rw [List.mem_singleton] at member
    rw [member] at closed
    exact concerns target closed
  constructor
  · intro a b target
    rw [claims, claims]
    exact inv.single a b target
  · intro target
    simp only [claims, history, closed_append, deliveries]
    rintro (holder | closed | closed)
    · exact inv.settled target (.inl holder)
    · exact inv.settled target (.inr closed)
    · rw [(closing target closed).1]
      exact inv.settled delivery (.inl ⟨me, holding⟩)
  · intro other target closed
    rw [history, closed_append] at closed
    by_cases equal : other = me
    · rw [equal, Function.update_self]
      rcases closed with closed | closed
      · intro calling
        have mine : target = delivery := by
          have holds := calling.held
          rw [held] at holds
          exact (Option.some.inj holds).symm
        rw [mine] at calling closed
        exact inv.ended me delivery closed (may calling)
      · rw [(closing target closed).1]
        exact (closing target closed).2
    · rw [Function.update_of_ne equal]
      rcases closed with closed | closed
      · exact inv.ended other target closed
      · intro calling
        have holds := calling.held
        rw [(closing target closed).1] at holds
        exact equal (inv.single other me delivery holds holding)
  · intro other target locking
    by_cases equal : other = me
    · rw [equal, Function.update_self] at locking
      rcases locking with claim | claim <;> simp [claim, Claim.held] at held
    · rw [Function.update_of_ne equal] at locking ⊢
      rw [deliveries]
      exact inv.flushes other target locking
  · intro other target status recording
    by_cases equal : other = me
    · rw [equal, Function.update_self] at recording
      exact inv.records me target status (records target status recording)
    · rw [Function.update_of_ne equal] at recording
      exact inv.records other target status recording
  · intro target owner version drafted
    rw [deliveries] at drafted ⊢
    obtain ⟨row, some_, shape⟩ := inv.drafts target owner version drafted
    refine ⟨row, some_, ?_⟩
    by_cases equal : owner = me
    · subst equal
      rw [Function.update_self]
      cases shape with
      | prepared vacant status => exact .prepared vacant status
      | locked vacant mine claimable => simp [mine, Claim.held] at holding
      | flushed vacant mine status => simp [mine, Claim.held] at holding
      | expired row present running status => exact .expired row present running status
      | recording mine =>
        refine .recording ?_
        rw [mine] at same
        generalize after.claim = claim at same
        cases claim <;> simp_all [Claim.attempt]
    · rw [Function.update_of_ne equal]
      exact shape
  · intro other
    rw [attempt, inv.mirrored]
    by_cases equal : other = me
    · rw [equal, Function.update_self, same]
    · rw [Function.update_of_ne equal]
  · intro target
    rw [history, List.pairwise_append]
    refine ⟨inv.order target, List.pairwise_singleton _ _, ?_⟩
    intro earlier member later last closed
    rw [List.mem_singleton] at last
    rw [last]
    rintro rfl
    exact inv.ended me target ⟨earlier, member, closed⟩ (called target (.inl rfl))
  · intro target
    rw [history, List.countP_append]
    cases accepted : isAccepted target news with
    | false => simpa [accepted] using inv.accepted target
    | true =>
      have unclosed : ¬ Closed world.history target := fun closed =>
        inv.ended me target closed (called target (.inr accepted))
      simp [countP_isAccepted_eq_zero unclosed, accepted]

/-- News that is neither a call nor an answer. -/
theorem quiet_news {history news : List Happening}
    (quiet : ∀ event ∈ news, ∀ target, event ≠ .dispatched target ∧ isAccepted target event = false)
    (order : ∀ target, history.Pairwise fun earlier later =>
      closes target earlier = true → later ≠ .dispatched target)
    (accepted : ∀ target, history.countP (isAccepted target) ≤ 1) :
    (∀ target, (history ++ news).Pairwise fun earlier later =>
      closes target earlier = true → later ≠ .dispatched target) ∧
    ∀ target, (history ++ news).countP (isAccepted target) ≤ 1 := by
  constructor
  · intro target
    refine List.pairwise_append.mpr ⟨order target, ?_, ?_⟩
    · exact List.pairwise_of_forall_mem_list fun _ _ later member _ => (quiet later member target).1
    · exact fun _ _ later member _ => (quiet later member target).1
  · intro target
    have none_ : news.countP (isAccepted target) = 0 :=
      List.countP_eq_zero.mpr fun event member => by simp [(quiet event member target).2]
    rw [List.countP_append, none_]
    exact accepted target

/-- A rollback, or the end of a session: an open claim is lost, and stays settled. -/
theorem ClaimInv.rollback (inv : ClaimInv world phase)
    (deliveries : world'.deliveries = world.deliveries.abort me)
    (history : world'.history = world.history ++ World.lostNews (world.attempt me))
    (attempt : world'.attempt = Function.update world.attempt me .idle)
    (free : after.claim = .free) : ClaimInv world' (Function.update phase me after) := by
  have lost : ∀ target, Closed (World.lostNews (world.attempt me)) target →
      (phase me).claim.held = some target := by
    rintro target ⟨event, member, closed⟩
    rw [inv.mirrored] at member
    generalize (phase me).claim = claim at member
    cases claim <;> simp_all [Claim.attempt, World.lostNews, closes, Claim.held]
  have others : ∀ other target, (Function.update phase me after other).claim.held = some target →
      other ≠ me ∧ (phase other).claim.held = some target := by
    intro other target held
    by_cases equal : other = me
    · rw [equal, Function.update_self, free] at held
      simp [Claim.held] at held
    · rw [Function.update_of_ne equal] at held
      exact ⟨equal, held⟩
  have unheard : ∀ event ∈ World.lostNews (world.attempt me), ∀ target,
      event ≠ .dispatched target ∧ isAccepted target event = false := by
    intro event member target
    generalize world.attempt me = attempt at member
    cases attempt <;> simp_all [World.lostNews, isAccepted]
  have told := quiet_news unheard inv.order inv.accepted
  constructor
  · intro a b target first second
    exact inv.single a b target (others a target first).2 (others b target second).2
  · intro target
    have before : Settled (world.deliveries.committed target) →
        Settled (world'.deliveries.committed target) := by
      rw [deliveries, Table.abort_committed]
      exact id
    rw [history, closed_append]
    rintro (⟨other, held⟩ | closed | closed)
    · exact before (inv.settled target (.inl ⟨other, (others other target held).2⟩))
    · exact before (inv.settled target (.inr closed))
    · exact before (inv.settled target (.inl ⟨me, lost target closed⟩))
  · intro other target closed calling
    rw [history, closed_append] at closed
    have holds := calling.held
    obtain ⟨different, held⟩ := others other target holds
    rw [Function.update_of_ne different] at calling
    rcases closed with closed | closed
    · exact inv.ended other target closed calling
    · exact different (inv.single other me target held (lost target closed))
  · intro other target locking
    by_cases equal : other = me
    · rw [equal, Function.update_self, free] at locking
      simp at locking
    · rw [Function.update_of_ne equal] at locking ⊢
      obtain ⟨version, drafted, flushed⟩ := inv.flushes other target locking
      refine ⟨version, ?_, flushed⟩
      rw [deliveries]
      exact Slot.draft_abort_eq.mpr ⟨drafted, equal⟩
  · intro other target status recording
    by_cases equal : other = me
    · rw [equal, Function.update_self, free] at recording
      simp at recording
    · rw [Function.update_of_ne equal] at recording
      exact inv.records other target status recording
  · intro target owner version drafted
    rw [deliveries] at drafted ⊢
    obtain ⟨before, different⟩ := Slot.draft_abort_eq.mp drafted
    rw [Function.update_of_ne different, Table.abort_committed]
    exact inv.drafts target owner version before
  · intro other
    rw [attempt]
    by_cases equal : other = me
    · rw [equal, Function.update_self, Function.update_self, free]
      rfl
    · rw [Function.update_of_ne equal, Function.update_of_ne equal]
      exact inv.mirrored other
  · rw [history]
    exact told.1
  · rw [history]
    exact told.2

/-- What a session's commit publishes of a delivery that others hold or that is closed. -/
theorem ClaimInv.publish (inv : ClaimInv world phase) (settled : Settled (world.deliveries.committed delivery))
    (records : (phase me).claim ≠ .recording delivery .failed) :
    Settled ((world.deliveries.commit me).committed delivery) := by
  by_cases mine : ∃ version, (world.deliveries.slot delivery).draft = some (me, version)
  · obtain ⟨version, drafted⟩ := mine
    obtain ⟨row, rfl, shape⟩ := inv.drafts delivery me version drafted
    rw [Table.committed_commit_of_draft drafted]
    cases shape with
    | prepared vacant status => exact (settled.not_vacant vacant).elim
    | locked vacant mine claimable => exact (settled.not_vacant vacant).elim
    | flushed vacant mine status => exact (settled.not_vacant vacant).elim
    | expired stored present running status => exact ⟨row, rfl, .inr (.inl status)⟩
    | recording mine =>
      have status := inv.records me delivery row.status mine
      rcases status with failed | completed | unknown
      · rw [failed] at mine
        exact absurd mine records
      · exact ⟨row, rfl, .inr (.inr completed)⟩
      · exact ⟨row, rfl, .inr (.inl unknown)⟩
  · rw [Table.committed_commit_of_not_mine fun version drafted => mine ⟨version, drafted⟩]
    exact settled

/-- The claim that a flush opens: nobody else had it. -/
theorem ClaimInv.flushed_vacant (inv : ClaimInv world phase) (flushed : (phase me).claim = .flushed delivery) :
    Vacant (world.deliveries.committed delivery) ∧
      ∃ row, (world.deliveries.commit me).committed delivery = some row ∧ row.status = .inProgress := by
  obtain ⟨version, drafted, -, running⟩ := inv.flushes me delivery (.inr flushed)
  have status := running flushed
  obtain ⟨row, same, shape⟩ := inv.drafts delivery me _ drafted
  cases same
  refine ⟨?_, version, Table.committed_commit_of_draft drafted, status⟩
  cases shape with
  | prepared vacant _ => exact vacant
  | locked vacant _ _ => exact vacant
  | flushed vacant _ _ => exact vacant
  | expired _ _ _ unknown => simp [unknown] at status
  | recording mine => simp [flushed] at mine

/-- A commit: a flushed claim becomes exclusive, a recorded one is given back. -/
theorem ClaimInv.commit (inv : ClaimInv world phase)
    (deliveries : world'.deliveries = world.deliveries.commit me)
    (history : world'.history = world.history ++ World.attemptNews (world.attempt me))
    (attempt : world'.attempt =
      Function.update world.attempt me (World.attemptCommitted (world.attempt me)))
    (committable : (phase me).claim.Committable) (ready : (phase me).connection = .ready)
    (claim : after.claim = (phase me).claim.committed) :
    ClaimInv world' (Function.update phase me after) := by
  have gained : ∀ target, after.claim.held = some target → (phase me).claim = .flushed target := by
    intro target held
    rw [claim] at held
    generalize (phase me).claim = before at held committable
    cases before <;> simp_all [Claim.committed, Claim.held, Claim.Committable]
  have unheard : ∀ event ∈ World.attemptNews (world.attempt me), ∀ target,
      event ≠ .dispatched target ∧ isAccepted target event = false ∧ closes target event = false := by
    intro event member target
    generalize world.attempt me = attempt at member
    cases attempt <;> simp_all [World.attemptNews, isAccepted, closes]
  have closed_same : ∀ target, Closed world'.history target → Closed world.history target := by
    intro target closed
    rw [history, closed_append] at closed
    rcases closed with closed | ⟨event, member, closing⟩
    · exact closed
    · simp [(unheard event member target).2.2] at closing
  have told := quiet_news (fun event member target =>
    ⟨(unheard event member target).1, (unheard event member target).2.1⟩) inv.order inv.accepted
  have unheld : ∀ other target, other ≠ me → (phase other).claim.held = some target →
      (phase me).claim ≠ .flushed target := by
    intro other target _ held flushed
    exact (inv.settled target (.inl ⟨other, held⟩)).not_vacant (inv.flushed_vacant flushed).1
  constructor
  · intro a b target first second
    by_cases isA : a = me
    · by_cases isB : b = me
      · rw [isA, isB]
      · rw [isA, Function.update_self] at first
        rw [Function.update_of_ne isB] at second
        exact absurd (gained target first) (unheld b target isB second)
    · rw [Function.update_of_ne isA] at first
      by_cases isB : b = me
      · rw [isB, Function.update_self] at second
        exact absurd (gained target second) (unheld a target isA first)
      · rw [Function.update_of_ne isB] at second
        exact inv.single a b target first second
  · intro target holder
    rw [deliveries]
    rcases holder with ⟨other, held⟩ | closed
    · by_cases equal : other = me
      · rw [equal, Function.update_self] at held
        obtain ⟨row, published, running⟩ := (inv.flushed_vacant (gained target held)).2
        exact ⟨row, published, .inl running⟩
      · rw [Function.update_of_ne equal] at held
        refine inv.publish (inv.settled target (.inl ⟨other, held⟩)) fun recording => ?_
        exact equal (inv.single other me target held (by rw [recording]; rfl))
    · have before := closed_same target closed
      refine inv.publish (inv.settled target (.inr before)) fun recording => ?_
      exact inv.ended me target before ⟨ready, .inr (.inr recording)⟩
  · intro other target closed
    have before := closed_same target closed
    by_cases equal : other = me
    · rw [equal, Function.update_self]
      intro calling
      have holds := calling.held
      exact (inv.settled target (.inr before)).not_vacant (inv.flushed_vacant (gained target holds)).1
    · rw [Function.update_of_ne equal]
      exact inv.ended other target before
  · intro other target locking
    by_cases equal : other = me
    · rw [equal, Function.update_self, claim] at locking
      generalize (phase me).claim = before at locking committable
      cases before <;> simp_all [Claim.committed, Claim.Committable]
    · rw [Function.update_of_ne equal] at locking ⊢
      obtain ⟨version, drafted, flushed⟩ := inv.flushes other target locking
      refine ⟨version, ?_, flushed⟩
      rw [deliveries]
      exact Slot.draft_commit_eq.mpr ⟨drafted, equal⟩
  · intro other target status recording
    by_cases equal : other = me
    · rw [equal, Function.update_self, claim] at recording
      generalize (phase me).claim = before at recording
      cases before <;> simp_all [Claim.committed]
    · rw [Function.update_of_ne equal] at recording
      exact inv.records other target status recording
  · intro target owner version drafted
    rw [deliveries] at drafted ⊢
    obtain ⟨before, different⟩ := Slot.draft_commit_eq.mp drafted
    have theirs : ∀ latest, (world.deliveries.slot target).draft ≠ some (me, latest) := by
      intro latest mine
      rw [before] at mine
      cases mine
      exact different rfl
    rw [Function.update_of_ne different, Table.committed_commit_of_not_mine theirs]
    exact inv.drafts target owner version before
  · intro other
    rw [attempt]
    by_cases equal : other = me
    · rw [equal, Function.update_self, Function.update_self, claim, inv.mirrored]
      generalize (phase me).claim = before at committable
      cases before <;> simp_all [Claim.committed, Claim.attempt, World.attemptCommitted, Claim.Committable]
    · rw [Function.update_of_ne equal, Function.update_of_ne equal]
      exact inv.mirrored other
  · rw [history]
    exact told.1
  · rw [history]
    exact told.2

/-- A step that leaves the deliveries, the history and the claim of its session alone. -/
theorem ClaimInv.still (inv : ClaimInv world phase) (deliveries : world'.deliveries = world.deliveries)
    (history : world'.history = world.history) (attempt : world'.attempt = world.attempt)
    (claim : after.claim = (phase me).claim)
    (ready : after.connection = .ready → (phase me).connection = .ready) :
    ClaimInv world' (Function.update phase me after) := by
  refine inv.neutral deliveries history attempt (fun other => ?_) fun other => ?_
  · by_cases equal : other = me
    · rw [equal, Function.update_self, claim]
    · rw [Function.update_of_ne equal]
  · by_cases equal : other = me
    · rw [equal, Function.update_self]
      exact ready
    · rw [Function.update_of_ne equal]
      exact id

/-- An exception: a provider call that raised closes its delivery. -/
theorem ClaimInv.failed (inv : ClaimInv world phase) {stmt : Stmt} (allowed : (phase me).allow stmt) :
    ClaimInv (failed stmt world) (Function.update phase me { phase me with connection := .aborted }) := by
  have raised : ∀ target, (phase me).claim.held = some target →
      ClaimInv (world.happen [.raised target])
        (Function.update phase me { phase me with connection := .aborted }) := by
    intro target holding
    refine inv.happen rfl rfl rfl holding holding rfl (fun _ _ same => same) (fun other closing => ?_)
      (fun calling => by simp [MayCall] at calling) fun other called => by simp [isAccepted] at called
    exact ⟨by simpa [closes, eq_comm] using closing, fun calling => by simp [MayCall] at calling⟩
  unfold Source.ScheduledPush.failed
  split
  · next target sub payload =>
    rcases allowed with ⟨-, permitted⟩ | ⟨-, rollback⟩
    · exact raised target (by rw [show (phase me).claim = .claimed target from permitted]; rfl)
    · cases rollback
  · next target =>
    rcases allowed with ⟨-, permitted⟩ | ⟨-, rollback⟩
    · exact raised target (by rw [show (phase me).claim = .calling target from permitted]; rfl)
    · cases rollback
  · exact inv.still rfl rfl rfl rfl fun h => by simp at h

/-- With no claim open, what the session sees vacant is vacant. -/
theorem ClaimInv.vacant (inv : ClaimInv world phase) (free : (phase me).claim = .free)
    {found : Option ScheduledNotificationDelivery} (seen : world.deliveries.row me delivery = found)
    (claimable : Vacant found) : Vacant (world.deliveries.committed delivery) := by
  rcases inv.visible seen with committed | ⟨row, same, shape⟩
  · rw [committed]
    exact claimable
  · cases shape with
    | prepared vacant _ => exact vacant
    | locked vacant _ _ => exact vacant
    | flushed vacant _ _ => exact vacant
    | expired _ _ _ unknown =>
      have status := claimable row same
      simp [isClaimable, unknown] at status
    | recording mine => simp [free] at mine

/-- A draft made with no claim open. -/
theorem ClaimInv.prepare (inv : ClaimInv world phase) (free : (phase me).claim = .free)
    {version : ScheduledNotificationDelivery}
    (deliveries : world'.deliveries = world.deliveries.write me delivery (some version))
    (history : world'.history = world.history) (attempt : world'.attempt = world.attempt)
    (unlocked : (world.deliveries.slot delivery).lockedFor me = false)
    (shape : Shape .free delivery (world.deliveries.committed delivery) version) :
    ClaimInv world' (Function.update phase me (phase me)) := by
  have mirrored := inv.mirrored me
  refine inv.draft deliveries history ?_ unlocked rfl (by rw [free]; exact shape) (fun _ _ _ _ same => same)
    (fun other locking => by simp [free] at locking) (fun other status recording => by simp [free] at recording)
    fun _ calling => calling
  rw [attempt, ← mirrored, Function.update_eq_self]

/-- A sweep takes over a delivery in progress, whose outcome stays unknown. -/
theorem ClaimInv.expireClaim (inv : ClaimInv world phase) {target : DeliveryId} {choice : Choice}
    {reply : Reply (.expireClaim target)} (allowed : (phase me).allow (.expireClaim target))
    (done : Source.ScheduledPush.answer me (.expireClaim target) choice world = some (reply, world')) :
    ClaimInv world' (Function.update phase me ((phase me).next (.expireClaim target) (.ok reply))) := by
  have free : (phase me).claim = .free := (Phase.permitted allowed (by simp)).2
  obtain ⟨hit, deliveries, updated, rfl⟩ := updateDelivery_world done
  rcases Table.updateRow_cases updated with ⟨-, rfl⟩ | ⟨-, unlocked, version, seen, running, rfl⟩
  · exact inv.still rfl rfl rfl rfl id
  · have status : version.status = .inProgress := by simpa using running
    refine inv.prepare free rfl rfl rfl unlocked ?_
    rcases inv.visible seen with committed | ⟨row, same, shape⟩
    · exact .expired version committed status rfl
    · cases same
      cases shape with
      | prepared _ prepared => rcases prepared with prepared | prepared <;> simp [prepared] at status
      | locked _ mine _ => simp [free] at mine
      | flushed _ mine _ => simp [free] at mine
      | expired _ _ _ unknown => simp [unknown] at status
      | recording mine => simp [free] at mine

theorem ClaimInv.abandonDelivery (inv : ClaimInv world phase) {target : DeliveryId} {choice : Choice}
    {reply : Reply (.abandonDelivery target)} (allowed : (phase me).allow (.abandonDelivery target))
    (done : Source.ScheduledPush.answer me (.abandonDelivery target) choice world = some (reply, world')) :
    ClaimInv world' (Function.update phase me ((phase me).next (.abandonDelivery target) (.ok reply))) := by
  have free : (phase me).claim = .free := (Phase.permitted allowed (by simp)).2
  obtain ⟨hit, deliveries, updated, rfl⟩ := updateDelivery_world done
  rcases Table.updateRow_cases updated with ⟨-, rfl⟩ | ⟨-, unlocked, version, seen, claimable, rfl⟩
  · exact inv.still rfl rfl rfl rfl id
  · refine inv.prepare free rfl rfl rfl unlocked (.prepared ?_ (.inr rfl))
    refine inv.vacant free seen fun row same => ?_
    cases same
    exact claimable

theorem ClaimInv.insertDelivery (inv : ClaimInv world phase) {target : DeliveryId} {choice : Choice}
    {reply : Reply (.insertDelivery target)} (allowed : (phase me).allow (.insertDelivery target))
    (done : Source.ScheduledPush.answer me (.insertDelivery target) choice world = some (reply, world')) :
    ClaimInv world' (Function.update phase me ((phase me).next (.insertDelivery target) (.ok reply))) := by
  have free : (phase me).claim = .free := (Phase.permitted allowed (by simp)).2
  obtain ⟨⟨hit, deliveries⟩, inserted, same⟩ := Option.map_eq_some_iff.mp done
  cases same
  rcases Table.insertRow_cases inserted with ⟨-, rfl⟩ | ⟨-, unlocked, missing, rfl⟩
  · exact inv.still rfl rfl rfl rfl id
  · refine inv.prepare free rfl rfl rfl unlocked (.prepared ?_ (.inl rfl))
    exact inv.vacant free missing fun row same => by cases same

/-- A row that a worker locks is one that nobody has claimed. -/
theorem ClaimInv.lockClaimable (inv : ClaimInv world phase) {target : DeliveryId} {choice : Choice}
    {reply : Reply (.lockClaimable target)} (allowed : (phase me).allow (.lockClaimable target))
    (done : Source.ScheduledPush.answer me (.lockClaimable target) choice world = some (reply, world')) :
    ClaimInv world' (Function.update phase me ((phase me).next (.lockClaimable target) (.ok reply))) := by
  have free : (phase me).claim = .free := (Phase.permitted allowed (by simp)).2
  simp only [Source.ScheduledPush.answer] at done
  split at done
  · next row deliveries locked =>
    cases done
    rcases Table.lockRow_cases locked with ⟨missing, -⟩ | ⟨version, same, unlocked, seen, claimable, rfl⟩
    · cases missing
    · cases same
      have vacant := inv.vacant free seen fun found same => by cases same; exact claimable
      refine inv.draft rfl rfl rfl unlocked (by rw [free]; rfl) (.locked vacant rfl claimable) ?_ ?_ ?_ ?_
      · intro other _ committed version shape
        exact shape.of_other (by simp [free, Claim.attempt]) (by simp [free])
      · rintro other (same | same)
        · cases same
          exact ⟨rfl, fun _ => claimable, fun flushed => by cases flushed⟩
        · cases same
      · intro other status recording
        cases recording
      · rintro other ⟨-, calling | calling | calling⟩ <;> cases calling
  · cases done
    exact inv.still rfl rfl rfl rfl id

theorem ClaimInv.flushClaim (inv : ClaimInv world phase) {target : DeliveryId}
    {loaded : ScheduledNotificationDelivery} {choice : Choice}
    {reply : Reply (.flushClaim target loaded)} (allowed : (phase me).allow (.flushClaim target loaded))
    (done : Source.ScheduledPush.answer me (.flushClaim target loaded) choice world = some (reply, world')) :
    ClaimInv world' (Function.update phase me ((phase me).next (.flushClaim target loaded) (.ok reply))) := by
  have mine : (phase me).claim = .locked target := (Phase.permitted allowed (by simp)).2
  obtain ⟨version, drafted, claimable, -⟩ := inv.flushes me target (.inl mine)
  obtain ⟨row, same, shape⟩ := inv.drafts target me _ drafted
  cases same
  obtain ⟨hit, deliveries, updated, rfl⟩ := updateDelivery_world done
  obtain ⟨-, unlocked, rfl⟩ := Table.updateRow_of_row (Slot.row_of_draft drafted) rfl updated
  have vacant : Vacant (world.deliveries.committed target) := by
    cases shape with
    | prepared vacant _ => exact vacant
    | locked vacant _ _ => exact vacant
    | flushed vacant _ _ => exact vacant
    | expired _ _ _ unknown =>
      have status := claimable mine
      simp [isClaimable, unknown] at status
    | recording recorded => simp [mine] at recorded
  refine inv.draft rfl rfl ?_ unlocked (by rw [mine]; rfl) (.flushed vacant rfl rfl) ?_ ?_ ?_ ?_
  · have attempt : world.attempt me = .claiming target := by rw [inv.mirrored, mine]; rfl
    exact (Function.update_eq_self_iff.mpr attempt.symm).symm
  · intro other different committed version shape
    exact shape.of_other (by simp [mine, Claim.attempt, Ne.symm different]) (by simp [mine])
  · rintro other (same | same)
    · cases same
    · cases same
      exact ⟨rfl, fun locked => (by cases locked), fun _ => rfl⟩
  · intro other status recording
    cases recording
  · rintro other ⟨-, calling | calling | calling⟩ <;> cases calling

/-- Only who holds a claim records, and a row that is there. -/
theorem ClaimInv.recordResult (inv : ClaimInv world phase) {target : DeliveryId}
    {status : DeliveryStatus} {code : Option Nat} {choice : Choice}
    {reply : Reply (.recordResult target status code)}
    (allowed : (phase me).allow (.recordResult target status code))
    (done : Source.ScheduledPush.answer me (.recordResult target status code) choice world =
      some (reply, world')) :
    ClaimInv world' (Function.update phase me
      ((phase me).next (.recordResult target status code) (.ok reply))) := by
  obtain ⟨ready, recordable⟩ := Phase.permitted allowed (by simp)
  have holding : (phase me).claim.held = some target := by
    rcases recordable with ⟨mine, -⟩ | ⟨mine, -⟩ | ⟨mine, -⟩ <;> rw [mine] <;> rfl
  obtain ⟨row, present, -⟩ := inv.settled target (.inl ⟨me, holding⟩)
  have found : ∃ version, world.deliveries.row me target = some version := by
    rcases @ClaimInv.visible world phase me target inv _ rfl with committed | ⟨version, seen, -⟩
    · exact ⟨row, by rw [← committed, present]⟩
    · exact ⟨version, seen⟩
  obtain ⟨version, seen⟩ := found
  obtain ⟨⟨answer, world₁⟩, stored, same⟩ := Option.map_eq_some_iff.mp done
  cases same
  obtain ⟨hit, deliveries, updated, rfl⟩ := updateDelivery_world stored
  obtain ⟨-, unlocked, rfl⟩ := Table.updateRow_of_row seen rfl updated
  refine inv.draft rfl rfl rfl unlocked (by rw [holding]; rfl) (.recording rfl) ?_ ?_ ?_ ?_
  · intro other _ committed version shape
    refine shape.of_other ?_ ?_
    · rcases recordable with ⟨mine, -⟩ | ⟨mine, -⟩ | ⟨mine, -⟩ <;> simp [mine, Claim.attempt]
    · rcases recordable with ⟨mine, -⟩ | ⟨mine, -⟩ | ⟨mine, -⟩ <;> simp [mine]
  · rintro other (same | same) <;> cases same
  · intro other recorded same
    cases same
    rcases recordable with ⟨-, rfl⟩ | ⟨-, rfl⟩ | ⟨-, rfl⟩ <;> simp
  · rintro other ⟨-, calling | calling | calling⟩ <;> cases calling
    rcases recordable with ⟨mine, -⟩ | ⟨-, same⟩ | ⟨-, same⟩
    · exact ⟨ready, .inl mine⟩
    · cases same
    · cases same

/-- Who calls holds the claim, committed. -/
theorem ClaimInv.dispatch (inv : ClaimInv world phase) {target : Option DeliveryId}
    {sub : PushSubscription} {payload : Payload} {choice : Choice}
    {reply : Reply (.dispatch target sub payload)} (allowed : (phase me).allow (.dispatch target sub payload))
    (done : Source.ScheduledPush.answer me (.dispatch target sub payload) choice world = some (reply, world')) :
    ClaimInv world' (Function.update phase me ((phase me).next (.dispatch target sub payload) (.ok reply))) := by
  cases done
  cases target with
  | none => exact inv.still rfl (List.append_nil _) rfl rfl id
  | some delivery =>
    obtain ⟨ready, mine⟩ := Phase.permitted allowed (by simp)
    replace mine : (phase me).claim = .claimed delivery := mine
    have calling : MayCall (phase me) delivery := ⟨ready, .inl mine⟩
    refine inv.happen rfl rfl rfl (by rw [mine]; rfl) rfl (by rw [mine]; rfl) ?_ ?_ (fun _ => calling) ?_
    · intro other status recording
      cases recording
    · intro other closing
      simp [closes] at closing
    · rintro other (same | accepted)
      · cases same
        exact calling
      · simp [isAccepted] at accepted

/-- An answer either leaves the claim held, or closes the delivery for good. -/
theorem ClaimInv.awaitAnswer (inv : ClaimInv world phase) {target : Option DeliveryId} {choice : Choice}
    {reply : Reply (.awaitAnswer target)} (allowed : (phase me).allow (.awaitAnswer target))
    (done : Source.ScheduledPush.answer me (.awaitAnswer target) choice world = some (reply, world')) :
    ClaimInv world' (Function.update phase me ((phase me).next (.awaitAnswer target) (.ok reply))) := by
  cases done
  cases target with
  | none => exact inv.still rfl (List.append_nil _) rfl rfl id
  | some delivery =>
    obtain ⟨ready, mine⟩ := Phase.permitted allowed (by simp)
    replace mine : (phase me).claim = .calling delivery := mine
    have calling : MayCall (phase me) delivery := ⟨ready, .inr (.inl mine)⟩
    have reached : ∀ answer : Bool × Option Nat,
        (Claim.answered delivery answer).held = some delivery ∧
          (Claim.answered delivery answer).attempt = .holding delivery ∧
          ∀ other status, Claim.answered delivery answer ≠ .recording other status := by
      rintro ⟨ok, code⟩
      cases ok <;> cases code <;> simp [Claim.answered, Claim.held, Claim.attempt]
    refine inv.happen rfl rfl rfl (by rw [mine]; rfl) (reached _).1 ?_ ?_ ?_ (fun _ => calling) ?_
    · rw [mine]
      exact (reached _).2.1
    · intro other status recording
      exact absurd recording ((reached _).2.2 other status)
    · intro other closing
      simp only [closes, decide_eq_true_eq] at closing
      obtain ⟨rfl, closing⟩ := closing
      refine ⟨rfl, fun still => ?_⟩
      generalize choice.answer = answer at closing still
      obtain ⟨ok, code⟩ := answer
      simp only [MayCall, Phase.next] at still
      cases ok <;> cases code <;> simp_all [Claim.answered]
    · rintro other (same | accepted)
      · cases same
      · simp only [isAccepted, decide_eq_true_eq] at accepted
        rw [← accepted.1]
        exact calling

/-- Every statement that a phase permits keeps the invariant. -/
theorem ClaimInv.answer (inv : ClaimInv world phase) {stmt : Stmt} {choice : Choice} {reply : Reply stmt}
    (allowed : (phase me).allow stmt) (done : answer me stmt choice world = some (reply, world')) :
    ClaimInv world' (Function.update phase me ((phase me).next stmt (.ok reply))) := by
  cases stmt with
  | utcNow | sleep | selectSent log | selectStaleLogs cutoff | selectDeliveries log statuses
  | selectStates log hashes | selectClaimable log hashes | countDeliveries log
  | selectActiveSubscriptions | selectOptedOut channel topic | insertSendLogs rows
  | deleteSubscriptions hashes =>
    cases done
    exact inv.still rfl rfl rfl rfl id
  | upsertLog log scheduledAt =>
    simp only [Source.ScheduledPush.answer] at done
    split at done
    · cases done
    · split at done
      · cases done
        exact inv.still rfl rfl rfl rfl id
      · cases done
        exact inv.still rfl rfl rfl rfl id
  | refreshLog log =>
    obtain ⟨row, seen, same⟩ := Option.map_eq_some_iff.mp done
    cases same
    exact inv.still rfl rfl rfl rfl id
  | flushLog log loaded latest =>
    obtain ⟨⟨hit, world₁⟩, updated, same⟩ := Option.map_eq_some_iff.mp done
    obtain ⟨logs, -, rfl⟩ := updateLog_world updated
    cases same
    refine inv.still rfl rfl rfl ?_ ?_
    all_goals
      simp only [Phase.next]
      split <;> first | rfl | exact id
  | takeStaleLog log cutoff =>
    obtain ⟨⟨hit, world₁⟩, updated, same⟩ := Option.map_eq_some_iff.mp done
    obtain ⟨logs, -, rfl⟩ := updateLog_world updated
    cases same
    cases reply with
    | false => exact inv.still rfl rfl rfl rfl id
    | true => exact inv.still rfl rfl rfl rfl id
  | lockStaleLog log cutoff =>
    simp only [Source.ScheduledPush.answer] at done
    split at done
    · cases done
      exact inv.still rfl rfl rfl rfl id
    · cases done
      exact inv.still rfl rfl rfl rfl id
  | finishLog log counts =>
    obtain ⟨⟨hit, world₁⟩, updated, same⟩ := Option.map_eq_some_iff.mp done
    obtain ⟨logs, -, rfl⟩ := updateLog_world updated
    cases same
    exact inv.still rfl rfl rfl rfl id
  | expireClaim target => exact inv.expireClaim allowed done
  | abandonDelivery target => exact inv.abandonDelivery allowed done
  | insertDelivery target => exact inv.insertDelivery allowed done
  | lockClaimable target => exact inv.lockClaimable allowed done
  | flushClaim target loaded => exact inv.flushClaim allowed done
  | recordResult target status code => exact inv.recordResult allowed done
  | dispatch target sub payload => exact inv.dispatch allowed done
  | awaitAnswer target => exact inv.awaitAnswer allowed done
  | commit =>
    cases done
    obtain ⟨ready, committable⟩ := Phase.permitted allowed (by simp)
    exact inv.commit rfl rfl rfl committable ready rfl
  | rollback =>
    cases done
    exact inv.rollback rfl rfl rfl rfl

end Steps

/-! ## Every interleaving -/

theorem answers_known {world world' : World} {me : SessionId} {stmt : Stmt} {choice : Choice}
    {reply : Reply stmt} (done : answer me stmt choice world = some (reply, world')) :
    Answers stmt reply := by
  cases stmt with
  | selectClaimable log hashes =>
    cases done
    refine ⟨world.deliveries.nodup.filter _, fun delivery member => ?_⟩
    have held := (List.mem_filter.mp member).2
    unfold Table.holds at held
    split at held
    · simp only [decide_eq_true_eq] at held
      exact ⟨held.1, held.2.1⟩
    · cases held
  | _ => trivial

theorem exec_known {world world' : World} {me : SessionId} {stmt : Stmt} {choice : Choice}
    {reply : Reply stmt}
    (done : Source.ScheduledPush.exec me stmt choice world = some (.ok reply, world')) :
    Answers stmt reply := by
  rcases exec_cases done with ⟨reason, -, same, -⟩ | ⟨answered, -, same, answers⟩
  · cases same
  · cases same
    exact answers_known answers

theorem claimInv_keeps : worker.Keeps machine (fun _ _ _ _ => True) ClaimInv where
  exec world phase me stmt choice reply world' inv _ allowed done := by
    have ticked := inv.tick choice.elapsed
    rcases exec_cases done with ⟨reason, -, rfl, rfl⟩ | ⟨answered, -, rfl, answers⟩
    · exact ticked.failed allowed
    · exact ticked.answer allowed answers
  known world phase me stmt choice reply world' _ done := exec_known done
  close world phase me inv := inv.rollback rfl rfl rfl rfl
  crash world phase me inv := inv.rollback rfl rfl rfl rfl
  outside world phase change inv := by
    cases change with
    | tick seconds => exact inv.tick seconds
    | subscribe subscriptions => exact inv.neutral rfl rfl rfl (fun _ => rfl) fun _ => id
    | prefer preferences => exact inv.neutral rfl rfl rfl (fun _ => rfl) fun _ => id

theorem Fresh.claimInv {world : World} (fresh : Fresh world) (requests : SessionId → Option Request) :
    ClaimInv world (startPhase requests) where
  single a b delivery held := by simp [Claim.held] at held
  settled delivery holder := by
    rcases holder with ⟨me, held⟩ | ⟨event, member, _⟩
    · simp [Claim.held] at held
    · simp [fresh.history] at member
  ended me delivery closed := by
    obtain ⟨event, member, _⟩ := closed
    simp [fresh.history] at member
  flushes me delivery locking := by simp at locking
  records me delivery status recording := by simp at recording
  drafts delivery owner version drafted := by simp [fresh.deliveries delivery] at drafted
  mirrored me := by
    rw [startPhase_claim]
    exact fresh.attempt me
  order delivery := by simp [fresh.history]
  accepted delivery := by simp [fresh.history]

/-- Workers, batch senders and sweeps on any logs, interleaved statement by statement
with crashes, failures and any answers of the provider: no delivery is accepted twice,
and none is called again after a call that was accepted or ended uncertain. -/
theorem push_at_most_once (world : World) (requests : SessionId → Option Request) (fresh : Fresh world)
    (actions : List (Action machine)) (after : Config machine Unit)
    (reached : (start world requests).run actions = some after) : AtMostOnce after.world.history := by
  have begins := start_holds (fresh.claimInv requests)
  obtain ⟨phase, inv, -, -⟩ := claimInv_keeps.run begins (Config.meets_true _ actions) reached
  exact fun delivery => ⟨inv.accepted delivery, inv.order delivery⟩

/-! ## A crash during a call -/

def plainCrypto : Crypto where
  decryptStr := some
  sha256Hex := id

def subscriber : PushSubscription where
  memberId := some 1
  endpoint := "endpoint"
  endpointHash := "hash"
  p256dh := "key"
  auth := "auth"
  revokedAt := none

def meeting : Event where
  id := 7
  title := "meeting"
  location := none

def oneSubscriber : World :=
  .blank 1000 { rows := [subscriber], unique := by decide, hashed := by decide } []

/-- The workers below the number run the same event. -/
def meetingWorkers (count : Nat) (me : SessionId) : Option Request :=
  if me < count then some (.processSingleEvent plainCrypto meeting .d3) else none

/-- A worker crashes with its call under way; the next one takes the log over and does not call. -/
def crashDuringCall : List (Action machine) :=
  List.replicate 21 (.exec 0 {}) ++ [.crash 0, .outside (.tick 2000)] ++ List.replicate 25 (.exec 1 {})

set_option maxRecDepth 10000 in
theorem push_at_most_once_crash : ∃ after,
    (start oneSubscriber (meetingWorkers 2)).run crashDuringCall = some after ∧
    after.world.history = [.claimed ⟨⟨7, .d3⟩, "hash"⟩, .dispatched ⟨⟨7, .d3⟩, "hash"⟩,
      .lost ⟨⟨7, .d3⟩, "hash"⟩] ∧ AtMostOnce after.world.history := by
  have history : ((start oneSubscriber (meetingWorkers 2)).run crashDuringCall).map
      (fun after => after.world.history) = some [.claimed ⟨⟨7, .d3⟩, "hash"⟩,
        .dispatched ⟨⟨7, .d3⟩, "hash"⟩, .lost ⟨⟨7, .d3⟩, "hash"⟩] := by decide
  obtain ⟨after, reached, same⟩ := Option.map_eq_some_iff.mp history
  exact ⟨after, reached, same, push_at_most_once _ _ (fresh_blank _ _ _) _ _ reached⟩

end SogeconApp.Guarantees.ScheduledPush
