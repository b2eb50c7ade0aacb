import SogeconApp.Guarantees.ListingPages

/-!
# Loading all events

The web asks for one page of the events after the other until a page is not full. On an unchanged table
the loop ends. It returns every event exactly once, however each query orders its ties, if and only if
no page ends between two events that start at the same instant.
-/

namespace SogeconApp.Guarantees.EventPages

open Library Source.Listings ListingPages

section Loop

variable {Row : Type} {loadPage : (limit offset : Nat) → List Row} {pageSize : Nat}

/-- The loop is the stepping through the pages, put together. -/
theorem loadAllEvents_eq_fetchPages (fuel : Nat) (events : List Row) (offset : Nat) :
    loadAllEvents loadPage pageSize fuel events offset =
      (fetchPages pageSize (loadPage pageSize) fuel offset).map fun pages => events ++ pages.flatten := by
  induction fuel generalizing events offset with
  | zero => rfl
  | succ fuel ih =>
    simp only [loadAllEvents, fetchPages, getNextPageParam]
    by_cases short : (loadPage pageSize offset).length < pageSize
    · simp [short]
    · rw [if_neg short, if_neg short]
      simp only [ih, Option.map_map, Function.comp_def, List.flatten_cons, List.append_assoc]

end Loop

section Events

variable {table : EventTable} {pageSize : Nat} {loadPage : (limit offset : Nat) → List EventRow} {fuel : Nat}

/-- However the queries order their ties, the loop returns the events, each once. -/
def LoadsAllEvents (table : EventTable) (pageSize : Nat) : Prop :=
  ∀ loadPage : (limit offset : Nat) → List EventRow,
    (∀ limit offset, ListsEvents table limit offset (loadPage limit offset)) →
    ∀ fuel, table.events.length / pageSize < fuel →
      ∃ events, loadAllEvents loadPage pageSize fuel [] 0 = some events ∧ events.Perm table.events

/-- The loop ends with the first page that is not full. -/
theorem loadAllEvents_eq (positive : 1 ≤ pageSize)
    (lists : ∀ limit offset, ListsEvents table limit offset (loadPage limit offset))
    (enough : table.events.length / pageSize < fuel) :
    loadAllEvents loadPage pageSize fuel [] 0 =
      some ((List.range (table.events.length / pageSize + 1)).flatMap fun number =>
        loadPage pageSize (number * pageSize)) := by
  have lengths (offset : Nat) := (lists pageSize offset).length
  rw [loadAllEvents_eq_fetchPages, fetchPages_eq positive lengths enough, Option.map_some, List.nil_append,
    ← List.flatMap_def]

theorem loads_all_iff_ties (positive : 1 ≤ pageSize) :
    LoadsAllEvents table pageSize ↔ eventOrder.TiesOnOnePage table.events pageSize := by
  have unique : table.events.Nodup := .of_map _ table.idUnique
  rw [← RowOrder.answers_perm_iff positive unique (le_mul_pages positive)]
  constructor
  · intro complete answers admissible
    have enough := Nat.lt_succ_self (table.events.length / pageSize)
    -- Another page size is asked for nowhere in the loop.
    let loadPage (limit offset : Nat) : List EventRow :=
      if limit = pageSize then answers offset else page limit offset (eventOrder.sort table.events)
    have lists (limit offset : Nat) : ListsEvents table limit offset (loadPage limit offset) := by
      by_cases same : limit = pageSize
      · subst same
        simp only [loadPage, if_true]
        exact admissible offset
      · simpa only [loadPage, if_neg same] using ⟨_, RowOrder.sort_arranges _ _, rfl⟩
    obtain ⟨events, loaded, perm⟩ := complete loadPage lists _ enough
    rw [loadAllEvents_eq positive lists enough] at loaded
    cases loaded
    simpa only [loadPage, if_true] using perm
  · intro complete loadPage lists fuel enough
    exact ⟨_, loadAllEvents_eq positive lists enough, complete (loadPage pageSize) (lists pageSize)⟩

end Events

/-- The loop always ends, and it loads every event exactly once, however ties are ordered, exactly when
every tie is on one page. -/
theorem load_all_events_iff (table : EventTable) {pageSize : Nat} (positive : 1 ≤ pageSize) :
    (∀ loadPage : (limit offset : Nat) → List EventRow,
      (∀ limit offset, ListsEvents table limit offset (loadPage limit offset)) →
        ∃ fuel events, loadAllEvents loadPage pageSize fuel [] 0 = some events) ∧
    (LoadsAllEvents table pageSize ↔ eventOrder.TiesOnOnePage table.events pageSize) :=
  ⟨fun _ lists => ⟨_, _, loadAllEvents_eq positive lists (Nat.lt_succ_self _)⟩, loads_all_iff_ties positive⟩

/-- One more event than a page holds, all at one instant. -/
def openingDay : EventTable where
  events := (List.range 101).map fun id => { id, title := "booth", startsAt := 0, endsAt := 1 }
  idUnique := by decide +kernel

/-- With the web's page size, the queries can order the tie so that an event is missing. -/
theorem opening_day_is_split : ¬LoadsAllEvents openingDay 100 := by
  rw [loads_all_iff_ties (by decide)]
  decide +kernel

/-- On pages of one each, events of different instants are loaded completely. -/
theorem load_all_events_apart :
    LoadsAllEvents ⟨[⟨1, "lecture", 10, 11⟩, ⟨2, "dinner", 20, 22⟩, ⟨3, "outing", 30, 50⟩], by decide⟩ 1 :=
  (load_all_events_iff _ (by decide)).2.mpr (by decide)

end SogeconApp.Guarantees.EventPages
