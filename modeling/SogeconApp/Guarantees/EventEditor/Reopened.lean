import SogeconApp.Guarantees.EventEditor.Times

/-!
# The event editor opened again

The page does not tell its query of a save. For a minute after the event has been fetched the page opens
with the event as it was then, also if it has been saved since; and a save from there puts back every field
that is not edited again, whatever the row has become.
-/

namespace SogeconApp.Guarantees.EventEditor

open Library
open Source Source.EventEditor Source.EventEditor.World
open EventTimes (Event)

variable {browser : Browser} {cached : Cached} {world next after : World} {edits : List Edit}

/-- The edits since the page was opened. -/
def typed (edits : List Edit) : Action → List Edit
  | .openPage => []
  | .edit change => edits ++ [change]
  | _ => edits

def FreshAt (cached : Cached) (world : World) (_ : Action) : Prop := world.now < cached.updatedAt + staleTime

instance (cached : Cached) (world : World) (action : Action) : Decidable (FreshAt cached world action) :=
  inferInstanceAs (Decidable (_ < _))

/-- The query rests, and a page has the event that was fetched, with the edits since it was opened. -/
structure Pinned (cached : Cached) (world : World) (edits : List Edit) : Prop where
  held : world.cache = some cached
  idle : world.fetch = none
  shows : ∀ page, world.page = some page → page.form = edits.foldl FormState.edit (formOf cached.data)

theorem fetched_eq (held : world.cache = some cached) (fresh : world.now < cached.updatedAt + staleTime) :
    world.fetched = world := by
  have stale : cached.isStale world.now = false := by
    rw [Cached.isStale, decide_eq_false_iff_not]
    omega
  rw [fetched, held, if_neg]
  simp [stale]

/-- A step that leaves the query alone, and a page its form. -/
theorem Pinned.of_page (pinned : Pinned cached world edits) (cache : next.cache = world.cache)
    (fetch : next.fetch = world.fetch)
    (forms : ∀ after, next.page = some after → ∃ before, world.page = some before ∧ after.form = before.form) :
    Pinned cached next edits := by
  refine ⟨cache.trans pinned.held, fetch.trans pinned.idle, ?_⟩
  intro after is
  obtain ⟨before, was, same⟩ := forms after is
  rw [same]
  exact pinned.shows before was

theorem formShown_eq {page : Page} (shown : world.formShown = some page) : world.page = some page := by
  unfold formShown at shown
  split at shown
  · exact shown
  · cases shown

theorem step_pinned {action : Action} (pinned : Pinned cached world edits)
    (fresh : FreshAt cached world action) (steps : step browser world action = some next) :
    Pinned cached next (typed edits action) := by
  have same : ∀ after, world.page = some after → ∃ before, world.page = some before ∧ after.form = before.form :=
    fun after is => ⟨after, is, rfl⟩
  cases action with
  | wait duration =>
    cases steps
    exact pinned.of_page rfl rfl same
  | write row =>
    cases steps
    exact pinned.of_page rfl rfl same
  | openPage =>
    simp only [step] at steps
    split at steps
    · rw [@fetched_eq cached] at steps
      · cases steps
        refine ⟨pinned.held, pinned.idle, ?_⟩
        intro page is
        cases is
        simp [typed, pinned.held]
      · exact pinned.held
      · exact fresh
    · cases steps
  | leave =>
    obtain ⟨page, -, rfl⟩ := Option.map_eq_some_iff.mp steps
    exact ⟨pinned.held, pinned.idle, by simp⟩
  | reconnect =>
    obtain ⟨page, -, rfl⟩ := Option.map_eq_some_iff.mp steps
    rw [fetched_eq pinned.held fresh]
    exact pinned.of_page rfl rfl same
  | answer =>
    rw [step, pinned.idle, if_neg (by simp)] at steps
    cases steps
  | arrive =>
    rw [step, pinned.idle] at steps
    cases steps
  | fetchFails =>
    rw [step, pinned.idle] at steps
    cases steps
  | edit change =>
    obtain ⟨page, shown, rfl⟩ := Option.map_eq_some_iff.mp steps
    refine ⟨pinned.held, pinned.idle, ?_⟩
    intro edited is
    cases is
    rw [typed, List.foldl_append, ← pinned.shows page (formShown_eq shown)]
    rfl
  | save =>
    obtain ⟨page, shown, steps⟩ := Option.bind_eq_some_iff.mp steps
    split at steps
    · cases steps
    split at steps
    · cases steps
      exact pinned
    · cases steps
      refine pinned.of_page rfl rfl ?_
      intro pending is
      cases is
      exact ⟨page, formShown_eq shown, rfl⟩
  | update index =>
    obtain ⟨mutation, -, steps⟩ := Option.bind_eq_some_iff.mp steps
    split at steps
    · split at steps
      · cases steps
        exact pinned.of_page rfl rfl same
      · cases steps
        exact pinned.of_page rfl rfl same
    · cases steps
  | succeed index =>
    obtain ⟨mutation, -, steps⟩ := Option.bind_eq_some_iff.mp steps
    split at steps
    · cases steps
      exact ⟨pinned.held, pinned.idle, by simp⟩
    · cases steps
  | fail index =>
    obtain ⟨mutation, -, rfl⟩ := Option.map_eq_some_iff.mp steps
    refine pinned.of_page rfl rfl ?_
    intro page is
    change (if mutation.opening = world.openings then
      world.page.map fun page => { page with isPending := false } else world.page) = some page at is
    split at is
    · obtain ⟨before, was, rfl⟩ := Option.map_eq_some_iff.mp is
      exact ⟨before, was, rfl⟩
    · exact ⟨page, is, rfl⟩
  | collect =>
    rw [step, pinned.held] at steps
    split at steps
    · next old =>
      simp only [Option.any_some, decide_eq_true_eq] at old
      unfold FreshAt at fresh
      unfold staleTime at fresh
      unfold gcTime at old
      omega
    · cases steps

/-- What the API makes of what the page sends. -/
theorem savedRow_eq_some {form : FormState} {payload : UpdateEventPayload} {row stored : Event}
    (enabled : isFormDisabled form false = false) (sends : updatePayload browser form = some payload) :
    savedRow browser form row = some stored ↔ updateAdminEvent (some row) payload = .ok stored := by
  rw [savedRow, enabled, if_neg (by decide), sends, Option.bind_some]
  cases updateAdminEvent (some row) payload with
  | error reason => simp [Except.toOption]
  | ok saved => simp [Except.toOption]

/-- A save of a form as it was loaded, over whatever row it finds. -/
theorem save_unedited {page : Page} (shown : world.page = some page) (unedited : page.form = formOf cached.data)
    (steps : step browser world .save = some next) :
    ∃ mutation, next.mutations = world.mutations ++ [mutation] ∧ ∀ row stored,
      updateAdminEvent (some row) mutation.payload = .ok stored ↔
        savedRow browser (formOf cached.data) cached.data = some stored := by
  obtain ⟨found, shown', steps⟩ := Option.bind_eq_some_iff.mp steps
  rw [formShown_eq shown', Option.some.injEq] at shown
  subst shown
  split at steps
  · cases steps
  · next enabled =>
    rw [unedited] at enabled steps
    have enabled' : isFormDisabled (formOf cached.data) false = false := by
      simp only [isFormDisabled, Bool.or_eq_true, not_or, Bool.not_eq_true] at enabled
      simp [isFormDisabled, enabled]
    split at steps
    · next throws =>
      rw [payload_formOf] at throws
      cases throws
    · next payload sends =>
      cases steps
      refine ⟨_, rfl, ?_⟩
      intro row stored
      rw [← savedRow_eq_some enabled' sends, savedRow_formOf, savedRow_formOf]

/-- As long as the event is fresh, the page opens with the event as it was fetched, whatever has been saved
or written since; and an update that the page sends from there unedited stores, over any row, the event as it
was fetched, with its times as the page has shown them. -/
theorem reopened_is_pinned {actions : List Action} (held : world.cache = some cached)
    (idle : world.fetch = none) (closed : world.page = none)
    (fresh : Throughout (step browser) (FreshAt cached) world actions)
    (runs : world.run browser actions = some after) :
    after.cache = some cached ∧ ∀ page, after.page = some page →
      page.form = (actions.foldl typed []).foldl FormState.edit (formOf cached.data) ∧
        (actions.foldl typed [] = [] → ∀ next, step browser after .save = some next →
          ∃ mutation, next.mutations = after.mutations ++ [mutation] ∧ ∀ row stored,
            updateAdminEvent (some row) mutation.payload = .ok stored ↔
              savedRow browser (formOf cached.data) cached.data = some stored) := by
  have start : Pinned cached world [] := ⟨held, idle, by simp [closed]⟩
  have pinned := @Throughout.simulates _ _ _ (step browser) world after (FreshAt cached) actions typed
    (Pinned cached) [] (fun kept here steps => step_pinned kept here steps) fresh start runs
  refine ⟨pinned.held, fun page shown => ⟨pinned.shows page shown, fun unedited next steps => ?_⟩⟩
  refine save_unedited shown ?_ steps
  rw [pinned.shows page shown, unedited]
  rfl

/-- The event has just been fetched. -/
def arrived : World where
  now := 0
  row := some gathering
  cache := some { data := gathering, updatedAt := 0 }

/-- The title is corrected, and half a minute later the page is opened again. -/
def correction : List Action :=
  [.openPage, .edit (.title "reunion"), .save, .update 0, .succeed 0, .wait 30000, .openPage]

/-- The page shows the title of before, and a save there sends it. -/
theorem reopened_is_pinned_corrected :
    ∃ after page next, arrived.run seoul correction = some after ∧
      (after.row.map fun row => row.title.val) = some "reunion" ∧ after.page = some page ∧
        page.form = formOf gathering ∧ step seoul after .save = some next ∧
          ∃ mutation, next.mutations = after.mutations ++ [mutation] ∧ ∀ row stored,
            updateAdminEvent (some row) mutation.payload = .ok stored ↔
              savedRow seoul (formOf gathering) gathering = some stored := by
  have fresh : Throughout (step seoul) (FreshAt { data := gathering, updatedAt := 0 }) arrived correction := by
    decide +kernel
  have reached : (arrived.run seoul correction).isSome = true := by decide +kernel
  have title : ((arrived.run seoul correction).bind (·.row)).map (·.title.val) = some "reunion" := by
    decide +kernel
  have open_ : ((arrived.run seoul correction).bind (·.page)).isSome = true := by decide +kernel
  have saves : ((arrived.run seoul correction).bind fun after => step seoul after .save).isSome = true := by
    decide +kernel
  obtain ⟨after, runs⟩ := Option.isSome_iff_exists.mp reached
  rw [runs, Option.bind_some] at title open_ saves
  obtain ⟨page, shown⟩ := Option.isSome_iff_exists.mp open_
  obtain ⟨next, steps⟩ := Option.isSome_iff_exists.mp saves
  obtain ⟨form, sent⟩ := (reopened_is_pinned rfl rfl rfl fresh runs).2 page shown
  exact ⟨after, page, next, runs, title, shown, form, steps, sent rfl next steps⟩

end SogeconApp.Guarantees.EventEditor
