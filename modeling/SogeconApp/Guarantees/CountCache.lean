import Mathlib.Tactic.Linarith
import SogeconApp.Guarantees.DirectoryVisibility
import SogeconApp.Source.CountCache

/-!
# The cache of member counts

Every count that is returned is one that the repository gave for the same filters no longer ago than the
lifetime of an entry, whatever calls overlap. Equal keys come from equal filters, a count for a viewer
passes the cache by, and the cache never holds more than its maximum.
-/

namespace SogeconApp.Guarantees.CountCache

open Library Source.CountCache DirectoryVisibility
open Source.Directory (Db DirectoryRules buildMemberConditions)

/-! ## Keys -/

variable {filters filters' : MemberListFilters}

theorem perm_items_of_cacheKey (same : cacheKey (some filters) = cacheKey (some filters')) :
    filters.items.Perm filters'.items := by
  have first := List.perm_insertionSort ItemLe filters.items
  have second := List.perm_insertionSort ItemLe filters'.items
  exact first.symm.trans ((List.Perm.of_eq same).trans second)

theorem normalize_flag {first second : Bool} :
    normalizeValue (.flag first) = normalizeValue (.flag second) ↔ first = second := by
  cases first <;> cases second <;> decide

/-- A numeral is read back from its digits. -/
theorem natural_injective {first second : Nat} (same : Nat.repr first = Nat.repr second) : first = second := by
  rw [Nat.repr_eq_ofList_toDigits, Nat.repr_eq_ofList_toDigits] at same
  have read := congrArg (Nat.ofDigitChars 10 · 0) (String.ofList_injective same)
  simpa only [Nat.ofDigitChars_ten_toDigits] using read

/-- The digits of a natural number hold no sign. -/
theorem natural_unsigned (first second : Nat) : Nat.repr first ≠ "-" ++ Nat.repr second := by
  intro same
  have chars := congrArg String.toList same
  rw [Nat.repr_eq_ofList_toDigits, String.toList_ofList, String.toList_append] at chars
  have sign : '-' ∈ Nat.toDigits 10 first := by simp [chars]
  exact absurd (Nat.isDigit_of_mem_toDigits (by decide) (by decide) sign) (by decide)

/-- Two integers with one numeral are the same. -/
theorem integer_injective {first second : Int} (same : Int.repr first = Int.repr second) : first = second := by
  cases first with
  | ofNat first =>
    cases second with
    | ofNat second => rw [natural_injective same]
    | negSucc second => exact absurd same (natural_unsigned first (second + 1))
  | negSucc first =>
    cases second with
    | ofNat second => exact absurd same.symm (natural_unsigned second (first + 1))
    | negSucc second =>
      have digits : Nat.repr (first + 1) = Nat.repr (second + 1) := (String.append_right_inj _).mp same
      rw [Nat.succ.inj (natural_injective digits)]

theorem normalize_number {first second : Int} :
    normalizeValue (.number first) = normalizeValue (.number second) ↔ first = second :=
  ⟨integer_injective, fun same => by rw [same]⟩

/-- A text is listed under a name if a field of that name has a value that the text stands for. -/
theorem mem_items {name text : String} :
    (name, text) ∈ filters.items ↔ ∃ value, (name, some value) ∈ filters.fields ∧
      normalizeValue value = text := by
  simp only [MemberListFilters.items, List.mem_filterMap, Prod.exists, Option.map_eq_some_iff, Prod.mk.injEq]
  constructor
  · rintro ⟨_, _, listed, value, rfl, rfl, rfl⟩
    exact ⟨value, listed, rfl⟩
  · rintro ⟨value, listed, rfl⟩
    exact ⟨name, some value, listed, value, rfl, rfl, rfl⟩

theorem mem_iff_lookup {α : Type} {pairs : List (String × α)} {name : String} {value : α}
    (unique : (pairs.map Prod.fst).Nodup) : (name, value) ∈ pairs ↔ pairs.lookup name = some value := by
  induction pairs with
  | nil => simp
  | cons head rest ih =>
    obtain ⟨first, held⟩ := head
    obtain ⟨new, apart⟩ := List.nodup_cons.mp unique
    rw [List.mem_cons, List.lookup_cons, Prod.mk.injEq, ih apart]
    by_cases same : name = first
    · subst same
      have none_ : rest.lookup name ≠ some value := fun found =>
        new (List.mem_map.mpr ⟨(name, value), (ih apart).mpr found, rfl⟩)
      simp [none_, eq_comm]
    · have different : (name == first) = false := beq_eq_false_iff_ne.mpr same
      simp [same, different]

/-- The text that stands for a field in the key. -/
def textOf (filters : MemberListFilters) (name : String) : Option String :=
  (filters.fields.lookup name).join.map normalizeValue

/-- Since the names are different, what a key lists under a name is the text of that field. -/
theorem mem_items_iff {name text : String} : (name, text) ∈ filters.items ↔ textOf filters name = some text := by
  have unique : (filters.fields.map Prod.fst).Nodup := by simp [MemberListFilters.fields]
  simp only [mem_items, mem_iff_lookup unique, textOf, Option.map_eq_some_iff, Option.join_eq_some_iff]

/-- Filters are determined by the texts that stand for their fields. -/
theorem eq_of_textOf (same : ∀ name, textOf filters name = textOf filters' name) : filters = filters' := by
  have texts (field field' : Option String)
      (same : (field.map FilterValue.text).map normalizeValue =
        (field'.map FilterValue.text).map normalizeValue) :
      field = field' := by simpa [Function.comp_def, normalizeValue] using same
  have numbers (field field' : Option Int)
      (same : (field.map FilterValue.number).map normalizeValue =
        (field'.map FilterValue.number).map normalizeValue) : field = field' := by
    rw [Option.map_map, Option.map_map] at same
    exact Option.map_injective (fun _ _ => normalize_number.mp) same
  have flags (field field' : Option Bool)
      (same : (field.map FilterValue.flag).map normalizeValue =
        (field'.map FilterValue.flag).map normalizeValue) : field = field' := by
    rw [Option.map_map, Option.map_map] at same
    exact Option.map_injective (fun _ _ => normalize_flag.mp) same
  have q := texts _ _ (same "q")
  have cohort := numbers _ _ (same "cohort")
  have major := texts _ _ (same "major")
  have company := texts _ _ (same "company")
  have industry := texts _ _ (same "industry")
  have region := texts _ _ (same "region")
  have excludePrivate := flags _ _ (same "exclude_private")
  have jobTitle := texts _ _ (same "job_title")
  have sort := texts _ _ (same "sort")
  cases filters
  cases filters'
  simp_all

/-- Filters with one key are the same, where no filters are empty ones. -/
theorem eq_of_cacheKey {first second : Option MemberListFilters} (same : cacheKey first = cacheKey second) :
    first.getD {} = second.getD {} := by
  have key (filters : Option MemberListFilters) : cacheKey filters = cacheKey (some (filters.getD {})) := by
    cases filters <;> rfl
  rw [key first, key second] at same
  have perm := perm_items_of_cacheKey same
  refine eq_of_textOf fun name => Option.ext fun text => ?_
  rw [← mem_items_iff, ← mem_items_iff, perm.mem_iff]

/-- Filters with the same key are counted alike, so an entry may answer for either of them. -/
theorem count_of_cacheKey {rules : DirectoryRules} {db : Db} {first second : Option MemberListFilters}
    (same : cacheKey first = cacheKey second) :
    repoCountMembers rules db first none = repoCountMembers rules db second none := by
  rw [repoCountMembers, repoCountMembers, eq_of_cacheKey same]

/-! ## What has been counted -/

section Runs

variable {rules : DirectoryRules} {moments moments' : List World} {world after : World}
  {filters : Option MemberListFilters} {viewer : Option String} {since since' : ℚ} {count number : Nat}
  {cache cache' : Cache} {key : Key} {call : Call} {answer : Answer} {action : Action}

/-- At one of the moments, no earlier than the given one, the repository gave the count. -/
def Counted (rules : DirectoryRules) (moments : List World) (filters : Option MemberListFilters)
    (viewer : Option String) (since : ℚ) (count : Nat) : Prop :=
  ∃ moment ∈ moments, since ≤ moment.clock ∧ count = repoCountMembers rules moment.db filters viewer

/-- A count that was given at one of some moments was given at one of more. -/
theorem Counted.mono (counted : Counted rules moments filters viewer since count) (more : moments ⊆ moments') :
    Counted rules moments' filters viewer since count := by
  obtain ⟨moment, member, late, same⟩ := counted
  exact ⟨moment, more member, late, same⟩

theorem Counted.earlier (counted : Counted rules moments filters viewer since count) (less : since' ≤ since) :
    Counted rules moments filters viewer since' count := by
  obtain ⟨moment, member, late, same⟩ := counted
  exact ⟨moment, member, less.trans late, same⟩

/-- A count may be as old as an entry of the cache, and one for a viewer no older than the call. -/
def oldest (answer : Answer) : ℚ :=
  match answer.viewerStudentId with
  | none => answer.now - memberCountCacheTtl
  | some _ => answer.now

def Fresh (rules : DirectoryRules) (moments : List World) (answer : Answer) : Prop :=
  Counted rules moments answer.filters answer.viewerStudentId (oldest answer) answer.count

/-- Every entry was counted for filters of its key, no earlier than it says. -/
def Holds (rules : DirectoryRules) (moments : List World) (cache : Cache) : Prop :=
  ∀ entry ∈ cache.entries, ∃ filters, cacheKey filters = entry.1 ∧
    Counted rules moments filters none entry.2.1 entry.2.2

/-- A call that waits was made before now, and what it has counted was counted since. -/
def Waits (rules : DirectoryRules) (moments : List World) (clock : ℚ) (call : Call) : Prop :=
  call.now ≤ clock ∧
    ∀ count ∈ call.counted, Counted rules moments call.filters call.viewerStudentId call.now count

structure Sound (rules : DirectoryRules) (moments : List World) (world : World) : Prop where
  holds : Holds rules moments world.cache
  waits : ∀ number call, world.calls number = some call → Waits rules moments world.clock call
  fresh : ∀ answer ∈ world.answers, Fresh rules moments answer
  size : world.cache.size ≤ memberCountCacheMax

theorem Sound.mono (sound : Sound rules moments world) (more : moments ⊆ moments') :
    Sound rules moments' world where
  holds entry member := by
    obtain ⟨filters, same, counted⟩ := sound.holds entry member
    exact ⟨filters, same, counted.mono more⟩
  waits number call waiting := by
    obtain ⟨made, counted⟩ := sound.waits number call waiting
    exact ⟨made, fun count found => (counted count found).mono more⟩
  fresh answer given := (sound.fresh answer given).mono more
  size := sound.size

/-! ## The cache -/

/-- What is found is an entry of the key that is younger than the lifetime, and its entry is moved to
the end. -/
theorem lookUp_spec {found : Nat × Cache} (hit : lookUp cache key since = some found) :
    ∃ stored, (key, stored, found.1) ∈ cache.entries ∧ since - stored < memberCountCacheTtl ∧
      found.2 = cache.moveToEnd key := by
  unfold lookUp at hit
  split at hit
  · next stored count listed =>
    split at hit
    · next young =>
      cases hit
      exact ⟨stored, OrderedDict.mem_of_get listed, young, rfl⟩
    · cases hit
  · cases hit

theorem holds_lookUp {found : Nat × Cache} (hit : lookUp cache key since = some found)
    (holds : Holds rules moments cache) : Holds rules moments found.2 := by
  obtain ⟨stored, -, -, moved⟩ := lookUp_spec hit
  rw [moved]
  exact fun entry member => holds entry (OrderedDict.mem_moveToEnd member)

/-- What is found was counted for the filters that are asked for, within the lifetime. -/
theorem counted_lookUp {found : Nat × Cache} (hit : lookUp cache (cacheKey filters) since = some found)
    (holds : Holds rules moments cache) :
    Counted rules moments filters none (since - memberCountCacheTtl) found.1 := by
  obtain ⟨stored, listed, young, -⟩ := lookUp_spec hit
  obtain ⟨others, same, moment, member, late, counted⟩ := holds _ listed
  refine ⟨moment, member, ?_, ?_⟩
  · have older : since - memberCountCacheTtl ≤ stored := by linarith
    exact older.trans late
  · exact counted.trans (count_of_cacheKey same)

/-- After a store an entry is the new one or was there before. -/
theorem mem_store {entry : Key × ℚ × Nat} (member : entry ∈ (store cache key since count).entries) :
    entry = (key, since, count) ∨ entry ∈ cache.entries := by
  unfold store at member
  extract_lets full at member
  have inFull : entry ∈ full.entries := by
    split at member
    · exact OrderedDict.mem_popFirst member
    · exact member
  exact OrderedDict.mem_set (OrderedDict.mem_moveToEnd inFull)

theorem size_store (small : cache.size ≤ memberCountCacheMax) :
    (store cache key since count).size ≤ memberCountCacheMax := by
  unfold store
  extract_lets full
  have grown : full.size ≤ memberCountCacheMax + 1 :=
    OrderedDict.size_moveToEnd_le.trans (OrderedDict.size_set_le.trans (by omega))
  split
  · rw [OrderedDict.size_popFirst]
    omega
  · omega

/-! ## One step -/

theorem sound_answer (sound : Sound rules moments world) (given : Fresh rules moments answer) :
    Sound rules moments (world.answer answer) where
  holds := sound.holds
  waits := sound.waits
  fresh other member := by
    rcases List.mem_cons.mp member with rfl | before
    · exact given
    · exact sound.fresh other before
  size := sound.size

theorem sound_waitFor (sound : Sound rules moments world) (waits : Waits rules moments world.clock call) :
    Sound rules moments (world.waitFor number call) where
  holds := sound.holds
  waits other waiting found := by
    by_cases same : other = number
    · subst same
      simp only [World.waitFor, Function.update_self, Option.some.injEq] at found
      rwa [← found]
    · simp only [World.waitFor, Function.update_of_ne same] at found
      exact sound.waits other waiting found
  fresh := sound.fresh
  size := sound.size

theorem sound_free (sound : Sound rules moments world) (number : Nat) :
    Sound rules moments { world with calls := Function.update world.calls number none } where
  holds := sound.holds
  waits other waiting found := by
    by_cases same : other = number
    · subst same
      simp only [Function.update_self] at found
      cases found
    · simp only [Function.update_of_ne same] at found
      exact sound.waits other waiting found
  fresh := sound.fresh
  size := sound.size

/-- A cache may take the place of another one if its entries were counted and are not too many. -/
theorem sound_cache (sound : Sound rules moments world) (holds : Holds rules moments cache)
    (size : cache.size ≤ memberCountCacheMax) : Sound rules moments { world with cache := cache } where
  holds := holds
  waits := sound.waits
  fresh := sound.fresh
  size := size

/-- A call that begins is answered from the cache, or waits for its count. -/
theorem sound_begin (sound : Sound rules moments world) :
    Sound rules moments (world.begin number filters viewer) := by
  have waiting : Sound rules moments
      (world.waitFor number { filters, viewerStudentId := viewer, now := world.clock }) := by
    refine sound_waitFor sound ⟨le_refl _, ?_⟩
    intro count found
    cases found
  unfold World.begin
  cases viewer with
  | some viewer => exact waiting
  | none =>
    dsimp only
    split
    · next count cache hit =>
      have smaller : cache.size ≤ memberCountCacheMax := by
        obtain ⟨-, -, -, moved⟩ := lookUp_spec hit
        have size : cache.size ≤ world.cache.size := by
          rw [show cache = _ from moved]
          exact OrderedDict.size_moveToEnd_le
        exact size.trans sound.size
      exact sound_cache (sound_answer sound (counted_lookUp hit sound.holds))
        (holds_lookUp hit sound.holds) smaller
    · exact waiting

/-- A call that finishes stores what it has counted, unless it is one for a viewer, and answers it. -/
theorem sound_complete (sound : Sound rules moments world) (waiting : world.calls number = some call)
    (found : call.counted = some count) : Sound rules moments (world.complete number call count) := by
  obtain ⟨made, counted⟩ := sound.waits number call waiting
  have counted := counted count found
  have given : Fresh rules moments ⟨call.filters, call.viewerStudentId, call.now, count⟩ := by
    refine counted.earlier ?_
    unfold oldest
    split
    · simp only [memberCountCacheTtl]
      linarith
    · exact le_refl _
  have done := sound_free (sound_answer sound given) number
  unfold World.complete
  cases viewer : call.viewerStudentId with
  | some student =>
    rw [viewer] at done
    exact done
  | none =>
    rw [viewer] at done counted
    refine sound_cache done ?_ (size_store sound.size)
    intro entry member
    rcases mem_store member with rfl | before
    · exact ⟨call.filters, rfl, counted⟩
    · exact sound.holds entry before

/-- The repository counts at this moment, which is no earlier than the call. -/
theorem sound_count (sound : Sound rules moments world) (here : world ∈ moments)
    (stepped : world.step rules (.count number) = some after) : Sound rules moments after := by
  simp only [World.step] at stepped
  split at stepped
  · next filters viewer now waiting =>
    cases stepped
    obtain ⟨made, -⟩ := sound.waits number _ waiting
    refine sound_waitFor sound ⟨made, ?_⟩
    intro count found
    cases found
    exact ⟨world, here, made, rfl⟩
  · cases stepped

theorem sound_wait (sound : Sound rules moments world) {time : ℚ} (forward : 0 ≤ time) :
    Sound rules moments { world with clock := world.clock + time } where
  holds := sound.holds
  waits number call waiting := by
    obtain ⟨made, counted⟩ := sound.waits number call waiting
    exact ⟨by linarith, counted⟩
  fresh := sound.fresh
  size := sound.size

theorem sound_step (sound : Sound rules moments world) (here : world ∈ moments)
    (stepped : world.step rules action = some after) : Sound rules moments after := by
  cases action with
  | call number filters viewer =>
    simp only [World.step] at stepped
    split at stepped
    · cases stepped
    · cases stepped
      exact sound_begin sound
  | count number => exact sound_count sound here stepped
  | finish number =>
    simp only [World.step] at stepped
    split at stepped
    · next call waiting =>
      obtain ⟨count, found, rfl⟩ := Option.map_eq_some_iff.mp stepped
      exact sound_complete sound waiting found
    · cases stepped
  | raise number =>
    simp only [World.step] at stepped
    split at stepped
    · cases stepped
      exact sound_free sound number
    · cases stepped
  | change db =>
    cases stepped
    exact ⟨sound.holds, sound.waits, sound.fresh, sound.size⟩
  | wait time =>
    simp only [World.step] at stepped
    split at stepped
    · next forward =>
      cases stepped
      exact sound_wait sound forward
    · cases stepped

/-! ## Whole runs -/

/-- The worlds of a run so far, the last one first. -/
inductive History (rules : DirectoryRules) : List World → Prop
  | started (db : Db) (clock : ℚ) : History rules [started db clock]
  | step {world after : World} {past : List World} {action : Action} (before : History rules (world :: past))
      (stepped : world.step rules action = some after) : History rules (after :: world :: past)

/-- In each state of a run the cache is sound, with regard to the moments of the run so far. -/
theorem sound_of_history {past : List World} (history : History rules (world :: past)) :
    Sound rules (world :: past) world := by
  generalize worlds : world :: past = moments at history
  induction history generalizing world past with
  | started db clock =>
    cases worlds
    exact ⟨by simp [Holds, started, OrderedDict.empty], by simp [started], by simp [started],
      by simp [started, OrderedDict.size, OrderedDict.empty]⟩
  | step before stepped ih =>
    cases worlds
    exact (sound_step (ih rfl) List.mem_cons_self stepped).mono (List.subset_cons_self _ _)

/-! ## Calls for a viewer -/

/-- The action is of a call for a viewer. -/
def OfViewer (world : World) : Action → Prop
  | .call _ _ viewer => viewer.isSome = true
  | .count number | .finish number | .raise number =>
    ∃ call, world.calls number = some call ∧ call.viewerStudentId.isSome = true
  | .change _ | .wait _ => False

/-- Whatever the cache holds, the step is the same, and leaves it as it is. -/
def PassesBy (rules : DirectoryRules) (world : World) (action : Action) : Prop :=
  ∀ cache, ({ world with cache := cache } : World).step rules action =
    (world.step rules action).map fun after => { after with cache := cache }

theorem begin_passesBy (viewer : String) (cache : Cache) :
    ({ world with cache := cache } : World).begin number filters (some viewer) =
      { world.begin number filters (some viewer) with cache := cache } := rfl

theorem complete_passesBy (ofViewer : call.viewerStudentId.isSome = true) (cache : Cache) :
    ({ world with cache := cache } : World).complete number call count =
      { world.complete number call count with cache := cache } := by
  obtain ⟨viewer, same⟩ := Option.isSome_iff_exists.mp ofViewer
  simp only [World.complete, World.answer, same]

/-- No action of a call for a viewer reads or changes the cache. -/
theorem viewer_passesBy (ofViewer : OfViewer world action) : PassesBy rules world action := by
  intro cache
  cases action with
  | call number filters viewer =>
    obtain ⟨viewer, rfl⟩ := Option.isSome_iff_exists.mp ofViewer
    simp only [World.step]
    cases world.calls number with
    | some waiting => rfl
    | none => rw [begin_passesBy, Option.map_some]
  | count number =>
    obtain ⟨⟨filters, viewer, now, counted⟩, waiting, -⟩ := ofViewer
    simp only [World.step, waiting]
    cases counted <;> rfl
  | finish number =>
    obtain ⟨call, waiting, viewer⟩ := ofViewer
    simp only [World.step, waiting]
    cases call.counted with
    | none => rfl
    | some count => exact congrArg some (complete_passesBy viewer cache)
  | raise number =>
    obtain ⟨call, waiting, -⟩ := ofViewer
    simp only [World.step, waiting, Option.map_some]
  | change db => exact ofViewer.elim
  | wait time => exact ofViewer.elim

end Runs

/-- Every answer of a run is fresh and the cache stays within its bound, equal keys select alike, and the
calls for a viewer pass the cache by. -/
theorem member_count_cache_sound (rules : DirectoryRules) :
    (∀ world past, History rules (world :: past) →
      (∀ answer ∈ world.answers, Fresh rules (world :: past) answer) ∧
        world.cache.size ≤ memberCountCacheMax) ∧
    (∀ first second, cacheKey first = cacheKey second → ∀ search members viewer row,
      buildMemberConditions search members (first.getD {}).read viewer row =
        buildMemberConditions search members (second.getD {}).read viewer row) ∧
    ∀ world action, OfViewer world action → PassesBy rules world action := by
  refine ⟨?_, ?_, fun _ _ => viewer_passesBy⟩
  · intro world past history
    have sound := sound_of_history history
    exact ⟨sound.fresh, sound.size⟩
  · intro first second same search members viewer row
    rw [eq_of_cacheKey same]

/-! ## Two counts of one filter -/

def everyone : Option MemberListFilters := some { excludePrivate := some false }

def asked : World := (started withHidden 0).begin 0 everyone none

def answered : Call where
  filters := everyone
  viewerStudentId := none
  now := 0
  counted := some 3

def served : World := (asked.waitFor 0 answered).complete 0 answered 3

/-- A member is gone, and half a minute is nearly over. -/
def later : World := { served with db := withoutHidden, clock := 0 + 29 }

def servedAgain : World := later.begin 1 everyone none

theorem servedAgain_reached :
    ∃ past, History plainRules (servedAgain :: past) := by
  have first : (started withHidden 0).step plainRules (.call 0 everyone none) = some asked := rfl
  have second : asked.step plainRules (.count 0) = some (asked.waitFor 0 answered) := by
    have three : repoCountMembers plainRules withHidden everyone none = 3 := by decide +kernel
    have counts : asked.step plainRules (.count 0) = some (asked.waitFor 0
        { answered with counted := some (repoCountMembers plainRules withHidden everyone none) }) := rfl
    rw [counts, three]
    rfl
  have third : (asked.waitFor 0 answered).step plainRules (.finish 0) = some served := rfl
  have fourth : served.step plainRules (.change withoutHidden) = some { served with db := withoutHidden } := rfl
  have fifth : ({ served with db := withoutHidden } : World).step plainRules (.wait 29) = some later := by
    have forward : (0 : ℚ) ≤ 29 := by decide +kernel
    rw [World.step, if_pos forward]
    rfl
  have sixth : later.step plainRules (.call 1 everyone none) = some servedAgain := rfl
  exact ⟨_, .step (.step (.step (.step (.step (.step (.started _ _) first) second) third) fourth) fifth) sixth⟩

/-- The second count is the one of before, as the cache has it. -/
theorem member_count_cache_sound_again :
    servedAgain.answers.map Answer.count = [3, 3] ∧
      ∃ past, (∀ answer ∈ servedAgain.answers, Fresh plainRules (servedAgain :: past) answer) ∧
        servedAgain.cache.size ≤ memberCountCacheMax ∧
          PassesBy plainRules servedAgain (.call 2 everyone (some "viewer")) := by
  obtain ⟨past, history⟩ := servedAgain_reached
  obtain ⟨runs, -, viewers⟩ := member_count_cache_sound plainRules
  obtain ⟨fresh, size⟩ := runs servedAgain past history
  exact ⟨by decide +kernel, past, fresh, size, viewers _ _ rfl⟩

end SogeconApp.Guarantees.CountCache
