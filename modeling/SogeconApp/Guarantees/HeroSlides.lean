import Mathlib.Data.List.Infix
import SogeconApp.Guarantees.UnpublishedPosts
import SogeconApp.Library.Paging

/-!
# The hero slides are the first valid ones of a window

The slides are taken from the first `min (3 * limit) 50` enabled items, pinned and recently updated
ones first. The items whose target is missing, or is a post that the reader may not see, are left out,
and at most `limit` of the others are shown. An item behind the window is never shown, however many
items in the window are left out.
-/

namespace SogeconApp.Guarantees.HeroSlides

open Library Source.Posts Source.PublicReads

/-- `pinned DESC, updated_at DESC`. -/
def heroOrder : RowOrder HeroItem :=
  (RowOrder.ascending fun item : HeroItem => if item.pinned then 1 else 0).desc.thenBy
    (RowOrder.ascending HeroItem.updatedAt).desc

/-- The enabled items in their order. -/
def enabledInOrder (db : Db) : List HeroItem := heroOrder.sort (db.heroItems.filter HeroItem.enabled)

/-- The target is an existing event, or an existing post that the reader may see. -/
def Valid (db : Db) (now : Instant) (allowUnpublished : Bool) (item : HeroItem) : Prop :=
  (item.targetType = "event" ∧ ∃ event ∈ db.events, event.id = item.targetId) ∨
    (item.targetType = "post" ∧ ∃ post ∈ db.posts, post.id = item.targetId ∧
      (isPostPublic post now = true ∨ allowUnpublished = true))

instance (db : Db) (now : Instant) (allowUnpublished : Bool) : DecidablePred (Valid db now allowUnpublished) :=
  fun _ => inferInstanceAs (Decidable (_ ∨ _))

/-- The slides are those of the items, one each. -/
def SlidesOf (db : Db) (now : Instant) (allowUnpublished : Bool) (slides : List HeroSlide)
    (items : List HeroItem) : Prop :=
  slides.map some = items.map (slideOf db.posts db.events now allowUnpublished)

/-- The first valid items of a list. -/
def firstValid (db : Db) (now : Instant) (allowUnpublished : Bool) (limit : Nat) (items : List HeroItem) :
    List HeroItem :=
  (items.filter (Valid db now allowUnpublished ·)).take limit

def window (db : Db) (limit : Nat) : List HeroItem := (enabledInOrder db).take (min (limit * 3) 50)

def behindWindow (db : Db) (limit : Nat) : List HeroItem := (enabledInOrder db).drop (min (limit * 3) 50)

/-! ## The loop -/

section Loop

variable {slide : HeroItem → Option HeroSlide} {limit : Nat}

/-- The loop adds slides as long as there is room. -/
theorem collectSlides_eq (items : List HeroItem) (slides : List HeroSlide) (room : slides.length < limit) :
    collectSlides slide limit items slides = slides ++ (items.filterMap slide).take (limit - slides.length) := by
  induction items generalizing slides with
  | nil => simp [collectSlides]
  | cons item rest ih =>
    rw [collectSlides]
    cases shown : slide item with
    | none => rw [ih slides room, List.filterMap_cons_none shown]
    | some added =>
      have one : limit - slides.length = (limit - (slides ++ [added]).length) + 1 := by
        rw [List.length_append, List.length_singleton]
        omega
      rw [List.filterMap_cons_some shown, one, List.take_succ_cons]
      dsimp only
      split
      · rename_i full
        have none_left : limit - (slides ++ [added]).length = 0 := by omega
        rw [none_left, List.take_zero]
      · rename_i more
        rw [ih _ (by omega), List.append_assoc, List.singleton_append]

theorem map_filterMap {keep : HeroItem → Bool} (items : List HeroItem)
    (shown : ∀ item ∈ items, (slide item).isSome = keep item) :
    (items.filterMap slide).map some = (items.filter keep).map slide := by
  induction items with
  | nil => rfl
  | cons item rest ih =>
    have later := ih fun other member => shown other (List.mem_cons_of_mem _ member)
    have here := shown item List.mem_cons_self
    cases found : slide item with
    | none =>
      rw [found] at here
      rw [List.filterMap_cons_none found, List.filter_cons_of_neg (by simp [← here]), later]
    | some added =>
      rw [found] at here
      rw [List.filterMap_cons_some found, List.filter_cons_of_pos (by simp [← here]), List.map_cons,
        List.map_cons,
        later, found]

end Loop

/-! ## The queries -/

section Queries

variable {db : Db} {now : Instant} {allowUnpublished : Bool}

/-- Distinct times of update leave nothing for the database to choose. -/
theorem listHeroItems_eq (rules : ReadRules) (distinct : (db.heroItems.map HeroItem.updatedAt).Nodup)
    (limit : Nat) :
    listHeroItems rules db.heroItems limit 0 true = (enabledInOrder db).take limit := by
  have selected : selectWhere (fun item : HeroItem => .equals (some item.enabled) (some true)) db.heroItems =
      db.heroItems.filter HeroItem.enabled := by
    simp [selectWhere]
  have separates : heroOrder.Separates (db.heroItems.filter HeroItem.enabled) := by
    apply RowOrder.thenBy_separates
    apply RowOrder.desc_separates
    apply RowOrder.ascending_separates
    intro left member right member' same
    exact eq_of_key distinct (List.mem_filter.mp member).1 (List.mem_filter.mp member').1 same
  have arranged := (RowOrder.sort_arranges (heroOrder.thenBy rules.heroTie)
    (db.heroItems.filter HeroItem.enabled)).of_thenBy.eq_sort separates
  rw [listHeroItems, if_pos rfl, selected, page, List.drop_zero]
  exact congrArg (List.take limit) arranged

theorem find_getByIds {Row : Type} {key : Row → Int} {rows : List Row} (unique : (rows.map key).Nodup)
    {ids : List Int} {id : Int} (asked : id ∈ ids) :
    ((getByIds key rows ids).find? fun row => key row = id) = rows.find? fun row => key row = id := by
  apply find_eq_of_same (UnpublishedPosts.getByIds_key unique ids) unique fun _ found => of_decide_eq_true found
  intro row found
  rw [UnpublishedPosts.mem_getByIds, of_decide_eq_true found]
  exact ⟨And.left, fun member => ⟨member, asked⟩⟩

/-- For the items of the window the two lookups answer as the tables do. -/
theorem slideOf_fetched {items : List HeroItem} {item : HeroItem} (member : item ∈ items) :
    slideOf (getPostsByIds db.posts (targetIds "post" items))
        (getEventsByIds db.events (targetIds "event" items)) now allowUnpublished item =
      slideOf db.posts db.events now allowUnpublished item := by
  have asked {targetType : String} (kind : item.targetType = targetType) :
      item.targetId ∈ targetIds targetType items :=
    List.mem_map_of_mem (List.mem_filter.mpr ⟨member, decide_eq_true kind⟩)
  unfold slideOf
  split
  · rename_i post
    rw [getPostsByIds, find_getByIds db.postKey (asked post)]
  · split
    · rename_i event
      rw [getEventsByIds, find_getByIds db.eventKey (asked event)]
    · rfl

theorem postSlide_isSome (item : HeroItem) (post : item.targetType = "post") :
    (slideOf db.posts db.events now allowUnpublished item).isSome = true ↔
      ∃ post ∈ db.posts, post.id = item.targetId ∧ (isPostPublic post now = true ∨ allowUnpublished = true) := by
  unfold slideOf
  rw [if_pos post]
  cases found : db.posts.find? fun row => decide (row.id = item.targetId) with
  | none =>
    have missing := List.find?_eq_none.mp found
    constructor
    · intro shown
      cases shown
    · intro ⟨row, member, same, _⟩
      exact absurd (decide_eq_true same) (missing row member)
  | some target =>
    have member := List.mem_of_find?_eq_some found
    have same : target.id = item.targetId := by simpa using List.find?_some found
    have only (row : Post) (listed : row ∈ db.posts) (id : row.id = item.targetId) : row = target :=
      eq_of_key db.postKey listed member (id.trans same.symm)
    have seen_iff : (∃ row ∈ db.posts, row.id = item.targetId ∧
        (isPostPublic row now = true ∨ allowUnpublished = true)) ↔
          isPostPublic target now = true ∨ allowUnpublished = true := by
      constructor
      · intro ⟨row, listed, id, seen⟩
        rwa [only row listed id] at seen
      · intro seen
        exact ⟨target, member, same, seen⟩
    rw [seen_iff]
    cases visible : isPostPublic target now <;> cases allowUnpublished <;> simp [visible]

/-- An item has a slide exactly when it is valid. -/
theorem slideOf_isSome (item : HeroItem) :
    (slideOf db.posts db.events now allowUnpublished item).isSome = true ↔
      Valid db now allowUnpublished item := by
  by_cases post : item.targetType = "post"
  · rw [postSlide_isSome item post]
    simp [Valid, post]
  · unfold slideOf Valid
    rw [if_neg post]
    by_cases event : item.targetType = "event"
    · rw [if_pos event, Option.isSome_map]
      simp [event]
    · rw [if_neg event]
      simp [event, post]

end Queries

/-! ## The window -/

section Window

variable {db : Db} {now : Instant} {allowUnpublished : Bool} {limit : Nat}

/-- The slides are those of the first valid items of the window. -/
theorem slides_of_window (rules : ReadRules) (distinct : (db.heroItems.map HeroItem.updatedAt).Nodup)
    (positive : 1 ≤ limit) :
    SlidesOf db now allowUnpublished (listHeroSlides rules db now limit allowUnpublished)
      (firstValid db now allowUnpublished limit (window db limit)) := by
  have shown : ∀ item ∈ window db limit,
      (slideOf db.posts db.events now allowUnpublished item).isSome =
        decide (Valid db now allowUnpublished item) := by
    intro item _
    rw [Bool.eq_iff_iff, decide_eq_true_iff]
    exact slideOf_isSome item
  have fetched : (window db limit).filterMap
    (slideOf (getPostsByIds db.posts (targetIds "post" (window db limit)))
      (getEventsByIds db.events (targetIds "event" (window db limit))) now allowUnpublished) =
        (window db limit).filterMap (slideOf db.posts db.events now allowUnpublished) :=
    List.filterMap_congr fun item member => slideOf_fetched member
  unfold listHeroSlides
  dsimp only
  rw [listHeroItems_eq rules distinct, ← window, collectSlides_eq _ _ positive, List.nil_append,
    SlidesOf, List.length_nil, Nat.sub_zero, fetched, List.map_take, map_filterMap _ shown, firstValid,
    List.map_take]

/-- The first valid items of the window are the first of all, unless the window has too few and leaves
some behind. -/
theorem firstValid_length_iff :
    (firstValid db now allowUnpublished limit (window db limit)).length =
        (firstValid db now allowUnpublished limit (enabledInOrder db)).length ↔
      limit ≤ ((window db limit).filter (Valid db now allowUnpublished ·)).length ∨
        ∀ item ∈ behindWindow db limit, ¬Valid db now allowUnpublished item := by
  have parts := List.take_append_drop (min (limit * 3) 50) (enabledInOrder db)
  have behind : ((behindWindow db limit).filter (Valid db now allowUnpublished ·)).length = 0 ↔
      ∀ item ∈ behindWindow db limit, ¬Valid db now allowUnpublished item := by
    simp
  have counted : ((enabledInOrder db).filter (Valid db now allowUnpublished ·)).length =
      ((window db limit).filter (Valid db now allowUnpublished ·)).length +
        ((behindWindow db limit).filter (Valid db now allowUnpublished ·)).length := by
    rw [window, behindWindow, ← List.length_append, ← List.filter_append, parts]
  rw [firstValid, firstValid, List.length_take, List.length_take, counted, ← behind]
  omega

theorem firstValid_prefix :
    firstValid db now allowUnpublished limit (window db limit) <+:
      firstValid db now allowUnpublished limit (enabledInOrder db) := by
  have within : (window db limit).filter (Valid db now allowUnpublished ·) <+:
      (enabledInOrder db).filter (Valid db now allowUnpublished ·) := (List.take_prefix _ _).filter _
  exact within.take limit

end Window

/-- Three recent items whose events were deleted, and an older one whose event exists. -/
def buried : Db where
  posts := []
  comments := []
  events := [⟨10, "lecture", none⟩]
  heroItems :=
    [⟨1, "event", 10, true, false, none, none, none, 1⟩, ⟨2, "event", 20, true, false, none, none, none, 2⟩,
      ⟨3, "event", 30, true, false, none, none, none, 3⟩, ⟨4, "event", 40, true, false, none, none, none, 4⟩]
  authors := []
  postKey := List.nodup_nil
  commentKey := List.nodup_nil
  eventKey := by decide
  heroItemKey := by decide
  authorKey := List.nodup_nil
  commentPost := by simp

end SogeconApp.Guarantees.HeroSlides
