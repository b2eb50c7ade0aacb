import SogeconApp.Source.Listings

/-!
# Pages that are exact

The public posts, the signup requests and the profile change requests are listed by orders that end
with the primary key, so no two rows tie. The pages of each, on an unchanged table, are one fixed list
of the matching rows in pieces, and the totals of the two queues are its length.
-/

namespace SogeconApp.Guarantees.QueuePages

open Library Source.Posts Source.Directory Source.Listings

/-- The pages of any size hold the selected rows exactly once and in one order. -/
def PagesExact {Row : Type} (selected : List Row) (lists : (limit offset : Nat) → List Row → Prop) : Prop :=
  ∃ fixed : List Row, fixed.Perm selected ∧ fixed.Nodup ∧
    ∀ (size : Nat) (queryFn : Nat → List Row), (∀ offset, lists size offset (queryFn offset)) →
      ∀ count, fixed.length ≤ count * size →
        ((List.range count).flatMap fun number => queryFn (number * size)) = fixed

/-- The same with a total on every page, which is the number of the rows. -/
def CountedPagesExact {Row : Type} (selected : List Row)
    (lists : (limit offset : Nat) → List Row × Nat → Prop) : Prop :=
  ∃ fixed : List Row, fixed.Perm selected ∧ fixed.Nodup ∧
    ∀ (size : Nat) (queryFn : Nat → List Row × Nat), (∀ offset, lists size offset (queryFn offset)) →
      (∀ offset, (queryFn offset).2 = fixed.length) ∧
        ∀ count, fixed.length ≤ count * size →
          ((List.range count).flatMap fun number => (queryFn (number * size)).1) = fixed

section Exact

variable {Row : Type} {order : RowOrder Row} {selected : List Row}

theorem pagesExact_of_separates (separates : order.Separates selected) (unique : selected.Nodup) :
    PagesExact selected (order.Answers selected) := by
  have perm := RowOrder.sort_perm order selected
  refine ⟨order.sort selected, perm, perm.nodup_iff.mpr unique, fun size queryFn admissible count covers => ?_⟩
  rw [RowOrder.length_sort] at covers
  exact separates.answers_eq covers admissible

theorem countedPagesExact_of_separates (separates : order.Separates selected) (unique : selected.Nodup) :
    CountedPagesExact selected (ListsWithTotal order selected) := by
  obtain ⟨fixed, perm, nodup, exact⟩ := pagesExact_of_separates separates unique
  refine ⟨fixed, perm, nodup, fun size queryFn admissible => ⟨fun offset => ?_, fun count covers => ?_⟩⟩
  · rw [(admissible offset).2, perm.length_eq]
  · exact exact size (fun offset => (queryFn offset).1) (fun offset => (admissible offset).1) count covers

theorem selectWhere_nodup {clause : Row → Truth} {key : Row → Int} {table : List Row}
    (unique : (table.map key).Nodup) : (selectWhere clause table).Nodup :=
  (List.Nodup.of_map _ unique).filter _

theorem mem_of_selectWhere {clause : Row → Truth} {table : List Row} :
    ∀ row ∈ selectWhere clause table, row ∈ table :=
  fun _ member => (mem_selectWhere.mp member).1

end Exact

/-- The pages of the feed, as the service computes them, are the matching posts in the order of the feed. -/
theorem listPosts_pages (search : TextSearch) (posts : PostTable) (now : Instant) (filters : PublicPostFilters)
    {size count : Nat} (covers : (selectPosts search posts filters now).length ≤ count * size) :
    ((List.range count).flatMap fun number => listPosts search posts.posts now size (number * size) filters) =
      publicOrder.sort (selectPosts search posts filters now) :=
  (RowOrder.thenBy_key_separates _ posts.idUnique mem_of_selectWhere).answers_eq covers
    (listPosts_lists search posts now filters size)

/-- A queue that is listed by the instant of the request and then the primary key. -/
theorem queue_exact {Row : Type} {requestedAt : Row → Instant} {id : Row → Int} {table : List Row}
    (unique : (table.map id).Nodup) (clause : Row → Truth) :
    CountedPagesExact (selectWhere clause table)
      (ListsWithTotal (requestedOrder requestedAt id) (selectWhere clause table)) :=
  countedPagesExact_of_separates (RowOrder.thenBy_key_separates _ unique mem_of_selectWhere)
    (selectWhere_nodup unique)

/-- The pages of the public posts and of the two queues are exact, and so are the totals of the queues. -/
theorem feed_and_queue_pages_exact (search : TextSearch) (posts : PostTable) (now : Instant)
    (postFilters : PublicPostFilters) (signups : SignupTable) (signupFilters : SignupRequestListFilters)
    (changes : ChangeTable) (status : Option Source.ProfileChanges.RequestStatus) (memberId : Option Nat) :
    PagesExact (selectPosts search posts postFilters now) (ListsPosts search posts now postFilters) ∧
      CountedPagesExact (selectSignupRequests search signups signupFilters)
        (ListsSignupRequests search signups signupFilters) ∧
      CountedPagesExact (selectChangeRequests changes status memberId)
        (ListsChangeRequests changes status memberId) := by
  refine ⟨?_, queue_exact signups.idUnique _, queue_exact changes.idUnique _⟩
  exact pagesExact_of_separates (RowOrder.thenBy_key_separates _ posts.idUnique mem_of_selectWhere)
    (selectWhere_nodup posts.idUnique)

def tiedPost (id : Int) (pinned : Bool) : Post where
  id := id
  authorId := 1
  title := "notice"
  content := ""
  publishedAt := some 1
  createdAt := some 1
  category := some "news"
  pinned := pinned
  coverImage := none
  images := none
  viewCount := 0

/-- Three posts of one instant, the second of them pinned. -/
def tiedPosts : PostTable where
  posts := [tiedPost 0 false, tiedPost 1 true, tiedPost 2 false]
  idUnique := by decide

/-- Two requests of one instant. -/
def tiedChanges : ChangeTable where
  rows := [0, 1].map fun id =>
    { memberId := 1, fieldName := .name, newValue := "kim", id, requestedAt := 3 }
  idUnique := by decide

def noSearch : TextSearch := ⟨fun _ _ => false⟩

/-- The pinned post is first and the key decides the rest, however the queries order the ties. -/
theorem feed_and_queue_pages_tied :
    (∀ queryFn : Nat → List Post,
      (∀ offset, ListsPosts noSearch tiedPosts 5 {} 2 offset (queryFn offset)) →
        ((List.range 2).flatMap fun number => queryFn (number * 2)).map Post.id = [1, 2, 0]) ∧
    ∀ queryFn : Nat → List ChangeRow × Nat,
      (∀ offset, ListsChangeRequests tiedChanges none none 1 offset (queryFn offset)) →
        (queryFn 0).2 = 2 ∧
          ((List.range 2).flatMap fun number => (queryFn (number * 1)).1).map ChangeRow.id = [1, 0] := by
  obtain ⟨⟨feed, same, -, feedPages⟩, -, queue, perm, -, queuePages⟩ :=
    feed_and_queue_pages_exact noSearch tiedPosts 5 {} ⟨[], by simp⟩ {} tiedChanges none none
  have three : feed.length = 3 := same.length_eq
  have two : queue.length = 2 := perm.length_eq
  constructor
  · intro queryFn admissible
    have listed := feedPages 2 _ (listPosts_lists noSearch tiedPosts 5 {} 2) 2 (by omega)
    rw [feedPages 2 queryFn admissible 2 (by omega), ← listed]
    decide +kernel
  · intro queryFn admissible
    obtain ⟨totals, pages⟩ := queuePages 1 queryFn admissible
    have listed := (queuePages 1 _ (listsWithTotal_sorted _ _ 1)).2 2 (by omega)
    refine ⟨(totals 0).trans two, ?_⟩
    rw [pages 2 (by omega), ← listed]
    decide +kernel

end SogeconApp.Guarantees.QueuePages
