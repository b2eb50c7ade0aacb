import SogeconApp.Guarantees.DirectoryVisibility
import SogeconApp.Source.Listings

/-!
# What the pages of a listing hold together

The web steps through the directory until a page is not full, and through the posts of the
administration up to the total. On an unchanged table the pages hold every matching row
exactly once, however each query orders its ties, if and only if no page ends between two
matching rows with equal ORDER BY keys. Neither ORDER BY ends with the primary key, which
that of the public posts does.
-/

namespace SogeconApp.Guarantees.ListingPages

open Library Source.Posts Source.Directory Source.Listings

/-! ## Stepping -/

section Stepping

variable {Row : Type} {pageSize total : Nat} {queryFn : Nat → List Row}

/-- The pages from a full number of pages on, when every page has the rows that are left for it. -/
theorem fetchPages_from (positive : 0 < pageSize)
    (lengths : ∀ offset, (queryFn offset).length = min pageSize (total - offset)) (left number fuel : Nat)
    (last : number + left = total / pageSize) (enough : left < fuel) :
    fetchPages pageSize queryFn fuel (number * pageSize) =
      some ((List.range' number (left + 1)).map fun page => queryFn (page * pageSize)) := by
  induction left generalizing number fuel with
  | zero =>
    obtain ⟨fuel, rfl⟩ := Nat.exists_eq_succ_of_ne_zero (Nat.ne_of_gt enough)
    have below : total < total / pageSize * pageSize + pageSize := Nat.lt_div_mul_add positive
    have short : (queryFn (number * pageSize)).length < pageSize := by
      rw [← last, Nat.add_zero] at below
      rw [lengths]
      omega
    simp [fetchPages, getNextPageParam, short]
  | succ left ih =>
    obtain ⟨fuel, rfl⟩ := Nat.exists_eq_succ_of_ne_zero (Nat.ne_of_gt (Nat.zero_lt_of_lt enough))
    have within : (number + 1) * pageSize ≤ total :=
      (Nat.mul_le_mul_right pageSize (by omega)).trans (Nat.div_mul_le_self total pageSize)
    have full : ¬(queryFn (number * pageSize)).length < pageSize := by
      rw [Nat.succ_mul] at within
      rw [lengths]
      omega
    have next : number * pageSize + pageSize = (number + 1) * pageSize := (Nat.succ_mul ..).symm
    have rest := ih (number + 1) fuel (by omega) (by omega)
    rw [fetchPages]
    simp only [getNextPageParam, if_neg full, next, rest, Option.map_some, List.range'_succ, List.map_cons]

/-- The web reads the pages up to the first that is not full, and no other. -/
theorem fetchPages_eq (positive : 0 < pageSize)
    (lengths : ∀ offset, (queryFn offset).length = min pageSize (total - offset)) {fuel : Nat}
    (enough : total / pageSize < fuel) :
    fetchPages pageSize queryFn fuel 0 =
      some ((List.range (total / pageSize + 1)).map fun number => queryFn (number * pageSize)) := by
  have all := fetchPages_from positive lengths (total / pageSize) 0 fuel (by omega) enough
  rwa [Nat.zero_mul, ← List.range_eq_range'] at all

theorem le_mul_pages (positive : 0 < pageSize) : total ≤ (total / pageSize + 1) * pageSize := by
  have below : total < total / pageSize * pageSize + pageSize := Nat.lt_div_mul_add positive
  rw [Nat.succ_mul]
  omega

theorem le_mul_totalPages (positive : 0 < pageSize) : total ≤ totalPages total pageSize * pageSize := by
  have below := Nat.lt_div_mul_add (a := total + pageSize - 1) positive
  unfold totalPages
  omega

end Stepping

/-! ## The directory -/

/-- However the queries order their ties, the web's stepping ends, and its pages together are
the matching members, each once. -/
def DirectoryPagesComplete (rules : DirectoryRules) (db : Db) (filters : MemberListFilters)
    (viewerStudentId : Option String) (pageSize : Nat) : Prop :=
  ∀ queryFn : Nat → List Member,
    (∀ offset, ListsMembers rules db pageSize offset filters viewerStudentId (queryFn offset)) →
    ∀ fuel, countMembers rules db filters viewerStudentId / pageSize < fuel →
      ∃ pages, fetchPages pageSize queryFn fuel 0 = some pages ∧
        pages.flatten.Perm (selectMembers rules db filters viewerStudentId)

theorem selectMembers_nodup (rules : DirectoryRules) (db : Db) (filters : MemberListFilters)
    (viewerStudentId : Option String) : (selectMembers rules db filters viewerStudentId).Nodup :=
  (List.Nodup.of_map _ db.idUnique).filter _

theorem directory_complete_iff (rules : DirectoryRules) (db : Db) (filters : MemberListFilters)
    (viewerStudentId : Option String) {pageSize : Nat} (positive : 0 < pageSize) :
    DirectoryPagesComplete rules db filters viewerStudentId pageSize ↔
      (orderColumns rules filters.sort).TiesOnOnePage
        (selectMembers rules db filters viewerStudentId) pageSize := by
  have unique := selectMembers_nodup rules db filters viewerStudentId
  rw [← RowOrder.answers_perm_iff positive unique (le_mul_pages positive)]
  constructor
  · intro complete answers admissible
    have enough := Nat.lt_succ_self (countMembers rules db filters viewerStudentId / pageSize)
    have lengths (offset : Nat) := (admissible offset).length
    obtain ⟨pages, fetched, perm⟩ := complete answers admissible _ enough
    have same := fetched.symm.trans (fetchPages_eq positive lengths enough)
    rw [Option.some.inj same, ← List.flatMap_def] at perm
    exact perm
  · intro complete queryFn admissible fuel enough
    have lengths (offset : Nat) := (admissible offset).length
    have perm := complete queryFn admissible
    rw [List.flatMap_def] at perm
    exact ⟨_, fetchPages_eq positive lengths enough, perm⟩

/-! ## The posts of the administration -/

/-- However the queries order their ties, the pages up to the total together are the matching
posts, each once. -/
def AdminPagesComplete (search : TextSearch) (table : PostTable) (now : Instant) (filters : AdminPostFilters)
    (pageSize : Nat) : Prop :=
  ∀ queryFn : Nat → List Post,
    (∀ offset, ListsAdminPosts search table now pageSize offset filters (queryFn offset)) →
    (adminPages (countPosts search table filters now) pageSize queryFn).flatten.Perm
      (selectAdminPosts search table filters now)

theorem selectAdminPosts_nodup (search : TextSearch) (table : PostTable) (filters : AdminPostFilters)
    (now : Instant) : (selectAdminPosts search table filters now).Nodup :=
  (List.Nodup.of_map _ table.idUnique).filter _

/-- The posts of the administration are complete under the same condition on their own order. -/
theorem admin_complete_iff (search : TextSearch) (table : PostTable) (now : Instant)
    (filters : AdminPostFilters) {pageSize : Nat} (positive : 0 < pageSize) :
    AdminPagesComplete search table now filters pageSize ↔
      adminOrder.TiesOnOnePage (selectAdminPosts search table filters now) pageSize := by
  have unique := selectAdminPosts_nodup search table filters now
  rw [← RowOrder.answers_perm_iff positive unique (le_mul_totalPages positive)]
  simp only [AdminPagesComplete, ListsAdminPosts, adminPages, countPosts, List.flatMap_def]

/-- The pages of both listings hold every matching row exactly once if and only if every tie
of the matching rows is on one page. -/
theorem pages_complete_iff (rules : DirectoryRules) (db : Db) (memberFilters : MemberListFilters)
    (viewerStudentId : Option String) (table : PostTable) (now : Instant) (postFilters : AdminPostFilters)
    {pageSize : Nat} (positive : 0 < pageSize) :
    (DirectoryPagesComplete rules db memberFilters viewerStudentId pageSize ↔
      (orderColumns rules memberFilters.sort).TiesOnOnePage
        (selectMembers rules db memberFilters viewerStudentId) pageSize) ∧
    (AdminPagesComplete rules.search table now postFilters pageSize ↔
      adminOrder.TiesOnOnePage (selectAdminPosts rules.search table postFilters now) pageSize) := by
  constructor
  · exact directory_complete_iff rules db memberFilters viewerStudentId positive
  · exact admin_complete_iff rules.search table now postFilters positive

/-- Eleven members of one name who were changed at the same instant. -/
def elevenAlike : Db where
  members := (List.range 11).map fun id =>
    { DirectoryVisibility.memberNamed id (toString id) 1 .all with name := "kim" }
  idUnique := by decide
  studentIdUnique := by decide

/-- Twenty-one drafts, none of them pinned. -/
def draftsOnly : PostTable where
  posts := (List.range 21).map fun id =>
    { id, authorId := 1, title := "draft", content := "", publishedAt := none, createdAt := some id,
      category := some "news", pinned := false, coverImage := none, images := none, viewCount := 0 }
  idUnique := by decide

/-- A tie that is longer than a page is on two pages in both listings of the web. -/
theorem long_ties_are_split :
    ¬DirectoryPagesComplete DirectoryVisibility.plainRules elevenAlike {} (some "0") directoryPageSize ∧
      ¬AdminPagesComplete DirectoryVisibility.plainRules.search draftsOnly 0 { status := some "draft" }
        adminPageSize := by
  rw [directory_complete_iff _ _ _ _ (by decide), admin_complete_iff _ _ _ _ (by decide)]
  decide

/-- Members of different names fill pages of one without loss, and a tie may fill a page. -/
theorem pages_complete_here :
    DirectoryPagesComplete DirectoryVisibility.plainRules DirectoryVisibility.withHidden {}
        (some "viewer") 1 ∧
      AdminPagesComplete DirectoryVisibility.plainRules.search draftsOnly 0 {} 21 := by
  constructor
  · exact (pages_complete_iff DirectoryVisibility.plainRules DirectoryVisibility.withHidden {} (some "viewer")
      draftsOnly 0 {} (by decide)).1.mpr (by decide)
  · exact (pages_complete_iff DirectoryVisibility.plainRules DirectoryVisibility.withHidden {} (some "viewer")
      draftsOnly 0 {} (by decide)).2.mpr (by decide)

end SogeconApp.Guarantees.ListingPages
