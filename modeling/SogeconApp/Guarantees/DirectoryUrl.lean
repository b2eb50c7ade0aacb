import SogeconApp.Source.DirectoryUrl

/-!
# The directory's filters survive their URL

Defaults are left out of the URL and read as defaults, and every other field is set under a name of its own
and read back from it. So the filters that a URL was built of are read from its query, up to the sign of a
zero page, and reading what was built of what was read changes nothing.
-/

namespace SogeconApp.Guarantees.DirectoryUrl

open Library FormUrlencoded Binary64 ScriptNumbers Source.DirectoryUrl

variable {usp : SearchParams} {entries : List (String × String)} {name : String} {filters : FilterState}

/-! ## The text fields -/

theorem foldl_setText_of_absent (absent : ∀ entry ∈ entries, entry.1 ≠ name) :
    (entries.foldl setText usp).get name = usp.get name := by
  induction entries generalizing usp with
  | nil => rfl
  | cons entry entries ih =>
    have other : name ≠ entry.1 := (absent entry List.mem_cons_self).symm
    rw [List.foldl_cons, ih fun later member => absent later (List.mem_cons_of_mem _ member), setText]
    split
    · rw [SearchParams.get_set, if_neg other]
    · rfl

/-- An entry that is set under a name of its own, or left out because it is empty. -/
theorem foldl_setText_of_mem {value : String} (distinct : (entries.map Prod.fst).Nodup)
    (fresh : usp.get name = none) (member : (name, value) ∈ entries) :
    ((entries.foldl setText usp).get name).getD "" = value := by
  induction entries generalizing usp with
  | nil => cases member
  | cons entry entries ih =>
    obtain ⟨once, distinct⟩ := List.nodup_cons.mp distinct
    rw [List.foldl_cons]
    rcases List.mem_cons.mp member with here | later
    · subst here
      have absent : ∀ entry ∈ entries, entry.1 ≠ name := by
        intro entry known same
        exact once (List.mem_map.mpr ⟨entry, known, same⟩)
      rw [foldl_setText_of_absent absent, setText]
      split
      · rw [SearchParams.get_set, if_pos rfl]
        rfl
      · next empty =>
        rw [fresh]
        exact (not_not.mp empty).symm
    · have other : name ≠ entry.1 := by
        intro same
        exact once (List.mem_map.mpr ⟨_, later, same⟩)
      refine ih distinct ?_ later
      rw [setText]
      split
      · rw [SearchParams.get_set, if_neg other, fresh]
      · exact fresh

theorem buildParams_get (notSort : name ≠ "sort") (notPage : name ≠ "page") :
    (buildParams filters).get name = ((stringParams filters).foldl setText []).get name := by
  unfold buildParams
  extract_lets texts sorted
  have sort : sorted.get name = texts.get name := by
    unfold sorted
    split
    · rw [SearchParams.get_set, if_neg notSort]
    · rfl
  split
  · rw [SearchParams.get_set, if_neg notPage, sort]
  · exact sort

/-- A text field is read back from the parameter of its name, and an empty one is left out. -/
theorem buildParams_text {value : String} (member : (name, value) ∈ stringParams filters) :
    ((buildParams filters).get name).getD "" = value := by
  have names : (stringParams filters).map Prod.fst =
    ["q", "cohort", "major", "company", "industry", "region", "job_title"] := rfl
  have known : name ∈ (stringParams filters).map Prod.fst := List.mem_map.mpr ⟨_, member, rfl⟩
  rw [names] at known
  have apart : name ≠ "sort" ∧ name ≠ "page" := by
    constructor
    · rintro rfl
      exact absurd known (by decide)
    · rintro rfl
      exact absurd known (by decide)
  rw [buildParams_get apart.1 apart.2]
  refine foldl_setText_of_mem ?_ rfl member
  rw [names]
  decide

/-! ## The sort option and the page -/

theorem texts_get (absent : name ∉ ["q", "cohort", "major", "company", "industry", "region", "job_title"]) :
    ((stringParams filters).foldl setText []).get name = none := by
  refine foldl_setText_of_absent fun entry member same => absent ?_
  exact same ▸ List.mem_map_of_mem (f := Prod.fst) member

theorem sortOf_value (sort : SortOption) : sortOf (some sort.value) = some sort := by
  cases sort <;> decide

theorem buildParams_sort : (sortOf ((buildParams filters).get "sort")).getD .recent = filters.sort := by
  have read : (buildParams filters).get "sort" =
      if filters.sort ≠ .recent then some filters.sort.value else none := by
    unfold buildParams
    extract_lets texts sorted
    have sort : sorted.get "sort" = if filters.sort ≠ .recent then some filters.sort.value else none := by
      unfold sorted
      split
      · rw [SearchParams.get_set, if_pos rfl]
      · exact texts_get (by decide)
    split
    · rw [SearchParams.get_set, if_neg (by decide), sort]
    · exact sort
  rw [read]
  split
  · rw [sortOf_value]
    rfl
  · next recent =>
    exact (not_not.mp recent).symm

theorem buildParams_page : (buildParams filters).get "page" =
    if 0 < filters.page.value then some (toText filters.page.value) else none := by
  unfold buildParams
  extract_lets texts sorted
  split
  · rw [SearchParams.get_set, if_pos rfl]
  · unfold sorted
    split
    · rw [SearchParams.get_set, if_neg (by decide)]
      exact texts_get (by decide)
    · exact texts_get (by decide)

/-- The text of a page is read as the page, up to the sign of zero. -/
theorem clampPage_toText (page : Page) :
    clampPage (toNumber (toText page.value)) = { page with negative := false, zero := nofun } := by
  rw [toNumber_toText page.representable, clampPage]
  simp

/-- The empty text is read as zero. -/
theorem toText_ne_empty {number : Nat} (representable : IsBinary64 (number : ℚ)) (positive : 0 < number) :
    toText number ≠ "" := by
  intro empty
  have zero : toNumber "" = .finite false ⟨0, by exact_mod_cast isBinary64_zero⟩ := by
    have rounds : Binary64.round 0 (le_refl (0 : ℚ)) = some ⟨0, by exact_mod_cast isBinary64_zero⟩ :=
      round_of_isBinary64 _ _
    have blank : trim isStrWhiteSpace "".toList = [] := rfl
    simp only [toNumber, blank, if_pos, ofValue, rounds]
  have read := toNumber_toText representable
  rw [empty, zero] at read
  have same : (0 : ℚ) = number := congrArg Subtype.val (Number.finite.inj read).2
  have none_ : number = 0 := by exact_mod_cast same.symm
  omega

/-! ## Reading what was built -/

/-- A page that is not positive is left out of the URL, and the first page is read. -/
theorem readFilters_page :
    (readFilters (buildParams filters)).page = { filters.page with negative := false, zero := nofun } := by
  simp only [readFilters, buildParams_page]
  by_cases positive : 0 < filters.page.value
  · rw [if_pos positive]
    have written := toText_ne_empty filters.page.representable positive
    split
    · next absent => cases absent
    · next empty => exact absurd (Option.some.inj empty) written
    · next text _ read =>
      rw [← Option.some.inj read]
      exact clampPage_toText filters.page
  · rw [if_neg positive]
    have first : filters.page.value = 0 := by omega
    simp only [Page.first, first]

/-- What is read of the parameters is what they were built of, up to the sign of a zero page. -/
theorem readFilters_buildParams : readFilters (buildParams filters) =
    { filters with page := { filters.page with negative := false, zero := nofun } } := by
  have page : (readFilters (buildParams filters)).page = _ := readFilters_page
  unfold readFilters at page ⊢
  congr 1
  · exact buildParams_text (by simp [stringParams])
  · exact buildParams_text (by simp [stringParams])
  · exact buildParams_text (by simp [stringParams])
  · exact buildParams_text (by simp [stringParams])
  · exact buildParams_text (by simp [stringParams])
  · exact buildParams_text (by simp [stringParams])
  · exact buildParams_text (by simp [stringParams])
  · exact buildParams_sort

theorem queryOf_buildUrl (filters : FilterState) :
    queryOf (buildUrl filters) = serialize (buildParams filters) := by
  unfold buildUrl
  extract_lets qs
  have path : '?' ∉ "/directory".toList ∧ '#' ∉ "/directory".toList := by decide
  have hash : '#' ∉ qs.toList := serialize_hash _
  split
  · have whole : ("/directory" ++ ("?" ++ qs)).toList = "/directory".toList ++ '?' :: qs.toList := by
      simp [String.toList_append]
    have inner : '#' ∉ '?' :: qs.toList := by simpa using hash
    rw [queryOf, whole, splitPath_append path.1 path.2]
    simp only [splitPath, cut_of_notMem inner, cut_cons, String.ofList_toList]
    rfl
  · next empty =>
    rw [String.append_empty, queryOf, splitPath_of_notMem path.1 path.2]
    exact (not_not.mp empty).symm

/-- Every whole page that is not negative, up to the largest safe integer and beyond, is read from the URL that
it was built into; of a query the same filters are read once and again. -/
theorem directory_state_survives (malformed : Bytes → String) :
    (∀ filters : FilterState,
      let again := readFilters (parse malformed (queryOf (buildUrl filters)))
      again.Same filters ∧ (filters.page.negative = false → again = filters)) ∧
    (∀ number ≤ 2 ^ 53 - 1, ∃ page : Page, page.value = number ∧ page.negative = false) ∧
    ∀ query : String,
      let filters := readFilters (parse malformed query)
      (readFilters (parse malformed (queryOf (buildUrl filters)))).Same filters := by
  have again (filters : FilterState) : readFilters (parse malformed (queryOf (buildUrl filters))) =
      { filters with page := { filters.page with negative := false, zero := nofun } } := by
    rw [queryOf_buildUrl, parse_serialize, readFilters_buildParams]
  have same (filters : FilterState) : (readFilters
    (parse malformed (queryOf (buildUrl filters)))).Same filters := by
    rw [again]
    exact ⟨rfl, rfl⟩
  refine ⟨fun filters => ⟨same filters, fun plain => ?_⟩, fun number small => ?_, fun query => same _⟩
  · obtain ⟨q, cohort, major, company, industry, region, jobTitle, sort, negative, value, representable, zero⟩ :=
      filters
    cases plain
    exact again _
  · exact ⟨⟨false, number, isBinary64_natCast (by omega), nofun⟩, rfl, rfl⟩

end SogeconApp.Guarantees.DirectoryUrl
