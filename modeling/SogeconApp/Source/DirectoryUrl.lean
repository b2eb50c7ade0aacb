import SogeconApp.Library.FormUrlencoded
import SogeconApp.Library.ScriptNumbers
import SogeconApp.Library.Urls

/-!
# The directory page's filters in its URL

Source: `apps/web/app/directory/state.ts` (FilterState, clampPage, readFilters, buildUrl), with
`MemberListSort` of `services/members.ts`.

The page of the filters is what clampPage gives: a whole number that is not negative, and `Math.floor`
keeps the sign of -0. A `URLSearchParams` is the list of its names and values.
-/

namespace SogeconApp.Source.DirectoryUrl

open Library FormUrlencoded Binary64 ScriptNumbers

inductive SortOption where
  | recent
  | cohortDesc
  | cohortAsc
  | name
  deriving DecidableEq, Repr

def SortOption.value : SortOption → String
  | .recent => "recent"
  | .cohortDesc => "cohort_desc"
  | .cohortAsc => "cohort_asc"
  | .name => "name"

def allowedSorts : List SortOption := [.recent, .cohortDesc, .cohortAsc, .name]

structure Page where
  /-- Of -0 only. -/
  negative : Bool
  value : Nat
  representable : IsBinary64 (value : ℚ)
  zero : negative = true → value = 0

theorem isBinary64_zero : IsBinary64 ((0 : Nat) : ℚ) := isBinary64_natCast (by norm_num)

def Page.first : Page where
  negative := false
  value := 0
  representable := isBinary64_zero
  zero := nofun

structure FilterState where
  q : String
  cohort : String
  major : String
  company : String
  industry : String
  region : String
  jobTitle : String
  sort : SortOption
  page : Page

/-- `===` field by field: 0 and -0 are the same page. -/
def FilterState.Same (filters again : FilterState) : Prop :=
  filters.page.value = again.page.value ∧ { filters with page := again.page } = again

/-! ## Reading -/

def clampPage : Number → Page
  | .nan => .first
  | .infinity _ => .first
  | .finite negative magnitude =>
    if below : negative = true ∧ 0 < magnitude.val then .first
    else
      { negative
        value := ⌊magnitude.val⌋₊
        representable := isBinary64_floor magnitude.property
        zero := fun minus => Nat.floor_eq_zero.mpr
          (lt_of_le_of_lt (not_lt.mp fun positive => below ⟨minus, positive⟩) zero_lt_one) }

/-- `isAllowedSort`, and then the value as an option. -/
def sortOf (sortParam : Option String) : Option SortOption :=
  sortParam.bind fun value => allowedSorts.find? (·.value = value)

def readFilters (params : SearchParams) : FilterState where
  q := (params.get "q").getD ""
  cohort := (params.get "cohort").getD ""
  major := (params.get "major").getD ""
  company := (params.get "company").getD ""
  industry := (params.get "industry").getD ""
  region := (params.get "region").getD ""
  jobTitle := (params.get "job_title").getD ""
  sort := (sortOf (params.get "sort")).getD .recent
  page :=
    match params.get "page" with
    | none | some "" => .first
    | some pageParam => clampPage (toNumber pageParam)

/-! ## Building -/

def stringParams (filters : FilterState) : List (String × String) :=
  [("q", filters.q), ("cohort", filters.cohort), ("major", filters.major), ("company", filters.company),
    ("industry", filters.industry), ("region", filters.region), ("job_title", filters.jobTitle)]

def setText (usp : SearchParams) (entry : String × String) : SearchParams :=
  if entry.2 ≠ "" then usp.set entry.1 entry.2 else usp

def buildParams (filters : FilterState) : SearchParams :=
  let usp := (stringParams filters).foldl setText []
  let usp := if filters.sort ≠ .recent then usp.set "sort" filters.sort.value else usp
  if 0 < filters.page.value then usp.set "page" (toText filters.page.value) else usp

def buildUrl (filters : FilterState) : String :=
  let qs := serialize (buildParams filters)
  "/directory" ++ if qs ≠ "" then "?" ++ qs else ""

/-- The query of the URL, without its question mark. -/
def queryOf (url : String) : String := String.ofList (splitPath url.toList).2.1

end SogeconApp.Source.DirectoryUrl
