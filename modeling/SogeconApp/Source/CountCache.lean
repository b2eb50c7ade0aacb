import Mathlib.Algebra.Order.Ring.Rat
import Mathlib.Data.List.Sort
import Mathlib.Logic.Function.Basic
import SogeconApp.Library.OrderedDict
import SogeconApp.Source.Directory

/-!
# The cache of member counts

Source: `apps/api/services/members_service.py` (count_members and _member_count_cache) over
`repositories/members.py` (count_members).

Calls may overlap: a call runs without a pause until it waits for the count of the repository, the
database counts at some moment, and the call then runs to its end, or the count raises. Between these steps
other calls run, the database changes and the clock goes on. Times are exact. A dictionary of filters is
given by its fields: nothing depends on the order of its keys, and a value that is None is not typed.
-/

namespace SogeconApp.Source.CountCache

open Library
open Directory (Db DirectoryRules)

structure MemberListFilters where
  q : Option String := none
  cohort : Option Int := none
  major : Option String := none
  company : Option String := none
  industry : Option String := none
  region : Option String := none
  excludePrivate : Option Bool := none
  jobTitle : Option String := none
  sort : Option String := none
  deriving DecidableEq, Repr

/-! ## The key of a set of filters -/

inductive FilterValue where
  | text (value : String)
  | number (value : Int)
  | flag (value : Bool)
  deriving DecidableEq, Repr

def normalizeValue : FilterValue → String
  | .flag value => if value then "1" else "0"
  | .number value => toString value
  | .text value => value

def MemberListFilters.fields (filters : MemberListFilters) : List (String × Option FilterValue) :=
  [("q", filters.q.map .text), ("cohort", filters.cohort.map .number), ("major", filters.major.map .text),
    ("company", filters.company.map .text), ("industry", filters.industry.map .text),
    ("region", filters.region.map .text), ("exclude_private", filters.excludePrivate.map .flag),
    ("job_title", filters.jobTitle.map .text), ("sort", filters.sort.map .text)]

/-- The items that have a value, with their values as texts. -/
def MemberListFilters.items (filters : MemberListFilters) : List (String × String) :=
  filters.fields.filterMap fun (name, value) => value.map fun value => (name, normalizeValue value)

/-- The order of tuples. -/
def ItemLe (first second : String × String) : Prop :=
  first.1 < second.1 ∨ (first.1 = second.1 ∧ first.2 ≤ second.2)

instance (first second : String × String) : Decidable (ItemLe first second) :=
  inferInstanceAs (Decidable (_ ∨ (_ ∧ _)))

abbrev Key := List (String × String)

def cacheKey : Option MemberListFilters → Key
  | none => []
  | some filters => filters.items.insertionSort ItemLe

/-! ## repositories/members.py -/

/-- `filters.get('exclude_private', True)`; the other fields are absent when they are not given. -/
def MemberListFilters.read (filters : MemberListFilters) : Directory.MemberListFilters where
  q := filters.q
  cohort := filters.cohort
  major := filters.major
  company := filters.company
  industry := filters.industry
  region := filters.region
  excludePrivate := filters.excludePrivate.getD true
  jobTitle := filters.jobTitle
  sort := filters.sort

/-- `count_members` of the repository, with `f = filters or {}`. -/
def repoCountMembers (rules : DirectoryRules) (db : Db) (filters : Option MemberListFilters)
    (viewerStudentId : Option String) : Nat :=
  Directory.countMembers rules db (filters.getD {}).read viewerStudentId

/-! ## services/members_service.py -/

def memberCountCacheTtl : ℚ := 30

def memberCountCacheMax : Nat := 64

abbrev Cache := OrderedDict Key (ℚ × Nat)

/-- The entry of the key that has not expired, and the cache with it at the end. -/
def lookUp (cache : Cache) (key : Key) (now : ℚ) : Option (Nat × Cache) :=
  match cache.get key with
  | some (stored, count) => if now - stored < memberCountCacheTtl then some (count, cache.moveToEnd key) else none
  | none => none

def store (cache : Cache) (key : Key) (now : ℚ) (count : Nat) : Cache :=
  let cache := (cache.set key (now, count)).moveToEnd key
  if memberCountCacheMax < cache.size then cache.popFirst else cache

/-- A call that waits for the repository: `now` is the clock when it was made. -/
structure Call where
  filters : Option MemberListFilters
  viewerStudentId : Option String
  now : ℚ
  /-- What the database has counted. -/
  counted : Option Nat := none

structure Answer where
  filters : Option MemberListFilters
  viewerStudentId : Option String
  /-- The clock when the call was made. -/
  now : ℚ
  count : Nat

structure World where
  db : Db
  clock : ℚ
  cache : Cache
  /-- The calls that wait, by their numbers. -/
  calls : Nat → Option Call
  answers : List Answer

inductive Action where
  | call (number : Nat) (filters : Option MemberListFilters) (viewerStudentId : Option String)
  | count (number : Nat)
  | finish (number : Nat)
  | raise (number : Nat)
  | change (db : Db)
  | wait (time : ℚ)

namespace World

def waitFor (world : World) (number : Nat) (call : Call) : World :=
  { world with calls := Function.update world.calls number (some call) }

def answer (world : World) (answer : Answer) : World := { world with answers := answer :: world.answers }

/-- The call up to where it waits. -/
def begin (world : World) (number : Nat) (filters : Option MemberListFilters) (viewerStudentId : Option String) :
    World :=
  let waiting := world.waitFor number { filters, viewerStudentId, now := world.clock }
  match viewerStudentId with
  | some _ => waiting
  | none =>
    match lookUp world.cache (cacheKey filters) world.clock with
    | some (count, cache) => { world.answer ⟨filters, none, world.clock, count⟩ with cache := cache }
    | none => waiting

/-- The call from where it has waited to its end. -/
def complete (world : World) (number : Nat) (call : Call) (count : Nat) : World :=
  let done : World :=
    { world.answer ⟨call.filters, call.viewerStudentId, call.now, count⟩ with
      calls := Function.update world.calls number none }
  match call.viewerStudentId with
  | some _ => done
  | none => { done with cache := store world.cache (cacheKey call.filters) call.now count }

/-- `none`: the call cannot take the step, or the clock would go back. -/
def step (rules : DirectoryRules) (world : World) : Action → Option World
  | .call number filters viewerStudentId =>
    match world.calls number with
    | some _ => none
    | none => some (world.begin number filters viewerStudentId)
  | .count number =>
    match world.calls number with
    | some { filters, viewerStudentId, now, counted := none } =>
      let count := repoCountMembers rules world.db filters viewerStudentId
      some (world.waitFor number { filters, viewerStudentId, now, counted := some count })
    | _ => none
  | .finish number =>
    match world.calls number with
    | some call => call.counted.map (world.complete number call)
    | none => none
  | .raise number =>
    match world.calls number with
    | some _ => some { world with calls := Function.update world.calls number none }
    | none => none
  | .change db => some { world with db := db }
  | .wait time => if 0 ≤ time then some { world with clock := world.clock + time } else none

end World

/-- The start of the process. -/
def started (db : Db) (clock : ℚ) : World where
  db := db
  clock := clock
  cache := .empty
  calls := fun _ => none
  answers := []

end SogeconApp.Source.CountCache
