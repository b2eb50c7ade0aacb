import SogeconApp.Library.Paging
import SogeconApp.Source.Accounts.Store
import SogeconApp.Source.Directory
import SogeconApp.Source.MediaPaths
import SogeconApp.Source.ProfileChanges

/-!
# Listings page by page

Source: `apps/api/repositories/members.py` (list_members), `repositories/posts.py`
(list_posts, list_admin_posts, count_posts), `repositories/signup_requests.py`
(_build_conditions, list_signup_requests_with_total), `repositories/profile_change_requests.py`
(_build_list_conditions, list_with_total, list_with_total_and_member) and
`repositories/events.py` (list_events, and the conditions of list_admin_events_with_total) as
queries whose rows may come in any order that their ORDER BY allows, and the web's stepping through
the pages: `app/directory/state.ts` (useDirectoryQueries), `app/admin/posts/page.tsx` and
`lib/event-experience.ts` (loadAllEvents).

`desc(published_at)` has NULL first, as PostgreSQL sorts. Every query of a listing reads
the same table at the same `func.now()`.
-/

namespace SogeconApp.Source.Listings

open Library Posts Directory

/-! ## repositories/members.py -/

/-- The rows are an answer that the database may give to list_members. -/
def ListsMembers (rules : DirectoryRules) (db : Db) (limit offset : Nat) (filters : MemberListFilters)
    (viewerStudentId : Option String) (rows : List Member) : Prop :=
  (orderColumns rules filters.sort).Answers (selectMembers rules db filters viewerStudentId) limit offset rows

/-- The fixed answer of the directory is one of them. -/
theorem listMembers_lists (rules : DirectoryRules) (db : Db) (limit offset : Nat)
    (filters : MemberListFilters) (viewerStudentId : Option String) :
    ListsMembers rules db limit offset filters viewerStudentId
      (listMembers rules db limit offset filters viewerStudentId) :=
  ⟨_, (RowOrder.sort_arranges _ _).of_thenBy, rfl⟩

/-! ## repositories/posts.py -/

/-- The posts table, with its primary key. -/
structure PostTable where
  posts : List Post
  idUnique : (posts.map Post.id).Nodup

def selectPosts (search : TextSearch) (table : PostTable) (filters : PublicPostFilters) (now : Instant) :
    List Post :=
  selectWhere (fun post => .and (publicVisibilityClause now post) (publicFilterClause search filters post))
    table.posts

/-- The rows are an answer that the database may give to list_posts. -/
def ListsPosts (search : TextSearch) (table : PostTable) (now : Instant) (filters : PublicPostFilters)
    (limit offset : Nat) (rows : List Post) : Prop :=
  publicOrder.Answers (selectPosts search table filters now) limit offset rows

/-- The fixed answer of the public feed is one of them. -/
theorem listPosts_lists (search : TextSearch) (table : PostTable) (now : Instant) (filters : PublicPostFilters)
    (limit offset : Nat) :
    ListsPosts search table now filters limit offset (listPosts search table.posts now limit offset filters) :=
  RowOrder.sort_answers _ _ limit offset

structure AdminPostFilters where
  category : Option String := none
  status : Option String := none
  q : Option String := none

def adminFilterClause (search : TextSearch) (filters : AdminPostFilters) (now : Instant) (post : Post) :
    Truth :=
  .all <|
    whenTruthy filters.category (fun category => .equals post.category (some category)) ++
    (match adminStatusClause filters.status now with
      | some statusClause => [statusClause post]
      | none => []) ++
    whenTruthy filters.q (fun q =>
      .or (search.matches (some post.title) (containing q))
        (search.matches (some post.content) (containing q)))

/-- `pinned DESC, published_at DESC`. -/
def adminOrder : RowOrder Post :=
  (RowOrder.ascending fun post : Post => if post.pinned then 1 else 0).desc.thenBy
    (RowOrder.descNullsFirst Post.publishedAt)

def selectAdminPosts (search : TextSearch) (table : PostTable) (filters : AdminPostFilters) (now : Instant) :
    List Post :=
  selectWhere (adminFilterClause search filters now) table.posts

/-- The rows are an answer that the database may give to list_admin_posts. -/
def ListsAdminPosts (search : TextSearch) (table : PostTable) (now : Instant) (limit offset : Nat)
    (filters : AdminPostFilters) (rows : List Post) : Prop :=
  adminOrder.Answers (selectAdminPosts search table filters now) limit offset rows

def countPosts (search : TextSearch) (table : PostTable) (filters : AdminPostFilters) (now : Instant) : Nat :=
  (selectAdminPosts search table filters now).length

/-! ## The queues of the administration -/

/-- `requested_at DESC, id DESC`. -/
def requestedOrder {Row : Type} (requestedAt : Row → Instant) (id : Row → Int) : RowOrder Row :=
  (RowOrder.ascending requestedAt).desc.thenBy (RowOrder.ascending id).desc

/-- The rows of a page and the total are what the database may answer. -/
def ListsWithTotal {Row : Type} (order : RowOrder Row) (selected : List Row) (limit offset : Nat)
    (answer : List Row × Nat) : Prop :=
  order.Answers selected limit offset answer.1 ∧ answer.2 = selected.length

/-- There is always an answer. -/
theorem listsWithTotal_sorted {Row : Type} (order : RowOrder Row) (selected : List Row) (limit offset : Nat) :
    ListsWithTotal order selected limit offset (page limit offset (order.sort selected), selected.length) :=
  ⟨RowOrder.sort_answers order selected limit offset, rfl⟩

structure SignupRow extends Accounts.SignupRequest where
  id : Int
  requestedAt : Instant

/-- The signup requests, with their primary key. -/
structure SignupTable where
  rows : List SignupRow
  idUnique : (rows.map (·.id)).Nodup

structure SignupRequestListFilters where
  q : Option String := none
  status : Option Accounts.SignupStatus := none

/-- `str.strip`. -/
def stripText (text : String) : String := String.ofList (MediaPaths.strip text.toList)

/-- The search pattern takes the text as it is. -/
def signupConditions (search : TextSearch) (filters : SignupRequestListFilters) (row : SignupRow) : List Truth :=
  whenTruthy filters.q (fun q =>
      let like := "%" ++ stripText q ++ "%"
      .or (search.matches (some row.studentId) like)
        (.or (search.matches (some row.name) like) (search.matches (some row.email) like))) ++
    match filters.status with
    | some status => [.equals (some row.status) (some status)]
    | none => []

def selectSignupRequests (search : TextSearch) (table : SignupTable) (filters : SignupRequestListFilters) :
    List SignupRow :=
  selectWhere (fun row => .all (signupConditions search filters row)) table.rows

/-- list_signup_requests_with_total. -/
def ListsSignupRequests (search : TextSearch) (table : SignupTable) (filters : SignupRequestListFilters) :
    (limit offset : Nat) → List SignupRow × Nat → Prop :=
  ListsWithTotal (requestedOrder SignupRow.requestedAt SignupRow.id) (selectSignupRequests search table filters)

structure ChangeRow extends ProfileChanges.ProfileChangeRequest where
  id : Int
  requestedAt : Instant

/-- The profile change requests, with their primary key. -/
structure ChangeTable where
  rows : List ChangeRow
  idUnique : (rows.map (·.id)).Nodup

def buildListConditions (status : Option ProfileChanges.RequestStatus) (memberId : Option Nat) (row : ChangeRow) :
    List Truth :=
  (match status with
    | some status => [.equals (some row.status) (some status)]
    | none => []) ++
    match memberId with
    | some memberId => [.equals (some row.memberId) (some memberId)]
    | none => []

def selectChangeRequests (table : ChangeTable) (status : Option ProfileChanges.RequestStatus)
    (memberId : Option Nat) : List ChangeRow :=
  selectWhere (fun row => .all (buildListConditions status memberId row)) table.rows

/-- list_with_total, and list_with_total_and_member, which loads the member of each row besides. -/
def ListsChangeRequests (table : ChangeTable) (status : Option ProfileChanges.RequestStatus)
    (memberId : Option Nat) : (limit offset : Nat) → List ChangeRow × Nat → Prop :=
  ListsWithTotal (requestedOrder ChangeRow.requestedAt ChangeRow.id) (selectChangeRequests table status memberId)

/-! ## repositories/events.py -/

structure EventRow where
  id : Int
  title : String
  startsAt : Instant
  endsAt : Instant
  deriving DecidableEq, Repr

/-- The events, with their primary key. -/
structure EventTable where
  events : List EventRow
  idUnique : (events.map EventRow.id).Nodup

/-- `starts_at ASC`. -/
def eventOrder : RowOrder EventRow := RowOrder.ascending EventRow.startsAt

/-- The rows are an answer that the database may give to list_events. -/
def ListsEvents (table : EventTable) (limit offset : Nat) (rows : List EventRow) : Prop :=
  eventOrder.Answers table.events limit offset rows

inductive EventStatus where
  | upcoming | ongoing | ended
  deriving DecidableEq, Repr

structure AdminEventListFilters where
  q : Option String := none
  dateFrom : Option Instant := none
  dateTo : Option Instant := none
  status : Option EventStatus := none

/-- `func.lower`, `LIKE .. ESCAPE '\'` and `str.lower`. -/
structure TitleSearch where
  lower : String → String
  like : String → String → Bool
  strLower : String → String

/-- The conditions of list_admin_events_with_total, of its rows and of its count. -/
def adminEventConditions (search : TitleSearch) (filters : AdminEventListFilters) (now : Instant)
    (row : EventRow) : List Truth :=
  whenTruthy filters.q (fun q =>
      some (search.like (search.lower row.title) (containing (search.strLower (stripText q))))) ++
    (match filters.dateFrom with
      | some dateFrom => [some (decide (dateFrom ≤ row.startsAt))]
      | none => []) ++
    (match filters.dateTo with
      | some dateTo => [some (decide (row.endsAt ≤ dateTo))]
      | none => []) ++
    match filters.status with
    | some .upcoming => [some (decide (now < row.startsAt))]
    | some .ongoing => [some (decide (row.startsAt ≤ now)), some (decide (now ≤ row.endsAt))]
    | some .ended => [some (decide (row.endsAt < now))]
    | none => []

/-! ## apps/web -/

/-- `PAGE_SIZE` of the directory. -/
def directoryPageSize : Nat := 10

/-- `PAGE_SIZE` of the administration. -/
def adminPageSize : Nat := 20

/-- `undefined` after a page that is not full. -/
def getNextPageParam {Row : Type} (pageSize : Nat) (lastPage : List Row) (lastPageParam : Nat) : Option Nat :=
  if lastPage.length < pageSize then none else some (lastPageParam + pageSize)

/-- The pages of the infinite query from an offset on; `none` when the fuel does not suffice. -/
def fetchPages {Row : Type} (pageSize : Nat) (queryFn : Nat → List Row) : Nat → Nat → Option (List (List Row))
  | 0, _ => none
  | fuel + 1, pageParam =>
    let lastPage := queryFn pageParam
    match getNextPageParam pageSize lastPage pageParam with
    | none => some [lastPage]
    | some next => (fetchPages pageSize queryFn fuel next).map (lastPage :: ·)

/-- `Math.ceil(data.total / PAGE_SIZE)`. -/
def totalPages (total pageSize : Nat) : Nat := (total + pageSize - 1) / pageSize

/-- The pages of the administration, from the first to the last. -/
def adminPages {Row : Type} (total pageSize : Nat) (queryFn : Nat → List Row) : List (List Row) :=
  (List.range (totalPages total pageSize)).map fun number => queryFn (number * pageSize)

/-- The loop of loadAllEvents, with the rows collected so far; `none` when the fuel does not suffice. -/
def loadAllEvents {Row : Type} (loadPage : (limit offset : Nat) → List Row) (pageSize : Nat) :
    (fuel : Nat) → (events : List Row) → (offset : Nat) → Option (List Row)
  | 0, _, _ => none
  | fuel + 1, events, offset =>
    let page := loadPage pageSize offset
    if page.length < pageSize then some (events ++ page)
    else loadAllEvents loadPage pageSize fuel (events ++ page) (offset + pageSize)

end SogeconApp.Source.Listings
