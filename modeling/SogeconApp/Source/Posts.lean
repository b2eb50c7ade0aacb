import SogeconApp.Library.Sql

/-!
# Posts: rows, publication and reads

Source: `apps/api/post_visibility.py`, `repositories/posts.py` (the reads and the status
clause of the administration), `repositories/__init__.py` (escape_like), and the web's
`lib/admin-post-status.ts` and `lib/community.ts`.

An instant is a whole number of milliseconds. `ILIKE` belongs to the database and is a
parameter; so are `Date.parse` and the text that the API renders an instant as, which the
web reads. `func.now()` of the database and the `now` of the service are the same instant.
-/

namespace SogeconApp.Source.Posts

open Library

abbrev Instant := Int

structure Post where
  id : Int
  authorId : Int
  title : String
  content : String
  publishedAt : Option Instant
  createdAt : Option Instant
  category : Option String
  pinned : Bool
  coverImage : Option String
  images : Option (List String)
  viewCount : Int
  deriving DecidableEq, Repr

/-! ## repositories/__init__.py -/

/-- `str.replace` of one character. -/
def replaceChar (old : Char) (replacement value : String) : String :=
  String.ofList (value.toList.flatMap fun char => if char = old then replacement.toList else [char])

def escapeLike (value : String) : String :=
  replaceChar '_' "\\_" (replaceChar '%' "\\%" (replaceChar '\\' "\\\\" value))

/-- The pattern of a search for a part of a text. -/
def containing (value : String) : String := "%" ++ escapeLike value ++ "%"

/-- `column ILIKE pattern ESCAPE '\'` on texts; NULL is unknown. -/
structure TextSearch where
  ilike : String → String → Bool

def TextSearch.matches (search : TextSearch) (column : Option String) (pattern : String) : Truth :=
  column.map fun value => search.ilike value pattern

/-! ## post_visibility.py -/

def boardPostCategories : List String := ["discussion", "question", "share", "congrats"]

/-- `category in BOARD_POST_CATEGORIES`. -/
def isBoard (category : Option String) : Bool :=
  match category with
  | some category => decide (category ∈ boardPostCategories)
  | none => false

def isPostPublic (post : Post) (now : Instant) : Bool :=
  if isBoard post.category then true
  else
    match post.publishedAt with
    | none => false
    | some publishedAt => decide (publishedAt ≤ now)

def notLater (publishedAt : Option Instant) (now : Instant) : Truth :=
  Truth.compare (fun published current => decide (published ≤ current)) publishedAt (some now)

def publicVisibilityClause (now : Instant) (post : Post) : Truth :=
  .or (.isIn post.category boardPostCategories)
    (.and (.isNotNull post.publishedAt) (notLater post.publishedAt now))

def postPublicHref (post : Post) : String :=
  if isBoard post.category then "/board/" ++ toString post.id else "/posts/" ++ toString post.id

/-! ## repositories/posts.py -/

def adminNonBoardCategoryClause (post : Post) : Truth :=
  .or (.isNull post.category) (.not (.isIn post.category boardPostCategories))

/-- `None` for a status that is not one of the three. -/
def adminStatusClause (status : Option String) (now : Instant) : Option (Post → Truth) :=
  if status = some "published" then
    some fun post =>
      .or (.isIn post.category boardPostCategories)
        (.all [adminNonBoardCategoryClause post, .isNotNull post.publishedAt,
          notLater post.publishedAt now])
  else if status = some "scheduled" then
    some fun post =>
      .and (adminNonBoardCategoryClause post)
        (Truth.compare (fun published current => decide (current < published)) post.publishedAt (some now))
  else if status = some "draft" then
    some fun post => .and (adminNonBoardCategoryClause post) (.isNull post.publishedAt)
  else none

structure PublicPostFilters where
  category : Option String := none
  categories : List String := []
  q : Option String := none

/-- The conditions of a filter are there when its value is truthy. -/
def publicFilterClause (search : TextSearch) (filters : PublicPostFilters) (post : Post) : Truth :=
  let byCategory : Truth :=
    if filters.categories ≠ [] then .isIn post.category filters.categories
    else
      match filters.category with
      | some category => if category = "" then some true else .equals post.category (some category)
      | none => some true
  let byText : Truth :=
    match filters.q with
    | some q =>
      if q = "" then some true
      else .or (search.matches (some post.title) (containing q))
        (search.matches (some post.content) (containing q))
    | none => some true
  .and byCategory byText

/-- `pinned DESC, coalesce(published_at, created_at) DESC NULLS LAST, id DESC`. -/
def publicOrder : RowOrder Post :=
  ((RowOrder.ascending fun post : Post => if post.pinned then 1 else 0).desc.thenBy
    (RowOrder.descNullsLast fun post => post.publishedAt.or post.createdAt)).thenBy
    (RowOrder.ascending Post.id).desc

def listPosts (search : TextSearch) (posts : List Post) (now : Instant) (limit offset : Nat)
    (filters : PublicPostFilters) : List Post :=
  page limit offset <| publicOrder.sort <|
    selectWhere (fun post => .and (publicVisibilityClause now post)
      (publicFilterClause search filters post)) posts

inductive Failure where
  | notFound (code : String)
  deriving DecidableEq, Repr

def getPost (posts : List Post) (postId : Int) : Except Failure Post :=
  match posts.find? fun post => post.id = postId with
  | some post => .ok post
  | none => .error (.notFound "post_not_found")

def getPublicPost (posts : List Post) (now : Instant) (postId : Int) : Except Failure Post := do
  let post ← getPost posts postId
  if isPostPublic post now then return post else throw (.notFound "post_not_found")

/-! ## apps/web/lib -/

def boardCategoryKeys : List String := ["discussion", "question", "share", "congrats"]

def isBoardCategory (value : Option String) : Bool :=
  boardCategoryKeys.any fun category => value = some category

inductive AdminPostPublicationState where
  | published | scheduled | draft
  deriving DecidableEq, Repr

/-- The text of a state is the name of its filter. -/
def AdminPostPublicationState.name : AdminPostPublicationState → String
  | .published => "published"
  | .scheduled => "scheduled"
  | .draft => "draft"

/-- `Date.parse`; `none` is NaN. -/
def getAdminPostPublicationState (parse : String → Option Instant) (category publishedAt : Option String)
    (now : Instant) : AdminPostPublicationState :=
  if isBoardCategory category then .published
  else
    match publishedAt with
    | none => .draft
    | some text =>
      if text = "" then .draft
      else
        match parse text with
        | none => .draft
        | some timestamp => if now < timestamp then .scheduled else .published

end SogeconApp.Source.Posts
