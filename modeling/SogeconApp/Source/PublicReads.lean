import SogeconApp.Source.Posts

/-!
# What an unauthenticated reader asks for

Source: `apps/api/repositories/posts.py` (list_posts with its authors, get_public_post),
`services/hero_service.py` (list_hero_slides), `repositories/hero_items.py`
(list_hero_items), `routers/comments.py` (list_comments) and `repositories/comments.py`.

Each read is one instant of one database state. The order of rows that tie under ORDER BY
is a parameter. Of members only the name is read, and of events the title and the
description. Media paths are not turned into URLs.
-/

namespace SogeconApp.Source.PublicReads

open Library Posts

structure Author where
  id : Int
  name : String
  deriving DecidableEq, Repr

structure Comment where
  id : Int
  postId : Int
  authorId : Int
  content : String
  createdAt : Instant
  deriving DecidableEq, Repr

structure Event where
  id : Int
  title : String
  description : Option String
  deriving DecidableEq, Repr

structure HeroItem where
  id : Int
  targetType : String
  targetId : Int
  enabled : Bool
  pinned : Bool
  titleOverride : Option String
  descriptionOverride : Option String
  imageOverride : Option String
  updatedAt : Instant
  deriving DecidableEq, Repr

/-- The tables with their primary keys, and the foreign key of the comments. -/
structure Db where
  posts : List Post
  comments : List Comment
  events : List Event
  heroItems : List HeroItem
  authors : List Author
  postKey : (posts.map Post.id).Nodup
  commentKey : (comments.map Comment.id).Nodup
  eventKey : (events.map Event.id).Nodup
  heroItemKey : (heroItems.map HeroItem.id).Nodup
  authorKey : (authors.map Author.id).Nodup
  commentPost : ∀ comment ∈ comments, ∃ post ∈ posts, post.id = comment.postId

structure ReadRules where
  search : TextSearch
  heroTie : RowOrder HeroItem
  commentTie : RowOrder Comment
  heroTie_separates : ∀ rows : List HeroItem, (rows.map HeroItem.id).Nodup → heroTie.Separates rows
  commentTie_separates : ∀ rows : List Comment, (rows.map Comment.id).Nodup → commentTie.Separates rows

/-- The author that a row is loaded with. -/
def authorName (db : Db) (authorId : Int) : Option String :=
  (db.authors.find? fun author => author.id = authorId).map Author.name

/-! ## Posts -/

structure PostRead where
  post : Post
  authorName : Option String
  deriving DecidableEq, Repr

def readPost (db : Db) (post : Post) : PostRead := { post, authorName := authorName db post.authorId }

def listPosts (rules : ReadRules) (db : Db) (now : Instant) (limit offset : Nat) (filters : PublicPostFilters) :
    List PostRead :=
  (Posts.listPosts rules.search db.posts now limit offset filters).map (readPost db)

def getPublicPost (db : Db) (now : Instant) (postId : Int) : Except Failure PostRead :=
  (Posts.getPublicPost db.posts now postId).map (readPost db)

/-! ## Hero slides -/

def listHeroItems (rules : ReadRules) (items : List HeroItem) (limit offset : Nat) (enabledOnly : Bool) :
    List HeroItem :=
  let order := ((RowOrder.ascending fun item : HeroItem => if item.pinned then 1 else 0).desc.thenBy
    (RowOrder.ascending HeroItem.updatedAt).desc).thenBy rules.heroTie
  page limit offset <| order.sort <|
    if enabledOnly then selectWhere (fun item => .equals (some item.enabled) (some true)) items else items

/-- `_get_posts_by_ids` and `_get_events_by_ids`, which are one query on two tables. -/
def getByIds {Row : Type} (key : Row → Int) (rows : List Row) (ids : List Int) : List Row :=
  if ids = [] then [] else selectWhere (fun row => .isIn (some (key row)) ids) rows

def getPostsByIds (posts : List Post) (ids : List Int) : List Post := getByIds Post.id posts ids

def getEventsByIds (events : List Event) (ids : List Int) : List Event := getByIds Event.id events ids

structure HeroSlide where
  id : Int
  targetType : String
  targetId : Int
  title : String
  description : String
  image : Option String
  href : String
  unpublished : Bool
  deriving DecidableEq, Repr

/-- `override or text`. -/
def orText (override : Option String) (text : String) : String :=
  match override with
  | some override => if override = "" then text else override
  | none => text

/-- `override or value`. -/
def orValue (override value : Option String) : Option String :=
  if override = some "" then value else override.or value

def postSlide (item : HeroItem) (post : Post) (unpublished : Bool) : HeroSlide :=
  { id := item.id, targetType := "post", targetId := item.targetId
    title := orText item.titleOverride post.title
    description := orText item.descriptionOverride post.content
    image := orValue item.imageOverride post.coverImage
    href := postPublicHref post, unpublished }

def eventSlide (item : HeroItem) (event : Event) : HeroSlide :=
  { id := item.id, targetType := "event", targetId := item.targetId
    title := orText item.titleOverride event.title
    description := orText item.descriptionOverride (orText event.description "행사 안내")
    image := item.imageOverride
    href := "/events/" ++ toString item.targetId, unpublished := false }

/-- The slide of one item; `none` where the loop continues. -/
def slideOf (posts : List Post) (events : List Event) (now : Instant) (allowUnpublished : Bool)
    (item : HeroItem) :
    Option HeroSlide :=
  if item.targetType = "post" then
    match posts.find? fun post => post.id = item.targetId with
    | none => none
    | some post =>
      let unpublished := !isPostPublic post now
      if unpublished ∧ ¬allowUnpublished then none else some (postSlide item post unpublished)
  else if item.targetType = "event" then
    (events.find? fun event => event.id = item.targetId).map (eventSlide item)
  else none

/-- The loop over the items, which breaks when there are enough slides. -/
def collectSlides (slide : HeroItem → Option HeroSlide) (limit : Nat) : List HeroItem → List HeroSlide →
    List HeroSlide
  | [], slides => slides
  | item :: rest, slides =>
    match slide item with
    | none => collectSlides slide limit rest slides
    | some added =>
      if limit ≤ (slides ++ [added]).length then slides ++ [added]
      else collectSlides slide limit rest (slides ++ [added])

def targetIds (targetType : String) (items : List HeroItem) : List Int :=
  (items.filter fun item => item.targetType = targetType).map HeroItem.targetId

def listHeroSlides (rules : ReadRules) (db : Db) (now : Instant) (limit : Nat) (allowUnpublished : Bool) :
    List HeroSlide :=
  let fetchLimit := min (limit * 3) 50
  let items := listHeroItems rules db.heroItems fetchLimit 0 true
  let posts := getPostsByIds db.posts (targetIds "post" items)
  let events := getEventsByIds db.events (targetIds "event" items)
  collectSlides (slideOf posts events now allowUnpublished) limit items []

/-! ## Comments -/

structure CommentRead where
  comment : Comment
  authorName : Option String
  deriving DecidableEq, Repr

def listCommentsByPost (rules : ReadRules) (comments : List Comment) (postId : Int) : List Comment :=
  ((RowOrder.ascending Comment.createdAt).desc.thenBy rules.commentTie).sort <|
    selectWhere (fun comment => .equals (some comment.postId) (some postId)) comments

def listComments (rules : ReadRules) (db : Db) (postId : Int) : List CommentRead :=
  (listCommentsByPost rules db.comments postId).map fun comment =>
    { comment, authorName := authorName db comment.authorId }

end SogeconApp.Source.PublicReads
