import SogeconApp.Source.MediaPaths
import SogeconApp.Source.PartialUpdates

/-!
# A member's own board posts

Source: `apps/api/services/posts_service.py` (_require_member_board_owner, update_member_post,
delete_member_post), `repositories/posts.py` (get_board_post, get_post, update_post, delete_post),
`post_owner_schemas.py` (PostOwnerUpdate), `schemas.py` (PostUpdate) and `models.py` (Post, Comment).

A request runs alone on the committed rows of the two tables. An owner's payload is what its schema
has accepted, with the media paths normalised once; the administrator's schema normalises them
again. The comments of a deleted post go with it, by the cascade of the relationship and of the
foreign key. A session that ends with an exception leaves nothing behind.
-/

namespace SogeconApp.Source.OwnerPosts

open Library
open Posts (Instant isBoard)
open PostWrites (PostOwnerUpdate PostUpdate)
open PartialUpdates (IsInteger)

structure Post extends PartialUpdates.Post where
  authorId : Int
  createdAt : Option Instant
  viewCount : Int
  deriving DecidableEq

structure Comment where
  postId : Int
  authorId : Int
  content : String
  createdAt : Instant
  deriving DecidableEq, Repr

/-- The rows by primary key. -/
structure State where
  posts : Int → Option Post
  comments : Int → Option Comment

inductive Failure where
  /-- An error of the API, or of the database. -/
  | raised (reason : PartialUpdates.Failure)
  /-- pydantic's ValidationError: a media path that `urlsplit` refuses. -/
  | validation
  deriving DecidableEq, Repr

def Failure.api (code detail : String) (status : Nat) : Failure := .raised (.api code detail status)

abbrev Result (α : Type) := Except Failure α × State

/-! ## schemas.py and post_owner_schemas.py -/

/-- The configuration that the validators read. -/
structure Media where
  rules : NetlocRules
  mediaUrlBase : MediaPaths.Text

def normalizeCoverImage (media : Media) (value : Option String) : Except Failure (Option String) :=
  match MediaPaths.normalizeMediaPath media.rules media.mediaUrlBase (value.map String.toList) with
  | .ok path => .ok (path.map String.ofList)
  | .error _ => .error .validation

def normalizeImages (media : Media) (value : Option (List String)) :
    Except Failure (Option (List String)) :=
  match MediaPaths.normalizeMediaPaths media.rules media.mediaUrlBase (value.map (·.map String.toList)) with
  | .ok paths => .ok (paths.map (·.map String.ofList))
  | .error _ => .error .validation

/-- A validator of a field that is set. -/
def validated {α : Type} (validator : α → Except Failure α) : Option α → Except Failure (Option α)
  | none => .ok none
  | some value => (validator value).map some

/-- `schemas.PostUpdate(**payload.model_dump(exclude_unset=True))`, with its validators. -/
def adminPayload (media : Media) (payload : PostOwnerUpdate) : Except Failure PostUpdate := do
  let coverImage ← validated (normalizeCoverImage media) payload.coverImage
  let images ← validated (normalizeImages media) payload.images
  pure { payload.toPostUpdate with coverImage, images }

/-! ## repositories/posts.py -/

def postNotFound : Failure := .api "post_not_found" "Post not found" 404

/-- A key beyond `INTEGER` is refused by the database. -/
def getPost (state : State) (postId : Int) : Except Failure Post :=
  if IsInteger postId then
    match state.posts postId with
    | some post => .ok post
    | none => .error postNotFound
  else .error (.raised (.database (.data ["id"])))

/-- `getPost` with `category IN` the board categories. -/
def getBoardPost (state : State) (postId : Int) : Except Failure Post :=
  if IsInteger postId then
    match state.posts postId with
    | some post => if isBoard (post.category.map (·.val)) then .ok post else .error postNotFound
    | none => .error postNotFound
  else .error (.raised (.database (.data ["id"])))

/-- The columns that an update can set are checked and stored as any partial update's are. -/
def updatePost (state : State) (postId : Int) (payload : PostUpdate) : Result Unit :=
  match getPost state postId with
  | .error reason => (.error reason, state)
  | .ok post =>
    let columns := fun id => (state.posts id).map Post.toPost
    match (PartialUpdates.updatePost columns postId payload).reply with
    | .ok stored =>
      (.ok (), { state with posts := Function.update state.posts postId (some { post with toPost := stored }) })
    | .error reason => (.error (.raised reason), state)

def deletePost (state : State) (postId : Int) : Result Int :=
  match getPost state postId with
  | .error reason => (.error reason, state)
  | .ok _ =>
    (.ok postId,
      { posts := Function.update state.posts postId none
        comments := fun id => (state.comments id).filter fun comment => comment.postId ≠ postId })

/-! ## services/posts_service.py -/

def requireMemberBoardOwner (post : Post) (memberId : Int) : Except Failure Unit :=
  if post.authorId ≠ memberId then
    .error (.api "post_owner_required" "only the author can modify board posts" 403)
  else .ok ()

def updateMemberPost (media : Media) (state : State) (postId : Int) (payload : PostOwnerUpdate)
    (memberId : Int) : Result Unit :=
  match getBoardPost state postId with
  | .error reason => (.error reason, state)
  | .ok post =>
    match requireMemberBoardOwner post memberId with
    | .error reason => (.error reason, state)
    | .ok () =>
      match adminPayload media payload with
      | .error reason => (.error reason, state)
      | .ok adminPayload => updatePost state postId adminPayload

def deleteMemberPost (state : State) (postId memberId : Int) : Result Int :=
  match getBoardPost state postId with
  | .error reason => (.error reason, state)
  | .ok post =>
    match requireMemberBoardOwner post memberId with
    | .error reason => (.error reason, state)
    | .ok () => deletePost state postId

end SogeconApp.Source.OwnerPosts
