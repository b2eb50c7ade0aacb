import SogeconApp.Library.Sessions
import SogeconApp.Source.Posts

/-!
# Writing posts

Source: `apps/api/services/posts_service.py` (create_admin_post, create_member_post,
update_admin_post, update_member_post, delete_member_post, delete_admin_post),
`repositories/posts.py` (get_post, get_board_post, create_post, update_post, delete_post),
`schemas.py` (PostCreate, PostUpdate) and `post_owner_schemas.py` (PostOwnerUpdate).

A payload is what its schema has accepted: a field that may be left out is an option, and one
that may be null as well is an option in an option. A post that a session has read stays as it
was read, whatever a later query of the same session finds. What has been set in it is flushed
at the commit, in one `UPDATE` of the columns that differ. A primary key comes from a sequence
and is not used twice. Left out are the normalisation of the media paths, the size of the
columns, the comments that go with a deleted post, and what the handlers return; the member
that a lookup finds is up to the environment.
-/

namespace SogeconApp.Source.PostWrites

open Library Program Posts

/-! ## schemas.py -/

/-- `PostCategoryLiteral`. -/
inductive PostCategory where
  | discussion | question | share | congrats | notice | news
  deriving DecidableEq, Repr

def PostCategory.text : PostCategory → String
  | .discussion => "discussion"
  | .question => "question"
  | .share => "share"
  | .congrats => "congrats"
  | .notice => "notice"
  | .news => "news"

structure PostCreate where
  title : String
  content : String
  publishedAt : Option Instant := none
  pinned : Bool := false
  coverImage : Option String := none
  images : Option (List String) := none
  category : PostCategory
  authorId : Option Int := none
  deriving DecidableEq, Repr

/-- A null category is rejected. -/
structure PostUpdate where
  title : Option (Option String) := none
  content : Option (Option String) := none
  category : Option PostCategory := none
  pinned : Option (Option Bool) := none
  publishedAt : Option (Option Instant) := none
  coverImage : Option (Option String) := none
  images : Option (Option (List String)) := none
  unpublish : Bool := false
  deriving DecidableEq, Repr

structure PostOwnerUpdate where
  title : Option String := none
  content : Option String := none
  coverImage : Option (Option String) := none
  images : Option (Option (List String)) := none
  deriving DecidableEq, Repr

/-- `schemas.PostUpdate(**payload.model_dump(exclude_unset=True))`. -/
def PostOwnerUpdate.toPostUpdate (payload : PostOwnerUpdate) : PostUpdate where
  title := payload.title.map some
  content := payload.content.map some
  coverImage := payload.coverImage
  images := payload.images

/-! ## The mapped object -/

/-- The attributes of a post that an update can set. -/
structure PostObject where
  title : Option String
  content : Option String
  category : Option String
  pinned : Option Bool
  publishedAt : Option Instant
  coverImage : Option String
  images : Option (List String)
  deriving DecidableEq, Repr

def loadedPost (row : Post) : PostObject where
  title := some row.title
  content := some row.content
  category := row.category
  pinned := some row.pinned
  publishedAt := row.publishedAt
  coverImage := row.coverImage
  images := row.images

/-- `setattr` for each field of the payload. -/
def PostObject.set (payload : PostUpdate) (post : PostObject) : PostObject where
  title := payload.title.getD post.title
  content := payload.content.getD post.content
  category :=
    match payload.category with
    | some category => some category.text
    | none => post.category
  pinned := payload.pinned.getD post.pinned
  publishedAt := if payload.unpublish then none else payload.publishedAt.getD post.publishedAt
  coverImage := payload.coverImage.getD post.coverImage
  images := payload.images.getD post.images

/-- The row after the flush of a loaded post; `none` where a column that is NOT NULL would be null. -/
def flushedPost (loaded latest : PostObject) (stored : Post) : Option Post := do
  let title ← flushedColumn loaded.title latest.title (some stored.title)
  let content ← flushedColumn loaded.content latest.content (some stored.content)
  let pinned ← flushedColumn loaded.pinned latest.pinned (some stored.pinned)
  some { stored with
    title, content, pinned
    category := flushedColumn loaded.category latest.category stored.category
    publishedAt := flushedColumn loaded.publishedAt latest.publishedAt stored.publishedAt
    coverImage := flushedColumn loaded.coverImage latest.coverImage stored.coverImage
    images := flushedColumn loaded.images latest.images stored.images }

/-! ## Statements -/

inductive Failure where
  | notFound (code detail : String)
  | api (code detail : String) (status : Nat)
  /-- A constraint of the table. -/
  | integrity
  | staleData
  /-- A database error or a cancellation, at any statement. -/
  | interrupted
  deriving DecidableEq, Repr

inductive Stmt where
  | memberByStudentId (studentId : String)
  | getPost (postId : Int)
  /-- `getPost` with `category IN` the board categories. -/
  | getBoardPost (postId : Int)
  | insert (payload : PostCreate)
  | flush (postId : Int) (loaded latest : PostObject)
  | delete (postId : Int)
  | refresh
  | commit
  deriving DecidableEq

@[reducible] def Reply : Stmt → Type
  | .memberByStudentId _ => Option Int
  | .getPost _ | .getBoardPost _ => Option Post
  | _ => Unit

abbrev posts : Signature where
  Stmt := Stmt
  Reply := Reply
  Exn := Failure

/-! ## The store -/

/-- The rows by primary key, and the sequence of the keys. -/
structure World where
  posts : Table Int Post
  nextId : Int

namespace World

def commit (me : SessionId) (world : World) : World := { world with posts := world.posts.commit me }

def rollback (me : SessionId) (world : World) : World :=
  { world with posts := world.posts.abort me }

end World

/-- What the environment decides: an exception, the clock of the database, and the member that
has a student id. -/
structure Choice where
  fails : Option Failure := none
  now : Instant := 0
  member : Option Int := none

/-- `models.Post(**payload.model_dump(), view_count=0)`, with the defaults of the database. -/
def createdPost (id authorId : Int) (now : Instant) (payload : PostCreate) : Post where
  id := id
  authorId := authorId
  title := payload.title
  content := payload.content
  publishedAt := payload.publishedAt
  createdAt := some now
  category := some payload.category.text
  pinned := payload.pinned
  coverImage := payload.coverImage
  images := payload.images
  viewCount := 0

def insert (me : SessionId) (payload : PostCreate) (now : Instant) (world : World) :
    Option (Except Failure Unit × World) :=
  let spent := { world with nextId := world.nextId + 1 }
  match payload.authorId with
  | none => some (.error .integrity, spent)
  | some authorId =>
    (world.posts.insertRow me world.nextId (createdPost world.nextId authorId now payload)).map
      fun (hit, posts) =>
      if hit then (.ok (), { spent with posts }) else (.error .integrity, spent)

def flush (me : SessionId) (postId : Int) (loaded latest : PostObject) (world : World) :
    Option (Except Failure Unit × World) :=
  (world.posts.updateChecked me postId (flushedPost loaded latest)).map fun (result, posts) =>
    match result with
    | .written => (.ok (), { world with posts })
    | .violated => (.error .integrity, world)
    | .missed => (.error .staleData, world)

def delete (me : SessionId) (postId : Int) (world : World) : Option (Except Failure Unit × World) :=
  (world.posts.deleteRow me postId fun _ => true).map fun (_, posts) =>
    (.ok (), { world with posts })

def answer (me : SessionId) (stmt : Stmt) (choice : Choice) (world : World) :
    Option (Except Failure (Reply stmt) × World) :=
  match stmt with
  | .memberByStudentId _ => some (.ok choice.member, world)
  | .getPost postId => some (.ok (world.posts.row me postId), world)
  | .getBoardPost postId =>
    some (.ok ((world.posts.row me postId).filter fun row => isBoard row.category), world)
  | .insert payload => insert me payload choice.now world
  | .flush postId loaded latest => flush me postId loaded latest world
  | .delete postId => delete me postId world
  | .refresh => some (.ok (), world)
  | .commit => some (.ok (), world.commit me)

def exec (me : SessionId) (stmt : Stmt) (choice : Choice) (world : World) :
    Option (Except Failure (Reply stmt) × World) :=
  match choice.fails with
  | some reason => some (.error reason, world)
  | none => answer me stmt choice world

abbrev machine : Machine posts where
  World := World
  Choice := Choice
  Outside := Empty
  exec := exec
  close := World.rollback
  crash := World.rollback
  outside change := nomatch change

def answering : Answering machine where
  fails := Choice.fails
  answer := answer
  exec_eq me stmt choice world := by
    simp only [exec]
    cases choice.fails <;> rfl

/-! ## repositories/posts.py -/

abbrev Handler (α : Type) := Program posts α

abbrev ask (stmt : Stmt) : Handler (Reply stmt) := @issue posts stmt

/-- `held` is the post that the session has read already. -/
def getPost (held : Option Post) (postId : Int) : Handler Post := do
  match ← ask (.getPost postId) with
  | none => raise (.notFound "post_not_found" "Post not found")
  | some row => pure (held.getD row)

def getBoardPost (postId : Int) : Handler Post := do
  match ← ask (.getBoardPost postId) with
  | none => raise (.notFound "post_not_found" "Post not found")
  | some row => pure row

def createPost (payload : PostCreate) : Handler Unit := do
  ask (.insert payload)
  ask .commit
  ask .refresh

/-- The flush of a post; if nothing has been changed there is none. -/
def save (postId : Int) (loaded latest : PostObject) : Handler Unit :=
  if latest = loaded then pure () else ask (.flush postId loaded latest)

def updatePost (held : Option Post) (postId : Int) (payload : PostUpdate) : Handler Unit := do
  let post ← getPost held postId
  save postId (loadedPost post) ((loadedPost post).set payload)
  ask .commit
  ask .refresh

def deletePost (held : Option Post) (postId : Int) : Handler Unit := do
  let _ ← getPost held postId
  ask (.delete postId)
  ask .commit

/-! ## services/posts_service.py -/

def memberByStudentId (studentId : String) : Handler Int := do
  match ← ask (.memberByStudentId studentId) with
  | none => raise (.notFound "member_not_found" "Member not found")
  | some id => pure id

def requireBoardCategory (category : PostCategory) : Handler Unit :=
  if category.text ∈ boardPostCategories then pure ()
  else raise (.api "invalid_post_category"
    "member posts must use one of: congrats, discussion, question, share" 422)

def createAdminPost (payload : PostCreate) (adminStudentId : String) : Handler Unit := do
  let id ← memberByStudentId adminStudentId
  createPost { payload with authorId := some id }

def createMemberPost (payload : PostCreate) (memberStudentId : String) (memberId : Option Int) :
    Handler Unit := do
  requireBoardCategory payload.category
  let authorId ←
    match memberId with
    | some id => pure id
    | none => memberByStudentId memberStudentId
  createPost { payload with authorId := some authorId, pinned := false, publishedAt := none }

def updateAdminPost (postId : Int) (payload : PostUpdate) : Handler Unit :=
  match payload.category with
  | none => updatePost none postId payload
  | some category => do
    let current ← getPost none postId
    if isBoard current.category ≠ isBoard (some category.text) then
      raise (.api "board_category_immutable"
        "post category cannot cross board and published visibility boundaries" 422)
    else updatePost (some current) postId payload

def requireMemberBoardOwner (post : Post) (memberId : Int) : Handler Unit :=
  if post.authorId ≠ memberId then
    raise (.api "post_owner_required" "only the author can modify board posts" 403)
  else pure ()

def updateMemberPost (postId : Int) (payload : PostOwnerUpdate) (memberId : Int) :
    Handler Unit := do
  let post ← getBoardPost postId
  requireMemberBoardOwner post memberId
  updatePost (some post) postId payload.toPostUpdate

def deleteMemberPost (postId memberId : Int) : Handler Unit := do
  let post ← getBoardPost postId
  requireMemberBoardOwner post memberId
  deletePost (some post) postId

def deleteAdminPost (postId : Int) : Handler Unit := deletePost none postId

inductive Request where
  | createAdmin (payload : PostCreate) (adminStudentId : String)
  | createMember (payload : PostCreate) (memberStudentId : String) (memberId : Option Int)
  | updateAdmin (postId : Int) (payload : PostUpdate)
  | updateMember (postId : Int) (payload : PostOwnerUpdate) (memberId : Int)
  | deleteAdmin (postId : Int)
  | deleteMember (postId memberId : Int)

def Request.program : Request → Handler Unit
  | .createAdmin payload adminStudentId => createAdminPost payload adminStudentId
  | .createMember payload memberStudentId memberId =>
    createMemberPost payload memberStudentId memberId
  | .updateAdmin postId payload => updateAdminPost postId payload
  | .updateMember postId payload memberId => updateMemberPost postId payload memberId
  | .deleteAdmin postId => deleteAdminPost postId
  | .deleteMember postId memberId => deleteMemberPost postId memberId

def start (world : World) (requests : SessionId → Option Request) : Config machine Unit where
  world := world
  pool me := (requests me).map Request.program

/-- The next statements of a session, none of which fails. -/
def executes (me : SessionId) (statements : Nat) : List (Action machine) :=
  List.replicate statements (.exec me {})

end SogeconApp.Source.PostWrites
