import SogeconApp.Source.OwnerPosts
import SogeconApp.Source.SignIn

/-!
# The board: posts, comments and who may write them

Source: `apps/api/routers/posts.py` (create_post, _create_member_post_for_request, update_post,
delete_post, get_post), `routers/board_posts.py`, `routers/comments.py` (create_comment,
delete_comment), `services/comments_service.py`, `repositories/comments.py`,
`repositories/posts.py` (increment_view_count) and `models.py` (Post, Comment).

A request presents any session, and the rows of the members change as they like between two
statements. A comment that is inserted holds the key of its post until its transaction ends, and
a deleted post takes the comments that are left with it. The size of a rate limit is up to the
environment. Left out are what the handlers return, and what `services/posts_service.py` leaves
out elsewhere: the media paths and the size of the columns.
-/

namespace SogeconApp.Source.Board

open Library Program Posts
open SogeconApp.Source.Auth (MemberRow Session)
open SogeconApp.Source.OwnerPosts (Comment)
open SogeconApp.Source.PostWrites (PostCreate PostOwnerUpdate PostUpdate)
open SogeconApp.Source.SignIn (Rules runCheck)

/-! ## Statements -/

inductive Failure where
  | raised (reason : PostWrites.Failure)
  | http (statusCode : Nat) (detail : String)
  deriving DecidableEq, Repr

inductive Stmt where
  /-- The session of the cookie. -/
  | receive
  | member (studentId : String)
  | consumeLimit
  | now
  | post (stmt : PostWrites.Stmt)
  | incrementView (postId : Int)
  /-- The load of `post.comments`. -/
  | commentsOf (postId : Int)
  | getComment (commentId : Int)
  | insertComment (postId authorId : Int) (content : String)
  | deleteComment (commentId : Int)

@[reducible] def Reply : Stmt → Type
  | .receive => Session
  | .member _ => Option Accounts.Member
  | .now => Instant
  | .post stmt => PostWrites.Reply stmt
  | .commentsOf _ => List Int
  | .getComment _ => Option Comment
  | _ => Unit

abbrev board : Signature where
  Stmt := Stmt
  Reply := Reply
  Exn := Failure

/-! ## The store -/

/-- The member rows are what is committed, by student id. -/
structure World where
  members : String → Option Accounts.Member
  posts : PostWrites.World
  comments : Table Int Comment
  nextCommentId : Int

namespace World

def commit (me : SessionId) (world : World) : World :=
  { world with posts := world.posts.commit me, comments := world.comments.commit me }

def rollback (me : SessionId) (world : World) : World :=
  { world with posts := world.posts.rollback me, comments := world.comments.abort me }

end World

/-- What the environment decides. -/
structure Choice where
  fails : Option PostWrites.Failure := none
  session : Session := []
  limited : Bool := false
  now : Instant := 0

/-- `UPDATE posts SET view_count = view_count + 1`, within `INTEGER`. -/
def incrementViewRow (me : SessionId) (postId : Int) (world : World) : Option (Except Failure Unit × World) :=
  (world.posts.posts.updateChecked me postId fun row =>
    if row.viewCount + 1 ≤ 2147483647 then some { row with viewCount := row.viewCount + 1 } else none).map
    fun (result, posts) =>
      match result with
      | .violated => (.error (.raised .interrupted), world)
      | _ => (.ok (), { world with posts := { world.posts with posts } })

/-- The foreign key waits for a post that another session is deleting. -/
def insertCommentRow (me : SessionId) (postId authorId : Int) (content : String) (now : Instant) (world : World) :
    Option (Except Failure Unit × World) :=
  let spent := { world with nextCommentId := world.nextCommentId + 1 }
  match (world.posts.posts.slot postId).draft, world.posts.posts.row me postId with
  | some (owner, none), _ => if owner = me then some (.error (.raised .integrity), spent) else none
  | _, none => some (.error (.raised .integrity), spent)
  | _, some _ =>
    (world.comments.insertRow me world.nextCommentId { postId, authorId, content, createdAt := now }).map
      fun (hit, comments) =>
      if hit then (.ok (), { spent with comments }) else (.error (.raised .integrity), spent)

def deleteCommentRow (me : SessionId) (commentId : Int) (world : World) : Option (Except Failure Unit × World) :=
  (world.comments.deleteRow me commentId fun _ => true).map fun (_, comments) => (.ok (), { world with comments })

def ofPost (postId : Int) (version : Option Comment) : Bool :=
  version.any fun comment => comment.postId = postId

/-- A comment of the post that another session has inserted or deleted. -/
def contended (me : SessionId) (postId : Int) (comments : Table Int Comment) : Bool :=
  comments.keys.any fun key =>
    let slot := comments.slot key
    slot.lockedFor me && (ofPost postId slot.committed || ofPost postId (slot.draft.bind (·.2)))

/-- `ON DELETE CASCADE`. -/
def cascade (me : SessionId) (postId : Int) (comments : Table Int Comment) : Table Int Comment :=
  (comments.select me fun _ comment => comment.postId = postId).foldl
    (fun rows key => rows.write me key none) comments

def deletePostRow (me : SessionId) (postId : Int) (world : World) : Option (Except Failure Unit × World) :=
  if contended me postId world.comments then none
  else
    (world.posts.posts.deleteRow me postId fun _ => true).map fun (hit, posts) =>
      let comments := if hit then cascade me postId world.comments else world.comments
      (.ok (), { world with posts := { world.posts with posts }, comments })

def execPost (rules : Rules) (me : SessionId) (stmt : PostWrites.Stmt) (now : Instant) (world : World) :
    Option (Except Failure (PostWrites.Reply stmt) × World) :=
  match stmt with
  | .memberByStudentId studentId =>
    some (.ok ((world.members studentId).map fun _ => rules.idOf studentId), world)
  | .delete postId => deletePostRow me postId world
  | .commit => some (.ok (), world.commit me)
  | stmt => (PostWrites.answer me stmt { now } world.posts).map fun (reply, posts) =>
    (reply.mapError .raised, { world with posts })

def answer (rules : Rules) (me : SessionId) (stmt : Stmt) (choice : Choice) (world : World) :
    Option (Except Failure (Reply stmt) × World) :=
  match stmt with
  | .receive => some (.ok choice.session, world)
  | .member studentId => some (.ok (world.members studentId), world)
  | .consumeLimit => some (if choice.limited then .error (.http 429 "rate_limited") else .ok (), world)
  | .now => some (.ok choice.now, world)
  | .post stmt => execPost rules me stmt choice.now world
  | .incrementView postId => incrementViewRow me postId world
  | .commentsOf postId =>
    some (.ok (world.comments.select me fun _ comment => comment.postId = postId), world)
  | .getComment commentId => some (.ok (world.comments.row me commentId), world)
  | .insertComment postId authorId content => insertCommentRow me postId authorId content choice.now world
  | .deleteComment commentId => deleteCommentRow me commentId world

def exec (rules : Rules) (me : SessionId) (stmt : Stmt) (choice : Choice) (world : World) :
    Option (Except Failure (Reply stmt) × World) :=
  match choice.fails with
  | some reason => some (.error (.raised reason), world)
  | none => answer rules me stmt choice world

/-- What happens beside the requests: the members are others from then on. -/
abbrev machine (rules : Rules) : Machine board where
  World := World
  Choice := Choice
  Outside := String → Option Accounts.Member
  exec := exec rules
  close := World.rollback
  crash := World.rollback
  outside members world := { world with members }

/-! ## Handlers -/

abbrev Handler (α : Type) := Program board α

abbrev ask (stmt : Stmt) : Handler (Reply stmt) := @issue board stmt

/-- The statements of the posts. -/
def lift {α : Type} : PostWrites.Handler α → Handler α
  | .ret value => .ret value
  | .raise reason => .raise (.raised reason)
  | .exec stmt next => .exec (.post stmt) fun
    | .ok reply => lift (next (.ok reply))
    | .error reason => .raise reason

def failed : Accounts.Failure → Failure
  | .http statusCode detail => .http statusCode detail
  | _ => .raised .interrupted

/-- The row that `_refresh_user_session` selects, when there is a user. -/
def sessionRow (rules : Rules) (session : Session) : Handler (Option (String × Accounts.Member)) :=
  match Auth.getUserSession rules.toSessionRules session with
  | .ok (some user) => do
    let row ← ask (.member user.studentId)
    pure (row.map fun row => (user.studentId, row))
  | _ => pure none

/-- A check of the session: what it finds, and the session after it. -/
def checked {α : Type} (rules : Rules) (check : List MemberRow → Auth.Handler α) (session : Session) :
    Handler (Except Failure α × Session) := do
  let row ← sessionRow rules session
  let (outcome, session) := runCheck rules check row session
  pure (outcome.mapError failed, session)

def required {α : Type} (rules : Rules) (check : List MemberRow → Auth.Handler α) (session : Session) :
    Handler α := do
  match ← checked rules check session with
  | (.ok value, _) => pure value
  | (.error reason, _) => raise reason

/-- The status codes after which a route tries the member. -/
def refused : Failure → Bool
  | .http statusCode _ => statusCode = 401 || statusCode = 403
  | .raised _ => false

/-! ## routers/posts.py -/

/-- `require_permission("admin_posts", allow_admin_fallback=False)`. -/
def requirePostAdmin (rules : Rules) : List MemberRow → Auth.Handler Auth.CurrentUser :=
  Auth.requireAnyPermission rules.toSessionRules ["admin_posts"] false

/-- Every HTTPException of `require_member` becomes a 401. -/
def createMemberPostForRequest (rules : Rules) (payload : PostCreate) (session : Session) : Handler Unit := do
  match ← checked rules (Auth.requireMember rules.toSessionRules) session with
  | (.error (.http _ _), _) => raise (.http 401 "unauthorized")
  | (.error reason, _) => raise reason
  | (.ok member, _) => do
    ask .consumeLimit
    lift (PostWrites.createMemberPost { payload with pinned := false, publishedAt := none }
      member.studentId member.id)

def createPost (rules : Rules) (payload : PostCreate) (session : Session) : Handler Unit := do
  match ← checked rules (Auth.requireAdmin rules.toSessionRules) session with
  | (.error reason, session) =>
    if refused reason then createMemberPostForRequest rules payload session else raise reason
  | (.ok admin, session) => do
    match ← checked rules (Auth.hasAnyPermission rules.toSessionRules ["admin_posts"]) session with
    | (.ok true, _) => lift (PostWrites.createAdminPost payload admin.studentId)
    | (.ok false, session) => createMemberPostForRequest rules payload session
    | (.error reason, _) => raise reason

def updatePost (rules : Rules) (postId : Int) (payload : PostUpdate) (session : Session) : Handler Unit := do
  let _ ← required rules (requirePostAdmin rules) session
  lift (PostWrites.updateAdminPost postId payload)

/-- `posts_repo.delete_post`: the comments that are loaded go one by one, and then the post. -/
def removePost (postId : Int) : Handler Unit := do
  let _ ← lift (PostWrites.getPost none postId)
  let comments ← ask (.commentsOf postId)
  forEach (fun commentId => ask (.deleteComment commentId)) comments
  ask (.post (.delete postId))
  ask (.post .commit)

def deletePost (rules : Rules) (postId : Int) (session : Session) : Handler Unit := do
  let _ ← required rules (requirePostAdmin rules) session
  removePost postId

def getPost (rules : Rules) (postId : Int) (session : Session) : Handler Unit := do
  let post ← lift (PostWrites.getPost none postId)
  let now ← ask .now
  if !isPostPublic post now then raise (.raised (.notFound "post_not_found" "Post not found"))
  else
    match ← checked rules (Auth.isAdmin rules.toSessionRules) session with
    | (.ok true, _) => pure ()
    | (.ok false, _) => do
      ask (.incrementView postId)
      ask (.post .commit)
      ask (.post .refresh)
    | (.error reason, _) => raise reason

/-! ## routers/board_posts.py -/

def memberId (member : Auth.CurrentMember) : Handler Int :=
  match member.id with
  | none => raise (.http 500 "member_id_missing")
  | some id => pure id

def updateBoardPost (rules : Rules) (postId : Int) (payload : PostOwnerUpdate) (session : Session) :
    Handler Unit := do
  let member ← required rules (Auth.requireMember rules.toSessionRules) session
  let id ← memberId member
  lift (PostWrites.updateMemberPost postId payload id)

def deleteBoardPost (rules : Rules) (postId : Int) (session : Session) : Handler Unit := do
  let member ← required rules (Auth.requireMember rules.toSessionRules) session
  let id ← memberId member
  let post ← lift (PostWrites.getBoardPost postId)
  lift (PostWrites.requireMemberBoardOwner post id)
  removePost postId

/-! ## services/comments_service.py and routers/comments.py -/

structure CommentCreate where
  postId : Int
  content : String
  deriving DecidableEq, Repr

def createCommentByStudentId (payload : CommentCreate) (studentId : String) : Handler Unit := do
  let authorId ← lift (PostWrites.memberByStudentId studentId)
  ask (.insertComment payload.postId authorId payload.content)
  ask (.post .commit)
  ask (.post .refresh)

def createComment (rules : Rules) (payload : CommentCreate) (session : Session) : Handler Unit := do
  let member ← required rules (Auth.requireMember rules.toSessionRules) session
  createCommentByStudentId payload member.studentId

/-- `comments_service.delete_comment`. -/
def removeComment (commentId requesterId : Int) (isAdmin : Bool) : Handler Unit := do
  match ← ask (.getComment commentId) with
  | none => raise (.http 404 "comment_not_found")
  | some comment =>
    if isAdmin then do
      ask (.deleteComment commentId)
      ask (.post .commit)
    else if comment.authorId ≠ requesterId then raise (.http 403 "forbidden")
    else do
      ask (.deleteComment commentId)
      ask (.post .commit)

def deleteComment (rules : Rules) (commentId : Int) (session : Session) : Handler Unit := do
  match ← checked rules (Auth.requireAdmin rules.toSessionRules) session with
  | (.ok _, _) => removeComment commentId 0 true
  | (.error reason, session) =>
    if refused reason then do
      let member ← required rules (Auth.requireMember rules.toSessionRules) session
      match member.id with
      | none => raise (.http 500 "Member ID is None")
      | some id => removeComment commentId id false
    else raise reason

/-! ## The routes -/

inductive Request where
  | createPost (payload : PostCreate)
  | updatePost (postId : Int) (payload : PostUpdate)
  | deletePost (postId : Int)
  | getPost (postId : Int)
  | updateBoardPost (postId : Int) (payload : PostOwnerUpdate)
  | deleteBoardPost (postId : Int)
  | createComment (payload : CommentCreate)
  | deleteComment (commentId : Int)

def Request.endpoint (rules : Rules) : Request → Session → Handler Unit
  | .createPost payload => Board.createPost rules payload
  | .updatePost postId payload => Board.updatePost rules postId payload
  | .deletePost postId => Board.deletePost rules postId
  | .getPost postId => Board.getPost rules postId
  | .updateBoardPost postId payload => Board.updateBoardPost rules postId payload
  | .deleteBoardPost postId => Board.deleteBoardPost rules postId
  | .createComment payload => Board.createComment rules payload
  | .deleteComment commentId => Board.deleteComment rules commentId

def Request.program (rules : Rules) (request : Request) : Handler Unit := do
  let session ← ask .receive
  request.endpoint rules session

/-- Every session has its request, and the trace is empty. -/
def start (rules : Rules) (world : World) (requests : SessionId → Option Request) :
    Config (machine rules).traced Unit where
  world := (world, [])
  pool me := (requests me).map (Request.program rules)

end SogeconApp.Source.Board
