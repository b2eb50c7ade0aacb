import SogeconApp.Guarantees.SignIn.Checks
import SogeconApp.Source.Board

/-!
# What a request may do to the board

A statement that writes needs a reason among the exchanges of its own request: the session presented, the
member rows read, the post or the comment that was found.
-/

namespace SogeconApp.Guarantees.Board

open Library Program Source.Board
open SogeconApp.Source.Auth (CurrentUser getUserSession hasPermission)
open SogeconApp.Source.OwnerPosts (Comment)
open SogeconApp.Source.PostWrites (PostCreate PostObject)
open SogeconApp.Source.Posts (Post boardPostCategories isPostPublic)
open SogeconApp.Source.SignIn (Rules refreshed)

/-- What a request has exchanged. -/
abbrev Known := List (Exchange board)

section Reasons

variable (rules : Rules) (known : Known)

/-- The session has the entry of the student. -/
def Presented (studentId : String) : Prop :=
  ∃ session user, ⟨.receive, session⟩ ∈ known ∧ getUserSession rules.toSessionRules session = .ok (some user) ∧
    user.studentId = studentId

/-- The request acts for the user that the session and an active row make. -/
def Acting (user : CurrentUser) : Prop :=
  Presented rules known user.studentId ∧ ∃ row, ⟨.member user.studentId, some row⟩ ∈ known ∧
    row.status = .active ∧ user = refreshed rules user.studentId row

/-- The request acts for a member, who has the id. -/
def Member (id : Int) : Prop :=
  ∃ user, Acting rules known user ∧ ("member" ∈ user.roles ∨ "admin" ∈ user.roles ∨ "super_admin" ∈ user.roles) ∧
    (user.id = some id ∨ ⟨.post (.memberByStudentId user.studentId), some id⟩ ∈ known)

def Administrator : Prop := ∃ user, Acting rules known user ∧ ("admin" ∈ user.roles ∨ "super_admin" ∈ user.roles)

/-- The request acts for a holder of `admin_posts`. -/
def Manager (studentId : String) : Prop :=
  ∃ user, Acting rules known user ∧ user.studentId = studentId ∧
    hasPermission rules.toTextRules user.roles "admin_posts" false = true

/-- The post was found on the board, and the request acts for its author. -/
def Owner (postId : Int) : Prop :=
  ∃ row : Post, ⟨.post (.getBoardPost postId), some row⟩ ∈ known ∧ Member rules known row.authorId

def MayRemovePost (postId : Int) : Prop := (∃ studentId, Manager rules known studentId) ∨ Owner rules known postId

/-- The comment was found, and the request acts for its author or for an administrator. -/
def MayRemoveComment (commentId : Int) : Prop :=
  ∃ comment : Comment, ⟨.getComment commentId, some comment⟩ ∈ known ∧
    (Administrator rules known ∨ Member rules known comment.authorId)

/-- The comment is one that goes with its post. -/
def WithPost (commentId : Int) : Prop :=
  ∃ (postId : Int) (comments : List Int), ⟨.commentsOf postId, comments⟩ ∈ known ∧ commentId ∈ comments ∧
    MayRemovePost rules known postId

/-- A member's post is an unpublished one on the board. -/
def MayInsert (payload : PostCreate) : Prop :=
  (∃ studentId id, Manager rules known studentId ∧ payload.authorId = some id ∧
    ⟨.post (.memberByStudentId studentId), some id⟩ ∈ known) ∨
  (∃ id, Member rules known id ∧ payload.authorId = some id) ∧ payload.category.text ∈ boardPostCategories ∧
    payload.pinned = false ∧ payload.publishedAt = none

/-- An owner's update keeps what only a manager decides. -/
def MayFlush (postId : Int) (loaded latest : PostObject) : Prop :=
  (∃ studentId, Manager rules known studentId) ∨ Owner rules known postId ∧ latest.category = loaded.category ∧
    latest.pinned = loaded.pinned ∧ latest.publishedAt = loaded.publishedAt

def May : Stmt → Prop
  | .insertComment _ authorId _ => Member rules known authorId
  | .deleteComment commentId => MayRemoveComment rules known commentId ∨ WithPost rules known commentId
  | .post (.insert payload) => MayInsert rules known payload
  | .post (.flush postId loaded latest) => MayFlush rules known postId loaded latest
  | .post (.delete postId) => MayRemovePost rules known postId
  | .incrementView postId => ∃ (row : Post) (now : Source.Posts.Instant),
      ⟨.post (.getPost postId), some row⟩ ∈ known ∧ ⟨.now, now⟩ ∈ known ∧ isPostPublic row now = true
  | _ => True

end Reasons

variable {rules : Rules} {known later : Known} {id postId commentId : Int} {studentId : String}
  {user : CurrentUser}

section More

variable (sub : known ⊆ later)
include sub

/-- A reason stays one when the request learns more: what it has exchanged is only added to. -/
theorem Acting.more (acting : Acting rules known user) : Acting rules later user := by
  obtain ⟨⟨session, claimed, received, found, same⟩, row, read, active, made⟩ := acting
  exact ⟨⟨session, claimed, sub received, found, same⟩, row, sub read, active, made⟩

theorem Member.more (member : Member rules known id) : Member rules later id := by
  obtain ⟨user, acting, listed, named⟩ := member
  exact ⟨user, acting.more sub, listed, named.imp_right (sub ·)⟩

theorem Administrator.more (administrator : Administrator rules known) : Administrator rules later := by
  obtain ⟨user, acting, listed⟩ := administrator
  exact ⟨user, acting.more sub, listed⟩

theorem Manager.more (manager : Manager rules known studentId) : Manager rules later studentId := by
  obtain ⟨user, acting, same, permitted⟩ := manager
  exact ⟨user, acting.more sub, same, permitted⟩

theorem Owner.more (owner : Owner rules known postId) : Owner rules later postId := by
  obtain ⟨row, found, member⟩ := owner
  exact ⟨row, sub found, member.more sub⟩

theorem MayRemovePost.more (may : MayRemovePost rules known postId) : MayRemovePost rules later postId := by
  rcases may with ⟨studentId, manager⟩ | owner
  · exact .inl ⟨studentId, manager.more sub⟩
  · exact .inr (owner.more sub)

theorem MayRemoveComment.more (may : MayRemoveComment rules known commentId) :
    MayRemoveComment rules later commentId := by
  obtain ⟨comment, found, reason⟩ := may
  exact ⟨comment, sub found, reason.imp (·.more sub) (·.more sub)⟩

theorem WithPost.more (may : WithPost rules known commentId) : WithPost rules later commentId := by
  obtain ⟨postId, comments, listed, member, reason⟩ := may
  exact ⟨postId, comments, sub listed, member, reason.more sub⟩

theorem MayInsert.more {payload : PostCreate} (may : MayInsert rules known payload) :
    MayInsert rules later payload := by
  rcases may with ⟨studentId, id, manager, author, found⟩ | ⟨⟨id, member, author⟩, plain⟩
  · exact .inl ⟨studentId, id, manager.more sub, author, sub found⟩
  · exact .inr ⟨⟨id, member.more sub, author⟩, plain⟩

theorem MayFlush.more {loaded latest : PostObject} (may : MayFlush rules known postId loaded latest) :
    MayFlush rules later postId loaded latest := by
  rcases may with ⟨studentId, manager⟩ | ⟨owner, kept⟩
  · exact .inl ⟨studentId, manager.more sub⟩
  · exact .inr ⟨owner.more sub, kept⟩

/-- What a request was allowed it stays allowed, so a route may be followed statement by statement. -/
theorem May.more {stmt : Stmt} (may : May rules known stmt) : May rules later stmt := by
  cases stmt with
  | insertComment postId authorId content => exact Member.more sub may
  | deleteComment commentId => exact may.imp (·.more sub) (·.more sub)
  | incrementView postId =>
    obtain ⟨row, now, found, read, visible⟩ := may
    exact ⟨row, now, sub found, sub read, visible⟩
  | post stmt =>
    cases stmt with
    | insert payload => exact MayInsert.more sub may
    | flush postId loaded latest => exact MayFlush.more sub may
    | delete postId => exact MayRemovePost.more sub may
    | _ => trivial
  | _ => trivial

end More

/-- The policy of the routes. -/
def routes (rules : Rules) : Policy board where
  allow := May rules
  mono sub may := May.more sub may

end SogeconApp.Guarantees.Board
