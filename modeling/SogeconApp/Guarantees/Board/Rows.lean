import SogeconApp.Guarantees.Board.Routes
import SogeconApp.Library.Lineage

/-!
# What becomes of a post and of a comment

A post keeps its author, and its views are not taken back; whoever changed or removed it had a reason that the
trace shows. A comment stays as it is until somebody with a reason removes it, or its post.
-/

namespace SogeconApp.Guarantees.Board

open Library Program Policy Source.Board
open Library.Table (Change Descends Fixed Lineage Ordered Respects)
open SogeconApp.Source.OwnerPosts (Comment)
open SogeconApp.Source.PostWrites (PostCreate PostObject createdPost flushedPost)
open SogeconApp.Source.Posts (Post boardPostCategories)
open SogeconApp.Source.SignIn (Rules)

variable {rules : Rules} {known : Known} {world world' : World} {trace later : Trace board} {me : SessionId}

/-! ## Reasons in a trace -/

/-- The statement was answered to a session that had the reason. -/
def By (trace : Trace board) (stmt : Stmt) (reason : Known → Prop) : Prop :=
  Trace.By trace stmt fun earlier me => reason (Trace.own me earlier)

/-- A reason that a trace shows is shown by every longer one. -/
theorem By.append {stmt : Stmt} {reason : Known → Prop} (by_ : By trace stmt reason) :
    By (trace ++ later) stmt reason :=
  Trace.By.append by_

/-- The session whose statement has just been answered. -/
theorem By.last {stmt : Stmt} {reply : Reply stmt} {reason : Known → Prop} (holds : reason (Trace.own me trace)) :
    By (trace ++ Trace.recorded (S := board) me stmt (.ok reply)) stmt reason :=
  Trace.By.last (S := board) reply holds

/-- The request acts for the member whose row has the id. -/
def ActsAs (rules : Rules) (known : Known) (id : Int) : Prop :=
  ∃ user, Acting rules known user ∧ ("member" ∈ user.roles ∨ "admin" ∈ user.roles ∨ "super_admin" ∈ user.roles) ∧
    id = rules.idOf user.studentId

def Manages (rules : Rules) (known : Known) : Prop := ∃ studentId, Manager rules known studentId

/-- The request found the author's post on the board, and acts for the author. -/
def Owns (rules : Rules) (known : Known) (postId authorId : Int) : Prop :=
  ∃ found : Post, ⟨.post (.getBoardPost postId), some found⟩ ∈ known ∧ found.authorId = authorId ∧
    ActsAs rules known authorId

/-- A manager's own post, or a member's unpublished one on the board. -/
def MayCreate (rules : Rules) (known : Known) (payload : PostCreate) (authorId : Int) : Prop :=
  (∃ studentId, Manager rules known studentId ∧ authorId = rules.idOf studentId) ∨
    ActsAs rules known authorId ∧ payload.category.text ∈ boardPostCategories ∧ payload.pinned = false ∧
      payload.publishedAt = none

section Steps

variable (rules : Rules) (trace : Trace board)

def PostBorn (postId : Int) (row : Post) : Prop :=
  ∃ payload now, payload.authorId = some row.authorId ∧ row = createdPost postId row.authorId now payload ∧
    By trace (.post (.insert payload)) fun known => MayCreate rules known payload row.authorId

def CommentBorn (comment : Comment) : Prop :=
  By trace (.insertComment comment.postId comment.authorId comment.content) fun known =>
    ActsAs rules known comment.authorId

/-- What has become of a post that is still there. -/
structure Edited (postId : Int) (row row' : Post) : Prop where
  id : row'.id = row.id
  author : row'.authorId = row.authorId
  created : row'.createdAt = row.createdAt
  views : row.viewCount ≤ row'.viewCount
  standing : (row'.category = row.category ∧ row'.pinned = row.pinned ∧ row'.publishedAt = row.publishedAt) ∨
    ∃ loaded latest, By trace (.post (.flush postId loaded latest)) (Manages rules)
  text : (row'.title = row.title ∧ row'.content = row.content ∧ row'.coverImage = row.coverImage ∧
      row'.images = row.images) ∨
    ∃ loaded latest, By trace (.post (.flush postId loaded latest)) fun known =>
      Manages rules known ∨ Owns rules known postId row.authorId

def PostStep (postId : Int) (row : Post) : Option Post → Prop
  | some row' => Edited rules trace postId row row'
  | none => By trace (.post (.delete postId)) fun known => Manages rules known ∨
    Owns rules known postId row.authorId

/-- By its author or an administrator, or with its post. -/
def CommentRemoved (commentId : Int) (comment : Comment) : Prop :=
  By trace (.deleteComment commentId) (fun known => Administrator rules known ∨
    ActsAs rules known comment.authorId) ∨
    ∃ stmt, (stmt = .deleteComment commentId ∨ stmt = .post (.delete comment.postId)) ∧
      By trace stmt fun known => Manages rules known ∨ ∃ authorId, Owns rules known comment.postId authorId

def CommentStep (commentId : Int) (comment : Comment) (version : Option Comment) : Prop :=
  version = some comment ∨ version = none ∧ CommentRemoved rules trace commentId comment

end Steps

theorem Edited.append {postId : Int} {row row' : Post} (edited : Edited rules trace postId row row') :
    Edited rules (trace ++ later) postId row row' where
  id := edited.id
  author := edited.author
  created := edited.created
  views := edited.views
  standing := edited.standing.imp_right fun ⟨loaded, latest, by_⟩ => ⟨loaded, latest, by_.append⟩
  text := edited.text.imp_right fun ⟨loaded, latest, by_⟩ => ⟨loaded, latest, by_.append⟩

/-- A removed post is one that a manager or its owner has removed. -/
theorem postStep_none {postId : Int} {row : Post} : PostStep rules trace postId row none ↔
    By trace (.post (.delete postId)) fun known => Manages rules known ∨ Owns rules known postId row.authorId :=
  .rfl

theorem PostStep.append {postId : Int} {row : Post} {version : Option Post}
    (step : PostStep rules trace postId row version) :
    PostStep rules (trace ++ later) postId row version := by
  cases version with
  | some row' => exact Edited.append step
  | none => exact postStep_none.mpr (postStep_none.mp step).append

theorem CommentStep.append {commentId : Int} {comment : Comment} {version : Option Comment}
    (step : CommentStep rules trace commentId comment version) :
    CommentStep rules (trace ++ later) commentId comment version := by
  rcases step with same | ⟨gone, by_ | ⟨stmt, which, by_⟩⟩
  · exact .inl same
  · exact .inr ⟨gone, .inl by_.append⟩
  · exact .inr ⟨gone, .inr ⟨stmt, which, by_.append⟩⟩

theorem PostBorn.append {postId : Int} {row : Post} (born : PostBorn rules trace postId row) :
    PostBorn rules (trace ++ later) postId row := by
  obtain ⟨payload, now, author, made, by_⟩ := born
  exact ⟨payload, now, author, made, by_.append⟩

theorem CommentBorn.append {comment : Comment} (born : CommentBorn rules trace comment) :
    CommentBorn rules (trace ++ later) comment := By.append born

theorem Edited.refl (postId : Int) (row : Post) : Edited rules trace postId row row :=
  ⟨rfl, rfl, rfl, Int.le_refl _, .inl ⟨rfl, rfl, rfl⟩, .inl ⟨rfl, rfl, rfl, rfl⟩⟩

/-- Two changes one after the other are one: what the second keeps was kept or explained by the first.
-/
theorem Edited.trans {postId : Int} {row middle last : Post} (first : Edited rules trace postId row middle)
    (second : Edited rules trace postId middle last) : Edited rules trace postId row last where
  id := second.id.trans first.id
  author := second.author.trans first.author
  created := second.created.trans first.created
  views := Int.le_trans first.views second.views
  standing := by
    rcases second.standing with ⟨category, pinned, published⟩ | changed
    · rw [category, pinned, published]
      exact first.standing
    · exact .inr changed
  text := by
    rcases second.text with ⟨title, content, cover, images⟩ | changed
    · rw [title, content, cover, images]
      exact first.text
    · rw [first.author] at changed
      exact .inr changed

/-- The changes of a post compose, so a run may be read as one change of each row. -/
theorem postStep_ordered : Ordered (PostStep rules trace) where
  stays postId row := Edited.refl postId row
  follows postId row middle version first second := by
    cases version with
    | some last => exact Edited.trans first second
    | none =>
      have gone := postStep_none.mp second
      rw [Edited.author first] at gone
      exact postStep_none.mpr gone

theorem commentStep_ordered : Ordered (CommentStep rules trace) where
  stays commentId comment := .inl rfl
  follows commentId comment middle version first second := by
    rcases first with same | ⟨gone, -⟩
    · cases same
      exact second
    · cases gone

theorem postStep_author : Respects (PostStep rules trace) fun row => row.authorId := fun _ _ _ step => step.author

/-- Every field of a comment is kept as long as the comment is there. -/
theorem commentStep_same {γ : Type} (field : Comment → γ) : Respects (CommentStep rules trace) field := by
  intro key comment other step
  rcases step with same | ⟨gone, -⟩
  · cases same
    rfl
  · cases gone

/-! ## What the trace says of the rows -/

/-- What was read under a key holds of every row that has it. -/
structure Shown (rules : Rules) (world : World) (trace : Trace board) : Prop where
  ids : ∀ me studentId id, (me, ⟨.post (.memberByStudentId studentId), some id⟩) ∈ trace →
    id = rules.idOf studentId
  authors : ∀ me postId row, (me, ⟨.post (.getBoardPost postId), some row⟩) ∈ trace →
    Fixed (fun post => post.authorId) postId row.authorId world.posts.nextId world.posts.posts
  found : ∀ me commentId comment, (me, ⟨.getComment commentId, some comment⟩) ∈ trace →
    Fixed (fun other => other.authorId) commentId comment.authorId world.nextCommentId world.comments
  listed : ∀ me postId commentIds, (me, ⟨.commentsOf postId, commentIds⟩) ∈ trace → ∀ commentId ∈ commentIds,
    Fixed (fun comment => comment.postId) commentId postId world.nextCommentId world.comments

theorem Shown.nil : Shown rules world [] := ⟨by simp, by simp, by simp, by simp⟩

/-- What two traces show of the rows is shown by both together. -/
theorem Shown.append (shown : Shown rules world trace) (now : Shown rules world later) :
    Shown rules world (trace ++ later) where
  ids me studentId id member := (List.mem_append.mp member).elim (shown.ids me studentId id)
    (now.ids me studentId id)
  authors me postId row member :=
    (List.mem_append.mp member).elim (shown.authors me postId row) (now.authors me postId row)
  found me commentId comment member :=
    (List.mem_append.mp member).elim (shown.found me commentId comment) (now.found me commentId comment)
  listed me postId commentIds member :=
    (List.mem_append.mp member).elim (shown.listed me postId commentIds) (now.listed me postId commentIds)

structure Kept (rules : Rules) (world : World) (trace : Trace board) : Prop extends Shown rules world trace where
  posts : world.posts.posts.Lineage (PostStep rules trace) world.posts.nextId
  comments : world.comments.Lineage (CommentStep rules trace) world.nextCommentId

/-- The id for which a member acts is that of the student's row, where ids were read truly. -/
theorem Member.actsAs {id : Int} (ids : ∀ studentId id, ⟨.post (.memberByStudentId studentId), some id⟩ ∈ known →
    id = rules.idOf studentId) (member : Member rules known id) : ActsAs rules known id := by
  obtain ⟨user, acting, listed, named | found⟩ := member
  · refine ⟨user, acting, listed, ?_⟩
    obtain ⟨-, row, -, -, made⟩ := acting
    rw [made] at named
    cases named
    rfl
  · exact ⟨user, acting, listed, ids user.studentId id found⟩

namespace Kept

theorem actsAs (kept : Kept rules world trace) {id : Int} (member : Member rules (Trace.own me trace) id) :
    ActsAs rules (Trace.own me trace) id :=
  member.actsAs fun studentId id found => kept.ids me studentId id (Trace.mem_own.mp found)

/-- The author found is the author of the row. -/
theorem owns (kept : Kept rules world trace) {postId : Int} {row : Post}
    (owner : Owner rules (Trace.own me trace) postId)
    (seen : world.posts.posts.row me postId = some row) :
    Owns rules (Trace.own me trace) postId row.authorId := by
  obtain ⟨found, read, member⟩ := owner
  have same : row.authorId = found.authorId := (kept.authors me postId found (Trace.mem_own.mp read)).row seen
  rw [same]
  exact ⟨found, read, rfl, kept.actsAs member⟩

/-- The author of an inserted post is the manager or the member who acts. -/
theorem mayCreate (kept : Kept rules world trace) {payload : PostCreate} {authorId : Int}
    (may : MayInsert rules (Trace.own me trace) payload) (author : payload.authorId = some authorId) :
    MayCreate rules (Trace.own me trace) payload authorId := by
  rcases may with ⟨studentId, id, manager, named, found⟩ | ⟨⟨id, member, named⟩, plain⟩
  · rw [author] at named
    cases named
    exact .inl ⟨studentId, manager, kept.ids me studentId authorId (Trace.mem_own.mp found)⟩
  · rw [author] at named
    cases named
    exact .inr ⟨kept.actsAs member, plain⟩

/-- Who removes a post manages the board, or owns the post with the author it was read with. -/
theorem mayRemovePost (kept : Kept rules world trace) {postId : Int}
    (may : MayRemovePost rules (Trace.own me trace) postId) :
    Manages rules (Trace.own me trace) ∨ ∃ authorId, Owns rules (Trace.own me trace) postId authorId := by
  rcases may with manager | ⟨found, read, member⟩
  · exact .inl manager
  · exact .inr ⟨found.authorId, found, read, rfl, kept.actsAs member⟩

end Kept

/-! ## Statements on posts -/

/-- A flush writes the columns of its object only, and of these the ones that differ. -/
theorem flushedPost_fields {loaded latest : PostObject} {stored row : Post}
    (flushed : flushedPost loaded latest stored = some row) :
    row.id = stored.id ∧ row.authorId = stored.authorId ∧ row.createdAt = stored.createdAt ∧
      row.viewCount = stored.viewCount ∧ (latest.category = loaded.category → row.category = stored.category) ∧
      (latest.pinned = loaded.pinned → row.pinned = stored.pinned) ∧
      (latest.publishedAt = loaded.publishedAt → row.publishedAt = stored.publishedAt) := by
  simp only [flushedPost, Option.bind_eq_bind, Option.bind_eq_some_iff, Option.some.injEq] at flushed
  obtain ⟨title, -, content, -, pinned, written, rfl⟩ := flushed
  refine ⟨rfl, rfl, rfl, rfl, fun same => ?_, fun same => ?_, fun same => ?_⟩
  · simp [flushedColumn, same]
  · simpa [flushedColumn, same] using written.symm
  · simp [flushedColumn, same]

/-- A flush changes the stored row as the policy allows, whoever has changed it since it was loaded. -/
theorem flush_edited (kept : Kept rules world trace) {postId : Int} {loaded latest : PostObject} {row row' : Post}
    {reply : Unit} (may : MayFlush rules (Trace.own me trace) postId loaded latest)
    (seen : world.posts.posts.row me postId = some row) (flushed : flushedPost loaded latest row = some row') :
    Edited rules (trace ++ Trace.recorded (S := board) me (.post (.flush postId loaded latest))
    (.ok reply)) postId row row' := by
  obtain ⟨id, author, created, views, category, pinned, published⟩ := flushedPost_fields flushed
  refine ⟨id, author, created, by rw [views], ?_, .inr ⟨loaded, latest, By.last ?_⟩⟩
  · rcases may with manager | ⟨-, sameCategory, samePinned, samePublished⟩
    · exact .inr ⟨loaded, latest, By.last manager⟩
    · exact .inl ⟨category sameCategory, pinned samePinned, published samePublished⟩
  · rcases may with manager | ⟨owner, -⟩
    · exact .inl manager
    · exact .inr (kept.owns owner seen)

end SogeconApp.Guarantees.Board
