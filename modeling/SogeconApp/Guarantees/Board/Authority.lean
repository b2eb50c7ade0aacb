import SogeconApp.Guarantees.Board.Steps
import SogeconApp.Guarantees.SignIn.Provenance

/-!
# The board over whole runs

From any state of any run on: a comment stays until it is removed by its author, an administrator or with its post;
a post keeps its author and its views, and changes or goes for a reason that the trace shows. Every row stems from
one of the start or from an insert of its author.
-/

namespace SogeconApp.Guarantees.Board

open Library Program Policy Source.Board
open Library.Table (Change Descends Fixed Lineage Ordered Respects Stems)
open SogeconApp.Source.OwnerPosts (Comment)
open SogeconApp.Source.PostWrites (PostCreate createdPost)
open SogeconApp.Source.Posts (Post boardPostCategories isBoard)
open SogeconApp.Source.SignIn (Rules)

variable {rules : Rules} {first world world' : World} {trace later : Trace board} {me : SessionId}
  {choice : Choice}
  {requests : SessionId → Option Request}

/-- No transaction is open, and the sequences are past their keys. -/
structure AtRest (world : World) : Prop where
  posts : world.posts.posts.Quiet
  comments : world.comments.Quiet
  unusedPosts : ∀ key, world.posts.nextId ≤ key → world.posts.posts.committed key = none
  unusedComments : ∀ key, world.nextCommentId ≤ key → world.comments.committed key = none

/-! ## What is read -/

/-- A statement that was answered did what it does. -/
theorem exec_answered {stmt : Stmt} {reply : Reply stmt}
    (done : Source.Board.exec rules me stmt choice world = some (.ok reply, world')) :
    answer rules me stmt choice world = some (.ok reply, world') := by
  unfold Source.Board.exec at done
  split at done
  · cases done
  · exact done

theorem recorded_answer {stmt other : Stmt} {reply : Except Failure (Reply stmt)} {found : Reply other}
    {who : SessionId}
    (member : (who, ⟨other, found⟩) ∈ Trace.recorded (S := board) me stmt reply)
    (done : Source.Board.exec rules me stmt choice world = some (reply, world')) :
    answer rules who other choice world = some (.ok found, world') := by
  cases reply with
  | error reason => simp [Trace.recorded] at member
  | ok answer =>
    have same := List.mem_singleton.mp member
    cases same
    exact exec_answered done

theorem kept_shown {stmt : Stmt} {reply : Except Failure (Reply stmt)} (kept : Kept rules world trace)
    (done : Source.Board.exec rules me stmt choice world = some (reply, world')) :
    Shown rules world (Trace.recorded (S := board) me stmt reply) where
  ids who studentId id member := by
    have answered := recorded_answer member done
    simp only [answer, execPost, Option.some.injEq, Prod.mk.injEq, Except.ok.injEq,
      Option.map_eq_some_iff] at answered
    obtain ⟨⟨row, -, same⟩, -⟩ := answered
    exact same.symm
  authors who postId row member := by
    have answered := recorded_answer member done
    simp only [answer, execPost, Source.PostWrites.answer, Option.map_some, Except.mapError, Option.some.injEq,
      Prod.mk.injEq, Except.ok.injEq, Option.filter_eq_some_iff] at answered
    exact kept.posts.fixed postStep_author answered.1.1
  found who commentId comment member := by
    have answered := recorded_answer member done
    simp only [answer, Option.some.injEq, Prod.mk.injEq, Except.ok.injEq] at answered
    exact kept.comments.fixed (commentStep_same _) answered.1
  listed who postId commentIds member commentId listed := by
    have answered := recorded_answer member done
    simp only [answer, Option.some.injEq, Prod.mk.injEq, Except.ok.injEq] at answered
    rw [← answered.1] at listed
    obtain ⟨comment, seen, ofPost⟩ := Table.mem_select.mp listed
    have same : comment.postId = postId := by simpa using ofPost
    rw [← same]
    exact kept.comments.fixed (commentStep_same _) seen

/-! ## Every run -/

/-- What was read under a key stays true of the rows, since they move along their relations. -/
theorem Shown.moved (shown : Shown rules world trace) (moved : Moved rules later me world world') :
    Shown rules world' trace where
  ids := shown.ids
  authors who postId row member := (shown.authors who postId row member).step postStep_author moved.posts
  found who commentId comment member := (shown.found who commentId comment member).step
    (commentStep_same _) moved.comments
  listed who postId commentIds member commentId listed :=
    (shown.listed who postId commentIds member commentId listed).step (commentStep_same _) moved.comments

/-- The rows move, and what the trace said of them stays true. -/
theorem Kept.moved (kept : Kept rules world trace) (moved : Moved rules (trace ++ later) me world world')
    (now : Shown rules world later) : Kept rules world' (trace ++ later) where
  toShown := (kept.toShown.append now).moved moved
  posts := (kept.posts.mono fun _ _ _ step => step.append).step postStep_ordered moved.posts
  comments := (kept.comments.mono fun _ _ _ step => step.append).step commentStep_ordered moved.comments

/-- A transaction that ends without an answer. -/
theorem Kept.rollback (kept : Kept rules world trace) : Kept rules (world.rollback me) trace := by
  have moved : Kept rules (world.rollback me) (trace ++ []) := kept.moved .rollback .nil
  rwa [List.append_nil] at moved

/-- Every statement that the routes allow keeps what the trace says of the rows. -/
theorem kept_keeps : (routes rules).Keeps (machine rules) (Kept rules) where
  exec _ _ _ _ _ _ _ kept _ allowed done := kept.moved (exec_moved kept allowed done) (kept_shown kept done)
  close _ _ _ kept := kept.rollback
  crash _ _ _ kept := kept.rollback
  outside _ _ _ kept := ⟨⟨kept.ids, kept.authors, kept.found, kept.listed⟩, kept.posts, kept.comments⟩

theorem AtRest.kept (rest : AtRest world) : Kept rules world [] where
  toShown := .nil
  posts := rest.posts.lineage rest.unusedPosts
  comments := rest.comments.lineage rest.unusedComments

theorem follows (world : World) (requests : SessionId → Option Request) (me : SessionId) (program : Handler Unit)
    (running : (start rules world requests).pool me = some program) :
    (routes rules).protocol.Follows [] program := by
  obtain ⟨request, -, rfl⟩ := Option.map_eq_some_iff.mp running
  exact request_follows request

/-- Requests that all have still to begin follow the policy, over a store that is at rest. -/
theorem holds_start (rest : AtRest world) :
    (routes rules).protocol.Holds ((routes rules).Recorded (Kept rules)) (start rules world requests) :=
  begins rfl rest.kept (follows world requests)

/-! ## From a state on -/

/-- The posts and the comments of a state, as a later one has them. -/
structure Since (rules : Rules) (base : World) (world : World) (trace : Trace board) : Prop where
  kept : Kept rules world trace
  laterPosts : base.posts.nextId ≤ world.posts.nextId
  laterComments : base.nextCommentId ≤ world.nextCommentId
  posts : Descends (PostStep rules trace) base.posts.posts world.posts.posts
  comments : Descends (CommentStep rules trace) base.comments world.comments

/-- Any state that is kept may be taken as the one to look back to. -/
theorem Kept.since (kept : Kept rules world trace) : Since rules world world trace :=
  ⟨kept, Int.le_refl _, Int.le_refl _, kept.posts.descends postStep_ordered,
    kept.comments.descends commentStep_ordered⟩

section From

variable {base : World} (unusedPosts : ∀ key, base.posts.nextId ≤ key → base.posts.posts.committed key = none)
  (unusedComments : ∀ key, base.nextCommentId ≤ key → base.comments.committed key = none)
include unusedPosts unusedComments

/-- A statement that moves the rows keeps where they come from since the state looked back to. -/
theorem Since.moved (since : Since rules base world trace) (kept : Kept rules world' (trace ++ later))
    (moved : Moved rules (trace ++ later) me world world') : Since rules base world' (trace ++ later) where
  kept := kept
  laterPosts := Int.le_trans since.laterPosts moved.posts.later
  laterComments := Int.le_trans since.laterComments moved.comments.later
  posts := by
    have before : Descends (PostStep rules (trace ++ later)) base.posts.posts world.posts.posts :=
      since.posts.mono fun _ _ _ step => step.append
    exact before.step postStep_ordered (fun key above =>
      unusedPosts key (Int.le_trans since.laterPosts above)) moved.posts
  comments := by
    have before : Descends (CommentStep rules (trace ++ later)) base.comments world.comments :=
      since.comments.mono fun _ _ _ step => step.append
    exact before.step commentStep_ordered
      (fun key above => unusedComments key (Int.le_trans since.laterComments above))
      moved.comments

theorem Since.rollback (since : Since rules base world trace) : Since rules base (world.rollback me) trace := by
  have kept : Kept rules (world.rollback me) (trace ++ []) := by
    rw [List.append_nil]
    exact since.kept.rollback
  have moved := since.moved unusedPosts unusedComments kept .rollback
  rwa [List.append_nil] at moved

theorem since_keeps : (routes rules).Keeps (machine rules) (Since rules base) where
  exec world trace me stmt choice reply world' since justified allowed done :=
    since.moved unusedPosts unusedComments
      (kept_keeps.exec world trace me stmt choice reply world' since.kept justified allowed done)
      (exec_moved since.kept allowed done)
  close _ _ _ since := since.rollback unusedPosts unusedComments
  crash _ _ _ since := since.rollback unusedPosts unusedComments
  outside world trace members since :=
    ⟨kept_keeps.outside world trace members since.kept, since.laterPosts, since.laterComments, since.posts,
      since.comments⟩

end From

/-- What is left of a row between two states of a run comes from the earlier one, for reasons that the
trace of the later one shows. -/
theorem run_since {earlier further : List (Action (machine rules).traced)}
    {middle after : Config (machine rules).traced Unit}
    (rest : AtRest world) (reached : (start rules world requests).run earlier = some middle)
    (onward : middle.run further = some after) : Since rules middle.world.1 after.world.1 after.world.2 := by
  have holds : (routes rules).protocol.Holds ((routes rules).Recorded (Kept rules)) middle :=
    kept_keeps.protocol.run (holds_start rest) (Config.meets_true _ earlier) reached
  obtain ⟨_, ⟨kept, -⟩, -⟩ := id holds
  exact (since_keeps (fun key above => (kept.posts.unused key above).1)
    fun key above => (kept.comments.unused key above).1).onward holds kept.since onward

/-! ## Origins -/

/-- Every row stems from one of the start or from an insert. -/
structure Stemming (rules : Rules) (first world : World) (trace : Trace board) : Prop where
  kept : Kept rules world trace
  posts : Stems (PostBorn rules trace) (PostStep rules trace) first.posts.posts world.posts.posts
  comments : Stems (fun _ => CommentBorn rules trace) (CommentStep rules trace) first.comments world.comments

/-- A statement that moves the rows adds none but by an insert that the trace shows. -/
theorem Stemming.moved (stemming : Stemming rules first world trace) (kept : Kept rules world' (trace ++ later))
    (moved : Moved rules (trace ++ later) me world world') : Stemming rules first world' (trace ++ later) where
  kept := kept
  posts := (stemming.posts.mono (fun _ _ born => born.append) fun _ _ _ step => step.append).step postStep_ordered
    moved.posts
  comments := (stemming.comments.mono (fun _ _ born => CommentBorn.append born) fun _ _ _ step =>
    step.append).step
    commentStep_ordered moved.comments

theorem Stemming.rollback (stemming : Stemming rules first world trace) :
    Stemming rules first (world.rollback me) trace := by
  have kept : Kept rules (world.rollback me) (trace ++ []) := by
    rw [List.append_nil]
    exact stemming.kept.rollback
  have moved := stemming.moved kept .rollback
  rwa [List.append_nil] at moved

theorem stemming_keeps : (routes rules).Keeps (machine rules) (Stemming rules first) where
  exec world trace me stmt choice reply world' stemming justified allowed done :=
    stemming.moved (kept_keeps.exec world trace me stmt choice reply world' stemming.kept justified allowed done)
      (exec_moved stemming.kept allowed done)
  close _ _ _ stemming := stemming.rollback
  crash _ _ _ stemming := stemming.rollback
  outside world trace members stemming :=
    ⟨kept_keeps.outside world trace members stemming.kept, stemming.posts, stemming.comments⟩

/-- In every state of a run each row stems from one of the start or from an insert. -/
theorem run_stemming {actions : List (Action (machine rules).traced)} {after : Config (machine rules).traced Unit}
    (rest : AtRest world) (reached : (start rules world requests).run actions = some after) :
    Stemming rules world after.world.1 after.world.2 := by
  have begins : Stemming rules world world [] :=
    ⟨rest.kept, rest.posts.stems postStep_ordered, rest.comments.stems commentStep_ordered⟩
  exact (stemming_keeps.run rfl begins (follows world requests) reached).1

/-! ## Comments -/

/-- A comment that stands at some time of a run stands later as it was, or has been removed by its author, by an
administrator, or with its post by a manager or the post's author. -/
theorem comment_authority (rules : Rules) (world : World) (rest : AtRest world)
    (requests : SessionId → Option Request)
    (earlier further : List (Action (machine rules).traced)) (middle after : Config (machine rules).traced Unit)
    (reached : (start rules world requests).run earlier = some middle) (onward : middle.run further = some after)
    (commentId : Int) (comment : Comment) (stood : middle.world.1.comments.committed commentId = some comment) :
    after.world.1.comments.committed commentId = some comment ∨
      after.world.1.comments.committed commentId = none ∧ CommentRemoved rules after.world.2 commentId comment :=
  (run_since rest reached onward).comments.committed commentId comment stood

def samplePost : Post where
  id := 1
  authorId := 7
  title := "title"
  content := "content"
  publishedAt := none
  createdAt := some 0
  category := some "discussion"
  pinned := false
  coverImage := none
  images := none
  viewCount := 0

def sampleComment : Comment where
  postId := 1
  authorId := 7
  content := "comment"
  createdAt := 0

/-- A member's post with the member's comment. -/
def sampleBoard : World where
  members := Function.update (fun _ => none) "s" (some SignIn.sampleMember)
  posts := { posts := Table.seeded [(1, samplePost)], nextId := 2 }
  comments := Table.seeded [(1, sampleComment)]
  nextCommentId := 2

theorem sampleBoard_atRest : AtRest sampleBoard where
  posts := Table.seeded_quiet _
  comments := Table.seeded_quiet _
  unusedPosts _ above := Table.seeded_unused (by simp [sampleBoard]) above
  unusedComments _ above := Table.seeded_unused (by simp [sampleBoard]) above

/-- The member presents a session, and each statement is answered. -/
def serving (me : SessionId) (statements : Nat) : List (Action (machine SignIn.sampleRules).traced) :=
  .exec me { session := SignIn.sampleSession } :: List.replicate statements (.exec me {})

theorem comment_authority_removed : ∃ after,
    (start SignIn.sampleRules sampleBoard fun _ => some (.deleteComment 1)).run (serving 0 5) = some after ∧
      after.world.1.comments.committed 1 = none ∧
        CommentRemoved SignIn.sampleRules after.world.2 1 sampleComment := by
  have gone : ((start SignIn.sampleRules sampleBoard fun _ => some (.deleteComment 1)).run (serving 0 5)).map
      (fun after => after.world.1.comments.committed 1) = some none := by rfl
  obtain ⟨after, reached, same⟩ := Option.map_eq_some_iff.mp gone
  refine ⟨after, reached, same, ?_⟩
  rcases comment_authority SignIn.sampleRules sampleBoard sampleBoard_atRest (fun _ => some (.deleteComment 1)) []
    (serving 0 5) _ after rfl reached 1 sampleComment rfl with stands | ⟨-, removed⟩
  · rw [same] at stands
    cases stands
  · exact removed

/-- Every comment was there at the start, or a request inserted it that acted for its author. -/
theorem comment_provenance (rules : Rules) (world : World) (rest : AtRest world)
    (requests : SessionId → Option Request)
    (actions : List (Action (machine rules).traced)) (after : Config (machine rules).traced Unit)
    (reached : (start rules world requests).run actions = some after) (commentId : Int) (comment : Comment)
    (stored : after.world.1.comments.committed commentId = some comment) :
    world.comments.committed commentId = some comment ∨ CommentBorn rules after.world.2 comment := by
  obtain ⟨origin, which, same | ⟨gone, -⟩⟩ :=
    (run_stemming rest reached).comments.committed commentId comment stored
  · cases same
    exact which
  · cases gone

theorem comment_provenance_written : ∃ after,
    (start SignIn.sampleRules sampleBoard fun _ => some (.createComment ⟨1, "answer"⟩)).run
      (serving 0 5) = some after ∧
      after.world.1.comments.committed 2 = some { sampleComment with content := "answer" } ∧
      CommentBorn SignIn.sampleRules after.world.2 { sampleComment with content := "answer" } := by
  have written : ((start SignIn.sampleRules sampleBoard fun _ => some (.createComment ⟨1, "answer"⟩)).run
      (serving 0 5)).map (fun after => after.world.1.comments.committed 2) =
      some (some { sampleComment with content := "answer" }) := by decide +kernel
  obtain ⟨after, reached, same⟩ := Option.map_eq_some_iff.mp written
  have fresh : sampleBoard.comments.committed 2 ≠ some { sampleComment with content := "answer" } := by decide
  exact ⟨after, reached, same, (comment_provenance SignIn.sampleRules sampleBoard sampleBoard_atRest _
    (serving 0 5)
    after reached 2 _ same).resolve_left fresh⟩

/-! ## Posts -/

/-- What a member creates is on the board, not pinned and not published. -/
theorem createdPost_plain (postId authorId : Int) (now : Source.Posts.Instant) {payload : PostCreate}
    (plain : payload.category.text ∈ boardPostCategories ∧ payload.pinned = false ∧ payload.publishedAt = none) :
    (createdPost postId authorId now payload).pinned = false ∧
      (createdPost postId authorId now payload).publishedAt = none ∧
      isBoard (createdPost postId authorId now payload).category = true := by
  refine ⟨plain.2.1, plain.2.2, ?_⟩
  simpa [createdPost, isBoard] using plain.1

/-- Only managers pin, publish or leave the board: a post that is pinned, dated or of another category was so at
the start, or a manager has created it so or flushed it. -/
theorem standing_needs_manager (rules : Rules) (world : World) (rest : AtRest world)
    (requests : SessionId → Option Request) (actions : List (Action (machine rules).traced))
    (after : Config (machine rules).traced Unit) (reached : (start rules world requests).run actions = some after)
    (postId : Int) (row : Post) (stored : after.world.1.posts.posts.committed postId = some row)
    (standing : row.pinned = true ∨ row.publishedAt ≠ none ∨ isBoard row.category = false) :
    (∃ before, world.posts.posts.committed postId = some before ∧ before.category = row.category ∧
        before.pinned = row.pinned ∧ before.publishedAt = row.publishedAt) ∨
      (∃ payload : PostCreate, row.category = some payload.category.text ∧ row.pinned = payload.pinned ∧
        row.publishedAt = payload.publishedAt ∧ By after.world.2 (.post (.insert payload)) fun known =>
          ∃ studentId, Manager rules known studentId ∧ row.authorId = rules.idOf studentId) ∨
      ∃ loaded latest, By after.world.2 (.post (.flush postId loaded latest)) (Manages rules) := by
  obtain ⟨origin, which, edited⟩ := (run_stemming rest reached).posts.committed postId row stored
  have edited : Edited rules after.world.2 postId origin row := edited
  rcases edited.standing with ⟨category, pinned, published⟩ | flushed
  · rcases which with before | ⟨payload, now, author, made, earlier, me, reply, later, trace, may⟩
    · exact .inl ⟨origin, before, category.symm, pinned.symm, published.symm⟩
    · rcases may with ⟨studentId, manager, named⟩ | ⟨-, plain⟩
      · refine .inr (.inl ⟨payload, ?_, ?_, ?_, earlier, me, reply, later, trace, studentId, manager, ?_⟩)
        · rw [category, made]
          rfl
        · rw [pinned, made]
          rfl
        · rw [published, made]
          rfl
        · rw [edited.author, named]
      · have isPlain := createdPost_plain postId origin.authorId now plain
        rw [← made, ← pinned, ← published, ← category] at isPlain
        rcases standing with pinned | published | category
        · rw [isPlain.1] at pinned
          cases pinned
        · exact absurd isPlain.2.1 published
        · rw [isPlain.2.2] at category
          cases category
  · exact .inr (.inr flushed)

/-- The member holds the permission. -/
def managedBoard : World :=
  { sampleBoard with
    members := Function.update (fun _ => none) "s"
      (some { SignIn.sampleMember with roles := ["member", "admin", "admin_posts"] }) }

def notice : PostCreate where
  title := "title"
  content := "content"
  publishedAt := some 5
  pinned := true
  category := .notice

theorem standing_needs_manager_notice : ∃ after,
    (start SignIn.sampleRules managedBoard fun _ => some (.createPost notice)).run (serving 0 6) = some after ∧
      (after.world.1.posts.posts.committed 2).map (·.pinned) = some true ∧
      ((∃ payload, By after.world.2 (.post (.insert payload)) fun known =>
          ∃ studentId, Manager SignIn.sampleRules known studentId) ∨
        ∃ loaded latest, By after.world.2 (.post (.flush 2 loaded latest)) (Manages SignIn.sampleRules)) := by
  have pinned : ((start SignIn.sampleRules managedBoard fun _ => some (.createPost notice)).run (serving 0 6)).map
      (fun after => (after.world.1.posts.posts.committed 2).map (·.pinned)) = some (some true) := by
        decide +kernel
  obtain ⟨after, reached, same⟩ := Option.map_eq_some_iff.mp pinned
  obtain ⟨row, stored, standing⟩ := Option.map_eq_some_iff.mp same
  have rest : AtRest managedBoard := ⟨sampleBoard_atRest.posts, sampleBoard_atRest.comments,
    sampleBoard_atRest.unusedPosts, sampleBoard_atRest.unusedComments⟩
  refine ⟨after, reached, same, ?_⟩
  rcases standing_needs_manager SignIn.sampleRules managedBoard rest _ (serving 0 6) after reached 2 row stored
    (.inl standing) with ⟨before, found, -⟩ |
      ⟨payload, -, -, -, earlier, me, reply, later, trace, studentId, manager, -⟩ | flushed
  · have missing : managedBoard.posts.posts.committed 2 = none := by rfl
    rw [missing] at found
    cases found
  · exact .inl ⟨payload, earlier, me, reply, later, trace, studentId, manager⟩
  · exact .inr flushed

end SogeconApp.Guarantees.Board
