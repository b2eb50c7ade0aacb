import SogeconApp.Guarantees.Board.Rows

/-!
# One statement on the board

Whatever a session is allowed to do moves the rows of the posts and of the comments along their relations,
and what the trace says of the rows stays true.
-/

namespace SogeconApp.Guarantees.Board

open Library Program Policy Source.Board
open Library.Table (Change Descends Fixed Lineage Ordered Respects)
open SogeconApp.Source.OwnerPosts (Comment)
open SogeconApp.Source.PostWrites (PostCreate PostObject createdPost flushedPost)
open SogeconApp.Source.Posts (Instant Post)
open SogeconApp.Source.SignIn (Rules)

variable {rules : Rules} {known : Known} {world world' : World} {trace later : Trace board} {me : SessionId}

/-- The rows move along their relations. -/
structure Moved (rules : Rules) (trace : Trace board) (me : SessionId) (world world' : World) : Prop where
  posts : Change (PostBorn rules trace) (PostStep rules trace) me world.posts.nextId world.posts.posts
    world'.posts.nextId world'.posts.posts
  comments : Change (fun _ => CommentBorn rules trace) (CommentStep rules trace) me world.nextCommentId
    world.comments
    world'.nextCommentId world'.comments

theorem Moved.same : Moved rules trace me world world := ⟨.skip (Int.le_refl _), .skip (Int.le_refl _)⟩

theorem Moved.commit : Moved rules trace me world (world.commit me) := ⟨.commit, .commit⟩

theorem Moved.rollback : Moved rules trace me world (world.rollback me) := ⟨.abort, .abort⟩

section Posts

variable {posts posts' : Source.PostWrites.World} {N : Int → Post → Prop} {R : Int → Post → Option Post → Prop}

/-- The key is used up even where nothing is stored. -/
theorem insert_cases {payload : PostCreate} {now : Instant} {reply : Except Source.PostWrites.Failure Unit}
    (done : Source.PostWrites.insert me payload now posts = some (reply, posts')) :
    posts' = { posts with nextId := posts.nextId + 1 } ∨
      reply = .ok () ∧ ∃ authorId, payload.authorId = some authorId ∧ posts' =
        { posts := posts.posts.write me posts.nextId (some (createdPost posts.nextId authorId now payload))
          nextId := posts.nextId + 1 } := by
  unfold Source.PostWrites.insert at done
  split at done
  · cases done
    exact .inl rfl
  · next authorId author =>
    obtain ⟨⟨hit, rows⟩, inserted, same⟩ := Option.map_eq_some_iff.mp done
    rcases Table.insertRow_cases inserted with ⟨rfl, rfl⟩ | ⟨rfl, -, -, rfl⟩
    · cases same
      exact .inl rfl
    · cases same
      exact .inr ⟨rfl, authorId, author, rfl⟩

/-- A flush leaves the posts as they are, or is answered and writes the row that it found unlocked. -/
theorem flush_cases {postId : Int} {loaded latest : PostObject} {reply : Except Source.PostWrites.Failure Unit}
    (done : Source.PostWrites.flush me postId loaded latest posts = some (reply, posts')) :
    posts' = posts ∨
      reply = .ok () ∧ (posts.posts.slot postId).lockedFor me = false ∧ ∃ row row',
        posts.posts.row me postId = some row ∧ flushedPost loaded latest row = some row' ∧
          posts' = { posts with posts := posts.posts.write me postId (some row') } := by
  obtain ⟨⟨result, rows⟩, updated, same⟩ := Option.map_eq_some_iff.mp done
  rcases Table.updateChecked_cases updated with ⟨unwritten, rfl⟩ | ⟨rfl, free, row, row', seen, flushed, rfl⟩
  · cases result with
    | written => exact absurd rfl unwritten
    | violated =>
      cases same
      exact .inl rfl
    | missed =>
      cases same
      exact .inl rfl
  · cases same
    exact .inr ⟨rfl, free, row, row', seen, flushed, rfl⟩

/-- An insert writes a row under the next key, if it writes one, and uses no key again. -/
theorem insert_change {payload : PostCreate} {now : Instant} {reply : Except Source.PostWrites.Failure Unit}
    (done : Source.PostWrites.insert me payload now posts = some (reply, posts'))
    (born : ∀ authorId, payload.authorId = some authorId → reply = .ok () →
      N posts.nextId (createdPost posts.nextId authorId now payload)) :
    Change N R me posts.nextId posts.posts posts'.nextId posts'.posts := by
  rcases insert_cases done with rfl | ⟨answered, authorId, author, rfl⟩
  · exact .skip (by dsimp only; omega)
  · exact .insert (born authorId author answered)

/-- A flush moves the row along a relation, if the row that it makes is related to the one it found. -/
theorem flush_change {postId : Int} {loaded latest : PostObject} {reply : Except Source.PostWrites.Failure Unit}
    (done : Source.PostWrites.flush me postId loaded latest posts = some (reply, posts'))
    (related : ∀ row row', posts.posts.row me postId = some row → flushedPost loaded latest row = some row' →
      reply = .ok () → R postId row (some row')) :
    Change N R me posts.nextId posts.posts posts'.nextId posts'.posts := by
  rcases flush_cases done with rfl | ⟨answered, -, row, row', seen, flushed, rfl⟩
  · exact .skip (Int.le_refl _)
  · exact .rewrite seen (related row row' seen flushed answered)

end Posts

/-- A read of a post that is not there writes nothing, and is answered. -/
theorem incrementView_cases {postId : Int} {reply : Except Failure Unit}
    (done : incrementViewRow me postId world = some (reply, world')) :
    ((∃ reason, reply = .error reason) ∧ world' = world) ∨
    (reply = .ok () ∧ world' = world ∧
      (world.posts.posts.committed postId = none ∨ world.posts.posts.row me postId = none)) ∨
    reply = .ok () ∧ (world.posts.posts.slot postId).lockedFor me = false ∧ ∃ row,
      world.posts.posts.row me postId = some row ∧ world' =
        { world with
          posts := { world.posts with
            posts := world.posts.posts.write me postId
              (some { row with viewCount := row.viewCount + 1 }) } } := by
  obtain ⟨⟨result, rows⟩, updated, same⟩ := Option.map_eq_some_iff.mp done
  cases result with
  | violated =>
    cases same
    exact .inl ⟨⟨_, rfl⟩, rfl⟩
  | missed =>
    cases same
    obtain ⟨rfl, none_⟩ := Table.updateChecked_missed updated
    exact .inr (.inl ⟨rfl, rfl, none_⟩)
  | written =>
    cases same
    rcases Table.updateChecked_cases updated with ⟨unwritten, -⟩ | ⟨-, free, row, latest, seen, bounded, rfl⟩
    · exact absurd rfl unwritten
    · refine .inr (.inr ⟨rfl, free, row, seen, ?_⟩)
      split at bounded
      · cases bounded
        rfl
      · cases bounded

theorem incrementView_moved {postId : Int} {reply : Except Failure Unit}
    (done : incrementViewRow me postId world = some (reply, world')) : Moved rules trace me world world' := by
  rcases incrementView_cases done with ⟨-, rfl⟩ | ⟨-, rfl, -⟩ | ⟨-, -, row, seen, rfl⟩
  · exact .same
  · exact .same
  · refine ⟨.rewrite seen ?_, .skip (Int.le_refl _)⟩
    exact ⟨rfl, rfl, rfl, by dsimp only; omega, .inl ⟨rfl, rfl, rfl⟩, .inl ⟨rfl, rfl, rfl, rfl⟩⟩

/-! ## Comments -/

/-- The comments of the post that the session sees are deleted one by one. -/
theorem cascade_change {N : Int → Comment → Prop} {R : Int → Comment → Option Comment → Prop}
    {postId next : Int} (comments : Table Int Comment)
    (related : ∀ key comment, comment.postId = postId → R key comment none) :
    Change N R me next comments next (cascade me postId comments) := by
  have fold (keys : List Int) (rows : Table Int Comment) (nodup : keys.Nodup)
      (seen : ∀ key ∈ keys, ∃ comment, rows.row me key = some comment ∧ comment.postId = postId) :
      Change N R me next rows next (keys.foldl (fun rows key => rows.write me key none) rows) := by
    induction keys generalizing rows with
    | nil => exact .skip (Int.le_refl _)
    | cons key rest ih =>
      obtain ⟨comment, sees, ofPost⟩ := seen key (by simp)
      refine .trans (.rewrite sees (related key comment ofPost)) (ih _ nodup.tail fun other member => ?_)
      have different : other ≠ key := by
        rintro rfl
        exact (List.nodup_cons.mp nodup).1 member
      obtain ⟨comment, sees, ofPost⟩ := seen other (List.mem_cons_of_mem _ member)
      refine ⟨comment, ?_, ofPost⟩
      rw [← sees]
      exact congrArg (Slot.row me) (Table.write_slot_of_ne different)
  refine fold _ comments (comments.nodup.filter _) fun key member => ?_
  obtain ⟨comment, sees, ofPost⟩ := Table.mem_select.mp member
  exact ⟨comment, sees, by simpa using ofPost⟩

/-- A comment is written under the next key, with the reason that its author had. -/
theorem insertComment_moved {postId authorId : Int} {content : String} {now : Instant}
    {reply : Except Failure Unit}
    (done : insertCommentRow me postId authorId content now world = some (reply, world'))
    (born : reply = .ok () → CommentBorn rules trace { postId, authorId, content, createdAt := now }) :
    Moved rules trace me world world' := by
  have spent : Moved rules trace me world { world with nextCommentId := world.nextCommentId + 1 } :=
    ⟨.skip (Int.le_refl _), .skip (by dsimp only; omega)⟩
  unfold insertCommentRow at done
  dsimp only at done
  split at done
  · split at done
    · cases done
      exact spent
    · cases done
  · cases done
    exact spent
  · obtain ⟨⟨hit, rows⟩, inserted, same⟩ := Option.map_eq_some_iff.mp done
    rcases Table.insertRow_cases inserted with ⟨rfl, rfl⟩ | ⟨rfl, -, -, rfl⟩
    · cases same
      exact spent
    · cases same
      exact ⟨.skip (Int.le_refl _), .insert (born rfl)⟩

theorem deleteComment_moved {commentId : Int} {reply : Except Failure Unit}
    (done : deleteCommentRow me commentId world = some (reply, world'))
    (removed : ∀ comment, world.comments.row me commentId = some comment → reply = .ok () →
      CommentRemoved rules trace commentId comment) : Moved rules trace me world world' := by
  obtain ⟨⟨hit, rows⟩, deleted, same⟩ := Option.map_eq_some_iff.mp done
  rcases Table.deleteRow_cases deleted with ⟨rfl, rfl⟩ | ⟨rfl, -, ⟨comment, seen, -⟩, rfl⟩
  · cases same
    exact .same
  · cases same
    exact ⟨.skip (Int.le_refl _), .rewrite seen (.inr ⟨rfl, removed comment seen rfl⟩)⟩

/-- The removal of a post leaves everything as it is, or removes the row and the comments that hang on
it. -/
theorem deletePost_cases {postId : Int} {reply : Except Failure Unit}
    (done : deletePostRow me postId world = some (reply, world')) :
    world' = world ∨
      reply = .ok () ∧ (world.posts.posts.slot postId).lockedFor me = false ∧ ∃ row,
        world.posts.posts.row me postId = some row ∧ world' =
          { world with
            posts := { world.posts with posts := world.posts.posts.write me postId none }
            comments := cascade me postId world.comments } := by
  unfold deletePostRow at done
  split at done
  · cases done
  · obtain ⟨⟨hit, rows⟩, deleted, same⟩ := Option.map_eq_some_iff.mp done
    rcases Table.deleteRow_cases deleted with ⟨rfl, rfl⟩ | ⟨rfl, free, ⟨row, seen, -⟩, rfl⟩
    · cases same
      exact .inl rfl
    · cases same
      exact .inr ⟨rfl, free, row, seen, rfl⟩

theorem deletePost_moved {postId : Int} {reply : Except Failure Unit}
    (done : deletePostRow me postId world = some (reply, world'))
    (removed : ∀ row, world.posts.posts.row me postId = some row → reply = .ok () →
      PostStep rules trace postId row none)
    (cascades : ∀ key comment, reply = .ok () → comment.postId = postId →
      CommentRemoved rules trace key comment) :
    Moved rules trace me world world' := by
  rcases deletePost_cases done with rfl | ⟨answered, -, row, seen, rfl⟩
  · exact .same
  · exact ⟨.rewrite seen (removed row seen answered),
      cascade_change world.comments fun key comment ofPost => .inr ⟨rfl, cascades key comment answered ofPost⟩⟩

/-! ## Statements -/

theorem execPost_moved {stmt : Source.PostWrites.Stmt} {now : Instant}
    {reply : Except Failure (Source.PostWrites.Reply stmt)}
    (kept : Kept rules world trace) (may : May rules (Trace.own me trace) (.post stmt))
    (done : execPost rules me stmt now world = some (reply, world')) :
    Moved rules (trace ++ Trace.recorded (S := board) me (.post stmt) reply) me world world' := by
  cases stmt with
  | memberByStudentId studentId =>
    cases done
    exact .same
  | commit =>
    cases done
    exact .commit
  | delete postId =>
    refine deletePost_moved done (fun row seen answered => ?_) fun key comment answered ofPost => ?_
    · subst answered
      refine postStep_none.mpr (By.last ?_)
      rcases may with manager | owner
      · exact .inl manager
      · exact .inr (kept.owns owner seen)
    · subst answered
      exact .inr ⟨_, .inr (by rw [ofPost]), By.last (by rw [ofPost]; exact kept.mayRemovePost may)⟩
  | insert payload =>
    obtain ⟨⟨outcome, posts⟩, inserted, same⟩ := Option.map_eq_some_iff.mp done
    cases same
    refine ⟨insert_change inserted fun authorId author answered => ?_, .skip (Int.le_refl _)⟩
    subst answered
    exact ⟨payload, now, author, rfl, By.last (kept.mayCreate may author)⟩
  | flush postId loaded latest =>
    obtain ⟨⟨outcome, posts⟩, flushed, same⟩ := Option.map_eq_some_iff.mp done
    cases same
    refine ⟨flush_change flushed fun row row' seen written answered => ?_, .skip (Int.le_refl _)⟩
    subst answered
    exact flush_edited kept may seen written
  | getPost postId =>
    cases done
    exact .same
  | getBoardPost postId =>
    cases done
    exact .same
  | refresh =>
    cases done
    exact .same

/-- Every statement moves the rows along their relations, with itself as a reason in the trace. -/
theorem exec_moved {stmt : Stmt} {choice : Choice} {reply : Except Failure (Reply stmt)}
    (kept : Kept rules world trace)
    (may : May rules (Trace.own me trace) stmt)
    (done : Source.Board.exec rules me stmt choice world = some (reply, world')) :
    Moved rules (trace ++ Trace.recorded (S := board) me stmt reply) me world world' := by
  unfold Source.Board.exec at done
  split at done
  · cases done
    exact .same
  · cases stmt with
    | post stmt => exact execPost_moved kept may done
    | incrementView postId => exact incrementView_moved done
    | insertComment postId authorId content =>
      refine insertComment_moved done fun answered => ?_
      subst answered
      exact By.last (kept.actsAs may)
    | deleteComment commentId =>
      refine deleteComment_moved done fun comment seen answered => ?_
      subst answered
      rcases may with ⟨found, read, reason⟩ | ⟨postId, comments, listed, member, reason⟩
      · have author : comment.authorId = found.authorId :=
          (kept.found me commentId found (Trace.mem_own.mp read)).row seen
        refine .inl (By.last ?_)
        rw [author]
        exact reason.imp_right kept.actsAs
      · have ofPost : comment.postId = postId :=
          (kept.listed me postId comments (Trace.mem_own.mp listed) commentId member).row seen
        refine .inr ⟨_, .inl rfl, By.last ?_⟩
        rw [ofPost]
        exact kept.mayRemovePost reason
    | receive =>
      cases done
      exact .same
    | member studentId =>
      cases done
      exact .same
    | consumeLimit =>
      cases done
      exact .same
    | now =>
      cases done
      exact .same
    | commentsOf postId =>
      cases done
      exact .same
    | getComment commentId =>
      cases done
      exact .same

end SogeconApp.Guarantees.Board
