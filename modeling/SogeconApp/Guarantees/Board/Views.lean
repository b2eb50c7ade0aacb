import SogeconApp.Guarantees.Board.Authority
import SogeconApp.Guarantees.Board.OneView
import SogeconApp.Library.Tally

/-!
# The view count over whole runs

Readers add to the view count of a post in transactions of their own, which block one another, fail, are
rolled back or crash. What is stored in the end is what was stored at the start and one for each read whose
transaction was committed.
-/

namespace SogeconApp.Guarantees.Board

open Library Program Source.Board
open SogeconApp.Source.PostWrites (PostObject flushedPost)
open SogeconApp.Source.Posts (Instant Post isPostPublic)
open SogeconApp.Source.SignIn (Rules)

variable {rules : Rules} {world world' : World} {trace : Trace board} {me : SessionId} {postId total : Int}
  {pending : SessionId → Nat}

def counts (postId : Int) (exchange : Exchange board) : Bool :=
  match exchange.stmt with
  | .incrementView viewed => viewed = postId
  | _ => false

def commits (exchange : Exchange board) : Bool :=
  match exchange.stmt with
  | .post .commit => true
  | _ => false

/-- The reads of the post that were answered and committed. -/
def committedViews (postId : Int) (trace : Trace board) : Nat := Trace.settled (counts postId) commits trace

/-- The views of the post that are stored, and those that its readers have added since. -/
structure Counted (postId total : Int) (pending : SessionId → Nat) (posts : Source.PostWrites.World) : Prop where
  tallied : posts.posts.Tallied Post.viewCount postId total pending
  given : postId < posts.nextId

/-! ## Statements -/

section Posts

variable {posts posts' : Source.PostWrites.World}

/-- A new post has another key. -/
theorem insert_counted {payload : Source.PostWrites.PostCreate} {now : Instant}
    {reply : Except Source.PostWrites.Failure Unit} (counted : Counted postId total pending posts)
    (done : Source.PostWrites.insert me payload now posts = some (reply, posts')) :
    Counted postId total pending posts' := by
  have given := counted.given
  have later : postId < posts.nextId + 1 := by omega
  rcases insert_cases done with rfl | ⟨-, authorId, -, rfl⟩
  · exact ⟨counted.tallied, later⟩
  · exact ⟨counted.tallied.elsewhere (Int.ne_of_lt given) _, later⟩

/-- An update of the post's columns does not write its views. -/
theorem flush_counted {edited : Int} {loaded latest : PostObject} {reply : Except Source.PostWrites.Failure Unit}
    (counted : Counted postId total pending posts)
    (done : Source.PostWrites.flush me edited loaded latest posts = some (reply, posts')) :
    Counted postId total pending posts' := by
  rcases flush_cases done with rfl | ⟨-, free, row, row', seen, flushed, rfl⟩
  · exact counted
  · refine ⟨?_, counted.given⟩
    by_cases here : postId = edited
    · subst here
      have views : row'.viewCount = row.viewCount + (0 : Nat) := by
        have kept := (flushedPost_fields flushed).2.2.2.1
        omega
      have written := counted.tallied.write free seen views
      rwa [Nat.add_zero, Function.update_eq_self] at written
    · exact counted.tallied.elsewhere here _

end Posts

/-- The removal of a post adds to no count, of this post or another one. -/
theorem deletePost_counted {deleted : Int} {reply : Except Failure Unit}
    (counted : Counted postId total pending world.posts)
    (done : deletePostRow me deleted world = some (reply, world')) :
    Counted postId total pending world'.posts := by
  rcases deletePost_cases done with rfl | ⟨-, free, -, -, rfl⟩
  · exact counted
  · refine ⟨?_, counted.given⟩
    by_cases here : postId = deleted
    · subst here
      exact counted.tallied.delete free
    · exact counted.tallied.elsewhere here _

theorem insertComment_posts {commented authorId : Int} {content : String} {now : Instant}
    {reply : Except Failure Unit}
    (done : insertCommentRow me commented authorId content now world = some (reply, world')) :
    world'.posts = world.posts := by
  unfold insertCommentRow at done
  dsimp only at done
  split at done
  · split at done
    · cases done
      rfl
    · cases done
  · cases done
    rfl
  · obtain ⟨⟨hit, rows⟩, -, same⟩ := Option.map_eq_some_iff.mp done
    cases hit with
    | true =>
      cases same
      rfl
    | false =>
      cases same
      rfl

/-- A read of the post adds one to what the reader has not committed. Of a post that is not there nothing is
added, and nothing is there to be counted. -/
theorem incrementView_counted {reply : Except Failure Unit} (counted : Counted postId total pending world.posts)
    (done : incrementViewRow me postId world = some (reply, world')) :
    (reply = .ok () ∧ Counted postId total (Function.update pending me (pending me + 1)) world'.posts) ∨
      ((∃ reason, reply = .error reason) ∧ world' = world) := by
  rcases incrementView_cases done with failed | ⟨answered, rfl, none_⟩ | ⟨answered, free, row, seen, rfl⟩
  · exact .inr failed
  · exact .inl ⟨answered, counted.tallied.missed none_ 1, counted.given⟩
  · exact .inl ⟨answered, counted.tallied.write free seen rfl, counted.given⟩

theorem incrementOther_counted {viewed : Int} {reply : Except Failure Unit} (other : postId ≠ viewed)
    (counted : Counted postId total pending world.posts)
    (done : incrementViewRow me viewed world = some (reply, world')) :
    Counted postId total pending world'.posts := by
  rcases incrementView_cases done with ⟨-, rfl⟩ | ⟨-, rfl, -⟩ | ⟨-, -, row, -, rfl⟩
  · exact counted
  · exact counted
  · exact ⟨counted.tallied.elsewhere other _, counted.given⟩

/-- Every statement on a post but a commit. -/
theorem execPost_counted {stmt : Source.PostWrites.Stmt} {now : Instant}
    {reply : Except Failure (Source.PostWrites.Reply stmt)} (goesOn : stmt ≠ .commit)
    (counted : Counted postId total pending world.posts)
    (done : execPost rules me stmt now world = some (reply, world')) :
    Counted postId total pending world'.posts := by
  cases stmt with
  | commit => exact absurd rfl goesOn
  | delete deleted => exact deletePost_counted counted done
  | insert payload =>
    obtain ⟨⟨outcome, posts⟩, inserted, same⟩ := Option.map_eq_some_iff.mp done
    cases same
    exact insert_counted counted inserted
  | flush edited loaded latest =>
    obtain ⟨⟨outcome, posts⟩, flushed, same⟩ := Option.map_eq_some_iff.mp done
    cases same
    exact flush_counted counted flushed
  | memberByStudentId studentId =>
    cases done
    exact counted
  | getPost read =>
    cases done
    exact counted
  | getBoardPost read =>
    cases done
    exact counted
  | refresh =>
    cases done
    exact counted

theorem exec_counted {stmt : Stmt} {choice : Choice} {reply : Except Failure (Reply stmt)}
    (other : stmt ≠ .incrementView postId) (goesOn : stmt ≠ .post .commit)
    (counted : Counted postId total pending world.posts)
    (done : Source.Board.exec rules me stmt choice world = some (reply, world')) :
    Counted postId total pending world'.posts := by
  unfold Source.Board.exec at done
  split at done
  · cases done
    exact counted
  · cases stmt with
    | post stmt => exact execPost_counted (fun same => goesOn (by rw [same])) counted done
    | incrementView viewed => exact incrementOther_counted (fun same => other (by rw [same])) counted done
    | insertComment commented authorId content =>
      rw [insertComment_posts done]
      exact counted
    | deleteComment commentId =>
      obtain ⟨⟨hit, rows⟩, -, same⟩ := Option.map_eq_some_iff.mp done
      cases same
      exact counted
    | receive =>
      cases done
      exact counted
    | member studentId =>
      cases done
      exact counted
    | consumeLimit =>
      cases done
      exact counted
    | now =>
      cases done
      exact counted
    | commentsOf commented =>
      cases done
      exact counted
    | getComment commentId =>
      cases done
      exact counted

/-! ## Runs -/

/-- The store has what the trace says was committed, over what there was at the start. -/
def ViewsKept (base postId : Int) (world : (machine rules).traced.World) (running : SessionId → Bool) : Prop :=
  Counted postId (base + committedViews postId world.2)
    (Trace.uncommitted (counts postId) commits running world.2)
    world.1.posts

/-- Every statement keeps the count in step with the trace: a view adds to what its session has pending,
a commit settles that. -/
theorem viewsKept_exec {base : Int} {running : SessionId → Bool} {stmt : Stmt} {choice : Choice}
    {reply : Except Failure (Reply stmt)} (runs : running me = true)
    (counted : Counted postId (base + committedViews postId trace)
      (Trace.uncommitted (counts postId) commits running trace)
      world.posts) (done : Source.Board.exec rules me stmt choice world = some (reply, world')) :
    Counted postId (base + committedViews postId (trace ++ Trace.recorded (S := board) me stmt reply))
      (Trace.uncommitted (counts postId) commits running (trace ++ Trace.recorded (S := board) me stmt reply))
      world'.posts := by
  by_cases viewing : stmt = .incrementView postId
  · subst viewing
    unfold Source.Board.exec at done
    split at done
    · cases done
      simpa [Trace.recorded] using counted
    · rcases incrementView_counted counted done with ⟨rfl, added⟩ | ⟨⟨reason, rfl⟩, rfl⟩
      · have one : counts postId ⟨.incrementView postId, ()⟩ = true := by simp [counts]
        simp only [Trace.recorded, committedViews]
        rw [Trace.settled_same rfl, Trace.uncommitted_adds runs one rfl]
        exact added
      · simpa [Trace.recorded] using counted
  · by_cases committing : stmt = .post .commit
    · subst committing
      unfold Source.Board.exec at done
      split at done
      · cases done
        simpa [Trace.recorded] using counted
      · cases done
        have mine : Trace.uncommitted (counts postId) commits running trace me =
            Trace.pending (counts postId) commits me trace := if_pos runs
        simp only [Trace.recorded, committedViews]
        rw [Trace.settled_ends rfl rfl, Trace.uncommitted_ends rfl rfl, ← mine, Int.natCast_add, ← Int.add_assoc]
        exact ⟨counted.tallied.commit me, counted.given⟩
    · have kept := exec_counted viewing committing counted done
      cases reply with
      | error reason => simpa [Trace.recorded] using kept
      | ok answer =>
        have plain : counts postId ⟨stmt, answer⟩ = false := by
          unfold counts
          split
          · next viewed same =>
            refine decide_eq_false fun here => viewing ?_
            rw [← here]
            exact same
          · rfl
        have goesOn : commits ⟨stmt, answer⟩ = false := by
          unfold commits
          split
          · next same => exact absurd same committing
          · rfl
        simp only [Trace.recorded, committedViews]
        rw [Trace.settled_same goesOn, Trace.uncommitted_plain plain goesOn]
        exact kept

theorem viewsKept_left {base : Int} {running : SessionId → Bool}
    (counted : Counted postId (base + committedViews postId trace)
      (Trace.uncommitted (counts postId) commits running trace)
      world.posts) :
    Counted postId (base + committedViews postId trace)
      (Trace.uncommitted (counts postId) commits (Function.update running me false) trace)
        (world.rollback me).posts := by
  rw [Trace.uncommitted_gone]
  exact ⟨counted.tallied.abort me, counted.given⟩

theorem viewsKept_keeps (base postId : Int) :
    (Protocol.alive board).Keeps (machine rules).traced (fun _ _ _ _ => True) (ViewsKept base postId) where
  exec world running me stmt choice reply world' counted _ runs done := by
    obtain ⟨ran, recorded⟩ := Machine.traced_exec done
    have same : Function.update running me ((Protocol.alive board).next (running me) stmt reply) = running :=
      Function.update_eq_self me running
    unfold ViewsKept
    rw [same, recorded]
    exact viewsKept_exec runs counted ran
  known _ _ _ _ _ _ _ _ _ := trivial
  close _ _ _ counted := viewsKept_left counted
  crash _ _ _ counted := viewsKept_left counted
  outside _ _ _ counted := counted

theorem viewsKept_start {requests : SessionId → Option Request} {row : Post} (rest : AtRest world)
    (stood : world.posts.posts.committed postId = some row) :
    (Protocol.alive board).Holds (ViewsKept row.viewCount postId) (start rules world requests) := by
  refine ⟨fun me => (requests me).isSome, ⟨?_, ?_⟩, fun me program running => ?_, fun me left => ?_⟩
  · have nothing : Trace.uncommitted (counts postId) commits (fun me => (requests me).isSome)
      [] = fun _ => 0 := by
      funext me
      simp [Trace.uncommitted, Trace.pending]
    have stored : ∀ version, world.posts.posts.committed postId = some version →
      version.viewCount = row.viewCount := by
      intro version same
      rw [stood] at same
      cases same
      rfl
    have total : row.viewCount + committedViews postId [] = row.viewCount := by
      simp [committedViews, Trace.settled]
    simp only [start, nothing, total]
    exact rest.posts.tallied stored
  · by_contra unused
    have missing := rest.unusedPosts postId (Int.not_lt.mp unused)
    rw [stood] at missing
    cases missing
  · obtain ⟨request, asked, rfl⟩ := Option.map_eq_some_iff.mp running
    exact Protocol.follows_alive (Option.isSome_iff_exists.mpr ⟨request, asked⟩) _
  · have none_ : requests me = none := Option.map_eq_none_iff.mp left
    exact Option.isSome_eq_false_iff.mpr (Option.isNone_iff_eq_none.mpr none_)

/-- The request had read the post and found it public. -/
def FoundPublic (postId : Int) (known : Known) : Prop :=
  ∃ (row : Post) (now : Instant), ⟨.post (.getPost postId), some row⟩ ∈ known ∧ ⟨.now, now⟩ ∈ known ∧
    isPostPublic row now = true

/-- No view is lost and none is counted twice: whatever the readers, editors and crashes are, the view count of a
post that stands grows by the number of its committed reads, each of a request that found it public, and no
request reads twice. -/
theorem view_counts_exact (rules : Rules) (world : World) (rest : AtRest world)
    (requests : SessionId → Option Request)
    (actions : List (Action (machine rules).traced)) (after : Config (machine rules).traced Unit)
    (reached : (start rules world requests).run actions = some after) (postId : Int) (row row' : Post)
    (stood : world.posts.posts.committed postId = some row)
    (stands : after.world.1.posts.posts.committed postId = some row') :
    row'.viewCount = row.viewCount + committedViews postId after.world.2 ∧
      (∀ earlier me reply later, after.world.2 = earlier ++ (me, ⟨.incrementView postId, reply⟩) :: later →
        FoundPublic postId (Trace.own me earlier)) ∧
      ∀ me, (Trace.own me after.world.2).countP (fun exchange => isView exchange.stmt) ≤ 1 := by
  obtain ⟨_, counted, -⟩ := (viewsKept_keeps row.viewCount postId).run (viewsKept_start rest stood)
    (Config.meets_true _ actions) reached
  have justified := (kept_keeps.run rfl rest.kept (follows world requests) reached).2
  refine ⟨counted.tallied.committed row' stands, fun earlier me reply later split => ?_, views_le_one reached⟩
  exact justified earlier (me, ⟨.incrementView postId, reply⟩) later split

/-- Two visitors read the post at a time; the second one is cut off before its commit. -/
def visits : List (Action (machine SignIn.sampleRules).traced) :=
  [.exec 0 {}, .exec 1 {}, .exec 2 {}, .exec 0 {}, .exec 1 {}, .exec 2 {}, .exec 0 {}, .exec 1 {}, .exec 2 {},
    .exec 0 {}, .exec 0 {}, .exec 1 {}, .crash 1, .exec 2 {}, .exec 2 {}]

theorem view_counts_exact_visits : ∃ after row',
    (start SignIn.sampleRules sampleBoard fun _ => some (.getPost 1)).run visits = some after ∧
      after.world.1.posts.posts.committed 1 = some row' ∧ committedViews 1 after.world.2 = 2 ∧
        row'.viewCount = 2 := by
  have read : ((start SignIn.sampleRules sampleBoard fun _ => some (.getPost 1)).run visits).map
      (fun after => ((after.world.1.posts.posts.committed 1).isSome, committedViews 1 after.world.2)) =
        some (true, 2) := by
    decide +kernel
  obtain ⟨after, reached, same⟩ := Option.map_eq_some_iff.mp read
  obtain ⟨some_, two⟩ := Prod.mk.inj same
  obtain ⟨row', stands⟩ := Option.isSome_iff_exists.mp some_
  have exact_ := (view_counts_exact SignIn.sampleRules sampleBoard sampleBoard_atRest _ visits after
    reached 1 samplePost
    row' rfl stands).1
  rw [two] at exact_
  exact ⟨after, row', reached, stands, two, exact_⟩

end SogeconApp.Guarantees.Board
