import SogeconApp.Source.PostWrites

/-!
# Board membership of a post

An update compares the board membership of its category with that of the post it has read,
and writes the category by primary key later. Every version of a post that a session can have
read has the membership the post was created with, so what is written has it too, in whatever
order the statements of several requests come. A key that has been used is not used again.
-/

namespace SogeconApp.Guarantees.BoardMembership

open Library Program Source.PostWrites
open Source.Posts (Post isBoard boardPostCategories)

/-- What a member may create. -/
def MemberPost (row : Post) : Prop :=
  isBoard row.category = true ∧ row.pinned = false ∧ row.publishedAt = none

instance (row : Post) : Decidable (MemberPost row) := inferInstanceAs (Decidable (_ ∧ _))

def createsMemberPost : Request → Bool
  | .createMember _ _ _ => true
  | _ => false

/-! ## What is set and flushed -/

/-- Among the categories that a payload may carry, the board is made of those that the service lists. -/
theorem isBoard_text (category : PostCategory) :
    isBoard (some category.text) = true ↔ category.text ∈ boardPostCategories := by
  simp [isBoard]

/-- The flush writes the category that was set, or keeps the stored one. -/
theorem flushedPost_category {loaded latest : PostObject} {stored row : Post}
    (flushed : flushedPost loaded latest stored = some row) :
    row.category = stored.category ∨ row.category = latest.category := by
  simp only [flushedPost, Option.bind_eq_bind, Option.bind_eq_some_iff,
    Option.some.injEq] at flushed
  obtain ⟨title, -, content, -, pinned, -, rfl⟩ := flushed
  dsimp only
  unfold flushedColumn
  split
  · exact .inl rfl
  · exact .inr rfl

theorem set_category_of_none {payload : PostUpdate} {post : PostObject}
    (unset : payload.category = none) : (post.set payload).category = post.category := by
  simp [PostObject.set, unset]

theorem set_category_of_some {payload : PostUpdate} {post : PostObject} {category : PostCategory}
    (given : payload.category = some category) :
    (post.set payload).category = some category.text := by
  simp [PostObject.set, given]

/-! ## Phases -/

/-- The request of an open session, and the post that it has read. -/
inductive Phase where
  | gone
  | acting (request : Request) (loaded : Option (Int × Post))

/-- A session keeps the post that it has read first. -/
def Phase.load (phase : Phase) (postId : Int) (found : Option Post) : Phase :=
  match phase with
  | .acting request none => .acting request (found.map fun row => (postId, row))
  | phase => phase

def Phase.next (phase : Phase) : (stmt : Stmt) → Except Failure (Reply stmt) → Phase
  | .getPost postId, .ok found | .getBoardPost postId, .ok found => phase.load postId found
  | _, _ => phase

def Phase.allow : Phase → Stmt → Prop
  | .gone, _ => False
  | .acting request _, .insert payload => createsMemberPost request = true →
      isBoard (some payload.category.text) = true ∧ payload.pinned = false ∧
        payload.publishedAt = none
  | .acting request loaded, .flush postId before latest => createsMemberPost request = false ∧
      ∃ row, loaded = some (postId, row) ∧ before = loadedPost row ∧
        isBoard latest.category = isBoard row.category
  | .acting _ _, _ => True

abbrev handler : Protocol posts where
  Phase := Phase
  gone := .gone
  allow := Phase.allow
  next := Phase.next
  answers _ _ := True

section Requests

variable {request : Request} {loaded : Option (Int × Post)}

/-- What a session has after it has asked for a post: the one that it held, or the one found. -/
theorem getPost_through (held : Option Post) (postId : Int) :
    handler.Through (.acting request (held.map fun row => (postId, row))) (getPost held postId)
      fun row phase => phase = .acting request (some (postId, row)) ∧
        ∀ kept, held = some kept → row = kept := by
  refine .step trivial fun found _ => ?_
  cases found with
  | none => exact .raise
  | some row =>
    cases held with
    | none => exact .ret ⟨rfl, fun other same => by cases same⟩
    | some kept => exact .ret ⟨rfl, fun other same => by cases same; rfl⟩

theorem getBoardPost_through (postId : Int) :
    handler.Through (.acting request none) (getBoardPost postId)
      fun row phase => phase = .acting request (some (postId, row)) := by
  refine .step trivial fun found _ => ?_
  cases found with
  | none => exact .raise
  | some row => exact .ret rfl

theorem createPost_through {payload : PostCreate}
    (allowed : Phase.allow (.acting request loaded) (.insert payload)) :
    handler.Through (.acting request loaded) (createPost payload) fun _ _ => True := by
  refine .step allowed fun _ _ => ?_
  refine .step trivial fun _ _ => ?_
  exact .ask trivial fun _ _ => trivial

/-- An update that keeps the board membership of the post. -/
theorem updatePost_through (held : Option Post) (postId : Int) (payload : PostUpdate)
    (updates : createsMemberPost request = false)
    (keeps : ∀ row, (∀ kept, held = some kept → row = kept) →
      isBoard ((loadedPost row).set payload).category = isBoard row.category) :
    handler.Through (.acting request (held.map fun row => (postId, row)))
      (updatePost held postId payload)
      fun _ _ => True := by
  refine (getPost_through held postId).bind ?_
  rintro row _ ⟨rfl, same⟩
  have saved : handler.Through (.acting request (some (postId, row)))
      (save postId (loadedPost row) ((loadedPost row).set payload))
      fun _ phase => phase = .acting request (some (postId, row)) := by
    unfold save
    split
    · exact .ret rfl
    · exact .ask ⟨updates, row, rfl, rfl, keeps row same⟩ fun _ _ => rfl
  refine saved.bind ?_
  rintro _ _ rfl
  exact .step trivial fun _ _ => .ask trivial fun _ _ => trivial

theorem deletePost_through (held : Option Post) (postId : Int) :
    handler.Through (.acting request (held.map fun row => (postId, row))) (deletePost held postId)
      fun _ _ => True := by
  refine (getPost_through held postId).bind ?_
  rintro row _ ⟨rfl, -⟩
  refine .step trivial fun _ _ => ?_
  exact .ask trivial fun _ _ => trivial

theorem memberByStudentId_through (studentId : String) :
    handler.Through (.acting request loaded) (memberByStudentId studentId)
      fun _ phase => phase = .acting request loaded := by
  refine .step trivial fun found _ => ?_
  cases found with
  | none => exact .raise
  | some id => exact .ret rfl

theorem requireMemberBoardOwner_through (post : Post) (memberId : Int) (phase : Phase) :
    handler.Through phase (requireMemberBoardOwner post memberId)
      fun _ reached => reached = phase := by
  unfold requireMemberBoardOwner
  split
  · exact .raise
  · exact .ret rfl

theorem createAdminPost_through (payload : PostCreate) (adminStudentId : String)
    (admin : createsMemberPost request = false) :
    handler.Through (.acting request none) (createAdminPost payload adminStudentId)
      fun _ _ => True := by
  refine (memberByStudentId_through adminStudentId).bind ?_
  rintro id _ rfl
  apply createPost_through
  intro member
  rw [admin] at member
  cases member

theorem createMemberPost_through (payload : PostCreate) (memberStudentId : String)
    (memberId : Option Int) :
    handler.Through (.acting request none) (createMemberPost payload memberStudentId memberId)
      fun _ _ => True := by
  have checked : handler.Through (.acting request none) (requireBoardCategory payload.category)
      fun _ phase => phase = .acting request none ∧
        payload.category.text ∈ boardPostCategories := by
    unfold requireBoardCategory
    split
    · next board => exact .ret ⟨rfl, board⟩
    · exact .raise
  refine checked.bind ?_
  rintro _ _ ⟨rfl, board⟩
  have created (id : Int) : handler.Through (.acting request none)
      (createPost { payload with authorId := some id, pinned := false, publishedAt := none })
        fun _ _ => True :=
    createPost_through fun _ => ⟨(isBoard_text _).mpr board, rfl, rfl⟩
  cases memberId with
  | some id => exact created id
  | none =>
    refine (memberByStudentId_through memberStudentId).bind ?_
    rintro id _ rfl
    exact created id

/-- The administration writes a category that is on the board exactly if that of the loaded post is. -/
theorem updateAdminPost_through (postId : Int) (payload : PostUpdate)
    (updates : createsMemberPost request = false) :
    handler.Through (.acting request none) (updateAdminPost postId payload) fun _ _ => True := by
  unfold updateAdminPost
  cases given : payload.category with
  | none =>
    apply updatePost_through none postId payload updates
    intro row _
    rw [set_category_of_none given]
    rfl
  | some category =>
    refine (getPost_through none postId).bind ?_
    rintro current _ ⟨rfl, -⟩
    dsimp only
    split
    · exact .raise
    · next same =>
      have same : isBoard current.category = isBoard (some category.text) := by simpa using same
      apply updatePost_through (some current) postId payload updates
      intro row kept
      rw [set_category_of_some given, kept current rfl]
      exact same.symm

/-- A member's update does not touch the category, so the membership of the loaded post stays. -/
theorem updateMemberPost_through (postId : Int) (payload : PostOwnerUpdate) (memberId : Int)
    (updates : createsMemberPost request = false) :
    handler.Through (.acting request none) (updateMemberPost postId payload memberId)
      fun _ _ => True := by
  refine (getBoardPost_through postId).bind ?_
  rintro post _ rfl
  refine (requireMemberBoardOwner_through post memberId _).bind ?_
  rintro _ _ rfl
  apply updatePost_through (some post) postId payload.toPostUpdate updates
  intro row _
  rw [set_category_of_none rfl]
  rfl

theorem deleteMemberPost_through (postId memberId : Int) :
    handler.Through (.acting request none) (deleteMemberPost postId memberId) fun _ _ => True := by
  refine (getBoardPost_through postId).bind ?_
  rintro post _ rfl
  refine (requireMemberBoardOwner_through post memberId _).bind ?_
  rintro _ _ rfl
  exact deletePost_through (some post) postId

theorem request_follows (request : Request) :
    handler.Follows (.acting request none) request.program := by
  cases request with
  | createAdmin payload adminStudentId =>
    exact (createAdminPost_through payload adminStudentId rfl).follows
  | createMember payload memberStudentId memberId =>
    exact (createMemberPost_through payload memberStudentId memberId).follows
  | updateAdmin postId payload => exact (updateAdminPost_through postId payload rfl).follows
  | updateMember postId payload memberId =>
    exact (updateMemberPost_through postId payload memberId rfl).follows
  | deleteAdmin postId => exact (deletePost_through none postId).follows
  | deleteMember postId memberId => exact (deleteMemberPost_through postId memberId).follows

end Requests

/-! ## The invariant -/

/-- What an open session has read. -/
structure SessionInv (requests : SessionId → Option Request) (board : Int → Bool) (nextId : Int)
    (me : SessionId) (now : Phase) : Prop where
  acting : ∀ request loaded, now = .acting request loaded → requests me = some request
  loaded : ∀ request postId row, now = .acting request (some (postId, row)) →
    isBoard row.category = board postId ∧ postId < nextId

theorem SessionInv.gone {requests : SessionId → Option Request} {board : Int → Bool} {nextId : Int}
    {me : SessionId} : SessionInv requests board nextId me .gone where
  acting _ _ same := by cases same
  loaded _ _ _ same := by cases same

/-- Every version of a post that is committed, drafted or in the hands of a session has the
membership that `board` gives its key. -/
structure BoardInv (requests : SessionId → Option Request) (board : Int → Bool) (world : World)
    (phase : SessionId → Phase) : Prop where
  committed : ∀ postId row, world.posts.committed postId = some row →
    isBoard row.category = board postId
  drafts : ∀ postId owner row, (world.posts.slot postId).draft = some (owner, some row) →
    isBoard row.category = board postId ∧
      ((requests owner).any createsMemberPost = true → MemberPost row)
  keys : ∀ postId ∈ world.posts.keys, postId < world.nextId
  session : ∀ me, SessionInv requests board world.nextId me (phase me)

variable {requests : SessionId → Option Request} {board : Int → Bool} {world world' : World}
  {phase : SessionId → Phase} {me : SessionId}

theorem BoardInv.reads (inv : BoardInv requests board world phase) {postId : Int} {row : Post}
    (found : world.posts.row me postId = some row) :
    isBoard row.category = board postId ∧ postId < world.nextId := by
  refine ⟨?_, inv.keys postId (Table.mem_keys_of_row found)⟩
  rcases Table.row_cases me world.posts postId with committed | drafted
  · exact inv.committed postId row (committed.trans found)
  · rw [found] at drafted
    exact (inv.drafts postId me row drafted).1

/-- A session moves on to another phase. -/
theorem BoardInv.move (inv : BoardInv requests board world phase) {now : Phase}
    (mine : SessionInv requests board world.nextId me now) :
    BoardInv requests board world (Function.update phase me now) :=
  { inv with
    session := (Function.forall_update_iff phase
      fun other now => SessionInv requests board world.nextId other now).mpr
      ⟨mine, fun other _ => inv.session other⟩ }

theorem BoardInv.still (inv : BoardInv requests board world phase) :
    BoardInv requests board world (Function.update phase me (phase me)) :=
  inv.move (inv.session me)

theorem BoardInv.leave (inv : BoardInv requests board world phase) :
    BoardInv requests board world (Function.update phase me .gone) :=
  inv.move .gone

/-- A session has read a row. -/
theorem BoardInv.load (inv : BoardInv requests board world phase) {postId : Int}
    {found : Option Post} (seen : ∀ row, found = some row → world.posts.row me postId = some row) :
    BoardInv requests board world (Function.update phase me ((phase me).load postId found)) := by
  have mine := inv.session me
  apply inv.move
  cases acts : phase me with
  | gone => exact .gone
  | acting request loaded =>
    rw [acts] at mine
    cases loaded with
    | some held => exact mine
    | none =>
      refine ⟨fun request' loaded same => ?_, fun request' id row same => ?_⟩
      · simp only [Phase.load, Phase.acting.injEq] at same
        rw [← same.1]
        exact mine.acting request none rfl
      · simp only [Phase.load, Phase.acting.injEq] at same
        obtain ⟨version, rfl, pair⟩ := Option.map_eq_some_iff.mp same.2
        obtain ⟨rfl, rfl⟩ := Prod.mk.inj pair
        exact inv.reads (seen version rfl)

/-- A version may be drafted that has the membership of its key, and is a member's post where a member
creates it. -/
theorem BoardInv.write (inv : BoardInv requests board world phase) {postId : Int}
    {version : Option Post} (known : postId < world.nextId)
    (keeps : ∀ row, version = some row → isBoard row.category = board postId ∧
      ((requests me).any createsMemberPost = true → MemberPost row)) :
    BoardInv requests board { world with posts := world.posts.write me postId version } phase := by
  refine ⟨?_, fun id owner row drafted => ?_, fun id member => ?_, inv.session⟩
  · simpa only [Table.write_committed] using inv.committed
  · by_cases here : id = postId
    · subst here
      simp only [Table.write_slot_self, Slot.write_draft, Option.some.injEq,
        Prod.mk.injEq] at drafted
      obtain ⟨rfl, same⟩ := drafted
      exact keeps row same
    · rw [Table.write_slot_of_ne here] at drafted
      exact inv.drafts id owner row drafted
  · rcases Table.mem_write_keys.mp member with rfl | member
    · exact known
    · exact inv.keys id member

theorem BoardInv.rollback (inv : BoardInv requests board world phase) :
    BoardInv requests board (world.rollback me) phase := by
  refine ⟨?_, fun id owner row drafted => ?_, inv.keys, inv.session⟩
  · simpa only [World.rollback, Table.abort_committed] using inv.committed
  · exact inv.drafts id owner row (Slot.draft_abort_eq.mp drafted).1

theorem BoardInv.commit (inv : BoardInv requests board world phase) :
    BoardInv requests board (world.commit me) phase := by
  refine ⟨fun id row found => ?_, fun id owner row drafted => ?_, inv.keys, inv.session⟩
  · have found : (world.posts.commit me).committed id = some row := found
    rcases Table.commit_cases me world.posts id with same | drafted
    · exact inv.committed id row (same.symm.trans found)
    · rw [found] at drafted
      exact (inv.drafts id me row drafted).1
  · exact inv.drafts id owner row (Slot.draft_commit_eq.mp drafted).1

/-- A key from the sequence is new, so the membership of its post can be chosen. -/
theorem BoardInv.spend (inv : BoardInv requests board world phase) (value : Bool) :
    BoardInv requests (Function.update board world.nextId value)
      { world with nextId := world.nextId + 1 } phase := by
  have older {postId : Int} (before : postId < world.nextId) :
      Function.update board world.nextId value postId = board postId := by
    apply Function.update_of_ne
    omega
  refine ⟨fun id row found => ?_, fun id owner row drafted => ?_, fun id member => ?_,
    fun other => ?_⟩
  · have seen : id ∈ world.posts.keys := by
      by_contra absent
      rw [Table.committed, world.posts.covers id absent] at found
      cases found
    rw [older (inv.keys id seen)]
    exact inv.committed id row found
  · rw [older (inv.keys id (Table.mem_keys_of_draft drafted))]
    exact inv.drafts id owner row drafted
  · have before := inv.keys id member
    dsimp only
    omega
  · refine ⟨(inv.session other).acting, fun request id row acts => ?_⟩
    obtain ⟨same, before⟩ := (inv.session other).loaded request id row acts
    rw [older before]
    exact ⟨same, by dsimp only; omega⟩

/-! ## Every interleaving -/

/-- The statement keeps the invariant, and with it the membership of the posts that have a key. -/
def Grows (requests : SessionId → Option Request) (board : Int → Bool) (before after : World)
    (phase : SessionId → Phase) : Prop :=
  ∃ board', BoardInv requests board' after phase ∧ before.nextId ≤ after.nextId ∧
    ∀ postId, postId < before.nextId → board' postId = board postId

/-- A statement that uses no new key leaves the membership of every key as it was. -/
theorem BoardInv.grows (inv : BoardInv requests board world' phase)
    (same : world'.nextId = world.nextId) : Grows requests board world world' phase :=
  ⟨board, inv, by rw [same], fun _ _ => rfl⟩

/-- An insert gives the next key the membership of the post that it creates. -/
theorem BoardInv.insert (inv : BoardInv requests board world phase) {payload : PostCreate}
    {now : Source.Posts.Instant}
    {reply : Except Failure Unit} (allowed : (phase me).allow (.insert payload))
    (done : insert me payload now world = some (reply, world')) :
    Grows requests board world world' phase := by
  have spent (value : Bool) :
      Grows requests board world { world with nextId := world.nextId + 1 } phase := by
    refine ⟨_, inv.spend value, by dsimp only; omega, fun postId before => ?_⟩
    apply Function.update_of_ne
    omega
  unfold Source.PostWrites.insert at done
  cases author : payload.authorId with
  | none =>
    rw [author] at done
    cases done
    exact spent false
  | some authorId =>
    rw [author] at done
    obtain ⟨⟨hit, posts⟩, inserted, same⟩ := Option.map_eq_some_iff.mp done
    rcases Table.insertRow_cases inserted with ⟨rfl, rfl⟩ | ⟨rfl, -, -, rfl⟩
    · cases same
      exact spent false
    · cases same
      have fresh := inv.spend (isBoard (some payload.category.text))
      refine ⟨_, fresh.write (by dsimp only; omega) fun row same => ?_, by dsimp only; omega,
        fun postId before => ?_⟩
      · cases same
        refine ⟨by rw [Function.update_self]; rfl, fun creates => ?_⟩
        cases acts : phase me with
        | gone =>
          rw [acts] at allowed
          exact absurd allowed (by simp [Phase.allow])
        | acting request loaded =>
          rw [acts] at allowed
          rw [(inv.session me).acting request loaded acts, Option.any_some] at creates
          exact allowed creates
      · apply Function.update_of_ne
        omega

/-- A flush writes by key what it has compared with the loaded post, and that has the membership of the
key. -/
theorem BoardInv.flush (inv : BoardInv requests board world phase) {postId : Int}
    {loaded latest : PostObject}
    {reply : Except Failure Unit} (allowed : (phase me).allow (.flush postId loaded latest))
    (done : flush me postId loaded latest world = some (reply, world')) :
    Grows requests board world world' phase := by
  obtain ⟨⟨result, posts⟩, updated, same⟩ := Option.map_eq_some_iff.mp done
  rcases Table.updateChecked_cases updated with ⟨-, rfl⟩ | ⟨rfl, -, stored, row, seen, flushed, rfl⟩
  · have unchanged : world' = world := by
      cases result <;> cases same <;> rfl
    subst unchanged
    exact inv.grows rfl
  · cases same
    cases acts : phase me with
    | gone =>
      rw [acts] at allowed
      exact absurd allowed (by simp [Phase.allow])
    | acting request read =>
      rw [acts] at allowed
      obtain ⟨updates, held, rfl, -, keeps⟩ := allowed
      obtain ⟨original, known⟩ := (inv.session me).loaded request postId held acts
      refine (inv.write known fun version same => ?_).grows rfl
      cases same
      constructor
      · rcases flushedPost_category flushed with kept | set
        · rw [kept]
          exact (inv.reads seen).1
        · rw [set, keeps]
          exact original
      · intro creates
        rw [(inv.session me).acting request _ acts, Option.any_some, updates] at creates
        cases creates

/-- A removal leaves the key with its membership, so it is not lost if the removal is rolled back. -/
theorem BoardInv.delete (inv : BoardInv requests board world phase) {postId : Int}
    {reply : Except Failure Unit} (done : delete me postId world = some (reply, world')) :
    Grows requests board world world' phase := by
  obtain ⟨⟨hit, posts⟩, deleted, same⟩ := Option.map_eq_some_iff.mp done
  cases same
  rcases Table.deleteRow_cases deleted with ⟨-, rfl⟩ | ⟨-, -, ⟨stored, seen, -⟩, rfl⟩
  · exact inv.grows rfl
  · exact (inv.write (inv.reads seen).2 fun row gone => by cases gone).grows rfl

/-- Every answered statement that a phase allows keeps the membership of the keys that are in use. -/
theorem BoardInv.answer (inv : BoardInv requests board world phase) {stmt : Stmt} {choice : Choice}
    {reply : Except Failure (Reply stmt)} (allowed : (phase me).allow stmt)
    (done : Source.PostWrites.answer me stmt choice world = some (reply, world')) :
    Grows requests board world world' (Function.update phase me ((phase me).next stmt reply)) := by
  cases stmt with
  | memberByStudentId _ | refresh =>
    cases done
    exact inv.still.grows rfl
  | getPost postId =>
    cases done
    exact (inv.load fun row found => found).grows rfl
  | getBoardPost postId =>
    cases done
    exact (inv.load fun row found => (Option.filter_eq_some_iff.mp found).1).grows rfl
  | insert payload =>
    have grown := inv.insert allowed done
    simpa only [Phase.next, Function.update_eq_self] using grown
  | flush postId loaded latest =>
    have grown := inv.flush allowed done
    simpa only [Phase.next, Function.update_eq_self] using grown
  | delete postId =>
    have grown := inv.delete done
    simpa only [Phase.next, Function.update_eq_self] using grown
  | commit =>
    cases done
    exact inv.commit.still.grows rfl

/-- The invariant, with the membership of the posts whose keys come before `bound` held fixed. -/
def Fixed (requests : SessionId → Option Request) (bound : Int) (fixed : Int → Bool) (world : World)
    (phase : SessionId → Phase) : Prop :=
  ∃ board, BoardInv requests board world phase ∧ bound ≤ world.nextId ∧
    ∀ postId, postId < bound → board postId = fixed postId

/-- Keys that were in use before the bound keep their membership when more come into use. -/
theorem Grows.fixed {bound : Int} {fixed : Int → Bool}
    (grows : Grows requests board world world' phase)
    (known : bound ≤ world.nextId) (same : ∀ postId, postId < bound → board postId = fixed postId) :
    Fixed requests bound fixed world' phase := by
  obtain ⟨board', inv, later, kept⟩ := grows
  refine ⟨board', inv, by omega, fun postId before => ?_⟩
  rw [kept postId (by omega)]
  exact same postId before

/-- The membership of the keys before the bound stays over every interleaving, with any statement
failing. -/
theorem fixed_keeps (requests : SessionId → Option Request) (bound : Int) (fixed : Int → Bool) :
    handler.Keeps machine (fun _ _ _ _ => True) (Fixed requests bound fixed) where
  exec := by
    refine Protocol.Keeps.exec_of_answer answering ?_ ?_
    · intro phase stmt reason
      cases stmt <;> rfl
    · intro world phase me stmt choice reply world' holds _ allowed _ answered
      obtain ⟨board, inv, known, same⟩ := holds
      exact (inv.answer allowed answered).fixed known same
  known _ _ _ _ _ _ _ _ _ := trivial
  close _ _ _ holds := by
    obtain ⟨board, inv, known, same⟩ := holds
    exact ⟨board, inv.rollback.leave, known, same⟩
  crash _ _ _ holds := by
    obtain ⟨board, inv, known, same⟩ := holds
    exact ⟨board, inv.rollback.leave, known, same⟩
  outside _ _ change _ := nomatch change

/-- What a statement that is no commit leaves of the posts. -/
theorem exec_drafts {stmt : Stmt} {choice : Choice} {reply : Except Failure (Reply stmt)}
    (done : Source.PostWrites.exec me stmt choice world = some (reply, world'))
    (other : stmt ≠ .commit) : world.posts.Drafts me world'.posts := by
  rcases answering.exec_cases done with ⟨reason, -, rfl, rfl⟩ | ⟨-, done⟩
  · exact .same
  · cases stmt with
    | memberByStudentId _ | getPost _ | getBoardPost _ | refresh =>
      cases done
      exact .same
    | insert payload =>
      simp only [answering, Source.PostWrites.answer, Source.PostWrites.insert] at done
      split at done
      · cases done
        exact .same
      · obtain ⟨⟨hit, posts⟩, inserted, same⟩ := Option.map_eq_some_iff.mp done
        rcases Table.insertRow_cases inserted with ⟨rfl, rfl⟩ | ⟨rfl, -, -, rfl⟩
        · cases same
          exact .same
        · cases same
          exact .write _ _
    | flush postId loaded latest =>
      obtain ⟨⟨result, posts⟩, updated, same⟩ := Option.map_eq_some_iff.mp done
      rcases Table.updateChecked_cases updated with ⟨-, rfl⟩ | ⟨rfl, -, stored, row, -, -, rfl⟩
      · cases result <;> cases same <;> exact .same
      · cases same
        exact .write _ _
    | delete postId =>
      obtain ⟨⟨hit, posts⟩, deleted, same⟩ := Option.map_eq_some_iff.mp done
      cases same
      rcases Table.deleteRow_cases deleted with ⟨-, rfl⟩ | ⟨-, -, -, rfl⟩
      · exact .same
      · exact .write _ _
    | commit => exact absurd rfl other

/-- A row that a step of a session brings into being is one that the session had drafted. -/
theorem drafted_of_created {config after : Config machine Unit} {action : Action machine}
    {postId : Int} {row : Post} (stepped : config.step action = some after)
    (absent : config.world.posts.committed postId = none)
    (found : after.world.posts.committed postId = some row) :
    ∃ me, action.session = some me ∧
      (config.world.posts.slot postId).draft = some (me, some row) := by
  have unchanged
      (same : after.world.posts.committed postId = config.world.posts.committed postId) :
      False := by
    rw [found, absent] at same
    cases same
  cases Config.step_cases stepped with
  | @exec me choice stmt next reply world' running done =>
    refine ⟨me, rfl, ?_⟩
    by_cases commits : stmt = .commit
    · subst commits
      rcases answering.exec_cases done with ⟨reason, -, -, rfl⟩ | ⟨-, answered⟩
      · exact (unchanged rfl).elim
      · cases answered
        have found : (config.world.posts.commit me).committed postId = some row := found
        rcases Table.commit_cases me config.world.posts postId with same | drafted
        · exact (unchanged same).elim
        · rw [drafted, found]
    · exact (unchanged ((exec_drafts done commits).committed postId)).elim
  | close ended => exact (unchanged Table.abort_committed).elim
  | crash running => exact (unchanged Table.abort_committed).elim
  | outside change => cases change

/-! ## The posts of a run -/

/-- No transaction is open, and the sequence is past every key. -/
structure Fresh (world : World) : Prop where
  quiet : world.posts.Quiet
  keys : ∀ postId ∈ world.posts.keys, postId < world.nextId

/-- The phase of a session when the requests come in. -/
def opening (requests : SessionId → Option Request) (me : SessionId) : Phase :=
  match requests me with
  | some request => .acting request none
  | none => .gone

theorem opening_of_request {request : Request} (named : requests me = some request) :
    opening requests me = .acting request none := by
  simp [opening, named]

/-- The membership that the posts of a store have. -/
def membership (world : World) (postId : Int) : Bool :=
  (world.posts.committed postId).any fun row => isBoard row.category

/-- Requests that all have still to begin start with the memberships of the stored posts. -/
theorem start_holds (fresh : Fresh world) (requests : SessionId → Option Request) :
    handler.Holds (Fixed requests world.nextId (membership world)) (start world requests) := by
  refine ⟨opening requests,
    ⟨membership world,
      ⟨fun postId row found => ?_, fun postId owner row drafted => ?_, fresh.keys, fun me => ?_⟩,
      Int.le_refl _, fun _ _ => rfl⟩,
    fun me program running => ?_, fun me absent => ?_⟩
  · have found : world.posts.committed postId = some row := found
    simp [membership, found]
  · simp [start, fresh.quiet postId] at drafted
  · cases named : requests me with
    | none =>
      have gone : opening requests me = .gone := by simp [opening, named]
      rw [gone]
      exact .gone
    | some request =>
      rw [opening_of_request named]
      refine ⟨fun request' loaded same => ?_, fun request' postId row same => ?_⟩
      · cases same
        exact named
      · cases same
  · obtain ⟨request, named, rfl⟩ := Option.map_eq_some_iff.mp running
    rw [opening_of_request named]
    exact request_follows request
  · have absent : requests me = none := Option.map_eq_none_iff.mp absent
    simp [opening, absent]

/-- The membership of a post that is there stays as it is. -/
theorem membership_stays {bound : Int} {fixed : Int → Bool} {middle after : Config machine Unit}
    {rest : List (Action machine)} (holds : handler.Holds (Fixed requests bound fixed) middle)
    (onward : middle.run rest = some after) {postId : Int} {row later : Post}
    (here : middle.world.posts.committed postId = some row)
    (there : after.world.posts.committed postId = some later) :
    isBoard later.category = isBoard row.category := by
  obtain ⟨phase, ⟨board, inv, -, -⟩, follows, closed⟩ := holds
  have known : postId < middle.world.nextId := by
    apply inv.keys
    by_contra absent
    rw [Table.committed, middle.world.posts.covers postId absent] at here
    cases here
  have again : handler.Holds (Fixed requests middle.world.nextId board) middle :=
    ⟨phase, ⟨board, inv, Int.le_refl _, fun _ _ => rfl⟩, follows, closed⟩
  obtain ⟨phase', ⟨board', inv', -, same⟩, -, -⟩ :=
    (fixed_keeps requests middle.world.nextId board).run again (Config.meets_true _ _) onward
  rw [inv'.committed postId later there, same postId known]
  exact (inv.committed postId row here).symm

/-- Posts are created, changed and deleted by any requests in any interleaving, with failures and
crashes anywhere: a post keeps the board membership it was created with, and what a member
creates is a board post that is neither pinned nor published. -/
theorem board_membership_fixed (world : World) (requests : SessionId → Option Request)
    (fresh : Fresh world) (first rest : List (Action machine)) (action : Action machine)
    (before middle after : Config machine Unit)
    (reached : (start world requests).run first = some before)
    (stepped : before.step action = some middle) (onward : middle.run rest = some after) :
    (∀ postId row later, before.world.posts.committed postId = some row →
      after.world.posts.committed postId = some later →
        isBoard later.category = isBoard row.category) ∧
    ∀ postId row, before.world.posts.committed postId = none →
      middle.world.posts.committed postId = some row →
      (∀ later, after.world.posts.committed postId = some later →
        isBoard later.category = isBoard row.category) ∧
      ((action.session.bind requests).any createsMemberPost = true → MemberPost row) := by
  have keeps := fixed_keeps requests world.nextId (membership world)
  have holds := keeps.run (start_holds fresh requests) (Config.meets_true _ _) reached
  have next := keeps.step holds (fun _ _ _ _ _ _ => trivial) stepped
  have whole : before.run (action :: rest) = some after :=
    Option.bind_eq_some_iff.mpr ⟨middle, stepped, onward⟩
  refine ⟨fun postId row later here there => membership_stays holds whole here there,
    fun postId row absent found =>
      ⟨fun later there => membership_stays next onward found there, fun creates => ?_⟩⟩
  obtain ⟨me, mine, drafted⟩ := drafted_of_created stepped absent found
  obtain ⟨phase, ⟨board, inv, -, -⟩, -, -⟩ := holds
  rw [mine] at creates
  exact (inv.drafts postId me row drafted).2 creates

/-! ## A question that becomes a share -/

def notice : Post where
  id := 1
  authorId := 7
  title := "Notice"
  content := "Text"
  publishedAt := some 0
  createdAt := some 0
  category := some "notice"
  pinned := true
  coverImage := none
  images := none
  viewCount := 3

/-- There is one notice. -/
def oneNotice : World where
  posts := .seeded [(1, notice)]
  nextId := 2

theorem oneNotice_fresh : Fresh oneNotice where
  quiet := Table.seeded_quiet _
  keys := by decide

/-- A member asks a question, pinned and published if it were for the payload; the administration
then changes its category. -/
def askedAndShared (me : SessionId) : Option Request :=
  [Request.createMember
      { title := "Q", content := "?", pinned := true, publishedAt := some 5, category := .question }
      "20200001" (some 7),
    .updateAdmin 2 { category := some .share }][me]?

abbrev sharedStart : Config machine Unit := start oneNotice askedAndShared

def categoryOf (config : Config machine Unit) (postId : Int) : Option (Option String) :=
  (config.world.posts.committed postId).map (·.category)

set_option maxRecDepth 10000 in
/-- The question is created as a board post, neither pinned nor published, and stays one. -/
theorem board_membership_fixed_shared : ∃ before middle after,
    sharedStart.run (executes 0 1) = some before ∧ before.step (.exec 0 {}) = some middle ∧
      middle.run (executes 1 5) = some after ∧ ∃ row later,
        middle.world.posts.committed 2 = some row ∧ after.world.posts.committed 2 = some later ∧
          MemberPost row ∧ isBoard later.category = isBoard row.category ∧
            later.category = some "share" := by
  have ran : (sharedStart.run (executes 0 1)).bind (fun before =>
      (before.step (.exec 0 {})).bind fun middle => (middle.run (executes 1 5)).map fun after =>
        (categoryOf before 2, categoryOf middle 2, categoryOf after 2)) =
      some (none, some (some "question"), some (some "share")) := by
    decide
  obtain ⟨before, reached, ran⟩ := Option.bind_eq_some_iff.mp ran
  obtain ⟨middle, stepped, ran⟩ := Option.bind_eq_some_iff.mp ran
  obtain ⟨after, onward, facts⟩ := Option.map_eq_some_iff.mp ran
  simp only [Prod.mk.injEq] at facts
  obtain ⟨absent, created, shared⟩ := facts
  obtain ⟨row, found, -⟩ := Option.map_eq_some_iff.mp created
  obtain ⟨later, there, same⟩ := Option.map_eq_some_iff.mp shared
  have fixed := (board_membership_fixed oneNotice askedAndShared oneNotice_fresh
    (executes 0 1) (executes 1 5) (.exec 0 {}) before middle after reached stepped onward).2
    2 row (Option.map_eq_none_iff.mp absent) found
  exact ⟨before, middle, after, reached, stepped, onward, row, later, found, there, fixed.2 rfl,
    fixed.1 later there, same⟩

end SogeconApp.Guarantees.BoardMembership
