import SogeconApp.Guarantees.PartialUpdates
import SogeconApp.Source.OwnerPosts

/-!
# What an owner can change

An owner's update and an owner's deletion are authorised on the post as it is addressed: first that
it is there and on the board, then who wrote it. An update stores the four columns of its payload and
no others. The columns decide what is stored of a text: `VARCHAR` cuts blanks off beyond its length,
and a key beyond `INTEGER` is no key of a missing post, but an error of the database.
-/

namespace SogeconApp.Guarantees.OwnerMutations

open Library Source.OwnerPosts
open Source.Posts (isBoard)
open Source.PostWrites (PostOwnerUpdate PostUpdate PostObject)
open Source.PartialUpdates (IsInteger IsText IsVarchar cutBlanks postMapping varchar texts)
open Guarantees.PartialUpdates (PostFits PostNotNull post_unfit post_nulls withRow_found)

def postOwnerRequired : Failure :=
  .api "post_owner_required" "only the author can modify board posts" 403

/-- A board post that the member wrote. -/
structure OwnBoardPost (state : State) (postId memberId : Int) (post : Post) : Prop where
  found : state.posts postId = some post
  board : isBoard (post.category.map (·.val)) = true
  owner : post.authorId = memberId

/-- There is no post, or one that is not on the board. -/
def NoBoardPost (state : State) (postId : Int) : Prop :=
  ∀ post, state.posts postId = some post → isBoard (post.category.map (·.val)) = false

/-- A board post that somebody else wrote. -/
def OthersBoardPost (state : State) (postId memberId : Int) : Prop :=
  ∃ post, state.posts postId = some post ∧ isBoard (post.category.map (·.val)) = true ∧
    post.authorId ≠ memberId

/-- The columns that a payload may name: the text of the payload, less the blanks that the column
cuts off, or the paths normalised again; and as before where it names none. -/
structure Edited (media : Media) (payload : PostOwnerUpdate) (before after : Post) : Prop where
  title : after.title.val = (payload.title.map (cutBlanks 255)).getD before.title.val
  content : after.content.val = payload.content.getD before.content.val
  coverImage : (payload.coverImage = none → after.coverImage = before.coverImage) ∧
    ∀ value, payload.coverImage = some value → ∃ path, normalizeCoverImage media value = .ok path ∧
      after.coverImage.map (·.val) = path.map (cutBlanks 512)
  images : (payload.images = none → after.images = before.images) ∧
    ∀ value, payload.images = some value → ∃ paths, normalizeImages media value = .ok paths ∧
      after.images.map (·.val) = paths

/-- The columns that no owner's payload names. -/
structure OthersKept (before after : Post) : Prop where
  category : after.category = before.category
  pinned : after.pinned = before.pinned
  publishedAt : after.publishedAt = before.publishedAt
  authorId : after.authorId = before.authorId
  createdAt : after.createdAt = before.createdAt
  viewCount : after.viewCount = before.viewCount

variable {media : Media} {state after : State} {postId memberId : Int} {payload : PostOwnerUpdate}
  {post : Post} {reason : Failure}

/-! ## Who is let through -/

theorem getBoardPost_of_none (key : IsInteger postId) (absent : NoBoardPost state postId) :
    getBoardPost state postId = .error postNotFound := by
  unfold getBoardPost
  rw [if_pos key]
  split
  · next post found => rw [absent post found]; rfl
  · rfl

theorem getBoardPost_ok (read : getBoardPost state postId = .ok post) :
    IsInteger postId ∧ state.posts postId = some post ∧
      isBoard (post.category.map (·.val)) = true := by
  unfold getBoardPost at read
  split at read
  · next key =>
    split at read
    · next row found =>
      split at read
      · next board =>
        cases read
        exact ⟨key, found, board⟩
      · cases read
    · cases read
  · cases read

theorem getBoardPost_of_board (key : IsInteger postId) (found : state.posts postId = some post)
    (board : isBoard (post.category.map (·.val)) = true) : getBoardPost state postId = .ok post := by
  simp only [getBoardPost, if_pos key, found, board, if_true]

theorem getPost_of_found (key : IsInteger postId) (found : state.posts postId = some post) :
    getPost state postId = .ok post := by
  simp only [getPost, if_pos key, found]

/-! ## What an update stores -/

/-- An accepted payload carries the fields of the request, with the cover and the images as they were
validated. -/
theorem adminPayload_ok {admin : PostUpdate} (accepted : adminPayload media payload = .ok admin) :
    ∃ coverImage images, validated (normalizeCoverImage media) payload.coverImage = .ok coverImage ∧
      validated (normalizeImages media) payload.images = .ok images ∧
      admin = { payload.toPostUpdate with coverImage, images } := by
  simp only [adminPayload, bind, Except.bind, pure, Except.pure] at accepted
  split at accepted
  · cases accepted
  · next coverImage first =>
    split at accepted
    · cases accepted
    · next images second =>
      cases accepted
      exact ⟨coverImage, images, first, second, rfl⟩

/-- A field that is not set stays so, and one that is set has passed its validator. -/
theorem validated_ok {α : Type} {validator : α → Except Failure α} {field set : Option α}
    (accepted : validated validator field = .ok set) :
    (field = none → set = none) ∧ ∀ value, field = some value → ∃ checked,
      validator value = .ok checked ∧ set = some checked := by
  cases field with
  | none =>
    cases accepted
    exact ⟨fun _ => rfl, nofun⟩
  | some value =>
    refine ⟨nofun, fun value' same => ?_⟩
    cases same
    simp only [validated, Except.map] at accepted
    split at accepted
    · cases accepted
    · next checked passes =>
      cases accepted
      exact ⟨checked, passes, rfl⟩

/-- The row that an owner's payload is stored as. -/
theorem stored_edited {coverImage : Option (Option String)} {images : Option (Option (List String))}
    {stored : Source.PartialUpdates.Post}
    (first : validated (normalizeCoverImage media) payload.coverImage = .ok coverImage)
    (second : validated (normalizeImages media) payload.images = .ok images)
    (checked : (postMapping.check ((postMapping.load post.toPost).set
      { payload.toPostUpdate with coverImage, images })).value = some stored) :
    Edited media payload post { post with toPost := stored } ∧
      OthersKept post { post with toPost := stored } := by
  obtain ⟨_, pictures, six, seventh, rfl⟩ := Checked.passed_seq checked
  obtain ⟨_, cover, five, sixth, rfl⟩ := Checked.passed_seq six
  obtain ⟨_, published, four, fifth, rfl⟩ := Checked.passed_seq five
  obtain ⟨_, pinned, three, fourth, rfl⟩ := Checked.passed_seq four
  obtain ⟨_, category, two, third, rfl⟩ := Checked.passed_seq three
  obtain ⟨_, content, one, body, rfl⟩ := Checked.passed_seq two
  obtain ⟨title, head, rfl⟩ := Checked.passed_map one
  -- Each column by what the payload sets it to.
  have titled := @Column.stored_required _ _ (varchar 255) "title" (payload.title.map some)
    post.title title head
  have filled := @Column.stored_required _ _ Source.PartialUpdates.text "content"
    (payload.content.map some) post.content content body
  have covered := @Column.stored_optional _ _ (varchar 512) "cover_image" coverImage
    post.coverImage cover sixth
  have pictured := @Column.stored_optional _ _ texts "images" images post.images pictures seventh
  have categorised := (@Column.stored_optional _ _ (varchar 64) "category" none post.category
    category third).1 rfl
  have pinning := (@Column.stored_required _ _ (Column.whole Bool) "pinned" none post.pinned
    pinned fourth).1 rfl
  have publishing := (@Column.stored_optional _ _ Source.PartialUpdates.timestamp "published_at" none
    post.publishedAt published fifth).1 rfl
  obtain ⟨coverUnset, coverSet⟩ := validated_ok first
  obtain ⟨imagesUnset, imagesSet⟩ := validated_ok second
  refine ⟨⟨?_, ?_, ⟨fun unset => covered.1 (coverUnset unset), fun value set => ?_⟩,
    ⟨fun unset => pictured.1 (imagesUnset unset), fun value set => ?_⟩⟩,
    ⟨categorised, pinning, publishing, rfl, rfl, rfl⟩⟩
  · cases unset : payload.title with
    | none => exact congrArg Subtype.val (titled.1 (by rw [unset]; rfl))
    | some text =>
      obtain ⟨given, same, accepted⟩ := titled.2 (some text) (by rw [unset]; rfl)
      cases same
      show title.val = cutBlanks 255 text
      exact Column.stored_checked accepted
  · cases unset : payload.content with
    | none => exact congrArg Subtype.val (filled.1 (by rw [unset]; rfl))
    | some text =>
      obtain ⟨given, same, accepted⟩ := filled.2 (some text) (by rw [unset]; rfl)
      cases same
      show content.val = text
      exact Column.stored_checked accepted
  · obtain ⟨path, normalized, same⟩ := coverSet value set
    refine ⟨path, normalized, ?_⟩
    cases path with
    | none => exact congrArg (Option.map (·.val)) (covered.2.1 same)
    | some path =>
      obtain ⟨kept, accepted, stored⟩ := covered.2.2 path same
      show cover.map (·.val) = some (cutBlanks 512 path)
      rw [stored, Option.map_some, Column.stored_checked accepted]
  · obtain ⟨paths, normalized, same⟩ := imagesSet value set
    refine ⟨paths, normalized, ?_⟩
    cases paths with
    | none => exact congrArg (Option.map (·.val)) (pictured.2.1 same)
    | some paths =>
      obtain ⟨kept, accepted, stored⟩ := pictured.2.2 paths same
      show pictures.map (·.val) = some paths
      rw [stored, Option.map_some, Column.stored_checked accepted]

/-- The columns that an update can set are saved as one row. -/
theorem updatePost_saves (found : state.posts postId = some post) (admin : PostUpdate) :
    Source.PartialUpdates.updatePost (fun id => (state.posts id).map Post.toPost) postId admin =
      postMapping.save (fun _ => none) Source.PartialUpdates.Failure.database
        (fun id => (state.posts id).map Post.toPost) postId post.toPost
        ((postMapping.load post.toPost).set admin) := by
  apply withRow_found
  rw [found]
  rfl

/-- How an update ends: refused with nothing changed, or with one row stored. -/
theorem updatePost_ends (key : IsInteger postId) (found : state.posts postId = some post)
    (admin : PostUpdate) :
    (∃ reason, updatePost state postId admin = (.error reason, state)) ∨
      ∃ stored, (postMapping.check ((postMapping.load post.toPost).set admin)).value = some stored ∧
        updatePost state postId admin = (.ok (), { state with
          posts := Function.update state.posts postId (some { post with toPost := stored }) }) := by
  simp only [updatePost, getPost_of_found key found, updatePost_saves found]
  cases done : (postMapping.save (fun _ => none) Source.PartialUpdates.Failure.database
      (fun id => (state.posts id).map Post.toPost) postId
      post.toPost ((postMapping.load post.toPost).set admin)).reply with
  | error reason => exact .inl ⟨_, rfl⟩
  | ok stored => exact .inr ⟨stored, postMapping.save_reply done, rfl⟩

/-- A payload that every column takes is stored. -/
theorem updatePost_of_fits (key : IsInteger postId) (found : state.posts postId = some post)
    {admin : PostUpdate} (fits : PostFits admin) (present : PostNotNull admin) :
    (updatePost state postId admin).1 = .ok () := by
  have passed := (postMapping.check ((postMapping.load post.toPost).set admin)).passes.mpr
    ⟨(post_unfit post.toPost admin).mpr fits, (post_nulls post.toPost admin).mpr present⟩
  obtain ⟨stored, checked⟩ := Option.isSome_iff_exists.mp passed
  simp only [updatePost, getPost_of_found key found, updatePost_saves found, Mapping.save, checked]
  by_cases unchanged : (postMapping.load post.toPost).set admin = postMapping.load post.toPost
  · rw [if_pos unchanged]
  · rw [if_neg unchanged]

/-! ## The two mutations -/

/-- A post that passes the two checks of the owner's routes is the member's own one on the board. -/
theorem ownBoardPost_of_checks (read : getBoardPost state postId = .ok post)
    (owner : requireMemberBoardOwner post memberId = .ok ()) :
    IsInteger postId ∧ OwnBoardPost state postId memberId post := by
  obtain ⟨key, found, board⟩ := getBoardPost_ok read
  unfold requireMemberBoardOwner at owner
  split at owner
  · cases owner
  · next same => exact ⟨key, found, board, not_not.mp same⟩

/-- What a mutation may do: nothing, with an exception, or its change, on a board post of the
member. -/
theorem updateMemberPost_ends (media : Media) (state : State) (postId : Int)
    (payload : PostOwnerUpdate) (memberId : Int) :
    (∃ reason, updateMemberPost media state postId payload memberId = (.error reason, state)) ∨
      ∃ post stored, OwnBoardPost state postId memberId post ∧ Edited media payload post stored ∧
        OthersKept post stored ∧
        updateMemberPost media state postId payload memberId =
          (.ok (), { state with posts := Function.update state.posts postId (some stored) }) := by
  unfold updateMemberPost
  cases read : getBoardPost state postId with
  | error reason => exact .inl ⟨reason, rfl⟩
  | ok post =>
    cases owner : requireMemberBoardOwner post memberId with
    | error reason => exact .inl ⟨reason, by simp only [owner]⟩
    | ok _ =>
      obtain ⟨key, own⟩ := ownBoardPost_of_checks read owner
      simp only [owner]
      cases accepted : adminPayload media payload with
      | error reason => exact .inl ⟨reason, rfl⟩
      | ok admin =>
        obtain ⟨coverImage, images, first, second, rfl⟩ := adminPayload_ok accepted
        refine (updatePost_ends key own.found _).imp_right ?_
        rintro ⟨stored, checked, done⟩
        obtain ⟨edited, kept⟩ := stored_edited first second checked
        exact ⟨post, _, own, edited, kept, done⟩

/-- An update by the author of a board post succeeds where its payload is validated and fits. -/
theorem updateMemberPost_of_fits (key : IsInteger postId) (own : OwnBoardPost state postId memberId post)
    {admin : PostUpdate} (accepted : adminPayload media payload = .ok admin) (fits : PostFits admin)
    (present : PostNotNull admin) : (updateMemberPost media state postId payload memberId).1 = .ok () := by
  have owner : ¬post.authorId ≠ memberId := not_not.mpr own.owner
  simp only [updateMemberPost, getBoardPost_of_board key own.found own.board, requireMemberBoardOwner,
    if_neg owner, accepted]
  exact updatePost_of_fits key own.found fits present

/-- The title that an update which succeeds has stored. -/
theorem updateMemberPost_title (done : (updateMemberPost media state postId payload memberId).1 = .ok ())
    {title : String} (set : payload.title = some title) :
    ((updateMemberPost media state postId payload memberId).2.posts postId).map (·.title.val) =
      some (cutBlanks 255 title) := by
  rcases updateMemberPost_ends media state postId payload memberId with
    ⟨reason, same⟩ | ⟨before, stored, own, edited, kept, same⟩
  · rw [same] at done
    cases done
  · have title_stored := edited.title
    rw [set] at title_stored
    simp [same, title_stored]

theorem deleteMemberPost_ends (state : State) (postId memberId : Int) :
    (∃ reason, deleteMemberPost state postId memberId = (.error reason, state)) ∨
      (∃ post, OwnBoardPost state postId memberId post) ∧
        deleteMemberPost state postId memberId = (.ok postId,
          { posts := Function.update state.posts postId none
            comments := fun id => (state.comments id).filter fun comment => comment.postId ≠ postId }) := by
  unfold deleteMemberPost
  cases read : getBoardPost state postId with
  | error reason => exact .inl ⟨reason, rfl⟩
  | ok post =>
    cases owner : requireMemberBoardOwner post memberId with
    | error reason => exact .inl ⟨reason, by simp only [owner]⟩
    | ok _ =>
      obtain ⟨key, own⟩ := ownBoardPost_of_checks read owner
      simp only [owner, deletePost, getPost_of_found key own.found]
      exact .inr ⟨⟨post, own⟩, trivial⟩

/-- Who is refused, and with what. -/
theorem refused_mutations (key : IsInteger postId) :
    (NoBoardPost state postId →
      updateMemberPost media state postId payload memberId = (.error postNotFound, state) ∧
        deleteMemberPost state postId memberId = (.error postNotFound, state)) ∧
    (OthersBoardPost state postId memberId →
      updateMemberPost media state postId payload memberId = (.error postOwnerRequired, state) ∧
        deleteMemberPost state postId memberId = (.error postOwnerRequired, state)) := by
  constructor
  · intro absent
    simp only [updateMemberPost, deleteMemberPost, getBoardPost_of_none key absent, and_self]
  · rintro ⟨post, found, board, other⟩
    simp only [updateMemberPost, deleteMemberPost, getBoardPost_of_board key found board,
      requireMemberBoardOwner, if_pos other, postOwnerRequired, and_self]

/-- In every state, for every member, every owner's payload and every post key of the column's type:
an update changes the addressed post alone and a deletion that post and its comments; they succeed
only on a board post that the member wrote; an update that succeeds stores the columns of the payload
and leaves the others; on no board post, and on a board post of somebody else, they are refused with
nothing changed, and so does every other exception leave the state. -/
theorem owner_mutations (media : Media) (state : State) (postId memberId : Int)
    (payload : PostOwnerUpdate) :
    let updated := updateMemberPost media state postId payload memberId
    let deleted := deleteMemberPost state postId memberId
    ((∀ other, other ≠ postId → updated.2.posts other = state.posts other) ∧
      updated.2.comments = state.comments ∧
      (updated.1 = .ok () → ∃ before stored, OwnBoardPost state postId memberId before ∧
        updated.2.posts postId = some stored ∧ Edited media payload before stored ∧
        OthersKept before stored) ∧
      ∀ reason, updated.1 = .error reason → updated.2 = state) ∧
    ((∀ other, other ≠ postId → deleted.2.posts other = state.posts other) ∧
      (∀ id comment, comment.postId ≠ postId →
        (deleted.2.comments id = some comment ↔ state.comments id = some comment)) ∧
      (∀ key, deleted.1 = .ok key → key = postId ∧ (∃ before, OwnBoardPost state postId memberId before) ∧
        deleted.2.posts postId = none ∧
        ∀ id comment, deleted.2.comments id = some comment → comment.postId ≠ postId) ∧
      ∀ reason, deleted.1 = .error reason → deleted.2 = state) ∧
    (IsInteger postId →
      (NoBoardPost state postId →
        updated = (.error postNotFound, state) ∧ deleted = (.error postNotFound, state)) ∧
      (OthersBoardPost state postId memberId →
        updated = (.error postOwnerRequired, state) ∧ deleted = (.error postOwnerRequired, state))) := by
  intro updated deleted
  refine ⟨?_, ?_, refused_mutations⟩
  · rcases updateMemberPost_ends media state postId payload memberId with
      ⟨reason, same⟩ | ⟨before, stored, own, edited, kept, same⟩
    · simp only [updated, same]
      exact ⟨fun _ _ => trivial, trivial, nofun, fun _ _ => trivial⟩
    · simp only [updated, same]
      refine ⟨fun other different => Function.update_of_ne different .., trivial, fun _ => ?_, nofun⟩
      exact ⟨before, stored, own, Function.update_self .., edited, kept⟩
  · rcases deleteMemberPost_ends state postId memberId with ⟨reason, same⟩ | ⟨own, same⟩
    · simp only [deleted, same]
      exact ⟨fun _ _ => trivial, fun _ _ _ => trivial, nofun, fun _ _ => trivial⟩
    · simp only [deleted, same]
      refine ⟨fun other different => Function.update_of_ne different .., fun id comment other => ?_,
        fun key same => ?_, nofun⟩
      · simp only [Option.filter_eq_some_iff, decide_eq_true_eq]
        exact ⟨fun kept => kept.1, fun found => ⟨found, other⟩⟩
      · cases same
        refine ⟨rfl, own, Function.update_self .., fun id comment kept => ?_⟩
        simpa using (Option.filter_eq_some_iff.mp kept).2

/-! ## A board -/

/-- The default base, and network locations without a bracket and within ASCII. -/
def plainMedia : Media where
  rules := { checks := fun _ => true, checks_nil := rfl }
  mediaUrlBase := "/media".toList

def question : Post where
  title := ⟨"question", by decide⟩
  content := ⟨"why?", by decide⟩
  category := some ⟨"question", by decide⟩
  pinned := false
  publishedAt := none
  coverImage := none
  images := none
  authorId := 3
  createdAt := some 0
  viewCount := 5

/-- One question, by member 3, with a comment. -/
def board : State where
  posts id := if id = 7 then some question else none
  comments id := if id = 1 then some ⟨7, 4, "because", 1⟩ else none

/-- The title that the question is stored with. -/
def storedTitle (state : State) : Option String := (state.posts 7).map (·.title.val)

set_option maxRecDepth 10000 in
example : storedTitle (updateMemberPost plainMedia board 7 { title := some "answered" } 3).2 =
    some "answered" := by decide

theorem adminPayload_title (title : String) :
    adminPayload media { title := some title } = .ok { title := some (some title) } := rfl

/-- As long as the column, and a blank. -/
def longTitle : String := String.ofList (List.replicate 255 'a' ++ [' '])

theorem cutBlanks_append (text : List Char) :
    cutBlanks text.length (String.ofList (text ++ [' '])) = String.ofList text := by
  simp [cutBlanks]

theorem longTitle_cut : cutBlanks 255 longTitle = String.ofList (List.replicate 255 'a') := by
  have cut := cutBlanks_append (List.replicate 255 'a')
  rw [List.length_replicate] at cut
  exact cut

theorem longTitle_ne : some (String.ofList (List.replicate 255 'a')) ≠ some longTitle := by
  intro same
  have lengths := congrArg List.length (String.ofList_injective (Option.some.inj same))
  simp only [List.length_append, List.length_replicate, List.length_singleton] at lengths
  omega

theorem longTitle_fits : (varchar 255).Fits (some (some longTitle)) := by
  intro value same
  rw [← Option.some.inj (Option.some.inj same), varchar, Column.accept_checked, longTitle_cut]
  constructor
  · simp only [IsText, String.toList_ofList, List.mem_replicate]
    decide
  · rw [String.length_ofList, List.length_replicate]

/-- An update succeeds that does not store the payload's title, and a missing post whose key is beyond
the column's type is not reported as missing. -/
theorem column_types_decide :
    (updateMemberPost plainMedia board 7 { title := some longTitle } 3).1 = .ok () ∧
      storedTitle (updateMemberPost plainMedia board 7 { title := some longTitle } 3).2 ≠
        some longTitle ∧
      board.posts (2 ^ 31) = none ∧
      (deleteMemberPost board (2 ^ 31) 3).1 = .error (.raised (.database (.data ["id"]))) := by
  have own : OwnBoardPost board 7 3 question := ⟨rfl, by decide, rfl⟩
  have fits : PostFits { title := some (some longTitle) } :=
    ⟨longTitle_fits, Column.fits_unset _, Column.fits_unset _, Column.fits_unset _, Column.fits_unset _⟩
  have done : (updateMemberPost plainMedia board 7 { title := some longTitle } 3).1 = .ok () :=
    updateMemberPost_of_fits (by decide) own (adminPayload_title longTitle) fits (by simp [PostNotNull])
  refine ⟨done, ?_, by decide, by decide⟩
  rw [storedTitle, updateMemberPost_title done rfl, longTitle_cut]
  exact longTitle_ne

end SogeconApp.Guarantees.OwnerMutations
