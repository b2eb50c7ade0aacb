import SogeconApp.Guarantees.PostVisibility
import SogeconApp.Source.PublicReads

/-!
# What an unauthenticated reader sees of unpublished posts

Two database states that differ in unpublished posts and their comments only answer the
post list, the post detail and the hero slides alike. The comment list asks for no
publication, so it answers alike exactly when the comments of the unpublished posts are the
same rows in both states.
-/

namespace SogeconApp.Guarantees.UnpublishedPosts

open Library Source.Posts Source.PublicReads

section States

variable (now : Instant) (db db' : Db)

/-- Where the post exists, in either state, it is not public. -/
def Hidden (postId : Int) : Prop :=
  ∀ post, post ∈ db.posts ∨ post ∈ db'.posts → post.id = postId → isPostPublic post now = false

/-- The same rows, besides unpublished posts and the comments attached to them. -/
structure SameBesidesHidden : Prop where
  posts : ∀ post, ¬Hidden now db db' post.id → (post ∈ db.posts ↔ post ∈ db'.posts)
  comments : ∀ comment, ¬Hidden now db db' comment.postId → (comment ∈ db.comments ↔ comment ∈ db'.comments)
  events : ∀ event, event ∈ db.events ↔ event ∈ db'.events
  heroItems : ∀ item, item ∈ db.heroItems ↔ item ∈ db'.heroItems
  authors : ∀ author, author ∈ db.authors ↔ author ∈ db'.authors

/-- The four public reads answer alike. -/
structure ReadsAgree (rules : ReadRules) : Prop where
  list : ∀ limit offset filters,
    Source.PublicReads.listPosts rules db now limit offset filters =
      Source.PublicReads.listPosts rules db' now limit offset filters
  detail : ∀ postId,
    Source.PublicReads.getPublicPost db now postId = Source.PublicReads.getPublicPost db' now postId
  slides : ∀ limit, listHeroSlides rules db now limit false = listHeroSlides rules db' now limit false
  comments : ∀ postId, listComments rules db postId = listComments rules db' postId

end States

section Reads

/-! ## The reads on one state -/

variable {rules : ReadRules} {now : Instant}

/-- The lookup by id, and the publication of what it finds. -/
theorem find_public_same {posts posts' : List Post} (unique : (posts.map Post.id).Nodup)
    (unique' : (posts'.map Post.id).Nodup)
    (agree : ∀ post, isPostPublic post now = true → (post ∈ posts ↔ post ∈ posts')) (postId : Int) :
    (posts.find? fun post => post.id = postId).filter (isPostPublic · now) =
      (posts'.find? fun post => post.id = postId).filter (isPostPublic · now) := by
  have keyed (post : Post) (found : decide (post.id = postId) = true) : post.id = postId :=
    of_decide_eq_true found
  rw [find_filter_of_key unique keyed, find_filter_of_key unique' keyed]
  apply find_eq_of_same unique unique'
  · intro post holds
    exact keyed post (Bool.and_eq_true_iff.mp holds).1
  · intro post holds
    exact agree post (Bool.and_eq_true_iff.mp holds).2

/-- The detail read looks the post up and then asks whether it is public. -/
theorem getPublicPost_eq (posts : List Post) (postId : Int) :
    Source.Posts.getPublicPost posts now postId =
      match (posts.find? fun post => post.id = postId).filter (isPostPublic · now) with
      | some post => .ok post
      | none => .error (.notFound "post_not_found") := by
  unfold Source.Posts.getPublicPost getPost
  cases posts.find? fun post => decide (post.id = postId) with
  | none => rfl
  | some post =>
    change (if isPostPublic post now = true then Except.ok post else Except.error _) = _
    cases visible : isPostPublic post now <;> simp [Option.filter, visible]

/-- A slide of a post is one of a public post, as far as a visitor goes. -/
theorem slideOf_eq (posts : List Post) (events : List Event) (item : HeroItem) :
    slideOf posts events now false item =
      if item.targetType = "post" then
        ((posts.find? fun post => post.id = item.targetId).filter (isPostPublic · now)).map
          (postSlide item · false)
      else if item.targetType = "event" then
        (events.find? fun event => event.id = item.targetId).map (eventSlide item)
      else none := by
  unfold slideOf
  split
  · cases posts.find? fun post => decide (post.id = item.targetId) with
    | none => rfl
    | some post => cases visible : isPostPublic post now <;> simp [Option.filter, visible]
  · rfl

/-- The comments that are listed are those of the post, whatever the post is. -/
theorem mem_listComments (state : Db) (postId : Int) (read : CommentRead) :
    read ∈ listComments rules state postId ↔ read.comment ∈ state.comments ∧ read.comment.postId = postId ∧
      read.authorName = authorName state read.comment.authorId := by
  unfold listComments listCommentsByPost
  simp only [List.mem_map, RowOrder.mem_sort, mem_selectWhere, Truth.holds_equals, Option.some.injEq]
  constructor
  · rintro ⟨comment, ⟨member, attached⟩, rfl⟩
    exact ⟨member, attached, rfl⟩
  · rintro ⟨member, attached, named⟩
    exact ⟨read.comment, ⟨member, attached⟩, by rw [← named]⟩

section ByIds

variable {Row : Type} {key : Row → Int} {rows : List Row}

/-- The rows that are loaded are those with one of the ids. -/
theorem mem_getByIds (ids : List Int) (row : Row) :
    row ∈ getByIds key rows ids ↔ row ∈ rows ∧ key row ∈ ids := by
  unfold getByIds
  split
  · rename_i empty
    simp [empty]
  · simp

theorem getByIds_key (unique : (rows.map key).Nodup) (ids : List Int) :
    ((getByIds key rows ids).map key).Nodup := by
  unfold getByIds
  split
  · exact List.nodup_nil
  · exact unique.sublist (List.filter_sublist.map _)

end ByIds

end Reads

section Agree

variable {rules : ReadRules} {now : Instant} {db db' : Db} (same : SameBesidesHidden now db db')

include same

theorem public_post_same (post : Post) (visible : isPostPublic post now = true) :
    post ∈ db.posts ↔ post ∈ db'.posts := by
  constructor
  · intro member
    refine (same.posts post fun hidden => ?_).mp member
    rw [hidden post (.inl member) rfl] at visible
    cases visible
  · intro member
    refine (same.posts post fun hidden => ?_).mpr member
    rw [hidden post (.inr member) rfl] at visible
    cases visible

theorem authorName_same (authorId : Int) : authorName db authorId = authorName db' authorId := by
  unfold authorName
  rw [find_eq_of_same db.authorKey db'.authorKey (fun _ holds => of_decide_eq_true holds)
    fun author _ => same.authors author]

/-- A post is shown the same, with the name of its author. -/
theorem readPost_same : readPost db = readPost db' := by
  funext post
  unfold readPost
  rw [authorName_same same]

/-! ## The post list and the post detail -/

/-- The public list does not depend on what is not public. -/
theorem listPosts_same (limit offset : Nat) (filters : PublicPostFilters) :
    Source.PublicReads.listPosts rules db now limit offset filters =
      Source.PublicReads.listPosts rules db' now limit offset filters := by
  unfold Source.PublicReads.listPosts Source.Posts.listPosts
  rw [readPost_same same]
  congr 2
  have separates : publicOrder.Separates db.posts :=
    RowOrder.thenBy_separates (RowOrder.desc_separates (RowOrder.ascending_separates
      fun _ member _ member' keyed => eq_of_key db.postKey member member' keyed))
  apply RowOrder.sort_eq_of_same
  · exact (db.postKey.of_map).filter _
  · exact (db'.postKey.of_map).filter _
  · intro post
    rw [mem_selectWhere, mem_selectWhere, Truth.holds_and, PostVisibility.holds_publicVisibilityClause]
    constructor
    · intro ⟨member, visible, filtered⟩
      exact ⟨(public_post_same same post visible).mp member, visible, filtered⟩
    · intro ⟨member, visible, filtered⟩
      exact ⟨(public_post_same same post visible).mpr member, visible, filtered⟩
  · exact separates.subset fun post selected => (mem_selectWhere.mp selected).1

theorem getPublicPost_same (postId : Int) :
    Source.PublicReads.getPublicPost db now postId = Source.PublicReads.getPublicPost db' now postId := by
  unfold Source.PublicReads.getPublicPost
  rw [readPost_same same, getPublicPost_eq, getPublicPost_eq,
    find_public_same db.postKey db'.postKey (public_post_same same)]

/-! ## The hero slides -/

theorem listHeroItems_same (limit offset : Nat) :
    listHeroItems rules db.heroItems limit offset true = listHeroItems rules db'.heroItems limit offset true := by
  unfold listHeroItems
  simp only [if_true]
  congr 1
  have unique (state : Db) : ((selectWhere (fun item : HeroItem =>
      .equals (some item.enabled) (some true)) state.heroItems).map HeroItem.id).Nodup :=
    state.heroItemKey.sublist (List.filter_sublist.map _)
  apply RowOrder.sort_eq_of_same
  · exact (unique db).of_map
  · exact (unique db').of_map
  · intro item
    rw [mem_selectWhere, mem_selectWhere, same.heroItems]
  · exact RowOrder.thenBy_separates (rules.heroTie_separates _ (unique db))

/-- The slide of an item does not depend on what is not public. -/
theorem slideOf_same (postIds eventIds : List Int) :
    slideOf (getPostsByIds db.posts postIds) (getEventsByIds db.events eventIds) now false =
      slideOf (getPostsByIds db'.posts postIds) (getEventsByIds db'.events eventIds) now false := by
  funext item
  have posts := find_public_same (getByIds_key db.postKey postIds) (getByIds_key db'.postKey postIds)
    (fun post visible => by rw [mem_getByIds, mem_getByIds, public_post_same same post visible]) item.targetId
  have events := find_eq_of_same (getByIds_key db.eventKey eventIds) (getByIds_key db'.eventKey eventIds)
    (fun event (found : decide (event.id = item.targetId) = true) => of_decide_eq_true found)
    fun event _ => by rw [mem_getByIds, mem_getByIds, same.events]
  rw [slideOf_eq, slideOf_eq, getPostsByIds, getPostsByIds, getEventsByIds, getEventsByIds, posts, events]

theorem listHeroSlides_same (limit : Nat) :
    listHeroSlides rules db now limit false = listHeroSlides rules db' now limit false := by
  unfold listHeroSlides
  dsimp only
  rw [listHeroItems_same same, slideOf_same same]

/-! ## The comment list -/

/-- The comments of a post are the same if the stored ones are. -/
theorem listComments_same (postId : Int)
    (comments : ∀ comment, comment.postId = postId → (comment ∈ db.comments ↔ comment ∈ db'.comments)) :
    listComments rules db postId = listComments rules db' postId := by
  have unique (state : Db) : ((selectWhere (fun comment : Comment =>
      .equals (some comment.postId) (some postId)) state.comments).map Comment.id).Nodup :=
    state.commentKey.sublist (List.filter_sublist.map _)
  have rows : listCommentsByPost rules db.comments postId = listCommentsByPost rules db'.comments postId := by
    apply RowOrder.sort_eq_of_same
    · exact (unique db).of_map
    · exact (unique db').of_map
    · intro comment
      rw [mem_selectWhere, mem_selectWhere, Truth.holds_equals, Option.some.injEq]
      constructor
      · intro ⟨member, attached⟩
        exact ⟨(comments comment attached).mp member, attached⟩
      · intro ⟨member, attached⟩
        exact ⟨(comments comment attached).mpr member, attached⟩
    · exact RowOrder.thenBy_separates (rules.commentTie_separates _ (unique db))
  unfold listComments
  rw [rows]
  simp only [authorName_same same]

theorem comments_of_listComments (agree : ∀ postId, listComments rules db postId = listComments rules db' postId)
    (comment : Comment) : comment ∈ db.comments ↔ comment ∈ db'.comments := by
  have rows := congrArg
    (⟨comment, authorName db comment.authorId⟩ ∈ ·) (agree comment.postId)
  simpa [mem_listComments, authorName_same same] using rows

/-- The comment list shows the comments of any post: the four reads agree just when the
comments of the unpublished posts do. -/
theorem reads_agree_iff : ReadsAgree now db db' rules ↔
    ∀ comment, Hidden now db db' comment.postId → (comment ∈ db.comments ↔ comment ∈ db'.comments) := by
  constructor
  · intro agree comment _
    exact comments_of_listComments same agree.comments comment
  · intro hidden
    exact
      { list := listPosts_same same
        detail := getPublicPost_same same
        slides := listHeroSlides_same same
        comments := fun postId => listComments_same same postId fun comment _ => by
          by_cases unpublished : Hidden now db db' comment.postId
          · exact hidden comment unpublished
          · exact same.comments comment unpublished }

end Agree

/-! ## A comment on a draft -/

def byId : ReadRules where
  search := { ilike := fun value pattern => "%" ++ value ++ "%" = pattern }
  heroTie := RowOrder.ascending HeroItem.id
  commentTie := RowOrder.ascending Comment.id
  heroTie_separates _ unique :=
    RowOrder.ascending_separates fun _ member _ member' same => eq_of_key unique member member' same
  commentTie_separates _ unique :=
    RowOrder.ascending_separates fun _ member _ member' same => eq_of_key unique member member' same

def draft : Post :=
  { id := 1, authorId := 1, title := "", content := "", publishedAt := none, createdAt := none,
    category := some "notice", pinned := false, coverImage := none, images := none, viewCount := 0 }

/-- A draft with the given comments. -/
def stateWith (comments : List Comment) (key : (comments.map Comment.id).Nodup)
    (attached : ∀ comment ∈ comments, comment.postId = 1) : Db where
  posts := [draft]
  comments := comments
  events := []
  heroItems := []
  authors := [⟨1, "author"⟩]
  postKey := by decide
  commentKey := key
  eventKey := by decide
  heroItemKey := by decide
  authorKey := by decide
  commentPost comment member := ⟨draft, by simp, (attached comment member).symm⟩

def commented : Db := stateWith [⟨1, 1, 1, "seen", 0⟩] (by decide) (by decide)

def silent : Db := stateWith [] (by decide) (by decide)

/-- The draft does not exist. -/
def vacant : Db := { silent with posts := [], postKey := by decide, commentPost := by decide }

theorem draft_hidden (postId : Int) : Hidden 0 commented silent postId := by
  intro post member _
  have drafted : post = draft := by simpa [commented, silent, stateWith] using member
  subst drafted
  decide

theorem drafts_same_besides_hidden : SameBesidesHidden 0 commented silent where
  posts _ _ := Iff.rfl
  comments comment shown := absurd (draft_hidden comment.postId) shown
  events _ := Iff.rfl
  heroItems _ := Iff.rfl
  authors _ := Iff.rfl

/-- Anyone can read the comment on the draft. -/
theorem comment_of_draft_shown :
    SameBesidesHidden 0 commented silent ∧ ¬ReadsAgree 0 commented silent byId := by
  refine ⟨drafts_same_besides_hidden, fun agree => ?_⟩
  have shown := agree.comments 1
  revert shown
  decide

theorem vacant_same_besides_hidden : SameBesidesHidden 0 silent vacant where
  posts post shown := by
    refine absurd (fun other member _ => ?_) shown
    have drafted : other = draft := by simpa [silent, vacant, stateWith] using member
    subst drafted
    decide
  comments _ _ := Iff.rfl
  events _ := Iff.rfl
  heroItems _ := Iff.rfl
  authors _ := Iff.rfl

/-- A draft without comments is not observable. -/
theorem reads_agree_iff_vacant : ReadsAgree 0 silent vacant byId :=
  (reads_agree_iff vacant_same_besides_hidden).mpr fun _ _ => Iff.rfl

end SogeconApp.Guarantees.UnpublishedPosts
