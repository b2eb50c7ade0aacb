import SogeconApp.Guarantees.OwnerMutations
import SogeconApp.Library.Lists
import SogeconApp.Source.PostEditor

/-!
# What a form saves

A form that is saved as it was opened puts back what the post had, where its media paths come back from
their URLs; except that a post of an older category becomes a notice, and one without images has an
empty list of them. An administrator's save writes every field of the form; the date of publication is
left to the row unless the choice of the form is not that of the post, and on the board altogether.
-/

namespace SogeconApp.Guarantees.PostEditor

open Library Source.PostEditor
open Source.MediaPaths (buildMediaUrl normalizeMediaPath normalizeMediaPaths)
open Source.OwnerPosts (Media Failure State normalizeCoverImage normalizeImages validated)
open Source.PartialUpdates (Post Varchar IsVarchar IsInteger cutBlanks postMapping varchar texts)
open Source.Posts (Instant isBoard)
open Source.PostWrites (PostCategory PostObject PostOwnerUpdate PostUpdate)
open Guarantees.PartialUpdates (publishedAtField set_category set_publishedAt withRow_found)
open Guarantees.OwnerMutations (OwnBoardPost plainMedia question getBoardPost_of_board getPost_of_found
  updatePost_saves)

variable {media : Media} {posts : Int → Option Post} {postId : Int} {row before after : Post}
  {post : PostRead}

/-! ## Media paths -/

/-- A stored path is normalised to itself, and so is its URL. -/
def ComesBack (media : Media) (path : String) : Prop :=
  normalizeMediaPath media.rules media.mediaUrlBase (some path.toList) = .ok (some path.toList) ∧
    (buildMediaUrl media.rules media.mediaUrlBase (some path.toList) >>=
      normalizeMediaPath media.rules media.mediaUrlBase) = .ok (some path.toList)

structure MediaComesBack (media : Media) (row : Post) : Prop where
  cover : ∀ path, row.coverImage.map (·.val) = some path → ComesBack media path
  images : ∀ paths, row.images.map (·.val) = some paths → ∀ path ∈ paths, ComesBack media path

theorem ComesBack.url {path : String} (back : ComesBack media path) :
    ∃ url, buildMediaUrl media.rules media.mediaUrlBase (some path.toList) = .ok (some url) ∧
      normalizeMediaPath media.rules media.mediaUrlBase (some url) = .ok (some path.toList) := by
  have again := back.2
  cases built : buildMediaUrl media.rules media.mediaUrlBase (some path.toList) with
  | error reason =>
    rw [built] at again
    cases again
  | ok value =>
    rw [built] at again
    cases value with
    | none => cases again
    | some url => exact ⟨url, rfl, again⟩

/-- Paths that are normalised one by one, none of which is empty. -/
theorem normalizeImages_ok {urls paths : List String}
    (each : List.Forall₂ (fun url path => normalizeMediaPath media.rules media.mediaUrlBase
      (some (String.toList url)) = .ok (some (String.toList path))) urls paths) :
    normalizeImages media (some urls) = .ok (some paths) := by
  have normalized := @mapM_some _ _ _ (fun url => normalizeMediaPath media.rules media.mediaUrlBase
    (some url)) _ _
    (List.forall₂_map_left_iff.mpr (List.forall₂_map_right_iff.mpr each))
  simp only [normalizeImages, Option.map_some, normalizeMediaPaths, normalized]
  simp [bind, Except.bind, pure, Except.pure]

/-- Images that are read are sent back as what was stored. -/
theorem images_come_back {paths : List String} (back : ∀ path ∈ paths, ComesBack media path) :
    ∃ urls, buildMediaUrls media.rules media.mediaUrlBase (some (paths.map String.toList)) = .ok (some urls) ∧
      normalizeImages media (some (urls.map String.ofList)) = .ok (some paths) := by
  obtain ⟨urls, each⟩ := exists_forall₂ fun path member => (back path member).url
  refine ⟨urls, ?_, normalizeImages_ok ?_⟩
  · have built := @mapM_some _ _ _ (fun path => buildMediaUrl media.rules media.mediaUrlBase (some path)) _ _
      (List.forall₂_map_left_iff.mpr (each.imp fun _ _ both => both.1))
    simp only [buildMediaUrls, built]
    simp [bind, Except.bind, pure, Except.pure]
  · refine List.forall₂_map_left_iff.mpr (each.flip.imp fun url path both => ?_)
    rw [String.toList_ofList]
    exact both.2

/-- What is normalised again stays as it is. -/
theorem images_stay {paths : List String} (back : ∀ path ∈ paths, ComesBack media path) :
    normalizeImages media (some paths) = .ok (some paths) :=
  normalizeImages_ok (List.forall₂_same.mpr fun path member => (back path member).1)

theorem cover_comes_back {cover : Option String} (back : ∀ path, cover = some path → ComesBack media path) :
    ∃ url, buildMediaUrl media.rules media.mediaUrlBase (cover.map String.toList) = .ok url ∧
      normalizeCoverImage media (url.map String.ofList) = .ok cover := by
  cases cover with
  | none => exact ⟨none, rfl, rfl⟩
  | some path =>
    obtain ⟨url, built, normalized⟩ := (back path rfl).url
    refine ⟨some url, built, ?_⟩
    have text_back : ((some url).map String.ofList).map String.toList = some url := by simp
    simp only [normalizeCoverImage, text_back, normalized]
    simp

theorem cover_stays {cover : Option String} (back : ∀ path, cover = some path → ComesBack media path) :
    normalizeCoverImage media cover = .ok cover := by
  cases cover with
  | none => rfl
  | some path =>
    simp only [normalizeCoverImage, Option.map_some, (back path rfl).1]
    simp

/-! ## The payload -/

variable {now : Instant} {data : PostFormData}

/-- The form neither shows nor sends the category. -/
def KeepsCategory (category : Option String) : Prop := isBoard category = true ∨ category = some "hero"

instance (category : Option String) : Decidable (KeepsCategory category) :=
  inferInstanceAs (Decidable (_ ∨ _))

theorem hero_not_board : isBoard (some "hero") = false := by decide

/-- The payload of an administrator, field by field. -/
theorem payload_eq (now : Instant) (data : PostFormData) (post : PostRead) :
    buildPostUpdatePayload now data post =
      { title := some (some data.title)
        content := some (some data.content)
        category := if KeepsCategory post.category then none else some data.category.toCategory
        pinned := some (some data.pinned)
        publishedAt :=
          if isBoard post.category = false ∧ post.publishedAt = none ∧ data.published = true then
            some (some now)
          else none
        coverImage := some data.coverImage
        images := some (some data.images)
        unpublish := decide (isBoard post.category = false ∧ post.publishedAt ≠ none ∧
          data.published = false) } := by
  by_cases board : isBoard post.category = true
  · simp [buildPostUpdatePayload, buildAdminPostFields, KeepsCategory, board]
  · by_cases hero : post.category = some "hero" <;> by_cases dated : post.publishedAt = none <;>
      by_cases chosen : data.published = true <;>
      simp [buildPostUpdatePayload, buildAdminPostFields, buildNonBoardAdminFields, KeepsCategory, board, hero,
        hero_not_board, dated, chosen]

/-- The date is set where the choice of the form is not that of the post. -/
theorem payload_publishedAt (now : Instant) (data : PostFormData) (post : PostRead) :
    publishedAtField (buildPostUpdatePayload now data post) =
      if isBoard post.category ∨ data.published = decide (post.publishedAt ≠ none) then none
      else if data.published = true then some (some now) else some none := by
  rw [payload_eq]
  by_cases board : isBoard post.category = true
  · simp [publishedAtField, board]
  · by_cases dated : post.publishedAt = none <;> by_cases chosen : data.published = true <;>
      simp [publishedAtField, board, dated, chosen]

/-! ## A form that is saved as it was opened -/

/-- What a form is opened with is what its save puts back. -/
theorem readPost_ok (back : MediaComesBack media row) :
    ∃ post, readPost media row = .ok post ∧
      post.title = row.title.val ∧ post.content = row.content.val ∧ post.category = row.category.map (·.val) ∧
      post.pinned = row.pinned ∧ post.publishedAt = row.publishedAt.map (·.val) ∧
      normalizeCoverImage media post.coverImage = .ok (row.coverImage.map (·.val)) ∧
      normalizeImages media (some (post.images.getD [])) =
        .ok (some ((row.images.map (·.val)).getD [])) := by
  obtain ⟨url, built, normalized⟩ := cover_comes_back back.cover
  rw [Option.map_map] at built
  have images : ∃ urls, buildMediaUrls media.rules media.mediaUrlBase
        (row.images.map fun paths => paths.val.map String.toList) = .ok urls ∧
      normalizeImages media (some ((urls.map (·.map String.ofList)).getD [])) =
        .ok (some ((row.images.map (·.val)).getD [])) := by
    cases stored : row.images with
    | none => exact ⟨none, rfl, rfl⟩
    | some paths =>
      obtain ⟨urls, made, again⟩ := images_come_back (back.images paths.val (by rw [stored]; rfl))
      exact ⟨some urls, made, again⟩
  obtain ⟨urls, made, again⟩ := images
  have reads : readPost media row = .ok
      { title := row.title.val, content := row.content.val, category := row.category.map (·.val),
        pinned := row.pinned, publishedAt := row.publishedAt.map (·.val),
        coverImage := url.map String.ofList, images := urls.map (·.map String.ofList) } := by
    simp only [readPost, made]
    simp only [Function.comp_def] at built
    simp only [built]
    rfl
  exact ⟨_, reads, rfl, rfl, rfl, rfl, rfl, normalized, again⟩

/-- A category that an administrator's save leaves. -/
def Settled (category : Option String) : Prop :=
  KeepsCategory category ∨ category = some "news" ∨ category = some "notice"

instance (category : Option String) : Decidable (Settled category) :=
  inferInstanceAs (Decidable (_ ∨ _))

theorem text_fits (category : PostCategory) : IsVarchar 64 category.text := by
  cases category <;> decide

/-- The list of images, empty where there is none. -/
def listed (row : Post) : { items : List String // ∀ item ∈ items, Source.PartialUpdates.IsText item } :=
  row.images.getD ⟨[], by simp⟩

/-- What an administrator's save of the form makes of a row. -/
def resaved (row : Post) : Post :=
  { row with
    category :=
      if Settled (row.category.map (·.val)) then row.category
      else some ⟨PostCategory.notice.text, text_fits .notice⟩
    images := some (listed row) }

/-- A save changes nothing exactly if the category is one that is left and there is a list of images. -/
theorem resaved_eq_self_iff :
    resaved row = row ↔ Settled (row.category.map (·.val)) ∧ row.images ≠ none := by
  constructor
  · intro same
    refine ⟨?_, fun none_ => ?_⟩
    · by_contra unsettled
      have category := congrArg (fun row => row.category.map (·.val)) same
      simp only [resaved, if_neg unsettled, Option.map_some] at category
      exact unsettled (.inr (.inr category.symm))
    · have images := congrArg Post.images same
      rw [none_] at images
      cases images
  · rintro ⟨settled, some_⟩
    obtain ⟨paths, stored⟩ := Option.ne_none_iff_exists'.mp some_
    have same : some (listed row) = row.images := by
      rw [listed, stored]
      rfl
    rw [resaved, if_pos settled, same]

/-- An update sets each attribute to what the payload names. -/
theorem set_eq (payload : PostUpdate) (object : PostObject) :
    object.set payload =
      { title := payload.title.getD object.title
        content := payload.content.getD object.content
        category := (payload.category.map fun category => some category.text).getD object.category
        pinned := payload.pinned.getD object.pinned
        publishedAt := (publishedAtField payload).getD object.publishedAt
        coverImage := payload.coverImage.getD object.coverImage
        images := payload.images.getD object.images } := by
  rw [← set_category, ← set_publishedAt]
  rfl

/-- The category that the form is opened with is the one that is left. -/
theorem resaved_category {category : Option String} (read : post.category = category) :
    (((if KeepsCategory category then none
        else some (getInitialValues (some post)).category.toCategory).map
          fun category => some category.text).getD category) =
      if Settled category then category else some PostCategory.notice.text := by
  by_cases kept : KeepsCategory category
  · rw [if_pos kept, if_pos (.inl kept)]
    rfl
  · rw [if_neg kept]
    by_cases news : category = some "news"
    · rw [if_pos (.inr (.inl news))]
      simp [getInitialValues, read, news, CategoryType.toCategory, PostCategory.text]
    · have sent : (getInitialValues (some post)).category = .notice := by
        simp [getInitialValues, read, news]
      rw [sent]
      by_cases notice : category = some "notice"
      · rw [if_pos (.inr (.inr notice)), notice]
        rfl
      · have unsettled : ¬Settled category := not_or.mpr ⟨kept, not_or.mpr ⟨news, notice⟩⟩
        rw [if_neg unsettled]
        rfl

/-- The validators of a payload that sets both media fields. -/
theorem acceptUpdate_ok {payload : PostUpdate} {cover path : Option String} {images paths : Option (List String)}
    (coverSet : payload.coverImage = some cover) (imagesSet : payload.images = some images)
    (first : normalizeCoverImage media cover = .ok path) (second : normalizeImages media images = .ok paths) :
    acceptUpdate media payload = .ok { payload with coverImage := some path, images := some paths } := by
  simp only [acceptUpdate, coverSet, imagesSet, validated, first, second]
  rfl

/-- A save of a row's own object, less what the save changes. -/
theorem save_load {target : Post} (found : posts postId = some row) :
    postMapping.save (fun _ => none) Source.PartialUpdates.Failure.database posts postId row
        (postMapping.load target) =
      { reply := .ok target, table := Function.update posts postId (some target), nullsSent := [] } := by
  unfold Mapping.save
  rw [postMapping.check_load]
  split
  · next same =>
    have loaded := congrArg (fun object => (postMapping.check object).value) same
    simp only [postMapping.check_load, Option.some.injEq] at loaded
    rw [loaded, ← found, Function.update_eq_self]
  · rfl

/-- The category that a form sends is on the side of the board on which its post is. -/
theorem crossesBoundary_unedited {category : CategoryType} (outside : ¬KeepsCategory (row.category.map (·.val))) :
    Source.PartialUpdates.crossesBoundary row category.toCategory = false := by
  have off : isBoard (row.category.map (·.val)) = false := by
    simpa using (not_or.mp outside).1
  simp only [Source.PartialUpdates.crossesBoundary, off]
  cases category <;> decide

/-- An update that does not cross the boundary of the board is a save of the row. -/
theorem updateAdminPost_saves {payload : PostUpdate} (found : posts postId = some row)
    (inside : ∀ category, payload.category = some category →
      Source.PartialUpdates.crossesBoundary row category = false) :
    Source.PartialUpdates.updateAdminPost posts postId payload =
      postMapping.save (fun _ => none) Source.PartialUpdates.Failure.database posts postId row
        ((postMapping.load row).set payload) := by
  unfold Source.PartialUpdates.updateAdminPost
  cases named : payload.category with
  | none => exact withRow_found found ..
  | some category =>
    simp only [withRow_found found, inside category named, Bool.false_eq_true, if_false]
    exact withRow_found found ..

/-- A payload with the media paths of a row. -/
def withMedia (row : Post) (payload : PostUpdate) : PostUpdate :=
  { payload with
    coverImage := some (row.coverImage.map (·.val))
    images := some (some ((row.images.map (·.val)).getD [])) }

/-- The object that an unedited save sets. -/
theorem unedited_object (now : Instant) (title : post.title = row.title.val)
    (content : post.content = row.content.val) (category : post.category = row.category.map (·.val))
    (pinned : post.pinned = row.pinned) :
    (postMapping.load row).set (withMedia row (buildPostUpdatePayload now (getInitialValues (some post)) post)) =
      postMapping.load (resaved row) := by
  have date_kept : publishedAtField (buildPostUpdatePayload now (getInitialValues (some post)) post) = none := by
    rw [payload_publishedAt, if_pos (.inr rfl)]
  have date_set : publishedAtField (withMedia row
      (buildPostUpdatePayload now (getInitialValues (some post)) post)) = none := date_kept
  rw [set_eq, date_set, payload_eq]
  simp only [withMedia, postMapping, resaved, PostObject.mk.injEq, Option.getD_some, Option.getD_none]
  refine ⟨?_, ?_, ?_, ?_, trivial, ?_, ?_⟩
  · exact congrArg some title
  · exact congrArg some content
  · rw [category]
    refine (resaved_category category).trans ?_
    split <;> rfl
  · exact congrArg some pinned
  · rfl
  · cases stored : row.images <;> simp [listed, stored, texts, Column.checked]

theorem listed_val (row : Post) : (listed row).val = (row.images.map (·.val)).getD [] := by
  cases stored : row.images <;> simp [listed, stored]

theorem updatePost_unedited (back : MediaComesBack media row) (found : posts postId = some row) (now : Instant)
    (reads : readPost media row = .ok post) :
    updatePost media posts postId (buildPostUpdatePayload now (getInitialValues (some post)) post) =
      (.ok (resaved row), Function.update posts postId (some (resaved row))) := by
  obtain ⟨read, same, title, content, category, pinned, date, cover, images⟩ := readPost_ok back
  obtain rfl : post = read := Except.ok.inj (reads.symm.trans same)
  have accepted : acceptUpdate media (buildPostUpdatePayload now (getInitialValues (some post)) post) =
      .ok (withMedia row (buildPostUpdatePayload now (getInitialValues (some post)) post)) :=
    acceptUpdate_ok (by rw [payload_eq]; rfl) (by rw [payload_eq]; rfl) cover images
  have inside : ∀ sent,
      (withMedia row (buildPostUpdatePayload now (getInitialValues (some post)) post)).category = some sent →
      Source.PartialUpdates.crossesBoundary row sent = false := by
    intro sent named
    rw [payload_eq] at named
    obtain ⟨outside, same⟩ := Option.ite_none_left_eq_some.mp named
    cases same
    exact crossesBoundary_unedited (category ▸ outside)
  simp only [updatePost, accepted]
  rw [updateAdminPost_saves found inside, unedited_object now title content category pinned, save_load found]
  rfl

/-- What an owner's save of the form makes of a row. -/
def relisted (row : Source.OwnerPosts.Post) : Source.OwnerPosts.Post :=
  { row with images := some (listed row.toPost) }

/-- The columns that an update can set. -/
def columns (state : State) (id : Int) : Option Post := (state.posts id).map Source.OwnerPosts.Post.toPost

theorem columns_found {state : State} {row : Source.OwnerPosts.Post} (found : state.posts postId = some row) :
    columns state postId = some row.toPost := by
  rw [columns, found]
  rfl

def ownerPayload (row : Source.OwnerPosts.Post) : PostOwnerUpdate where
  title := some row.title.val
  content := some row.content.val
  coverImage := some (row.coverImage.map (·.val))
  images := some (some ((row.images.map (·.val)).getD []))

theorem updateBoardPost_unedited {state : State} {memberId : Int} {row : Source.OwnerPosts.Post}
    (back : MediaComesBack media row.toPost) (key : IsInteger postId)
    (own : OwnBoardPost state postId memberId row) (reads : readPost media row.toPost = .ok post) :
    updateBoardPost media state postId (buildBoardPostOwnerUpdatePayload (getInitialValues (some post)))
        memberId =
      (.ok (), { state with posts := Function.update state.posts postId (some (relisted row)) }) := by
  obtain ⟨read, same, title, content, category, pinned, date, cover, images⟩ := readPost_ok back
  obtain rfl : post = read := Except.ok.inj (reads.symm.trans same)
  have kept : ∀ path ∈ (row.images.map (·.val)).getD [], ComesBack media path := by
    intro path member
    cases stored : row.images.map (·.val) with
    | none =>
      rw [stored] at member
      cases member
    | some paths =>
      rw [stored] at member
      exact back.images paths stored path member
  have accepted : acceptOwnerUpdate media (buildBoardPostOwnerUpdatePayload (getInitialValues (some post))) =
      .ok (ownerPayload row) := by
    simp only [acceptOwnerUpdate, buildBoardPostOwnerUpdatePayload, getInitialValues, validated, cover, images,
      title, content]
    rfl
  -- The service normalises the paths once more.
  have again : Source.OwnerPosts.adminPayload media (ownerPayload row) =
      .ok (ownerPayload row).toPostUpdate := by
    simp only [Source.OwnerPosts.adminPayload, ownerPayload, validated, cover_stays back.cover,
      images_stay kept]
    rfl
  have latest : (postMapping.load row.toPost).set (ownerPayload row).toPostUpdate =
      postMapping.load (relisted row).toPost := by
    rw [set_eq]
    simp only [ownerPayload, PostOwnerUpdate.toPostUpdate, relisted, postMapping, publishedAtField,
      PostObject.mk.injEq]
    refine ⟨rfl, rfl, rfl, rfl, rfl, rfl, ?_⟩
    exact congrArg some (listed_val row.toPost).symm
  have owner : ¬row.authorId ≠ memberId := not_not.mpr own.owner
  have saves := @save_load (columns state) postId row.toPost (relisted row).toPost (columns_found own.found)
  unfold columns at saves
  simp only [updateBoardPost, accepted, Source.OwnerPosts.updateMemberPost,
    getBoardPost_of_board key own.found own.board, Source.OwnerPosts.requireMemberBoardOwner, if_neg owner, again,
    Source.OwnerPosts.updatePost, getPost_of_found key own.found, updatePost_saves own.found, latest]
  rw [saves]
  rfl

theorem relisted_eq_self_iff {row : Source.OwnerPosts.Post} : relisted row = row ↔ row.images ≠ none := by
  constructor
  · intro same none_
    have images := congrArg (fun row => row.images) same
    rw [none_] at images
    cases images
  · intro some_
    obtain ⟨paths, stored⟩ := Option.ne_none_iff_exists'.mp some_
    have same : some (listed row.toPost) = row.images := by
      rw [listed, stored]
      rfl
    rw [relisted, same]

/-- A post that is opened in a form and saved as it is: an administrator's save succeeds and leaves the
row, except that a category of neither the schema nor the hero becomes a notice and no images become an
empty list; a save by the author on the board succeeds and leaves the row but for the latter. -/
theorem unedited_save {state : State} {row : Source.OwnerPosts.Post} (found : state.posts postId = some row)
    (back : MediaComesBack media row.toPost) :
    ∃ post, readPost media row.toPost = .ok post ∧
      (∀ now, updatePost media (columns state) postId
          (buildPostUpdatePayload now (opened (some post)).data post) =
        (.ok (resaved row.toPost), Function.update (columns state) postId (some (resaved row.toPost)))) ∧
      (resaved row.toPost = row.toPost ↔
        Settled (row.category.map (·.val)) ∧ row.images ≠ none) ∧
      (∀ memberId, IsInteger postId → OwnBoardPost state postId memberId row →
        updateBoardPost media state postId (buildBoardPostOwnerUpdatePayload (opened (some post)).data) memberId =
          (.ok (), { state with posts := Function.update state.posts postId (some (relisted row)) })) ∧
      (relisted row = row ↔ row.images ≠ none) := by
  obtain ⟨post, reads, -⟩ := readPost_ok back
  refine ⟨post, reads, fun now => ?_, resaved_eq_self_iff, fun memberId key own => ?_, relisted_eq_self_iff⟩
  · exact updatePost_unedited back (columns_found found) now reads
  · exact updateBoardPost_unedited back key own reads

/-- A question with a picture. -/
def pictured : Source.OwnerPosts.Post :=
  { question with
    coverImage := some ⟨"images/a.jpg", by decide⟩
    images := some ⟨["images/a.jpg"], by decide⟩ }

def album : State where
  posts id := if id = 7 then some pictured else none
  comments _ := none

set_option maxRecDepth 10000 in
theorem picture_comes_back : ComesBack plainMedia "images/a.jpg" := by
  unfold ComesBack
  decide

theorem unedited_save_picture :
    ∃ post, readPost plainMedia pictured.toPost = .ok post ∧
      (updateBoardPost plainMedia album 7 (buildBoardPostOwnerUpdatePayload (opened (some post)).data) 3).1 =
        .ok () ∧
      relisted pictured = pictured := by
  have back : MediaComesBack plainMedia pictured.toPost := by
    constructor
    · rintro path ⟨⟩
      exact picture_comes_back
    · rintro paths ⟨⟩ path member
      rw [List.mem_singleton.mp member]
      exact picture_comes_back
  have found : album.posts 7 = some pictured := rfl
  obtain ⟨post, reads, -, -, owner, same⟩ := unedited_save found back
  have saves := owner 3 (by decide) ⟨found, by decide, rfl⟩
  exact ⟨post, reads, congrArg Prod.fst saves, same.mpr nofun⟩

/-! ## An edited form -/

/-- What an administrator's save stores: the fields of the form, and the category and the date of
publication as the row has them where they are not sent. -/
structure Saved (media : Media) (now : Instant) (post : PostRead) (data : PostFormData) (before after : Post) :
    Prop where
  title : after.title.val = cutBlanks 255 data.title
  content : after.content.val = data.content
  category : after.category.map (·.val) =
    if KeepsCategory post.category then before.category.map (·.val) else some data.category.toCategory.text
  pinned : after.pinned = data.pinned
  publishedAt : after.publishedAt.map (·.val) =
    if isBoard post.category ∨ data.published = decide (post.publishedAt ≠ none) then
      before.publishedAt.map (·.val)
    else if data.published = true then some now else none
  coverImage : ∃ path, normalizeCoverImage media data.coverImage = .ok path ∧
    after.coverImage.map (·.val) = path.map (cutBlanks 512)
  images : ∃ paths, normalizeImages media (some data.images) = .ok paths ∧ after.images.map (·.val) = paths

theorem acceptUpdate_inv {payload accepted : PostUpdate} {cover : Option String} {images : Option (List String)}
    (coverSet : payload.coverImage = some cover) (imagesSet : payload.images = some images)
    (done : acceptUpdate media payload = .ok accepted) :
    ∃ path paths, normalizeCoverImage media cover = .ok path ∧ normalizeImages media images = .ok paths ∧
      accepted = { payload with coverImage := some path, images := some paths } := by
  simp only [acceptUpdate, coverSet, imagesSet, validated] at done
  cases first : normalizeCoverImage media cover with
  | error reason =>
    rw [first] at done
    cases done
  | ok path =>
    cases second : normalizeImages media images with
    | error reason =>
      rw [first, second] at done
      cases done
    | ok paths =>
      rw [first, second] at done
      exact ⟨path, paths, rfl, rfl, (Except.ok.inj done).symm⟩

/-- A save that succeeds stores the row that the object is checked to be. -/
theorem save_ok {latest : PostObject} {raise : Refusal Source.PartialUpdates.UniqueColumn →
    Source.PartialUpdates.Failure}
    (found : posts postId = some before)
    (done : (postMapping.save (fun _ => none) raise posts postId before latest).reply = .ok after) :
    (postMapping.check latest).value = some after ∧
      (postMapping.save (fun _ => none) raise posts postId before latest).table =
        Function.update posts postId (some after) := by
  refine ⟨postMapping.save_reply done, ?_⟩
  have checked := postMapping.save_reply done
  unfold Mapping.save at done ⊢
  split
  · next unchanged =>
    rw [if_pos unchanged] at done
    cases done
    rw [← found, Function.update_eq_self]
  · rw [checked]

theorem updateAdminPost_ok {payload : PostUpdate} (found : posts postId = some before)
    (done : (Source.PartialUpdates.updateAdminPost posts postId payload).reply = .ok after) :
    (postMapping.check ((postMapping.load before).set payload)).value = some after ∧
      (Source.PartialUpdates.updateAdminPost posts postId payload).table =
        Function.update posts postId (some after) := by
  by_cases inside : ∀ category, payload.category = some category →
      Source.PartialUpdates.crossesBoundary before category = false
  · rw [updateAdminPost_saves found inside] at done ⊢
    exact save_ok found done
  · -- Across the boundary the update is refused.
    push Not at inside
    obtain ⟨category, named, crosses⟩ := inside
    simp only [Source.PartialUpdates.updateAdminPost, named, withRow_found found] at done
    rw [if_pos (by simpa using crosses)] at done
    cases done

/-- What an administrator's save that succeeds stores, on whatever row it finds. -/
theorem updatePost_saved (found : posts postId = some before)
    (done : (updatePost media posts postId (buildPostUpdatePayload now data post)).1 = .ok after) :
    Saved media now post data before after ∧
      (updatePost media posts postId (buildPostUpdatePayload now data post)).2 =
        Function.update posts postId (some after) := by
  unfold updatePost at done ⊢
  cases accepts : acceptUpdate media (buildPostUpdatePayload now data post) with
  | error reason =>
    rw [accepts] at done
    cases done
  | ok accepted =>
    rw [accepts] at done
    obtain ⟨path, paths, covers, pictures, rfl⟩ :=
      acceptUpdate_inv (by rw [payload_eq]) (by rw [payload_eq]) accepts
    set payload : PostUpdate := { buildPostUpdatePayload now data post with
      coverImage := some path, images := some paths } with payload_def
    have reply : (Source.PartialUpdates.updateAdminPost posts postId payload).reply = .ok after := by
      cases replied : (Source.PartialUpdates.updateAdminPost posts postId payload).reply with
      | error reason =>
        simp only [replied] at done
        cases done
      | ok row =>
        simp only [replied] at done
        exact congrArg Except.ok (Except.ok.inj done)
    obtain ⟨checked, table⟩ := updateAdminPost_ok found reply
    refine ⟨?_, table⟩
    rw [set_eq] at checked
    obtain ⟨_, pictured, six, seventh, rfl⟩ := Checked.passed_seq checked
    obtain ⟨_, cover, five, sixth, rfl⟩ := Checked.passed_seq six
    obtain ⟨_, published, four, fifth, rfl⟩ := Checked.passed_seq five
    obtain ⟨_, pinned, three, fourth, rfl⟩ := Checked.passed_seq four
    obtain ⟨_, category, two, third, rfl⟩ := Checked.passed_seq three
    obtain ⟨_, content, one, body, rfl⟩ := Checked.passed_seq two
    obtain ⟨title, head, rfl⟩ := Checked.passed_map one
    -- Each column by what the payload sets it to.
    have titled := @Column.stored_required _ _ (varchar 255) "title" payload.title before.title title head
    have filled := @Column.stored_required _ _ Source.PartialUpdates.text "content" payload.content
      before.content content body
    have categorised := @Column.stored_optional _ _ (varchar 64) "category"
      (payload.category.map fun category => some category.text) before.category category third
    have pinning := @Column.stored_required _ _ (Column.whole Bool) "pinned" payload.pinned before.pinned
      pinned fourth
    have publishing := @Column.stored_optional _ _ Source.PartialUpdates.timestamp "published_at"
      (publishedAtField payload) before.publishedAt published fifth
    have covered := @Column.stored_optional _ _ (varchar 512) "cover_image" payload.coverImage
      before.coverImage cover sixth
    have pictures_ := @Column.stored_optional _ _ texts "images" payload.images before.images pictured seventh
    have date : publishedAtField payload = publishedAtField (buildPostUpdatePayload now data post) := rfl
    rw [date, payload_publishedAt] at publishing
    simp only [payload_def, payload_eq] at titled filled categorised pinning
    refine ⟨?_, ?_, ?_, ?_, ?_, ⟨path, covers, ?_⟩, ⟨paths, pictures, ?_⟩⟩
    · obtain ⟨text, same, accepted⟩ := titled.2 _ rfl
      cases same
      exact Column.stored_checked accepted
    · obtain ⟨text, same, accepted⟩ := filled.2 _ rfl
      cases same
      exact Column.stored_checked accepted
    · show category.map (·.val) = _
      by_cases kept : KeepsCategory post.category
      · rw [if_pos kept]
        rw [if_pos kept] at categorised
        rw [categorised.1 rfl]
      · rw [if_neg kept]
        rw [if_neg kept] at categorised
        obtain ⟨stored, accepted, same⟩ := categorised.2.2 _ rfl
        rw [same, Option.map_some, Column.stored_checked accepted,
          Source.PartialUpdates.cutBlanks_short (text_fits _).2]
    · obtain ⟨choice, same, accepted⟩ := pinning.2 _ rfl
      cases same
      exact (Option.some.inj accepted).symm
    · show published.map (·.val) = _
      split
      · next kept =>
        rw [if_pos kept] at publishing
        rw [publishing.1 rfl]
      · next chosen =>
        rw [if_neg chosen] at publishing
        split
        · next out =>
          rw [if_pos out] at publishing
          obtain ⟨stored, accepted, same⟩ := publishing.2.2 _ rfl
          rw [same, Option.map_some, Column.stored_checked accepted]
        · next out =>
          rw [if_neg out] at publishing
          rw [publishing.2.1 rfl]
          rfl
    · show cover.map (·.val) = _
      cases path with
      | none => rw [covered.2.1 rfl]; rfl
      | some path =>
        obtain ⟨stored, accepted, same⟩ := covered.2.2 path rfl
        rw [same, Option.map_some, Option.map_some, Column.stored_checked accepted]
    · show pictured.map (·.val) = _
      cases paths with
      | none => rw [pictures_.2.1 rfl]; rfl
      | some paths =>
        obtain ⟨stored, accepted, same⟩ := pictures_.2.2 paths rfl
        rw [same, Option.map_some, Column.stored_checked accepted]

/-- The choice of the form is that of the post as it was fetched last. -/
def Unchosen (form : PostForm) : Prop :=
  form.data.published = (getInitialValues form.initialData).published

theorem step_unchosen {page : Page} {form next : PostForm} {event : Event} (unchosen : Unchosen form)
    (other : ∀ value, event ≠ .setPublished value) (steps : form.step page event = some next) :
    Unchosen next := by
  cases event with
  | setTitle value | setContent value =>
    cases steps
    exact unchosen
  | setPublished value => exact absurd rfl (other value)
  | setCategory value | setPinned value | setMain url | submit =>
    obtain ⟨-, ⟨⟩⟩ := Option.ite_none_left_eq_some.mp steps
    exact unchosen
  | remove url =>
    obtain ⟨-, ⟨⟩⟩ := Option.ite_none_left_eq_some.mp steps
    exact unchosen
  | sync post =>
    obtain ⟨-, ⟨⟩⟩ := Option.ite_none_left_eq_some.mp steps
    rfl
  | upload =>
    simp only [PostForm.step, PostForm.startUpload] at steps
    obtain ⟨-, ⟨⟩⟩ := Option.ite_none_left_eq_some.mp steps
    exact unchosen
  | uploaded url =>
    obtain ⟨upload, -, rfl⟩ := Option.map_eq_some_iff.mp steps
    simp only [Unchosen, PostForm.finishUpload]
    split <;> exact unchosen
  | uploadFails =>
    obtain ⟨upload, -, rfl⟩ := Option.map_eq_some_iff.mp steps
    exact unchosen
  | settled =>
    obtain ⟨-, ⟨⟩⟩ := Option.ite_none_right_eq_some.mp steps
    exact unchosen

/-- Whatever an administrator has done in the form, however often the post has been fetched again, and
whatever row the save finds: if it succeeds, that row has the fields of the form, the category only of a
post that is neither on the board nor the hero's, and another date of publication only where the choice
of the form differs from the post as it was fetched last; so never if that choice was not touched. -/
theorem admin_save {page : Page} {initialData : Option PostRead} {events : List Event} {form : PostForm}
    (runs : (opened initialData).run page events = some form) (fetched : form.initialData = some post)
    (found : posts postId = some before)
    (done : (updatePost media posts postId (buildPostUpdatePayload now form.data post)).1 = .ok after) :
    Saved media now post form.data before after ∧
      (updatePost media posts postId (buildPostUpdatePayload now form.data post)).2 =
        Function.update posts postId (some after) ∧
      ((∀ value, Event.setPublished value ∉ events) → after.publishedAt = before.publishedAt) := by
  obtain ⟨saved, table⟩ := updatePost_saved found done
  refine ⟨saved, table, fun untouched => ?_⟩
  have others : Throughout (PostForm.step page) (fun _ event => ∀ value, event ≠ .setPublished value)
      (opened initialData) events :=
    .of_forall fun _ event member value same => untouched value (same ▸ member)
  have unchosen := others.keeps (I := Unchosen) step_unchosen rfl runs
  have same := saved.publishedAt
  rw [Unchosen, fetched] at unchosen
  rw [if_pos (.inr unchosen)] at same
  exact Option.map_injective Subtype.val_injective same

/-- What an administrator reads of the question, which has another title by the time of the save. -/
def readQuestion : PostRead where
  title := "question"
  content := "why?"
  category := some "question"
  pinned := false
  publishedAt := none
  coverImage := none
  images := none

def retitled : Post := { question.toPost with title := ⟨"Question?", by decide⟩ }

def onlyRetitled (id : Int) : Option Post := if id = 7 then some retitled else none

/-- The form with the question pinned, while it is being saved. -/
def pinnedForm : PostForm where
  initialData := some readQuestion
  data := { getInitialValues (some readQuestion) with pinned := true }
  isPending := true

def pinnedQuestion : Post :=
  { question.toPost with pinned := true, images := some ⟨[], by decide⟩ }

/-- The title of the form is saved over the other, and the date is left. -/
theorem admin_save_pinned :
    (updatePost plainMedia onlyRetitled 7 (buildPostUpdatePayload 0 pinnedForm.data readQuestion)).1 =
        .ok pinnedQuestion ∧
      Saved plainMedia 0 readQuestion pinnedForm.data retitled pinnedQuestion ∧
      pinnedQuestion.publishedAt = retitled.publishedAt := by
  have runs : (opened (some readQuestion)).run .admin [.setPinned true, .submit] = some pinnedForm := by decide
  have done : (updatePost plainMedia onlyRetitled 7
      (buildPostUpdatePayload 0 pinnedForm.data readQuestion)).1 = .ok pinnedQuestion := by decide +kernel
  obtain ⟨saved, -, kept⟩ := admin_save runs rfl (by decide : onlyRetitled 7 = some retitled) done
  exact ⟨done, saved, kept (by simp)⟩

end SogeconApp.Guarantees.PostEditor
