import SogeconApp.Source.PostEditor

/-!
# The images of a form

A form shows its cover and its images, each once. It takes no more than ten of them as long as a post
that is fetched again does not arrive in the middle of an upload. An upload that ends puts back every
image that has been removed since it began: the removals that last are those made between uploads.
-/

namespace SogeconApp.Guarantees.PostEditor

open Library Source.PostEditor

variable {page : Page} {form after : PostForm} {event : Event} {events : List Event} {cover : Option String}
  {images : List String} {image url : String}

/-! ## What is shown -/

/-- The shown images are those of the list, and the cover if it is not among them. -/
theorem mem_allImages : image ∈ allImages cover images ↔ image ∈ images ∨ cover = some image ∧ image ≠ "" := by
  cases cover with
  | none => simp [allImages]
  | some cover =>
    by_cases empty : cover = ""
    · subst empty
      simp only [allImages, Option.filter, ne_eq, not_true_eq_false, decide_false, Bool.false_eq_true, if_false,
        Option.some.injEq]
      refine ⟨.inl, fun shown => shown.resolve_right ?_⟩
      rintro ⟨rfl, nonempty⟩
      exact nonempty rfl
    · simp only [allImages, Option.filter, ne_eq, empty, not_false_eq_true, decide_true, if_true, List.mem_cons,
        List.mem_filter, decide_eq_true_eq, Option.some.injEq]
      constructor
      · rintro (rfl | ⟨member, -⟩)
        · exact .inr ⟨rfl, empty⟩
        · exact .inl member
      · rintro (member | ⟨rfl, -⟩)
        · by_cases same : image = cover
          · exact .inl same
          · exact .inr ⟨member, same⟩
        · exact .inl rfl

theorem allImages_nodup (distinct : images.Nodup) : (allImages cover images).Nodup := by
  unfold allImages
  split
  · refine List.nodup_cons.mpr ⟨?_, distinct.filter _⟩
    simp
  · exact distinct

/-- What shows no other images shows no more of them. -/
theorem length_le_of_shown {shown : List String} (distinct : images.Nodup)
    (covered : ∀ image ∈ allImages cover images, image ∈ shown) :
    (allImages cover images).length ≤ shown.length :=
  ((allImages_nodup distinct).subperm covered).length_le

/-! ## The bound -/

/-- Images that a form can be opened with. -/
structure Fits (cover : Option String) (images : List String) : Prop where
  distinct : images.Nodup
  few : (allImages cover images).length ≤ maxImages

/-- The cover is one of the images, or the cover of the post as it was fetched. -/
def CoverKnown (form : PostForm) : Prop :=
  ∀ cover, form.data.coverImage = some cover →
    cover ∈ form.data.images ∨ (getInitialValues form.initialData).coverImage = some cover

/-- What an upload will end with: its images are those of the form and the ones removed since. -/
structure UploadFits (data : PostFormData) (upload : Upload) : Prop where
  distinct : upload.images.Nodup
  room : (allImages upload.coverImage upload.images).length < maxImages
  images : ∀ image ∈ data.images, image ∈ upload.images
  shown : ∀ image ∈ allImages data.coverImage data.images, image ∈ allImages upload.coverImage upload.images

structure FormFits (form : PostForm) : Prop where
  fits : Fits form.data.coverImage form.data.images
  cover : CoverKnown form
  upload : ∀ upload, form.uploading = some upload → UploadFits form.data upload

/-- A post is not fetched again in the middle of an upload, and it is one that the form can be opened
with; an uploaded image has a name of its own. -/
def Orderly (form : PostForm) : Event → Prop
  | .sync post => form.uploading = none ∧
      Fits (getInitialValues (some post)).coverImage (getInitialValues (some post)).images
  | .uploaded url => ∀ upload, form.uploading = some upload → url ∉ upload.images
  | _ => True

theorem opened_fits {initialData : Option PostRead}
    (fits : Fits (getInitialValues initialData).coverImage (getInitialValues initialData).images) :
    FormFits (opened initialData) where
  fits := fits
  cover _ same := .inr same
  upload := nofun

/-- Fewer images, and a cover that is shown already. -/
theorem FormFits.shrink (before : FormFits form) {change : PostFormData → PostFormData}
    (distinct : (change form.data).images.Nodup)
    (images : ∀ image ∈ (change form.data).images, image ∈ form.data.images)
    (cover : CoverKnown (form.edit change))
    (shown : ∀ image ∈ (form.edit change).shown, image ∈ form.shown) : FormFits (form.edit change) where
  fits := ⟨distinct, (length_le_of_shown distinct shown).trans before.fits.few⟩
  cover := cover
  upload upload same :=
    { before.upload upload same with
      images := fun image member => (before.upload upload same).images image (images image member)
      shown := fun image member => (before.upload upload same).shown image (shown image member) }

/-- A change of the other fields. -/
theorem FormFits.edit (before : FormFits form) {change : PostFormData → PostFormData}
    (cover : (change form.data).coverImage = form.data.coverImage)
    (images : (change form.data).images = form.data.images) : FormFits (form.edit change) := by
  refine before.shrink (by rw [images]; exact before.fits.distinct) (by rw [images]; exact fun _ => id) ?_ ?_
  · intro image same
    exact (before.cover image (cover ▸ same)).imp_left fun member => images ▸ member
  · simp only [PostForm.shown, PostForm.edit, cover, images]
    exact fun _ => id

theorem setMain_fits (before : FormFits form) (shown : url ∈ form.shown) :
    FormFits (form.edit fun data => { data with coverImage := some url }) := by
  refine before.shrink before.fits.distinct (fun _ => id) ?_ ?_
  · intro cover same
    cases same
    exact (mem_allImages.mp shown).elim .inl fun isCover => before.cover url isCover.1
  · intro image member
    rcases mem_allImages.mp member with kept | ⟨isCover, -⟩
    · exact mem_allImages.mpr (.inl kept)
    · cases isCover
      exact shown

theorem removeImage_fits (before : FormFits form) : FormFits (form.edit (PostForm.removeImage url)) := by
  have fewer : ∀ image ∈ (PostForm.removeImage url form.data).images, image ∈ form.data.images :=
    fun image member => (List.mem_filter.mp member).1
  -- The next cover is one of the images that are left, or the cover stays.
  have next : ∀ cover, (PostForm.removeImage url form.data).coverImage = some cover →
      cover ∈ (PostForm.removeImage url form.data).images ∨
        form.data.coverImage = some cover ∧ cover ≠ url := by
    intro cover same
    simp only [PostForm.removeImage] at same
    split at same
    · exact .inl (List.mem_of_head? same)
    · next kept => exact .inr ⟨same, fun equal => kept (equal ▸ same)⟩
  refine before.shrink (before.fits.distinct.filter _) fewer ?_ ?_
  · intro cover same
    rcases next cover same with left | ⟨isCover, other⟩
    · exact .inl left
    · refine (before.cover cover isCover).imp_left fun member => ?_
      exact List.mem_filter.mpr ⟨member, by simpa using other⟩
  · intro image member
    rcases mem_allImages.mp member with kept | ⟨isCover, nonempty⟩
    · exact mem_allImages.mpr (.inl (fewer image kept))
    · rcases next image isCover with left | ⟨wasCover, -⟩
      · exact mem_allImages.mpr (.inl (fewer image left))
      · exact mem_allImages.mpr (.inr ⟨wasCover, nonempty⟩)

theorem startUpload_some (starts : form.startUpload = some after) :
    form.uploading = none ∧ form.shown.length < maxImages ∧
      after = { form with
        uploading := some { coverImage := form.data.coverImage, images := form.data.images } } := by
  unfold PostForm.startUpload at starts
  split at starts
  · cases starts
  · next free =>
    obtain ⟨-, idle, room⟩ := not_or.mp free |>.imp_right not_or.mp
    cases starts
    exact ⟨not_not.mp idle, Nat.lt_of_not_le room, rfl⟩

theorem startUpload_fits (before : FormFits form) (starts : form.startUpload = some after) :
    FormFits after := by
  obtain ⟨-, room, rfl⟩ := startUpload_some starts
  refine ⟨before.fits, before.cover, fun upload same => ?_⟩
  cases same
  exact ⟨before.fits.distinct, room, fun _ => id, fun _ => id⟩

/-- Both branches leave the images of the upload and the new one. -/
theorem finishUpload_images (form : PostForm) (upload : Upload) (url : String) :
    (form.finishUpload upload url).data.images = upload.images ++ [url] := by
  simp only [PostForm.finishUpload]
  split
  · next first => rw [first.2]; rfl
  · rfl

theorem finishUpload_cover {upload : Upload}
    (same : (form.finishUpload upload url).data.coverImage = some image) :
    image = url ∨ form.data.coverImage = some image := by
  simp only [PostForm.finishUpload] at same
  split at same
  · cases same
    exact .inl rfl
  · exact .inr same

theorem finishUpload_fits (before : FormFits form) {upload : Upload} (uploading : form.uploading = some upload)
    (fresh : url ∉ upload.images) : FormFits (form.finishUpload upload url) := by
  have fits := before.upload upload uploading
  have list := finishUpload_images form upload url
  have distinct : (form.finishUpload upload url).data.images.Nodup := by
    rw [list]
    exact fits.distinct.append (List.nodup_singleton url) (by simpa using fresh)
  refine ⟨⟨distinct, ?_⟩, ?_, nofun⟩
  · -- Nothing is shown but what was shown when the upload began, and the new image.
    have shown : ∀ image ∈ (form.finishUpload upload url).shown,
        image ∈ allImages upload.coverImage upload.images ++ [url] := by
      intro image member
      rw [List.mem_append, List.mem_singleton]
      rcases mem_allImages.mp member with kept | ⟨isCover, nonempty⟩
      · rw [list, List.mem_append, List.mem_singleton] at kept
        exact kept.imp_left fun old => mem_allImages.mpr (.inl old)
      · rcases finishUpload_cover isCover with rfl | wasCover
        · exact .inr rfl
        · exact .inl (fits.shown image (mem_allImages.mpr (.inr ⟨wasCover, nonempty⟩)))
    calc (form.finishUpload upload url).shown.length
        ≤ (allImages upload.coverImage upload.images ++ [url]).length := length_le_of_shown distinct shown
      _ = (allImages upload.coverImage upload.images).length + 1 := by simp
      _ ≤ maxImages := fits.room
  · intro cover same
    rw [list, List.mem_append, List.mem_singleton]
    rcases finishUpload_cover same with rfl | wasCover
    · exact .inl (.inr rfl)
    · exact (before.cover cover wasCover).imp_left fun member => .inl (fits.images cover member)

theorem step_fits (before : FormFits form) (orderly : Orderly form event)
    (steps : form.step page event = some after) : FormFits after := by
  cases event with
  | setTitle value | setContent value =>
    cases steps
    exact before.edit rfl rfl
  | setCategory value | setPinned value | setPublished value =>
    obtain ⟨-, ⟨⟩⟩ := Option.ite_none_left_eq_some.mp steps
    exact before.edit rfl rfl
  | sync post =>
    obtain ⟨-, ⟨⟩⟩ := Option.ite_none_left_eq_some.mp steps
    refine ⟨orderly.2, fun _ same => .inr same, fun upload same => ?_⟩
    cases orderly.1.symm.trans same
  | upload => exact startUpload_fits before steps
  | uploaded url =>
    obtain ⟨upload, uploading, rfl⟩ := Option.map_eq_some_iff.mp steps
    exact finishUpload_fits before uploading (orderly upload uploading)
  | uploadFails =>
    obtain ⟨upload, -, rfl⟩ := Option.map_eq_some_iff.mp steps
    exact ⟨before.fits, before.cover, nofun⟩
  | setMain url =>
    obtain ⟨enabled, ⟨⟩⟩ := Option.ite_none_left_eq_some.mp steps
    exact setMain_fits before (not_not.mp (not_or.mp (not_or.mp enabled).2).1)
  | remove url =>
    obtain ⟨-, ⟨⟩⟩ := Option.ite_none_left_eq_some.mp steps
    exact removeImage_fits before
  | submit =>
    obtain ⟨-, ⟨⟩⟩ := Option.ite_none_left_eq_some.mp steps
    exact ⟨before.fits, before.cover, before.upload⟩
  | settled =>
    obtain ⟨-, ⟨⟩⟩ := Option.ite_none_right_eq_some.mp steps
    exact ⟨before.fits, before.cover, before.upload⟩

/-- In every run of a form from a post with distinct images of which it shows at most ten, it shows at
most ten, each once, and its cover is one of its images or the cover of the post as it was fetched last. -/
theorem image_form_fits {initialData : Option PostRead}
    (fits : Fits (getInitialValues initialData).coverImage (getInitialValues initialData).images)
    (orderly : Throughout (PostForm.step page) Orderly (opened initialData) events)
    (runs : (opened initialData).run page events = some after) :
    after.shown.length ≤ maxImages ∧ after.data.images.Nodup ∧ CoverKnown after := by
  have fitting := orderly.keeps step_fits (opened_fits fits) runs
  exact ⟨fitting.fits.few, fitting.fits.distinct, fitting.cover⟩

def twoPictures : PostForm where
  initialData := none
  data := { coverImage := some "b", images := ["a", "b"] }

/-- A new form takes two images, and shows the second as the cover. -/
theorem image_form_fits_two :
    (opened none).run .new [.upload, .uploaded "a", .upload, .uploaded "b", .setMain "b"] = some twoPictures ∧
      twoPictures.shown = ["b", "a"] ∧ CoverKnown twoPictures := by
  have runs : (opened none).run .new [.upload, .uploaded "a", .upload, .uploaded "b", .setMain "b"] =
      some twoPictures := by decide
  have fits : Fits (getInitialValues none).coverImage (getInitialValues none).images :=
    ⟨List.nodup_nil, Nat.zero_le _⟩
  refine ⟨runs, by decide, (image_form_fits fits ?_ runs).2.2⟩
  refine Throughout.cons_iff.mpr ⟨trivial, fun _ taken => ?_⟩
  cases taken
  refine Throughout.cons_iff.mpr ⟨?_, fun _ taken => ?_⟩
  · rintro upload ⟨⟩
    decide
  cases taken
  refine Throughout.cons_iff.mpr ⟨trivial, fun _ taken => ?_⟩
  cases taken
  refine Throughout.cons_iff.mpr ⟨?_, fun _ taken => ?_⟩
  · rintro upload ⟨⟩
    decide
  cases taken
  exact Throughout.cons_iff.mpr ⟨trivial, fun _ _ => .nil⟩

/-! ## Removals -/

/-- What an event is meant to do to the images. -/
def intended (images : List String) : Event → List String
  | .sync post => (getInitialValues (some post)).images
  | .uploaded url => images ++ [url]
  | .remove url => images.filter fun image => image ≠ url
  | _ => images

/-- In the middle of an upload no image is removed and no post is fetched again. -/
def BetweenUploads (form : PostForm) : Event → Prop
  | .remove _ | .sync _ => form.uploading = none
  | _ => True

/-- The images are those that were meant, and so are those that an upload will put back. -/
structure Follows (form : PostForm) (meant : List String) : Prop where
  current : form.data.images = meant
  upload : ∀ upload, form.uploading = some upload → upload.images = meant

/-- Every event between uploads does to the images what it is meant to do, and an upload adds its own
one. -/
theorem step_follows (before : Follows form images) (between : BetweenUploads form event)
    (steps : form.step page event = some after) : Follows after (intended images event) := by
  cases event with
  | setTitle value | setContent value =>
    cases steps
    exact ⟨before.current, before.upload⟩
  | setCategory value | setPinned value | setPublished value | setMain url | submit =>
    obtain ⟨-, ⟨⟩⟩ := Option.ite_none_left_eq_some.mp steps
    exact ⟨before.current, before.upload⟩
  | settled =>
    obtain ⟨-, ⟨⟩⟩ := Option.ite_none_right_eq_some.mp steps
    exact ⟨before.current, before.upload⟩
  | sync post =>
    obtain ⟨-, ⟨⟩⟩ := Option.ite_none_left_eq_some.mp steps
    refine ⟨rfl, fun upload same => ?_⟩
    cases (show form.uploading = none from between).symm.trans same
  | remove url =>
    obtain ⟨-, ⟨⟩⟩ := Option.ite_none_left_eq_some.mp steps
    refine ⟨congrArg _ before.current, fun upload same => ?_⟩
    cases (show form.uploading = none from between).symm.trans same
  | upload =>
    obtain ⟨-, -, rfl⟩ := startUpload_some steps
    refine ⟨before.current, fun upload same => ?_⟩
    cases same
    exact before.current
  | uploaded url =>
    obtain ⟨upload, uploading, rfl⟩ := Option.map_eq_some_iff.mp steps
    refine ⟨?_, nofun⟩
    rw [finishUpload_images, before.upload upload uploading]
    rfl
  | uploadFails =>
    obtain ⟨upload, -, rfl⟩ := Option.map_eq_some_iff.mp steps
    exact ⟨before.current, nofun⟩

/-- An event in the middle of an upload that neither ends it nor brings another post. -/
def InUpload : Event → Prop
  | .uploaded _ | .uploadFails | .sync _ => False
  | _ => True

/-- In the middle of an upload no event but its end touches what it will put back. -/
theorem step_keeps_upload {upload : Upload} (uploading : form.uploading = some upload) (in_ : InUpload event)
    (steps : form.step page event = some after) : after.uploading = some upload := by
  cases event with
  | setTitle value | setContent value =>
    cases steps
    exact uploading
  | setCategory value | setPinned value | setPublished value | setMain url | remove url | submit =>
    obtain ⟨-, ⟨⟩⟩ := Option.ite_none_left_eq_some.mp steps
    exact uploading
  | settled =>
    obtain ⟨-, ⟨⟩⟩ := Option.ite_none_right_eq_some.mp steps
    exact uploading
  | upload =>
    obtain ⟨idle, -⟩ := startUpload_some steps
    cases idle.symm.trans uploading
  | uploaded url | uploadFails | sync post => exact in_.elim

theorem run_keeps_upload {upload : Upload} (uploading : form.uploading = some upload)
    (during : ∀ event ∈ events, InUpload event) (runs : form.run page events = some after) :
    after.uploading = some upload := by
  have inside : Throughout (PostForm.step page) (fun _ event => InUpload event) form events :=
    .of_forall fun _ event member => during event member
  exact inside.keeps (I := fun form => form.uploading = some upload) step_keeps_upload uploading runs

/-- What was meant during an upload: the images it began with, less the ones removed. -/
theorem intended_during (during : ∀ event ∈ events, InUpload event) :
    events.foldl intended images = images.filter fun image => Event.remove image ∉ events := by
  induction events generalizing images with
  | nil => simp
  | cons event rest ih =>
    have later := @ih (intended images event) fun event member => during event (List.mem_cons_of_mem _ member)
    rw [List.foldl_cons, later]
    cases event with
    | remove url =>
      simp only [intended, List.filter_filter]
      apply List.filter_congr
      intro image _
      by_cases same : image = url <;> simp [same]
    | uploaded url | uploadFails | sync post => exact (during _ List.mem_cons_self).elim
    | _ => simp [intended]

/-- As long as images are removed and posts fetched again only between uploads, the form has the images
that were meant. An upload that ends leaves the images it began with and the new one, whatever has been
removed since. As long as no post is fetched again during it, the images are then those that were meant if
and only if none of them has been removed. -/
theorem images_follow (idle : form.uploading = none) :
    (∀ events after, Throughout (PostForm.step page) BetweenUploads form events →
      form.run page events = some after → after.data.images = events.foldl intended form.data.images) ∧
    ∀ during url after, (∀ event ∈ during, InUpload event) →
      form.run page (.upload :: (during ++ [.uploaded url])) = some after →
      after.data.images = form.data.images ++ [url] ∧
        (after.data.images = (during ++ [.uploaded url]).foldl intended form.data.images ↔
          ∀ image, Event.remove image ∈ during → image ∉ form.data.images) := by
  constructor
  · intro events after between runs
    have start : Follows form form.data.images := ⟨rfl, fun upload same => by rw [idle] at same; cases same⟩
    exact (between.simulates step_follows start runs).current
  · intro during url after quiet runs
    obtain ⟨started, starts, runs⟩ := runSteps_cons.mp runs
    rw [runSteps_append] at runs
    obtain ⟨reached, runs, ends⟩ := Option.bind_eq_some_iff.mp runs
    obtain ⟨done, ends, ⟨⟩⟩ := runSteps_cons.mp ends
    obtain ⟨-, -, rfl⟩ := startUpload_some starts
    have uploading := run_keeps_upload rfl quiet runs
    obtain ⟨upload, same, rfl⟩ := Option.map_eq_some_iff.mp ends
    cases uploading.symm.trans same
    have left := finishUpload_images reached
      { coverImage := form.data.coverImage, images := form.data.images } url
    refine ⟨left, ?_⟩
    rw [left, List.foldl_append, intended_during quiet]
    simp only [List.foldl_cons, List.foldl_nil, intended, List.append_cancel_right_eq]
    rw [eq_comm, List.filter_eq_self]
    constructor
    · intro kept image removed member
      exact of_decide_eq_true (kept image member) removed
    · intro kept image member
      exact decide_eq_true fun removed => kept image removed member

/-- The form of a post with one image. -/
def onePicture : PostForm where
  initialData := none
  data := { coverImage := some "a", images := ["a"] }

/-- An image is removed while the next one is uploaded, and is there again. -/
theorem images_follow_removal :
    ∃ after, onePicture.run .new (.upload :: ([.remove "a"] ++ [.uploaded "b"])) = some after ∧
      after.data.images = ["a", "b"] ∧ after.data.images ≠ [Event.remove "a", .uploaded "b"].foldl
        intended ["a"] := by
  have follows := (@images_follow .new onePicture rfl).2 [.remove "a"] "b" _ (by simp [InUpload]) rfl
  refine ⟨_, rfl, follows.1, fun same => ?_⟩
  exact follows.2.mp same "a" (by simp) (by simp [onePicture])

end SogeconApp.Guarantees.PostEditor
