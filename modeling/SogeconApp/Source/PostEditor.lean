import SogeconApp.Library.Steps
import SogeconApp.Source.OwnerPosts

/-!
# The post editor

Source: the web's `components/post-form.tsx`, `components/multi-image-upload.tsx`, `lib/post-edit.ts`,
`lib/community.ts` (isBoardCategory) and the pages `app/admin/posts/new`, `app/admin/posts/[id]/edit`
and `app/board/[id]/edit`; of the API `media_utils.py` (build_media_urls), and in `schemas.py` and
`post_owner_schemas.py` the validators of PostRead, PostUpdate and PostOwnerUpdate.

A form is rendered again after each event, so that a handler sees the fields as they are; what an upload
sees when it ends are the fields of the render in which it began. A file is chosen with the page as it
was when the picker was opened, and one that is refused changes no field. Left out are the messages,
and the gates of the two routes, which the board's own model has.
-/

namespace SogeconApp.Source.PostEditor

open Library
open Posts (Instant isBoard)
open PostWrites (PostCategory PostUpdate PostOwnerUpdate)
open PartialUpdates (Post)
open OwnerPosts (Media Failure State validated normalizeCoverImage normalizeImages)

/-! ## schemas.py -/

/-- The fields of `PostRead` that the form reads. -/
structure PostRead where
  title : String
  content : String
  category : Option String
  pinned : Bool
  publishedAt : Option Instant
  coverImage : Option String
  images : Option (List String)
  deriving DecidableEq, Repr

/-- The empty entries are left out. -/
def buildMediaUrls (rules : NetlocRules) (mediaUrlBase : MediaPaths.Text) :
    Option (List MediaPaths.Text) → Except UrlError (Option (List MediaPaths.Text))
  | none => pure none
  | some values => do
    let urls ← values.mapM fun value => MediaPaths.buildMediaUrl rules mediaUrlBase (some value)
    pure (some (urls.filterMap id))

/-- `PostRead.model_validate` of a row. -/
def readPost (media : Media) (row : Post) : Except UrlError PostRead := do
  let coverImage ← MediaPaths.buildMediaUrl media.rules media.mediaUrlBase
    (row.coverImage.map (·.val.toList))
  let images ← buildMediaUrls media.rules media.mediaUrlBase
    (row.images.map (·.val.map String.toList))
  pure
    { title := row.title.val
      content := row.content.val
      category := row.category.map (·.val)
      pinned := row.pinned
      publishedAt := row.publishedAt.map (·.val)
      coverImage := coverImage.map String.ofList
      images := images.map (·.map String.ofList) }

/-- The validators of `PostUpdate`. -/
def acceptUpdate (media : Media) (payload : PostUpdate) : Except Failure PostUpdate := do
  let coverImage ← validated (normalizeCoverImage media) payload.coverImage
  let images ← validated (normalizeImages media) payload.images
  pure { payload with coverImage, images }

/-- The validators of `PostOwnerUpdate`. -/
def acceptOwnerUpdate (media : Media) (payload : PostOwnerUpdate) : Except Failure PostOwnerUpdate := do
  let coverImage ← validated (normalizeCoverImage media) payload.coverImage
  let images ← validated (normalizeImages media) payload.images
  pure { payload with coverImage, images }

/-! ## The fields -/

inductive CategoryType where
  | notice | news
  deriving DecidableEq, Repr

def CategoryType.toCategory : CategoryType → PostCategory
  | .notice => .notice
  | .news => .news

structure PostFormData where
  title : String := ""
  content : String := ""
  category : CategoryType := .notice
  pinned : Bool := false
  coverImage : Option String := none
  images : List String := []
  published : Bool := true
  deriving DecidableEq, Repr

def getInitialValues : Option PostRead → PostFormData
  | none => {}
  | some initialData =>
    { title := initialData.title
      content := initialData.content
      category := if initialData.category = some "news" then .news else .notice
      pinned := initialData.pinned
      coverImage := initialData.coverImage
      images := initialData.images.getD []
      published := initialData.publishedAt ≠ none }

/-! ## lib/post-edit.ts -/

def buildNonBoardAdminFields (now : Instant) (data : PostFormData) (post : PostRead)
    (payload : PostUpdate) : PostUpdate :=
  let payload := { payload with pinned := some (some data.pinned) }
  let payload :=
    if post.category ≠ some "hero" then { payload with category := some data.category.toCategory }
    else payload
  if post.publishedAt ≠ none ∧ data.published = false then { payload with unpublish := true }
  else if post.publishedAt = none ∧ data.published = true then
    { payload with publishedAt := some (some now) }
  else payload

def buildAdminPostFields (now : Instant) (data : PostFormData) (post : PostRead)
    (payload : PostUpdate) : PostUpdate :=
  if isBoard post.category then { payload with pinned := some (some data.pinned) }
  else buildNonBoardAdminFields now data post payload

/-- The payload of an administrator; `now` is the clock of the browser. -/
def buildPostUpdatePayload (now : Instant) (data : PostFormData) (post : PostRead) : PostUpdate :=
  buildAdminPostFields now data post
    { title := some (some data.title)
      content := some (some data.content)
      coverImage := some data.coverImage
      images := some (some data.images) }

def buildBoardPostOwnerUpdatePayload (data : PostFormData) : PostOwnerUpdate where
  title := some data.title
  content := some data.content
  coverImage := some data.coverImage
  images := some (some data.images)

/-! ## The requests -/

/-- `PATCH /posts/{id}`. -/
def updatePost (media : Media) (posts : Int → Option Post) (postId : Int) (payload : PostUpdate) :
    Except Failure Post × (Int → Option Post) :=
  match acceptUpdate media payload with
  | .error reason => (.error reason, posts)
  | .ok accepted =>
    let outcome := PartialUpdates.updateAdminPost posts postId accepted
    (outcome.reply.mapError .raised, outcome.table)

/-- `PATCH /board/posts/{id}`. -/
def updateBoardPost (media : Media) (state : State) (postId : Int) (payload : PostOwnerUpdate)
    (memberId : Int) : Except Failure Unit × State :=
  match acceptOwnerUpdate media payload with
  | .error reason => (.error reason, state)
  | .ok accepted => OwnerPosts.updateMemberPost media state postId accepted memberId

/-! ## The pages -/

inductive Page where
  | new
  | admin
  | board (canManagePosts : Bool)
  deriving DecidableEq, Repr

def Page.hideAdminOptions : Page → Bool
  | .new | .admin => false
  | .board canManagePosts => !canManagePosts

def Page.hideCategory (page : Page) (category : Option String) : Bool :=
  match page with
  | .new => false
  | .admin => isBoard category || category = some "hero"
  | .board _ => isBoard category

def Page.hidePublication (page : Page) (category : Option String) : Bool :=
  match page with
  | .new => false
  | .admin | .board _ => isBoard category

/-! ## components/multi-image-upload.tsx -/

def maxImages : Nat := 10

/-- A text that is there and not empty. -/
def truthy (text : Option String) : Bool := text.any fun text => text ≠ ""

def allImages (coverImage : Option String) (images : List String) : List String :=
  match coverImage.filter fun cover => cover ≠ "" with
  | some cover => cover :: images.filter fun image => image ≠ cover
  | none => images

/-- What `handleUpload` closes over. -/
structure Upload where
  coverImage : Option String
  images : List String
  deriving DecidableEq, Repr

structure PostForm where
  initialData : Option PostRead
  data : PostFormData
  uploading : Option Upload := none
  isPending : Bool := false
  deriving DecidableEq, Repr

inductive Event where
  | setTitle (value : String)
  | setContent (value : String)
  | setCategory (value : CategoryType)
  | setPinned (value : Bool)
  | setPublished (value : Bool)
  /-- The post has been fetched again and is not as it was. -/
  | sync (post : PostRead)
  | upload
  | uploaded (url : String)
  | uploadFails
  | setMain (url : String)
  | remove (url : String)
  | submit
  | settled
  deriving DecidableEq, Repr

namespace PostForm

def category (form : PostForm) : Option String := form.initialData.bind (·.category)

def shown (form : PostForm) : List String := allImages form.data.coverImage form.data.images

def edit (form : PostForm) (change : PostFormData → PostFormData) : PostForm :=
  { form with data := change form.data }

/-- `handleUpload`, up to the request. -/
def startUpload (form : PostForm) : Option PostForm :=
  if form.isPending ∨ form.uploading ≠ none ∨ maxImages ≤ form.shown.length then none
  else some { form with uploading := some { coverImage := form.data.coverImage, images := form.data.images } }

/-- `handleUpload`, from the response on. -/
def finishUpload (form : PostForm) (upload : Upload) (newUrl : String) : PostForm :=
  { form with
    uploading := none
    data :=
      if truthy upload.coverImage = false ∧ upload.images = [] then
        { form.data with coverImage := some newUrl, images := [newUrl] }
      else { form.data with images := upload.images ++ [newUrl] } }

/-- `handleRemove`. -/
def removeImage (url : String) (data : PostFormData) : PostFormData :=
  let newImages := data.images.filter fun image => image ≠ url
  { data with
    images := newImages
    coverImage := if data.coverImage = some url then newImages.head? else data.coverImage }

/-- `none` where the page has no such control, or it is disabled. -/
def step (page : Page) (form : PostForm) : Event → Option PostForm
  | .setTitle value => some (form.edit fun data => { data with title := value })
  | .setContent value => some (form.edit fun data => { data with content := value })
  | .setCategory value =>
    if page.hideAdminOptions || page.hideCategory form.category then none
    else some (form.edit fun data => { data with category := value })
  | .setPinned value =>
    if page.hideAdminOptions then none
    else some (form.edit fun data => { data with pinned := value })
  | .setPublished value =>
    if page.hideAdminOptions || page.hidePublication form.category then none
    else some (form.edit fun data => { data with published := value })
  | .sync post =>
    if page = .new then none
    else some { form with initialData := some post, data := getInitialValues (some post) }
  | .upload => form.startUpload
  | .uploaded url => form.uploading.map fun upload => form.finishUpload upload url
  | .uploadFails => form.uploading.map fun _ => { form with uploading := none }
  | .setMain url =>
    if form.isPending ∨ url ∉ form.shown ∨ form.data.coverImage = some url then none
    else some (form.edit fun data => { data with coverImage := some url })
  | .remove url =>
    if form.isPending ∨ url ∉ form.shown then none else some (form.edit (removeImage url))
  | .submit =>
    if form.isPending ∨ form.data.title = "" ∨ form.data.content = "" then none
    else some { form with isPending := true }
  | .settled => if form.isPending then some { form with isPending := false } else none

def run (page : Page) (form : PostForm) (events : List Event) : Option PostForm :=
  runSteps (step page) form events

end PostForm

/-- The form as it is first rendered. -/
def opened (initialData : Option PostRead) : PostForm where
  initialData := initialData
  data := getInitialValues initialData

end SogeconApp.Source.PostEditor
