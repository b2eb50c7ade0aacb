import SogeconApp.Library.Binary64
import SogeconApp.Source.Avatars

/-!
# Image uploads

Source: `apps/api/routers/uploads.py` (_resize_image_if_needed, upload_image) and `apps/api/config.py`
(Settings._validate_image_limits).

Pillow is a parameter, and so is `str.lower`. The quotients of the sides are exact; an image and the maximum
are positive, so nothing is divided by zero. The clock and the random token belong to the request. A file
of the store is named by its path under `media_root`, whose directory for images is there.
-/

namespace SogeconApp.Source.ImageUploads

open Library.Binary64 (roundHalfEven nearest)
open Avatars (Bytes pathSuffix)

/-! ## config.py -/

structure Settings where
  appEnv : String := "dev"
  mediaUrlBase : String := "/media"
  imageMaxUploadBytes : Int := 5000000
  imageMaxPixels : Int := 1920
  deriving DecidableEq, Repr

def imageMaxUploadBytesCap : Int := 50000000

def imageMaxPixelsCap : Int := 10000

def exceedsCap (name : String) (cap : Int) (appEnv : String) : String :=
  name ++ " exceeds cap (" ++ toString cap ++ ") when APP_ENV=" ++ appEnv

/-- What the ValueError of `_validate_image_limits` says, if it raises one. -/
def validateImageLimits (settings : Settings) : Option String :=
  if settings.imageMaxUploadBytes ≤ 0 ∨ settings.imageMaxPixels ≤ 0 then
    some "IMAGE_MAX_UPLOAD_BYTES and IMAGE_MAX_PIXELS must be positive"
  else if settings.appEnv ∈ ["staging", "prod"] then
    if imageMaxUploadBytesCap < settings.imageMaxUploadBytes then
      some (exceedsCap "IMAGE_MAX_UPLOAD_BYTES" imageMaxUploadBytesCap settings.appEnv)
    else if imageMaxPixelsCap < settings.imageMaxPixels then
      some (exceedsCap "IMAGE_MAX_PIXELS" imageMaxPixelsCap settings.appEnv)
    else none
  else none

/-- The settings with which the service starts. -/
abbrev ValidSettings := { settings : Settings // validateImageLimits settings = none }

/-! ## Pillow -/

structure Size where
  width : Int
  height : Int
  deriving DecidableEq, Repr

inductive PillowError where
  | unidentifiedImage | decompressionBomb | osError | syntaxError | valueError
  /-- Any other exception, such as a MemoryError. -/
  | other
  deriving DecidableEq, Repr

/-- The keyword arguments of `save`. -/
structure SaveOptions where
  format : Option String := none
  quality : Option Nat := none
  optimize : Bool := true
  deriving DecidableEq, Repr

structure Pillow where
  Image : Type
  /-- `Image.open` and `load`. -/
  load : Bytes → Except PillowError Image
  size : Image → Size
  mode : Image → String
  /-- With the LANCZOS filter. -/
  resize : Image → Size → Except PillowError Image
  convert : Image → String → Image
  /-- The file that is left at the path, also by a `save` that raises. -/
  save : Image → String → SaveOptions → Except PillowError Unit × Option Bytes

/-! ## _resize_image_if_needed -/

/-- `int` of a number. -/
def truncated (value : ℚ) : Int := if value < 0 then ⌈value⌉ else ⌊value⌋

/-- The side when the other one is brought to the maximum. -/
def scaled (side other maxPixels : Int) : Int := truncated (side * (maxPixels / other))

/-- `new_size`, unless the image is kept as it is. -/
def newSize (size : Size) (maxPixels : Int) : Option Size :=
  if size.width ≤ maxPixels ∧ size.height ≤ maxPixels then none
  else if size.height < size.width then
    some { width := maxPixels, height := scaled size.height size.width maxPixels }
  else some { width := scaled size.width size.height maxPixels, height := maxPixels }

def resizeImageIfNeeded (pillow : Pillow) (img : pillow.Image) (maxPixels : Int) :
    Except PillowError pillow.Image :=
  match newSize (pillow.size img) maxPixels with
  | none => .ok img
  | some size => pillow.resize img size

/-! ## upload_image -/

inductive Failure where
  | api (code detail : String) (status : Nat)
  /-- An exception that the route does not handle. -/
  | unhandled (error : PillowError)
  deriving DecidableEq, Repr

structure UploadFile where
  contentType : Option String
  filename : Option String
  bytes : Bytes

structure ImageUploadResponse where
  url : String
  filename : String
  deriving DecidableEq, Repr

def allowedContentTypes : List String := ["image/jpeg", "image/png", "image/webp", "image/gif"]

def allowedExtensions : List String := [".jpg", ".jpeg", ".png", ".webp", ".gif"]

/-- The format `.1f` of a magnitude. -/
def oneDecimal (value : ℚ) : String :=
  let tenths := roundHalfEven (value * 10)
  toString (tenths / 10) ++ "." ++ toString (tenths % 10)

/-- `text or default`. -/
def orDefault (default : String) : Option String → String
  | none => default
  | some text => if text = "" then default else text

/-- The checks before the image is read, and the extension of the new file. -/
def checkFile (lower : String → String) (settings : Settings) (file : UploadFile) : Except Failure String :=
  let contentType := orDefault "" file.contentType
  if contentType ∉ allowedContentTypes then
    .error (.api "invalid_image_type" ("지원하지 않는 이미지 형식입니다. (" ++ contentType ++ ")") 422)
  else
    let ext := lower (pathSuffix (orDefault "image.jpg" file.filename))
    if ext ∉ allowedExtensions then
      .error (.api "invalid_image_extension" ("지원하지 않는 확장자입니다. (" ++ ext ++ ")") 422)
    else if settings.imageMaxUploadBytes < file.bytes.length then
      let maxMb := nearest (settings.imageMaxUploadBytes / 1000000)
      .error (.api "image_too_large" ("이미지 크기가 " ++ oneDecimal maxMb ++ "MB를 초과했습니다.") 422)
    else .ok ext

def loadImage (pillow : Pillow) (bytes : Bytes) : Except Failure pillow.Image :=
  match pillow.load bytes with
  | .ok img => .ok img
  | .error .other => .error (.unhandled .other)
  | .error _ => .error (.api "invalid_image_data" "이미지 파일을 읽을 수 없습니다." 422)

/-- The saving for each format. -/
def saveImage (pillow : Pillow) (img : pillow.Image) (path ext : String) :
    Except PillowError Unit × Option Bytes :=
  if ext = ".gif" then pillow.save img path { format := some "GIF" }
  else if ext ∈ [".png", ".webp"] then pillow.save img path { quality := some 85 }
  else
    let img := if pillow.mode img ∈ ["RGBA", "P"] then pillow.convert img "RGB" else img
    pillow.save img path { format := some "JPEG", quality := some 85 }

abbrev Files := String → Option Bytes

def newFilename (timestamp : Nat) (randomHex ext : String) : String :=
  toString timestamp ++ "_" ++ randomHex ++ ext

def relativePath (newFilename : String) : String := "images/" ++ newFilename

/-- The image that is to be saved, and the extension of its file. -/
def prepareImage (pillow : Pillow) (lower : String → String) (settings : Settings) (file : UploadFile) :
    Except Failure (pillow.Image × String) := do
  let ext ← checkFile lower settings file
  let img ← loadImage pillow file.bytes
  match resizeImageIfNeeded pillow img settings.imageMaxPixels with
  | .ok img => .ok (img, ext)
  | .error error => .error (.unhandled error)

def uploadImage (pillow : Pillow) (lower : String → String) (settings : Settings) (timestamp : Nat)
    (randomHex : String) (file : UploadFile) (files : Files) : Except Failure ImageUploadResponse × Files :=
  match prepareImage pillow lower settings file with
  | .error failure => (.error failure, files)
  | .ok (img, ext) =>
    let filename := newFilename timestamp randomHex ext
    let path := relativePath filename
    let (saved, left) := saveImage pillow img path ext
    let files := Function.update files path left
    match saved with
    | .error error => (.error (.unhandled error), files)
    | .ok () => (.ok { url := settings.mediaUrlBase ++ "/" ++ path, filename }, files)

end SogeconApp.Source.ImageUploads
