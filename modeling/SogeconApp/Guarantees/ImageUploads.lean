import SogeconApp.Source.ImageUploads

/-!
# The sides of an uploaded image

The longer side is brought to the maximum, and what the other one becomes is cut to an integer. So both sides
stay between one pixel and the maximum if and only if neither side is more than the maximum times the
other; of a thinner image nothing is left, and the route does not handle what Pillow then raises.
-/

namespace SogeconApp.Guarantees.ImageUploads

open Source.ImageUploads
open Source.Avatars (Bytes)

/-- Both sides have a pixel. -/
def Positive (size : Size) : Prop := 1 ≤ size.width ∧ 1 ≤ size.height

/-- The size that the image is brought to, or has already. -/
def targetSize (size : Size) (maxPixels : Int) : Size := (newSize size maxPixels).getD size

/-- Both sides of the target are between one pixel and the maximum, and an image within it is kept. -/
structure InBounds (size : Size) (maxPixels : Int) : Prop where
  positive : Positive (targetSize size maxPixels)
  width : (targetSize size maxPixels).width ≤ maxPixels
  height : (targetSize size maxPixels).height ≤ maxPixels
  kept : size.width ≤ maxPixels → size.height ≤ maxPixels → targetSize size maxPixels = size

/-- Neither side is more than the maximum times the other. -/
def Proportioned (size : Size) (maxPixels : Int) : Prop :=
  size.width ≤ maxPixels * size.height ∧ size.height ≤ maxPixels * size.width

instance (size : Size) (maxPixels : Int) : Decidable (Proportioned size maxPixels) :=
  inferInstanceAs (Decidable (_ ∧ _))

/-! ## One side -/

section Sides

variable {side other maxPixels : Int}

theorem truncated_of_nonneg {value : ℚ} (nonneg : 0 ≤ value) : truncated value = ⌊value⌋ :=
  if_neg (not_lt.mpr nonneg)

/-- The scaled side is the quotient that it was cut from, rounded down. -/
theorem scaled_eq (some_ : 0 ≤ side) (positive : 1 ≤ other) (most : 0 ≤ maxPixels) :
    scaled side other maxPixels = ⌊((side * maxPixels : Int) : ℚ) / other⌋ := by
  have nonneg : (0 : ℚ) ≤ (side * maxPixels : Int) / other := by
    have product : (0 : ℚ) ≤ (side * maxPixels : Int) := by exact_mod_cast Int.mul_nonneg some_ most
    have divisor : (0 : ℚ) ≤ other := by exact_mod_cast Int.le_of_lt positive
    exact div_nonneg product divisor
  have quotient : (side : ℚ) * (maxPixels / other) = (side * maxPixels : Int) / other := by
    rw [Int.cast_mul, mul_div_assoc]
  rw [scaled, quotient, truncated_of_nonneg nonneg]

theorem one_le_scaled_iff (some_ : 0 ≤ side) (positive : 1 ≤ other) (most : 0 ≤ maxPixels) :
    1 ≤ scaled side other maxPixels ↔ other ≤ maxPixels * side := by
  have divisor : (0 : ℚ) < other := by exact_mod_cast positive
  rw [scaled_eq some_ positive most, Int.le_floor, Int.cast_one, one_le_div divisor, Int.cast_le, Int.mul_comm]

/-- The shorter side does not pass the maximum. -/
theorem scaled_le (some_ : 0 ≤ side) (positive : 1 ≤ other) (most : 0 ≤ maxPixels) (shorter : side ≤ other) :
    scaled side other maxPixels ≤ maxPixels := by
  have divisor : (0 : ℚ) < other := by exact_mod_cast positive
  have product : side * maxPixels ≤ maxPixels * other := by
    rw [Int.mul_comm]
    exact Int.mul_le_mul_of_nonneg_left shorter most
  have below : ((side * maxPixels : Int) : ℚ) / other ≤ maxPixels := by
    rw [div_le_iff₀ divisor]
    exact_mod_cast product
  rw [scaled_eq some_ positive most]
  exact Int.cast_le.mp ((Int.floor_le _).trans below)

end Sides

/-! ## Both sides -/

section Sizes

variable {size : Size} {maxPixels : Int}

theorem targetSize_within (width : size.width ≤ maxPixels) (height : size.height ≤ maxPixels) :
    targetSize size maxPixels = size := by
  rw [targetSize, newSize, if_pos ⟨width, height⟩]
  rfl

theorem within_le {side other : Int} (within : side ≤ maxPixels) (most : 0 ≤ maxPixels) (some_ : 1 ≤ other) :
    side ≤ maxPixels * other := by
  calc
    side ≤ maxPixels * 1 := by omega
    _ ≤ maxPixels * other := Int.mul_le_mul_of_nonneg_left some_ most

/-- An image with a pixel on each side that is within the maximum is proportioned. -/
theorem proportioned_within (positive : Positive size) (width : size.width ≤ maxPixels)
    (height : size.height ≤ maxPixels) : Proportioned size maxPixels := by
  obtain ⟨wide, high⟩ := positive
  exact ⟨within_le width (by omega) high, within_le height (by omega) wide⟩

theorem targetSize_wide (large : ¬(size.width ≤ maxPixels ∧ size.height ≤ maxPixels))
    (wide : size.height < size.width) :
    targetSize size maxPixels = { width := maxPixels, height := scaled size.height size.width maxPixels } := by
  rw [targetSize, newSize, if_neg large, if_pos wide]
  rfl

theorem targetSize_high (large : ¬(size.width ≤ maxPixels ∧ size.height ≤ maxPixels))
    (high : ¬size.height < size.width) :
    targetSize size maxPixels = { width := scaled size.width size.height maxPixels, height := maxPixels } := by
  rw [targetSize, newSize, if_neg large, if_neg high]
  rfl

/-- Of two sides the longer one decides. -/
theorem longer_le {shorter longer : Int} (most : 1 ≤ maxPixels) (some_ : 1 ≤ longer) (less : shorter ≤ longer) :
    shorter ≤ maxPixels * longer := by
  calc
    shorter ≤ 1 * longer := by omega
    _ ≤ maxPixels * longer := Int.mul_le_mul_of_nonneg_right most (by omega)

/-- The target has a pixel on each side if and only if the image is proportioned. -/
theorem positive_target_iff (positive : Positive size) (most : 1 ≤ maxPixels) :
    Positive (targetSize size maxPixels) ↔ Proportioned size maxPixels := by
  obtain ⟨width, height⟩ := positive
  by_cases within : size.width ≤ maxPixels ∧ size.height ≤ maxPixels
  · rw [targetSize_within within.1 within.2]
    exact iff_of_true ⟨width, height⟩ (proportioned_within ⟨width, height⟩ within.1 within.2)
  · by_cases wide : size.height < size.width
    · have scales : 1 ≤ scaled size.height size.width maxPixels ↔ size.width ≤ maxPixels * size.height :=
        one_le_scaled_iff (by omega) width (by omega)
      rw [targetSize_wide within wide]
      exact ⟨fun target => ⟨scales.mp target.2, longer_le most width wide.le⟩,
        fun proportioned => ⟨most, scales.mpr proportioned.1⟩⟩
    · have scales : 1 ≤ scaled size.width size.height maxPixels ↔ size.height ≤ maxPixels * size.width :=
        one_le_scaled_iff (by omega) height (by omega)
      rw [targetSize_high within wide]
      exact ⟨fun target => ⟨longer_le most height (not_lt.mp wide), scales.mp target.1⟩,
        fun proportioned => ⟨scales.mpr proportioned.2, most⟩⟩

/-- No side of the target passes the maximum. -/
theorem target_le (positive : Positive size) (most : 1 ≤ maxPixels) :
    (targetSize size maxPixels).width ≤ maxPixels ∧ (targetSize size maxPixels).height ≤ maxPixels := by
  obtain ⟨width, height⟩ := positive
  by_cases within : size.width ≤ maxPixels ∧ size.height ≤ maxPixels
  · rwa [targetSize_within within.1 within.2]
  · by_cases wide : size.height < size.width
    · rw [targetSize_wide within wide]
      exact ⟨Int.le_refl _, scaled_le (by omega) width (by omega) wide.le⟩
    · rw [targetSize_high within wide]
      exact ⟨scaled_le (by omega) height (by omega) (not_lt.mp wide), Int.le_refl _⟩

end Sizes

/-! ## The route -/

/-- What Pillow documents: an image that was opened has pixels, and `resize` takes a positive size only. -/
structure Documented (pillow : Pillow) : Prop where
  opened : ∀ bytes img, pillow.load bytes = .ok img → Positive (pillow.size img)
  resized : ∀ img size, Positive size → ∃ img', pillow.resize img size = .ok img' ∧ pillow.size img' = size
  refused : ∀ img size, ¬Positive size → pillow.resize img size = .error .valueError

theorem maxPixels_positive (settings : ValidSettings) : 1 ≤ settings.val.imageMaxPixels := by
  obtain ⟨settings, valid⟩ := settings
  unfold validateImageLimits at valid
  split at valid
  · cases valid
  · next positive =>
    have pixels := (not_or.mp positive).2
    exact not_le.mp pixels

section Route

variable {pillow : Pillow} {lower : String → String} {settings : ValidSettings} {file : UploadFile}
  {img img' : pillow.Image} {ext : String} {maxPixels : Int} {failure : Failure}

theorem resizeImageIfNeeded_eq (img : pillow.Image) (maxPixels : Int) :
    resizeImageIfNeeded pillow img maxPixels = .ok img ∧
        targetSize (pillow.size img) maxPixels = pillow.size img ∨
      resizeImageIfNeeded pillow img maxPixels = pillow.resize img (targetSize (pillow.size img) maxPixels) := by
  unfold resizeImageIfNeeded targetSize
  cases newSize (pillow.size img) maxPixels with
  | none => exact .inl ⟨rfl, rfl⟩
  | some size => exact .inr rfl

/-- A proportioned image is brought to its target. -/
theorem resizeImageIfNeeded_ok (documented : Documented pillow) (positive : Positive (pillow.size img))
    (most : 1 ≤ maxPixels) (proportioned : Proportioned (pillow.size img) maxPixels) :
    ∃ img', resizeImageIfNeeded pillow img maxPixels = .ok img' ∧
      pillow.size img' = targetSize (pillow.size img) maxPixels := by
  rcases resizeImageIfNeeded_eq img maxPixels with ⟨kept, same⟩ | resized
  · exact ⟨img, kept, same.symm⟩
  · rw [resized]
    exact documented.resized img _ ((positive_target_iff positive most).mpr proportioned)

/-- Of a thinner image nothing is left to resize to. -/
theorem resizeImageIfNeeded_error (documented : Documented pillow) (positive : Positive (pillow.size img))
    (most : 1 ≤ maxPixels) (thin : ¬Proportioned (pillow.size img) maxPixels) :
    resizeImageIfNeeded pillow img maxPixels = .error .valueError := by
  have vanishes := mt (positive_target_iff positive most).mp thin
  rcases resizeImageIfNeeded_eq img maxPixels with ⟨-, same⟩ | resized
  · rw [same] at vanishes
    exact absurd positive vanishes
  · rw [resized]
    exact documented.refused img _ vanishes

/-- What has passed the checks, and been read. -/
theorem prepareImage_loaded (checked : checkFile lower settings.val file = .ok ext)
    (loaded : pillow.load file.bytes = .ok img) :
    prepareImage pillow lower settings.val file =
      match resizeImageIfNeeded pillow img settings.val.imageMaxPixels with
      | .ok img => .ok (img, ext)
      | .error error => .error (.unhandled error) := by
  simp only [prepareImage, checked, loadImage, loaded]
  rfl

theorem prepareImage_ok (prepared : prepareImage pillow lower settings.val file = .ok (img', ext)) :
    checkFile lower settings.val file = .ok ext ∧ ∃ img, pillow.load file.bytes = .ok img ∧
      resizeImageIfNeeded pillow img settings.val.imageMaxPixels = .ok img' := by
  cases checked : checkFile lower settings.val file with
  | error failure => simp [prepareImage, checked, bind, Except.bind] at prepared
  | ok ext' =>
    cases loaded : pillow.load file.bytes with
    | error error => 
      cases error <;> simp [prepareImage, checked, loadImage, loaded, bind, Except.bind] at prepared
    | ok img =>
      rw [prepareImage_loaded checked loaded] at prepared
      split at prepared
      · next resized =>
        cases prepared
        exact ⟨rfl, img, rfl, resized⟩
      · cases prepared

/-- The route does not handle what Pillow raises on a thin image. -/
theorem prepareImage_thin (documented : Documented pillow) (checked : checkFile lower settings.val file = .ok ext)
    (loaded : pillow.load file.bytes = .ok img)
    (thin : ¬Proportioned (pillow.size img) settings.val.imageMaxPixels) :
    prepareImage pillow lower settings.val file = .error (.unhandled .valueError) := by
  have positive := documented.opened _ _ loaded
  rw [prepareImage_loaded checked loaded,
    resizeImageIfNeeded_error documented positive (maxPixels_positive settings) thin]

/-- A prepared image is the target of a proportioned one. -/
theorem prepareImage_target (documented : Documented pillow)
    (prepared : prepareImage pillow lower settings.val file = .ok (img', ext)) :
    ∃ img, pillow.load file.bytes = .ok img ∧ Proportioned (pillow.size img) settings.val.imageMaxPixels ∧
      pillow.size img' = targetSize (pillow.size img) settings.val.imageMaxPixels := by
  obtain ⟨checked, img, loaded, resized⟩ := prepareImage_ok prepared
  have positive := documented.opened _ _ loaded
  have most := maxPixels_positive settings
  by_cases proportioned : Proportioned (pillow.size img) settings.val.imageMaxPixels
  · obtain ⟨target, resized', size⟩ := resizeImageIfNeeded_ok documented positive most proportioned
    rw [resized] at resized'
    cases resized'
    exact ⟨img, loaded, proportioned, size⟩
  · rw [resizeImageIfNeeded_error documented positive most proportioned] at resized
    cases resized

theorem checkFile_ok (checked : checkFile lower settings.val file = .ok ext) :
    ext ∈ allowedExtensions ∧ (file.bytes.length : Int) ≤ settings.val.imageMaxUploadBytes := by
  unfold checkFile at checked
  dsimp only at checked
  split_ifs at checked with typed named large
  cases checked
  exact ⟨named, not_lt.mp large⟩

variable {timestamp : Nat} {randomHex : String} {files after : Files} {response : ImageUploadResponse}

/-- What an upload that succeeds has stored, and where. -/
structure Stored (pillow : Pillow) (settings : Settings) (timestamp : Nat) (randomHex : String)
    (response : ImageUploadResponse) (img : pillow.Image) (ext : String) (files after : Files) : Prop where
  allowed : ext ∈ allowedExtensions
  positive : Positive (pillow.size img)
  width : (pillow.size img).width ≤ settings.imageMaxPixels
  height : (pillow.size img).height ≤ settings.imageMaxPixels
  filename : response.filename = newFilename timestamp randomHex ext
  url : response.url = settings.mediaUrlBase ++ "/" ++ relativePath response.filename
  saved : saveImage pillow img (relativePath response.filename) ext =
    (.ok (), after (relativePath response.filename))
  others : ∀ path, path ≠ relativePath response.filename → after path = files path

/-- An upload that succeeds has saved an image within the maximum under the name that it returns. -/
theorem uploadImage_ok (documented : Documented pillow)
    (done : uploadImage pillow lower settings.val timestamp randomHex file files = (.ok response, after)) :
    ∃ img ext, Stored pillow settings.val timestamp randomHex response img ext files after := by
  unfold uploadImage at done
  split at done
  · cases done
  · next img ext prepared =>
    obtain ⟨checked, -⟩ := prepareImage_ok prepared
    obtain ⟨original, loaded, proportioned, target⟩ := prepareImage_target documented prepared
    have positive := documented.opened _ _ loaded
    have most := maxPixels_positive settings
    obtain ⟨width, height⟩ := target_le positive most
    dsimp only at done
    split at done
    · cases done
    · next saved =>
      cases done
      refine ⟨img, ext, (checkFile_ok checked).1, ?_, ?_, ?_, rfl, rfl, ?_, fun path other => ?_⟩
      · rw [target]
        exact (positive_target_iff positive most).mpr proportioned
      · rwa [target]
      · rwa [target]
      · rw [Function.update_self, ← saved]
      · exact Function.update_of_ne other ..

/-- An upload that fails before the image is saved leaves the files as they are. -/
theorem uploadImage_refused (refused : prepareImage pillow lower settings.val file = .error failure) :
    uploadImage pillow lower settings.val timestamp randomHex file files = (.error failure, files) := by
  rw [uploadImage, refused]

/-- The upload of a thin image ends in an error of the server. -/
theorem uploadImage_thin (documented : Documented pillow) (checked : checkFile lower settings.val file = .ok ext)
    (loaded : pillow.load file.bytes = .ok img)
    (thin : ¬Proportioned (pillow.size img) settings.val.imageMaxPixels) :
    uploadImage pillow lower settings.val timestamp randomHex file files =
      (.error (.unhandled .valueError), files) :=
  uploadImage_refused (prepareImage_thin documented checked loaded thin)

end Route

/-- The target is positive, within the maximum and in proportion, if and only if neither side is more
than the maximum times the other. The shorter side of a thinner image is truncated to no pixel. -/
theorem resize_in_bounds_iff {width height maxPixels : Int} (wide : 1 ≤ width) (high : 1 ≤ height)
    (most : 1 ≤ maxPixels) :
    InBounds { width, height } maxPixels ↔ width ≤ maxPixels * height ∧ height ≤ maxPixels * width := by
  have positive : Positive { width, height } := ⟨wide, high⟩
  constructor
  · intro inside
    exact (positive_target_iff positive most).mp inside.positive
  · intro proportioned
    obtain ⟨widthBound, heightBound⟩ := target_le positive most
    exact
      { positive := (positive_target_iff positive most).mpr proportioned
        width := widthBound
        height := heightBound
        kept := targetSize_within }

theorem resize_in_bounds_photo : InBounds { width := 3000, height := 2000 } 1920 :=
  (resize_in_bounds_iff (by decide) (by decide) (by decide)).mpr (by decide)

/-- Of a line of 4000 pixels no height is left. -/
theorem thin_image_vanishes :
    targetSize { width := 4000, height := 1 } 1920 = { width := 1920, height := 0 } ∧
      ¬InBounds { width := 4000, height := 1 } 1920 := by
  have vanishes : targetSize { width := 4000, height := 1 } 1920 = { width := 1920, height := 0 } := by
    decide +kernel
  refine ⟨vanishes, fun inside => ?_⟩
  have positive := inside.positive.2
  rw [vanishes] at positive
  exact absurd positive (by decide)

end SogeconApp.Guarantees.ImageUploads
