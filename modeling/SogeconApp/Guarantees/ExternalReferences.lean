import SogeconApp.Guarantees.MediaRetraction

/-!
# References to other places

Under an absolute base a value that names another network location is stored and built as it is, if it is
an absolute URL, with a scheme and a network location. A value with one of the two alone is taken for a
path, and loses it.
-/

namespace SogeconApp.Guarantees.ExternalReferences

open Library Source.MediaPaths MediaRetraction

/-- Another network location than the base's, or a scheme without one. -/
def External (baseParts parts : SplitResult) : Prop :=
  (parts.netloc ≠ [] ∧ parts.netloc ≠ baseParts.netloc) ∨ (parts.scheme ≠ [] ∧ parts.netloc = [])

instance (baseParts parts : SplitResult) : Decidable (External baseParts parts) :=
  inferInstanceAs (Decidable (_ ∨ _))

/-- The trimmed value is stored, and built from what is stored. -/
def PassesThrough (rules : NetlocRules) (mediaUrlBase text : Text) : Prop :=
  normalizeMediaPath rules mediaUrlBase (some text) = .ok (some (strip text)) ∧
    buildMediaUrl rules mediaUrlBase (some (strip text)) = .ok (some (strip text))

instance (rules : NetlocRules) (mediaUrlBase text : Text) : Decidable (PassesThrough rules mediaUrlBase text) :=
  inferInstanceAs (Decidable (_ ∧ _))

variable {rules : NetlocRules} {mediaUrlBase basePath text : Text} {baseParts parts : SplitResult}

theorem filled_of_external (split : urlsplit rules (strip text) = .ok parts)
    (external : External baseParts parts) :
    strip text ≠ [] := by
  intro empty
  have nothing : urlsplit rules [] = .ok ⟨[], [], [], [], []⟩ := by
    simp [urlsplit, cleanUrl, splitClean, splitScheme, splitNetloc, splitPath, cut, acceptsNetloc_nil]
  rw [empty, nothing] at split
  cases split
  simp [External] at external

theorem foreign_of_external (absolute : baseParts.scheme ≠ [] ∧ baseParts.netloc ≠ [])
    (external : External baseParts parts) (whole : parts.scheme ≠ [] ∧ parts.netloc ≠ []) :
    Foreign baseParts basePath parts := by
  refine ⟨whole.1, whole.2, fun ofBase => ?_⟩
  have place := ofBase.1
  rw [if_pos absolute] at place
  rcases external with ⟨-, apart⟩ | ⟨-, none_⟩
  · exact apart place.2
  · exact whole.2 none_

/-- A path is never as long as a value that has a scheme or a network location. -/
theorem whole_of_normalize (base : getMediaBaseParts rules mediaUrlBase = .ok (baseParts, basePath))
    (split : urlsplit rules (strip text) = .ok parts) (external : External baseParts parts)
    (stored : normalizeMediaPath rules mediaUrlBase (some text) = .ok (some (strip text))) :
    parts.scheme ≠ [] ∧ parts.netloc ≠ [] := by
  by_contra apart
  have own : ¬Foreign baseParts basePath parts := fun foreign => apart ⟨foreign.1, foreign.2.1⟩
  rw [normalize_written base (filled_of_external split external) split own] at stored
  have same : appendQueryFragment (normalizeRelativePath parts.path basePath) parts.query parts.fragment =
      strip text := by
    simp only [orNone, Except.ok.injEq] at stored
    split at stored
    · cases stored
    · simpa using stored
  have split' : urlsplit rules (strip (strip text)) = .ok parts := by rwa [strip_strip]
  obtain ⟨-, -, ⟨scheme, netloc⟩, -⟩ := readsBack_of_written split' same
  rcases external with ⟨named, -⟩ | ⟨schemed, -⟩
  · exact named netloc
  · exact schemed scheme

/-- An external reference is stored trimmed and served as it is stored if and only if it is an absolute
URL. One that lacks the scheme or the network location is taken for a path. -/
theorem external_passes_iff (base : getMediaBaseParts rules mediaUrlBase = .ok (baseParts, basePath))
    (absolute : baseParts.scheme ≠ [] ∧ baseParts.netloc ≠ []) (split : urlsplit rules (strip text) = .ok parts)
    (external : External baseParts parts) :
    PassesThrough rules mediaUrlBase text ↔ parts.scheme ≠ [] ∧ parts.netloc ≠ [] := by
  have filled := filled_of_external split external
  constructor
  · rintro ⟨stored, -⟩
    exact whole_of_normalize base split external stored
  · intro whole
    exact ⟨normalize_foreign base filled split (foreign_of_external absolute external whole),
      buildMediaUrl_absolute (strip_strip text) filled split whole⟩

def cdn : Text := "https://cdn.example.com/media".toList

def cdnParts : SplitResult := ⟨"https".toList, "cdn.example.com".toList, "/media".toList, [], []⟩

def elsewhere : Text := " http://Other.example.com/media/a.jpg?x=1\n".toList

theorem external_passes_elsewhere : PassesThrough plainUrls cdn elsewhere := by
  have base : getMediaBaseParts plainUrls cdn = .ok (cdnParts, "/media".toList) := by decide +kernel
  have split : urlsplit plainUrls (strip elsewhere) =
      .ok ⟨"http".toList, "Other.example.com".toList, "/media/a.jpg".toList, "x=1".toList, []⟩ := by
        decide +kernel
  exact (external_passes_iff base (by decide) split (by decide)).mpr (by decide)

/-- The host of a reference without a scheme is lost, and so is the scheme of an inline image. -/
theorem references_lose_their_place :
    (∃ parts, urlsplit plainUrls "//other.example.com/a.jpg".toList = .ok parts ∧ External cdnParts parts ∧
        normalizeMediaPath plainUrls cdn (some "//other.example.com/a.jpg".toList) = .ok (some "a.jpg".toList) ∧
          ¬PassesThrough plainUrls cdn "//other.example.com/a.jpg".toList) ∧
      ∃ parts, urlsplit plainUrls "data:image/png;base64,iVBO".toList = .ok parts ∧ External cdnParts parts ∧
        normalizeMediaPath plainUrls cdn (some "data:image/png;base64,iVBO".toList) =
            .ok (some "image/png;base64,iVBO".toList) ∧
          ¬PassesThrough plainUrls cdn "data:image/png;base64,iVBO".toList :=
  ⟨⟨⟨[], "other.example.com".toList, "/a.jpg".toList, [], []⟩, by decide +kernel⟩,
    ⟨"data".toList, [], "image/png;base64,iVBO".toList, [], []⟩, by decide +kernel⟩

end SogeconApp.Guarantees.ExternalReferences
