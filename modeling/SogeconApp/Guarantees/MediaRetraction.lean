import SogeconApp.Library.Trim
import SogeconApp.Source.MediaPaths

/-!
# What a stored media path is read as

A value is stored as what follows the base and its slashes, and is built to a URL and normalised
again by every reader and by the next update. It comes back as it was stored if it is read as it was
written: without blanks at its ends, and as a path that is not below the base, or as the absolute URL
of another place. A name with a colon in its first segment is read as a scheme, and shortened.
-/

namespace SogeconApp.Guarantees.MediaRetraction

open Library Source.MediaPaths

/-! ## The base -/

/-- A URL or a path, or nothing, without query, fragment, tabs and line breaks. -/
structure IsMediaBase (rules : NetlocRules) (mediaUrlBase : Text) : Prop where
  accepted : ∃ parts, urlsplit rules (mediaBase mediaUrlBase) = .ok parts
  question : '?' ∉ mediaBase mediaUrlBase
  hash : '#' ∉ mediaBase mediaUrlBase
  plain : ∀ char ∈ mediaBase mediaUrlBase, isUnsafe char = false

/-- An absolute URL is one of the base: the same place, or any place if the base names none, and a
path below the base's. -/
def OfBase (baseParts : SplitResult) (basePath : Text) (parts : SplitResult) : Prop :=
  (if baseParts.scheme ≠ [] ∧ baseParts.netloc ≠ [] then
    parts.scheme = baseParts.scheme ∧ parts.netloc = baseParts.netloc
  else basePath ≠ []) ∧ pathUnderBase parts.path basePath = true

/-- An absolute URL that is none of the base. -/
def Foreign (baseParts : SplitResult) (basePath : Text) (parts : SplitResult) : Prop :=
  parts.scheme ≠ [] ∧ parts.netloc ≠ [] ∧ ¬OfBase baseParts basePath parts

/-- The name that follows the base, if the path is below it, and the slashes after it. -/
def Follows (basePath path name : Text) : Prop :=
  name.head? ≠ some '/' ∧ ∃ slashes : Text, (∀ char ∈ slashes, char = '/') ∧
    path = (if basePath ≠ [] ∧ pathUnderBase path basePath = true then basePath else []) ++
      slashes ++ name

/-! ## What the condition is -/

/-- What is written is trimmed, and it is read as a foreign URL, or as a path that is not below the
base. -/
def ReadsBack (rules : NetlocRules) (baseParts : SplitResult) (basePath written : Text) : Prop :=
  strip written = written ∧ ∃ parts, urlsplit rules written = .ok parts ∧
    (Foreign baseParts basePath parts ∨
      cleanUrl written = written ∧ parts.scheme = [] ∧
        ¬(basePath ≠ [] ∧ pathUnderBase parts.path basePath = true))

/-- A value that is empty, or a foreign URL, or followed by nothing, or by what reads back. -/
def Stable (rules : NetlocRules) (mediaUrlBase : Text) (value : Option Text) : Prop :=
  ∀ text ∈ value, strip text ≠ [] → ∀ baseParts basePath parts,
    getMediaBaseParts rules mediaUrlBase = .ok (baseParts, basePath) →
    urlsplit rules (strip text) = .ok parts →
      Foreign baseParts basePath parts ∨ ∀ name, Follows basePath parts.path name →
        appendQueryFragment name parts.query parts.fragment = [] ∨
          ReadsBack rules baseParts basePath (appendQueryFragment name parts.query parts.fragment)

/-! ## Texts -/

section Texts

variable {text path basePath name query fragment : Text}

theorem strip_sublist (text : Text) : (strip text).Sublist text := trim_sublist text

/-- Trimmed is what has no blank at an end. -/
theorem strip_eq_self_iff :
    strip text = text ↔ (∀ char, text.head? = some char → isSpace char = false) ∧
      ∀ char, text.getLast? = some char → isSpace char = false := trim_eq_self_iff

theorem strip_strip (text : Text) : strip (strip text) = strip text := trim_trim isSpace text

/-! ## The name that follows the base -/

/-- What the path of a value begins with, if it is below the base. -/
def front (basePath path : Text) : Text :=
  if basePath ≠ [] ∧ pathUnderBase path basePath = true then basePath else []

/-- A path is below a base that it equals, or that a slash separates from the rest. -/
theorem pathUnderBase_prefix (below : pathUnderBase path basePath = true) :
    basePath = [] ∨ path = basePath ∨ ∃ rest, path = basePath ++ '/' :: rest := by
  simp only [pathUnderBase, decide_eq_true_eq, List.isPrefixOf_iff_prefix] at below
  rcases below with empty | same | ⟨rest, whole⟩
  · exact .inl empty
  · exact .inr (.inl same)
  · refine .inr (.inr ⟨rest, ?_⟩)
    rw [← whole, List.append_assoc, List.singleton_append]

theorem pathUnderBase_below (basePath rest : Text) :
    pathUnderBase (basePath ++ '/' :: rest) basePath = true := by
  simp only [pathUnderBase, decide_eq_true_eq, List.isPrefixOf_iff_prefix]
  exact .inr (.inr ⟨rest, by rw [List.append_assoc, List.singleton_append]⟩)

theorem dropWhile_slashes {slashes : Text} (all : ∀ char ∈ slashes, char = '/') (rest : Text) :
    (slashes ++ rest).dropWhile isSlash = rest.dropWhile isSlash :=
  List.dropWhile_append_of_pos fun char member => by rw [all char member]; rfl

/-- The base and a slash go, and the other slashes with them. -/
theorem normalizeRelativePath_eq (path basePath : Text) :
    ∃ rest, path = front basePath path ++ rest ∧
      normalizeRelativePath path basePath = stripLeadingSlashes rest := by
  unfold normalizeRelativePath front
  split
  · next below =>
    obtain ⟨some_, below⟩ := below
    rcases pathUnderBase_prefix below with empty | rfl | ⟨rest, rfl⟩
    · exact absurd empty some_
    · exact ⟨[], by simp, by simp [stripBasePath, some_]⟩
    · refine ⟨'/' :: rest, rfl, ?_⟩
      have longer : basePath ++ '/' :: rest ≠ basePath := by simp
      simp only [stripBasePath, if_neg some_, if_neg longer, List.drop_left]
      rfl
  · exact ⟨path, rfl, rfl⟩

/-- The name that follows the base is the one that the code computes. -/
theorem follows_iff : Follows basePath path name ↔ name = normalizeRelativePath path basePath := by
  obtain ⟨rest, whole, same⟩ := normalizeRelativePath_eq path basePath
  rw [same]
  constructor
  · rintro ⟨relative, slashes, all, parts⟩
    have equal : rest = slashes ++ name := by
      rw [List.append_assoc] at parts
      exact List.append_cancel_left (whole.symm.trans parts)
    rw [equal, stripLeadingSlashes, dropWhile_slashes all, dropWhile_eq_self_iff_head.mpr]
    intro char first
    by_contra slash
    have slash : char = '/' := by simpa [isSlash] using slash
    exact relative (by rw [first, slash])
  · rintro rfl
    refine ⟨fun slash => ?_, rest.takeWhile isSlash, fun char member => ?_, ?_⟩
    · have stops := List.head?_dropWhile_not isSlash rest
      rw [stripLeadingSlashes] at slash
      rw [slash] at stops
      cases stops
    · simpa [isSlash] using List.mem_takeWhile_imp member
    · rw [List.append_assoc, stripLeadingSlashes, List.takeWhile_append_dropWhile]
      exact whole

theorem normalizeRelativePath_sublist (path basePath : Text) :
    (normalizeRelativePath path basePath).Sublist path := by
  obtain ⟨rest, whole, same⟩ := normalizeRelativePath_eq path basePath
  rw [same]
  conv_rhs => rw [whole]
  exact (List.dropWhile_sublist _).trans (List.sublist_append_right _ _)

/-- A name stays that is not below the base. -/
theorem normalizeRelativePath_eq_self_iff (relative : path.head? ≠ some '/') :
    normalizeRelativePath path basePath = path ↔
      ¬(basePath ≠ [] ∧ pathUnderBase path basePath = true) := by
  constructor
  · rintro same ⟨some_, below⟩
    obtain ⟨-, slashes, -, parts⟩ := follows_iff.mpr same.symm
    rw [if_pos ⟨some_, below⟩] at parts
    have longer := congrArg List.length parts
    have positive := List.length_pos_iff.mpr some_
    simp only [List.length_append] at longer
    omega
  · intro apart
    refine (follows_iff.mp ⟨relative, [], nofun, ?_⟩).symm
    rw [if_neg apart]
    rfl

/-! ## The query and the fragment -/

/-- What is appended is split again. -/
theorem splitPath_appendQueryFragment (question : '?' ∉ path) (hash : '#' ∉ path)
    (queryHash : '#' ∉ query) :
    splitPath (appendQueryFragment path query fragment) = (path, query, fragment) := by
  have queried : cut '?' (if query = [] then path else path ++ '?' :: query) = (path, query) := by
    split
    · next empty => rw [cut_of_notMem question, empty]
    · rw [cut_append question, cut_cons, List.append_nil]
  have absent : '#' ∉ (if query = [] then path else path ++ '?' :: query) := by
    split
    · exact hash
    · simp [hash, queryHash]
  simp only [appendQueryFragment, splitPath]
  split
  · next empty => rw [cut_of_notMem absent, queried, empty]
  · rw [cut_append absent, cut_cons, List.append_nil, queried]

/-- The two sides of a cut are no longer than the text, and if there are two, shorter by the separator.
-/
theorem cut_length_le (separator : Char) (text : Text) :
    (cut separator text).1.length ≤ text.length ∧ ((cut separator text).2 ≠ [] →
      (cut separator text).1.length + (cut separator text).2.length + 1 ≤ text.length) := by
  by_cases member : separator ∈ text
  · have whole := congrArg List.length (cut_of_mem member)
    simp only [List.length_append, List.length_cons] at whole
    omega
  · simp [cut_of_notMem member]

/-- Split and appended again, a text gets no longer. -/
theorem appendQueryFragment_splitPath_length_le (url : Text) :
    (appendQueryFragment (splitPath url).1 (splitPath url).2.1 (splitPath url).2.2).length ≤
      url.length := by
  have outer := cut_length_le '#' url
  have inner := cut_length_le '?' (cut '#' url).1
  have queried : (if (cut '?' (cut '#' url).1).2 = [] then (cut '?' (cut '#' url).1).1
      else (cut '?' (cut '#' url).1).1 ++ '?' :: (cut '?' (cut '#' url).1).2).length ≤
        (cut '#' url).1.length := by
    split
    · exact inner.1
    · next some_ =>
      have longer := inner.2 some_
      rw [List.length_append, List.length_cons]
      omega
  show (appendQueryFragment (cut '?' (cut '#' url).1).1 (cut '?' (cut '#' url).1).2
    (cut '#' url).2).length ≤ url.length
  unfold appendQueryFragment
  by_cases empty : (cut '#' url).2 = []
  · rw [if_pos empty]
    exact queried.trans outer.1
  · have longest := outer.2 empty
    rw [if_neg empty, List.length_append, List.length_cons]
    omega

theorem appendQueryFragment_length (path shorter query fragment : Text) :
    (appendQueryFragment shorter query fragment).length + path.length =
      (appendQueryFragment path query fragment).length + shorter.length := by
  unfold appendQueryFragment
  split <;> split <;> simp only [List.length_append, List.length_cons] <;> omega

end Texts

/-! ## What is stored -/

section Stored

variable {rules : NetlocRules} {mediaUrlBase text written basePath : Text}
  {baseParts parts : SplitResult}

/-- An absolute URL of the base is stored as what follows the base. -/
theorem normalizeAbsoluteUrl_of_base (absolute : parts.scheme ≠ [] ∧ parts.netloc ≠ [])
    (ofBase : OfBase baseParts basePath parts) :
    normalizeAbsoluteUrl parts baseParts basePath =
      some (normalizeRelativePath parts.path basePath) := by
  obtain ⟨place, below⟩ := ofBase
  unfold normalizeAbsoluteUrl
  rw [if_neg (not_not.mpr absolute)]
  split at place
  · next named =>
    rw [if_pos named, if_neg (by simp [place]), if_neg (not_not.mpr below)]
  · next unnamed => rw [if_neg unnamed, if_pos ⟨place, below⟩]

/-- An absolute URL that is none of the base has no name below it. -/
theorem normalizeAbsoluteUrl_foreign (foreign : ¬OfBase baseParts basePath parts) :
    normalizeAbsoluteUrl parts baseParts basePath = none := by
  unfold normalizeAbsoluteUrl
  split
  · rfl
  · split
    · next named =>
      split
      · rfl
      · next same =>
        rw [not_or, not_ne_iff, not_ne_iff] at same
        rw [if_pos]
        intro below
        exact foreign ⟨by rw [if_pos named]; exact same, below⟩
    · next unnamed =>
      rw [if_neg]
      rintro ⟨some_, below⟩
      exact foreign ⟨by rw [if_neg unnamed]; exact some_, below⟩

theorem trimValue_some (filled : strip text ≠ []) : trimValue (some text) = some (strip text) := by
  simp [trimValue, filled]

theorem normalize_blank (blank : strip text = []) :
    normalizeMediaPath rules mediaUrlBase (some text) = .ok none := by
  simp only [normalizeMediaPath, trimValue, Option.bind_some, blank, if_true]
  rfl

theorem normalize_foreign (base : getMediaBaseParts rules mediaUrlBase = .ok (baseParts, basePath))
    (filled : strip text ≠ []) (split : urlsplit rules (strip text) = .ok parts)
    (foreign : Foreign baseParts basePath parts) :
    normalizeMediaPath rules mediaUrlBase (some text) = .ok (some (strip text)) := by
  obtain ⟨scheme, netloc, apart⟩ := foreign
  simp only [normalizeMediaPath, trimValue_some filled, base, split, bind, Except.bind,
    if_pos (And.intro scheme netloc), normalizeAbsoluteUrl_foreign apart]
  rfl

/-- Any other value is stored as the name that follows the base, with its query and fragment. -/
theorem normalize_written (base : getMediaBaseParts rules mediaUrlBase = .ok (baseParts, basePath))
    (filled : strip text ≠ []) (split : urlsplit rules (strip text) = .ok parts)
    (own : ¬Foreign baseParts basePath parts) :
    normalizeMediaPath rules mediaUrlBase (some text) = .ok (orNone (appendQueryFragment
      (normalizeRelativePath parts.path basePath) parts.query parts.fragment)) := by
  simp only [normalizeMediaPath, trimValue_some filled, base, split, bind, Except.bind]
  by_cases absolute : parts.scheme ≠ [] ∧ parts.netloc ≠ []
  · have ofBase : OfBase baseParts basePath parts := by
      by_contra apart
      exact own ⟨absolute.1, absolute.2, apart⟩
    rw [if_pos absolute, normalizeAbsoluteUrl_of_base absolute ofBase]
    rfl
  · rw [if_neg absolute]
    rfl

/-! ## What is read -/

/-- The path, the query and the fragment are split from an end of the text, which is the whole of it
only without a scheme and a network location. -/
theorem urlsplit_rest (split : urlsplit rules text = .ok parts) :
    ∃ rest, splitPath rest = (parts.path, parts.query, parts.fragment) ∧
      rest.length ≤ (cleanUrl text).length ∧
      (rest.length = (cleanUrl text).length → parts.scheme = [] ∧ parts.netloc = []) := by
  simp only [urlsplit, splitClean] at split
  split at split
  · cases split
    have shorter := (splitNetloc_suffix (splitScheme (cleanUrl text)).2).length_le
    refine ⟨_, rfl, shorter.trans (splitScheme_suffix _).length_le, fun equal => ?_⟩
    rcases splitScheme_cases (cleanUrl text) with none_ | ⟨front, -, whole, -⟩
    · refine ⟨congrArg Prod.fst none_, splitNetloc_whole ?_⟩
      rw [none_] at equal ⊢
      exact equal
    · have longer := congrArg List.length whole
      simp only [List.length_append, List.length_cons] at longer
      omega
  · cases split

/-- What is stored of a text is no longer than the text, and as long only where it is read as it was
written. -/
theorem readsBack_of_written (split : urlsplit rules (strip text) = .ok parts)
    (same : appendQueryFragment (normalizeRelativePath parts.path basePath) parts.query parts.fragment =
      text) :
    strip text = text ∧ cleanUrl text = text ∧ (parts.scheme = [] ∧ parts.netloc = []) ∧
      normalizeRelativePath parts.path basePath = parts.path := by
  obtain ⟨rest, joined, below, whole⟩ := urlsplit_rest split
  have trims := strip_sublist text
  have cleans : (cleanUrl (strip text)).Sublist (strip text) :=
    (List.filter_sublist (l := _)).trans (List.dropWhile_sublist _)
  have names := normalizeRelativePath_sublist parts.path basePath
  -- Each step from the text to what is stored can only shorten it.
  have first := appendQueryFragment_splitPath_length_le rest
  simp only [joined] at first
  have last := appendQueryFragment_length parts.path (normalizeRelativePath parts.path basePath)
    parts.query parts.fragment
  rw [same] at last
  have lengths := names.length_le
  have lengths' := trims.length_le
  have lengths'' := cleans.length_le
  have trimmed : strip text = text := trims.eq_of_length (by omega)
  have cleaned : cleanUrl (strip text) = strip text := cleans.eq_of_length (by omega)
  exact ⟨trimmed, by rw [trimmed] at cleaned; exact cleaned, whole (by omega),
    names.eq_of_length (by omega)⟩

/-! ## What is built -/

/-- A text that is clean, without a scheme and not from the root, is a path. -/
theorem urlsplit_relative (split : urlsplit rules written = .ok parts)
    (clean : cleanUrl written = written) (scheme : parts.scheme = [])
    (relative : written.head? ≠ some '/') :
    parts = ⟨[], [], (splitPath written).1, (splitPath written).2.1, (splitPath written).2.2⟩ := by
  have plain : splitScheme written = ([], written) := by
    rcases splitScheme_cases written with same | ⟨front, -, -, some_⟩
    · exact same
    · simp only [urlsplit, clean, splitClean] at split
      split at split
      · cases split
        exact absurd scheme some_
      · cases split
  have located : splitNetloc written = ([], written) := by
    unfold splitNetloc
    split
    · exact absurd rfl relative
    · rfl
  simp only [urlsplit, clean, splitClean, plain, located, acceptsNetloc_nil, if_true] at split
  cases split
  rfl

theorem cleanUrl_below {base : Text} (clean : cleanUrl written = written) :
    cleanUrl (base ++ '/' :: written) = cleanUrl base ++ '/' :: written := by
  have safe : ('/' :: written).filter (fun char => !isUnsafe char) = '/' :: written := by
    refine List.filter_eq_self.mpr fun char member => ?_
    rcases List.mem_cons.mp member with rfl | member
    · rfl
    · rw [← clean] at member
      rw [cleanUrl_safe member]
      rfl
  have stays : ('/' :: written).dropWhile isControlOrSpace = '/' :: written :=
    List.dropWhile_cons_of_neg (by decide)
  simp only [cleanUrl, List.dropWhile_append]
  split
  · next empty =>
    rw [List.isEmpty_iff] at empty
    rw [empty, stays, safe]
    rfl
  · rw [List.filter_append, safe]

theorem mediaBase_last (mediaUrlBase : Text) : (mediaBase mediaUrlBase).getLast? ≠ some '/' := by
  intro slash
  have stops := rdropWhile_eq_self_iff_last.mp
    (List.rdropWhile_idempotent (p := isSlash) (strip mediaUrlBase)) '/' slash
  cases stops

theorem mediaBase_head {char : Char} (first : (mediaBase mediaUrlBase).head? = some char) :
    isSpace char = false := by
  obtain ⟨rest, whole⟩ := List.rdropWhile_prefix isSlash (strip mediaUrlBase)
  have begins : (strip mediaUrlBase).head? = some char := by
    rw [← whole, List.head?_append]
    show ((mediaBase mediaUrlBase).head?.or rest.head?) = some char
    rw [first]
    rfl
  exact (strip_eq_self_iff.mp (strip_strip mediaUrlBase)).1 char begins

/-- A path at the base is the base's URL with a longer path. -/
theorem urlsplit_below (base : IsMediaBase rules mediaUrlBase)
    (split : urlsplit rules (mediaBase mediaUrlBase) = .ok baseParts)
    (trimmed : strip written = written) (filled : written ≠ [])
    (clean : cleanUrl written = written) (relative : written.head? ≠ some '/') :
    strip (mediaBase mediaUrlBase ++ '/' :: written) = mediaBase mediaUrlBase ++ '/' :: written ∧
      rstripSlashes baseParts.path = baseParts.path ∧
      urlsplit rules (mediaBase mediaUrlBase ++ '/' :: written) = .ok
        { baseParts with
          path := baseParts.path ++ '/' :: (splitPath written).1
          query := (splitPath written).2.1
          fragment := (splitPath written).2.2 } := by
  have cleaned : (cleanUrl (mediaBase mediaUrlBase)) <:+ mediaBase mediaUrlBase := by
    have safe : cleanUrl (mediaBase mediaUrlBase) =
        (mediaBase mediaUrlBase).dropWhile isControlOrSpace := by
      refine List.filter_eq_self.mpr fun char member => ?_
      rw [base.plain char ((List.dropWhile_sublist _).subset member)]
      rfl
    rw [safe]
    exact List.dropWhile_suffix _
  have last {text : Text} (suffix : text <:+ mediaBase mediaUrlBase) : text.getLast? ≠ some '/' := by
    intro slash
    obtain ⟨front, whole⟩ := suffix
    refine mediaBase_last mediaUrlBase ?_
    rw [← whole, List.getLast?_append, slash]
    rfl
  obtain ⟨-, -, suffix, below⟩ := splitClean_below split
    (fun member => base.question (cleaned.subset member))
    (fun member => base.hash (cleaned.subset member)) (last cleaned) relative
  refine ⟨strip_eq_self_iff.mpr ⟨fun char first => ?_, fun char final => ?_⟩, ?_, ?_⟩
  · cases opens : mediaBase mediaUrlBase with
    | nil =>
      rw [opens] at first
      cases first
      rfl
    | cons head tail =>
      rw [opens] at first
      cases first
      exact mediaBase_head (by rw [opens]; rfl)
  · have ends : written.getLast? = some char := by
      rw [List.append_cons, List.getLast?_append_of_ne_nil _ filled] at final
      exact final
    exact (strip_eq_self_iff.mp trimmed).2 char ends
  · refine rdropWhile_eq_self_iff_last.mpr fun char ends => ?_
    by_contra slash
    have slash : char = '/' := by simpa [isSlash] using slash
    exact last (suffix.trans cleaned) (by rw [ends, slash])
  · rw [urlsplit, cleanUrl_below clean]
    exact below

/-! ## What comes back -/

/-- A text as it is stored: its parts are what it is split into, and it does not start at the root. -/
structure Joined (written name query fragment : Text) : Prop where
  joins : appendQueryFragment name query fragment = written
  splits : splitPath written = (name, query, fragment)
  named : name.head? ≠ some '/'
  relative : written.head? ≠ some '/'

/-- A name with the query and the fragment of a value is a text as it is stored. -/
theorem joined_of_split (split : urlsplit rules text = .ok parts) {name : Text}
    (follows : Follows basePath parts.path name) :
    Joined (appendQueryFragment name parts.query parts.fragment) name parts.query parts.fragment := by
  obtain ⟨rest, joined, -, -⟩ := urlsplit_rest split
  have sub : ∀ char ∈ name, char ∈ parts.path := by
    intro char member
    rw [follows_iff.mp follows] at member
    exact (normalizeRelativePath_sublist _ _).subset member
  have path : parts.path = (splitPath rest).1 := by rw [joined]
  have query : parts.query = (splitPath rest).2.1 := by rw [joined]
  refine ⟨rfl, splitPath_appendQueryFragment (fun member => ?_) (fun member => ?_) ?_, follows.1, ?_⟩
  · exact splitPath_question rest (path ▸ sub _ member)
  · exact splitPath_hash rest (path ▸ sub _ member)
  · rw [query]
    exact splitPath_query_hash rest
  · intro slash
    have relative := follows.1
    unfold appendQueryFragment at slash
    cases name with
    | cons head tail =>
      have opens : head = '/' := by
        split at slash <;> split at slash <;> simpa using slash
      exact relative (by rw [opens]; rfl)
    | nil => split at slash <;> split at slash <;> simp at slash

theorem buildMediaUrl_absolute (trimmed : strip written = written) (filled : written ≠ [])
    (split : urlsplit rules written = .ok parts) (absolute : parts.scheme ≠ [] ∧ parts.netloc ≠ []) :
    buildMediaUrl rules mediaUrlBase (some written) = .ok (some written) := by
  have trims : trimValue (some written) = some written := by
    rw [trimValue_some (by rw [trimmed]; exact filled), trimmed]
  simp only [buildMediaUrl, trims, isAbsolute, split, bind, Except.bind, pure, Except.pure]
  rw [if_pos (by simp [absolute.1, absolute.2])]

theorem buildMediaUrl_relative (trimmed : strip written = written) (filled : written ≠ [])
    (split : urlsplit rules written = .ok parts) (scheme : parts.scheme = [])
    (relative : written.head? ≠ some '/') :
    buildMediaUrl rules mediaUrlBase (some written) =
      .ok (some (mediaBase mediaUrlBase ++ '/' :: written)) := by
  have trims : trimValue (some written) = some written := by
    rw [trimValue_some (by rw [trimmed]; exact filled), trimmed]
  have stays : stripLeadingSlashes written = written := by
    refine dropWhile_eq_self_iff_head.mpr fun char first => ?_
    by_contra slash
    have slash : char = '/' := by simpa [isSlash] using slash
    exact relative (by rw [first, slash])
  simp only [buildMediaUrl, trims, isAbsolute, split, bind, Except.bind, pure, Except.pure, stays]
  rw [if_neg (by simp [scheme])]
  split
  · next empty => rw [empty]; rfl
  · rfl

/-- What reads back is stored again, and stored again from its URL. -/
theorem comes_back (base : IsMediaBase rules mediaUrlBase)
    (split : urlsplit rules (mediaBase mediaUrlBase) = .ok baseParts) {name query fragment : Text}
    (joined : Joined written name query fragment) (filled : written ≠ [])
    (reads : ReadsBack rules baseParts (rstripSlashes baseParts.path) written) :
    normalizeMediaPath rules mediaUrlBase (some written) = .ok (some written) ∧
      (buildMediaUrl rules mediaUrlBase (some written) >>= normalizeMediaPath rules mediaUrlBase) =
        .ok (some written) := by
  have based : getMediaBaseParts rules mediaUrlBase =
      .ok (baseParts, rstripSlashes baseParts.path) := by
    simp only [getMediaBaseParts, split]
    rfl
  obtain ⟨trimmed, parts, read, kind⟩ := reads
  have filled' : strip written ≠ [] := by rwa [trimmed]
  have read' : urlsplit rules (strip written) = .ok parts := by rwa [trimmed]
  rcases kind with foreign | ⟨clean, scheme, apart⟩
  · have again := normalize_foreign based filled' read' foreign
    rw [trimmed] at again
    refine ⟨again, ?_⟩
    rw [buildMediaUrl_absolute trimmed filled read ⟨foreign.1, foreign.2.1⟩]
    exact again
  · have parts_eq := urlsplit_relative read clean scheme joined.relative
    rw [joined.splits] at parts_eq
    have path : parts.path = name := by rw [parts_eq]
    rw [path] at apart
    have kept : normalizeRelativePath name (rstripSlashes baseParts.path) = name :=
      (normalizeRelativePath_eq_self_iff joined.named).mpr apart
    have own : ¬Foreign baseParts (rstripSlashes baseParts.path) parts := fun foreign => foreign.1 scheme
    have stored : orNone written = some written := by rw [orNone, if_neg filled]
    constructor
    · rw [normalize_written based filled' read' own, parts_eq, kept, joined.joins, stored]
    · obtain ⟨trims, whole, below⟩ := urlsplit_below base split trimmed filled clean joined.relative
      rw [buildMediaUrl_relative trimmed filled read scheme joined.relative]
      rw [joined.splits] at below
      have ofBase : pathUnderBase (baseParts.path ++ '/' :: name) (rstripSlashes baseParts.path) =
          true := by
        rw [whole]
        exact pathUnderBase_below _ _
      have follows : Follows (rstripSlashes baseParts.path) (baseParts.path ++ '/' :: name) name := by
        refine ⟨joined.named, ['/'], by simp, ?_⟩
        rw [ofBase, whole]
        split
        · simp
        · next none_ =>
          have empty : baseParts.path = [] := by simpa using none_
          rw [empty]
          rfl
      have mine : ¬Foreign baseParts (rstripSlashes baseParts.path)
          { baseParts with path := baseParts.path ++ '/' :: name, query, fragment } := by
        rintro ⟨scheme, netloc, apart⟩
        exact apart ⟨by rw [if_pos ⟨scheme, netloc⟩]; exact ⟨rfl, rfl⟩, ofBase⟩
      show normalizeMediaPath rules mediaUrlBase (some (mediaBase mediaUrlBase ++ '/' :: written)) = _
      rw [normalize_written based (by rw [trims]; simp) (by rw [trims]; exact below) mine]
      simp only [← follows_iff.mp follows, joined.joins, stored]

/-- What comes back reads back. -/
theorem readsBack_of_normalize
    (base : getMediaBaseParts rules mediaUrlBase = .ok (baseParts, basePath))
    (again : normalizeMediaPath rules mediaUrlBase (some written) = .ok (some written)) :
    ReadsBack rules baseParts basePath written := by
  by_cases blank : strip written = []
  · rw [normalize_blank blank] at again
    cases again
  · cases split : urlsplit rules (strip written) with
    | error reason =>
      simp only [normalizeMediaPath, trimValue_some blank, base, split, bind, Except.bind] at again
      cases again
    | ok parts =>
      by_cases foreign : Foreign baseParts basePath parts
      · rw [normalize_foreign base blank split foreign] at again
        have trimmed : strip written = written := by simpa using again
        rw [trimmed] at split
        exact ⟨trimmed, parts, split, .inl foreign⟩
      · rw [normalize_written base blank split foreign] at again
        have same : appendQueryFragment (normalizeRelativePath parts.path basePath) parts.query
            parts.fragment = written := by
          simp only [orNone, Except.ok.injEq] at again
          split at again
          · cases again
          · simpa using again
        obtain ⟨trimmed, clean, ⟨scheme, -⟩, kept⟩ := readsBack_of_written split same
        rw [trimmed] at split
        refine ⟨trimmed, parts, split, .inr ⟨clean, scheme, ?_⟩⟩
        rintro ⟨some_, below⟩
        obtain ⟨-, slashes, -, whole⟩ := follows_iff.mpr kept.symm
        rw [if_pos ⟨some_, below⟩] at whole
        have longer := congrArg List.length whole
        have positive := List.length_pos_iff.mpr some_
        simp only [List.length_append] at longer
        omega

/-- The condition of a value whose parts are known. -/
theorem stable_iff (filled : strip text ≠ [])
    (based : getMediaBaseParts rules mediaUrlBase = .ok (baseParts, basePath))
    (read : urlsplit rules (strip text) = .ok parts) :
    Stable rules mediaUrlBase (some text) ↔
      Foreign baseParts basePath parts ∨ ∀ name, Follows basePath parts.path name →
        appendQueryFragment name parts.query parts.fragment = [] ∨
          ReadsBack rules baseParts basePath (appendQueryFragment name parts.query parts.fragment) := by
  constructor
  · intro stable
    exact stable text rfl filled baseParts _ parts based read
  · intro known text' same _ baseParts' basePath' parts' based' read'
    cases same
    rw [based] at based'
    rw [read] at read'
    cases based'
    cases read'
    exact known

end Stored

/-- For every base that is a URL or a path without a query or a fragment, and every value that is
split: what is stored is stored again, from itself and from the URL that is built of it, if and only
if the value is empty or a foreign URL, or what follows the base in it reads back. -/
theorem media_path_retraction_iff (rules : NetlocRules) (mediaUrlBase : Text) (value : Option Text)
    (base : IsMediaBase rules mediaUrlBase)
    (accepted : ∀ text ∈ value, ∃ parts, urlsplit rules (strip text) = .ok parts) :
    ∃ path, normalizeMediaPath rules mediaUrlBase value = .ok path ∧
      (normalizeMediaPath rules mediaUrlBase path = .ok path ∧
          (buildMediaUrl rules mediaUrlBase path >>= normalizeMediaPath rules mediaUrlBase) = .ok path ↔
        Stable rules mediaUrlBase value) := by
  obtain ⟨baseParts, split⟩ := base.accepted
  have based : getMediaBaseParts rules mediaUrlBase =
      .ok (baseParts, rstripSlashes baseParts.path) := by
    simp only [getMediaBaseParts, split]
    rfl
  cases value with
  | none => exact ⟨none, rfl, iff_of_true ⟨rfl, rfl⟩ nofun⟩
  | some text =>
    by_cases blank : strip text = []
    · refine ⟨none, normalize_blank blank, iff_of_true ⟨rfl, rfl⟩ fun text' same filled => ?_⟩
      cases same
      exact absurd blank filled
    · obtain ⟨parts, read⟩ := accepted text rfl
      rw [stable_iff blank based read]
      by_cases foreign : Foreign baseParts (rstripSlashes baseParts.path) parts
      · have again : normalizeMediaPath rules mediaUrlBase (some (strip text)) =
            .ok (some (strip text)) := by
          have filled : strip (strip text) ≠ [] := by rwa [strip_strip]
          have read' : urlsplit rules (strip (strip text)) = .ok parts := by rwa [strip_strip]
          have twice := normalize_foreign based filled read' foreign
          rwa [strip_strip] at twice
        refine ⟨_, normalize_foreign based blank read foreign, iff_of_true ⟨again, ?_⟩ (.inl foreign)⟩
        rw [buildMediaUrl_absolute (strip_strip text) blank read ⟨foreign.1, foreign.2.1⟩]
        exact again
      · obtain ⟨name, follows⟩ : ∃ name, Follows (rstripSlashes baseParts.path) parts.path name :=
          ⟨_, follows_iff.mpr rfl⟩
        have joined := joined_of_split read follows
        have only : ∀ name', Follows (rstripSlashes baseParts.path) parts.path name' → name' = name :=
          fun name' follows' => (follows_iff.mp follows').trans (follows_iff.mp follows).symm
        have stored := normalize_written based blank read foreign
        rw [← follows_iff.mp follows] at stored
        refine ⟨_, stored, ?_⟩
        by_cases empty : appendQueryFragment name parts.query parts.fragment = []
        · rw [orNone, if_pos empty]
          refine iff_of_true ⟨rfl, rfl⟩ (.inr fun name' follows' => .inl ?_)
          rw [only name' follows']
          exact empty
        · rw [orNone, if_neg empty]
          constructor
          · rintro ⟨again, -⟩
            refine .inr fun name' follows' => .inr ?_
            rw [only name' follows']
            exact readsBack_of_normalize based again
          · intro stable
            rcases stable.resolve_left foreign name follows with none_ | reads
            · exact absurd none_ empty
            · exact comes_back base split joined empty reads

/-- Network locations without a bracket and within ASCII. -/
def plainUrls : NetlocRules := { checks := fun _ => true, checks_nil := rfl }

theorem media_is_base : IsMediaBase plainUrls "/media".toList where
  accepted := ⟨⟨[], [], "/media".toList, [], []⟩, by decide⟩
  question := by decide
  hash := by decide
  plain := by
    have whole : mediaBase "/media".toList = "/media".toList := by decide
    rw [whole]
    simp [isUnsafe]

set_option maxRecDepth 10000 in
theorem media_path_retraction_iff_image :
    normalizeMediaPath plainUrls "/media".toList (some "/media/images/a.jpg?x=1#top".toList) =
        .ok (some "images/a.jpg?x=1#top".toList) ∧
      Stable plainUrls "/media".toList (some "/media/images/a.jpg?x=1#top".toList) := by
  obtain ⟨path, stored, comes_back⟩ := media_path_retraction_iff plainUrls "/media".toList
    (some "/media/images/a.jpg?x=1#top".toList) media_is_base (by
      intro text same
      cases same
      exact ⟨⟨[], [], "/media/images/a.jpg".toList, "x=1".toList, "top".toList⟩, by decide⟩)
  have known : normalizeMediaPath plainUrls "/media".toList
      (some "/media/images/a.jpg?x=1#top".toList) = .ok (some "images/a.jpg?x=1#top".toList) := by
    decide
  obtain rfl : path = some "images/a.jpg?x=1#top".toList := by
    rw [known] at stored
    exact (Except.ok.inj stored).symm
  exact ⟨known, comes_back.mp ⟨by decide, by decide⟩⟩

set_option maxRecDepth 10000 in
/-- A file name with a colon is stored, and the next update takes its first part for a scheme. -/
theorem colon_name_is_shortened :
    normalizeMediaPath plainUrls "/media".toList (some "/media/photo:1.jpg".toList) =
        .ok (some "photo:1.jpg".toList) ∧
      normalizeMediaPath plainUrls "/media".toList (some "photo:1.jpg".toList) =
        .ok (some "1.jpg".toList) := by
  decide

end SogeconApp.Guarantees.MediaRetraction
