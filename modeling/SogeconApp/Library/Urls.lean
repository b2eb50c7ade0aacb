import Mathlib.Data.List.TakeWhile

/-!
# Splitting a URL

`urllib.parse.urlsplit` of Python 3.12, on the characters of a text. Control characters and blanks at
its start go, and so do tabs and line breaks anywhere; then come a scheme before the first colon, a
network location after two slashes, a fragment and a query. What is asked of a network location
besides its brackets (the host between them, its normal form) is a parameter.

A path below a URL is split as the URL is, with a longer path.
-/

namespace SogeconApp.Library

/-! ## The first separator -/

/-- What comes before the first separator, and what comes after it. -/
def cut (separator : Char) (text : List Char) : List Char × List Char :=
  (text.takeWhile (· ≠ separator), (text.dropWhile (· ≠ separator)).drop 1)

section Cut

variable {separator : Char} {text front rest : List Char}

theorem cut_of_notMem (absent : separator ∉ text) : cut separator text = (text, []) := by
  have all : ∀ char ∈ text, (decide (char ≠ separator)) = true := by
    intro char member
    simp only [ne_eq, decide_not, Bool.not_eq_true', decide_eq_false_iff_not]
    rintro rfl
    exact absent member
  rw [cut, List.takeWhile_eq_self_iff.mpr all, List.dropWhile_eq_nil_iff.mpr all, List.drop_nil]

/-- A separator that is not in the front is looked for behind it. -/
theorem cut_append (absent : separator ∉ front) (rest : List Char) :
    cut separator (front ++ rest) = (front ++ (cut separator rest).1, (cut separator rest).2) := by
  have all : ∀ char ∈ front, (decide (char ≠ separator)) = true := by
    intro char member
    simp only [ne_eq, decide_not, Bool.not_eq_true', decide_eq_false_iff_not]
    rintro rfl
    exact absent member
  rw [cut, List.takeWhile_append_of_pos all, List.dropWhile_append_of_pos all, cut]

@[simp] theorem cut_cons (rest : List Char) : cut separator (separator :: rest) = ([], rest) := by
  simp [cut]

theorem notMem_cut (separator : Char) (text : List Char) : separator ∉ (cut separator text).1 := by
  intro member
  have differs := List.mem_takeWhile_imp member
  simp at differs

theorem cut_fst_subset {char : Char} (member : char ∈ (cut separator text).1) : char ∈ text :=
  (List.takeWhile_sublist _).subset member

theorem cut_snd_subset {char : Char} (member : char ∈ (cut separator text).2) : char ∈ text :=
  (List.dropWhile_sublist _).subset (List.mem_of_mem_drop member)

/-- The text before and after its first separator. -/
theorem cut_of_mem (member : separator ∈ text) :
    text = (cut separator text).1 ++ separator :: (cut separator text).2 := by
  induction text with
  | nil => cases member
  | cons head tail ih =>
    by_cases same : head = separator
    · rw [same, cut_cons]
      rfl
    · have later : separator ∈ tail := (List.mem_cons.mp member).resolve_left fun equal => same equal.symm
      have apart : separator ∉ [head] := by simpa using fun equal => same (Eq.symm equal)
      have first : cut separator (head :: tail) =
          (head :: (cut separator tail).1, (cut separator tail).2) := cut_append apart tail
      rw [first, List.cons_append, ← ih later]

end Cut

/-! ## The parts of a URL -/

/-- `_WHATWG_C0_CONTROL_OR_SPACE`. -/
def isControlOrSpace (char : Char) : Bool := char.toNat ≤ 0x20

/-- `_UNSAFE_URL_BYTES_TO_REMOVE`. -/
def isUnsafe (char : Char) : Bool := char = '\t' ∨ char = '\r' ∨ char = '\n'

def cleanUrl (url : List Char) : List Char :=
  (url.dropWhile isControlOrSpace).filter fun char => !isUnsafe char

/-- `scheme_chars`. -/
def isSchemeChar (char : Char) : Bool :=
  char.isAlpha || char.isDigit || char = '+' || char = '-' || char = '.'

/-- The scheme in lower case, and the rest. -/
def splitScheme (url : List Char) : List Char × List Char :=
  if ':' ∈ url ∧ (cut ':' url).1.head?.any Char.isAlpha ∧ (cut ':' url).1.all isSchemeChar then
    ((cut ':' url).1.map Char.toLower, (cut ':' url).2)
  else ([], url)

def isNetlocChar (char : Char) : Bool := char ≠ '/' ∧ char ≠ '?' ∧ char ≠ '#'

/-- `_splitnetloc`, after two slashes. -/
def splitNetloc : List Char → List Char × List Char
  | '/' :: '/' :: rest => (rest.takeWhile isNetlocChar, rest.dropWhile isNetlocChar)
  | url => ([], url)

/-- The path, the query and the fragment. -/
def splitPath (url : List Char) : List Char × List Char × List Char :=
  let (rest, fragment) := cut '#' url
  let (path, query) := cut '?' rest
  (path, query, fragment)

structure SplitResult where
  scheme : List Char
  netloc : List Char
  path : List Char
  query : List Char
  fragment : List Char
  deriving DecidableEq, Repr

/-- What is checked of a network location besides its brackets. -/
structure NetlocRules where
  checks : List Char → Bool
  checks_nil : checks [] = true

def acceptsNetloc (rules : NetlocRules) (netloc : List Char) : Bool :=
  decide ('[' ∈ netloc ↔ ']' ∈ netloc) && rules.checks netloc

inductive UrlError where
  | valueError
  deriving DecidableEq, Repr

def splitClean (rules : NetlocRules) (url : List Char) : Except UrlError SplitResult :=
  let (scheme, located) := splitScheme url
  let (netloc, rest) := splitNetloc located
  if acceptsNetloc rules netloc then
    let (path, query, fragment) := splitPath rest
    .ok { scheme, netloc, path, query, fragment }
  else .error .valueError

def urlsplit (rules : NetlocRules) (url : List Char) : Except UrlError SplitResult :=
  splitClean rules (cleanUrl url)

/-! ## What the parts are made of -/

section Parts

variable {rules : NetlocRules} {url front rest : List Char}

theorem acceptsNetloc_nil (rules : NetlocRules) : acceptsNetloc rules [] = true := by
  simp [acceptsNetloc, rules.checks_nil]

/-- A URL has no scheme, or one that stands before its first colon. -/
theorem splitScheme_cases (url : List Char) :
    splitScheme url = ([], url) ∨
      ∃ front, ':' ∉ front ∧ url = front ++ ':' :: (splitScheme url).2 ∧ (splitScheme url).1 ≠ [] := by
  unfold splitScheme
  split
  · next scheme =>
    obtain ⟨member, alpha, -⟩ := scheme
    refine .inr ⟨(cut ':' url).1, notMem_cut ':' url, cut_of_mem member, ?_⟩
    intro empty
    rw [List.map_eq_nil_iff] at empty
    simp [empty] at alpha
  · exact .inl rfl

theorem splitScheme_suffix (url : List Char) : (splitScheme url).2 <:+ url := by
  rcases splitScheme_cases url with same | ⟨front, -, parts, -⟩
  · exact ⟨[], congrArg Prod.snd same⟩
  · exact ⟨front ++ [':'], by rw [List.append_assoc, List.singleton_append, ← parts]⟩

theorem splitNetloc_suffix (url : List Char) : (splitNetloc url).2 <:+ url := by
  unfold splitNetloc
  split
  · next rest =>
    exact (List.dropWhile_suffix _).trans ((List.suffix_cons _ _).trans (List.suffix_cons _ _))
  · exact List.suffix_refl _

/-- Only the whole has no network location before it. -/
theorem splitNetloc_whole (whole : (splitNetloc url).2.length = url.length) : (splitNetloc url).1 = [] := by
  unfold splitNetloc at whole ⊢
  split
  · next rest =>
    have shorter := (List.dropWhile_suffix (l := rest) isNetlocChar).length_le
    simp only [List.length_cons] at whole
    omega
  · rfl

theorem splitPath_question (url : List Char) : '?' ∉ (splitPath url).1 := notMem_cut '?' _

theorem splitPath_hash (url : List Char) : '#' ∉ (splitPath url).1 :=
  fun member => notMem_cut '#' url (cut_fst_subset member)

theorem splitPath_query_hash (url : List Char) : '#' ∉ (splitPath url).2.1 :=
  fun member => notMem_cut '#' url (cut_snd_subset member)

/-- In front of a path. -/
theorem splitPath_append (question : '?' ∉ front) (hash : '#' ∉ front) (rest : List Char) :
    splitPath (front ++ rest) = (front ++ (splitPath rest).1, (splitPath rest).2) := by
  simp only [splitPath, cut_append hash, cut_append question]

/-- A URL without question mark and hash is nothing but its path. -/
theorem splitPath_of_notMem (question : '?' ∉ url) (hash : '#' ∉ url) : splitPath url = (url, [], []) := by
  simp only [splitPath, cut_of_notMem hash, cut_of_notMem question]

theorem cleanUrl_safe {char : Char} (member : char ∈ cleanUrl url) : isUnsafe char = false := by
  simpa using (List.mem_filter.mp member).2

end Parts

/-! ## A path below a URL -/

section Below

variable {rules : NetlocRules} {base rest : List Char}

/-- A text that is put below a base leaves the scheme of the base, or the lack of one. -/
theorem splitScheme_below (base rest : List Char) :
    splitScheme (base ++ '/' :: rest) = ((splitScheme base).1, (splitScheme base).2 ++ '/' :: rest) := by
  by_cases colon : ':' ∈ base
  · have parts := cut_of_mem colon
    have same : cut ':' (base ++ '/' :: rest) = ((cut ':' base).1, (cut ':' base).2 ++ '/' :: rest) := by
      have whole : base ++ '/' :: rest =
          (cut ':' base).1 ++ ':' :: ((cut ':' base).2 ++ '/' :: rest) := by
        rw [← List.cons_append, ← List.append_assoc, ← parts]
      rw [whole, cut_append (notMem_cut ':' base), cut_cons, List.append_nil]
    simp only [splitScheme, same, List.mem_append, colon, true_or, true_and]
    split
    · rfl
    · rfl
  · have plain : splitScheme base = ([], base) := by simp [splitScheme, colon]
    -- What comes before the colon has the slash, which no scheme has.
    have slash : '/' ∈ (cut ':' (base ++ '/' :: rest)).1 := by
      have absent : ':' ∉ base ++ ['/'] := by simp [colon]
      rw [List.append_cons, cut_append absent]
      simp
    rw [plain, splitScheme, if_neg]
    rintro ⟨-, -, all⟩
    have scheme := List.all_eq_true.mp all '/' slash
    revert scheme
    decide

/-- A text that is put below a base leaves the network location of the base. -/
theorem splitNetloc_below (single : base ≠ ['/']) (relative : rest.head? ≠ some '/') :
    splitNetloc (base ++ '/' :: rest) = ((splitNetloc base).1, (splitNetloc base).2 ++ '/' :: rest) := by
  match base with
  | [] =>
    match rest with
    | [] => rfl
    | head :: tail =>
      have different : head ≠ '/' := by simpa using relative
      simp [splitNetloc, different]
  | [only] =>
    have different : only ≠ '/' := by simpa using single
    simp [splitNetloc, different]
  | first :: second :: tail =>
    by_cases double : first = '/' ∧ second = '/'
    · obtain ⟨rfl, rfl⟩ := double
      have slash : isNetlocChar '/' = false := by decide
      simp only [List.cons_append, splitNetloc, List.takeWhile_append, List.dropWhile_append,
        List.takeWhile_cons, slash, List.dropWhile_cons]
      split
      · next all =>
        have none_ : tail.dropWhile isNetlocChar = [] := by
          rw [List.dropWhile_eq_nil_iff, ← List.takeWhile_eq_self_iff]
          exact (List.takeWhile_prefix _).eq_of_length all
        simp [none_, (List.takeWhile_prefix _).eq_of_length all]
      · next some_ =>
        have left : tail.dropWhile isNetlocChar ≠ [] := by
          intro none_
          rw [List.dropWhile_eq_nil_iff, ← List.takeWhile_eq_self_iff] at none_
          exact some_ (by rw [none_])
        simp [left]
    · have apart : ∀ tail, splitNetloc (first :: second :: tail) = ([], first :: second :: tail) := by
        intro tail
        unfold splitNetloc
        split
        · next equal =>
          simp only [List.cons.injEq] at equal
          exact absurd ⟨equal.1, equal.2.1⟩ double
        · rfl
      rw [apart, List.cons_append, List.cons_append, apart]

/-- A text below a URL that has no query, no fragment and no slash at its end. -/
theorem splitClean_below {parts : SplitResult} (split : splitClean rules base = .ok parts)
    (question : '?' ∉ base) (hash : '#' ∉ base) (ends : base.getLast? ≠ some '/')
    (relative : rest.head? ≠ some '/') :
    parts.query = [] ∧ parts.fragment = [] ∧ parts.path <:+ base ∧
      splitClean rules (base ++ '/' :: rest) = .ok
        { parts with
          path := parts.path ++ '/' :: (splitPath rest).1
          query := (splitPath rest).2.1
          fragment := (splitPath rest).2.2 } := by
  have suffix : (splitNetloc (splitScheme base).2).2 <:+ base :=
    (splitNetloc_suffix _).trans (splitScheme_suffix base)
  have single : (splitScheme base).2 ≠ ['/'] := by
    intro slash
    obtain ⟨front, whole⟩ := splitScheme_suffix base
    rw [slash] at whole
    rw [← whole] at ends
    simp at ends
  have plain : '?' ∉ (splitNetloc (splitScheme base).2).2 ∧ '#' ∉ (splitNetloc (splitScheme base).2).2 :=
    ⟨fun member => question (suffix.subset member), fun member => hash (suffix.subset member)⟩
  simp only [splitClean] at split
  split at split
  · next accepted =>
    rw [splitPath_of_notMem plain.1 plain.2] at split
    cases split
    refine ⟨rfl, rfl, suffix, ?_⟩
    have below : splitPath ((splitNetloc (splitScheme base).2).2 ++ '/' :: rest) =
        ((splitNetloc (splitScheme base).2).2 ++ '/' :: (splitPath rest).1, (splitPath rest).2) := by
      have absent : '?' ∉ (splitNetloc (splitScheme base).2).2 ++ ['/'] ∧
          '#' ∉ (splitNetloc (splitScheme base).2).2 ++ ['/'] := by simp [plain]
      rw [List.append_cons, splitPath_append absent.1 absent.2, List.append_assoc, List.singleton_append]
    simp only [splitClean, splitScheme_below, splitNetloc_below single relative, accepted, if_true, below]
  · cases split

end Below

end SogeconApp.Library
