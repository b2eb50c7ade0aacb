import SogeconApp.Library.Like
import SogeconApp.Source.Listings

/-!
# Searches for a text

The searches of members, posts and the administration's events escape the text before it becomes a
pattern, and match the rows in whose columns the folded text occurs, whatever the text is. The search
of signup requests does not escape it, and does so exactly for the texts without `%`, `_` and `\`.

No pattern of these searches ends with the escape character, so the error of `LIKE` does not arise.
-/

namespace SogeconApp.Guarantees.LiteralSearch

open Library Library.Like Source.Posts Source.Directory Source.Listings

/-! ## The pattern -/

theorem replaceChar_toList (old : Char) (replacement value : String) :
    (replaceChar old replacement value).toList =
      value.toList.flatMap fun char => if char = old then replacement.toList else [char] :=
  String.toList_ofList

/-- The three replacements put a backslash before every special character. -/
theorem escapeLike_toList (value : String) : (escapeLike value).toList = escape value.toList := by
  rw [escapeLike, replaceChar_toList, replaceChar_toList, replaceChar_toList, List.flatMap_assoc,
    List.flatMap_assoc,
    escape]
  congr 1
  funext char
  by_cases backslash : char = '\\'
  · subst backslash
    decide
  by_cases percent : char = '%'
  · subst percent
    decide
  by_cases underscore : char = '_'
  · subst underscore
    decide
  simp [specials, backslash, percent, underscore]

theorem containing_toList (value : String) : (containing value).toList = '%' :: escape value.toList ++ ['%'] := by
  rw [containing, String.toList_append, String.toList_append, escapeLike_toList]
  rfl

variable (folding : CaseFolding)

/-- `ILIKE` under the folding. -/
def textSearch : TextSearch :=
  ⟨fun value pattern => (folding.ilike value.toList pattern.toList).getD false⟩

/-- `lower` of the database and of Python are the folding. -/
def titleSearch : TitleSearch where
  lower text := String.ofList (folding.foldText text.toList)
  like value pattern := (like value.toList pattern.toList).getD false
  strLower text := String.ofList (folding.foldText text.toList)

/-- The word occurs in the text, whatever the case. -/
def Occurs (word text : String) : Prop := folding.foldText word.toList <:+: folding.foldText text.toList

def OccursIn (word : String) (column : Option String) : Prop :=
  ∃ text, column = some text ∧ Occurs folding word text

/-- The text searches for `q` are literal. -/
structure Literal (q : String) : Prop where
  members : ∀ row : Member, (Truth.all (filterConditions (textSearch folding) { q := some q } row)).Holds ↔
    Occurs folding q row.name ∨ OccursIn folding q row.email ∨ Occurs folding q row.studentId
  major : q ≠ "" → ∀ row : Member,
    (Truth.all (filterConditions (textSearch folding) { major := some q } row)).Holds ↔
      OccursIn folding q row.major
  company : q ≠ "" → ∀ row : Member,
    (Truth.all (filterConditions (textSearch folding) { company := some q } row)).Holds ↔
      OccursIn folding q row.company
  industry : q ≠ "" → ∀ row : Member,
    (Truth.all (filterConditions (textSearch folding) { industry := some q } row)).Holds ↔
      OccursIn folding q row.industry
  region : q ≠ "" → ∀ row : Member,
    (Truth.all (filterConditions (textSearch folding) { region := some q } row)).Holds ↔
      OccursIn folding q row.addrPersonal ∨ OccursIn folding q row.addrCompany
  jobTitle : q ≠ "" → ∀ row : Member,
    (Truth.all (filterConditions (textSearch folding) { jobTitle := some q } row)).Holds ↔
      OccursIn folding q row.jobTitle
  posts : ∀ post : Post, (publicFilterClause (textSearch folding) { q := some q } post).Holds ↔
    Occurs folding q post.title ∨ Occurs folding q post.content
  adminPosts : ∀ (now : Instant) (post : Post),
    (adminFilterClause (textSearch folding) { q := some q } now post).Holds ↔
      Occurs folding q post.title ∨ Occurs folding q post.content
  adminEvents : ∀ (now : Instant) (row : EventRow),
    (Truth.all (adminEventConditions (titleSearch folding) { q := some q } now row)).Holds ↔
      Occurs folding (stripText q) row.title
  signups : ∀ row : SignupRow, (Truth.all (signupConditions (textSearch folding) { q := some q } row)).Holds ↔
    Occurs folding (stripText q) row.studentId ∨ Occurs folding (stripText q) row.name ∨
      Occurs folding (stripText q) row.email

/-! ## The escaped searches -/

section Escaped

variable {folding} {q : String}

@[simp] theorem occursIn_some {word text : String} :
    OccursIn folding word (some text) ↔ Occurs folding word text := by
  simp [OccursIn]

theorem occurs_empty (text : String) : Occurs folding "" text := List.nil_infix

/-- A pattern of an escaped text matches the columns in which the text occurs. -/
theorem matches_containing (column : Option String) :
    ((textSearch folding).matches column (containing q)).Holds ↔ OccursIn folding q column := by
  cases column with
  | none => simp [TextSearch.matches, OccursIn]
  | some text =>
    have found := folding.ilike_escape q.toList text.toList
    simp only [TextSearch.matches, textSearch, containing_toList, Option.map_some, Truth.holds_some,
      occursIn_some, Occurs, ← found]
    cases folding.ilike text.toList ('%' :: escape q.toList ++ ['%']) <;> simp

/-- A pattern of a lowered title and of a lowered text. -/
theorem like_containing (word title : String) :
    (titleSearch folding).like ((titleSearch folding).lower title)
        (containing ((titleSearch folding).strLower word)) = true ↔ Occurs folding word title := by
  have found := like_escape (folding.foldText word.toList) (folding.foldText title.toList)
  simp only [titleSearch, containing_toList, String.toList_ofList, Occurs, ← found]
  cases like (folding.foldText title.toList) ('%' :: escape (folding.foldText word.toList) ++ ['%']) <;> simp

theorem holds_whenTruthy (value : String) (condition : String → Truth) :
    (Truth.all (whenTruthy (some value) condition)).Holds ↔ value = "" ∨ (condition value).Holds := by
  by_cases empty : value = ""
  · simp [whenTruthy, empty]
  · simp [whenTruthy, empty]

/-- A search is literal if its condition is, and the empty text occurs in every row. -/
theorem whenTruthy_literal {value : String} {condition : String → Truth} {found : Prop}
    (literal : (condition value).Holds ↔ found) (everywhere : value = "" → found) :
    (Truth.all (whenTruthy (some value) condition)).Holds ↔ found := by
  rw [holds_whenTruthy, literal]
  constructor
  · intro matched
    exact matched.elim everywhere id
  · exact .inr

/-- A search of the members for a text finds it in the name, the address or the student id. -/
theorem members_literal (row : Member) :
    (Truth.all (filterConditions (textSearch folding) { q := some q } row)).Holds ↔
      Occurs folding q row.name ∨ OccursIn folding q row.email ∨ Occurs folding q row.studentId := by
  have only : filterConditions (textSearch folding) { q := some q } row = whenTruthy (some q) fun q =>
      .or ((textSearch folding).matches (some row.name) (containing q))
        (.or ((textSearch folding).matches row.email (containing q))
          ((textSearch folding).matches (some row.studentId) (containing q))) := by
    simp [filterConditions, whenTruthy]
  rw [only]
  apply whenTruthy_literal
  · simp only [Truth.holds_or, matches_containing, occursIn_some]
  · intro empty
    exact .inl (empty ▸ occurs_empty row.name)

theorem posts_literal (post : Post) :
    (publicFilterClause (textSearch folding) { q := some q } post).Holds ↔
      Occurs folding q post.title ∨ Occurs folding q post.content := by
  by_cases empty : q = ""
  · subst empty
    simp [publicFilterClause, occurs_empty]
  · simp [publicFilterClause, empty, matches_containing]

theorem adminPosts_literal (now : Instant) (post : Post) :
    (adminFilterClause (textSearch folding) { q := some q } now post).Holds ↔
      Occurs folding q post.title ∨ Occurs folding q post.content := by
  have only : adminFilterClause (textSearch folding) { q := some q } now post =
      .all (whenTruthy (some q) fun q =>
        .or ((textSearch folding).matches (some post.title) (containing q))
          ((textSearch folding).matches (some post.content) (containing q))) := by
    simp [adminFilterClause, adminStatusClause, whenTruthy]
  rw [only]
  apply whenTruthy_literal
  · simp only [Truth.holds_or, matches_containing, occursIn_some]
  · intro empty
    exact .inl (empty ▸ occurs_empty post.title)

theorem adminEvents_literal (now : Instant) (row : EventRow) :
    (Truth.all (adminEventConditions (titleSearch folding) { q := some q } now row)).Holds ↔
      Occurs folding (stripText q) row.title := by
  have only : adminEventConditions (titleSearch folding) { q := some q } now row = whenTruthy (some q) fun q =>
      some ((titleSearch folding).like ((titleSearch folding).lower row.title)
        (containing ((titleSearch folding).strLower (stripText q)))) := by
    simp [adminEventConditions]
  rw [only]
  apply whenTruthy_literal
  · rw [Truth.holds_some, like_containing]
  · intro empty
    exact empty ▸ occurs_empty row.title

end Escaped

/-! ## The search of signup requests -/

section Signups

variable {folding} {q : String}

/-- The pattern of an unescaped text on a column that is not NULL. -/
theorem matches_unescaped (word text : String) :
    ((textSearch folding).matches (some text) ("%" ++ word ++ "%")).Holds ↔
      folding.ilike text.toList ('%' :: word.toList ++ ['%']) = some true := by
  have pattern : ("%" ++ word ++ "%").toList = '%' :: word.toList ++ ['%'] := by
    rw [String.toList_append, String.toList_append]
    rfl
  simp only [TextSearch.matches, textSearch, pattern, Option.map_some, Truth.holds_some]
  cases folding.ilike text.toList ('%' :: word.toList ++ ['%']) <;> simp

/-- A search of the signup requests takes the text for a pattern, and compares the three columns with
it. -/
theorem signups_holds (filled : q ≠ "") (row : SignupRow) :
    (Truth.all (signupConditions (textSearch folding) { q := some q } row)).Holds ↔
      ∃ text ∈ [row.studentId, row.name, row.email],
        folding.ilike text.toList ('%' :: (stripText q).toList ++ ['%']) = some true := by
  have only : signupConditions (textSearch folding) { q := some q } row = whenTruthy (some q) fun q =>
      .or ((textSearch folding).matches (some row.studentId) ("%" ++ stripText q ++ "%"))
        (.or ((textSearch folding).matches (some row.name) ("%" ++ stripText q ++ "%"))
          ((textSearch folding).matches (some row.email) ("%" ++ stripText q ++ "%"))) := by
    simp [signupConditions]
  rw [only, holds_whenTruthy]
  simp only [Truth.holds_or, matches_unescaped, List.mem_cons, List.not_mem_nil, or_false, exists_eq_or_imp,
    exists_eq_left]
  exact ⟨fun matched => matched.resolve_left filled, .inr⟩

/-- A request whose three searched columns hold one text. -/
def uniformRow (text : String) : SignupRow :=
  { studentId := text, name := text, email := text, cohort := 1, id := 1, requestedAt := 0 }

/-- The search of signup requests is literal exactly for the texts without special characters. -/
theorem signups_literal_iff :
    (∀ row : SignupRow, (Truth.all (signupConditions (textSearch folding) { q := some q } row)).Holds ↔
        Occurs folding (stripText q) row.studentId ∨ Occurs folding (stripText q) row.name ∨
          Occurs folding (stripText q) row.email) ↔
      ∀ char ∈ (stripText q).toList, char ∉ specials := by
  by_cases empty : q = ""
  · subst empty
    have nothing : stripText "" = "" := by decide
    rw [nothing]
    constructor
    · intro _ char member
      exact absurd member List.not_mem_nil
    · intro _ row
      simp [signupConditions, whenTruthy, occurs_empty]
  rw [← folding.unescaped_literal_iff]
  constructor
  · intro literal text
    have uniform := literal (uniformRow (String.ofList text))
    rw [signups_holds empty] at uniform
    simpa [uniformRow, Occurs] using uniform
  · intro literal row
    rw [signups_holds empty]
    simp only [literal, Occurs, List.mem_cons, List.not_mem_nil, or_false, exists_eq_or_imp, exists_eq_left]

end Signups

/-- The searches are literal exactly for the texts whose stripped form has no special character. The
search of the signup requests does not escape its text; the others are literal for every text. -/
theorem literal_search_iff (q : String) :
    Literal folding q ↔ ∀ char ∈ (stripText q).toList, char ∉ specials := by
  constructor
  · intro literal
    exact signups_literal_iff.mp literal.signups
  · intro ordinary
    exact {
      members := members_literal
      major := fun filled row => by simp [filterConditions, whenTruthy, filled, matches_containing]
      company := fun filled row => by simp [filterConditions, whenTruthy, filled, matches_containing]
      industry := fun filled row => by simp [filterConditions, whenTruthy, filled, matches_containing]
      region := fun filled row => by simp [filterConditions, whenTruthy, filled, matches_containing]
      jobTitle := fun filled row => by simp [filterConditions, whenTruthy, filled, matches_containing]
      posts := posts_literal
      adminPosts := adminPosts_literal
      adminEvents := adminEvents_literal
      signups := signups_literal_iff.mpr ordinary }

theorem toLower_ordinary (char : Char) (ordinary : char ∉ specials) : char.toLower ∉ specials := by
  unfold Char.toLower
  split
  · rename_i upper
    simp only [specials, List.mem_cons, List.not_mem_nil, or_false, not_or, Char.ext_iff, ge_iff_le,
      UInt32.le_iff_toNat_le, UInt32.ext_iff, UInt32.toNat_add] at upper ⊢
    have lowest : 'A'.val.toNat = 65 := rfl
    have highest : 'Z'.val.toNat = 90 := rfl
    have distance : UInt32.toNat ('a'.val - 'A'.val) = 32 := rfl
    have backslash : '\\'.val.toNat = 92 := rfl
    have percent : '%'.val.toNat = 37 := rfl
    have underscore : '_'.val.toNat = 95 := rfl
    omega
  · exact ordinary

/-- A folding of the letters A to Z. -/
def asciiFolding : CaseFolding where
  fold char := [char.toLower]
  nonempty _ := List.cons_ne_nil _ _
  special char member := by
    simp only [specials, List.mem_cons, List.not_mem_nil, or_false] at member
    rcases member with rfl | rfl | rfl <;> rfl
  ordinary char ordinary folded member := by
    rw [List.mem_singleton.mp member]
    exact toLower_ordinary char ordinary

/-- An underscore finds a name that has none. -/
theorem underscore_finds_kim : ¬Literal asciiFolding "_" := by
  intro literal
  have found := (literal.signups (uniformRow "kim")).mp (by decide +kernel)
  revert found
  simp only [uniformRow, Occurs]
  decide +kernel

end SogeconApp.Guarantees.LiteralSearch
