import Mathlib.Data.List.Infix

/-!
# LIKE

A pattern of `LIKE .. ESCAPE '\'` is read as tokens: a character that stands for itself, one character,
any text. `%` and `_` are wildcards unless a backslash stands before them. `ILIKE` compares folded
texts. A text whose special characters are escaped is searched literally; a search for any part of a
text that does not escape them is literal exactly when there are none.
-/

namespace SogeconApp.Library

namespace Like

inductive Token where
  | char (value : Char)
  | one
  | any
  deriving DecidableEq, Repr

/-- The tokens of a pattern; none where it ends with the escape character, which is an error. -/
def tokens : List Char → Option (List Token)
  | [] => some []
  | ['\\'] => none
  | '\\' :: char :: rest => (tokens rest).map (.char char :: ·)
  | '%' :: rest => (tokens rest).map (.any :: ·)
  | '_' :: rest => (tokens rest).map (.one :: ·)
  | char :: rest => (tokens rest).map (.char char :: ·)

def matchesTokens : List Token → List Char → Bool
  | [], text => text.isEmpty
  | .char value :: rest, text =>
    match text with
    | first :: others => first = value && matchesTokens rest others
    | [] => false
  | .one :: rest, text =>
    match text with
    | _ :: others => matchesTokens rest others
    | [] => false
  | .any :: rest, text => text.tails.any (matchesTokens rest)

/-- `text LIKE pattern ESCAPE '\'`. -/
def like (text pattern : List Char) : Option Bool :=
  (tokens pattern).map fun read => matchesTokens read text

def specials : List Char := ['\\', '%', '_']

/-- A backslash before every special character. -/
def escape (text : List Char) : List Char :=
  text.flatMap fun char => if char ∈ specials then ['\\', char] else [char]

/-! ## Tokens -/

section Tokens

variable {char : Char} {text rest : List Char} {read : List Token}

theorem tokens_ordinary (ordinary : char ∉ specials) :
    tokens (char :: rest) = (tokens rest).map (.char char :: ·) := by
  simp only [specials, List.mem_cons, List.not_mem_nil, or_false, not_or] at ordinary
  rw [tokens]
  · exact fun same => absurd same ordinary.1
  · exact fun _ _ same => absurd same ordinary.1
  · exact ordinary.2.1
  · exact ordinary.2.2

/-- A text without special characters stands for itself at the front of any pattern. -/
theorem tokens_ordinary_append (ordinary : ∀ char ∈ text, char ∉ specials) :
    tokens (text ++ rest) = (tokens rest).map (text.map .char ++ ·) := by
  induction text with
  | nil => simp
  | cons char text ih =>
    rw [List.cons_append, tokens_ordinary (ordinary char List.mem_cons_self),
      ih fun other member => ordinary other (List.mem_cons_of_mem _ member), Option.map_map]
    rfl

/-- An escaped text is read as its characters. -/
theorem tokens_escape (text rest : List Char) :
    tokens (escape text ++ rest) = (tokens rest).map (text.map .char ++ ·) := by
  induction text with
  | nil => simp [escape]
  | cons char text ih =>
    rw [escape, List.flatMap_cons, List.append_assoc]
    by_cases special : char ∈ specials
    · rw [if_pos special]
      simp only [List.cons_append, List.nil_append, tokens]
      rw [← escape, ih, Option.map_map]
      rfl
    · rw [if_neg special, List.singleton_append, tokens_ordinary special, ← escape, ih, Option.map_map]
      rfl

theorem matchesTokens_chars (word : List Char) :
    matchesTokens (word.map .char ++ read) text = true ↔
      ∃ back, text = word ++ back ∧ matchesTokens read back = true := by
  induction word generalizing text with
  | nil => simp
  | cons first word ih =>
    cases text with
    | nil => simp [matchesTokens]
    | cons other text =>
      simp only [List.map_cons, List.cons_append, matchesTokens, Bool.and_eq_true, decide_eq_true_eq, ih,
        List.cons.injEq]
      constructor
      · rintro ⟨rfl, back, rfl, rest⟩
        exact ⟨back, ⟨rfl, rfl⟩, rest⟩
      · rintro ⟨back, ⟨rfl, rfl⟩, rest⟩
        exact ⟨rfl, back, rfl, rest⟩

/-- Any text is some text that is passed over, and what is left of it matches the rest. -/
theorem matchesTokens_any :
    matchesTokens (.any :: read) text = true ↔ ∃ back, back <:+ text ∧ matchesTokens read back = true := by
  simp [matchesTokens]

/-- The pattern of an escaped text between two wildcards finds the text wherever it occurs. -/
theorem like_escape (word text : List Char) :
    like text ('%' :: escape word ++ ['%']) = some true ↔ word <:+: text := by
  have read : tokens ('%' :: escape word ++ ['%']) = some (.any :: (word.map .char ++ [.any])) := by
    rw [List.cons_append, tokens, tokens_escape]
    rfl
  rw [like, read, Option.map_some, Option.some.injEq, matchesTokens_any]
  constructor
  · rintro ⟨back, ⟨front, rfl⟩, found⟩
    obtain ⟨rest, rfl, -⟩ := (matchesTokens_chars word).mp found
    exact ⟨front, rest, List.append_assoc ..⟩
  · rintro ⟨front, rest, rfl⟩
    refine ⟨word ++ rest, ⟨front, (List.append_assoc ..).symm⟩, (matchesTokens_chars word).mpr ⟨rest, rfl, ?_⟩⟩
    exact matchesTokens_any.mpr ⟨[], List.nil_suffix, rfl⟩

end Tokens

/-! ## Case folding -/

/-- A folding character by character that leaves the special characters alone. -/
structure CaseFolding where
  fold : Char → List Char
  nonempty : ∀ char, fold char ≠ []
  special : ∀ char ∈ specials, fold char = [char]
  ordinary : ∀ char, char ∉ specials → ∀ folded ∈ fold char, folded ∉ specials

namespace CaseFolding

variable (folding : CaseFolding)

def foldText (text : List Char) : List Char := text.flatMap folding.fold

/-- `text ILIKE pattern ESCAPE '\'`. -/
def ilike (text pattern : List Char) : Option Bool := like (folding.foldText text) (folding.foldText pattern)

@[simp] theorem foldText_nil : folding.foldText [] = [] := rfl

@[simp] theorem foldText_cons (char : Char) (text : List Char) :
    folding.foldText (char :: text) = folding.fold char ++ folding.foldText text := rfl

@[simp] theorem foldText_append (first second : List Char) :
    folding.foldText (first ++ second) = folding.foldText first ++ folding.foldText second :=
  List.flatMap_append ..

theorem foldText_special {char : Char} (special : char ∈ specials) (text : List Char) :
    folding.foldText (char :: text) = char :: folding.foldText text := by
  rw [foldText_cons, folding.special char special, List.singleton_append]

theorem foldText_backslash (text : List Char) : folding.foldText ('\\' :: text) = '\\' :: folding.foldText text :=
  folding.foldText_special (by decide) text

theorem foldText_percent (text : List Char) : folding.foldText ('%' :: text) = '%' :: folding.foldText text :=
  folding.foldText_special (by decide) text

theorem foldText_underscore (text : List Char) : folding.foldText ('_' :: text) = '_' :: folding.foldText text :=
  folding.foldText_special (by decide) text

theorem escape_ordinary {text : List Char} (ordinary : ∀ char ∈ text, char ∉ specials) : escape text = text := by
  induction text with
  | nil => rfl
  | cons char text ih =>
    rw [escape, List.flatMap_cons, if_neg (ordinary char List.mem_cons_self), List.singleton_append, ← escape,
      ih fun other member => ordinary other (List.mem_cons_of_mem _ member)]

/-- Folding and escaping can be exchanged. -/
theorem foldText_escape (text : List Char) : folding.foldText (escape text) = escape (folding.foldText text) := by
  induction text with
  | nil => rfl
  | cons char text ih =>
    have onward : escape (folding.foldText (char :: text)) =
        escape (folding.fold char) ++ escape (folding.foldText text) := List.flatMap_append ..
    rw [onward, escape, List.flatMap_cons, foldText_append, ← escape, ih]
    congr 1
    by_cases special : char ∈ specials
    · rw [if_pos special, folding.special char special, foldText_backslash,
        foldText_special folding special, foldText_nil]
      simp [escape, special]
    · rw [if_neg special, escape_ordinary (folding.ordinary char special), foldText_cons, foldText_nil,
        List.append_nil]

/-- Folding leaves the percent signs of a pattern alone, and folds the word between them. -/
theorem foldText_between (pattern : List Char) :
    folding.foldText ('%' :: pattern ++ ['%']) = '%' :: folding.foldText pattern ++ ['%'] := by
  rw [foldText_append, foldText_percent, foldText_percent]
  rfl

/-- An escaped search finds the folded text wherever it occurs. -/
theorem ilike_escape (word text : List Char) :
    folding.ilike text ('%' :: escape word ++ ['%']) = some true ↔
      folding.foldText word <:+: folding.foldText text := by
  rw [ilike, foldText_between, foldText_escape, like_escape]

/-! ## Unescaped searches -/

/-- A text that the unescaped pattern of a word finds; it is the word when that has no special characters. -/
def collapse : List Char → List Char
  | [] => []
  | ['\\'] => ['%']
  | '\\' :: char :: rest => char :: collapse rest
  | '%' :: rest => collapse rest
  | '_' :: rest => '%' :: collapse rest
  | char :: rest => char :: collapse rest

/-- A character that `collapse` keeps is not special. -/
theorem ordinary_of_collapsing {char : Char} {rest : List Char} (alone : char = '\\' → rest = [] → False)
    (backslash : ∀ next others, char = '\\' → rest = next :: others → False) (percent : ¬char = '%')
    (underscore : ¬char = '_') : char ∉ specials := by
  simp only [specials, List.mem_cons, List.not_mem_nil, or_false, not_or]
  refine ⟨fun escaping => ?_, percent, underscore⟩
  cases rest with
  | nil => exact alone escaping rfl
  | cons next others => exact backslash next others escaping rfl

/-- The folded characters of one character are read as themselves after a backslash. -/
theorem tokens_backslash (char : Char) (rest : List Char) :
    tokens ('\\' :: (folding.fold char ++ rest)) = (tokens rest).map ((folding.fold char).map .char ++ ·) := by
  by_cases special : char ∈ specials
  · rw [folding.special char special, List.singleton_append, tokens]
    rfl
  · have ordinary := folding.ordinary char special
    have nonempty := folding.nonempty char
    cases folded : folding.fold char with
    | nil => exact absurd folded nonempty
    | cons first others =>
      rw [folded] at ordinary
      have onward : tokens (others ++ rest) = (tokens rest).map (others.map .char ++ ·) :=
        tokens_ordinary_append fun other member => ordinary other (List.mem_cons_of_mem _ member)
      rw [List.cons_append, tokens, onward, Option.map_map]
      rfl

/-- The rest of an unescaped pattern has tokens, and they match the collapsed text. -/
theorem tokens_collapse (word : List Char) :
    ∃ read, tokens (folding.foldText word ++ ['%']) = some read ∧
      matchesTokens read (folding.foldText (collapse word)) = true := by
  induction word using collapse.induct with
  | case1 => exact ⟨[.any], rfl, rfl⟩
  | case2 =>
    rw [collapse, foldText_backslash, foldText_percent]
    exact ⟨[.char '%'], rfl, rfl⟩
  | case3 char rest ih =>
    obtain ⟨read, rest_read, rest_matches⟩ := ih
    refine ⟨(folding.fold char).map .char ++ read, ?_, ?_⟩
    · rw [foldText_backslash, foldText_cons, List.cons_append, List.append_assoc,
        tokens_backslash, rest_read]
      rfl
    · rw [collapse, foldText_cons]
      exact (matchesTokens_chars _).mpr ⟨_, rfl, rest_matches⟩
  | case4 rest ih =>
    obtain ⟨read, rest_read, rest_matches⟩ := ih
    refine ⟨.any :: read, ?_, ?_⟩
    · rw [foldText_percent, List.cons_append, tokens, rest_read]
      rfl
    · rw [collapse]
      exact matchesTokens_any.mpr ⟨_, List.suffix_refl _, rest_matches⟩
  | case5 rest ih =>
    obtain ⟨read, rest_read, rest_matches⟩ := ih
    refine ⟨.one :: read, ?_, ?_⟩
    · rw [foldText_underscore, List.cons_append, tokens, rest_read]
      rfl
    · rw [collapse, foldText_percent, matchesTokens]
      exact rest_matches
  | case6 char rest alone backslash percent underscore ih =>
    obtain ⟨read, rest_read, rest_matches⟩ := ih
    have ordinary := ordinary_of_collapsing alone backslash percent underscore
    refine ⟨(folding.fold char).map .char ++ read, ?_, ?_⟩
    · rw [foldText_cons, List.append_assoc, tokens_ordinary_append (folding.ordinary char ordinary), rest_read]
      rfl
    · rw [collapse, foldText_cons]
      · exact (matchesTokens_chars _).mpr ⟨_, rfl, rest_matches⟩
      all_goals assumption

/-- An unescaped pattern finds the collapsed text. -/
theorem ilike_collapse (word : List Char) : folding.ilike (collapse word) ('%' :: word ++ ['%']) = some true := by
  obtain ⟨read, word_read, word_matches⟩ := folding.tokens_collapse word
  rw [ilike, foldText_between, like, List.cons_append, tokens, word_read]
  exact congrArg some (matchesTokens_any.mpr ⟨_, List.suffix_refl _, word_matches⟩)

theorem length_collapse_le (word : List Char) :
    (folding.foldText (collapse word)).length ≤ (folding.foldText word).length := by
  induction word using collapse.induct with
  | case1 => simp [collapse]
  | case2 =>
    rw [collapse, foldText_backslash, foldText_percent]
    simp
  | case3 char rest ih =>
    rw [collapse, foldText_backslash]
    simp only [foldText_cons, List.length_append, List.length_cons]
    omega
  | case4 rest ih =>
    rw [collapse, foldText_percent, List.length_cons]
    omega
  | case5 rest ih =>
    rw [collapse, foldText_percent, foldText_underscore]
    simpa using ih
  | case6 char rest alone backslash percent underscore ih =>
    rw [collapse, foldText_cons, foldText_cons, List.length_append, List.length_append]
    · omega
    all_goals assumption

/-- Only a word without special characters collapses to a text that folds the same. -/
theorem ordinary_of_collapse (word : List Char)
    (same : folding.foldText (collapse word) = folding.foldText word) : ∀ char ∈ word, char ∉ specials := by
  induction word using collapse.induct with
  | case1 => simp
  | case2 =>
    rw [collapse, foldText_backslash, foldText_percent] at same
    simp at same
  | case3 char rest ih =>
    have shorter := folding.length_collapse_le rest
    have lengths := congrArg List.length same
    rw [collapse, foldText_backslash] at lengths
    simp only [foldText_cons, List.length_append, List.length_cons] at lengths
    omega
  | case4 rest ih =>
    have shorter := folding.length_collapse_le rest
    have lengths := congrArg List.length same
    rw [collapse, foldText_percent, List.length_cons] at lengths
    omega
  | case5 rest ih =>
    rw [collapse, foldText_percent, foldText_underscore] at same
    simp at same
  | case6 char rest alone backslash percent underscore ih =>
    rw [collapse, foldText_cons, foldText_cons] at same
    · have others := ih (List.append_cancel_left same)
      simp only [List.mem_cons, forall_eq_or_imp]
      exact ⟨ordinary_of_collapsing alone backslash percent underscore, others⟩
    all_goals assumption

/-- An unescaped search is literal on every text exactly when the word has no special characters. -/
theorem unescaped_literal_iff (word : List Char) :
    (∀ text, folding.ilike text ('%' :: word ++ ['%']) = some true ↔
        folding.foldText word <:+: folding.foldText text) ↔
      ∀ char ∈ word, char ∉ specials := by
  constructor
  · intro literal
    have within := (literal (collapse word)).mp (folding.ilike_collapse word)
    exact folding.ordinary_of_collapse word
      (within.eq_of_length_le (folding.length_collapse_le word)).symm
  · intro ordinary text
    have unchanged : escape word = word := escape_ordinary ordinary
    have escaped := folding.ilike_escape word text
    rwa [unchanged] at escaped

end CaseFolding

end Like

end SogeconApp.Library
