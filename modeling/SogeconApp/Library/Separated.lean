import Mathlib.Data.List.Infix

/-!
# Words between separators

Words that are joined by a separator which none of them contains. A word between two separators occurs
in the text exactly when it is one of the words.
-/

namespace SogeconApp.Library

variable {α : Type} {separator : α}

/-- The words one after the other, each closed by the separator. -/
def closed (separator : α) (words : List (List α)) : List α := words.flatMap (· ++ [separator])

theorem intercalate_closed {words : List (List α)} (some : words ≠ []) :
    [separator].intercalate words ++ [separator] = closed separator words := by
  induction words with
  | nil => exact absurd rfl some
  | cons word words ih =>
    cases words with
    | nil => simp [closed]
    | cons next words =>
      rw [List.intercalate_cons_cons, List.append_assoc, List.append_assoc, ih (List.cons_ne_nil _ _)]
      simp [closed]

/-- Two words that run up to the separator are one. -/
theorem word_eq_of_start {word first rest : List α} (plain : separator ∉ word) (plain' : separator ∉ first)
    (run : word ++ [separator] <+: first ++ separator :: rest) : word = first := by
  induction word generalizing first with
  | nil =>
    cases first with
    | nil => rfl
    | cons char first =>
      have same := (List.cons_prefix_cons.mp run).1
      exact absurd (same ▸ List.mem_cons_self) plain'
  | cons char word ih =>
    cases first with
    | nil =>
      have same := (List.cons_prefix_cons.mp run).1
      exact absurd (same ▸ List.mem_cons_self) plain
    | cons other first =>
      obtain ⟨same, onward⟩ := List.cons_prefix_cons.mp run
      rw [same, ih (fun member => plain (List.mem_cons_of_mem _ member))
        (fun member => plain' (List.mem_cons_of_mem _ member)) onward]

/-- What starts with the separator does not start in a word. -/
theorem infix_of_infix_append {word rest found : List α} (plain : separator ∉ word)
    (within : separator :: found <:+: word ++ rest) : separator :: found <:+: rest := by
  induction word with
  | nil => exact within
  | cons char word ih =>
    rcases List.infix_cons_iff.mp within with start | later
    · have same := (List.cons_prefix_cons.mp start).1
      exact absurd (same ▸ List.mem_cons_self) plain
    · exact ih (fun member => plain (List.mem_cons_of_mem _ member)) later

/-- A word between separators occurs in the closed words exactly when it is one of them. -/
theorem infix_closed_iff {word : List α} {words : List (List α)} (plain : separator ∉ word)
    (plains : ∀ other ∈ words, separator ∉ other) :
    separator :: word ++ [separator] <:+: separator :: closed separator words ↔ word ∈ words := by
  induction words with
  | nil =>
    simp only [closed, List.flatMap_nil, List.not_mem_nil, iff_false]
    intro within
    have shorter := within.length_le
    simp at shorter
  | cons first words ih =>
    have unfolded : closed separator (first :: words) = first ++ separator :: closed separator words := by
      simp [closed]
    have later := ih fun other member => plains other (List.mem_cons_of_mem _ member)
    rw [List.mem_cons, ← later, unfolded]
    constructor
    · intro within
      rcases List.infix_cons_iff.mp within with start | onward
      · exact .inl (word_eq_of_start plain (plains first List.mem_cons_self) (List.cons_prefix_cons.mp start).2)
      · exact .inr (infix_of_infix_append (plains first List.mem_cons_self) onward)
    · rintro (rfl | within)
      · exact ⟨[], closed separator words, by simp⟩
      · exact within.trans ((List.suffix_append (separator :: first) _).isInfix)

end SogeconApp.Library
