import Mathlib.Data.List.DropRight

/-!
# Trimming

A text without the blanks at its ends, whatever counts as a blank.
-/

namespace SogeconApp.Library

variable {α β : Type} {blank : α → Bool} {text : List α}

def trim (blank : α → Bool) (text : List α) : List α := (text.dropWhile blank).rdropWhile blank

theorem trim_sublist (text : List α) : (trim blank text).Sublist text :=
  (List.rdropWhile_prefix _ _).sublist.trans (List.dropWhile_sublist _)

theorem dropWhile_eq_self_iff_head :
    text.dropWhile blank = text ↔ ∀ item, text.head? = some item → blank item = false := by
  cases text with
  | nil => simp
  | cons head tail =>
    by_cases holds : blank head = true
    · rw [List.dropWhile_cons_of_pos holds]
      constructor
      · intro same
        have shorter := (List.dropWhile_sublist (l := tail) blank).length_le
        rw [same, List.length_cons] at shorter
        omega
      · intro none_
        rw [none_ head rfl] at holds
        cases holds
    · rw [List.dropWhile_cons_of_neg holds]
      simpa using holds

theorem rdropWhile_eq_self_iff_last :
    text.rdropWhile blank = text ↔ ∀ item, text.getLast? = some item → blank item = false := by
  rw [List.rdropWhile_eq_self_iff]
  constructor
  · intro last item found
    obtain ⟨some_, rfl⟩ := List.mem_getLast?_eq_getLast found
    simpa using last some_
  · intro last some_
    simpa using last _ (List.getLast?_eq_some_getLast some_)

/-- Trimmed is what has no blank at an end. -/
theorem trim_eq_self_iff :
    trim blank text = text ↔ (∀ item, text.head? = some item → blank item = false) ∧
      ∀ item, text.getLast? = some item → blank item = false := by
  rw [← dropWhile_eq_self_iff_head, ← rdropWhile_eq_self_iff_last]
  constructor
  · intro same
    have front : text.dropWhile blank = text := by
      refine (List.dropWhile_sublist _).eq_of_length_le ?_
      conv_lhs => rw [← same]
      exact (List.rdropWhile_prefix _ _).length_le
    rw [trim, front] at same
    exact ⟨front, same⟩
  · rintro ⟨front, back⟩
    rw [trim, front, back]

/-- Trimming a second time finds no blanks at the ends any more. -/
theorem trim_trim (blank : α → Bool) (text : List α) : trim blank (trim blank text) = trim blank text := by
  rw [trim_eq_self_iff]
  constructor
  · intro item first
    have front : (text.dropWhile blank).head? = some item := by
      obtain ⟨rest, whole⟩ := List.rdropWhile_prefix blank (text.dropWhile blank)
      rw [← whole, List.head?_append]
      rw [trim] at first
      rw [first]
      rfl
    have stops := List.head?_dropWhile_not blank text
    rw [front] at stops
    simpa using stops
  · exact rdropWhile_eq_self_iff_last.mp (List.rdropWhile_idempotent _ _)

theorem dropWhile_map_of {other : β → Bool} {f : α → β} (same : ∀ item ∈ text, other (f item) = blank item) :
    (text.map f).dropWhile other = (text.dropWhile blank).map f := by
  induction text with
  | nil => rfl
  | cons head tail ih =>
    have first := same head List.mem_cons_self
    by_cases drops : blank head = true
    · rw [List.map_cons, List.dropWhile_cons_of_pos (first.trans drops), List.dropWhile_cons_of_pos drops]
      exact ih fun item member => same item (List.mem_cons_of_mem _ member)
    · rw [List.map_cons, List.dropWhile_cons_of_neg (by rwa [first]), List.dropWhile_cons_of_neg drops,
        List.map_cons]

/-- A map that keeps the blanks apart trims what it maps. -/
theorem trim_map {other : β → Bool} {f : α → β} (same : ∀ item ∈ text, other (f item) = blank item) :
    trim other (text.map f) = (trim blank text).map f := by
  have rest : ∀ item ∈ (text.dropWhile blank).reverse, other (f item) = blank item :=
    fun item member => same item ((List.dropWhile_sublist _).subset (List.mem_reverse.mp member))
  rw [trim, dropWhile_map_of same, List.rdropWhile, ← List.map_reverse, dropWhile_map_of rest,
    ← List.map_reverse, trim, List.rdropWhile]

theorem filter_dropWhile_of {keep : α → Bool} (apart : ∀ item, keep item = true → blank item = false) :
    (text.dropWhile blank).filter keep = text.filter keep := by
  induction text with
  | nil => rfl
  | cons head tail ih =>
    by_cases drops : blank head = true
    · have lost : ¬keep head = true := by
        intro kept
        rw [apart head kept] at drops
        cases drops
      rw [List.dropWhile_cons_of_pos drops, ih, List.filter_cons_of_neg lost]
    · rw [List.dropWhile_cons_of_neg drops]

/-- What is no blank is not lost. -/
theorem filter_trim {keep : α → Bool} (apart : ∀ item, keep item = true → blank item = false) :
    (trim blank text).filter keep = text.filter keep := by
  rw [trim, List.rdropWhile, List.filter_reverse, filter_dropWhile_of apart, List.filter_reverse,
    List.reverse_reverse, filter_dropWhile_of apart]

end SogeconApp.Library
