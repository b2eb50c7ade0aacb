import Mathlib.Data.List.Forall2
import Mathlib.Data.List.Nodup
import Mathlib.Data.List.Sort

/-!
# First occurrences and first rows

`List.eraseDups` keeps the first occurrence of every element, in order: the
`dict.fromkeys` idiom and its hand-written forms. The first row of an `ORDER BY` has
the least value of the column. A list is converted element by element.
-/

namespace SogeconApp.Library

variable {α : Type} [DecidableEq α]

theorem eraseDups_nodup (values : List α) : values.eraseDups.Nodup := by
  cases values with
  | nil => simp
  | cons head tail =>
    rw [List.eraseDups_cons]
    refine List.nodup_cons.mpr ⟨?_, eraseDups_nodup _⟩
    rw [List.mem_eraseDups]
    simp
termination_by values.length
decreasing_by exact Nat.lt_succ_of_le (List.length_filter_le _ _)

/-- A list without repetitions stays as it is. -/
theorem eraseDups_of_nodup {values : List α} (unique : values.Nodup) : values.eraseDups = values := by
  induction values with
  | nil => rfl
  | cons head tail ih =>
    have nodup := List.nodup_cons.mp unique
    have kept : (tail.filter fun b => !b == head) = tail := by
      refine List.filter_eq_self.mpr fun b member => ?_
      have different : b ≠ head := by
        rintro rfl
        exact nodup.1 member
      simp [different]
    rw [List.eraseDups_cons, kept, ih nodup.2]

/-- The head of a list that is sorted by a number has the least. -/
theorem insertionSort_head {α : Type} {order : α → Nat} {items rest : List α} {first : α}
    (sorted : items.insertionSort (fun left right => order left ≤ order right) = first :: rest) :
    first ∈ items ∧ ∀ item ∈ items, order first ≤ order item := by
  have total : Std.Total fun left right : α => order left ≤ order right := ⟨fun _ _ => Nat.le_total ..⟩
  have trans : IsTrans α fun left right => order left ≤ order right := ⟨fun _ _ _ => Nat.le_trans⟩
  have pairwise := List.pairwise_insertionSort (fun left right => order left ≤ order right) items
  have members (item : α) : item ∈ first :: rest ↔ item ∈ items := by
    rw [← sorted]
    exact List.mem_insertionSort _
  rw [sorted] at pairwise
  refine ⟨(members first).mp List.mem_cons_self, fun item member => ?_⟩
  rcases List.mem_cons.mp ((members item).mpr member) with rfl | later
  · exact Nat.le_refl _
  · exact (List.pairwise_cons.mp pairwise).1 item later

/-! ## Element by element -/

theorem exists_forall₂ {α β : Type} {R : α → β → Prop} {items : List α}
    (each : ∀ item ∈ items, ∃ made, R item made) : ∃ made, List.Forall₂ R items made := by
  induction items with
  | nil => exact ⟨[], .nil⟩
  | cons item items ih =>
    obtain ⟨head, first⟩ := each item List.mem_cons_self
    obtain ⟨tail, rest⟩ := ih fun other member => each other (List.mem_cons_of_mem _ member)
    exact ⟨head :: tail, .cons first rest⟩

/-- A conversion that may leave an element out, and leaves none. -/
theorem mapM_some {ε α β : Type} {convert : α → Except ε (Option β)} {items : List α} {made : List β}
    (each : List.Forall₂ (fun item made => convert item = .ok (some made)) items made) :
    items.mapM convert = .ok (made.map some) := by
  induction each with
  | nil => rfl
  | cons first rest ih =>
    simp only [List.mapM_cons, first, ih]
    rfl

end SogeconApp.Library
