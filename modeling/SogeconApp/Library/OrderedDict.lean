import Mathlib.Data.List.Nodup

/-!
# Ordered dictionaries

A dictionary whose keys stand in an order: a new key comes last, a key that is set again keeps its place,
and a key can be moved to the end.
-/

namespace SogeconApp.Library

structure OrderedDict (κ α : Type) where
  entries : List (κ × α)
  unique : (entries.map Prod.fst).Nodup

namespace OrderedDict

variable {κ α : Type}

def empty : OrderedDict κ α where
  entries := []
  unique := List.nodup_nil

def size (dict : OrderedDict κ α) : Nat := dict.entries.length

/-- The first entry is taken out. -/
def popFirst (dict : OrderedDict κ α) : OrderedDict κ α where
  entries := dict.entries.tail
  unique := by
    rw [List.map_tail]
    exact dict.unique.tail

theorem mem_popFirst {dict : OrderedDict κ α} {entry : κ × α} (member : entry ∈ dict.popFirst.entries) :
    entry ∈ dict.entries := List.mem_of_mem_tail member

theorem size_popFirst (dict : OrderedDict κ α) : dict.popFirst.size = dict.size - 1 := List.length_tail

variable [DecidableEq κ]

def get (dict : OrderedDict κ α) (key : κ) : Option α :=
  (dict.entries.find? fun entry => entry.1 = key).map Prod.snd

theorem map_fst_setAt (entries : List (κ × α)) (key : κ) (value : α) :
    (entries.map fun entry => if entry.1 = key then (key, value) else entry).map Prod.fst =
      entries.map Prod.fst := by
  rw [List.map_map]
  refine List.map_congr_left fun entry _ => ?_
  by_cases same : entry.1 = key
  · simp [same]
  · simp [same]

def set (dict : OrderedDict κ α) (key : κ) (value : α) : OrderedDict κ α where
  entries :=
    if key ∈ dict.entries.map Prod.fst then
      dict.entries.map fun entry => if entry.1 = key then (key, value) else entry
    else dict.entries ++ [(key, value)]
  unique := by
    split
    · rw [map_fst_setAt]
      exact dict.unique
    · next new =>
      rw [List.map_append]
      exact dict.unique.append (List.nodup_singleton _) (by simpa using new)

def moveToEnd (dict : OrderedDict κ α) (key : κ) : OrderedDict κ α where
  entries :=
    match dict.entries.find? fun entry => entry.1 = key with
    | some entry => (dict.entries.filter fun other => other.1 ≠ key) ++ [entry]
    | none => dict.entries
  unique := by
    split
    · next entry found =>
      have same : entry.1 = key := by simpa using List.find?_some found
      rw [List.map_append]
      refine (dict.unique.sublist (List.filter_sublist.map _)).append (List.nodup_singleton _) ?_
      simp [same]
    · exact dict.unique

variable {dict : OrderedDict κ α} {key : κ} {value : α} {entry : κ × α}

theorem mem_of_get (found : dict.get key = some value) : (key, value) ∈ dict.entries := by
  obtain ⟨⟨name, held⟩, listed, rfl⟩ := Option.map_eq_some_iff.mp found
  have same : name = key := by simpa using List.find?_some listed
  subst same
  exact List.mem_of_find?_eq_some listed

theorem mem_set (member : entry ∈ (dict.set key value).entries) :
    entry = (key, value) ∨ entry ∈ dict.entries := by
  simp only [set] at member
  split at member
  · obtain ⟨old, listed, rfl⟩ := List.mem_map.mp member
    split
    · exact .inl rfl
    · exact .inr listed
  · rw [List.mem_append, List.mem_singleton] at member
    exact member.symm

theorem mem_moveToEnd (member : entry ∈ (dict.moveToEnd key).entries) : entry ∈ dict.entries := by
  simp only [moveToEnd] at member
  split at member
  · next last found =>
    rw [List.mem_append, List.mem_singleton] at member
    rcases member with kept | rfl
    · exact List.mem_of_mem_filter kept
    · exact List.mem_of_find?_eq_some found
  · exact member

theorem size_set_le : (dict.set key value).size ≤ dict.size + 1 := by
  simp only [set, size]
  split
  · rw [List.length_map]
    omega
  · simp

theorem size_moveToEnd_le : (dict.moveToEnd key).size ≤ dict.size := by
  simp only [moveToEnd, size]
  split
  · next last found =>
    have same : ¬decide (last.1 ≠ key) = true := by simpa using List.find?_some found
    have fewer : (dict.entries.filter fun other => other.1 ≠ key).length < dict.entries.length :=
      List.length_filter_lt_length_iff_exists.mpr ⟨last, List.mem_of_find?_eq_some found, same⟩
    rw [List.length_append, List.length_singleton]
    omega
  · exact Nat.le_refl _

end OrderedDict

end SogeconApp.Library
