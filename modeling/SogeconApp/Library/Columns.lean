import Mathlib.Logic.Function.Basic

/-!
# Columns, mapped objects and partial updates

A mapped object has an attribute for each column of its table, and any of them may be null,
whatever the column allows. A row holds what the column types have stored, and no null where the
column is NOT NULL. To store an object is to check it column by column: some columns refuse the
type or the size of their value, others the null. A partial update sets some of the attributes of
an object that was loaded from a row, so what it sets decides alone whether it can be stored.
-/

namespace SogeconApp.Library

/-- A column type: what it stores for a value, if it takes the value, and what is read back. -/
structure Column (α β : Type) where
  accept : α → Option β
  load : β → α
  accept_load : ∀ stored, accept (load stored) = some stored

namespace Column

variable {α β : Type}

/-- A column of any value of the type. -/
def whole (α : Type) : Column α α where
  accept := some
  load value := value
  accept_load _ := rfl

/-- A column of the values that meet a condition, after they have been cut to size. -/
def checked (fits : α → Prop) [DecidablePred fits] (cut : α → α)
    (cut_fit : ∀ value, fits value → cut value = value) : Column α { value : α // fits value } where
  accept value := if fit : fits (cut value) then some ⟨cut value, fit⟩ else none
  load stored := stored.val
  accept_load := by
    rintro ⟨value, fit⟩
    have same := cut_fit value fit
    simp only [same, fit, dite_true]

@[simp] theorem accept_whole (value : α) : (whole α).accept value = some value := rfl

/-- A column with a condition takes the values that meet it once they have been cut to size. -/
theorem accept_checked {fits : α → Prop} [DecidablePred fits] {cut : α → α}
    {cut_fit : ∀ value, fits value → cut value = value} (value : α) :
    ((checked fits cut cut_fit).accept value).isSome = true ↔ fits (cut value) := by
  simp only [checked]
  split
  · next fit => simp [fit]
  · next unfit => simp [unfit]

theorem stored_checked {fits : α → Prop} [DecidablePred fits] {cut : α → α}
    {cut_fit : ∀ value, fits value → cut value = value} {value : α}
    {stored : { value : α // fits value }}
    (accepted : (checked fits cut cut_fit).accept value = some stored) :
    stored.val = cut value := by
  simp only [checked] at accepted
  split at accepted
  · cases accepted
    rfl
  · cases accepted

/-- The value that a field of a payload is set to, if it is set to one, is one the column takes. -/
def Fits (column : Column α β) (field : Option (Option α)) : Prop :=
  ∀ value, field = some (some value) → (column.accept value).isSome = true

instance (column : Column α β) (field : Option (Option α)) : Decidable (column.Fits field) :=
  match field with
  | none => isTrue fun _ same => by cases same
  | some none => isTrue fun _ same => by cases same
  | some (some value) =>
    decidable_of_iff ((column.accept value).isSome = true) <| by
      constructor
      · intro accepted _ same
        cases same
        exact accepted
      · intro fits
        exact fits value rfl

@[simp] theorem fits_unset (column : Column α β) : column.Fits none := fun _ same => by cases same

@[simp] theorem fits_null (column : Column α β) : column.Fits (some none) :=
  fun _ same => by cases same

@[simp] theorem fits_whole (field : Option (Option α)) : (whole α).Fits field := fun _ _ => rfl

end Column

/-! ## Checking an object -/

/-- The row of an object, or the columns that refuse: those that do not take their value, and those
that must not be null. -/
structure Checked (ρ : Type) where
  value : Option ρ
  unfit : List String
  nulls : List String
  passes : value.isSome = true ↔ unfit = [] ∧ nulls = []

namespace Checked

variable {α β : Type}

def pass (value : α) : Checked α where
  value := some value
  unfit := []
  nulls := []
  passes := by simp

def seq (first : Checked (α → β)) (second : Checked α) : Checked β where
  value := first.value.bind fun make => second.value.map make
  unfit := first.unfit ++ second.unfit
  nulls := first.nulls ++ second.nulls
  passes := by
    have both : (first.value.bind fun make => second.value.map make).isSome =
        (first.value.isSome && second.value.isSome) := by
      cases first.value <;> cases second.value <;> rfl
    rw [both, Bool.and_eq_true, first.passes, second.passes, List.append_eq_nil_iff,
      List.append_eq_nil_iff]
    exact and_and_and_comm

instance : Applicative Checked where
  pure := pass
  seq first second := seq first (second ())

/-- A row that passes is made of columns that pass. -/
theorem passed_seq {first : Checked (α → β)} {second : Checked α} {made : β}
    (passed : (first <*> second).value = some made) :
    ∃ make value, first.value = some make ∧ second.value = some value ∧ make value = made := by
  obtain ⟨make, makes, rest⟩ := Option.bind_eq_some_iff.mp passed
  obtain ⟨value, has, same⟩ := Option.map_eq_some_iff.mp rest
  exact ⟨make, value, makes, has, same⟩

/-- The row of an object is put together from columns that have all passed. -/
theorem passed_map {make : α → β} {second : Checked α} {made : β}
    (passed : (make <$> second).value = some made) :
    ∃ value, second.value = some value ∧ make value = made :=
  Option.map_eq_some_iff.mp passed

@[simp] theorem unfit_seq (first : Checked (α → β)) (second : Checked α) :
    (first <*> second).unfit = first.unfit ++ second.unfit := rfl

@[simp] theorem nulls_seq (first : Checked (α → β)) (second : Checked α) :
    (first <*> second).nulls = first.nulls ++ second.nulls := rfl

@[simp] theorem value_pure (value : α) : (pure value : Checked α).value = some value := rfl

@[simp] theorem unfit_pure (value : α) : (pure value : Checked α).unfit = [] := rfl

@[simp] theorem nulls_pure (value : α) : (pure value : Checked α).nulls = [] := rfl

@[simp] theorem value_seq (first : Checked (α → β)) (second : Checked α) :
    (first <*> second).value = first.value.bind fun make => second.value.map make := rfl

@[simp] theorem value_map (make : α → β) (second : Checked α) :
    (make <$> second).value = second.value.map make := rfl

@[simp] theorem unfit_map (make : α → β) (second : Checked α) :
    (make <$> second).unfit = second.unfit := rfl

@[simp] theorem nulls_map (make : α → β) (second : Checked α) :
    (make <$> second).nulls = second.nulls := rfl

end Checked

namespace Column

variable {α β : Type} (column : Column α β) (name : String)

/-- A value that is not null. -/
def given (value : α) : Checked β :=
  match column.accept value with
  | some stored => .pass stored
  | none => { value := none, unfit := [name], nulls := [], passes := by simp }

/-- A column that is NOT NULL. -/
def required : Option α → Checked β
  | none => { value := none, unfit := [], nulls := [name], passes := by simp }
  | some value => column.given name value

def optional : Option α → Checked (Option β)
  | none => .pass none
  | some value => some <$> column.given name value

variable {column} {name}

theorem unfit_given {value : α} :
    (column.given name value).unfit = [] ↔ (column.accept value).isSome = true := by
  unfold given
  split
  · next stored accepted => simp [accepted, Checked.pass]
  · next refused => simp [refused]

theorem nulls_given {value : α} : (column.given name value).nulls = [] := by
  unfold given
  split <;> rfl

/-- What a column has loaded it stores again, so an attribute that is not set never refuses. -/
theorem unfit_load (stored : β) : (column.given name (column.load stored)).unfit = [] := by
  rw [unfit_given, column.accept_load]
  rfl

theorem value_given (stored : β) :
    (column.given name (column.load stored)).value = some stored := by
  unfold given
  rw [column.accept_load]
  rfl

@[simp] theorem required_load (stored : β) :
    (column.required name (some (column.load stored))).value = some stored :=
  value_given stored

@[simp] theorem optional_load (stored : Option β) :
    (column.optional name (stored.map column.load)).value = some stored := by
  cases stored with
  | none => rfl
  | some stored =>
    rw [Option.map_some, optional, Checked.value_map, value_given]
    rfl

/-- What a column that is NOT NULL stores is what it takes of the value. -/
theorem passed_required {value : Option α} {stored : β}
    (passed : (column.required name value).value = some stored) :
    ∃ set, value = some set ∧ column.accept set = some stored := by
  cases value with
  | none => cases passed
  | some set =>
    simp only [required, given] at passed
    split at passed
    · next taken accepted =>
      rw [← passed]
      exact ⟨set, rfl, accepted⟩
    · cases passed

/-- A partial update stores what the column takes of the value that it sets, and leaves the column
that it does not set. -/
theorem stored_required {field : Option (Option α)} {before stored : β}
    (passed : (column.required name (field.getD (some (column.load before)))).value = some stored) :
    (field = none → stored = before) ∧
      ∀ value, field = some value → ∃ set, value = some set ∧ column.accept set = some stored := by
  constructor
  · rintro rfl
    rw [Option.getD_none, required_load, Option.some.injEq] at passed
    exact passed.symm
  · rintro value rfl
    exact passed_required passed

/-- A nullable column keeps its value without a field, is null after a null, and takes what it is set to
otherwise. -/
theorem stored_optional {field : Option (Option α)} {before stored : Option β}
    (passed : (column.optional name (field.getD (before.map column.load))).value = some stored) :
    (field = none → stored = before) ∧ (field = some none → stored = none) ∧
      ∀ set, field = some (some set) → ∃ kept, column.accept set = some kept ∧ stored = some kept := by
  refine ⟨?_, ?_, ?_⟩
  · rintro rfl
    rw [Option.getD_none, optional_load, Option.some.injEq] at passed
    exact passed.symm
  · rintro rfl
    cases passed
    rfl
  · rintro set rfl
    obtain ⟨kept, given_, rfl⟩ := Checked.passed_map passed
    simp only [given] at given_
    split at given_
    · next taken accepted =>
      cases given_
      exact ⟨_, accepted, rfl⟩
    · cases given_

/-- What a partial update does to a column that is NOT NULL. -/
theorem unfit_required (field : Option (Option α)) (stored : β) :
    (column.required name (field.getD (some (column.load stored)))).unfit = [] ↔
      column.Fits field := by
  cases field with
  | none => simp [required, unfit_load]
  | some set =>
    cases set with
    | none => simp [required]
    | some value =>
      simp only [required, Option.getD_some, unfit_given]
      constructor
      · intro accepted _ same
        cases same
        exact accepted
      · intro fits
        exact fits value rfl

/-- Among the fields of an update only a null sets a NOT NULL column to null. -/
theorem nulls_required (field : Option (Option α)) (stored : β) :
    (column.required name (field.getD (some (column.load stored)))).nulls = [] ↔
      field ≠ some none := by
  cases field with
  | none => simp [required, nulls_given]
  | some set => cases set <;> simp [required, nulls_given]

/-- What a partial update does to a column that may be null. -/
theorem unfit_optional (field : Option (Option α)) (stored : Option β) :
    (column.optional name (field.getD (stored.map column.load))).unfit = [] ↔
      column.Fits field := by
  cases field with
  | none => cases stored <;> simp [optional, unfit_load, Checked.pass]
  | some set =>
    cases set with
    | none => simp [optional, Checked.pass]
    | some value =>
      simp only [optional, Option.getD_some, Checked.unfit_map, unfit_given]
      constructor
      · intro accepted _ same
        cases same
        exact accepted
      · intro fits
        exact fits value rfl

theorem nulls_optional (value : Option α) : (column.optional name value).nulls = [] := by
  cases value with
  | none => rfl
  | some value =>
    rw [optional, Checked.nulls_map, nulls_given]

end Column

/-! ## Updating a row -/

/-- A mapped class: the object of a row, and the row that an object would be stored as. -/
structure Mapping (ρ ο : Type) where
  load : ρ → ο
  check : ο → Checked ρ
  check_load : ∀ row, (check (load row)).value = some row

/-- Why the database refuses a row: a value that a column type does not take, a null, or a key of a
unique index that another row has. -/
inductive Refusal (κ : Type) where
  | data (columns : List String)
  | notNull (columns : List String)
  | unique (index : κ)
  deriving DecidableEq, Repr

/-- What an update leaves behind. -/
structure Outcome (ε ρ : Type) where
  reply : Except ε ρ
  table : Int → Option ρ
  /-- The NOT NULL columns that a statement sets to null. -/
  nullsSent : List String

namespace Outcome

variable {ε ρ : Type}

/-- An exception before anything is written. -/
def raised (table : Int → Option ρ) (reason : ε) : Outcome ε ρ where
  reply := .error reason
  table := table
  nullsSent := []

/-- An exception handler: what it raises in place of an exception. -/
def rescue (handler : ε → ε) (outcome : Outcome ε ρ) : Outcome ε ρ :=
  { outcome with
    reply :=
      match outcome.reply with
      | .ok row => .ok row
      | .error reason => .error (handler reason) }

end Outcome

namespace Mapping

variable {ρ ο ε κ : Type} [DecidableEq ο] (mapping : Mapping ρ ο)

/-- The `UPDATE` of a row from its object, and the commit. Nothing is sent for an object that is as
it was loaded. A type error comes before a null, a null before a key that is taken. -/
def save (clash : ρ → Option κ) (raise : Refusal κ → ε) (table : Int → Option ρ)
    (id : Int) (row : ρ) (latest : ο) : Outcome ε ρ :=
  if latest = mapping.load row then { reply := .ok row, table, nullsSent := [] }
  else
    match (mapping.check latest).value with
    | some stored =>
      match clash stored with
      | none =>
        { reply := .ok stored, table := Function.update table id (some stored), nullsSent := [] }
      | some index => { reply := .error (raise (.unique index)), table, nullsSent := [] }
    | none =>
      { reply := .error <| raise <|
          if (mapping.check latest).unfit = [] then .notNull (mapping.check latest).nulls
          else .data (mapping.check latest).unfit
        table
        nullsSent := (mapping.check latest).nulls }

end Mapping

/-- The update succeeds with no null in a NOT NULL column, or raises one of the component's own
errors and leaves the table as it was; and no statement sets a NOT NULL column to null. -/
structure Outcome.Sound {ε ρ ο : Type} (own : ε → Prop) (mapping : Mapping ρ ο)
    (table : Int → Option ρ) (id : Int) (outcome : Outcome ε ρ) : Prop where
  ends :
    (∃ row, outcome.reply = .ok row ∧ outcome.table = Function.update table id (some row) ∧
      (mapping.check (mapping.load row)).nulls = []) ∨
    ∃ reason, outcome.reply = .error reason ∧ own reason ∧ outcome.table = table
  quiet : outcome.nullsSent = []

section Sound

variable {ρ ο ε : Type} {mapping : Mapping ρ ο} {table : Int → Option ρ} {id : Int} {own : ε → Prop}

/-- An error of the component's own, raised before anything is written, leaves the table whole. -/
theorem Outcome.raised_sound {reason : ε} (known : own reason) :
    (Outcome.raised table reason).Sound own mapping table id where
  ends := .inr ⟨reason, rfl, known, rfl⟩
  quiet := rfl

theorem Outcome.raised_unsound {reason : ε} (unknown : ¬own reason) :
    ¬(Outcome.raised table reason).Sound own mapping table id := by
  intro sound
  rcases sound.ends with ⟨row, done, -⟩ | ⟨other, done, known, -⟩
  · cases done
  · cases done
    exact unknown known

theorem Mapping.nulls_load (mapping : Mapping ρ ο) (row : ρ) :
    (mapping.check (mapping.load row)).nulls = [] := by
  have passed : (mapping.check (mapping.load row)).value.isSome = true := by
    rw [mapping.check_load]
    rfl
  exact ((mapping.check (mapping.load row)).passes.mp passed).2

/-- A row that is returned as it is. -/
theorem Outcome.unchanged_sound {row : ρ} (found : table id = some row) :
    ({ reply := .ok row, table, nullsSent := [] } : Outcome ε ρ).Sound own mapping table id := by
  have same : table = Function.update table id (some row) := by
    rw [← found, Function.update_eq_self]
  exact ⟨.inl ⟨row, rfl, same, mapping.nulls_load row⟩, rfl⟩

end Sound

section Save

variable {ρ ο ε κ : Type} [DecidableEq ο] {mapping : Mapping ρ ο} {clash : ρ → Option κ}
    {raise : Refusal κ → ε}
  {table : Int → Option ρ} {id : Int} {row : ρ} {latest : ο} {own : ε → Prop}

/-- A handler is a change of what the update raises. -/
theorem Mapping.rescue_save (handler : ε → ε) :
    (mapping.save clash raise table id row latest).rescue handler =
      mapping.save clash (fun refusal => handler (raise refusal)) table id row latest := by
  unfold Mapping.save
  split
  · rfl
  · split
    · split <;> rfl
    · rfl

/-- The row that an update returns is the one that the object is checked to be. -/
theorem Mapping.save_reply (mapping : Mapping ρ ο) {stored : ρ}
    (done : (mapping.save clash raise table id row latest).reply = .ok stored) :
    (mapping.check latest).value = some stored := by
  unfold Mapping.save at done
  split at done
  · next unchanged =>
    cases done
    rw [unchanged, mapping.check_load]
  · split at done
    · next kept checked =>
      split at done
      · cases done
        exact checked
      · cases done
    · cases done

/-- What an update does to the table: nothing, or it stores the row that the object is checked to be. -/
theorem Mapping.save_cases (mapping : Mapping ρ ο) :
    (mapping.save clash raise table id row latest).table = table ∨
    ∃ stored, (mapping.check latest).value = some stored ∧
      (mapping.save clash raise table id row latest).table =
        Function.update table id (some stored) := by
  unfold Mapping.save
  split
  · exact .inl rfl
  · split
    · next stored checked =>
      split
      · exact .inr ⟨stored, checked, rfl⟩
      · exact .inl rfl
    · exact .inl rfl

/-- An update of a row is sound if and only if every column takes its value and none that is NOT
NULL is null, where the component tells its clients of taken keys and not of type errors. -/
theorem Mapping.save_sound (mapping : Mapping ρ ο) (found : table id = some row)
    (taken : ∀ stored index, clash stored = some index → own (raise (.unique index)))
    (mistyped : ∀ columns, ¬own (raise (.data columns))) :
    (mapping.save clash raise table id row latest).Sound own mapping table id ↔
      (mapping.check latest).unfit = [] ∧ (mapping.check latest).nulls = [] := by
  have passes := (mapping.check latest).passes
  unfold Mapping.save
  split
  · next unchanged =>
    have passed : (mapping.check latest).value.isSome = true := by
      rw [unchanged, mapping.check_load]
      rfl
    exact iff_of_true (Outcome.unchanged_sound found) (passes.mp passed)
  · split
    · next stored checked =>
      have passed : (mapping.check latest).value.isSome = true := by
        rw [checked]
        rfl
      refine ⟨fun _ => passes.mp passed, fun _ => ?_⟩
      split
      · exact ⟨.inl ⟨stored, rfl, rfl, mapping.nulls_load stored⟩, rfl⟩
      · next index clashes => exact ⟨.inr ⟨_, rfl, taken stored index clashes, rfl⟩, rfl⟩
    · next refused =>
      have failed : ¬((mapping.check latest).unfit = [] ∧ (mapping.check latest).nulls = []) := by
        intro clean
        have passed := passes.mpr clean
        rw [refused] at passed
        cases passed
      refine ⟨fun sound => (failed ?_).elim, fun clean => (failed clean).elim⟩
      have quiet : (mapping.check latest).nulls = [] := sound.quiet
      have unfit : (mapping.check latest).unfit ≠ [] := fun fit => failed ⟨fit, quiet⟩
      rcases sound.ends with ⟨row, done, -⟩ | ⟨reason, done, known, -⟩
      · cases done
      · cases done
        rw [if_neg unfit] at known
        exact (mistyped _ known).elim

end Save

end SogeconApp.Library
