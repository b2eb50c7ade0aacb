import Mathlib.Data.List.Sort

/-!
# Reading tables

Conditions of a WHERE clause in three-valued logic, ORDER BY as a total preorder put
together from columns, and OFFSET/LIMIT. A clause selects a row when it is true; unknown
and false both leave the row out. An order with ties sorts by the order of the rows it is
given; an order that separates the rows sorts any two lists of the same rows alike.
-/

namespace SogeconApp.Library

/-- True, false, or unknown (`none`). -/
abbrev Truth := Option Bool

namespace Truth

def and : Truth → Truth → Truth
  | some false, _ => some false
  | _, some false => some false
  | some true, some true => some true
  | _, _ => none

def or : Truth → Truth → Truth
  | some true, _ => some true
  | _, some true => some true
  | some false, some false => some false
  | _, _ => none

def not : Truth → Truth := Option.map Bool.not

/-- `and_(*conditions)`. -/
def all (conditions : List Truth) : Truth := conditions.foldr and (some true)

variable {α : Type}

/-- A comparison of two nullable values. -/
def compare (test : α → α → Bool) (left right : Option α) : Truth :=
  match left, right with
  | some left, some right => some (test left right)
  | _, _ => none

def equals [DecidableEq α] (left right : Option α) : Truth :=
  compare (fun left right => decide (left = right)) left right

def isNull (value : Option α) : Truth := some value.isNone

def isNotNull (value : Option α) : Truth := some value.isSome

/-- `IN` a list of constants without NULL; no value is in the empty list, NULL included. -/
def isIn [DecidableEq α] (value : Option α) (list : List α) : Truth :=
  match list with
  | [] => some false
  | _ => value.map fun value => decide (value ∈ list)

def Holds (truth : Truth) : Prop := truth = some true

instance (truth : Truth) : Decidable truth.Holds := inferInstanceAs (Decidable (_ = _))

@[simp] theorem holds_some (value : Bool) : Holds (some value) ↔ value = true := by
  simp [Holds]

@[simp] theorem not_holds_unknown : ¬Holds none := nofun

@[simp] theorem holds_and (left right : Truth) : (and left right).Holds ↔ left.Holds ∧ right.Holds := by
  rcases left with _ | _ | _ <;> rcases right with _ | _ | _ <;> simp [and, Holds]

@[simp] theorem holds_or (left right : Truth) : (or left right).Holds ↔ left.Holds ∨ right.Holds := by
  rcases left with _ | _ | _ <;> rcases right with _ | _ | _ <;> simp [or, Holds]

@[simp] theorem holds_not (truth : Truth) : (not truth).Holds ↔ truth = some false := by
  rcases truth with _ | _ | _ <;> simp [not, Holds]

@[simp] theorem holds_all (conditions : List Truth) :
    (all conditions).Holds ↔ ∀ condition ∈ conditions, condition.Holds := by
  induction conditions with
  | nil => simp [all]
  | cons condition rest ih =>
    have step : all (condition :: rest) = and condition (all rest) := rfl
    rw [step, holds_and, ih, List.forall_mem_cons]

@[simp] theorem holds_compare (test : α → α → Bool) (left right : Option α) :
    (compare test left right).Holds ↔ ∃ a b, left = some a ∧ right = some b ∧ test a b = true := by
  cases left <;> cases right <;> simp [compare]

@[simp] theorem holds_equals [DecidableEq α] (left : Option α) (right : α) :
    (equals left (some right)).Holds ↔ left = some right := by
  cases left <;> simp [equals, compare]

@[simp] theorem holds_isNull (value : Option α) : (isNull value).Holds ↔ value = none := by
  simp [isNull]

@[simp] theorem holds_isNotNull (value : Option α) : (isNotNull value).Holds ↔ value ≠ none := by
  cases value <;> simp [isNotNull]

@[simp] theorem holds_isIn [DecidableEq α] (value : Option α) (list : List α) :
    (isIn value list).Holds ↔ ∃ member ∈ list, value = some member := by
  cases list <;> cases value <;> simp [isIn]

end Truth

variable {Row : Type}

/-- The rows that the clause selects. -/
def selectWhere (clause : Row → Truth) (rows : List Row) : List Row :=
  rows.filter fun row => (clause row).Holds

@[simp] theorem mem_selectWhere {clause : Row → Truth} {rows : List Row} {row : Row} :
    row ∈ selectWhere clause rows ↔ row ∈ rows ∧ (clause row).Holds := by
  simp [selectWhere]

/-- `LIMIT` and `OFFSET`. -/
def page (limit offset : Nat) (rows : List Row) : List Row := (rows.drop offset).take limit

theorem page_all {limit : Nat} {rows : List Row} (enough : rows.length ≤ limit) : page limit 0 rows = rows :=
  List.take_of_length_le enough

/-! ## Sorting -/

/-- A total preorder of rows. -/
structure RowOrder (Row : Type) where
  le : Row → Row → Bool
  total : ∀ left right, le left right = true ∨ le right left = true
  trans : ∀ first second third, le first second = true → le second third = true → le first third = true

namespace RowOrder

/-- Ascending in an integer column. -/
def ascending (column : Row → Int) : RowOrder Row where
  le left right := column left ≤ column right
  total _ _ := by simp only [decide_eq_true_eq]; omega
  trans _ _ _ := by simp only [decide_eq_true_eq]; omega

/-- By a column whose values have an order of their own. -/
def on {α : Type} (order : RowOrder α) (column : Row → α) : RowOrder Row where
  le left right := order.le (column left) (column right)
  total _ _ := order.total _ _
  trans _ _ _ := order.trans _ _ _

def desc (order : RowOrder Row) : RowOrder Row where
  le left right := order.le right left
  total left right := order.total right left
  trans first second third below above := order.trans third second first above below

/-- By the first order, and by the second where the first has a tie. -/
def thenBy (first second : RowOrder Row) : RowOrder Row where
  le left right := first.le left right && (!first.le right left || second.le left right)
  total left right := by
    simp only [Bool.and_eq_true, Bool.or_eq_true, Bool.not_eq_true']
    by_cases below : first.le left right = true
    · by_cases above : first.le right left = true
      · rcases second.total left right with two | two
        · exact .inl ⟨below, .inr two⟩
        · exact .inr ⟨above, .inr two⟩
      · exact .inl ⟨below, .inl (by simpa using above)⟩
    · have above := (first.total left right).resolve_left below
      exact .inr ⟨above, .inl (by simpa using below)⟩
  trans a b c := by
    simp only [Bool.and_eq_true, Bool.or_eq_true, Bool.not_eq_true']
    intro ⟨ab, tie⟩ ⟨bc, tie'⟩
    refine ⟨first.trans a b c ab bc, ?_⟩
    by_cases back : first.le c a = true
    · right
      have ba : first.le b a = true := first.trans b c a bc back
      have cb : first.le c b = true := first.trans c a b back ab
      apply second.trans a b c
      · exact tie.resolve_left (by simp [ba])
      · exact tie'.resolve_left (by simp [cb])
    · left
      simpa using back

/-- Descending with `nullslast`. -/
def descNullsLast (column : Row → Option Int) : RowOrder Row where
  le left right :=
    match column left, column right with
    | some left, some right => right ≤ left
    | none, some _ => false
    | _, none => true
  total left right := by cases column left <;> cases column right <;> simp; omega
  trans first second third := by
    cases column first <;> cases column second <;> cases column third <;> simp
    omega

/-- Descending as PostgreSQL sorts without `nullslast`. -/
def descNullsFirst (column : Row → Option Int) : RowOrder Row where
  le left right :=
    match column left, column right with
    | some left, some right => right ≤ left
    | none, _ => true
    | some _, none => false
  total left right := by cases column left <;> cases column right <;> simp; omega
  trans first second third := by
    cases column first <;> cases column second <;> cases column third <;> simp
    omega

/-- Two rows of a tie are the same row. -/
def Separates (order : RowOrder Row) (rows : List Row) : Prop :=
  ∀ left ∈ rows, ∀ right ∈ rows, order.le left right = true → order.le right left = true → left = right

theorem thenBy_separates {first second : RowOrder Row} {rows : List Row} (last : second.Separates rows) :
    (first.thenBy second).Separates rows := by
  intro left member right member' below above
  simp only [thenBy, Bool.and_eq_true, Bool.or_eq_true, Bool.not_eq_true'] at below above
  apply last left member right member'
  · exact below.2.resolve_left (by simp [above.1])
  · exact above.2.resolve_left (by simp [below.1])

theorem desc_separates {order : RowOrder Row} {rows : List Row} (separates : order.Separates rows) :
    order.desc.Separates rows :=
  fun left member right member' below above => separates left member right member' above below

/-- An order by a column whose values are all different leaves no ties. -/
theorem ascending_separates {column : Row → Int} {rows : List Row}
    (key : ∀ left ∈ rows, ∀ right ∈ rows, column left = column right → left = right) :
    (ascending column).Separates rows := by
  intro left member right member' below above
  apply key left member right member'
  simp only [ascending, decide_eq_true_eq] at below above
  omega

theorem Separates.subset {order : RowOrder Row} {rows selected : List Row} (separates : order.Separates rows)
    (sub : ∀ row ∈ selected, row ∈ rows) : order.Separates selected :=
  fun left member right member' => separates left (sub left member) right (sub right member')

/-- `ORDER BY`; rows of a tie stay in the order of the table. -/
def sort (order : RowOrder Row) (rows : List Row) : List Row :=
  rows.insertionSort fun left right => order.le left right = true

/-- Sorting arranges the rows and neither adds nor loses one. -/
theorem sort_perm (order : RowOrder Row) (rows : List Row) : (order.sort rows).Perm rows :=
  List.perm_insertionSort _ rows

@[simp] theorem mem_sort {order : RowOrder Row} {rows : List Row} {row : Row} :
    row ∈ order.sort rows ↔ row ∈ rows := (sort_perm order rows).mem_iff

@[simp] theorem length_sort (order : RowOrder Row) (rows : List Row) :
    (order.sort rows).length = rows.length := (sort_perm order rows).length_eq

/-- Sorted rows stand in the order, each of them before all that follow it. -/
theorem sort_sorted (order : RowOrder Row) (rows : List Row) :
    (order.sort rows).Pairwise fun left right => order.le left right = true := by
  have total : Std.Total fun left right : Row => order.le left right = true := ⟨order.total⟩
  have trans : IsTrans Row fun left right => order.le left right = true := ⟨order.trans⟩
  exact List.pairwise_insertionSort _ rows

/-- The same rows sort alike under an order that separates them. -/
theorem sort_eq_of_same (order : RowOrder Row) {rows rows' : List Row} (unique : rows.Nodup)
    (unique' : rows'.Nodup) (same : ∀ row, row ∈ rows ↔ row ∈ rows') (separates : order.Separates rows) :
    order.sort rows = order.sort rows' := by
  have perm : (order.sort rows).Perm (order.sort rows') :=
    (sort_perm order rows).trans
      (((List.perm_ext_iff_of_nodup unique unique').mpr same).trans (sort_perm order rows').symm)
  refine perm.eq_of_pairwise ?_ (sort_sorted order rows) (sort_sorted order rows')
  intro left right member member' below above
  exact separates left (mem_sort.mp member) right ((same right).mpr (mem_sort.mp member')) below above

end RowOrder

/-! ## Keyed tables -/

/-- Two rows with the same value of a unique key are one row. -/
theorem eq_of_key {Key : Type} {key : Row → Key} {rows : List Row} (unique : (rows.map key).Nodup)
    {left right : Row} (member : left ∈ rows) (member' : right ∈ rows) (same : key left = key right) :
    left = right :=
  List.inj_on_of_nodup_map unique member member' same

/-- A condition that fixes the key finds the one row that it holds of. -/
theorem find_iff_of_key {Key : Type} {key : Row → Key} {rows : List Row} (unique : (rows.map key).Nodup)
    {condition : Row → Bool} {value : Key} (keyed : ∀ row, condition row = true → key row = value) (row : Row) :
    rows.find? condition = some row ↔ row ∈ rows ∧ condition row = true := by
  constructor
  · intro found
    exact ⟨List.mem_of_find?_eq_some found, List.find?_some found⟩
  · intro ⟨member, holds⟩
    cases found : rows.find? condition with
    | none => exact absurd holds (List.find?_eq_none.mp found row member)
    | some other =>
      have same : key other = key row :=
        (keyed other (List.find?_some found)).trans (keyed row holds).symm
      rw [eq_of_key unique (List.mem_of_find?_eq_some found) member same]

/-- Two tables that share the rows of a condition find the same row. -/
theorem find_eq_of_same {Key : Type} {key : Row → Key} {rows rows' : List Row}
    (unique : (rows.map key).Nodup) (unique' : (rows'.map key).Nodup) {condition : Row → Bool} {value : Key}
    (keyed : ∀ row, condition row = true → key row = value)
    (same : ∀ row, condition row = true → (row ∈ rows ↔ row ∈ rows')) :
    rows.find? condition = rows'.find? condition := by
  apply Option.ext
  intro row
  rw [find_iff_of_key unique keyed, find_iff_of_key unique' keyed]
  constructor
  · intro ⟨member, holds⟩
    exact ⟨(same row holds).mp member, holds⟩
  · intro ⟨member, holds⟩
    exact ⟨(same row holds).mpr member, holds⟩

/-- A second condition on the row that was found. -/
theorem find_filter_of_key {Key : Type} {key : Row → Key} {rows : List Row} (unique : (rows.map key).Nodup)
    {condition extra : Row → Bool} {value : Key} (keyed : ∀ row, condition row = true → key row = value) :
    (rows.find? condition).filter extra = rows.find? fun row => condition row && extra row := by
  have keyed' (row : Row) (holds : (condition row && extra row) = true) : key row = value :=
    keyed row (Bool.and_eq_true_iff.mp holds).1
  apply Option.ext
  intro row
  rw [Option.filter_eq_some_iff, find_iff_of_key unique keyed, find_iff_of_key unique keyed',
    Bool.and_eq_true, and_assoc]

end SogeconApp.Library
