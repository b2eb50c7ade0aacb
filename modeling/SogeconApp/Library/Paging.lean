import Mathlib.Data.List.Pairwise
import SogeconApp.Library.Sql

/-!
# Reading a table page by page

Each page is a query of its own: ORDER BY fixes the rows up to ties, and every query may
arrange the rows of a tie in its own way. The pages together hold every row exactly once,
whatever the arrangements, if and only if no page ends inside a tie.
-/

namespace SogeconApp.Library

variable {Row : Type}

/-- A row is on a page exactly if its position lies between the offset and the limit behind it. -/
theorem mem_page {limit offset : Nat} {rows : List Row} {row : Row} :
    row ∈ page limit offset rows ↔ ∃ i, offset ≤ i ∧ i < offset + limit ∧ rows[i]? = some row := by
  rw [page, List.mem_iff_getElem?]
  constructor
  · intro ⟨i, found⟩
    rw [List.getElem?_take] at found
    split at found
    · rename_i below
      rw [List.getElem?_drop] at found
      exact ⟨offset + i, by omega, by omega, found⟩
    · cases found
  · intro ⟨i, from_, below, found⟩
    have shifted : offset + (i - offset) = i := by omega
    have within : i - offset < limit := by omega
    exact ⟨i - offset, by rw [List.getElem?_take, if_pos within, List.getElem?_drop, shifted, found]⟩

theorem length_page (limit offset : Nat) (rows : List Row) :
    (page limit offset rows).length = min limit (rows.length - offset) := by
  rw [page, List.length_take, List.length_drop]

theorem mem_of_mem_page {limit offset : Nat} {rows : List Row} {row : Row}
    (member : row ∈ page limit offset rows) :
    row ∈ rows :=
  List.mem_of_mem_drop (List.mem_of_mem_take member)

theorem page_nodup {limit offset : Nat} {rows : List Row} (unique : rows.Nodup) :
    (page limit offset rows).Nodup :=
  (unique.sublist (List.drop_sublist _ _)).sublist (List.take_sublist _ _)

/-- A row of a list without repetitions is on the page of its position. -/
theorem mem_page_of_position {size number : Nat} (positive : 0 < size) {front back : List Row} {row : Row}
    (unique : (front ++ row :: back).Nodup) :
    row ∈ page size (number * size) (front ++ row :: back) ↔ front.length / size = number := by
  have here : (front ++ row :: back)[front.length]? = some row := by simp
  rw [mem_page, Nat.div_eq_iff positive]
  constructor
  · intro ⟨i, from_, below, found⟩
    have bound : i < (front ++ row :: back).length := (List.getElem?_eq_some_iff.mp found).1
    have same : i = front.length := (List.getElem?_inj bound unique).mp (found.trans here.symm)
    omega
  · intro ⟨from_, below⟩
    exact ⟨front.length, from_, by omega, here⟩

namespace RowOrder

/-- What a query with this ORDER BY may answer before OFFSET and LIMIT. -/
structure Arranges (order : RowOrder Row) (rows arranged : List Row) : Prop where
  same : arranged.Perm rows
  sorted : arranged.Pairwise fun left right => order.le left right = true

/-- The rows are an answer that the database may give to a query with OFFSET and LIMIT. -/
def Answers (order : RowOrder Row) (rows : List Row) (limit offset : Nat) (answer : List Row) : Prop :=
  ∃ arranged, order.Arranges rows arranged ∧ answer = page limit offset arranged

/-- The order itself, stable or not, is one of the arrangements that a query may answer with. -/
theorem sort_arranges (order : RowOrder Row) (rows : List Row) : order.Arranges rows (order.sort rows) :=
  ⟨sort_perm order rows, sort_sorted order rows⟩

/-- The page of the sorted rows is one such answer. -/
theorem sort_answers (order : RowOrder Row) (rows : List Row) (limit offset : Nat) :
    order.Answers rows limit offset (page limit offset (order.sort rows)) :=
  ⟨_, sort_arranges order rows, rfl⟩

/-- Breaking ties leaves an arrangement of the order. -/
theorem Arranges.of_thenBy {order tie : RowOrder Row} {rows arranged : List Row}
    (arranges : (order.thenBy tie).Arranges rows arranged) : order.Arranges rows arranged :=
  ⟨arranges.same, arranges.sorted.imp fun below => (Bool.and_eq_true_iff.mp below).1⟩

theorem le_refl (order : RowOrder Row) (row : Row) : order.le row row = true := by
  cases order.total row row <;> assumption

/-- How many rows every arrangement has before the row. -/
def before (order : RowOrder Row) (rows : List Row) (row : Row) : Nat :=
  rows.countP fun other => !order.le row other

/-- How many rows there are up to the row, with all that tie with it. -/
def upTo (order : RowOrder Row) (rows : List Row) (row : Row) : Nat :=
  rows.countP fun other => order.le other row

/-- The first and the last position that a row can have are on one page. -/
def TiesOnOnePage (order : RowOrder Row) (rows : List Row) (size : Nat) : Prop :=
  ∀ row ∈ rows, order.before rows row / size = (order.upTo rows row - 1) / size

instance (order : RowOrder Row) (rows : List Row) (size : Nat) : Decidable (order.TiesOnOnePage rows size) :=
  inferInstanceAs (Decidable (∀ row ∈ rows, _ = _))

theorem thenBy_le (first second : RowOrder Row) (left right : Row) :
    (first.thenBy second).le left right =
      (first.le left right && (!first.le right left || second.le left right)) := rfl

theorem desc_le (order : RowOrder Row) (left right : Row) :
    order.desc.le left right = order.le right left := rfl

/-! ## Positions -/

section Positions

variable {order : RowOrder Row} {rows front back : List Row} {row : Row}

theorem Arranges.front_le (arranges : order.Arranges rows (front ++ row :: back)) :
    ∀ other ∈ front, order.le other row = true :=
  fun _ member => (List.pairwise_append.mp arranges.sorted).2.2 _ member _ List.mem_cons_self

theorem Arranges.le_back (arranges : order.Arranges rows (front ++ row :: back)) :
    ∀ other ∈ row :: back, order.le row other = true := by
  intro other member
  have sorted := (List.pairwise_append.mp arranges.sorted).2.1
  rcases List.mem_cons.mp member with same | later
  · rw [same]
    exact order.le_refl row
  · exact List.rel_of_pairwise_cons sorted later

theorem Arranges.count (arranges : order.Arranges rows (front ++ row :: back)) (test : Row → Bool) :
    rows.countP test = front.countP test + (row :: back).countP test := by
  rw [← arranges.same.countP_eq, List.countP_append]

/-- No arrangement has the row outside the range of its ties. -/
theorem Arranges.position (arranges : order.Arranges rows (front ++ row :: back)) :
    order.before rows row ≤ front.length ∧ front.length < order.upTo rows row := by
  constructor
  · have none : (row :: back).countP (fun other => !order.le row other) = 0 :=
      List.countP_eq_zero.mpr fun other member => by simp [arranges.le_back other member]
    have some : front.countP (fun other => !order.le row other) ≤ front.length := List.countP_le_length
    rw [before, arranges.count]
    omega
  · have all : front.countP (fun other => order.le other row) = front.length :=
      List.countP_eq_length.mpr arranges.front_le
    have own : 0 < (row :: back).countP fun other => order.le other row :=
      List.countP_pos_iff.mpr ⟨row, List.mem_cons_self, order.le_refl row⟩
    rw [upTo, arranges.count]
    omega

/-- Puts one row ahead of all others. -/
def ahead [DecidableEq Row] (row : Row) : RowOrder Row :=
  ascending fun other => if other = row then 0 else 1

theorem ahead_le [DecidableEq Row] {other : Row} (different : other ≠ row) :
    (ahead row).le other row = false := by
  simp [ahead, ascending, different]

/-- A row that is ahead of its ties has the first position. -/
theorem Arranges.first_position [DecidableEq Row] (unique : rows.Nodup)
    (arranges : (order.thenBy (ahead row)).Arranges rows (front ++ row :: back)) :
    front.length = order.before rows row := by
  have nodup := arranges.same.nodup_iff.mpr unique
  have strict (other : Row) (member : other ∈ front) : (!order.le row other) = true := by
    have different : other ≠ row :=
      (List.nodup_append.mp nodup).2.2 other member row List.mem_cons_self
    have below := arranges.front_le other member
    rw [thenBy_le, ahead_le different, Bool.or_false, Bool.and_eq_true] at below
    exact below.2
  have all : front.countP (fun other => !order.le row other) = front.length :=
    List.countP_eq_length.mpr strict
  have bound := arranges.of_thenBy.position.1
  rw [before, arranges.of_thenBy.count] at bound ⊢
  omega

/-- A row that is behind its ties has the last position. -/
theorem Arranges.last_position [DecidableEq Row] (unique : rows.Nodup)
    (arranges : (order.thenBy (ahead row).desc).Arranges rows (front ++ row :: back)) :
    front.length = order.upTo rows row - 1 := by
  have nodup := (List.nodup_append.mp (arranges.same.nodup_iff.mpr unique)).2.1
  have strict (other : Row) (member : other ∈ back) : ¬order.le other row = true := by
    have different : other ≠ row := fun same => (List.nodup_cons.mp nodup).1 (same ▸ member)
    have above := arranges.le_back other (List.mem_cons_of_mem row member)
    rw [thenBy_le, desc_le, ahead_le different, Bool.or_false, Bool.and_eq_true] at above
    simpa using above.2
  have none : back.countP (fun other => order.le other row) = 0 := List.countP_eq_zero.mpr strict
  have own : (row :: back).countP (fun other => order.le other row) = 1 := by
    rw [List.countP_cons, none, if_pos (order.le_refl row)]
  have some : front.countP (fun other => order.le other row) ≤ front.length := List.countP_le_length
  have bound := arranges.of_thenBy.position.2
  rw [upTo, arranges.of_thenBy.count, own] at bound ⊢
  omega

end Positions

/-! ## The pages of a table -/

section Pages

variable {order : RowOrder Row} {rows : List Row} {size count : Nat}

/-- The pages of queries that arrange the rows each in its own way. -/
def pages (size count : Nat) (arrangement : Nat → List Row) : List Row :=
  (List.range count).flatMap fun number => page size (number * size) (arrangement number)

/-- In every arrangement a row stands between those before it and those behind it. -/
theorem Arranges.split {arranged : List Row} {row : Row} (arranges : order.Arranges rows arranged)
    (member : row ∈ rows) : ∃ front back, arranged = front ++ row :: back :=
  List.append_of_mem (arranges.same.mem_iff.mpr member)

/-- Where every tie is on one page, the page of a row is the same in every arrangement. -/
theorem TiesOnOnePage.mem_page (ties : order.TiesOnOnePage rows size) (positive : 0 < size)
    (unique : rows.Nodup) {arranged : List Row} (arranges : order.Arranges rows arranged) {row : Row}
    (member : row ∈ rows) (number : Nat) :
    row ∈ page size (number * size) arranged ↔ order.before rows row / size = number := by
  obtain ⟨front, back, rfl⟩ := arranges.split member
  have position := arranges.position
  have low : order.before rows row / size ≤ front.length / size := Nat.div_le_div_right position.1
  have high : front.length / size ≤ (order.upTo rows row - 1) / size := Nat.div_le_div_right (by omega)
  have same := ties row member
  rw [mem_page_of_position positive (arranges.same.nodup_iff.mpr unique)]
  omega

/-- No row is on two pages, since the positions that it can have are all on one page. -/
theorem TiesOnOnePage.pages_nodup (ties : order.TiesOnOnePage rows size) (positive : 0 < size)
    (unique : rows.Nodup) {arrangement : Nat → List Row}
    (arranges : ∀ number, order.Arranges rows (arrangement number)) :
    (pages size count arrangement).Nodup := by
  apply List.nodup_flatMap.mpr
  constructor
  · intro number _
    exact page_nodup ((arranges number).same.nodup_iff.mpr unique)
  · apply List.nodup_range.imp
    intro number other different row member member'
    have present : row ∈ rows := (arranges number).same.mem_iff.mp (mem_of_mem_page member)
    have here := (ties.mem_page positive unique (arranges number) present number).mp member
    have there := (ties.mem_page positive unique (arranges other) present other).mp member'
    exact different (here.symm.trans there)

theorem before_lt {row : Row} (member : row ∈ rows) : order.before rows row < order.upTo rows row := by
  obtain ⟨front, back, split⟩ := (sort_arranges order rows).split member
  have position := (split ▸ sort_arranges order rows).position
  omega

theorem upTo_le (row : Row) : order.upTo rows row ≤ rows.length := List.countP_le_length

/-- The pages together hold every row exactly once, although each query may arrange the ties in its own
way. -/
theorem TiesOnOnePage.pages_perm (ties : order.TiesOnOnePage rows size) (positive : 0 < size)
    (unique : rows.Nodup) (covers : rows.length ≤ count * size) {arrangement : Nat → List Row}
    (arranges : ∀ number, order.Arranges rows (arrangement number)) :
    (pages size count arrangement).Perm rows := by
  apply (List.perm_ext_iff_of_nodup (ties.pages_nodup positive unique arranges) unique).mpr
  intro row
  rw [pages, List.mem_flatMap]
  constructor
  · intro ⟨number, _, member⟩
    exact (arranges number).same.mem_iff.mp (mem_of_mem_page member)
  · intro member
    have bound : order.before rows row < count * size :=
      Nat.lt_of_lt_of_le (before_lt member) ((upTo_le row).trans covers)
    have number : order.before rows row / size < count := (Nat.div_lt_iff_lt_mul positive).mpr bound
    exact ⟨_, List.mem_range.mpr number, (ties.mem_page positive unique (arranges _) member _).mpr rfl⟩

/-- A query may put a row before all that tie with it, and so on the page of its first position. -/
theorem exists_first (order : RowOrder Row) (positive : 0 < size) (unique : rows.Nodup) {row : Row}
    (member : row ∈ rows) :
    ∃ arranged, order.Arranges rows arranged ∧
      row ∈ page size (order.before rows row / size * size) arranged := by
  classical
  have arranges := sort_arranges (order.thenBy (ahead row)) rows
  obtain ⟨front, back, split⟩ := arranges.split member
  rw [split] at arranges
  have nodup := arranges.same.nodup_iff.mpr unique
  exact ⟨_, arranges.of_thenBy, (mem_page_of_position positive nodup).mpr
    (by rw [arranges.first_position unique])⟩

/-- A query may put a row behind all that tie with it, and so on the page of its last position. -/
theorem exists_last (order : RowOrder Row) (positive : 0 < size) (unique : rows.Nodup) {row : Row}
    (member : row ∈ rows) :
    ∃ arranged, order.Arranges rows arranged ∧
      row ∈ page size ((order.upTo rows row - 1) / size * size) arranged := by
  classical
  have arranges := sort_arranges (order.thenBy (ahead row).desc) rows
  obtain ⟨front, back, split⟩ := arranges.split member
  rw [split] at arranges
  have nodup := arranges.same.nodup_iff.mpr unique
  exact ⟨_, arranges.of_thenBy, (mem_page_of_position positive nodup).mpr
    (by rw [arranges.last_position unique])⟩

/-- Pages without repetitions have a row on one page only. -/
theorem page_unique {arrangement : Nat → List Row} (nodup : (pages size count arrangement).Nodup) {row : Row}
    {first last : Nat} (first_read : first < count) (last_read : last < count)
    (on_first : row ∈ page size (first * size) (arrangement first))
    (on_last : row ∈ page size (last * size) (arrangement last)) : first = last := by
  by_contra different
  have disjoint := (List.nodup_flatMap.mp nodup).2
  have symmetric : Std.Symm (Function.onFun List.Disjoint fun number =>
      page size (number * size) (arrangement number)) := ⟨fun _ _ apart => List.disjoint_symm apart⟩
  exact disjoint.forall (List.mem_range.mpr first_read) (List.mem_range.mpr last_read) different
    on_first on_last

/-- A row whose ties fall on two pages can be on both: the earlier page is read with the row
ahead of its ties, the others with the row behind them. -/
theorem ties_of_pages_perm (positive : 0 < size) (unique : rows.Nodup) (covers : rows.length ≤ count * size)
    (complete : ∀ arrangement : Nat → List Row, (∀ number, order.Arranges rows (arrangement number)) →
      (pages size count arrangement).Perm rows) : order.TiesOnOnePage rows size := by
  intro row member
  by_contra apart
  obtain ⟨early, early_arranges, on_first⟩ := exists_first order positive unique member
  obtain ⟨late, late_arranges, on_last⟩ := exists_last order positive unique member
  let arrangement (number : Nat) : List Row := if number = order.before rows row / size then early else late
  have arranges (number : Nat) : order.Arranges rows (arrangement number) := by
    by_cases here : number = order.before rows row / size
    · simpa only [arrangement, if_pos here] using early_arranges
    · simpa only [arrangement, if_neg here] using late_arranges
  have below : order.before rows row < order.upTo rows row := before_lt member
  have bound : order.upTo rows row ≤ count * size := (upTo_le row).trans covers
  apply apart
  apply page_unique ((complete arrangement arranges).nodup_iff.mpr unique)
  · exact (Nat.div_lt_iff_lt_mul positive).mpr (by omega)
  · exact (Nat.div_lt_iff_lt_mul positive).mpr (by omega)
  · simpa only [arrangement, if_true] using on_first
  · simpa only [arrangement, if_neg (Ne.symm apart)] using on_last

/-- The pages hold every row exactly once, however each query breaks ties, if and only if no
page ends inside a tie. -/
theorem pages_perm_iff (positive : 0 < size) (unique : rows.Nodup) (covers : rows.length ≤ count * size) :
    (∀ arrangement : Nat → List Row, (∀ number, order.Arranges rows (arrangement number)) →
      (pages size count arrangement).Perm rows) ↔ order.TiesOnOnePage rows size :=
  ⟨ties_of_pages_perm positive unique covers,
    fun ties _ arranges => ties.pages_perm positive unique covers arranges⟩

/-- The same about the answers to the queries of the pages. -/
theorem answers_perm_iff (positive : 0 < size) (unique : rows.Nodup) (covers : rows.length ≤ count * size) :
    (∀ answers : Nat → List Row, (∀ offset, order.Answers rows size offset (answers offset)) →
      ((List.range count).flatMap fun number => answers (number * size)).Perm rows) ↔
      order.TiesOnOnePage rows size := by
  rw [← pages_perm_iff positive unique covers]
  constructor
  · intro complete arrangement arranges
    have same (number : Nat) : arrangement (number * size / size) = arrangement number := by
      rw [Nat.mul_div_cancel number positive]
    have perm := complete (fun offset => page size offset (arrangement (offset / size)))
      fun offset => ⟨_, arranges (offset / size), rfl⟩
    simpa only [pages, same] using perm
  · intro complete answers admissible
    choose arrangement arranges eq using admissible
    have perm := complete (fun number => arrangement (number * size)) fun number => arranges (number * size)
    simpa only [pages, ← eq] using perm

theorem Answers.length {answer : List Row} {limit offset : Nat}
    (answers : order.Answers rows limit offset answer) :
    answer.length = min limit (rows.length - offset) := by
  obtain ⟨arranged, arranges, rfl⟩ := answers
  rw [length_page, arranges.same.length_eq]

end Pages

/-! ## Orders without ties -/

section Fixed

variable {order : RowOrder Row} {rows : List Row} {size count : Nat}

/-- An order that separates the rows leaves one arrangement. -/
theorem Arranges.eq_sort {arranged : List Row} (separates : order.Separates rows)
    (arranges : order.Arranges rows arranged) : arranged = order.sort rows := by
  have fixed := sort_arranges order rows
  refine (arranges.same.trans fixed.same.symm).eq_of_pairwise ?_ arranges.sorted fixed.sorted
  intro left right member member' below above
  exact separates left (arranges.same.mem_iff.mp member) right (fixed.same.mem_iff.mp member') below above

theorem flatMap_page (size count : Nat) (rows : List Row) :
    ((List.range count).flatMap fun number => page size (number * size) rows) = rows.take (count * size) := by
  induction count with
  | zero => simp
  | succ count ih =>
    rw [List.range_succ, List.flatMap_append, ih, List.flatMap_singleton, page, Nat.succ_mul, List.take_add]

/-- The pages of an order without ties are the sorted rows, one after the other. -/
theorem Separates.answers_eq (separates : order.Separates rows) (covers : rows.length ≤ count * size)
    {answers : Nat → List Row} (admissible : ∀ offset, order.Answers rows size offset (answers offset)) :
    ((List.range count).flatMap fun number => answers (number * size)) = order.sort rows := by
  have same (offset : Nat) : answers offset = page size offset (order.sort rows) := by
    obtain ⟨arranged, arranges, answer⟩ := admissible offset
    rw [answer, arranges.eq_sort separates]
  simp only [same]
  rw [flatMap_page]
  exact List.take_of_length_le (by rw [length_sort]; exact covers)

/-- An order that ends with the primary key, descending, separates the rows. -/
theorem thenBy_key_separates (first : RowOrder Row) {key : Row → Int} {table : List Row}
    (unique : (table.map key).Nodup) (sub : ∀ row ∈ rows, row ∈ table) :
    (first.thenBy (ascending key).desc).Separates rows :=
  (thenBy_separates (desc_separates (ascending_separates fun _ member _ member' =>
    eq_of_key unique member member'))).subset sub

end Fixed

end RowOrder

end SogeconApp.Library
