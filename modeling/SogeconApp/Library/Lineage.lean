import SogeconApp.Library.Versions

/-!
# What becomes of a row

The keys of a table come from a sequence, and a row that is there is rewritten along a relation that is
reflexive and transitive. Then what any later state has under the key of a committed row is related to that row,
over any interleaving of the sessions; every row stems from one that was there or has been inserted; and a field
that no rewriting changes is what a session once read.
-/

namespace SogeconApp.Library.Table

variable {ρ γ : Type} {N N' : Int → ρ → Prop} {R R' : Int → ρ → Option ρ → Prop} {me : SessionId}
  {next next' key : Int}
  {table table' base : Table Int ρ}

/-- A row may stay, and what follows a change of it follows it. -/
structure Ordered (R : Int → ρ → Option ρ → Prop) : Prop where
  stays : ∀ key row, R key row (some row)
  follows : ∀ key row middle version, R key row (some middle) → R key middle version → R key row version

/-- What a statement, a commit or a rollback of the session does to the sequence and the rows. `N` holds of what is
inserted. -/
inductive Change (N : Int → ρ → Prop) (R : Int → ρ → Option ρ → Prop) (me : SessionId) :
    Int → Table Int ρ → Int → Table Int ρ → Prop where
  | skip {next next' : Int} {table : Table Int ρ} (later : next ≤ next') : Change N R me next table next' table
  | insert {next : Int} {table : Table Int ρ} {row : ρ} (born : N next row) :
      Change N R me next table (next + 1) (table.write me next (some row))
  | rewrite {next key : Int} {table : Table Int ρ} {row : ρ} {version : Option ρ}
    (seen : table.row me key = some row)
      (related : R key row version) : Change N R me next table next (table.write me key version)
  | commit {next : Int} {table : Table Int ρ} : Change N R me next table next (table.commit me)
  | abort {next : Int} {table : Table Int ρ} : Change N R me next table next (table.abort me)
  | trans {next next' next'' : Int} {table table' table'' : Table Int ρ}
    (first : Change N R me next table next' table')
      (second : Change N R me next' table' next'' table'') : Change N R me next table next'' table''

theorem Change.later (change : Change N R me next table next' table') : next ≤ next' := by
  induction change with
  | skip later => exact later
  | insert born => omega
  | rewrite | commit | abort => exact Int.le_refl _
  | trans first second later later' => exact Int.le_trans later later'

/-! ## Drafts over committed rows -/

/-- A key of the sequence that has not been given out has no row, and a draft is related to the committed row. -/
structure Lineage (R : Int → ρ → Option ρ → Prop) (next : Int) (table : Table Int ρ) : Prop where
  unused : ∀ key, next ≤ key → table.committed key = none ∧ (table.slot key).draft = none
  drafted : ∀ key owner version row, (table.slot key).draft = some (owner, version) →
    table.committed key = some row → R key row version

namespace Lineage

theorem mono (lineage : table.Lineage R next)
    (weaker : ∀ key row version, R key row version → R' key row version) :
    table.Lineage R' next where
  unused := lineage.unused
  drafted key owner version row drafted stored :=
    weaker key row version (lineage.drafted key owner version row drafted stored)

theorem used (lineage : table.Lineage R next) {row : ρ} (seen : table.row me key = some row) : key < next := by
  by_contra unused
  obtain ⟨missing, quiet⟩ := lineage.unused key (Int.not_lt.mp unused)
  have none_ : table.row me key = none := (Slot.row_of_no_draft quiet).trans missing
  rw [none_] at seen
  cases seen

/-- What a session sees is related to the committed row. -/
theorem seen (lineage : table.Lineage R next) (ordered : Ordered R) {row seen : ρ}
    (stored : table.committed key = some row)
    (sees : table.row me key = some seen) : R key row (some seen) := by
  rcases table.row_cases me key with same | drafted
  · rw [same, sees] at stored
    cases stored
    exact ordered.stays key row
  · rw [sees] at drafted
    exact lineage.drafted key me _ row drafted stored

/-- The end of a transaction. -/
theorem ended (lineage : table.Lineage R next) (ended : table.Ended me table') : table'.Lineage R next where
  unused key above := by
    obtain ⟨missing, quiet⟩ := lineage.unused key above
    refine ⟨?_, ?_⟩
    · rw [ended.kept key fun version => by simp [quiet], missing]
    · cases drafted : (table'.slot key).draft with
      | none => rfl
      | some held =>
        obtain ⟨before, -⟩ := (ended.draft key held.1 held.2).mp drafted
        rw [quiet] at before
        cases before
  drafted key owner version row drafted stored := by
    rw [ended.kept_of_draft drafted] at stored
    exact lineage.drafted key owner version row ((ended.draft key owner version).mp drafted).1 stored

/-- Every change that the relation allows keeps the lineage: a new key is past the others, a rewrite
composes with the draft. -/
theorem step (lineage : table.Lineage R next) (ordered : Ordered R)
    (change : Change N R me next table next' table') :
    table'.Lineage R next' := by
  induction change with
  | skip later => exact ⟨fun key unused => lineage.unused key (Int.le_trans later unused), lineage.drafted⟩
  | @insert next table row born =>
    refine ⟨fun key unused => ?_, fun key owner version latest drafted stored => ?_⟩
    · have other : key ≠ next := by omega
      rw [write_committed, write_slot_of_ne other]
      exact lineage.unused key (by omega)
    · rw [write_committed] at stored
      by_cases same : key = next
      · rw [same, (lineage.unused next (Int.le_refl _)).1] at stored
        cases stored
      · rw [write_slot_of_ne same] at drafted
        exact lineage.drafted key owner version latest drafted stored
  | @rewrite next key table row version seen related =>
    have below := lineage.used seen
    refine ⟨fun other unused => ?_, fun other owner latest first drafted stored => ?_⟩
    · have different : other ≠ key := by omega
      rw [write_committed, write_slot_of_ne different]
      exact lineage.unused other unused
    · rw [write_committed] at stored
      by_cases same : other = key
      · subst same
        rw [write_slot_self] at drafted
        cases drafted
        exact ordered.follows other first row version (lineage.seen ordered stored seen) related
      · rw [write_slot_of_ne same] at drafted
        exact lineage.drafted other owner latest first drafted stored
  | commit => exact lineage.ended (commit_ended me _)
  | abort => exact lineage.ended (abort_ended me _)
  | trans first second holds holds' => exact holds' (holds lineage)

end Lineage

theorem Quiet.lineage (quiet : table.Quiet) (unused : ∀ key, next ≤ key → table.committed key = none) :
    table.Lineage R next where
  unused key above := ⟨unused key above, quiet key⟩
  drafted key owner version row drafted _ := by
    rw [quiet key] at drafted
    cases drafted

theorem seeded_unused {rows : List (Int × ρ)} (below : ∀ row ∈ rows, row.1 < next) {key : Int}
    (above : next ≤ key) :
    (seeded rows).committed key = none := by
  have fold (table : Table Int ρ) (missing : table.committed key = none) (quiet : (table.slot key).draft = none) :
      (rows.foldl (fun table row => (table.write 0 row.1 (some row.2)).commit 0) table).committed key = none := by
    induction rows generalizing table with
    | nil => exact missing
    | cons row rest ih =>
      have other : key ≠ row.1 := by
        have := below row (by simp)
        omega
      have kept : ((table.write 0 row.1 (some row.2)).commit 0).slot key = table.slot key := by
        simp only [Table.commit, write_slot_of_ne other]
        exact Slot.commit_of_not_mine fun version => by simp [quiet]
      exact ih (fun later member => below later (List.mem_cons_of_mem _ member)) _
        ((congrArg (·.committed) kept).trans missing) ((congrArg (·.draft) kept).trans quiet)
  exact fold empty rfl rfl

/-! ## From a state on -/

/-- Every version is related to the row that the base has committed under its key. -/
def Descends (R : Int → ρ → Option ρ → Prop) (base table : Table Int ρ) : Prop :=
  table.Versions fun key version => ∀ row, base.committed key = some row → R key row version

theorem Lineage.descends (lineage : table.Lineage R next) (ordered : Ordered R) : Descends R table table where
  committed key row stored := by
    rw [stored]
    exact ordered.stays key row
  drafted key owner version drafted row stored := lineage.drafted key owner version row drafted stored

theorem Descends.mono (descends : Descends R base table)
    (weaker : ∀ key row version, R key row version → R' key row version) : Descends R' base table :=
  Versions.mono descends fun key version related row stored => weaker key row version (related row stored)

/-- Rows that descend from those of an earlier state do so after a change of them, since the relation
composes. -/
theorem Descends.step (descends : Descends R base table) (ordered : Ordered R)
    (unused : ∀ key, next ≤ key → base.committed key = none) (change : Change N R me next table next' table') :
    Descends R base table' := by
  induction change with
  | skip later => exact descends
  | @insert next table row born =>
    refine Versions.write descends fun first stored => ?_
    rw [unused next (Int.le_refl _)] at stored
    cases stored
  | @rewrite next key table row version seen related =>
    refine Versions.write descends fun first stored => ?_
    have reached : R key first (table.row me key) := Versions.row descends me key first stored
    rw [seen] at reached
    exact ordered.follows key first row version reached related
  | commit => exact Versions.commit descends
  | abort => exact Versions.abort descends
  | trans first second holds holds' =>
    exact holds' (holds descends unused) fun key above => unused key (Int.le_trans first.later above)

/-! ## Origins -/

/-- Every row is related to one that the base has committed under its key, or that was inserted. -/
def Stems (N : Int → ρ → Prop) (R : Int → ρ → Option ρ → Prop) (base table : Table Int ρ) : Prop :=
  table.Versions fun key version => ∀ row, version = some row →
    ∃ origin, (base.committed key = some origin ∨ N key origin) ∧ R key origin (some row)

theorem Quiet.stems (quiet : table.Quiet) (ordered : Ordered R) : Stems N R table table :=
  quiet.versions fun key row stored => ⟨row, .inl stored, ordered.stays key row⟩

theorem Stems.mono (stems : Stems N R base table) (born : ∀ key row, N key row → N' key row)
    (weaker : ∀ key row version, R key row version → R' key row version) : Stems N' R' base table := by
  refine Versions.mono stems fun key version origins row same => ?_
  obtain ⟨origin, which, related⟩ := origins row same
  exact ⟨origin, which.imp_right (born key origin), weaker key origin _ related⟩

/-- A row that stems from the start or from an insert does so after a change, and a new one is born by
its insert. -/
theorem Stems.step (stems : Stems N R base table) (ordered : Ordered R)
    (change : Change N R me next table next' table') :
    Stems N R base table' := by
  induction change with
  | skip later => exact stems
  | @insert next table row born =>
    refine Versions.write stems ?_
    rintro latest ⟨⟩
    exact ⟨row, .inr born, ordered.stays next row⟩
  | @rewrite next key table row version seen related =>
    refine Versions.write stems ?_
    rintro latest rfl
    obtain ⟨origin, which, reached⟩ := (Versions.row stems me key) row seen
    exact ⟨origin, which, ordered.follows key origin row _ reached related⟩
  | commit => exact Versions.commit stems
  | abort => exact Versions.abort stems
  | trans first second holds holds' => exact holds' (holds stems)

/-! ## Fields that stay -/

/-- Whatever row has the key, it has the value. -/
structure Fixed (field : ρ → γ) (key : Int) (value : γ) (next : Int) (table : Table Int ρ) : Prop where
  used : key < next
  versions : table.Versions fun other version => other = key → ∀ row, version = some row → field row = value

/-- No rewriting changes the field. -/
def Respects (R : Int → ρ → Option ρ → Prop) (field : ρ → γ) : Prop :=
  ∀ key row row', R key row (some row') → field row' = field row

theorem Lineage.fixed {field : ρ → γ} (lineage : table.Lineage R next) (respects : Respects R field) {row : ρ}
    (seen : table.row me key = some row) : Fixed field key (field row) next table := by
  have alike (first : ρ) (stored : table.committed key = some first) : field row = field first := by
    rcases table.row_cases me key with same | drafted
    · rw [same, seen] at stored
      cases stored
      rfl
    · rw [seen] at drafted
      exact respects key first row (lineage.drafted key me _ first drafted stored)
  refine ⟨lineage.used seen, ⟨?_, ?_⟩⟩
  · rintro other rfl first stored
    exact (alike first stored).symm
  · rintro other owner version drafted rfl latest rfl
    cases stored : table.committed other with
    | some first =>
      rw [alike first stored]
      exact respects other first latest (lineage.drafted other owner _ first drafted stored)
    | none =>
      rcases table.row_cases me other with same | mine
      · rw [same, seen] at stored
        cases stored
      · rw [drafted, seen] at mine
        cases mine
        rfl

/-- A field that is fixed under a key has its value in every version that a session reads there. -/
theorem Fixed.row {field : ρ → γ} {value : γ} (fixed : Fixed field key value next table) {row : ρ}
    (seen : table.row me key = some row) : field row = value :=
  (fixed.versions.row me key) rfl row seen

/-- A field that the relation respects stays fixed, since its key is not given out again. -/
theorem Fixed.step {field : ρ → γ} {value : γ} (fixed : Fixed field key value next table)
    (respects : Respects R field) (change : Change N R me next table next' table') :
    Fixed field key value next' table' := by
  refine ⟨Int.lt_of_lt_of_le fixed.used change.later, ?_⟩
  induction change with
  | skip later => exact fixed.versions
  | @insert next table row born =>
    refine fixed.versions.write fun same => ?_
    exact absurd fixed.used (by omega)
  | @rewrite next other table row version seen related =>
    refine fixed.versions.write ?_
    rintro rfl latest rfl
    rw [respects _ row latest related]
    exact fixed.row seen
  | commit => exact fixed.versions.commit
  | abort => exact fixed.versions.abort
  | trans first second holds holds' => exact holds' ⟨Int.lt_of_lt_of_le fixed.used first.later, holds fixed⟩

end SogeconApp.Library.Table
