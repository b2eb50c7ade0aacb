import SogeconApp.Library.Table

/-!
# What holds of every version of a row

A version is committed or drafted; `none` is a row that is absent or deleted. What holds of every version is
what any session reads, and it is kept by commits and rollbacks, and by writes of such versions.
-/

namespace SogeconApp.Library.Table

variable {κ ρ : Type} {table : Table κ ρ} {P Q : κ → Option ρ → Prop} {me : SessionId} {key : κ}

structure Versions (P : κ → Option ρ → Prop) (table : Table κ ρ) : Prop where
  committed : ∀ key, P key (table.committed key)
  drafted : ∀ key owner version, (table.slot key).draft = some (owner, version) → P key version

theorem Quiet.versions (quiet : table.Quiet) (committed : ∀ key, P key (table.committed key)) :
    table.Versions P where
  committed := committed
  drafted key owner version drafted := by
    rw [quiet key] at drafted
    cases drafted

namespace Versions

theorem mono (versions : table.Versions P) (weaker : ∀ key version, P key version → Q key version) :
    table.Versions Q where
  committed key := weaker key _ (versions.committed key)
  drafted key owner version drafted := weaker key version (versions.drafted key owner version drafted)

/-- What holds of every version holds of the one that a session reads. -/
theorem row (versions : table.Versions P) (me : SessionId) (key : κ) : P key (table.row me key) := by
  rcases table.row_cases me key with same | drafted
  · rw [← same]
    exact versions.committed key
  · exact versions.drafted key me _ drafted

/-- A version that is written has to have what all the others have. -/
theorem write [DecidableEq κ] (versions : table.Versions P) {version : Option ρ} (holds : P key version) :
    (table.write me key version).Versions P where
  committed other := by
    rw [write_committed]
    exact versions.committed other
  drafted other owner latest drafted := by
    by_cases same : other = key
    · subst same
      rw [write_slot_self] at drafted
      cases drafted
      exact holds
    · rw [write_slot_of_ne same] at drafted
      exact versions.drafted other owner latest drafted

/-- A commit turns drafts into committed rows, so it makes no version that was not there. -/
theorem commit (versions : table.Versions P) : (table.commit me).Versions P where
  committed key := by
    rcases table.commit_cases me key with same | drafted
    · rw [same]
      exact versions.committed key
    · exact versions.drafted key me _ drafted
  drafted key owner version drafted :=
    versions.drafted key owner version (Slot.draft_commit_eq.mp drafted).1

theorem abort (versions : table.Versions P) : (table.abort me).Versions P where
  committed key := by
    rw [abort_committed]
    exact versions.committed key
  drafted key owner version drafted :=
    versions.drafted key owner version (Slot.draft_abort_eq.mp drafted).1

end Versions

end SogeconApp.Library.Table
