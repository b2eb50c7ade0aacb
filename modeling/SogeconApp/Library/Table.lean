import Mathlib.Data.List.Nodup
import Mathlib.Data.List.Perm.Subperm
import Mathlib.Logic.Function.Basic

/-!
# Tables under READ COMMITTED

A row has its committed version and at most one uncommitted version, the draft of
the session that holds its row lock. A session reads its own drafts and otherwise
what is committed at that statement; it cannot draft a row that another session
holds. Commit publishes a session's drafts in one step, abort drops them.

Row operations are those of one row: `UPDATE .. WHERE` waits for a locked row
whose committed version matches, and re-evaluates its condition on what it then
finds; `INSERT .. ON CONFLICT DO NOTHING` waits for an uncommitted row under the
same key; `FOR UPDATE SKIP LOCKED` passes a locked row by. A statement over many
rows is a program that first reads the matching keys and then visits them.
-/

namespace SogeconApp.Library

/-- A session is a connection with at most one open transaction. -/
abbrev SessionId := Nat

structure Slot (ρ : Type) where
  committed : Option ρ := none
  draft : Option (SessionId × Option ρ) := none

namespace Slot

variable {ρ : Type}

/-- The version a session reads. -/
def row (me : SessionId) (slot : Slot ρ) : Option ρ :=
  match slot.draft with
  | some (owner, version) => if owner = me then version else slot.committed
  | none => slot.committed

/-- Another session holds the row lock. -/
def lockedFor (me : SessionId) (slot : Slot ρ) : Bool :=
  match slot.draft with
  | some (owner, _) => owner != me
  | none => false

def write (me : SessionId) (version : Option ρ) (slot : Slot ρ) : Slot ρ :=
  { slot with draft := some (me, version) }

def commit (me : SessionId) (slot : Slot ρ) : Slot ρ :=
  match slot.draft with
  | some (owner, version) => if owner = me then { committed := version } else slot
  | none => slot

def abort (me : SessionId) (slot : Slot ρ) : Slot ρ :=
  match slot.draft with
  | some (owner, _) => if owner = me then { committed := slot.committed } else slot
  | none => slot

@[simp] theorem write_draft (me : SessionId) (version : Option ρ) (slot : Slot ρ) :
    (slot.write me version).draft = some (me, version) := rfl

@[simp] theorem write_committed (me : SessionId) (version : Option ρ) (slot : Slot ρ) :
    (slot.write me version).committed = slot.committed := rfl

@[simp] theorem abort_committed (me : SessionId) (slot : Slot ρ) :
    (slot.abort me).committed = slot.committed := by
  unfold abort
  split <;> [split; skip] <;> rfl

theorem commit_of_draft {me : SessionId} {version : Option ρ} {slot : Slot ρ}
    (mine : slot.draft = some (me, version)) : slot.commit me = { committed := version } := by
  simp [commit, mine]

/-- Commit leaves a row alone unless the session drafted it. -/
theorem commit_of_not_mine {me : SessionId} {slot : Slot ρ}
    (other : ∀ version, slot.draft ≠ some (me, version)) : slot.commit me = slot := by
  unfold commit
  split
  · next owner version drafted =>
    rw [if_neg]
    rintro rfl
    exact other version drafted
  · rfl

theorem abort_of_not_mine {me : SessionId} {slot : Slot ρ}
    (other : ∀ version, slot.draft ≠ some (me, version)) : slot.abort me = slot := by
  unfold abort
  split
  · next owner version drafted =>
    rw [if_neg]
    rintro rfl
    exact other version drafted
  · rfl

/-- The draft left after a commit or an abort belongs to another session. -/
theorem draft_commit_eq {me owner : SessionId} {version : Option ρ} {slot : Slot ρ} :
    (slot.commit me).draft = some (owner, version) ↔
      slot.draft = some (owner, version) ∧ owner ≠ me := by
  cases drafted : slot.draft with
  | none => simp [commit, drafted]
  | some held =>
    obtain ⟨holder, latest⟩ := held
    by_cases mine : holder = me
    · subst mine
      simp only [commit, drafted, if_pos, Option.some.injEq, Prod.mk.injEq, reduceCtorEq, false_iff]
      rintro ⟨⟨rfl, _⟩, different⟩
      exact different rfl
    · simp only [commit, drafted, mine, if_false, Option.some.injEq, Prod.mk.injEq]
      constructor
      · rintro ⟨rfl, rfl⟩
        exact ⟨⟨rfl, rfl⟩, mine⟩
      · exact fun h => h.1

theorem draft_abort_eq {me owner : SessionId} {version : Option ρ} {slot : Slot ρ} :
    (slot.abort me).draft = some (owner, version) ↔
      slot.draft = some (owner, version) ∧ owner ≠ me := by
  cases drafted : slot.draft with
  | none => simp [abort, drafted]
  | some held =>
    obtain ⟨holder, latest⟩ := held
    by_cases mine : holder = me
    · subst mine
      simp only [abort, drafted, if_pos, Option.some.injEq, Prod.mk.injEq, reduceCtorEq, false_iff]
      rintro ⟨⟨rfl, _⟩, different⟩
      exact different rfl
    · simp only [abort, drafted, mine, if_false, Option.some.injEq, Prod.mk.injEq]
      constructor
      · rintro ⟨rfl, rfl⟩
        exact ⟨⟨rfl, rfl⟩, mine⟩
      · exact fun h => h.1

/-- A session finds a row unlocked if nobody else has drafted it. -/
theorem lockedFor_eq_false {me : SessionId} {slot : Slot ρ} :
    slot.lockedFor me = false ↔ ∀ owner version, slot.draft = some (owner, version) → owner = me := by
  cases drafted : slot.draft with
  | none => simp [lockedFor, drafted]
  | some held =>
    obtain ⟨holder, latest⟩ := held
    simp only [lockedFor, drafted, bne_eq_false_iff_eq, Option.some.injEq, Prod.mk.injEq]
    exact ⟨fun same owner version drafted => drafted.1 ▸ same, fun all => all holder latest ⟨rfl, rfl⟩⟩

/-- A session that nobody locks out reads its draft, if it has one, and else what is committed. -/
theorem row_of_draft {me : SessionId} {version : Option ρ} {slot : Slot ρ}
    (mine : slot.draft = some (me, version)) : slot.row me = version := by
  simp [row, mine]

/-- Where nothing is drafted every session reads what is committed. -/
theorem row_of_no_draft {me : SessionId} {slot : Slot ρ} (quiet : slot.draft = none) :
    slot.row me = slot.committed := by
  simp [row, quiet]

/-- A session reads the committed version of a row that another one holds. -/
theorem row_of_locked {me : SessionId} {slot : Slot ρ} (locked : slot.lockedFor me = true) :
    slot.row me = slot.committed := by
  cases drafted : slot.draft with
  | none => exact row_of_no_draft drafted
  | some held =>
    obtain ⟨owner, version⟩ := held
    have other : owner ≠ me := by simpa [lockedFor, drafted] using locked
    simp [row, drafted, other]

end Slot

/-- A keyed table: the keys ever inserted, oldest first, and the slot of each. -/
structure Table (κ ρ : Type) where
  keys : List κ
  slot : κ → Slot ρ
  nodup : keys.Nodup
  covers : ∀ key, key ∉ keys → slot key = {}

namespace Table

variable {κ ρ : Type}

def empty : Table κ ρ where
  keys := []
  slot _ := {}
  nodup := List.nodup_nil
  covers _ _ := rfl

instance : Inhabited (Table κ ρ) := ⟨empty⟩

def committed (table : Table κ ρ) (key : κ) : Option ρ := (table.slot key).committed

/-- The version of the row that a session reads. -/
def row (me : SessionId) (table : Table κ ρ) (key : κ) : Option ρ := (table.slot key).row me

def holds (me : SessionId) (table : Table κ ρ) (key : κ) (cond : ρ → Bool) : Bool :=
  match table.row me key with
  | some version => cond version
  | none => false

theorem holds_iff {me : SessionId} {table : Table κ ρ} {key : κ} {cond : ρ → Bool} :
    table.holds me key cond = true ↔ ∃ version, table.row me key = some version ∧ cond version = true := by
  unfold holds
  cases table.row me key <;> simp

/-- `SELECT .. WHERE`: the keys of the rows that the session sees and the condition accepts. -/
def select (me : SessionId) (table : Table κ ρ) (cond : κ → ρ → Bool) : List κ :=
  table.keys.filter fun key => table.holds me key (cond key)

/-- A row that is there has its key among the keys. -/
theorem mem_keys_of_row {me : SessionId} {table : Table κ ρ} {key : κ} {version : ρ}
    (found : table.row me key = some version) : key ∈ table.keys := by
  by_contra absent
  have vacant : table.slot key = {} := table.covers key absent
  simp [row, vacant, Slot.row] at found

theorem mem_select {me : SessionId} {table : Table κ ρ} {cond : κ → ρ → Bool} {key : κ} :
    key ∈ table.select me cond ↔ ∃ version, table.row me key = some version ∧ cond key version = true := by
  rw [select, List.mem_filter, holds_iff]
  constructor
  · exact fun found => found.2
  · rintro ⟨version, found, accepted⟩
    exact ⟨mem_keys_of_row found, version, found, accepted⟩

/-- Does a version under a key count? -/
def accepts (cond : κ → ρ → Bool) (key : κ) (version : Option ρ) : Bool :=
  (version.map (cond key)).getD false

/-- How many committed rows satisfy the condition. -/
def countCommitted (table : Table κ ρ) (cond : κ → ρ → Bool) : Nat :=
  table.keys.countP fun key => accepts cond key (table.committed key)

def commit (me : SessionId) (table : Table κ ρ) : Table κ ρ where
  keys := table.keys
  slot key := (table.slot key).commit me
  nodup := table.nodup
  covers key absent := by simp [table.covers key absent, Slot.commit]

def abort (me : SessionId) (table : Table κ ρ) : Table κ ρ where
  keys := table.keys
  slot key := (table.slot key).abort me
  nodup := table.nodup
  covers key absent := by simp [table.covers key absent, Slot.abort]

section Transactions

variable {me : SessionId} {table : Table κ ρ} {key : κ}

@[simp] theorem commit_slot : (table.commit me).slot key = (table.slot key).commit me := rfl

@[simp] theorem abort_slot : (table.abort me).slot key = (table.slot key).abort me := rfl

@[simp] theorem commit_keys : (table.commit me).keys = table.keys := rfl

@[simp] theorem abort_keys : (table.abort me).keys = table.keys := rfl

@[simp] theorem abort_committed : (table.abort me).committed key = table.committed key := by
  simp [committed]

/-- A session reads what is committed, or its own draft. -/
theorem row_cases (me : SessionId) (table : Table κ ρ) (key : κ) :
    table.committed key = table.row me key ∨ (table.slot key).draft = some (me, table.row me key) := by
  cases drafted : (table.slot key).draft with
  | none => exact .inl (Slot.row_of_no_draft drafted).symm
  | some held =>
    obtain ⟨owner, version⟩ := held
    by_cases mine : owner = me
    · subst mine
      have same : table.row owner key = version := Slot.row_of_draft drafted
      exact .inr (by rw [same])
    · have locked : (table.slot key).lockedFor me = true := by simpa [Slot.lockedFor, drafted] using mine
      exact .inl (Slot.row_of_locked locked).symm

theorem committed_commit_of_draft {version : Option ρ}
    (mine : (table.slot key).draft = some (me, version)) : (table.commit me).committed key = version := by
  simp [committed, Slot.commit_of_draft mine]

theorem committed_commit_of_not_mine (other : ∀ version, (table.slot key).draft ≠ some (me, version)) :
    (table.commit me).committed key = table.committed key := by
  simp [committed, Slot.commit_of_not_mine other]

/-- A row changes only by the commit of the session that drafted it. -/
theorem drafted_of_committed_ne (changed : (table.commit me).committed key ≠ table.committed key) :
    ∃ version, (table.slot key).draft = some (me, version) := by
  by_contra absent
  exact changed (committed_commit_of_not_mine fun version drafted => absent ⟨version, drafted⟩)

/-- A commit leaves a row as it was, or publishes what the session had drafted there. -/
theorem commit_cases (me : SessionId) (table : Table κ ρ) (key : κ) :
    (table.commit me).committed key = table.committed key ∨
      (table.slot key).draft = some (me, (table.commit me).committed key) := by
  by_cases changed : (table.commit me).committed key = table.committed key
  · exact .inl changed
  · obtain ⟨version, drafted⟩ := drafted_of_committed_ne changed
    exact .inr (by rw [committed_commit_of_draft drafted, drafted])

/-- A drafted row has its key among the keys. -/
theorem mem_keys_of_draft {held : SessionId × Option ρ} (drafted : (table.slot key).draft = some held) :
    key ∈ table.keys := by
  by_contra absent
  rw [table.covers key absent] at drafted
  cases drafted

/-- Every draft belongs to the session. -/
def Only (me : SessionId) (table : Table κ ρ) : Prop :=
  ∀ key owner version, (table.slot key).draft = some (owner, version) → owner = me

/-- There is no draft. -/
def Quiet (table : Table κ ρ) : Prop :=
  ∀ key, (table.slot key).draft = none

theorem Quiet.only (quiet : table.Quiet) : table.Only me := by
  intro key owner version drafted
  simp [quiet key] at drafted

/-- No other session's lock is in the way of a session whose drafts are the only ones. -/
theorem Only.free (alone : table.Only me) (key : κ) : (table.slot key).lockedFor me = false :=
  Slot.lockedFor_eq_false.mpr (alone key)

theorem Quiet.row_eq (quiet : table.Quiet) (me : SessionId) (key : κ) :
    table.row me key = table.committed key :=
  Slot.row_of_no_draft (quiet key)

/-- After the commit of the only session with drafts no draft is left. -/
theorem Only.commit_quiet (alone : table.Only me) : (table.commit me).Quiet := by
  intro key
  cases drafted : ((table.commit me).slot key).draft with
  | none => rfl
  | some held =>
    obtain ⟨owner, version⟩ := held
    have other := Slot.draft_commit_eq.mp drafted
    exact absurd (alone key owner version other.1) other.2

theorem Only.abort_quiet (alone : table.Only me) : (table.abort me).Quiet := by
  intro key
  cases drafted : ((table.abort me).slot key).draft with
  | none => rfl
  | some held =>
    obtain ⟨owner, version⟩ := held
    have other := Slot.draft_abort_eq.mp drafted
    exact absurd (alone key owner version other.1) other.2

@[ext] theorem ext {first second : Table κ ρ} (keys : first.keys = second.keys)
    (slot : ∀ key, first.slot key = second.slot key) : first = second := by
  cases first
  cases second
  simp only [mk.injEq]
  exact ⟨keys, funext slot⟩

/-- Without drafts there is nothing to commit. -/
theorem Quiet.commit_eq (quiet : table.Quiet) : table.commit me = table :=
  Table.ext rfl fun key => Slot.commit_of_not_mine fun version drafted => by simp [quiet key] at drafted

theorem Quiet.abort_eq (quiet : table.Quiet) : table.abort me = table :=
  Table.ext rfl fun key => Slot.abort_of_not_mine fun version drafted => by simp [quiet key] at drafted

/-- Commit publishes exactly what the session was reading. -/
theorem Only.committed_commit (alone : table.Only me) :
    (table.commit me).committed key = table.row me key := by
  cases drafted : (table.slot key).draft with
  | none => simp [committed, row, Slot.commit, Slot.row, drafted]
  | some held =>
    obtain ⟨owner, version⟩ := held
    obtain rfl := alone key owner version drafted
    simp [committed, row, Slot.commit_of_draft drafted, Slot.row_of_draft drafted]

end Transactions

/-! ## Counting committed rows -/

section Counting

variable {me : SessionId} {table : Table κ ρ}

/-- A session without drafts of its own counts what is committed. -/
theorem length_select (none_ : ∀ key version, (table.slot key).draft ≠ some (me, version))
    (cond : κ → ρ → Bool) : (table.select me cond).length = table.countCommitted cond := by
  rw [select, ← List.countP_eq_length_filter, countCommitted]
  refine List.countP_congr fun key _ => ?_
  have same : table.row me key = table.committed key := by
    rcases row_cases me table key with same | drafted
    · exact same.symm
    · exact absurd drafted (none_ key _)
  rw [holds, same, accepts]
  cases table.committed key <;> simp

/-- The number of keys a condition accepts changes only by what happens at one key. -/
private theorem countP_one_change {keys : List κ} (unique : keys.Nodup) {key : κ}
    (member : key ∈ keys) (before after : κ → Bool) (same : ∀ k, k ≠ key → after k = before k) :
    keys.countP after + (before key).toNat = keys.countP before + (after key).toNat := by
  induction keys with
  | nil => simp at member
  | cons head tail ih =>
    have nodup := List.nodup_cons.mp unique
    simp only [List.countP_cons]
    by_cases equal : head = key
    · subst head
      have unchanged : tail.countP after = tail.countP before := by
        refine List.countP_congr fun k present => ?_
        rw [same k (by rintro rfl; exact nodup.1 present)]
      cases before key <;> cases after key <;> simp [unchanged]
    · have inside : key ∈ tail := by simpa [Ne.symm equal] using member
      have rest := ih nodup.2 inside
      rw [same head equal]
      omega

/-- Commit of a session whose only draft is under one key. -/
theorem countCommitted_commit (cond : κ → ρ → Bool) (key : κ)
    (single : ∀ other version, (table.slot other).draft = some (me, version) → other = key) :
    (table.commit me).countCommitted cond + (accepts cond key (table.committed key)).toNat =
      table.countCommitted cond + (accepts cond key ((table.commit me).committed key)).toNat := by
  by_cases member : key ∈ table.keys
  · refine countP_one_change table.nodup member
      (fun other => accepts cond other (table.committed other))
      (fun other => accepts cond other ((table.commit me).committed other)) fun other different => ?_
    have untouched : (table.slot other).commit me = table.slot other :=
      Slot.commit_of_not_mine fun version drafted => different (single other version drafted)
    simp [committed, untouched]
  · have vacant := table.covers key member
    have same : (table.commit me).committed key = table.committed key := by
      simp [committed, vacant, Slot.commit]
    rw [same]
    congr 1
    refine List.countP_congr fun other present => ?_
    have different : other ≠ key := by
      rintro rfl
      exact member present
    have untouched : (table.slot other).commit me = table.slot other :=
      Slot.commit_of_not_mine fun version drafted => different (single other version drafted)
    simp [committed, untouched]

theorem mem_keys_of_accepts {cond : κ → ρ → Bool} {key : κ}
    (accepted : accepts cond key (table.committed key) = true) : key ∈ table.keys := by
  by_contra absent
  have vacant : table.committed key = none := by rw [committed, table.covers key absent]
  simp [vacant, accepts] at accepted

theorem mem_keys_of_committed {key : κ} {version : ρ} (stored : table.committed key = some version) :
    key ∈ table.keys := by
  by_contra absent
  rw [committed, table.covers key absent] at stored
  cases stored

/-- Two rows that count are counted both. -/
theorem two_le_countCommitted {cond : κ → ρ → Bool} {first second : κ} (different : first ≠ second)
    (firstCounts : accepts cond first (table.committed first) = true)
    (secondCounts : accepts cond second (table.committed second) = true) :
    2 ≤ table.countCommitted cond := by
  have both : [first, second].Nodup := by simp [different]
  have inside : [first, second] ⊆ table.keys.filter fun key => accepts cond key (table.committed key) := by
    intro key listed
    rcases List.mem_pair.mp listed with rfl | rfl
    · exact List.mem_filter.mpr ⟨mem_keys_of_accepts firstCounts, firstCounts⟩
    · exact List.mem_filter.mpr ⟨mem_keys_of_accepts secondCounts, secondCounts⟩
  rw [countCommitted, List.countP_eq_length_filter]
  exact (both.subperm inside).length_le

/-- Where two are counted there are two different rows that count. -/
theorem exists_of_two_le_countCommitted {cond : κ → ρ → Bool} (two : 2 ≤ table.countCommitted cond) :
    ∃ first second, first ≠ second ∧ accepts cond first (table.committed first) = true ∧
      accepts cond second (table.committed second) = true := by
  rw [countCommitted, List.countP_eq_length_filter] at two
  have distinct := table.nodup.filter fun key => accepts cond key (table.committed key)
  match listed : table.keys.filter fun key => accepts cond key (table.committed key) with
  | [] => simp [listed] at two
  | [only] => simp [listed] at two
  | first :: second :: rest =>
    have counts (key : κ) (member : key ∈ first :: second :: rest) :
        accepts cond key (table.committed key) = true := by
      rw [← listed] at member
      exact (List.mem_filter.mp member).2
    rw [listed] at distinct
    have different : first ≠ second := by
      intro same
      exact (List.nodup_cons.mp distinct).1 (by simp [same])
    exact ⟨first, second, different, counts first (by simp), counts second (by simp)⟩

@[simp] theorem countCommitted_abort (cond : κ → ρ → Bool) :
    (table.abort me).countCommitted cond = table.countCommitted cond := by
  simp [countCommitted]

end Counting

/-- What the end of a transaction leaves: the drafts of other sessions, and the rows that
the session had not drafted. -/
structure Ended (me : SessionId) (before after : Table κ ρ) : Prop where
  draft : ∀ key owner version, (after.slot key).draft = some (owner, version) ↔
    (before.slot key).draft = some (owner, version) ∧ owner ≠ me
  kept : ∀ key, (∀ version, (before.slot key).draft ≠ some (me, version)) →
    after.committed key = before.committed key

/-- A commit ends the transaction of its session: its drafts are gone, and nobody else's. -/
theorem commit_ended (me : SessionId) (table : Table κ ρ) : table.Ended me (table.commit me) where
  draft _ _ _ := Slot.draft_commit_eq
  kept _ other := committed_commit_of_not_mine other

theorem abort_ended (me : SessionId) (table : Table κ ρ) : table.Ended me (table.abort me) where
  draft _ _ _ := Slot.draft_abort_eq
  kept _ _ := abort_committed

/-- A row that another session has drafted is as it was. -/
theorem Ended.kept_of_draft {me owner : SessionId} {before after : Table κ ρ} {key : κ} {version : Option ρ}
    (ended : before.Ended me after) (drafted : (after.slot key).draft = some (owner, version)) :
    after.committed key = before.committed key := by
  obtain ⟨earlier, different⟩ := (ended.draft key owner version).mp drafted
  refine ended.kept key fun latest mine => ?_
  rw [earlier, Option.some.injEq, Prod.mk.injEq] at mine
  exact different mine.1

/-! ## Sessions with one draft each -/

/-- Each session has drafted the row under one key at most, the one that `held` names. -/
def Drafted (table : Table κ ρ) (held : SessionId → Option κ) : Prop :=
  ∀ key owner version, (table.slot key).draft = some (owner, version) → held owner = some key

section OneDraft

variable {me : SessionId} {table : Table κ ρ} {key : κ} {held held' : SessionId → Option κ}

theorem Quiet.drafted (quiet : table.Quiet) : table.Drafted held := by
  intro key owner version drafted
  simp [quiet key] at drafted

theorem Drafted.same (drafted : table.Drafted held) (same : ∀ other, held' other = held other) :
    table.Drafted held' :=
  fun key owner version found => (same owner).trans (drafted key owner version found)

/-- After the end of a transaction the other sessions have drafted what they had. -/
theorem Drafted.ended {after : Table κ ρ} (drafted : table.Drafted held) (ended : table.Ended me after)
    (others : ∀ other, other ≠ me → held' other = held other) : after.Drafted held' := by
  intro key owner version found
  obtain ⟨before, different⟩ := (ended.draft key owner version).mp found
  rw [others owner different]
  exact drafted key owner version before

theorem Drafted.none_of (drafted : table.Drafted held) (idle : held me = none) (key : κ)
    (version : Option ρ) : (table.slot key).draft ≠ some (me, version) := by
  intro found
  have mine := drafted key me version found
  rw [idle] at mine
  cases mine

/-- The one key whose row a commit of the session may change. -/
theorem Drafted.single [Inhabited κ] (drafted : table.Drafted held) (me : SessionId) :
    ∃ key, ∀ other version, (table.slot other).draft = some (me, version) → other = key := by
  cases named : held me with
  | none => exact ⟨default, fun other version found => absurd found (drafted.none_of named other version)⟩
  | some key =>
    refine ⟨key, fun other version found => ?_⟩
    have mine := drafted other me version found
    rw [named] at mine
    exact (Option.some.inj mine).symm

end OneDraft

variable [DecidableEq κ]

/-- Draft a version of a row; `none` drafts its deletion. -/
def write (me : SessionId) (key : κ) (version : Option ρ) (table : Table κ ρ) : Table κ ρ where
  keys := if key ∈ table.keys then table.keys else table.keys ++ [key]
  slot := Function.update table.slot key ((table.slot key).write me version)
  nodup := by
    split
    · exact table.nodup
    · next absent =>
      refine List.nodup_append.mpr ⟨table.nodup, List.nodup_singleton key, ?_⟩
      intro member present only equal
      rw [List.mem_singleton] at equal
      intro same
      exact absent (by rw [← equal, ← same]; exact present)
  covers other absent := by
    have different : other ≠ key := by
      rintro rfl
      split at absent
      · next present => exact absent present
      · simp at absent
    have missing : other ∉ table.keys := by
      intro present
      split at absent
      · exact absent present
      · exact absent (List.mem_append_left _ present)
    rw [Function.update_of_ne different, table.covers other missing]

/-- `UPDATE .. WHERE` on one row. `none`: the session waits for the row lock. -/
def updateRow (me : SessionId) (key : κ) (cond : ρ → Bool) (change : ρ → ρ) (table : Table κ ρ) :
    Option (Bool × Table κ ρ) :=
  if (table.slot key).lockedFor me then
    if ((table.committed key).map cond).getD false then none else some (false, table)
  else
    match table.row me key with
    | some version =>
      if cond version then some (true, table.write me key (some (change version)))
      else some (false, table)
    | none => some (false, table)

/-- What became of an `UPDATE` of one row whose new version may break a constraint of the table. -/
inductive Updated where
  | missed | violated | written
  deriving DecidableEq, Repr

/-- `UPDATE` of one row by its key; `change` is `none` where a constraint refuses the new version.
`none`: the session waits for the row lock. -/
def updateChecked (me : SessionId) (key : κ) (change : ρ → Option ρ) (table : Table κ ρ) :
    Option (Updated × Table κ ρ) :=
  if (table.slot key).lockedFor me then
    if (table.committed key).isSome then none else some (.missed, table)
  else
    match table.row me key with
    | none => some (.missed, table)
    | some version =>
      match change version with
      | none => some (.violated, table)
      | some latest => some (.written, table.write me key (some latest))

/-- `DELETE .. WHERE` on one row. `none`: the session waits for the row lock. -/
def deleteRow (me : SessionId) (key : κ) (cond : ρ → Bool) (table : Table κ ρ) :
    Option (Bool × Table κ ρ) :=
  if (table.slot key).lockedFor me then
    if ((table.committed key).map cond).getD false then none else some (false, table)
  else if table.holds me key cond then some (true, table.write me key none)
  else some (false, table)

/-- `INSERT .. ON CONFLICT DO NOTHING` on one key. `none`: the session waits. -/
def insertRow (me : SessionId) (key : κ) (version : ρ) (table : Table κ ρ) :
    Option (Bool × Table κ ρ) :=
  if (table.slot key).lockedFor me then
    if (table.committed key).isSome then some (false, table) else none
  else
    match table.row me key with
    | some _ => some (false, table)
    | none => some (true, table.write me key (some version))

/-- `INSERT .. ON CONFLICT DO UPDATE .. WHERE .. RETURNING` on one key: the version written, if one
is. `none`: the session waits for whoever has the row in its hands. -/
def upsertRow (me : SessionId) (key : κ) (fresh : ρ) (cond : ρ → Bool) (change : ρ → ρ) (table : Table κ ρ) :
    Option (Option ρ × Table κ ρ) :=
  if (table.slot key).lockedFor me then none
  else
    match table.row me key with
    | some version =>
      if cond version then some (some (change version), table.write me key (some (change version)))
      else some (none, table)
    | none => some (some fresh, table.write me key (some fresh))

/-- `SELECT .. FOR UPDATE SKIP LOCKED` on one row: the version locked, if it is. -/
def lockRow (me : SessionId) (key : κ) (cond : ρ → Bool) (table : Table κ ρ) :
    Option ρ × Table κ ρ :=
  if (table.slot key).lockedFor me then (none, table)
  else
    match table.row me key with
    | some version =>
      if cond version then (some version, table.write me key (some version)) else (none, table)
    | none => (none, table)

/-- Does another row than the one under the key hold a value that must be unique? `none`: the
session waits for the transaction that has such a row in its hands. -/
def clash (me : SessionId) (key : κ) (same : ρ → Bool) (table : Table κ ρ) : Option Bool :=
  let held (other : κ) : Bool :=
    match (table.slot other).draft with
    | some (owner, version) =>
      owner != me && ((version.any same) || ((table.committed other).any same))
    | none => false
  if table.keys.any fun other => decide (other ≠ key) && held other then none
  else some (table.keys.any fun other => decide (other ≠ key) && table.holds me other same)

section Effects

variable {me : SessionId} {table after : Table κ ρ} {key other : κ}

@[simp] theorem write_slot_self {version : Option ρ} :
    (table.write me key version).slot key = (table.slot key).write me version := by
  simp [write]

theorem write_slot_of_ne {version : Option ρ} (different : other ≠ key) :
    (table.write me key version).slot other = table.slot other := by
  simp [write, different]

@[simp] theorem write_committed {version : Option ρ} :
    (table.write me key version).committed other = table.committed other := by
  by_cases same : other = key
  · subst same
    simp [committed]
  · simp [committed, write_slot_of_ne same]

theorem mem_write_keys {version : Option ρ} :
    other ∈ (table.write me key version).keys ↔ other = key ∨ other ∈ table.keys := by
  unfold write
  by_cases present : key ∈ table.keys
  · simp only [present, if_true]
    exact ⟨Or.inr, fun h => h.elim (fun same => same ▸ present) id⟩
  · simp [present, or_comm]

/-- What one `UPDATE .. WHERE` does: it finds no row to change, or it drafts the
change of a row that it sees, that the condition accepts and that nobody else holds. -/
theorem updateRow_cases {cond : ρ → Bool} {change : ρ → ρ} {hit : Bool}
    (done : table.updateRow me key cond change = some (hit, after)) :
    (hit = false ∧ after = table) ∨
      (hit = true ∧ (table.slot key).lockedFor me = false ∧ ∃ version,
        table.row me key = some version ∧ cond version = true ∧
          after = table.write me key (some (change version))) := by
  unfold updateRow at done
  split at done
  · split at done
    · cases done
    · cases done
      exact .inl ⟨rfl, rfl⟩
  · next free =>
    split at done
    · next version seen =>
      split at done
      · next accepted =>
        cases done
        exact .inr ⟨rfl, by simpa using free, version, seen, accepted, rfl⟩
      · cases done
        exact .inl ⟨rfl, rfl⟩
    · cases done
      exact .inl ⟨rfl, rfl⟩

/-- A row that the session sees and the condition accepts is changed, or waited for. -/
theorem updateRow_of_row {cond : ρ → Bool} {change : ρ → ρ} {version : ρ} {hit : Bool}
    (seen : table.row me key = some version) (accepted : cond version = true)
    (done : table.updateRow me key cond change = some (hit, after)) :
    hit = true ∧ (table.slot key).lockedFor me = false ∧
      after = table.write me key (some (change version)) := by
  cases free : (table.slot key).lockedFor me with
  | false =>
    simp only [updateRow, free, seen, accepted, Bool.false_eq_true, if_false, if_true,
      Option.some.injEq, Prod.mk.injEq] at done
    exact ⟨done.1.symm, rfl, done.2.symm⟩
  | true =>
    have committed : table.committed key = some version := by
      rw [← seen]
      exact (Slot.row_of_locked free).symm
    simp [updateRow, free, committed, accepted] at done

/-- An insert finds a row and changes nothing, or writes one under a key that is neither taken nor
locked. -/
theorem insertRow_cases {version : ρ} {hit : Bool}
    (done : table.insertRow me key version = some (hit, after)) :
    (hit = false ∧ after = table) ∨
      (hit = true ∧ (table.slot key).lockedFor me = false ∧ table.row me key = none ∧
        after = table.write me key (some version)) := by
  unfold insertRow at done
  split at done
  · split at done
    · cases done
      exact .inl ⟨rfl, rfl⟩
    · cases done
  · next free =>
    split at done
    · cases done
      exact .inl ⟨rfl, rfl⟩
    · next missing =>
      cases done
      exact .inr ⟨rfl, by simpa using free, missing, rfl⟩

/-- A checked update changes nothing, or writes the row that the change makes of the one it found
unlocked. -/
theorem updateChecked_cases {change : ρ → Option ρ} {result : Updated}
    (done : table.updateChecked me key change = some (result, after)) :
    (result ≠ .written ∧ after = table) ∨
      (result = .written ∧ (table.slot key).lockedFor me = false ∧ ∃ version latest,
        table.row me key = some version ∧ change version = some latest ∧
          after = table.write me key (some latest)) := by
  unfold updateChecked at done
  split at done
  · split at done
    · cases done
    · cases done
      exact .inl ⟨by decide, rfl⟩
  · next free =>
    split at done
    · cases done
      exact .inl ⟨by decide, rfl⟩
    · next version seen =>
      split at done
      · cases done
        exact .inl ⟨by decide, rfl⟩
      · next latest accepted =>
        cases done
        exact .inr ⟨rfl, by simpa using free, version, latest, seen, accepted, rfl⟩

/-- An update that finds no row: there is none, or another session has inserted it. -/
theorem updateChecked_missed {change : ρ → Option ρ}
    (done : table.updateChecked me key change = some (.missed, after)) :
    after = table ∧ (table.committed key = none ∨ table.row me key = none) := by
  unfold updateChecked at done
  split at done
  · split at done
    · cases done
    · next unstored =>
      cases done
      exact ⟨rfl, .inl (by simpa using unstored)⟩
  · split at done
    · next unseen =>
      cases done
      exact ⟨rfl, .inr unseen⟩
    · split at done
      · cases done
      · cases done

theorem deleteRow_cases {cond : ρ → Bool} {hit : Bool}
    (done : table.deleteRow me key cond = some (hit, after)) :
    (hit = false ∧ after = table) ∨
      (hit = true ∧ (table.slot key).lockedFor me = false ∧
        (∃ version, table.row me key = some version ∧ cond version = true) ∧
        after = table.write me key none) := by
  unfold deleteRow at done
  split at done
  · split at done
    · cases done
    · cases done
      exact .inl ⟨rfl, rfl⟩
  · next free =>
    split at done
    · next held =>
      cases done
      exact .inr ⟨rfl, by simpa using free, holds_iff.mp held, rfl⟩
    · cases done
      exact .inl ⟨rfl, rfl⟩

/-- What an upsert does: it passes by a row that its condition refuses, or it drafts a version of
a row that nobody else holds, and that is not there or that the condition accepts. -/
theorem upsertRow_cases {fresh : ρ} {cond : ρ → Bool} {change : ρ → ρ} {written : Option ρ}
    (done : table.upsertRow me key fresh cond change = some (written, after)) :
    (written = none ∧ after = table) ∨
      (table.slot key).lockedFor me = false ∧
        (∀ version, table.row me key = some version → cond version = true) ∧
        after = table.write me key written := by
  unfold upsertRow at done
  split at done
  · cases done
  · next free =>
    split at done
    · next version seen =>
      split at done
      · next accepted =>
        cases done
        refine .inr ⟨by simpa using free, fun other same => ?_, rfl⟩
        rw [seen] at same
        cases same
        exact accepted
      · cases done
        exact .inl ⟨rfl, rfl⟩
    · next missing =>
      cases done
      refine .inr ⟨by simpa using free, fun other same => ?_, rfl⟩
      rw [missing] at same
      cases same

/-- A lock finds no row, or drafts the one that it found as it was. -/
theorem lockRow_cases {cond : ρ → Bool} {found : Option ρ}
    (done : table.lockRow me key cond = (found, after)) :
    (found = none ∧ after = table) ∨
      ∃ version, found = some version ∧ (table.slot key).lockedFor me = false ∧
        table.row me key = some version ∧ cond version = true ∧
        after = table.write me key (some version) := by
  unfold lockRow at done
  split at done
  · cases done
    exact .inl ⟨rfl, rfl⟩
  · next free =>
    split at done
    · next version seen =>
      split at done
      · next accepted =>
        cases done
        exact .inr ⟨version, rfl, by simpa using free, seen, accepted, rfl⟩
      · cases done
        exact .inl ⟨rfl, rfl⟩
    · cases done
      exact .inl ⟨rfl, rfl⟩

/-- A draft does not count. -/
@[simp] theorem countCommitted_write (cond : κ → ρ → Bool) (key : κ) (version : Option ρ) :
    (table.write me key version).countCommitted cond = table.countCommitted cond := by
  simp only [countCommitted, write_committed]
  by_cases present : key ∈ table.keys
  · simp [write, present]
  · have vacant : table.committed key = none := by simp [committed, table.covers key present]
    simp [write, present, vacant, accepts]

end Effects

/-- What a statement that is no commit leaves of a table: drafts of its own session. -/
inductive Drafts (me : SessionId) (before : Table κ ρ) : Table κ ρ → Prop where
  | same : Drafts me before before
  | write (key : κ) (version : Option ρ) : Drafts me before (before.write me key version)
  | abort : Drafts me before (before.abort me)

theorem Drafts.committed {me : SessionId} {before after : Table κ ρ} (drafts : before.Drafts me after)
    (key : κ) : after.committed key = before.committed key := by
  cases drafts with
  | same => rfl
  | write other version => exact write_committed
  | abort => exact abort_committed

/-- A draft that is there afterwards is the session's own or was there before. -/
theorem Drafts.owner {me owner : SessionId} {before after : Table κ ρ} (drafts : before.Drafts me after)
    {key : κ} {version : Option ρ} (drafted : (after.slot key).draft = some (owner, version)) :
    owner = me ∨ ∃ earlier, (before.slot key).draft = some (owner, earlier) := by
  cases drafts with
  | same => exact .inr ⟨version, drafted⟩
  | write other latest =>
    by_cases here : key = other
    · subst here
      simp only [write_slot_self, Slot.write_draft, Option.some.injEq, Prod.mk.injEq] at drafted
      exact .inl drafted.1.symm
    · rw [write_slot_of_ne here] at drafted
      exact .inr ⟨version, drafted⟩
  | abort => exact .inr ⟨version, (Slot.draft_abort_eq.mp drafted).1⟩

theorem Drafts.countCommitted {me : SessionId} {before after : Table κ ρ} (drafts : before.Drafts me after)
    (cond : κ → ρ → Bool) : after.countCommitted cond = before.countCommitted cond := by
  cases drafts with
  | same => rfl
  | write key version => exact countCommitted_write cond key version
  | abort => exact countCommitted_abort cond

theorem Drafts.only {me : SessionId} {before after : Table κ ρ} (drafts : before.Drafts me after)
    (alone : before.Only me) : after.Only me := by
  intro key owner version drafted
  rcases drafts.owner drafted with mine | ⟨earlier, held⟩
  · exact mine
  · exact alone key owner earlier held

theorem updateRow_drafts {me : SessionId} {table after : Table κ ρ} {key : κ} {cond : ρ → Bool}
    {change : ρ → ρ} {hit : Bool} (done : table.updateRow me key cond change = some (hit, after)) :
    table.Drafts me after := by
  rcases updateRow_cases done with ⟨-, rfl⟩ | ⟨-, -, version, -, -, rfl⟩
  · exact .same
  · exact .write key _

theorem Drafted.write {me : SessionId} {table : Table κ ρ} {key : κ} {version : Option ρ}
    {held held' : SessionId → Option κ} (drafted : table.Drafted held)
    (free : held me = none ∨ held me = some key) (mine : held' me = some key)
    (others : ∀ other, other ≠ me → held' other = held other) :
    (table.write me key version).Drafted held' := by
  intro other owner latest found
  by_cases here : other = key
  · subst here
    simp only [write_slot_self, Slot.write_draft, Option.some.injEq, Prod.mk.injEq] at found
    rw [← found.1, mine]
  · rw [write_slot_of_ne here] at found
    have before := drafted other owner latest found
    have different : owner ≠ me := by
      rintro rfl
      rcases free with none_ | same
      · rw [before] at none_
        cases none_
      · rw [before] at same
        exact here (Option.some.inj same)
    rw [others owner different]
    exact before

/-! ## A session that runs alone

When every draft belongs to one session, nothing waits, and the rows that the
session reads behave as one plain table. -/

section Alone

variable {me : SessionId} {table : Table κ ρ} {key other : κ}

theorem Only.write (alone : table.Only me) (key : κ) (version : Option ρ) :
    (table.write me key version).Only me := by
  intro other owner latest drafted
  by_cases same : other = key
  · subst same
    simp only [write_slot_self, Slot.write_draft, Option.some.injEq, Prod.mk.injEq] at drafted
    exact drafted.1.symm
  · rw [write_slot_of_ne same] at drafted
    exact alone other owner latest drafted

/-- The session reads what it has written, and every other row as before. -/
theorem row_write (version : Option ρ) :
    (table.write me key version).row me other = if other = key then version else table.row me other := by
  by_cases same : other = key
  · subst same
    simp [row, Slot.row_of_draft (Slot.write_draft me version (table.slot other))]
  · simp [row, write_slot_of_ne same, same]

theorem Only.updateRow (alone : table.Only me) (key : κ) (cond : ρ → Bool) (change : ρ → ρ) :
    table.updateRow me key cond change =
      match table.row me key with
      | some version =>
        if cond version then some (true, table.write me key (some (change version)))
        else some (false, table)
      | none => some (false, table) := by
  simp [Table.updateRow, alone.free key]

/-- What the session reads after its update. -/
theorem Only.updateRow_rows (alone : table.Only me) (key : κ) (cond : ρ → Bool) (change : ρ → ρ) :
    ∃ after, table.updateRow me key cond change = some (((table.row me key).map cond).getD false, after) ∧
      after.Only me ∧ ∀ other, after.row me other =
        if other = key then (table.row me other).map fun version =>
          if cond version then change version else version
        else table.row me other := by
  have unchanged (misses : ∀ version, table.row me key = some version → cond version = false) (other : κ) :
      table.row me other =
        if other = key then (table.row me other).map fun version =>
          if cond version then change version else version
        else table.row me other := by
    by_cases same : other = key
    · subst same
      cases found : table.row me other with
      | none => simp
      | some version => simp [misses version found]
    · rw [if_neg same]
  rw [alone.updateRow]
  cases found : table.row me key with
  | none => exact ⟨table, rfl, alone, unchanged (by simp [found])⟩
  | some version =>
    by_cases accepted : cond version = true
    · refine ⟨table.write me key (some (change version)), by simp [accepted], alone.write key _, fun other => ?_⟩
      rw [row_write]
      by_cases same : other = key
      · subst same
        simp [found, accepted]
      · rw [if_neg same, if_neg same]
    · exact ⟨table, by simp [accepted], alone, unchanged (by simpa [found] using accepted)⟩

theorem Only.insertRow (alone : table.Only me) (key : κ) (version : ρ) :
    table.insertRow me key version =
      match table.row me key with
      | some _ => some (false, table)
      | none => some (true, table.write me key (some version)) := by
  simp [Table.insertRow, alone.free key]

theorem Only.lockRow (alone : table.Only me) (key : κ) (cond : ρ → Bool) :
    table.lockRow me key cond =
      match table.row me key with
      | some version =>
        if cond version then (some version, table.write me key (some version)) else (none, table)
      | none => (none, table) := by
  simp [Table.lockRow, alone.free key]

/-- A session that runs alone waits for nobody to tell whether a value is taken. -/
theorem Only.clash (alone : table.Only me) (key : κ) (same : ρ → Bool) :
    table.clash me key same =
      some (table.keys.any fun other => decide (other ≠ key) && table.holds me other same) := by
  have held (other : κ) : (match (table.slot other).draft with
      | some (owner, version) =>
        owner != me && ((version.any same) || ((table.committed other).any same))
      | none => false) = false := by
    split
    · next owner version drafted => simp [alone other owner version drafted]
    · rfl
  simp [Table.clash, held]

end Alone

/-- A value is taken or free, as the rows of the others say that the session reads. -/
theorem clash_eq_true {me : SessionId} {table : Table κ ρ} {key : κ} {same : ρ → Bool}
    (taken : table.clash me key same = some true) :
    ∃ other version, other ≠ key ∧ table.row me other = some version ∧ same version = true := by
  simp only [clash] at taken
  split at taken
  · cases taken
  · rw [Option.some.injEq, List.any_eq_true] at taken
    obtain ⟨other, -, found⟩ := taken
    rw [Bool.and_eq_true, decide_eq_true_eq, holds_iff] at found
    obtain ⟨different, version, seen, taken⟩ := found
    exact ⟨other, version, different, seen, taken⟩

theorem clash_eq_false {me : SessionId} {table : Table κ ρ} {key : κ} {same : ρ → Bool}
    (free : table.clash me key same = some false) {other : κ} {version : ρ} (different : other ≠ key)
    (seen : table.row me other = some version) : same version = false := by
  simp only [clash] at free
  split at free
  · cases free
  · rw [Option.some.injEq, List.any_eq_false] at free
    have clear := free other (mem_keys_of_row seen)
    by_contra taken
    apply clear
    rw [Bool.and_eq_true, decide_eq_true_eq, holds_iff]
    exact ⟨different, version, seen, by simpa using taken⟩

/-- Rows that have been committed. -/
def seeded (rows : List (κ × ρ)) : Table κ ρ :=
  rows.foldl (fun table row => (table.write 0 row.1 (some row.2)).commit 0) empty

theorem seeded_quiet (rows : List (κ × ρ)) : (seeded rows).Quiet := by
  have fold : ∀ table : Table κ ρ, table.Quiet →
      (rows.foldl (fun table row => (table.write 0 row.1 (some row.2)).commit 0) table).Quiet := by
    induction rows with
    | nil => exact fun table quiet => quiet
    | cons row rest ih =>
      intro table quiet
      exact ih _ (Only.commit_quiet (Only.write quiet.only row.1 (some row.2)))
  exact fold empty fun key => rfl

end Table

/-! ## Flushing a loaded row -/

section Flush

variable {β : Type} [DecidableEq β]

/-- A column after the flush of a loaded row: it is written if it differs from what was loaded. -/
def flushedColumn (loaded latest stored : β) : β :=
  if latest = loaded then stored else latest

theorem flushedColumn_loaded (loaded latest : β) : flushedColumn loaded latest loaded = latest := by
  unfold flushedColumn
  split
  · next same => exact same.symm
  · rfl

theorem flushedColumn_latest (loaded latest : β) : flushedColumn loaded latest latest = latest := by
  unfold flushedColumn
  split <;> rfl

end Flush

end SogeconApp.Library
