import SogeconApp.Guarantees.Accounts.Alone

/-!
# The unique columns of the members

An e-mail address and a phone number are stored for one member at most. A write is refused exactly
where another row has the value, so the rows that a session reads stay distinct, and with them what
its commit publishes.
-/

namespace SogeconApp.Guarantees.UniqueColumns

open Library Program Source.Accounts AccountsAlone

/-- No two rows have the same value in the column. -/
def Distinct (column : Member → Option String) (view : String → Option Member) : Prop :=
  ∀ first second row row' value, first ≠ second → view first = some row → view second = some row' →
    column row = some value → column row' ≠ some value

/-- Another row has the value. -/
def Taken (column : Member → Option String) (view : String → Option Member) (studentId : String)
    (value : Option String) : Prop :=
  value ≠ none ∧ ∃ other row, other ≠ studentId ∧ view other = some row ∧ column row = value

variable {me : SessionId} {world world' : World} {studentId : String} {column : Member → Option String}
  {members : Table String Member} {row : Member}

theorem Distinct.write (distinct : Distinct column (world.members.row me))
    (free : ¬Taken column (world.members.row me) studentId (column row)) :
    Distinct column ((world.members.write me studentId (some row)).row me) := by
  intro first second row₁ row₂ value different found found' has has'
  rw [Table.row_write] at found found'
  by_cases mine : first = studentId
  · by_cases mine' : second = studentId
    · exact different (mine.trans mine'.symm)
    · rw [if_pos mine, Option.some.injEq] at found
      rw [if_neg mine'] at found'
      subst found
      exact free ⟨by simp [has], second, row₂, mine', found', has'.trans has.symm⟩
  · rw [if_neg mine] at found
    by_cases mine' : second = studentId
    · rw [if_pos mine', Option.some.injEq] at found'
      subst found'
      exact free ⟨by simp [has'], first, row₁, mine, found, has.trans has'.symm⟩
    · rw [if_neg mine'] at found'
      exact distinct first second row₁ row₂ value different found found' has has'

/-! ## What a write is refused for -/

/-- The check of one column. -/
theorem clash_iff_taken (alone : members.Only me) (column : Member → Option String)
    (own : members.row me studentId = some row) :
    ∃ clash, (members.clash me studentId fun other =>
        (column other).isSome && (members.row me studentId).any fun row => column other = column row) =
        some clash ∧
      (clash = true ↔ Taken column (members.row me) studentId (column row)) := by
  have same (other : Member) : ((column other).isSome && (members.row me studentId).any fun row =>
      column other = column row) = true ↔ column row ≠ none ∧ column other = column row := by
    rw [own, Option.any_some, Bool.and_eq_true, decide_eq_true_eq, Option.isSome_iff_ne_none]
    constructor
    · rintro ⟨some_, same⟩
      exact ⟨same ▸ some_, same⟩
    · rintro ⟨some_, same⟩
      exact ⟨same ▸ some_, same⟩
  cases found : members.clash me studentId fun other =>
      (column other).isSome && (members.row me studentId).any fun row => column other = column row with
  | none =>
    rw [alone.clash] at found
    cases found
  | some clash =>
    refine ⟨clash, rfl, ?_⟩
    cases clash with
    | true =>
      obtain ⟨other, version, different, seen, taken⟩ := Table.clash_eq_true found
      obtain ⟨some_, equal⟩ := (same version).mp taken
      exact iff_of_true rfl ⟨some_, other, version, different, seen, equal⟩
    | false =>
      refine iff_of_false nofun ?_
      rintro ⟨some_, other, version, different, seen, equal⟩
      have free := Table.clash_eq_false found different seen
      rw [(same version).mpr ⟨some_, equal⟩] at free
      cases free

open Classical in
/-- A row is stored unless its address or its number is another row's. -/
theorem storeMember_eq (alone : members.Only me) (own : members.row me studentId = some row) :
    storeMember me studentId members world = some
      (if Taken Member.email (members.row me) studentId row.email then
        (.error (.unique .memberEmail), world)
      else if Taken Member.phone (members.row me) studentId row.phone then
        (.error (.unique .memberPhone), world)
      else (.ok (), { world with members })) := by
  obtain ⟨email, emailClash, emailTaken⟩ := clash_iff_taken alone Member.email own
  obtain ⟨phone, phoneClash, phoneTaken⟩ := clash_iff_taken alone Member.phone own
  simp only [storeMember, memberClash, emailClash, phoneClash, Option.bind_eq_bind, Option.bind_some,
    Option.pure_def, ← emailTaken, ← phoneTaken]
  cases email <;> cases phone <;> rfl

/-- The rows of the others are those that the session read before its write. -/
theorem taken_write {column : Member → Option String} {value : Option String} {version : Option Member} :
    Taken column ((world.members.write me studentId version).row me) studentId value ↔
      Taken column (world.members.row me) studentId value := by
  have others (other : String) (different : other ≠ studentId) :
      (world.members.write me studentId version).row me other = world.members.row me other := by
    rw [Table.row_write, if_neg different]
  constructor
  · rintro ⟨some_, other, row, different, found, same⟩
    exact ⟨some_, other, row, different, by rwa [others other different] at found, same⟩
  · rintro ⟨some_, other, row, different, found, same⟩
    exact ⟨some_, other, row, different, by rwa [others other different], same⟩

/-! ## What a session keeps -/

/-- Both columns are distinct. -/
structure Unique (view : String → Option Member) : Prop where
  email : Distinct Member.email view
  phone : Distinct Member.phone view

/-- What the database holds between two transactions. -/
structure Constrained (world : World) : Prop extends Resting world where
  unique : Unique world.members.committed

/-- What a session keeps that runs alone: its own view is distinct, and so is what is committed. -/
structure Keyed (me : SessionId) (world : World) : Prop extends Solo me world where
  committed : Unique world.members.committed
  view : Unique (world.members.row me)

theorem Constrained.keyed (constrained : Constrained world) (me : SessionId) : Keyed me world where
  toSolo := constrained.toResting.solo me
  committed := constrained.unique
  view := by
    have same : world.members.row me = world.members.committed :=
      funext fun key => constrained.members.row_eq me key
    rw [same]
    exact constrained.unique

theorem Keyed.rollback (keyed : Keyed me world) : Constrained (world.rollback me) where
  toResting := keyed.toSolo.rollback
  unique := by
    have same : (world.rollback me).members.committed = world.members.committed :=
      funext fun key => Table.abort_committed
    rw [same]
    exact keyed.committed

/-- What a write stores is free. -/
theorem storeMember_ok (alone : members.Only me) (own : members.row me studentId = some row)
    (done : storeMember me studentId members world = some (.ok (), world')) :
    ¬Taken Member.email (members.row me) studentId row.email ∧
      ¬Taken Member.phone (members.row me) studentId row.phone := by
  rw [storeMember_eq alone own] at done
  split at done
  · cases done
  · next email =>
    split at done
    · cases done
    · next phone => exact ⟨email, phone⟩

/-- The member row that a statement writes. -/
inductive Writes (me : SessionId) (world : World) : Stmt → String → Member → Prop
  | insert {studentId : String} {row : Member} :
      Writes me world (.insertMember studentId row) studentId row
  | flush {studentId : String} {loaded latest stored : Member}
      (seen : world.members.row me studentId = some stored) :
      Writes me world (.flushMember studentId loaded latest) studentId
        (flushedMember loaded latest stored)

/-- The row is stored, the others as the session read them. -/
structure Wrote (me : SessionId) (stmt : Stmt) (studentId : String) (row : Member)
    (world world' : World) : Prop where
  writes : Writes me world stmt studentId row
  members : world'.members = world.members.write me studentId (some row)
  email : ¬Taken Member.email (world.members.row me) studentId row.email
  phone : ¬Taken Member.phone (world.members.row me) studentId row.phone

theorem storeMember_wrote (solo : Solo me world) {stmt : Stmt} {reply : Except Failure Unit}
    (writes : Writes me world stmt studentId row)
    (done : storeMember me studentId (world.members.write me studentId (some row)) world =
      some (reply, world')) : world'.members = world.members ∨ Wrote me stmt studentId row world world' := by
  rcases storeMember_cases done with ⟨-, rfl⟩ | ⟨rfl, rfl⟩
  · exact .inl rfl
  · have own : (world.members.write me studentId (some row)).row me studentId = some row := by
      rw [Table.row_write, if_pos rfl]
    obtain ⟨email, phone⟩ := storeMember_ok (solo.members.write studentId (some row)) own done
    rw [taken_write] at email phone
    exact .inr ⟨writes, rfl, email, phone⟩

/-- What a statement does to the rows of the members. -/
theorem answer_members (solo : Solo me world) {stmt : Stmt} {choice : Choice}
    {reply : Except Failure (Reply stmt)}
    (done : Source.Accounts.answer me stmt choice world = some (reply, world')) :
    world'.members = world.members ∨ stmt = .commit ∨ world'.members = world.members.abort me ∨
      ∃ studentId row, Wrote me stmt studentId row world world' := by
  cases stmt with
  | now | getMember _ | emailTaken _ _ | phoneTaken _ _ | countActiveMembersWithRole _
  | pendingByStudentId _ | getSignupRequest _ | insertIssueLog _ | getAuth _ | refresh =>
    cases done
    exact .inl rfl
  | commit => exact .inr (.inl rfl)
  | rollback =>
    cases done
    exact .inr (.inr (.inl rfl))
  | advisoryLock =>
    simp only [Source.Accounts.answer] at done
    split at done
    · split at done <;> cases done
      exact .inl rfl
    · cases done
      exact .inl rfl
  | insertMember studentId row =>
    obtain ⟨⟨fresh, members⟩, inserted, stored⟩ := Option.bind_eq_some_iff.mp done
    rcases Table.insertRow_cases inserted with ⟨rfl, rfl⟩ | ⟨rfl, -, -, rfl⟩
    · cases stored
      exact .inl rfl
    · exact (storeMember_wrote solo .insert stored).imp_right fun wrote => .inr (.inr ⟨_, _, wrote⟩)
  | flushMember studentId loaded latest =>
    obtain ⟨⟨found, members⟩, updated, stored⟩ := Option.bind_eq_some_iff.mp done
    rcases Table.updateRow_cases updated with ⟨rfl, rfl⟩ | ⟨rfl, -, version, seen, -, rfl⟩
    · cases stored
      exact .inl rfl
    · exact (storeMember_wrote solo (.flush seen) stored).imp_right fun wrote =>
        .inr (.inr ⟨_, _, wrote⟩)
  | insertSignupRequest row =>
    rcases insertSignupRequest_cases done with ⟨-, rfl⟩ | ⟨-, rfl⟩ <;> exact .inl rfl
  | flushSignupRequest id loaded latest =>
    rcases flushSignupRequest_cases done with ⟨-, rfl⟩ | ⟨-, -, stored, -, rfl⟩ <;> exact .inl rfl
  | insertAuth through studentId row =>
    rcases insertAuth_cases done with ⟨-, rfl⟩ | ⟨-, rfl⟩ <;> exact .inl rfl
  | updateAuth through studentId passwordHash =>
    rcases updateAuth_cases done with ⟨-, rfl⟩ | ⟨-, rfl⟩ <;> exact .inl rfl

/-- The view of a session after a statement, where each write is one that a property of the view
survives. -/
theorem view_exec {held : (String → Option Member) → Prop} (solo : Solo me world)
    (committed : held world.members.committed) (view : held (world.members.row me))
    {stmt : Stmt} {choice : Choice} {reply : Except Failure (Reply stmt)}
    (written : ∀ studentId row, Wrote me stmt studentId row world world' →
      held ((world.members.write me studentId (some row)).row me))
    (done : machine.exec me stmt choice world = some (reply, world')) :
    held world'.members.committed ∧ held (world'.members.row me) := by
  by_cases commits : stmt = .commit
  · subst commits
    rcases answering.exec_cases done with ⟨reason, -, -, rfl⟩ | ⟨-, answered⟩
    · exact ⟨committed, view⟩
    · cases answered
      have published : (world.commit me).members.committed = world.members.row me :=
        funext fun key => solo.members.committed_commit
      have same : (world.commit me).members.row me = (world.commit me).members.committed :=
        funext fun key => solo.members.commit_quiet.row_eq me key
      rw [same, published]
      exact ⟨view, view⟩
  · have kept : world'.members.committed = world.members.committed :=
      funext (exec_drafts done commits).members.committed
    refine ⟨by rw [kept]; exact committed, ?_⟩
    rcases answering.exec_cases done with ⟨reason, -, -, rfl⟩ | ⟨-, answered⟩
    · exact view
    · rcases answer_members solo answered with same | absurd_ | aborted | ⟨studentId, row, wrote⟩
      · rw [same]
        exact view
      · exact absurd absurd_ commits
      · have published : world'.members.row me = world.members.committed := by
          rw [aborted]
          exact funext fun key => (solo.members.abort_quiet.row_eq me key).trans Table.abort_committed
        rw [published]
        exact committed
      · rw [wrote.members]
        exact written studentId row wrote

theorem Keyed.exec (keyed : Keyed me world) {stmt : Stmt} {choice : Choice}
    {reply : Except Failure (Reply stmt)}
    (done : machine.exec me stmt choice world = some (reply, world')) : Keyed me world' := by
  obtain ⟨committed, view⟩ := view_exec keyed.toSolo keyed.committed keyed.view
    (fun studentId row wrote => ⟨keyed.view.email.write wrote.email, keyed.view.phone.write wrote.phone⟩)
    done
  exact ⟨keyed.toSolo.exec done, committed, view⟩

theorem Distinct.blank (column : Member → Option String) :
    Distinct column World.blank.members.committed := by
  intro first second row row' value different found
  cases found

/-- No row, and so none that has a value twice. -/
theorem blank_constrained : Constrained .blank where
  members _ := rfl
  signupRequests _ := rfl
  issueLogs _ := rfl
  auths _ := rfl
  advisory := rfl
  unique := ⟨Distinct.blank Member.email, Distinct.blank Member.phone⟩

/-- The requests keep what the database holds, one after the other and whatever fails in them. -/
theorem constrained_turns {ι : Type} {program : ι → Handler Unit} {turns : List (Turn machine ι)}
    {after : World} (start : Constrained world) (served : machine.turns program turns world = some after) :
    Constrained after := by
  induction turns generalizing world with
  | nil =>
    cases served
    exact start
  | cons turn rest ih =>
    obtain ⟨⟨out, reached⟩, done, served⟩ := Option.bind_eq_some_iff.mp served
    have keyed : Keyed turn.me reached :=
      Machine.eval_keeps (fun _ _ _ _ _ keyed done => keyed.exec done) (start.keyed turn.me) done
    exact ih keyed.rollback served

/-- Requests one after the other, in which no statement fails. -/
def inSequence {ι : Type} (requests : List ι) : List (Turn machine ι) :=
  requests.map fun request => { me := 0, request, choices := fun _ => {} }

end SogeconApp.Guarantees.UniqueColumns
