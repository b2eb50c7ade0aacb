import SogeconApp.Library.Sessions

/-!
# Programs confined to some statements

While nothing raises, a program may issue statements of one kind only, whatever is answered. What each
of these statements keeps, the program keeps, and this joins what is known of the program otherwise.
-/

namespace SogeconApp.Library

/-- The statements of a kind, and what is known of their answers. -/
structure Kind (S : Signature) where
  within : S.Stmt → Prop
  answers : (stmt : S.Stmt) → S.Reply stmt → Prop

namespace Kind

variable {S : Signature} {α β : Type} {K : Kind S} {Q : α → Prop}

/-- Every statement is of the kind, and is answered. -/
def rules (K : Kind S) : Rules S Unit where
  allow _ := K.within
  after _ stmt reply _ := ∃ answer, reply = .ok answer ∧ K.answers stmt answer

/-- The program stays within the kind and returns what `Q` describes; it raises nothing by itself. -/
def Confined (K : Kind S) (program : Program S α) (Q : α → Prop) : Prop :=
  program.Ensures K.rules (fun value _ => Q value) (fun _ _ => False) ()

namespace Confined

theorem ret {value : α} (returned : Q value) : K.Confined (pure value) Q := returned

/-- Two confined programs one after the other are confined, with what the first one returned known to
the second. -/
theorem bind {program : Program S β} {next : β → Program S α} {middle : β → Prop}
    (first : K.Confined program middle) (then_ : ∀ value, middle value → K.Confined (next value) Q) :
    K.Confined (program >>= next) Q := by
  unfold Confined
  rw [Program.bind_eq, Program.ensures_bind]
  exact Program.Ensures.weaken first (fun value _ => then_ value) fun _ _ never => never

theorem ask {stmt : S.Stmt} {Q : S.Reply stmt → Prop} (within : K.within stmt)
    (answered : ∀ answer, K.answers stmt answer → Q answer) : K.Confined (Program.issue stmt) Q := by
  refine (Program.ensures_issue ()).mpr ⟨within, ?_, ?_⟩
  · rintro answer _ ⟨_, same, known⟩
    cases same
    exact answered answer known
  · rintro reason _ ⟨_, same, -⟩
    cases same

/-- A handler is not reached. -/
theorem «catch» {program : Program S α} {handler : S.Exn → Program S α} (body : K.Confined program Q) :
    K.Confined (program.catchWith handler) Q := by
  unfold Confined
  rw [Program.ensures_catchWith]
  exact Program.Ensures.weaken body (fun _ _ returned => returned) fun _ _ never => never.elim

/-- A loop is confined if every round of it is, however often it goes round. -/
theorem forEach {ι : Type} {body : ι → Program S Unit} {items : List ι}
    (each : ∀ item ∈ items, K.Confined (body item) fun _ => True) :
    K.Confined (Program.forEach body items) fun _ => True :=
  Program.ensures_forEach_same (fun _ => True) items trivial fun item member _ _ => each item member

theorem collectEach {ι : Type} {body : ι → Program S (Option β)} {Q : β → Prop} {items : List ι}
    (each : ∀ item ∈ items, K.Confined (body item) fun found => ∀ value ∈ found, Q value) :
    K.Confined (Program.collectEach body items) fun found => ∀ value ∈ found, Q value := by
  induction items with
  | nil => exact ret fun _ absent => absurd absent List.not_mem_nil
  | cons item rest ih =>
    refine (each item List.mem_cons_self).bind fun found holds => ?_
    refine (ih fun other member => each other (List.mem_cons_of_mem _ member)).bind fun others hold => ret ?_
    intro value member
    rcases List.mem_append.mp member with first | later
    · exact holds value (Option.mem_toList.mp first)
    · exact hold value later

end Confined

/-- What the statements of the kind keep, a session alone keeps beside what else it ensures. -/
theorem Confined.alone {M : Machine S} {me : SessionId} {may : M.Choice → Prop} {I : M.World → Prop}
    {program : Program S α} {R : α → M.World → Prop} {E : S.Exn → M.World → Prop} {world : M.World}
    (confined : K.Confined program Q)
    (keeps : ∀ stmt choice world reply world', K.within stmt → may choice → I world →
      M.exec me stmt choice world = some (reply, world') →
        I world' ∧ ∃ answer, reply = .ok answer ∧ K.answers stmt answer)
    (start : I world) (ensures : program.Ensures (M.alone me may) R E world) :
    program.Ensures (M.alone me may) (fun value after => Q value ∧ R value after ∧ I after)
      (fun _ _ => False) world := by
  induction program generalizing world with
  | ret value => exact ⟨confined, ensures, start⟩
  | raise reason => exact confined.elim
  | exec stmt next ih =>
    refine ⟨ensures.1, ?_⟩
    rintro reply world' ⟨choice, allowed, done⟩
    obtain ⟨kept, answered⟩ := keeps stmt choice world reply world' confined.1 allowed start done
    exact ih reply (confined.2 reply () answered) kept (ensures.2 reply world' ⟨choice, allowed, done⟩)

end Kind

end SogeconApp.Library
