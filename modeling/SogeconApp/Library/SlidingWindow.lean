import Mathlib.Algebra.Order.Group.Defs
import Mathlib.Algebra.Order.Sub.Unbundled.Basic
import Mathlib.Data.List.Pairwise
import Mathlib.Data.List.TakeWhile
import Mathlib.Logic.Function.Basic
import Mathlib.Tactic.Tauto

/-!
# Sliding windows

A limiter of `limit` attempts in `window` keeps for each key the times it has accepted. At an attempt
it drops from the front what is older than the window, and accepts if fewer than `limit` are left.

Its meaning is told by the accepted attempts alone: an attempt is accepted when fewer than `limit`
accepted ones of its key lie in the window that ends with it. For attempts in order of time the
buckets decide the same, although they lose old times only from the front and only at an attempt of
their own key.
-/

namespace SogeconApp.Library

namespace SlidingWindow

variable {A Key Time : Type} [DecidableEq Key] [LinearOrder Time]

/-! ## By the accepted attempts -/

section Attempts

variable (stamp : A → Key × Time)

/-- The attempts of a key in a closed interval. -/
def inWindow (past : List A) (key : Key) (first last : Time) : List A :=
  past.filter fun attempt => (stamp attempt).1 = key ∧ first ≤ (stamp attempt).2 ∧ (stamp attempt).2 ≤ last

/-- The attempts of a key. -/
def ofKey (key : Key) (past : List A) : List A := past.filter fun attempt => (stamp attempt).1 = key

theorem inWindow_append (past later : List A) (key : Key) (first last : Time) :
    inWindow stamp (past ++ later) key first last =
      inWindow stamp past key first last ++ inWindow stamp later key first last :=
  List.filter_append ..

theorem inWindow_ofKey (past : List A) (key : Key) (first last : Time) :
    inWindow stamp (ofKey stamp key past) key first last = inWindow stamp past key first last := by
  unfold inWindow ofKey
  rw [List.filter_filter]
  refine List.filter_congr fun attempt _ => Bool.eq_iff_iff.mpr ?_
  simp only [Bool.and_eq_true, decide_eq_true_eq]
  tauto

variable [AddCommGroup Time] (limit : Int) (window : Time)

def admits (past : List A) (attempt : A) : Bool :=
  ((inWindow stamp past (stamp attempt).1 ((stamp attempt).2 - window) (stamp attempt).2).length : Int) < limit

/-- What is accepted after an attempt. -/
def extend (past : List A) (attempt : A) : List A :=
  if admits stamp limit window past attempt then past ++ [attempt] else past

/-- The attempts with the verdict on each. -/
def verdicts (past : List A) : List A → List (A × Bool)
  | [] => []
  | attempt :: rest =>
    (attempt, admits stamp limit window past attempt) :: verdicts (extend stamp limit window past attempt) rest

/-- What is accepted in the end. -/
def accepted (past attempts : List A) : List A := attempts.foldl (extend stamp limit window) past

omit [AddCommGroup Time] in
/-- The attempts are in order of time, and none is before the past. -/
structure InOrder (past attempts : List A) : Prop where
  sorted : attempts.Pairwise fun earlier later => (stamp earlier).2 ≤ (stamp later).2
  after : ∀ old ∈ past, ∀ attempt ∈ attempts, (stamp old).2 ≤ (stamp attempt).2

end Attempts

section Accepted

variable {stamp : A → Key × Time} [AddCommGroup Time] {limit : Int} {window : Time}
  {past attempts rest : List A} {attempt : A}

/-- An attempt is turned down and leaves what was accepted, or is within the limit and joins it. -/
theorem admit_cases (stamp : A → Key × Time) (limit : Int) (window : Time) (past : List A) (attempt : A) :
    extend stamp limit window past attempt = past ∨
      extend stamp limit window past attempt = past ++ [attempt] ∧
        admits stamp limit window past attempt = true := by
  unfold extend
  split
  · next admitted => exact .inr ⟨rfl, admitted⟩
  · exact .inl rfl

theorem InOrder.extend (order : InOrder stamp past (attempt :: rest)) :
    InOrder stamp (SlidingWindow.extend stamp limit window past attempt) rest where
  sorted := (List.pairwise_cons.mp order.sorted).2
  after old member later comes := by
    have earlier := order.after old
    rcases admit_cases stamp limit window past attempt with same | ⟨added, -⟩
    · rw [same] at member
      exact earlier member later (List.mem_cons_of_mem _ comes)
    · rw [added] at member
      rcases List.mem_append.mp member with before | new
      · exact earlier before later (List.mem_cons_of_mem _ comes)
      · rw [List.mem_singleton.mp new]
        exact (List.pairwise_cons.mp order.sorted).1 later comes

theorem verdicts_append (first second : List A) :
    verdicts stamp limit window past (first ++ second) =
      verdicts stamp limit window past first ++
        verdicts stamp limit window (accepted stamp limit window past first) second := by
  induction first generalizing past with
  | nil => rfl
  | cons attempt rest ih =>
    simp only [List.cons_append, verdicts]
    rw [ih]
    rfl

@[simp] theorem length_verdicts : (verdicts stamp limit window past attempts).length = attempts.length := by
  induction attempts generalizing past with
  | nil => rfl
  | cons attempt rest ih => simp [verdicts, ih]

theorem verdicts_fst : (verdicts stamp limit window past attempts).map (·.1) = attempts := by
  induction attempts generalizing past with
  | nil => rfl
  | cons attempt rest ih => simp [verdicts, ih]

theorem accepted_eq : accepted stamp limit window past attempts =
    past ++ ((verdicts stamp limit window past attempts).filter (·.2)).map (·.1) := by
  induction attempts generalizing past with
  | nil => simp [accepted, verdicts]
  | cons attempt rest ih =>
    have step : accepted stamp limit window past (attempt :: rest) =
        accepted stamp limit window (SlidingWindow.extend stamp limit window past attempt) rest := rfl
    rw [step, ih, verdicts]
    cases admitted : admits stamp limit window past attempt <;>
      simp [SlidingWindow.extend, admitted]

/-- The verdict after the verdicts on the attempts before. -/
theorem verdicts_split {earlier later : List (A × Bool)} {admitted : Bool}
    (split : verdicts stamp limit window past attempts = earlier ++ (attempt, admitted) :: later) :
    attempts = earlier.map (·.1) ++ attempt :: later.map (·.1) ∧
      earlier = verdicts stamp limit window past (earlier.map (·.1)) ∧
      admitted = admits stamp limit window (accepted stamp limit window past (earlier.map (·.1))) attempt := by
  have listed := congrArg (List.map (·.1)) split
  rw [verdicts_fst, List.map_append, List.map_cons] at listed
  rw [listed, verdicts_append, verdicts] at split
  obtain ⟨before, after⟩ := List.append_inj split (by simp)
  have here := (List.cons.inj after).1
  exact ⟨listed, before.symm, (congrArg Prod.snd here).symm⟩

/-- An attempt that is denied changes no later verdict. -/
theorem verdicts_denied {earlier later : List (A × Bool)}
    (split : verdicts stamp limit window past attempts = earlier ++ (attempt, false) :: later) :
    verdicts stamp limit window past (earlier.map (·.1) ++ later.map (·.1)) = earlier ++ later := by
  obtain ⟨listed, before, denied⟩ := verdicts_split split
  rw [listed, verdicts_append, verdicts, ← before, extend, ← denied] at split
  rw [verdicts_append, ← before]
  exact congrArg (earlier ++ ·) (List.cons.inj (List.append_cancel_left split)).2

/-- The verdicts on the attempts of a key are those it would get alone. -/
theorem verdicts_ofKey (key : Key) :
    (verdicts stamp limit window past attempts).filter (fun entry => (stamp entry.1).1 = key) =
      verdicts stamp limit window (ofKey stamp key past) (ofKey stamp key attempts) := by
  induction attempts generalizing past with
  | nil => rfl
  | cons attempt rest ih =>
    by_cases mine : (stamp attempt).1 = key
    · have same : admits stamp limit window (ofKey stamp key past) attempt =
          admits stamp limit window past attempt := by
        subst mine
        simp only [admits, inWindow_ofKey]
      have onward : ofKey stamp key (SlidingWindow.extend stamp limit window past attempt) =
          SlidingWindow.extend stamp limit window (ofKey stamp key past) attempt := by
        unfold SlidingWindow.extend
        rw [same]
        split <;> simp [ofKey, mine]
      have first : ofKey stamp key (attempt :: rest) = attempt :: ofKey stamp key rest :=
        List.filter_cons_of_pos (by simpa using mine)
      rw [verdicts, List.filter_cons_of_pos (by simpa using mine), first, verdicts, ih, onward, same]
    · have onward : ofKey stamp key (SlidingWindow.extend stamp limit window past attempt) =
          ofKey stamp key past := by
        simp only [SlidingWindow.extend, ofKey]
        split <;> simp [mine]
      have first : ofKey stamp key (attempt :: rest) = ofKey stamp key rest :=
        List.filter_cons_of_neg (by simpa using mine)
      rw [verdicts, List.filter_cons_of_neg (by simpa using mine), first, ih, onward]

/-- No interval as long as the window holds more than the limit. -/
def Bounded (stamp : A → Key × Time) (limit : Int) (window : Time) (past : List A) : Prop :=
  ∀ key first, ((inWindow stamp past key first (first + window)).length : Int) ≤ limit

theorem Bounded.extend [IsOrderedAddMonoid Time] (bounded : Bounded stamp limit window past)
    (order : InOrder stamp past (attempt :: rest)) :
    Bounded stamp limit window (SlidingWindow.extend stamp limit window past attempt) := by
  rcases admit_cases stamp limit window past attempt with same | ⟨added, admitted⟩
  · rw [same]
    exact bounded
  · intro key first
    rw [added, inWindow_append, List.length_append]
    by_cases inside : (stamp attempt).1 = key ∧ first ≤ (stamp attempt).2 ∧ (stamp attempt).2 ≤ first + window
    · -- The others of the interval lie in the window that ends with the attempt.
      have others : (inWindow stamp past key first (first + window)).length ≤
          (inWindow stamp past (stamp attempt).1 ((stamp attempt).2 - window) (stamp attempt).2).length := by
        simp only [inWindow, ← List.countP_eq_length_filter]
        apply List.countP_mono_left
        intro old member held
        simp only [decide_eq_true_eq] at held ⊢
        refine ⟨held.1.trans inside.1.symm, ?_, order.after old member attempt List.mem_cons_self⟩
        exact (sub_le_iff_le_add.mpr inside.2.2).trans held.2.1
      have single : (inWindow stamp [attempt] key first (first + window)).length = 1 := by
        simp [inWindow, inside]
      simp only [admits, decide_eq_true_eq] at admitted
      omega
    · have outside : (inWindow stamp [attempt] key first (first + window)).length = 0 := by
        simpa [inWindow] using inside
      have before := bounded key first
      omega

/-- For attempts in order of time no interval of the window's length ever holds more than the limit. -/
theorem Bounded.accepted [IsOrderedAddMonoid Time] (bounded : Bounded stamp limit window past)
    (order : InOrder stamp past attempts) :
    Bounded stamp limit window (SlidingWindow.accepted stamp limit window past attempts) := by
  induction attempts generalizing past with
  | nil => exact bounded
  | cons attempt rest ih => exact ih (bounded.extend order) order.extend

end Accepted

/-! ## By the buckets -/

section Buckets

variable [AddCommGroup Time] (limit : Int) (window : Time)

/-- What is left of a bucket at an attempt. -/
def expire (now : Time) (bucket : List Time) : List Time := bucket.dropWhile fun time => window < now - time

/-- An attempt, and the bucket it leaves. -/
def attempt (bucket : List Time) (now : Time) : Bool × List Time :=
  let left := expire window now bucket
  if limit ≤ left.length then (false, left) else (true, left ++ [now])

def attemptAll (stamp : A → Key × Time) (table : Key → List Time) : List A → List (A × Bool)
  | [] => []
  | item :: rest =>
    let (key, now) := stamp item
    let (admitted, bucket) := attempt limit window (table key) now
    (item, admitted) :: attemptAll stamp (Function.update table key bucket) rest

/-- The times of a key. -/
def times (stamp : A → Key × Time) (past : List A) (key : Key) : List Time :=
  (ofKey stamp key past).map fun attempt => (stamp attempt).2

/-- A bucket holds the end of the accepted times of its key, and what it has lost is out of the window
of every attempt that is still to come. -/
structure Tracks (stamp : A → Key × Time) (past : List A) (table : Key → List Time) (attempts : List A) :
    Prop where
  order : InOrder stamp past attempts
  sorted : past.Pairwise fun earlier later => (stamp earlier).2 ≤ (stamp later).2
  held : ∀ key, ∃ lost, times stamp past key = lost ++ table key ∧
    ∀ time ∈ lost, ∀ attempt ∈ attempts, window < (stamp attempt).2 - time

end Buckets

section Tracks

variable {stamp : A → Key × Time} [AddCommGroup Time] {limit : Int} {window : Time} {past rest : List A}
  {item : A} {table : Key → List Time} {now : Time} {bucket : List Time}

theorem Tracks.bucket_sorted (tracks : Tracks window stamp past table rest) (key : Key) :
    (table key).Pairwise (· ≤ ·) := by
  obtain ⟨lost, split, -⟩ := tracks.held key
  have sorted : (times stamp past key).Pairwise (· ≤ ·) := List.pairwise_map.mpr (tracks.sorted.filter _)
  rw [split] at sorted
  exact (List.pairwise_append.mp sorted).2.1

/-- What an attempt adds to the times of its key. -/
def added (admitted : Bool) (now : Time) : List Time := if admitted then [now] else []

theorem attempt_bucket : (attempt limit window bucket now).2 =
    expire window now bucket ++ added (attempt limit window bucket now).1 now := by
  simp only [attempt]
  split <;> simp [added]

theorem times_extend : times stamp (extend stamp limit window past item) (stamp item).1 =
    times stamp past (stamp item).1 ++ added (admits stamp limit window past item) (stamp item).2 := by
  unfold extend added
  split <;> simp [times, ofKey]

theorem times_extend_other {other : Key} (different : (stamp item).1 ≠ other) :
    times stamp (extend stamp limit window past item) other = times stamp past other := by
  unfold extend
  split <;> simp [times, ofKey, different]

variable [IsOrderedAddMonoid Time]

/-- In a sorted bucket the old times are at the front. -/
theorem expire_eq_filter (sorted : bucket.Pairwise (· ≤ ·)) :
    expire window now bucket = bucket.filter fun time => now - window ≤ time := by
  induction bucket with
  | nil => rfl
  | cons time rest ih =>
    have sorted := List.pairwise_cons.mp sorted
    by_cases old : window < now - time
    · have outside : ¬now - window ≤ time := not_le.mpr (lt_sub_comm.mp old)
      rw [expire, List.dropWhile_cons_of_pos (by simpa using old),
        List.filter_cons_of_neg (by simpa using outside)]
      exact ih sorted.2
    · have inside : ∀ other ∈ time :: rest, now - window ≤ other := by
        intro other member
        have first : now - window ≤ time := not_lt.mp fun outside => old (lt_sub_comm.mpr outside)
        rcases List.mem_cons.mp member with rfl | later
        · exact first
        · exact first.trans (sorted.1 other later)
      rw [expire, List.dropWhile_cons_of_neg (by simpa using old)]
      exact (List.filter_eq_self.mpr fun other member => decide_eq_true (inside other member)).symm

/-- What is left of the bucket are the accepted times in the window. -/
theorem Tracks.expire_length (tracks : Tracks window stamp past table (item :: rest)) :
    (expire window (stamp item).2 (table (stamp item).1)).length =
      (inWindow stamp past (stamp item).1 ((stamp item).2 - window) (stamp item).2).length := by
  obtain ⟨lost, split, gone⟩ := tracks.held (stamp item).1
  have none_lost : lost.filter (fun time => (stamp item).2 - window ≤ time) = [] := by
    refine List.filter_eq_nil_iff.mpr fun time member => ?_
    have outside := gone time member item List.mem_cons_self
    simpa only [decide_eq_true_eq, not_le] using lt_sub_comm.mp outside
  calc (expire window (stamp item).2 (table (stamp item).1)).length
    _ = ((times stamp past (stamp item).1).filter fun time => (stamp item).2 - window ≤ time).length := by
      rw [expire_eq_filter (tracks.bucket_sorted _), split, List.filter_append, none_lost, List.nil_append]
    _ = (inWindow stamp past (stamp item).1 ((stamp item).2 - window) (stamp item).2).length := by
      rw [times, List.filter_map, List.length_map, ofKey, List.filter_filter, inWindow]
      refine congrArg List.length (List.filter_congr fun attempt member => Bool.eq_iff_iff.mpr ?_)
      have before := tracks.order.after attempt member item List.mem_cons_self
      simp only [Function.comp, Bool.and_eq_true, decide_eq_true_eq]
      tauto

/-- A bucket that tracks the accepted times decides an attempt as the window over all of them does. -/
theorem Tracks.admitted (tracks : Tracks window stamp past table (item :: rest)) :
    (attempt limit window (table (stamp item).1) (stamp item).2).1 = admits stamp limit window past item := by
  simp only [attempt, admits, ← tracks.expire_length]
  split
  · next full => simpa using full
  · next room => simpa using room

/-- One attempt. -/
theorem Tracks.step (tracks : Tracks window stamp past table (item :: rest)) :
    Tracks window stamp (extend stamp limit window past item)
      (Function.update table (stamp item).1 (attempt limit window (table (stamp item).1) (stamp item).2).2)
      rest where
  order := tracks.order.extend
  sorted := by
    rcases admit_cases stamp limit window past item with same | ⟨added, -⟩
    · rw [same]
      exact tracks.sorted
    · rw [added]
      refine List.pairwise_append.mpr ⟨tracks.sorted, List.pairwise_singleton .., ?_⟩
      intro old member new single
      rw [List.mem_singleton.mp single]
      exact tracks.order.after old member item List.mem_cons_self
  held other := by
    obtain ⟨lost, split, gone⟩ := tracks.held other
    by_cases mine : other = (stamp item).1
    · subst mine
      refine ⟨lost ++ (table (stamp item).1).takeWhile fun time => window < (stamp item).2 - time, ?_, ?_⟩
      · rw [times_extend, split, Function.update_self, attempt_bucket, tracks.admitted]
        simp only [expire, List.append_assoc, ← List.append_assoc (List.takeWhile _ _),
          List.takeWhile_append_dropWhile]
      · intro time member later comes
        rcases List.mem_append.mp member with before | dropped
        · exact gone time before later (List.mem_cons_of_mem _ comes)
        · have old : window < (stamp item).2 - time := by simpa using List.mem_takeWhile_imp dropped
          have order := (List.pairwise_cons.mp tracks.order.sorted).1 later comes
          exact old.trans_le (sub_le_sub_right order time)
    · refine ⟨lost, ?_, fun time member later comes => gone time member later (List.mem_cons_of_mem _ comes)⟩
      rw [times_extend_other (Ne.symm mine), Function.update_of_ne mine, split]

/-- Over attempts in order of time the buckets decide as the window does, from any past that they track.
-/
theorem Tracks.attemptAll_eq {attempts : List A} (tracks : Tracks window stamp past table attempts) :
    attemptAll limit window stamp table attempts = verdicts stamp limit window past attempts := by
  induction attempts generalizing past table with
  | nil => rfl
  | cons item rest ih =>
    simp only [attemptAll, verdicts]
    rw [ih tracks.step, tracks.admitted]

/-- From empty buckets on, attempts in order of time are decided by the window. -/
theorem attemptAll_eq {attempts : List A}
    (sorted : attempts.Pairwise fun earlier later => (stamp earlier).2 ≤ (stamp later).2) :
    attemptAll limit window stamp (fun _ => []) attempts = verdicts stamp limit window [] attempts :=
  Tracks.attemptAll_eq ⟨⟨sorted, nofun⟩, .nil, fun _ => ⟨[], rfl, nofun⟩⟩

end Tracks

end SlidingWindow

end SogeconApp.Library
