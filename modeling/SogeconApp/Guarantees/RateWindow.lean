import SogeconApp.Library.SlidingWindow
import SogeconApp.Source.RateLimits

/-!
# The rate window of member posts

The buckets of the table decide as a sliding window over the accepted attempts does: an attempt is
accepted when fewer than the limit were accepted for its client in the closed window that ends with it.
-/

namespace SogeconApp.Guarantees.RateWindow

open Library Source.MediaPaths Source.RateLimits

section Window

variable (ip : IpRules) (lower : Text → Text) (settings : Settings) (limitValue : Text)

/-- Attempts in a row, each with what came of it. -/
def enforceAll (table : MemberRateTable) :
    List (Request × ℚ) → List ((Request × ℚ) × Except Failure Unit)
  | [] => []
  | attempt :: rest =>
    let (outcome, after) := enforceMemberPostLimit ip lower settings limitValue attempt.1 attempt.2 table
    (attempt, outcome) :: enforceAll after rest

/-- The attempts from the start of the process. -/
def log (attempts : List (Request × ℚ)) : List ((Request × ℚ) × Except Failure Unit) :=
  enforceAll ip lower settings limitValue (fun _ => []) attempts

/-- The client that an attempt counts for. -/
def keyOf (request : Request) : Text :=
  match getClientIpForRateLimit ip settings request with
  | .ok key => key
  | .error _ => []

/-- The accepted attempts of a key in a closed interval. -/
def acceptedWithin (entries : List ((Request × ℚ) × Except Failure Unit)) (key : Text) (first last : ℚ) :
    List ((Request × ℚ) × Except Failure Unit) :=
  entries.filter fun entry => entry.2.isOk ∧ keyOf ip settings entry.1.1 = key ∧ first ≤ entry.1.2 ∧
    entry.1.2 ≤ last

/-- What the window promises of a log. -/
structure Exact (amount : Int) (window : ℚ) (attempts : List (Request × ℚ)) : Prop where
  /-- An attempt is accepted when fewer than `amount` accepted ones of its key lie in its window. -/
  accepts : ∀ earlier attempt outcome later,
    log ip lower settings limitValue attempts = earlier ++ (attempt, outcome) :: later →
      outcome =
        if ((acceptedWithin ip settings earlier (keyOf ip settings attempt.1) (attempt.2 - window)
            attempt.2).length : Int) < amount then .ok ()
        else .error (.http 429 "rate_limited")
  /-- No closed interval as long as the window holds more than `amount` accepted ones of a key. -/
  bounded : ∀ key first,
    ((acceptedWithin ip settings (log ip lower settings limitValue attempts) key first
      (first + window)).length : Int) ≤ amount
  /-- Without a denied attempt the others end the same. -/
  denied : ∀ earlier attempt reason later,
    log ip lower settings limitValue attempts = earlier ++ (attempt, .error reason) :: later →
      log ip lower settings limitValue (earlier.map (·.1) ++ later.map (·.1)) = earlier ++ later
  /-- The attempts of a key end as they would alone. -/
  alone : ∀ key, (log ip lower settings limitValue attempts).filter (keyOf ip settings ·.1.1 = key) =
    log ip lower settings limitValue (attempts.filter (keyOf ip settings ·.1 = key))

end Window

section Simulation

variable {ip : IpRules} {lower : Text → Text} {settings : Settings} {limitValue : Text} {amount : Int}
  {window : ℚ} {table : MemberRateTable} {attempts : List (Request × ℚ)}

/-- The requests outside of a test, and the limit that was read. -/
structure Enforced (lower : Text → Text) (settings : Settings) (limitValue : Text) (amount : Int)
    (window : ℚ) : Prop where
  live : shouldSkipRateLimit lower settings = false
  parsed : parseRateLimit lower limitValue = .ok (amount, window)

/-- The proxies are never refused at a request. -/
theorem proxyEntry_ok (part : Text) : ∃ entry, proxyEntry ip false part = .ok entry := by
  unfold proxyEntry
  simp only [Bool.false_eq_true, if_false]
  split_ifs <;> exact ⟨_, rfl⟩

theorem parseTrustedProxies_ok (raw : Text) : ∃ trusted, parseTrustedProxies ip false raw = .ok trusted := by
  have entries (parts : List Text) : ∃ entries, parts.mapM (proxyEntry ip false) = .ok entries := by
    induction parts with
    | nil => exact ⟨[], rfl⟩
    | cons part rest ih =>
      obtain ⟨entry, read⟩ := @proxyEntry_ok ip part
      obtain ⟨others, rest_⟩ := ih
      rw [List.mapM_cons, read, rest_]
      exact ⟨entry :: others, rfl⟩
  obtain ⟨found, read⟩ := entries (raw.splitOn ',')
  unfold parseTrustedProxies
  split
  · exact ⟨[], rfl⟩
  · rw [read]
    exact ⟨_, rfl⟩

theorem getClientIp_keyOf (request : Request) :
    getClientIpForRateLimit ip settings request = .ok (keyOf ip settings request) := by
  obtain ⟨trusted, read⟩ := @parseTrustedProxies_ok ip settings.trustedProxyIps
  simp only [keyOf, getClientIpForRateLimit, read]
  rfl

theorem popOld_eq_expire (now : ℚ) (bucket : List ℚ) :
    popOld window now bucket = SlidingWindow.expire window now bucket := by
  induction bucket with
  | nil => rfl
  | cons first rest ih =>
    simp only [popOld, SlidingWindow.expire, List.dropWhile_cons, decide_eq_true_eq] at ih ⊢
    split
    · exact ih
    · rfl

/-- What came of an attempt. -/
def outcomeOf (admitted : Bool) : Except Failure Unit :=
  if admitted then .ok () else .error (.http 429 "rate_limited")

/-- The limit decides as the sliding window over the bucket of the client, and changes no other bucket.
-/
theorem enforce_eq (enforced : Enforced lower settings limitValue amount window) (request : Request) (now : ℚ) :
    enforceMemberPostLimit ip lower settings limitValue request now table =
      (outcomeOf (SlidingWindow.attempt amount window (table (keyOf ip settings request)) now).1,
        Function.update table (keyOf ip settings request)
          (SlidingWindow.attempt amount window (table (keyOf ip settings request)) now).2) := by
  simp only [enforceMemberPostLimit, enforced.live, enforced.parsed, getClientIp_keyOf,
    Bool.false_eq_true, if_false,
    popOld_eq_expire, SlidingWindow.attempt]
  split <;> rfl

/-- An attempt as its key and its time. -/
def keyed (ip : IpRules) (settings : Settings) (attempt : Request × ℚ) : Text × ℚ :=
  (keyOf ip settings attempt.1, attempt.2)

/-- A verdict as the outcome of a request. -/
def entryOf (entry : (Request × ℚ) × Bool) : (Request × ℚ) × Except Failure Unit := (entry.1, outcomeOf entry.2)

/-- The table decides as the buckets of the sliding window do. -/
theorem enforceAll_eq (enforced : Enforced lower settings limitValue amount window) :
    enforceAll ip lower settings limitValue table attempts =
      (SlidingWindow.attemptAll amount window (keyed ip settings) table attempts).map entryOf := by
  induction attempts generalizing table with
  | nil => rfl
  | cons attempt rest ih =>
    simp only [enforceAll, enforce_eq enforced, ih, SlidingWindow.attemptAll]
    rfl

theorem log_eq (enforced : Enforced lower settings limitValue amount window)
    (sorted : attempts.Pairwise fun earlier later => earlier.2 ≤ later.2) :
    log ip lower settings limitValue attempts =
      (SlidingWindow.verdicts (keyed ip settings) amount window [] attempts).map entryOf := by
  have decided : SlidingWindow.attemptAll amount window (keyed ip settings) (fun _ => []) attempts =
      SlidingWindow.verdicts (keyed ip settings) amount window [] attempts := SlidingWindow.attemptAll_eq sorted
  rw [log, enforceAll_eq enforced, decided]

theorem acceptedWithin_length (entries : List ((Request × ℚ) × Bool)) (key : Text) (first last : ℚ) :
    (acceptedWithin ip settings (entries.map entryOf) key first last).length =
      (SlidingWindow.inWindow (keyed ip settings) ((entries.filter (·.2)).map (·.1)) key first last).length := by
  rw [acceptedWithin, SlidingWindow.inWindow, List.filter_map, List.filter_map, List.length_map, List.length_map,
    List.filter_filter]
  refine congrArg List.length (List.filter_congr fun entry _ => Bool.eq_iff_iff.mpr ?_)
  cases verdict : entry.2 with
  | false => simp [entryOf, outcomeOf, verdict, Except.isOk, Except.toBool]
  | true =>
    simp only [Function.comp, entryOf, outcomeOf, verdict, Except.isOk, Except.toBool, if_true, true_and,
      decide_eq_true_eq, Bool.and_true]
    exact Iff.rfl

/-- A log that is split is the log of two lists of verdicts. -/
theorem split_entries {entries : List ((Request × ℚ) × Bool)}
    {earlier later : List ((Request × ℚ) × Except Failure Unit)}
    {attempt : Request × ℚ} {outcome : Except Failure Unit}
    (split : entries.map entryOf = earlier ++ (attempt, outcome) :: later) :
    ∃ before admitted after, entries = before ++ (attempt, admitted) :: after ∧ before.map entryOf = earlier ∧
      outcomeOf admitted = outcome ∧ after.map entryOf = later := by
  obtain ⟨before, rest, rfl, front, back⟩ := List.map_eq_append_iff.mp split
  obtain ⟨⟨attempt', admitted⟩, after, rfl, same, last⟩ := List.map_eq_cons_iff.mp back
  cases same
  exact ⟨before, admitted, after, rfl, front, rfl, last⟩

theorem map_entryOf_fst (entries : List ((Request × ℚ) × Bool)) :
    (entries.map entryOf).map (·.1) = entries.map (·.1) := by
  rw [List.map_map]
  rfl

end Simulation

/-- Outside of a test, for attempts in order of time, the window is exact: it accepts up to its amount
for each key, counts no attempt that it denied, and keeps the keys apart. -/
theorem member_post_window (ip : IpRules) {lower : Text → Text} {settings : Settings} {limitValue : Text}
    {amount : Int} {window : ℚ} (enforced : Enforced lower settings limitValue amount window)
    (count : 0 ≤ amount) {attempts : List (Request × ℚ)}
    (sorted : attempts.Pairwise fun earlier later => earlier.2 ≤ later.2) :
    Exact ip lower settings limitValue amount window attempts := by
  have logged : log ip lower settings limitValue attempts =
      (SlidingWindow.verdicts (keyed ip settings) amount window [] attempts).map entryOf := log_eq enforced sorted
  constructor
  · intro earlier attempt outcome later split
    rw [logged] at split
    obtain ⟨before, admitted, after, verdicts, rfl, rfl, rfl⟩ := split_entries split
    obtain ⟨-, same, decided⟩ := SlidingWindow.verdicts_split verdicts
    rw [SlidingWindow.accepted_eq, ← same, List.nil_append] at decided
    rw [acceptedWithin_length, decided, SlidingWindow.admits]
    simp only [outcomeOf, decide_eq_true_eq]
    rfl
  · intro key first
    have bounded : SlidingWindow.Bounded (keyed ip settings) amount window [] := by
      intro key first
      exact count
    have order : SlidingWindow.InOrder (keyed ip settings) [] attempts := ⟨sorted, by simp⟩
    have whole := bounded.accepted order key first
    rw [SlidingWindow.accepted_eq, List.nil_append] at whole
    rw [logged, acceptedWithin_length]
    exact whole
  · intro earlier attempt reason later split
    rw [logged] at split
    obtain ⟨before, admitted, after, verdicts, rfl, denied, rfl⟩ := split_entries split
    have refused : admitted = false := by
      cases admitted with
      | false => rfl
      | true => cases denied
    subst refused
    have left : (before.map (·.1) ++ after.map (·.1)).Sublist attempts := by
      rw [(SlidingWindow.verdicts_split verdicts).1]
      exact (List.Sublist.refl _).append (List.sublist_cons_self ..)
    rw [map_entryOf_fst, map_entryOf_fst, log_eq enforced (sorted.sublist left),
      SlidingWindow.verdicts_denied verdicts, List.map_append]
  · intro key
    have own : attempts.filter (keyOf ip settings ·.1 = key) =
        SlidingWindow.ofKey (keyed ip settings) key attempts := rfl
    rw [logged, log_eq enforced (sorted.filter _), own, List.filter_map]
    have apart : (SlidingWindow.verdicts (keyed ip settings) amount window [] attempts).filter
        (fun entry => (keyed ip settings entry.1).1 = key) =
          SlidingWindow.verdicts (keyed ip settings) amount window []
            (SlidingWindow.ofKey (keyed ip settings) key attempts) := SlidingWindow.verdicts_ofKey key
    exact congrArg (List.map entryOf) apart

/-- Without trusted proxies no text is read as an address. -/
def noProxies : IpRules where
  Address := Empty
  Network := Empty
  ipAddress _ := none
  ipNetwork _ := none
  same address := address.elim
  contains network := network.elim

def live : Settings where
  appEnv := "prod".toList
  trustedProxyIps := []

/-- A request at so many quarters of a second. -/
def posts (client : String) (quarters : Int) : Request × ℚ :=
  ({ client := some client.toList, headers := [] }, quarters / 4)

def burst : List (Request × ℚ) := [posts "a" 0, posts "b" 1, posts "a" 2, posts "a" 4, posts "a" 5, posts "a" 6]

/-- The third attempt of `a` is one second after its first, and denied; the fourth is not. -/
theorem member_post_window_burst :
    (log noProxies (List.map Char.toLower) live " 2/Second".toList burst).map (·.2.isOk) =
        [true, true, true, false, true, false] ∧
      Exact noProxies (List.map Char.toLower) live " 2/Second".toList 2 1 burst :=
  ⟨by decide +kernel, member_post_window noProxies ⟨by decide, by decide +kernel⟩ (by decide) (by decide +kernel)⟩

end SogeconApp.Guarantees.RateWindow
