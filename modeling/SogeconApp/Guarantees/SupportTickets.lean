import SogeconApp.Guarantees.ClientAddress
import SogeconApp.Guarantees.RateWindow
import SogeconApp.Source.SupportTickets

/-!
# Support tickets that are not stored

The recent submissions are kept by the client's address alone, and by their joined text. A submission
is dropped if the last one from its address has the same joined text and is less than the cooldown
before it, and no ticket is lost but where that one was another member's or another text.
-/

namespace SogeconApp.Guarantees.SupportTickets

open Source.SupportTickets
open Source.RateLimits (IpRules Settings)
open ClientAddress (ipv4)
open RateWindow (keyOf getClientIp_keyOf)

variable {ip : IpRules} {settings : Settings} {support : Support} {earlier : List Submission}
  {submission previous : Submission} {host : String}

/-- The submission passes the rate limit and the filters. -/
def Passes (submission : Submission) : Prop :=
  submission.allowed = true ∧ submission.payload.isFiltered = false

instance (submission : Submission) : Decidable (Passes submission) := inferInstanceAs (Decidable (_ ∧ _))

/-- The address that a submission comes from. -/
def hostOf (ip : IpRules) (settings : Settings) (submission : Submission) : String :=
  String.ofList (keyOf ip settings submission.request)

/-- The last submission from the address that has passed. -/
def lastFrom (ip : IpRules) (settings : Settings) (host : String) (earlier : List Submission) :
    Option Submission :=
  (earlier.filter fun submission => Passes submission ∧ hostOf ip settings submission = host).getLast?

/-- The same member has submitted the same less than the cooldown before. -/
def Resubmits (earlier : List Submission) (submission : Submission) : Prop :=
  ∃ previous ∈ earlier, previous.member.studentId = submission.member.studentId ∧
    previous.payload.subject = submission.payload.subject ∧
      previous.payload.body = submission.payload.body ∧ submission.now - previous.now < cooldownSec

instance (earlier : List Submission) (submission : Submission) : Decidable (Resubmits earlier submission) :=
  inferInstanceAs (Decidable (∃ _ ∈ _, _ ∧ _ ∧ _ ∧ _))

/-- A submission that passes is accepted without a ticket only if it is a resubmission. -/
def Kept (ip : IpRules) (settings : Settings) (earlier : List Submission) (submission : Submission) : Prop :=
  let support := run ip settings earlier
  let answered := contact ip settings support submission
  Passes submission → answered.1 = .accepted → answered.2.tickets = support.tickets →
    Resubmits earlier submission

/-- A submission that passes has the same joined text as the last one from its address, less than the
cooldown after it, but its member has not submitted the same in that time. -/
def Confused (ip : IpRules) (settings : Settings) (earlier : List Submission) (submission : Submission) : Prop :=
  Passes submission ∧
    (∃ previous ∈ lastFrom ip settings (hostOf ip settings submission) earlier,
      previous.payload.joined = submission.payload.joined ∧ submission.now - previous.now < cooldownSec) ∧
    ¬Resubmits earlier submission

/-! ## One submission -/

/-- The record of a submission. -/
def record (submission : Submission) : ℚ × String := (submission.now, submission.payload.joined)

theorem run_snoc : run ip settings (earlier ++ [submission]) =
    (contact ip settings (run ip settings earlier) submission).2 := by
  simp only [run, List.foldl_append, List.foldl_cons, List.foldl_nil]

theorem contact_stopped (stops : ¬Passes submission) : (contact ip settings support submission).2 = support := by
  unfold contact
  split
  · rfl
  · next allowed =>
    split
    · rfl
    · next unfiltered =>
      simp only [Bool.not_eq_true', Bool.not_eq_false, Bool.not_eq_true] at allowed unfiltered
      exact absurd ⟨allowed, unfiltered⟩ stops

/-- The key of an address: no member has an e-mail address in the session. -/
theorem ident_eq (host : String) (member : Source.SupportTickets.CurrentMember) :
    ident host member = host ++ "|" := by
  simp [ident, CurrentMember.email]

theorem contact_passes (passes : Passes submission) :
    contact ip settings support submission =
      let host := hostOf ip settings submission
      let recorded :=
        { support with recent := Function.update support.recent (host ++ "|") (some (record submission)) }
      if isRepeated (support.recent (host ++ "|")) submission.now submission.payload.joined then
        (.accepted, recorded)
      else if !submission.storesTicket then (.failed, recorded)
      else
        (if submission.writesLog then .accepted else .failed,
          { recorded with tickets := support.tickets ++ [ticketOf host submission] }) := by
  simp only [contact, passes.1, passes.2, getClientIp_keyOf, ident_eq, Bool.not_true, if_false,
    Bool.false_eq_true]
  rfl

theorem contact_recent (passes : Passes submission) :
    (contact ip settings support submission).2.recent =
      Function.update support.recent (hostOf ip settings submission ++ "|") (some (record submission)) := by
  rw [contact_passes passes]
  dsimp only
  split_ifs <;> rfl

/-- Accepted without a ticket is exactly what repeats the recent submission. -/
theorem dropped_iff (passes : Passes submission) :
    ((contact ip settings support submission).1 = .accepted ∧
        (contact ip settings support submission).2.tickets = support.tickets) ↔
      isRepeated (support.recent (hostOf ip settings submission ++ "|")) submission.now
        submission.payload.joined = true := by
  rw [contact_passes passes]
  dsimp only
  split_ifs with repeated fails written
  · simp [repeated]
  · simp [repeated]
  · simp [repeated]
  · simp [repeated]

/-! ## The runs -/

/-- A submission from elsewhere is not the last from the address. -/
theorem lastFrom_snoc_other (other : ¬(Passes submission ∧ hostOf ip settings submission = host)) :
    lastFrom ip settings host (earlier ++ [submission]) = lastFrom ip settings host earlier := by
  simp only [lastFrom, List.filter_append, List.filter_cons, decide_eq_true_eq, if_neg other, List.filter_nil,
    List.append_nil]

theorem lastFrom_snoc_same (same : Passes submission ∧ hostOf ip settings submission = host) :
    lastFrom ip settings host (earlier ++ [submission]) = some submission := by
  simp only [lastFrom, List.filter_append, List.filter_cons, decide_eq_true_eq, if_pos same, List.filter_nil,
    List.getLast?_concat]

/-- The recent submissions are the last ones from each address. -/
theorem recent_run (earlier : List Submission) (host : String) :
    (run ip settings earlier).recent (host ++ "|") = (lastFrom ip settings host earlier).map record := by
  induction earlier using List.reverseRecOn with
  | nil => rfl
  | append_singleton earlier submission ih =>
    rw [run_snoc]
    by_cases passes : Passes submission
    · rw [contact_recent passes]
      by_cases same : hostOf ip settings submission = host
      · rw [lastFrom_snoc_same ⟨passes, same⟩, same, Function.update_self, Option.map_some]
      · have apart : host ++ "|" ≠ hostOf ip settings submission ++ "|" := by
          rw [Ne, String.append_left_inj]
          exact Ne.symm same
        rw [Function.update_of_ne apart, ih, lastFrom_snoc_other fun both => same both.2]
    · rw [contact_stopped passes, ih, lastFrom_snoc_other fun both => passes both.1]

theorem joined_nonempty (payload : ContactPayload) : payload.joined ≠ "" := by
  simp [ContactPayload.joined]

/-- A submission is a repetition of the last one if the texts are equal and the time between them is
short. -/
theorem isRepeated_last {last : Option Submission} :
    isRepeated (last.map record) submission.now submission.payload.joined = true ↔
      ∃ previous ∈ last, previous.payload.joined = submission.payload.joined ∧
        submission.now - previous.now < cooldownSec := by
  cases last with
  | none =>
    have nonempty := (joined_nonempty submission.payload).symm
    simp [isRepeated, nonempty]
  | some previous =>
    simp only [Option.map_some, isRepeated, record, Option.getD_some, Option.mem_some_iff, exists_eq_left']
    exact decide_eq_true_iff

/-- Accepted without a ticket is what has the same joined text as the last one from its address. -/
theorem dropped_iff_last (passes : Passes submission) :
    ((contact ip settings (run ip settings earlier) submission).1 = .accepted ∧
        (contact ip settings (run ip settings earlier) submission).2.tickets =
          (run ip settings earlier).tickets) ↔
      ∃ previous ∈ lastFrom ip settings (hostOf ip settings submission) earlier,
        previous.payload.joined = submission.payload.joined ∧ submission.now - previous.now < cooldownSec := by
  rw [dropped_iff passes, recent_run, isRepeated_last]

/-- Where two texts are taken for one, the ticket is not kept. -/
theorem not_kept_of_confused (confused : Confused ip settings earlier submission) :
    ¬Kept ip settings earlier submission := by
  obtain ⟨passes, repeated, fresh⟩ := confused
  intro kept
  obtain ⟨accepted, unchanged⟩ := (dropped_iff_last passes).mpr repeated
  exact fresh (kept passes accepted unchanged)

/-- In every run, a ticket is lost if and only if its submission is confused with another: it has the
joined text of the last one from its address, though its member has not submitted the same. -/
theorem ticket_kept_iff (ip : IpRules) (settings : Settings) (earlier : List Submission)
    (submission : Submission) :
    Kept ip settings earlier submission ↔ ¬Confused ip settings earlier submission := by
  constructor
  · intro kept confused
    exact not_kept_of_confused confused kept
  · intro clear passes accepted unchanged
    by_contra fresh
    exact clear ⟨passes, (dropped_iff_last passes).mp ⟨accepted, unchanged⟩, fresh⟩

/-! ## Two submissions from one address -/

def office : Settings where
  appEnv := "prod".toList
  trustedProxyIps := []

def submitted (studentId subject body : String) (now : ℚ)
    (subjectLength : 3 ≤ subject.length ∧ subject.length ≤ 120 := by decide)
    (bodyLength : 10 ≤ body.length ∧ body.length ≤ 10000 := by decide) : Submission where
  member := { studentId }
  request := { client := some "203.0.113.7".toList, headers := [] }
  payload := { subject, body, subjectLength, bodyLength, contactLength := by simp }
  now := now

theorem last_submitted (passes : Passes submission) (address : hostOf ip settings submission = host) :
    submission ∈ lastFrom ip settings host [submission] := by
  rw [← List.nil_append [submission], lastFrom_snoc_same ⟨passes, address⟩]
  rfl

/-- Another member's submission is lost, and so is another text of the same member. -/
theorem shared_address_loses_a_ticket :
    ¬Kept ipv4 office [submitted "s1" "login" "I cannot log in" 0]
        (submitted "s2" "login" "I cannot log in" 10) ∧
      ¬Kept ipv4 office [submitted "s1" "login\nmobile" "It does not work" 0]
        (submitted "s1" "login" "mobile\nIt does not work" 10) := by
  constructor
  · have last : submitted "s1" "login" "I cannot log in" 0 ∈
        lastFrom ipv4 office "203.0.113.7" [submitted "s1" "login" "I cannot log in" 0] :=
      last_submitted (by decide +kernel) rfl
    exact not_kept_of_confused ⟨by decide +kernel, ⟨_, last, rfl, by decide +kernel⟩, by decide +kernel⟩
  · have last : submitted "s1" "login\nmobile" "It does not work" 0 ∈
        lastFrom ipv4 office "203.0.113.7" [submitted "s1" "login\nmobile" "It does not work" 0] :=
      last_submitted (by decide +kernel) rfl
    exact not_kept_of_confused ⟨by decide +kernel, ⟨_, last, rfl, by decide +kernel⟩, by decide +kernel⟩

end SogeconApp.Guarantees.SupportTickets
