import Mathlib.Logic.Function.Basic
import SogeconApp.Source.RateLimits

/-!
# Support tickets

Source: `apps/api/routers/support.py` (contact), `services/auth_service.py` (CurrentMember),
`repositories/support_tickets.py` (create_ticket).

The rate limiter is a package of its own: whether it lets a submission pass belongs to the submission, as
do the reading of the clock and what becomes of the database and of the log file. Between the check of
the recent submissions and the record of this one nothing else of the process runs, so a submission is
one step. Times are exact.
-/

namespace SogeconApp.Source.SupportTickets

open RateLimits (IpRules Request Settings getClientIpForRateLimit)

structure ContactPayload where
  subject : String
  body : String
  contact : Option String := none
  hp : Option String := none
  subjectLength : 3 ≤ subject.length ∧ subject.length ≤ 120
  bodyLength : 10 ≤ body.length ∧ body.length ≤ 10000
  contactLength : ∀ text ∈ contact, text.length ≤ 120

structure CurrentMember where
  studentId : String
  id : Option Int := none
  deriving DecidableEq, Repr

/-- `getattr(_m, "email", None)`: the session of a member has no such attribute. -/
def CurrentMember.email (_ : CurrentMember) : Option String := none

/-! ## The filters -/

def blockedWords : List String := ["viagra", "casino", "loan", "bet", "bitcoin", "crypto", "porn"]

/-- The characters that a pattern's small letter matches when case is ignored. -/
def foldCase (char : Char) : Char :=
  if char = 'İ' ∨ char = 'ı' then 'i' else if char = 'ſ' then 's' else char.toLower

/-- `_BLOCKLIST.search`. -/
def blocklistSearch (text : String) : Bool :=
  blockedWords.any fun word => (text.toList.map foldCase).tails.any fun rest => word.toList.isPrefixOf rest

def ContactPayload.isFiltered (payload : ContactPayload) : Bool :=
  payload.hp.any (· ≠ "") || blocklistSearch payload.subject || blocklistSearch payload.body

/-! ## contact -/

structure Ticket where
  memberEmail : Option String
  subject : String
  body : String
  contact : Option String
  clientIp : Option String
  deriving DecidableEq, Repr

structure Submission where
  member : CurrentMember
  request : Request
  payload : ContactPayload
  /-- `consume_limit` does not raise. -/
  allowed : Bool := true
  /-- `time.monotonic()`. -/
  now : ℚ
  /-- `create_ticket` returns. -/
  storesTicket : Bool := true
  /-- The log file is written. -/
  writesLog : Bool := true

inductive Answer where
  | accepted | tooManyRequests | failed
  deriving DecidableEq, Repr

/-- `_recent`, and the tickets of the database. -/
structure Support where
  recent : String → Option (ℚ × String)
  tickets : List Ticket

def initial : Support where
  recent := fun _ => none
  tickets := []

def cooldownSec : ℚ := 60

def ContactPayload.joined (payload : ContactPayload) : String := payload.subject ++ "\n" ++ payload.body

def ident (host : String) (member : CurrentMember) : String := host ++ "|" ++ member.email.getD ""

def ticketOf (host : String) (submission : Submission) : Ticket where
  memberEmail := submission.member.email
  subject := submission.payload.subject
  body := submission.payload.body
  contact := submission.payload.contact
  clientIp := if host ≠ "unknown" then some host else none

/-- The recent submission is the same, and the cooldown is not over. -/
def isRepeated (recent : Option (ℚ × String)) (now : ℚ) (h : String) : Bool :=
  let (tPrev, hPrev) := recent.getD (0, "")
  hPrev = h ∧ now - tPrev < cooldownSec

def contact (ip : IpRules) (settings : Settings) (support : Support) (submission : Submission) :
    Answer × Support :=
  if !submission.allowed then (.tooManyRequests, support)
  else if submission.payload.isFiltered then (.accepted, support)
  else
    match getClientIpForRateLimit ip settings submission.request with
    | .error _ => (.failed, support)
    | .ok client =>
      let host := String.ofList client
      let key := ident host submission.member
      let h := submission.payload.joined
      let recorded :=
        { support with recent := Function.update support.recent key (some (submission.now, h)) }
      if isRepeated (support.recent key) submission.now h then (.accepted, recorded)
      else if !submission.storesTicket then (.failed, recorded)
      else
        (if submission.writesLog then .accepted else .failed,
          { recorded with tickets := recorded.tickets ++ [ticketOf host submission] })

/-- The submissions since the start of the process. -/
def run (ip : IpRules) (settings : Settings) (submissions : List Submission) : Support :=
  submissions.foldl (fun support submission => (contact ip settings support submission).2) initial

end SogeconApp.Source.SupportTickets
