import Mathlib.Algebra.Order.Ring.Rat
import SogeconApp.Source.Numerals

/-!
# Rate limits of member posts

Source: `apps/api/ratelimit.py` (parse_trusted_proxies, _is_ip_trusted, get_client_ip_for_rate_limit,
should_skip_rate_limit), `apps/api/routers/posts.py` (_parse_rate_limit, _enforce_member_post_limit).

Nothing is assumed of the `ipaddress` module or of `str.lower`. Times are exact.
-/

namespace SogeconApp.Source.RateLimits

open MediaPaths Numerals

inductive Failure where
  | valueError (message : String)
  | http (statusCode : Nat) (detail : String)
  deriving DecidableEq, Repr

structure Settings where
  appEnv : Text
  trustedProxyIps : Text
  deriving DecidableEq, Repr

/-- The peer's address, if there is one, and the headers in order, their names in lower case. -/
structure Request where
  client : Option Text
  headers : List (Text × Text)
  deriving DecidableEq, Repr

/-- `headers.get(name, "")`. -/
def Request.header (request : Request) (name : Text) : Text :=
  match request.headers.find? fun header => header.1 = name with
  | some header => header.2
  | none => []

/-! ## ratelimit.py -/

/-- `ip_address`, `ip_network(.., strict=False)`, `==` and `in`; `none` is a ValueError. -/
structure IpRules where
  Address : Type
  Network : Type
  ipAddress : Text → Option Address
  ipNetwork : Text → Option Network
  same : Address → Address → Bool
  contains : Network → Address → Bool

section Proxies

variable (ip : IpRules)

/-- An address, or a network if it has a slash. -/
def isEntry (ipStr : Text) : Bool :=
  if '/' ∈ ipStr then (ip.ipNetwork ipStr).isSome else (ip.ipAddress ipStr).isSome

def proxyEntry (strict : Bool) (part : Text) : Except Failure (Option Text) :=
  let ipStr := strip part
  if ipStr = [] then .ok none
  else if ipStr = ['*'] then
    if strict then .error (.valueError "TRUSTED_PROXY_IPS must not contain '*'") else .ok none
  else if isEntry ip ipStr then .ok (some ipStr)
  else if strict then .error (.valueError ("invalid TRUSTED_PROXY_IPS entry: " ++ String.ofList ipStr))
  else .ok none

def parseTrustedProxies (strict : Bool) (raw : Text) : Except Failure (List Text) :=
  if raw = [] then .ok []
  else do
    let entries ← (raw.splitOn ',').mapM (proxyEntry ip strict)
    return entries.filterMap id

/-- An entry that cannot be parsed matches nothing. -/
def matchesEntry (clientIp : ip.Address) (netStr : Text) : Bool :=
  if '/' ∈ netStr then
    match ip.ipNetwork netStr with
    | some network => ip.contains network clientIp
    | none => false
  else
    match ip.ipAddress netStr with
    | some address => ip.same clientIp address
    | none => false

def isIpTrusted (ipStr : Text) (trustedNetworks : List Text) : Bool :=
  if trustedNetworks = [] then false
  else
    match ip.ipAddress ipStr with
    | none => false
    | some clientIp => trustedNetworks.any (matchesEntry ip clientIp)

/-- The entries of the header that are not blank. -/
def forwardedParts (xff : Text) : List Text := ((xff.splitOn ',').map strip).filter (· ≠ [])

def forwardedFor : Text := "x-forwarded-for".toList

def clientIpAmong (trusted : List Text) (request : Request) : Text :=
  match request.client with
  | none | some [] => "unknown".toList
  | some directIp =>
    if ¬isIpTrusted ip directIp trusted then directIp
    else
      match forwardedParts (request.header forwardedFor) with
      | [] => directIp
      | first :: rest =>
        match (first :: rest).reverse.find? fun ipStr => !isIpTrusted ip ipStr trusted with
        | some ipStr => ipStr
        | none => first

def getClientIpForRateLimit (settings : Settings) (request : Request) : Except Failure Text := do
  let trusted ← parseTrustedProxies ip false settings.trustedProxyIps
  return clientIpAmong ip trusted request

end Proxies

def shouldSkipRateLimit (lower : Text → Text) (settings : Settings) : Bool :=
  strip (lower settings.appEnv) = "test".toList

/-! ## routers/posts.py -/

def secondsMap : List (Text × ℚ) :=
  [("second".toList, 1), ("sec".toList, 1), ("s".toList, 1), ("minute".toList, 60), ("min".toList, 60),
    ("m".toList, 60), ("hour".toList, 3600), ("h".toList, 3600), ("day".toList, 86400), ("d".toList, 86400)]

def parseRateLimit (lower : Text → Text) (raw : Text) : Except Failure (Int × ℚ) :=
  let value := lower (strip raw)
  match value.span (· ≠ '/') with
  | (amountStr, '/' :: unit) =>
    match int amountStr with
    | none => .error (.valueError ("Invalid rate limit format: " ++ String.ofList raw))
    | some amount =>
      match secondsMap.lookup (strip unit) with
      | none => .error (.valueError ("Unsupported rate limit unit: " ++ String.ofList raw))
      | some seconds => .ok (amount, seconds)
  | _ => .error (.valueError ("Invalid rate limit format: " ++ String.ofList raw))

/-- `_MEMBER_RATE_TABLE`: no bucket is an empty one. -/
abbrev MemberRateTable := Text → List ℚ

/-- `while bucket and now - bucket[0] > window: bucket.popleft()`. -/
def popOld (window now : ℚ) : List ℚ → List ℚ
  | [] => []
  | first :: rest => if window < now - first then popOld window now rest else first :: rest

def enforceMemberPostLimit (ip : IpRules) (lower : Text → Text) (settings : Settings) (limitValue : Text)
    (request : Request) (now : ℚ) (table : MemberRateTable) : Except Failure Unit × MemberRateTable :=
  if shouldSkipRateLimit lower settings then (.ok (), table)
  else
    match parseRateLimit lower limitValue, getClientIpForRateLimit ip settings request with
    | .error reason, _ | _, .error reason => (.error reason, table)
    | .ok (amount, window), .ok key =>
      let bucket := popOld window now (table key)
      if amount ≤ bucket.length then (.error (.http 429 "rate_limited"), Function.update table key bucket)
      else (.ok (), Function.update table key (bucket ++ [now]))

end SogeconApp.Source.RateLimits
