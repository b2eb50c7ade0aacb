import SogeconApp.Source.RateLimits

/-!
# The client address

Behind a trusted peer the forwarded addresses are read from the right, and the first one that is not
a trusted proxy is the client. The proxies append to what they receive, so whatever a client has put
into the header stands to the left of its own address and is never reached. A peer that is not trusted
is the client itself, and its header is not read.
-/

namespace SogeconApp.Guarantees.ClientAddress

open Source.MediaPaths Source.RateLimits

variable {ip : IpRules}

/-! ## The trusted proxies -/

/-- An entry that the strict parse accepts is read the same without it. -/
theorem proxyEntry_lenient {part : Text} {entry : Option Text} (read : proxyEntry ip true part = .ok entry) :
    proxyEntry ip false part = .ok entry := by
  unfold proxyEntry at read ⊢
  simp only [if_true] at read
  simp only [Bool.false_eq_true, if_false]
  split_ifs at read ⊢ <;> simp_all

theorem mapM_proxyEntry_lenient {parts : List Text} {entries : List (Option Text)}
    (read : parts.mapM (proxyEntry ip true) = .ok entries) : parts.mapM (proxyEntry ip false) = .ok entries := by
  induction parts generalizing entries with
  | nil => exact read
  | cons part rest ih =>
    rw [List.mapM_cons] at read ⊢
    cases first : proxyEntry ip true part with
    | error reason =>
      rw [first] at read
      cases read
    | ok entry =>
      cases others : rest.mapM (proxyEntry ip true) with
      | error reason =>
        rw [first, others] at read
        cases read
      | ok entries' =>
        rw [first, others] at read
        rw [proxyEntry_lenient first, ih others]
        exact read

/-- A valid setting is read the same at every request. -/
theorem parseTrustedProxies_lenient {raw : Text} {trusted : List Text}
    (valid : parseTrustedProxies ip true raw = .ok trusted) : parseTrustedProxies ip false raw = .ok trusted := by
  unfold parseTrustedProxies at valid ⊢
  split
  · next empty =>
    rw [if_pos empty] at valid
    exact valid
  · next filled =>
    rw [if_neg filled] at valid
    cases read : (raw.splitOn ',').mapM (proxyEntry ip true) with
    | error reason =>
      rw [read] at valid
      cases valid
    | ok entries =>
      rw [read] at valid
      rw [mapM_proxyEntry_lenient read]
      exact valid

/-! ## The forwarded addresses -/

/-- A header that is put together with a comma has the parts of both of its sides. -/
theorem forwardedParts_comma (left right : Text) :
    forwardedParts (left ++ ',' :: right) = forwardedParts left ++ forwardedParts right := by
  rw [forwardedParts, List.splitOn_append_cons_self, List.map_append, List.filter_append]
  rfl

theorem forwardedParts_entry {entry : Text} (whole : ',' ∉ entry) :
    forwardedParts entry = if strip entry = [] then [] else [strip entry] := by
  rw [forwardedParts, List.splitOn_eq_singleton whole]
  split <;> simp_all

theorem forwardedParts_hops (entry : Text) (hops : List Text) :
    forwardedParts (entry ++ hops.flatMap (',' :: ·)) = forwardedParts entry ++ hops.flatMap forwardedParts := by
  induction hops generalizing entry with
  | nil => simp
  | cons hop rest ih =>
    rw [List.flatMap_cons, List.flatMap_cons, List.cons_append, forwardedParts_comma, ih]

/-- What stands to the left of an entry: nothing, or a text that ends with a comma. -/
inductive Separated : Text → Prop
  | nothing : Separated []
  | comma (text : Text) : Separated (text ++ [','])

theorem Separated.forwardedParts {before : Text} (separated : Separated before) (rest : Text) :
    ∃ front, Source.RateLimits.forwardedParts (before ++ rest) =
      front ++ Source.RateLimits.forwardedParts rest := by
  cases separated with
  | nothing => exact ⟨[], rfl⟩
  | comma text =>
    refine ⟨Source.RateLimits.forwardedParts text, ?_⟩
    rw [List.append_assoc, List.singleton_append, forwardedParts_comma]

/-- A blank entry or a trusted proxy. -/
structure Hop (ip : IpRules) (trusted : List Text) (hop : Text) : Prop where
  whole : ',' ∉ hop
  passes : strip hop = [] ∨ isIpTrusted ip (strip hop) trusted = true

/-- The parts that come from the proxies are trusted, and blank ones give none. -/
theorem Hop.trusted_parts {trusted : List Text} {hops : List Text} (pass : ∀ hop ∈ hops, Hop ip trusted hop) :
    ∀ part ∈ hops.flatMap forwardedParts, isIpTrusted ip part trusted = true := by
  intro part member
  obtain ⟨hop, listed, inside⟩ := List.mem_flatMap.mp member
  have hopped := pass hop listed
  rw [forwardedParts_entry hopped.whole] at inside
  split at inside
  · cases inside
  · next filled =>
    rw [List.mem_singleton.mp inside]
    exact hopped.passes.resolve_left filled

/-- Read from the right, the first address that is not trusted is the one before the trusted ones. -/
theorem find_untrusted {trusted : List Text} {front hops : List Text} {client : Text}
    (untrusted : isIpTrusted ip client trusted = false)
    (trusts : ∀ hop ∈ hops, isIpTrusted ip hop trusted = true) :
    (front ++ client :: hops).reverse.find? (fun part => !isIpTrusted ip part trusted) = some client := by
  have passed : hops.reverse.find? (fun part => !isIpTrusted ip part trusted) = none := by
    refine List.find?_eq_none.mpr fun hop member => ?_
    rw [trusts hop (List.mem_reverse.mp member)]
    decide
  rw [List.reverse_append, List.reverse_cons, List.append_assoc, List.find?_append, passed,
    List.singleton_append, List.find?_cons_of_pos (by rw [untrusted]; rfl)]
  rfl

/-- Behind a trusted peer the client is the last part that is not trusted, whatever stands in front of
it. -/
theorem clientIpAmong_forwarded {trusted : List Text} {request : Request} {host client : Text}
    {front hops : List Text} (peer : request.client = some host) (named : host ≠ [])
    (trusts : isIpTrusted ip host trusted = true)
    (parts : forwardedParts (request.header forwardedFor) = front ++ client :: hops)
    (untrusted : isIpTrusted ip client trusted = false)
    (passed : ∀ hop ∈ hops, isIpTrusted ip hop trusted = true) :
    clientIpAmong ip trusted request = client := by
  have found : (front ++ client :: hops).reverse.find? (fun part => !isIpTrusted ip part trusted) = some client :=
    find_untrusted untrusted passed
  rw [← parts] at found
  obtain ⟨letter, rest, rfl⟩ := List.exists_cons_of_ne_nil named
  simp only [clientIpAmong, peer, trusts, not_true_eq_false, if_false]
  split
  · next empty =>
    rw [empty] at found
    cases found
  · next first others listed =>
    rw [listed] at found
    rw [found]

theorem clientIpAmong_direct {trusted : List Text} {client : Option Text}
    (direct : ∀ host, client = some host → isIpTrusted ip host trusted = false)
    (headers headers' : List (Text × Text)) :
    clientIpAmong ip trusted { client, headers } = clientIpAmong ip trusted { client, headers := headers' } := by
  match client with
  | none | some [] => rfl
  | some (letter :: rest) => simp [clientIpAmong, direct _ rfl]

/-- The client of a trusted peer is the first address from the right that is not trusted, whatever
stands before it, and no header changes the client of a peer that is not trusted. -/
theorem client_ip_not_spoofed (ip : IpRules) {settings : Settings} {trusted : List Text}
    (valid : parseTrustedProxies ip true settings.trustedProxyIps = .ok trusted) :
    (∀ (request : Request) (host before client : Text) (hops : List Text),
      request.client = some host → host ≠ [] → isIpTrusted ip host trusted = true →
      Separated before → ',' ∉ client → strip client ≠ [] → isIpTrusted ip (strip client) trusted = false →
      (∀ hop ∈ hops, Hop ip trusted hop) →
      request.header forwardedFor = before ++ (client ++ hops.flatMap (',' :: ·)) →
        getClientIpForRateLimit ip settings request = .ok (strip client)) ∧
    ∀ (client : Option Text) (headers headers' : List (Text × Text)),
      (∀ host, client = some host → isIpTrusted ip host trusted = false) →
        getClientIpForRateLimit ip settings { client, headers } =
          getClientIpForRateLimit ip settings { client, headers := headers' } := by
  have reads (request : Request) :
      getClientIpForRateLimit ip settings request = .ok (clientIpAmong ip trusted request) := by
    rw [getClientIpForRateLimit, parseTrustedProxies_lenient valid]
    rfl
  constructor
  · intro request host before client hops peer named trusts separated whole filled untrusted pass value
    obtain ⟨front, split⟩ := separated.forwardedParts (client ++ hops.flatMap (',' :: ·))
    have parts : forwardedParts (request.header forwardedFor) =
        front ++ strip client :: hops.flatMap forwardedParts := by
      rw [value, split, forwardedParts_hops, forwardedParts_entry whole, if_neg filled]
      rfl
    rw [reads, clientIpAmong_forwarded peer named trusts parts untrusted (Hop.trusted_parts pass)]
  · intro client headers headers' direct
    rw [reads, reads, clientIpAmong_direct direct headers headers']

/-! ## Addresses of version 4 -/

def octet (text : Text) : Option Nat :=
  if text.length ∈ [1, 2, 3] ∧ (text.all fun char => 0x30 ≤ char.toNat ∧ char.toNat ≤ 0x39) ∧
      (text.length = 1 ∨ text.head? ≠ some '0') then
    let value := text.foldl (fun number char => 10 * number + (char.toNat - 0x30)) 0
    if value ≤ 255 then some value else none
  else none

def ipv4Address (text : Text) : Option Nat := do
  let octets ← (text.splitOn '.').mapM octet
  if octets.length = 4 then some (octets.foldl (fun number value => 256 * number + value) 0) else none

/-- The size of the network, and its number among those of this size. -/
def ipv4Network (text : Text) : Option (Nat × Nat) := do
  let [address, length] := text.splitOn '/' | none
  let bits ← Source.Numerals.natural length
  if bits ≤ 32 then some (2 ^ (32 - bits), (← ipv4Address address) / 2 ^ (32 - bits)) else none

def ipv4 : IpRules where
  Address := Nat
  Network := Nat × Nat
  ipAddress := ipv4Address
  ipNetwork := ipv4Network
  same := (· == ·)
  contains network address := address / network.1 = network.2

def behindProxies : Settings where
  appEnv := "prod".toList
  trustedProxyIps := "127.0.0.1, 10.0.0.0/8,".toList

def proxied : Request where
  client := some "127.0.0.1".toList
  headers := [("host".toList, "a".toList), (forwardedFor, "10.9.9.9, x,,203.0.113.7 , ,10.1.2.3".toList)]

theorem client_ip_not_spoofed_proxied :
    getClientIpForRateLimit ipv4 behindProxies proxied = .ok "203.0.113.7".toList := by
  have valid : parseTrustedProxies ipv4 true behindProxies.trustedProxyIps =
      .ok ["127.0.0.1".toList, "10.0.0.0/8".toList] := by decide +kernel
  exact (client_ip_not_spoofed ipv4 valid).1 proxied "127.0.0.1".toList "10.9.9.9, x,,".toList
    "203.0.113.7 ".toList
    [" ".toList, "10.1.2.3".toList] rfl (by decide) (by decide +kernel) (.comma "10.9.9.9, x,".toList)
    (by decide) (by decide) (by decide +kernel)
    (by
      intro hop member
      simp only [List.mem_cons, List.not_mem_nil, or_false] at member
      rcases member with rfl | rfl
      · exact ⟨by decide, .inl (by decide)⟩
      · exact ⟨by decide, .inr (by decide +kernel)⟩)
    (by decide)

end SogeconApp.Guarantees.ClientAddress
