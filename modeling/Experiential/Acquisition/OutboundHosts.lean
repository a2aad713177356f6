import Experiential.Acquisition.Connectors
import Experiential.Lib.IpAddress

/-! # Outbound hosts

The base URL of a remote source and the endpoint of an Azure connection are refused when their host is local. Both read
the host as the `ipaddress` module does, and a resolver reads more: what the two accept and a resolver takes for a local
address is said exactly (`outbound_hosts_iff`). `urlsplit` and Unicode are the environment's. -/

namespace Experiential.Acquisition

open Py

/-! ### URLs -/

structure SplitResult where
  scheme : PyStr
  netloc : PyStr
  path : PyStr
  query : PyStr
  fragment : PyStr
deriving DecidableEq

/-- The library's `urlsplit`, where it does not raise, and what Unicode says. -/
structure UrlEnv where
  urlsplit : PyStr → Option SplitResult
  lower : PyStr → PyStr
  casefold : PyStr → PyStr
  /-- The decimal digits beyond ASCII. -/
  isDecimal : Char → Bool

/-- `s.partition(c)` -/
def partition (c : CodePoint) (s : PyStr) : PyStr × Bool × PyStr :=
  (s.takeWhile fun d => decide (d ≠ c), decide (c ∈ s), (s.dropWhile fun d => decide (d ≠ c)).tail)

/-- `s.rpartition(c)` -/
def rpartition (c : CodePoint) (s : PyStr) : PyStr × Bool × PyStr :=
  ((partition c s.reverse).2.2.reverse, decide (c ∈ s), (partition c s.reverse).1.reverse)

/-- `s.rstrip(".")` -/
def rstripDots (s : PyStr) : PyStr := (s.reverse.dropWhile fun d => decide (d = .scalar '.')).reverse

namespace SplitResult

/-- `_userinfo` -/
def userinfo (r : SplitResult) : Option PyStr × Option PyStr :=
  let (userinfo, haveInfo, _) := rpartition '@' r.netloc
  if haveInfo then
    let (username, havePassword, password) := partition ':' userinfo
    (some username, if havePassword then some password else none)
  else (none, none)

/-- `_hostinfo` -/
def hostinfo (r : SplitResult) : PyStr × Option PyStr :=
  let (_, _, hostinfo) := rpartition '@' r.netloc
  let (_, haveOpenBr, bracketed) := partition '[' hostinfo
  let (hostname, _, port) :=
    if haveOpenBr then
      ((partition ']' bracketed).1, (partition ':' (partition ']' bracketed).2.2).2)
    else partition ':' hostinfo
  (hostname, if port = [] then none else some port)

/-- `hostname` -/
def hostname (u : UrlEnv) (r : SplitResult) : Option PyStr :=
  if r.hostinfo.1 = [] then none
  else
    let (hostname, percent, zone) := partition '%' r.hostinfo.1
    some (u.lower hostname ++ ((if percent then [.scalar '%'] else []) ++ zone))

/-- `port`, where it does not raise. -/
def port (r : SplitResult) : Option (Option Nat) :=
  match r.hostinfo.2 with
  | none => some none
  | some s => do
      let ds ← asciiDigits s
      if ds ≠ [] ∧ ds.length ≤ intMaxStrDigits ∧ Nat.ofDigitChars 10 ds 0 ≤ 65535 then
        some (some (Nat.ofDigitChars 10 ds 0))
      else none

end SplitResult

/-- `s.isdecimal()` -/
def UrlEnv.isdecimal (u : UrlEnv) (s : PyStr) : Bool :=
  !s.isEmpty && s.all fun
    | .scalar c => c.isDigit || (decide (128 ≤ c.toNat) && u.isDecimal c)
    | .surrogate _ => false

/-! ### The validators -/

def blockedSuffixes : List PyStr := [text ".localhost", text ".local", text ".internal", text ".home.arpa"]

/-- `hostname.rstrip(".").casefold()` -/
def UrlEnv.normalized (u : UrlEnv) (hostname : PyStr) : PyStr := u.casefold (rstripDots hostname)

/-- Is the host an address that is not global, or made of numbers only? -/
def UrlEnv.refusesAddress (u : UrlEnv) (host : PyStr) : Bool :=
  match ipAddress host with
  | some address => !address.isGlobal
  | none => (host.splitOn (.scalar '.')).all u.isdecimal

/-- `_safe_https_base` -/
def safeHttpsBase (u : UrlEnv) (value : PyStr) : Except AcquisitionErrorCode PyStr := do
  let parsed ← require (u.urlsplit value) .invalidSourceConfig
  let hostname ← require (parsed.hostname u) .invalidSourceConfig
  ensure (parsed.scheme = text "https" ∧ parsed.userinfo = (none, none) ∧ parsed.query = [] ∧ parsed.fragment = [] ∧
    (parsed.path = [] ∨ parsed.path = text "/")) .invalidSourceConfig
  let normalizedHostname := u.normalized hostname
  ensure (normalizedHostname ≠ text "localhost" ∧ .scalar '.' ∈ normalizedHostname ∧
    ∀ suffix ∈ blockedSuffixes, ¬suffix <:+ normalizedHostname) .invalidSourceConfig
  ensure (u.refusesAddress normalizedHostname = false) .invalidSourceConfig
  let parsedPort ← require parsed.port .invalidSourceConfig
  return text "https://" ++ (normalizedHostname ++
    match parsedPort with
    | some port => .scalar ':' :: (Nat.toDigits 10 port).map .scalar
    | none => [])

inductive EndpointError where
  | malformed
  | notHttps
  | internalHost
deriving DecidableEq

def EndpointError.message : EndpointError → Option PyStr
  | .malformed => none
  | .notHttps => some (text "the Azure endpoint must be a public https URL")
  | .internalHost => some (text "the Azure endpoint must be a public https URL, not an internal host")

/-- `host.lower().rstrip(".")` -/
def UrlEnv.lowered (u : UrlEnv) (host : PyStr) : PyStr := rstripDots (u.lower host)

/-- Is the host internal? -/
def internalHost (lowered : PyStr) : Bool :=
  decide (lowered = text "localhost" ∨ lowered = text "host.docker.internal" ∨ text ".local" <:+ lowered) ||
    match ipAddress lowered with
    | some address => !address.isGlobal
    | none => false

/-- `_public_https_endpoint` -/
def publicHttpsEndpoint (u : UrlEnv) (value : PyStr) : Except EndpointError PyStr := do
  let parts ← require (u.urlsplit value) .malformed
  let host ← require (parts.hostname u) .notHttps
  ensure (parts.scheme = text "https") .notHttps
  ensure (internalHost (u.lowered host) = false) .internalHost
  return value

/-! ### Local hosts -/

def hostOf (u : UrlEnv) (value : PyStr) : Option PyStr := (u.urlsplit value).bind (·.hostname u)

/-- No reading of the host is an address that is not global, and it is not `localhost` or under it. -/
structure NeverLocal (host : PyStr) : Prop where
  resolved : ∀ a, inetAton host = some a → isGlobal4 a = true
  literal : ∀ a, ipv6Address host = some a → isGlobal6 a = true
  localhost : host ≠ text "localhost"
  subdomain : ¬text ".localhost" <:+ host

/-- A local address with a hexadecimal part. -/
def HexLocal (host : PyStr) : Prop :=
  ∃ a, inetAton host = some a ∧ isGlobal4 a = false ∧ ∃ part ∈ host.splitOn (.scalar '.'), isHexPart part = true

/-- A local address that is not written as a dotted quad. -/
def LooseLocal (host : PyStr) : Prop := ∃ a, inetAton host = some a ∧ isGlobal4 a = false ∧ ipv4Address host = none

theorem ipAddress_of_ipv4Address {s : PyStr} {a : Nat} (h : ipv4Address s = some a) : ipAddress s = some (.v4 a) := by
  rw [ipAddress, h]

theorem isdecimal_of_digits (u : UrlEnv) {part : PyStr} (hne : part ≠ [])
    (h : ∀ c ∈ part, ∃ d : Char, c = .scalar d ∧ d.isDigit = true) : u.isdecimal part = true := by
  rw [UrlEnv.isdecimal, Bool.and_eq_true, List.all_eq_true]
  refine ⟨by simpa using hne, fun c hc => ?_⟩
  obtain ⟨d, rfl, hd⟩ := h c hc
  simp [hd]

/-- What the connectors do not refuse is local in hexadecimal only. -/
theorem neverLocal_iff_hex (u : UrlEnv) {host : PyStr} (haddress : u.refusesAddress host = false)
    (hlocalhost : host ≠ text "localhost") (hsuffix : ¬text ".localhost" <:+ host) : NeverLocal host ↔ ¬HexLocal host := by
  constructor
  · rintro hnever ⟨a, ha, hlocal, -⟩
    rw [hnever.resolved a ha] at hlocal
    cases hlocal
  · intro hhex
    refine ⟨fun a ha => ?_, fun a ha => ?_, hlocalhost, hsuffix⟩
    · by_contra hlocal
      have hlocal : isGlobal4 a = false := by simpa using hlocal
      have hplain : ∀ part ∈ host.splitOn (.scalar '.'), isHexPart part = false := by
        intro part hpart
        by_contra hpart'
        exact hhex ⟨a, ha, hlocal, part, hpart, by simpa using hpart'⟩
      cases hip : ipAddress host with
      | none =>
        rw [UrlEnv.refusesAddress, hip, List.all_eq_false] at haddress
        obtain ⟨part, hpart, hdecimal⟩ := haddress
        obtain ⟨hne, hdigits⟩ := digits_of_inetAton ha hplain part hpart
        exact hdecimal (isdecimal_of_digits u hne hdigits)
      | some address =>
        rw [UrlEnv.refusesAddress, hip] at haddress
        cases h4 : ipv4Address host with
        | none =>
          rw [ipAddress, h4, ipv6Address_of_inetAton ha] at hip
          cases hip
        | some b =>
          have hsame := inetAton_of_ipv4Address h4
          rw [ha] at hsame
          cases hsame
          rw [ipAddress_of_ipv4Address h4] at hip
          cases hip
          simp [IpAddress.isGlobal, hlocal] at haddress
    · rw [UrlEnv.refusesAddress, ipAddress_of_ipv6Address ha] at haddress
      simpa [IpAddress.isGlobal] using haddress

/-- What the endpoint's validator does not refuse is local in a looser spelling, or under `localhost`. -/
theorem neverLocal_iff_loose {host : PyStr} (hinternal : internalHost host = false) :
    NeverLocal host ↔ ¬LooseLocal host ∧ ¬text ".localhost" <:+ host := by
  rw [internalHost, Bool.or_eq_false_iff] at hinternal
  obtain ⟨hname, haddress⟩ := hinternal
  constructor
  · intro hnever
    refine ⟨?_, hnever.subdomain⟩
    rintro ⟨a, ha, hlocal, -⟩
    rw [hnever.resolved a ha] at hlocal
    cases hlocal
  · rintro ⟨hloose, hsuffix⟩
    refine ⟨fun a ha => ?_, fun a ha => ?_, fun hlocalhost => ?_, hsuffix⟩
    · by_contra hlocal
      have hlocal : isGlobal4 a = false := by simpa using hlocal
      cases h4 : ipv4Address host with
      | none => exact hloose ⟨a, ha, hlocal, h4⟩
      | some b =>
        have hsame := inetAton_of_ipv4Address h4
        rw [ha] at hsame
        cases hsame
        rw [ipAddress_of_ipv4Address h4] at haddress
        simp [IpAddress.isGlobal, hlocal] at haddress
    · rw [ipAddress_of_ipv6Address ha] at haddress
      simpa [IpAddress.isGlobal] using haddress
    · simp [hlocalhost] at hname

theorem safeHttpsBase_eq_ok {u : UrlEnv} {value url : PyStr} (h : safeHttpsBase u value = .ok url) :
    ∃ host port, hostOf u value = some host ∧ url = text "https://" ++ (u.normalized host ++ port) ∧
      u.refusesAddress (u.normalized host) = false ∧ u.normalized host ≠ text "localhost" ∧
      ∀ suffix ∈ blockedSuffixes, ¬suffix <:+ u.normalized host := by
  obtain ⟨parsed, hparsed, h⟩ := bind_eq_ok.mp h
  obtain ⟨host, hhost, h⟩ := bind_eq_ok.mp h
  obtain ⟨_, -, h⟩ := bind_eq_ok.mp h
  obtain ⟨_, hname, h⟩ := bind_eq_ok.mp h
  obtain ⟨_, haddress, h⟩ := bind_eq_ok.mp h
  obtain ⟨parsedPort, -, h⟩ := bind_eq_ok.mp h
  obtain ⟨hlocalhost, -, hsuffixes⟩ := ensure_eq_ok.mp hname
  have hof : hostOf u value = some host := by
    rw [hostOf, require_eq_ok.mp hparsed]
    exact require_eq_ok.mp hhost
  exact ⟨host, _, hof, (pure_eq_ok.mp h).symm, ensure_eq_ok.mp haddress, hlocalhost, hsuffixes⟩

theorem publicHttpsEndpoint_eq_ok {u : UrlEnv} {value endpoint : PyStr} (h : publicHttpsEndpoint u value = .ok endpoint) :
    ∃ host, hostOf u value = some host ∧ internalHost (u.lowered host) = false := by
  obtain ⟨parts, hparts, h⟩ := bind_eq_ok.mp h
  obtain ⟨host, hhost, h⟩ := bind_eq_ok.mp h
  obtain ⟨_, -, h⟩ := bind_eq_ok.mp h
  obtain ⟨_, hinternal, -⟩ := bind_eq_ok.mp h
  have hof : hostOf u value = some host := by
    rw [hostOf, require_eq_ok.mp hparts]
    exact require_eq_ok.mp hhost
  exact ⟨host, hof, ensure_eq_ok.mp hinternal⟩

/-- Of an accepted base URL the host is never local but in a hexadecimal spelling, and of an accepted endpoint never but
in one that is no dotted quad, or under `localhost`. -/
theorem outbound_hosts_iff (u : UrlEnv) :
    (∀ value url, safeHttpsBase u value = .ok url → ∃ host port, hostOf u value = some host ∧
      url = text "https://" ++ (u.normalized host ++ port) ∧
      (NeverLocal (u.normalized host) ↔ ¬HexLocal (u.normalized host))) ∧
    ∀ value endpoint, publicHttpsEndpoint u value = .ok endpoint → ∃ host, hostOf u value = some host ∧
      (NeverLocal (u.lowered host) ↔ ¬LooseLocal (u.lowered host) ∧ ¬text ".localhost" <:+ u.lowered host) := by
  refine ⟨fun value url h => ?_, fun value endpoint h => ?_⟩
  · obtain ⟨host, port, hof, hurl, haddress, hlocalhost, hsuffixes⟩ := safeHttpsBase_eq_ok h
    have hsuffix := hsuffixes _ (List.mem_cons_self ..)
    exact ⟨host, port, hof, hurl, neverLocal_iff_hex u haddress hlocalhost hsuffix⟩
  · obtain ⟨host, hof, hinternal⟩ := publicHttpsEndpoint_eq_ok h
    exact ⟨host, hof, neverLocal_iff_loose hinternal⟩

/-- URLs of a scheme and a host, of ASCII characters. -/
def asciiEnv : UrlEnv where
  urlsplit value := if text "https://" <+: value then some ⟨text "https", value.drop 8, [], [], []⟩ else none
  lower s := s.map fun
    | .scalar c => .scalar c.toLower
    | c => c
  casefold s := s.map fun
    | .scalar c => .scalar c.toLower
    | c => c
  isDecimal _ := false

theorem outbound_hosts_public : ∃ host port, hostOf asciiEnv (text "https://Cloud.example.com.") = some host ∧
    text "https://cloud.example.com" = text "https://" ++ (asciiEnv.normalized host ++ port) ∧
    (NeverLocal (asciiEnv.normalized host) ↔ ¬HexLocal (asciiEnv.normalized host)) := by
  have hok : safeHttpsBase asciiEnv (text "https://Cloud.example.com.") = .ok (text "https://cloud.example.com") := by
    decide +kernel
  exact (outbound_hosts_iff asciiEnv).1 _ _ hok

/-- The loopback address is accepted by both, and so is a name under `localhost`. -/
theorem loopback_accepted :
    safeHttpsBase asciiEnv (text "https://0x7f.1") = .ok (text "https://0x7f.1") ∧ ¬NeverLocal (text "0x7f.1") ∧
    publicHttpsEndpoint asciiEnv (text "https://127.1") = .ok (text "https://127.1") ∧ ¬NeverLocal (text "127.1") ∧
    publicHttpsEndpoint asciiEnv (text "https://a.localhost") = .ok (text "https://a.localhost") ∧
    ¬NeverLocal (text "a.localhost") := by
  have hhex : ¬NeverLocal (text "0x7f.1") := fun h => absurd (h.resolved (v4 127 0 0 1) (by decide +kernel)) (by decide)
  have hloose : ¬NeverLocal (text "127.1") := fun h => absurd (h.resolved (v4 127 0 0 1) (by decide +kernel)) (by decide)
  have hname : ¬NeverLocal (text "a.localhost") := fun h => h.subdomain (by decide +kernel)
  exact ⟨by decide +kernel, hhex, by decide +kernel, hloose, by decide +kernel, hname⟩

end Experiential.Acquisition
