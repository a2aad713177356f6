import Mathlib
import Experiential.Lib.Grouping
import Experiential.Lib.Run

/-! # The lease shadow

What a worker would have decided with leases in memory. A lease is a slice of a scope's remaining budget, granted by a
refresh; a key with a limit of requests keeps a window of its admissions. A refresh ranks the keys and drops the leases
beyond the bound, reads the budgets, and then grants anew; other calls come between. Amounts are in micro-USD, times
in seconds, and what the configuration gives as floats is rational. -/

namespace Experiential.Gateway

/-! ### Leases -/

structure LeaseShadowConfig where
  leaseFraction : ℚ
  leaseCapMicroUsd : ℤ
  floorMicroUsd : ℤ
  ttlSeconds : ℚ
  rateHeadroom : ℚ
  maxTrackedKeys : ℕ
  maxDivergenceDetails : ℕ

def LeaseShadowConfig.default : LeaseShadowConfig where
  leaseFraction := 1 / 10
  leaseCapMicroUsd := 2000000
  floorMicroUsd := 10000000
  ttlSeconds := 6
  rateHeadroom := 9 / 10
  maxTrackedKeys := 1024
  maxDivergenceDetails := 50

structure LeaseKey where
  orgId : String
  apiKeyId : String
  aliasName : String
  provider : String
  exactModelId : String
deriving DecidableEq

/-- `ADMIT`, `DENY`, `SYNC_FALLBACK`. -/
inductive ShadowVerdict where
  | admits
  | deny
  | syncFallback
deriving DecidableEq

structure LeaseSourceState where
  remainingMicroUsd : ℤ
  exclusionReasons : List String
  requestsPerMinute : Option ℤ
deriving DecidableEq

/-- `_Lease` -/
structure Lease where
  grantedMicroUsd : ℤ
  consumedMicroUsd : ℤ
  remainingAtGrantMicroUsd : ℤ
  exclusionReasons : List String
  requestsPerMinute : Option ℤ
  expiresMonotonic : ℚ
  lastUsedMonotonic : ℚ
deriving DecidableEq

structure ShadowDivergence where
  verdict : ShadowVerdict
  reason : String
  sqlstate : Option String
  maxCostMicroUsd : ℤ
  orgId : String
  aliasName : String
deriving DecidableEq

/-- The counters of the report. -/
structure ShadowStats where
  samples : ℕ
  verdictCounts : OrderedDict ShadowVerdict ℕ
  syncReasons : OrderedDict String ℕ
  comparable : ℕ
  agreements : ℕ
  divergences : List ShadowDivergence
  divergenceCount : ℕ
  wouldBeOverspend : ℤ
  falseDenials : ℕ
  infrastructureErrors : ℕ

def ShadowStats.zero : ShadowStats := ⟨0, .empty, .empty, 0, 0, [], 0, 0, 0, 0⟩

structure LeaseShadow where
  leases : OrderedDict LeaseKey Lease
  pendingKeys : List LeaseKey
  rpmWindows : OrderedDict String (List ℚ)
  stats : ShadowStats

def LeaseShadow.new : LeaseShadow := ⟨.empty, [], .empty, .zero⟩

/-! ### Decisions -/

/-- `_rate_limited`: whether the band is left, and the windows without what has left them. -/
def rateLimited (c : LeaseShadowConfig) (windows : OrderedDict String (List ℚ)) (apiKeyId : String) (rpm : Option ℤ)
    (now : ℚ) : Bool × OrderedDict String (List ℚ) :=
  match rpm with
  | none => (false, windows)
  | some rpm =>
    match windows.get? apiKeyId with
    | none => (false, windows)
    | some stamps =>
      let stamps := stamps.dropWhile fun t => decide (t ≤ now - 60)
      (decide (rpm * c.rateHeadroom < stamps.length + 1), windows.set apiKeyId stamps)

/-- The window behind an admission. -/
def recorded (windows : OrderedDict String (List ℚ)) (apiKeyId : String) (rpm : Option ℤ) (now : ℚ) :
    OrderedDict String (List ℚ) :=
  if rpm.isSome then windows.set apiKeyId ((windows.get? apiKeyId).getD [] ++ [now]) else windows

/-- `_admit_against` -/
def admitAgainst (c : LeaseShadowConfig) (s : LeaseShadow) (key : LeaseKey) (lease : Lease) (maxCost : ℤ) (now : ℚ) :
    (ShadowVerdict × String) × LeaseShadow :=
  if lease.expiresMonotonic ≤ now then ((.syncFallback, "lease_expired"), s)
  else if lease.exclusionReasons ≠ [] then
    ((.syncFallback, "excluded:" ++ ",".intercalate lease.exclusionReasons), s)
  else if lease.remainingAtGrantMicroUsd ≤ 0 then ((.deny, "scope_exhausted"), s)
  else if lease.remainingAtGrantMicroUsd < c.floorMicroUsd then ((.syncFallback, "below_floor"), s)
  else
    let limited := rateLimited c s.rpmWindows key.apiKeyId lease.requestsPerMinute now
    let s := { s with rpmWindows := limited.2 }
    if limited.1 then ((.syncFallback, "rate_headroom"), s)
    else if lease.grantedMicroUsd < lease.consumedMicroUsd + maxCost then ((.syncFallback, "lease_exhausted"), s)
    else
      ((.admits, "admit"),
        { s with
          leases := s.leases.set key { lease with consumedMicroUsd := lease.consumedMicroUsd + maxCost }
          rpmWindows := recorded s.rpmWindows key.apiKeyId lease.requestsPerMinute now })

/-- `_decide` -/
def decideLease (c : LeaseShadowConfig) (s : LeaseShadow) (key : LeaseKey) (maxCost : Option ℤ) (now : ℚ) :
    (ShadowVerdict × String) × LeaseShadow :=
  match maxCost with
  | none => ((.deny, "price_unknown"), s)
  | some maxCost =>
    match s.leases.get? key with
    | none =>
      ((.syncFallback, "no_lease"),
        if s.pendingKeys.length < c.maxTrackedKeys ∧ key ∉ s.pendingKeys then
          { s with pendingKeys := s.pendingKeys ++ [key] }
        else s)
    | some lease =>
      let lease := { lease with lastUsedMonotonic := now }
      admitAgainst c { s with leases := s.leases.set key lease } key lease maxCost now

/-- `_REFUSAL_SQLSTATES` -/
def refusalSqlstates : List String :=
  ["P1010", "P1011", "P1012", "P1013", "P1014", "P1015", "P1016", "P1017", "P1018", "P1019", "P1022", "P1023", "P1024",
    "P1025", "P1030", "P1031", "42501"]

/-- What is told of a settled reservation. -/
structure Observation where
  key : LeaseKey
  maxCost : Option ℤ
  verdict : ShadowVerdict
  reason : String
  sqlstate : Option String

/-- Is the error no refusal? -/
def Observation.infrastructure (o : Observation) : Bool := o.sqlstate.any fun s => decide (s ∉ refusalSqlstates)

/-- Do the shadow and the reservation decide alike? -/
def Observation.agreed (o : Observation) : Bool := decide (o.verdict = .admits ↔ o.sqlstate = none)

/-- What a comparison adds. -/
def ShadowStats.compare (c : LeaseShadowConfig) (s : ShadowStats) (o : Observation) : ShadowStats :=
  let s := { s with comparable := s.comparable + 1 }
  if o.agreed then { s with agreements := s.agreements + 1 }
  else
    let s := { s with divergenceCount := s.divergenceCount + 1 }
    let s := if o.verdict = .admits then { s with wouldBeOverspend := s.wouldBeOverspend + o.maxCost.getD 0 }
      else { s with falseDenials := s.falseDenials + 1 }
    if s.divergences.length < c.maxDivergenceDetails then
      { s with divergences :=
          s.divergences ++ [⟨o.verdict, o.reason, o.sqlstate, o.maxCost.getD 0, o.key.orgId, o.key.aliasName⟩] }
    else s

/-- `_observe` -/
def ShadowStats.observe (c : LeaseShadowConfig) (s : ShadowStats) (o : Observation) : ShadowStats :=
  let s := { s with
    samples := s.samples + 1
    verdictCounts := s.verdictCounts.addAt o.verdict 1
    syncReasons := if o.verdict = .syncFallback then s.syncReasons.addAt o.reason 1 else s.syncReasons }
  if o.infrastructure then { s with infrastructureErrors := s.infrastructureErrors + 1 }
  else if o.verdict = .syncFallback then s
  else s.compare c o

/-! ### Refreshes -/

/-- The order of `pending` in a refresh. -/
def pendingLe (a b : LeaseKey) : Prop := a.orgId < b.orgId ∨ a.orgId = b.orgId ∧ a.apiKeyId ≤ b.apiKeyId

instance : DecidableRel pendingLe := fun _ _ => inferInstanceAs (Decidable (_ ∨ _))

/-- The keys a refresh reads; `arrange` is the order in which a set gives its elements. -/
def rankedKeys (c : LeaseShadowConfig) (arrange : List LeaseKey → List LeaseKey) (s : LeaseShadow) : List LeaseKey :=
  let pending := (arrange s.pendingKeys).insertionSort pendingLe
  let ranked := (s.leases.entries.insertionSort fun a b => b.2.lastUsedMonotonic ≤ a.2.lastUsedMonotonic).map (·.1)
  (firsts id [] (pending ++ ranked)).take c.maxTrackedKeys

/-- `refresh_once` up to the read: the leases without a slot are dropped. -/
def dropLeases (c : LeaseShadowConfig) (arrange : List LeaseKey → List LeaseKey) (s : LeaseShadow) : LeaseShadow :=
  { s with
    leases := ⟨s.leases.entries.filter fun e => decide (e.1 ∈ rankedKeys c arrange s)⟩
    pendingKeys := [] }

/-- `int(x)` -/
def truncated (x : ℚ) : ℤ := if 0 ≤ x then ⌊x⌋ else ⌈x⌉

/-- The amount of a grant. -/
def grantOf (c : LeaseShadowConfig) (remaining : ℤ) : ℤ :=
  max (min c.leaseCapMicroUsd (truncated (remaining * c.leaseFraction))) 0

/-- One re-grant. -/
def grantLease (c : LeaseShadowConfig) (grantedAt : ℚ) (leases : OrderedDict LeaseKey Lease)
    (e : LeaseKey × LeaseSourceState) : OrderedDict LeaseKey Lease :=
  leases.set e.1 {
    grantedMicroUsd := grantOf c e.2.remainingMicroUsd
    consumedMicroUsd := 0
    remainingAtGrantMicroUsd := e.2.remainingMicroUsd
    exclusionReasons := e.2.exclusionReasons
    requestsPerMinute := e.2.requestsPerMinute
    expiresMonotonic := grantedAt + c.ttlSeconds
    lastUsedMonotonic := match leases.get? e.1 with
      | some previous => previous.lastUsedMonotonic
      | none => grantedAt }

/-- The API keys that have a lease. -/
def liveApiKeys (leases : OrderedDict LeaseKey Lease) : List String := leases.keys.map (·.apiKeyId)

/-- `refresh_once` behind the read. -/
def grantLeases (c : LeaseShadowConfig) (s : LeaseShadow) (states : List (LeaseKey × LeaseSourceState)) (grantedAt : ℚ) :
    LeaseShadow :=
  let leases := states.foldl (grantLease c grantedAt) s.leases
  { s with
    leases := leases
    rpmWindows := ⟨s.rpmWindows.entries.filter fun e => decide (e.1 ∈ liveApiKeys leases)⟩ }

/-! ### Runs -/

inductive ShadowEvent where
  | decide (key : LeaseKey) (maxCost : Option ℤ) (now : ℚ)
  | observe (o : Observation)
  | drop (arrange : List LeaseKey → List LeaseKey)
  | grant (states : List (LeaseKey × LeaseSourceState)) (grantedAt : ℚ)

def ShadowEvent.clock : ShadowEvent → Option ℚ
  | .decide _ _ now => some now
  | .grant _ grantedAt => some grantedAt
  | _ => none

/-- What happened to leases and windows. -/
inductive LeaseRecord where
  | admitted (key : LeaseKey) (cost : ℤ) (rpm : Option ℤ) (now : ℚ)
  | granted (key : LeaseKey) (amount remaining : ℤ)
  | forgotten (apiKeyId : String)
deriving DecidableEq

/-- A shadow and what happened, the latest first. -/
structure ShadowRun where
  shadow : LeaseShadow
  history : List LeaseRecord

/-- The record of an admission. -/
def admissionOf (s : LeaseShadow) (key : LeaseKey) (maxCost : Option ℤ) (now : ℚ) (verdict : ShadowVerdict) :
    List LeaseRecord :=
  match verdict, maxCost, s.leases.get? key with
  | .admits, some cost, some lease => [.admitted key cost lease.requestsPerMinute now]
  | _, _, _ => []

/-- The record of a grant. -/
def grantRecord (c : LeaseShadowConfig) (e : LeaseKey × LeaseSourceState) : LeaseRecord :=
  .granted e.1 (grantOf c e.2.remainingMicroUsd) e.2.remainingMicroUsd

def shadowStep (c : LeaseShadowConfig) (r : ShadowRun) : ShadowEvent → ShadowRun
  | .decide key maxCost now =>
      ⟨(decideLease c r.shadow key maxCost now).2,
        admissionOf r.shadow key maxCost now (decideLease c r.shadow key maxCost now).1.1 ++ r.history⟩
  | .observe o => ⟨{ r.shadow with stats := r.shadow.stats.observe c o }, r.history⟩
  | .drop arrange => ⟨dropLeases c arrange r.shadow, r.history⟩
  | .grant states grantedAt =>
      ⟨grantLeases c r.shadow states grantedAt,
        (r.shadow.rpmWindows.keys.filter fun k =>
            decide (k ∉ liveApiKeys (grantLeases c r.shadow states grantedAt).leases)).map .forgotten ++
          ((states.map (grantRecord c)).reverse ++ r.history)⟩

end Experiential.Gateway
