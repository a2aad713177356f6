import Experiential.Gateway.Promo

/-! # Starting an attempt

`startAttempt` reserves money for one dispatch of an accepted request. It runs in two phases
with a lock wait between them: `beginAttempt` reads the request (and the day the attempt will
be recorded under) before the organization's row lock is taken, `reserveAttempt` makes every
money decision after it and inserts the attempt. Each reads the clock several times; a
`StartClock` holds the readings of one call, `StartClock.at t` is the call in which time stands
still. `startAttempt_eq_ok` is the whole effect of a call, with everything the gates let later
proofs assume about an inserted attempt (`Admitted`). -/

namespace Experiential.Gateway

/-- The parameters of `gateway_start_attempt`. -/
structure StartArgs where
  requestId : String
  orgId : Nat
  attemptOrdinal : Int
  routeDepth : Int
  deploymentId : String
  provider : String
  exactModelId : String
  poolId : String
  catalogSha256 : String
  billingSource : BillingSource
  pricingSource : Option String
  pricingEffectiveAt : Option Int
  inputRate : Option Int
  cachedInputRate : Option Int
  outputRate : Option Int
  reasoningRate : Option Int
  maximumCost : Option Int
deriving DecidableEq

/-- The clock readings of one call, in the order it makes them. -/
structure StartClock where
  deadlineCheck : Int
  keyCheck : Int
  periodStart : Int
  rateWindow : Int
  tokenWindow : Int
  promoState : Int
  spendPolicy : Int
  budgetMonth : Int
  startedAt : Int
deriving DecidableEq

/-- A call during which the clock stands still. -/
def StartClock.at (t : Int) : StartClock := ⟨t, t, t, t, t, t, t, t, t⟩

/-! ### Before the organization lock -/

/-- How the first phase ends: with the receipt of an earlier call, or with the accepted request. -/
inductive Begun where
  | receipt (attemptId : String)
  | admitted (request : GatewayRequest)
deriving DecidableEq

/-- The attempt of a request with an ordinal. -/
def Db.attemptAt (db : Db) (requestId : String) (ordinal : Int) : Option GatewayAttempt :=
  db.attempts.rows.find? (fun a => decide (a.requestId = requestId) && decide (a.attemptOrdinal = ordinal))

/-- The part of `gateway_start_attempt` before the organization's row lock. -/
def beginAttempt (db : Db) (p : StartArgs) (c : StartClock) : Raises Begun := do
  let request ← require (db.requests.find? p.requestId)
    (raised .P0002 "gateway attempt request was not durably accepted")
  ensure (request.orgId = p.orgId)
    (raised .c23514 "gateway attempt authority differs from the accepted request")
  match db.attemptAt p.requestId p.attemptOrdinal with
  | some existing => do
      ensure (existing.orgId = p.orgId ∧ existing.deploymentId = p.deploymentId ∧
          existing.billingSource = p.billingSource)
        (raised .c23505 "gateway attempt ordinal is bound to a different dispatch")
      return .receipt existing.attemptId
  | none => do
      ensure (request.terminalState = none)
        (raised .c23514 "gateway attempt request is already terminal")
      ensure (c.deadlineCheck < request.deadlineAt)
        (raised .c23514 "gateway attempt request deadline has passed")
      ensure (∃ k ∈ request.apiKeyId.bind db.config.apiKeys.find?, k.live c.keyCheck = true)
        (raised .c42501 "gateway attempt api key is revoked or expired")
      return .admitted request

/-! ### Key limits -/

/-- The limits of a key: its row, or the defaults. -/
structure KeyGates where
  requestsPerMinute : Option Int
  tokensPerMinute : Option Int
  dailySpendCap : Option Int
deriving DecidableEq

def keyGates (db : Db) (orgId : Nat) (apiKeyId : Option Nat) : KeyGates :=
  match apiKeyId.bind db.config.keyLimits.find? with
  | some l => ⟨l.requestsPerMinute, l.tokensPerMinute, l.dailySpendCap⟩
  | none => ⟨some 60, none, if db.orgFreeCreditFunded orgId then some 50000000 else none⟩

/-- A platform-funded attempt of the key. -/
def GatewayAttempt.hostOfKey (a : GatewayAttempt) (apiKeyId : Option Nat) : Bool :=
  apiKeyId.isSome && decide (a.apiKeyId = apiKeyId) && decide (a.billingSource = .hostManaged)

/-- Platform-funded dispatches of the key in the trailing minute. -/
def Db.recentDispatches (db : Db) (apiKeyId : Option Nat) (now : Int) : Int :=
  db.attempts.sumWhere (fun a => a.hostOfKey apiKeyId && decide (now - 60 * usPerSecond ≤ a.startedAt))
    (fun _ => 1)

def GatewayAttempt.totalTokens (a : GatewayAttempt) : Int :=
  coalesce a.inputTokens 0 + coalesce a.cachedInputTokens 0 + coalesce a.outputTokens 0 +
    coalesce a.reasoningTokens 0

/-- Tokens of the key's platform-funded attempts settled in the trailing minute. -/
def Db.recentTokens (db : Db) (apiKeyId : Option Nat) (now : Int) : Int :=
  db.attempts.sumWhere (fun a => a.hostOfKey apiKeyId &&
    a.terminalAt.any (fun t => decide (now - 60 * usPerSecond ≤ t))) (·.totalTokens)

/-- Charged-or-reserved spend of the key recorded under one daily period. -/
def Db.keyDaySpent (db : Db) (apiKeyId : Option Nat) (periodStart : Int) : Int :=
  db.attempts.sumWhere (fun a => a.hostOfKey apiKeyId && decide (a.budgetPeriodStart = periodStart))
    (·.chargedOrReserved)

/-- The requests-per-minute gate. -/
def checkRequestRate (db : Db) (apiKeyId : Option Nat) (rpm : Option Int) (now : Int) : Raises Unit :=
  match rpm with
  | none => return ()
  | some rpm =>
      ensure (db.recentDispatches apiKeyId now < rpm) (raised .P1012
        ("key_rate_limit: this API key exceeded " ++ toString rpm ++ " platform-funded dispatches " ++
          "per minute; slow down, or raise the key's limit via the gateway key-limits API (BYOK " ++
          "dispatch is never counted or blocked)"))

/-- The trailing tokens-per-minute gate. -/
def checkTokenRate (db : Db) (apiKeyId : Option Nat) (tpm : Option Int) (now : Int) : Raises Unit :=
  match tpm with
  | none => return ()
  | some tpm => do
      let recent ← int8 (db.recentTokens apiKeyId now)
      ensure (recent < tpm) (raised .P1022
        ("key_token_rate_limit: this API key's platform-funded traffic settled " ++ toString recent ++
          " tokens in the last 60 seconds, at or past its " ++ toString tpm ++ " tokens-per-minute " ++
          "limit; wait for the window to drain, or raise the key's limit via the gateway key-limits " ++
          "API (BYOK dispatch is never counted or blocked)"))

/-- The daily spend cap of the key. -/
def checkKeyDailyCap (db : Db) (apiKeyId : Option Nat) (cap : Option Int) (chargeWorst periodStart : Int) :
    Raises Unit :=
  match cap with
  | none => return ()
  | some cap => do
      let spent ← int8 (db.keyDaySpent apiKeyId periodStart)
      let total ← int8 (spent + chargeWorst)
      ensure (total ≤ cap) (raised .P1011
        ("key_daily_cap: this request's worst case (" ++ toString chargeWorst ++ " micro-USD) would " ++
          "push the key past its " ++ toString cap ++ " micro-USD daily cap (" ++ toString spent ++
          " already reserved or settled today, UTC); retry after 00:00 UTC or raise the cap via the " ++
          "gateway key-limits API"))

/-! ### Funding -/

/-- How an attempt is paid for. -/
structure Funding where
  free : Bool
  percentOff : Percent
  chargeWorst : Int
  promoId : Option Nat
deriving DecidableEq

/-- The pass-through lane: nothing is gated. -/
def Funding.passThrough (maximumCost : Option Int) : Funding :=
  ⟨false, .zero, coalesce maximumCost 0, none⟩

/-- Is the dispatch free under the winning promotion? -/
def PromoState.free (s : PromoState) : Bool :=
  s.isPromo && s.hasFreeTier && s.withinCap && !s.notified

/-- The discount of the winning promotion, when it is active. -/
def PromoState.activePercent (s : PromoState) : Percent :=
  if s.isPromo && s.discountActive then s.percentOff else .zero

/-- The funding split of a platform-funded dispatch. -/
def fundingOf (s : PromoState) (maximumCost : Int) : Funding where
  free := s.free
  percentOff := s.activePercent
  chargeWorst := if !s.free && s.activePercent.isPos then s.activePercent.off maximumCost else maximumCost
  promoId := if s.free || s.activePercent.isPos then s.promoId else none

/-- `to_char(percent, 'FM999999990.##')`: no digit follows the point, `##` is literal text. -/
def toCharPercent (p : Percent) : String := toString (divRound p.unscaled (10 ^ p.scale)) ++ ".##"

/-- The one-time notice that a free tier is exhausted. -/
def checkPromoNotice (s : PromoState) (f : Funding) (aliasName : String) : Raises Unit :=
  ensure (¬(s.isPromo && s.hasFreeTier && !s.notified) = true)
    ⟨.P1030,
      "promo_exhausted_notice: your free promo for " ++ aliasName ++ " is used up ($" ++
        toCharUsd s.promoSpent ++ " of $" ++ toCharUsd (coalesce s.cap 0) ++ "). Further requests to " ++
        "this model now draw your organization's platform credits" ++
        (if f.percentOff.isPos then " at " ++ toCharPercent f.percentOff ++ "% off" else "") ++
        " -- retry to continue. Requests using your own provider keys (BYOK) are unaffected.",
      s.promoId.map toString⟩

/-! ### The credit gates -/

/-- Is the founding admin of the organization still unverified? -/
def Db.ownerUnverified (db : Db) (orgId : Nat) : Bool :=
  db.config.organizationMembers.any (fun m => decide (m.orgId = orgId) && decide (m.role = .admin)) &&
    (db.organizations.find? orgId).any (fun o => o.spendUnlockedAt.isNone)

/-- Everything the organization has charged or reserved. -/
def Db.preVerifySpent (db : Db) (orgId : Nat) : Int :=
  db.attempts.sumWhere (·.hostOf orgId) (·.chargedOrReserved)

/-- The allowance of an organization whose admin has not verified yet. -/
def checkPreVerify (db : Db) (orgId : Nat) (chargeWorst : Int) : Raises Unit :=
  if db.ownerUnverified orgId then do
    let allowance := coalesce db.config.preVerifyAllowance 1000000
    let spent ← int8 (db.preVerifySpent orgId)
    let total ← int8 (spent + chargeWorst)
    ensure (total ≤ allowance) (raised .P1025
      (if allowance ≤ 0 then
        "org_owner_unverified: confirm your email to spend platform credits -- check your inbox for " ++
          "the verification link; everything else, including BYOK (your own provider keys) and trace " ++
          "uploads, works now"
      else
        "org_owner_unverified: your organization has used its $" ++ toCharUsd allowance ++
          " pre-verification credit allowance ($" ++ toCharUsd spent ++ " used); confirm your email " ++
          "to spend the rest of your credits -- check your inbox for the verification link. BYOK " ++
          "(your own provider keys) and trace uploads are unaffected"))
  else return ()

/-- The SQLSTATE of a spend policy refusal. -/
def ReasonCode.spendErrcode : ReasonCode → Errcode
  | .insufficientCredits => .P1010
  | .orgDailyCap => .P1014
  | .modelDailyCap => .P1015
  | .budget _ => .P1010

/-- The SQLSTATE of a budget refusal. -/
def ReasonCode.budgetErrcode : ReasonCode → Errcode
  | .budget .team => .P1016
  | .budget (.identity _) => .P1017
  | .budget (.pool ..) => .P1018
  | .budget (.deployment ..) => .P1019
  | .budget (.key _) => .P1023
  | .budget (.model _) => .P1024
  | _ => .P1016

/-- The spend policy, with the terminal state of a promotion model. -/
def checkSpendPolicy (db : Db) (p : StartArgs) (aliasName : String) (isPromo : Bool) (chargeWorst now : Int) :
    Raises Unit := do
  match ← spendPolicyCheck db p.orgId p.exactModelId (some chargeWorst) now with
  | .allowed => return ()
  | .refused reason message =>
      if isPromo ∧ reason = .insufficientCredits then
        .error (raised .P1031
          ("promo_byok_only: your free promo for " ++ aliasName ++ " is used up and your " ++
            "organization's credits cannot cover it, so " ++ aliasName ++ " is now available only " ++
            "with your own provider keys (BYOK). Add credits at " ++ db.config.webappUrl ++
            "/credits to serve it on the platform again; BYOK requests are unaffected."))
      else .error (raised reason.spendErrcode message)

/-- The coordinates of the dispatch that budgets are matched against. -/
def Db.coordinates (db : Db) (p : StartArgs) (r : GatewayRequest) : BudgetCoordinates where
  orgId := p.orgId
  apiKeyId := r.apiKeyId
  identityId := db.identityIdOf r.apiKeyId
  aliasId := db.aliasIdOf r.aliasRevisionId
  poolId := p.poolId
  deploymentId := p.deploymentId

/-- The monthly budgets. -/
def checkBudgets (db : Db) (p : StartArgs) (r : GatewayRequest) (chargeWorst now : Int) : Raises Unit := do
  match ← budgetReservationCheck db (db.coordinates p r) (some chargeWorst) now with
  | .allowed => return ()
  | .refused reason message => .error (raised reason.budgetErrcode message)

/-- The gates of a dispatch that draws credits. -/
def checkCredits (db : Db) (p : StartArgs) (r : GatewayRequest) (s : PromoState) (f : Funding)
    (c : StartClock) : Raises Unit := do
  checkPromoNotice s f r.aliasName
  checkPreVerify db p.orgId f.chargeWorst
  checkKeyDailyCap db r.apiKeyId (keyGates db p.orgId r.apiKeyId).dailySpendCap f.chargeWorst
    (truncDay c.periodStart)
  checkSpendPolicy db p r.aliasName s.isPromo f.chargeWorst c.spendPolicy
  checkBudgets db p r f.chargeWorst c.budgetMonth

/-- Every gate of a platform-funded dispatch; the result is how it is paid for. -/
def admitHost (db : Db) (p : StartArgs) (r : GatewayRequest) (c : StartClock) : Raises Funding := do
  checkRequestRate db r.apiKeyId (keyGates db p.orgId r.apiKeyId).requestsPerMinute c.rateWindow
  checkTokenRate db r.apiKeyId (keyGates db p.orgId r.apiKeyId).tokensPerMinute c.tokenWindow
  let maximumCost ← require p.maximumCost (raised .P1013
    ("deployment_price_unknown: this route has no known price, so its spend cannot be bounded " ++
      "against the credit balance, a daily cap, or a scope budget; it is ineligible and another " ++
      "route may serve the request"))
  let promo ← gatewayPromoState db p.orgId r.aliasName p.provider (some maximumCost) c.promoState
  let funding := fundingOf promo maximumCost
  if funding.free then return funding
  else do
    checkCredits db p r promo funding c
    return funding

/-! ### The reservation -/

/-- The attempt a start inserts. -/
def StartArgs.row (p : StartArgs) (r : GatewayRequest) (f : Funding) (attemptId : String)
    (c : StartClock) : GatewayAttempt where
  attemptId := attemptId
  requestId := p.requestId
  orgId := p.orgId
  apiKeyId := r.apiKeyId
  attemptOrdinal := p.attemptOrdinal
  routeDepth := p.routeDepth
  deploymentId := p.deploymentId
  provider := p.provider
  exactModelId := p.exactModelId
  poolId := p.poolId
  catalogSha256 := p.catalogSha256
  billingSource := p.billingSource
  pricingSource := p.pricingSource
  pricingEffectiveAt := p.pricingEffectiveAt
  inputRate := p.inputRate
  cachedInputRate := p.cachedInputRate
  outputRate := p.outputRate
  reasoningRate := p.reasoningRate
  state := .dispatched
  startedAt := c.startedAt
  terminalAt := none
  firstTokenAt := none
  failureClass := none
  inputTokens := none
  cachedInputTokens := none
  outputTokens := none
  reasoningTokens := none
  usageSource := none
  estimatedCost := none
  budgetPeriodStart := truncDay c.periodStart
  budgetReserved := if f.free then 0 else f.chargeWorst
  budgetSettled := none
  promoFunded := f.free
  promoReserved := if f.free then coalesce p.maximumCost 0 else 0
  promoSettled := none
  promoDiscountPercent := if f.free then .zero else f.percentOff
  promoId := f.promoId
  toolNames := none
  errorMessage := none

/-- The money decisions of a start: the pass-through lane has none. -/
def fundAttempt (db : Db) (p : StartArgs) (r : GatewayRequest) (c : StartClock) : Raises Funding :=
  match p.billingSource with
  | .hostManaged => admitHost db p r c
  | .customerManaged => return .passThrough p.maximumCost

/-- The part of `gateway_start_attempt` after the organization's row lock. -/
def reserveAttempt (db : Db) (p : StartArgs) (r : GatewayRequest) (c : StartClock) (attemptId : String) :
    Raises Db := do
  let funding ← fundAttempt db p r c
  db.insertAttempt (p.row r funding attemptId c)

/-- `gateway_start_attempt`; `attemptId` is the identifier the database draws. -/
def startAttempt (db : Db) (p : StartArgs) (c : StartClock) (attemptId : String) :
    Raises (Db × String) := do
  match ← beginAttempt db p c with
  | .receipt existing => return (db, existing)
  | .admitted request => do
      let db' ← reserveAttempt db p request c attemptId
      return (db', attemptId)

/-! ### What a start does -/

/-- What is known when a dispatch may draw credits. -/
structure CreditsAdmitted (db : Db) (p : StartArgs) (r : GatewayRequest) (c : StartClock) (f : Funding) :
    Prop where
  keyCap : ∀ cap, (keyGates db p.orgId r.apiKeyId).dailySpendCap = some cap →
    db.keyDaySpent r.apiKeyId (truncDay c.periodStart) + f.chargeWorst ≤ cap
  spend : SpendAllowed db p.orgId p.exactModelId f.chargeWorst c.spendPolicy
  budgets : ∀ b ∈ db.config.gatewayBudgets, b.orgId = p.orgId →
    b.period.includes (monthOf c.budgetMonth) = true → b.scope.covers (db.coordinates p r) = true →
    db.budgetScopeSpent p.orgId b.scope (monthStart (monthOf c.budgetMonth))
      (monthStart (monthOf c.budgetMonth + 1)) + f.chargeWorst ≤ b.limit

/-- What is known when a platform-funded dispatch is admitted. -/
structure HostAdmitted (db : Db) (p : StartArgs) (r : GatewayRequest) (c : StartClock) (f : Funding) :
    Prop where
  promo : ∃ s w, p.maximumCost = some w ∧
    gatewayPromoState db p.orgId r.aliasName p.provider (some w) c.promoState = .ok s ∧
    f = fundingOf s w
  credits : f.free = false → CreditsAdmitted db p r c f

/-- What is known of the funding of an inserted attempt. -/
structure Funded (db : Db) (p : StartArgs) (r : GatewayRequest) (c : StartClock) (f : Funding) : Prop where
  host : p.billingSource = .hostManaged → HostAdmitted db p r c f
  customer : p.billingSource = .customerManaged → f = .passThrough p.maximumCost

/-- What is known of the request a start is admitted for. -/
structure Dispatchable (db : Db) (p : StartArgs) (c : StartClock) (r : GatewayRequest) : Prop where
  found : db.requests.find? p.requestId = some r
  org : r.orgId = p.orgId
  fresh : db.attemptAt p.requestId p.attemptOrdinal = none
  nonterminal : r.terminalState = none
  deadline : c.deadlineCheck < r.deadlineAt
  key : r.apiKeyId.isSome = true

theorem checkKeyDailyCap_ok {db : Db} {k : Option Nat} {cap : Option Int} {w t : Int} {u : Unit}
    (h : checkKeyDailyCap db k cap w t = .ok u) : ∀ x, cap = some x → db.keyDaySpent k t + w ≤ x := by
  rintro x rfl
  simp only [checkKeyDailyCap, bind_eq_ok, ensure_eq_ok] at h
  obtain ⟨spent, hs, total, ht, hle⟩ := h
  obtain rfl := int8_eq_ok hs
  obtain rfl := int8_eq_ok ht
  exact hle

variable {p : StartArgs}

theorem checkSpendPolicy_ok {db : Db} {slug : String} {b : Bool} {w t : Int} {u : Unit}
    (h : checkSpendPolicy db p slug b w t = .ok u) : SpendAllowed db p.orgId p.exactModelId w t := by
  simp only [checkSpendPolicy, bind_eq_ok] at h
  obtain ⟨v, hv, h⟩ := h
  cases v with
  | allowed => exact spendPolicyCheck_allowed hv
  | refused reason message =>
      simp only at h
      split_ifs at h

variable {r : GatewayRequest}

theorem checkBudgets_ok {db : Db} {w t : Int} {u : Unit} (h : checkBudgets db p r w t = .ok u) :
    budgetReservationCheck db (db.coordinates p r) (some w) t = .ok .allowed := by
  simp only [checkBudgets, bind_eq_ok] at h
  obtain ⟨v, hv, h⟩ := h
  cases v with
  | allowed => exact hv
  | refused reason message => cases h

variable {c : StartClock}

theorem checkCredits_ok {db : Db} {s : PromoState} {f : Funding}
    {u : Unit} (h : checkCredits db p r s f c = .ok u) : CreditsAdmitted db p r c f := by
  simp only [checkCredits, bind_eq_ok] at h
  obtain ⟨_, -, _, -, _, hcap, _, hspend, hbudgets⟩ := h
  exact ⟨checkKeyDailyCap_ok hcap, checkSpendPolicy_ok hspend, fun b hb horg hp hc =>
    budgetReservationCheck_allowed (checkBudgets_ok hbudgets) hb horg hp hc⟩

theorem admitHost_ok {db : Db} {f : Funding} (h : admitHost db p r c = .ok f) : HostAdmitted db p r c f := by
  simp only [admitHost, bind_eq_ok, require_eq_ok] at h
  obtain ⟨_, -, _, -, w, hw, s, hs, h⟩ := h
  split_ifs at h with hfree
  · simp only [pure_eq_ok] at h
    obtain rfl := h
    exact ⟨⟨s, w, hw, hs, rfl⟩, fun hf => absurd (hf.symm.trans hfree) (by simp)⟩
  · simp only [bind_eq_ok, pure_eq_ok] at h
    obtain ⟨_, hcr, rfl⟩ := h
    exact ⟨⟨s, w, hw, hs, rfl⟩, fun _ => checkCredits_ok hcr⟩

theorem fundAttempt_ok {db : Db} {f : Funding} (h : fundAttempt db p r c = .ok f) : Funded db p r c f := by
  unfold fundAttempt at h
  cases hb : p.billingSource with
  | hostManaged =>
      simp only [hb] at h
      exact ⟨fun _ => admitHost_ok h, fun hc => by simp [hb] at hc⟩
  | customerManaged =>
      simp only [hb, pure_eq_ok] at h
      exact ⟨fun hc => by simp [hb] at hc, fun _ => h.symm⟩

theorem reserveAttempt_eq_ok {db db' : Db} {id : String} (h : reserveAttempt db p r c id = .ok db') :
    ∃ f, Funded db p r c f ∧ db.insertAttempt (p.row r f id c) = .ok db' := by
  simp only [reserveAttempt, bind_eq_ok] at h
  obtain ⟨f, hf, h⟩ := h
  exact ⟨f, fundAttempt_ok hf, h⟩

theorem beginAttempt_admitted {db : Db} (h : beginAttempt db p c = .ok (.admitted r)) : Dispatchable db p c r := by
  simp only [beginAttempt, bind_eq_ok, require_eq_ok] at h
  obtain ⟨r', hr, _, horg, h⟩ := h
  rw [ensure_eq_ok] at horg
  cases ha : db.attemptAt p.requestId p.attemptOrdinal with
  | some a =>
      simp only [ha, bind_eq_ok, pure_eq_ok, reduceCtorEq, and_false, exists_false] at h
  | none =>
      simp only [ha, bind_eq_ok, ensure_eq_ok, pure_eq_ok, Begun.admitted.injEq] at h
      obtain ⟨_, hopen, _, hdead, _, ⟨k, hk, -⟩, rfl⟩ := h
      refine ⟨hr, horg, ha, hopen, hdead, ?_⟩
      cases hid : r'.apiKeyId with
      | none => simp [hid] at hk
      | some k => rfl

theorem beginAttempt_receipt {db : Db} {id : String} (h : beginAttempt db p c = .ok (.receipt id)) :
    ∃ a, db.attemptAt p.requestId p.attemptOrdinal = some a ∧ a.attemptId = id := by
  simp only [beginAttempt, bind_eq_ok, require_eq_ok] at h
  obtain ⟨r', hr, _, horg, h⟩ := h
  cases ha : db.attemptAt p.requestId p.attemptOrdinal with
  | some a =>
      simp only [ha, bind_eq_ok, pure_eq_ok, Begun.receipt.injEq] at h
      obtain ⟨_, -, hid⟩ := h
      exact ⟨a, rfl, hid⟩
  | none =>
      simp only [ha, bind_eq_ok, pure_eq_ok, reduceCtorEq, and_false, exists_false] at h

/-- **A start returns a receipt and changes nothing, or inserts one funded attempt.** -/
theorem startAttempt_eq_ok {db db' : Db} {id id' : String} (h : startAttempt db p c id = .ok (db', id')) :
    (db' = db ∧ ∃ a, db.attemptAt p.requestId p.attemptOrdinal = some a ∧ a.attemptId = id') ∨
    ∃ r f, Dispatchable db p c r ∧ Funded db p r c f ∧ db.insertAttempt (p.row r f id c) = .ok db' := by
  simp only [startAttempt, bind_eq_ok] at h
  obtain ⟨begun, hb, h⟩ := h
  cases begun with
  | receipt existing =>
      simp only [pure_eq_ok, Prod.mk.injEq] at h
      obtain ⟨rfl, rfl⟩ := h
      exact .inl ⟨rfl, beginAttempt_receipt hb⟩
  | admitted r =>
      simp only [bind_eq_ok, pure_eq_ok, Prod.mk.injEq] at h
      obtain ⟨db₁, hdb, rfl, -⟩ := h
      obtain ⟨f, hf, hins⟩ := reserveAttempt_eq_ok hdb
      exact .inr ⟨r, f, beginAttempt_admitted hb, hf, hins⟩

end Experiential.Gateway
