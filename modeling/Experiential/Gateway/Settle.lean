import Experiential.Gateway.Database

/-! # Settling an attempt

`gatewayAttemptCost` prices one attempt's token counts with the rates frozen at dispatch
(micro-USD per million tokens, rounded half up at the end). Cached and reasoning tokens are
subsets of the input and output totals; each falls back to its total's rate. The cost is null
when there is no usage at all, or when some tokens have no rate.

A request that becomes terminal gets one usage event, inserted once and never updated, and one
contribution to its daily bucket. `closeRequest` is the pair of statements every caller runs:
make the request terminal if it is still open, then finalize its usage. `Closes` is the whole
effect of it.

A dispatched attempt is settled once, by an explicit call or by the crash reconciler. Both
write the terminal columns of its row, a `Settlement`, and debit the organization for what the
platform-funded lane charged. `Settles` is the effect of either; `settleAttempt_eq_ok` says
that a settle call is the receipt of an earlier one or settles one dispatched attempt, and
closes the request when it was asked to. -/

namespace Experiential.Gateway

/-- `gateway_attempt_cost_micro_usd`. -/
def gatewayAttemptCost (inputTokens cachedInputTokens outputTokens reasoningTokens : Option Int)
    (inputRate cachedInputRate outputRate reasoningRate : Option Int) : Raises (Option Int) := do
  let cachedTokens := min (coalesce cachedInputTokens 0) (coalesce inputTokens 0)
  let inputRest ← int4 (coalesce inputTokens 0 - cachedTokens)
  let freshInputTokens := max inputRest 0
  let reasoningCount := min (coalesce reasoningTokens 0) (coalesce outputTokens 0)
  let outputRest ← int4 (coalesce outputTokens 0 - reasoningCount)
  let freshOutputTokens := max outputRest 0
  let effectiveCachedRate := cachedInputRate <|> inputRate
  let effectiveReasoningRate := reasoningRate <|> outputRate
  if inputTokens = none ∧ outputTokens = none then
    return none
  else if (0 < freshInputTokens ∧ inputRate = none) ∨ (0 < cachedTokens ∧ effectiveCachedRate = none) ∨
      (0 < freshOutputTokens ∧ outputRate = none) ∨
      (0 < reasoningCount ∧ effectiveReasoningRate = none) then
    return none
  else do
    let freshInput ← int8 (freshInputTokens * coalesce inputRate 0)
    let cached ← int8 (cachedTokens * coalesce effectiveCachedRate 0)
    let freshOutput ← int8 (freshOutputTokens * coalesce outputRate 0)
    let reasoning ← int8 (reasoningCount * coalesce effectiveReasoningRate 0)
    let input ← int8 (freshInput + cached)
    let output ← int8 (input + freshOutput)
    let total ← int8 (output + reasoning)
    let rounded ← int8 (total + 500000)
    return some (rounded.tdiv 1000000)

/-! ### Money of a request -/

/-- What an attempt adds to the charged cost of its request. -/
def GatewayAttempt.chargedCost (a : GatewayAttempt) : Int :=
  match a.billingSource with
  | .hostManaged => coalesce a.budgetSettled 0
  | .customerManaged => 0

/-- What an attempt adds to the estimated customer cost of its request. -/
def GatewayAttempt.attributedCost (a : GatewayAttempt) : Int :=
  match a.billingSource with
  | .customerManaged => coalesce (a.estimatedCost <|> a.budgetSettled) 0
  | .hostManaged => 0

/-- Sum of the settled costs of the request's host-managed attempts. -/
def Db.requestCost (db : Db) (requestId : String) : Int :=
  db.attempts.sumWhere (fun a => decide (a.requestId = requestId)) (·.chargedCost)

/-- Sum of the estimated costs of the request's customer-managed attempts. -/
def Db.requestEstimated (db : Db) (requestId : String) : Int :=
  db.attempts.sumWhere (fun a => decide (a.requestId = requestId)) (·.attributedCost)

/-! ### The usage event -/

/-- A span in milliseconds, clamped into `int4` from 0. -/
def clampMs (us : Int) : Int := max 0 (min (divRound us 1000) 2147483647)

/-- An empty list of tool names is not captured. -/
def normalizeTools : Option (List String) → Option (List String)
  | some (t :: ts) => some (t :: ts)
  | _ => none

/-- The attempts of a request. -/
def Db.attemptsOf (db : Db) (requestId : String) : List GatewayAttempt :=
  db.attempts.rows.filter (fun a => decide (a.requestId = requestId))

def laneOf : BillingSource → Lane
  | .hostManaged => .platformFunded
  | .customerManaged => .passThrough

/-- The event of a terminal request, from its attempts and its winning (last) attempt. -/
def usageEventOf (db : Db) (r : GatewayRequest) (state : TerminalState) (terminalAt now : Int) :
    Raises UsageEvent := do
  let attempts := db.attemptsOf r.requestId
  let winning := Table.greatestBy (·.attemptOrdinal) attempts
  let firstDispatchAt := (attempts.map (·.startedAt)).min?
  let cost ← int8 (db.requestCost r.requestId)
  let estimated ← int8 (db.requestEstimated r.requestId)
  return {
    requestId := r.requestId
    orgId := r.orgId
    apiKeyId := r.apiKeyId
    userId := (r.apiKeyId.bind db.config.apiKeys.find?).bind (·.createdBy)
    aliasName := r.aliasName
    provider := winning.map (·.provider)
    lane := winning.map (fun a => laneOf a.billingSource)
    inputTokens := coalesce (winning.bind (·.inputTokens)) 0
    outputTokens := coalesce (winning.bind (·.outputTokens)) 0
    cachedInputTokens := coalesce (winning.bind (·.cachedInputTokens)) 0
    reasoningTokens := coalesce (winning.bind (·.reasoningTokens)) 0
    cost := cost
    estimatedCost := estimated
    pricingKnown := winning.all (fun a => a.inputRate.isSome && a.outputRate.isSome)
    latencyMs := clampMs (terminalAt - r.acceptedAt)
    status := state
    attemptCount := attempts.length
    day := dayOf terminalAt
    toolsUsed := normalizeTools (winning.bind (·.toolNames))
    failureClass := winning.bind (·.failureClass) <|> r.terminalFailureClass
    errorMessage := winning.bind (·.errorMessage) <|> r.terminalErrorMessage
    generationDurationMs := winning.bind (fun a => a.terminalAt.map (fun t => clampMs (t - a.startedAt)))
    routingOverheadMs := firstDispatchAt.map (fun t => clampMs (t - r.acceptedAt))
    ttftMs := winning.bind (fun a => a.firstTokenAt.map (fun t => clampMs (t - a.startedAt)))
    promptSha256 := r.promptSha256
    conversationSha256 := r.conversationSha256
    stablePrefixChars := r.stablePrefixChars
    createdAt := now }

/-- The daily contribution of an event; a null user is bucketed as the zero `uuid`. -/
def UsageEvent.daily (e : UsageEvent) (spend : Int) : UsageDaily where
  orgId := e.orgId
  userId := coalesce e.userId 0
  day := e.day
  aliasName := e.aliasName
  requests := 1
  inputTokens := e.inputTokens
  outputTokens := e.outputTokens
  spend := spend

/-- `gateway_finalize_usage`: at most one event for a request, and its bucket with it. -/
def finalizeUsage (db : Db) (requestId : String) (now : Int) : Raises Db :=
  let notTerminal := raised .c23514 "gateway usage finalization requires a terminal request"
  do
    let r ← require (db.requests.find? requestId) notTerminal
    let state ← require r.terminalState notTerminal
    let terminalAt ← require r.terminalAt notTerminal
    let e ← usageEventOf db r state terminalAt now
    let (db₁, inserted) ← db.insertUsageEvent e
    if inserted then do
      let spend ← int8 (e.cost + e.estimatedCost)
      db₁.upsertDaily (e.daily spend)
    else return db₁

/-! ### Making a request terminal -/

/-- The request ended, with its terminal columns set. -/
def GatewayRequest.close (r : GatewayRequest) (state : TerminalState) (now : Int) : GatewayRequest :=
  { r with terminalState := some state, terminalAt := some now }

/-- Make a request terminal if it is still open, and finalize its usage. -/
def closeRequest (db : Db) (requestId : String) (state : TerminalState) (now : Int) : Raises Db := do
  let db₁ ← db.updateRequests
    (fun r => decide (r.requestId = requestId) && decide (r.terminalState = none))
    (fun r => r.close state now) (fun _ => rfl)
  finalizeUsage db₁ requestId now

/-- The parameters of `gateway_finish_request`; `none` is a text that names no outcome. -/
structure FinishArgs where
  requestId : String
  orgId : Nat
  terminalState : Option TerminalState
  failureClass : Option String
  errorMessage : Option String
deriving DecidableEq

/-- `gateway_finish_request`. -/
def finishRequest (db : Db) (p : FinishArgs) (now : Int) : Raises Db :=
  let invalid := raised .c22023 "invalid gateway request terminal state for pre-dispatch finish"
  do
    let state ← require p.terminalState invalid
    ensure (state = .failed ∨ state = .cancelled) invalid
    ensure (∀ m ∈ p.errorMessage, m.length ≤ 4096)
      (raised .c22023 "gateway request error message exceeds 4096 characters")
    let r ← require (db.requests.find? p.requestId)
      (raised .P0002 "gateway request was not durably accepted")
    ensure (r.orgId = p.orgId)
      (raised .c23514 "gateway finish authority differs from the accepted request")
    match r.terminalState with
    | some ended => do
        ensure (ended = state)
          (raised .c23514 "gateway request is already settled with another terminal state")
        return db
    | none => do
        let db₁ ← db.updateRequests (fun r => decide (r.requestId = p.requestId))
          (fun r => { r.close state now with
            terminalFailureClass := p.failureClass
            terminalErrorMessage := p.errorMessage })
          (fun _ => rfl)
        finalizeUsage db₁ p.requestId now

/-! ### What closing does -/

/-- The effect of `finalizeUsage`: one event, if there was none, and nothing but its bucket. -/
structure Finalizes (db : Db) (requestId : String) (db' : Db) : Prop where
  event : (∃ e, db.usageEvents.find? requestId = some e) ∧ db'.usageEvents = db.usageEvents ∨
    db.usageEvents.find? requestId = none ∧ ∃ e, e.requestId = requestId ∧
      e.cost = db.requestCost requestId ∧ e.estimatedCost = db.requestEstimated requestId ∧
      db.usageEvents.insert e = .ok db'.usageEvents
  config : db'.config = db.config
  organizations : db'.organizations = db.organizations
  requests : db'.requests = db.requests
  attempts : db'.attempts = db.attempts

theorem usageEventOf_eq_ok {db : Db} {r : GatewayRequest} {s : TerminalState} {t now : Int}
    {e : UsageEvent} (h : usageEventOf db r s t now = .ok e) : e.requestId = r.requestId ∧
      e.cost = db.requestCost r.requestId ∧ e.estimatedCost = db.requestEstimated r.requestId := by
  simp only [usageEventOf, bind_eq_ok, pure_eq_ok] at h
  obtain ⟨cost, hc, est, he, rfl⟩ := h
  exact ⟨rfl, int8_eq_ok hc, int8_eq_ok he⟩

variable {db db' : Db}

theorem finalizeUsage_eq_ok {requestId : String} {now : Int}
    (h : finalizeUsage db requestId now = .ok db') : Finalizes db requestId db' ∧
      ∃ r, db.requests.find? requestId = some r ∧ r.terminalState ≠ none := by
  simp only [finalizeUsage, bind_eq_ok, require_eq_ok] at h
  obtain ⟨r, hr, s, hs, t, -, e, he, ⟨db₁, inserted⟩, hins, h⟩ := h
  obtain ⟨hid, hcost, hest⟩ := usageEventOf_eq_ok he
  have hrid : r.requestId = requestId := (Table.find?_eq_some.mp hr).2
  rw [hrid] at hid hcost hest
  refine ⟨?_, r, hr, by simp [hs]⟩
  rcases Db.insertUsageEvent_eq_ok hins with ⟨rfl, rfl, e₀, he₀⟩ | ⟨u, rfl, hnone, hu, rfl⟩
  · simp only [Bool.false_eq_true, if_false, pure_eq_ok] at h
    obtain rfl := h
    exact ⟨.inl ⟨⟨e₀, hid ▸ he₀⟩, rfl⟩, rfl, rfl, rfl, rfl⟩
  · simp only [if_true, bind_eq_ok] at h
    obtain ⟨spend, -, h⟩ := h
    obtain ⟨d, rfl⟩ := Db.upsertDaily_eq_ok h
    exact ⟨.inr ⟨hid ▸ hnone, e, hid, hcost, hest, hu⟩, rfl, rfl, rfl, rfl⟩

/-- `r'` is `r` with its terminal columns set to an ending in `s`. -/
def GatewayRequest.EndsAs (r r' : GatewayRequest) (s : TerminalState) : Prop :=
  ∃ t c m, r' = { r with
    terminalState := some s, terminalAt := some t, terminalFailureClass := c, terminalErrorMessage := m }

/-- The effect of closing the request `r` with `s`: it is terminal, and has an event. -/
structure Closes (db : Db) (r : GatewayRequest) (s : TerminalState) (db' : Db) : Prop where
  mem : r ∈ db.requests
  requests : (r.terminalState = none ∧ ∃ r', r.EndsAs r' s ∧ Table.Replaced db.requests db'.requests r r') ∨
    r.terminalState ≠ none ∧ db'.requests = db.requests
  event : (∃ e, db.usageEvents.find? r.requestId = some e) ∧ db'.usageEvents = db.usageEvents ∨
    db.usageEvents.find? r.requestId = none ∧ ∃ e, e.requestId = r.requestId ∧
      e.cost = db.requestCost r.requestId ∧ e.estimatedCost = db.requestEstimated r.requestId ∧
      db.usageEvents.insert e = .ok db'.usageEvents
  config : db'.config = db.config
  organizations : db'.organizations = db.organizations
  attempts : db'.attempts = db.attempts

/-- An update that ends the open request `r` alone, followed by its finalization, closes it. -/
theorem closes_of_update {db db₁ db' : Db} {r : GatewayRequest} {s : TerminalState}
    {p : GatewayRequest → Bool} {f : GatewayRequest → GatewayRequest}
    {hf : ∀ r, (f r).requestId = r.requestId} (hu : db.updateRequests p f hf = .ok db₁)
    (hmem : r ∈ db.requests) (hopen : r.terminalState = none)
    (hp : ∀ x ∈ db.requests, p x = true ↔ x.requestId = r.requestId) (hends : r.EndsAs (f r) s)
    (hfin : Finalizes db₁ r.requestId db') : Closes db r s db' := by
  obtain ⟨t, hfk, ht, rfl⟩ := Db.updateRequests_eq_ok hu
  refine ⟨hmem, .inl ⟨hopen, f r, hends, ?_⟩, hfin.event, hfin.config, hfin.organizations,
    hfin.attempts⟩
  rw [hfin.requests]
  exact Table.replaced_of_update ht hmem hp

theorem closeRequest_eq_ok {requestId : String} {s : TerminalState} {now : Int}
    (h : closeRequest db requestId s now = .ok db') :
    ∃ r, db.requests.find? requestId = some r ∧ Closes db r s db' := by
  simp only [closeRequest, bind_eq_ok] at h
  obtain ⟨db₁, hdb, h⟩ := h
  obtain ⟨hfin, r₁, hr₁, -⟩ := finalizeUsage_eq_ok h
  obtain ⟨t, hfk, ht, rfl⟩ := Db.updateRequests_eq_ok hdb
  simp only [Table.find?_update ht, Option.map_eq_some_iff] at hr₁
  obtain ⟨r, hr, -⟩ := hr₁
  obtain ⟨hmem, rfl⟩ := Table.find?_eq_some.mp hr
  have hhit : ∀ x ∈ db.requests, x.requestId = r.requestId → x = r :=
    fun x hx hk => db.requests.eq_of_key_eq hx hmem hk
  refine ⟨r, hr, ?_⟩
  by_cases hopen : r.terminalState = none
  · refine closes_of_update hdb hmem hopen ?_ ⟨now, _, _, rfl⟩ hfin
    intro x hx
    simp only [Bool.and_eq_true, decide_eq_true_eq, and_iff_left_iff_imp]
    intro hk
    rw [hhit x hx hk]
    exact hopen
  · refine ⟨hmem, .inr ⟨hopen, ?_⟩, hfin.event, hfin.config, hfin.organizations, hfin.attempts⟩
    rw [hfin.requests]
    refine Table.update_eq_self ht ?_
    intro x hx
    by_cases hk : x.requestId = r.requestId
    · rw [hhit x hx hk]
      simp [hopen]
    · simp [hk]

/-- A finish is the receipt of an earlier one, or closes an open request. -/
theorem finishRequest_eq_ok {p : FinishArgs} {now : Int} (h : finishRequest db p now = .ok db') :
    (db' = db ∧ ∃ r, db.requests.find? p.requestId = some r ∧ r.terminalState = p.terminalState) ∨
    ∃ r s, p.terminalState = some s ∧ db.requests.find? p.requestId = some r ∧
      r.terminalState = none ∧ Closes db r s db' := by
  simp only [finishRequest, bind_eq_ok, require_eq_ok, ensure_eq_ok] at h
  obtain ⟨s, hs, _, -, _, -, r, hr, _, -, h⟩ := h
  obtain ⟨hmem, hid⟩ := Table.find?_eq_some.mp hr
  cases hopen : r.terminalState with
  | some ended =>
      simp only [hopen, bind_eq_ok, ensure_eq_ok, pure_eq_ok] at h
      obtain ⟨_, rfl, rfl⟩ := h
      exact .inl ⟨rfl, r, hr, by rw [hopen, hs]⟩
  | none =>
      simp only [hopen, bind_eq_ok] at h
      obtain ⟨db₁, hdb, h⟩ := h
      refine .inr ⟨r, s, hs, hr, hopen, closes_of_update hdb hmem hopen (by simp [hid])
        ⟨now, _, _, rfl⟩ ?_⟩
      rw [hid]
      exact (finalizeUsage_eq_ok h).1

/-! ### Debiting the organization -/

/-- `gateway_settle_billing`. -/
def settleBilling (db : Db) (orgId : Nat) (attemptId : String) (settled : Int) : Raises Db :=
  let noOrganization := raised .P0002 "gateway settlement organization does not exist"
  do
    ensure (0 ≤ settled)
      (raised .c22023 "gateway settlement amount must be a nonnegative micro-USD integer")
    let a ← require (db.attempts.find? attemptId)
      (raised .P0002 "gateway settlement attempt does not exist")
    if settled = 0 then
      if (a.state = .completed ∨ a.state = .incomplete ∨ a.state = .cancelled) ∧
          0 < coalesce a.outputTokens 0 ∧ a.estimatedCost = none then
        db.updateOrganization orgId
          (fun o => { o with gatewayUnknownCostAttempts := o.gatewayUnknownCostAttempts + 1 })
          (fun _ => rfl) noOrganization
      else return db
    else
      db.updateOrganization orgId (fun o => { o with billableSpend := o.billableSpend + settled })
        (fun _ => rfl) noOrganization

/-- `amount` was added to the billable spend of one organization; only its review counter may
have changed besides. -/
structure Debited (db db' : Db) (orgId : Nat) (amount : Int) : Prop where
  exists_of_ne : amount ≠ 0 → ∃ o, db.organizations.find? orgId = some o
  find? : ∃ n, ∀ id, db'.organizations.find? id = (db.organizations.find? id).map (fun o =>
    if o.id = orgId then { o with
      billableSpend := o.billableSpend + amount
      gatewayUnknownCostAttempts := o.gatewayUnknownCostAttempts + n }
    else o)

theorem Debited.refl (h : db'.organizations = db.organizations) (orgId : Nat) : Debited db db' orgId 0 := by
  refine ⟨fun h0 => absurd rfl h0, 0, fun id => ?_⟩
  rw [h]
  cases db.organizations.find? id with
  | none => rfl
  | some o => simp

/-- What a function changes when it writes organizations only. -/
structure OnlyOrganizations (db db' : Db) : Prop where
  config : db'.config = db.config
  requests : db'.requests = db.requests
  attempts : db'.attempts = db.attempts
  usageEvents : db'.usageEvents = db.usageEvents
  usageDaily : db'.usageDaily = db.usageDaily

theorem settleBilling_eq_ok {orgId : Nat} {attemptId : String} {settled : Int}
    (h : settleBilling db orgId attemptId settled = .ok db') :
    0 ≤ settled ∧ Debited db db' orgId settled ∧ OnlyOrganizations db db' := by
  simp only [settleBilling, bind_eq_ok, require_eq_ok, ensure_eq_ok] at h
  obtain ⟨_, h0, a, -, h⟩ := h
  refine ⟨h0, ?_⟩
  split_ifs at h with hz hreview
  · obtain ⟨o, t, -, -, ht, rfl⟩ := Db.updateOrganization_eq_ok h
    refine ⟨⟨fun h0 => absurd hz h0, 1, fun id => ?_⟩, rfl, rfl, rfl, rfl, rfl⟩
    simp only [Table.find?_update ht, decide_eq_true_eq, hz, add_zero]
  · simp only [pure_eq_ok] at h
    obtain rfl := h
    rw [hz]
    exact ⟨Debited.refl rfl orgId, rfl, rfl, rfl, rfl, rfl⟩
  · obtain ⟨o, t, ho, hid, ht, rfl⟩ := Db.updateOrganization_eq_ok h
    refine ⟨⟨fun _ => ⟨o, hid ▸ Table.find?_key ho⟩, 0, fun id => ?_⟩, rfl, rfl, rfl, rfl, rfl⟩
    simp only [Table.find?_update ht, decide_eq_true_eq, add_zero]

/-! ### Settlements -/

/-- The columns a settlement writes. No settlement leaves the attempt dispatched. -/
structure Settlement where
  state : AttemptState
  terminalAt : Int
  firstTokenAt : Option Int
  failureClass : Option String
  inputTokens : Option Int
  cachedInputTokens : Option Int
  outputTokens : Option Int
  reasoningTokens : Option Int
  usageSource : Option UsageSource
  estimatedCost : Option Int
  budgetSettled : Int
  promoSettled : Option Int
  toolNames : Option (List String)
  errorMessage : Option String
  terminal : state ≠ .dispatched
deriving DecidableEq

/-- The attempt with its terminal columns written. -/
def GatewayAttempt.settle (a : GatewayAttempt) (s : Settlement) : GatewayAttempt :=
  { a with
    state := s.state
    terminalAt := some s.terminalAt
    firstTokenAt := s.firstTokenAt
    failureClass := s.failureClass
    inputTokens := s.inputTokens
    cachedInputTokens := s.cachedInputTokens
    outputTokens := s.outputTokens
    reasoningTokens := s.reasoningTokens
    usageSource := s.usageSource
    estimatedCost := s.estimatedCost
    budgetSettled := some s.budgetSettled
    promoSettled := s.promoSettled
    toolNames := s.toolNames
    errorMessage := s.errorMessage }

section settle
variable (a : GatewayAttempt) (s : Settlement)

@[simp] theorem settle_requestId : (a.settle s).requestId = a.requestId := rfl
@[simp] theorem settle_billingSource : (a.settle s).billingSource = a.billingSource := rfl
@[simp] theorem settle_state : (a.settle s).state = s.state := rfl
@[simp] theorem settle_budgetSettled : (a.settle s).budgetSettled = some s.budgetSettled := rfl

end settle

/-- A dispatched attempt of the database is settled, and its organization debited for what the
platform-funded lane charged; nothing else changes. -/
structure Settles (db : Db) (a : GatewayAttempt) (s : Settlement) (db' : Db) : Prop where
  dispatched : a.state = .dispatched
  attempts : Table.Replaced db.attempts db'.attempts a (a.settle s)
  organizations : Debited db db' a.orgId
    (if a.billingSource = .hostManaged ∧ a.promoFunded = false then s.budgetSettled else 0)
  config : db'.config = db.config
  requests : db'.requests = db.requests
  usageEvents : db'.usageEvents = db.usageEvents

/-- Write the settlement of one attempt, which is still dispatched. -/
def Db.settleRow (db : Db) (a : GatewayAttempt) (s : Settlement) : Raises Db :=
  db.updateAttempts (fun x => decide (x.attemptId = a.attemptId) && decide (x.state = .dispatched))
    (fun x => x.settle s) (fun _ => rfl) (fun _ => rfl)

/-- Writing the settlement of a dispatched attempt and then billing it settles it. -/
theorem settles_of_settleRow {db db₁ db' : Db} {a : GatewayAttempt} {s : Settlement}
    (hrow : db.settleRow a s = .ok db₁) (ha : a ∈ db.attempts) (hd : a.state = .dispatched)
    (hdebit : Debited db₁ db' a.orgId
      (if a.billingSource = .hostManaged ∧ a.promoFunded = false then s.budgetSettled else 0))
    (honly : OnlyOrganizations db₁ db') : Settles db a s db' := by
  obtain ⟨t, hfk, ht, rfl⟩ := Db.updateAttempts_eq_ok hrow
  refine ⟨hd, ?_, ⟨hdebit.1, hdebit.2⟩, honly.config, honly.requests, honly.usageEvents⟩
  rw [honly.attempts]
  refine Table.replaced_of_update ht ha ?_
  intro x hx
  simp only [Bool.and_eq_true, decide_eq_true_eq, and_iff_left_iff_imp]
  intro hk
  rw [db.attempts.eq_of_key_eq hx ha hk]
  exact hd

/-! ### The settle call -/

/-- The outcomes a settle call may record. -/
inductive Outcome where
  | completed
  | failed
  | cancelled
  | incomplete
deriving DecidableEq

def Outcome.attemptState : Outcome → AttemptState
  | .completed => .completed
  | .failed => .failed
  | .cancelled => .cancelled
  | .incomplete => .incomplete

def Outcome.terminalState : Outcome → TerminalState
  | .completed => .completed
  | .failed => .failed
  | .cancelled => .cancelled
  | .incomplete => .incomplete

theorem Outcome.attemptState_ne (o : Outcome) : o.attemptState ≠ .dispatched := by
  cases o <;> decide

/-- The parameters of `gateway_settle_attempt`; `none` is a text that names no outcome, or no
usage source. -/
structure SettleArgs where
  attemptId : String
  state : Option Outcome
  failureClass : Option String
  inputTokens : Option Int
  cachedInputTokens : Option Int
  outputTokens : Option Int
  reasoningTokens : Option Int
  usageSource : Option UsageSource
  finalizeRequest : Bool
  toolNames : Option (List String)
  errorMessage : Option String
  firstTokenAt : Option Int
deriving DecidableEq

/-- The list price of what was delivered: the platform-funded lane does not charge a failed or
empty delivery, the pass-through lane attributes its reservation when the cost is unknown. -/
def GatewayAttempt.listCharge (a : GatewayAttempt) (outcome : Outcome) (outputTokens cost : Option Int) :
    Int :=
  match a.billingSource with
  | .hostManaged => if outcome = .failed ∨ coalesce outputTokens 0 = 0 then 0 else coalesce cost 0
  | .customerManaged => coalesce cost a.budgetReserved

/-- The cost of the call's token counts at the attempt's frozen rates. -/
def SettleArgs.cost (p : SettleArgs) (a : GatewayAttempt) : Raises (Option Int) :=
  gatewayAttemptCost p.inputTokens p.cachedInputTokens p.outputTokens p.reasoningTokens
    a.inputRate a.cachedInputRate a.outputRate a.reasoningRate

/-- The settlement a call writes. A free attempt charges its promotion and no budget, any other
one its list charge less the discount frozen at dispatch. -/
def SettleArgs.settlement (p : SettleArgs) (a : GatewayAttempt) (outcome : Outcome)
    (usageSource : UsageSource) (now : Int) : Raises Settlement := do
  let cost ← p.cost a
  let charge := a.listCharge outcome p.outputTokens cost
  return {
    state := outcome.attemptState
    terminalAt := now
    firstTokenAt := p.firstTokenAt
    failureClass := p.failureClass
    inputTokens := p.inputTokens
    cachedInputTokens := p.cachedInputTokens
    outputTokens := p.outputTokens
    reasoningTokens := p.reasoningTokens
    usageSource := some usageSource
    estimatedCost := cost
    budgetSettled := if a.promoFunded then 0 else a.promoDiscountPercent.off charge
    promoSettled := if a.promoFunded then some charge else a.promoSettled
    toolNames := normalizeTools p.toolNames
    errorMessage := p.errorMessage
    terminal := outcome.attemptState_ne }

/-- Debit a settled attempt: free and pass-through attempts are never debited. -/
def billSettlement (db : Db) (a : GatewayAttempt) (s : Settlement) : Raises Db :=
  if a.promoFunded then return db
  else if a.billingSource = .hostManaged then settleBilling db a.orgId a.attemptId s.budgetSettled
  else return db

/-- `gateway_settle_attempt`. -/
def settleAttempt (db : Db) (p : SettleArgs) (now : Int) : Raises Db := do
  let outcome ← require p.state (raised .c22023 "invalid gateway attempt terminal state")
  let usageSource ← require p.usageSource (raised .c22023 "invalid gateway attempt usage source")
  ensure (∀ m ∈ p.errorMessage, m.length ≤ 4096)
    (raised .c22023 "gateway attempt error message exceeds 4096 characters")
  let a ← require (db.attempts.find? p.attemptId) (raised .P0002 "gateway attempt does not exist")
  if a.state = .dispatched then do
    let s ← p.settlement a outcome usageSource now
    let db₁ ← db.settleRow a s
    let db₂ ← billSettlement db₁ a s
    if p.finalizeRequest then closeRequest db₂ a.requestId outcome.terminalState now else return db₂
  else do
    ensure (a.state = outcome.attemptState)
      (raised .c23514 "gateway attempt is already settled with another terminal state")
    -- A receipt still honors a finalize that the earlier call skipped.
    if p.finalizeRequest then closeRequest db a.requestId outcome.terminalState now else return db

/-- The settlement of a free attempt charges no budget. -/
theorem settlement_free {p : SettleArgs} {a : GatewayAttempt} {o : Outcome} {u : UsageSource}
    {now : Int} {s : Settlement} (h : p.settlement a o u now = .ok s) (hf : a.promoFunded = true) :
    s.budgetSettled = 0 := by
  simp only [SettleArgs.settlement, bind_eq_ok, pure_eq_ok] at h
  obtain ⟨c, -, rfl⟩ := h
  simp [hf]

theorem billSettlement_eq_ok {a : GatewayAttempt} {s : Settlement} (h : billSettlement db a s = .ok db') :
    Debited db db' a.orgId
      (if a.billingSource = .hostManaged ∧ a.promoFunded = false then s.budgetSettled else 0) ∧
    OnlyOrganizations db db' := by
  unfold billSettlement at h
  split_ifs at h with hfree hhost
  · simp only [pure_eq_ok] at h
    obtain rfl := h
    rw [if_neg (by simp [hfree])]
    exact ⟨Debited.refl rfl _, rfl, rfl, rfl, rfl, rfl⟩
  · rw [if_pos ⟨hhost, by simpa using hfree⟩]
    exact (settleBilling_eq_ok h).2
  · simp only [pure_eq_ok] at h
    obtain rfl := h
    rw [if_neg (by simp [hhost])]
    exact ⟨Debited.refl rfl _, rfl, rfl, rfl, rfl, rfl⟩

/-- What a settle call does after its attempt is settled: close the request, if asked to. -/
def ClosesIf (finalize : Bool) (db : Db) (requestId : String) (s : TerminalState) (db' : Db) : Prop :=
  finalize = false ∧ db' = db ∨
  finalize = true ∧ ∃ r, db.requests.find? requestId = some r ∧ Closes db r s db'

theorem closesIf_of_ok {finalize : Bool} {requestId : String} {s : TerminalState}
    {now : Int} (h : (if finalize then closeRequest db requestId s now else return db) = .ok db') :
    ClosesIf finalize db requestId s db' := by
  cases finalize with
  | true =>
      simp only [if_true] at h
      exact .inr ⟨rfl, closeRequest_eq_ok h⟩
  | false =>
      simp only [Bool.false_eq_true, if_false, pure_eq_ok] at h
      exact .inl ⟨rfl, h.symm⟩

/-- **A settle call settles its dispatched attempt, or returns the receipt of having done so.**
Either way it then closes the request, if it was asked to. -/
theorem settleAttempt_eq_ok {p : SettleArgs} {now : Int} (h : settleAttempt db p now = .ok db') :
    ∃ outcome usageSource a, p.state = some outcome ∧ p.usageSource = some usageSource ∧
      db.attempts.find? p.attemptId = some a ∧
      ((∃ s db₁, p.settlement a outcome usageSource now = .ok s ∧ Settles db a s db₁ ∧
          ClosesIf p.finalizeRequest db₁ a.requestId outcome.terminalState db') ∨
        a.state ≠ .dispatched ∧ a.state = outcome.attemptState ∧
          ClosesIf p.finalizeRequest db a.requestId outcome.terminalState db') := by
  simp only [settleAttempt, bind_eq_ok, require_eq_ok] at h
  obtain ⟨outcome, ho, usageSource, hu, _, -, a, ha, h⟩ := h
  refine ⟨outcome, usageSource, a, ho, hu, ha, ?_⟩
  by_cases hd : a.state = .dispatched
  · simp only [if_pos hd, bind_eq_ok] at h
    obtain ⟨s, hs, db₁, hdb₁, db₂, hdb₂, h⟩ := h
    obtain ⟨hdebit, honly⟩ := billSettlement_eq_ok hdb₂
    exact .inl ⟨s, db₂, hs, settles_of_settleRow hdb₁ (Table.find?_eq_some.mp ha).1 hd hdebit honly,
      closesIf_of_ok h⟩
  · simp only [if_neg hd, bind_eq_ok, ensure_eq_ok] at h
    obtain ⟨_, hstate, h⟩ := h
    exact .inr ⟨hd, hstate, closesIf_of_ok h⟩

end Experiential.Gateway
