import Experiential.Gateway.Database

/-! # Spend policy and budgets

The two gates a credit-funded dispatch passes under the organization's row lock: the spend
policy (available balance, then the free-credit daily caps) and the monthly budgets of every
scope the dispatch falls in. Both read the same quantity of an attempt, its reservation while
it is dispatched and its settlement afterwards (`chargedOrReserved`). `spendPolicyCheck_allowed`
and `budgetReservationCheck_allowed` are all later proofs use: what is known of the state when
a gate lets a charge pass. -/

namespace Experiential.Gateway

/-! ### Copy -/

/-- `to_char(micro / 1000000, 'FM999999990.00')`. -/
def toCharUsd (micro : Int) : String :=
  let cents := divRound micro 10000
  let sign := if cents < 0 then "-" else ""
  let whole := cents.natAbs / 100
  let rest := cents.natAbs % 100
  if 10 ^ 9 ≤ whole then sign ++ "#########.##"
  else sign ++ toString whole ++ "." ++ (if rest < 10 then "0" else "") ++ toString rest

/-- `gateway_org_yc_suffix`. -/
def Config.orgYcSuffix (c : Config) (orgId : Nat) (now : Int) : String :=
  if c.creditLedger.any (fun e => decide (e.orgId = orgId) && decide (e.source = "yc_launch") &&
      decide (e.entryType = .grant) && e.expiresAt.any (fun x => decide (now < x))) then
    " You're on the YC launch grant — text/call the product owner at " ++ c.supportPhone ++
      " or email " ++ c.supportEmail ++ " and he'll sort you out."
  else ""

/-! ### Charged or reserved -/

/-- What an attempt counts for against a cap or a budget. -/
def GatewayAttempt.chargedOrReserved (a : GatewayAttempt) : Int :=
  if a.state = .dispatched then a.budgetReserved else coalesce a.budgetSettled 0

/-- The same for the free tier of a promotion. -/
def GatewayAttempt.promoChargedOrReserved (a : GatewayAttempt) : Int :=
  if a.state = .dispatched then a.promoReserved else coalesce a.promoSettled 0

/-- An attempt of the organization on the platform-funded lane. -/
def GatewayAttempt.hostOf (a : GatewayAttempt) (orgId : Nat) : Bool :=
  decide (a.orgId = orgId) && decide (a.billingSource = .hostManaged)

/-! ### The spend policy -/

/-- `gateway_org_free_credit_funded`. -/
def Db.orgFreeCreditFunded (db : Db) (orgId : Nat) : Bool :=
  ((db.organizations.find? orgId).bind (·.freeCreditCapsLiftedAt)).isNone &&
    !(db.config.creditLedger.any (fun e => decide (e.orgId = orgId) && decide (e.entryType = .topup)))

inductive ReasonCode where
  | insufficientCredits
  | orgDailyCap
  | modelDailyCap
  | budget (scope : BudgetScope)
deriving DecidableEq

/-- The `(allowed, reason_code, message)` row of a policy function. -/
inductive PolicyVerdict where
  | allowed
  | refused (reason : ReasonCode) (message : String)
deriving DecidableEq

/-- Outstanding reservations of the organization on the platform-funded lane. -/
def Db.outstanding (db : Db) (orgId : Nat) : Int :=
  db.attempts.sumWhere (fun a => a.hostOf orgId && decide (a.state = .dispatched)) (·.budgetReserved)

/-- Charged-or-reserved spend of the organization recorded under one daily period. -/
def Db.orgDaySpent (db : Db) (orgId : Nat) (periodStart : Int) : Int :=
  db.attempts.sumWhere (fun a => a.hostOf orgId && decide (a.budgetPeriodStart = periodStart))
    (·.chargedOrReserved)

/-- The part of `orgDaySpent` on one exact model. -/
def Db.modelDaySpent (db : Db) (orgId : Nat) (model : String) (periodStart : Int) : Int :=
  db.attempts.sumWhere (fun a => a.hostOf orgId && decide (a.budgetPeriodStart = periodStart) &&
    decide (a.exactModelId = model)) (·.chargedOrReserved)

/-- The free-credit daily cap of an organization, 50 USD. -/
def orgDailyCap : Int := 50000000

/-- The free-credit daily cap of an organization on one model, 25 USD. -/
def modelDailyCap : Int := 25000000

/-- `gateway_spend_policy_check`. -/
def spendPolicyCheck (db : Db) (orgId : Nat) (model : String) (proposed : Option Int) (now : Int) :
    Raises PolicyVerdict :=
  match db.organizations.find? orgId with
  | none => .ok (.refused .insufficientCredits "insufficient_credits: the organization does not exist")
  | some org => do
      let outstanding ← int8 (db.outstanding orgId)
      let available := org.creditGranted - org.billableSpend - outstanding
      if available ≤ 0 then
        return .refused .insufficientCredits
          ("insufficient_credits: Your organization is out of platform credits (balance: $" ++
            toCharUsd available ++ "). Add credits at " ++ db.config.webappUrl ++
            "/credits — top-ups start at $5. Requests using your own provider keys (BYOK) are " ++
            "unaffected." ++ db.config.orgYcSuffix orgId now)
      else if db.orgFreeCreditFunded orgId then do
        let orgSpent ← int8 (db.orgDaySpent orgId (truncDay now))
        let modelSpent ← int8 (db.modelDaySpent orgId model (truncDay now))
        let orgTotal ← int8 (orgSpent + coalesce proposed 0)
        if orgDailyCap < orgTotal then
          return .refused .orgDailyCap
            ("org_daily_cap: Free-credit accounts are limited to $50/day (you've used $" ++
              toCharUsd orgSpent ++ " today; resets at 00:00 UTC). Top up at " ++
              db.config.webappUrl ++
              "/credits to lift the limit, or contact support if you want it fixed." ++
              db.config.orgYcSuffix orgId now)
        else do
          let modelTotal ← int8 (modelSpent + coalesce proposed 0)
          if modelDailyCap < modelTotal then
            return .refused .modelDailyCap
              ("model_daily_cap: Free-credit accounts are limited to $25/day per model (you've " ++
                "used $" ++ toCharUsd modelSpent ++ " on " ++ model ++
                " today; resets at 00:00 UTC). No model is forbidden — switch models to keep " ++
                "going now, top up at " ++ db.config.webappUrl ++
                "/credits to lift the limit, or contact support if you want it fixed." ++
                db.config.orgYcSuffix orgId now)
          else return .allowed
      else return .allowed

/-- What is known when the spend policy lets a charge pass. -/
structure SpendAllowed (db : Db) (orgId : Nat) (model : String) (proposed now : Int) : Prop where
  balance : ∃ org, db.organizations.find? orgId = some org ∧
    0 < org.creditGranted - org.billableSpend - db.outstanding orgId
  orgDay : db.orgFreeCreditFunded orgId = true →
    db.orgDaySpent orgId (truncDay now) + proposed ≤ orgDailyCap
  modelDay : db.orgFreeCreditFunded orgId = true →
    db.modelDaySpent orgId model (truncDay now) + proposed ≤ modelDailyCap

theorem spendPolicyCheck_allowed {db : Db} {orgId : Nat} {model : String} {proposed now : Int}
    (h : spendPolicyCheck db orgId model (some proposed) now = .ok .allowed) :
    SpendAllowed db orgId model proposed now := by
  unfold spendPolicyCheck at h
  cases horg : db.organizations.find? orgId with
  | none => simp [horg] at h
  | some org =>
      simp only [horg, bind_eq_ok] at h
      obtain ⟨out, hout, h⟩ := h
      obtain rfl := int8_eq_ok hout
      split_ifs at h with hbal hfree
      · simp at h
      · simp only [bind_eq_ok] at h
        obtain ⟨o, ho, m, hm, ot, hot, h⟩ := h
        obtain rfl := int8_eq_ok ho
        obtain rfl := int8_eq_ok hm
        obtain rfl := int8_eq_ok hot
        split_ifs at h with hcap
        · simp at h
        · simp only [bind_eq_ok] at h
          obtain ⟨mt, hmt, h⟩ := h
          obtain rfl := int8_eq_ok hmt
          split_ifs at h with hmcap
          · simp at h
          · exact ⟨⟨org, horg, not_le.mp hbal⟩, fun _ => not_lt.mp hcap, fun _ => not_lt.mp hmcap⟩
      · exact ⟨⟨org, horg, not_le.mp hbal⟩, fun hf => absurd hf hfree, fun hf => absurd hf hfree⟩

/-! ### Monthly budgets -/

/-- The alias of a request, through its frozen revision. -/
def Db.aliasIdOf (db : Db) (aliasRevisionId : String) : Option String :=
  (db.config.aliasRevisions.find? aliasRevisionId).map (·.aliasId)

/-- The identity a key belongs to. -/
def Db.identityIdOf (db : Db) (apiKeyId : Option Nat) : Option String :=
  apiKeyId.bind (fun k => (db.config.apiKeys.find? k).bind (·.identityId))

/-- Is the attempt in the scope of a budget? -/
def Db.inScope (db : Db) (scope : BudgetScope) (a : GatewayAttempt) : Bool :=
  let request := db.requests.find? a.requestId
  let aliasId := request.bind (fun r => db.aliasIdOf r.aliasRevisionId)
  match scope with
  | .team => true
  | .key k => decide (a.apiKeyId = some k)
  | .identity i => decide (request.bind (fun r => db.identityIdOf r.apiKeyId) = some i)
  | .model m => decide (aliasId = some m)
  | .pool m p => decide (a.poolId = p) && decide (aliasId = some m)
  | .deployment m p d =>
      decide (a.poolId = p) && decide (a.deploymentId = d) && decide (aliasId = some m)

/-- `gateway_budget_scope_spent`. -/
def Db.budgetScopeSpent (db : Db) (orgId : Nat) (scope : BudgetScope) (start nextMonth : Int) : Int :=
  db.attempts.sumWhere (fun a => a.hostOf orgId && decide (start ≤ a.budgetPeriodStart) &&
    decide (a.budgetPeriodStart < nextMonth) && db.inScope scope a) (·.chargedOrReserved)

/-- The coordinates of one dispatch that budgets are matched against. -/
structure BudgetCoordinates where
  orgId : Nat
  apiKeyId : Option Nat
  identityId : Option String
  aliasId : Option String
  poolId : String
  deploymentId : String
deriving DecidableEq

/-- Does the scope of a budget cover the dispatch? -/
def BudgetScope.covers (s : BudgetScope) (c : BudgetCoordinates) : Bool :=
  match s with
  | .team => true
  | .identity i => decide (c.identityId = some i)
  | .key k => decide (c.apiKeyId = some k)
  | .model m => decide (c.aliasId = some m)
  | .pool m p => decide (c.aliasId = some m) && decide (p = c.poolId)
  | .deployment m p d => decide (c.aliasId = some m) && decide (p = c.poolId) && decide (d = c.deploymentId)

/-- Does a budget's period include the month? -/
def BudgetPeriod.includes (p : BudgetPeriod) (month : Int) : Bool :=
  match p with
  | .recurring => true
  | .pinned m => decide (m = month)

/-- Tightest scope first. -/
def BudgetScope.rank : BudgetScope → Nat
  | .deployment .. => 0
  | .pool .. => 1
  | .model _ => 2
  | .key _ => 3
  | .identity _ => 4
  | .team => 5

def BudgetScope.kind : BudgetScope → String
  | .team => "team"
  | .identity _ => "identity"
  | .key _ => "key"
  | .model _ => "model"
  | .pool .. => "pool"
  | .deployment .. => "deployment"

/-- `to_char(month, 'YYYY-MM')`. -/
def toCharMonth (m : Int) : String :=
  toString (m / 12) ++ "-" ++ (if m % 12 + 1 < 10 then "0" else "") ++ toString (m % 12 + 1)

def Config.scopeLabel (c : Config) : BudgetScope → String
  | .team => "organization"
  | .identity i => "identity " ++ i
  | .key k => "API key " ++ coalesce ((c.apiKeys.find? k).map (·.name)) (toString k)
  | .model m => "model " ++ m
  | .pool _ p => "pool " ++ p
  | .deployment _ _ d => "deployment " ++ d

/-- The message of an exceeded budget. -/
def Config.budgetMessage (c : Config) (b : GatewayBudget) (proposed : Option Int) (spent month : Int) :
    String :=
  "budget_" ++ b.scope.kind ++ ": this request's worst case (" ++
    (match proposed with | none => "unknown cost" | some x => "$" ++ toCharUsd x) ++
    ") would push the " ++ c.scopeLabel b.scope ++ " past its $" ++ toCharUsd b.limit ++ " " ++
    (match b.period with
      | .recurring => "recurring monthly budget (currently " ++ toCharMonth month ++ ")"
      | .pinned _ => "monthly budget for " ++ toCharMonth month) ++
    " (UTC; $" ++ toCharUsd spent ++ " already reserved or settled this month, resets 00:00 UTC on " ++
    "the 1st). Raise or remove this budget in Settings -> Identities & access -> Budgets (" ++
    c.webappUrl ++ ")."

/-- The loop over the matching budgets: the first one the charge would exceed refuses it. -/
def budgetLoop (db : Db) (c : BudgetCoordinates) (proposed : Option Int) (month : Int) :
    List GatewayBudget → Raises PolicyVerdict
  | [] => return .allowed
  | b :: bs => do
      let spent ← int8 (db.budgetScopeSpent c.orgId b.scope (monthStart month) (monthStart (month + 1)))
      match proposed with
      | none => return .refused (.budget b.scope) (db.config.budgetMessage b none spent month)
      | some x => do
          let total ← int8 (spent + x)
          if b.limit < total then
            return .refused (.budget b.scope) (db.config.budgetMessage b (some x) spent month)
          else budgetLoop db c proposed month bs

/-- The budget rows governing a dispatch in a month. -/
def Config.governing (cfg : Config) (c : BudgetCoordinates) (month : Int) : List GatewayBudget :=
  cfg.gatewayBudgets.rows.filter (fun b =>
    decide (b.orgId = c.orgId) && b.period.includes month && b.scope.covers c)

/-- `gateway_budget_reservation_check`. -/
def budgetReservationCheck (db : Db) (c : BudgetCoordinates) (proposed : Option Int) (now : Int) :
    Raises PolicyVerdict :=
  budgetLoop db c proposed (monthOf now)
    ((db.config.governing c (monthOf now)).insertionSort (fun b b' => b.scope.rank ≤ b'.scope.rank))

theorem budgetLoop_allowed {db : Db} {c : BudgetCoordinates} {proposed month : Int} :
    ∀ {bs : List GatewayBudget}, budgetLoop db c (some proposed) month bs = .ok .allowed →
      ∀ b ∈ bs, db.budgetScopeSpent c.orgId b.scope (monthStart month) (monthStart (month + 1)) +
        proposed ≤ b.limit
  | [], _ => by simp
  | b :: bs, h => by
      simp only [budgetLoop, bind_eq_ok] at h
      obtain ⟨spent, hs, total, ht, h⟩ := h
      obtain rfl := int8_eq_ok hs
      obtain rfl := int8_eq_ok ht
      split_ifs at h with hlim
      · simp at h
      · intro b' hb'
        rcases List.mem_cons.mp hb' with rfl | hb'
        · exact not_lt.mp hlim
        · exact budgetLoop_allowed h b' hb'

/-- What is known when the budgets let a charge pass: it fits under every governing row. -/
theorem budgetReservationCheck_allowed {db : Db} {c : BudgetCoordinates} {proposed now : Int}
    (h : budgetReservationCheck db c (some proposed) now = .ok .allowed) {b : GatewayBudget}
    (hb : b ∈ db.config.gatewayBudgets) (horg : b.orgId = c.orgId)
    (hp : b.period.includes (monthOf now) = true) (hc : b.scope.covers c = true) :
    db.budgetScopeSpent c.orgId b.scope (monthStart (monthOf now)) (monthStart (monthOf now + 1)) +
      proposed ≤ b.limit := by
  apply budgetLoop_allowed h
  rw [List.mem_insertionSort, Config.governing, List.mem_filter]
  exact ⟨hb, by simp [horg, hp, hc]⟩

end Experiential.Gateway
