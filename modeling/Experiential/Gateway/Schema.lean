import Experiential.Lib.Table
import Experiential.Lib.Rounding
import Experiential.Lib.Calendar

/-! # The gateway tables

The rows the gateway's money functions read and write, with the columns they use. Instants
are UTC microseconds and amounts are micro-USD; the `numeric(14, 6)` dollar columns of
`organizations` are kept in units of their last decimal, which is again one micro-USD.
Identifiers are compared for equality only (`uuid` order is used once, to break ties between
promotions), so a `uuid` is a natural number. Primary keys and row checks live in the type
`Table`; the foreign key from attempts to requests is a field of `Db`. -/

namespace Experiential.Gateway

/-- `coalesce(o, d)`. -/
def coalesce {α : Type} (o : Option α) (d : α) : α := o.getD d

@[simp] theorem coalesce_some {α : Type} (a d : α) : coalesce (some a) d = a := rfl
@[simp] theorem coalesce_none {α : Type} (d : α) : coalesce none d = d := rfl

/-- `x is null or x >= 0`. -/
def NullOrNonneg (o : Option Int) : Prop := ∀ x ∈ o, 0 ≤ x

instance (o : Option Int) : Decidable (NullOrNonneg o) := inferInstanceAs (Decidable (∀ x ∈ o, 0 ≤ x))

theorem repr_injective {m n : Nat} (h : m.repr = n.repr) : m = n := by
  have hdigits : Nat.toDigits 10 m = Nat.toDigits 10 n := by
    rw [← Nat.toList_repr, ← Nat.toList_repr, h]
  have hvalue := congrArg (fun l => Nat.ofDigitChars 10 l 0) hdigits
  simpa only [Nat.ofDigitChars_ten_toDigits] using hvalue

/-! ### Enumerations -/

inductive BillingSource where
  | customerManaged
  | hostManaged
deriving DecidableEq

inductive ApiSurface where
  | chatCompletions
  | responses
deriving DecidableEq

inductive AttemptState where
  | dispatched
  | completed
  | failed
  | cancelled
  | incomplete
  | unknownAfterCrash
deriving DecidableEq

inductive TerminalState where
  | completed
  | failed
  | cancelled
  | incomplete
  | expiredBeforeDispatch
  | unknownAfterCrash
deriving DecidableEq

inductive UsageSource where
  | observed
  | estimated
  | unknown
deriving DecidableEq

inductive Lane where
  | passThrough
  | platformFunded
deriving DecidableEq

/-! ### Requests and attempts -/

structure GatewayRequest where
  requestId : String
  orgId : Nat
  apiKeyId : Option Nat
  aliasName : String
  aliasRevisionId : String
  apiSurface : ApiSurface
  canonicalRequestSha256 : String
  callerOperationSha256 : Option String
  acceptedAt : Int
  deadlineAt : Int
  terminalState : Option TerminalState
  terminalAt : Option Int
  terminalFailureClass : Option String
  terminalErrorMessage : Option String
  promptSha256 : Option String
  conversationSha256 : Option String
  stablePrefixChars : Option Int
deriving DecidableEq

/-- The checks of `gateway_requests` on columns that are not fixed by their Lean types. -/
def GatewayRequest.Check (r : GatewayRequest) : Prop :=
  (r.terminalState = none ↔ r.terminalAt = none) ∧ NullOrNonneg r.stablePrefixChars

instance : DecidablePred GatewayRequest.Check := fun r =>
  inferInstanceAs (Decidable ((r.terminalState = none ↔ r.terminalAt = none) ∧
    NullOrNonneg r.stablePrefixChars))

structure GatewayAttempt where
  attemptId : String
  requestId : String
  orgId : Nat
  apiKeyId : Option Nat
  attemptOrdinal : Int
  routeDepth : Int
  deploymentId : String
  provider : String
  exactModelId : String
  poolId : String
  catalogSha256 : String
  billingSource : BillingSource
  pricingSource : Option String
  pricingEffectiveAt : Option Int
  inputRate : Option Int
  cachedInputRate : Option Int
  outputRate : Option Int
  reasoningRate : Option Int
  state : AttemptState
  startedAt : Int
  terminalAt : Option Int
  firstTokenAt : Option Int
  failureClass : Option String
  inputTokens : Option Int
  cachedInputTokens : Option Int
  outputTokens : Option Int
  reasoningTokens : Option Int
  usageSource : Option UsageSource
  estimatedCost : Option Int
  budgetPeriodStart : Int
  budgetReserved : Int
  budgetSettled : Option Int
  promoFunded : Bool
  promoReserved : Int
  promoSettled : Option Int
  promoDiscountPercent : Percent
  promoId : Option Nat
  toolNames : Option (List String)
  errorMessage : Option String
deriving DecidableEq

/-- The checks of `gateway_attempts`. -/
structure GatewayAttempt.Check (a : GatewayAttempt) : Prop where
  ordinal : 0 ≤ a.attemptOrdinal
  depth : 0 ≤ a.routeDepth
  inputRate : NullOrNonneg a.inputRate
  cachedInputRate : NullOrNonneg a.cachedInputRate
  outputRate : NullOrNonneg a.outputRate
  reasoningRate : NullOrNonneg a.reasoningRate
  inputTokens : NullOrNonneg a.inputTokens
  cachedInputTokens : NullOrNonneg a.cachedInputTokens
  outputTokens : NullOrNonneg a.outputTokens
  reasoningTokens : NullOrNonneg a.reasoningTokens
  estimatedCost : NullOrNonneg a.estimatedCost
  budgetReserved : 0 ≤ a.budgetReserved
  budgetSettled : NullOrNonneg a.budgetSettled
  promoReserved : 0 ≤ a.promoReserved
  promoSettled : NullOrNonneg a.promoSettled
  errorMessage : ∀ m ∈ a.errorMessage, m.length ≤ 4096
  dispatched : a.state = .dispatched ↔ a.terminalAt = none

theorem GatewayAttempt.check_iff (a : GatewayAttempt) : a.Check ↔
    0 ≤ a.attemptOrdinal ∧ 0 ≤ a.routeDepth ∧ NullOrNonneg a.inputRate ∧
    NullOrNonneg a.cachedInputRate ∧ NullOrNonneg a.outputRate ∧ NullOrNonneg a.reasoningRate ∧
    NullOrNonneg a.inputTokens ∧ NullOrNonneg a.cachedInputTokens ∧ NullOrNonneg a.outputTokens ∧
    NullOrNonneg a.reasoningTokens ∧ NullOrNonneg a.estimatedCost ∧ 0 ≤ a.budgetReserved ∧
    NullOrNonneg a.budgetSettled ∧ 0 ≤ a.promoReserved ∧ NullOrNonneg a.promoSettled ∧
    (∀ m ∈ a.errorMessage, m.length ≤ 4096) ∧ (a.state = .dispatched ↔ a.terminalAt = none) := by
  constructor
  · rintro ⟨⟩
    refine ⟨?_, ?_, ?_, ?_, ?_, ?_, ?_, ?_, ?_, ?_, ?_, ?_, ?_, ?_, ?_, ?_, ?_⟩ <;> assumption
  · rintro ⟨_, _, _, _, _, _, _, _, _, _, _, _, _, _, _, _, _⟩
    constructor <;> assumption

instance : DecidablePred GatewayAttempt.Check := fun a => decidable_of_iff' _ a.check_iff

/-! ### Usage events and their daily rollup -/

structure UsageEvent where
  requestId : String
  orgId : Nat
  apiKeyId : Option Nat
  userId : Option Nat
  aliasName : String
  provider : Option String
  lane : Option Lane
  inputTokens : Int
  outputTokens : Int
  cachedInputTokens : Int
  reasoningTokens : Int
  cost : Int
  estimatedCost : Int
  pricingKnown : Bool
  latencyMs : Int
  status : TerminalState
  attemptCount : Nat
  day : Int
  toolsUsed : Option (List String)
  failureClass : Option String
  errorMessage : Option String
  generationDurationMs : Option Int
  routingOverheadMs : Option Int
  ttftMs : Option Int
  promptSha256 : Option String
  conversationSha256 : Option String
  stablePrefixChars : Option Int
  createdAt : Int
deriving DecidableEq

def UsageEvent.Check (e : UsageEvent) : Prop :=
  0 ≤ e.inputTokens ∧ 0 ≤ e.outputTokens ∧ 0 ≤ e.cachedInputTokens ∧ 0 ≤ e.reasoningTokens ∧
    0 ≤ e.cost ∧ 0 ≤ e.estimatedCost ∧ 0 ≤ e.latencyMs

instance : DecidablePred UsageEvent.Check := fun e =>
  inferInstanceAs (Decidable (0 ≤ e.inputTokens ∧ 0 ≤ e.outputTokens ∧ 0 ≤ e.cachedInputTokens ∧
    0 ≤ e.reasoningTokens ∧ 0 ≤ e.cost ∧ 0 ≤ e.estimatedCost ∧ 0 ≤ e.latencyMs))

structure UsageDaily where
  orgId : Nat
  userId : Nat
  day : Int
  aliasName : String
  requests : Int
  inputTokens : Int
  outputTokens : Int
  spend : Int
deriving DecidableEq

/-- The primary key of `gateway_usage_daily`. -/
def UsageDaily.key (d : UsageDaily) : Nat × Nat × Int × String := (d.orgId, d.userId, d.day, d.aliasName)

def UsageDaily.Check (d : UsageDaily) : Prop :=
  0 ≤ d.requests ∧ 0 ≤ d.inputTokens ∧ 0 ≤ d.outputTokens ∧ 0 ≤ d.spend

instance : DecidablePred UsageDaily.Check := fun d =>
  inferInstanceAs (Decidable (0 ≤ d.requests ∧ 0 ≤ d.inputTokens ∧ 0 ≤ d.outputTokens ∧ 0 ≤ d.spend))

/-! ### Organizations and configuration -/

structure Organization where
  id : Nat
  creditGranted : Int
  billableSpend : Int
  spendUnlockedAt : Option Int
  freeCreditCapsLiftedAt : Option Int
  gatewayUnknownCostAttempts : Int
deriving DecidableEq

/-- The range of `numeric(14, 6)`, and the review counter's check. -/
def Organization.Check (o : Organization) : Prop :=
  -10 ^ 14 < o.creditGranted ∧ o.creditGranted < 10 ^ 14 ∧
    -10 ^ 14 < o.billableSpend ∧ o.billableSpend < 10 ^ 14 ∧ 0 ≤ o.gatewayUnknownCostAttempts

instance : DecidablePred Organization.Check := fun o =>
  inferInstanceAs (Decidable (-10 ^ 14 < o.creditGranted ∧ o.creditGranted < 10 ^ 14 ∧
    -10 ^ 14 < o.billableSpend ∧ o.billableSpend < 10 ^ 14 ∧ 0 ≤ o.gatewayUnknownCostAttempts))

structure ApiKey where
  id : Nat
  orgId : Nat
  name : String
  identityId : Option String
  createdBy : Option Nat
  revokedAt : Option Int
  expiresAt : Option Int
deriving DecidableEq

/-- `revoked_at is null and (expires_at is null or expires_at > now)`. -/
def ApiKey.live (k : ApiKey) (now : Int) : Bool :=
  k.revokedAt.isNone && k.expiresAt.all (fun e => decide (now < e))

structure KeyLimits where
  apiKeyId : Nat
  dailySpendCap : Option Int
  requestsPerMinute : Option Int
  tokensPerMinute : Option Int
deriving DecidableEq

def KeyLimits.Check (l : KeyLimits) : Prop :=
  NullOrNonneg l.dailySpendCap ∧ (∀ x ∈ l.requestsPerMinute, 0 < x) ∧ ∀ x ∈ l.tokensPerMinute, 0 < x

instance : DecidablePred KeyLimits.Check := fun l =>
  inferInstanceAs (Decidable (NullOrNonneg l.dailySpendCap ∧ (∀ x ∈ l.requestsPerMinute, 0 < x) ∧
    ∀ x ∈ l.tokensPerMinute, 0 < x))

inductive EntryType where
  | grant
  | topup
  | adjustment
deriving DecidableEq

structure CreditEntry where
  orgId : Nat
  entryType : EntryType
  source : String
  expiresAt : Option Int
deriving DecidableEq

inductive MemberRole where
  | owner
  | admin
  | member
  | viewer
deriving DecidableEq

structure OrganizationMember where
  orgId : Nat
  userId : Nat
  role : MemberRole
deriving DecidableEq

inductive CapScope where
  | lifetime
  | recurring
deriving DecidableEq

inductive FundingScope where
  | all
  | platformFunded
  | byok
deriving DecidableEq

structure ModelPromotion where
  id : Nat
  providers : List String
  audienceLabels : List String
  perOrgCap : Int
  discountCap : Int
  capScope : CapScope
  percentOff : Percent
  active : Bool
  displayOrder : Int
  coversAllModels : Bool
  fundingScope : FundingScope
deriving DecidableEq

def ModelPromotion.Check (p : ModelPromotion) : Prop := 0 ≤ p.perOrgCap ∧ 0 ≤ p.discountCap

instance : DecidablePred ModelPromotion.Check := fun p =>
  inferInstanceAs (Decidable (0 ≤ p.perOrgCap ∧ 0 ≤ p.discountCap))

structure PromotionModel where
  promotionId : Nat
  modelId : Nat
  slug : String
deriving DecidableEq

/-- `'lifetime'`, or the `'YYYY-MM'` of a UTC month. -/
inductive PeriodKey where
  | lifetime
  | month (m : Int)
deriving DecidableEq

structure PromotionNotice where
  orgId : Nat
  promotionId : Nat
  periodKey : PeriodKey
deriving DecidableEq

structure OrgLabel where
  orgId : Nat
  key : String
deriving DecidableEq

/-- `'*'` (every month) or one `'YYYY-MM'`. -/
inductive BudgetPeriod where
  | recurring
  | pinned (m : Int)
deriving DecidableEq

/-- A budget's scope kind with exactly the identifiers that kind owns. -/
inductive BudgetScope where
  | team
  | identity (identityId : String)
  | key (apiKeyId : Nat)
  | model (aliasId : String)
  | pool (aliasId poolId : String)
  | deployment (aliasId poolId deploymentId : String)
deriving DecidableEq

structure GatewayBudget where
  budgetId : String
  orgId : Nat
  period : BudgetPeriod
  scope : BudgetScope
  limit : Int
deriving DecidableEq

structure AliasRevision where
  revisionId : String
  aliasId : String
deriving DecidableEq

/-- What the money functions read and never write. -/
structure Config where
  apiKeys : Table ApiKey.id (fun _ => True)
  keyLimits : Table KeyLimits.apiKeyId KeyLimits.Check
  creditLedger : List CreditEntry
  organizationMembers : List OrganizationMember
  modelPromotions : Table ModelPromotion.id ModelPromotion.Check
  modelPromotionModels : List PromotionModel
  modelPromotionNotices : List PromotionNotice
  orgLabels : List OrgLabel
  gatewayBudgets : Table GatewayBudget.budgetId (fun _ => True)
  aliasRevisions : Table AliasRevision.revisionId (fun _ => True)
  preVerifyAllowance : Option Int
  webappUrl : String
  supportPhone : String
  supportEmail : String

/-- The gateway's database. Every attempt belongs to an accepted request. -/
structure Db where
  config : Config
  organizations : Table Organization.id Organization.Check
  requests : Table GatewayRequest.requestId GatewayRequest.Check
  attempts : Table GatewayAttempt.attemptId GatewayAttempt.Check
  usageEvents : Table UsageEvent.requestId UsageEvent.Check
  usageDaily : Table UsageDaily.key UsageDaily.Check
  attempts_request : ∀ a ∈ attempts, ∃ r ∈ requests, r.requestId = a.requestId

theorem attempts_request_empty : ∀ a ∈ (.empty : Table GatewayAttempt.attemptId GatewayAttempt.Check),
    ∃ r ∈ (.empty : Table GatewayRequest.requestId GatewayRequest.Check), r.requestId = a.requestId :=
  fun a ha => absurd ha (Table.not_mem_empty a)

end Experiential.Gateway
