import Experiential.Gateway.System

/-! # Monthly budgets hold

Every cap and budget of the gateway bounds a sum of `chargedOrReserved` over some of the
attempts. A reservation adds its own amount; a settlement that charges no more than was
reserved, and every crash, can only lower the sum. The predicates that select the attempts
read columns frozen at dispatch (`Frozen`), so an attempt never moves between sums.

A budget row bounds, in every UTC month it includes, the charged-or-reserved spend of the
platform-funded attempts in its scope. An attempt is recorded under a day of the month it was
checked against because a start takes place at one instant; it is in the scope of a row exactly
when the row covers the dispatch (`covers_of_inScope`). `budgets_hold` is the run theorem: a
row keeps holding under every interleaving of calls that charge within reservations, and under
every edit that leaves the row's membership alone and its limit at or above what is spent. -/

namespace Experiential.Gateway

/-- The predicate reads only columns that a settlement keeps. -/
def Frozen (q : GatewayAttempt → Bool) : Prop := ∀ a s, q (GatewayAttempt.settle a s) = q a

/-- The settlement charges no more than the attempt reserved, on the platform-funded lane. -/
def ChargeWithin (a : GatewayAttempt) (s : Settlement) : Prop :=
  a.billingSource = .hostManaged → s.budgetSettled ≤ a.budgetReserved

theorem charged_row (p : StartArgs) (r : GatewayRequest) (f : Funding) (id : String) (c : StartClock) :
    (p.row r f id c).chargedOrReserved = if f.free then 0 else f.chargeWorst := rfl

variable {a : GatewayAttempt}

theorem charged_of_dispatched (h : a.state = .dispatched) : a.chargedOrReserved = a.budgetReserved := by
  simp [GatewayAttempt.chargedOrReserved, h]

theorem charged_settle (a : GatewayAttempt) (s : Settlement) :
    (a.settle s).chargedOrReserved = s.budgetSettled := by
  simp [GatewayAttempt.chargedOrReserved, s.terminal]

theorem crash_within {db : Db} (ha : a ∈ db.attempts) (now : Int) :
    (a.crash now).budgetSettled ≤ a.budgetReserved := by
  have h0 := (db.attempts.checked a ha).budgetReserved
  cases hb : a.billingSource with
  | hostManaged => simpa [GatewayAttempt.crash, GatewayAttempt.crashSettled, hb] using h0
  | customerManaged => simp [GatewayAttempt.crash, GatewayAttempt.crashSettled, hb]

variable {db db' : Db}

/-- A settlement within the reservation lowers the sums the attempt is in. -/
theorem Settles.charged_le {s : Settlement} (h : Settles db a s db') {q : GatewayAttempt → Bool} (hq : Frozen q)
    (hle : q a = true → s.budgetSettled ≤ a.budgetReserved) :
    db'.attempts.sumWhere q (·.chargedOrReserved) ≤ db.attempts.sumWhere q (·.chargedOrReserved) := by
  rw [h.attempts.sumWhere]
  cases hqa : q a with
  | true =>
      rw [Table.share_true hqa, Table.share_true (by rw [hq, hqa]), charged_settle,
        charged_of_dispatched h.dispatched]
      have := hle hqa
      omega
  | false =>
      rw [Table.share_false hqa, Table.share_false (by rw [hq, hqa])]
      omega

/-- A reservation keeps a bound when it fits under it, or is free. -/
theorem reserve_charged_le {t u : Table GatewayAttempt.attemptId GatewayAttempt.Check} {p : StartArgs}
    {r : GatewayRequest} {f : Funding} {id : String} {c : StartClock}
    (h : t.insert (p.row r f id c) = .ok u) {q : GatewayAttempt → Bool} {bound : Int}
    (hold : t.sumWhere q (·.chargedOrReserved) ≤ bound)
    (hfits : q (p.row r f id c) = true → f.free = false →
      t.sumWhere q (·.chargedOrReserved) + f.chargeWorst ≤ bound) :
    u.sumWhere q (·.chargedOrReserved) ≤ bound := by
  rw [Table.sumWhere_insert h]
  cases hq : q (p.row r f id c) with
  | false =>
      rw [Table.share_false hq]
      omega
  | true =>
      rw [Table.share_true hq, charged_row]
      cases hfree : f.free with
      | true => simpa using hold
      | false =>
          have := hfits hq hfree
          simp only [Bool.false_eq_true, if_false]
          omega

theorem billingSource_of_hostOf {orgId : Nat} (h : a.hostOf orgId = true) : a.billingSource = .hostManaged := by
  simp only [GatewayAttempt.hostOf, Bool.and_eq_true, decide_eq_true_eq] at h
  exact h.2

/-- The budget row `budgetId`, when there is one, holds in every month it includes. -/
def BudgetHolds (budgetId : String) (db : Db) : Prop :=
  ∀ b, db.config.gatewayBudgets.find? budgetId = some b → ∀ m, b.period.includes m = true →
    db.budgetScopeSpent b.orgId b.scope (monthStart m) (monthStart (m + 1)) ≤ b.limit

/-- The attempts a row's spend in a month is summed over. -/
def Db.inBudget (db : Db) (orgId : Nat) (scope : BudgetScope) (m : Int) (a : GatewayAttempt) : Bool :=
  a.hostOf orgId && decide (monthStart m ≤ a.budgetPeriodStart) &&
    decide (a.budgetPeriodStart < monthStart (m + 1)) && db.inScope scope a

theorem budgetScopeSpent_eq (db : Db) (orgId : Nat) (scope : BudgetScope) (m : Int) :
    db.budgetScopeSpent orgId scope (monthStart m) (monthStart (m + 1)) =
      db.attempts.sumWhere (db.inBudget orgId scope m) (·.chargedOrReserved) := rfl

theorem inBudget_frozen (db : Db) (orgId : Nat) (scope : BudgetScope) (m : Int) :
    Frozen (db.inBudget orgId scope m) := by
  intro a s
  cases scope <;> rfl

/-- The scope of an attempt is read from its own columns and what its request was accepted with. -/
theorem inScope_congr (hc : db'.config = db.config)
    {r r' : GatewayRequest} (hr : db.requests.find? a.requestId = some r)
    (hr' : db'.requests.find? a.requestId = some r') (hl : r.Later r') (scope : BudgetScope) :
    db'.inScope scope a = db.inScope scope a := by
  have hrow : r'.aliasRevisionId = r.aliasRevisionId ∧ r'.apiKeyId = r.apiKeyId := by
    rcases hl with rfl | ⟨-, s, t, c, m, rfl⟩
    · exact ⟨rfl, rfl⟩
    · exact ⟨rfl, rfl⟩
  cases scope <;> simp [Db.inScope, Db.aliasIdOf, Db.identityIdOf, hr, hr', hc, hrow.1, hrow.2]

theorem Move.inScope_eq {T : Terms} (h : Move T db db')
    (ha : a ∈ db.attempts) (scope : BudgetScope) : db'.inScope scope a = db.inScope scope a := by
  obtain ⟨r, hr⟩ := db.request_of_attempt ha
  obtain ⟨r', hr', hl⟩ := h.requests_find? hr
  exact inScope_congr h.config hr hr' hl scope

/-- An attempt in the scope of a row was dispatched at coordinates the row covers. -/
theorem covers_of_inScope {db : Db} {p : StartArgs} {r : GatewayRequest} {f : Funding} {id : String}
    {c : StartClock} (hr : db.requests.find? p.requestId = some r) {scope : BudgetScope}
    (h : db.inScope scope (p.row r f id c) = true) : scope.covers (db.coordinates p r) = true := by
  have hid : (p.row r f id c).requestId = p.requestId := rfl
  cases scope <;>
    simp only [Db.inScope, BudgetScope.covers, hid, hr, Option.bind_some, Bool.and_eq_true,
      decide_eq_true_eq] at h ⊢
  case identity i => exact h
  case key k => exact h
  case model m => exact h
  case pool m q => exact ⟨h.2, h.1.symm⟩
  case deployment m q d => exact ⟨⟨h.2, h.1.1.symm⟩, h.1.2.symm⟩

/-! ### The step -/

/-- One clock instant per start, and every settlement within its reservation. -/
def budgetTerms : Terms where
  start := fun _ _ c => ∃ t, c = .at t
  settle := fun _ a s => ChargeWithin a s

/-- A sum over the same attempts, selected by the old and the new database alike. -/
theorem spent_congr {orgId : Nat} {scope : BudgetScope} {m : Int}
    (h : ∀ a ∈ db.attempts, db'.inScope scope a = db.inScope scope a) :
    db.attempts.sumWhere (db'.inBudget orgId scope m) (·.chargedOrReserved) =
      db.attempts.sumWhere (db.inBudget orgId scope m) (·.chargedOrReserved) := by
  apply Table.sumWhere_congr
  intro a ha
  have hin : db'.inBudget orgId scope m a = db.inBudget orgId scope m a := by
    unfold Db.inBudget
    rw [h a ha]
  unfold Table.share
  rw [hin]

theorem BudgetHolds.settles {k : String} {s : Settlement}
    (hdb : BudgetHolds k db) (h : Settles db a s db') (hle : ChargeWithin a s)
    (hscope : ∀ x ∈ db.attempts, ∀ scope, db'.inScope scope x = db.inScope scope x) :
    BudgetHolds k db' := by
  intro b hb m hm
  rw [h.config] at hb
  refine le_trans ?_ (hdb b hb m hm)
  rw [budgetScopeSpent_eq, budgetScopeSpent_eq, ← spent_congr fun x hx => hscope x hx b.scope]
  refine h.charged_le (inBudget_frozen db' b.orgId b.scope m) fun hq => hle ?_
  simp only [Db.inBudget, Bool.and_eq_true] at hq
  exact billingSource_of_hostOf hq.1.1.1

theorem BudgetHolds.reserve {k : String} {p : StartArgs} {r : GatewayRequest}
    {f : Funding} {id : String} {t : Int} (hdb : BudgetHolds k db)
    (hr : Dispatchable db p (.at t) r) (hf : Funded db p r (.at t) f)
    (h : db.insertAttempt (p.row r f id (.at t)) = .ok db') : BudgetHolds k db' := by
  obtain ⟨u, hfk, hu, rfl⟩ := Db.insertAttempt_eq_ok h
  intro b hb m hm
  refine reserve_charged_le hu (q := db.inBudget b.orgId b.scope m) (hdb b hb m hm) fun hq hfree => ?_
  simp only [Db.inBudget, Bool.and_eq_true, decide_eq_true_eq] at hq
  obtain ⟨⟨⟨hhost, hstart⟩, hnext⟩, hscope⟩ := hq
  obtain rfl : monthOf t = m := by
    rw [← monthOf_truncDay]
    exact month_window.mp ⟨hstart, hnext⟩
  have horg : b.orgId = p.orgId := by
    simp only [GatewayAttempt.hostOf, Bool.and_eq_true, decide_eq_true_eq] at hhost
    exact hhost.1.symm
  have hfits := ((hf.host (billingSource_of_hostOf hhost)).credits hfree).budgets b
    (Table.find?_eq_some.mp hb).1 horg hm (covers_of_inScope hr.found hscope)
  rwa [← horg, budgetScopeSpent_eq] at hfits

theorem BudgetHolds.move {k : String} (h : Move budgetTerms db db') (hdb : BudgetHolds k db) : BudgetHolds k db' := by
  have hscope := fun a ha scope => h.inScope_eq (a := a) ha scope
  cases h with
  | accept p d now hT hfresh hgate h =>
      obtain ⟨t, hfk, -, rfl⟩ := Db.insertRequest_eq_ok h
      intro b hb m hm
      refine le_of_eq_of_le ?_ (hdb b hb m hm)
      exact spent_congr fun a ha => hscope a ha b.scope
  | reserve p r c f id hT hr hf h =>
      obtain ⟨t, rfl⟩ := hT
      exact hdb.reserve hr hf h
  | settle p o u now a s hs hT h => exact hdb.settles h hT hscope
  | crash a now hT h => exact hdb.settles h (fun _ => crash_within h.attempts.mem now) hscope
  | close r s h =>
      intro b hb m hm
      rw [h.config] at hb
      refine le_of_eq_of_le ?_ (hdb b hb m hm)
      rw [budgetScopeSpent_eq, h.attempts]
      exact spent_congr fun a ha => hscope a ha b.scope

/-! ### The run -/

/-- What a step of the run must meet for the row: a call at one instant that charges within
reservations, or an edit that keeps the row's membership and its limit at or above its spend. -/
def BudgetStep (budgetId : String) (db : Db) : GatewayEvent → Prop
  | .call c => Meets budgetTerms db c
  | .administer config organizations => ∀ b, config.gatewayBudgets.find? budgetId = some b →
      (∀ a ∈ db.attempts, (step db (.administer config organizations)).inScope b.scope a =
        db.inScope b.scope a) ∧
      ∀ m, b.period.includes m = true →
        db.budgetScopeSpent b.orgId b.scope (monthStart m) (monthStart (m + 1)) ≤ b.limit

/-- **Monthly budgets hold in every reachable state.** -/
theorem budgets_hold (budgetId : String) (db : Db) (h : BudgetHolds budgetId db)
    (events : List GatewayEvent) (hsteps : StepsMeet step (BudgetStep budgetId) db events) :
    BudgetHolds budgetId (run step db events) := by
  refine run_invariant ?_ events db h hsteps
  intro db event hmeets hdb
  cases event with
  | call c => exact callStep_preserves (fun _ _ => BudgetHolds.move) hmeets hdb
  | administer config organizations =>
      intro b hb m hm
      obtain ⟨hscope, hlimit⟩ := hmeets b hb
      refine le_of_eq_of_le ?_ (hlimit m hm)
      exact spent_congr hscope

/-- The sample installation with a monthly team budget of 10 USD. -/
def budgetDb : Db :=
  .initial { sampleConfig with
    gatewayBudgets := ⟨[⟨"team", 1, .recurring, .team, 10000000⟩], by decide, fun _ _ => trivial⟩ }
    sampleOrganizations

/-- 5 USD are reserved and settled at 3, then 6 USD are reserved, then 5 USD are refused. -/
def budgetRun : List GatewayEvent :=
  [.call ((GatewayCall.accept (sampleAccept "r1" none 1000)).atTime 0 ""),
    .call ((GatewayCall.start (sampleStart "r1" 0 .hostManaged 5000000)).atTime 1 "a1"),
    .call ((GatewayCall.settle (sampleSettle "a1" .completed 3 false)).atTime 2 ""),
    .call ((GatewayCall.start (sampleStart "r1" 1 .hostManaged 6000000)).atTime 3 "a2"),
    .call ((GatewayCall.start (sampleStart "r1" 2 .hostManaged 5000000)).atTime 4 "a3")]

theorem budgets_hold_sample : (run step budgetDb budgetRun).attempts.rows.length = 2 ∧
    BudgetHolds "team" (run step budgetDb budgetRun) := by
  refine ⟨by rfl, budgets_hold "team" budgetDb ?_ budgetRun ?_⟩
  · intro b hb m hm
    cases hb
    exact (by decide : (0 : Int) ≤ 10000000)
  · refine ⟨trivial, ⟨1, rfl⟩, meets_settle rfl rfl rfl rfl ?_, ⟨3, rfl⟩, ⟨4, rfl⟩, trivial⟩
    intro _
    decide

end Experiential.Gateway
