import Experiential.Gateway.Budgets

/-! # The budget meter

`gatewayBudgetBalances` lists the budgets of an organization that are effective in a month, with what is
reserved and settled under each. It sums over the attempts by itself and joins requests to keys and alias
revisions; the reservation check asks `budgetScopeSpent`. `budget_meter_matches_gate` says that the meter
shows what the gate enforces: the same rows, the same amounts and the same verdicts. -/

namespace Experiential.Gateway

/-! ### The read -/

/-- A row of `gateway_budget_balances`. -/
structure BudgetBalance where
  budgetId : String
  period : BudgetPeriod
  scope : BudgetScope
  limit : Int
  reserved : Int
  settled : Int
deriving DecidableEq

/-- Was the attempt's request made with a key of the identity? -/
def Db.requestOfIdentity (db : Db) (a : GatewayAttempt) (identityId : String) : Bool :=
  db.requests.any fun r => decide (r.requestId = a.requestId) &&
    db.config.apiKeys.any fun k => decide (some k.id = r.apiKeyId) && decide (k.identityId = some identityId)

/-- Was the attempt's request accepted for a revision of the alias? -/
def Db.requestOfAlias (db : Db) (a : GatewayAttempt) (aliasId : String) : Bool :=
  db.requests.any fun r => decide (r.requestId = a.requestId) &&
    db.config.aliasRevisions.any fun v => decide (v.revisionId = r.aliasRevisionId) && decide (v.aliasId = aliasId)

/-- Does the attempt count under the budget in the month? -/
def Db.metered (db : Db) (b : GatewayBudget) (month : Int) (a : GatewayAttempt) : Bool :=
  a.hostOf b.orgId && decide (monthStart month ≤ a.budgetPeriodStart) &&
    decide (a.budgetPeriodStart < monthStart (month + 1)) &&
    match b.scope with
    | .team => true
    | .key k => decide (a.apiKeyId = some k)
    | .identity i => db.requestOfIdentity a i
    | .model m => db.requestOfAlias a m
    | .pool m p => decide (a.poolId = p) && db.requestOfAlias a m
    | .deployment m p d => decide (a.poolId = p) && decide (a.deploymentId = d) && db.requestOfAlias a m

def GatewayAttempt.meteredReserved (a : GatewayAttempt) : Int :=
  if a.state = .dispatched then a.budgetReserved else 0

def GatewayAttempt.meteredSettled (a : GatewayAttempt) : Int :=
  if a.state ≠ .dispatched then coalesce a.budgetSettled 0 else 0

/-- One row of the read. -/
def Db.budgetBalance (db : Db) (month : Int) (b : GatewayBudget) : Raises BudgetBalance := do
  let reserved ← int8 (db.attempts.sumWhere (db.metered b month) (·.meteredReserved))
  let settled ← int8 (db.attempts.sumWhere (db.metered b month) (·.meteredSettled))
  return ⟨b.budgetId, b.period, b.scope, b.limit, reserved, settled⟩

/-- The coarsest scope first. -/
def BudgetScope.meterRank : BudgetScope → Nat
  | .team => 0
  | .identity _ => 1
  | .key _ => 2
  | .model _ => 3
  | .pool .. => 4
  | .deployment .. => 5

/-- `order by case scope_kind .., budget_id`. -/
def GatewayBudget.meterOrder (b b' : GatewayBudget) : Prop :=
  b.scope.meterRank < b'.scope.meterRank ∨ b.scope.meterRank = b'.scope.meterRank ∧ b.budgetId ≤ b'.budgetId

instance : DecidableRel GatewayBudget.meterOrder := fun b b' =>
  inferInstanceAs (Decidable (b.scope.meterRank < b'.scope.meterRank ∨
    b.scope.meterRank = b'.scope.meterRank ∧ b.budgetId ≤ b'.budgetId))

/-- The budgets of an organization that are effective in a month. -/
def Config.effective (cfg : Config) (orgId : Nat) (month : Int) : List GatewayBudget :=
  cfg.gatewayBudgets.rows.filter fun b => decide (b.orgId = orgId) && b.period.includes month

/-- `gateway_budget_balances`. -/
def gatewayBudgetBalances (db : Db) (orgId : Nat) (month : Int) : Raises (List BudgetBalance) :=
  ((db.config.effective orgId month).insertionSort GatewayBudget.meterOrder).mapM (db.budgetBalance month)

/-! ### Its sums -/

/-- A row that is looked up, and its column compared. -/
theorem any_eq_bind {α β : Type} [DecidableEq β] (o : Option α) (f : α → Option β) (b : β) :
    o.any (fun a => decide (f a = some b)) = decide (o.bind f = some b) := by
  cases o <;> simp

theorem requestOfIdentity_eq (db : Db) (a : GatewayAttempt) (i : String) : db.requestOfIdentity a i =
    decide ((db.requests.find? a.requestId).bind (fun r => db.identityIdOf r.apiKeyId) = some i) := by
  have hkeys : ∀ r : GatewayRequest, (db.config.apiKeys.any fun k =>
      decide (some k.id = r.apiKeyId) && decide (k.identityId = some i)) = decide (db.identityIdOf r.apiKeyId = some i) := by
    intro r
    unfold Db.identityIdOf
    cases hid : r.apiKeyId with
    | none => simp [Table.any]
    | some k =>
        simp only [Option.some.injEq, Option.bind_some]
        rw [Table.any_key, any_eq_bind]
  unfold Db.requestOfIdentity
  simp only [hkeys]
  rw [Table.any_key, any_eq_bind]

theorem requestOfAlias_eq (db : Db) (a : GatewayAttempt) (m : String) : db.requestOfAlias a m =
    decide ((db.requests.find? a.requestId).bind (fun r => db.aliasIdOf r.aliasRevisionId) = some m) := by
  have hrevisions : ∀ r : GatewayRequest, (db.config.aliasRevisions.any fun v =>
      decide (v.revisionId = r.aliasRevisionId) && decide (v.aliasId = m)) =
        decide (db.aliasIdOf r.aliasRevisionId = some m) := by
    intro r
    unfold Db.aliasIdOf
    rw [Table.any_key, Option.map_eq_bind, ← any_eq_bind]
    simp
  unfold Db.requestOfAlias
  simp only [hrevisions]
  rw [Table.any_key, any_eq_bind]

/-- **The meter counts the attempts the gate counts.** -/
theorem metered_eq (db : Db) (b : GatewayBudget) (month : Int) :
    db.metered b month = db.inBudget b.orgId b.scope month := by
  funext a
  unfold Db.metered Db.inBudget Db.inScope
  cases b.scope <;> simp only [requestOfIdentity_eq, requestOfAlias_eq]

theorem metered_parts (a : GatewayAttempt) : a.meteredReserved + a.meteredSettled = a.chargedOrReserved := by
  unfold GatewayAttempt.meteredReserved GatewayAttempt.meteredSettled GatewayAttempt.chargedOrReserved
  by_cases hstate : a.state = .dispatched
  · simp [hstate]
  · simp [hstate]

/-! ### The verdicts of the gate -/

/-- Does a charge fit under a budget of which `spent` is taken? -/
def Fits (spent : Int) (proposed : Option Int) (limit : Int) : Prop := ∃ x ∈ proposed, spent + x ≤ limit

/-- The loop stops at the first budget that the charge does not fit under. -/
theorem budgetLoop_eq_ok {db : Db} {c : BudgetCoordinates} {proposed : Option Int} {month : Int} {v : PolicyVerdict} :
    ∀ {bs : List GatewayBudget}, budgetLoop db c proposed month bs = .ok v →
      let spent := fun b : GatewayBudget =>
        db.budgetScopeSpent c.orgId b.scope (monthStart month) (monthStart (month + 1))
      (v = .allowed ∧ ∀ b ∈ bs, Fits (spent b) proposed b.limit) ∨
      ∃ passed b rest m, bs = passed ++ b :: rest ∧ v = .refused (.budget b.scope) m ∧
        ¬ Fits (spent b) proposed b.limit ∧ ∀ b' ∈ passed, Fits (spent b') proposed b'.limit
  | [], h => by
      simp only [budgetLoop, pure_eq_ok] at h
      exact .inl ⟨h.symm, by simp⟩
  | b :: bs, h => by
      intro spent
      simp only [budgetLoop, bind_eq_ok] at h
      obtain ⟨total, htotal, h⟩ := h
      obtain rfl := int8_eq_ok htotal
      cases proposed with
      | none =>
          simp only [pure_eq_ok] at h
          exact .inr ⟨[], b, bs, _, rfl, h.symm, by simp [Fits], by simp⟩
      | some x =>
          simp only [bind_eq_ok] at h
          obtain ⟨sum, hsum, h⟩ := h
          obtain rfl := int8_eq_ok hsum
          split_ifs at h with hlimit
          · simp only [pure_eq_ok] at h
            refine .inr ⟨[], b, bs, _, rfl, h.symm, ?_, by simp⟩
            simpa [Fits] using hlimit
          · have hfits : Fits (spent b) (some x) b.limit := ⟨x, rfl, not_lt.mp hlimit⟩
            obtain ⟨hv, hall⟩ | ⟨passed, b', rest, m, hbs, hv, hno, hall⟩ := budgetLoop_eq_ok h
            · exact .inl ⟨hv, List.forall_mem_cons.mpr ⟨hfits, hall⟩⟩
            · exact .inr ⟨b :: passed, b', rest, m, by rw [hbs]; rfl, hv, hno, List.forall_mem_cons.mpr ⟨hfits, hall⟩⟩

/-! ### The meter against the gate -/

/-- The row shows the budget. -/
structure BudgetBalance.Shows (row : BudgetBalance) (b : GatewayBudget) : Prop where
  budgetId : row.budgetId = b.budgetId
  period : row.period = b.period
  scope : row.scope = b.scope
  limit : row.limit = b.limit

/-- The rows of the meter for an organization and a month say what the gate enforces in it. -/
structure MeterMatches (db : Db) (orgId : Nat) (month : Int) (rows : List BudgetBalance) : Prop where
  /-- The budgets in effect, and no other, are shown. -/
  shown : ∀ b ∈ db.config.gatewayBudgets, (b.orgId = orgId ∧ b.period.includes month = true) ↔ ∃ row ∈ rows, row.Shows b
  existing : ∀ row ∈ rows, ∃ b ∈ db.config.gatewayBudgets, row.Shows b
  once : (rows.map (·.budgetId)).Nodup
  amount : ∀ row ∈ rows, row.settled + row.reserved =
    db.budgetScopeSpent orgId row.scope (monthStart month) (monthStart (month + 1))
  /-- A charge the gate lets pass fits under every row that covers it. -/
  allowed : ∀ (c : BudgetCoordinates) (proposed : Option Int) (now : Int), c.orgId = orgId → monthOf now = month →
    budgetReservationCheck db c proposed now = .ok .allowed →
    ∀ row ∈ rows, row.scope.covers c = true → Fits (row.settled + row.reserved) proposed row.limit
  /-- A charge it refuses does not fit under a row that covers it, and fits under the tighter ones. -/
  refused : ∀ (c : BudgetCoordinates) (proposed : Option Int) (now : Int) (reason : ReasonCode) (m : String),
    c.orgId = orgId → monthOf now = month → budgetReservationCheck db c proposed now = .ok (.refused reason m) →
    ∃ row ∈ rows, row.scope.covers c = true ∧ reason = .budget row.scope ∧
      ¬ Fits (row.settled + row.reserved) proposed row.limit ∧
      ∀ row' ∈ rows, row'.scope.covers c = true → row'.scope.rank < row.scope.rank →
        Fits (row'.settled + row'.reserved) proposed row'.limit

section meter
variable {db : Db} {orgId : Nat} {month : Int} {rows : List BudgetBalance} {b : GatewayBudget} {row : BudgetBalance}

theorem mem_effective : b ∈ db.config.effective orgId month ↔
    b ∈ db.config.gatewayBudgets ∧ b.orgId = orgId ∧ b.period.includes month = true := by
  simp [Config.effective, Table.mem_def]

theorem mem_governing {c : BudgetCoordinates} : b ∈ db.config.governing c month ↔
    b ∈ db.config.effective c.orgId month ∧ b.scope.covers c = true := by
  simp [Config.governing, Config.effective, and_assoc]

theorem budgetBalance_eq_ok : db.budgetBalance month b = .ok row ↔
    Int8 (db.attempts.sumWhere (db.metered b month) (·.meteredReserved)) ∧
    Int8 (db.attempts.sumWhere (db.metered b month) (·.meteredSettled)) ∧
    row = ⟨b.budgetId, b.period, b.scope, b.limit, db.attempts.sumWhere (db.metered b month) (·.meteredReserved),
      db.attempts.sumWhere (db.metered b month) (·.meteredSettled)⟩ := by
  simp only [Db.budgetBalance, bind_eq_ok, int8_eq_ok_iff, pure_eq_ok]
  constructor
  · rintro ⟨r, ⟨hr, rfl⟩, s, ⟨hs, rfl⟩, rfl⟩
    exact ⟨hr, hs, rfl⟩
  · rintro ⟨hr, hs, rfl⟩
    exact ⟨_, ⟨hr, rfl⟩, _, ⟨hs, rfl⟩, rfl⟩

/-- The amount the gate computes is what the meter shows in two parts. -/
theorem spent_parts : db.budgetScopeSpent b.orgId b.scope (monthStart month) (monthStart (month + 1)) =
    db.attempts.sumWhere (db.metered b month) (·.meteredSettled) +
      db.attempts.sumWhere (db.metered b month) (·.meteredReserved) := by
  rw [budgetScopeSpent_eq, ← metered_eq, ← Table.sumWhere_add]
  simp only [← metered_parts, add_comm]

theorem balance_amount (h : db.budgetBalance month b = .ok row) : row.settled + row.reserved =
    db.budgetScopeSpent b.orgId b.scope (monthStart month) (monthStart (month + 1)) := by
  obtain ⟨-, -, rfl⟩ := budgetBalance_eq_ok.mp h
  exact spent_parts.symm

/-- The parts of an amount that the gate can compute. -/
theorem balance_total (h : Int8 (db.budgetScopeSpent b.orgId b.scope (monthStart month) (monthStart (month + 1)))) :
    ∃ row, db.budgetBalance month b = .ok row := by
  have hreserved : 0 ≤ db.attempts.sumWhere (db.metered b month) (·.meteredReserved) := by
    refine Table.sumWhere_nonneg fun a ha => ?_
    have := (db.attempts.checked a ha).budgetReserved
    unfold GatewayAttempt.meteredReserved
    split_ifs <;> omega
  have hsettled : 0 ≤ db.attempts.sumWhere (db.metered b month) (·.meteredSettled) := by
    refine Table.sumWhere_nonneg fun a ha => ?_
    have hcheck := (db.attempts.checked a ha).budgetSettled
    unfold GatewayAttempt.meteredSettled
    split_ifs
    · cases hs : a.budgetSettled with
      | none => simp
      | some x => exact hcheck x (by simp [hs])
    · omega
  rw [spent_parts] at h
  unfold Int8 at h
  refine ⟨_, budgetBalance_eq_ok.mpr ⟨?_, ?_, rfl⟩⟩
  · constructor <;> omega
  · constructor <;> omega

/-- The rows of the meter are those of the budgets in effect. -/
theorem balances_rows (h : gatewayBudgetBalances db orgId month = .ok rows) :
    (∀ row ∈ rows, ∃ b ∈ db.config.effective orgId month, db.budgetBalance month b = .ok row) ∧
    (∀ b ∈ db.config.effective orgId month, ∃ row ∈ rows, db.budgetBalance month b = .ok row) := by
  constructor
  · intro row hrow
    obtain ⟨b, hb, hbal⟩ := (mem_of_mapM_eq_ok h).mp hrow
    exact ⟨b, (List.mem_insertionSort _).mp hb, hbal⟩
  · intro b hb
    exact exists_of_mem_mapM h ((List.mem_insertionSort _).mpr hb)

theorem balance_shows (h : db.budgetBalance month b = .ok row) : row.Shows b := by
  obtain ⟨-, -, rfl⟩ := budgetBalance_eq_ok.mp h
  exact ⟨rfl, rfl, rfl, rfl⟩

theorem effective_of_shows (h : gatewayBudgetBalances db orgId month = .ok rows) (hrow : row ∈ rows)
    (hb : b ∈ db.config.gatewayBudgets) (hshows : row.Shows b) :
    b ∈ db.config.effective orgId month ∧ db.budgetBalance month b = .ok row := by
  obtain ⟨b', hb', hbal⟩ := (balances_rows h).1 row hrow
  have hid : b'.budgetId = b.budgetId := (balance_shows hbal).budgetId.symm.trans hshows.budgetId
  obtain rfl := db.config.gatewayBudgets.eq_of_key_eq (mem_effective.mp hb').1 hb hid
  exact ⟨hb', hbal⟩

/-- What fits under a budget in the gate's sum fits under its row. -/
theorem fits_iff (hb : b ∈ db.config.effective orgId month) (hbal : db.budgetBalance month b = .ok row)
    (proposed : Option Int) :
    Fits (db.budgetScopeSpent orgId b.scope (monthStart month) (monthStart (month + 1))) proposed b.limit ↔
      Fits (row.settled + row.reserved) proposed row.limit := by
  rw [balance_amount hbal, (balance_shows hbal).limit, (mem_effective.mp hb).2.1]

theorem MeterMatches.of_ok (h : gatewayBudgetBalances db orgId month = .ok rows) : MeterMatches db orgId month rows := by
  obtain ⟨hfrom, hto⟩ := balances_rows h
  constructor
  · intro b hb
    constructor
    · intro heffective
      obtain ⟨row, hrow, hbal⟩ := hto b (mem_effective.mpr ⟨hb, heffective⟩)
      exact ⟨row, hrow, balance_shows hbal⟩
    · rintro ⟨row, hrow, hshows⟩
      exact (mem_effective.mp (effective_of_shows h hrow hb hshows).1).2
  · intro row hrow
    obtain ⟨b, hb, hbal⟩ := hfrom row hrow
    exact ⟨b, (mem_effective.mp hb).1, balance_shows hbal⟩
  · rw [map_of_mapM (g := GatewayBudget.budgetId) (fun _ _ hbal => (balance_shows hbal).budgetId) h]
    rw [((List.perm_insertionSort _ _).map _).nodup_iff]
    exact (List.filter_sublist.map _).nodup db.config.gatewayBudgets.keyed
  · intro row hrow
    obtain ⟨b, hb, hbal⟩ := hfrom row hrow
    rw [balance_amount hbal, (balance_shows hbal).scope, (mem_effective.mp hb).2.1]
  · intro c proposed now horg hmonth hcheck row hrow hcovers
    subst horg hmonth
    obtain ⟨b, hb, hbal⟩ := hfrom row hrow
    obtain ⟨-, hall⟩ | ⟨_, _, _, _, _, hv, _⟩ := budgetLoop_eq_ok hcheck
    · refine (fits_iff hb hbal proposed).mp (hall b ?_)
      rw [List.mem_insertionSort, mem_governing]
      exact ⟨hb, (balance_shows hbal).scope ▸ hcovers⟩
    · cases hv
  · intro c proposed now reason m horg hmonth hcheck
    subst horg hmonth
    obtain ⟨hv, -⟩ | ⟨passed, b, rest, m', hsplit, hv, hno, hpassed⟩ := budgetLoop_eq_ok hcheck
    · cases hv
    cases hv
    set sorted := (db.config.governing c (monthOf now)).insertionSort (fun b b' => b.scope.rank ≤ b'.scope.rank)
      with hsorted
    have hmem : ∀ b, b ∈ sorted ↔ b ∈ db.config.effective c.orgId (monthOf now) ∧ b.scope.covers c = true := by
      intro b
      rw [hsorted, List.mem_insertionSort, mem_governing]
    obtain ⟨hb, hcovers⟩ := (hmem b).mp (by rw [hsplit]; simp)
    obtain ⟨row, hrow, hbal⟩ := hto b hb
    have hscope : row.scope = b.scope := (balance_shows hbal).scope
    refine ⟨row, hrow, hscope ▸ hcovers, by rw [hscope], fun hfits => hno ((fits_iff hb hbal proposed).mpr hfits), ?_⟩
    -- A tighter row comes before the refusing one.
    intro row' hrow' hcovers' htighter
    obtain ⟨b', hb', hbal'⟩ := hfrom row' hrow'
    have hscope' : row'.scope = b'.scope := (balance_shows hbal').scope
    refine (fits_iff hb' hbal' proposed).mp (hpassed b' ?_)
    have hin : b' ∈ sorted := (hmem b').mpr ⟨hb', hscope' ▸ hcovers'⟩
    have hpairs : sorted.Pairwise fun b b' => b.scope.rank ≤ b'.scope.rank := List.pairwise_insertionSort _ _
    rw [hsplit] at hin hpairs
    obtain hin | hin := List.mem_append.mp hin
    · exact hin
    · rw [hscope, hscope'] at htighter
      obtain rfl | hin := List.mem_cons.mp hin
      · omega
      · have := (List.pairwise_cons.mp (List.pairwise_append.mp hpairs).2.1).1 b' hin
        omega

end meter

/-- **The budget meter shows what the gate enforces**: for every state, organization and month, the rows the
meter shows are the budgets in effect, each with the amount the gate computes for it, and the gate decides as
the rows say. The meter answers when the gate can compute every amount. -/
theorem budget_meter_matches_gate (db : Db) (orgId : Nat) (month : Int) :
    (∀ rows, gatewayBudgetBalances db orgId month = .ok rows → MeterMatches db orgId month rows) ∧
    ((∀ b ∈ db.config.effective orgId month,
        Int8 (db.budgetScopeSpent orgId b.scope (monthStart month) (monthStart (month + 1)))) →
      ∃ rows, gatewayBudgetBalances db orgId month = .ok rows) := by
  constructor
  · exact fun rows h => .of_ok h
  · intro hrange
    refine exists_mapM_eq_ok fun b hb => ?_
    have hb' : b ∈ db.config.effective orgId month := (List.mem_insertionSort _).mp hb
    refine balance_total ?_
    rw [(mem_effective.mp hb').2.1]
    exact hrange b hb'

end Experiential.Gateway
