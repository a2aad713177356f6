import Experiential.Billing.Checkout
import Experiential.Gateway.BudgetWrites
import Experiential.Lib.Retry

/-! # Writes that are retried

The query proxy sends a statement up to three times when the connection breaks. A credit grant and a join
request leave the id of their row to the database, so that a second run of the insert is not recognised: the
ledger takes it for another grant, and the index of pending requests refuses the request because of itself. A
budget is looked up again when its insert is refused. `retried_writes_hold_iff` says when each of the three has
taken effect once. -/

namespace Experiential.Transport

open Billing Gateway

/-- `_RETRY_ATTEMPTS` -/
def retryAttempts : ℕ := 3

inductive WriteAnswer (α : Type) where
  | ok (a : α)
  | refused (status : ℕ) (message : String)
  /-- The write met a row that is there already. -/
  | conflict (message : String)
  /-- An error of the database that nobody catches. -/
  | raised (e : GatewayError)
  | disconnected
deriving DecidableEq

def WriteAnswer.IsConflict {α : Type} : WriteAnswer α → Prop
  | .conflict _ => True
  | .raised e => e.errcode = .c23505
  | _ => False

/-- A success had the effect of one application, and what was applied is not answered as a conflict. -/
structure TakesEffectOnce {σ α : Type} (one : α → σ → Prop) (s s' : σ) (a : WriteAnswer α) : Prop where
  once : ∀ x, a = .ok x → one x s'
  unopposed : s' ≠ s → ¬a.IsConflict

/-! ### Credit grants -/

/-- The `reason` of a body. -/
inductive GrantReason where
  | absent
  | text (reason : String)
  | other
deriving DecidableEq

structure GrantRequest where
  isPlatformAdmin : Bool
  userId : String
  orgId : ℕ
  /-- `amount_usd` in micro-USD, when it is a number. -/
  amount : Option ℤ
  reason : GrantReason
deriving DecidableEq

/-- `organization_credit_view` -/
structure CreditView where
  billableSpend : ℤ
  creditGranted : ℤ
  creditBalance : ℤ
deriving DecidableEq

def organizationCreditView (o : Organization) : CreditView := ⟨o.billableSpend, o.creditGranted, balance o⟩

/-- The row that `post_admin_credit_grant` inserts. -/
def GrantRequest.credit (g : GrantRequest) (amount : ℤ) : Credit where
  orgId := g.orgId
  entryType := if 0 < amount then .grant else .adjustment
  amount := amount
  reason := match g.reason with
    | .text reason => if reason = "" then none else some reason
    | _ => none
  source := .admin
  sourceRef := none
  createdBy := some g.userId
  expiresAt := none
  billableSpendAtGrant := none

theorem credit_id (c : Credit) (o : Organization) : ({ o with creditGranted := o.creditGranted + c.amount } : Organization).id = o.id :=
  rfl

/-- The insert of `CreditLedgerStore.insert` as the server runs it at `now`; `created_at` is the client's stamp. -/
def insertLedger (c : Credit) (stamp now : ℤ) (db : Billing.Db) : Raises (CreditLedgerRow × Billing.Db) := do
  let ledger ← write (db.ledger.insert c stamp)
  if (db.organizations.find? c.orgId).isSome then
    let db' ← updateCounters { db with ledger := ledger } c.orgId
      (fun o => { o with creditGranted := o.creditGranted + c.amount }) (credit_id c) now
    return (db.ledger.newRow c stamp, db')
  else throw foreignKeyViolation

section grant
variable (net : ℕ → Delivery) (clock : ℕ → ℤ) (stamp : ℤ)

/-- `organization_credit`, behind the insert. -/
def answerGrant (entry : CreditLedgerRow) (orgId k : ℕ) (db : Billing.Db) : WriteAnswer (CreditLedgerRow × CreditView) :=
  let load : Statement Billing.Db GatewayError (Option Organization) := fun _ db => .ok (db.organizations.find? orgId, db)
  match (load.execute net retryAttempts k db).reply with
  | some (.ok (some o)) => .ok (entry, organizationCreditView o)
  | some (.ok none) => .refused 404 s!"Organization not found: {orgId}"
  | some (.error e) => .raised e
  | none => .disconnected

/-- `post_admin_credit_grant`. The audit event lies between the two statements: `gap` is how often it is sent. -/
def postAdminCreditGrant (gap : ℕ) (g : GrantRequest) (k : ℕ) (db : Billing.Db) :
    WriteAnswer (CreditLedgerRow × CreditView) × Billing.Db :=
  if g.isPlatformAdmin = false then (.refused 404 "Not found", db)
  else
    match g.amount with
    | none => (.refused 400 "amount_usd must be a non-zero number", db)
    | some amount =>
      if amount = 0 then (.refused 400 "amount_usd must be a non-zero number", db)
      else if g.reason = .other then (.refused 400 "reason must be a string", db)
      else
        let insert : Statement Billing.Db GatewayError CreditLedgerRow := fun i => insertLedger (g.credit amount) stamp (clock i)
        let sent := insert.execute net retryAttempts k db
        match sent.reply with
        | some (.ok entry) => (answerGrant net entry g.orgId (sent.next + gap) sent.server, sent.server)
        | some (.error e) => (.raised e, sent.server)
        | none => (.disconnected, sent.server)

end grant

/-! ### Join requests -/

inductive JoinStatus where
  | pending
  | approved
  | denied
deriving DecidableEq

/-- One `org_join_requests` row. -/
structure JoinRequestRecord where
  id : ℕ
  orgId : ℕ
  userId : ℕ
  email : String
  status : JoinStatus
  createdAt : ℤ
deriving DecidableEq

/-- The organizations that exist, and `org_join_requests` with the next uuid and its partial index. -/
structure JoinTables where
  organizations : List ℕ
  rows : List JoinRequestRecord
  next : ℕ
  pkey : (rows.map (·.id)).Nodup
  drawn : ∀ r ∈ rows, r.id < next
  pending_org_user : ((rows.filter fun r => decide (r.status = .pending)).map fun r => (r.orgId, r.userId)).Nodup

/-- `position('@' in email) > 1` -/
def emailAdmitted (email : String) : Bool := email.toList.contains '@' && email.toList.head? != some '@'

/-- The insert of `create_request`. -/
def insertJoin (orgId userId : ℕ) (email : String) (stamp : ℤ) (t : JoinTables) :
    Raises (JoinRequestRecord × JoinTables) :=
  if emailAdmitted email = false then .error (ofViolation .check)
  else if hpending : (orgId, userId) ∈ (t.rows.filter fun r => decide (r.status = .pending)).map fun r => (r.orgId, r.userId) then
    .error (ofViolation .unique)
  else if orgId ∈ t.organizations then
    let row : JoinRequestRecord := ⟨t.next, orgId, userId, email, .pending, stamp⟩
    .ok (row, {
      organizations := t.organizations
      rows := row :: t.rows
      next := t.next + 1
      pkey := by
        rw [List.map_cons, List.nodup_cons]
        refine ⟨fun hmem => ?_, t.pkey⟩
        obtain ⟨r, hr, hid⟩ := List.mem_map.mp hmem
        have := t.drawn r hr
        simp only [row] at hid
        omega
      drawn := fun r hr => by
        rcases List.mem_cons.mp hr with rfl | hr
        · exact Nat.lt_succ_self _
        · exact Nat.lt_succ_of_lt (t.drawn r hr)
      pending_org_user := by
        rw [List.filter_cons_of_pos (by simp [row]), List.map_cons]
        exact List.nodup_cons.mpr ⟨hpending, t.pending_org_user⟩ })
  else .error foreignKeyViolation

/-- `create_request`, with the answer of its route to a `DuplicatePendingRequestError`. -/
def createRequest (net : ℕ → Delivery) (orgId userId : ℕ) (email : String) (stamp : ℤ) (k : ℕ) (t : JoinTables) :
    WriteAnswer JoinRequestRecord × JoinTables :=
  let insert : Statement JoinTables GatewayError JoinRequestRecord := fun _ => insertJoin orgId userId email stamp
  let sent := insert.execute net retryAttempts k t
  match sent.reply with
  | some (.ok row) => (.ok row, sent.server)
  | some (.error e) =>
      if e.errcode = .c23505 then (.conflict "You already have a pending request for this organization.", sent.server)
      else (.raised e, sent.server)
  | none => (.disconnected, sent.server)

/-! ### Budgets -/

section budget
variable (net : ℕ → Delivery) (references : Bool) (key : BudgetKey) (limit : ℕ)

/-- The rounds of `upsert_budget`. -/
def upsertBudget : ℕ → ℕ → BudgetRows → WriteAnswer BudgetRecord × BudgetRows
  | 0, _, t => (.conflict "budget upsert lost the insert race twice for one scope", t)
  | rounds + 1, k, t =>
      let find : Statement BudgetRows Violation (Option BudgetRecord) := fun _ t => .ok (t.findBudgetForScope key, t)
      let insert : Statement BudgetRows Violation BudgetRecord := fun _ t => (t.insertBudget references key limit).map Prod.swap
      let found := find.execute net retryAttempts k t
      match found.reply with
      | some (.ok (some existing)) =>
          let update : Statement BudgetRows Violation (List BudgetRecord) := fun _ t =>
            .ok (t.updateLimit existing.budgetId limit).swap
          let sent := update.execute net retryAttempts found.next found.server
          match sent.reply with
          | some (.ok (row :: _)) => (.ok row, sent.server)
          -- `rows[0]` of no row
          | some (.ok []) => (.refused 500 "list index out of range", sent.server)
          | some (.error v) => (.raised (ofViolation v), sent.server)
          | none => (.disconnected, sent.server)
      | some (.ok none) =>
          let sent := insert.execute net retryAttempts found.next found.server
          match sent.reply with
          | some (.ok row) => (.ok row, sent.server)
          | some (.error .unique) => upsertBudget rounds sent.next sent.server
          | some (.error v) => (.raised (ofViolation v), sent.server)
          | none => (.disconnected, sent.server)
      | some (.error v) => (.raised (ofViolation v), found.server)
      | none => (.disconnected, found.server)

/-- One application of the upsert. -/
def oneUpsert (t : BudgetRows) : Except Violation BudgetRows :=
  match t.findBudgetForScope key with
  | some existing => .ok (t.updateLimit existing.budgetId limit).1
  | none => (t.insertBudget references key limit).map Prod.fst

end budget

section failures
variable {σ α : Type} {one : α → σ → Prop} {s s' : σ}

theorem TakesEffectOnce.refused {status : ℕ} {message : String} : TakesEffectOnce one s s' (.refused status message) :=
  ⟨nofun, fun _ => id⟩

theorem TakesEffectOnce.disconnected : TakesEffectOnce one s s' .disconnected := ⟨nofun, fun _ => id⟩

theorem TakesEffectOnce.raised {e : GatewayError} (h : e.errcode ≠ .c23505) : TakesEffectOnce one s s' (.raised e) :=
  ⟨nofun, fun _ => h⟩

end failures

/-! ### A grant that is inserted twice -/

section grant
variable {net : ℕ → Delivery} {clock : ℕ → ℤ} {stamp now : ℤ} {gap k : ℕ} {c : Credit} {db db' : Billing.Db}
  {entry : CreditLedgerRow}

theorem insertLedger_eq_ok (h : insertLedger c stamp now db = .ok (entry, db')) :
    db'.ledger.rows = entry :: db.ledger.rows ∧ (db'.organizations.find? c.orgId).isSome := by
  simp only [insertLedger, bind_eq_ok, write_eq_ok] at h
  obtain ⟨ledger, hinsert, h⟩ := h
  split_ifs at h with horg
  simp only [bind_eq_ok, pure_eq_ok, Prod.mk.injEq] at h
  obtain ⟨db₂, hcounters, rfl, rfl⟩ := h
  obtain ⟨db₁, hsame, hfind, hqueued⟩ := updateCounters_eq_ok hcounters
  have hkept : db₂.ledger = ledger ∧ db₂.organizations = db₁.organizations := by
    rcases hqueued with rfl | ⟨a, -, -, -, -, he⟩
    · exact ⟨by rw [hsame], rfl⟩
    · rw [he]
      exact ⟨by rw [hsame], rfl⟩
  constructor
  · rw [hkept.1]
    exact (CreditLedger.insert_eq_ok hinsert).2.2
  · rw [hkept.2, hfind, if_pos rfl, Option.isSome_map]
    exact horg

theorem write_eq_error {α : Type} {x : Except Violation α} {e : GatewayError} :
    write x = .error e ↔ ∃ v, x = .error v ∧ ofViolation v = e := by
  cases x <;> simp [write]

theorem ofViolation_check_ne : (ofViolation .check).errcode ≠ .c23505 := by decide

theorem enqueueAutoRechargeIfLow_raises {orgId : ℕ} :
    RaisesOnly (fun e => e.errcode ≠ .c23505) (enqueueAutoRechargeIfLow db orgId now) := by
  intro e he
  unfold enqueueAutoRechargeIfLow at he
  split at he
  · split_ifs at he
    split at he
    · cases he
    · cases he
    next v hunique _ =>
      cases v with
      | unique => exact absurd rfl hunique
      | check =>
          cases he
          exact ofViolation_check_ne
  · cases he

theorem updateCounters_raises {orgId : ℕ} {f : Organization → Organization} {hf : ∀ o, (f o).id = o.id} :
    RaisesOnly (fun e => e.errcode ≠ .c23505) (updateCounters db orgId f hf now) := by
  unfold updateCounters
  split
  · exact RaisesOnly.ok _
  · refine RaisesOnly.bind (fun e he => ?_) fun organizations _ => ?_
    · obtain ⟨v, hv, rfl⟩ := write_eq_error.mp he
      unfold Table.update at hv
      split_ifs at hv
      cases hv
      exact ofViolation_check_ne
    · dsimp only
      split_ifs
      · exact RaisesOnly.bind enqueueAutoRechargeIfLow_raises fun _ _ => RaisesOnly.pure _
      · exact RaisesOnly.pure _

theorem insertLedger_raises (hc : c.sourceRef = none) :
    RaisesOnly (fun e => e.errcode ≠ .c23505) (insertLedger c stamp now db) := by
  refine RaisesOnly.bind (fun e he => ?_) fun ledger _ => ?_
  · obtain ⟨v, hv, rfl⟩ := write_eq_error.mp he
    unfold CreditLedger.insert at hv
    split_ifs at hv with hcheck hconflict
    · obtain ⟨r, -, hsame⟩ := List.any_eq_true.mp hconflict
      exact absurd hc (of_decide_eq_true hsame).1
    · cases hv
      exact ofViolation_check_ne
  · split_ifs
    · exact RaisesOnly.bind updateCounters_raises fun _ _ => RaisesOnly.pure _
    · exact RaisesOnly.error (by decide)

end grant

section grant
variable {net : ℕ → Delivery} {clock : ℕ → ℤ} {stamp : ℤ} {gap k : ℕ} {g : GrantRequest} {db : Billing.Db}

/-- The insert of a request's grant. -/
abbrev GrantRequest.insert (g : GrantRequest) (clock : ℕ → ℤ) (stamp amount : ℤ) :
    Statement Billing.Db GatewayError CreditLedgerRow := fun i => insertLedger (g.credit amount) stamp (clock i)

/-- A request behind the checks of the route. -/
def GrantRequest.Admits (g : GrantRequest) (amount : ℤ) : Prop :=
  g.isPlatformAdmin = true ∧ g.amount = some amount ∧ amount ≠ 0 ∧ g.reason ≠ .other

/-- A grant takes effect a second time: the server has accepted a sending whose reply is lost and accepts the one that
is answered, and the request is answered. -/
def GrantDoubled (net : ℕ → Delivery) (clock : ℕ → ℤ) (stamp : ℤ) (gap : ℕ) (g : GrantRequest) (k : ℕ) (db : Billing.Db) :
    Prop :=
  ∃ amount j, g.Admits amount ∧ heard net retryAttempts k = some j ∧ (heard net retryAttempts (j + 1 + gap)).isSome ∧
    (∃ i ∈ unheard net retryAttempts k, ∃ x db', g.insert clock stamp amount i db = .ok (x, db')) ∧
    ∃ x db', g.insert clock stamp amount j ((g.insert clock stamp amount).runs (unheard net retryAttempts k) db) =
      .ok (x, db')

/-- A grant that was answered is one application of its insert. -/
abbrev GrantOnce (net : ℕ → Delivery) (clock : ℕ → ℤ) (stamp : ℤ) (gap : ℕ) (g : GrantRequest) (k : ℕ) (db : Billing.Db) :
    Prop :=
  let done := postAdminCreditGrant net clock stamp gap g k db
  TakesEffectOnce (fun x db' => ∃ amount now, g.Admits amount ∧ insertLedger (g.credit amount) stamp now db = .ok (x.1, db'))
    db done.2 done.1

theorem length_after {amount : ℤ} {n : ℕ} (i : ℕ) (db : Billing.Db) (h : n ≤ db.ledger.rows.length) :
    n ≤ ((g.insert clock stamp amount).after i db).ledger.rows.length := by
  cases hi : g.insert clock stamp amount i db with
  | error e => rwa [Statement.after_error hi]
  | ok x =>
      have hafter : (g.insert clock stamp amount).after i db = x.2 := Statement.after_ok hi
      rw [hafter, (insertLedger_eq_ok hi).1]
      exact h.trans (Nat.le_succ _)

/-- The answer behind the insert: the organization is there. -/
theorem answerGrant_eq {entry : CreditLedgerRow} {orgId : ℕ} (horg : (db.organizations.find? orgId).isSome) :
    answerGrant net entry orgId k db = match heard net retryAttempts k with
      | some _ => .ok (entry, organizationCreditView ((db.organizations.find? orgId).get horg))
      | none => .disconnected := by
  obtain ⟨o, ho⟩ := Option.isSome_iff_exists.mp horg
  unfold answerGrant
  dsimp only
  rw [(Statement.execute_of_fixed (fun _ => rfl) retryAttempts k).2]
  cases heard net retryAttempts k with
  | none => rfl
  | some j => simp [Except.map, ho]

/-- The route refuses a request that touches nothing, or sends the insert. -/
theorem postAdminCreditGrant_cases :
    ((∀ amount, ¬g.Admits amount) ∧
      ∃ status message, postAdminCreditGrant net clock stamp gap g k db = (.refused status message, db)) ∨
    ∃ amount, g.Admits amount ∧ postAdminCreditGrant net clock stamp gap g k db =
      let sent := (g.insert clock stamp amount).execute net retryAttempts k db
      match sent.reply with
      | some (.ok entry) => (answerGrant net entry g.orgId (sent.next + gap) sent.server, sent.server)
      | some (.error e) => (.raised e, sent.server)
      | none => (.disconnected, sent.server) := by
  unfold postAdminCreditGrant GrantRequest.Admits
  by_cases hadmin : g.isPlatformAdmin = false
  · exact .inl ⟨fun amount h => by simp [h.1] at hadmin, _, _, if_pos hadmin⟩
  rw [if_neg hadmin]
  cases hamount : g.amount with
  | none => exact .inl ⟨fun amount h => (nomatch h.2.1), _, _, rfl⟩
  | some amount =>
    dsimp only
    split_ifs with hzero hreason
    · refine .inl ⟨fun amount' h => h.2.2.1 ?_, _, _, rfl⟩
      rw [← hzero, Option.some.inj h.2.1]
    · exact .inl ⟨fun amount' h => h.2.2.2 hreason, _, _, rfl⟩
    · exact .inr ⟨amount, ⟨by simpa using hadmin, rfl, hzero, hreason⟩, rfl⟩

theorem grant_once_iff : GrantOnce net clock stamp gap g k db ↔ ¬GrantDoubled net clock stamp gap g k db := by
  unfold GrantOnce
  rcases @postAdminCreditGrant_cases net clock stamp gap k g db with
    ⟨hrefused, status, message, hpost⟩ | ⟨amount, hadmits, hpost⟩
  · rw [hpost]
    refine iff_of_true .refused ?_
    rintro ⟨amount, -, hadmits, -⟩
    exact hrefused amount hadmits
  rw [hpost, Statement.execute_eq]
  have hsame {amount' : ℤ} (h : g.Admits amount') : amount' = amount := Option.some.inj (h.2.1.symm.trans hadmits.2.1)
  cases hheard : heard net retryAttempts k with
  | none =>
    refine iff_of_true .disconnected ?_
    rintro ⟨_, j, -, hj, -⟩
    rw [hheard] at hj
    cases hj
  | some j =>
    dsimp only
    set server := (g.insert clock stamp amount).runs (unheard net retryAttempts k) db with hserver
    cases hj : g.insert clock stamp amount j server with
    | error e =>
      refine iff_of_true (.raised (insertLedger_raises rfl e hj)) ?_
      rintro ⟨amount', j', hadmits', hj', -, -, x, db', hok⟩
      obtain rfl := hsame hadmits'
      obtain rfl := Option.some.inj (hheard.symm.trans hj')
      rw [← hserver, hj] at hok
      cases hok
    | ok x =>
      obtain ⟨hrows, horg⟩ := insertLedger_eq_ok hj
      have hafter : (g.insert clock stamp amount).after j server = x.2 := Statement.after_ok hj
      have hanswer := @answerGrant_eq net (j + 1 + gap) x.2 x.1 g.orgId horg
      simp only [Except.map, hafter, hanswer]
      cases hread : heard net retryAttempts (j + 1 + gap) with
      | none =>
        refine iff_of_true .disconnected ?_
        rintro ⟨_, j', -, hj', hread', -⟩
        obtain rfl := Option.some.inj (hheard.symm.trans hj')
        rw [hread] at hread'
        cases hread'
      | some _ =>
        constructor
        · -- The second row of two accepted runs is not the first after the rows before.
          rintro honce ⟨amount', j', hadmits', -, -, ⟨i, hi, hlost⟩, -⟩
          obtain rfl := hsame hadmits'
          obtain ⟨amount', now, hadmits', hone⟩ := honce.once _ rfl
          obtain rfl := hsame hadmits'
          have hlength := congrArg List.length ((insertLedger_eq_ok hone).1.symm.trans hrows)
          obtain ⟨i', entry, db', rest, hfirst, hruns⟩ := Statement.runs_of_accepted ⟨i, hi, hlost⟩
          have hkept : db'.ledger.rows.length ≤ ((g.insert clock stamp amount').runs rest db').ledger.rows.length :=
            Statement.runs_invariant (I := fun s : Billing.Db => db'.ledger.rows.length ≤ s.ledger.rows.length) length_after le_rfl
          rw [hserver, hruns] at hlength
          rw [(insertLedger_eq_ok hfirst).1] at hkept
          simp only [List.length_cons] at hlength hkept
          omega
        · intro hsingle
          have hlost : (g.insert clock stamp amount).runs (unheard net retryAttempts k) db = db := by
            refine Statement.runs_of_refused fun i hi => ?_
            cases hok : g.insert clock stamp amount i db with
            | error e => exact ⟨e, rfl⟩
            | ok y => exact absurd ⟨amount, j, hadmits, hheard, by rw [hread]; rfl, ⟨i, hi, _, _, hok⟩, _, _, hj⟩ hsingle
          rw [hserver, hlost] at hj
          refine ⟨fun y hy => ?_, fun _ => id⟩
          cases hy
          exact ⟨amount, clock j, hadmits, hj⟩

end grant

/-! ### A join request that is refused because of itself -/

section join
variable {net : ℕ → Delivery} {orgId userId : ℕ} {email : String} {stamp : ℤ} {k : ℕ} {t : JoinTables}

/-- A join request that was answered is one application of its insert. -/
abbrev JoinOnce (net : ℕ → Delivery) (orgId userId : ℕ) (email : String) (stamp : ℤ) (k : ℕ) (t : JoinTables) : Prop :=
  let done := createRequest net orgId userId email stamp k t
  TakesEffectOnce (fun row t' => insertJoin orgId userId email stamp t = .ok (row, t')) t done.2 done.1

/-- The server has accepted a sending whose reply is lost, and a later one is answered. -/
def JoinOpposed (net : ℕ → Delivery) (orgId userId : ℕ) (email : String) (stamp : ℤ) (k : ℕ) (t : JoinTables) : Prop :=
  (heard net retryAttempts k).isSome ∧ unheard net retryAttempts k ≠ [] ∧
    ∃ x t', insertJoin orgId userId email stamp t = .ok (x, t')

/-- The row is there, and is what refuses the insert when it runs again. -/
theorem insertJoin_again {row : JoinRequestRecord} {t' : JoinTables}
    (h : insertJoin orgId userId email stamp t = .ok (row, t')) :
    t' ≠ t ∧ insertJoin orgId userId email stamp t' = .error (ofViolation .unique) := by
  unfold insertJoin at h
  split_ifs at h with hemail hpending horg
  cases h
  constructor
  · intro hsame
    have hnext := congrArg JoinTables.next hsame
    exact absurd hnext (Nat.succ_ne_self _)
  · unfold insertJoin
    rw [if_neg hemail, dif_pos]
    simp

theorem join_once_iff :
    JoinOnce net orgId userId email stamp k t ↔ ¬JoinOpposed net orgId userId email stamp k t := by
  unfold JoinOnce JoinOpposed createRequest
  dsimp only
  set insert : Statement JoinTables GatewayError JoinRequestRecord := fun _ => insertJoin orgId userId email stamp
  cases hfirst : insertJoin orgId userId email stamp t with
  | error e =>
    refine iff_of_true ?_ fun h => by simp at h
    have hrun (i : ℕ) : insert i t = .error e := hfirst
    have hfixed (i : ℕ) : insert.after i t = t := Statement.after_error (hrun i)
    obtain ⟨hserver, hreply⟩ := @Statement.execute_of_fixed _ _ _ insert net t hfixed retryAttempts k
    rw [hreply, hserver]
    cases heard net retryAttempts k with
    | none => exact .disconnected
    | some j =>
      simp only [Option.map_some, hrun j, Except.map]
      split_ifs
      · exact ⟨nofun, fun hmoved => absurd rfl hmoved⟩
      · exact ⟨nofun, fun hmoved => absurd rfl hmoved⟩
  | ok x =>
    obtain ⟨hmoved, hrefused⟩ := insertJoin_again hfirst
    have hrun (i : ℕ) : insert i t = .ok x := hfirst
    have hagain (i : ℕ) : insert i x.2 = .error (ofViolation .unique) := hrefused
    rcases @Statement.execute_settles _ _ _ insert net t x.2 (fun i => Statement.after_ok (hrun i))
        (fun i => Statement.after_error (hagain i)) retryAttempts k with ⟨hheard, hreply, -⟩ | ⟨j, hheard, hserver, hreply⟩
    · rw [hreply]
      exact iff_of_true .disconnected fun h => by simp [hheard] at h
    · by_cases hlost : unheard net retryAttempts k = []
      · rw [if_pos hlost, hrun j] at hreply
        rw [hreply, hserver]
        refine iff_of_true ⟨fun row hrow => ?_, fun _ => id⟩ fun h => h.2.1 hlost
        cases hrow
        rfl
      · rw [if_neg hlost, hagain j] at hreply
        rw [hreply, hserver]
        refine iff_of_false (fun honce => honce.unopposed hmoved trivial) (not_not.mpr ⟨?_, hlost, x.1, x.2, rfl⟩)
        rw [hheard]
        rfl

end join

/-! ### A budget is looked up again -/

section budget
variable {net : ℕ → Delivery} {references : Bool} {key : BudgetKey} {limit k : ℕ} {t : BudgetRows}

/-- An upsert that was answered is one application. -/
abbrev BudgetOnce (net : ℕ → Delivery) (references : Bool) (key : BudgetKey) (limit k : ℕ) (t : BudgetRows) : Prop :=
  let done := upsertBudget net references key limit 2 k t
  TakesEffectOnce (fun _ t' => oneUpsert references key limit t = .ok t') t done.2 done.1

theorem updateLimit_again (id : ℕ) :
    ((t.updateLimit id limit).1.updateLimit id limit).1 = (t.updateLimit id limit).1 := by
  refine BudgetRows.ext ?_ rfl
  simp only [BudgetRows.updateLimit, List.map_map]
  refine List.map_congr_left fun b _ => ?_
  by_cases hid : b.budgetId = id <;> simp [hid]

/-- A scope that has a row: the limit is set, however often. -/
theorem upsertBudget_of_found {existing : BudgetRecord} (hfound : t.findBudgetForScope key = some existing) (rounds : ℕ) :
    let done := upsertBudget net references key limit (rounds + 1) k t
    ¬done.1.IsConflict ∧ ∀ row, done.1 = .ok row → done.2 = (t.updateLimit existing.budgetId limit).1 := by
  unfold upsertBudget
  set find : Statement BudgetRows Violation (Option BudgetRecord) := fun _ t => .ok (t.findBudgetForScope key, t)
  obtain ⟨hserver, hreply⟩ := @Statement.execute_of_fixed _ _ _ find net t (fun _ => rfl) retryAttempts k
  dsimp only
  rw [hserver, hreply]
  cases heard net retryAttempts k with
  | none => exact ⟨id, nofun⟩
  | some j =>
    simp only [Option.map_some, find, Except.map, hfound]
    set update : Statement BudgetRows Violation (List BudgetRecord) := fun _ t =>
      .ok (t.updateLimit existing.budgetId limit).swap
    rcases @Statement.execute_settles _ _ _ update net t (t.updateLimit existing.budgetId limit).1 (fun _ => rfl)
        (fun _ => updateLimit_again existing.budgetId) retryAttempts (find.execute net retryAttempts k t).next with
      ⟨-, hreply, -⟩ | ⟨i, -, hserver, hreply⟩
    · rw [hreply]
      exact ⟨id, nofun⟩
    · rw [hreply, hserver]
      cases hrows : update i (if unheard net retryAttempts (find.execute net retryAttempts k t).next = [] then t
          else (t.updateLimit existing.budgetId limit).1) with
      | error v => cases hrows
      | ok x =>
        dsimp only [Except.map]
        cases x.1 with
        | nil => exact ⟨id, nofun⟩
        | cons row rows => exact ⟨id, fun _ _ => rfl⟩

/-- The row of a scope that has had none already has the limit. -/
theorem upsert_of_inserted {t' : BudgetRows} {b : BudgetRecord} (h : t.insertBudget references key limit = .ok (t', b)) :
    t'.findBudgetForScope key = some ⟨t.next, key, limit⟩ ∧ (t'.updateLimit t.next limit).1 = t' := by
  have hrows := (insertBudget_eq_ok h).1
  constructor
  · rw [findBudgetForScope_eq_some, hrows]
    exact ⟨List.mem_cons_self, rfl⟩
  · refine BudgetRows.ext ?_ rfl
    have hself : ∀ b ∈ t'.rows, (if b.budgetId = t.next then { b with limitMicroUsd := limit } else b) = b := by
      intro b hb
      split_ifs with hid
      · rw [hrows] at hb
        rcases List.mem_cons.mp hb with rfl | hb
        · rfl
        · exact absurd (t.drawn b hb) (by rw [hid]; exact lt_irrefl _)
      · rfl
    exact (List.map_congr_left hself).trans t'.rows.map_id

theorem budget_once : BudgetOnce net references key limit k t := by
  cases hfound : t.findBudgetForScope key with
  | some existing =>
    obtain ⟨hconflict, hok⟩ := @upsertBudget_of_found net references key limit k t existing hfound 1
    refine ⟨fun row hrow => ?_, fun _ => hconflict⟩
    rw [hok row hrow]
    unfold oneUpsert
    rw [hfound]
  | none =>
    unfold BudgetOnce upsertBudget
    set find : Statement BudgetRows Violation (Option BudgetRecord) := fun _ t => .ok (t.findBudgetForScope key, t)
    set insert : Statement BudgetRows Violation BudgetRecord := fun _ t => (t.insertBudget references key limit).map Prod.swap
    obtain ⟨hserver, hreply⟩ := @Statement.execute_of_fixed _ _ _ find net t (fun _ => rfl) retryAttempts k
    dsimp only
    rw [hserver, hreply]
    cases heard net retryAttempts k with
    | none => exact .disconnected
    | some j =>
      have hnone : find j t = .ok (none, t) := by simp only [find, hfound]
      simp only [Option.map_some, hnone, Except.map]
      cases hfirst : t.insertBudget references key limit with
      | error v =>
        have hrun (i : ℕ) : insert i t = .error v := by simp [insert, hfirst, Except.map]
        obtain ⟨-, hreply⟩ := @Statement.execute_of_fixed _ _ _ insert net t (fun i => Statement.after_error (hrun i))
          retryAttempts (find.execute net retryAttempts k t).next
        rw [hreply]
        cases heard net retryAttempts (find.execute net retryAttempts k t).next with
        | none => exact .disconnected
        | some i =>
          simp only [Option.map_some, hrun i, Except.map]
          cases v with
          | unique => exact absurd hfound (insertBudget_eq_unique.mp hfirst)
          | check => exact .raised ofViolation_check_ne
      | ok x =>
        obtain ⟨hthere, hsame⟩ := upsert_of_inserted hfirst
        have hrun (i : ℕ) : insert i t = .ok (x.2, x.1) := congrArg (Except.map Prod.swap) hfirst
        have hagain (i : ℕ) : insert i x.1 = .error .unique := by
          have hunique : x.1.insertBudget references key limit = .error .unique :=
            insertBudget_eq_unique.mpr (by rw [hthere]; exact Option.some_ne_none _)
          simp [insert, hunique, Except.map]
        have hone : oneUpsert references key limit t = .ok x.1 := by
          unfold oneUpsert
          rw [hfound, hfirst]
          rfl
        rcases @Statement.execute_settles _ _ _ insert net t x.1 (fun i => Statement.after_ok (hrun i))
            (fun i => Statement.after_error (hagain i)) retryAttempts (find.execute net retryAttempts k t).next with
          ⟨-, hreply, -⟩ | ⟨i, -, hserver, hreply⟩
        · rw [hreply]
          exact .disconnected
        split_ifs at hreply with hlost
        · rw [hrun i] at hreply
          rw [hreply, hserver]
          exact ⟨fun _ _ => hone, fun _ => id⟩
        · rw [hagain i] at hreply
          rw [hreply, hserver]
          obtain ⟨hconflict, hok⟩ := @upsertBudget_of_found net references key limit
            (insert.execute net retryAttempts (find.execute net retryAttempts k t).next t).next x.1 _ hthere 0
          refine ⟨fun row hrow => ?_, fun _ => hconflict⟩
          have hset := hok row hrow
          rw [hsame] at hset
          exact hone.trans (congrArg Except.ok hset.symm)

end budget

/-- **Retried writes.**  A grant and a join request go wrong exactly when the server has accepted a sending whose reply is
lost; a budget does not. -/
theorem retried_writes_hold_iff (net : ℕ → Delivery) (clock : ℕ → ℤ) (stamp : ℤ) (k : ℕ) :
    (∀ gap g db, GrantOnce net clock stamp gap g k db ↔ ¬GrantDoubled net clock stamp gap g k db) ∧
    (∀ orgId userId email t, JoinOnce net orgId userId email stamp k t ↔ ¬JoinOpposed net orgId userId email stamp k t) ∧
    ∀ references key limit t, BudgetOnce net references key limit k t :=
  ⟨fun _ _ _ => grant_once_iff, fun _ _ _ _ => join_once_iff, fun _ _ _ _ => budget_once⟩

/-- The connection breaks once, behind the first run. -/
def lostOnce : ℕ → Delivery
  | 0 => .lostAfter
  | _ + 1 => .answered

def grantOfFive : GrantRequest := ⟨true, "root", 1, some 5000000, .absent⟩

/-- One organization, and nobody who asks to join. -/
def joinStart : JoinTables := ⟨[1], [], 0, List.nodup_nil, nofun, List.nodup_nil⟩

/-- The grant is answered with 10 dollars, and the join request with a conflict. -/
theorem retried_writes_go_wrong :
    ¬GrantOnce lostOnce (fun _ => 0) 0 1 grantOfFive 0 checkoutStart.db ∧
    ¬JoinOnce lostOnce 1 7 "ada@example.com" 0 0 joinStart := by
  constructor
  · intro honce
    have hrows : (postAdminCreditGrant lostOnce (fun _ => 0) 0 1 grantOfFive 0 checkoutStart.db).2.ledger.rows.length = 2 := by
      decide
    obtain ⟨amount, now, -, hone⟩ := honce.once _ rfl
    have hlength := congrArg List.length (insertLedger_eq_ok hone).1
    rw [hrows] at hlength
    cases hlength
  · intro honce
    have hmoved : (createRequest lostOnce 1 7 "ada@example.com" 0 0 joinStart).2 ≠ joinStart := by
      intro hsame
      have hnext := congrArg JoinTables.next hsame
      exact absurd hnext (by decide)
    refine honce.unopposed hmoved ?_
    have hanswer : (createRequest lostOnce 1 7 "ada@example.com" 0 0 joinStart).1 =
      .conflict "You already have a pending request for this organization." := by decide
    rw [hanswer]
    trivial

end Experiential.Transport
