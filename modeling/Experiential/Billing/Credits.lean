import Experiential.Gateway.System

/-! # Credits, spend and the balance trigger

The credit ledger is append-only; a row with a `source_ref` is the only one of its source. The queue of
auto-recharge attempts has at most one attempt of an organization that is pending or processing. Both are
fields of the structures. Amounts are in micro-USD, the unit of `numeric(14, 6)`.

Every change of a balance is an update of the organization's counters, and one that lowers the balance runs
`enqueueAutoRechargeIfLow`. `insertCredit_eq_ok` and `applyOrgSpendDelta_eq_ok` say all that a write does:
the ledger and the counters move by the amount, and at most one pending attempt is queued. -/

namespace Experiential.Billing

open Gateway

/-- `numeric(14, 6)`. -/
def Numeric14 (x : Int) : Prop := -10 ^ 14 < x ∧ x < 10 ^ 14

instance : DecidablePred Numeric14 := fun x => inferInstanceAs (Decidable (-10 ^ 14 < x ∧ x < 10 ^ 14))

/-- `gen_random_uuid()`: an identifier no row has. -/
def freshId (ids : List Nat) : Nat := ids.foldr max 0 + 1

theorem lt_freshId {ids : List Nat} {i : Nat} (h : i ∈ ids) : i < freshId ids := by
  unfold freshId
  induction ids with
  | nil => cases h
  | cons j ids ih =>
      rw [List.foldr_cons]
      cases List.mem_cons.mp h with
      | inl he => omega
      | inr hi =>
          have := ih hi
          omega

theorem freshId_not_mem (ids : List Nat) : freshId ids ∉ ids :=
  fun h => Nat.lt_irrefl _ (lt_freshId h)

/-! ### Ledger -/

inductive CreditSource where
  | signupPromo
  | migration
  | admin
  | stripe
  | ycLaunch
deriving DecidableEq

/-- What an insert into `credit_ledger` says. -/
structure Credit where
  orgId : Nat
  entryType : EntryType
  amount : Int
  reason : Option String
  source : CreditSource
  sourceRef : Option String
  createdBy : Option String
  expiresAt : Option Int
  billableSpendAtGrant : Option Int
deriving DecidableEq

structure CreditLedgerRow extends Credit where
  id : Nat
  createdAt : Int
deriving DecidableEq

def Credit.Check (c : Credit) : Prop :=
  c.amount ≠ 0 ∧ Numeric14 c.amount ∧ (c.entryType = .adjustment ∨ 0 < c.amount) ∧
    ∀ x ∈ c.billableSpendAtGrant, Numeric14 x

instance : DecidablePred Credit.Check := fun c =>
  inferInstanceAs (Decidable (c.amount ≠ 0 ∧ Numeric14 c.amount ∧ (c.entryType = .adjustment ∨ 0 < c.amount) ∧
    ∀ x ∈ c.billableSpendAtGrant, Numeric14 x))

def CreditLedgerRow.Check (r : CreditLedgerRow) : Prop := r.toCredit.Check

instance : DecidablePred CreditLedgerRow.Check := fun r => inferInstanceAs (Decidable r.toCredit.Check)

/-- The rows the unique index on `(source, source_ref)` takes for one another. -/
def Credit.SameRef (c d : Credit) : Prop :=
  c.sourceRef ≠ none ∧ c.source = d.source ∧ c.sourceRef = d.sourceRef

instance (c d : Credit) : Decidable (c.SameRef d) :=
  inferInstanceAs (Decidable (c.sourceRef ≠ none ∧ c.source = d.source ∧ c.sourceRef = d.sourceRef))

theorem Credit.SameRef.symm {c d : Credit} (h : c.SameRef d) : d.SameRef c :=
  ⟨h.2.2 ▸ h.1, h.2.1.symm, h.2.2.symm⟩

/-- `credit_ledger` with its two unique indexes. -/
structure CreditLedger extends Table CreditLedgerRow.id CreditLedgerRow.Check where
  unique_ref : ∀ r ∈ rows, ∀ s ∈ rows, r.SameRef s.toCredit → r = s

namespace CreditLedger

/-- Does a row already have this reference? -/
def conflict (l : CreditLedger) (c : Credit) : Bool := l.rows.any (fun r => decide (c.SameRef r.toCredit))

theorem conflict_eq_false {l : CreditLedger} {c : Credit} :
    l.conflict c = false ↔ ∀ r ∈ l.rows, ¬ c.SameRef r.toCredit := by
  simp [conflict]

/-- The row of a new credit. -/
def newRow (l : CreditLedger) (c : Credit) (now : Int) : CreditLedgerRow :=
  { c with
    id := freshId (l.rows.map CreditLedgerRow.id)
    createdAt := now }

/-- Append a credit. -/
def insert (l : CreditLedger) (c : Credit) (now : Int) : Except Violation CreditLedger :=
  if hc : c.Check then
    if hu : l.conflict c = true then .error .unique
    else .ok {
      rows := l.newRow c now :: l.rows
      keyed := List.nodup_cons.mpr ⟨freshId_not_mem _, l.keyed⟩
      checked := by
        intro r hr
        cases List.mem_cons.mp hr with
        | inl he => exact he ▸ hc
        | inr hr => exact l.checked r hr
      unique_ref := by
        have hnew := conflict_eq_false.mp (Bool.eq_false_iff.mpr hu)
        intro r hr s hs hrs
        rcases List.mem_cons.mp hr with rfl | hr
        · rcases List.mem_cons.mp hs with rfl | hs
          · rfl
          · exact absurd hrs (hnew s hs)
        · rcases List.mem_cons.mp hs with rfl | hs
          · exact absurd hrs.symm (hnew r hr)
          · exact l.unique_ref r hr s hs hrs }
  else .error .check

theorem insert_eq_ok {l l' : CreditLedger} {c : Credit} {now : Int} (h : l.insert c now = .ok l') :
    c.Check ∧ l.conflict c = false ∧ l'.rows = l.newRow c now :: l.rows := by
  unfold insert at h
  split_ifs at h with hc hu
  cases h
  exact ⟨hc, Bool.eq_false_iff.mpr hu, rfl⟩

/-- The rows of a source with a reference. -/
def withRef (l : CreditLedger) (source : CreditSource) (ref : String) : List CreditLedgerRow :=
  l.rows.filter (fun r => decide (r.source = source) && decide (r.sourceRef = some ref))

theorem mem_withRef {l : CreditLedger} {source : CreditSource} {ref : String} {r : CreditLedgerRow} :
    r ∈ l.withRef source ref ↔ r ∈ l.rows ∧ r.source = source ∧ r.sourceRef = some ref := by
  simp [withRef]

/-- The index allows one row of a source with a reference. -/
theorem withRef_eq_singleton {l : CreditLedger} {source : CreditSource} {ref : String} {r : CreditLedgerRow}
    (h : r ∈ l.withRef source ref) : l.withRef source ref = [r] := by
  have hsame : ∀ s ∈ l.withRef source ref, s = r := by
    intro s hs
    obtain ⟨hr, hrsource, hrref⟩ := mem_withRef.mp h
    obtain ⟨hs, hssource, hsref⟩ := mem_withRef.mp hs
    exact l.unique_ref s hs r hr ⟨by rw [hsref]; simp, by rw [hssource, hrsource], by rw [hsref, hrref]⟩
  have hnodup : (l.withRef source ref).Nodup := (List.Nodup.of_map _ l.keyed).filter _
  rw [List.eq_replicate_of_mem hsame, List.nodup_replicate] at hnodup
  have hlength : (l.withRef source ref).length = 1 := Nat.le_antisymm hnodup (List.length_pos_of_mem h)
  rw [List.eq_replicate_of_mem hsame, hlength]
  rfl

theorem length_withRef (l : CreditLedger) (source : CreditSource) (ref : String) :
    (l.withRef source ref).length ≤ 1 := by
  cases hl : l.withRef source ref with
  | nil => simp
  | cons r rest =>
      have hr : r ∈ l.withRef source ref := by rw [hl]; exact List.mem_cons_self
      rw [← hl, withRef_eq_singleton hr]
      simp

/-- The ledger without rows. -/
def empty : CreditLedger := { Table.empty with unique_ref := by simp [Table.empty] }

end CreditLedger

/-! ### Auto-recharge -/

structure RechargeSettings where
  orgId : Nat
  enabled : Bool
  threshold : Int
  amount : Int
  stripeCustomerId : Option String
  stripePaymentMethodId : Option String
  notifyEmail : Option String
  lastRechargeAt : Option Int
  consecutiveFailures : Int
  lastFailureAt : Option Int
  lastFailureMessage : Option String
  updatedAt : Int
deriving DecidableEq

/-- A recharge is between 5 and 10000 USD. -/
def RechargeSettings.Check (s : RechargeSettings) : Prop :=
  0 ≤ s.threshold ∧ Numeric14 s.threshold ∧ 5000000 ≤ s.amount ∧ s.amount ≤ 10000000000 ∧
    0 ≤ s.consecutiveFailures

instance : DecidablePred RechargeSettings.Check := fun s =>
  inferInstanceAs (Decidable (0 ≤ s.threshold ∧ Numeric14 s.threshold ∧ 5000000 ≤ s.amount ∧
    s.amount ≤ 10000000000 ∧ 0 ≤ s.consecutiveFailures))

inductive RechargeStatus where
  | pending
  | processing
  | succeeded
  | failed
  | cancelled
deriving DecidableEq

structure RechargeAttempt where
  id : Nat
  orgId : Nat
  amount : Int
  status : RechargeStatus
  stripePaymentIntentId : Option String
  balanceAtEnqueue : Int
  errorMessage : Option String
  createdAt : Int
  updatedAt : Int
deriving DecidableEq

def RechargeAttempt.Check (a : RechargeAttempt) : Prop :=
  0 < a.amount ∧ Numeric14 a.amount ∧ Numeric14 a.balanceAtEnqueue

instance : DecidablePred RechargeAttempt.Check := fun a =>
  inferInstanceAs (Decidable (0 < a.amount ∧ Numeric14 a.amount ∧ Numeric14 a.balanceAtEnqueue))

/-- `status in ('pending', 'processing')`. -/
def RechargeAttempt.active (a : RechargeAttempt) : Bool :=
  decide (a.status = .pending) || decide (a.status = .processing)

/-- The index `auto_recharge_attempts_one_active`. -/
def OneActive (rows : List RechargeAttempt) : Prop :=
  ∀ a ∈ rows, ∀ b ∈ rows, a.active = true → b.active = true → a.orgId = b.orgId → a.id = b.id

instance : DecidablePred OneActive := fun rows =>
  inferInstanceAs (Decidable (∀ a ∈ rows, ∀ b ∈ rows, a.active = true → b.active = true →
    a.orgId = b.orgId → a.id = b.id))

structure RechargeAttempts extends Table RechargeAttempt.id RechargeAttempt.Check where
  one_active : OneActive rows

namespace RechargeAttempts

/-- Keep a written table if the index allows it. -/
def ofTable (t : Except Violation (Table RechargeAttempt.id RechargeAttempt.Check)) :
    Except Violation RechargeAttempts :=
  match t with
  | .ok t => if h : OneActive t.rows then .ok ⟨t, h⟩ else .error .unique
  | .error v => .error v

theorem ofTable_eq_ok {t : Except Violation (Table RechargeAttempt.id RechargeAttempt.Check)}
    {u : RechargeAttempts} : ofTable t = .ok u ↔ t = .ok u.toTable := by
  unfold ofTable
  constructor
  · intro h
    split at h
    · split_ifs at h
      cases h
      rfl
    · cases h
  · intro h
    rw [h]
    simp [u.one_active]

def insert (t : RechargeAttempts) (a : RechargeAttempt) : Except Violation RechargeAttempts :=
  ofTable (t.toTable.insert a)

/-- Rewrite the attempts satisfying `p`. -/
def update (t : RechargeAttempts) (p : RechargeAttempt → Bool) (f : RechargeAttempt → RechargeAttempt)
    (hf : ∀ a, (f a).id = a.id) : Except Violation RechargeAttempts :=
  ofTable (t.toTable.update p f hf)

def empty : RechargeAttempts := { Table.empty with one_active := by simp [OneActive, Table.empty] }

end RechargeAttempts

/-! ### The tables together -/

/-- What the customer owes or has left. -/
def balance (o : Organization) : Int := o.creditGranted - o.billableSpend

structure Db where
  organizations : Table Organization.id Organization.Check
  labels : List OrgLabel
  ledger : CreditLedger
  settings : Table RechargeSettings.orgId RechargeSettings.Check
  attempts : RechargeAttempts

/-! ### Queueing an attempt -/

def successCooldown : Int := 15 * 60 * usPerSecond

def failureCooldown : Int := 24 * 60 * 60 * usPerSecond

def maxFailures : Int := 3

/-- The guards on the settings row. -/
def RechargeSettings.armed (s : RechargeSettings) (now : Int) : Bool :=
  s.enabled && s.stripeCustomerId.isSome && s.stripePaymentMethodId.isSome &&
    decide (s.consecutiveFailures < maxFailures) &&
    s.lastFailureAt.all (fun t => decide (t ≤ now - failureCooldown)) &&
    s.lastRechargeAt.all (fun t => decide (t ≤ now - successCooldown))

/-- The attempt a low balance queues. -/
def newAttempt (db : Db) (s : RechargeSettings) (balance now : Int) : RechargeAttempt :=
  ⟨freshId (db.attempts.rows.map RechargeAttempt.id), s.orgId, s.amount, .pending, none, balance, none, now, now⟩

/-- `enqueue_auto_recharge_if_low`. -/
def enqueueAutoRechargeIfLow (db : Db) (targetOrg : Nat) (now : Int) : Raises (Db × Option Nat) :=
  match db.settings.find? targetOrg, db.organizations.find? targetOrg with
  | some s, some o =>
      if s.armed now ∧ balance o < s.threshold then
        match db.attempts.insert (newAttempt db s (balance o) now) with
        | .ok attempts => .ok ({ db with attempts := attempts }, some (newAttempt db s (balance o) now).id)
        -- An attempt is pending or processing.
        | .error .unique => .ok (db, none)
        | .error v => .error (ofViolation v)
      else .ok (db, none)
  | _, _ => .ok (db, none)

/-- At most one attempt is queued: a pending one without a payment intent. -/
def Queued (db db' : Db) : Prop :=
  db' = db ∨ ∃ a, a.status = .pending ∧ a.stripePaymentIntentId = none ∧
    (∀ b ∈ db.attempts.rows, b.id < a.id) ∧ db'.attempts.rows = a :: db.attempts.rows ∧
    db' = { db with attempts := db'.attempts }

theorem enqueue_eq_ok {db db' : Db} {org : Nat} {now : Int} {queued : Option Nat}
    (h : enqueueAutoRechargeIfLow db org now = .ok (db', queued)) : Queued db db' := by
  unfold enqueueAutoRechargeIfLow at h
  split at h
  · rename_i s o hs ho
    split_ifs at h
    · split at h
      · rename_i attempts hinsert
        cases h
        have hrows := (Table.insert_eq_ok (RechargeAttempts.ofTable_eq_ok.mp hinsert)).2.2
        refine .inr ⟨newAttempt db s (balance o) now, rfl, rfl, ?_, hrows, rfl⟩
        intro b hb
        exact lt_freshId (List.mem_map_of_mem hb)
      · cases h
        exact .inl rfl
      · cases h
    · cases h
      exact .inl rfl
  · cases h
    exact .inl rfl

/-! ### The counters -/

/-- Update an organization's counters; `track_org_balance_auto_recharge` runs when the balance drops. -/
def updateCounters (db : Db) (orgId : Nat) (f : Organization → Organization) (hf : ∀ o, (f o).id = o.id)
    (now : Int) : Raises Db :=
  match db.organizations.find? orgId with
  | none => .ok db
  | some old => do
      let organizations ← write (db.organizations.update (fun o => decide (o.id = orgId)) f hf)
      let db' := { db with organizations := organizations }
      if balance (f old) < balance old then
        let queued ← enqueueAutoRechargeIfLow db' orgId now
        return queued.1
      else return db'

theorem updateCounters_eq_ok {db db' : Db} {orgId : Nat} {f : Organization → Organization}
    {hf : ∀ o, (f o).id = o.id} {now : Int} (h : updateCounters db orgId f hf now = .ok db') :
    ∃ db₁, db₁ = { db with organizations := db₁.organizations } ∧
      (∀ i, db₁.organizations.find? i =
        if i = orgId then (db.organizations.find? i).map f else db.organizations.find? i) ∧
      Queued db₁ db' := by
  unfold updateCounters at h
  split at h
  · rename_i hnone
    cases h
    refine ⟨db, rfl, fun i => ?_, .inl rfl⟩
    split_ifs with hi
    · rw [hi, hnone]
      rfl
    · rfl
  · simp only [bind_eq_ok, write_eq_ok] at h
    obtain ⟨organizations, hupdate, h⟩ := h
    refine ⟨{ db with organizations := organizations }, rfl, Table.find?_update_key hupdate, ?_⟩
    split_ifs at h
    · simp only [bind_eq_ok, pure_eq_ok] at h
      obtain ⟨queued, hqueued, rfl⟩ := h
      exact enqueue_eq_ok hqueued
    · cases h
      exact .inl rfl

/-- The counter after a spend. -/
def addSpend (delta : Int) (o : Organization) : Organization := { o with billableSpend := o.billableSpend + delta }

/-- `apply_org_spend_delta`. -/
def applyOrgSpendDelta (db : Db) (targetOrg : Nat) (delta now : Int) : Raises Db :=
  if delta = 0 then .ok db else updateCounters db targetOrg (addSpend delta) (fun _ => rfl) now

/-! ### Credits -/

/-- Insert a credit; `track_credit_ledger_entry` adds it to the organization's counter. -/
def insertCredit (db : Db) (c : Credit) (now : Int) : Raises Db := do
  let ledger ← write (db.ledger.insert c now)
  if (db.organizations.find? c.orgId).isSome then
    updateCounters { db with ledger := ledger } c.orgId
      (fun o => { o with creditGranted := o.creditGranted + c.amount }) (fun _ => rfl) now
  else throw foreignKeyViolation

/-- `on conflict (source, source_ref) do nothing`: the tables and whether a row was inserted. -/
def insertCreditOnce (db : Db) (c : Credit) (now : Int) : Raises (Db × Bool) :=
  if c.Check ∧ db.ledger.conflict c = true then .ok (db, false)
  else do
    let db' ← insertCredit db c now
    return (db', true)

/-- What a credit moves. -/
structure Credited (db db' : Db) (c : Credit) (now : Int) : Prop where
  check : c.Check
  new_ref : db.ledger.conflict c = false
  ledger : db'.ledger.rows = db.ledger.newRow c now :: db.ledger.rows
  organizations : ∀ i, db'.organizations.find? i =
    if i = c.orgId then
      (db.organizations.find? i).map (fun o => { o with creditGranted := o.creditGranted + c.amount })
    else db.organizations.find? i
  exists_org : ∃ o, db.organizations.find? c.orgId = some o
  settings : db'.settings = db.settings
  labels : db'.labels = db.labels
  attempts : db'.attempts = db.attempts ∨ ∃ a, a.status = .pending ∧ a.stripePaymentIntentId = none ∧
    (∀ b ∈ db.attempts.rows, b.id < a.id) ∧ db'.attempts.rows = a :: db.attempts.rows

theorem insertCredit_eq_ok {db db' : Db} {c : Credit} {now : Int} (h : insertCredit db c now = .ok db') :
    Credited db db' c now := by
  simp only [insertCredit, bind_eq_ok, write_eq_ok] at h
  obtain ⟨ledger, hinsert, h⟩ := h
  split_ifs at h with horg
  obtain ⟨hcheck, hnew, hrows⟩ := CreditLedger.insert_eq_ok hinsert
  obtain ⟨db₁, hsame, hfind, hqueued⟩ := updateCounters_eq_ok h
  have hledger : db'.ledger = ledger ∧ db'.organizations = db₁.organizations ∧ db'.settings = db.settings ∧
      db'.labels = db.labels := by
    cases hqueued with
    | inl he =>
        rw [he]
        exact ⟨by rw [hsame], rfl, by rw [hsame], by rw [hsame]⟩
    | inr hnew =>
        obtain ⟨a, -, -, -, -, he⟩ := hnew
        rw [he]
        exact ⟨by rw [hsame], rfl, by rw [hsame], by rw [hsame]⟩
  refine ⟨hcheck, hnew, by rw [hledger.1, hrows], ?_, Option.isSome_iff_exists.mp horg, hledger.2.2.1,
    hledger.2.2.2, ?_⟩
  · intro i
    rw [hledger.2.1, hfind]
  · have hattempts : db₁.attempts = db.attempts := by rw [hsame]
    cases hqueued with
    | inl he => exact .inl (by rw [he, hattempts])
    | inr hnew =>
        obtain ⟨a, hstatus, hintent, hlt, hrows, -⟩ := hnew
        rw [hattempts] at hlt hrows
        exact .inr ⟨a, hstatus, hintent, hlt, hrows⟩

theorem insertCreditOnce_eq_ok {db db' : Db} {c : Credit} {now : Int} {inserted : Bool}
    (h : insertCreditOnce db c now = .ok (db', inserted)) :
    db' = db ∧ inserted = false ∧ db.ledger.conflict c = true ∨
      inserted = true ∧ insertCredit db c now = .ok db' := by
  unfold insertCreditOnce at h
  split_ifs at h with hc
  · cases h
    exact .inl ⟨rfl, rfl, hc.2⟩
  · simp only [bind_eq_ok, pure_eq_ok] at h
    obtain ⟨db₁, h, he⟩ := h
    cases he
    exact .inr ⟨rfl, h⟩

end Experiential.Billing
