import Experiential.Billing.Credits

/-! # Expiring grants

The provider's webhook reports a payment intent, and the attempt is looked up by the intent's id. A success
is credited whether or not an attempt has the id yet.

The launch grant carries its expiry and what the organization had spent when it was granted. The daily pass
takes back what is unspent of each expired grant, at most the balance, and remembers a grant by the row it
writes. `clawBack_eq_ok` is all that one turn of the loop does. -/

namespace Experiential.Billing

open Gateway

inductive RechargeOutcome where
  | credited
  | replay
deriving DecidableEq

/-- The credit of a successful recharge. -/
def rechargeCredit (orgId : Nat) (paymentIntentId : String) (amount : Int) (createdBy : Option String) : Credit :=
  ⟨orgId, .topup, amount, some "Auto-recharge", .stripe, some paymentIntentId, createdBy, none, none⟩

/-- The attempts a report on a payment intent is about. -/
def RechargeAttempt.awaits (a : RechargeAttempt) (paymentIntentId : String) : Bool :=
  decide (a.stripePaymentIntentId = some paymentIntentId) && a.active

/-- The attempt after a failure. -/
def RechargeAttempt.fail (message : String) (now : Int) (a : RechargeAttempt) : RechargeAttempt :=
  { a with status := .failed, errorMessage := some message, updatedAt := now }

theorem fail_id (message : String) (now : Int) (a : RechargeAttempt) : (a.fail message now).id = a.id := rfl

/-- Insert the credit; a unique violation means that it is there. -/
def creditRecharge (db : Db) (c : Credit) (now : Int) : Raises (Db × RechargeOutcome) :=
  match insertCredit db c now with
  | .ok db' => .ok (db', .credited)
  | .error e => if e.errcode = .c23505 then .ok (db, .replay) else .error e

/-- `record_auto_recharge_success`. -/
def recordAutoRechargeSuccess (db : Db) (orgId : Nat) (paymentIntentId : String) (amount : Int)
    (createdBy : Option String) (now : Int) : Raises (Db × RechargeOutcome) := do
  let (db', outcome) ← creditRecharge db (rechargeCredit orgId paymentIntentId amount createdBy) now
  let attempts ← write (db'.attempts.update (·.awaits paymentIntentId)
    (fun a => { a with status := .succeeded, updatedAt := now }) (fun _ => rfl))
  let settings ← write (db'.settings.update (fun s => decide (s.orgId = orgId))
    (fun s => { s with
      lastRechargeAt := some now
      consecutiveFailures := 0
      lastFailureAt := none
      lastFailureMessage := none
      updatedAt := now }) (fun _ => rfl))
  return ({ db' with attempts := attempts, settings := settings }, outcome)

/-- `record_auto_recharge_failure`. -/
def recordAutoRechargeFailure (db : Db) (orgId : Nat) (paymentIntentId message : String) (now : Int) :
    Raises Db := do
  let attempts ← write (db.attempts.update (·.awaits paymentIntentId)
    (·.fail message now) (fail_id message now))
  -- Only a transition counts, so that two reports of one failure count once.
  if db.attempts.rows.any (·.awaits paymentIntentId) then
    let settings ← write (db.settings.update (fun s => decide (s.orgId = orgId))
      (fun s => { s with
        consecutiveFailures := s.consecutiveFailures + 1
        lastFailureAt := some now
        lastFailureMessage := some message
        updatedAt := now }) (fun _ => rfl))
    return { db with attempts := attempts, settings := settings }
  else return { db with attempts := attempts }

variable {now : Int}

theorem creditRecharge_eq_ok {db db' : Db} {c : Credit} {outcome : RechargeOutcome}
    (h : creditRecharge db c now = .ok (db', outcome)) :
    outcome = .credited ∧ Credited db db' c now ∨ outcome = .replay ∧ db' = db ∧
      ∃ e, insertCredit db c now = .error e ∧ e.errcode = .c23505 := by
  unfold creditRecharge at h
  split at h
  · rename_i db₁ hinsert
    cases h
    exact .inl ⟨rfl, insertCredit_eq_ok hinsert⟩
  · rename_i e hinsert
    split_ifs at h with he
    cases h
    exact .inr ⟨rfl, rfl, e, hinsert, he⟩

theorem enqueue_errcode {db : Db} {orgId : Nat} {e : GatewayError}
    (h : enqueueAutoRechargeIfLow db orgId now = .error e) : e.errcode ≠ .c23505 := by
  unfold enqueueAutoRechargeIfLow at h
  split at h
  · split_ifs at h
    split at h
    · cases h
    · cases h
    · rename_i v hv _
      cases h
      cases v with
      | unique => exact absurd rfl hv
      | check => simp [ofViolation, raised]
  · cases h

/-- The trigger does not raise a unique violation. -/
theorem updateCounters_errcode {db : Db} {orgId : Nat} {f : Organization → Organization}
    {hf : ∀ o, (f o).id = o.id} {e : GatewayError} (h : updateCounters db orgId f hf now = .error e) :
    e.errcode ≠ .c23505 := by
  unfold updateCounters at h
  split at h
  · cases h
  · cases hu : db.organizations.update (fun o => decide (o.id = orgId)) f hf with
    | error v =>
        have hv : v = .check := by
          unfold Table.update at hu
          split_ifs at hu
          cases hu
          rfl
        rw [hu, hv] at h
        cases h
        simp [ofViolation, raised]
    | ok organizations =>
        rw [hu] at h
        simp only [Gateway.write, bind, Except.bind] at h
        split_ifs at h
        · split at h
          · rename_i e' he
            cases h
            exact enqueue_errcode he
          · cases h
        · cases h

/-- A unique violation means that the ledger has the credit's reference. -/
theorem conflict_of_insertCredit {db : Db} {c : Credit} {e : GatewayError}
    (h : insertCredit db c now = .error e) (he : e.errcode = .c23505) : db.ledger.conflict c = true := by
  unfold insertCredit at h
  cases hi : db.ledger.insert c now with
  | error v =>
      unfold CreditLedger.insert at hi
      split_ifs at hi with hc hu
      · exact hu
      · cases hi
        rw [CreditLedger.insert, dif_neg hc] at h
        cases h
        simp [ofViolation, raised] at he
  | ok ledger =>
      rw [hi] at h
      simp only [Gateway.write, bind, Except.bind] at h
      split_ifs at h
      · exact absurd he (updateCounters_errcode h)
      · cases h
        simp [foreignKeyViolation, raised] at he

/-- What a success moves: perhaps the credit, and the attempts that have the intent's id. -/
theorem recordSuccess_eq_ok {db db' : Db} {orgId : Nat} {intent : String} {amount : Int}
    {createdBy : Option String} {outcome : RechargeOutcome}
    (h : recordAutoRechargeSuccess db orgId intent amount createdBy now = .ok (db', outcome)) :
    ∃ db₁, creditRecharge db (rechargeCredit orgId intent amount createdBy) now = .ok (db₁, outcome) ∧
      db'.organizations = db₁.organizations ∧ db'.ledger = db₁.ledger ∧ db'.labels = db₁.labels ∧
      db'.attempts.rows = db₁.attempts.rows.map (fun a =>
        if a.awaits intent then { a with status := .succeeded, updatedAt := now } else a) := by
  simp only [recordAutoRechargeSuccess, bind_eq_ok, write_eq_ok, pure_eq_ok] at h
  obtain ⟨⟨db₁, outcome₁⟩, hcredit, attempts, hattempts, settings, -, he⟩ := h
  cases he
  exact ⟨db₁, hcredit, rfl, rfl, rfl, (Table.update_eq_ok (RechargeAttempts.ofTable_eq_ok.mp hattempts)).2⟩

theorem recordFailure_eq_ok {db db' : Db} {orgId : Nat} {intent message : String}
    (h : recordAutoRechargeFailure db orgId intent message now = .ok db') :
    db'.organizations = db.organizations ∧ db'.ledger = db.ledger ∧ db'.labels = db.labels ∧
      db'.attempts.rows = db.attempts.rows.map (fun a =>
        if a.awaits intent then a.fail message now else a) := by
  simp only [recordAutoRechargeFailure, bind_eq_ok, write_eq_ok] at h
  obtain ⟨attempts, hattempts, h⟩ := h
  have hrows := (Table.update_eq_ok (RechargeAttempts.ofTable_eq_ok.mp hattempts)).2
  split_ifs at h
  · simp only [bind_eq_ok, write_eq_ok, pure_eq_ok] at h
    obtain ⟨settings, -, rfl⟩ := h
    exact ⟨rfl, rfl, rfl, hrows⟩
  · cases h
    exact ⟨rfl, rfl, rfl, hrows⟩

/-! ### The launch grant -/

def ycLaunchRef (orgId : Nat) : String := "yc-launch:" ++ toString orgId

def promoReversalRef (orgId : Nat) : String := "promo-reversal:" ++ toString orgId

def grantExpiryRef (grantId : Nat) : String := "grant-expiry:" ++ toString grantId

theorem grantExpiryRef_injective {i j : Nat} (h : grantExpiryRef i = grantExpiryRef j) : i = j := by
  have hchars := congrArg String.toList h
  simp only [grantExpiryRef, String.toList_append, List.append_cancel_left_eq] at hchars
  exact repr_injective (String.toList_inj.mp hchars)

theorem ycLaunchRef_ne (orgId i : Nat) : ycLaunchRef orgId ≠ grantExpiryRef i := by
  intro h
  have hchars := congrArg String.toList h
  simp [ycLaunchRef, grantExpiryRef] at hchars

theorem promoReversalRef_ne (orgId i : Nat) : promoReversalRef orgId ≠ grantExpiryRef i := by
  intro h
  have hchars := congrArg String.toList h
  simp [promoReversalRef, grantExpiryRef] at hchars

def launchCredit (o : Organization) (amount : Int) (createdBy : Option String) (expiresAt : Int) : Credit :=
  ⟨o.id, .grant, amount, some "YC launch grant", .ycLaunch, some (ycLaunchRef o.id), createdBy, some expiresAt,
    some o.billableSpend⟩

def promoReversal (orgId : Nat) (promo : Int) (createdBy : Option String) : Credit :=
  ⟨orgId, .adjustment, -promo, some "Welcome credit folded into the YC launch grant", .ycLaunch,
    some (promoReversalRef orgId), createdBy, none, none⟩

/-- The welcome credit an organization was given. -/
def Db.promoGranted (db : Db) (orgId : Nat) : Int :=
  db.ledger.sumWhere (fun r => decide (r.orgId = orgId) && decide (r.source = .signupPromo)) (·.amount)

/-- Fold the welcome credit into the launch grant. -/
def foldPromo (db : Db) (orgId : Nat) (createdBy : Option String) (now : Int) : Raises Db :=
  if 0 < db.promoGranted orgId then do
    let r ← insertCreditOnce db (promoReversal orgId (db.promoGranted orgId) createdBy) now
    return r.1
  else return db

/-- The first call that puts the label `yc` on the organization grants the credit. -/
def grantLaunch (db : Db) (o : Organization) (amount : Int) (createdBy : Option String) (expiresAt now : Int) :
    Raises (Db × Bool) :=
  if ⟨o.id, "yc"⟩ ∈ db.labels then return (db, false)
  else do
    let (db', granted) ← insertCreditOnce { db with labels := ⟨o.id, "yc"⟩ :: db.labels }
      (launchCredit o amount createdBy expiresAt) now
    if granted then
      let db'' ← foldPromo db' o.id createdBy now
      return (db'', true)
    else return (db', false)

structure LaunchGrant where
  granted : Int
  expiresAt : Int
  balance : Int
  newlyApplied : Bool
deriving DecidableEq

/-- `apply_yc_launch_grant`. -/
def applyYcLaunchGrant (db : Db) (orgId : Nat) (amount : Int) (expiresAt : Option Int) (createdBy : Option String)
    (now : Int) : Raises (Db × LaunchGrant) :=
  match db.organizations.find? orgId with
  | none => .error (raised .P0002 ("organization not found: " ++ toString orgId))
  | some o => do
      let effectiveExpiry := expiresAt.getD (addMonths now 3)
      let (db', newlyApplied) ← grantLaunch db o amount createdBy effectiveExpiry now
      let after ← require (db'.organizations.find? orgId) foreignKeyViolation
      return (db', ⟨amount, effectiveExpiry, balance after, newlyApplied⟩)

/-! ### The pass -/

/-- The clawbacks of grant `i`. -/
def Db.removals (db : Db) (i : Nat) : List CreditLedgerRow := db.ledger.withRef .ycLaunch (grantExpiryRef i)

/-- The grants a pass looks at. -/
def Db.expired (db : Db) (now : Int) (g : CreditLedgerRow) : Bool :=
  decide (g.entryType = .grant) && g.expiresAt.any (fun t => decide (t ≤ now)) &&
    (db.removals g.id).isEmpty

/-- The part of a grant that is not spent. -/
def unspent (o : Organization) (g : CreditLedgerRow) : Int :=
  max 0 (g.amount - (o.billableSpend - g.billableSpendAtGrant.getD 0))

/-- What a turn takes back: the unspent part, at most the balance. -/
def clawback (o : Organization) (g : CreditLedgerRow) : Int := min (unspent o g) (max 0 (balance o))

def clawbackCredit (g : CreditLedgerRow) (amount : Int) : Credit :=
  ⟨g.orgId, .adjustment, -amount, some "Expired grant clawback (unspent portion)", .ycLaunch,
    some (grantExpiryRef g.id), none, none, none⟩

/-- One turn of the loop: the tables and the number processed. -/
def clawBack (now : Int) (acc : Db × Int) (g : CreditLedgerRow) : Raises (Db × Int) :=
  match acc.1.organizations.find? g.orgId with
  | none => .ok acc
  | some o =>
      if 0 < clawback o g then do
        let r ← insertCreditOnce acc.1 (clawbackCredit g (clawback o g)) now
        return (r.1, acc.2 + 1)
      else .ok acc

/-- The order in which a query without `order by` returns its rows. -/
structure ScanOrder where
  order : List CreditLedgerRow → List CreditLedgerRow
  perm : ∀ rows, (order rows).Perm rows

/-- The grants of a pass in the order of its loop. -/
def Db.dueGrants (db : Db) (scan : ScanOrder) (now : Int) : List CreditLedgerRow :=
  scan.order (db.ledger.rows.filter (fun g => db.expired now g))

/-- `process_expiring_grants`. -/
def processExpiringGrants (db : Db) (scan : ScanOrder) (now : Int) : Raises (Db × Int) :=
  (db.dueGrants scan now).foldlM (clawBack now) (db, 0)

/-! ### One turn -/

def Db.billable (db : Db) (i : Nat) : Int := coalesce ((db.organizations.find? i).map (·.billableSpend)) 0

def Db.balance (db : Db) (i : Nat) : Int := coalesce ((db.organizations.find? i).map Billing.balance) 0

/-- What is unspent of a grant. -/
def Db.unspent (db : Db) (g : CreditLedgerRow) : Int :=
  coalesce ((db.organizations.find? g.orgId).map (fun o => Billing.unspent o g)) 0

theorem Credited.balance {db db' : Db} {c : Credit} (h : Credited db db' c now) (i : Nat) :
    db'.balance i = db.balance i + if i = c.orgId then c.amount else 0 := by
  unfold Db.balance
  rw [h.organizations]
  split_ifs with hi
  · obtain ⟨o, ho⟩ := h.exists_org
    rw [hi, ho]
    show o.creditGranted + c.amount - o.billableSpend = o.creditGranted - o.billableSpend + c.amount
    omega
  · omega

theorem Credited.unspent {db db' : Db} {c : Credit} (h : Credited db db' c now) (g : CreditLedgerRow) :
    db'.unspent g = db.unspent g := by
  unfold Db.unspent
  rw [h.organizations]
  split_ifs
  · rw [Option.map_map]
    rfl
  · rfl

theorem Credited.removals {db db' : Db} {c : Credit} (h : Credited db db' c now) (i : Nat) : db'.removals i =
      if c.source = .ycLaunch ∧ c.sourceRef = some (grantExpiryRef i) then db.ledger.newRow c now :: db.removals i
      else db.removals i := by
  unfold Db.removals CreditLedger.withRef
  have hiff : (decide (c.source = .ycLaunch) && decide (c.sourceRef = some (grantExpiryRef i))) = true ↔
      c.source = .ycLaunch ∧ c.sourceRef = some (grantExpiryRef i) := by
    simp only [Bool.and_eq_true, decide_eq_true_eq]
  rw [h.ledger]
  by_cases hc : c.source = .ycLaunch ∧ c.sourceRef = some (grantExpiryRef i)
  · rw [if_pos hc]
    exact List.filter_cons_of_pos (hiff.mpr hc)
  · rw [if_neg hc]
    exact List.filter_cons_of_neg (mt hiff.mp hc)

/-- What a turn does: nothing when nothing is to be taken back or the row is there, else the credit. -/
theorem clawBack_eq_ok {acc acc' : Db × Int} {g : CreditLedgerRow} (h : clawBack now acc g = .ok acc') :
    acc'.1 = acc.1 ∧ (acc.1.unspent g = 0 ∨ acc.1.balance g.orgId ≤ 0 ∨ acc.1.removals g.id ≠ []) ∨
    ∃ amount, 0 < amount ∧ amount ≤ acc.1.unspent g ∧ amount ≤ acc.1.balance g.orgId ∧
      insertCredit acc.1 (clawbackCredit g amount) now = .ok acc'.1 := by
  unfold clawBack at h
  split at h
  · rename_i hnone
    cases h
    exact .inl ⟨rfl, .inl (by simp [Db.unspent, hnone, coalesce])⟩
  · rename_i o ho
    have hunspent : acc.1.unspent g = unspent o g := by simp [Db.unspent, ho, coalesce]
    have hbalance : acc.1.balance g.orgId = balance o := by simp [Db.balance, ho, coalesce]
    have hnonneg : 0 ≤ unspent o g := le_max_left _ _
    rw [hunspent, hbalance]
    split_ifs at h with hpos
    · simp only [bind_eq_ok, pure_eq_ok] at h
      obtain ⟨r, hr, rfl⟩ := h
      cases insertCreditOnce_eq_ok hr with
      | inl hconflict =>
          obtain ⟨hsame, -, hconflict⟩ := hconflict
          refine .inl ⟨hsame, .inr (.inr ?_)⟩
          simp only [CreditLedger.conflict, List.any_eq_true, decide_eq_true_eq] at hconflict
          obtain ⟨r, hr, -, hsource, href⟩ := hconflict
          exact List.ne_nil_of_mem (CreditLedger.mem_withRef.mpr ⟨hr, hsource.symm, href.symm⟩)
      | inr hcredit =>
          unfold clawback at hpos
          exact .inr ⟨clawback o g, hpos, by unfold clawback; omega, by unfold clawback; omega, hcredit.2⟩
    · cases h
      unfold clawback at hpos
      exact .inl ⟨rfl, by omega⟩

end Experiential.Billing
