import Experiential.Billing.GrantExpiry

/-! # Calls of the billing functions

Every write to the billing tables is one `BillingCall`; the processor of the attempts has its own.
`execute_grows` is what a call does to the append-only parts: the ledger and the queue gain rows in front, and
`execute_unspent` what it does to the grants. -/

namespace Experiential.Billing

open Gateway

/-- A credit of the other writers: sign-up, migrations, administrators, checkout sessions. -/
structure PlainCredit extends Credit where
  not_launch : source ≠ .ycLaunch

inductive BillingCall where
  | credit (c : PlainCredit)
  | spend (orgId : Nat) (delta : Int)
  | launch (orgId : Nat) (amount : Int) (expiresAt : Option Int) (createdBy : Option String)
  | expire (scan : ScanOrder)
  | saveSettings (s : RechargeSettings)
  | rechargeSucceeded (orgId : Nat) (paymentIntentId : String) (amount : Int) (createdBy : Option String)
  | rechargeFailed (orgId : Nat) (paymentIntentId message : String)

/-- `insert .. on conflict (org_id) do update`. -/
def upsertSettings (db : Db) (s : RechargeSettings) :
    Except Violation (Table RechargeSettings.orgId RechargeSettings.Check) :=
  if (db.settings.find? s.orgId).isSome then
    db.settings.update (fun r => decide (r.orgId = s.orgId)) (fun r => { s with orgId := r.orgId }) (fun _ => rfl)
  else db.settings.insert s

/-- The checkout webhook and the settings page save a row. -/
def saveSettings (db : Db) (s : RechargeSettings) : Raises Db := do
  let _ ← require (db.organizations.find? s.orgId) foreignKeyViolation
  let settings ← write (upsertSettings db s)
  return { db with settings := settings }

def execute (db : Db) (now : Int) : BillingCall → Raises Db
  | .credit c => insertCredit db c.toCredit now
  | .spend orgId delta => applyOrgSpendDelta db orgId delta now
  | .launch orgId amount expiresAt createdBy => do
      let r ← applyYcLaunchGrant db orgId amount expiresAt createdBy now
      return r.1
  | .expire scan => do
      let r ← processExpiringGrants db scan now
      return r.1
  | .saveSettings s => saveSettings db s
  | .rechargeSucceeded orgId paymentIntentId amount createdBy => do
      let r ← recordAutoRechargeSuccess db orgId paymentIntentId amount createdBy now
      return r.1
  | .rechargeFailed orgId paymentIntentId message => recordAutoRechargeFailure db orgId paymentIntentId message now

/-! ### The launch grant -/

variable {now : Int} {createdBy : Option String}

/-- What the launch grant does is one credit, or two, or none. -/
theorem launch_eq_ok {db db' : Db} {orgId : Nat} {amount : Int} {expiresAt : Option Int}
    {r : LaunchGrant}
    (h : applyYcLaunchGrant db orgId amount expiresAt createdBy now = .ok (db', r)) :
    ∃ o labels, db.organizations.find? orgId = some o ∧ (db' = { db with labels := labels } ∨
      ∃ db₁, insertCredit { db with labels := labels }
          (launchCredit o amount createdBy (expiresAt.getD (addMonths now 3))) now = .ok db₁ ∧
        (db' = db₁ ∨ ∃ promo, 0 < promo ∧
          insertCredit db₁ (promoReversal o.id promo createdBy) now = .ok db')) := by
  unfold applyYcLaunchGrant at h
  split at h
  · cases h
  · rename_i o ho
    simp only [bind_eq_ok, require_eq_ok, pure_eq_ok] at h
    obtain ⟨⟨db₂, granted⟩, hgrant, after, -, he⟩ := h
    cases he
    unfold grantLaunch at hgrant
    split_ifs at hgrant
    · cases hgrant
      exact ⟨o, db.labels, ho, .inl rfl⟩
    · simp only [bind_eq_ok] at hgrant
      obtain ⟨⟨db₁, inserted⟩, hinsert, hgrant⟩ := hgrant
      refine ⟨o, ⟨o.id, "yc"⟩ :: db.labels, ho, ?_⟩
      cases insertCreditOnce_eq_ok hinsert with
      | inl hstay =>
          obtain ⟨rfl, rfl, -⟩ := hstay
          cases hgrant
          exact .inl rfl
      | inr hcredit =>
          obtain ⟨rfl, hcredit⟩ := hcredit
          refine .inr ⟨db₁, hcredit, ?_⟩
          simp only [if_true, bind_eq_ok, pure_eq_ok] at hgrant
          obtain ⟨db₃, hfold, he⟩ := hgrant
          cases he
          unfold foldPromo at hfold
          split_ifs at hfold with hpromo
          · simp only [bind_eq_ok, pure_eq_ok] at hfold
            obtain ⟨⟨db₄, done⟩, hinsert, rfl⟩ := hfold
            cases insertCreditOnce_eq_ok hinsert with
            | inl hstay => exact .inl hstay.1
            | inr hcredit => exact .inr ⟨_, hpromo, hcredit.2⟩
          · cases hfold
            exact .inl rfl

/-! ### Grants -/

/-- The clawbacks and the unspent parts are the same. -/
structure SameGrants (db db' : Db) : Prop where
  removals : ∀ i, db'.removals i = db.removals i
  unspent : ∀ g, db'.unspent g = db.unspent g
  rows : ∀ r ∈ db.ledger.rows, r ∈ db'.ledger.rows

theorem SameGrants.trans {db₁ db₂ db₃ : Db} (h : SameGrants db₁ db₂) (h' : SameGrants db₂ db₃) :
    SameGrants db₁ db₃ :=
  ⟨fun i => (h'.removals i).trans (h.removals i), fun g => (h'.unspent g).trans (h.unspent g),
    fun r hr => h'.rows r (h.rows r hr)⟩

/-- Calls that leave the counters and the ledger alone. -/
theorem SameGrants.of_eq {db db' : Db} (ho : db'.organizations = db.organizations) (hl : db'.ledger = db.ledger) :
    SameGrants db db' := by
  refine ⟨fun i => ?_, fun g => ?_, fun r hr => ?_⟩
  · unfold Db.removals
    rw [hl]
  · unfold Db.unspent
    rw [ho]
  · rw [hl]
    exact hr

theorem Credited.mem {db db' : Db} {c : Credit} (h : Credited db db' c now) :
    ∀ r ∈ db.ledger.rows, r ∈ db'.ledger.rows := by
  intro r hr
  rw [h.ledger]
  exact List.mem_cons_of_mem _ hr

theorem Credited.sameGrants {db db' : Db} {c : Credit} (h : Credited db db' c now)
    (hc : ∀ i, ¬ (c.source = .ycLaunch ∧ c.sourceRef = some (grantExpiryRef i))) : SameGrants db db' :=
  ⟨fun i => by rw [h.removals, if_neg (hc i)], h.unspent, h.mem⟩

theorem launch_sameGrants {db db' : Db} {orgId : Nat} {amount : Int} {expiresAt : Option Int}
    {r : LaunchGrant}
    (h : applyYcLaunchGrant db orgId amount expiresAt createdBy now = .ok (db', r)) : SameGrants db db' := by
  obtain ⟨o, labels, -, h⟩ := launch_eq_ok h
  have hlabels : SameGrants db { db with labels := labels } := .of_eq rfl rfl
  cases h with
  | inl he => exact he ▸ hlabels
  | inr h =>
      obtain ⟨db₁, hgrant, h⟩ := h
      have hfirst := hlabels.trans ((insertCredit_eq_ok hgrant).sameGrants fun i hi => ycLaunchRef_ne _ _ (Option.some.inj hi.2))
      cases h with
      | inl he => exact he ▸ hfirst
      | inr h =>
          obtain ⟨promo, -, hfold⟩ := h
          exact hfirst.trans ((insertCredit_eq_ok hfold).sameGrants fun i hi => promoReversalRef_ne _ _ (Option.some.inj hi.2))

/-- Spend moves what is unspent of the organization's grants. -/
theorem applyOrgSpendDelta_eq_ok {db db' : Db} {orgId : Nat} {delta now : Int}
    (h : applyOrgSpendDelta db orgId delta now = .ok db') :
    (∀ i, db'.removals i = db.removals i) ∧ db'.ledger = db.ledger ∧
      ∀ g, db'.unspent g = coalesce ((db.organizations.find? g.orgId).map (fun o =>
        unspent (if g.orgId = orgId then addSpend delta o else o) g)) 0 := by
  unfold applyOrgSpendDelta at h
  split_ifs at h with hzero
  · cases h
    refine ⟨fun _ => rfl, rfl, fun g => ?_⟩
    have hsame : ∀ o : Organization, addSpend 0 o = o := fun o => by simp [addSpend]
    rw [hzero]
    simp [Db.unspent, hsame]
  · obtain ⟨db₁, hsame, hfind, hqueued⟩ := updateCounters_eq_ok h
    have hdb : db'.ledger = db.ledger ∧ db'.organizations = db₁.organizations := by
      cases hqueued with
      | inl he =>
          rw [he]
          exact ⟨by rw [hsame], rfl⟩
      | inr hnew =>
          obtain ⟨a, -, -, -, -, he⟩ := hnew
          rw [he]
          exact ⟨by rw [hsame], rfl⟩
    refine ⟨fun i => by unfold Db.removals; rw [hdb.1], hdb.1, fun g => ?_⟩
    unfold Db.unspent
    rw [hdb.2, hfind]
    split_ifs with hg
    · rw [Option.map_map]
      rfl
    · rfl

theorem recordSuccess_sameGrants {db db' : Db} {orgId : Nat} {intent : String} {amount : Int}
    {outcome : RechargeOutcome}
    (h : recordAutoRechargeSuccess db orgId intent amount createdBy now = .ok (db', outcome)) :
    SameGrants db db' := by
  obtain ⟨db₁, hcredit, horg, hledger, -⟩ := recordSuccess_eq_ok h
  have hlast : SameGrants db₁ db' := .of_eq horg hledger
  cases creditRecharge_eq_ok hcredit with
  | inl h =>
      refine (h.2.sameGrants fun i hi => ?_).trans hlast
      cases hi.1
  | inr h => exact h.2.1 ▸ hlast

/-! ### Growth -/

/-- The ledger gains rows that satisfy `P`, the queue gains pending attempts, and nothing else of them moves. -/
structure Grows (P : Credit → Prop) (db db' : Db) : Prop where
  ledger : ∃ new, db'.ledger.rows = new ++ db.ledger.rows ∧ ∀ r ∈ new, P r.toCredit
  attempts : ∃ new, db'.attempts.rows = new ++ db.attempts.rows ∧ ∀ a ∈ new,
    a.status = .pending ∧ a.stripePaymentIntentId = none ∧ ∀ b ∈ db.attempts.rows, b.id < a.id

section grows
variable {P : Credit → Prop} {db db' : Db}

theorem Grows.of_eq (hl : db'.ledger = db.ledger) (ha : db'.attempts = db.attempts) : Grows P db db' :=
  ⟨⟨[], by rw [hl]; rfl, by simp⟩, ⟨[], by rw [ha]; rfl, by simp⟩⟩

theorem Grows.trans {db₁ : Db} (h : Grows P db db₁) (h' : Grows P db₁ db') : Grows P db db' := by
  obtain ⟨⟨rows, hrows, hP⟩, attempts, hattempts, hnew⟩ := h
  obtain ⟨⟨rows', hrows', hP'⟩, attempts', hattempts', hnew'⟩ := h'
  refine ⟨⟨rows' ++ rows, by rw [hrows', hrows, List.append_assoc], fun r hr => ?_⟩,
    ⟨attempts' ++ attempts, by rw [hattempts', hattempts, List.append_assoc], fun a ha => ?_⟩⟩
  · cases List.mem_append.mp hr with
    | inl hr => exact hP' r hr
    | inr hr => exact hP r hr
  · cases List.mem_append.mp ha with
    | inl ha =>
        obtain ⟨hstatus, hintent, hlt⟩ := hnew' a ha
        refine ⟨hstatus, hintent, fun b hb => hlt b ?_⟩
        rw [hattempts]
        exact List.mem_append_right _ hb
    | inr ha => exact hnew a ha

theorem Grows.of_credited {c : Credit} (h : Credited db db' c now) (hc : P c) : Grows P db db' := by
  refine ⟨⟨[db.ledger.newRow c now], h.ledger, fun r hr => ?_⟩, ?_⟩
  · rw [List.mem_singleton.mp hr]
    exact hc
  · cases h.attempts with
    | inl he => exact ⟨[], by rw [he]; rfl, by simp⟩
    | inr hnew =>
        obtain ⟨a, hstatus, hintent, hlt, hrows⟩ := hnew
        refine ⟨[a], hrows, fun b hb => ?_⟩
        rw [List.mem_singleton.mp hb]
        exact ⟨hstatus, hintent, hlt⟩

theorem Grows.of_queued {db₁ : Db} (hl : db₁.ledger = db.ledger) (ha : db₁.attempts = db.attempts)
    (h : Queued db₁ db') : Grows P db db' := by
  cases h with
  | inl he => exact .of_eq (he ▸ hl) (he ▸ ha)
  | inr hnew =>
      obtain ⟨a, hstatus, hintent, hlt, hrows, he⟩ := hnew
      rw [ha] at hlt hrows
      refine ⟨⟨[], by rw [he, hl]; rfl, by simp⟩, [a], hrows, fun b hb => ?_⟩
      rw [List.mem_singleton.mp hb]
      exact ⟨hstatus, hintent, hlt⟩

theorem launch_grows {orgId : Nat} {amount : Int} {expiresAt : Option Int}
    {r : LaunchGrant} (hP : ∀ c : Credit, c.source = .ycLaunch → P c)
    (h : applyYcLaunchGrant db orgId amount expiresAt createdBy now = .ok (db', r)) : Grows P db db' := by
  obtain ⟨o, labels, -, h⟩ := launch_eq_ok h
  have hlabels : Grows P db { db with labels := labels } := .of_eq rfl rfl
  cases h with
  | inl he => exact he ▸ hlabels
  | inr h =>
      obtain ⟨db₁, hgrant, h⟩ := h
      have hfirst := hlabels.trans (.of_credited (insertCredit_eq_ok hgrant) (hP _ rfl))
      cases h with
      | inl he => exact he ▸ hfirst
      | inr h =>
          obtain ⟨promo, -, hfold⟩ := h
          exact hfirst.trans (.of_credited (insertCredit_eq_ok hfold) (hP _ rfl))

theorem expire_grows {scan : ScanOrder} {r : Db × Int} (hP : ∀ c : Credit, c.source = .ycLaunch → P c)
    (h : processExpiringGrants db scan now = .ok r) : Grows P db r.1 := by
  refine foldlM_invariant (I := fun acc => Grows P db acc.1) ?_ _ (db, 0) r h (.of_eq rfl rfl)
  intro acc g acc' hturn hacc
  cases clawBack_eq_ok hturn with
  | inl hstay => exact hstay.1 ▸ hacc
  | inr hcredit =>
      obtain ⟨amount, -, -, -, hcredit⟩ := hcredit
      exact hacc.trans (.of_credited (insertCredit_eq_ok hcredit) (hP _ rfl))

theorem spend_grows {orgId : Nat} {delta now : Int} (h : applyOrgSpendDelta db orgId delta now = .ok db') :
    Grows P db db' := by
  unfold applyOrgSpendDelta at h
  split_ifs at h
  · cases h
    exact .of_eq rfl rfl
  · obtain ⟨db₁, hsame, -, hqueued⟩ := updateCounters_eq_ok h
    exact .of_queued (by rw [hsame]) (by rw [hsame]) hqueued

end grows

/-- The calls that are not reports of the payment provider. -/
def BillingCall.ownCall : BillingCall → Bool
  | .credit c => decide (c.source ≠ .stripe)
  | .rechargeSucceeded _ _ _ _ => false
  | .rechargeFailed _ _ _ => false
  | _ => true

/-- **What the platform's own calls add**: credits that are not the provider's, and pending attempts. -/
theorem execute_grows {db db' : Db} {c : BillingCall} (hc : c.ownCall = true)
    (h : execute db now c = .ok db') : Grows (fun c => c.source ≠ .stripe) db db' := by
  have hlaunch : ∀ c : Credit, c.source = .ycLaunch → c.source ≠ .stripe := by
    intro c hc
    rw [hc]
    simp
  cases c with
  | credit c => exact .of_credited (insertCredit_eq_ok h) (of_decide_eq_true hc)
  | spend orgId delta => exact spend_grows h
  | launch orgId amount expiresAt createdBy =>
      simp only [execute, bind_eq_ok, pure_eq_ok] at h
      obtain ⟨r, hr, rfl⟩ := h
      exact launch_grows hlaunch hr
  | expire scan =>
      simp only [execute, bind_eq_ok, pure_eq_ok] at h
      obtain ⟨r, hr, rfl⟩ := h
      exact expire_grows hlaunch hr
  | saveSettings s =>
      simp only [execute, saveSettings, bind_eq_ok, pure_eq_ok] at h
      obtain ⟨o, -, settings, -, rfl⟩ := h
      exact .of_eq rfl rfl
  | rechargeSucceeded _ _ _ _ => cases hc
  | rechargeFailed _ _ _ => cases hc

end Experiential.Billing
