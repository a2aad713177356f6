import Experiential.Billing.System

/-! # Checkout events

`handleCheckoutCompleted` credits a paid session and, when the payer opted in, saves the card. The
credit is fenced by the session's id. The settings are written on every delivery: processing an event
again leaves everything as it is exactly when the row already holds what the event writes and no
unlock is due (`redelivery_unchanged_iff`), so a redelivery after the customer switched
auto-recharge off switches it on again (`redelivery_rearms`). -/

namespace Experiential.Billing

open Gateway

/-! ### The session -/

/-- The checkout session of an event, with its metadata. The two amounts are what `Number` makes of
the metadata, if that is finite. -/
structure CheckoutSession where
  id : String
  paymentStatus : String
  purpose : Option String
  currency : Option String
  amountSubtotal : Option Int
  amountTotal : Option Int
  clientReferenceId : Option Nat
  orgId : Option Nat
  requestedBy : Option String
  autorecharge : Option String
  threshold : Option Int
  amount : Option Int
  paymentIntent : Option String
  customer : Option String
  email : Option String
deriving DecidableEq

inductive CheckoutAnswer where
  | ignored
  | handled (replay : Bool)
  | error (status : Nat) (message : String)
deriving DecidableEq

def topupPurpose : String := "platform-credit-topup"

namespace CheckoutSession
variable (session : CheckoutSession)

/-- What is to be credited to whom, or the answer to a session that is not ours. -/
def screen : Except CheckoutAnswer (Nat × Int) :=
  if session.paymentStatus ≠ "paid" then .error .ignored
  else if session.purpose ≠ some topupPurpose ∨ session.currency ≠ some "usd" then .error .ignored
  else if session.amountSubtotal.isSome ∧ session.amountSubtotal ≠ session.amountTotal then
    .error (.error 500 "Unhandled pricing configuration.")
  else match session.clientReferenceId.or session.orgId, session.amountTotal with
    | some orgId, some cents => if cents ≤ 0 then .error .ignored else .ok (orgId, cents)
    | _, _ => .error .ignored

def credit (orgId : Nat) (cents : Int) : Credit :=
  ⟨orgId, .topup, cents * 10000, some "Credit top-up", .stripe, some session.id, session.requestedBy, none, none⟩

def optedIn : Prop := session.autorecharge = some "on"

instance : Decidable session.optedIn := inferInstanceAs (Decidable (session.autorecharge = some "on"))

/-- The columns the event writes. -/
def save (customer paymentMethod : String) (now : Int) (r : RechargeSettings) : RechargeSettings :=
  { r with
    enabled := true
    threshold := session.threshold.getD r.threshold
    amount := session.amount.getD r.amount
    stripeCustomerId := some customer
    stripePaymentMethodId := some paymentMethod
    notifyEmail := session.email
    consecutiveFailures := 0
    lastFailureAt := none
    lastFailureMessage := none
    updatedAt := now }

theorem save_orgId (customer paymentMethod : String) (now : Int) (r : RechargeSettings) :
    (session.save customer paymentMethod now r).orgId = r.orgId := rfl

end CheckoutSession

/-! ### Deliveries -/

inductive SpendUnlockRequirement where
  | email
  | card
deriving DecidableEq

structure CheckoutState where
  db : Db
  requirement : SpendUnlockRequirement

/-- The calls of the handler that may fail. -/
inductive CheckoutCall where
  | organization
  | ledger
  | settings
  | requirement
  | unlock
deriving DecidableEq

/-- What one delivery meets: the clock, the failing calls, and the saved payment method of an intent,
if the provider answers with one. -/
structure CheckoutDelivery where
  now : Int
  fails : CheckoutCall → Bool
  paymentMethod : String → Option String

/-- A row of the settings as its defaults have it. -/
def defaultSettings (orgId : Nat) (now : Int) : RechargeSettings :=
  ⟨orgId, true, 10000000, 5000000, none, none, none, none, 0, none, none, now⟩

/-- `upsert .. onConflict org_id` of some columns. -/
def upsertColumns (db : Db) (orgId : Nat) (now : Int) (f : RechargeSettings → RechargeSettings)
    (hf : ∀ r, (f r).orgId = r.orgId) : Except Violation (Table RechargeSettings.orgId RechargeSettings.Check) :=
  if (db.settings.find? orgId).isSome then db.settings.update (fun r => decide (r.orgId = orgId)) f hf
  else db.settings.insert (f (defaultSettings orgId now))

/-- `unlock_org_spend` -/
def unlockOrgSpend (db : Db) (orgId : Nat) (now : Int) : Db :=
  match db.organizations.update (fun o => decide (o.id = orgId) && o.spendUnlockedAt.isNone)
      (fun o => { o with spendUnlockedAt := some now }) (fun _ => rfl) with
  | .ok organizations => { db with organizations := organizations }
  | .error _ => db

section delivery
variable (d : CheckoutDelivery) (s : CheckoutState) (session : CheckoutSession)

/-- An unreadable requirement counts as `email`. -/
def CheckoutDelivery.unlocks : Prop :=
  s.requirement = .card ∧ d.fails .requirement = false ∧ d.fails .unlock = false

instance : Decidable (d.unlocks s) := inferInstanceAs (Decidable (_ ∧ _ ∧ _))

def unlockSpendOnCardSaved (orgId : Nat) : CheckoutState :=
  if d.unlocks s then { s with db := unlockOrgSpend s.db orgId d.now } else s

/-- The customer and the payment method to save. -/
def CheckoutDelivery.card : Option (String × String) :=
  match session.paymentIntent, session.customer with
  | some intent, some customer => (d.paymentMethod intent).map fun method => (customer, method)
  | _, _ => none

def persistAutoRecharge (orgId : Nat) : CheckoutState :=
  match d.card session with
  | none => s
  | some card =>
      if d.fails .settings then s
      else match upsertColumns s.db orgId d.now (session.save card.1 card.2 d.now) (session.save_orgId _ _ _) with
        | .ok settings => unlockSpendOnCardSaved d { s with db := { s.db with settings := settings } } orgId
        | .error _ => s

def handleCheckoutCompleted : CheckoutState × CheckoutAnswer :=
  match session.screen with
  | .error answer => (s, answer)
  | .ok (orgId, cents) =>
      if d.fails .organization then (s, .error 500 "Ledger write failed.")
      else if (s.db.organizations.find? orgId).isNone then (s, .ignored)
      else if d.fails .ledger then (s, .error 500 "Ledger write failed.")
      else match insertCredit s.db (session.credit orgId cents) d.now with
        | .error e =>
            if e.errcode = .c23505 then
              (if session.optedIn then persistAutoRecharge d s session orgId else s, .handled true)
            else (s, .error 500 "Ledger write failed.")
        | .ok db =>
            (if session.optedIn then persistAutoRecharge d { s with db := db } session orgId
              else { s with db := db }, .handled false)

end delivery

/-! ### What happens to an organization -/

/-- The body of a settings `PATCH`. -/
structure SettingsPatch where
  enabled : Option Bool
  amount : Option Int
  threshold : Option Int
deriving DecidableEq

/-- Whole cents within the bounds. -/
def SettingsPatch.Accepted (p : SettingsPatch) : Prop :=
  (∀ a ∈ p.amount, a % 10000 = 0 ∧ 5000000 ≤ a ∧ a ≤ 10000000000) ∧
    ∀ t ∈ p.threshold, t % 10000 = 0 ∧ 0 ≤ t ∧ t ≤ 10000000000

instance (p : SettingsPatch) : Decidable p.Accepted := inferInstanceAs (Decidable (_ ∧ _))

def SettingsPatch.save (p : SettingsPatch) (now : Int) (r : RechargeSettings) : RechargeSettings :=
  { r with
    enabled := p.enabled.getD r.enabled
    amount := p.amount.getD r.amount
    threshold := p.threshold.getD r.threshold
    consecutiveFailures := 0
    lastFailureAt := none
    lastFailureMessage := none
    updatedAt := now }

def patchSettings (p : SettingsPatch) (orgId : Nat) (now : Int) (db : Db) : Db :=
  if p.Accepted ∧ (db.organizations.find? orgId).isSome then
    match upsertColumns db orgId now (p.save now) (fun _ => rfl) with
    | .ok settings => { db with settings := settings }
    | .error _ => db
  else db

inductive CheckoutStep where
  | deliver (d : CheckoutDelivery) (session : CheckoutSession)
  | patch (p : SettingsPatch) (orgId : Nat) (now : Int)
  | billing (now : Int) (c : BillingCall)
  | unlock (orgId : Nat) (now : Int)
  | setRequirement (requirement : SpendUnlockRequirement)

def checkoutStep (s : CheckoutState) : CheckoutStep → CheckoutState
  | .deliver d session => (handleCheckoutCompleted d s session).1
  | .patch p orgId now => { s with db := patchSettings p orgId now s.db }
  | .billing now c => { s with db := orStay (fun db c => execute db now c) s.db c }
  | .unlock orgId now => { s with db := unlockOrgSpend s.db orgId now }
  | .setRequirement requirement => { s with requirement := requirement }

/-! ### The credit is there for good -/

section ledger
variable {d : CheckoutDelivery} {s : CheckoutState} {session : CheckoutSession} {orgId : Nat} {now : Int}

theorem unlockOrgSpend_same (db : Db) (orgId : Nat) (now : Int) : (unlockOrgSpend db orgId now).ledger = db.ledger ∧
    (unlockOrgSpend db orgId now).settings = db.settings := by
  unfold unlockOrgSpend
  split <;> exact ⟨rfl, rfl⟩

theorem unlockSpendOnCardSaved_same : (unlockSpendOnCardSaved d s orgId).db.ledger = s.db.ledger ∧
    (unlockSpendOnCardSaved d s orgId).db.settings = s.db.settings := by
  unfold unlockSpendOnCardSaved
  split
  · exact unlockOrgSpend_same s.db _ _
  · exact ⟨rfl, rfl⟩

theorem persistAutoRecharge_ledger : (persistAutoRecharge d s session orgId).db.ledger = s.db.ledger := by
  unfold persistAutoRecharge
  split
  · rfl
  · split
    · rfl
    · split
      · exact unlockSpendOnCardSaved_same.1
      · rfl

/-- No row of the ledger is ever lost. -/
def LedgerKept (db db' : Db) : Prop := ∀ r ∈ db.ledger.rows, r ∈ db'.ledger.rows

theorem LedgerKept.of_eq {db db' : Db} (h : db'.ledger = db.ledger) : LedgerKept db db' := fun r hr => by
  rw [h]
  exact hr

theorem handleCheckoutCompleted_kept : LedgerKept s.db (handleCheckoutCompleted d s session).1.db := by
  unfold handleCheckoutCompleted
  split
  · exact .of_eq rfl
  · split
    · exact .of_eq rfl
    · split
      · exact .of_eq rfl
      · split
        · exact .of_eq rfl
        · split
          · split
            · simp only
              split
              · exact .of_eq persistAutoRecharge_ledger
              · exact .of_eq rfl
            · exact .of_eq rfl
          · next db hinsert =>
            have hmem : LedgerKept s.db db := (insertCredit_eq_ok hinsert).mem
            simp only
            split
            · intro r hr
              rw [persistAutoRecharge_ledger]
              exact hmem r hr
            · exact hmem

theorem execute_kept {db db' : Db} {c : BillingCall} (h : execute db now c = .ok db') : LedgerKept db db' := by
  by_cases hown : c.ownCall = true
  · obtain ⟨new, hrows, -⟩ := (execute_grows hown h).ledger
    intro r hr
    rw [hrows]
    exact List.mem_append_right _ hr
  · cases c with
    | credit c => exact (insertCredit_eq_ok h).mem
    | rechargeSucceeded orgId intent amount createdBy =>
        simp only [execute, bind_eq_ok, pure_eq_ok] at h
        obtain ⟨r, hr, rfl⟩ := h
        exact (recordSuccess_sameGrants hr).rows
    | rechargeFailed orgId intent message =>
        simp only [execute, recordAutoRechargeFailure, bind_eq_ok, write_eq_ok] at h
        obtain ⟨attempts, -, h⟩ := h
        split at h
        · simp only [bind_eq_ok, write_eq_ok, pure_eq_ok] at h
          obtain ⟨settings, -, rfl⟩ := h
          exact .of_eq rfl
        · cases h
          exact .of_eq rfl
    | _ => exact absurd rfl hown

theorem checkoutStep_kept (s : CheckoutState) (step : CheckoutStep) : LedgerKept s.db (checkoutStep s step).db := by
  cases step with
  | deliver d session => exact handleCheckoutCompleted_kept
  | patch p orgId now =>
      simp only [checkoutStep, patchSettings]
      split
      · split <;> exact .of_eq rfl
      · exact .of_eq rfl
  | billing now c =>
      refine orStay_preserves (I := LedgerKept s.db) ?_ (.of_eq rfl)
      intro db' h _
      exact execute_kept h
  | unlock orgId now => exact .of_eq (unlockOrgSpend_same s.db orgId now).1
  | setRequirement requirement => exact .of_eq rfl

/-- The run rule: a reference in the ledger stays. -/
theorem conflict_run {c : Credit} (h : s.db.ledger.conflict c = true) (steps : List CheckoutStep) :
    (run checkoutStep s steps).db.ledger.conflict c = true := by
  refine run_invariant_of_forall (I := fun s : CheckoutState => s.db.ledger.conflict c = true) ?_ steps s h
  intro s step hs
  rw [CreditLedger.conflict, List.any_eq_true] at hs ⊢
  obtain ⟨r, hr, hsame⟩ := hs
  exact ⟨r, checkoutStep_kept s step r hr, hsame⟩

/-- A handled session passed every check, and its credit is in the ledger. -/
theorem handled_credit {replay : Bool} (h : (handleCheckoutCompleted d s session).2 = .handled replay) :
    ∃ orgId cents, session.screen = .ok (orgId, cents) ∧ (session.credit orgId cents).Check ∧
      (handleCheckoutCompleted d s session).1.db.ledger.conflict (session.credit orgId cents) = true := by
  cases hscreen : session.screen with
  | error answer =>
      have hanswer : ∀ replay, answer ≠ .handled replay := by
        intro replay heq
        rw [heq] at hscreen
        unfold CheckoutSession.screen at hscreen
        repeat' split at hscreen
        all_goals cases hscreen
      simp only [handleCheckoutCompleted, hscreen] at h
      exact absurd h (hanswer replay)
  | ok target =>
      obtain ⟨orgId, cents⟩ := target
      refine ⟨orgId, cents, rfl, ?_⟩
      have hkept : LedgerKept s.db (handleCheckoutCompleted d s session).1.db := handleCheckoutCompleted_kept
      simp only [handleCheckoutCompleted, hscreen] at h hkept ⊢
      split at h
      · cases h
      · next horg =>
        rw [if_neg horg] at hkept ⊢
        split at h
        · cases h
        · next hfound =>
          rw [if_neg hfound] at hkept ⊢
          split at h
          · cases h
          · next hledger =>
            rw [if_neg hledger] at hkept ⊢
            cases hinsert : insertCredit s.db (session.credit orgId cents) d.now with
            | error e =>
                simp only [hinsert] at h hkept ⊢
                split at h
                · next hdup =>
                  have hconf := conflict_of_insertCredit hinsert hdup
                  rw [if_pos hdup] at hkept ⊢
                  refine ⟨?_, ?_⟩
                  · -- a refused row of the check would have raised the other error
                    by_contra hcheck
                    rw [insertCredit, CreditLedger.insert, dif_neg hcheck] at hinsert
                    cases hinsert
                    cases hdup
                  · rw [CreditLedger.conflict, List.any_eq_true] at hconf ⊢
                    obtain ⟨r, hr, hsame⟩ := hconf
                    exact ⟨r, hkept r hr, hsame⟩
                · cases h
            | ok db =>
                simp only [hinsert] at hkept ⊢
                have hcredited := insertCredit_eq_ok hinsert
                refine ⟨hcredited.check, ?_⟩
                have hrow : s.db.ledger.newRow (session.credit orgId cents) d.now ∈ db.ledger.rows := by
                  rw [hcredited.ledger]
                  exact List.mem_cons_self
                rw [CreditLedger.conflict, List.any_eq_true]
                refine ⟨s.db.ledger.newRow (session.credit orgId cents) d.now, ?_,
                  decide_eq_true ⟨by simp [CheckoutSession.credit], rfl, rfl⟩⟩
                split
                · rw [persistAutoRecharge_ledger]
                  exact hrow
                · exact hrow

end ledger

/-! ### Redelivery -/

/-- A row but for the time of its last write. -/
def RechargeSettings.content (r : RechargeSettings) : RechargeSettings := { r with updatedAt := 0 }

/-- The credits, the settings and the unlocks are the same. -/
structure Unchanged (s s' : CheckoutState) : Prop where
  ledger : s'.db.ledger.rows = s.db.ledger.rows
  settings : ∀ orgId, (s'.db.settings.find? orgId).map RechargeSettings.content =
    (s.db.settings.find? orgId).map RechargeSettings.content
  unlock : ∀ orgId, (s'.db.organizations.find? orgId).map (·.spendUnlockedAt) =
    (s.db.organizations.find? orgId).map (·.spendUnlockedAt)

theorem Unchanged.refl (s : CheckoutState) : Unchanged s s := ⟨rfl, fun _ => rfl, fun _ => rfl⟩

/-- The settings take the event's amounts. -/
def CheckoutSession.AmountsAdmitted (session : CheckoutSession) : Prop :=
  (∀ t ∈ session.threshold, 0 ≤ t ∧ Numeric14 t) ∧ ∀ a ∈ session.amount, 5000000 ≤ a ∧ a ≤ 10000000000

/-- The row holds what the event writes. -/
structure AlreadySaved (session : CheckoutSession) (card : String × String) (r : RechargeSettings) : Prop where
  enabled : r.enabled = true
  threshold : ∀ t ∈ session.threshold, r.threshold = t
  amount : ∀ a ∈ session.amount, r.amount = a
  customer : r.stripeCustomerId = some card.1
  paymentMethod : r.stripePaymentMethodId = some card.2
  email : r.notifyEmail = session.email
  failures : r.consecutiveFailures = 0 ∧ r.lastFailureAt = none ∧ r.lastFailureMessage = none

/-- The delivery gets to the settings, with a card they take. -/
structure Saves (d : CheckoutDelivery) (s : CheckoutState) (session : CheckoutSession) (orgId : Nat)
    (card : String × String) : Prop where
  ours : ∃ cents, session.screen = .ok (orgId, cents)
  found : (s.db.organizations.find? orgId).isSome = true
  calls : d.fails .organization = false ∧ d.fails .ledger = false ∧ d.fails .settings = false
  optedIn : session.optedIn
  card : d.card session = some card
  admitted : session.AmountsAdmitted

/-- The event writes what is there, and unlocks nothing that is locked. -/
def RedeliveryHarmless (d : CheckoutDelivery) (s : CheckoutState) (session : CheckoutSession) : Prop :=
  ∀ orgId card, Saves d s session orgId card →
    (∃ r, s.db.settings.find? orgId = some r ∧ AlreadySaved session card r) ∧
      (d.unlocks s → ∀ o, s.db.organizations.find? orgId = some o → o.spendUnlockedAt.isSome = true)

section redelivery
variable {d : CheckoutDelivery} {s : CheckoutState} {session : CheckoutSession} {orgId : Nat} {now : Int}

theorem getD_eq_self_iff {α : Type} {o : Option α} {a : α} : o.getD a = a ↔ ∀ b ∈ o, a = b := by
  cases o with
  | none => simp
  | some b => simp [eq_comm]

theorem content_save_iff {card : String × String} {r : RechargeSettings} :
    (session.save card.1 card.2 now r).content = r.content ↔ AlreadySaved session card r := by
  constructor
  · intro h
    simp only [CheckoutSession.save, RechargeSettings.content, RechargeSettings.mk.injEq, getD_eq_self_iff] at h
    obtain ⟨-, hen, hthr, hamt, hcust, hpm, hemail, -, hfail, hat, hmsg, -⟩ := h
    exact ⟨hen.symm, hthr, hamt, hcust.symm, hpm.symm, hemail.symm, hfail.symm, hat.symm, hmsg.symm⟩
  · rintro ⟨hen, hthr, hamt, hcust, hpm, hemail, hfail, hat, hmsg⟩
    simp only [CheckoutSession.save, RechargeSettings.content, RechargeSettings.mk.injEq, getD_eq_self_iff]
    exact ⟨trivial, hen.symm, hthr, hamt, hcust.symm, hpm.symm, hemail.symm, trivial, hfail.symm, hat.symm,
      hmsg.symm, trivial⟩

theorem check_save {customer method : String} {r : RechargeSettings} (h : r.Check) :
    (session.save customer method now r).Check ↔ session.AmountsAdmitted := by
  obtain ⟨hthr, hnum, hlow, hhigh, -⟩ := h
  simp only [RechargeSettings.Check, CheckoutSession.save, CheckoutSession.AmountsAdmitted]
  cases session.threshold with
  | none =>
      cases session.amount with
      | none => simp [hthr, hnum, hlow, hhigh]
      | some a => simp [hthr, hnum]
  | some t =>
      cases session.amount with
      | none => simp [hlow, hhigh]
      | some a => simp [and_assoc]

theorem check_defaultSettings : (defaultSettings orgId now).Check := by
  simp [RechargeSettings.Check, defaultSettings, Numeric14]

section upsert
variable {db : Db} {f : RechargeSettings → RechargeSettings} {hf : ∀ r, (f r).orgId = r.orgId}

theorem upsertColumns_of_some {r : RechargeSettings} (h : db.settings.find? orgId = some r) :
    upsertColumns db orgId now f hf = db.settings.update (fun r => decide (r.orgId = orgId)) f hf := by
  unfold upsertColumns
  rw [if_pos (by rw [h]; rfl)]

theorem upsertColumns_of_none (h : db.settings.find? orgId = none) :
    upsertColumns db orgId now f hf = db.settings.insert (f (defaultSettings orgId now)) := by
  unfold upsertColumns
  rw [if_neg (by rw [h]; simp)]

end upsert

theorem upsertColumns_save (db : Db) (session : CheckoutSession) (orgId : Nat) (now : Int) (card : String × String) :
    (session.AmountsAdmitted ∧ ∃ t, upsertColumns db orgId now (session.save card.1 card.2 now) (session.save_orgId _ _ _) = .ok t ∧
      ∀ k, t.find? k = if k = orgId then
        some (session.save card.1 card.2 now ((db.settings.find? orgId).getD (defaultSettings orgId now)))
      else db.settings.find? k) ∨
    (¬ session.AmountsAdmitted ∧
      ∃ v, upsertColumns db orgId now (session.save card.1 card.2 now) (session.save_orgId _ _ _) = .error v) := by
  cases hrow : db.settings.find? orgId with
  | some r =>
      have hr := (Table.find?_eq_some.mp hrow).1
      have hkey : r.orgId = orgId := (Table.find?_eq_some.mp hrow).2
      rw [upsertColumns_of_some hrow]
      cases hup : db.settings.update (fun r => decide (r.orgId = orgId)) (session.save card.1 card.2 now)
          (session.save_orgId _ _ _) with
      | ok t =>
          refine .inl ⟨?_, t, rfl, ?_⟩
          · exact (check_save (db.settings.checked r hr)).mp ((Table.update_eq_ok hup).1 r hr (by simpa using hkey))
          · intro k
            rw [Table.find?_update_key hup k]
            split
            · next hk =>
              rw [hk, hrow]
              rfl
            · rfl
      | error v =>
          refine .inr ⟨?_, v, rfl⟩
          intro hadmitted
          unfold Table.update at hup
          split at hup
          · cases hup
          · next hnot =>
            exact hnot fun q hq _ => (check_save (db.settings.checked q hq)).mpr hadmitted
  | none =>
      rw [upsertColumns_of_none hrow]
      cases hins : db.settings.insert (session.save card.1 card.2 now (defaultSettings orgId now)) with
      | ok t =>
          refine .inl ⟨(check_save check_defaultSettings).mp (Table.insert_eq_ok hins).2.1, t, rfl, ?_⟩
          intro k
          have hkey : (session.save card.1 card.2 now (defaultSettings orgId now)).orgId = orgId := rfl
          rw [Table.find?_insert hins k, hkey]
          by_cases hk : k = orgId
          · rw [if_pos hk, if_pos hk.symm]
            rfl
          · rw [if_neg hk, if_neg (Ne.symm hk)]
      | error v =>
          refine .inr ⟨?_, v, rfl⟩
          intro hadmitted
          unfold Table.insert at hins
          split at hins
          · next hin =>
            obtain ⟨r, hr, hkey⟩ := List.mem_map.mp hin
            exact Table.find?_eq_none.mp hrow r hr hkey
          · split at hins
            · cases hins
            · next hnot => exact hnot ((check_save check_defaultSettings).mpr hadmitted)

theorem find?_unlockOrgSpend (db : Db) (k : Nat) : (unlockOrgSpend db orgId now).organizations.find? k =
    (db.organizations.find? k).map fun o =>
      if decide (o.id = orgId) && o.spendUnlockedAt.isNone then { o with spendUnlockedAt := some now } else o := by
  unfold unlockOrgSpend
  split
  · next t hup => exact Table.find?_update hup k
  · next v hup =>
    unfold Table.update at hup
    split at hup
    · cases hup
    · next hnot => exact absurd (fun o ho _ => db.organizations.checked o ho) hnot

/-- An unlock changes nothing exactly when the organization is unlocked. -/
theorem unlockOrgSpend_unchanged_iff (db : Db) (orgId : Nat) (now : Int) :
    (∀ k, ((unlockOrgSpend db orgId now).organizations.find? k).map (·.spendUnlockedAt) =
      (db.organizations.find? k).map (·.spendUnlockedAt)) ↔
    ∀ o, db.organizations.find? orgId = some o → o.spendUnlockedAt.isSome = true := by
  constructor
  · intro h o ho
    have hk := h orgId
    have hid : o.id = orgId := (Table.find?_eq_some.mp ho).2
    rw [find?_unlockOrgSpend, ho] at hk
    cases hlock : o.spendUnlockedAt with
    | some t => rfl
    | none => simp [hid, hlock] at hk
  · intro h k
    rw [find?_unlockOrgSpend]
    cases ho : db.organizations.find? k with
    | none => rfl
    | some o =>
        simp only [Option.map_some, Option.some.injEq]
        split
        · next hlocked =>
          rw [Bool.and_eq_true, decide_eq_true_iff] at hlocked
          have hid : o.id = k := (Table.find?_eq_some.mp ho).2
          have hsome := h o (by rw [← hlocked.1, hid, ho])
          rw [Option.isNone_iff_eq_none] at hlocked
          rw [hlocked.2] at hsome
          cases hsome
        · rfl

theorem persistAutoRecharge_unchanged_iff :
    Unchanged s (persistAutoRecharge d s session orgId) ↔
      ∀ card, d.card session = some card → d.fails .settings = false → session.AmountsAdmitted →
        (∃ r, s.db.settings.find? orgId = some r ∧ AlreadySaved session card r) ∧
          (d.unlocks s → ∀ o, s.db.organizations.find? orgId = some o → o.spendUnlockedAt.isSome = true) := by
  unfold persistAutoRecharge
  cases hcard : d.card session with
  | none => exact iff_of_true (.refl s) (by simp)
  | some card =>
      simp only [Option.some.injEq, forall_eq']
      cases hfail : d.fails .settings with
      | true => exact iff_of_true (.refl s) (by simp)
      | false =>
          simp only [Bool.false_eq_true, if_false, forall_const]
          rcases upsertColumns_save s.db session orgId d.now card with
            ⟨hadmitted, t, hup, hfind⟩ | ⟨hrefused, v, hup⟩
          · rw [hup]
            simp only [hadmitted, forall_const]
            have hsettings : (∀ k, (t.find? k).map RechargeSettings.content =
                (s.db.settings.find? k).map RechargeSettings.content) ↔
                ∃ r, s.db.settings.find? orgId = some r ∧ AlreadySaved session card r := by
              constructor
              · intro h
                have hk := h orgId
                rw [hfind, if_pos rfl] at hk
                cases hrow : s.db.settings.find? orgId with
                | none =>
                    rw [hrow] at hk
                    cases hk
                | some r =>
                    rw [hrow] at hk
                    exact ⟨r, rfl, content_save_iff.mp (Option.some.inj hk)⟩
              · rintro ⟨r, hrow, hsaved⟩ k
                rw [hfind]
                split
                · next hk =>
                  rw [hk, hrow]
                  exact congrArg some (content_save_iff.mpr hsaved)
                · rfl
            unfold unlockSpendOnCardSaved
            split
            · next hunlocks =>
              have hunlocks : d.unlocks s := hunlocks
              have hlock := unlockOrgSpend_unchanged_iff { s.db with settings := t } orgId d.now
              have hsame := unlockOrgSpend_same { s.db with settings := t } orgId d.now
              constructor
              · intro h
                refine ⟨hsettings.mp fun k => ?_, fun _ => hlock.mp h.unlock⟩
                have hk := h.settings k
                rw [hsame.2] at hk
                exact hk
              · rintro ⟨hrow, hopen⟩
                refine ⟨by rw [hsame.1], fun k => ?_, hlock.mpr (hopen hunlocks)⟩
                rw [hsame.2]
                exact hsettings.mpr hrow k
            · next hunlocks =>
              have hunlocks : ¬ d.unlocks s := hunlocks
              constructor
              · exact fun h => ⟨hsettings.mp h.settings, fun hu => absurd hu hunlocks⟩
              · exact fun h => ⟨rfl, hsettings.mpr h.1, fun _ => rfl⟩
          · rw [hup]
            exact iff_of_true (.refl s) fun h => absurd h hrefused

/-- **Redelivery.**  After an event was handled, and whatever happened since, processing it again
leaves the ledger, the settings and the unlock as they are exactly when it is harmless. -/
theorem redelivery_unchanged_iff (s : CheckoutState) (session : CheckoutSession) (first second : CheckoutDelivery)
    (replay : Bool) (h : (handleCheckoutCompleted first s session).2 = .handled replay) (steps : List CheckoutStep) :
    Unchanged (run checkoutStep (handleCheckoutCompleted first s session).1 steps)
        (handleCheckoutCompleted second
          (run checkoutStep (handleCheckoutCompleted first s session).1 steps) session).1 ↔
      RedeliveryHarmless second (run checkoutStep (handleCheckoutCompleted first s session).1 steps) session := by
  obtain ⟨orgId, cents, hscreen, hcheck, hconflict⟩ := handled_credit h
  have hconflict := conflict_run hconflict steps
  generalize run checkoutStep (handleCheckoutCompleted first s session).1 steps = later at hconflict ⊢
  -- the credit is refused as a duplicate
  have hinsert : insertCredit later.db (session.credit orgId cents) second.now = .error (ofViolation .unique) := by
    rw [insertCredit, CreditLedger.insert, dif_pos hcheck, dif_pos hconflict]
    rfl
  have hours : ∀ o card, Saves second later session o card → o = orgId := by
    intro o card hs
    obtain ⟨cents', hscreen'⟩ := hs.ours
    rw [hscreen] at hscreen'
    cases hscreen'
    rfl
  unfold handleCheckoutCompleted
  simp only [hscreen, hinsert]
  by_cases hreach : second.fails .organization = false ∧ (later.db.organizations.find? orgId).isSome = true ∧
      second.fails .ledger = false ∧ session.optedIn
  · obtain ⟨horg, hfound, hledger, hopted⟩ := hreach
    have hsome : (later.db.organizations.find? orgId).isNone = false := by simpa using hfound
    rw [horg, hsome, hledger, if_pos hopted]
    simp only [Bool.false_eq_true, if_false, ofViolation, raised, if_true]
    rw [persistAutoRecharge_unchanged_iff]
    constructor
    · intro hall o card hs
      obtain rfl := hours o card hs
      exact hall card hs.card hs.calls.2.2 hs.admitted
    · intro hharmless card hcard hfail hadmitted
      exact hharmless orgId card ⟨⟨cents, hscreen⟩, hfound, ⟨horg, hledger, hfail⟩, hopted, hcard, hadmitted⟩
  · refine iff_of_true ?_ ?_
    · split
      · exact .refl later
      · split
        · exact .refl later
        · split
          · exact .refl later
          · next horg hfound hledger =>
            rw [if_pos (show (ofViolation .unique).errcode = .c23505 from rfl), if_neg ?_]
            · exact .refl later
            · intro hopted
              refine hreach ⟨by simpa using horg, ?_, by simpa using hledger, hopted⟩
              simpa [Option.isSome_iff_ne_none] using hfound
    · intro o card hs
      obtain rfl := hours o card hs
      exact absurd ⟨hs.calls.1, hs.found, hs.calls.2.1, hs.optedIn⟩ hreach

end redelivery

/-- One organization without credits or settings. -/
def checkoutStart : CheckoutState where
  db := {
    organizations := ⟨[⟨1, 0, 0, none, none, 0⟩], by decide, by decide⟩
    labels := []
    ledger := .empty
    settings := .empty
    attempts := .empty }
  requirement := .email

/-- A paid session whose payer opted in. -/
def optedInSession : CheckoutSession where
  id := "cs_1"
  paymentStatus := "paid"
  purpose := some topupPurpose
  currency := some "usd"
  amountSubtotal := some 2500
  amountTotal := some 2500
  clientReferenceId := some 1
  orgId := some 1
  requestedBy := none
  autorecharge := some "on"
  threshold := none
  amount := some 5000000
  paymentIntent := some "pi_1"
  customer := some "cus_1"
  email := none

def soundDelivery (now : Int) : CheckoutDelivery := ⟨now, fun _ => false, fun _ => some "pm_1"⟩

/-- The customer switches auto-recharge off. -/
def switchOff : List CheckoutStep := [.patch ⟨some false, none, none⟩ 1 1]

/-- The organization spends a dollar, and an operator unlocks it. -/
def spentSince : List CheckoutStep := [.billing 1 (.spend 1 1000000), .unlock 1 1]

theorem redelivery_unchanged_sample :
    Unchanged (run checkoutStep (handleCheckoutCompleted (soundDelivery 0) checkoutStart optedInSession).1 spentSince)
      (handleCheckoutCompleted (soundDelivery 2)
        (run checkoutStep (handleCheckoutCompleted (soundDelivery 0) checkoutStart optedInSession).1 spentSince)
        optedInSession).1 := by
  refine (redelivery_unchanged_iff checkoutStart optedInSession (soundDelivery 0) (soundDelivery 2) false
    (by decide +kernel) spentSince).mpr ?_
  intro orgId card hs
  obtain ⟨cents, hscreen⟩ := hs.ours
  have horg : optedInSession.screen = .ok (1, 2500) := by decide
  have hcard : card = ("cus_1", "pm_1") := Option.some.inj (hs.card.symm.trans rfl)
  rw [horg] at hscreen
  cases hscreen
  refine ⟨⟨_, rfl, ?_⟩, fun hu => absurd hu (by decide +kernel)⟩
  rw [hcard]
  exact ⟨rfl, by simp [optedInSession], by decide +kernel, rfl, rfl, rfl, rfl, rfl, rfl⟩

theorem redelivery_rearms :
    (handleCheckoutCompleted (soundDelivery 0) checkoutStart optedInSession).2 = .handled false ∧
      ((handleCheckoutCompleted (soundDelivery 0) checkoutStart optedInSession).1.db.settings.find? 1).map
        (·.stripePaymentMethodId) = some (some "pm_1") ∧
      ¬ Unchanged (run checkoutStep (handleCheckoutCompleted (soundDelivery 0) checkoutStart optedInSession).1 switchOff)
        (handleCheckoutCompleted (soundDelivery 2)
          (run checkoutStep (handleCheckoutCompleted (soundDelivery 0) checkoutStart optedInSession).1 switchOff)
          optedInSession).1 := by
  refine ⟨by decide +kernel, by decide +kernel, ?_⟩
  intro h
  have hoff : ((run checkoutStep (handleCheckoutCompleted (soundDelivery 0) checkoutStart optedInSession).1
      switchOff).db.settings.find? 1).map (fun r => r.content.enabled) = some false := by decide +kernel
  have hon : ((handleCheckoutCompleted (soundDelivery 2)
      (run checkoutStep (handleCheckoutCompleted (soundDelivery 0) checkoutStart optedInSession).1 switchOff)
      optedInSession).1.db.settings.find? 1).map (fun r => r.content.enabled) = some true := by decide +kernel
  have hsame := congrArg (Option.map RechargeSettings.enabled) (h.settings 1)
  rw [Option.map_map, Option.map_map] at hsame
  exact absurd (hon.symm.trans (hsame.trans hoff)) (by decide)

end Experiential.Billing
