import Experiential.Billing.ReplayedSuccess

/-! # Books and the queue

The granted credit of an organization is the sum of its ledger rows, and an attempt enters the queue only while
the settings are armed and the balance is below the threshold: `rechargeStep_keeps` says so of every step. -/

namespace Experiential.Billing

open Gateway

/-! ### Books -/

/-- The granted credit of every organization is the sum of its ledger rows. -/
def Booked (db : Db) : Prop := ∀ i o, db.organizations.find? i = some o →
  o.creditGranted = db.ledger.sumWhere (fun r => decide (r.orgId = i)) (·.amount)

variable {db db' : Db}

theorem Booked.of_eq (h : Booked db) (ho : db'.organizations = db.organizations)
    (hl : db'.ledger = db.ledger) : Booked db' := by
  unfold Booked
  rw [ho, hl]
  exact h

variable {now : Int}

theorem Booked.credited {c : Credit} (h : Booked db) (hc : Credited db db' c now) : Booked db' := by
  intro i o ho
  have hsum : db'.ledger.sumWhere (fun r => decide (r.orgId = i)) (·.amount) =
      (if c.orgId = i then c.amount else 0) + db.ledger.sumWhere (fun r => decide (r.orgId = i)) (·.amount) := by
    simp only [Table.sumWhere_eq, hc.ledger, List.map_cons, List.sum_cons, Table.share, decide_eq_true_eq]
    rfl
  rw [hc.organizations] at ho
  rw [hsum]
  split_ifs at ho with hi
  · obtain ⟨o₀, ho₀, rfl⟩ := Option.map_eq_some_iff.mp ho
    rw [if_pos hi.symm, ← h i o₀ ho₀, add_comm]
  · rw [if_neg (Ne.symm hi), zero_add]
    exact h i o ho

/-! ### Queueing -/

/-- The guards hold for an attempt of the organization. -/
structure Guarded (db : Db) (now : Int) (orgId : Nat) : Prop where
  armed : ∃ s, db.settings.find? orgId = some s ∧ s.armed now = true ∧
    ∃ o, db.organizations.find? orgId = some o ∧ balance o < s.threshold

/-- Every attempt was there, or is pending and was queued under the guards. -/
def QueuedUnder (now : Int) (db db' : Db) : Prop := ∀ a ∈ db'.attempts.rows,
  a ∈ db.attempts.rows ∨ a.status = .pending ∧ Guarded db' now a.orgId

theorem QueuedUnder.of_eq (h : db'.attempts = db.attempts) : QueuedUnder now db db' := by
  intro a ha
  rw [h] at ha
  exact .inl ha

/-- No balance was raised, and the settings are the same. -/
structure Lowers (db db' : Db) : Prop where
  settings : db'.settings = db.settings
  balance : ∀ i o, db.organizations.find? i = some o →
    ∃ o', db'.organizations.find? i = some o' ∧ Billing.balance o' ≤ Billing.balance o

variable {orgId : Nat}

theorem Guarded.lowered (h : Guarded db now orgId) (hl : Lowers db db') : Guarded db' now orgId := by
  obtain ⟨s, hs, harmed, o, ho, hlow⟩ := h.armed
  obtain ⟨o', ho', hle⟩ := hl.balance orgId o ho
  exact ⟨s, by rw [hl.settings, hs], harmed, o', ho', lt_of_le_of_lt hle hlow⟩

theorem QueuedUnder.trans {db db₁ db₂ : Db} (h : QueuedUnder now db db₁) (h' : QueuedUnder now db₁ db₂)
    (hl : Lowers db₁ db₂) : QueuedUnder now db db₂ := by
  intro a ha
  obtain ha | hnew := h' a ha
  · obtain ha | ⟨hpending, hguarded⟩ := h a ha
    · exact .inl ha
    · exact .inr ⟨hpending, hguarded.lowered hl⟩
  · exact .inr hnew

theorem enqueue_queuedUnder {queued : Option Nat}
    (h : enqueueAutoRechargeIfLow db orgId now = .ok (db', queued)) : QueuedUnder now db db' := by
  unfold enqueueAutoRechargeIfLow at h
  split at h
  · next s o hs ho =>
    have hid : s.orgId = orgId := (Table.find?_eq_some.mp hs).2
    split_ifs at h with hguards
    · split at h
      · next attempts hinsert =>
        cases h
        have hrows := (Table.insert_eq_ok (RechargeAttempts.ofTable_eq_ok.mp hinsert)).2.2
        intro a ha
        have ha : a ∈ newAttempt db s (balance o) now :: db.attempts.rows := hrows ▸ ha
        obtain rfl | ha := List.mem_cons.mp ha
        · refine .inr ⟨rfl, ⟨s, ?_, hguards.1, o, ?_, hguards.2⟩⟩
          · exact (congrArg db.settings.find? hid).trans hs
          · exact (congrArg db.organizations.find? hid).trans ho
        · exact .inl ha
      · cases h
        exact .of_eq rfl
      · cases h
    · cases h
      exact .of_eq rfl
  · cases h
    exact .of_eq rfl

/-- An update of the counters queues under the guards, and only when it lowers the balance. -/
theorem updateCounters_queuedUnder {f : Organization → Organization}
    {hf : ∀ o, (f o).id = o.id} (h : updateCounters db orgId f hf now = .ok db') :
    QueuedUnder now db db' ∧ ((∀ o, balance o ≤ balance (f o)) → db'.attempts = db.attempts) := by
  unfold updateCounters at h
  split at h
  · cases h
    exact ⟨.of_eq rfl, fun _ => rfl⟩
  · next old _ =>
    simp only [bind_eq_ok, write_eq_ok] at h
    obtain ⟨organizations, -, h⟩ := h
    split_ifs at h with hdrop
    · simp only [bind_eq_ok, pure_eq_ok] at h
      obtain ⟨queued, hqueued, rfl⟩ := h
      have henqueued : QueuedUnder now { db with organizations := organizations } queued.1 :=
        enqueue_queuedUnder hqueued
      exact ⟨henqueued, fun hraise => absurd hdrop (not_lt.mpr (hraise old))⟩
    · cases h
      exact ⟨.of_eq rfl, fun _ => rfl⟩

/-! ### The platform's own calls -/

/-- What a call of the platform does. -/
structure OwnEffect (now : Int) (db db' : Db) : Prop where
  settings : db'.settings = db.settings
  books : Booked db → Booked db'
  queued : QueuedUnder now db db'

theorem OwnEffect.refl (now : Int) (db : Db) : OwnEffect now db db := ⟨rfl, id, .of_eq rfl⟩

theorem OwnEffect.trans {db db₁ db₂ : Db} (h : OwnEffect now db db₁) (h' : OwnEffect now db₁ db₂)
    (hl : Lowers db₁ db₂) : OwnEffect now db db₂ :=
  ⟨h'.settings.trans h.settings, fun hdb => h'.books (h.books hdb), h.queued.trans h'.queued hl⟩

theorem insertCredit_queuedUnder {c : Credit} (h : insertCredit db c now = .ok db') :
    QueuedUnder now db db' ∧ (0 ≤ c.amount → db'.attempts = db.attempts) := by
  simp only [insertCredit, bind_eq_ok, write_eq_ok] at h
  obtain ⟨ledger, -, h⟩ := h
  split_ifs at h
  obtain ⟨hqueued, hraise⟩ := updateCounters_queuedUnder h
  refine ⟨hqueued, fun hpos => hraise fun o => ?_⟩
  unfold Billing.balance
  simp only
  omega

theorem insertCredit_own {c : Credit} (h : insertCredit db c now = .ok db') : OwnEffect now db db' :=
  ⟨(insertCredit_eq_ok h).settings, fun hdb => hdb.credited (insertCredit_eq_ok h), (insertCredit_queuedUnder h).1⟩

theorem Credited.lowers {c : Credit} (h : Credited db db' c now) (hc : c.amount ≤ 0) : Lowers db db' := by
  refine ⟨h.settings, fun i o ho => ?_⟩
  rw [h.organizations, ho]
  split_ifs
  · refine ⟨_, rfl, ?_⟩
    unfold Billing.balance
    simp only
    omega
  · exact ⟨o, rfl, le_refl _⟩

theorem spend_own {delta now : Int} (h : applyOrgSpendDelta db orgId delta now = .ok db') : OwnEffect now db db' := by
  unfold applyOrgSpendDelta at h
  split_ifs at h
  · cases h
    exact .refl now db
  · have hqueued := (updateCounters_queuedUnder h).1
    obtain ⟨db₁, hsame, hfind, henqueued⟩ := updateCounters_eq_ok h
    have hdb : db'.settings = db.settings ∧ db'.ledger = db.ledger ∧ db'.organizations = db₁.organizations := by
      obtain he | ⟨a, -, -, -, -, he⟩ := henqueued
      · rw [he]
        exact ⟨by rw [hsame], by rw [hsame], rfl⟩
      · rw [he]
        exact ⟨by rw [hsame], by rw [hsame], rfl⟩
    refine ⟨hdb.1, fun hbooks i o ho => ?_, hqueued⟩
    rw [hdb.2.1]
    rw [hdb.2.2, hfind] at ho
    split_ifs at ho
    · obtain ⟨o₀, ho₀, rfl⟩ := Option.map_eq_some_iff.mp ho
      exact hbooks i o₀ ho₀
    · exact hbooks i o ho

theorem launch_own {amount : Int} {expiresAt : Option Int} {createdBy : Option String}
    {r : LaunchGrant} (h : applyYcLaunchGrant db orgId amount expiresAt createdBy now = .ok (db', r)) :
    OwnEffect now db db' := by
  obtain ⟨o, labels, -, h⟩ := launch_eq_ok h
  have hlabels : OwnEffect now db { db with labels := labels } := ⟨rfl, fun hdb => hdb.of_eq rfl rfl, .of_eq rfl⟩
  obtain rfl | ⟨db₁, hgrant, h⟩ := h
  · exact hlabels
  · -- The grant raises the balance, so that nothing was queued before the welcome credit is folded in.
    have hcheck := (insertCredit_eq_ok hgrant).check
    have hpos : 0 < amount := by simpa [launchCredit] using hcheck.2.2.1
    have hsame : db₁.attempts = db.attempts := (insertCredit_queuedUnder hgrant).2 (le_of_lt hpos)
    have hfirst : OwnEffect now db db₁ :=
      ⟨(insertCredit_own hgrant).settings, fun hdb => (insertCredit_own hgrant).books (hlabels.books hdb), .of_eq hsame⟩
    obtain rfl | ⟨promo, hpromo, hfold⟩ := h
    · exact hfirst
    · refine hfirst.trans (insertCredit_own hfold) ((insertCredit_eq_ok hfold).lowers ?_)
      show -promo ≤ 0
      omega

theorem expire_own {db : Db} {scan : ScanOrder} {r : Db × Int}
    (h : processExpiringGrants db scan now = .ok r) : OwnEffect now db r.1 := by
  refine foldlM_invariant (I := fun acc => OwnEffect now db acc.1) ?_ _ (db, 0) r h (.refl now db)
  intro acc g acc' hturn hacc
  obtain ⟨hsame, -⟩ | ⟨amount, hpos, -, -, hinsert⟩ := clawBack_eq_ok hturn
  · exact hsame ▸ hacc
  · refine hacc.trans (insertCredit_own hinsert) ((insertCredit_eq_ok hinsert).lowers ?_)
    show -amount ≤ 0
    omega

/-! ### Saved settings -/

theorem saveSettings_eq_ok {s : RechargeSettings} (h : saveSettings db s = .ok db') :
    (∀ k, db'.settings.find? k = if k = s.orgId then some s else db.settings.find? k) ∧
      db' = { db with settings := db'.settings } := by
  simp only [saveSettings, bind_eq_ok, write_eq_ok, pure_eq_ok] at h
  obtain ⟨o, -, settings, hupsert, rfl⟩ := h
  refine ⟨fun k => ?_, rfl⟩
  show settings.find? k = _
  unfold upsertSettings at hupsert
  split_ifs at hupsert with hold
  · obtain ⟨old, hold⟩ := Option.isSome_iff_exists.mp hold
    rw [Table.find?_update_key hupsert]
    split_ifs with hk
    · subst hk
      have hid : old.orgId = s.orgId := (Table.find?_eq_some.mp hold).2
      rw [hold, Option.map_some, hid]
    · rfl
  · rw [Table.find?_insert hupsert]
    exact if_congr eq_comm rfl rfl

/-! ### Steps -/

/-- Every attempt was there, or is pending and was queued under the guards; the books stay right. -/
structure StepKeeps (now : Int) (db db' : Db) : Prop where
  books : Booked db → Booked db'
  queued : ∀ a ∈ db'.attempts.rows, a.id ∈ db.attempts.rows.map RechargeAttempt.id ∨
    a.status = .pending ∧ Guarded db' now a.orgId

theorem OwnEffect.keeps (h : OwnEffect now db db') : StepKeeps now db db' :=
  ⟨h.books, fun a ha => (h.queued a ha).imp (fun hold => List.mem_map_of_mem hold) id⟩

theorem StepKeeps.of_ids (hbooks : Booked db → Booked db')
    (hids : db'.attempts.rows.map RechargeAttempt.id = db.attempts.rows.map RechargeAttempt.id) :
    StepKeeps now db db' := by
  refine ⟨hbooks, fun a ha => .inl ?_⟩
  rw [← hids]
  exact List.mem_map_of_mem ha

theorem ownCall_keeps {c : BillingCall} (hc : c.ownCall = true)
    (h : execute db now c = .ok db') : StepKeeps now db db' := by
  cases c with
  | credit c => exact (insertCredit_own h).keeps
  | spend orgId delta => exact (spend_own h).keeps
  | launch orgId amount expiresAt createdBy =>
      simp only [execute, bind_eq_ok, pure_eq_ok] at h
      obtain ⟨r, hr, rfl⟩ := h
      exact (launch_own hr).keeps
  | expire scan =>
      simp only [execute, bind_eq_ok, pure_eq_ok] at h
      obtain ⟨r, hr, rfl⟩ := h
      exact (expire_own hr).keeps
  | saveSettings s =>
      have hdb := (saveSettings_eq_ok h).2
      exact .of_ids (fun hbooks => hbooks.of_eq (by rw [hdb]) (by rw [hdb])) (by rw [hdb])
  | rechargeSucceeded _ _ _ _ => cases hc
  | rechargeFailed _ _ _ => cases hc

theorem recordFailure_keeps {intent message : String}
    (h : recordAutoRechargeFailure db orgId intent message now = .ok db') : StepKeeps now db db' := by
  obtain ⟨ho, hl, -, hrows⟩ := recordFailure_eq_ok h
  refine .of_ids (fun hbooks => hbooks.of_eq ho hl) ?_
  rw [hrows]
  exact map_update_key (fun a _ => fail_id message now a) _

/-- A topup raises the balance, so that it queues nothing. -/
theorem creditRecharge_attempts {db db₁ : Db} {intent : String} {amount : Int}
    {createdBy : Option String} {outcome : RechargeOutcome}
    (h : creditRecharge db (rechargeCredit orgId intent amount createdBy) now = .ok (db₁, outcome)) :
    db₁.attempts = db.attempts := by
  unfold creditRecharge at h
  split at h
  · next db₂ hinsert =>
    cases h
    have hpos : 0 < amount := by simpa [rechargeCredit] using (insertCredit_eq_ok hinsert).check.2.2.1
    exact (insertCredit_queuedUnder hinsert).2 (le_of_lt hpos)
  · split_ifs at h
    cases h
    rfl

theorem recordSuccess_keeps {intent : String} {amount : Int} {createdBy : Option String} {outcome : RechargeOutcome}
    (h : recordAutoRechargeSuccess db orgId intent amount createdBy now = .ok (db', outcome)) :
    StepKeeps now db db' := by
  obtain ⟨db₁, hcredit, ho, hl, -, hrows⟩ := recordSuccess_eq_ok h
  have hclosed : db'.attempts.rows.map RechargeAttempt.id = db.attempts.rows.map RechargeAttempt.id := by
    rw [hrows, creditRecharge_attempts hcredit]
    exact map_update_key (f := RechargeAttempt.succeed now) (fun _ _ => rfl) _
  refine .of_ids (fun hbooks => ?_) hclosed
  obtain ⟨-, hcredited⟩ | ⟨-, rfl, -⟩ := creditRecharge_eq_ok hcredit
  · exact (hbooks.credited hcredited).of_eq ho hl
  · exact hbooks.of_eq ho hl

theorem onOk_keeps {w : RechargeWorld} {r : Raises Db} (h : ∀ db, r = .ok db → StepKeeps w.now w.db db) :
    StepKeeps w.now w.db (w.onOk r).db := by
  cases r with
  | error _ => exact .of_ids id rfl
  | ok db => exact h db rfl

variable {provider : PaymentProvider}

theorem rechargeStep_keeps (w : RechargeWorld) (s : RechargeStep) :
    StepKeeps w.now w.db (rechargeStep provider w s).db := by
  cases s with
  | advance duration => exact .of_ids id rfl
  | call c =>
      show StepKeeps w.now w.db (if c.ownCall then w.onOk (execute w.db w.now c) else w).db
      split_ifs with hc
      · exact onOk_keeps fun db h => ownCall_keeps hc h
      · exact .of_ids id rfl
  | checkout session orgId amount createdBy => exact onOk_keeps fun db h => (insertCredit_own h).keeps
  | next p limit reply =>
      obtain hattempts | ⟨a, message, -, -, hreport⟩ := next_db provider w p limit reply
      · exact .of_ids (fun hbooks => hbooks.of_eq hattempts.organizations hattempts.ledger) hattempts.ids
      · exact recordFailure_keeps hreport
  | crash p => exact .of_ids id rfl
  | deliverSuccess r =>
      obtain hsame | ⟨orgId, outcome, hreport, -⟩ := deliverSuccess_db provider w r
      · rw [rechargeStep, hsame]
        exact .of_ids id rfl
      · exact recordSuccess_keeps hreport
  | deliverFailure r error =>
      obtain hsame | ⟨message, hreport⟩ := deliverFailure_db provider w r error
      · rw [rechargeStep, hsame]
        exact .of_ids id rfl
      · exact recordFailure_keeps hreport

end Experiential.Billing
