import Experiential.Billing.Processor

/-! # A charged attempt completes

`Sound` is what every world keeps in the runs in which no success is delivered before the intent is recorded
and no processor writes to an attempt that another has finished: an attempt is succeeded exactly when its
success was delivered, the provider's credits are those of its charges, and whatever is active was queued
later than the attempts that succeeded. `recharge_completes` is the run, `early_success_blocks` a run in
which the webhook comes first. -/

namespace Experiential.Billing

open Gateway

variable {provider : PaymentProvider}

/-! ### The invariant -/

/-- The provider has carried out the request under `key`. -/
def Charged (charged : List ChargeRequest) (key : Nat) : Prop := ∃ r ∈ charged, r.idempotencyKey = key

instance (charged : List ChargeRequest) : DecidablePred (Charged charged) := fun key =>
  inferInstanceAs (Decidable (∃ r ∈ charged, r.idempotencyKey = key))

/-- What holds of each attempt. -/
structure RowSound (provider : PaymentProvider) (charged : List ChargeRequest) (delivered : List Nat)
    (a : RechargeAttempt) : Prop where
  intent : a.stripePaymentIntentId = none ∨
    a.stripePaymentIntentId = some (provider.intentId a.id) ∧ Charged charged a.id
  succeeded : a.status = .succeeded ↔ a.id ∈ delivered
  stays_open : provider.Succeeds a.id → Charged charged a.id → a.active = true ∨ a.status = .succeeded

/-- The attempt a processor holds is one of the table. -/
def Known (rows : List RechargeAttempt) (a : RechargeAttempt) : Prop := ∃ b ∈ rows, b.id = a.id ∧ b.orgId = a.orgId

/-- What a processor knows in each phase. -/
def PhaseSound (provider : PaymentProvider) (rows : List RechargeAttempt) (charged : List ChargeRequest) :
    ProcessorPhase → Prop
  | .loading => True
  | .loadingSettings loaded => ∀ a ∈ loaded, Known rows a
  | .claiming batch => ∀ a ∈ batch.rows, Known rows a
  | .charging a batch => Known rows a ∧ ∀ a ∈ batch.rows, Known rows a
  | .recording a status batch => Charged charged a.id ∧ provider.answer a.id = .intent status ∧
      ∀ a ∈ batch.rows, Known rows a
  | .declining a withIntent message batch => Charged charged a.id ∧
      provider.answer a.id = .cardError withIntent message ∧ ∀ a ∈ batch.rows, Known rows a
  | .refusing a _ _ batch => ¬ provider.Succeeds a.id ∧ ∀ a ∈ batch.rows, Known rows a
  | .resetting _ _ batch => ∀ a ∈ batch.rows, Known rows a

/-- A credit with the id of a payment intent is that of the charge. -/
def CreditSound (provider : PaymentProvider) (charged : List ChargeRequest) (c : Credit) : Prop :=
  c.source = .stripe → ∀ k, c.sourceRef = some (provider.intentId k) →
    ∃ r ∈ charged, r.idempotencyKey = k ∧ c.orgId = r.orgId ∧ c.amount = provider.received k * 10000 ∧
      c.entryType = .topup

/-- What every run keeps: of the attempts, the charges, the credits and the processors. -/
structure Sound (provider : PaymentProvider) (w : RechargeWorld) : Prop where
  rows : ∀ a ∈ w.db.attempts.rows, RowSound provider w.charged w.delivered a
  order : ∀ a ∈ w.db.attempts.rows, ∀ b ∈ w.db.attempts.rows, a.id ∈ w.delivered → b.orgId = a.orgId →
    b.active = true → a.id < b.id
  charged : ∀ r ∈ w.charged, r.purpose = autorechargePurpose ∧ r.currency = "usd" ∧
    ∃ a ∈ w.db.attempts.rows, a.id = r.idempotencyKey ∧ a.orgId = r.orgId
  delivered : ∀ k ∈ w.delivered, provider.Succeeds k ∧ Charged w.charged k
  credited : ∀ k ∈ w.delivered, ∃ c ∈ w.db.ledger.rows, c.source = .stripe ∧ c.sourceRef = some (provider.intentId k)
  credits : ∀ c ∈ w.db.ledger.rows, CreditSound provider w.charged c.toCredit
  phases : ∀ p, PhaseSound provider w.db.attempts.rows w.charged (w.processors p)

/-- A processor charges only an attempt that is open or succeeded, closes one for want of a card only while it
is not charged, and puts back only an open one. -/
def NextAllowed (provider : PaymentProvider) (w : RechargeWorld) : ProcessorPhase → Prop
  | .charging a batch => provider.Succeeds a.id → ∀ b ∈ w.db.attempts.rows, b.id = a.id →
      if savedCard batch.settings a.orgId = none then ¬ Charged w.charged a.id
      else b.active = true ∨ b.status = .succeeded
  | .resetting a _ _ => ∀ b ∈ w.db.attempts.rows, b.id = a.id → b.active = true
  | _ => True

/-- A success is delivered after its intent is recorded, and the processors' calls are allowed. -/
def RecordedFirst (provider : PaymentProvider) (w : RechargeWorld) : RechargeStep → Prop
  | .deliverSuccess r => ∀ a ∈ w.db.attempts.rows, a.id = r.idempotencyKey → a.stripePaymentIntentId ≠ none
  | .next p _ _ => NextAllowed provider w (w.processors p)
  | _ => True

/-! ### What the parts keep -/

theorem Charged.mono {charged charged' : List ChargeRequest} {k : Nat} (h : Charged charged k)
    (hsub : ∀ r ∈ charged, r ∈ charged') : Charged charged' k := by
  obtain ⟨r, hr, hk⟩ := h
  exact ⟨r, hsub r hr, hk⟩

/-- Attempts keep their id and organization. -/
def Persist (rows rows' : List RechargeAttempt) : Prop := ∀ a ∈ rows, Known rows' a

variable {phase : ProcessorPhase}

theorem PhaseSound.mono {rows rows' : List RechargeAttempt} {charged charged' : List ChargeRequest}
    (h : PhaseSound provider rows charged phase) (hrows : Persist rows rows')
    (hcharged : ∀ r ∈ charged, r ∈ charged') : PhaseSound provider rows' charged' phase := by
  have hknown : ∀ a, Known rows a → Known rows' a := by
    rintro a ⟨b, hb, hid, horg⟩
    obtain ⟨c, hc, hid', horg'⟩ := hrows b hb
    exact ⟨c, hc, hid'.trans hid, horg'.trans horg⟩
  cases phase with
  | loading => trivial
  | loadingSettings loaded | claiming batch => exact fun a ha => hknown a (h a ha)
  | charging a batch => exact ⟨hknown a h.1, fun a ha => hknown a (h.2 a ha)⟩
  | recording a status batch | declining a withIntent message batch =>
      exact ⟨h.1.mono hcharged, h.2.1, fun a ha => hknown a (h.2.2 a ha)⟩
  | refusing a message caught batch => exact ⟨h.1, fun a ha => hknown a (h.2 a ha)⟩
  | resetting a message batch => exact fun a ha => hknown a (h a ha)

section parts
variable {w : RechargeWorld}

theorem Sound.goto (hw : Sound provider w) {p : Nat}
    (h : PhaseSound provider w.db.attempts.rows w.charged phase) : Sound provider (w.goto p phase) := by
  refine ⟨hw.rows, hw.order, hw.charged, hw.delivered, hw.credited, hw.credits, fun q => ?_⟩
  show PhaseSound provider _ _ (Function.update w.processors p phase q)
  by_cases hq : q = p
  · rw [hq, Function.update_self]
    exact h
  · rw [Function.update_of_ne hq]
    exact hw.phases q

variable {f : RechargeAttempt → RechargeAttempt} {p : RechargeAttempt → Bool}

/-- A rewrite of attempts that keeps each of them sound and opens none. -/
theorem Sound.rewrite (hw : Sound provider w) {db' : Db} (hledger : db'.ledger = w.db.ledger)
    (hrows : db'.attempts.rows = w.db.attempts.rows.map (fun a => if p a then f a else a))
    (hid : ∀ a, (f a).id = a.id ∧ (f a).orgId = a.orgId)
    (hsound : ∀ a ∈ w.db.attempts.rows, p a = true → RowSound provider w.charged w.delivered a →
      RowSound provider w.charged w.delivered (f a))
    (hopen : ∀ a ∈ w.db.attempts.rows, p a = true → (f a).active = true → a.active = true) :
    Sound provider { w with db := db' } := by
  have hback : ∀ b ∈ db'.attempts.rows, ∃ a ∈ w.db.attempts.rows, b.id = a.id ∧ b.orgId = a.orgId ∧
      (b.active = true → a.active = true) ∧ RowSound provider w.charged w.delivered b := by
    intro b hb
    rw [hrows] at hb
    obtain ⟨a, ha, rfl⟩ := List.mem_map.mp hb
    refine ⟨a, ha, ?_⟩
    cases hp : p a with
    | true => exact ⟨(hid a).1, (hid a).2, hopen a ha hp, hsound a ha hp (hw.rows a ha)⟩
    | false => exact ⟨rfl, rfl, fun h => h, hw.rows a ha⟩
  have hpersist : Persist w.db.attempts.rows db'.attempts.rows := by
    intro a ha
    refine ⟨if p a then f a else a, ?_, ?_⟩
    · rw [hrows]
      exact List.mem_map_of_mem (f := fun a => if p a then f a else a) ha
    · split_ifs
      · exact hid a
      · exact ⟨rfl, rfl⟩
  refine ⟨fun b hb => ?_, fun a ha b hb hdelivered horg hactive => ?_, fun r hr => ?_, hw.delivered, ?_, ?_,
    fun q => (hw.phases q).mono hpersist fun _ h => h⟩
  · obtain ⟨a, -, -, -, -, hb⟩ := hback b hb
    exact hb
  · obtain ⟨a₀, ha₀, haid, haorg, -⟩ := hback a ha
    obtain ⟨b₀, hb₀, hbid, hborg, hbactive, -⟩ := hback b hb
    rw [haid, hbid]
    exact hw.order a₀ ha₀ b₀ hb₀ (haid ▸ hdelivered) (by rw [← hborg, horg, haorg]) (hbactive hactive)
  · obtain ⟨hpurpose, hcurrency, a, ha, hkey, horg⟩ := hw.charged r hr
    obtain ⟨b, hb, hbid, hborg⟩ := hpersist a ha
    exact ⟨hpurpose, hcurrency, b, hb, hbid.trans hkey, hborg.trans horg⟩
  · show ∀ k ∈ w.delivered, ∃ c ∈ db'.ledger.rows, _
    rw [hledger]
    exact hw.credited
  · show ∀ c ∈ db'.ledger.rows, _
    rw [hledger]
    exact hw.credits

theorem Sound.update (hw : Sound provider w) {hf : ∀ a, (f a).id = a.id} (horg : ∀ a, (f a).orgId = a.orgId)
    (hsound : ∀ a ∈ w.db.attempts.rows, p a = true → RowSound provider w.charged w.delivered a →
      RowSound provider w.charged w.delivered (f a))
    (hopen : ∀ a ∈ w.db.attempts.rows, p a = true → (f a).active = true → a.active = true) :
    Sound provider { w with db := w.db.updateAttempts p f hf } := by
  unfold Db.updateAttempts
  cases h : w.db.attempts.update p f hf with
  | error _ => exact hw
  | ok attempts =>
      exact hw.rewrite rfl (Table.update_eq_ok (RechargeAttempts.ofTable_eq_ok.mp h)).2 (fun a => ⟨hf a, horg a⟩)
        hsound hopen

theorem Sound.grows (hw : Sound provider w) {db' : Db} {P : Credit → Prop} (h : Grows P w.db db')
    (hP : ∀ c, P c → CreditSound provider w.charged c) :
    Sound provider { w with db := db' } := by
  obtain ⟨⟨credits, hledger, hcredits⟩, attempts, hattempts, hnew⟩ := h
  have hold : ∀ a ∈ attempts, a.id ∉ w.delivered ∧ ¬ Charged w.charged a.id := by
    intro a ha
    have hnot : ¬ Charged w.charged a.id := by
      rintro ⟨r, hr, hkey⟩
      obtain ⟨-, -, b, hb, hid, -⟩ := hw.charged r hr
      have := (hnew a ha).2.2 b hb
      omega
    exact ⟨fun hd => hnot (hw.delivered _ hd).2, hnot⟩
  have hmem : ∀ a, a ∈ db'.attempts.rows ↔ a ∈ attempts ∨ a ∈ w.db.attempts.rows := by
    intro a
    rw [hattempts, List.mem_append]
  have hpersist : Persist w.db.attempts.rows db'.attempts.rows :=
    fun a ha => ⟨a, (hmem a).mpr (.inr ha), rfl, rfl⟩
  refine ⟨fun a ha => ?_, fun a ha b hb hdelivered horg hactive => ?_, fun r hr => ?_, hw.delivered,
    fun k hk => ?_, fun c hc => ?_, fun q => (hw.phases q).mono hpersist fun _ h => h⟩
  · cases (hmem a).mp ha with
    | inl ha =>
        obtain ⟨hstatus, hintent, -⟩ := hnew a ha
        refine ⟨.inl hintent, ?_, fun _ hcharged => absurd hcharged (hold a ha).2⟩
        rw [hstatus]
        exact ⟨fun h => absurd h (by simp), fun h => absurd h (hold a ha).1⟩
    | inr ha => exact hw.rows a ha
  · cases (hmem a).mp ha with
    | inl ha => exact absurd hdelivered (hold a ha).1
    | inr ha =>
        cases (hmem b).mp hb with
        | inl hb => exact (hnew b hb).2.2 a ha
        | inr hb => exact hw.order a ha b hb hdelivered horg hactive
  · obtain ⟨hpurpose, hcurrency, a, ha, hkey⟩ := hw.charged r hr
    exact ⟨hpurpose, hcurrency, a, (hmem a).mpr (.inr ha), hkey⟩
  · obtain ⟨c, hc, hcredit⟩ := hw.credited k hk
    exact ⟨c, by rw [hledger]; exact List.mem_append_right _ hc, hcredit⟩
  · rw [hledger] at hc
    cases List.mem_append.mp hc with
    | inl hc => exact hP _ (hcredits c hc)
    | inr hc => exact hw.credits c hc

/-- The provider carries out a request for an attempt that is open. -/
theorem Sound.charge (hw : Sound provider w) {r : ChargeRequest} (hpurpose : r.purpose = autorechargePurpose)
    (hcurrency : r.currency = "usd")
    (hrow : ∃ a ∈ w.db.attempts.rows, a.id = r.idempotencyKey ∧ a.orgId = r.orgId)
    (hopen : provider.Succeeds r.idempotencyKey → ∀ a ∈ w.db.attempts.rows, a.id = r.idempotencyKey →
      a.active = true ∨ a.status = .succeeded) :
    Sound provider (w.charge r) ∧ Charged (w.charge r).charged r.idempotencyKey ∧
      (w.charge r).db = w.db := by
  unfold RechargeWorld.charge
  split_ifs with hknown
  · simp only [List.any_eq_true, decide_eq_true_eq] at hknown
    exact ⟨hw, hknown, rfl⟩
  · have hsub : ∀ q ∈ w.charged, q ∈ r :: w.charged := fun q hq => List.mem_cons_of_mem _ hq
    refine ⟨⟨fun a ha => ?_, hw.order, fun q hq => ?_, fun k hk => (hw.delivered k hk).imp_right fun h => h.mono hsub, hw.credited,
      fun c hc hsource k hk => ?_, fun q => (hw.phases q).mono (fun a ha => ⟨a, ha, rfl, rfl⟩) hsub⟩, ⟨r, List.mem_cons_self, rfl⟩, rfl⟩
    · have ha' := hw.rows a ha
      refine ⟨ha'.intent.imp_right fun h => ⟨h.1, h.2.mono hsub⟩, ha'.succeeded, fun hsucceeds hcharged => ?_⟩
      obtain ⟨q, hq, hkey⟩ := hcharged
      cases List.mem_cons.mp hq with
      | inl he =>
          subst he
          exact hopen (hkey ▸ hsucceeds) a ha hkey.symm
      | inr hq => exact ha'.stays_open hsucceeds ⟨q, hq, hkey⟩
    · cases List.mem_cons.mp hq with
      | inl he =>
          rw [he]
          exact ⟨hpurpose, hcurrency, hrow⟩
      | inr hq => exact hw.charged q hq
    · obtain ⟨q, hq, hcredit⟩ := hw.credits c hc hsource k hk
      exact ⟨q, hsub q hq, hcredit⟩

/-! ### A processor -/

variable {reply : Reply}

theorem Sound.write (hw : Sound provider w) {db' : Db}
    (h : Sound provider { w with db := db' }) : Sound provider (w.write reply db') := by
  unfold RechargeWorld.write
  split_ifs
  · exact h
  · exact hw

theorem write_charged (w : RechargeWorld) (reply : Reply) (db' : Db) : (w.write reply db').charged = w.charged := by
  unfold RechargeWorld.write
  split_ifs <;> rfl

theorem persist_map {rows : List RechargeAttempt} (hid : ∀ a, (f a).id = a.id ∧ (f a).orgId = a.orgId) :
    Persist rows (rows.map (fun a => if p a then f a else a)) := by
  intro a ha
  refine ⟨if p a then f a else a, List.mem_map_of_mem (f := fun a => if p a then f a else a) ha, ?_⟩
  split_ifs
  · exact hid a
  · exact ⟨rfl, rfl⟩

theorem persist_update (db : Db) {hf : ∀ a, (f a).id = a.id} (horg : ∀ a, (f a).orgId = a.orgId) :
    Persist db.attempts.rows (db.updateAttempts p f hf).attempts.rows := by
  unfold Db.updateAttempts
  cases h : db.attempts.update p f hf with
  | error _ => exact fun a ha => ⟨a, ha, rfl, rfl⟩
  | ok attempts =>
      show Persist db.attempts.rows attempts.rows
      rw [(Table.update_eq_ok (RechargeAttempts.ofTable_eq_ok.mp h)).2]
      exact persist_map fun a => ⟨hf a, horg a⟩

theorem Sound.writeThen (hw : Sound provider w) {p : Nat} {q : RechargeAttempt → Bool} {hf : ∀ a, (f a).id = a.id}
    (horg : ∀ a, (f a).orgId = a.orgId)
    (hsound : ∀ a ∈ w.db.attempts.rows, q a = true → RowSound provider w.charged w.delivered a →
      RowSound provider w.charged w.delivered (f a))
    (hopen : ∀ a ∈ w.db.attempts.rows, q a = true → (f a).active = true → a.active = true)
    (hphase : PhaseSound provider w.db.attempts.rows w.charged phase) :
    Sound provider ((w.write reply (w.db.updateAttempts q f hf)).goto p phase) := by
  refine (hw.write (hw.update horg hsound hopen)).goto ?_
  rw [write_charged]
  unfold RechargeWorld.write
  split_ifs
  · exact hphase.mono (persist_update w.db horg) fun _ h => h
  · exact hphase

theorem claimAttempt_sound (hw : Sound provider w) {p : Nat} (a : RechargeAttempt)
    (hphase : PhaseSound provider w.db.attempts.rows w.charged phase) :
    Sound provider ((w.write reply (claimAttempt w.db a w.now)).goto p phase) := by
  have hactive : ∀ b : RechargeAttempt, a.claimable b = true → b.active = true := by
    intro b hb
    simp only [RechargeAttempt.claimable, Bool.and_eq_true] at hb
    exact hb.2
  refine hw.writeThen (fun _ => rfl) (fun b hb hclaim hrow => ?_) (fun b _ hclaim _ => hactive b hclaim) hphase
  have hne : b.status ≠ .succeeded := by
    intro he
    have := hactive b hclaim
    simp [RechargeAttempt.active, he] at this
  refine ⟨hrow.intent, ?_, fun _ _ => .inl rfl⟩
  exact ⟨fun h => absurd h (by simp), fun h => absurd (hrow.succeeded.mpr h) hne⟩

theorem recordIntent_sound (hw : Sound provider w) {p : Nat} (a : RechargeAttempt) (hcharged : Charged w.charged a.id)
    (hphase : PhaseSound provider w.db.attempts.rows w.charged phase) :
    Sound provider ((w.record provider a reply).goto p phase) := by
  unfold RechargeWorld.record
  split_ifs
  · have hnext : Sound provider { w with db := recordIntent w.db a.id (provider.intentId a.id) w.now } := by
      refine hw.update (fun _ => rfl) (fun b hb hid hrow => ?_) (fun _ _ _ h => h)
      have hid : b.id = a.id := of_decide_eq_true hid
      refine ⟨.inr ⟨?_, ?_⟩, hrow.succeeded, hrow.stays_open⟩
      · show some (provider.intentId a.id) = some (provider.intentId b.id)
        rw [hid]
      · show Charged w.charged b.id
        rw [hid]
        exact hcharged
    have hrecorded : Sound provider { w with
        db := recordIntent w.db a.id (provider.intentId a.id) w.now
        recorded := a.id :: w.recorded } :=
      ⟨hnext.rows, hnext.order, hnext.charged, hnext.delivered, hnext.credited, hnext.credits, hnext.phases⟩
    exact hrecorded.goto (hphase.mono (persist_update w.db fun _ => rfl) fun _ h => h)
  · exact hw.goto hphase

/-- Closing an attempt that is not charged, or whose charge does not succeed. -/
theorem failAttempt_sound (hw : Sound provider w) {p : Nat} (a : RechargeAttempt)
    {message : String} (hnot : provider.Succeeds a.id → ¬ Charged w.charged a.id)
    (hdelivered : a.id ∉ w.delivered)
    (hphase : PhaseSound provider w.db.attempts.rows w.charged phase) :
    Sound provider ((w.write reply (failAttemptById w.db a.id message w.now)).goto p phase) := by
  refine hw.writeThen (fun _ => rfl) (fun b hb hid hrow => ?_) (fun _ _ _ h => by cases h) hphase
  have hid : b.id = a.id := of_decide_eq_true hid
  refine ⟨hrow.intent, ?_, fun hsucceeds hcharged => ?_⟩
  · refine ⟨fun h => absurd h (by simp [RechargeAttempt.fail]), fun h => absurd ?_ hdelivered⟩
    exact hid ▸ h
  · exact absurd (hid ▸ hcharged) (hnot (hid ▸ hsucceeds))

theorem resetAttempt_sound (hw : Sound provider w) {p : Nat} (a : RechargeAttempt)
    {message : String} (hactive : ∀ b ∈ w.db.attempts.rows, b.id = a.id → b.active = true)
    (hphase : PhaseSound provider w.db.attempts.rows w.charged phase) :
    Sound provider ((w.write reply (resetAttempt w.db a.id message w.now)).goto p phase) := by
  refine hw.writeThen (fun _ => rfl) (fun b hb hid hrow => ?_)
    (fun b hb hid _ => hactive b hb (of_decide_eq_true hid)) hphase
  have hopen : b.active = true := hactive b hb (of_decide_eq_true hid)
  have hne : b.status ≠ .succeeded := by
    intro he
    simp [RechargeAttempt.active, he] at hopen
  refine ⟨hrow.intent, ?_, fun _ _ => .inl rfl⟩
  exact ⟨fun h => absurd h (by simp), fun h => absurd (hrow.succeeded.mpr h) hne⟩

/-- A row that awaits a report on the intent of `k` is the attempt `k`. -/
theorem eq_of_awaits {charged : List ChargeRequest} {delivered : List Nat} {a : RechargeAttempt} {k : Nat}
    (ha : RowSound provider charged delivered a) (h : a.awaits (provider.intentId k) = true) :
    a.id = k ∧ a.active = true := by
  simp only [RechargeAttempt.awaits, Bool.and_eq_true, decide_eq_true_eq] at h
  refine ⟨?_, h.2⟩
  cases ha.intent with
  | inl hnone =>
      rw [hnone] at h
      cases h.1
  | inr hsome =>
      rw [hsome.1] at h
      exact provider.intentId_injective _ _ (Option.some.inj h.1)

theorem recordFailure_sound (hw : Sound provider w) {orgId k : Nat} {message : String} {db' : Db}
    (hnot : ¬ provider.Succeeds k)
    (h : recordAutoRechargeFailure w.db orgId (provider.intentId k) message w.now = .ok db') :
    Sound provider { w with db := db' } ∧ Persist w.db.attempts.rows db'.attempts.rows := by
  obtain ⟨-, hledger, -, hrows⟩ := recordFailure_eq_ok h
  refine ⟨hw.rewrite hledger hrows (fun _ => ⟨rfl, rfl⟩) (fun a ha hawaits hrow => ?_) (fun _ _ _ h => by cases h), ?_⟩
  · obtain ⟨rfl, -⟩ := eq_of_awaits hrow hawaits
    refine ⟨hrow.intent, ?_, fun hsucceeds => absurd hsucceeds hnot⟩
    exact ⟨fun h => absurd h (by simp [RechargeAttempt.fail]), fun h => absurd (hw.delivered _ h).1 hnot⟩
  · rw [hrows]
    exact persist_map fun _ => ⟨rfl, rfl⟩

section next
variable {p limit : Nat} {a : RechargeAttempt} {batch : Batch}

theorem next_claiming (hw : Sound provider w) (hp : w.processors p = .claiming batch)
    (hphase : PhaseSound provider w.db.attempts.rows w.charged (.claiming batch)) :
    Sound provider (w.next provider p limit reply) := by
  obtain ⟨rows, settings⟩ := batch
  cases rows with
  | nil =>
      rw [RechargeWorld.next, hp]
      exact hw.goto trivial
  | cons a rows =>
      have ha := hphase a List.mem_cons_self
      have hrest : ∀ a ∈ rows, Known w.db.attempts.rows a := fun a ha => hphase a (List.mem_cons_of_mem _ ha)
      rw [RechargeWorld.next, hp]
      dsimp only
      split
      · exact claimAttempt_sound hw a trivial
      · split_ifs
        · exact claimAttempt_sound hw a ⟨ha, hrest⟩
        · exact hw.goto hrest

theorem next_charging (hw : Sound provider w) (hp : w.processors p = .charging a batch)
    (hphase : PhaseSound provider w.db.attempts.rows w.charged (.charging a batch))
    (hC : NextAllowed provider w (.charging a batch)) : Sound provider (w.next provider p limit reply) := by
  obtain ⟨⟨b, hb, hid, horg⟩, hrest⟩ := hphase
  rw [RechargeWorld.next, hp]
  dsimp only
  split
  · rename_i hcard
    have hnot : provider.Succeeds a.id → ¬ Charged w.charged a.id := by
      intro hsucceeds
      have := hC hsucceeds b hb hid
      rwa [if_pos hcard] at this
    exact failAttempt_sound hw a hnot (fun hd => hnot (hw.delivered _ hd).1 (hw.delivered _ hd).2) hrest
  · rename_i card hcard
    have hcharge := hw.charge (r := chargeRequest a card) rfl rfl ⟨b, hb, hid, horg⟩ fun hsucceeds b hb hid => by
      have := hC hsucceeds b hb hid
      rwa [if_neg (by rw [hcard]; simp)] at this
    cases reply with
    | lost tookEffect message =>
        show Sound provider ((if tookEffect = true then _ else w).goto p (.resetting a message batch))
        split_ifs
        · refine hcharge.1.goto ?_
          rw [hcharge.2.2]
          exact hrest
        · exact hw.goto hrest
    | arrived =>
        refine hcharge.1.goto ?_
        rw [hcharge.2.2]
        unfold RechargeWorld.answered
        cases hanswer : provider.answer a.id with
        | intent status | cardError withIntent message => exact ⟨hcharge.2.1, hanswer, hrest⟩

theorem next_recording {status : IntentStatus} (hw : Sound provider w) (hp : w.processors p = .recording a status batch)
    (hphase : PhaseSound provider w.db.attempts.rows w.charged (.recording a status batch)) :
    Sound provider (w.next provider p limit reply) := by
  obtain ⟨hcharged, hanswer, hrest⟩ := hphase
  rw [RechargeWorld.next, hp]
  refine recordIntent_sound hw a hcharged ?_
  split_ifs with hstatus
  · refine ⟨?_, hrest⟩
    unfold PaymentProvider.Succeeds
    rw [hanswer]
    cases hstatus with
    | inl hs | inr hs => simp [hs]
  · exact hrest

theorem next_declining {withIntent : Bool} {message : String} (hw : Sound provider w)
    (hp : w.processors p = .declining a withIntent message batch)
    (hphase : PhaseSound provider w.db.attempts.rows w.charged (.declining a withIntent message batch)) :
    Sound provider (w.next provider p limit reply) := by
  obtain ⟨hcharged, hanswer, hrest⟩ := hphase
  have hnot : ¬ provider.Succeeds a.id := by
    unfold PaymentProvider.Succeeds
    simp [hanswer]
  rw [RechargeWorld.next, hp]
  dsimp only
  split_ifs
  · exact recordIntent_sound hw a hcharged ⟨hnot, hrest⟩
  · exact failAttempt_sound hw a (fun h => absurd h hnot) (fun hd => hnot (hw.delivered _ hd).1) hrest

theorem next_refusing {caught : Bool} {message : String} (hw : Sound provider w)
    (hp : w.processors p = .refusing a message caught batch)
    (hphase : PhaseSound provider w.db.attempts.rows w.charged (.refusing a message caught batch)) :
    Sound provider (w.next provider p limit reply) := by
  obtain ⟨hnot, hrest⟩ := hphase
  have hwrite : ∀ {db' : Db} {phase : ProcessorPhase},
      recordAutoRechargeFailure w.db a.orgId (provider.intentId a.id) message w.now = .ok db' →
      PhaseSound provider w.db.attempts.rows w.charged phase → Sound provider ((w.write reply db').goto p phase) := by
    intro db' phase hok hphase
    obtain ⟨hsound, hpersist⟩ := recordFailure_sound hw hnot hok
    refine (hw.write hsound).goto ?_
    rw [write_charged]
    unfold RechargeWorld.write
    split_ifs
    · exact hphase.mono hpersist fun _ h => h
    · exact hphase
  have hfailed : ∀ error, PhaseSound provider w.db.attempts.rows w.charged
      (if caught then .resetting a (RechargeWorld.recordingFailed error) batch else .loading) := by
    intro error
    split_ifs
    · exact hrest
    · trivial
  rw [RechargeWorld.next, hp]
  dsimp only
  split
  · rename_i hok
    exact hwrite hok hrest
  · rename_i hok
    exact hwrite hok (hfailed _)
  · exact hw.goto (hfailed _)

theorem next_sound (hw : Sound provider w) (hC : RecordedFirst provider w (.next p limit reply)) :
    Sound provider (w.next provider p limit reply) := by
  have hphase := hw.phases p
  have hC : NextAllowed provider w (w.processors p) := hC
  generalize hp : w.processors p = phase at hphase hC
  cases phase with
  | loading =>
      rw [RechargeWorld.next, hp]
      exact hw.goto fun a ha => ⟨a, (Table.mem_firstUnlocked ha).1, rfl, rfl⟩
  | loadingSettings rows =>
      rw [RechargeWorld.next, hp]
      cases reply with
      | arrived | lost tookEffect message => exact hw.goto hphase
  | claiming batch => exact next_claiming hw hp hphase
  | charging a batch => exact next_charging hw hp hphase hC
  | recording a status batch => exact next_recording hw hp hphase
  | declining a withIntent message batch => exact next_declining hw hp hphase
  | refusing a message caught batch => exact next_refusing hw hp hphase
  | resetting a message batch =>
      rw [RechargeWorld.next, hp]
      exact resetAttempt_sound hw a hC hphase

end next

/-! ### Delivering a success -/

/-- The attempts after a success of `k` whose credit is there. -/
theorem succeed_sound (hw : Sound provider w) {db' : Db} {k : Nat} (hsucceeds : provider.Succeeds k)
    (hcharged : Charged w.charged k)
    (hcredit : ∃ c ∈ w.db.ledger.rows, c.source = .stripe ∧ c.sourceRef = some (provider.intentId k))
    (hrecorded : ∀ a ∈ w.db.attempts.rows, a.id = k → a.stripePaymentIntentId ≠ none)
    (hledger : db'.ledger = w.db.ledger)
    (hrows : db'.attempts.rows = w.db.attempts.rows.map (fun a =>
      if a.awaits (provider.intentId k) then { a with status := .succeeded, updatedAt := w.now } else a)) :
    Sound provider { w with
      db := db'
      delivered := k :: w.delivered } := by
  -- Each attempt after the report is an old one, and `k` has succeeded.
  have hback : ∀ b ∈ db'.attempts.rows, ∃ a ∈ w.db.attempts.rows, b.id = a.id ∧ b.orgId = a.orgId ∧
      b.stripePaymentIntentId = a.stripePaymentIntentId ∧
      (b.status = .succeeded ∧ a.id = k ∨ b = a ∧ a.id ≠ k) := by
    intro b hb
    rw [hrows] at hb
    obtain ⟨a, ha, rfl⟩ := List.mem_map.mp hb
    refine ⟨a, ha, ?_⟩
    have hrow := hw.rows a ha
    cases hawaits : a.awaits (provider.intentId k) with
    | true => exact ⟨rfl, rfl, rfl, .inl ⟨rfl, (eq_of_awaits hrow hawaits).1⟩⟩
    | false =>
        refine ⟨rfl, rfl, rfl, ?_⟩
        by_cases hid : a.id = k
        · refine .inl ⟨?_, hid⟩
          have hintent : a.stripePaymentIntentId = some (provider.intentId k) := by
            cases hrow.intent with
            | inl hnone => exact absurd hnone (hrecorded a ha hid)
            | inr hsome => rw [hsome.1, hid]
          have hclosed : a.active = false := by simpa [RechargeAttempt.awaits, hintent] using hawaits
          cases hrow.stays_open (hid ▸ hsucceeds) (hid ▸ hcharged) with
          | inl hactive =>
              rw [hclosed] at hactive
              cases hactive
          | inr hsucceeded => exact hsucceeded
        · exact .inr ⟨rfl, hid⟩
  have hpersist : Persist w.db.attempts.rows db'.attempts.rows := by
    rw [hrows]
    exact persist_map fun _ => ⟨rfl, rfl⟩
  refine ⟨fun b hb => ?_, fun a ha b hb hdelivered horg hactive => ?_, fun r hr => ?_, fun l hl => ?_,
    fun l hl => ?_, ?_, fun q => (hw.phases q).mono hpersist fun _ h => h⟩
  · obtain ⟨a, ha, hid, horg, hintent, hcase⟩ := hback b hb
    have hrow := hw.rows a ha
    rcases hcase with ⟨hstatus, hk⟩ | ⟨rfl, hk⟩
    · refine ⟨by rw [hintent, hid]; exact hrow.intent, ?_, fun _ _ => .inr hstatus⟩
      rw [hid, hk]
      exact ⟨fun _ => List.mem_cons_self, fun _ => hstatus⟩
    · refine ⟨hrow.intent, ?_, hrow.stays_open⟩
      rw [List.mem_cons]
      exact hrow.succeeded.trans ⟨.inr, fun h => h.resolve_left hk⟩
  · obtain ⟨a₀, ha₀, haid, haorg, -⟩ := hback a ha
    obtain ⟨b₀, hb₀, hbid, hborg, -, hcase⟩ := hback b hb
    have hb' : b = b₀ ∧ b₀.id ≠ k := by
      cases hcase with
      | inl h =>
          simp [RechargeAttempt.active, h.1] at hactive
      | inr h => exact h
    rw [haid] at hdelivered ⊢
    rw [hbid]
    have hsame : b₀.orgId = a₀.orgId := by rw [← hborg, horg, haorg]
    have hactive₀ : b₀.active = true := hb'.1 ▸ hactive
    by_cases hd : a₀.id ∈ w.delivered
    · exact hw.order a₀ ha₀ b₀ hb₀ hd hsame hactive₀
    · -- The first report of `k`: the attempt was the one that is active.
      have hk : a₀.id = k := (List.mem_cons.mp hdelivered).resolve_right hd
      have hrow := hw.rows a₀ ha₀
      cases hrow.stays_open (hk ▸ hsucceeds) (hk ▸ hcharged) with
      | inl hopen =>
          have := w.db.attempts.one_active b₀ hb₀ a₀ ha₀ hactive₀ hopen hsame
          exact absurd (this.trans hk) hb'.2
      | inr hsucceeded => exact absurd (hrow.succeeded.mp hsucceeded) hd
  · obtain ⟨hpurpose, hcurrency, a, ha, hkey, horg⟩ := hw.charged r hr
    obtain ⟨b, hb, hbid, hborg⟩ := hpersist a ha
    exact ⟨hpurpose, hcurrency, b, hb, hbid.trans hkey, hborg.trans horg⟩
  · cases List.mem_cons.mp hl with
    | inl he =>
        rw [he]
        exact ⟨hsucceeds, hcharged⟩
    | inr hl => exact hw.delivered l hl
  · show ∃ c ∈ db'.ledger.rows, _
    rw [hledger]
    cases List.mem_cons.mp hl with
    | inl he => exact he ▸ hcredit
    | inr hl => exact hw.credited l hl
  · show ∀ c ∈ db'.ledger.rows, _
    rw [hledger]
    exact hw.credits

theorem handleSucceeded_eq {r : ChargeRequest} (hpurpose : r.purpose = autorechargePurpose)
    (hcurrency : r.currency = "usd") (db : Db) (now : Int) :
    handleAutoRechargeSucceeded db (provider.intentOf r none) now = (do
      let s ← recordAutoRechargeSuccess db r.orgId (provider.intentId r.idempotencyKey)
        (provider.received r.idempotencyKey * 10000) (some "auto-recharge") now
      return (s.1, true)) := by
  have hpos := provider.received_pos r.idempotencyKey
  have hcents : (provider.intentOf r none).cents = provider.received r.idempotencyKey := by
    unfold PaymentIntent.cents PaymentProvider.intentOf
    split_ifs with hzero
    · exact rfl
    · rfl
  unfold handleAutoRechargeSucceeded
  rw [if_neg (by simp [PaymentProvider.intentOf, hpurpose, hcurrency]), hcents]
  show (if provider.received r.idempotencyKey ≤ 0 then _ else _) = _
  rw [if_neg (by omega)]
  rfl

theorem deliverSuccess_sound (hw : Sound provider w) {r : ChargeRequest}
    (hrecorded : ∀ a ∈ w.db.attempts.rows, a.id = r.idempotencyKey → a.stripePaymentIntentId ≠ none) :
    Sound provider (deliverSuccess provider w r) := by
  unfold deliverSuccess
  split_ifs with hr
  · obtain ⟨hmem, hsucceeds⟩ := hr
    obtain ⟨hpurpose, hcurrency, a, ha, hkey, -⟩ := hw.charged r hmem
    rw [handleSucceeded_eq hpurpose hcurrency]
    cases hs : recordAutoRechargeSuccess w.db r.orgId (provider.intentId r.idempotencyKey)
        (provider.received r.idempotencyKey * 10000) (some "auto-recharge") w.now with
    | error _ => exact hw
    | ok s =>
        show Sound provider { w with
          db := s.1
          delivered := r.idempotencyKey :: w.delivered }
        obtain ⟨db₁, hcredit, -, hledger, -, hrows⟩ := recordSuccess_eq_ok hs
        have hsound : CreditSound provider w.charged (rechargeCredit r.orgId (provider.intentId r.idempotencyKey)
            (provider.received r.idempotencyKey * 10000) (some "auto-recharge")) := by
          intro _ k hk
          have he : r.idempotencyKey = k := provider.intentId_injective _ _ (Option.some.inj hk)
          exact ⟨r, hmem, he, rfl, by rw [← he]; rfl, rfl⟩
        -- The credit is there, new or from an earlier delivery.
        have hthere : ∃ P : Credit → Prop, Grows P w.db db₁ ∧ (∀ c, P c → CreditSound provider w.charged c) ∧
            ∃ c ∈ db₁.ledger.rows, c.source = .stripe ∧ c.sourceRef = some (provider.intentId r.idempotencyKey) := by
          refine ⟨CreditSound provider w.charged, ?_, fun _ h => h, ?_⟩
          · cases creditRecharge_eq_ok hcredit with
            | inl h => exact .of_credited h.2 hsound
            | inr h => exact .of_eq (by rw [h.2.1]) (by rw [h.2.1])
          · cases creditRecharge_eq_ok hcredit with
            | inl h => exact ⟨_, by rw [h.2.ledger]; exact List.mem_cons_self, rfl, rfl⟩
            | inr h =>
                obtain ⟨-, rfl, e, herror, hcode⟩ := h
                have hconflict := conflict_of_insertCredit herror hcode
                simp only [CreditLedger.conflict, List.any_eq_true, decide_eq_true_eq] at hconflict
                obtain ⟨c, hc, -, hsource, href⟩ := hconflict
                exact ⟨c, hc, hsource.symm, href.symm⟩
        obtain ⟨P, hgrows, hP, hthere⟩ := hthere
        refine succeed_sound (hw.grows hgrows hP) hsucceeds ⟨r, hmem, rfl⟩ hthere ?_ hledger hrows
        obtain ⟨new, hnew, hall⟩ := hgrows.attempts
        intro b hb hid
        rw [hnew] at hb
        cases List.mem_append.mp hb with
        | inl hb =>
            have := (hall b hb).2.2 a ha
            omega
        | inr hb => exact hrecorded b hb hid
  · exact hw

theorem handleFailed_eq {r : ChargeRequest} (hpurpose : r.purpose = autorechargePurpose) (error : Option String)
    (db : Db) (now : Int) : handleAutoRechargeFailed db (provider.intentOf r error) now = (do
      let db' ← recordAutoRechargeFailure db r.orgId (provider.intentId r.idempotencyKey)
        (error.getD "The card was declined.") now
      return (db', true)) := by
  unfold handleAutoRechargeFailed
  rw [if_neg (by simp [PaymentProvider.intentOf, hpurpose])]
  rfl

theorem deliverFailure_sound (hw : Sound provider w) (r : ChargeRequest) (error : Option String) :
    Sound provider (deliverFailure provider w r error) := by
  unfold deliverFailure
  split_ifs with hr
  · obtain ⟨hmem, hnot⟩ := hr
    rw [handleFailed_eq (hw.charged r hmem).1]
    cases hf : recordAutoRechargeFailure w.db r.orgId (provider.intentId r.idempotencyKey)
        (error.getD "The card was declined.") w.now with
    | error _ => exact hw
    | ok db' => exact (recordFailure_sound hw hnot hf).1
  · exact hw

end parts

/-! ### The run -/

theorem onOk_sound {w : RechargeWorld} (hw : Sound provider w) {r : Raises Db}
    (h : ∀ db, r = .ok db → Sound provider { w with db := db }) : Sound provider (w.onOk r) := by
  cases r with
  | error _ => exact hw
  | ok db => exact h db rfl

theorem recharge_step {w : RechargeWorld} {s : RechargeStep} (hC : RecordedFirst provider w s)
    (hw : Sound provider w) : Sound provider (rechargeStep provider w s) := by
  cases s with
  | advance duration =>
      exact ⟨hw.rows, hw.order, hw.charged, hw.delivered, hw.credited, hw.credits, hw.phases⟩
  | call c =>
      show Sound provider (if c.ownCall then w.onOk (execute w.db w.now c) else w)
      split_ifs with hc
      · refine onOk_sound hw fun db hdb => hw.grows (execute_grows hc hdb) fun c hP hsource => ?_
        exact absurd hsource hP
      · exact hw
  | checkout session orgId amount createdBy =>
      refine onOk_sound hw fun db hdb => hw.grows (P := fun c => c.sourceRef = some (provider.sessionId session))
        (.of_credited (insertCredit_eq_ok hdb) rfl) fun c hP _ k hk => ?_
      rw [hP] at hk
      exact absurd (Option.some.inj hk).symm (provider.intent_ne_session k session)
  | next p limit reply => exact next_sound hw hC
  | crash p => exact hw.goto trivial
  | deliverSuccess r => exact deliverSuccess_sound hw hC
  | deliverFailure r error => exact deliverFailure_sound hw r error

/-- The queue is new, and the ledger has no credit of a payment intent. -/
structure RechargeWorld.Fresh (provider : PaymentProvider) (w : RechargeWorld) : Prop where
  attempts : w.db.attempts.rows = []
  charged : w.charged = []
  delivered : w.delivered = []
  processors : ∀ p, w.processors p = .loading
  credits : ∀ c ∈ w.db.ledger.rows, ∀ k, c.sourceRef ≠ some (provider.intentId k)

theorem Sound.of_fresh {w : RechargeWorld} (h : w.Fresh provider) : Sound provider w := by
  refine ⟨?_, ?_, ?_, ?_, ?_, fun c hc _ k hk => absurd hk (h.credits c hc k), fun p => ?_⟩
  · simp [h.attempts]
  · simp [h.attempts]
  · simp [h.charged]
  · simp [h.delivered]
  · simp [h.delivered]
  · rw [h.processors p]
    trivial

/-- The credits with the id of an attempt's payment intent. -/
def rechargeCredits (provider : PaymentProvider) (db : Db) (a : RechargeAttempt) : List CreditLedgerRow :=
  db.ledger.withRef .stripe (provider.intentId a.id)

/-- **A charged attempt completes.**  In every run that meets `RecordedFirst`, an attempt whose charge succeeds,
whose intent has been recorded and whose success has been delivered is succeeded, the ledger holds one credit
for it, of the amount received, and an attempt of its organization that is active was queued later. -/
theorem recharge_completes (provider : PaymentProvider) (w : RechargeWorld) (steps : List RechargeStep)
    (hfresh : w.Fresh provider) (h : StepsMeet (rechargeStep provider) (RecordedFirst provider) w steps) :
    ∀ a ∈ (run (rechargeStep provider) w steps).db.attempts.rows, provider.Succeeds a.id →
      a.id ∈ (run (rechargeStep provider) w steps).recorded →
      a.id ∈ (run (rechargeStep provider) w steps).delivered →
      a.status = .succeeded ∧
      (∃ c, rechargeCredits provider (run (rechargeStep provider) w steps).db a = [c] ∧ c.orgId = a.orgId ∧
        c.entryType = .topup ∧ c.amount = provider.received a.id * 10000) ∧
      ∀ b ∈ (run (rechargeStep provider) w steps).db.attempts.rows, b.orgId = a.orgId → b.active = true →
        a.id < b.id := by
  have hw := run_invariant (I := Sound provider) (fun _ _ hC hw => recharge_step hC hw) steps w (.of_fresh hfresh) h
  generalize run (rechargeStep provider) w steps = w' at hw ⊢
  intro a ha _ _ hdelivered
  refine ⟨(hw.rows a ha).succeeded.mpr hdelivered, ?_, fun b hb horg hactive =>
    hw.order a ha b hb hdelivered horg hactive⟩
  obtain ⟨c, hc, hsource, href⟩ := hw.credited a.id hdelivered
  obtain ⟨r, hr, hkey, horg, hamount, htype⟩ := hw.credits c hc hsource a.id href
  obtain ⟨-, -, b, hb, hbid, hborg⟩ := hw.charged r hr
  have hba : b = a := w'.db.attempts.eq_of_key_eq hb ha (hbid.trans hkey)
  refine ⟨c, ?_, by rw [horg, ← hborg, hba], htype, hamount⟩
  exact CreditLedger.withRef_eq_singleton (CreditLedger.mem_withRef.mpr ⟨hc, hsource, href⟩)

/-- Every charge succeeds with 5 USD. -/
def payingProvider : PaymentProvider where
  intentId k := "pi_" ++ toString k
  answer _ := .intent .succeeded
  received _ := 500
  sessionId n := "cs_" ++ toString n
  intentId_injective k l h := by
    have hchars := congrArg String.toList h
    simp only [String.toList_append, List.append_cancel_left_eq] at hchars
    exact repr_injective (String.toList_inj.mp hchars)
  intent_ne_session k n h := by
    have hchars := congrArg String.toList h
    simp at hchars
  received_pos _ := by decide

/-- Organization 1 has 12 USD and recharges below 10 USD. -/
def armedWorld : RechargeWorld :=
  ⟨⟨⟨[⟨1, 12000000, 0, none, none, 0⟩], by decide, by decide⟩, [], .empty,
    ⟨[⟨1, true, 10000000, 5000000, some "cus", some "pm", none, none, 0, none, none, 0⟩], by decide, by decide⟩,
    .empty⟩, 0, fun _ => .loading, [], [], []⟩

theorem armedWorld_fresh : armedWorld.Fresh payingProvider :=
  ⟨rfl, rfl, rfl, fun _ => rfl, fun _ hc => absurd hc List.not_mem_nil⟩

/-- Organization 1 spends 4 USD, and a processor charges the attempt that is queued. -/
def chargeRun : List RechargeStep :=
  [.call (.spend 1 4000000), .next 0 25 .arrived, .next 0 25 .arrived, .next 0 25 .arrived, .next 0 25 .arrived]

/-- The request of the attempt. -/
def firstRequest : ChargeRequest := ⟨1, 5000000, "usd", "cus", "pm", autorechargePurpose, 1⟩

/-- The attempt after its success. -/
def completedAttempt : RechargeAttempt := ⟨1, 1, 5000000, .succeeded, some "pi_1", 8000000, none, 0, 0⟩

theorem recharge_completes_sample :
    (rechargeCredits payingProvider (run (rechargeStep payingProvider) armedWorld
      (chargeRun ++ [.next 0 25 .arrived, .deliverSuccess firstRequest])).db completedAttempt).length = 1 := by
  have hC : StepsMeet (rechargeStep payingProvider) (RecordedFirst payingProvider) armedWorld
      (chargeRun ++ [.next 0 25 .arrived, .deliverSuccess firstRequest]) := by
    refine ⟨trivial, trivial, trivial, trivial, fun _ => by decide, trivial, ?_, trivial⟩
    show ∀ a ∈ _, _
    decide
  obtain ⟨-, ⟨c, hc, -⟩, -⟩ := recharge_completes payingProvider armedWorld _ armedWorld_fresh hC completedAttempt
    (by decide) (.inl rfl) (by decide) (by decide)
  rw [hc]
  rfl

/-- The webhook comes before the processor has recorded the intent: the credit is there, and the attempt stays
claimed and blocks the next one. -/
theorem early_success_blocks : ¬ ∀ (provider : PaymentProvider) (w : RechargeWorld) (steps : List RechargeStep),
    w.Fresh provider → ∀ a ∈ (run (rechargeStep provider) w steps).db.attempts.rows, provider.Succeeds a.id →
      a.id ∈ (run (rechargeStep provider) w steps).recorded →
      a.id ∈ (run (rechargeStep provider) w steps).delivered → a.status = .succeeded := by
  intro h
  have hrows := h payingProvider armedWorld (chargeRun ++ [.deliverSuccess firstRequest, .next 0 25 .arrived])
    armedWorld_fresh
  have hids : ∀ a ∈ (run (rechargeStep payingProvider) armedWorld
      (chargeRun ++ [.deliverSuccess firstRequest, .next 0 25 .arrived])).db.attempts.rows,
      a.id = 1 ∧ a.status = .processing := by decide
  obtain ⟨a, ha⟩ : ∃ a, a ∈ (run (rechargeStep payingProvider) armedWorld
      (chargeRun ++ [.deliverSuccess firstRequest, .next 0 25 .arrived])).db.attempts.rows :=
    ⟨_, List.mem_cons_self⟩
  obtain ⟨hid, hstatus⟩ := hids a ha
  have := hrows a ha (.inl rfl) (by rw [hid]; decide) (by rw [hid]; decide)
  rw [hstatus] at this
  cases this

end Experiential.Billing
