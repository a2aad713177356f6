import Experiential.Billing.RechargeQueue

/-! # What auto-recharge keeps

In every run an organization has at most one active attempt, its granted credit is the sum of its ledger rows,
and an attempt enters the queue only under the guards. In the runs that are `Undisturbed` the failure counter is
the number of attempts that failed since the last success, each counted once (`recharge_invariant`).

A failure report is fenced by the status of the attempt. When its answer is lost, the processor takes the error
for a transient one and puts the attempt back in the queue by its id, failed as it is: the next pass charges it
again, and the same failure counts twice (`one_attempt_counted_twice`). -/

namespace Experiential.Billing

open Gateway

variable {provider : PaymentProvider}

/-! ### The attempts that failed -/

/-- The attempts of an organization that have failed and had not. -/
def newlyFailed (db db' : Db) (orgId : Nat) : Finset Nat :=
  ((db'.attempts.rows.filter (fun a => decide (a.orgId = orgId ∧ a.status = .failed ∧
    ∀ b ∈ db.attempts.rows, b.id = a.id → b.status ≠ .failed))).map RechargeAttempt.id).toFinset

theorem mem_newlyFailed {db db' : Db} {orgId k : Nat} :
    k ∈ newlyFailed db db' orgId ↔ ∃ a ∈ db'.attempts.rows, (a.orgId = orgId ∧ a.status = .failed ∧
      ∀ b ∈ db.attempts.rows, b.id = a.id → b.status ≠ .failed) ∧ a.id = k := by
  simp only [newlyFailed, List.mem_toFinset, List.mem_map, List.mem_filter, decide_eq_true_eq, and_assoc]

/-- The step records a success of the organization: its credit is new. -/
def RecordsSuccess (provider : PaymentProvider) (w : RechargeWorld) (orgId : Nat) : RechargeStep → Prop
  | .deliverSuccess r =>
      r.orgId = orgId ∧ w.db.ledger.rows.length < (deliverSuccess provider w r).db.ledger.rows.length
  | _ => False

instance (provider : PaymentProvider) (w : RechargeWorld) (orgId : Nat) :
    DecidablePred (RecordsSuccess provider w orgId)
  | .deliverSuccess r => inferInstanceAs (Decidable (r.orgId = orgId ∧
      w.db.ledger.rows.length < (deliverSuccess provider w r).db.ledger.rows.length))
  | .advance _ => .isFalse id
  | .call _ => .isFalse id
  | .checkout _ _ _ _ => .isFalse id
  | .next _ _ _ => .isFalse id
  | .crash _ => .isFalse id
  | .deliverFailure _ _ => .isFalse id

/-- One step more: a success starts again, and an attempt that fails is added. -/
def failedAfter (provider : PaymentProvider) (orgId : Nat) (w : RechargeWorld) (s : RechargeStep)
    (failed : Finset Nat) : Finset Nat :=
  if RecordsSuccess provider w orgId s then ∅ else failed ∪ newlyFailed w.db (rechargeStep provider w s).db orgId

/-- The attempts of an organization that failed in a run since its last success. -/
def failedSince (provider : PaymentProvider) (orgId : Nat) :
    RechargeWorld → List RechargeStep → Finset Nat → Finset Nat
  | _, [], failed => failed
  | w, s :: steps, failed =>
      failedSince provider orgId (rechargeStep provider w s) steps (failedAfter provider orgId w s failed)

/-! ### The runs that nothing disturbs -/

/-- The failures the settings of an organization tell. -/
def failuresOf (db : Db) (orgId : Nat) : Int :=
  coalesce ((db.settings.find? orgId).map RechargeSettings.consecutiveFailures) 0

/-- No attempt is closed by its id, for want of a card or of a payment intent, and none that has failed goes back
to the queue. -/
def NextUndisturbed (w : RechargeWorld) : ProcessorPhase → Prop
  | .charging a batch => savedCard batch.settings a.orgId ≠ none
  | .declining _ withIntent _ _ => withIntent = true
  | .resetting a _ _ => ∀ b ∈ w.db.attempts.rows, b.id = a.id → b.status ≠ .failed
  | _ => True

instance (w : RechargeWorld) : DecidablePred (NextUndisturbed w)
  | .charging a batch => inferInstanceAs (Decidable (savedCard batch.settings a.orgId ≠ none))
  | .declining _ withIntent _ _ => inferInstanceAs (Decidable (withIntent = true))
  | .resetting a _ _ =>
      inferInstanceAs (Decidable (∀ b ∈ w.db.attempts.rows, b.id = a.id → b.status ≠ .failed))
  | .loading => .isTrue trivial
  | .loadingSettings _ => .isTrue trivial
  | .claiming _ => .isTrue trivial
  | .recording _ _ _ => .isTrue trivial
  | .refusing _ _ _ _ => .isTrue trivial

/-- A save of the settings keeps their counter, and a success whose credit is there is delivered only while no
failure is counted. -/
def Undisturbed (provider : PaymentProvider) (w : RechargeWorld) : RechargeStep → Prop
  | .call (.saveSettings s) => s.consecutiveFailures = failuresOf w.db s.orgId
  | .deliverSuccess r =>
      (∃ c ∈ w.db.ledger.rows, c.source = .stripe ∧ c.sourceRef = some (provider.intentId r.idempotencyKey)) →
        failuresOf w.db r.orgId = 0
  | .next p _ _ => NextUndisturbed w (w.processors p)
  | _ => True

instance (provider : PaymentProvider) (w : RechargeWorld) : DecidablePred (Undisturbed provider w)
  | .call c => by
      cases c with
      | saveSettings s => exact inferInstanceAs (Decidable (s.consecutiveFailures = failuresOf w.db s.orgId))
      | _ => exact .isTrue trivial
  | .deliverSuccess r => inferInstanceAs (Decidable ((∃ c ∈ w.db.ledger.rows,
      c.source = .stripe ∧ c.sourceRef = some (provider.intentId r.idempotencyKey)) → failuresOf w.db r.orgId = 0))
  | .next p _ _ => inferInstanceAs (Decidable (NextUndisturbed w (w.processors p)))
  | .advance _ => .isTrue trivial
  | .checkout _ _ _ _ => .isTrue trivial
  | .crash _ => .isTrue trivial
  | .deliverFailure _ _ => .isTrue trivial

/-! ### What a step does to the attempts -/

/-- The same attempt, with its own payment intent if with a new one. -/
structure SameAttempt (provider : PaymentProvider) (a a' : RechargeAttempt) : Prop where
  id : a'.id = a.id
  orgId : a'.orgId = a.orgId
  intent : a'.stripePaymentIntentId = a.stripePaymentIntentId ∨
    a'.stripePaymentIntentId = some (provider.intentId a.id)

/-- Both have failed or none. -/
def SameFailure (a a' : RechargeAttempt) : Prop := a'.status = .failed ↔ a.status = .failed

/-- Every attempt stays, changed as `R` allows, and the others are queued for organizations with settings. -/
structure Linked (provider : PaymentProvider) (R : RechargeAttempt → RechargeAttempt → Prop) (db db' : Db) : Prop where
  kept : ∀ a ∈ db.attempts.rows, ∃ a' ∈ db'.attempts.rows, SameAttempt provider a a' ∧ R a a'
  found : ∀ a' ∈ db'.attempts.rows, (∃ a ∈ db.attempts.rows, SameAttempt provider a a' ∧ R a a') ∨
    a'.status = .pending ∧ a'.stripePaymentIntentId = none ∧ (db'.settings.find? a'.orgId).isSome = true

section linked
variable {R : RechargeAttempt → RechargeAttempt → Prop} {db db' : Db}

theorem Linked.of_map {p : RechargeAttempt → Bool} {f : RechargeAttempt → RechargeAttempt} (hR : ∀ a, R a a)
    (hrows : db'.attempts.rows = db.attempts.rows.map (fun a => if p a then f a else a))
    (hf : ∀ a ∈ db.attempts.rows, p a = true → SameAttempt provider a (f a) ∧ R a (f a)) :
    Linked provider R db db' := by
  have hone : ∀ a ∈ db.attempts.rows, SameAttempt provider a (if p a then f a else a) ∧ R a (if p a then f a else a) := by
    intro a ha
    split_ifs with hp
    · exact hf a ha hp
    · exact ⟨⟨rfl, rfl, .inl rfl⟩, hR a⟩
  refine ⟨fun a ha => ⟨if p a then f a else a, ?_, hone a ha⟩, fun a' ha' => ?_⟩
  · rw [hrows]
    exact List.mem_map_of_mem (f := fun a => if p a then f a else a) ha
  · rw [hrows] at ha'
    obtain ⟨a, ha, rfl⟩ := List.mem_map.mp ha'
    exact .inl ⟨a, ha, hone a ha⟩

theorem Linked.of_eq (hR : ∀ a, R a a) (h : db'.attempts.rows = db.attempts.rows) : Linked provider R db db' :=
  .of_map (p := fun _ => false) (f := id) hR (by simpa using h) (fun _ _ h => by cases h)

/-- The platform's own calls and a credit queue an attempt, at most. -/
theorem Linked.grows {P : Credit → Prop} {now : Int} (hR : ∀ a, R a a) (hgrows : Grows P db db')
    (hkeeps : StepKeeps now db db') : Linked provider R db db' := by
  obtain ⟨new, hrows, hnew⟩ := hgrows.attempts
  refine ⟨fun a ha => ⟨a, ?_, ⟨rfl, rfl, .inl rfl⟩, hR a⟩, fun a ha => ?_⟩
  · rw [hrows]
    exact List.mem_append_right _ ha
  · have hqueued := hkeeps.queued a ha
    rw [hrows] at ha
    obtain ha | ha := List.mem_append.mp ha
    · obtain ⟨hpending, hintent, hlater⟩ := hnew a ha
      obtain hold | ⟨-, hguarded⟩ := hqueued
      · obtain ⟨b, hb, hid⟩ := List.mem_map.mp hold
        have := hlater b hb
        omega
      · obtain ⟨s, hs, -⟩ := hguarded.armed
        exact .inr ⟨hpending, hintent, Option.isSome_of_mem hs⟩
    · exact .inl ⟨a, ha, ⟨rfl, rfl, .inl rfl⟩, hR a⟩

theorem newlyFailed_eq_empty {orgId : Nat} (h : Linked provider SameFailure db db') : newlyFailed db db' orgId = ∅ := by
  refine Finset.eq_empty_of_forall_notMem fun k hk => ?_
  obtain ⟨a', ha', ⟨-, hfailed, hnew⟩, -⟩ := mem_newlyFailed.mp hk
  obtain ⟨a, ha, hsame, hiff⟩ | ⟨hpending, -⟩ := h.found a' ha'
  · exact hnew a ha hsame.id.symm (hiff.mp hfailed)
  · rw [hpending] at hfailed
    cases hfailed

end linked

/-- No settings are written, and no attempt fails or stops having failed. -/
structure Quiet (provider : PaymentProvider) (db db' : Db) : Prop where
  settings : db'.settings = db.settings
  linked : Linked provider SameFailure db db'

theorem Quiet.refl (db : Db) : Quiet provider db db := ⟨rfl, .of_eq (fun _ => Iff.rfl) rfl⟩

theorem Quiet.update {db : Db} {p : RechargeAttempt → Bool} {f : RechargeAttempt → RechargeAttempt}
    {hf : ∀ a, (f a).id = a.id}
    (h : ∀ a ∈ db.attempts.rows, p a = true → SameAttempt provider a (f a) ∧ SameFailure a (f a)) :
    Quiet provider db (db.updateAttempts p f hf) := by
  unfold Db.updateAttempts
  split
  · next attempts hupdate =>
    exact ⟨rfl, .of_map (fun _ => Iff.rfl) (Table.update_eq_ok (RechargeAttempts.ofTable_eq_ok.mp hupdate)).2 h⟩
  · exact .refl db

theorem Quiet.write {w : RechargeWorld} {reply : Reply} {db : Db} (h : Quiet provider w.db db) :
    Quiet provider w.db (w.write reply db).db := by
  unfold RechargeWorld.write
  split_ifs
  · exact h
  · exact .refl w.db

theorem Quiet.record (w : RechargeWorld) (a : RechargeAttempt) (reply : Reply) :
    Quiet provider w.db (w.record provider a reply).db := by
  unfold RechargeWorld.record
  split_ifs
  · refine .update fun b _ hb => ⟨⟨rfl, rfl, .inr ?_⟩, Iff.rfl⟩
    rw [of_decide_eq_true hb]
  · exact .refl w.db

theorem Quiet.claim (w : RechargeWorld) (a : RechargeAttempt) (reply : Reply) :
    Quiet provider w.db (w.write reply (claimAttempt w.db a w.now)).db := by
  refine .write (.update fun b _ hb => ⟨⟨rfl, rfl, .inl rfl⟩, iff_of_false (by simp) fun hfailed => ?_⟩)
  simp [RechargeAttempt.claimable, RechargeAttempt.active, hfailed] at hb

/-! ### A processor's call -/

/-- The attempts a phase holds. -/
def ProcessorPhase.held : ProcessorPhase → List RechargeAttempt
  | .loading => []
  | .loadingSettings rows => rows
  | .claiming batch => batch.rows
  | .charging a batch => a :: batch.rows
  | .recording a _ batch => a :: batch.rows
  | .declining a _ _ batch => a :: batch.rows
  | .refusing a _ _ batch => a :: batch.rows
  | .resetting a _ batch => a :: batch.rows

/-- What is charged, or held by a processor, was so or comes from the table. -/
structure Moves (w w' : RechargeWorld) : Prop where
  charged : ∀ r ∈ w'.charged, r ∈ w.charged ∨
    ∃ p, ∃ a ∈ (w.processors p).held, a.id = r.idempotencyKey ∧ a.orgId = r.orgId
  held : ∀ p, ∀ a ∈ (w'.processors p).held, a ∈ (w.processors p).held ∨ a ∈ w.db.attempts.rows

section moves
variable {w w₁ w' : RechargeWorld} {p : Nat}

theorem Moves.of_eq (hc : w'.charged = w.charged) (hp : w'.processors = w.processors) : Moves w w' :=
  ⟨fun _ hr => .inl (hc ▸ hr), fun _ _ ha => .inl (hp ▸ ha)⟩

theorem Moves.goto {phase : ProcessorPhase} (h : Moves w w₁) (hsame : w₁.processors = w.processors)
    (hphase : ∀ a ∈ phase.held, a ∈ (w.processors p).held ∨ a ∈ w.db.attempts.rows) : Moves w (w₁.goto p phase) := by
  refine ⟨h.charged, fun q a ha => ?_⟩
  have ha : a ∈ (Function.update w₁.processors p phase q).held := ha
  by_cases hq : q = p
  · subst hq
    rw [Function.update_self] at ha
    exact hphase a ha
  · rw [Function.update_of_ne hq, hsame] at ha
    exact .inl ha

theorem Moves.write (w : RechargeWorld) (reply : Reply) (db : Db) :
    Moves w (w.write reply db) ∧ (w.write reply db).processors = w.processors := by
  unfold RechargeWorld.write
  split_ifs <;> exact ⟨.of_eq rfl rfl, rfl⟩

theorem Moves.record (provider : PaymentProvider) (w : RechargeWorld) (a : RechargeAttempt) (reply : Reply) :
    Moves w (w.record provider a reply) ∧ (w.record provider a reply).processors = w.processors := by
  unfold RechargeWorld.record
  split_ifs <;> exact ⟨.of_eq rfl rfl, rfl⟩

theorem Moves.charge {a : RechargeAttempt} (ha : a ∈ (w.processors p).held) (card : String × String) (effect : Bool) :
    Moves w (if effect then w.charge (chargeRequest a card) else w) ∧
      (if effect then w.charge (chargeRequest a card) else w).processors = w.processors := by
  unfold RechargeWorld.charge
  split_ifs
  · exact ⟨.of_eq rfl rfl, rfl⟩
  · refine ⟨⟨fun r hr => ?_, fun q a ha => .inl ha⟩, rfl⟩
    obtain rfl | hr := List.mem_cons.mp hr
    · exact .inr ⟨p, a, ha, rfl, rfl⟩
    · exact .inl hr
  · exact ⟨.of_eq rfl rfl, rfl⟩

end moves

theorem next_moves (w : RechargeWorld) (p limit : Nat) (reply : Reply) : Moves w (w.next provider p limit reply) := by
  have hsame : Moves w w := .of_eq rfl rfl
  unfold RechargeWorld.next
  split
  · refine hsame.goto rfl fun a ha => .inr ?_
    exact (Table.mem_firstUnlocked ha).1
  · next rows hphase =>
    split
    · exact hsame.goto rfl fun a ha => .inl (by rw [hphase]; exact ha)
    · exact hsame.goto rfl fun a ha => .inl (by rw [hphase]; exact ha)
  · exact hsame.goto rfl (by simp [ProcessorPhase.held])
  · next a rows settings hphase =>
    have hwrite := Moves.write w reply (claimAttempt w.db a w.now)
    split
    · exact hwrite.1.goto hwrite.2 (by simp [ProcessorPhase.held])
    · split_ifs
      · exact hwrite.1.goto hwrite.2 fun b hb => .inl (by rw [hphase]; exact hb)
      · exact hsame.goto rfl fun b hb => .inl (by rw [hphase]; exact List.mem_cons_of_mem _ hb)
  · next a batch hphase =>
    have hheld : (w.processors p).held = a :: batch.rows := by rw [hphase]; rfl
    split
    · have hwrite := Moves.write w reply (failAttemptById w.db a.id "No saved payment method." w.now)
      exact hwrite.1.goto hwrite.2 fun b hb => .inl (by rw [hheld]; exact List.mem_cons_of_mem _ hb)
    · next card hcard =>
      have hcharge := Moves.charge (hheld ▸ List.mem_cons_self) card reply.tookEffect
      refine hcharge.1.goto hcharge.2 fun b hb => .inl ?_
      rw [hheld]
      unfold RechargeWorld.answered at hb
      split at hb
      · exact hb
      · split at hb <;> exact hb
  · next a status batch hphase =>
    have hrecord := Moves.record provider w a reply
    refine hrecord.1.goto hrecord.2 fun b hb => .inl ?_
    rw [hphase]
    split_ifs at hb
    · exact hb
    · exact List.mem_cons_of_mem _ hb
  · next a withIntent message batch hphase =>
    split_ifs
    · have hrecord := Moves.record provider w a reply
      exact hrecord.1.goto hrecord.2 fun b hb => .inl (by rw [hphase]; exact hb)
    · have hwrite := Moves.write w reply (failAttemptById w.db a.id message w.now)
      exact hwrite.1.goto hwrite.2 fun b hb => .inl (by rw [hphase]; exact List.mem_cons_of_mem _ hb)
  · next a message caught batch hphase =>
    have hrefused : ∀ error, ∀ b ∈ ProcessorPhase.held
        (if caught then .resetting a (RechargeWorld.recordingFailed error) batch else .loading),
        b ∈ (w.processors p).held := by
      intro error b hb
      rw [hphase]
      split_ifs at hb
      · exact hb
      · cases hb
    split
    · next db hdb =>
      have hwrite := Moves.write w .arrived db
      exact hwrite.1.goto hwrite.2 fun b hb => .inl (by rw [hphase]; exact List.mem_cons_of_mem _ hb)
    · next effect error db hdb =>
      have hwrite := Moves.write w (.lost effect error) db
      exact hwrite.1.goto hwrite.2 fun b hb => .inl (hrefused error b hb)
    · next error herror => exact hsame.goto rfl fun b hb => .inl (hrefused error.message b hb)
  · next a message batch hphase =>
    have hwrite := Moves.write w reply (resetAttempt w.db a.id message w.now)
    exact hwrite.1.goto hwrite.2 fun b hb => .inl (by rw [hphase]; exact List.mem_cons_of_mem _ hb)

/-- **A processor's call is quiet, or reports a failure of an attempt it holds.** -/
theorem next_quiet {w : RechargeWorld} {p : Nat} (limit : Nat) (reply : Reply) (hC : NextUndisturbed w (w.processors p)) :
    Quiet provider w.db (w.next provider p limit reply).db ∨
    ∃ a ∈ (w.processors p).held, ∃ message,
      recordAutoRechargeFailure w.db a.orgId (provider.intentId a.id) message w.now =
        .ok (w.next provider p limit reply).db := by
  unfold RechargeWorld.next
  split
  · exact .inl (.refl w.db)
  · split <;> exact .inl (.refl w.db)
  · exact .inl (.refl w.db)
  · next a rows settings hphase =>
    split
    · exact .inl (.claim w a _)
    · split_ifs
      · exact .inl (.claim w a _)
      · exact .inl (.refl w.db)
  · next a batch hphase =>
    rw [hphase] at hC
    split
    · next hcard => exact absurd hcard hC
    · refine .inl ?_
      show Quiet provider w.db (if reply.tookEffect then w.charge _ else w).db
      unfold RechargeWorld.charge
      split_ifs <;> exact .refl w.db
  · exact .inl (.record w _ reply)
  · next a withIntent message batch hphase =>
    rw [hphase] at hC
    have hintent : withIntent = true := hC
    rw [if_pos hintent]
    exact .inl (.record w _ reply)
  · next a message caught batch hphase =>
    have hreport : ∀ reply db, recordAutoRechargeFailure w.db a.orgId (provider.intentId a.id) message w.now = .ok db →
        Quiet provider w.db (w.write reply db).db ∨ ∃ b ∈ (w.processors p).held, ∃ message,
          recordAutoRechargeFailure w.db b.orgId (provider.intentId b.id) message w.now = .ok (w.write reply db).db := by
      intro reply db hdb
      unfold RechargeWorld.write
      split_ifs
      · exact .inr ⟨a, by rw [hphase]; exact List.mem_cons_self, message, hdb⟩
      · exact .inl (.refl w.db)
    rw [hphase] at hreport ⊢
    split
    · next hdb => exact hreport _ _ hdb
    · next hdb => exact hreport _ _ hdb
    · exact .inl (.refl w.db)
  · next a message batch hphase =>
    rw [hphase] at hC
    refine .inl (.write (.update fun b hb hid => ⟨⟨rfl, rfl, .inl rfl⟩, iff_of_false (by simp) ?_⟩))
    exact hC b hb (of_decide_eq_true hid)

/-! ### What holds in every run -/

/-- Charges and processors are about attempts of the table, an attempt has its own payment intent, and its
organization has settings. -/
structure Rooted (provider : PaymentProvider) (w : RechargeWorld) : Prop where
  charged : ∀ r ∈ w.charged, ∃ a ∈ w.db.attempts.rows, a.id = r.idempotencyKey ∧ a.orgId = r.orgId
  held : ∀ p, ∀ a ∈ (w.processors p).held, Known w.db.attempts.rows a
  intent : ∀ a ∈ w.db.attempts.rows, ∀ intent, a.stripePaymentIntentId = some intent →
    intent = provider.intentId a.id
  settled : ∀ a ∈ w.db.attempts.rows, (w.db.settings.find? a.orgId).isSome = true

theorem Known.linked {R : RechargeAttempt → RechargeAttempt → Prop} {db db' : Db} {a : RechargeAttempt}
    (h : Known db.attempts.rows a) (hl : Linked provider R db db') : Known db'.attempts.rows a := by
  obtain ⟨b, hb, hid, horg⟩ := h
  obtain ⟨b', hb', hsame, -⟩ := hl.kept b hb
  exact ⟨b', hb', hsame.id.trans hid, hsame.orgId.trans horg⟩

theorem Rooted.step {R : RechargeAttempt → RechargeAttempt → Prop} {w w' : RechargeWorld} (h : Rooted provider w)
    (hl : Linked provider R w.db w'.db) (hm : Moves w w')
    (hs : ∀ org, (w.db.settings.find? org).isSome = true → (w'.db.settings.find? org).isSome = true) :
    Rooted provider w' := by
  have hknown : ∀ p, ∀ a ∈ (w.processors p).held, Known w'.db.attempts.rows a :=
    fun p a ha => (h.held p a ha).linked hl
  refine ⟨fun r hr => ?_, fun p a ha => ?_, fun a' ha' intent hintent => ?_, fun a' ha' => ?_⟩
  · obtain hr | ⟨p, a, ha, hkey, horg⟩ := hm.charged r hr
    · obtain ⟨a, ha, hkey, horg⟩ := h.charged r hr
      obtain ⟨a', ha', hsame, -⟩ := hl.kept a ha
      exact ⟨a', ha', hsame.id.trans hkey, hsame.orgId.trans horg⟩
    · obtain ⟨b, hb, hid, hborg⟩ := hknown p a ha
      exact ⟨b, hb, hid.trans hkey, hborg.trans horg⟩
  · obtain ha | ha := hm.held p a ha
    · exact hknown p a ha
    · obtain ⟨a', ha', hsame, -⟩ := hl.kept a ha
      exact ⟨a', ha', hsame.id, hsame.orgId⟩
  · obtain ⟨a, ha, hsame, -⟩ | ⟨-, hnone, -⟩ := hl.found a' ha'
    · obtain hkept | hown := hsame.intent
      · rw [hsame.id]
        exact h.intent a ha intent (hkept ▸ hintent)
      · rw [hintent] at hown
        rw [hsame.id]
        exact Option.some.inj hown
    · rw [hnone] at hintent
      cases hintent
  · obtain ⟨a, ha, hsame, -⟩ | ⟨-, -, hsettings⟩ := hl.found a' ha'
    · rw [hsame.orgId]
      exact hs a.orgId (h.settled a ha)
    · exact hsettings

/-- An attempt that awaits a report on the intent of `k` is the attempt `k`, and open. -/
theorem Rooted.of_awaits {w : RechargeWorld} (h : Rooted provider w) {a : RechargeAttempt} {k : Nat}
    (ha : a ∈ w.db.attempts.rows) (hawaits : a.awaits (provider.intentId k) = true) : a.id = k ∧ a.active = true := by
  simp only [RechargeAttempt.awaits, Bool.and_eq_true, decide_eq_true_eq] at hawaits
  exact ⟨(provider.intentId_injective _ _ (h.intent a ha _ hawaits.1)).symm, hawaits.2⟩

/-- The settings count the attempts of `failed`, and each of these has failed. -/
structure Tracked (provider : PaymentProvider) (orgId : Nat) (w : RechargeWorld) (failed : Finset Nat) : Prop extends
    Rooted provider w where
  have_failed : ∀ k ∈ failed, ∃ a ∈ w.db.attempts.rows, a.id = k ∧ a.status = .failed
  counts : failuresOf w.db orgId = failed.card

/-- The settings after a failure. -/
def RechargeSettings.failed (message : String) (now : Int) (s : RechargeSettings) : RechargeSettings :=
  { s with
    consecutiveFailures := s.consecutiveFailures + 1
    lastFailureAt := some now
    lastFailureMessage := some message
    updatedAt := now }

section tracked
variable {w w' : RechargeWorld} {orgId : Nat} {failed : Finset Nat}

theorem failed_kept {db db' : Db} (hl : Linked provider SameFailure db db')
    (h : ∀ k ∈ failed, ∃ a ∈ db.attempts.rows, a.id = k ∧ a.status = .failed) :
    ∀ k ∈ failed, ∃ a ∈ db'.attempts.rows, a.id = k ∧ a.status = .failed := by
  intro k hk
  obtain ⟨a, ha, hid, hfailed⟩ := h k hk
  obtain ⟨a', ha', hsame, hiff⟩ := hl.kept a ha
  exact ⟨a', ha', hsame.id.trans hid, hiff.mpr hfailed⟩

/-- Nothing fails, and the counter stays. -/
theorem Tracked.linked (h : Tracked provider orgId w failed) (hl : Linked provider SameFailure w.db w'.db)
    (hm : Moves w w')
    (hs : ∀ org, (w.db.settings.find? org).isSome = true → (w'.db.settings.find? org).isSome = true)
    (hcount : failuresOf w'.db orgId = failuresOf w.db orgId) :
    Tracked provider orgId w' (failed ∪ newlyFailed w.db w'.db orgId) := by
  rw [newlyFailed_eq_empty hl, Finset.union_empty]
  exact ⟨h.toRooted.step hl hm hs, failed_kept hl h.have_failed, hcount.trans h.counts⟩

theorem Tracked.quiet (h : Tracked provider orgId w failed) (hq : Quiet provider w.db w'.db) (hm : Moves w w') :
    Tracked provider orgId w' (failed ∪ newlyFailed w.db w'.db orgId) := by
  refine h.linked hq.linked hm (fun org hsome => by rw [hq.settings]; exact hsome) ?_
  unfold failuresOf
  rw [hq.settings]

/-! ### A failure report -/

theorem any_awaits_iff (h : Rooted provider w) {k : Nat} :
    w.db.attempts.rows.any (·.awaits (provider.intentId k)) = true ↔
      ∃ a ∈ w.db.attempts.rows, a.id = k ∧ a.awaits (provider.intentId k) = true := by
  rw [List.any_eq_true]
  constructor
  · rintro ⟨a, ha, hawaits⟩
    exact ⟨a, ha, (h.of_awaits ha hawaits).1, hawaits⟩
  · rintro ⟨a, ha, -, hawaits⟩
    exact ⟨a, ha, hawaits⟩

/-- **A report fails the attempt it is about, if that is open.** -/
theorem newlyFailed_report (h : Rooted provider w) {org k : Nat} {message : String} {db' : Db}
    (hreport : recordAutoRechargeFailure w.db org (provider.intentId k) message w.now = .ok db')
    (horg : ∀ a ∈ w.db.attempts.rows, a.id = k → a.orgId = org) :
    newlyFailed w.db db' orgId =
      if org = orgId ∧ w.db.attempts.rows.any (·.awaits (provider.intentId k)) then {k} else ∅ := by
  have hrows := (recordFailure_eq_ok hreport).2.2.2
  ext j
  rw [mem_newlyFailed]
  constructor
  · rintro ⟨a', ha', ⟨ha'org, hfailed, hnew⟩, rfl⟩
    rw [hrows] at ha'
    obtain ⟨a, ha, rfl⟩ := List.mem_map.mp ha'
    by_cases hawaits : a.awaits (provider.intentId k) = true
    · rw [if_pos hawaits] at ha'org ⊢
      have hid : a.id = k := (h.of_awaits ha hawaits).1
      rw [if_pos ⟨(horg a ha hid).symm.trans ha'org, List.any_eq_true.mpr ⟨a, ha, hawaits⟩⟩]
      exact Finset.mem_singleton.mpr hid
    · rw [if_neg hawaits] at hfailed hnew
      exact absurd hfailed (hnew a ha rfl)
  · intro hj
    split_ifs at hj with hboth
    · obtain rfl := Finset.mem_singleton.mp hj
      obtain ⟨a, ha, hid, hawaits⟩ := (any_awaits_iff h).mp hboth.2
      refine ⟨a.fail message w.now, ?_, ⟨(horg a ha hid).trans hboth.1, rfl, fun b hb hbid hfailed => ?_⟩, hid⟩
      · rw [hrows]
        refine List.mem_map.mpr ⟨a, ha, ?_⟩
        rw [if_pos hawaits]
      · obtain rfl : b = a := w.db.attempts.eq_of_key_eq hb ha hbid
        have hactive := (h.of_awaits ha hawaits).2
        rw [RechargeAttempt.active, hfailed] at hactive
        cases hactive
    · cases hj

/-- A report adds one to the counter if it finds the attempt open. -/
theorem recordFailure_settings {db db' : Db} {org : Nat} {intent message : String} {now : Int}
    (h : recordAutoRechargeFailure db org intent message now = .ok db') (i : Nat) :
    db'.settings.find? i = if org = i ∧ db.attempts.rows.any (·.awaits intent) then
      (db.settings.find? i).map (·.failed message now) else db.settings.find? i := by
  simp only [recordAutoRechargeFailure, bind_eq_ok, write_eq_ok] at h
  obtain ⟨attempts, -, h⟩ := h
  split_ifs at h with hany
  · simp only [bind_eq_ok, write_eq_ok, pure_eq_ok] at h
    obtain ⟨settings, hsettings, rfl⟩ := h
    simp only [hany, and_true, eq_comm (a := org)]
    exact Table.find?_update_key hsettings i
  · cases h
    rw [if_neg fun hboth => hany hboth.2]

theorem Tracked.report (h : Tracked provider orgId w failed) {org k : Nat} {message : String}
    (hreport : recordAutoRechargeFailure w.db org (provider.intentId k) message w.now = .ok w'.db)
    (horg : ∀ a ∈ w.db.attempts.rows, a.id = k → a.orgId = org) (hm : Moves w w') :
    Tracked provider orgId w' (failed ∪ newlyFailed w.db w'.db orgId) := by
  have hrows := (recordFailure_eq_ok hreport).2.2.2
  have hfind := recordFailure_settings hreport
  have hl : Linked provider (fun a a' => a.status = .failed → a'.status = .failed) w.db w'.db :=
    .of_map (fun _ h => h) hrows fun a _ _ => ⟨⟨rfl, rfl, .inl rfl⟩, fun _ => rfl⟩
  have hroot : Rooted provider w' := h.toRooted.step hl hm fun i hsome => by
    rw [hfind]
    split_ifs
    · rwa [Option.isSome_map]
    · exact hsome
  have hstay : ∀ j ∈ failed, ∃ a ∈ w'.db.attempts.rows, a.id = j ∧ a.status = .failed := by
    intro j hj
    obtain ⟨a, ha, hid, hfailed⟩ := h.have_failed j hj
    obtain ⟨a', ha', hsame, hkept⟩ := hl.kept a ha
    exact ⟨a', ha', hsame.id.trans hid, hkept hfailed⟩
  rw [newlyFailed_report h.toRooted hreport horg]
  split_ifs with hboth
  · obtain ⟨a, ha, hid, hawaits⟩ := (any_awaits_iff h.toRooted).mp hboth.2
    have hnew : k ∉ failed := by
      intro hk
      obtain ⟨b, hb, hbid, hfailed⟩ := h.have_failed k hk
      obtain rfl : b = a := w.db.attempts.eq_of_key_eq hb ha (hbid.trans hid.symm)
      have hactive := (h.of_awaits ha hawaits).2
      rw [RechargeAttempt.active, hfailed] at hactive
      cases hactive
    refine ⟨hroot, fun j hj => ?_, ?_⟩
    · obtain hj | hj := Finset.mem_union.mp hj
      · exact hstay j hj
      · obtain rfl := Finset.mem_singleton.mp hj
        refine ⟨a.fail message w.now, ?_, hid, rfl⟩
        rw [hrows]
        refine List.mem_map.mpr ⟨a, ha, ?_⟩
        rw [if_pos hawaits]
    · rw [Finset.card_union_of_disjoint (Finset.disjoint_singleton_right.mpr hnew), Finset.card_singleton]
      have hcounts := h.counts
      have hsettled := h.settled a ha
      rw [horg a ha hid, hboth.1] at hsettled
      obtain ⟨s, hs⟩ := Option.isSome_iff_exists.mp hsettled
      unfold failuresOf at hcounts ⊢
      rw [hfind, if_pos hboth, hs]
      rw [hs] at hcounts
      show s.consecutiveFailures + 1 = _
      have hcounts : s.consecutiveFailures = failed.card := hcounts
      rw [hcounts]
      rfl
  · rw [Finset.union_empty]
    refine ⟨hroot, hstay, ?_⟩
    rw [← h.counts]
    unfold failuresOf
    rw [hfind, if_neg hboth]

/-! ### A success -/

theorem recordSuccess_settings {db db' : Db} {org : Nat} {intent : String} {amount : Int} {createdBy : Option String}
    {now : Int} {outcome : RechargeOutcome}
    (h : recordAutoRechargeSuccess db org intent amount createdBy now = .ok (db', outcome)) (i : Nat) :
    db'.settings.find? i =
      if i = org then (db.settings.find? i).map (·.recharged now) else db.settings.find? i := by
  simp only [recordAutoRechargeSuccess, bind_eq_ok, write_eq_ok, pure_eq_ok] at h
  obtain ⟨⟨db₁, outcome₁⟩, hcredit, attempts, -, settings, hsettings, he⟩ := h
  cases he
  have hsame : db₁.settings = db.settings := by
    obtain ⟨-, hcredited⟩ | ⟨-, rfl, -⟩ := creditRecharge_eq_ok hcredit
    · exact hcredited.settings
    · rfl
  rw [← hsame]
  exact Table.find?_update_key hsettings i

/-- A success closes the attempts that await it, none of which has failed. -/
theorem recordSuccess_linked {db db' : Db} {org : Nat} {intent : String} {amount : Int} {createdBy : Option String}
    {now : Int} {outcome : RechargeOutcome}
    (h : recordAutoRechargeSuccess db org intent amount createdBy now = .ok (db', outcome)) :
    Linked provider SameFailure db db' := by
  obtain ⟨db₁, hcredit, -, -, -, hrows⟩ := recordSuccess_eq_ok h
  rw [creditRecharge_attempts hcredit] at hrows
  refine .of_map (fun _ => Iff.rfl) hrows fun a _ hawaits =>
    ⟨⟨rfl, rfl, .inl rfl⟩, iff_of_false (by simp) fun hfailed => ?_⟩
  simp [RechargeAttempt.awaits, RechargeAttempt.active, hfailed] at hawaits

theorem deliverSuccess_moves (w : RechargeWorld) (r : ChargeRequest) : Moves w (deliverSuccess provider w r) := by
  unfold deliverSuccess
  split_ifs
  · split <;> exact .of_eq rfl rfl
  · exact .of_eq rfl rfl

theorem Tracked.deliverSuccess {r : ChargeRequest} (h : Tracked provider orgId w failed)
    (hC : Undisturbed provider w (.deliverSuccess r)) :
    Tracked provider orgId (rechargeStep provider w (.deliverSuccess r))
      (failedAfter provider orgId w (.deliverSuccess r) failed) := by
  have hm : Moves w (rechargeStep provider w (.deliverSuccess r)) := deliverSuccess_moves w r
  unfold failedAfter
  obtain hsame | ⟨org, outcome, hreport, rfl⟩ := deliverSuccess_db provider w r
  · rw [if_neg fun hrecords => absurd hrecords.2 (by rw [hsame]; exact lt_irrefl _)]
    refine h.quiet ?_ hm
    rw [rechargeStep, hsame]
    exact .refl w.db
  · have hlinked : Linked provider SameFailure w.db (rechargeStep provider w (.deliverSuccess r)).db :=
      recordSuccess_linked hreport
    have hfind := recordSuccess_settings hreport
    have hsettings : ∀ i, (w.db.settings.find? i).isSome = true →
        ((rechargeStep provider w (.deliverSuccess r)).db.settings.find? i).isSome = true := by
      intro i hsome
      rw [rechargeStep, hfind]
      split_ifs
      · rwa [Option.isSome_map]
      · exact hsome
    have hcounter : failuresOf (rechargeStep provider w (.deliverSuccess r)).db orgId =
        if orgId = r.orgId then 0 else failuresOf w.db orgId := by
      unfold failuresOf
      rw [rechargeStep, hfind]
      split_ifs
      · cases w.db.settings.find? orgId <;> rfl
      · rfl
    obtain ⟨db₁, hcredit, -, hledger, -⟩ := recordSuccess_eq_ok hreport
    by_cases hrecords : RecordsSuccess provider w orgId (.deliverSuccess r)
    · rw [if_pos hrecords]
      refine ⟨h.toRooted.step hlinked hm hsettings, by simp, ?_⟩
      rw [hcounter, if_pos hrecords.1.symm]
      rfl
    · rw [if_neg hrecords]
      refine h.linked hlinked hm hsettings ?_
      rw [hcounter]
      split_ifs with horg
      · -- The credit is not new, so that it was in the ledger, and nothing is counted.
        subst horg
        symm
        obtain ⟨-, hcredited⟩ | ⟨-, -, e, herror, hcode⟩ := creditRecharge_eq_ok hcredit
        · refine absurd ⟨rfl, ?_⟩ hrecords
          rw [hledger, hcredited.ledger, List.length_cons]
          omega
        · have hconflict := conflict_of_insertCredit herror hcode
          simp only [CreditLedger.conflict, List.any_eq_true, decide_eq_true_eq] at hconflict
          obtain ⟨c, hc, -, hsource, href⟩ := hconflict
          exact hC ⟨c, hc, hsource.symm, href.symm⟩
      · rfl

/-! ### Steps -/

theorem onOk_moves (w : RechargeWorld) (r : Raises Db) : Moves w (w.onOk r) := by
  cases r with
  | error _ | ok db => exact .of_eq rfl rfl

theorem onOk_quiet {r : Raises Db} (h : ∀ db, r = .ok db → Quiet provider w.db db) :
    Quiet provider w.db (w.onOk r).db := by
  cases r with
  | error _ => exact .refl w.db
  | ok db => exact h db rfl

/-- A save writes the settings only, and keeps their counter. -/
theorem Tracked.saved {s : RechargeSettings} (h : Tracked provider orgId w failed)
    (hC : s.consecutiveFailures = failuresOf w.db s.orgId) :
    Tracked provider orgId (w.onOk (saveSettings w.db s))
      (failed ∪ newlyFailed w.db (w.onOk (saveSettings w.db s)).db orgId) := by
  cases hsave : saveSettings w.db s with
  | error _ => exact h.quiet (.refl w.db) (.of_eq rfl rfl)
  | ok db =>
      obtain ⟨hfind, hsame⟩ := saveSettings_eq_ok hsave
      have hattempts : db.attempts.rows = w.db.attempts.rows := by rw [hsame]
      show Tracked provider orgId { w with db := db } (failed ∪ newlyFailed w.db db orgId)
      refine h.linked (.of_eq (fun _ => Iff.rfl) hattempts) (.of_eq rfl rfl) ?_ ?_
      · intro i hsome
        show (db.settings.find? i).isSome = true
        rw [hfind]
        split_ifs
        · rfl
        · exact hsome
      · show coalesce ((db.settings.find? orgId).map RechargeSettings.consecutiveFailures) 0 = failuresOf w.db orgId
        rw [hfind]
        split_ifs with horg
        · rw [horg, ← hC]
          rfl
        · rfl

/-- Every other call of the platform is quiet. -/
theorem execute_quiet {c : BillingCall} {db : Db} (hown : c.ownCall = true) (hc : ∀ s, c ≠ .saveSettings s)
    (h : execute w.db w.now c = .ok db) : Quiet provider w.db db := by
  refine ⟨?_, .grows (fun _ => Iff.rfl) (execute_grows hown h) (ownCall_keeps hown h)⟩
  cases c with
  | credit c => exact (insertCredit_own h).settings
  | spend org delta => exact (spend_own h).settings
  | launch org amount expiresAt createdBy =>
      simp only [execute, bind_eq_ok, pure_eq_ok] at h
      obtain ⟨r, hr, rfl⟩ := h
      exact (launch_own hr).settings
  | expire scan =>
      simp only [execute, bind_eq_ok, pure_eq_ok] at h
      obtain ⟨r, hr, rfl⟩ := h
      exact (expire_own hr).settings
  | saveSettings s => exact absurd rfl (hc s)
  | rechargeSucceeded _ _ _ _ | rechargeFailed _ _ _ => cases hown

theorem Tracked.call {c : BillingCall} (h : Tracked provider orgId w failed)
    (hC : Undisturbed provider w (.call c)) :
    Tracked provider orgId (rechargeStep provider w (.call c)) (failedAfter provider orgId w (.call c) failed) := by
  show Tracked provider orgId (if c.ownCall then w.onOk (execute w.db w.now c) else w)
    (failed ∪ newlyFailed w.db (if c.ownCall then w.onOk (execute w.db w.now c) else w).db orgId)
  by_cases hsave : ∃ s, c = .saveSettings s
  · obtain ⟨s, rfl⟩ := hsave
    exact h.saved hC
  · split_ifs with hown
    · exact h.quiet (onOk_quiet fun db hdb => execute_quiet hown (fun s hs => hsave ⟨s, hs⟩) hdb) (onOk_moves w _)
    · exact h.quiet (.refl w.db) (.of_eq rfl rfl)

/-- The attempts that are the same as the one a processor holds have its organization. -/
theorem Rooted.org_of_held (h : Rooted provider w) {p : Nat} {a b : RechargeAttempt}
    (ha : a ∈ (w.processors p).held) (hb : b ∈ w.db.attempts.rows) (hid : b.id = a.id) : b.orgId = a.orgId := by
  obtain ⟨c, hc, hcid, hcorg⟩ := h.held p a ha
  obtain rfl : b = c := w.db.attempts.eq_of_key_eq hb hc (hid.trans hcid.symm)
  exact hcorg

theorem Tracked.deliverFailure {r : ChargeRequest} {error : Option String} (h : Tracked provider orgId w failed) :
    Tracked provider orgId (deliverFailure provider w r error)
      (failed ∪ newlyFailed w.db (deliverFailure provider w r error).db orgId) := by
  by_cases hr : r ∈ w.charged ∧ ¬ provider.Succeeds r.idempotencyKey
  · have hm : Moves w (Billing.deliverFailure provider w r error) := by
      unfold Billing.deliverFailure
      split_ifs
      split <;> exact .of_eq rfl rfl
    obtain hsame | ⟨message, hreport⟩ := deliverFailure_db provider w r error
    · refine h.quiet ?_ hm
      rw [hsame]
      exact .refl w.db
    · refine h.report hreport (fun b hb hid => ?_) hm
      obtain ⟨a, ha, haid, haorg⟩ := h.charged r hr.1
      obtain rfl : b = a := w.db.attempts.eq_of_key_eq hb ha (hid.trans haid.symm)
      exact haorg
  · have hstay : Billing.deliverFailure provider w r error = w := if_neg hr
    rw [hstay]
    exact h.quiet (.refl w.db) (.of_eq rfl rfl)

theorem Tracked.step {s : RechargeStep} (h : Tracked provider orgId w failed) (hC : Undisturbed provider w s) :
    Tracked provider orgId (rechargeStep provider w s) (failedAfter provider orgId w s failed) := by
  cases s with
  | advance duration => exact h.quiet (.refl w.db) (.of_eq rfl rfl)
  | call c => exact h.call hC
  | checkout session org amount createdBy =>
      refine h.quiet (onOk_quiet fun db hdb => ?_) (onOk_moves w _)
      have hown := insertCredit_own hdb
      exact ⟨hown.settings, .grows (P := fun _ => True) (fun _ => Iff.rfl)
        (.of_credited (insertCredit_eq_ok hdb) trivial) hown.keeps⟩
  | next p limit reply =>
      obtain hquiet | ⟨a, ha, message, hreport⟩ := next_quiet limit reply hC
      · exact h.quiet hquiet (next_moves w p limit reply)
      · exact h.report hreport (fun b hb hid => h.org_of_held ha hb hid) (next_moves w p limit reply)
  | crash p =>
      exact h.quiet (.refl w.db) (Moves.goto (.of_eq rfl rfl) rfl (by simp [ProcessorPhase.held]))
  | deliverSuccess r => exact h.deliverSuccess hC
  | deliverFailure r error => exact h.deliverFailure

end tracked

theorem tracked_run {orgId : Nat} : ∀ (steps : List RechargeStep) (w : RechargeWorld) (failed : Finset Nat),
    StepsMeet (rechargeStep provider) (Undisturbed provider) w steps → Tracked provider orgId w failed →
    Tracked provider orgId (run (rechargeStep provider) w steps) (failedSince provider orgId w steps failed)
  | [], _, _, _, h => h
  | _ :: steps, _, _, ⟨hC, hrest⟩, h => tracked_run steps _ _ hrest (h.step hC)

theorem Rooted.of_fresh {w : RechargeWorld} (h : w.Fresh provider) : Rooted provider w := by
  refine ⟨by simp [h.charged], fun p a ha => ?_, by simp [h.attempts], by simp [h.attempts]⟩
  rw [h.processors] at ha
  cases ha

/-! ### Runs -/

/-- **The invariant of auto-recharge.**  In every run: one active attempt an organization, books that balance, and
attempts queued under the guards only. In a run that starts with an empty queue and whose steps are undisturbed,
the failure counter is the number of attempts that failed since the last success, each counted once. -/
theorem recharge_invariant (provider : PaymentProvider) (w : RechargeWorld) (hw : Booked w.db)
    (steps : List RechargeStep) :
    OneActive (run (rechargeStep provider) w steps).db.attempts.rows ∧
    Booked (run (rechargeStep provider) w steps).db ∧
    (∀ (s : RechargeStep), ∀ a ∈ (rechargeStep provider (run (rechargeStep provider) w steps) s).db.attempts.rows,
      a.id ∈ (run (rechargeStep provider) w steps).db.attempts.rows.map RechargeAttempt.id ∨
      a.status = .pending ∧ Guarded (rechargeStep provider (run (rechargeStep provider) w steps) s).db
        (run (rechargeStep provider) w steps).now a.orgId) ∧
    (w.Fresh provider → (∀ orgId, failuresOf w.db orgId = 0) →
      StepsMeet (rechargeStep provider) (Undisturbed provider) w steps → ∀ orgId,
      failuresOf (run (rechargeStep provider) w steps).db orgId = (failedSince provider orgId w steps ∅).card) := by
  have hbooked : Booked (run (rechargeStep provider) w steps).db :=
    run_invariant_of_forall (I := fun w : RechargeWorld => Booked w.db)
      (fun w s hw => (rechargeStep_keeps w s).books hw) steps w hw
  refine ⟨RechargeAttempts.one_active _, hbooked, fun s => (rechargeStep_keeps _ s).queued, ?_⟩
  intro hfresh hzero hmeet orgId
  have hstart : Tracked provider orgId w ∅ := ⟨.of_fresh hfresh, by simp, hzero orgId⟩
  exact (tracked_run steps w ∅ hmeet hstart).counts

/-- Organization 1 was granted 12 USD, and the ledger says so. -/
def bookedWorld : RechargeWorld :=
  { armedWorld with db := { armedWorld.db with
      ledger := { armedWorld.db.ledger with
        rows := [⟨⟨1, .grant, 12000000, none, .admin, none, none, none, none⟩, 1, 0⟩]
        keyed := by decide
        checked := by decide
        unique_ref := by decide } } }

theorem bookedWorld_booked : Booked bookedWorld.db := by
  intro i o ho
  obtain ⟨hmem, rfl⟩ := Table.find?_eq_some.mp ho
  obtain rfl := List.mem_singleton.mp hmem
  rfl

theorem bookedWorld_fresh {provider : PaymentProvider} : bookedWorld.Fresh provider := by
  refine ⟨rfl, rfl, rfl, fun _ => rfl, fun c hc k href => ?_⟩
  obtain rfl := List.mem_singleton.mp hc
  cases href

theorem bookedWorld_calm (orgId : Nat) : failuresOf bookedWorld.db orgId = 0 := by
  unfold failuresOf
  cases hs : bookedWorld.db.settings.find? orgId with
  | none => rfl
  | some s =>
      obtain ⟨hmem, -⟩ := Table.find?_eq_some.mp hs
      obtain rfl := List.mem_singleton.mp hmem
      rfl

/-- Attempt 1 succeeds, attempt 2 is declined, and the webhook reports the decline once more. -/
def declinedTwiceRun : List RechargeStep :=
  declinedRun ++ [.deliverFailure { firstRequest with idempotencyKey := 2 } (some "declined")]

theorem recharge_invariant_sample :
    failuresOf (run (rechargeStep decliningProvider) bookedWorld declinedTwiceRun).db 1 = 1 := by
  have hcounts := (recharge_invariant decliningProvider bookedWorld bookedWorld_booked declinedTwiceRun).2.2.2
    bookedWorld_fresh bookedWorld_calm (by decide +kernel) 1
  have hfailed : (failedSince decliningProvider 1 bookedWorld declinedTwiceRun ∅).card = 1 := by decide +kernel
  rw [hcounts, hfailed]
  rfl

/-- Every charge asks for the card's owner. -/
def askingProvider : PaymentProvider := { payingProvider with answer := fun _ => .intent .requiresAction }

/-- The failure of attempt 1 is recorded and the answer lost; the processor puts the attempt back, charges it again
and reports the same failure again. -/
def lostReportRun : List RechargeStep :=
  chargeRun ++ [.next 0 25 .arrived, .next 0 25 (.lost true "fetch failed"), .next 0 25 .arrived,
    .next 0 25 .arrived] ++ List.replicate 6 (.next 0 25 .arrived)

/-- One attempt failed, and the settings tell two failures. -/
theorem one_attempt_counted_twice : Booked bookedWorld.db ∧ bookedWorld.Fresh askingProvider ∧
    (∀ orgId, failuresOf bookedWorld.db orgId = 0) ∧
    let w := run (rechargeStep askingProvider) bookedWorld lostReportRun
    w.db.attempts.rows.map (fun a => (a.id, a.status)) = [(1, .failed)] ∧
    (failedSince askingProvider 1 bookedWorld lostReportRun ∅).card = 1 ∧ failuresOf w.db 1 = 2 :=
  ⟨bookedWorld_booked, bookedWorld_fresh, bookedWorld_calm, by decide +kernel, by decide +kernel, by decide +kernel⟩

end Experiential.Billing
