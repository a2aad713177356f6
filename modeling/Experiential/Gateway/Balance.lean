import Experiential.Gateway.Budgets

/-! # The balance gate

The billable spend of an organization moves only when an explicit settle call settles a
dispatched platform-funded attempt that no promotion pays for, and then by exactly the charge
it writes on the attempt. So over every run `billing_conserved`: billable spend is where it
started plus what the settled platform-funded attempts carry. A call that has succeeded once
finds its attempt settled, so repeating it debits nothing (`Recorded`).

The gate admits a dispatch while the available balance is positive, whatever its worst case;
so one reservation can take the balance below zero, by less than itself, and no further one is
admitted until it is positive again. Settlements within their reservations only give back
(`available_settles`), so over every run the balance stays above minus the largest reservation
the run admitted (`overdraft_bounded`). A discounted attempt is no exception: the discount is
monotone, so a list charge within the declared maximum stays within the discounted reservation
(`discounted_within`). -/

namespace Experiential.Gateway

/-- Billable spend of an organization. -/
def Db.billable (db : Db) (orgId : Nat) : Int :=
  coalesce ((db.organizations.find? orgId).map (·.billableSpend)) 0

/-- Sum of the settled charges of the organization's platform-funded attempts. -/
def Db.settledCharges (db : Db) (orgId : Nat) : Int :=
  db.attempts.sumWhere (fun a => a.hostOf orgId && decide (a.state ≠ .dispatched))
    (fun a => coalesce a.budgetSettled 0)

variable {db db' : Db}

theorem Debited.billable {orgId : Nat} {amount : Int} (h : Debited db db' orgId amount)
    (id : Nat) : db'.billable id = db.billable id + if id = orgId then amount else 0 := by
  obtain ⟨n, hn⟩ := h.find?
  unfold Db.billable
  rw [hn]
  cases ho : db.organizations.find? id with
  | none =>
      split_ifs with hid
      · by_cases h0 : amount = 0
        · simp [h0]
        · obtain ⟨o, ho'⟩ := h.exists_of_ne h0
          rw [hid, ho'] at ho
          cases ho
      · simp
  | some o =>
      obtain rfl := (Table.find?_eq_some.mp ho).2
      split_ifs with hid
      · simp [hid]
      · simp [hid]

/-- A settlement moves the settled charges of its organization by what it writes. -/
theorem Settles.settledCharges {a : GatewayAttempt} {s : Settlement}
    (h : Settles db a s db') (orgId : Nat) : db'.settledCharges orgId =
      db.settledCharges orgId + if a.hostOf orgId then s.budgetSettled else 0 := by
  unfold Db.settledCharges
  rw [h.attempts.sumWhere, Table.share_false (by simp [h.dispatched])]
  have hs : (a.settle s).hostOf orgId = a.hostOf orgId := rfl
  simp [Table.share, hs, s.terminal]

/-- The conservation law of one organization, with its free attempts. -/
structure Conserved (base : Nat → Int) (db : Db) : Prop where
  billable : ∀ orgId, db.billable orgId = base orgId + db.settledCharges orgId
  free : ∀ a ∈ db.attempts, a.billingSource = .hostManaged → a.promoFunded = true →
    a.state ≠ .dispatched → a.budgetSettled = some 0

theorem crash_host {a : GatewayAttempt} (h : a.billingSource = .hostManaged) (now : Int) :
    (a.crash now).budgetSettled = 0 := by
  simp [GatewayAttempt.crash, GatewayAttempt.crashSettled, h]

theorem Conserved.settles {base : Nat → Int} {a : GatewayAttempt} {s : Settlement}
    (hdb : Conserved base db) (h : Settles db a s db')
    (hfree : a.billingSource = .hostManaged → a.promoFunded = true → s.budgetSettled = 0) :
    Conserved base db' := by
  constructor
  · intro orgId
    rw [h.organizations.billable, hdb.billable, h.settledCharges]
    simp only [GatewayAttempt.hostOf, Bool.and_eq_true, decide_eq_true_eq]
    by_cases hhost : a.billingSource = .hostManaged
    · cases hp : a.promoFunded with
      | true => simp [hfree hhost hp]
      | false => simp [hhost, eq_comm, add_assoc]
    · simp [hhost]
  · intro b hb hhost hp hs
    rcases h.attempts.mem_iff.mp hb with rfl | ⟨hb, -⟩
    · simp only [settle_budgetSettled, hfree hhost hp]
    · exact hdb.free b hb hhost hp hs

theorem Conserved.move {T : Terms} {base : Nat → Int} (h : Move T db db')
    (hdb : Conserved base db) : Conserved base db' := by
  cases h with
  | accept p d now hT hfresh hgate h =>
      obtain ⟨t, hfk, -, rfl⟩ := Db.insertRequest_eq_ok h
      exact ⟨hdb.billable, hdb.free⟩
  | reserve p r c f id hT hr hf h =>
      obtain ⟨t, hfk, ht, rfl⟩ := Db.insertAttempt_eq_ok h
      constructor
      · intro orgId
        have hrow : (p.row r f id c).state = .dispatched := rfl
        have := hdb.billable orgId
        unfold Db.settledCharges at this ⊢
        rw [Table.sumWhere_insert ht, Table.share_false (by simp [hrow]), zero_add]
        exact this
      · intro a ha hhost hp hs
        rcases (Table.mem_insert ht).mp ha with rfl | ha
        · exact absurd rfl hs
        · exact hdb.free a ha hhost hp hs
  | settle p o u now a s hs hT h => exact hdb.settles h (fun _ => settlement_free hs)
  | crash a now hT h => exact hdb.settles h (fun hhost _ => crash_host hhost now)
  | close r s h =>
      constructor
      · intro orgId
        have := hdb.billable orgId
        unfold Db.billable Db.settledCharges at this ⊢
        rw [h.attempts, h.organizations]
        exact this
      · rw [h.attempts]
        exact hdb.free

/-! ### Repeated calls -/

/-- The effect of the call is on record: the attempt a settle call names is settled. -/
def Recorded (db : Db) (call : GatewayCall) : Prop :=
  ∀ p, call = .settle p → ∃ a ∈ db.attempts, a.attemptId = p.attemptId ∧ a.state ≠ .dispatched

theorem ClosesIf.attempts {finalize : Bool} {requestId : String} {s : TerminalState}
    (h : ClosesIf finalize db requestId s db') : db'.attempts = db.attempts := by
  rcases h with ⟨-, rfl⟩ | ⟨-, r, -, hcl⟩
  · rfl
  · exact hcl.attempts

variable {call : GatewayCall}

theorem recorded_of_ok {e : Env} (h : execute db (call, e) = .ok db') : Recorded db' call := by
  rintro p rfl
  obtain ⟨o, u, a, -, -, ha, hcase⟩ := settleAttempt_eq_ok h
  obtain ⟨hmem, hid⟩ := Table.find?_eq_some.mp ha
  rcases hcase with ⟨s, db₁, -, hset, hcl⟩ | ⟨hne, -, hcl⟩
  · refine ⟨a.settle s, ?_, hid, s.terminal⟩
    rw [hcl.attempts]
    exact hset.attempts.mem_new
  · exact ⟨a, hcl.attempts ▸ hmem, hid, hne⟩

theorem Recorded.move {T : Terms} (h : Move T db db') (hdb : Recorded db call) : Recorded db' call := by
  intro p hp
  obtain ⟨a, ha, hid, hs⟩ := hdb p hp
  exact ⟨a, h.mem_of_settled ha hs, hid, hs⟩

theorem Recorded.callStep {db : Db} (hdb : Recorded db call)
    (c : GatewayCall × Env) : Recorded (callStep db c) call :=
  callStep_preserves (T := {}) (fun _ _ => Recorded.move) (meets_of_forall c) hdb

/-- Terms under which no settle call settles anything. -/
def settlesNothing : Terms := { settle := fun _ _ _ => False }

theorem Recorded.meets {db : Db} (h : Recorded db call) (e : Env) : Meets settlesNothing db (call, e) := by
  cases call with
  | settle p =>
      intro o u a s ho hu ha hd hs
      obtain ⟨b, hb, hid, hne⟩ := h p rfl
      obtain ⟨hmem, hid'⟩ := Table.find?_eq_some.mp ha
      rw [db.attempts.eq_of_key_eq hmem hb (hid'.trans hid.symm)] at hd
      exact hne hd
  | acceptAndStart p => exact ⟨trivial, fun _ _ => trivial⟩
  | reconcile g => exact fun _ _ _ _ _ => trivial
  | _ => trivial

theorem billable_move (h : Move settlesNothing db db') (orgId : Nat) : db'.billable orgId = db.billable orgId := by
  cases h with
  | accept p d now hT hfresh hgate h =>
      obtain ⟨t, hfk, -, rfl⟩ := Db.insertRequest_eq_ok h
      rfl
  | reserve p r c f id hT hr hf h =>
      obtain ⟨t, hfk, -, rfl⟩ := Db.insertAttempt_eq_ok h
      rfl
  | settle p o u now a s hs hT h => exact hT.elim
  | crash a now hT h =>
      have := h.organizations.billable orgId
      rw [crash_debit] at this
      simpa using this
  | close r s h =>
      unfold Db.billable
      rw [h.organizations]

/-- Calls on record, repeated in any order, debit nothing. -/
theorem billable_replays {replays : List (GatewayCall × Env)} : ∀ {db : Db},
    (∀ c ∈ replays, Recorded db c.1) → ∀ orgId,
      (run callStep db replays).billable orgId = db.billable orgId := by
  induction replays with
  | nil => exact fun _ _ => rfl
  | cons c cs ih =>
      intro db h orgId
      rw [run_cons, ih fun c' hc' => (h c' (List.mem_cons_of_mem _ hc')).callStep c]
      refine callStep_preserves (T := settlesNothing)
        (I := fun db' => db'.billable orgId = db.billable orgId) ?_ ((h c List.mem_cons_self).meets c.2) rfl
      intro db₁ db₂ hmove hdb
      rw [billable_move hmove, hdb]

/-! ### Conservation over runs -/

/-- The call succeeded somewhere in the run. -/
def Succeeded (db : Db) (calls : List (GatewayCall × Env)) (call : GatewayCall) : Prop :=
  ∃ before e after db', calls = before ++ (call, e) :: after ∧
    execute (run callStep db before) (call, e) = .ok db'

theorem Succeeded.recorded {db : Db} {calls : List (GatewayCall × Env)}
    (h : Succeeded db calls call) : Recorded (run callStep db calls) call := by
  obtain ⟨before, e, after, db', rfl, hok⟩ := h
  rw [run_append, run_cons]
  refine run_invariant_of_forall (I := fun db => Recorded db call) (fun _ c hdb => hdb.callStep c) _ _ ?_
  rw [callStep_of_ok hok]
  exact recorded_of_ok hok

/-- **Billing conservation.**  From a state in which no platform-funded attempt has settled, over
every run: billable spend is its initial value plus the settled charges of the platform-funded
attempts; free attempts charge nothing; and repeating calls that succeeded changes nothing. -/
theorem billing_conserved (db : Db)
    (h : ∀ a ∈ db.attempts, a.billingSource = .hostManaged → a.state = .dispatched)
    (calls : List (GatewayCall × Env)) :
    (∀ orgId, (run callStep db calls).billable orgId =
      db.billable orgId + (run callStep db calls).settledCharges orgId) ∧
    (∀ a ∈ (run callStep db calls).attempts, a.billingSource = .hostManaged → a.promoFunded = true →
      a.state ≠ .dispatched → a.budgetSettled = some 0) ∧
    ∀ replays : List (GatewayCall × Env), (∀ c ∈ replays, Succeeded db calls c.1) →
      ∀ orgId, (run callStep (run callStep db calls) replays).billable orgId =
        (run callStep db calls).billable orgId := by
  have hinit : Conserved db.billable db := by
    constructor
    · intro orgId
      have : db.settledCharges orgId = 0 := by
        refine Table.sumWhere_eq_zero fun a ha => ?_
        by_cases hhost : a.billingSource = .hostManaged
        · exact Table.share_false (by simp [h a ha hhost])
        · exact Table.share_false (by simp [GatewayAttempt.hostOf, hhost])
      omega
    · exact fun a ha hhost _ hs => absurd (h a ha hhost) hs
  have hrun : Conserved db.billable (run callStep db calls) :=
    run_invariant_of_forall (fun _ c => callStep_preserves (T := {}) (fun _ _ => Conserved.move)
      (meets_of_forall c)) calls db hinit
  exact ⟨hrun.billable, hrun.free, fun replays hr => billable_replays fun c hc => (hr c hc).recorded⟩

/-- One platform-funded attempt, settled for 3 USD. -/
def sampleSettled : List (GatewayCall × Env) :=
  [(GatewayCall.accept (sampleAccept "r1" none 1000)).atTime 0 "",
    (GatewayCall.start (sampleStart "r1" 0 .hostManaged 5000000)).atTime 1 "a1",
    (GatewayCall.settle (sampleSettle "a1" .completed 3 true)).atTime 2 ""]

theorem billing_conserved_sample :
    (run callStep sampleDb sampleSettled).billable 1 = 0 + 3000000 ∧
    (run callStep (run callStep sampleDb sampleSettled)
      [(GatewayCall.settle (sampleSettle "a1" .completed 3 true)).atTime 9 ""]).billable 1 =
        (run callStep sampleDb sampleSettled).billable 1 := by
  have hlaw := billing_conserved sampleDb (fun a ha => absurd ha (Table.not_mem_empty a)) sampleSettled
  refine ⟨(hlaw.1 1).trans (by rfl), hlaw.2.2 _ ?_ 1⟩
  simp only [List.mem_singleton, forall_eq]
  exact ⟨sampleSettled.take 2, ⟨2, .at 2, ""⟩, [], _, rfl, rfl⟩

/-- Granted credit of an organization. -/
def Db.granted (db : Db) (orgId : Nat) : Int :=
  coalesce ((db.organizations.find? orgId).map (·.creditGranted)) 0

/-- An outstanding attempt that draws credits. -/
def GatewayAttempt.drawsCredits (a : GatewayAttempt) (orgId : Nat) : Bool :=
  a.hostOf orgId && !a.promoFunded

/-- Reservations of the organization's outstanding attempts that draw credits. -/
def Db.committed (db : Db) (orgId : Nat) : Int :=
  db.attempts.sumWhere (fun a => a.drawsCredits orgId && decide (a.state = .dispatched))
    (·.budgetReserved)

/-- Available balance: granted credit minus billable spend minus what is committed. -/
def Db.available (db : Db) (orgId : Nat) : Int :=
  db.granted orgId - db.billable orgId - db.committed orgId

theorem Debited.granted {orgId : Nat} {amount : Int} (h : Debited db db' orgId amount)
    (id : Nat) : db'.granted id = db.granted id := by
  obtain ⟨n, hn⟩ := h.find?
  unfold Db.granted
  rw [hn]
  cases db.organizations.find? id with
  | none => rfl
  | some o =>
      simp only [Option.map_some]
      split_ifs <;> rfl

theorem committed_le_outstanding (db : Db) (orgId : Nat) : db.committed orgId ≤ db.outstanding orgId := by
  refine Table.sumWhere_subset ?_ fun a ha => (db.attempts.checked a ha).budgetReserved
  intro a ha
  simp only [GatewayAttempt.drawsCredits, Bool.and_eq_true] at ha ⊢
  exact ⟨ha.1.1, ha.2⟩

/-! ### Discounts -/

/-- The reservation of a dispatch that draws credits is its maximum cost, discounted. -/
theorem reserved_of_funded {db : Db} {p : StartArgs} {r : GatewayRequest} {c : StartClock} {f : Funding}
    {w : Int} (hf : Funded db p r c f) (hw : p.maximumCost = some w) (hfree : f.free = false) :
    f.chargeWorst = f.percentOff.off w := by
  cases hb : p.billingSource with
  | customerManaged => simp [hf.customer hb, Funding.passThrough, hw]
  | hostManaged =>
      obtain ⟨s, w', hw', -, rfl⟩ := (hf.host hb).promo
      obtain rfl : w' = w := Option.some.inj (hw'.symm.trans hw)
      have hs : s.free = false := hfree
      simp only [fundingOf, hs, Bool.not_false, Bool.true_and]
      split_ifs with hpos
      · rfl
      · rw [Percent.off_of_not_isPos (by simpa using hpos)]

/-- A settled discounted charge stays within the discounted reservation, when the list charge
stays within the maximum cost the start declared. -/
theorem discounted_within {db : Db} {p : StartArgs} {r : GatewayRequest} {c : StartClock} {f : Funding}
    {id : String} {w : Int} (hf : Funded db p r c f) (hw : p.maximumCost = some w)
    (hfree : f.free = false) {q : SettleArgs} {o : Outcome} {u : UsageSource} {now : Int}
    {cost : Option Int} {s : Settlement} (hcost : q.cost (p.row r f id c) = .ok cost)
    (hle : (p.row r f id c).listCharge o q.outputTokens cost ≤ w)
    (hs : q.settlement (p.row r f id c) o u now = .ok s) :
    s.budgetSettled ≤ (p.row r f id c).budgetReserved := by
  simp only [SettleArgs.settlement, hcost, bind_eq_ok, Except.ok.injEq, exists_eq_left', pure_eq_ok] at hs
  obtain rfl := hs
  have hres : (p.row r f id c).budgetReserved = f.percentOff.off w := by
    simp [StartArgs.row, hfree, reserved_of_funded hf hw hfree]
  have hprom : (p.row r f id c).promoFunded = false := hfree
  have hper : (p.row r f id c).promoDiscountPercent = f.percentOff := by
    simp [StartArgs.row, hfree]
  simp only [hprom, hper, hres, Bool.false_eq_true, if_false]
  exact f.percentOff.off_mono hle

/-! ### Moves -/

/-- Every settlement within its reservation. -/
def withinReservations : Terms := { settle := fun _ a s => ChargeWithin a s }

/-- A settlement within the reservation gives back what it does not charge. -/
theorem available_settles {a : GatewayAttempt} {s : Settlement} (h : Settles db a s db')
    (hle : ChargeWithin a s) (orgId : Nat) : db.available orgId ≤ db'.available orgId := by
  have hcommitted : db'.committed orgId =
      db.committed orgId - if a.drawsCredits orgId then a.budgetReserved else 0 := by
    unfold Db.committed
    rw [h.attempts.sumWhere, Table.share_false (r := a.settle s) (by simp [s.terminal]), add_zero]
    simp only [Table.share, h.dispatched, decide_true, Bool.and_true]
  unfold Db.available
  rw [h.organizations.granted, h.organizations.billable, hcommitted]
  simp only [GatewayAttempt.drawsCredits, GatewayAttempt.hostOf, Bool.and_eq_true, decide_eq_true_eq,
    Bool.not_eq_true']
  by_cases hhost : a.billingSource = .hostManaged
  · have := hle hhost
    cases a.promoFunded with
    | true => simp
    | false =>
        by_cases horg : orgId = a.orgId
        · simp only [horg, hhost, and_self, if_true]
          omega
        · simp [horg, Ne.symm horg]
  · simp [hhost]

/-- An admitted reservation that draws credits leaves more than minus itself. -/
theorem available_reserve {p : StartArgs} {r : GatewayRequest} {c : StartClock}
    {f : Funding} {id : String} (hf : Funded db p r c f)
    (h : db.insertAttempt (p.row r f id c) = .ok db') (orgId : Nat) :
    db'.available orgId = db.available orgId ∨
    (p.row r f id c).drawsCredits orgId = true ∧
      -(p.row r f id c).budgetReserved ≤ db'.available orgId := by
  obtain ⟨t, hfk, ht, rfl⟩ := Db.insertAttempt_eq_ok h
  unfold Db.available Db.committed
  have hd : (p.row r f id c).state = .dispatched := rfl
  rw [Table.sumWhere_insert ht]
  simp only [Table.share, hd, decide_true, Bool.and_true]
  cases hq : (p.row r f id c).drawsCredits orgId with
  | false => exact .inl (by simp; rfl)
  | true =>
      refine .inr ⟨rfl, ?_⟩
      simp only [GatewayAttempt.drawsCredits, Bool.and_eq_true, Bool.not_eq_true'] at hq
      obtain ⟨hhost, hfree⟩ := hq
      obtain ⟨o, ho, hpos⟩ :=
        ((hf.host (billingSource_of_hostOf hhost)).credits hfree).spend.balance
      have horg : p.orgId = orgId := by
        simp only [GatewayAttempt.hostOf, Bool.and_eq_true, decide_eq_true_eq] at hhost
        exact hhost.1
      rw [horg] at ho hpos
      have hle := committed_le_outstanding db orgId
      have hgranted : db.granted orgId = o.creditGranted := by simp [Db.granted, ho]
      have hbillable : db.billable orgId = o.billableSpend := by simp [Db.billable, ho]
      simp only [if_true]
      show _ ≤ db.granted orgId - db.billable orgId - (_ + db.committed orgId)
      omega

/-- The attempts of `db'` that draw credits and are not in `db` reserve at most `M`. -/
def AdmittedAtMost (M : Int) (orgId : Nat) (db db' : Db) : Prop :=
  ∀ a ∈ db'.attempts, a.drawsCredits orgId = true → db.attempts.find? a.attemptId = none →
    a.budgetReserved ≤ M

theorem later_drawsCredits {a a' : GatewayAttempt} (h : a.Later a') (orgId : Nat) :
    a'.drawsCredits orgId = a.drawsCredits orgId ∧ a'.attemptId = a.attemptId ∧
      a'.budgetReserved = a.budgetReserved := by
  rcases h with rfl | ⟨-, s, rfl⟩
  · exact ⟨rfl, rfl, rfl⟩
  · exact ⟨rfl, rfl, rfl⟩

/-- A bound on what was admitted later on bounds what was admitted so far. -/
theorem AdmittedAtMost.earlier {M : Int} {orgId : Nat} {db db₁ db₂ : Db}
    (h : AdmittedAtMost M orgId db db₂) (hlater : ∀ a ∈ db₁.attempts, ∃ a' ∈ db₂.attempts, a.Later a') :
    AdmittedAtMost M orgId db db₁ := by
  intro a ha hdraws hnew
  obtain ⟨a', ha', hl⟩ := hlater a ha
  obtain ⟨hd, hid, hres⟩ := later_drawsCredits hl orgId
  exact hres ▸ h a' ha' (hd.trans hdraws) (hid ▸ hnew)

/-- A key that is free after some moves was free before them. -/
theorem find?_none_of_later {db db₁ : Db} (hlater : ∀ a ∈ db.attempts, ∃ a' ∈ db₁.attempts, a.Later a')
    {id : String} (h : db₁.attempts.find? id = none) : db.attempts.find? id = none := by
  rw [Table.find?_eq_none] at h ⊢
  intro a ha he
  obtain ⟨a', ha', hl⟩ := hlater a ha
  exact h a' ha' ((later_drawsCredits hl 0).2.1.trans he)

theorem balance_moves {M : Int} {orgId : Nat} (h : Moves withinReservations db db')
    (hM : AdmittedAtMost M orgId db db') (hdb : -M ≤ db.available orgId) :
    -M ≤ db'.available orgId := by
  induction h with
  | refl => exact hdb
  | tail hmoves hmove ih =>
      have hold := ih (hM.earlier fun _ ha => hmove.attempts_later ha)
      cases hmove with
      | accept p d now hT hfresh hgate h =>
          obtain ⟨t, hfk, -, rfl⟩ := Db.insertRequest_eq_ok h
          exact hold
      | reserve p r c f id hT hr hf h =>
          rcases available_reserve hf h orgId with he | ⟨hdraws, hle⟩
          · omega
          · obtain ⟨t, hfk, ht, rfl⟩ := Db.insertAttempt_eq_ok h
            have hnew := find?_none_of_later (fun _ ha => Moves.attempts_later hmoves ha)
              (Table.find?_eq_none.mpr (Table.insert_eq_ok ht).1)
            have := hM _ ((Table.mem_insert ht).mpr (.inl rfl)) hdraws hnew
            omega
      | settle p o u now a s hs hT h => exact hold.trans (available_settles h hT orgId)
      | crash a now hT h =>
          exact hold.trans (available_settles h (fun _ => crash_within h.attempts.mem now) orgId)
      | close r s h =>
          have he : ∀ {db db' : Db}, db'.organizations = db.organizations → db'.attempts = db.attempts →
              db'.available orgId = db.available orgId := by
            intro db db' ho ha
            unfold Db.available Db.granted Db.billable Db.committed
            rw [ho, ha]
          rw [he h.organizations h.attempts]
          exact hold

/-! ### The run -/

/-- What a step of the run must meet: a call that charges within reservations, or an edit that
removes no credit of the organization. -/
def BalanceStep (orgId : Nat) (db : Db) : GatewayEvent → Prop
  | .call c => Meets withinReservations db c
  | .administer config organizations =>
      db.granted orgId - db.billable orgId ≤
        (step db (.administer config organizations)).granted orgId -
          (step db (.administer config organizations)).billable orgId

theorem balance_run {M : Int} {orgId : Nat} : ∀ (events : List GatewayEvent) (db : Db),
    StepsMeet step (BalanceStep orgId) db events → AdmittedAtMost M orgId db (run step db events) →
    -M ≤ db.available orgId → -M ≤ (run step db events).available orgId
  | [], _, _, _, hdb => hdb
  | event :: events, db, hsteps, hM, hdb => by
      refine balance_run events (step db event) hsteps.2 ?_ ?_
      · intro a ha hdraws hnew
        exact hM a ha hdraws (find?_none_of_later (fun _ ha => step_attempts_later db event ha) hnew)
      · have hM' : AdmittedAtMost M orgId db (step db event) :=
          hM.earlier fun _ ha => run_attempts_later _ events ha
        cases event with
        | call c => exact balance_moves (callStep_moves hsteps.1) hM' hdb
        | administer config organizations =>
            have hcredit : db.granted orgId - db.billable orgId ≤
                (step db (.administer config organizations)).granted orgId -
                  (step db (.administer config organizations)).billable orgId := hsteps.1
            have hcommitted : (step db (.administer config organizations)).committed orgId =
                db.committed orgId := rfl
            unfold Db.available at hdb ⊢
            omega

/-- **Bounded overdraft.**  Over every run in which settlements stay within reservations and no
credit is removed, the available balance never falls below minus the largest reservation the
run admitted (any `M` that bounds them all); and a discounted attempt whose list charge is
within its declared maximum cost settles within its discounted reservation. -/
theorem overdraft_bounded :
    (∀ (orgId : Nat) (db : Db) (events : List GatewayEvent) (M : Int),
      StepsMeet step (BalanceStep orgId) db events →
      AdmittedAtMost M orgId db (run step db events) → -M ≤ db.available orgId →
      -M ≤ (run step db events).available orgId) ∧
    ∀ (db : Db) (p : StartArgs) (r : GatewayRequest) (c : StartClock) (f : Funding) (id : String) (w : Int)
      (q : SettleArgs) (o : Outcome) (u : UsageSource) (now : Int) (cost : Option Int) (s : Settlement),
      Funded db p r c f → p.maximumCost = some w → f.free = false →
      q.cost (p.row r f id c) = .ok cost →
      (p.row r f id c).listCharge o q.outputTokens cost ≤ w →
      q.settlement (p.row r f id c) o u now = .ok s →
      s.budgetSettled ≤ (p.row r f id c).budgetReserved :=
  ⟨fun _ db events _ hsteps hM hdb => balance_run events db hsteps hM hdb,
    fun _ _ _ _ _ _ _ _ _ _ _ _ _ hf hw hfree hcost hle hs =>
      discounted_within hf hw hfree hcost hle hs⟩

/-- An organization with 4 USD of credit and half price on everything. -/
def discountDb : Db :=
  .initial { sampleConfig with
    modelPromotions := ⟨[⟨3, [], [], 0, 0, .lifetime, halfOff, true, 0, true, .all⟩], by decide,
      by decide⟩ }
    ⟨[⟨1, 4000000, 0, none, none, 0⟩], by decide, by decide⟩

/-- A reservation of half of 10 USD takes the balance to minus 1 USD; 2 tokens are settled. -/
def overdraftRun : List GatewayEvent :=
  [.call ((GatewayCall.accept (sampleAccept "r1" none 1000)).atTime 0 ""),
    .call ((GatewayCall.start (sampleStart "r1" 0 .hostManaged 10000000)).atTime 1 "a1"),
    .call ((GatewayCall.settle (sampleSettle "a1" .completed 2 true)).atTime 2 "")]

/-- The attempt the run starts. -/
def discountedAttempt : GatewayAttempt :=
  (sampleStart "r1" 0 .hostManaged 10000000).row ((sampleAccept "r1" none 1000).row 1000 0)
    ⟨false, halfOff, 5000000, some 3⟩ "a1" (.at 1)

theorem overdraft_bounded_sample :
    (run step discountDb (overdraftRun.take 2)).available 1 = -1000000 ∧
    -5000000 ≤ (run step discountDb overdraftRun).available 1 ∧
    ∃ s, (sampleSettle "a1" .completed 2 true).settlement discountedAttempt .completed .observed 2 = .ok s ∧
      s.budgetSettled ≤ discountedAttempt.budgetReserved := by
  have hadmitted : ∀ a ∈ (run step discountDb overdraftRun).attempts.rows,
      a.budgetReserved ≤ 5000000 := by decide
  have hfunded : Funded (run step discountDb (overdraftRun.take 1))
      (sampleStart "r1" 0 .hostManaged 10000000) ((sampleAccept "r1" none 1000).row 1000 0) (.at 1)
      ⟨false, halfOff, 5000000, some 3⟩ := fundAttempt_ok (by rfl)
  refine ⟨by rfl, overdraft_bounded.1 1 discountDb overdraftRun 5000000 ?_ ?_ (by decide), _, rfl, ?_⟩
  · refine ⟨trivial, trivial, meets_settle rfl rfl rfl rfl ?_, trivial⟩
    intro _
    decide
  · exact fun a ha _ _ => hadmitted a ha
  · exact overdraft_bounded.2 _ _ _ _ _ "a1" 10000000 (sampleSettle "a1" .completed 2 true) .completed
      .observed 2 (some 2000000) _ hfunded rfl rfl rfl (by decide) rfl

end Experiential.Gateway
