import Experiential.Gateway.System

/-! # Usage events and settlements

The event of a request is inserted once, from the attempts as they are at that moment, and
never corrected. It agrees with the settlements as long as nothing that costs is settled after
it: `usage_events_agree` is the run theorem under `UsageStep`, the condition on each call in
the state it is made in. `usage_event_disagrees` shows the two ways the condition fails: a
settlement after a finish, and a reconciliation of two dispatched attempts of one request. -/

namespace Experiential.Gateway

/-- Every finished request without dispatched attempts has an event that carries the settled
cost of its host-managed attempts and the estimated cost of its customer-managed ones. -/
def UsageAgrees (db : Db) : Prop :=
  ∀ r ∈ db.requests, r.terminalState ≠ none →
    (∀ a ∈ db.attempts, a.requestId = r.requestId → a.state ≠ .dispatched) →
    ∃ e, db.usageEvents.find? r.requestId = some e ∧ e.cost = db.requestCost r.requestId ∧
      e.estimatedCost = db.requestEstimated r.requestId

/-- What a call must find for its settlements to be reflected: the event of the request is not
written yet, or nothing is charged after it. A crashed pass-through attempt with a reservation
must also be the only crashed attempt of its request. -/
def UsageStep (db : Db) (call : GatewayCall × Env) : Prop :=
  match call.1 with
  | .settle p => ∀ a, db.attempts.find? p.attemptId = some a → a.state = .dispatched →
      db.usageEvents.find? a.requestId = none ∨ a.billingSource = .hostManaged ∧
        (a.promoFunded = true ∨ p.state = some .failed ∨ coalesce p.outputTokens 0 = 0)
  | .reconcile graceSeconds => ∀ g ∈ graceSeconds, ∀ a ∈ db.attempts,
      db.crashed g call.2.now a = true → a.billingSource = .customerManaged → a.budgetReserved ≠ 0 →
      db.usageEvents.find? a.requestId = none ∧ ∀ b ∈ db.attempts, b ≠ a → b.requestId = a.requestId →
        db.crashed g call.2.now b = false
  | _ => True

/-! ### The invariant -/

/-- A dispatched attempt costs nothing yet, a terminal request has an event, and every event
agrees with the attempts of its request. -/
structure UsageInv (db : Db) : Prop where
  unsettled : ∀ a ∈ db.attempts, a.state = .dispatched → a.chargedCost = 0 ∧ a.attributedCost = 0
  event : ∀ r ∈ db.requests, r.terminalState ≠ none → ∃ e, db.usageEvents.find? r.requestId = some e
  agrees : ∀ e ∈ db.usageEvents, e.cost = db.requestCost e.requestId ∧
    e.estimatedCost = db.requestEstimated e.requestId

theorem UsageInv.usageAgrees {db : Db} (h : UsageInv db) : UsageAgrees db := by
  intro r hr hs _
  obtain ⟨e, he⟩ := h.event r hr hs
  obtain ⟨hmem, hid⟩ := Table.find?_eq_some.mp he
  exact ⟨e, he, hid ▸ h.agrees e hmem⟩

/-- The terms the invariant needs: a settlement after the event changes neither cost. -/
def usageTerms : Terms where
  settle := fun db a s => db.usageEvents.find? a.requestId = none ∨
    (a.settle s).chargedCost = 0 ∧ (a.settle s).attributedCost = 0
  crash := fun db a => db.usageEvents.find? a.requestId = none ∨
    a.billingSource = .hostManaged ∨ a.budgetReserved = 0

/-- A settlement moves a sum over one request's attempts only if the attempt is one of them and
then counts for something. -/
theorem Settles.sum_eq {db db' : Db} {a : GatewayAttempt} {s : Settlement} (h : Settles db a s db')
    {w : GatewayAttempt → Int} (hw : w a = 0) {requestId : String}
    (hcase : a.requestId ≠ requestId ∨ w (a.settle s) = 0) :
    db'.attempts.sumWhere (fun x => decide (x.requestId = requestId)) w =
      db.attempts.sumWhere (fun x => decide (x.requestId = requestId)) w := by
  rw [h.attempts.sumWhere]
  simp only [Table.share, settle_requestId, decide_eq_true_eq, hw, ite_self, sub_zero]
  rcases hcase with hne | hz
  · simp [hne]
  · simp [hz]

theorem UsageInv.settles {db db' : Db} {a : GatewayAttempt} {s : Settlement} (hdb : UsageInv db)
    (h : Settles db a s db') (hlate : db.usageEvents.find? a.requestId = none ∨
      (a.settle s).chargedCost = 0 ∧ (a.settle s).attributedCost = 0) : UsageInv db' := by
  obtain ⟨hcharged, hattributed⟩ := hdb.unsettled a h.attempts.mem h.dispatched
  refine ⟨?_, ?_, ?_⟩
  · intro b hb hd
    rcases h.attempts.mem_iff.mp hb with rfl | ⟨hb, -⟩
    · exact absurd hd s.terminal
    · exact hdb.unsettled b hb hd
  · rw [h.requests, h.usageEvents]
    exact hdb.event
  · intro e he
    rw [h.usageEvents] at he
    obtain ⟨hc, hest⟩ := hdb.agrees e he
    have hother : db.usageEvents.find? a.requestId = none → a.requestId ≠ e.requestId :=
      fun hnone heq => Table.find?_eq_none.mp hnone e he heq.symm
    exact ⟨hc.trans (h.sum_eq hcharged (hlate.imp hother And.left)).symm,
      hest.trans (h.sum_eq hattributed (hlate.imp hother And.right)).symm⟩

theorem UsageInv.close {db db' : Db} {r : GatewayRequest} {s : TerminalState} (hdb : UsageInv db)
    (h : Closes db r s db') : UsageInv db' := by
  have hcost : db'.requestCost = db.requestCost ∧ db'.requestEstimated = db.requestEstimated := by
    unfold Db.requestCost Db.requestEstimated
    rw [h.attempts]
    exact ⟨rfl, rfl⟩
  have hown : ∃ e, db'.usageEvents.find? r.requestId = some e := by
    rcases h.event with ⟨hsome, he⟩ | ⟨-, e, hid, -, -, hins⟩
    · exact he ▸ hsome
    · exact ⟨e, by rw [Table.find?_insert hins, if_pos hid]⟩
  refine ⟨by rw [h.attempts]; exact hdb.unsettled, ?_, ?_⟩
  · intro q hq hs
    by_cases hid : q.requestId = r.requestId
    · exact hid ▸ hown
    · rw [h.usageEvents_find? hid]
      refine hdb.event q ?_ hs
      rcases h.requests with ⟨-, r', ⟨t, c, m, rfl⟩, hrep⟩ | ⟨-, hsame⟩
      · rcases hrep.mem_iff.mp hq with rfl | ⟨hq, -⟩
        · exact absurd rfl hid
        · exact hq
      · exact hsame ▸ hq
  · intro e he
    rw [hcost.1, hcost.2]
    rcases h.event with ⟨-, hsame⟩ | ⟨-, e', hid, hc, hest, hins⟩
    · exact hdb.agrees e (hsame ▸ he)
    · rcases (Table.mem_insert hins).mp he with rfl | he
      · exact hid.symm ▸ ⟨hc, hest⟩
      · exact hdb.agrees e he

theorem UsageInv.move {db db' : Db} (h : Move usageTerms db db') (hdb : UsageInv db) :
    UsageInv db' := by
  cases h with
  | accept p d now hT hfresh hgate h =>
      obtain ⟨t, hfk, ht, rfl⟩ := Db.insertRequest_eq_ok h
      refine ⟨hdb.unsettled, ?_, hdb.agrees⟩
      intro r hr hs
      rcases (Table.mem_insert ht).mp hr with rfl | hr
      · exact absurd rfl hs
      · exact hdb.event r hr hs
  | reserve p r c f id hT hr hf h =>
      obtain ⟨t, hfk, ht, rfl⟩ := Db.insertAttempt_eq_ok h
      -- The new attempt has settled nothing and has no estimate, so it costs nothing.
      have hzero : (p.row r f id c).chargedCost = 0 ∧ (p.row r f id c).attributedCost = 0 := by
        unfold GatewayAttempt.chargedCost GatewayAttempt.attributedCost
        constructor <;> split <;> rfl
      have hsum : ∀ {w : GatewayAttempt → Int} (id' : String), w (p.row r f id c) = 0 →
          t.sumWhere (fun x => decide (x.requestId = id')) w =
            db.attempts.sumWhere (fun x => decide (x.requestId = id')) w := by
        intro w id' hw
        rw [Table.sumWhere_insert ht]
        simp [Table.share, hw]
      refine ⟨?_, hdb.event, ?_⟩
      · intro a ha hd
        rcases (Table.mem_insert ht).mp ha with rfl | ha
        · exact hzero
        · exact hdb.unsettled a ha hd
      · intro e he
        obtain ⟨hc, hest⟩ := hdb.agrees e he
        exact ⟨hc.trans (hsum e.requestId hzero.1).symm, hest.trans (hsum e.requestId hzero.2).symm⟩
  | settle p o u now a s hs hT h => exact hdb.settles h hT
  | crash a now hT h =>
      refine hdb.settles h (hT.imp_right ?_)
      intro hz
      unfold GatewayAttempt.chargedCost GatewayAttempt.attributedCost
      cases hb : a.billingSource with
      | hostManaged => simp [hb, GatewayAttempt.crash, GatewayAttempt.crashSettled]
      | customerManaged =>
          have hres : a.budgetReserved = 0 := by simpa [hb] using hz
          simp [hb, GatewayAttempt.crash, GatewayAttempt.settle, hres]
  | close r s h => exact hdb.close h

/-! ### The run -/

/-- A platform-funded settlement that is free, failed or empty charges nothing. -/
theorem chargedCost_zero {p : SettleArgs} {a : GatewayAttempt} {o : Outcome} {u : UsageSource}
    {now : Int} {s : Settlement} (hs : p.settlement a o u now = .ok s) (hb : a.billingSource = .hostManaged)
    (h : a.promoFunded = true ∨ o = .failed ∨ coalesce p.outputTokens 0 = 0) :
    (a.settle s).chargedCost = 0 ∧ (a.settle s).attributedCost = 0 := by
  simp only [SettleArgs.settlement, bind_eq_ok, pure_eq_ok] at hs
  obtain ⟨cost, -, rfl⟩ := hs
  unfold GatewayAttempt.chargedCost GatewayAttempt.attributedCost
  simp only [settle_billingSource, hb, settle_budgetSettled, coalesce_some, and_true]
  split_ifs with hfree
  · rfl
  · have hzero : a.listCharge o p.outputTokens cost = 0 := by
      simp only [GatewayAttempt.listCharge, hb]
      exact if_pos (h.resolve_left hfree)
    rw [hzero, Percent.off_of_zero]

theorem UsageStep.meets {db : Db} {call : GatewayCall × Env} (h : UsageStep db call) :
    Meets usageTerms db call := by
  obtain ⟨c, e⟩ := call
  cases c with
  | settle p =>
      intro o u a s ho hu ha hd hs
      refine (h a ha hd).imp_right fun ⟨hb, hcase⟩ => chargedCost_zero hs hb ?_
      rw [ho, Option.some.injEq] at hcase
      exact hcase
  | reconcile graceSeconds =>
      intro g hg db₁ a hsite
      by_cases hz : a.billingSource = .hostManaged ∨ a.budgetReserved = 0
      · exact .inr hz
      · obtain ⟨hhost, hres⟩ := not_or.mp hz
        have hb : a.billingSource = .customerManaged := by
          cases hb : a.billingSource with
          | hostManaged => exact absurd hb hhost
          | customerManaged => rfl
        obtain ⟨hnone, hother⟩ := h g hg a hsite.mem₀ hsite.crashed hb hres
        refine .inl ?_
        cases he : db₁.usageEvents.find? a.requestId with
        | none => rfl
        | some e' =>
            rcases hsite.event e' he with he' | ⟨b, hbm, hne, hid, hc⟩
            · rw [hnone] at he'
              cases he'
            · rw [hother b hbm hne hid] at hc
              cases hc
  | acceptAndStart p => exact ⟨trivial, fun _ _ => trivial⟩
  | _ => trivial

/-- **Usage events agree with settlements**, in every state of every run whose calls all meet
`UsageStep`. -/
theorem usage_events_agree (config : Config) (organizations : Table Organization.id Organization.Check)
    (calls : List (GatewayCall × Env))
    (h : StepsMeet callStep UsageStep (.initial config organizations) calls) :
    UsageAgrees (run callStep (.initial config organizations) calls) := by
  refine UsageInv.usageAgrees (run_invariant ?_ calls _ ?_ h)
  · exact fun db call hstep hdb => callStep_preserves (fun _ _ => UsageInv.move) hstep.meets hdb
  · exact ⟨fun a ha => absurd ha (Table.not_mem_empty a), fun r hr => absurd hr (Table.not_mem_empty r),
      fun e he => absurd he (Table.not_mem_empty e)⟩

/-- A start on either lane and its settlement, which closes the request. -/
def agreeingRun : List (GatewayCall × Env) :=
  [(GatewayCall.accept (sampleAccept "r1" none 1000)).atTime 0 "",
    (GatewayCall.start (sampleStart "r1" 0 .customerManaged 5000000)).atTime 1 "a1",
    (GatewayCall.settle (sampleSettle "a1" .failed 1 false)).atTime 2 "",
    (GatewayCall.start (sampleStart "r1" 1 .hostManaged 5000000)).atTime 3 "a2",
    (GatewayCall.settle (sampleSettle "a2" .completed 3 true)).atTime 4 ""]

theorem usage_events_agree_sample : UsageAgrees (run callStep sampleDb agreeingRun) := by
  refine usage_events_agree sampleConfig sampleOrganizations agreeingRun
    ⟨trivial, trivial, ?_, trivial, ?_, trivial⟩
  · intro a ha _
    cases ha
    exact .inl (by rfl)
  · intro a ha _
    cases ha
    exact .inl (by rfl)

/-- The attempt is settled for 3 USD after the request was finished. -/
def lateSettleRun : List (GatewayCall × Env) :=
  [(GatewayCall.accept (sampleAccept "r1" none 1000)).atTime 0 "",
    (GatewayCall.start (sampleStart "r1" 0 .hostManaged 5000000)).atTime 1 "a1",
    (GatewayCall.finish ⟨"r1", 1, some .cancelled, none, none⟩).atTime 2 "",
    (GatewayCall.settle (sampleSettle "a1" .completed 3 true)).atTime 3 ""]

/-- Two pass-through attempts of one request crash. -/
def doubleCrashRun : List (GatewayCall × Env) :=
  [(GatewayCall.accept (sampleAccept "r1" none 1000)).atTime 0 "",
    (GatewayCall.start (sampleStart "r1" 0 .customerManaged 5000000)).atTime 1 "a1",
    (GatewayCall.start (sampleStart "r1" 1 .customerManaged 5000000)).atTime 2 "a2",
    (GatewayCall.reconcile (some 30)).atTime 40000000 ""]

/-- A finished request whose event carries other costs than its attempts is a disagreement. -/
theorem not_usageAgrees {db : Db} (requestId : String) (hdone : ∀ a ∈ db.attempts.rows, a.state ≠ .dispatched)
    (hr : ∃ r ∈ db.requests.rows, r.requestId = requestId ∧ r.terminalState ≠ none)
    (hbad : ∀ e ∈ db.usageEvents.find? requestId, ¬(e.cost = db.requestCost requestId ∧
      e.estimatedCost = db.requestEstimated requestId)) : ¬ UsageAgrees db := by
  intro hagree
  obtain ⟨r, hr, hid, hs⟩ := hr
  obtain ⟨e, he, hcost⟩ := hagree r hr hs fun a ha _ => hdone a ha
  rw [hid] at he hcost
  exact hbad e he hcost

theorem usage_event_disagrees :
    ¬ UsageAgrees (run callStep sampleDb lateSettleRun) ∧
    ¬ UsageAgrees (run callStep sampleDb doubleCrashRun) :=
  ⟨not_usageAgrees "r1" (by decide) (by decide) (by decide),
    not_usageAgrees "r1" (by decide) (by decide) (by decide)⟩

end Experiential.Gateway
