import Experiential.Gateway.System

/-! # One charge for a caller operation

The requests an organization accepts for one caller operation are its *generations*. An accept
adds a generation once the latest is a dead owner, and a start refuses a request past its
deadline, so no attempt of an earlier generation can begin any more. One that began before can
still be settled: `operation_charged_twice` is such a run. `one_charge_per_operation` says
that there is no other way: when nothing that could charge is left behind at each reclaim, at
most one generation of an operation ends with a charge. -/

namespace Experiential.Gateway

/-! ### Generations and charges -/

/-- The request was accepted for this caller operation of the organization. -/
def GatewayRequest.GenerationOf (r : GatewayRequest) (orgId : Nat) (operation : String) : Prop :=
  r.orgId = orgId ∧ r.callerOperationSha256 = some operation

/-- An attempt that ends so delivered: to the end, or up to a limit on its length. -/
def AttemptState.Delivered (s : AttemptState) : Prop :=
  s = .completed ∨ s = .incomplete

instance : DecidablePred AttemptState.Delivered := fun s =>
  inferInstanceAs (Decidable (s = .completed ∨ s = .incomplete))

/-- The attempt delivered, and the organization was charged for it. -/
def GatewayAttempt.Charged (a : GatewayAttempt) : Prop :=
  a.billingSource = .hostManaged ∧ a.state.Delivered ∧ ∃ c ∈ a.budgetSettled, c ≠ 0

instance : DecidablePred GatewayAttempt.Charged := fun a =>
  inferInstanceAs (Decidable (_ ∧ _ ∧ ∃ c ∈ a.budgetSettled, c ≠ 0))

/-- The attempt was charged, or still can be. -/
def GatewayAttempt.CanCharge (a : GatewayAttempt) : Prop :=
  a.Charged ∨ a.billingSource = .hostManaged ∧ a.state = .dispatched ∧ a.promoFunded = false

instance : DecidablePred GatewayAttempt.CanCharge := fun a =>
  inferInstanceAs (Decidable (a.Charged ∨ _ ∧ _ ∧ _))

/-- The request ended with a charge. -/
def Db.ChargedFor (db : Db) (r : GatewayRequest) : Prop :=
  ∃ a ∈ db.attempts, a.requestId = r.requestId ∧ a.Charged

/-- At most one generation of every caller operation ends with a charge. -/
def OneCharge (db : Db) : Prop :=
  ∀ orgId operation, ∀ r ∈ db.requests, ∀ q ∈ db.requests, r.GenerationOf orgId operation →
    q.GenerationOf orgId operation → db.ChargedFor r → db.ChargedFor q → r = q

/-- Once an operation was reclaimed, no attempt of an earlier generation can charge. -/
def Fenced (db : Db) : Prop :=
  ∀ orgId operation, ∀ r ∈ db.requests, ∀ q ∈ db.requests, r.GenerationOf orgId operation →
    q.GenerationOf orgId operation → r.acceptedAt < q.acceptedAt →
    ∀ a ∈ db.attempts, a.requestId = r.requestId → ¬ a.CanCharge

/-! ### What the gates give -/

theorem reclaimable_ended {r : GatewayRequest} {now : Int} (h : r.reclaimable now = true) :
    r.terminalState ≠ none ∨ r.deadlineAt < now := by
  simp only [GatewayRequest.reclaimable, Bool.or_eq_true, Bool.and_eq_true, decide_eq_true_eq] at h
  rcases h with (h | h) | ⟨-, h⟩
  · exact .inl (by simp [h])
  · exact .inl (by simp [h])
  · exact .inr h

/-- A keyed accept finds the latest request of the operation reclaimable. -/
theorem admitOperation_prior {db : Db} {p : AcceptArgs} {now : Int} {operation : String}
    (h : admitOperation db p now = .ok ()) (hop : p.callerOperationSha256 = some operation)
    {q : GatewayRequest} (hq : q ∈ db.requests) (hgen : q.GenerationOf p.orgId operation)
    (hrev : q.aliasRevisionId = p.aliasRevisionId) (hsurface : q.apiSurface = p.apiSurface) :
    ∃ prior ∈ db.requests, prior.GenerationOf p.orgId operation ∧ prior.reclaimable now = true ∧
      q.acceptedAt ≤ prior.acceptedAt := by
  have hmem : q ∈ db.requests.rows.filter (fun r =>
      decide (r.orgId = p.orgId) && decide (r.aliasRevisionId = p.aliasRevisionId) &&
        decide (r.apiSurface = p.apiSurface) && decide (r.callerOperationSha256 = some operation)) :=
    List.mem_filter.mpr ⟨hq, by simp [hgen.1, hgen.2, hrev, hsurface]⟩
  simp only [admitOperation, hop] at h
  cases hprior : db.priorOperation p operation with
  | none =>
      rw [Db.priorOperation, Table.greatestBy_eq_none] at hprior
      rw [hprior] at hmem
      cases hmem
  | some prior =>
      simp only [hprior, bind_eq_ok, ensure_eq_ok] at h
      obtain ⟨_, -, hrec⟩ := h
      obtain ⟨hp, hfields⟩ := List.mem_filter.mp (Table.greatestBy_mem hprior)
      simp only [Bool.and_eq_true, decide_eq_true_eq] at hfields
      exact ⟨prior, hp, ⟨hfields.1.1.1, hfields.2⟩, hrec, Table.le_greatestBy hprior hmem⟩

/-- A settlement of an attempt that could not charge does not charge. -/
theorem not_canCharge_settle {a : GatewayAttempt} {s : Settlement} (hd : a.state = .dispatched)
    (h : ¬ a.CanCharge)
    (hfree : a.promoFunded = true → s.state.Delivered → s.budgetSettled = 0) :
    ¬ (a.settle s).CanCharge := by
  rintro (⟨hhost, hdone, c, hc, hne⟩ | ⟨-, hds, -⟩)
  · cases hpromo : a.promoFunded with
    | false => exact h (.inr ⟨hhost, hd, hpromo⟩)
    | true =>
        cases hc
        exact hne (hfree hpromo hdone)
  · exact s.terminal hds

theorem not_delivered_crash (a : GatewayAttempt) (now : Int) : ¬ (a.crash now).state.Delivered := by
  rintro (h | h) <;> cases h

/-! ### The invariant -/

/-- What holds of the generations of every operation. -/
structure OperationInv (db : Db) : Prop where
  distinct : ∀ orgId operation, ∀ r ∈ db.requests, ∀ q ∈ db.requests, r.GenerationOf orgId operation →
    q.GenerationOf orgId operation → r.acceptedAt = q.acceptedAt → r = q
  ended : ∀ orgId operation, ∀ r ∈ db.requests, ∀ q ∈ db.requests, r.GenerationOf orgId operation →
    q.GenerationOf orgId operation → r.acceptedAt < q.acceptedAt →
    r.terminalState ≠ none ∨ r.deadlineAt ≤ q.acceptedAt
  fenced : Fenced db

/-- The later of two charged generations would have reclaimed a charged one. -/
theorem OperationInv.oneCharge {db : Db} (h : OperationInv db) : OneCharge db := by
  rintro orgId operation r hr q hq hgr hgq ⟨a, ha, har, hac⟩ ⟨b, hb, hbq, hbc⟩
  rcases lt_trichotomy r.acceptedAt q.acceptedAt with hlt | heq | hgt
  · exact absurd (.inl hac) (h.fenced orgId operation r hr q hq hgr hgq hlt a ha har)
  · exact h.distinct orgId operation r hr q hq hgr hgq heq
  · exact absurd (.inl hbc) (h.fenced orgId operation q hq r hr hgq hgr hgt b hb hbq)

/-! ### The terms -/

/-- What an accept that adds a generation finds of the generation `q`: it was accepted earlier, it
is over if the gate does not look at it, and it left nothing behind that could charge. -/
structure LeftBehind (db : Db) (p : AcceptArgs) (now : Int) (q : GatewayRequest) : Prop where
  earlier : q.acceptedAt < now
  elsewhere : q.aliasRevisionId = p.aliasRevisionId ∧ q.apiSurface = p.apiSurface ∨
    q.terminalState ≠ none ∨ q.deadlineAt ≤ now
  nothing : ∀ a ∈ db.attempts, a.requestId = q.requestId → ¬ a.CanCharge

/-- Every reclaim leaves nothing behind, and a start reads its deadline after the accepts. -/
def operationTerms : Terms where
  accept db p now := db.requests.find? p.requestId = none →
    ∀ operation, p.callerOperationSha256 = some operation →
    ∀ q ∈ db.requests, q.GenerationOf p.orgId operation → LeftBehind db p now q
  start db _ c := ∀ q ∈ db.requests, q.acceptedAt ≤ c.deadlineCheck

/-! ### The moves -/

theorem GatewayRequest.Later.generationOf {r r' : GatewayRequest} (h : r.Later r') {orgId : Nat}
    {operation : String} : r'.GenerationOf orgId operation ↔ r.GenerationOf orgId operation := by
  rcases h with rfl | ⟨-, s, t, c, m, rfl⟩ <;> exact Iff.rfl

theorem OperationInv.close {db db' : Db} {r : GatewayRequest} {s : TerminalState}
    (h : Closes db r s db') (hdb : OperationInv db) : OperationInv db' := by
  constructor
  · intro orgId operation x' hx' y' hy' hgx hgy heq
    obtain ⟨x, hx, hlx⟩ := h.sameRequests.earlier hx'
    obtain ⟨y, hy, hly⟩ := h.sameRequests.earlier hy'
    refine Table.eq_of_key_eq hx' hy' ?_
    rw [hlx.frozen.1, hly.frozen.1, hdb.distinct orgId operation x hx y hy
      (hlx.generationOf.mp hgx) (hly.generationOf.mp hgy)
      (by rw [← hlx.frozen.2.1, ← hly.frozen.2.1, heq])]
  · intro orgId operation x' hx' y' hy' hgx hgy hlt
    obtain ⟨x, hx, hlx⟩ := h.sameRequests.earlier hx'
    obtain ⟨y, hy, hly⟩ := h.sameRequests.earlier hy'
    rw [hlx.frozen.2.1, hly.frozen.2.1] at hlt
    rcases hdb.ended orgId operation x hx y hy (hlx.generationOf.mp hgx) (hly.generationOf.mp hgy) hlt
      with hended | hdead
    · exact .inl (hlx.ended hended)
    · exact .inr (by rw [hlx.frozen.2.2, hly.frozen.2.1]; exact hdead)
  · intro orgId operation x' hx' y' hy' hgx hgy hlt a ha hax
    obtain ⟨x, hx, hlx⟩ := h.sameRequests.earlier hx'
    obtain ⟨y, hy, hly⟩ := h.sameRequests.earlier hy'
    rw [hlx.frozen.2.1, hly.frozen.2.1] at hlt
    exact hdb.fenced orgId operation x hx y hy (hlx.generationOf.mp hgx) (hly.generationOf.mp hgy) hlt
      a (h.attempts ▸ ha) (hax.trans hlx.frozen.1)

theorem OperationInv.settles {db db' : Db} {a : GatewayAttempt} {s : Settlement}
    (h : Settles db a s db') (hfree : a.promoFunded = true → s.state.Delivered → s.budgetSettled = 0)
    (hdb : OperationInv db) : OperationInv db' := by
  refine ⟨h.requests ▸ hdb.distinct, h.requests ▸ hdb.ended, ?_⟩
  intro orgId operation x hx y hy hgx hgy hlt b hb hbx
  rw [h.requests] at hx hy
  have hnone := hdb.fenced orgId operation x hx y hy hgx hgy hlt
  rcases h.attempts.mem_iff.mp hb with rfl | ⟨hb, -⟩
  · exact not_canCharge_settle h.dispatched (hnone a h.attempts.mem hbx) hfree
  · exact hnone b hb hbx

/-- A start is refused for a generation that was reclaimed: it is over. -/
theorem OperationInv.reserve {db db' : Db} {p : StartArgs} {r : GatewayRequest} {c : StartClock}
    {f : Funding} {id : String} (hT : operationTerms.start db p c) (hr : Dispatchable db p c r)
    (h : db.insertAttempt (p.row r f id c) = .ok db') (hdb : OperationInv db) : OperationInv db' := by
  obtain ⟨t, hfk, ht, rfl⟩ := Db.insertAttempt_eq_ok h
  refine ⟨hdb.distinct, hdb.ended, ?_⟩
  intro orgId operation x hx y hy hgx hgy hlt b hb hbx
  rcases (Table.mem_insert ht).mp hb with rfl | hb
  · obtain ⟨hmem, hid⟩ := Table.find?_eq_some.mp hr.found
    obtain rfl : r = x := Table.eq_of_key_eq hmem hx (hid.trans hbx)
    rcases hdb.ended orgId operation r hx y hy hgx hgy hlt with hended | hdead
    · exact absurd hr.nonterminal hended
    · have hread := hT y hy
      have hdue := hr.deadline
      omega
  · exact hdb.fenced orgId operation x hx y hy hgx hgy hlt b hb hbx

/-- A reclaim finds every earlier generation over: the latest by the gate, the others because it
reclaimed them. -/
theorem OperationInv.ended_at {db : Db} {p : AcceptArgs} {now : Int} {operation : String}
    (hdb : OperationInv db) (hgate : admitOperation db p now = .ok ())
    (hop : p.callerOperationSha256 = some operation)
    (hleft : ∀ q ∈ db.requests, q.GenerationOf p.orgId operation → LeftBehind db p now q)
    {q : GatewayRequest} (hq : q ∈ db.requests) (hgen : q.GenerationOf p.orgId operation) :
    q.terminalState ≠ none ∨ q.deadlineAt ≤ now := by
  rcases (hleft q hq hgen).elsewhere with ⟨hrev, hsurface⟩ | hended
  · obtain ⟨prior, hprior, hgp, hrec, hle⟩ := admitOperation_prior hgate hop hq hgen hrev hsurface
    rcases hle.lt_or_eq with hlt | heq
    · have hnow := (hleft prior hprior hgp).earlier
      exact (hdb.ended p.orgId operation q hq prior hprior hgen hgp hlt).imp_right (by omega)
    · rw [hdb.distinct p.orgId operation q hq prior hprior hgen hgp heq]
      exact (reclaimable_ended hrec).imp_right le_of_lt
  · exact hended

theorem OperationInv.accept {db db' : Db} {p : AcceptArgs} {d now : Int}
    (hT : operationTerms.accept db p now) (hfresh : db.requests.find? p.requestId = none)
    (hgate : admitOperation db p now = .ok ()) (h : db.insertRequest (p.row d now) = .ok db')
    (hdb : OperationInv db) : OperationInv db' := by
  obtain ⟨t, hfk, ht, rfl⟩ := Db.insertRequest_eq_ok h
  have hleft : ∀ orgId operation, (p.row d now).GenerationOf orgId operation → ∀ q ∈ db.requests,
      q.GenerationOf orgId operation → LeftBehind db p now q := by
    rintro _ operation ⟨rfl, hop⟩
    exact hT hfresh operation hop
  constructor
  · intro orgId operation x hx y hy hgx hgy heq
    rcases (Table.mem_insert ht).mp hx with rfl | hx <;> rcases (Table.mem_insert ht).mp hy with rfl | hy
    · rfl
    · exact absurd heq.symm (hleft _ _ hgx y hy hgy).earlier.ne
    · exact absurd heq (hleft _ _ hgy x hx hgx).earlier.ne
    · exact hdb.distinct orgId operation x hx y hy hgx hgy heq
  · intro orgId operation x hx y hy hgx hgy hlt
    rcases (Table.mem_insert ht).mp hx with rfl | hx <;> rcases (Table.mem_insert ht).mp hy with rfl | hy
    · exact absurd hlt (lt_irrefl _)
    · exact absurd hlt (hleft _ _ hgx y hy hgy).earlier.asymm
    · obtain ⟨rfl, hop⟩ := hgy
      exact hdb.ended_at hgate hop (hleft _ _ ⟨rfl, hop⟩) hx hgx
    · exact hdb.ended orgId operation x hx y hy hgx hgy hlt
  · intro orgId operation x hx y hy hgx hgy hlt a ha hax
    rcases (Table.mem_insert ht).mp hx with rfl | hx <;> rcases (Table.mem_insert ht).mp hy with rfl | hy
    · exact absurd hlt (lt_irrefl _)
    · exact absurd hlt (hleft _ _ hgx y hy hgy).earlier.asymm
    · exact (hleft _ _ hgy x hx hgx).nothing a ha hax
    · exact hdb.fenced orgId operation x hx y hy hgx hgy hlt a ha hax

theorem OperationInv.move {db db' : Db} (h : Move operationTerms db db') (hdb : OperationInv db) :
    OperationInv db' := by
  cases h with
  | accept p d now hT hfresh hgate h => exact hdb.accept hT hfresh hgate h
  | reserve p r c f id hT hr hf h => exact hdb.reserve hT hr h
  | settle p o u now a s hs hT h => exact hdb.settles h fun hfree _ => settlement_free hs hfree
  | crash a now hT h => exact hdb.settles h fun _ hdone => absurd hdone (not_delivered_crash a now)
  | close r s h => exact hdb.close h

/-! ### The run -/

/-- The owner of the operation fails and vanishes, and the operation is reclaimed and delivered. -/
def reclaimRun : List (GatewayCall × Env) :=
  [(GatewayCall.accept (sampleAccept "r1" (some "operation") 1000)).atTime 0 "",
    (GatewayCall.start (sampleStart "r1" 0 .hostManaged 5000000)).atTime 1 "a1",
    (GatewayCall.settle (sampleSettle "a1" .failed 3 false)).atTime 2 "",
    (GatewayCall.accept (sampleAccept "r2" (some "operation") 5000)).atTime 2000 "",
    (GatewayCall.start (sampleStart "r2" 0 .hostManaged 5000000)).atTime 2001 "a2",
    (GatewayCall.settle (sampleSettle "a2" .completed 3 true)).atTime 2002 ""]

/-- The operation is reclaimed while its first owner still holds a dispatched attempt, which is then
settled with a charge, as is the attempt of the second owner. -/
def lateOwnerRun : List (GatewayCall × Env) :=
  [(GatewayCall.accept (sampleAccept "r1" (some "operation") 1000)).atTime 0 "",
    (GatewayCall.start (sampleStart "r1" 0 .hostManaged 5000000)).atTime 1 "a1",
    (GatewayCall.accept (sampleAccept "r2" (some "operation") 5000)).atTime 2000 "",
    (GatewayCall.start (sampleStart "r2" 0 .hostManaged 5000000)).atTime 2001 "a2",
    (GatewayCall.settle (sampleSettle "a1" .completed 3 true)).atTime 2002 "",
    (GatewayCall.settle (sampleSettle "a2" .completed 3 true)).atTime 2003 ""]

end Experiential.Gateway
