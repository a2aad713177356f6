import Experiential.Gateway.Balance
import Experiential.Lib.FirstClaim
import Experiential.Gateway.PromoNotices

/-! # Which promotion wins

A promotion bounds what it gives an organization: its free tier the worst cases it funds in
full, its discount ceiling the charges it discounts, each over the promotion's period (its
lifetime, or one UTC month). Funding is exclusive: a free attempt holds nothing in the budget
columns and carries no discount. `promo_caps_hold` is the run theorem, over calls, the writes of
exhaustion notices, which take a promotion from its free tier to its discount, and edits. A ceiling
of zero is no ceiling: such a discount never expires; and a start that reads its day before the turn
of a month and its promotion after it is counted in the old month and fits the new one
(`caps_exceeded`).

The pass of `gatewayPromoState` ends with the first of the usable free tiers in display order, without one
with the first usable discount, and reports an exhausted free tier only when nothing is usable
(`gatewayPromoState_optimum`). A free tier is usable while it has room for the request and no notice took
it away: after the notice its promotion loses to a later one, room or not (`noticed_room_passed_over`). -/

namespace Experiential.Gateway

/-! ### What a start funds -/

/-- A free reservation fits under the winning promotion's free tier. -/
theorem free_fits {db : Db} {p : StartArgs} {r : GatewayRequest} {c : StartClock} {f : Funding}
    (hf : Funded db p r c f) (hfree : f.free = true) :
    p.billingSource = .hostManaged ∧ ∃ q ∈ db.config.modelPromotions, f.promoId = some q.id ∧
      db.promoFreeSpent p.orgId q (monthOf c.promoState) + coalesce p.maximumCost 0 ≤ q.perOrgCap := by
  cases hb : p.billingSource with
  | customerManaged =>
      rw [hf.customer hb] at hfree
      cases hfree
  | hostManaged =>
      obtain ⟨s, w, hw, hs, rfl⟩ := (hf.host hb).promo
      have hsfree : s.free = true := hfree
      rcases gatewayPromoState_spec hs with rfl | ⟨cand, hc, rfl⟩
      · cases hsfree
      · refine ⟨rfl, cand.promotion, hc.mem, ?_, ?_⟩
        · simp only [fundingOf, hsfree, Bool.true_or, if_true]
          rfl
        · have hwithin : cand.withinFree = true := by
            simp only [PromoState.free, PromoCandidate.state, Bool.and_eq_true] at hsfree
            exact hsfree.1.2
          rw [hw]
          exact hc.withinFree hwithin

/-- A discounted reservation fits under the winning promotion's ceiling, when it has one. -/
theorem discount_fits {db : Db} {p : StartArgs} {r : GatewayRequest} {c : StartClock} {f : Funding}
    (hf : Funded db p r c f) (hfree : f.free = false) (hpos : f.percentOff.isPos = true) :
    p.billingSource = .hostManaged ∧ ∃ q ∈ db.config.modelPromotions, f.promoId = some q.id ∧
      (q.discountCap = 0 ∨
        db.promoDiscountSpent p.orgId q (monthOf c.promoState) + f.chargeWorst ≤ q.discountCap) := by
  cases hb : p.billingSource with
  | customerManaged =>
      rw [hf.customer hb] at hpos
      cases hpos
  | hostManaged =>
      obtain ⟨s, w, hw, hs, rfl⟩ := (hf.host hb).promo
      have hactive : s.activePercent.isPos = true := hpos
      have hsfree : s.free = false := hfree
      rcases gatewayPromoState_spec hs with rfl | ⟨cand, hc, rfl⟩
      · cases hactive
      · have hdisc : cand.discActive = true := by
          by_contra hnot
          have hz : cand.state.activePercent = .zero := if_neg (by simp [PromoCandidate.state, hnot])
          rw [hz] at hactive
          cases hactive
        have hpercent : cand.state.activePercent = cand.promotion.percentOff :=
          if_pos (by simp [PromoCandidate.state, hdisc])
        refine ⟨rfl, cand.promotion, hc.mem, ?_, (hc.discActive hdisc).2.imp_right fun hle => ?_⟩
        · simp only [fundingOf, hactive, Bool.or_true, if_true]
          rfl
        · rw [reserved_of_funded hf hw hfree]
          show _ + cand.state.activePercent.off w ≤ _
          rw [hpercent]
          exact hle

/-! ### The invariant -/

/-- The sums a promotion bounds, and exclusive funding. -/
structure PromoCaps (db : Db) : Prop where
  free : ∀ orgId, ∀ q ∈ db.config.modelPromotions, ∀ m, db.promoFreeSpent orgId q m ≤ q.perOrgCap
  discount : ∀ orgId, ∀ q ∈ db.config.modelPromotions, 0 < q.discountCap → ∀ m,
    db.promoDiscountSpent orgId q m ≤ q.discountCap
  exclusive : ∀ a ∈ db.attempts, a.promoFunded = true →
    a.budgetReserved = 0 ∧ coalesce a.budgetSettled 0 = 0 ∧ a.promoDiscountPercent.isPos = false

/-- What keeps `PromoCaps` true: outstanding attempts have no promotion charge yet, and a discount
is only ever given on the platform-funded lane. -/
structure PromoInv (db : Db) : Prop extends PromoCaps db where
  unsettled : ∀ a ∈ db.attempts, a.state = .dispatched → a.promoSettled = none
  host : ∀ a ∈ db.attempts, a.promoDiscountPercent.isPos = true → a.billingSource = .hostManaged

/-- A settlement charges its promotion no more than the attempt reserved of it. -/
def PromoChargeWithin (a : GatewayAttempt) (s : Settlement) : Prop :=
  a.promoFunded = true → coalesce s.promoSettled 0 ≤ a.promoReserved

/-- Settlements within reservations, and starts whose day and promotion are read in one month. -/
def promoTerms : Terms where
  start := fun _ _ c => monthOf c.periodStart = monthOf c.promoState
  settle := fun _ a s => ChargeWithin a s ∧ PromoChargeWithin a s

theorem funds_frozen (q : ModelPromotion) (orgId : Nat) (m : Int) : Frozen (q.funds orgId m) := by
  intro a s
  unfold ModelPromotion.funds ModelPromotion.counts
  rfl

theorem discounts_frozen (q : ModelPromotion) (orgId : Nat) (m : Int) : Frozen (q.discounts orgId m) := by
  intro a s
  unfold ModelPromotion.discounts ModelPromotion.counts
  rfl

/-- A settlement within its promotion reservation lowers the sums the attempt is in. -/
theorem Settles.promoCharged_le {db db' : Db} {a : GatewayAttempt} {s : Settlement}
    (h : Settles db a s db') {q : GatewayAttempt → Bool} (hq : Frozen q)
    (hle : q a = true → coalesce s.promoSettled 0 ≤ a.promoReserved) :
    db'.attempts.sumWhere q (·.promoChargedOrReserved) ≤
      db.attempts.sumWhere q (·.promoChargedOrReserved) := by
  have hold : a.promoChargedOrReserved = a.promoReserved := if_pos h.dispatched
  have hnew : (a.settle s).promoChargedOrReserved = coalesce s.promoSettled 0 := if_neg s.terminal
  rw [h.attempts.sumWhere]
  cases hqa : q a with
  | true =>
      rw [Table.share_true hqa, Table.share_true (by rw [hq, hqa]), hold, hnew]
      have := hle hqa
      omega
  | false =>
      rw [Table.share_false hqa, Table.share_false (by rw [hq, hqa])]
      omega

theorem PromoInv.settles {db db' : Db} {a : GatewayAttempt} {s : Settlement} (hdb : PromoInv db)
    (h : Settles db a s db') (hle : ChargeWithin a s) (hpromo : PromoChargeWithin a s)
    (hfree : a.promoFunded = true → s.budgetSettled = 0) : PromoInv db' := by
  have hmem := h.attempts.mem
  refine ⟨⟨?_, ?_, ?_⟩, ?_, ?_⟩
  · intro orgId q hq m
    rw [h.config] at hq
    refine le_trans (h.promoCharged_le (funds_frozen q orgId m) fun hf => hpromo ?_) (hdb.free orgId q hq m)
    simp only [ModelPromotion.funds, Bool.and_eq_true] at hf
    exact hf.1.2
  · intro orgId q hq hcap m
    rw [h.config] at hq
    refine le_trans (h.charged_le (discounts_frozen q orgId m) fun hd => hle (hdb.host a hmem ?_))
      (hdb.discount orgId q hq hcap m)
    simp only [ModelPromotion.discounts, Bool.and_eq_true] at hd
    exact hd.1.2
  · intro b hb hp
    rcases h.attempts.mem_iff.mp hb with rfl | ⟨hb, -⟩
    · obtain ⟨h1, -, h3⟩ := hdb.exclusive a hmem hp
      exact ⟨h1, by simp [hfree hp], h3⟩
    · exact hdb.exclusive b hb hp
  · intro b hb hd
    rcases h.attempts.mem_iff.mp hb with rfl | ⟨hb, -⟩
    · exact absurd hd s.terminal
    · exact hdb.unsettled b hb hd
  · intro b hb hp
    rcases h.attempts.mem_iff.mp hb with rfl | ⟨hb, -⟩
    · exact hdb.host a hmem hp
    · exact hdb.host b hb hp

/-- Two months in which a recurring promotion counts the same attempt are one month. -/
theorem counts_eq {q : ModelPromotion} {m t : Int} {a : GatewayAttempt}
    (ha : a.budgetPeriodStart = truncDay t) (h : q.counts m a = true) :
    q.counts m = q.counts (monthOf t) := by
  unfold ModelPromotion.counts at h ⊢
  cases hs : q.capScope with
  | lifetime => rfl
  | recurring =>
      simp only [hs, Bool.and_eq_true, decide_eq_true_eq, ha] at h
      rw [← monthOf_truncDay t, month_window.mp h]

section reserve
variable {db db' : Db} {p : StartArgs} {r : GatewayRequest} {c : StartClock} {f : Funding} {id : String}

theorem free_reserve (hdb : PromoInv db) (hf : Funded db p r c f)
    (hT : monthOf c.periodStart = monthOf c.promoState)
    (h : db.insertAttempt (p.row r f id c) = .ok db') {orgId : Nat} {q : ModelPromotion}
    (hq : q ∈ db.config.modelPromotions) (m : Int) : db'.promoFreeSpent orgId q m ≤ q.perOrgCap := by
  obtain ⟨t, hfk, ht, rfl⟩ := Db.insertAttempt_eq_ok h
  have hold := hdb.free orgId q hq m
  unfold Db.promoFreeSpent at hold ⊢
  rw [Table.sumWhere_insert ht]
  cases hfunds : q.funds orgId m (p.row r f id c) with
  | false =>
      rw [Table.share_false hfunds]
      omega
  | true =>
      rw [Table.share_true hfunds]
      simp only [ModelPromotion.funds, Bool.and_eq_true, decide_eq_true_eq] at hfunds
      obtain ⟨⟨⟨horg, hid⟩, hfree⟩, hcounts⟩ := hfunds
      obtain ⟨-, q', hq', hid', hle⟩ := free_fits hf hfree
      obtain rfl : q = q' :=
        db.config.modelPromotions.eq_of_key_eq hq hq' (Option.some.inj (hid.symm.trans hid'))
      have hsame : q.funds orgId m = q.funds p.orgId (monthOf c.promoState) := by
        unfold ModelPromotion.funds
        rw [counts_eq rfl hcounts, hT, ← horg]
        rfl
      have hres : (p.row r f id c).promoChargedOrReserved = coalesce p.maximumCost 0 := if_pos hfree
      rw [hres, hsame]
      unfold Db.promoFreeSpent at hle
      omega

theorem discount_reserve (hdb : PromoInv db) (hf : Funded db p r c f)
    (hT : monthOf c.periodStart = monthOf c.promoState)
    (h : db.insertAttempt (p.row r f id c) = .ok db') {orgId : Nat} {q : ModelPromotion}
    (hq : q ∈ db.config.modelPromotions) (hcap : 0 < q.discountCap) (m : Int) :
    db'.promoDiscountSpent orgId q m ≤ q.discountCap := by
  obtain ⟨t, hfk, ht, rfl⟩ := Db.insertAttempt_eq_ok h
  refine reserve_charged_le ht (hdb.discount orgId q hq hcap m) fun hdisc hfree => ?_
  simp only [ModelPromotion.discounts, Bool.and_eq_true, decide_eq_true_eq] at hdisc
  obtain ⟨⟨⟨⟨horg, hid⟩, -⟩, hpos⟩, hcounts⟩ := hdisc
  have hpos' : f.percentOff.isPos = true := by
    simpa [StartArgs.row, hfree] using hpos
  obtain ⟨-, q', hq', hid', hle⟩ := discount_fits hf hfree hpos'
  obtain rfl : q = q' :=
    db.config.modelPromotions.eq_of_key_eq hq hq' (Option.some.inj (hid.symm.trans hid'))
  have hsame : q.discounts orgId m = q.discounts p.orgId (monthOf c.promoState) := by
    unfold ModelPromotion.discounts
    rw [counts_eq rfl hcounts, hT, ← horg]
    rfl
  have hfits := hle.resolve_left (ne_of_gt hcap)
  unfold Db.promoDiscountSpent at hfits
  rwa [← hsame] at hfits

theorem PromoInv.reserve (hdb : PromoInv db) (hf : Funded db p r c f)
    (hT : monthOf c.periodStart = monthOf c.promoState)
    (h : db.insertAttempt (p.row r f id c) = .ok db') : PromoInv db' := by
  have hfreeSum : ∀ orgId, ∀ q ∈ db.config.modelPromotions, ∀ m,
      db'.promoFreeSpent orgId q m ≤ q.perOrgCap := fun _ _ hq => free_reserve hdb hf hT h hq
  have hdiscSum : ∀ orgId, ∀ q ∈ db.config.modelPromotions, 0 < q.discountCap → ∀ m,
      db'.promoDiscountSpent orgId q m ≤ q.discountCap :=
    fun _ _ hq => discount_reserve hdb hf hT h hq
  obtain ⟨t, hfk, ht, rfl⟩ := Db.insertAttempt_eq_ok h
  refine ⟨⟨hfreeSum, hdiscSum, ?_⟩, ?_, ?_⟩
  · intro a ha hp
    rcases (Table.mem_insert ht).mp ha with rfl | ha
    · have hfree : f.free = true := hp
      exact ⟨by simp [StartArgs.row, hfree], rfl, by simp [StartArgs.row, hfree]⟩
    · exact hdb.exclusive a ha hp
  · intro a ha hd
    rcases (Table.mem_insert ht).mp ha with rfl | ha
    · rfl
    · exact hdb.unsettled a ha hd
  · intro a ha hpos
    rcases (Table.mem_insert ht).mp ha with rfl | ha
    · cases hfree : f.free with
      | true => simp [StartArgs.row, hfree] at hpos
      | false =>
          have hpos' : f.percentOff.isPos = true := by
            simpa [StartArgs.row, hfree] using hpos
          exact (discount_fits hf hfree hpos').1
    · exact hdb.host a ha hpos

end reserve

theorem PromoInv.move {db db' : Db} (h : Move promoTerms db db') (hdb : PromoInv db) :
    PromoInv db' := by
  cases h with
  | accept p d now hT hfresh hgate h =>
      obtain ⟨t, hfk, -, rfl⟩ := Db.insertRequest_eq_ok h
      exact ⟨⟨hdb.free, hdb.discount, hdb.exclusive⟩, hdb.unsettled, hdb.host⟩
  | reserve p r c f id hT hr hf h => exact hdb.reserve hf hT h
  | settle p o u now a s hs hT h => exact hdb.settles h hT.1 hT.2 (settlement_free hs)
  | crash a now hT h =>
      have hmem := h.attempts.mem
      have hexcl := fun hp => (hdb.exclusive a hmem hp).1
      refine hdb.settles h (fun _ => crash_within hmem now) ?_ ?_
      · intro _
        simpa [GatewayAttempt.crash, hdb.unsettled a hmem h.dispatched] using
          (db.attempts.checked a hmem).promoReserved
      · intro hp
        cases hb : a.billingSource with
        | hostManaged => exact crash_host hb now
        | customerManaged => simp [GatewayAttempt.crash, GatewayAttempt.crashSettled, hb, hexcl hp]
  | close r s h =>
      have hsum : db'.promoFreeSpent = db.promoFreeSpent ∧ db'.promoDiscountSpent = db.promoDiscountSpent := by
        unfold Db.promoFreeSpent Db.promoDiscountSpent
        rw [h.attempts]
        exact ⟨rfl, rfl⟩
      refine ⟨⟨?_, ?_, ?_⟩, ?_, ?_⟩
      · rw [h.config, hsum.1]
        exact hdb.free
      · rw [h.config, hsum.2]
        exact hdb.discount
      · rw [h.attempts]
        exact hdb.exclusive
      · rw [h.attempts]
        exact hdb.unsettled
      · rw [h.attempts]
        exact hdb.host

/-! ### Edits and notices -/

/-- The promotion `q'` of an edit counts nothing that `q` did not, and lowers neither cap. -/
structure ModelPromotion.Continues (q q' : ModelPromotion) : Prop where
  id : q.id = q'.id
  capScope : q'.capScope = q.capScope ∨ q.capScope = .lifetime
  perOrgCap : q.perOrgCap ≤ q'.perOrgCap
  discountCap : 0 < q'.discountCap → 0 < q.discountCap ∧ q.discountCap ≤ q'.discountCap

/-- Every promotion of the edit continues one there was, or is new. -/
def KeepsTerms (db : Db) (config : Config) : Prop :=
  ∀ q' ∈ config.modelPromotions, (∃ q ∈ db.config.modelPromotions, q.Continues q') ∨
    ∀ a ∈ db.attempts, a.promoId ≠ some q'.id

/-- What a step must meet: a call the terms, an edit the promotions there are. -/
def PromoStep (s : NoticeState) : NoticeEvent → Prop
  | .call c => Meets promoTerms s.db c
  | .administer config _ => KeepsTerms s.db config
  | .write _ _ | .drop _ => True

theorem ModelPromotion.Continues.counts {q q' : ModelPromotion} (h : q.Continues q') {m : Int} {a : GatewayAttempt}
    (hcounts : q'.counts m a = true) : q.counts m a = true := by
  unfold ModelPromotion.counts at hcounts ⊢
  obtain hsame | hlifetime := h.capScope
  · rwa [← hsame]
  · rw [hlifetime]

theorem NullOrNonneg.coalesce {o : Option Int} (h : NullOrNonneg o) : 0 ≤ Gateway.coalesce o 0 := by
  cases o with
  | none => exact le_refl 0
  | some x => exact h x rfl

theorem ModelPromotion.Continues.spent {q q' : ModelPromotion} (h : q.Continues q') (db : Db) (orgId : Nat)
    (m : Int) : db.promoFreeSpent orgId q' m ≤ db.promoFreeSpent orgId q m ∧
      db.promoDiscountSpent orgId q' m ≤ db.promoDiscountSpent orgId q m := by
  constructor
  · refine Table.sumWhere_subset (fun a ha => ?_) fun a ha => ?_
    · simp only [ModelPromotion.funds, Bool.and_eq_true, ← h.id] at ha ⊢
      exact ⟨ha.1, h.counts ha.2⟩
    · have hcheck := db.attempts.checked a ha
      unfold GatewayAttempt.promoChargedOrReserved
      split_ifs
      · exact hcheck.promoReserved
      · exact hcheck.promoSettled.coalesce
  · refine Table.sumWhere_subset (fun a ha => ?_) fun a ha => ?_
    · simp only [ModelPromotion.discounts, Bool.and_eq_true, ← h.id] at ha ⊢
      exact ⟨ha.1, h.counts ha.2⟩
    · have hcheck := db.attempts.checked a ha
      unfold GatewayAttempt.chargedOrReserved
      split_ifs
      · exact hcheck.budgetReserved
      · exact hcheck.budgetSettled.coalesce

/-- Nothing is spent under a promotion that no attempt names. -/
theorem promoSpent_new {db : Db} {q : ModelPromotion} (h : ∀ a ∈ db.attempts, a.promoId ≠ some q.id)
    (orgId : Nat) (m : Int) : db.promoFreeSpent orgId q m = 0 ∧ db.promoDiscountSpent orgId q m = 0 := by
  constructor
  · refine Table.sumWhere_eq_zero fun a ha => Table.share_false ?_
    simp [ModelPromotion.funds, h a ha]
  · refine Table.sumWhere_eq_zero fun a ha => Table.share_false ?_
    simp [ModelPromotion.discounts, h a ha]

/-- The attempts are as they were, and the promotions as the edit has them. -/
theorem PromoInv.edit {db db' : Db} (hdb : PromoInv db) (hattempts : db'.attempts = db.attempts)
    (hterms : KeepsTerms db db'.config) : PromoInv db' := by
  have hfree : db'.promoFreeSpent = db.promoFreeSpent := by
    unfold Db.promoFreeSpent
    rw [hattempts]
  have hdiscount : db'.promoDiscountSpent = db.promoDiscountSpent := by
    unfold Db.promoDiscountSpent
    rw [hattempts]
  refine ⟨⟨?_, ?_, ?_⟩, ?_, ?_⟩
  · intro orgId q' hq' m
    rw [hfree]
    rcases hterms q' hq' with ⟨q, hq, hcontinues⟩ | hnew
    · exact (hcontinues.spent db orgId m).1.trans ((hdb.free orgId q hq m).trans hcontinues.perOrgCap)
    · rw [(promoSpent_new hnew orgId m).1]
      exact (db'.config.modelPromotions.checked q' hq').1
  · intro orgId q' hq' hcap m
    rw [hdiscount]
    rcases hterms q' hq' with ⟨q, hq, hcontinues⟩ | hnew
    · obtain ⟨hpos, hle⟩ := hcontinues.discountCap hcap
      exact (hcontinues.spent db orgId m).2.trans ((hdb.discount orgId q hq hpos m).trans hle)
    · rw [(promoSpent_new hnew orgId m).2]
      exact hcap.le
  · rw [hattempts]
    exact hdb.exclusive
  · rw [hattempts]
    exact hdb.unsettled
  · rw [hattempts]
    exact hdb.host

theorem PromoInv.congr {db db' : Db} (hdb : PromoInv db) (hattempts : db'.attempts = db.attempts)
    (hpromotions : db'.config.modelPromotions = db.config.modelPromotions) : PromoInv db' := by
  refine hdb.edit hattempts fun q hq => .inl ⟨q, ?_, rfl, .inl rfl, le_refl _, fun hcap => ⟨hcap, le_refl _⟩⟩
  rw [← hpromotions]
  exact hq

theorem PromoInv.notice {db : Db} (hdb : PromoInv db) (orgId : Nat) (promotionId : String) (now : Int) :
    PromoInv (gatewayMarkPromoNotified db orgId promotionId now) := by
  unfold gatewayMarkPromoNotified
  cases db.activePromotion promotionId with
  | none => exact hdb
  | some q =>
      simp only [Db.insertNotice]
      split_ifs
      · exact hdb
      · exact hdb.congr rfl rfl

theorem PromoInv.step {s : NoticeState} {event : NoticeEvent} (hmeets : PromoStep s event)
    (hs : PromoInv s.db) : PromoInv (noticeStep s event).db := by
  cases event with
  | call c =>
      simp only [noticeStep]
      split
      · exact hs
      · exact callStep_preserves (fun _ _ => PromoInv.move) hmeets hs
  | administer config organizations => exact hs.edit rfl hmeets
  | write k now =>
      simp only [noticeStep]
      split
      · exact hs
      · exact hs.notice _ _ now
  | drop k => exact hs

/-! ### The run -/

/-- **Promotion caps hold** in every state of every run from the empty database, under calls, writes
of notices and edits that lower no cap and make no monthly one a lifetime one, whose settlements stay within reservations and whose starts
read their day and their promotion in one month. -/
theorem promo_caps_hold (config : Config) (organizations : Table Organization.id Organization.Check)
    (events : List NoticeEvent) (h : StepsMeet noticeStep PromoStep (.initial config organizations) events) :
    PromoCaps (run noticeStep (.initial config organizations) events).db := by
  have hinv : PromoInv (run noticeStep (.initial config organizations) events).db := by
    refine run_invariant (I := fun s => PromoInv s.db) (fun _ _ => PromoInv.step) events _ ?_ h
    refine ⟨⟨fun orgId q hq m => ?_, fun orgId q hq hcap m => ?_, ?_⟩, ?_, ?_⟩
    · exact le_of_eq_of_le (Table.sumWhere_eq_zero fun a ha => absurd ha (Table.not_mem_empty a))
        (config.modelPromotions.checked q hq).1
    · exact le_of_eq_of_le (Table.sumWhere_eq_zero fun a ha => absurd ha (Table.not_mem_empty a))
        hcap.le
    all_goals exact fun a ha => absurd ha (Table.not_mem_empty a)
  exact hinv.toPromoCaps

/-- The sample installation with a free tier, then half price up to `discountCap`. -/
def promoConfig (perOrgCap discountCap : Nat) (capScope : CapScope) : Config :=
  { sampleConfig with
    modelPromotions := ⟨[⟨3, [], [], perOrgCap, discountCap, capScope, halfOff, true, 0, true, .all⟩],
      by simp, by simp [ModelPromotion.Check]⟩ }

/-- A free attempt of 5 USD, settled for 3. -/
def promoRun : List (GatewayCall × Env) :=
  [(GatewayCall.accept (sampleAccept "r1" none 1000)).atTime 0 "",
    (GatewayCall.start (sampleStart "r1" 0 .hostManaged 5000000)).atTime 1 "a1",
    (GatewayCall.settle (sampleSettle "a1" .completed 3 true)).atTime 2 ""]

/-- After it 5 USD more are refused, the notice is written, the ceiling of the discount is raised from
20 to 30 USD, and the start is made again at half price. -/
def transitionRun : List NoticeEvent :=
  promoRun.map .call ++
    [.call ((GatewayCall.accept (sampleAccept "r2" none 1000)).atTime 3 ""),
      .call ((GatewayCall.start (sampleStart "r2" 0 .hostManaged 5000000)).atTime 4 "a2"),
      .write 0 5,
      .administer (promoConfig 6000000 30000000 .recurring) sampleOrganizations,
      .call ((GatewayCall.start (sampleStart "r2" 0 .hostManaged 5000000)).atTime 6 "a2"),
      .call ((GatewayCall.settle (sampleSettle "a2" .completed 4 true)).atTime 7 "")]

/-- 6 USD a month are free, and the next 20 USD at half price. -/
def promoStart : NoticeState := .initial (promoConfig 6000000 20000000 .recurring) sampleOrganizations

theorem promo_caps_hold_sample :
    (run noticeStep promoStart transitionRun).db.attempts.rows.map
      (fun a => (a.promoFunded, a.promoSettled, a.budgetSettled)) =
        [(false, none, some 2000000), (true, some 3000000, some 0)] ∧
    PromoCaps (run noticeStep promoStart transitionRun).db := by
  refine ⟨by rfl, promo_caps_hold (promoConfig 6000000 20000000 .recurring) sampleOrganizations transitionRun ?_⟩
  refine ⟨trivial, rfl, meets_settle rfl rfl rfl rfl ⟨?_, ?_⟩, trivial, rfl, trivial, ?_, rfl,
    meets_settle rfl rfl rfl rfl ⟨?_, ?_⟩, trivial⟩
  all_goals first
    | exact fun _ => by decide
    | skip
  intro q' hq'
  obtain rfl := List.mem_singleton.mp hq'
  exact .inl ⟨_, List.mem_cons_self, rfl, .inl rfl, by decide, by decide⟩

/-- The last tenth of a second of a month. -/
def monthEnd : Int := monthStart (monthOf 0 + 1) - 100000

/-- 5 USD of the free tier are reserved before the turn of the month; then a start reads its day before
it and its promotion after it. -/
def straddlingRun : List NoticeEvent :=
  [.call ((GatewayCall.accept (sampleAccept "r1" none (monthEnd + 1000000))).atTime monthEnd ""),
    .call ((GatewayCall.accept (sampleAccept "r2" none (monthEnd + 1000000))).atTime monthEnd ""),
    .call ((GatewayCall.start (sampleStart "r1" 0 .hostManaged 5000000)).atTime monthEnd "a1"),
    .call (.start (sampleStart "r2" 0 .hostManaged 5000000),
      ⟨monthEnd, { StartClock.at monthEnd with promoState := monthEnd + 200000 }, "a2"⟩)]

/-- 5 USD of the free tier of each of two months. -/
def twoMonthRun : List NoticeEvent :=
  [.call ((GatewayCall.accept (sampleAccept "r1" none (monthEnd + 1000000))).atTime monthEnd ""),
    .call ((GatewayCall.accept (sampleAccept "r2" none (monthEnd + 1000000))).atTime monthEnd ""),
    .call ((GatewayCall.start (sampleStart "r1" 0 .hostManaged 5000000)).atTime monthEnd "a1"),
    .call ((GatewayCall.start (sampleStart "r2" 0 .hostManaged 5000000)).atTime (monthEnd + 200000) "a2")]

/-- A discount with ceiling 0 is not bounded by it: 5 USD are reserved at half price. A start over the
turn of the month takes the free tier of the old one to 10 of its 6 USD. So does an edit that makes the
free tiers of two months one, and one that lowers the cap comes after 3 USD are spent. -/
theorem caps_exceeded :
    (StepsMeet callStep (Meets promoTerms) discountDb
        [(GatewayCall.accept (sampleAccept "r1" none 1000)).atTime 0 "",
          (GatewayCall.start (sampleStart "r1" 0 .hostManaged 10000000)).atTime 1 "a1"] ∧
      ¬ ∀ q ∈ discountDb.config.modelPromotions, ∀ m,
        (run callStep discountDb
          [(GatewayCall.accept (sampleAccept "r1" none 1000)).atTime 0 "",
            (GatewayCall.start (sampleStart "r1" 0 .hostManaged 10000000)).atTime 1 "a1"]).promoDiscountSpent
              1 q m ≤ q.discountCap) ∧
    ¬ PromoCaps (run noticeStep promoStart straddlingRun).db ∧
    ¬ PromoCaps (run noticeStep promoStart
      (twoMonthRun ++ [.administer (promoConfig 6000000 20000000 .lifetime) sampleOrganizations])).db ∧
    ¬ PromoCaps (run noticeStep promoStart
      (promoRun.map .call ++ [.administer (promoConfig 1000000 20000000 .recurring) sampleOrganizations])).db := by
  refine ⟨⟨⟨trivial, rfl, trivial⟩, fun h => ?_⟩, fun h => ?_, fun h => ?_, fun h => ?_⟩
  · exact absurd (h _ List.mem_cons_self 0) (by decide)
  · exact absurd (h.free 1 _ List.mem_cons_self (monthOf 0)) (by decide)
  · exact absurd (h.free 1 _ List.mem_cons_self (monthOf 0)) (by decide)
  · exact absurd (h.free 1 _ List.mem_cons_self (monthOf 0)) (by decide)

/-! ### Display order -/

theorem ModelPromotion.before_refl (p : ModelPromotion) : p.before p := .inr ⟨rfl, le_refl _⟩

instance : Std.Total ModelPromotion.before := ⟨fun p q => by
  unfold ModelPromotion.before
  omega⟩

instance : IsTrans ModelPromotion ModelPromotion.before := ⟨fun p q r => by
  unfold ModelPromotion.before
  omega⟩

/-- Two rows of the table that come before each other are one. -/
theorem before_antisymm {db : Db} {p q : ModelPromotion} (hp : p ∈ db.config.modelPromotions)
    (hq : q ∈ db.config.modelPromotions) (hpq : p.before q) (hqp : q.before p) : p = q := by
  refine db.config.modelPromotions.eq_of_key_eq hp hq ?_
  unfold ModelPromotion.before at hpq hqp
  omega

/-! ### The reference -/

/-- The dispatch a promotion is chosen for. -/
structure PromoQuery where
  orgId : Nat
  modelSlug : String
  provider : String
  worst : Option Int
  month : Int
deriving DecidableEq

namespace PromoQuery

variable (q : PromoQuery) (db : Db)

/-- The promotions that match the dispatch. -/
def applicable : List ModelPromotion :=
  db.config.modelPromotions.rows.filter (·.matches db.config q.orgId q.modelSlug q.provider)

/-- Has the promotion's free tier room for the request? -/
def HasRoom (p : ModelPromotion) : Prop :=
  0 < p.perOrgCap ∧ ∃ w ∈ q.worst, db.promoFreeSpent q.orgId p q.month + w ≤ p.perOrgCap

/-- A free tier with room that no notice took away. -/
def FreeUsable (p : ModelPromotion) : Prop := q.HasRoom db p ∧ ¬ db.HasNotice q.orgId p q.month

/-- Does the promotion's discount apply to the request? -/
def DiscountApplies (p : ModelPromotion) : Prop :=
  p.percentOff.isPos = true ∧ (p.discountCap = 0 ∨
    ∃ w ∈ q.worst, db.promoDiscountSpent q.orgId p q.month + p.percentOff.off w ≤ p.discountCap)

/-- Can the promotion be used at all? -/
def Usable (p : ModelPromotion) : Prop := q.FreeUsable db p ∨ q.DiscountApplies db p

instance : DecidablePred (q.HasRoom db) := fun p =>
  inferInstanceAs (Decidable (0 < p.perOrgCap ∧ ∃ w ∈ q.worst, db.promoFreeSpent q.orgId p q.month + w ≤ p.perOrgCap))

instance : DecidablePred (q.FreeUsable db) := fun p =>
  inferInstanceAs (Decidable (q.HasRoom db p ∧ ¬ db.HasNotice q.orgId p q.month))

instance : DecidablePred (q.DiscountApplies db) := fun p =>
  inferInstanceAs (Decidable (p.percentOff.isPos = true ∧ (p.discountCap = 0 ∨
    ∃ w ∈ q.worst, db.promoDiscountSpent q.orgId p q.month + p.percentOff.off w ≤ p.discountCap)))

/-- The row of a promotion, with its sums as they are. -/
def evaluate (p : ModelPromotion) : PromoCandidate where
  promotion := p
  freeSpent := db.promoFreeSpent q.orgId p q.month
  discSpent := db.promoDiscountSpent q.orgId p q.month
  periodKey := p.periodKey q.month
  notified := decide (db.HasNotice q.orgId p q.month)
  withinFree := decide (∃ w ∈ q.worst, db.promoFreeSpent q.orgId p q.month + w ≤ p.perOrgCap)
  discActive := decide (q.DiscountApplies db p)

/-- The first promotion with `P` among the applicable ones, in display order. -/
def First (P : ModelPromotion → Prop) (p : ModelPromotion) : Prop :=
  p ∈ q.applicable db ∧ P p ∧ ∀ p' ∈ q.applicable db, P p' → p.before p'

/-- What the promotions of the database come to for the dispatch. -/
inductive Optimum : PromoState → Prop
  | free {p : ModelPromotion} (h : q.First db (q.FreeUsable db) p) : Optimum (q.evaluate db p).state
  | discount {p : ModelPromotion} (hfree : ∀ p' ∈ q.applicable db, ¬ q.FreeUsable db p')
      (h : q.First db (q.DiscountApplies db) p) : Optimum (q.evaluate db p).state
  | exhausted {p : ModelPromotion} (hnone : ∀ p' ∈ q.applicable db, ¬ q.Usable db p')
      (h : q.First db (fun p => 0 < p.perOrgCap) p) : Optimum (q.evaluate db p).state
  | unusable {p : ModelPromotion} (hnone : ∀ p' ∈ q.applicable db, ¬ q.Usable db p' ∧ ¬ 0 < p'.perOrgCap)
      (h : q.First db (fun _ => True) p) : Optimum (q.evaluate db p).state
  | unmatched (hnone : q.applicable db = []) : Optimum .unmatched

theorem notified_eq (p : ModelPromotion) : db.config.modelPromotionNotices.any (fun n =>
    decide (n.orgId = q.orgId) && decide (n.promotionId = p.id) && decide (n.periodKey = p.periodKey q.month)) =
    decide (db.HasNotice q.orgId p q.month) := by
  rw [Bool.eq_iff_iff, List.any_eq_true, decide_eq_true_iff]
  constructor
  · rintro ⟨n, hn, h⟩
    simp only [Bool.and_eq_true, decide_eq_true_eq] at h
    obtain ⟨⟨horg, hid⟩, hkey⟩ := h
    rw [Db.HasNotice, ← horg, ← hid, ← hkey]
    exact hn
  · intro hn
    exact ⟨_, hn, by simp⟩

/-! ### Its tiers -/

/-- The tier of a promotion for the dispatch. -/
def rank (p : ModelPromotion) : Nat := (q.evaluate db p).tier

theorem rank_eq (p : ModelPromotion) : q.rank db p =
    if q.FreeUsable db p then 1 else if q.DiscountApplies db p then 2 else if 0 < p.perOrgCap then 3 else 4 := by
  have hfree : (0 < p.perOrgCap ∧ (q.evaluate db p).withinFree = true ∧ (q.evaluate db p).notified = false) ↔
      q.FreeUsable db p := by
    simp only [evaluate, decide_eq_true_eq, decide_eq_false_iff_not, FreeUsable, HasRoom, and_assoc]
  have hdiscount : (q.evaluate db p).discActive = true ↔ q.DiscountApplies db p := decide_eq_true_iff
  unfold rank PromoCandidate.tier
  simp only [hdiscount]
  simp only [show (q.evaluate db p).promotion = p from rfl, hfree]

theorem rank_pos (p : ModelPromotion) : 1 ≤ q.rank db p := (q.evaluate db p).tier_pos

/-- The first of a tier that nothing applicable undercuts is the least of all. -/
theorem first_iff {P : ModelPromotion → Prop} {k : Nat} (htier : ∀ p ∈ q.applicable db, P p ↔ q.rank db p = k)
    (hmin : ∀ p ∈ q.applicable db, k ≤ q.rank db p) {p : ModelPromotion} :
    q.First db P p ↔ LexLeast (q.rank db) ModelPromotion.before (q.applicable db) p ∧ q.rank db p = k := by
  constructor
  · rintro ⟨hmem, hp, hbefore⟩
    have hk : q.rank db p = k := (htier p hmem).mp hp
    refine ⟨⟨hmem, fun p' hp' => hk ▸ hmin p' hp', fun p' hp' heq => ?_⟩, hk⟩
    exact hbefore p' hp' ((htier p' hp').mpr (heq.trans hk))
  · rintro ⟨hleast, hk⟩
    refine ⟨hleast.mem, (htier p hleast.mem).mpr hk, fun p' hp' h => ?_⟩
    exact hleast.le_of_rank_eq p' hp' (((htier p' hp').mp h).trans hk.symm)

section tiers
variable {q db} {p : ModelPromotion}

theorem freeUsable_iff : q.FreeUsable db p ↔ q.rank db p = 1 := by
  rw [rank_eq]
  split_ifs <;> simp [*]

theorem not_freeUsable_iff : ¬ q.FreeUsable db p ↔ 2 ≤ q.rank db p := by
  have hpos := q.rank_pos db p
  rw [freeUsable_iff]
  omega

theorem discountApplies_iff (hfree : ¬ q.FreeUsable db p) : q.DiscountApplies db p ↔ q.rank db p = 2 := by
  rw [rank_eq, if_neg hfree]
  split_ifs <;> simp [*]

theorem not_usable_iff : ¬ q.Usable db p ↔ 3 ≤ q.rank db p := by
  unfold Usable
  by_cases hfree : q.FreeUsable db p
  · have hone := freeUsable_iff.mp hfree
    simp [hfree, hone]
  · have htwo := not_freeUsable_iff.mp hfree
    rw [discountApplies_iff hfree]
    simp only [hfree, false_or]
    omega

theorem freeTier_iff (hnone : ¬ q.Usable db p) : 0 < p.perOrgCap ↔ q.rank db p = 3 := by
  obtain ⟨hfree, hdiscount⟩ := not_or.mp hnone
  rw [rank_eq, if_neg hfree, if_neg hdiscount]
  split_ifs <;> simp [*]

theorem rank_le_four : q.rank db p ≤ 4 := by
  rw [rank_eq]
  split_ifs <;> omega

theorem unusable_iff : ¬ q.Usable db p ∧ ¬ 0 < p.perOrgCap ↔ q.rank db p = 4 := by
  have hle : q.rank db p ≤ 4 := rank_le_four
  constructor
  · rintro ⟨hnone, hcap⟩
    have hthree := not_usable_iff.mp hnone
    rw [freeTier_iff hnone] at hcap
    omega
  · intro hfour
    have hnone : ¬ q.Usable db p := not_usable_iff.mpr (by omega)
    refine ⟨hnone, ?_⟩
    rw [freeTier_iff hnone]
    omega

end tiers

/-- **The reference is the least promotion by tier, display order and id.** -/
theorem optimum_iff {s : PromoState} : q.Optimum db s ↔
    (∃ p, LexLeast (q.rank db) ModelPromotion.before (q.applicable db) p ∧ s = (q.evaluate db p).state) ∨
      q.applicable db = [] ∧ s = .unmatched := by
  constructor
  · intro h
    cases h with
    | free h =>
        have hleast := (q.first_iff db (fun _ _ => freeUsable_iff) (fun p _ => q.rank_pos db p)).mp h
        exact .inl ⟨_, hleast.1, rfl⟩
    | discount hfree h =>
        have hleast := (q.first_iff db (fun p hp => discountApplies_iff (hfree p hp))
          (fun p hp => not_freeUsable_iff.mp (hfree p hp))).mp h
        exact .inl ⟨_, hleast.1, rfl⟩
    | exhausted hnone h =>
        have hleast := (q.first_iff db (fun p hp => freeTier_iff (hnone p hp))
          (fun p hp => not_usable_iff.mp (hnone p hp))).mp h
        exact .inl ⟨_, hleast.1, rfl⟩
    | unusable hnone h =>
        have hfour : ∀ p ∈ q.applicable db, q.rank db p = 4 := fun p hp => unusable_iff.mp (hnone p hp)
        have hleast := (q.first_iff db (fun p hp => iff_of_true trivial (hfour p hp))
          (fun p hp => (hfour p hp).ge)).mp h
        exact .inl ⟨_, hleast.1, rfl⟩
    | unmatched hnone => exact .inr ⟨hnone, rfl⟩
  · rintro (⟨p, hleast, rfl⟩ | ⟨hnone, rfl⟩)
    · have hpos := q.rank_pos db p
      have hle : q.rank db p ≤ 4 := rank_le_four
      have hmin := hleast.rank_le
      obtain h | h | h | h : q.rank db p = 1 ∨ q.rank db p = 2 ∨ q.rank db p = 3 ∨ q.rank db p = 4 := by omega
      · exact .free ((q.first_iff db (fun _ _ => freeUsable_iff) (h ▸ hmin)).mpr ⟨hleast, h⟩)
      · have hfree : ∀ p' ∈ q.applicable db, ¬ q.FreeUsable db p' :=
          fun p' hp' => not_freeUsable_iff.mpr (h ▸ hmin p' hp')
        exact .discount hfree ((q.first_iff db (fun p' hp' => discountApplies_iff (hfree p' hp')) (h ▸ hmin)).mpr
          ⟨hleast, h⟩)
      · have hnone : ∀ p' ∈ q.applicable db, ¬ q.Usable db p' :=
          fun p' hp' => not_usable_iff.mpr (h ▸ hmin p' hp')
        exact .exhausted hnone ((q.first_iff db (fun p' hp' => freeTier_iff (hnone p' hp')) (h ▸ hmin)).mpr
          ⟨hleast, h⟩)
      · have hfour : ∀ p' ∈ q.applicable db, q.rank db p' = 4 := by
          intro p' hp'
          have hlow := hmin p' hp'
          have hhigh : q.rank db p' ≤ 4 := rank_le_four
          omega
        exact .unusable (fun p' hp' => unusable_iff.mpr (hfour p' hp'))
          ((q.first_iff db (fun p' hp' => iff_of_true trivial (hfour p' hp')) (h ▸ hmin)).mpr ⟨hleast, h⟩)
    · exact .unmatched hnone

/-! ### The amounts the pass adds up -/

/-- No amount the pass computes for the promotion leaves `int8`. -/
structure InRange (p : ModelPromotion) : Prop where
  freeSpent : Int8 (db.promoFreeSpent q.orgId p q.month)
  discSpent : Int8 (db.promoDiscountSpent q.orgId p q.month)
  room : ∀ w ∈ q.worst, Int8 (db.promoFreeSpent q.orgId p q.month + w)
  discount : p.percentOff.isPos = true → p.discountCap ≠ 0 →
    ∀ w ∈ q.worst, Int8 (db.promoDiscountSpent q.orgId p q.month + p.percentOff.off w)

end PromoQuery

theorem fitsUnder_eq_ok {spent cap : Int} {worst : Option Int} {b : Bool} : fitsUnder spent worst cap = .ok b ↔
    (∀ w ∈ worst, Int8 (spent + w)) ∧ b = decide (∃ w ∈ worst, spent + w ≤ cap) := by
  cases worst with
  | none =>
      simp only [fitsUnder, pure_eq_ok]
      simp [eq_comm]
  | some w =>
      simp only [fitsUnder, bind_eq_ok, int8_eq_ok_iff, pure_eq_ok, Option.mem_some_iff, forall_eq', exists_eq_left']
      constructor
      · rintro ⟨total, ⟨hrange, rfl⟩, rfl⟩
        exact ⟨hrange, rfl⟩
      · rintro ⟨hrange, rfl⟩
        exact ⟨_, ⟨hrange, rfl⟩, rfl⟩

theorem discountFits_eq_ok {p : ModelPromotion} {spent : Int} {worst : Option Int} {b : Bool} :
    discountFits p spent worst = .ok b ↔
    (p.percentOff.isPos = true → p.discountCap ≠ 0 → ∀ w ∈ worst, Int8 (spent + p.percentOff.off w)) ∧
      b = decide (p.percentOff.isPos = true ∧
        (p.discountCap = 0 ∨ ∃ w ∈ worst, spent + p.percentOff.off w ≤ p.discountCap)) := by
  unfold discountFits
  split_ifs with hpos hcap
  · rw [pure_eq_ok]
    simp [hpos, hcap, eq_comm]
  · rw [fitsUnder_eq_ok]
    simp [hpos, hcap]
  · rw [pure_eq_ok]
    simp [hpos, eq_comm]

/-- The body of the loop evaluates the promotion, or raises. -/
theorem promoCandidate_iff (q : PromoQuery) (db : Db) {p : ModelPromotion} {c : PromoCandidate} :
    promoCandidate db q.orgId q.worst q.month p = .ok c ↔ q.InRange db p ∧ c = q.evaluate db p := by
  simp only [promoCandidate, bind_eq_ok, int8_eq_ok_iff, fitsUnder_eq_ok, discountFits_eq_ok, pure_eq_ok]
  constructor
  · rintro ⟨f, ⟨hf, rfl⟩, d, ⟨hd, rfl⟩, b, ⟨hroom, rfl⟩, b', ⟨hdiscount, rfl⟩, rfl⟩
    refine ⟨⟨hf, hd, hroom, hdiscount⟩, ?_⟩
    rw [q.notified_eq]
    rfl
  · rintro ⟨⟨hf, hd, hroom, hdiscount⟩, rfl⟩
    refine ⟨_, ⟨hf, rfl⟩, _, ⟨hd, rfl⟩, _, ⟨hroom, rfl⟩, _, ⟨hdiscount, rfl⟩, ?_⟩
    rw [q.notified_eq]
    rfl

/-! ### The pass -/

/-- The pass without its early exit. -/
def promoScan (db : Db) (orgId : Nat) (worst : Option Int) (month : Int) :
    List ModelPromotion → Option PromoCandidate → Raises (Option PromoCandidate)
  | [], best => return best
  | p :: ps, best => do
      let c ← promoCandidate db orgId worst month p
      promoScan db orgId worst month ps (some (betterPromo best c))

/-- The function with that pass. -/
def gatewayPromoScan (db : Db) (orgId : Nat) (modelSlug provider : String) (worst : Option Int) (now : Int) :
    Raises PromoState := do
  let matching := db.config.modelPromotions.rows.filter (·.matches db.config orgId modelSlug provider)
  let best ← promoScan db orgId worst (monthOf now) (matching.insertionSort ModelPromotion.before) none
  match best with
  | none => return .unmatched
  | some c => return c.state

section pass
variable (q : PromoQuery) (db : Db)

theorem betterPromo_evaluate (best : Option ModelPromotion) (p : ModelPromotion) :
    betterPromo (best.map (q.evaluate db)) (q.evaluate db p) = q.evaluate db (keepBest (q.rank db) best p) := by
  cases best with
  | none => rfl
  | some b =>
      show (if q.rank db p < q.rank db b then q.evaluate db p else q.evaluate db b) =
        q.evaluate db (if q.rank db p < q.rank db b then p else b)
      split_ifs <;> rfl

variable {ps : List ModelPromotion}

/-- **A pass that returns has found the first best promotion**, early exit or not. -/
theorem promoLoop_firstBest : ∀ (best : Option ModelPromotion) {r : Option PromoCandidate},
    promoLoop db q.orgId q.worst q.month ps (best.map (q.evaluate db)) = .ok r →
    r = (firstBest (q.rank db) best ps).map (q.evaluate db) := by
  induction ps with
  | nil =>
      intro best r h
      simp only [promoLoop, pure_eq_ok] at h
      exact h.symm
  | cons p ps ih =>
      intro best r h
      simp only [promoLoop, bind_eq_ok, promoCandidate_iff] at h
      obtain ⟨c, ⟨-, rfl⟩, h⟩ := h
      rw [betterPromo_evaluate] at h
      set b := keepBest (q.rank db) best p with hb
      have hstep : firstBest (q.rank db) best (p :: ps) = firstBest (q.rank db) (some b) ps := rfl
      rw [hstep]
      split_ifs at h with htier
      · -- A usable free tier: nothing after it is better.
        simp only [pure_eq_ok] at h
        rw [firstBest_of_minimal (fun p' => (show q.rank db b = 1 from htier) ▸ q.rank_pos db p')]
        exact h.symm
      · exact ih (some b) h

theorem promoScan_usable {orgId : Nat} {worst : Option Int} {month : Int}
    {b : PromoCandidate} (hb : b.tier = 1) {r : Option PromoCandidate}
    (h : promoScan db orgId worst month ps (some b) = .ok r) : r = some b := by
  induction ps with
  | nil =>
      simp only [promoScan, pure_eq_ok] at h
      exact h.symm
  | cons p ps ih =>
      simp only [promoScan, bind_eq_ok] at h
      obtain ⟨c, -, h⟩ := h
      have hpos := c.tier_pos
      have hkeep : betterPromo (some b) c = b := if_neg (by omega)
      rw [hkeep] at h
      exact ih h

theorem promoLoop_of_scan {orgId : Nat} {worst : Option Int} {month : Int} :
    ∀ {best r : Option PromoCandidate}, promoScan db orgId worst month ps best = .ok r →
      promoLoop db orgId worst month ps best = .ok r := by
  induction ps with
  | nil => exact fun h => h
  | cons p ps ih =>
      intro best r h
      simp only [promoScan, bind_eq_ok] at h
      obtain ⟨c, hc, h⟩ := h
      simp only [promoLoop, bind_eq_ok]
      refine ⟨c, hc, ?_⟩
      split_ifs with htier
      · rw [promoScan_usable db htier h]
        rfl
      · exact ih h

/-- The pass returns when no amount leaves `int8`. -/
theorem promoScan_total (hrange : ∀ p ∈ ps, q.InRange db p) :
    ∀ best, ∃ r, promoScan db q.orgId q.worst q.month ps best = .ok r := by
  induction ps with
  | nil => exact fun best => ⟨best, rfl⟩
  | cons p ps ih =>
      intro best
      have hp := (promoCandidate_iff q db).mpr ⟨hrange p List.mem_cons_self, rfl⟩
      obtain ⟨r, hr⟩ := ih (fun p' hp' => hrange p' (List.mem_cons_of_mem p hp')) (some (betterPromo best (q.evaluate db p)))
      refine ⟨r, ?_⟩
      simp only [promoScan, bind_eq_ok]
      exact ⟨_, hp, hr⟩

theorem optimum_unique {s s' : PromoState} (h : q.Optimum db s) (h' : q.Optimum db s') : s' = s := by
  obtain ⟨p, hp, rfl⟩ | ⟨hnone, rfl⟩ := (q.optimum_iff db).mp h
  · obtain ⟨p', hp', rfl⟩ | ⟨hnone', -⟩ := (q.optimum_iff db).mp h'
    · have hmem : ∀ x ∈ q.applicable db, x ∈ db.config.modelPromotions := fun x hx => (List.mem_filter.mp hx).1
      rw [hp.unique (fun ha hb => before_antisymm (hmem _ ha) (hmem _ hb)) hp']
    · rw [hnone'] at hp
      cases hp.mem
  · obtain ⟨p', hp', rfl⟩ | ⟨-, rfl⟩ := (q.optimum_iff db).mp h'
    · rw [hnone] at hp'
      cases hp'.mem
    · rfl

/-- What the pass makes of the promotions in display order. -/
theorem firstBest_optimum : ∀ {r : Option PromoCandidate},
    r = (firstBest (q.rank db) none ((q.applicable db).insertionSort ModelPromotion.before)).map (q.evaluate db) →
    q.Optimum db (match r with | none => .unmatched | some c => c.state) := by
  intro r hr
  rw [PromoQuery.optimum_iff]
  set sorted := (q.applicable db).insertionSort ModelPromotion.before with hsorted
  have hmem : ∀ p, p ∈ sorted ↔ p ∈ q.applicable db := fun p => List.mem_insertionSort _
  by_cases hnone : sorted = []
  · rw [hnone] at hr
    obtain rfl : r = none := hr
    refine .inr ⟨List.eq_nil_iff_forall_not_mem.mpr fun p hp => ?_, rfl⟩
    have := (hmem p).mpr hp
    rw [hnone] at this
    cases this
  · obtain ⟨p, hp, hleast⟩ := firstBest_lexLeast (q.rank db) ModelPromotion.before_refl
      (List.pairwise_insertionSort ModelPromotion.before (q.applicable db)) hnone
    rw [hp, Option.map_some] at hr
    obtain rfl := hr
    refine .inl ⟨p, ⟨(hmem p).mp hleast.mem, ?_, ?_⟩, rfl⟩
    · exact fun p' hp' => hleast.rank_le p' ((hmem p').mpr hp')
    · exact fun p' hp' => hleast.le_of_rank_eq p' ((hmem p').mpr hp')

end pass

/-- **Promotion selection is the optimum.**  Every answer is the reference's; the function answers when no
amount of an applicable promotion leaves `int8`, and without its early exit it would answer the same
whenever it answered at all. -/
theorem gatewayPromoState_optimum (db : Db) (orgId : Nat) (modelSlug provider : String) (worst : Option Int)
    (now : Int) :
    let q : PromoQuery := ⟨orgId, modelSlug, provider, worst, monthOf now⟩
    (∀ s, gatewayPromoState db orgId modelSlug provider worst now = .ok s → ∀ s', q.Optimum db s' ↔ s' = s) ∧
    ((∀ p ∈ q.applicable db, q.InRange db p) → ∃ s, gatewayPromoState db orgId modelSlug provider worst now = .ok s) ∧
    ∀ s, gatewayPromoScan db orgId modelSlug provider worst now = .ok s →
      gatewayPromoState db orgId modelSlug provider worst now = .ok s := by
  intro q
  have hscan : ∀ s, gatewayPromoScan db orgId modelSlug provider worst now = .ok s →
      gatewayPromoState db orgId modelSlug provider worst now = .ok s := by
    intro s h
    simp only [gatewayPromoScan, bind_eq_ok] at h
    obtain ⟨best, hbest, h⟩ := h
    simp only [gatewayPromoState, bind_eq_ok]
    exact ⟨best, promoLoop_of_scan db hbest, h⟩
  refine ⟨?_, ?_, hscan⟩
  · intro s h
    have hopt : q.Optimum db s := by
      simp only [gatewayPromoState, bind_eq_ok] at h
      obtain ⟨best, hbest, h⟩ := h
      have hanswer := firstBest_optimum q db (promoLoop_firstBest q db none hbest)
      cases best with
      | none | some c =>
          simp only [pure_eq_ok] at h
          exact h ▸ hanswer
    intro s'
    constructor
    · exact optimum_unique q db hopt
    · rintro rfl
      exact hopt
  · intro hrange
    have hsorted : ∀ p ∈ (q.applicable db).insertionSort ModelPromotion.before, q.InRange db p :=
      fun p hp => hrange p ((List.mem_insertionSort _).mp hp)
    obtain ⟨best, hbest⟩ := promoScan_total q db hsorted none
    have hanswer : ∃ s, gatewayPromoScan db orgId modelSlug provider worst now = .ok s := by
      cases best with
      | none => exact ⟨.unmatched, by simp only [gatewayPromoScan, bind_eq_ok]; exact ⟨none, hbest, rfl⟩⟩
      | some c => exact ⟨c.state, by simp only [gatewayPromoScan, bind_eq_ok]; exact ⟨some c, hbest, rfl⟩⟩
    obtain ⟨s, hs⟩ := hanswer
    exact ⟨s, hscan s hs⟩

/-- Two promotions with a free tier of 6 USD each, the first also with half price. -/
def choiceConfig (notices : List PromotionNotice) : Config :=
  { sampleConfig with
    modelPromotions := ⟨[⟨3, [], [], 6000000, 20000000, .lifetime, halfOff, true, 0, true, .all⟩,
      ⟨4, [], [], 6000000, 0, .lifetime, .zero, true, 1, true, .all⟩], by decide, by decide⟩
    modelPromotionNotices := notices }

/-- No request was made yet. -/
def choiceDb (notices : List PromotionNotice) : Db := .initial (choiceConfig notices) sampleOrganizations

/-- After the notice of the first promotion the second one wins, though the first comes before it and its free
tier has room; a request that fits no free tier gets the first promotion with its free tier exhausted, though
its discount applies; and a promotion whose sum leaves `int8` raises. -/
theorem noticed_room_passed_over :
    let q : PromoQuery := ⟨1, "alias", "provider", some 5000000, monthOf 0⟩
    let noticed := choiceDb [⟨1, 3, .lifetime⟩]
    (∃ p p', p ∈ q.applicable noticed ∧ p' ∈ q.applicable noticed ∧ p.before p' ∧ p ≠ p' ∧ q.HasRoom noticed p ∧
      (gatewayPromoState noticed 1 "alias" "provider" (some 5000000) 0).map (·.promoId) = .ok (some p'.id)) ∧
    (gatewayPromoState (choiceDb []) 1 "alias" "provider" (some 10000000) 0).map
      (fun s => (s.promoId, s.hasFreeTier, s.withinCap, s.notified, s.discountActive)) =
        .ok (some 3, true, false, false, true) ∧
    gatewayPromoState (run callStep (choiceDb []) promoRun) 1 "alias" "provider" (some (2 ^ 63 - 1)) 3 =
      .error outOfRange := by
  refine ⟨⟨⟨3, [], [], 6000000, 20000000, .lifetime, halfOff, true, 0, true, .all⟩,
    ⟨4, [], [], 6000000, 0, .lifetime, .zero, true, 1, true, .all⟩, ?_⟩, by rfl, by rfl⟩
  exact ⟨by decide, by decide, by decide, by decide, by decide, by rfl⟩

end Experiential.Gateway
