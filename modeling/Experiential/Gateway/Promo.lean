import Experiential.Gateway.Policy

/-! # The winning promotion

`gatewayPromoState` picks, for one dispatch, the promotion that funds or discounts it: one pass
over the matching promotions in display order, keeping the best tier seen (a usable free tier,
then a usable discount, then an exhausted free tier, then any match). `gatewayPromoState_spec`
says what a non-empty answer is: the evaluation of one promotion of the configuration, whose
two spent sums are the ones caps are stated over. -/

namespace Experiential.Gateway

/-! ### Spend under a promotion -/

/-- Does the attempt fall in the promotion's period containing the month? -/
def ModelPromotion.counts (p : ModelPromotion) (month : Int) (a : GatewayAttempt) : Bool :=
  match p.capScope with
  | .lifetime => true
  | .recurring =>
      decide (monthStart month ≤ a.budgetPeriodStart) &&
        decide (a.budgetPeriodStart < monthStart (month + 1))

/-- Is the attempt a free one of this promotion, in the period? -/
def ModelPromotion.funds (p : ModelPromotion) (orgId : Nat) (month : Int) (a : GatewayAttempt) : Bool :=
  decide (a.orgId = orgId) && decide (a.promoId = some p.id) && a.promoFunded && p.counts month a

/-- Is the attempt one this promotion discounts, in the period? -/
def ModelPromotion.discounts (p : ModelPromotion) (orgId : Nat) (month : Int) (a : GatewayAttempt) : Bool :=
  decide (a.orgId = orgId) && decide (a.promoId = some p.id) && !a.promoFunded &&
    a.promoDiscountPercent.isPos && p.counts month a

/-- Free spend of the organization under the promotion. -/
def Db.promoFreeSpent (db : Db) (orgId : Nat) (p : ModelPromotion) (month : Int) : Int :=
  db.attempts.sumWhere (p.funds orgId month) (·.promoChargedOrReserved)

/-- Charged spend of the organization at the promotion's discount. -/
def Db.promoDiscountSpent (db : Db) (orgId : Nat) (p : ModelPromotion) (month : Int) : Int :=
  db.attempts.sumWhere (p.discounts orgId month) (·.chargedOrReserved)

/-! ### Candidates -/

/-- Does the promotion match the organization, model and provider of a dispatch? -/
def ModelPromotion.matches (p : ModelPromotion) (c : Config) (orgId : Nat) (modelSlug provider : String) :
    Bool :=
  p.active &&
    (p.providers.isEmpty || p.providers.contains provider) &&
    (p.coversAllModels || c.modelPromotionModels.any (fun m =>
      decide (m.promotionId = p.id) && decide (m.slug = modelSlug))) &&
    (p.audienceLabels.isEmpty || p.audienceLabels.all (fun k =>
      c.orgLabels.any (fun l => decide (l.orgId = orgId) && decide (l.key = k)))) &&
    (decide (p.fundingScope = .all) || decide (p.fundingScope = .platformFunded))

/-- `order by display_order, id`. -/
def ModelPromotion.before (p q : ModelPromotion) : Prop :=
  p.displayOrder < q.displayOrder ∨ p.displayOrder = q.displayOrder ∧ p.id ≤ q.id

instance : DecidableRel ModelPromotion.before := fun p q =>
  inferInstanceAs (Decidable (p.displayOrder < q.displayOrder ∨ p.displayOrder = q.displayOrder ∧ p.id ≤ q.id))

/-- The notice period of a promotion in a month. -/
def ModelPromotion.periodKey (p : ModelPromotion) (month : Int) : PeriodKey :=
  match p.capScope with
  | .lifetime => .lifetime
  | .recurring => .month month

/-- One promotion evaluated for one dispatch. -/
structure PromoCandidate where
  promotion : ModelPromotion
  freeSpent : Int
  discSpent : Int
  periodKey : PeriodKey
  notified : Bool
  withinFree : Bool
  discActive : Bool
deriving DecidableEq

/-- 1 usable free tier, 2 usable discount, 3 exhausted free tier, 4 any match. -/
def PromoCandidate.tier (c : PromoCandidate) : Nat :=
  if 0 < c.promotion.perOrgCap ∧ c.withinFree = true ∧ c.notified = false then 1
  else if c.discActive = true then 2
  else if 0 < c.promotion.perOrgCap then 3
  else 4

/-- Is the worst case known, and does it fit under the cap on top of what is spent? -/
def fitsUnder (spent : Int) (worst : Option Int) (cap : Int) : Raises Bool :=
  match worst with
  | none => return false
  | some w => do
      let total ← int8 (spent + w)
      return decide (total ≤ cap)

/-- Is the discount usable for this worst case?  Cap 0 never expires. -/
def discountFits (p : ModelPromotion) (discSpent : Int) (worst : Option Int) : Raises Bool :=
  if p.percentOff.isPos then
    if p.discountCap = 0 then return true
    else fitsUnder discSpent (worst.map p.percentOff.off) p.discountCap
  else return false

/-- The body of the loop: one promotion's state for the organization and worst case. -/
def promoCandidate (db : Db) (orgId : Nat) (worst : Option Int) (month : Int) (p : ModelPromotion) :
    Raises PromoCandidate := do
  let freeSpent ← int8 (db.promoFreeSpent orgId p month)
  let discSpent ← int8 (db.promoDiscountSpent orgId p month)
  let notified := db.config.modelPromotionNotices.any (fun n =>
    decide (n.orgId = orgId) && decide (n.promotionId = p.id) && decide (n.periodKey = p.periodKey month))
  let withinFree ← fitsUnder freeSpent worst p.perOrgCap
  let discActive ← discountFits p discSpent worst
  return ⟨p, freeSpent, discSpent, p.periodKey month, notified, withinFree, discActive⟩

/-- The better of the best so far and a new candidate; ties keep the earlier one. -/
def betterPromo (best : Option PromoCandidate) (c : PromoCandidate) : PromoCandidate :=
  match best with
  | none => c
  | some b => if c.tier < b.tier then c else b

/-- The loop over the matching promotions; it exits at a usable free tier. -/
def promoLoop (db : Db) (orgId : Nat) (worst : Option Int) (month : Int) :
    List ModelPromotion → Option PromoCandidate → Raises (Option PromoCandidate)
  | [], best => return best
  | p :: ps, best => do
      let c ← promoCandidate db orgId worst month p
      if (betterPromo best c).tier = 1 then return some (betterPromo best c)
      else promoLoop db orgId worst month ps (some (betterPromo best c))

/-- The row `gateway_promo_state` returns. -/
structure PromoState where
  isPromo : Bool
  promoId : Option Nat
  cap : Option Int
  promoSpent : Int
  withinCap : Bool
  capScope : Option CapScope
  periodKey : Option PeriodKey
  notified : Bool
  percentOff : Percent
  hasFreeTier : Bool
  discountCap : Int
  discountedSpent : Int
  discountActive : Bool
deriving DecidableEq

/-- No active promotion matches. -/
def PromoState.unmatched : PromoState :=
  ⟨false, none, none, 0, false, none, none, false, .zero, false, 0, 0, false⟩

def PromoCandidate.state (c : PromoCandidate) : PromoState :=
  ⟨true, some c.promotion.id, some c.promotion.perOrgCap, c.freeSpent, c.withinFree,
    some c.promotion.capScope, some c.periodKey, c.notified, c.promotion.percentOff,
    decide (0 < c.promotion.perOrgCap), c.promotion.discountCap, c.discSpent, c.discActive⟩

/-- `gateway_promo_state`. -/
def gatewayPromoState (db : Db) (orgId : Nat) (modelSlug provider : String) (worst : Option Int)
    (now : Int) : Raises PromoState := do
  let matching := db.config.modelPromotions.rows.filter (·.matches db.config orgId modelSlug provider)
  let best ← promoLoop db orgId worst (monthOf now) (matching.insertionSort ModelPromotion.before) none
  match best with
  | none => return .unmatched
  | some c => return c.state

/-! ### What the answer says -/

/-- What a candidate's flags say about the promotion it evaluates. -/
structure PromoCandidate.Faithful (db : Db) (orgId : Nat) (worst month : Int) (c : PromoCandidate) :
    Prop where
  mem : c.promotion ∈ db.config.modelPromotions
  withinFree : c.withinFree = true →
    db.promoFreeSpent orgId c.promotion month + worst ≤ c.promotion.perOrgCap
  discActive : c.discActive = true → c.promotion.percentOff.isPos = true ∧
    (c.promotion.discountCap = 0 ∨
      db.promoDiscountSpent orgId c.promotion month + c.promotion.percentOff.off worst
        ≤ c.promotion.discountCap)

theorem fitsUnder_true {spent w cap : Int} (h : fitsUnder spent (some w) cap = .ok true) :
    spent + w ≤ cap := by
  simp only [fitsUnder, bind_eq_ok, pure_eq_ok, decide_eq_true_eq] at h
  obtain ⟨total, ht, h⟩ := h
  obtain rfl := int8_eq_ok ht
  exact h

theorem discountFits_true {p : ModelPromotion} {spent w : Int}
    (h : discountFits p spent (some w) = .ok true) : p.percentOff.isPos = true ∧
      (p.discountCap = 0 ∨ spent + p.percentOff.off w ≤ p.discountCap) := by
  unfold discountFits at h
  split_ifs at h with hpos hcap
  · exact ⟨hpos, .inl hcap⟩
  · exact ⟨hpos, .inr (fitsUnder_true h)⟩
  · simp at h

theorem promoCandidate_faithful {db : Db} {orgId : Nat} {worst month : Int} {p : ModelPromotion}
    {c : PromoCandidate} (hp : p ∈ db.config.modelPromotions)
    (h : promoCandidate db orgId (some worst) month p = .ok c) : c.Faithful db orgId worst month := by
  simp only [promoCandidate, bind_eq_ok, pure_eq_ok] at h
  obtain ⟨f, hf, d, hd, w, hw, act, hact, rfl⟩ := h
  obtain rfl := int8_eq_ok hf
  obtain rfl := int8_eq_ok hd
  refine ⟨hp, ?_, ?_⟩
  · rintro rfl
    exact fitsUnder_true hw
  · rintro rfl
    exact discountFits_true hact

theorem betterPromo_cases (best : Option PromoCandidate) (c : PromoCandidate) :
    betterPromo best c = c ∨ best = some (betterPromo best c) := by
  cases best with
  | none => exact .inl rfl
  | some b =>
      unfold betterPromo
      simp only
      split_ifs
      · exact .inl rfl
      · exact .inr rfl

/-- The loop ends with the best it began with, or with the evaluation of a promotion of its list. -/
theorem promoLoop_mem {db : Db} {orgId : Nat} {worst : Option Int} {month : Int} {c : PromoCandidate} :
    ∀ {ps : List ModelPromotion} {best : Option PromoCandidate},
      promoLoop db orgId worst month ps best = .ok (some c) →
      best = some c ∨ ∃ p ∈ ps, promoCandidate db orgId worst month p = .ok c
  | [], best, h => by
      simp only [promoLoop, pure_eq_ok] at h
      exact .inl h
  | p :: ps, best, h => by
      simp only [promoLoop, bind_eq_ok] at h
      obtain ⟨c', hc', h⟩ := h
      have hbetter : betterPromo best c' = c → best = some c ∨
          ∃ q ∈ p :: ps, promoCandidate db orgId worst month q = .ok c := by
        intro hc
        rcases betterPromo_cases best c' with hnew | hold
        · exact .inr ⟨p, List.mem_cons_self, by rw [hc', ← hnew, hc]⟩
        · exact .inl (hc ▸ hold)
      split_ifs at h with htier
      · simp only [pure_eq_ok, Option.some.injEq] at h
        exact hbetter h
      · rcases promoLoop_mem h with hb | ⟨q, hq, hc⟩
        · exact hbetter (Option.some.inj hb)
        · exact .inr ⟨q, List.mem_cons_of_mem _ hq, hc⟩

/-! ### The best tier wins -/

theorem PromoCandidate.tier_pos (c : PromoCandidate) : 0 < c.tier := by
  unfold PromoCandidate.tier
  split_ifs <;> omega

theorem betterPromo_tier_le (best : Option PromoCandidate) (c : PromoCandidate) :
    (betterPromo best c).tier ≤ c.tier := by
  cases best with
  | none => exact le_refl _
  | some b =>
      unfold betterPromo
      simp only
      split_ifs with hlt
      · exact le_refl _
      · exact not_lt.mp hlt

/-- A usable free tier among the promotions of the loop makes it end with one. -/
theorem promoLoop_usable {db : Db} {orgId : Nat} {worst : Option Int} {month : Int} {p : ModelPromotion}
    {r : Option PromoCandidate} {ps : List ModelPromotion} {best : Option PromoCandidate}
    (hfree : ∀ c, promoCandidate db orgId worst month p = .ok c → c.tier = 1) (hp : p ∈ ps)
    (h : promoLoop db orgId worst month ps best = .ok r) : ∃ c, r = some c ∧ c.tier = 1 := by
  induction ps generalizing best with
  | nil => cases hp
  | cons q ps ih =>
      simp only [promoLoop, bind_eq_ok] at h
      obtain ⟨c', hc', h⟩ := h
      split_ifs at h with htier
      · simp only [pure_eq_ok] at h
        exact ⟨_, h.symm, htier⟩
      · rcases List.mem_cons.mp hp with rfl | hp
        · have hle := betterPromo_tier_le best c'
          have hpos := (betterPromo best c').tier_pos
          rw [hfree c' hc'] at hle
          omega
        · exact ih hp h

/-- Every answer but the empty one is the evaluation of a promotion of the configuration. -/
theorem gatewayPromoState_eq_ok {db : Db} {orgId : Nat} {slug provider : String} {worst : Option Int}
    {now : Int} {s : PromoState} (h : gatewayPromoState db orgId slug provider worst now = .ok s) :
    s = .unmatched ∨ ∃ p ∈ db.config.modelPromotions, ∃ c,
      promoCandidate db orgId worst (monthOf now) p = .ok c ∧ s = c.state := by
  simp only [gatewayPromoState, bind_eq_ok] at h
  obtain ⟨best, hbest, h⟩ := h
  cases best with
  | none =>
      simp only [pure_eq_ok] at h
      exact .inl h.symm
  | some c =>
      simp only [pure_eq_ok] at h
      rcases promoLoop_mem hbest with hnone | ⟨p, hp, hc⟩
      · cases hnone
      · rw [List.mem_insertionSort, List.mem_filter] at hp
        exact .inr ⟨p, hp.1, c, hc, h.symm⟩

/-- The answer is empty, or the state of one promotion of the configuration. -/
theorem gatewayPromoState_spec {db : Db} {orgId : Nat} {slug provider : String} {worst now : Int}
    {s : PromoState} (h : gatewayPromoState db orgId slug provider (some worst) now = .ok s) :
    s = .unmatched ∨ ∃ c : PromoCandidate, c.Faithful db orgId worst (monthOf now) ∧ s = c.state := by
  rcases gatewayPromoState_eq_ok h with hs | ⟨p, hp, c, hc, hs⟩
  · exact .inl hs
  · exact .inr ⟨c, promoCandidate_faithful hp hc, hs⟩

end Experiential.Gateway
