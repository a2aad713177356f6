import Mathlib.Algebra.BigOperators.Ring.List
import Mathlib.Data.Rat.Floor
import Experiential.Gateway.Settle

/-! # The exact cost of an attempt

The tokens of an attempt fall into four classes that do not overlap: fresh and cached input, fresh output and
reasoning. Each class has an effective rate, or none. `TokenCounts.cost_eq` says what the function computes
from these: null, the exact sum rounded half up, or an error where that sum does not fit a `bigint`. -/

namespace Experiential.Gateway

/-! ### Token classes -/

/-- Reported token counts, as an attempt's columns hold them. -/
structure TokenCounts where
  inputTokens : Option Int
  cachedInputTokens : Option Int
  outputTokens : Option Int
  reasoningTokens : Option Int
  range : ∀ o ∈ [inputTokens, cachedInputTokens, outputTokens, reasoningTokens], ∀ n ∈ o, 0 ≤ n ∧ n < 2 ^ 31

/-- Rates in micro-USD per million tokens. -/
structure RateCard where
  inputRate : Option Int
  cachedInputRate : Option Int
  outputRate : Option Int
  reasoningRate : Option Int
  nonneg : ∀ o ∈ [inputRate, cachedInputRate, outputRate, reasoningRate], NullOrNonneg o

structure TokenClass where
  tokens : Int
  rate : Option Int

namespace TokenCounts
variable (u : TokenCounts) (c : RateCard)

def cost : Raises (Option Int) :=
  gatewayAttemptCost u.inputTokens u.cachedInputTokens u.outputTokens u.reasoningTokens c.inputRate c.cachedInputRate
    c.outputRate c.reasoningRate

def input : Int := coalesce u.inputTokens 0
def output : Int := coalesce u.outputTokens 0

/-- No more tokens are cached than went in. -/
def cached : Int := min (coalesce u.cachedInputTokens 0) u.input

def reasoning : Int := min (coalesce u.reasoningTokens 0) u.output

/-- The classes with their effective rates. -/
def classes : List TokenClass :=
  [⟨u.input - u.cached, c.inputRate⟩, ⟨u.cached, c.cachedInputRate <|> c.inputRate⟩,
    ⟨u.output - u.reasoning, c.outputRate⟩, ⟨u.reasoning, c.reasoningRate <|> c.outputRate⟩]

/-- Micro-USD times a million. -/
def scaledCost : Int := ((u.classes c).map fun k => k.tokens * coalesce k.rate 0).sum

def exactCost : ℚ := u.scaledCost c / 1000000

/-- Nothing was used, or tokens were that no rate is known for. -/
def Unpriced : Prop :=
  (u.inputTokens = none ∧ u.outputTokens = none) ∨ ∃ k ∈ u.classes c, 0 < k.tokens ∧ k.rate = none

def greatestRate : Int := ((u.classes c).map fun k => coalesce k.rate 0).foldr max 0

/-! ### The classes -/

theorem coalesce_range {o : Option Int} (ho : o ∈ [u.inputTokens, u.cachedInputTokens, u.outputTokens, u.reasoningTokens]) :
    0 ≤ coalesce o 0 ∧ coalesce o 0 < 2 ^ 31 := by
  cases hn : o with
  | none => decide
  | some n => exact u.range o ho n hn

theorem input_range : 0 ≤ u.cached ∧ u.cached ≤ u.input ∧ u.input < 2 ^ 31 := by
  have hinput := u.coalesce_range (o := u.inputTokens) (by simp)
  have hcached := u.coalesce_range (o := u.cachedInputTokens) (by simp)
  unfold cached input
  omega

theorem output_range : 0 ≤ u.reasoning ∧ u.reasoning ≤ u.output ∧ u.output < 2 ^ 31 := by
  have houtput := u.coalesce_range (o := u.outputTokens) (by simp)
  have hreasoning := u.coalesce_range (o := u.reasoningTokens) (by simp)
  unfold reasoning output
  omega

theorem sum_tokens : ((u.classes c).map (·.tokens)).sum = u.input + u.output := by
  simp only [classes, List.map_cons, List.map_nil, List.sum_cons, List.sum_nil]
  omega

theorem tokens_nonneg {k : TokenClass} (hk : k ∈ u.classes c) : 0 ≤ k.tokens := by
  have hinput := u.input_range
  have houtput := u.output_range
  simp only [classes, List.mem_cons, List.not_mem_nil, or_false] at hk
  rcases hk with rfl | rfl | rfl | rfl <;> dsimp only <;> omega

end TokenCounts

/-! ### The function -/

theorem RateCard.coalesce_nonneg (c : RateCard) {o : Option Int}
    (ho : o ∈ [c.inputRate, c.cachedInputRate, c.outputRate, c.reasoningRate]) : 0 ≤ coalesce o 0 := by
  cases hr : o with
  | none => decide
  | some r => exact c.nonneg o ho r hr

theorem RateCard.effective_nonneg (c : RateCard) {o o' : Option Int}
    (ho : o ∈ [c.inputRate, c.cachedInputRate, c.outputRate, c.reasoningRate])
    (ho' : o' ∈ [c.inputRate, c.cachedInputRate, c.outputRate, c.reasoningRate]) : 0 ≤ coalesce (o <|> o') 0 := by
  cases hr : o with
  | none => simpa [coalesce] using c.coalesce_nonneg ho'
  | some r => exact c.nonneg o ho r hr

theorem int4_of_range {x : Int} (h0 : 0 ≤ x) (h : x < 2 ^ 31) : int4 x = .ok x := if_pos (by omega)

/-- A cast continues in range and stops at the upper bound. -/
theorem int8_bind {α : Type} {x : Int} {k : Int → Raises α} {r : Raises α} (h0 : 0 ≤ x) (hk : x < 2 ^ 63 → k x = r)
    (hbig : 2 ^ 63 ≤ x → r = .error outOfRange) : (int8 x >>= k) = r := by
  by_cases hx : x < 2 ^ 63
  · rw [int8, if_pos (by omega)]
    exact hk hx
  · rw [int8, if_neg (by omega), hbig (by omega)]
    rfl

/-- The sum is cast at each step, and only the last cast matters. -/
theorem sum_int8 {w x y z : Int} (hw : 0 ≤ w) (hx : 0 ≤ x) (hy : 0 ≤ y) (hz : 0 ≤ z) :
    (do
      let freshInput ← int8 w
      let cached ← int8 x
      let freshOutput ← int8 y
      let reasoning ← int8 z
      let input ← int8 (freshInput + cached)
      let output ← int8 (input + freshOutput)
      let total ← int8 (output + reasoning)
      let rounded ← int8 (total + 500000)
      return some (rounded.tdiv 1000000) : Raises (Option Int)) =
      if w + x + y + z + 500000 < 2 ^ 63 then .ok (some ((w + x + y + z + 500000) / 1000000)) else .error outOfRange := by
  have hbig : ∀ s, s ≤ w + x + y + z + 500000 → 2 ^ 63 ≤ s →
      (if w + x + y + z + 500000 < 2 ^ 63 then .ok (some ((w + x + y + z + 500000) / 1000000)) else .error outOfRange :
        Raises (Option Int)) = .error outOfRange := by
    intro s hs hs'
    exact if_neg (by omega)
  refine int8_bind hw (fun _ => ?_) (hbig w (by omega))
  refine int8_bind hx (fun _ => ?_) (hbig x (by omega))
  refine int8_bind hy (fun _ => ?_) (hbig y (by omega))
  refine int8_bind hz (fun _ => ?_) (hbig z (by omega))
  refine int8_bind (by omega) (fun _ => ?_) (hbig (w + x) (by omega))
  refine int8_bind (by omega) (fun _ => ?_) (hbig (w + x + y) (by omega))
  refine int8_bind (by omega) (fun _ => ?_) (hbig (w + x + y + z) (by omega))
  refine int8_bind (by omega) (fun hfits => ?_) (hbig _ le_rfl)
  rw [if_pos hfits, Int.tdiv_eq_ediv_of_nonneg (by omega)]
  rfl

namespace TokenCounts
variable (u : TokenCounts) (c : RateCard)

theorem rate_nonneg {k : TokenClass} (hk : k ∈ u.classes c) : 0 ≤ coalesce k.rate 0 := by
  simp only [classes, List.mem_cons, List.not_mem_nil, or_false] at hk
  rcases hk with rfl | rfl | rfl | rfl
  · exact c.coalesce_nonneg (by simp)
  · exact c.effective_nonneg (by simp) (by simp)
  · exact c.coalesce_nonneg (by simp)
  · exact c.effective_nonneg (by simp) (by simp)

theorem priced_nonneg {k : TokenClass} (hk : k ∈ u.classes c) : 0 ≤ k.tokens * coalesce k.rate 0 :=
  Int.mul_nonneg (u.tokens_nonneg c hk) (u.rate_nonneg c hk)

theorem scaledCost_nonneg : 0 ≤ u.scaledCost c := by
  refine List.sum_nonneg fun x hx => ?_
  obtain ⟨k, hk, rfl⟩ := List.mem_map.mp hx
  exact u.priced_nonneg c hk

theorem unpriced_iff : u.Unpriced c ↔ (u.inputTokens = none ∧ u.outputTokens = none) ∨
    (0 < u.input - u.cached ∧ c.inputRate = none) ∨ (0 < u.cached ∧ (c.cachedInputRate <|> c.inputRate) = none) ∨
    (0 < u.output - u.reasoning ∧ c.outputRate = none) ∨
    (0 < u.reasoning ∧ (c.reasoningRate <|> c.outputRate) = none) := by
  simp only [Unpriced, classes, List.mem_cons, List.not_mem_nil, or_false, exists_eq_or_imp, exists_eq_left]

theorem scaledCost_eq : u.scaledCost c = (u.input - u.cached) * coalesce c.inputRate 0 +
    u.cached * coalesce (c.cachedInputRate <|> c.inputRate) 0 + (u.output - u.reasoning) * coalesce c.outputRate 0 +
    u.reasoning * coalesce (c.reasoningRate <|> c.outputRate) 0 := by
  simp only [scaledCost, classes, List.map_cons, List.map_nil, List.sum_cons, List.sum_nil]
  omega

instance : Decidable (u.Unpriced c) := decidable_of_iff _ (u.unpriced_iff c).symm

theorem cost_eq : u.cost c =
    if u.Unpriced c then .ok none
    else if u.scaledCost c + 500000 < 2 ^ 63 then .ok (some ((u.scaledCost c + 500000) / 1000000))
    else .error outOfRange := by
  have hinput := u.input_range
  have houtput := u.output_range
  have hfresh : int4 (u.input - u.cached) = .ok (u.input - u.cached) := int4_of_range (by omega) (by omega)
  have hfresh' : int4 (u.output - u.reasoning) = .ok (u.output - u.reasoning) := int4_of_range (by omega) (by omega)
  have hmax : max (u.input - u.cached) 0 = u.input - u.cached := by omega
  have hmax' : max (u.output - u.reasoning) 0 = u.output - u.reasoning := by omega
  have hclass : ∀ k ∈ u.classes c, 0 ≤ k.tokens * coalesce k.rate 0 := fun k => u.priced_nonneg c
  simp only [classes, List.forall_mem_cons, List.not_mem_nil, false_imp_iff, implies_true, and_true] at hclass
  obtain ⟨h1, h2, h3, h4⟩ := hclass
  have hsum := sum_int8 h1 h2 h3 h4
  rw [← u.scaledCost_eq c] at hsum
  change (int4 (u.input - u.cached) >>= fun inputRest => int4 (u.output - u.reasoning) >>= fun outputRest =>
    if u.inputTokens = none ∧ u.outputTokens = none then .ok none
    else if (0 < max inputRest 0 ∧ c.inputRate = none) ∨ (0 < u.cached ∧ (c.cachedInputRate <|> c.inputRate) = none) ∨
      (0 < max outputRest 0 ∧ c.outputRate = none) ∨ (0 < u.reasoning ∧ (c.reasoningRate <|> c.outputRate) = none)
    then .ok none
    else int8 (max inputRest 0 * coalesce c.inputRate 0) >>= _) = _
  rw [hfresh, hfresh']
  change (if _ then _ else if (0 < max (u.input - u.cached) 0 ∧ _) ∨ _ ∨ (0 < max (u.output - u.reasoning) 0 ∧ _) ∨ _
    then _ else int8 (max (u.input - u.cached) 0 * _) >>= _) = _
  rw [hmax, hmax']
  by_cases h : u.Unpriced c
  · rw [if_pos h]
    rcases (u.unpriced_iff c).mp h with hnone | hrate
    · exact if_pos hnone
    · rw [if_pos hrate, ite_self]
  · have hnot := mt (u.unpriced_iff c).mpr h
    rw [not_or] at hnot
    rw [if_neg h, if_neg hnot.1, if_neg hnot.2]
    exact hsum

/-! ### What the exact cost bounds -/

theorem floor_exactCost : ⌊u.exactCost c + 1 / 2⌋ = (u.scaledCost c + 500000) / 1000000 := by
  have h : u.exactCost c + 1 / 2 = ((u.scaledCost c + 500000 : Int) : ℚ) / ((1000000 : Nat) : ℚ) := by
    unfold exactCost
    push_cast
    ring
  rw [h, Rat.floor_intCast_div_natCast]
  rfl

theorem le_greatestRate {k : TokenClass} (hk : k ∈ u.classes c) : coalesce k.rate 0 ≤ u.greatestRate c := by
  have hle : ∀ l : List Int, ∀ x ∈ l, x ≤ l.foldr max 0 := by
    intro l
    induction l with
    | nil => intro x hx; cases hx
    | cons y l ih =>
      intro x hx
      rcases List.mem_cons.mp hx with rfl | hx
      · exact le_max_left _ _
      · exact (ih x hx).trans (le_max_right _ _)
  exact hle _ _ (List.mem_map_of_mem hk)

theorem scaledCost_le : u.scaledCost c ≤ (u.input + u.output) * u.greatestRate c := by
  rw [← u.sum_tokens c, scaledCost, ← List.sum_map_mul_right]
  refine List.sum_le_sum fun k hk => ?_
  exact Int.mul_le_mul_of_nonneg_left (u.le_greatestRate c hk) (u.tokens_nonneg c hk)

theorem rounded_le : (u.scaledCost c + 500000) / 1000000 ≤ ⌈(((u.input + u.output) * u.greatestRate c : Int) : ℚ) / 1000000⌉ := by
  have hle := u.scaledCost_le c
  rw [Int.le_ceil_iff, lt_div_iff₀ (by norm_num)]
  have hround : ((u.scaledCost c + 500000) / 1000000 - 1) * 1000000 < (u.input + u.output) * u.greatestRate c := by omega
  exact_mod_cast hround

end TokenCounts

/-- Null without usage or without a rate for tokens of some class; else the exact sum, rounded half up, unless the
sum is out of range. What is charged after a discount moves with it. -/
theorem gatewayAttemptCost_exact (u : TokenCounts) (c : RateCard) :
    (u.cost c = .ok none ↔ u.Unpriced c) ∧
    (¬u.Unpriced c → u.cost c =
      if u.scaledCost c + 500000 < 2 ^ 63 then .ok (some ⌊u.exactCost c + 1 / 2⌋) else .error outOfRange) ∧
    (∀ x, u.cost c = .ok (some x) →
      0 ≤ x ∧ x ≤ ⌈(((u.input + u.output) * u.greatestRate c : Int) : ℚ) / 1000000⌉) ∧
    ∀ (p : Percent) (x y : Int), x ≤ y → p.off x ≤ p.off y := by
  have hcost := u.cost_eq c
  refine ⟨⟨fun h => ?_, fun h => ?_⟩, fun h => ?_, fun x h => ?_, fun p x y => p.off_mono⟩
  · by_contra hpriced
    rw [h, if_neg hpriced] at hcost
    split at hcost <;> cases hcost
  · rw [hcost, if_pos h]
  · rw [hcost, if_neg h, u.floor_exactCost]
  · rw [h] at hcost
    split at hcost
    · cases hcost
    · split at hcost
      · cases hcost
        have h0 := u.scaledCost_nonneg c
        exact ⟨by omega, u.rounded_le c⟩
      · cases hcost

/-- As many tokens as a count holds, at the greatest rate a column holds. -/
def vastCounts : TokenCounts := ⟨some (2 ^ 31 - 1), none, none, none, by decide⟩

def vastRates : RateCard := ⟨some (2 ^ 63 - 1), none, none, none, by decide⟩

/-- They are priced, and the function raises. -/
theorem vastCounts_raise : ¬vastCounts.Unpriced vastRates ∧ vastCounts.cost vastRates = .error outOfRange := by
  decide

end Experiential.Gateway
