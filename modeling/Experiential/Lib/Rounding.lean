import Mathlib.Tactic.Ring
import Mathlib.Tactic.Positivity
import Mathlib.Tactic.Linarith

/-! # Decimal rounding

`divRound a b` is the quotient `a / b` rounded to the nearest integer, ties away from zero,
which is how SQL's `round` and its casts from `numeric` to an integer type round. `Percent`
is a decimal between 0 and 100, and `Percent.off p x` is `x` less `p` percent, rounded: it
moves monotonically with `x`, so a bound on a price is a bound on the discounted price. -/

namespace Experiential

/-- `a / b` to the nearest integer, ties away from zero. -/
def divRound (a : Int) (b : Nat) : Int :=
  if 0 ≤ a then (2 * a + b) / (2 * b) else -((2 * (-a) + b) / (2 * b))

theorem divRound_of_nonneg {a : Int} (b : Nat) (h : 0 ≤ a) :
    divRound a b = (2 * a + b) / (2 * b) := by simp [divRound, h]

theorem divRound_nonneg {a : Int} {b : Nat} (h : 0 ≤ a) : 0 ≤ divRound a b := by
  rw [divRound_of_nonneg b h]
  positivity

theorem divRound_nonpos {a : Int} {b : Nat} (h : a ≤ 0) : divRound a b ≤ 0 := by
  unfold divRound
  split_ifs with h0
  · obtain rfl : a = 0 := le_antisymm h h0
    have : (2 * 0 + (b : Int)) / (2 * b) ≤ 0 := by
      rcases Nat.eq_zero_or_pos b with rfl | hb
      · simp
      · exact (Int.ediv_eq_zero_of_lt (by positivity) (by omega)).le
    exact this
  · have : 0 ≤ (2 * (-a) + (b : Int)) / (2 * b) :=
      Int.ediv_nonneg (by omega) (by positivity)
    omega

theorem divRound_mono {a a' : Int} {b : Nat} (hb : 0 < b) (h : a ≤ a') :
    divRound a b ≤ divRound a' b := by
  rcases le_or_gt 0 a with h0 | h0
  · rw [divRound_of_nonneg b h0, divRound_of_nonneg b (h0.trans h)]
    exact Int.ediv_le_ediv (by omega) (by omega)
  · rcases le_or_gt 0 a' with h0' | h0'
    · exact (divRound_nonpos h0.le).trans (divRound_nonneg h0')
    · have hm : (2 * (-a') + (b : Int)) / (2 * b) ≤ (2 * (-a) + (b : Int)) / (2 * b) :=
        Int.ediv_le_ediv (by omega) (by omega)
      simp only [divRound, not_le.mpr h0, not_le.mpr h0', if_false]
      omega

theorem divRound_mul (a : Int) {b : Nat} (hb : 0 < b) : divRound (a * b) b = a := by
  have key : ∀ c : Int, (2 * (c * b) + b) / (2 * b) = c := by
    intro c
    have e : 2 * (c * (b : Int)) + b = b + c * (2 * b) := by ring
    rw [e, Int.add_mul_ediv_right _ _ (by omega),
      Int.ediv_eq_zero_of_lt (by positivity) (by omega), zero_add]
  have hbZ : (0 : Int) < b := by exact_mod_cast hb
  unfold divRound
  split_ifs with h
  · exact key a
  · have e : 2 * (-(a * (b : Int))) + b = 2 * ((-a) * b) + b := by ring
    rw [e, key (-a), neg_neg]

/-- A decimal `unscaled / 10 ^ scale` between 0 and 100. -/
structure Percent where
  unscaled : Nat
  scale : Nat
  le_hundred : unscaled ≤ 100 * 10 ^ scale
deriving DecidableEq

namespace Percent

/-- No percent. -/
def zero : Percent := ⟨0, 0, by omega⟩

/-- Is the percentage positive? -/
def isPos (p : Percent) : Bool := decide (0 < p.unscaled)

@[simp] theorem isPos_zero : zero.isPos = false := by decide

/-- The part of 100 that is left, scaled by `10 ^ scale`. -/
def rest (p : Percent) : Nat := 100 * 10 ^ p.scale - p.unscaled

/-- `round(x * (100 - p) / 100)`. -/
def off (p : Percent) (x : Int) : Int := divRound (x * p.rest) (100 * 10 ^ p.scale)

theorem off_mono (p : Percent) {x y : Int} (h : x ≤ y) : p.off x ≤ p.off y :=
  divRound_mono (by positivity) (mul_le_mul_of_nonneg_right h (by positivity))

@[simp] theorem off_of_zero (p : Percent) : p.off 0 = 0 := by
  have := divRound_mul 0 (b := 100 * 10 ^ p.scale) (by positivity)
  simpa [off] using this

theorem off_of_not_isPos {p : Percent} (h : p.isPos = false) (x : Int) : p.off x = x := by
  have h0 : p.unscaled = 0 := by
    simp only [isPos, decide_eq_false_iff_not] at h
    omega
  unfold off rest
  rw [h0, Nat.sub_zero]
  exact divRound_mul x (by positivity)

@[simp] theorem off_zero (x : Int) : zero.off x = x := off_of_not_isPos isPos_zero x

end Percent

end Experiential
