import Mathlib.Tactic.Ring

/-! # UTC days and months

Instants are integers counting microseconds since 1970-01-01T00:00Z. Days are numbered from
the epoch, months by `12 * year + (month - 1)` in the proleptic Gregorian calendar.
`monthStartDay` is the day a month begins; the year starts in March inside the formula, so
that the leap day falls at the end. `monthIndex` inverts it: it estimates the month from the
mean length of a month and corrects by at most one. `month_window` is the fact everything
else rests on: an instant lies in exactly one month's half-open window. -/

namespace Experiential

/-- Microseconds in a second. -/
def usPerSecond : Int := 1000000

/-- Microseconds in a day. -/
def usPerDay : Int := 86400000000

/-- The UTC day of an instant. -/
def dayOf (t : Int) : Int := t / usPerDay

/-- `date_trunc('day', t at time zone 'UTC') at time zone 'UTC'`. -/
def truncDay (t : Int) : Int := dayOf t * usPerDay

@[simp] theorem dayOf_truncDay (t : Int) : dayOf (truncDay t) = dayOf t := by
  unfold truncDay dayOf usPerDay
  omega

theorem truncDay_eq_iff {t u : Int} : truncDay t = truncDay u ↔ dayOf t = dayOf u := by
  unfold truncDay usPerDay
  constructor <;> intro h <;> omega

/-! ### Months -/

/-- Leap days in the years before year `y` (counted from March of year 0). -/
def leapDays (y : Int) : Int := y / 4 - y / 100 + y / 400

theorem leapDays_succ (y : Int) : leapDays y ≤ leapDays (y + 1) ∧ leapDays (y + 1) ≤ leapDays y + 1 := by
  have e (z : Int) : leapDays z = z / 4 - z / 4 / 25 + z / 4 / 25 / 4 := by
    unfold leapDays
    omega
  rw [e, e]
  rcases (by omega : (y + 1) / 4 = y / 4 ∨ (y + 1) / 4 = y / 4 + 1) with h | h
  · rw [h]
    omega
  · rw [h]
    rcases (by omega : (y / 4 + 1) / 25 = y / 4 / 25 ∨ (y / 4 + 1) / 25 = y / 4 / 25 + 1) with h' | h'
    · rw [h']
      omega
    · rw [h']
      omega

theorem leapDays_bounds (y : Int) : 97 * y - 699 ≤ 400 * leapDays y ∧ 400 * leapDays y ≤ 97 * y + 396 := by
  unfold leapDays
  omega

/-- The day on which month `m` begins. -/
def monthStartDay (m : Int) : Int :=
  365 * ((m - 2) / 12) + leapDays ((m - 2) / 12) + (153 * ((m - 2) % 12) + 2) / 5 - 719468

theorem monthStartDay_succ (m : Int) :
    monthStartDay m + 28 ≤ monthStartDay (m + 1) ∧ monthStartDay (m + 1) ≤ monthStartDay m + 31 := by
  unfold monthStartDay
  have e : m + 1 - 2 = m - 2 + 1 := by omega
  rw [e]
  generalize m - 2 = j
  rcases (by omega : (j + 1) / 12 = j / 12 ∧ (j + 1) % 12 = j % 12 + 1 ∨
      (j + 1) / 12 = j / 12 + 1 ∧ (j + 1) % 12 = 0 ∧ j % 12 = 11) with ⟨h1, h2⟩ | ⟨h1, h2, h3⟩
  · rw [h1, h2]
    omega
  · rw [h1, h2, h3]
    have := leapDays_succ (j / 12)
    omega

theorem monthStartDay_lt_add (m : Int) : ∀ k : ℕ, monthStartDay m < monthStartDay (m + (k + 1 : ℕ))
  | 0 => by
      have := (monthStartDay_succ m).1
      simpa using lt_of_lt_of_le (by omega) this
  | k + 1 => by
      have h1 := monthStartDay_lt_add m k
      have h2 := (monthStartDay_succ (m + (k + 1 : ℕ))).1
      have e : m + ((k + 1 + 1 : ℕ) : Int) = m + ((k + 1 : ℕ) : Int) + 1 := by omega
      rw [e]
      omega

theorem monthStartDay_lt {m n : Int} (h : m < n) : monthStartDay m < monthStartDay n := by
  have e : m + (((n - m - 1).toNat + 1 : ℕ) : Int) = n := by omega
  have := monthStartDay_lt_add m (n - m - 1).toNat
  rwa [e] at this

theorem monthStartDay_le_iff {m n : Int} : monthStartDay m ≤ monthStartDay n ↔ m ≤ n := by
  constructor
  · intro h
    by_contra hlt
    have := monthStartDay_lt (Int.not_le.mp hlt)
    omega
  · intro h
    rcases Int.lt_or_eq_of_le h with h | rfl
    · exact Int.le_of_lt (monthStartDay_lt h)
    · exact Int.le_refl _

/-- The month estimated from the mean length of a month, 146097 / 4800 days. -/
def monthEstimate (d : Int) : Int := (d + 719468) * 4800 / 146097 + 2

/-- The month of a day. -/
def monthIndex (d : Int) : Int :=
  if d < monthStartDay (monthEstimate d) then monthEstimate d - 1
  else if d < monthStartDay (monthEstimate d + 1) then monthEstimate d
  else monthEstimate d + 1

theorem monthEstimate_bracket (d : Int) :
    monthStartDay (monthEstimate d - 1) ≤ d ∧ d < monthStartDay (monthEstimate d + 2) := by
  unfold monthStartDay monthEstimate
  have h1 := leapDays_bounds (((d + 719468) * 4800 / 146097 + 2 - 1 - 2) / 12)
  have h2 := leapDays_bounds (((d + 719468) * 4800 / 146097 + 2 + 2 - 2) / 12)
  constructor <;> omega

theorem monthIndex_spec (d : Int) :
    monthStartDay (monthIndex d) ≤ d ∧ d < monthStartDay (monthIndex d + 1) := by
  obtain ⟨h1, h2⟩ := monthEstimate_bracket d
  unfold monthIndex
  split_ifs with h3 h4
  · exact ⟨h1, by simpa using h3⟩
  · exact ⟨by omega, h4⟩
  · refine ⟨by omega, ?_⟩
    have e : monthEstimate d + 1 + 1 = monthEstimate d + 2 := by omega
    rw [e]
    exact h2

theorem monthIndex_unique {d m : Int} (h1 : monthStartDay m ≤ d) (h2 : d < monthStartDay (m + 1)) :
    monthIndex d = m := by
  obtain ⟨h3, h4⟩ := monthIndex_spec d
  apply le_antisymm
  · by_contra hlt
    have := monthStartDay_le_iff.mpr (show m + 1 ≤ monthIndex d by omega)
    omega
  · by_contra hlt
    have := monthStartDay_le_iff.mpr (show monthIndex d + 1 ≤ m by omega)
    omega

/-- The UTC month of an instant. -/
def monthOf (t : Int) : Int := monthIndex (dayOf t)

/-- The first instant of month `m`. -/
def monthStart (m : Int) : Int := monthStartDay m * usPerDay

/-- **An instant lies in exactly one month's window.** -/
theorem month_window {t : Int} {m : Int} :
    monthStart m ≤ t ∧ t < monthStart (m + 1) ↔ monthOf t = m := by
  have hday : ∀ n : Int, monthStart n ≤ t ↔ monthStartDay n ≤ dayOf t := by
    intro n
    unfold monthStart dayOf usPerDay
    omega
  rw [← not_le, hday, hday, not_le]
  constructor
  · rintro ⟨h1, h2⟩
    exact monthIndex_unique h1 h2
  · rintro rfl
    exact monthIndex_spec (dayOf t)

@[simp] theorem monthOf_truncDay (t : Int) : monthOf (truncDay t) = monthOf t := by
  unfold monthOf
  rw [dayOf_truncDay]

/-- `t + interval 'n months'`: the same day of the month, or the last one the month has. -/
def addMonths (t n : Int) : Int :=
  let m := monthOf t
  (monthStartDay (m + n) +
    min (dayOf t - monthStartDay m) (monthStartDay (m + n + 1) - monthStartDay (m + n) - 1)) * usPerDay + t % usPerDay

/-- Month 0 of 1970 begins at the epoch, and 29 February 2024 is in month 1 of 2024. -/
example : monthStart (12 * 1970) = 0 ∧ monthIndex 19782 = 12 * 2024 + 1 := by decide

end Experiential
