import Experiential.Lib.Table

/-! # Sliding windows over stamped rows

A table whose rows carry a time stamp, and a limit on the rows of one kind in any stretch of a
given length. A limiter counts the rows stamped since the stretch began and admits one more when
they are fewer than the limit. `windowCount_insert` is that this bounds every stretch, past and
future: the new row must be stamped no earlier than the count was taken, and nothing is asked of
the order in which other rows came. -/

namespace Experiential.Table

variable {ρ κ : Type} {key : ρ → κ} {Check : ρ → Prop}

/-- The rows of the kind `q` stamped in the stretch of length `len` that ends at `x`. -/
def windowCount (t : Table key Check) (q : ρ → Bool) (stamp : ρ → Int) (len x : Int) : Int :=
  t.sumWhere (fun r => q r && decide (x - len ≤ stamp r) && decide (stamp r ≤ x)) (fun _ => 1)

/-- The rows of the kind `q` stamped at `start` or later. -/
def countSince (t : Table key Check) (q : ρ → Bool) (stamp : ρ → Int) (start : Int) : Int :=
  t.sumWhere (fun r => q r && decide (start ≤ stamp r)) (fun _ => 1)

/-- A stretch holds no more than was stamped since before it began. -/
theorem windowCount_le_countSince (t : Table key Check) (q : ρ → Bool) (stamp : ρ → Int)
    {len x start : Int} (h : start ≤ x - len) :
    t.windowCount q stamp len x ≤ t.countSince q stamp start := by
  refine sumWhere_subset (fun r hr => ?_) fun _ _ => by omega
  simp only [Bool.and_eq_true, decide_eq_true_eq] at hr ⊢
  exact ⟨hr.1.1, le_trans h hr.1.2⟩

theorem windowCount_eq_zero {t : Table key Check} {q : ρ → Bool} {stamp : ρ → Int} {len x : Int}
    (h : ∀ r ∈ t, q r = false) : t.windowCount q stamp len x = 0 := by
  refine sumWhere_eq_zero fun r hr => share_false ?_
  simp [h r hr]

/-- A row that keeps its kind and its stamp stays in its windows. -/
theorem windowCount_replaced [DecidableEq κ] {t u : Table key Check} {a b : ρ} (h : Replaced t u a b)
    {q : ρ → Bool} {stamp : ρ → Int} (hq : q b = q a) (hstamp : stamp b = stamp a) (len x : Int) :
    u.windowCount q stamp len x = t.windowCount q stamp len x := by
  unfold windowCount
  rw [h.sumWhere]
  simp only [share, hq, hstamp]
  omega

section insert
variable [DecidableEq κ] [DecidablePred Check]

theorem windowCount_insert_other {t u : Table key Check} {r : ρ} (h : t.insert r = .ok u) {q : ρ → Bool}
    (hq : q r = false) (stamp : ρ → Int) (len x : Int) :
    u.windowCount q stamp len x = t.windowCount q stamp len x := by
  unfold windowCount
  rw [sumWhere_insert h, share_false (by simp [hq]), Int.zero_add]

/-- **Window rule**: one row is admitted when fewer than the limit were stamped since `len` before
`now`, and is stamped at `now` or later. -/
theorem windowCount_insert {t u : Table key Check} {r : ρ} (h : t.insert r = .ok u) {q : ρ → Bool}
    {stamp : ρ → Int} {len limit now : Int} (hcount : t.countSince q stamp (now - len) < limit)
    (hlater : now ≤ stamp r) (hold : ∀ x, t.windowCount q stamp len x ≤ limit) (x : Int) :
    u.windowCount q stamp len x ≤ limit := by
  have hx := hold x
  rcases lt_or_ge x (stamp r) with hbefore | hafter
  · -- the stretch ends before the new row
    unfold windowCount at hx ⊢
    rw [sumWhere_insert h, share_false]
    · omega
    · simp only [Bool.and_eq_false_iff, decide_eq_false_iff_not]
      exact .inr (by omega)
  · -- everything in the stretch was counted
    have hle := t.windowCount_le_countSince q stamp (show now - len ≤ x - len by omega)
    have hone : share (fun r => q r && decide (x - len ≤ stamp r) && decide (stamp r ≤ x))
        (fun _ => (1 : Int)) r ≤ 1 := by
      simp only [share]
      split_ifs <;> omega
    unfold windowCount at hle ⊢
    rw [sumWhere_insert h]
    omega

end insert

end Experiential.Table
