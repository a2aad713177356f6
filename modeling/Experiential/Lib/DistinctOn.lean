import Mathlib.Data.List.Sort

/-! # The first row of each group

`select distinct on (k) … order by …` keeps the first row of every key in that order, and
`order by … limit 1` the first row of all. Where an order leaves no doubt which row of a group comes
first, both find the same one (`find?_insertionSort`). -/

namespace Experiential

variable {α κ : Type}

/-- The first element of each key. -/
def distinctOn [DecidableEq κ] (key : α → κ) : List α → List α
  | [] => []
  | a :: l => a :: (distinctOn key l).filter fun b => decide (key b ≠ key a)

theorem mem_distinctOn [DecidableEq κ] {key : α → κ} {a : α} : ∀ {l : List α},
    a ∈ distinctOn key l ↔ l.find? (fun b => decide (key b = key a)) = some a
  | [] => by simp [distinctOn]
  | b :: l => by
      rw [distinctOn, List.mem_cons, List.mem_filter, mem_distinctOn, decide_eq_true_eq]
      by_cases hkey : key b = key a
      · rw [List.find?_cons_of_pos (by simpa using hkey)]
        simp [hkey, eq_comm]
      · rw [List.find?_cons_of_neg (by simpa using hkey)]
        have hne : a ≠ b := by
          rintro rfl
          exact hkey rfl
        simp [hne, Ne.symm hkey]

/-- The first element of a sorted list with the property, when no other one with it may come before. -/
theorem find?_insertionSort {r : α → α → Prop} [DecidableRel r] [Std.Total r] [IsTrans α r] {p : α → Bool}
    {l : List α} {a : α} (ha : a ∈ l) (hp : p a = true) (hfirst : ∀ b ∈ l, p b = true → r b a → b = a) :
    (l.insertionSort r).find? p = some a := by
  have hmem : a ∈ l.insertionSort r := (List.mem_insertionSort r).mpr ha
  cases hfind : (l.insertionSort r).find? p with
  | none => exact absurd hp (List.find?_eq_none.mp hfind a hmem)
  | some c =>
      obtain ⟨hc, before, after, hsplit, hnot⟩ := List.find?_eq_some_iff_append.mp hfind
      have hsorted : (l.insertionSort r).Pairwise r := List.pairwise_insertionSort r l
      have hcl : c ∈ l := (List.mem_insertionSort r).mp (by rw [hsplit]; simp)
      rw [hsplit] at hmem hsorted
      rcases List.mem_append.mp hmem with hbefore | hrest
      · have hna := hnot a hbefore
        simp [hp] at hna
      · rcases List.mem_cons.mp hrest with rfl | hafter
        · rfl
        · have hca : r c a := (List.pairwise_cons.mp (List.pairwise_append.mp hsorted).2.1).1 a hafter
          rw [hfirst c hcl hc hca]

theorem head?_eq_find? (l : List α) : l.head? = l.find? fun _ => true := by
  cases l <;> rfl

end Experiential
