import Mathlib.Data.List.Basic
import Mathlib.Order.Basic
import Mathlib.Data.Int.Order.Basic

/-! # Tables of stamped rows

A table whose writers stamp the rows they write with a time. A reader that remembers how many
rows there were and the latest stamp can tell whether the table has changed, provided that the
stamps of later writes are later (`Since.eq`): then the rows not stamped since are rows it has
seen, in the order it saw them. Without the number of rows it can tell as long as nothing is
deleted. -/

namespace Experiential

/-- A row with the time its writer stamped it with. -/
structure Stamped (α : Type) where
  row : α
  updatedAt : Int

/-- One statement on a table. -/
inductive TableWrite (α : Type) where
  | insert (row : α) (time : Int)
  | update (p : α → Bool) (f : α → α) (time : Int)
  | delete (p : α → Bool)

variable {α : Type}

namespace TableWrite

def apply (l : List (Stamped α)) : TableWrite α → List (Stamped α)
  | insert row time => l ++ [⟨row, time⟩]
  | update p f time => l.map fun r => if p r.row then ⟨f r.row, time⟩ else r
  | delete p => l.filter fun r => !p r.row

/-- The time a statement stamps rows with. -/
def time : TableWrite α → Option Int
  | insert _ time => some time
  | update _ _ time => some time
  | delete _ => none

def deletes : TableWrite α → Bool
  | delete _ => true
  | _ => false

end TableWrite

def applyAll (l : List (Stamped α)) (writes : List (TableWrite α)) : List (Stamped α) :=
  writes.foldl TableWrite.apply l

/-- The latest of a time and the statements' times. -/
def latest (clock : Int) (writes : List (TableWrite α)) : Int :=
  (writes.filterMap TableWrite.time).foldl max clock

/-- `max(updated_at)`. -/
def maxUpdatedAt (l : List (Stamped α)) : Option Int := (l.map (·.updatedAt)).max?

/-! ### Versions -/

/-- `cur` has come from `src` by writes stamped after `bound`. -/
structure Since (bound : Int) (src cur : List (Stamped α)) : Prop where
  bounded : ∀ r ∈ src, r.updatedAt ≤ bound
  kept : (cur.filter fun r => decide (r.updatedAt ≤ bound)).Sublist src

section since
variable {bound clock : Int} {src cur : List (Stamped α)}

theorem Since.refl (h : ∀ r ∈ cur, r.updatedAt ≤ bound) : Since bound cur cur :=
  ⟨h, List.filter_sublist⟩

/-- **The watermark tells.** As many rows and the same latest stamp: nothing has changed. -/
theorem Since.eq (h : Since bound src cur) (hlength : src.length ≤ cur.length)
    (hmax : maxUpdatedAt cur = maxUpdatedAt src) : cur = src := by
  have hbounded : ∀ r ∈ cur, r.updatedAt ≤ bound := by
    intro r hr
    have hne : cur.map (·.updatedAt) ≠ [] := by
      intro hnil
      rw [List.map_eq_nil_iff] at hnil
      rw [hnil] at hr
      cases hr
    obtain ⟨m, hm⟩ := Option.isSome_iff_exists.mp (List.isSome_max?_of_ne_nil hne)
    have hle := (List.max?_eq_some_iff.mp hm).2 _ (List.mem_map_of_mem hr)
    unfold maxUpdatedAt at hmax
    rw [hmax] at hm
    obtain ⟨r', hr', rfl⟩ := List.mem_map.mp (List.max?_eq_some_iff.mp hm).1
    exact hle.trans (h.bounded r' hr')
  have hall : (cur.filter fun r => decide (r.updatedAt ≤ bound)) = cur := by
    rw [List.filter_eq_self]
    intro r hr
    exact decide_eq_true (hbounded r hr)
  have hsub := h.kept
  rw [hall] at hsub
  exact hsub.eq_of_length_le hlength

/-- A map that leaves the rows it does not push out of `q` alone. -/
theorem filter_map_sublist {β : Type} {g : β → β} {q : β → Bool} (hg : ∀ b, q (g b) = true → g b = b) :
    ∀ l : List β, ((l.map g).filter q).Sublist (l.filter q)
  | [] => List.Sublist.refl _
  | b :: l => by
      have ih := filter_map_sublist hg l
      rw [List.map_cons]
      by_cases hq : q (g b) = true
      · rw [List.filter_cons_of_pos hq, hg b hq]
        rw [hg b hq] at hq
        rw [List.filter_cons_of_pos hq]
        exact ih.cons_cons b
      · rw [List.filter_cons_of_neg hq]
        by_cases hb : q b = true
        · rw [List.filter_cons_of_pos hb]
          exact ih.cons b
        · rw [List.filter_cons_of_neg hb]
          exact ih

theorem Since.apply (h : Since bound src cur) {x : TableWrite α}
    (hx : ∀ t, x.time = some t → bound < t) : Since bound src (x.apply cur) := by
  refine ⟨h.bounded, ?_⟩
  cases x with
  | insert row time =>
      have hlate := hx time rfl
      unfold TableWrite.apply
      rw [List.filter_append, List.filter_cons_of_neg (by simpa using hlate), List.filter_nil,
        List.append_nil]
      exact h.kept
  | update p f time =>
      have hlate := hx time rfl
      refine (filter_map_sublist ?_ cur).trans h.kept
      intro r hr
      split_ifs at hr ⊢ with hp
      · exact absurd (of_decide_eq_true hr) (by simpa using hlate)
      · rfl
  | delete p => exact (List.filter_sublist.filter _).trans h.kept

theorem Since.applyAll (h : Since bound src cur) {writes : List (TableWrite α)}
    (hw : ∀ x ∈ writes, ∀ t, x.time = some t → bound < t) : Since bound src (applyAll cur writes) := by
  induction writes generalizing cur with
  | nil => exact h
  | cons x writes ih =>
      exact ih (h.apply (hw x List.mem_cons_self)) fun y hy => hw y (List.mem_cons_of_mem _ hy)

theorem length_le_applyAll {writes : List (TableWrite α)} (hw : ∀ x ∈ writes, x.deletes = false) :
    cur.length ≤ (applyAll cur writes).length := by
  induction writes generalizing cur with
  | nil => exact Nat.le_refl _
  | cons x writes ih =>
      have hone : cur.length ≤ (x.apply cur).length := by
        cases x with
        | insert row time => simp [TableWrite.apply]
        | update p f time => simp [TableWrite.apply]
        | delete p => cases hw _ List.mem_cons_self
      exact Nat.le_trans hone (ih fun y hy => hw y (List.mem_cons_of_mem _ hy))

theorem le_foldl_max : ∀ (times : List Int) (clock : Int), clock ≤ times.foldl max clock
  | [], _ => le_refl _
  | t :: times, clock => (le_max_left clock t).trans (le_foldl_max times (max clock t))

theorem le_latest (clock : Int) (writes : List (TableWrite α)) : clock ≤ latest clock writes :=
  le_foldl_max _ _

/-- Every stamp of a table is at most the latest committed. -/
theorem bounded_applyAll {writes : List (TableWrite α)} (h : ∀ r ∈ cur, r.updatedAt ≤ clock) :
    ∀ r ∈ applyAll cur writes, r.updatedAt ≤ latest clock writes := by
  induction writes generalizing cur clock with
  | nil => exact h
  | cons x writes ih =>
      have hlatest : latest clock (x :: writes) = latest ((x.time.map (max clock)).getD clock) writes := by
        unfold latest
        cases ht : x.time with
        | none => rw [List.filterMap_cons_none ht]; rfl
        | some t => rw [List.filterMap_cons_some ht]; rfl
      rw [hlatest]
      refine ih ?_
      intro r hr
      cases x with
      | insert row time =>
          rcases List.mem_append.mp hr with hr | hr
          · exact (h r hr).trans (le_max_left _ _)
          · rw [List.mem_singleton] at hr
            rw [hr]
            exact le_max_right _ _
      | update p f time =>
          obtain ⟨r', hr', rfl⟩ := List.mem_map.mp hr
          split_ifs
          · exact le_max_right _ _
          · exact (h r' hr').trans (le_max_left _ _)
      | delete p => exact h r (List.mem_filter.mp hr).1

end since

end Experiential
