import Mathlib.Algebra.Order.BigOperators.Group.List
import Mathlib.Algebra.Order.Group.Int
import Mathlib.Algebra.Ring.Int.Defs
import Mathlib.Data.List.MinMax
import Mathlib.Data.List.Sort

/-! # Tables with a primary key

A table is a list of rows with a primary key and a row constraint. Both are fields of the
structure, so that a table with a duplicate key or with a row that breaks its constraint
cannot be built; `insert` and `update` return the violation instead. The query the
development needs everywhere is `sumWhere p w`, the sum of `w` over the rows satisfying `p`;
`sumWhere_insert` and `Replaced.sumWhere` say how it moves when a row is added or replaced. -/

namespace Experiential

/-- Why a write was refused. -/
inductive Violation where
  | unique
  | check
deriving DecidableEq

theorem map_update_key {ρ κ : Type} {key : ρ → κ} {p : ρ → Prop} [DecidablePred p] {f : ρ → ρ}
    (hf : ∀ r, p r → key (f r) = key r) (rows : List ρ) :
    (rows.map fun r => if p r then f r else r).map key = rows.map key := by
  rw [List.map_map]
  refine List.map_congr_left fun r _ => ?_
  simp only [Function.comp_apply]
  split
  · exact hf r (by assumption)
  · rfl

theorem mem_map_update {ρ : Type} {p : ρ → Prop} [DecidablePred p] {f : ρ → ρ} (hf : ∀ r, p r → p (f r)) {r : ρ}
    (hr : ¬ p r) {rows : List ρ} : r ∈ rows.map (fun s => if p s then f s else s) ↔ r ∈ rows := by
  constructor
  · intro hmem
    obtain ⟨s, hs, rfl⟩ := List.mem_map.mp hmem
    by_cases hps : p s
    · rw [if_pos hps] at hr
      exact absurd (hf s hps) hr
    · rw [if_neg hps]
      exact hs
  · exact fun hmem => List.mem_map.mpr ⟨r, hmem, if_neg hr⟩

/-- Rows of type `ρ` with primary key `key`, all satisfying `Check`. -/
structure Table {ρ κ : Type} (key : ρ → κ) (Check : ρ → Prop) where
  rows : List ρ
  keyed : (rows.map key).Nodup
  checked : ∀ r ∈ rows, Check r

namespace Table

variable {ρ κ : Type} {key : ρ → κ} {Check : ρ → Prop}

theorem ext_rows {t u : Table key Check} (h : t.rows = u.rows) : t = u := by
  cases t; cases u; simp at h; subst h; rfl

instance : Membership ρ (Table key Check) := ⟨fun t r => r ∈ t.rows⟩

theorem mem_def {t : Table key Check} {r : ρ} : r ∈ t ↔ r ∈ t.rows := Iff.rfl

/-- The table without rows. -/
def empty : Table key Check := ⟨[], by simp, by simp⟩

@[simp] theorem not_mem_empty (r : ρ) : r ∉ (empty : Table key Check) := by simp [mem_def, empty]

theorem eq_of_key_eq {t : Table key Check} {r s : ρ} (hr : r ∈ t) (hs : s ∈ t)
    (h : key r = key s) : r = s := List.inj_on_of_nodup_map t.keyed hr hs h

/-! ### Queries -/

section find
variable [DecidableEq κ]

/-- The row with key `k`. -/
def find? (t : Table key Check) (k : κ) : Option ρ := t.rows.find? (fun r => decide (key r = k))

theorem find?_eq_some {t : Table key Check} {k : κ} {r : ρ} :
    t.find? k = some r ↔ r ∈ t ∧ key r = k := by
  unfold find?
  constructor
  · intro h
    exact ⟨List.mem_of_find?_eq_some h, by simpa using List.find?_some h⟩
  · rintro ⟨hr, rfl⟩
    cases hf : t.rows.find? (fun s => decide (key s = key r)) with
    | none =>
        have := List.find?_eq_none.mp hf r hr
        simp at this
    | some s =>
        have hs := List.mem_of_find?_eq_some hf
        have hk : key s = key r := by simpa using List.find?_some hf
        rw [t.eq_of_key_eq hs hr hk]

theorem find?_eq_none {t : Table key Check} {k : κ} :
    t.find? k = none ↔ ∀ r ∈ t, key r ≠ k := by
  simp [find?, mem_def]

theorem find?_key {t : Table key Check} {r : ρ} (h : r ∈ t) : t.find? (key r) = some r :=
  find?_eq_some.mpr ⟨h, rfl⟩

/-- A function of the row with key `k` matters on rows with that key only. -/
theorem map_find?_congr {α : Type} {t : Table key Check} {k : κ} {f g : ρ → α}
    (h : ∀ r, key r = k → f r = g r) : (t.find? k).map f = (t.find? k).map g :=
  Option.map_congr fun r hr => h r (find?_eq_some.mp hr).2

theorem map_find?_eq_self {t : Table key Check} {k : κ} {f : ρ → ρ} (h : ∀ r, key r = k → f r = r) :
    (t.find? k).map f = t.find? k := by
  rw [map_find?_congr h]
  exact Option.map_id'

end find

/-- The row with the greatest `f`: `order by f desc limit 1`. -/
def greatestBy (f : ρ → Int) (rows : List ρ) : Option ρ :=
  @List.argmax ρ Int Int.instLinearOrder.toPreorder Int.instLinearOrder.toDecidableLT f rows

theorem greatestBy_eq_none {f : ρ → Int} {rows : List ρ} : greatestBy f rows = none ↔ rows = [] :=
  List.argmax_eq_none

theorem greatestBy_mem {f : ρ → Int} {rows : List ρ} {r : ρ} (h : greatestBy f rows = some r) :
    r ∈ rows := List.argmax_mem h

theorem le_greatestBy {f : ρ → Int} {rows : List ρ} {r s : ρ} (h : greatestBy f rows = some r)
    (hs : s ∈ rows) : f s ≤ f r :=
  @List.le_of_mem_argmax ρ Int Int.instLinearOrder f rows s r hs h

/-- Does some row satisfy `p`? -/
def any (t : Table key Check) (p : ρ → Bool) : Bool := t.rows.any p

@[simp] theorem any_eq_true {t : Table key Check} {p : ρ → Bool} :
    t.any p = true ↔ ∃ r ∈ t, p r = true := by simp [any, mem_def]

theorem any_key [DecidableEq κ] (t : Table key Check) (k : κ) (p : ρ → Bool) :
    t.any (fun r => decide (key r = k) && p r) = (t.find? k).any p := by
  rw [Bool.eq_iff_iff, any_eq_true]
  constructor
  · rintro ⟨r, hr, h⟩
    obtain ⟨hk, hp⟩ := Bool.and_eq_true_iff.mp h
    rw [← of_decide_eq_true hk, find?_key hr]
    exact hp
  · intro h
    cases ht : t.find? k with
    | none => simp [ht] at h
    | some r =>
        obtain ⟨hr, hk⟩ := find?_eq_some.mp ht
        exact ⟨r, hr, by simpa [hk, ht] using h⟩

/-- Sum of `w` over the rows satisfying `p`. -/
def sumWhere (t : Table key Check) (p : ρ → Bool) (w : ρ → Int) : Int :=
  ((t.rows.filter p).map w).sum

/-- The first `n` rows in the order `le` that are eligible and that nobody has locked: `order by ..
for update skip locked limit n`. -/
def firstUnlocked (le : ρ → ρ → Prop) [DecidableRel le] (eligible locked : ρ → Bool) (n : Nat)
    (rows : List ρ) : List ρ :=
  ((rows.filter (fun r => eligible r && !locked r)).insertionSort le).take n

theorem mem_firstUnlocked {le : ρ → ρ → Prop} [DecidableRel le] {eligible locked : ρ → Bool} {n : Nat}
    {rows : List ρ} {r : ρ} (h : r ∈ firstUnlocked le eligible locked n rows) :
    r ∈ rows ∧ eligible r = true := by
  have hr := (List.mem_insertionSort _).mp (List.mem_of_mem_take h)
  obtain ⟨hmem, he⟩ := List.mem_filter.mp hr
  rw [Bool.and_eq_true] at he
  exact ⟨hmem, he.1⟩

/-- What one row adds to `sumWhere p w`. -/
def share (p : ρ → Bool) (w : ρ → Int) (r : ρ) : Int := if p r then w r else 0

theorem share_true {p : ρ → Bool} {w : ρ → Int} {r : ρ} (h : p r = true) : share p w r = w r := by
  simp [share, h]

theorem share_false {p : ρ → Bool} {w : ρ → Int} {r : ρ} (h : p r = false) : share p w r = 0 := by
  simp [share, h]

theorem sum_filter_eq (p : ρ → Bool) (w : ρ → Int) (l : List ρ) :
    ((l.filter p).map w).sum = (l.map (share p w)).sum := by
  induction l with
  | nil => rfl
  | cons r l ih =>
      cases hp : p r with
      | true | false => simp [hp, ih, share]

theorem sumWhere_eq (t : Table key Check) (p : ρ → Bool) (w : ρ → Int) :
    t.sumWhere p w = (t.rows.map (share p w)).sum := sum_filter_eq p w t.rows

theorem sumWhere_congr {t : Table key Check} {p q : ρ → Bool} {w v : ρ → Int}
    (h : ∀ r ∈ t, share p w r = share q v r) : t.sumWhere p w = t.sumWhere q v := by
  rw [sumWhere_eq, sumWhere_eq, List.map_congr_left h]

theorem sumWhere_le {t : Table key Check} {p q : ρ → Bool} {w v : ρ → Int}
    (h : ∀ r ∈ t, share p w r ≤ share q v r) : t.sumWhere p w ≤ t.sumWhere q v := by
  rw [sumWhere_eq, sumWhere_eq]
  exact List.sum_le_sum h

theorem sumWhere_subset {t : Table key Check} {p q : ρ → Bool} {w : ρ → Int}
    (hpq : ∀ r, p r = true → q r = true) (hw : ∀ r ∈ t, 0 ≤ w r) :
    t.sumWhere p w ≤ t.sumWhere q w := by
  refine sumWhere_le fun r hr => ?_
  have := hw r hr
  cases hp : p r with
  | true => rw [share_true hp, share_true (hpq r hp)]
  | false =>
      rw [share_false hp]
      unfold share
      split_ifs <;> omega

theorem sumWhere_nonneg {t : Table key Check} {p : ρ → Bool} {w : ρ → Int} (hw : ∀ r ∈ t, 0 ≤ w r) :
    0 ≤ t.sumWhere p w := by
  rw [sumWhere_eq]
  apply List.sum_nonneg
  simp only [List.mem_map]
  rintro x ⟨r, hr, rfl⟩
  have := hw r hr
  unfold share
  split_ifs <;> omega

theorem sumWhere_add {t : Table key Check} {p : ρ → Bool} {v w : ρ → Int} :
    t.sumWhere p (fun r => v r + w r) = t.sumWhere p v + t.sumWhere p w := List.sum_map_add

theorem sumWhere_eq_zero {t : Table key Check} {p : ρ → Bool} {w : ρ → Int}
    (h : ∀ r ∈ t, share p w r = 0) : t.sumWhere p w = 0 := by
  rw [sumWhere_eq]
  apply List.sum_eq_zero
  simp only [List.mem_map]
  rintro x ⟨r, hr, rfl⟩
  exact h r hr

/-! ### Writes -/

section insert
variable [DecidableEq κ] [DecidablePred Check]

/-- Insert one row. -/
def insert (t : Table key Check) (r : ρ) : Except Violation (Table key Check) :=
  if hk : key r ∈ t.rows.map key then .error .unique
  else if hc : Check r then
    .ok ⟨r :: t.rows, List.nodup_cons.mpr ⟨hk, t.keyed⟩, by
      intro s hs
      rcases List.mem_cons.mp hs with rfl | hs
      · exact hc
      · exact t.checked s hs⟩
  else .error .check

theorem insert_eq_ok {t u : Table key Check} {r : ρ} (h : t.insert r = .ok u) :
    (∀ s ∈ t, key s ≠ key r) ∧ Check r ∧ u.rows = r :: t.rows := by
  unfold insert at h
  split_ifs at h with hk hc
  cases h
  refine ⟨fun s hs he => hk ?_, hc, rfl⟩
  rw [← he]
  exact List.mem_map_of_mem hs

theorem mem_insert {t u : Table key Check} {r s : ρ} (h : t.insert r = .ok u) :
    s ∈ u ↔ s = r ∨ s ∈ t := by
  rw [mem_def, (insert_eq_ok h).2.2, List.mem_cons, mem_def]

theorem find?_insert {t u : Table key Check} {r : ρ} (h : t.insert r = .ok u) (k : κ) :
    u.find? k = if key r = k then some r else t.find? k := by
  unfold find?
  rw [(insert_eq_ok h).2.2, List.find?_cons]
  by_cases hk : key r = k <;> simp [hk]

theorem sumWhere_insert {t u : Table key Check} {r : ρ} (h : t.insert r = .ok u)
    (p : ρ → Bool) (w : ρ → Int) : u.sumWhere p w = share p w r + t.sumWhere p w := by
  rw [sumWhere_eq, sumWhere_eq, (insert_eq_ok h).2.2, List.map_cons, List.sum_cons]

end insert

section delete

/-- Remove the rows satisfying `p`. -/
def delete (t : Table key Check) (p : ρ → Bool) : Table key Check :=
  ⟨t.rows.filter (fun r => !p r), t.keyed.sublist (List.filter_sublist.map key),
    fun r hr => t.checked r (List.mem_filter.mp hr).1⟩

theorem mem_delete {t : Table key Check} {p : ρ → Bool} {r : ρ} :
    r ∈ t.delete p ↔ r ∈ t ∧ p r = false := by
  simp [delete, mem_def]

theorem find?_delete [DecidableEq κ] (t : Table key Check) (p : ρ → Bool) (k : κ) :
    (t.delete p).find? k = (t.find? k).filter (fun r => !p r) := by
  cases ht : t.find? k with
  | none =>
      rw [find?_eq_none] at ht
      exact find?_eq_none.mpr fun r hr => ht r (mem_delete.mp hr).1
  | some r =>
      obtain ⟨hr, rfl⟩ := find?_eq_some.mp ht
      cases hp : p r with
      | true =>
          simp only [Option.filter_some, hp, Bool.not_true, Bool.false_eq_true, if_false]
          refine find?_eq_none.mpr fun s hs he => ?_
          obtain ⟨hs, hfalse⟩ := mem_delete.mp hs
          rw [t.eq_of_key_eq hs hr he, hp] at hfalse
          cases hfalse
      | false =>
          simp only [Option.filter_some, hp, Bool.not_false, if_true]
          exact find?_key (mem_delete.mpr ⟨hr, hp⟩)

theorem find?_delete_key [DecidableEq κ] (t : Table key Check) (k k' : κ) :
    (t.delete (fun r => decide (key r = k'))).find? k = if k = k' then none else t.find? k := by
  rw [find?_delete]
  cases ht : t.find? k with
  | none => simp
  | some r =>
      have hk : key r = k := (find?_eq_some.mp ht).2
      by_cases h : k = k'
      · simp [hk, h]
      · simp [hk, h]

theorem delete_eq_self {t : Table key Check} {p : ρ → Bool} (h : ∀ r ∈ t, p r = false) :
    t.delete p = t :=
  ext_rows (List.filter_eq_self.mpr fun r hr => by simp [h r hr])

end delete

section update
variable [DecidablePred Check]

/-- Rewrite the rows satisfying `p` by `f`, which keeps the key. -/
def update (t : Table key Check) (p : ρ → Bool) (f : ρ → ρ) (hf : ∀ r, key (f r) = key r) :
    Except Violation (Table key Check) :=
  if hc : ∀ r ∈ t.rows, p r = true → Check (f r) then
    .ok ⟨t.rows.map (fun r => if p r then f r else r), by
      have : (t.rows.map (fun r => if p r then f r else r)).map key = t.rows.map key := by
        rw [List.map_map]
        apply List.map_congr_left
        intro r _
        cases hp : p r <;> simp [hp, hf]
      rw [this]
      exact t.keyed, by
      intro s hs
      obtain ⟨r, hr, rfl⟩ := List.mem_map.mp hs
      cases hp : p r with
      | true => simpa [hp] using hc r hr hp
      | false => simpa [hp] using t.checked r hr⟩
  else .error .check

theorem update_eq_ok {t u : Table key Check} {p : ρ → Bool} {f : ρ → ρ}
    {hf : ∀ r, key (f r) = key r} (h : t.update p f hf = .ok u) :
    (∀ r ∈ t, p r = true → Check (f r)) ∧ u.rows = t.rows.map (fun r => if p r then f r else r) := by
  unfold update at h
  split_ifs at h with hc
  cases h
  exact ⟨hc, rfl⟩

theorem exists_update {t : Table key Check} {p : ρ → Bool} {f : ρ → ρ} {hf : ∀ r, key (f r) = key r}
    (h : ∀ r ∈ t, p r = true → Check (f r)) : ∃ u, t.update p f hf = .ok u := by
  have hrows : ∀ r ∈ t.rows, p r = true → Check (f r) := h
  unfold update
  rw [dif_pos hrows]
  exact ⟨_, rfl⟩

variable {t u : Table key Check} {p : ρ → Bool} {f : ρ → ρ} {hf : ∀ r, key (f r) = key r}

theorem mem_update (h : t.update p f hf = .ok u) {s : ρ} :
    s ∈ u ↔ ∃ r ∈ t, (if p r then f r else r) = s := by
  rw [mem_def, (update_eq_ok h).2, List.mem_map]
  rfl

/-- Every row of the updated table comes from the row with the same key. -/
theorem exists_of_mem_update (h : t.update p f hf = .ok u) {s : ρ} (hs : s ∈ u) :
    ∃ r ∈ t, key r = key s ∧ (p r = true ∧ s = f r ∨ p r = false ∧ s = r) := by
  obtain ⟨r, hr, rfl⟩ := (mem_update h).mp hs
  refine ⟨r, hr, ?_⟩
  cases hp : p r <;> simp [hf]

theorem find?_update [DecidableEq κ] (h : t.update p f hf = .ok u) (k : κ) :
    u.find? k = (t.find? k).map (fun r => if p r then f r else r) := by
  cases ht : t.find? k with
  | none =>
      rw [find?_eq_none] at ht
      simp only [Option.map_none]
      rw [find?_eq_none]
      intro s hs
      obtain ⟨r, hr, he, -⟩ := exists_of_mem_update h hs
      rw [← he]
      exact ht r hr
  | some r =>
      obtain ⟨hr, rfl⟩ := find?_eq_some.mp ht
      simp only [Option.map_some]
      rw [find?_eq_some]
      refine ⟨(mem_update h).mpr ⟨r, hr, rfl⟩, ?_⟩
      cases hp : p r <;> simp [hf]

theorem find?_update_key [DecidableEq κ] {k : κ} (h : t.update (fun r => decide (key r = k)) f hf = .ok u)
    (k' : κ) : u.find? k' = if k' = k then (t.find? k').map f else t.find? k' := by
  rw [find?_update h]
  cases ht : t.find? k' with
  | none => simp
  | some r =>
      have hk : key r = k' := (find?_eq_some.mp ht).2
      by_cases he : k' = k
      · simp [hk, he]
      · simp [hk, he]

theorem update_eq_self (h : t.update p f hf = .ok u) (hp : ∀ r ∈ t, p r = false) : u = t := by
  apply ext_rows
  rw [(update_eq_ok h).2]
  conv_rhs => rw [← List.map_id t.rows]
  apply List.map_congr_left
  intro r hr
  simp [hp r hr]

end update

/-! ### Rewriting every row -/

section mapRows
/-- Rewrite every row by `f`, which keeps the key and the constraint. -/
def mapRows (t : Table key Check) (f : ρ → ρ) (hf : ∀ r, key (f r) = key r) (hc : ∀ r, Check r → Check (f r)) :
    Table key Check where
  rows := t.rows.map f
  keyed := by
    have : (t.rows.map f).map key = t.rows.map key := by
      rw [List.map_map]
      exact List.map_congr_left fun r _ => hf r
    rw [this]
    exact t.keyed
  checked := by
    intro s hs
    obtain ⟨r, hr, rfl⟩ := List.mem_map.mp hs
    exact hc r (t.checked r hr)

variable (t : Table key Check) (f : ρ → ρ) (hf : ∀ r, key (f r) = key r) (hc : ∀ r, Check r → Check (f r))

theorem mem_mapRows {s : ρ} : s ∈ t.mapRows f hf hc ↔ ∃ r ∈ t, f r = s := List.mem_map

theorem find?_mapRows [DecidableEq κ] (k : κ) : (t.mapRows f hf hc).find? k = (t.find? k).map f := by
  unfold find? mapRows
  rw [List.find?_map]
  refine congrArg (Option.map f) (congrArg (t.rows.find? ·) (funext fun r => ?_))
  rw [Function.comp_apply, hf]

theorem sumWhere_mapRows {p q : ρ → Bool} {w v : ρ → Int} (hp : ∀ r ∈ t, p (f r) = q r) (hw : ∀ r, w (f r) = v r) :
    (t.mapRows f hf hc).sumWhere p w = t.sumWhere q v := by
  rw [sumWhere_eq, sumWhere_eq]
  unfold mapRows
  rw [List.map_map]
  refine congrArg List.sum (List.map_congr_left fun r hr => ?_)
  rw [Function.comp_apply]
  unfold share
  rw [hp r hr, hw]

end mapRows

/-! ### Replacing one row -/

/-- `u` is `t` with the row `a` replaced by `b`, which has the same key. -/
structure Replaced [DecidableEq κ] (t u : Table key Check) (a b : ρ) : Prop where
  mem : a ∈ t
  key_eq : key b = key a
  rows : u.rows = t.rows.map (fun r => if key r = key a then b else r)

section replaced
variable [DecidableEq κ] {t u : Table key Check} {a b : ρ}

/-- An update that hits only rows with the key of `a`, and hits `a`, replaces `a`. -/
theorem replaced_of_update [DecidablePred Check] {p : ρ → Bool} {f : ρ → ρ}
    {hf : ∀ r, key (f r) = key r} (h : t.update p f hf = .ok u) (ha : a ∈ t)
    (hp : ∀ r ∈ t, p r = true ↔ key r = key a) : Replaced t u a (f a) := by
  refine ⟨ha, hf a, ?_⟩
  rw [(update_eq_ok h).2]
  apply List.map_congr_left
  intro r hr
  by_cases hk : key r = key a
  · obtain rfl := t.eq_of_key_eq hr ha hk
    simp [(hp r hr).mpr rfl]
  · have : p r = false := by
      rw [← Bool.not_eq_true, hp r hr]
      exact hk
    simp [this, hk]

theorem sum_map_replace {l : List ρ} (hnd : (l.map key).Nodup) (ha : a ∈ l) (v : ρ → Int) :
    (l.map (fun r => v (if key r = key a then b else r))).sum = (l.map v).sum - v a + v b := by
  induction l with
  | nil => cases ha
  | cons r l ih =>
      simp only [List.map_cons, List.nodup_cons, List.sum_cons] at hnd ⊢
      rcases List.mem_cons.mp ha with rfl | ha
      · have hrest : l.map (fun r => v (if key r = key a then b else r)) = l.map v := by
          apply List.map_congr_left
          intro r hr
          have : key r ≠ key a := fun he => hnd.1 (he ▸ List.mem_map_of_mem hr)
          simp [this]
        rw [hrest, if_pos rfl]
        omega
      · have hne : key r ≠ key a := fun he => hnd.1 (he ▸ List.mem_map_of_mem ha)
        rw [ih hnd.2 ha, if_neg hne]
        omega

namespace Replaced

theorem mem_iff (h : Replaced t u a b) {r : ρ} : r ∈ u ↔ r = b ∨ r ∈ t ∧ key r ≠ key a := by
  rw [mem_def, h.rows, List.mem_map]
  constructor
  · rintro ⟨s, hs, rfl⟩
    split_ifs with hk
    · exact .inl rfl
    · exact .inr ⟨hs, hk⟩
  · rintro (rfl | ⟨hr, hk⟩)
    · exact ⟨a, h.mem, by simp⟩
    · exact ⟨r, hr, by simp [hk]⟩

theorem mem_new (h : Replaced t u a b) : b ∈ u := h.mem_iff.mpr (.inl rfl)

theorem mem_iff_of_not (h : Replaced t u a b) {P : ρ → Prop} (ha : ¬P a) (hb : ¬P b) {r : ρ} (hr : P r) :
    r ∈ u ↔ r ∈ t := by
  rw [h.mem_iff]
  constructor
  · rintro (rfl | ⟨hmem, -⟩)
    · exact (hb hr).elim
    · exact hmem
  · intro hmem
    refine .inr ⟨hmem, fun hk => ?_⟩
    obtain rfl := t.eq_of_key_eq hmem h.mem hk
    exact ha hr

/-- Every row of the old table is still there, or is the one replaced. -/
theorem mem_of_mem (h : Replaced t u a b) {r : ρ} (hr : r ∈ t) : r = a ∨ r ∈ u := by
  by_cases hk : key r = key a
  · exact .inl (t.eq_of_key_eq hr h.mem hk)
  · exact .inr (h.mem_iff.mpr (.inr ⟨hr, hk⟩))

theorem find? (h : Replaced t u a b) (k : κ) :
    u.find? k = if key a = k then some b else t.find? k := by
  split_ifs with hk
  · exact find?_eq_some.mpr ⟨h.mem_new, h.key_eq.trans hk⟩
  · cases ht : t.find? k with
    | none =>
        rw [find?_eq_none] at ht ⊢
        intro r hr
        rcases h.mem_iff.mp hr with rfl | ⟨hr, -⟩
        · exact fun he => hk (h.key_eq.symm.trans he)
        · exact ht r hr
    | some r =>
        obtain ⟨hr, rfl⟩ := find?_eq_some.mp ht
        exact find?_eq_some.mpr ⟨h.mem_iff.mpr (.inr ⟨hr, fun he => hk he.symm⟩), rfl⟩

/-- Replacing a row moves a sum by that row's change. -/
theorem sumWhere (h : Replaced t u a b) (q : ρ → Bool) (w : ρ → Int) :
    u.sumWhere q w = t.sumWhere q w - share q w a + share q w b := by
  rw [sumWhere_eq, sumWhere_eq, h.rows, List.map_map]
  exact sum_map_replace t.keyed h.mem (share q w)

end Replaced

end replaced

end Table

end Experiential
