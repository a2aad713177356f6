import Mathlib.Data.List.Forall2

/-! # Dictionaries in the order of their keys' arrival

A dictionary whose entries stay in the order in which their keys came. Writing a key that is there
replaces its value where it stands. -/

namespace Experiential

variable {κ α : Type} [DecidableEq κ]

/-- The entries, each key once, the oldest first. -/
structure OrderedDict (κ α : Type) where
  entries : List (κ × α)
deriving DecidableEq

namespace OrderedDict

def empty : OrderedDict κ α := ⟨[]⟩

variable (d : OrderedDict κ α) (k : κ) (a : α)

def get? : Option α := (d.entries.find? fun e => decide (e.1 = k)).map (·.2)

def set : OrderedDict κ α :=
  if (d.get? k).isSome then ⟨d.entries.map fun e => if e.1 = k then (k, a) else e⟩ else ⟨d.entries ++ [(k, a)]⟩

def erase : OrderedDict κ α := ⟨d.entries.filter fun e => decide (e.1 ≠ k)⟩

/-- The key and its value come last. -/
def moveToEnd : OrderedDict κ α := ⟨(d.erase k).entries ++ [(k, a)]⟩

/-- Drop the oldest entries beyond a bound. -/
def evict (bound : ℕ) : OrderedDict κ α :=
  if d.entries.length ≤ bound then d else ⟨d.entries.drop (d.entries.length - bound)⟩

def filter (p : α → Bool) : OrderedDict κ α := ⟨d.entries.filter fun e => p e.2⟩

variable {d k a} {k' : κ}

@[simp] theorem get?_empty : (empty : OrderedDict κ α).get? k = none := rfl

theorem get?_filter_keys (p : κ → Prop) [DecidablePred p] :
    (⟨d.entries.filter fun e => decide (p e.1)⟩ : OrderedDict κ α).get? k = if p k then d.get? k else none := by
  unfold get?
  rw [List.find?_filter]
  split_ifs with h
  · congr 2
    funext e
    by_cases he : e.1 = k
    · simp [he, h]
    · simp [he]
  · rw [Option.map_eq_none_iff, List.find?_eq_none]
    rintro e - he
    simp only [decide_eq_true_eq] at he
    exact h (he.2 ▸ he.1)

theorem get?_append {l l' : List (κ × α)} : (⟨l ++ l'⟩ : OrderedDict κ α).get? k =
    ((⟨l⟩ : OrderedDict κ α).get? k).or ((⟨l'⟩ : OrderedDict κ α).get? k) := by
  unfold get?
  rw [List.find?_append]
  cases l.find? fun e => decide (e.1 = k) <;> rfl

theorem get?_singleton : (⟨[(k, a)]⟩ : OrderedDict κ α).get? k' = if k' = k then some a else none := by
  unfold get?
  by_cases h : k' = k
  · simp [h]
  · simp [h, Ne.symm h]

omit [DecidableEq κ] in
theorem find?_map_value [DecidableEq κ] (f : κ × α → α) (l : List (κ × α)) :
    (l.map fun e => (e.1, f e)).find? (fun e => decide (e.1 = k)) =
      (l.find? fun e => decide (e.1 = k)).map fun e => (e.1, f e) := by
  rw [List.find?_map]
  rfl

theorem get?_set : (d.set k a).get? k' = if k' = k then some a else d.get? k' := by
  unfold set
  split
  · rename_i hpresent
    have hwrite : (fun e : κ × α => if e.1 = k then (k, a) else e) = fun e => (e.1, if e.1 = k then a else e.2) := by
      funext e
      split
      · rename_i he
        rw [he]
      · rfl
    unfold get? at hpresent ⊢
    rw [hwrite, find?_map_value]
    cases hfind : d.entries.find? fun e => decide (e.1 = k') with
    | none =>
        have hne : k' ≠ k := by
          rintro rfl
          rw [hfind] at hpresent
          cases hpresent
        simp [hne]
    | some e =>
        have he : e.1 = k' := by simpa using List.find?_some hfind
        simp only [Option.map_some, he]
        split <;> rfl
  · rename_i habsent
    have hnone : d.get? k = none := by simpa using habsent
    rw [get?_append, get?_singleton]
    change (d.get? k').or _ = _
    split_ifs with hk
    · rw [hk, hnone]
      rfl
    · simp

/-- Entries that correspond still do when corresponding keys are written. -/
theorem forall₂_set {R : κ × α → κ × α → Prop} {d d' : OrderedDict κ α} {k k' : κ} {a a' : α}
    (hd : List.Forall₂ R d.entries d'.entries) (hkey : ∀ e e', R e e' → (e.1 = k ↔ e'.1 = k')) (hwrite : R (k, a) (k', a')) :
    List.Forall₂ R (d.set k a).entries (d'.set k' a').entries := by
  obtain ⟨l⟩ := d
  obtain ⟨l'⟩ := d'
  change List.Forall₂ R l l' at hd
  have hpresent : (∃ e ∈ l, e.1 = k) ↔ ∃ e ∈ l', e.1 = k' := by
    induction hd with
    | nil => simp
    | cons he _ ih => simp only [List.exists_mem_cons_iff, hkey _ _ he, ih]
  have hget : ∀ (l : List (κ × α)) (k : κ), ((⟨l⟩ : OrderedDict κ α).get? k).isSome ↔ ∃ e ∈ l, e.1 = k := by
    intro l k
    simp [get?]
  unfold set
  split_ifs with hin hin' hin'
  · refine List.forall₂_map_left_iff.mpr (List.forall₂_map_right_iff.mpr (hd.imp fun e e' he => ?_))
    by_cases hek : e.1 = k
    · rw [if_pos hek, if_pos ((hkey e e' he).mp hek)]
      exact hwrite
    · rw [if_neg hek, if_neg (mt (hkey e e' he).mpr hek)]
      exact he
  · exact (hin' ((hget l' k').mpr (hpresent.mp ((hget l k).mp hin)))).elim
  · exact (hin ((hget l k).mpr (hpresent.mpr ((hget l' k').mp hin')))).elim
  · exact List.rel_append hd (.cons hwrite .nil)

omit [DecidableEq κ] in
theorem length_evict_le (d : OrderedDict κ α) (bound : ℕ) : (d.evict bound).entries.length ≤ bound := by
  unfold evict
  split_ifs with h
  · exact h
  · rw [List.length_drop]
    omega

omit [DecidableEq κ] in
theorem mem_of_mem_evict {bound : ℕ} {e : κ × α} (h : e ∈ (d.evict bound).entries) : e ∈ d.entries := by
  unfold evict at h
  split_ifs at h
  · exact h
  · exact List.mem_of_mem_drop h

theorem mem_moveToEnd {e : κ × α} : e ∈ (d.moveToEnd k a).entries ↔ e ∈ d.entries ∧ e.1 ≠ k ∨ e = (k, a) := by
  simp [moveToEnd, erase]

theorem mem_of_get?_eq_some (h : d.get? k = some a) : (k, a) ∈ d.entries := by
  obtain ⟨e, he, rfl⟩ := Option.map_eq_some_iff.mp h
  have hkey : e.1 = k := by simpa using List.find?_some he
  exact hkey ▸ List.mem_of_find?_eq_some he

end OrderedDict

end Experiential
