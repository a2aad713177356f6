import Mathlib.Algebra.BigOperators.Group.List.Basic
import Mathlib.Data.List.Induction
import Experiential.Lib.OrderedDict
import Experiential.Lib.Paging

/-! # Records rolled up by a key

`groupBy key value` adds the value of every record to the cell of its key, the cells in the order in which their
keys came. Nothing is lost: the cells add up to the records (`total_groupBy`). `writeAll` writes the cells under
other names, the later over the earlier; they survive when the names differ (`writeAll_of_nodup`), and only then
(`length_writeAll`). -/

namespace Experiential

variable {κ α ρ : Type} [DecidableEq κ]

namespace OrderedDict

def keys (d : OrderedDict κ α) : List κ := d.entries.map (·.1)

/-- The values added up. -/
def total [AddCommMonoid α] (d : OrderedDict κ α) : α := (d.entries.map (·.2)).sum

/-- Add to the value of a key, which starts at zero. -/
def addAt [AddCommMonoid α] (d : OrderedDict κ α) (k : κ) (x : α) : OrderedDict κ α := d.set k ((d.get? k).getD 0 + x)

/-- Write a value for every record. -/
def writeAll (key : ρ → κ) (value : ρ → α) (rows : List ρ) (d : OrderedDict κ α) : OrderedDict κ α :=
  rows.foldl (fun d r => d.set (key r) (value r)) d

def groupBy [AddCommMonoid α] (key : ρ → κ) (value : ρ → α) (rows : List ρ) : OrderedDict κ α :=
  rows.foldl (fun d r => d.addAt (key r) (value r)) empty

/-! ### Keys -/

variable {d : OrderedDict κ α} {k : κ} {a : α} {key : ρ → κ}

theorem isSome_get? : (d.get? k).isSome ↔ k ∈ d.keys := by
  unfold get? keys
  rw [Option.isSome_map, List.find?_isSome]
  simp

theorem keys_set : (d.set k a).keys = if k ∈ d.keys then d.keys else d.keys ++ [k] := by
  unfold set
  by_cases h : k ∈ d.keys
  · rw [if_pos (isSome_get?.mpr h), if_pos h]
    unfold keys
    rw [List.map_map]
    apply List.map_congr_left
    intro e _
    by_cases he : e.1 = k
    · simp [he]
    · simp [he]
  · rw [if_neg (mt isSome_get?.mp h), if_neg h]
    simp [keys]

omit [DecidableEq κ] in
theorem nodup_keys_empty : (empty : OrderedDict κ α).keys.Nodup := List.nodup_nil

theorem nodup_keys_set (h : d.keys.Nodup) : (d.set k a).keys.Nodup := by
  rw [keys_set]
  split
  · exact h
  · rename_i hk
    rw [List.nodup_append]
    refine ⟨h, by simp, fun x hx y hy => ?_⟩
    rw [List.mem_singleton] at hy
    rintro rfl
    exact hk (hy ▸ hx)

/-- Written record by record, the keys come in the order of their first records. -/
theorem keys_foldl_set (key : ρ → κ) (f : OrderedDict κ α → ρ → α) (rows : List ρ) (d : OrderedDict κ α) :
    (rows.foldl (fun d r => d.set (key r) (f d r)) d).keys = d.keys ++ (firsts key d.keys rows).map key := by
  induction rows generalizing d with
  | nil => simp [firsts]
  | cons r rows ih =>
    rw [List.foldl_cons, ih, keys_set]
    by_cases h : key r ∈ d.keys
    · rw [if_pos h, firsts_cons_of_mem h]
    · have hseen : firsts key (d.keys ++ [key r]) rows = firsts key (key r :: d.keys) rows :=
        firsts_congr fun k => by simp [or_comm]
      rw [if_neg h, firsts_cons_of_not_mem h, hseen, List.append_assoc]
      rfl

theorem nodup_foldl_set (key : ρ → κ) (f : OrderedDict κ α → ρ → α) (rows : List ρ) {d : OrderedDict κ α}
    (h : d.keys.Nodup) : (rows.foldl (fun d r => d.set (key r) (f d r)) d).keys.Nodup := by
  induction rows generalizing d with
  | nil => exact h
  | cons r rows ih => exact ih (nodup_keys_set h)

/-! ### Writing -/

variable {value : ρ → α}

theorem get?_writeAll (rows : List ρ) (d : OrderedDict κ α) : (writeAll key value rows d).get? k =
    ((rows.reverse.find? fun r => decide (key r = k)).map value).or (d.get? k) := by
  induction rows generalizing d with
  | nil => simp [writeAll]
  | cons r rows ih =>
    change (writeAll key value rows (d.set (key r) (value r))).get? k = _
    rw [ih, get?_set, List.reverse_cons, List.find?_append]
    cases rows.reverse.find? fun r => decide (key r = k) with
    | some q => simp
    | none =>
      by_cases h : k = key r
      · simp [h]
      · simp [h, Ne.symm h]

theorem mem_entries_iff (h : d.keys.Nodup) {e : κ × α} : e ∈ d.entries ↔ d.get? e.1 = some e.2 := by
  obtain ⟨l⟩ := d
  induction l with
  | nil => simp [get?]
  | cons f l ih =>
    change (f.1 :: (⟨l⟩ : OrderedDict κ α).keys).Nodup at h
    rw [List.nodup_cons] at h
    have ih := ih h.2
    by_cases he : f.1 = e.1
    · have hhead : (⟨f :: l⟩ : OrderedDict κ α).get? e.1 = some f.2 := by simp [get?, he]
      rw [hhead]
      constructor
      · intro hmem
        rcases List.mem_cons.mp hmem with rfl | hmem
        · rfl
        · exact absurd (List.mem_map_of_mem hmem) (he ▸ h.1)
      · intro hvalue
        rw [Prod.ext he (Option.some.inj hvalue)]
        exact List.mem_cons_self
    · have htail : (⟨f :: l⟩ : OrderedDict κ α).get? e.1 = (⟨l⟩ : OrderedDict κ α).get? e.1 := by simp [get?, he]
      rw [htail, ← ih]
      constructor
      · intro hmem
        rcases List.mem_cons.mp hmem with rfl | hmem
        · exact absurd rfl he
        · exact hmem
      · exact List.mem_cons_of_mem f

theorem nodup_writeAll (rows : List ρ) (h : d.keys.Nodup) : (writeAll key value rows d).keys.Nodup :=
  nodup_foldl_set key (fun _ r => value r) rows h

theorem mem_keys_writeAll (rows : List ρ) (d : OrderedDict κ α) :
    k ∈ (writeAll key value rows d).keys ↔ k ∈ d.keys ∨ ∃ r ∈ rows, key r = k := by
  rw [← isSome_get?, get?_writeAll, Option.isSome_or, Bool.or_eq_true, Option.isSome_map, List.find?_isSome,
    isSome_get?, or_comm]
  simp

theorem get?_writeAll_cases {rows : List ρ} (h : (writeAll key value rows d).get? k = some a) :
    d.get? k = some a ∨ ∃ r ∈ rows, key r = k ∧ value r = a := by
  rw [get?_writeAll] at h
  cases hfind : rows.reverse.find? fun r => decide (key r = k) with
  | none =>
    rw [hfind] at h
    exact .inl h
  | some r =>
    rw [hfind] at h
    have hr := List.mem_reverse.mp (List.mem_of_find?_eq_some hfind)
    have hkey : key r = k := by simpa using List.find?_some hfind
    exact .inr ⟨r, hr, hkey, Option.some.inj h⟩

theorem writeAll_of_nodup (rows : List ρ) (d : OrderedDict κ α) (hnodup : (d.keys ++ rows.map key).Nodup) :
    (writeAll key value rows d).entries = d.entries ++ rows.map fun r => (key r, value r) := by
  induction rows generalizing d with
  | nil => simp [writeAll]
  | cons r rows ih =>
    have hnew : key r ∉ d.keys := by
      intro hr
      rw [List.map_cons, List.nodup_append] at hnodup
      exact hnodup.2.2 _ hr _ List.mem_cons_self rfl
    have hset : (d.set (key r) (value r)).entries = d.entries ++ [(key r, value r)] := by
      rw [set, if_neg (mt isSome_get?.mp hnew)]
    change (writeAll key value rows (d.set (key r) (value r))).entries = _
    rw [ih, hset, List.append_assoc]
    · rfl
    · rw [keys_set, if_neg hnew, List.append_assoc]
      exact hnodup

theorem length_writeAll (rows : List ρ) (hnodup : ¬(rows.map key).Nodup) :
    (writeAll key value rows empty).entries.length < rows.length := by
  have hkeys := keys_foldl_set key (fun _ r => value r) rows empty
  have hlength := congrArg List.length hkeys
  rw [List.length_append, List.length_map] at hlength
  have hlt := length_firsts_lt (s := (empty : OrderedDict κ α).keys) hnodup
  have hentries : (writeAll key value rows empty).keys.length = (writeAll key value rows empty).entries.length :=
    List.length_map _
  unfold writeAll at hentries ⊢
  rw [← hentries, hlength]
  simpa [empty, keys] using hlt

/-! ### Cells -/

theorem entries_eq (h : d.keys.Nodup) (z : α) : d.entries = d.keys.map fun k => (k, (d.get? k).getD z) := by
  obtain ⟨l⟩ := d
  induction l with
  | nil => rfl
  | cons e l ih =>
    change (e.1 :: (⟨l⟩ : OrderedDict κ α).keys).Nodup at h
    rw [List.nodup_cons] at h
    have hhead : (⟨e :: l⟩ : OrderedDict κ α).get? e.1 = some e.2 := by simp [get?]
    have htail : ∀ k ∈ (⟨l⟩ : OrderedDict κ α).keys,
        (⟨e :: l⟩ : OrderedDict κ α).get? k = (⟨l⟩ : OrderedDict κ α).get? k := by
      intro k hk
      have hne : e.1 ≠ k := fun he => h.1 (he ▸ hk)
      simp [get?, hne]
    change e :: l = (e.1, ((⟨e :: l⟩ : OrderedDict κ α).get? e.1).getD z) :: (⟨l⟩ : OrderedDict κ α).keys.map _
    rw [hhead, Option.getD_some]
    congr 1
    rw [List.map_congr_left fun k hk => by rw [htail k hk]]
    exact ih h.2

section cells
variable [AddCommMonoid α] {value : ρ → α}

theorem total_eq (h : d.keys.Nodup) : d.total = (d.keys.map fun k => (d.get? k).getD 0).sum := by
  rw [total, entries_eq h 0, List.map_map]
  rfl

omit [DecidableEq κ] in
theorem sum_map_add_at [DecidableEq κ] (f : κ → α) (x : α) : ∀ {l : List κ}, l.Nodup → k ∈ l →
    (l.map fun k' => if k' = k then f k + x else f k').sum = (l.map f).sum + x
  | [], _, hk => nomatch hk
  | k' :: l, hnodup, hk => by
      rw [List.nodup_cons] at hnodup
      rw [List.map_cons, List.map_cons, List.sum_cons, List.sum_cons]
      by_cases h : k' = k
      · subst h
        have hrest : l.map (fun k'' => if k'' = k' then f k' + x else f k'') = l.map f :=
          List.map_congr_left fun k'' hk'' => if_neg fun he : k'' = k' => hnodup.1 (he ▸ hk'')
        rw [if_pos rfl, hrest, add_assoc, add_assoc, add_comm x]
      · rw [if_neg h, sum_map_add_at f x hnodup.2 ((List.mem_cons.mp hk).resolve_left (Ne.symm h)), add_assoc]

theorem total_addAt (h : d.keys.Nodup) (k : κ) (x : α) : (d.addAt k x).total = d.total + x := by
  have hget : ∀ k', ((d.addAt k x).get? k').getD 0 = if k' = k then (d.get? k).getD 0 + x else (d.get? k').getD 0 := by
    intro k'
    rw [addAt, get?_set]
    split <;> rfl
  have hnodup : (d.addAt k x).keys.Nodup := nodup_keys_set h
  rw [total_eq h, total_eq hnodup]
  simp only [hget]
  rw [addAt, keys_set]
  by_cases hk : k ∈ d.keys
  · rw [if_pos hk]
    exact sum_map_add_at (fun k => (d.get? k).getD 0) x h hk
  · have hnone : d.get? k = none := by simpa using mt isSome_get?.mp hk
    rw [if_neg hk, List.map_append, List.sum_append, List.map_singleton, List.sum_singleton, if_pos rfl, hnone]
    have hrest : d.keys.map (fun k' => if k' = k then (none : Option α).getD 0 + x else (d.get? k').getD 0) =
        d.keys.map fun k' => (d.get? k').getD 0 :=
      List.map_congr_left fun k' hk' => if_neg fun he : k' = k => hk (he ▸ hk')
    rw [hrest, Option.getD_none, zero_add]

theorem nodup_groupBy (key : ρ → κ) (value : ρ → α) (rows : List ρ) : (groupBy key value rows).keys.Nodup :=
  nodup_foldl_set key (fun d r => (d.get? (key r)).getD 0 + value r) rows List.nodup_nil

theorem keys_groupBy (rows : List ρ) : (groupBy key value rows).keys = (firsts key [] rows).map key :=
  keys_foldl_set key (fun d r => (d.get? (key r)).getD 0 + value r) rows empty

theorem groupBy_concat (rows : List ρ) (r : ρ) :
    groupBy key value (rows ++ [r]) = (groupBy key value rows).addAt (key r) (value r) := by
  rw [groupBy, List.foldl_append]
  rfl

theorem total_groupBy (key : ρ → κ) (value : ρ → α) (rows : List ρ) :
    (groupBy key value rows).total = (rows.map value).sum := by
  induction rows using List.reverseRecOn with
  | nil => rfl
  | append_singleton rows r ih =>
    rw [groupBy_concat, total_addAt (nodup_groupBy key value rows), ih, List.map_append, List.sum_append]
    simp

theorem getD_groupBy (rows : List ρ) (k : κ) : ((groupBy key value rows).get? k).getD 0 =
    ((rows.filter fun r => decide (key r = k)).map value).sum := by
  induction rows using List.reverseRecOn with
  | nil => rfl
  | append_singleton rows r ih =>
    rw [groupBy_concat, addAt, get?_set, List.filter_append, List.map_append, List.sum_append]
    by_cases h : k = key r
    · subst h
      simp [ih]
    · simp [h, Ne.symm h, ih]

end cells

end OrderedDict

end Experiential
