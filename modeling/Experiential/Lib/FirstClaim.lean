import Experiential.Lib.Grouping

/-! # First come, first served

One pass over a list keeps the best element it has seen and gives it up for one of smaller rank only.
Over a list sorted by `le` it ends with the least element by rank first and by `le` next
(`firstBest_lexLeast`), and once it keeps an element of the least rank the rest of the list does not
matter (`firstBest_of_minimal`).

`keepFirst` keeps the first value of every key. `claimAll` lets groups claim their keys one after another: a group
gets those of its keys that no earlier group has. Every key is claimed once (`nodup_claimAll`), by the first of the
groups that have it (`claimAll_first`); where no two groups that share a key stand level, the claims do not depend on
the order among level groups (`claimAll_eq_map`). -/

namespace Experiential

section rank
variable {α : Type} (rank : α → Nat)

/-- The best so far, unless the new element has a smaller rank. -/
def keepBest (best : Option α) (a : α) : α :=
  match best with
  | none => a
  | some b => if rank a < rank b then a else b

/-- The pass. -/
def firstBest (best : Option α) (l : List α) : Option α := l.foldl (fun best a => some (keepBest rank best a)) best

/-- `a` is least in `l` by rank first and by `le` next. -/
structure LexLeast (le : α → α → Prop) (l : List α) (a : α) : Prop where
  mem : a ∈ l
  rank_le : ∀ b ∈ l, rank a ≤ rank b
  le_of_rank_eq : ∀ b ∈ l, rank b = rank a → le a b

variable {rank} {le : α → α → Prop}

theorem LexLeast.unique {l : List α} {a b : α} (ha : LexLeast rank le l a)
    (hanti : a ∈ l → b ∈ l → le a b → le b a → a = b) (hb : LexLeast rank le l b) : a = b := by
  have hrank : rank a = rank b := by
    have hab := ha.rank_le b hb.mem
    have hba := hb.rank_le a ha.mem
    omega
  exact hanti ha.mem hb.mem (ha.le_of_rank_eq b hb.mem hrank.symm) (hb.le_of_rank_eq a ha.mem hrank)

theorem LexLeast.singleton (hrefl : ∀ a, le a a) (a : α) : LexLeast rank le [a] a := by
  constructor
  · exact List.mem_singleton_self a
  · intro b hb
    obtain rfl := List.mem_singleton.mp hb
    exact Nat.le_refl _
  · intro b hb _
    rw [List.mem_singleton.mp hb]
    exact hrefl a

/-- One step of the pass, over an element that no earlier one comes after. -/
theorem LexLeast.keep (hrefl : ∀ a, le a a) {seen : List α} {a b : α} (hb : LexLeast rank le seen b)
    (hlast : ∀ c ∈ seen, le c a) : LexLeast rank le (seen ++ [a]) (keepBest rank (some b) a) := by
  have hsplit : ∀ c ∈ seen ++ [a], c ∈ seen ∨ c = a := by simp
  unfold keepBest
  simp only
  split_ifs with hlt
  · constructor
    · simp
    · intro c hc
      obtain hc | rfl := hsplit c hc
      · have := hb.rank_le c hc
        omega
      · omega
    · intro c hc heq
      obtain hc | rfl := hsplit c hc
      · have := hb.rank_le c hc
        omega
      · exact hrefl c
  · constructor
    · exact List.mem_append_left _ hb.mem
    · intro c hc
      obtain hc | rfl := hsplit c hc
      · exact hb.rank_le c hc
      · omega
    · intro c hc heq
      obtain hc | rfl := hsplit c hc
      · exact hb.le_of_rank_eq c hc heq
      · exact hlast b hb.mem

/-- The rest of the pass, from the best of what was seen. -/
theorem firstBest_seen (hrefl : ∀ a, le a a) (l : List α) : ∀ {seen : List α} {b : α}, LexLeast rank le seen b →
    (seen ++ l).Pairwise le → ∃ c, firstBest rank (some b) l = some c ∧ LexLeast rank le (seen ++ l) c := by
  induction l with
  | nil =>
      intro seen b hb _
      exact ⟨b, rfl, by simpa using hb⟩
  | cons a l ih =>
      intro seen b hb hsorted
      have hlast : ∀ c ∈ seen, le c a := by
        intro c hc
        exact (List.pairwise_append.mp hsorted).2.2 c hc a List.mem_cons_self
      rw [List.append_cons] at hsorted ⊢
      exact ih (hb.keep hrefl hlast) hsorted

/-- **The pass over a sorted list ends at its least element by rank and order.** -/
theorem firstBest_lexLeast (rank : α → Nat) (hrefl : ∀ a, le a a) {l : List α} (hsorted : l.Pairwise le) (hne : l ≠ []) :
    ∃ a, firstBest rank none l = some a ∧ LexLeast rank le l a := by
  cases l with
  | nil => exact absurd rfl hne
  | cons a l => exact firstBest_seen hrefl l (.singleton hrefl a) hsorted

/-- Nothing is better than an element of the least rank. -/
theorem firstBest_of_minimal {b : α} (hmin : ∀ a, rank b ≤ rank a) (l : List α) :
    firstBest rank (some b) l = some b := by
  induction l with
  | nil => rfl
  | cons a l ih =>
      have hkeep : keepBest rank (some b) a = b := if_neg (by have := hmin a; omega)
      show firstBest rank (some (keepBest rank (some b) a)) l = some b
      rw [hkeep]
      exact ih

end rank

variable {κ α ρ γ ι : Type} [DecidableEq κ]

namespace OrderedDict

/-- Keep the first value of every key. -/
def keepFirst (rows : List (κ × α)) (d : OrderedDict κ α) : OrderedDict κ α :=
  rows.foldl (fun d r => if (d.get? r.1).isSome then d else d.set r.1 r.2) d

variable {rows rows' : List (κ × α)} {d : OrderedDict κ α} {k : κ} {a : α}

theorem get?_keepFirst (rows : List (κ × α)) (d : OrderedDict κ α) : (keepFirst rows d).get? k =
    (d.get? k).or ((rows.find? fun r => decide (r.1 = k)).map (·.2)) := by
  induction rows generalizing d with
  | nil => simp [keepFirst]
  | cons r rows ih =>
    change (keepFirst rows (if (d.get? r.1).isSome then d else d.set r.1 r.2)).get? k = _
    rw [ih, List.find?_cons]
    by_cases hr : r.1 = k
    · subst hr
      cases hget : d.get? r.1 with
      | some b => simp [hget]
      | none => simp [get?_set]
    · simp only [hr, decide_false]
      split
      · rfl
      · rw [get?_set, if_neg (Ne.symm hr)]

theorem nodup_keepFirst (h : d.keys.Nodup) : (keepFirst rows d).keys.Nodup := by
  induction rows generalizing d with
  | nil => exact h
  | cons r rows ih =>
    apply ih
    change (if (d.get? r.1).isSome then d else d.set r.1 r.2).keys.Nodup
    split
    · exact h
    · exact nodup_keys_set h

theorem mem_keepFirst {e : κ × α} : e ∈ (keepFirst rows empty).entries ↔
    (rows.find? fun r => decide (r.1 = e.1)).map (·.2) = some e.2 := by
  rw [mem_entries_iff (nodup_keepFirst nodup_keys_empty), get?_keepFirst, get?_empty, Option.none_or]

theorem mem_of_mem_keepFirst {e : κ × α} (h : e ∈ (keepFirst rows empty).entries) : e ∈ rows := by
  obtain ⟨r, hr, hvalue⟩ := Option.map_eq_some_iff.mp (mem_keepFirst.mp h)
  have hkey : r.1 = e.1 := by simpa using List.find?_some hr
  have he : r = e := Prod.ext hkey hvalue
  exact he ▸ List.mem_of_find?_eq_some hr

theorem mem_keys_keepFirst : k ∈ (keepFirst rows empty).keys ↔ k ∈ rows.map (·.1) := by
  rw [← isSome_get?, get?_keepFirst, get?_empty, Option.none_or, Option.isSome_map, List.find?_isSome]
  simp

omit [DecidableEq κ] in
theorem nodup_entries (h : d.keys.Nodup) : d.entries.Nodup := List.Nodup.of_map _ h

/-- The values of one key agree. -/
def Agree (rows : List (κ × α)) : Prop := ∀ r ∈ rows, ∀ r' ∈ rows, r.1 = r'.1 → r = r'

theorem mem_keepFirst_iff {e : κ × α} (hagree : Agree rows) : e ∈ (keepFirst rows empty).entries ↔ e ∈ rows := by
  refine ⟨mem_of_mem_keepFirst, fun he => ?_⟩
  have hkey : e.1 ∈ (keepFirst rows empty).keys := mem_keys_keepFirst.mpr (List.mem_map_of_mem he)
  obtain ⟨e', he', hname⟩ := List.mem_map.mp hkey
  exact hagree e' (mem_of_mem_keepFirst he') e he hname ▸ he'

/-- Where the values of one key agree, the order in which they come does not matter. -/
theorem keepFirst_perm (hagree : Agree rows) (hperm : rows'.Perm rows) :
    (keepFirst rows' empty).entries.Perm (keepFirst rows empty).entries := by
  have hagree' : Agree rows' := fun r hr r' hr' => hagree r (hperm.mem_iff.mp hr) r' (hperm.mem_iff.mp hr')
  rw [List.perm_ext_iff_of_nodup (nodup_entries (nodup_keepFirst nodup_keys_empty))
    (nodup_entries (nodup_keepFirst nodup_keys_empty))]
  intro e
  rw [mem_keepFirst_iff hagree, mem_keepFirst_iff hagree', hperm.mem_iff]

/-! ### Records listed under a key -/

/-- The records of every key, in their order. -/
def listBy (key : ρ → κ) (records : List ρ) (d : OrderedDict κ (List ρ)) : OrderedDict κ (List ρ) :=
  records.foldl (fun d r => d.set (key r) ((d.get? (key r)).getD [] ++ [r])) d

variable {key : ρ → κ}

theorem getD_listBy (records : List ρ) (d : OrderedDict κ (List ρ)) : ((listBy key records d).get? k).getD [] =
    (d.get? k).getD [] ++ records.filter fun r => decide (key r = k) := by
  induction records generalizing d with
  | nil => simp [listBy]
  | cons r records ih =>
    change ((listBy key records (d.set (key r) ((d.get? (key r)).getD [] ++ [r]))).get? k).getD [] = _
    rw [ih, get?_set]
    by_cases h : k = key r
    · subst h
      simp
    · simp [h, Ne.symm h]

theorem nodup_listBy (records : List ρ) : (listBy key records empty).keys.Nodup :=
  nodup_foldl_set key (fun d r => (d.get? (key r)).getD [] ++ [r]) records nodup_keys_empty

theorem mem_keys_listBy (records : List ρ) (d : OrderedDict κ (List ρ)) :
    k ∈ (listBy key records d).keys ↔ k ∈ d.keys ∨ ∃ r ∈ records, key r = k := by
  induction records generalizing d with
  | nil => simp [listBy]
  | cons r records ih =>
    change k ∈ (listBy key records (d.set (key r) ((d.get? (key r)).getD [] ++ [r]))).keys ↔ _
    rw [ih, keys_set]
    by_cases hr : key r ∈ d.keys
    · rw [if_pos hr]
      constructor
      · rintro (h | ⟨r', hr', hkey⟩)
        · exact .inl h
        · exact .inr ⟨r', List.mem_cons_of_mem r hr', hkey⟩
      · rintro (h | ⟨r', hr', hkey⟩)
        · exact .inl h
        · rcases List.mem_cons.mp hr' with rfl | hr'
          · exact .inl (hkey ▸ hr)
          · exact .inr ⟨r', hr', hkey⟩
    · rw [if_neg hr, List.mem_append, List.mem_singleton]
      constructor
      · rintro ((h | h) | ⟨r', hr', hkey⟩)
        · exact .inl h
        · exact .inr ⟨r, List.mem_cons_self, h.symm⟩
        · exact .inr ⟨r', List.mem_cons_of_mem r hr', hkey⟩
      · rintro (h | ⟨r', hr', hkey⟩)
        · exact .inl (.inl h)
        · rcases List.mem_cons.mp hr' with rfl | hr'
          · exact .inl (.inr hkey.symm)
          · exact .inr ⟨r', hr', hkey⟩

theorem values_listBy (records : List ρ) : (listBy key records empty).entries.map (·.2) =
    (listBy key records empty).keys.map fun k => records.filter fun r => decide (key r = k) := by
  rw [entries_eq (nodup_listBy records) [], List.map_map]
  apply List.map_congr_left
  intro k _
  change ((listBy key records empty).get? k).getD [] = _
  rw [getD_listBy, get?_empty, Option.getD_none, List.nil_append]

end OrderedDict

/-! ### Claims -/

section claims
variable (cells : γ → List (κ × α))

/-- Every group claims those of its keys that are not claimed yet. -/
def claimAll : List γ → List κ → List (γ × List (κ × α))
  | [], _ => []
  | g :: rest, claimed =>
      (g, (cells g).filter fun e => decide (e.1 ∉ claimed)) :: claimAll rest (claimed ++ (cells g).map (·.1))

variable {cells} {groups : List γ} {claimed : List κ} {k : κ}

theorem map_fst_claimAll : ∀ (groups : List γ) (claimed : List κ), (claimAll cells groups claimed).map (·.1) = groups
  | [], _ => rfl
  | g :: rest, claimed => by rw [claimAll, List.map_cons, map_fst_claimAll rest]

theorem claimAll_cases : ∀ {groups : List γ} {claimed : List κ} {c : γ × List (κ × α)},
    c ∈ claimAll cells groups claimed → ∃ before after, groups = before ++ c.1 :: after ∧
      c.2 = (cells c.1).filter fun e => decide (e.1 ∉ claimed ++ before.flatMap fun g => (cells g).map (·.1))
  | [], _, _, h => nomatch h
  | g :: rest, claimed, c, h => by
      rcases List.mem_cons.mp h with rfl | h
      · exact ⟨[], rest, rfl, by simp⟩
      · obtain ⟨before, after, hgroups, hclaims⟩ := claimAll_cases h
        refine ⟨g :: before, after, congrArg (g :: ·) hgroups, ?_⟩
        rw [hclaims, List.flatMap_cons, List.append_assoc]

/-- A key that is not claimed yet is claimed by a group that has it. -/
theorem exists_claimAll : ∀ {groups : List γ} {claimed : List κ} {g : γ}, g ∈ groups → k ∈ (cells g).map (·.1) →
    k ∉ claimed → ∃ c ∈ claimAll cells groups claimed, k ∈ c.2.map (·.1)
  | g' :: rest, claimed, g, hg, hk, hnew => by
      by_cases hhere : k ∈ (cells g').map (·.1)
      · obtain ⟨e, he, rfl⟩ := List.mem_map.mp hhere
        exact ⟨_, List.mem_cons_self, List.mem_map_of_mem (List.mem_filter.mpr ⟨he, decide_eq_true hnew⟩)⟩
      · have hrest : g ∈ rest := by
          rcases List.mem_cons.mp hg with rfl | hg
          · exact absurd hk hhere
          · exact hg
        have hnew' : k ∉ claimed ++ (cells g').map (·.1) := by
          rw [List.mem_append]
          exact fun h => h.elim hnew hhere
        obtain ⟨c, hc, hclaimed⟩ := exists_claimAll hrest hk hnew'
        exact ⟨c, List.mem_cons_of_mem _ hc, hclaimed⟩

theorem not_mem_of_claimAll {c : γ × List (κ × α)} (hc : c ∈ claimAll cells groups claimed)
    (hk : k ∈ c.2.map (·.1)) : k ∉ claimed := by
  obtain ⟨before, after, -, hclaims⟩ := claimAll_cases hc
  obtain ⟨e, he, rfl⟩ := List.mem_map.mp hk
  rw [hclaims, List.mem_filter, decide_eq_true_eq, List.mem_append, not_or] at he
  exact he.2.1

theorem nodup_claimAll : ∀ {groups : List γ} (claimed : List κ), (∀ g ∈ groups, ((cells g).map (·.1)).Nodup) →
    ((claimAll cells groups claimed).flatMap fun c => c.2.map (·.1)).Nodup
  | [], _, _ => List.nodup_nil
  | g :: rest, claimed, hnodup => by
      rw [claimAll, List.flatMap_cons, List.nodup_append]
      refine ⟨?_, nodup_claimAll _ fun g' hg' => hnodup g' (List.mem_cons_of_mem g hg'), ?_⟩
      · exact (List.filter_sublist.map Prod.fst).nodup (hnodup g List.mem_cons_self)
      · rintro x hx y hy rfl
        obtain ⟨c, hc, hclaimed⟩ := List.mem_flatMap.mp hy
        apply not_mem_of_claimAll hc hclaimed
        exact List.mem_append_right claimed ((List.filter_sublist.map Prod.fst).subset hx)

/-- The group that claims a key is not after any group that has it. -/
theorem claimAll_first {r : γ → γ → Prop} (hsorted : groups.Pairwise r) {c : γ × List (κ × α)}
    (hc : c ∈ claimAll cells groups []) (hk : k ∈ c.2.map (·.1)) {g : γ} (hg : g ∈ groups)
    (hkg : k ∈ (cells g).map (·.1)) : g = c.1 ∨ r c.1 g := by
  obtain ⟨before, after, hgroups, hclaims⟩ := claimAll_cases hc
  obtain ⟨e, he, rfl⟩ := List.mem_map.mp hk
  rw [hclaims, List.mem_filter, decide_eq_true_eq, List.nil_append] at he
  rw [hgroups] at hg hsorted
  rcases List.mem_append.mp hg with hbefore | hafter
  · exact absurd (List.mem_flatMap.mpr ⟨g, hbefore, hkg⟩) he.2
  · rcases List.mem_cons.mp hafter with rfl | hafter
    · exact .inl rfl
    · exact .inr (List.rel_of_pairwise_cons (List.pairwise_append.mp hsorted).2.1 hafter)

omit [DecidableEq κ] in
theorem eq_map_fst {β : Type} {l : List (γ × β)} {f : γ → β} (h : ∀ c ∈ l, c.2 = f c.1) :
    l = (l.map (·.1)).map fun g => (g, f g) := by
  induction l with
  | nil => rfl
  | cons c l ih =>
    rw [List.map_cons, List.map_cons, ← ih fun c' hc' => h c' (List.mem_cons_of_mem c hc'), ← h c List.mem_cons_self]

/-- Where no two groups that share a key have one rank, a key goes to the group of the least rank. -/
theorem claimAll_eq_map [LinearOrder ι] (rank : γ → ι) (hsorted : groups.Pairwise fun g g' => rank g ≤ rank g')
    (hnodup : groups.Nodup) (hties : ∀ g ∈ groups, ∀ g' ∈ groups, ∀ k ∈ (cells g).map (·.1),
      k ∈ (cells g').map (·.1) → rank g = rank g' → g = g') :
    claimAll cells groups [] = groups.map fun g => (g, (cells g).filter fun e =>
      decide (∀ g' ∈ groups, e.1 ∈ (cells g').map (·.1) → rank g ≤ rank g')) := by
  have hclaims : ∀ c ∈ claimAll cells groups [], c.2 = (cells c.1).filter fun e =>
      decide (∀ g' ∈ groups, e.1 ∈ (cells g').map (·.1) → rank c.1 ≤ rank g') := by
    rintro ⟨g, claims⟩ hc
    obtain ⟨before, after, hgroups, hfilter⟩ := claimAll_cases hc
    dsimp only at hgroups hfilter ⊢
    rw [hfilter, List.nil_append]
    apply List.filter_congr
    intro e he
    rw [decide_eq_decide]
    have hkey : e.1 ∈ (cells g).map (·.1) := List.mem_map_of_mem he
    rw [hgroups] at hsorted hnodup
    rw [List.pairwise_append] at hsorted
    constructor
    · intro hunclaimed g' hg' hk
      rw [hgroups] at hg'
      rcases List.mem_append.mp hg' with hbefore | hafter
      · exact absurd (List.mem_flatMap.mpr ⟨g', hbefore, hk⟩) hunclaimed
      · rcases List.mem_cons.mp hafter with rfl | hafter
        · exact le_rfl
        · exact List.rel_of_pairwise_cons hsorted.2.1 hafter
    · intro hleast hclaimed
      obtain ⟨g', hbefore, hk⟩ := List.mem_flatMap.mp hclaimed
      have hmem : g ∈ groups := hgroups ▸ List.mem_append_right before List.mem_cons_self
      have hmem' : g' ∈ groups := hgroups ▸ List.mem_append_left _ hbefore
      have hrank : rank g = rank g' :=
        le_antisymm (hleast g' hmem' hk) (hsorted.2.2 g' hbefore g List.mem_cons_self)
      obtain rfl := hties g hmem g' hmem' e.1 hkey hk hrank
      exact (List.nodup_append.mp hnodup).2.2 g hbefore g List.mem_cons_self rfl
  rw [eq_map_fst (f := fun g => (cells g).filter fun e =>
    decide (∀ g' ∈ groups, e.1 ∈ (cells g').map (·.1) → rank g ≤ rank g')) hclaims, map_fst_claimAll]

end claims

end Experiential
