import Mathlib.Data.List.Sort
import Mathlib.Tactic.Ring

/-! # Pages of a list, and its first occurrences

A listing shows the rows of a table by decreasing key, a page at a time: a request gives the cursor past
the last row of the page before, and the page behind it begins with the next smaller key. `follow` is
the client that asks until no cursor comes back, of a table that other parties insert into meanwhile.
`walksAll`: it ends with the rows that the table had at the first request, each once, when what is
inserted comes before the cursor of the next request.

`page l j n` is page `j` of a list cut into pages of `n`. Pages of one size tile the list
(`take_append_page`); a page of a smaller size at a later number starts too early, and `take_page`
says how much of the list it covers together with what came before it. `firsts key` keeps the first
record of every key; `firsts_append_eq_iff` says when more records add none. -/

namespace Experiential.Keyset

variable {ρ κ C ε : Type} [LinearOrder κ]

/-! ### Listings -/

section listing
variable (key : ρ → κ) (p : ρ → Bool) (bound : Option κ) (rows : List ρ)

/-- The wanted rows below the bound, the greatest key first. -/
def listing : List ρ :=
  (rows.filter fun r => p r && bound.all fun b => decide (key r < b)).insertionSort fun a b => key b ≤ key a

/-- A page, and the cursor past its last row when it is full. -/
def answer (mint : ρ → C) (cap : ℕ) : List ρ × Option C :=
  let page := (listing key p bound rows).take cap
  (page, if page.length = cap then page.getLast?.map mint else none)

end listing

variable {key : ρ → κ} {p : ρ → Bool} {bound : Option κ} {rows rows' : List ρ}

theorem mem_listing {r : ρ} : r ∈ listing key p bound rows ↔ r ∈ rows ∧ p r = true ∧ ∀ b ∈ bound, key r < b := by
  rw [listing, List.mem_insertionSort, List.mem_filter, Bool.and_eq_true, Option.all_eq_true]
  simp

theorem listing_perm : (listing key p none rows).Perm (rows.filter p) := by
  have h := List.perm_insertionSort (fun a b => key b ≤ key a)
    (rows.filter fun r => p r && (none : Option κ).all fun b => decide (key r < b))
  simpa [listing] using h

/-- Rows with keys of their own are listed by strictly decreasing key. -/
theorem listing_pairwise (hkeys : (rows.map key).Nodup) :
    (listing key p bound rows).Pairwise fun a b => key b < key a := by
  have hsorted := List.pairwise_insertionSort (fun a b : ρ => key b ≤ key a)
    (rows.filter fun r => p r && bound.all fun b => decide (key r < b))
  have hnodup : ((listing key p bound rows).map key).Nodup := by
    have hperm := List.perm_insertionSort (fun a b => key b ≤ key a)
      (rows.filter fun r => p r && bound.all fun b => decide (key r < b))
    exact (hperm.map key).nodup_iff.mpr (hkeys.sublist (List.filter_sublist.map key))
  have hdistinct : (listing key p bound rows).Pairwise fun a b => key a ≠ key b := List.pairwise_map.mp hnodup
  exact hsorted.imp₂ (fun _ _ hle hne => lt_of_le_of_ne hle (Ne.symm hne)) hdistinct

/-- Strictly decreasing lists with the same rows are one list. -/
theorem eq_of_mem_iff {l l' : List ρ} (h : l.Pairwise fun a b => key b < key a)
    (h' : l'.Pairwise fun a b => key b < key a) (hmem : ∀ r, r ∈ l ↔ r ∈ l') : l = l' := by
  have : Std.Irrefl fun a b : ρ => key b < key a := ⟨fun a => lt_irrefl (key a)⟩
  exact List.Pairwise.eq_of_mem_iff h h' hmem

/-- What is behind the first rows of a decreasing list lies below the last of them. -/
theorem mem_drop_iff {l : List ρ} {cap : ℕ} {last r : ρ} (h : l.Pairwise fun a b => key b < key a)
    (hlast : (l.take cap).getLast? = some last) : r ∈ l.drop cap ↔ r ∈ l ∧ key r < key last := by
  have hsplit := List.take_append_drop cap l
  rw [← hsplit] at h
  obtain ⟨htake, -, hcross⟩ := List.pairwise_append.mp h
  have hmem : last ∈ l.take cap := List.mem_of_getLast? hlast
  constructor
  · exact fun hr => ⟨List.mem_of_mem_drop hr, hcross last hmem r hr⟩
  · rintro ⟨hr, hlt⟩
    rw [← hsplit, List.mem_append] at hr
    rcases hr with hr | hr
    · -- a row of the page is the last or above it
      obtain ⟨front, hfront⟩ := List.getLast?_eq_some_iff.mp hlast
      rw [hfront] at hr htake
      rcases List.mem_append.mp hr with hr | hr
      · have habove := (List.pairwise_append.mp htake).2.2 r hr last (List.mem_singleton_self _)
        exact absurd hlt habove.not_gt
      · rw [List.mem_singleton.mp hr] at hlt
        exact absurd hlt (lt_irrefl _)
    · exact hr

/-- The listing past a page, of the rows and those that were inserted above its last row. -/
theorem listing_next {cap : ℕ} {last : ρ} (hkeys : (rows.map key).Nodup) (hkeys' : (rows'.map key).Nodup)
    (hlast : ((listing key p bound rows).take cap).getLast? = some last) (hkept : ∀ r ∈ rows, r ∈ rows')
    (hnew : ∀ r ∈ rows', p r = true → r ∉ rows → key last < key r) :
    listing key p (some (key last)) rows' = (listing key p bound rows).drop cap := by
  have hsorted : (listing key p bound rows).Pairwise fun a b => key b < key a := listing_pairwise hkeys
  refine eq_of_mem_iff (listing_pairwise hkeys') (hsorted.drop) fun r => ?_
  rw [mem_drop_iff hsorted hlast, mem_listing, mem_listing]
  have hbelow : ∀ b ∈ bound, key last < b :=
    (mem_listing.mp (List.mem_of_mem_take (List.mem_of_getLast? hlast))).2.2
  constructor
  · rintro ⟨hr, hp, hlt⟩
    have hlt := hlt (key last) rfl
    have hold : r ∈ rows := by
      by_contra h
      exact absurd hlt (hnew r hr hp h).not_gt
    exact ⟨⟨hold, hp, fun b hb => hlt.trans (hbelow b hb)⟩, hlt⟩
  · rintro ⟨⟨hr, hp, -⟩, hlt⟩
    refine ⟨hkept r hr, hp, fun b hb => ?_⟩
    rw [← Option.some.inj hb]
    exact hlt

/-! ### Following the cursors -/

section follow
variable (respond : ℕ → Option C → Except ε (List ρ × Option C))

/-- Ask from request `j` on until no cursor comes back. -/
def follow : ℕ → ℕ → Option C → Option (Except ε (List ρ))
  | 0, _, _ => none
  | fuel + 1, j, c =>
      match respond j c with
      | .error e => some (.error e)
      | .ok (page, none) => some (.ok page)
      | .ok (page, some next) => (follow fuel (j + 1) (some next)).map fun rest => rest.map (page ++ ·)

/-- The requests that the client makes. -/
inductive Asks : ℕ → Option C → Prop
  | first : Asks 0 none
  | next {j : ℕ} {c : Option C} {page : List ρ} {c' : C} (h : Asks j c) (hanswer : respond j c = .ok (page, some c')) :
      Asks (j + 1) (some c')

/-- Between two requests rows are only inserted, and those that are wanted above the last row shown. -/
def InsertsAbove (key : ρ → κ) (p : ρ → Bool) (stores : ℕ → List ρ) : Prop :=
  ∀ j c page c' last, Asks respond j c → respond j c = .ok (page, some c') → page.getLast? = some last →
    (∀ r ∈ stores j, r ∈ stores (j + 1)) ∧
      ∀ r ∈ stores (j + 1), p r = true → r ∉ stores j → key last < key r

/-- The client ends with every wanted row once, by decreasing key. -/
def WalksAll (key : ρ → κ) (p : ρ → Bool) (rows : List ρ) : Prop :=
  ∃ l : List ρ, l.Perm (rows.filter p) ∧ (l.Pairwise fun a b => key b < key a) ∧
    ∀ fuel, rows.length < fuel → follow respond fuel 0 none = some (.ok l)

end follow

variable {respond : ℕ → Option C → Except ε (List ρ × Option C)} {mint : ρ → C} {cap : ℕ} {stores : ℕ → List ρ}

theorem follow_of_asks (hcap : 0 < cap) (hkeys : ∀ j, ((stores j).map key).Nodup)
    (hnext : ∀ j, ∀ r ∈ stores j, respond (j + 1) (some (mint r)) =
      .ok (answer key p (some (key r)) (stores (j + 1)) mint cap))
    (hinserts : InsertsAbove respond key p stores) :
    ∀ (fuel j : ℕ) (c : Option C) (bound : Option κ), Asks respond j c →
      respond j c = .ok (answer key p bound (stores j) mint cap) →
      (listing key p bound (stores j)).length < fuel →
      follow respond fuel j c = some (.ok (listing key p bound (stores j)))
  | 0, _, _, _, _, _, hfuel => absurd hfuel (Nat.not_lt_zero _)
  | fuel + 1, j, c, bound, hasks, hanswer, hfuel => by
      unfold follow
      by_cases hfull : ((listing key p bound (stores j)).take cap).length = cap
      · -- a full page: the rest of the listing is what the next cursor is answered with
        have hne : (listing key p bound (stores j)).take cap ≠ [] := by
          intro hnil
          rw [hnil] at hfull
          exact absurd hfull hcap.ne
        obtain ⟨last, hlast⟩ : ∃ last, ((listing key p bound (stores j)).take cap).getLast? = some last :=
          ⟨_, List.getLast?_eq_some_getLast hne⟩
        rw [answer, if_pos hfull, hlast] at hanswer
        obtain ⟨hkept, hnew⟩ := hinserts j c _ _ last hasks hanswer hlast
        have hrest := listing_next (hkeys j) (hkeys (j + 1)) hlast hkept hnew
        have hmem := (mem_listing.mp (List.mem_of_mem_take (List.mem_of_getLast? hlast))).1
        rw [List.length_take] at hfull
        have hshorter : (listing key p (some (key last)) (stores (j + 1))).length < fuel := by
          rw [hrest, List.length_drop]
          omega
        have ih := follow_of_asks hcap hkeys hnext hinserts fuel (j + 1) (some (mint last)) (some (key last))
          (.next hasks hanswer) (hnext j last hmem) hshorter
        rw [hanswer]
        simp only [Option.map_some, ih, hrest]
        exact congrArg (fun l => some (Except.ok l)) (List.take_append_drop cap _)
      · rw [answer, if_neg hfull] at hanswer
        rw [hanswer]
        have hall : (listing key p bound (stores j)).length ≤ cap := by
          rw [List.length_take] at hfull
          omega
        simp only [List.take_of_length_le hall]

/-- **Complete paging**: the client ends with what was wanted at the first request. -/
theorem walksAll (hcap : 0 < cap) (hkeys : ∀ j, ((stores j).map key).Nodup)
    (hfirst : respond 0 none = .ok (answer key p none (stores 0) mint cap))
    (hnext : ∀ j, ∀ r ∈ stores j, respond (j + 1) (some (mint r)) =
      .ok (answer key p (some (key r)) (stores (j + 1)) mint cap))
    (hinserts : InsertsAbove respond key p stores) : WalksAll respond key p (stores 0) := by
  refine ⟨listing key p none (stores 0), listing_perm, listing_pairwise (hkeys 0), fun fuel hfuel => ?_⟩
  refine follow_of_asks hcap hkeys hnext hinserts fuel 0 none none .first hfirst ?_
  rw [(listing_perm ).length_eq]
  exact (List.length_filter_le _ _).trans_lt hfuel

end Experiential.Keyset

namespace Experiential

variable {ρ κ : Type}

/-! ### Pages -/

/-- Page `j` of the list cut into pages of `n`. -/
def page (l : List ρ) (j n : ℕ) : List ρ := (l.drop (j * n)).take n

theorem page_sublist (l : List ρ) (j n : ℕ) : (page l j n).Sublist l :=
  (List.take_sublist _ _).trans (List.drop_sublist _ _)

theorem length_page_le (l : List ρ) (j n : ℕ) : (page l j n).length ≤ n := by
  unfold page
  rw [List.length_take]
  exact Nat.min_le_left _ _

theorem length_page_eq_iff {l : List ρ} {j n : ℕ} (hn : 0 < n) :
    (page l j n).length = n ↔ (j + 1) * n ≤ l.length := by
  unfold page
  rw [List.length_take, List.length_drop, Nat.add_one_mul]
  omega

theorem take_append_page (l : List ρ) (j n : ℕ) : l.take (j * n) ++ page l j n = l.take ((j + 1) * n) := by
  unfold page
  rw [Nat.add_one_mul, List.take_add]

/-- The records before position `b` and those from `a` up to `c`. -/
theorem take_drop_take {l : List ρ} {a b c : ℕ} (hab : a ≤ b) (hbc : b ≤ c) :
    (l.drop a).take (c - a) = (l.drop a).take (b - a) ++ (l.drop b).take (c - b) := by
  have hsplit : c - a = (b - a) + (c - b) := by omega
  have hdrop : a + (b - a) = b := by omega
  rw [hsplit, List.take_add, List.drop_drop, hdrop]

theorem drop_take_subset {l : List ρ} {a b n : ℕ} (h : a + n ≤ b) {r : ρ} (hr : r ∈ (l.drop a).take n) :
    r ∈ l.take b := by
  rw [List.take_drop] at hr
  exact (List.take_sublist_take_left h).subset (List.mem_of_mem_drop hr)

/-! ### First occurrences -/

section firsts
variable [DecidableEq κ] {key : ρ → κ}

/-- The first record of every key, the keys of `seen` apart. -/
def firsts (key : ρ → κ) : List κ → List ρ → List ρ
  | _, [] => []
  | seen, r :: rs => if key r ∈ seen then firsts key seen rs else r :: firsts key (key r :: seen) rs

theorem firsts_cons_of_mem {r : ρ} {rs : List ρ} {s : List κ} (h : key r ∈ s) :
    firsts key s (r :: rs) = firsts key s rs := by
  rw [firsts, if_pos h]

theorem firsts_cons_of_not_mem {r : ρ} {rs : List ρ} {s : List κ} (h : key r ∉ s) :
    firsts key s (r :: rs) = r :: firsts key (key r :: s) rs := by
  rw [firsts, if_neg h]

theorem firsts_congr : ∀ {l : List ρ} {s t : List κ}, (∀ k, k ∈ s ↔ k ∈ t) → firsts key s l = firsts key t l
  | [], _, _, _ => rfl
  | r :: rs, s, t, h => by
      unfold firsts
      simp only [h]
      rw [firsts_congr h, firsts_congr (s := key r :: s) (t := key r :: t)]
      intro k
      rw [List.mem_cons, List.mem_cons, h]

theorem firsts_append : ∀ (l m : List ρ) (s : List κ),
    firsts key s (l ++ m) = firsts key s l ++ firsts key (l.map key ++ s) m
  | [], _, _ => rfl
  | r :: rs, m, s => by
      by_cases hr : key r ∈ s
      · rw [List.cons_append, firsts_cons_of_mem hr, firsts_cons_of_mem hr, firsts_append rs m s]
        congr 1
        apply firsts_congr
        intro k
        simp only [List.map_cons, List.mem_append, List.mem_cons]
        constructor
        · rintro (hk | hk)
          · exact .inl (.inr hk)
          · exact .inr hk
        · rintro ((rfl | hk) | hk)
          · exact .inr hr
          · exact .inl hk
          · exact .inr hk
      · rw [List.cons_append, firsts_cons_of_not_mem hr, firsts_cons_of_not_mem hr,
          firsts_append rs m (key r :: s), List.cons_append]
        congr 2
        apply firsts_congr
        intro k
        simp only [List.map_cons, List.mem_append, List.mem_cons]
        tauto

theorem firsts_eq_nil : ∀ {l : List ρ} {s : List κ}, firsts key s l = [] ↔ ∀ r ∈ l, key r ∈ s
  | [], _ => by simp [firsts]
  | r :: rs, s => by
      unfold firsts
      split
      · rename_i hr
        rw [firsts_eq_nil (l := rs) (s := s), List.forall_mem_cons]
        exact (and_iff_right hr).symm
      · rename_i hr
        constructor
        · nofun
        · exact fun h => absurd (h r List.mem_cons_self) hr

theorem mem_map_firsts (key : ρ → κ) {k : κ} : ∀ {l : List ρ} {s : List κ},
    (k ∈ (firsts key s l).map key ∨ k ∈ s) ↔ (k ∈ l.map key ∨ k ∈ s)
  | [], _ => Iff.rfl
  | r :: rs, s => by
      by_cases hr : key r ∈ s
      · rw [firsts_cons_of_mem hr, mem_map_firsts key, List.map_cons, List.mem_cons]
        constructor
        · rintro (h | h)
          · exact .inl (.inr h)
          · exact .inr h
        · rintro ((rfl | h) | h)
          · exact .inr hr
          · exact .inl h
          · exact .inr h
      · have ih := mem_map_firsts key (k := k) (l := rs) (s := key r :: s)
        rw [firsts_cons_of_not_mem hr, List.map_cons, List.map_cons, List.mem_cons, List.mem_cons]
        rw [List.mem_cons] at ih
        tauto

theorem firsts_sublist (key : ρ → κ) : ∀ (l : List ρ) (s : List κ), (firsts key s l).Sublist l
  | [], _ => .slnil
  | r :: rs, s => by
      unfold firsts
      split
      · exact (firsts_sublist key rs s).cons r
      · exact (firsts_sublist key rs _).cons_cons r

theorem not_mem_of_mem_firsts : ∀ {l : List ρ} {s : List κ} {r : ρ}, r ∈ firsts key s l → key r ∉ s
  | [], _, _, hr => nomatch hr
  | q :: qs, s, r, hr => by
      unfold firsts at hr
      split at hr
      · exact not_mem_of_mem_firsts hr
      · rename_i hq
        rcases List.mem_cons.mp hr with rfl | hr
        · exact hq
        · exact fun h => not_mem_of_mem_firsts hr (List.mem_cons_of_mem _ h)

theorem nodup_firsts (key : ρ → κ) : ∀ (l : List ρ) (s : List κ), ((firsts key s l).map key).Nodup
  | [], _ => List.nodup_nil
  | r :: rs, s => by
      unfold firsts
      split
      · exact nodup_firsts key rs s
      · rw [List.map_cons, List.nodup_cons]
        refine ⟨fun h => ?_, nodup_firsts key rs _⟩
        obtain ⟨q, hq, hqr⟩ := List.mem_map.mp h
        exact not_mem_of_mem_firsts hq (hqr ▸ List.mem_cons_self)

theorem length_firsts_lt {l : List ρ} {s : List κ} (h : ¬(l.map key).Nodup) : (firsts key s l).length < l.length := by
  have hsub := firsts_sublist key l s
  refine lt_of_le_of_ne hsub.length_le fun heq => h ?_
  rw [← hsub.eq_of_length heq]
  exact nodup_firsts key l s

theorem firsts_of_nodup : ∀ {l : List ρ} {s : List κ}, (l.map key).Nodup → (∀ r ∈ l, key r ∉ s) → firsts key s l = l
  | [], _, _, _ => rfl
  | r :: rs, s, hnodup, hnew => by
      rw [List.map_cons, List.nodup_cons] at hnodup
      rw [firsts_cons_of_not_mem (hnew r List.mem_cons_self), firsts_of_nodup hnodup.2]
      intro q hq hmem
      rcases List.mem_cons.mp hmem with heq | hmem
      · exact hnodup.1 (heq ▸ List.mem_map_of_mem hq)
      · exact hnew q (List.mem_cons_of_mem _ hq) hmem

/-- More records leave the first occurrences alone when their keys are all there. -/
theorem firsts_append_eq_iff {l m : List ρ} :
    firsts key [] (l ++ m) = firsts key [] l ↔ ∀ r ∈ m, key r ∈ l.map key := by
  rw [firsts_append, List.append_nil, List.append_right_eq_self, firsts_eq_nil]

theorem firsts_append_of_subset {l m : List ρ} (h : ∀ r ∈ m, r ∈ l) :
    firsts key [] (l ++ m) = firsts key [] l :=
  firsts_append_eq_iff.mpr fun r hr => List.mem_map_of_mem (h r hr)

/-- Page `j` of size `r`, after `j` pages of the greater size `n`: the first occurrences are those of
one initial segment. -/
theorem firsts_take_page (l : List ρ) {j n r : ℕ} (hrn : r ≤ n) :
    firsts key [] (l.take (j * n) ++ page l j r) = firsts key [] (l.take (max (j * n) ((j + 1) * r))) := by
  have hle : j * r ≤ j * n := Nat.mul_le_mul_left j hrn
  unfold page
  rw [Nat.add_one_mul]
  by_cases hend : j * r + r ≤ j * n
  · -- the whole page repeats what came before it
    rw [Nat.max_eq_left hend]
    exact firsts_append_of_subset fun s hs => drop_take_subset hend hs
  · have hlt : j * n ≤ j * r + r := by omega
    rw [Nat.max_eq_right hlt]
    have hsplit := take_drop_take (l := l) hle hlt
    rw [Nat.add_sub_cancel_left] at hsplit
    have htake : l.take (j * r + r) = l.take (j * n) ++ (l.drop (j * n)).take (j * r + r - j * n) := by
      rw [← List.take_add]
      congr 1
      omega
    have hrepeat : ∀ s ∈ (l.drop (j * r)).take (j * n - j * r), s ∈ l.take (j * n) :=
      fun s hs => drop_take_subset (by omega) hs
    rw [hsplit, htake, ← List.append_assoc, firsts_append _ ((l.drop (j * n)).take _), firsts_append_of_subset hrepeat,
      firsts_append]
    congr 1
    -- the repeated records add no key
    apply firsts_congr
    intro k
    simp only [List.map_append, List.append_nil, List.mem_append, List.mem_map]
    constructor
    · rintro (h | ⟨s, hs, rfl⟩)
      · exact h
      · exact ⟨s, hrepeat s hs, rfl⟩
    · exact .inl

end firsts

end Experiential
