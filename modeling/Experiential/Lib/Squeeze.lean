import Mathlib.Data.List.Chain
import Mathlib.Data.List.DropRight

/-! # Runs written as one

`squeeze p r` writes every maximal run of members of `p` as the one member `r`; `trim p` takes the members of `p` from
both ends. A list without such runs and ends is left as it is. -/

namespace Experiential

variable {α : Type} {p q : α → Bool} {r a : α} {l m : List α}

/-- Every run of members of `p` becomes `r`; `inRun` says that one is being read. -/
def squeeze (p : α → Bool) (r : α) : Bool → List α → List α
  | _, [] => []
  | inRun, a :: l =>
      if p a then (if inRun then squeeze p r true l else r :: squeeze p r true l) else a :: squeeze p r false l

/-- Take the members of `p` from both ends. -/
def trim (p : α → Bool) (l : List α) : List α := (l.dropWhile p).rdropWhile p

/-- No two members of `p` stand side by side. -/
def NoRun (p : α → Bool) (l : List α) : Prop := l.IsChain fun a b => ¬(p a ∧ p b)

theorem noRun_of_forall_not : ∀ {l : List α}, (∀ a ∈ l, ¬p a) → NoRun p l
  | [], _ => .nil
  | x :: l, h => by
      obtain ⟨hx, hl⟩ := List.forall_mem_cons.mp h
      exact List.isChain_cons.mpr ⟨fun _ _ hboth => hx hboth.1, noRun_of_forall_not hl⟩

/-! ### Squeezing -/

theorem squeeze_cons_pos {b : Bool} (h : p a) :
    squeeze p r b (a :: l) = if b then squeeze p r true l else r :: squeeze p r true l := by
  rw [squeeze, if_pos h]

theorem squeeze_cons_neg {b : Bool} (h : ¬p a) : squeeze p r b (a :: l) = a :: squeeze p r false l := by
  rw [squeeze, if_neg h]

theorem mem_squeeze : ∀ {l : List α} {b : Bool}, a ∈ squeeze p r b l → a = r ∧ (∃ x ∈ l, p x) ∨ a ∈ l ∧ ¬p a
  | [], _, h => nomatch h
  | x :: l, b, h => by
      have hrest : ∀ {b : Bool}, a ∈ squeeze p r b l → a = r ∧ (∃ y ∈ x :: l, p y) ∨ a ∈ x :: l ∧ ¬p a := by
        intro b h
        rcases mem_squeeze h with ⟨ha, y, hy, hp⟩ | ⟨ha, hp⟩
        · exact .inl ⟨ha, y, List.mem_cons_of_mem x hy, hp⟩
        · exact .inr ⟨List.mem_cons_of_mem x ha, hp⟩
      by_cases hx : p x
      · rw [squeeze_cons_pos hx] at h
        cases b with
        | true => exact hrest h
        | false =>
          rcases List.mem_cons.mp h with rfl | h
          · exact .inl ⟨rfl, x, List.mem_cons_self, hx⟩
          · exact hrest h
      · rw [squeeze_cons_neg hx] at h
        rcases List.mem_cons.mp h with rfl | h
        · exact .inr ⟨List.mem_cons_self, hx⟩
        · exact hrest h

theorem head_squeeze_true : ∀ {l : List α}, ∀ a ∈ (squeeze p r true l).head?, ¬p a
  | [], _, h => nomatch h
  | x :: l, a, h => by
      by_cases hx : p x
      · rw [squeeze_cons_pos hx, if_pos rfl] at h
        exact head_squeeze_true a h
      · rw [squeeze_cons_neg hx, List.head?_cons, Option.mem_def, Option.some.injEq] at h
        exact h ▸ hx

theorem noRun_squeeze : ∀ (l : List α) (b : Bool), NoRun p (squeeze p r b l)
  | [], _ => .nil
  | x :: l, b => by
      unfold NoRun
      by_cases hx : p x
      · rw [squeeze_cons_pos hx]
        cases b with
        | true => exact noRun_squeeze l true
        | false =>
          rw [if_neg Bool.false_ne_true, List.isChain_cons]
          exact ⟨fun y hy hboth => head_squeeze_true y hy hboth.2, noRun_squeeze l true⟩
      · rw [squeeze_cons_neg hx, List.isChain_cons]
        exact ⟨fun y _ hboth => hx hboth.1, noRun_squeeze l false⟩

/-- What has no runs of `p`, and no other member of it than `r`, is left as it is. -/
theorem squeeze_eq_self : ∀ {l : List α}, NoRun p l → (∀ a ∈ l, p a → a = r) → squeeze p r false l = l
  | [], _, _ => rfl
  | x :: l, hrun, honly => by
      have hrest : squeeze p r false l = l :=
        squeeze_eq_self hrun.of_cons fun a ha => honly a (List.mem_cons_of_mem x ha)
      by_cases hx : p x
      · rw [squeeze_cons_pos hx, if_neg Bool.false_ne_true, honly x List.mem_cons_self hx]
        congr 1
        cases l with
        | nil => rfl
        | cons y l =>
          have hy : ¬p y := fun hy => (List.isChain_cons.mp hrun).1 y rfl ⟨hx, hy⟩
          rwa [squeeze_cons_neg hy] at hrest ⊢
      · rw [squeeze_cons_neg hx, hrest]

/-- Writing runs as members of `p` breaks no other property of neighbours that these do not touch. -/
theorem noRun_squeeze_of_noRun (hr : p r) (hdisjoint : ∀ a, p a → ¬q a) : ∀ {l : List α} {b : Bool}, NoRun q l →
    NoRun q (squeeze p r b l)
  | [], _, _ => .nil
  | x :: l, b, hrun => by
      have hrest : ∀ b, NoRun q (squeeze p r b l) := fun b => noRun_squeeze_of_noRun hr hdisjoint hrun.of_cons
      unfold NoRun
      by_cases hx : p x
      · rw [squeeze_cons_pos hx]
        cases b with
        | true => exact hrest true
        | false =>
          rw [if_neg Bool.false_ne_true, List.isChain_cons]
          exact ⟨fun y _ hboth => hdisjoint r hr hboth.1, hrest true⟩
      · rw [squeeze_cons_neg hx, List.isChain_cons]
        refine ⟨fun y hy hboth => ?_, hrest false⟩
        cases l with
        | nil => cases hy
        | cons z l =>
          by_cases hz : p z
          · rw [squeeze_cons_pos hz, if_neg Bool.false_ne_true, List.head?_cons, Option.mem_def, Option.some.injEq] at hy
            exact hdisjoint r hr (hy ▸ hboth.2)
          · rw [squeeze_cons_neg hz, List.head?_cons, Option.mem_def, Option.some.injEq] at hy
            exact (List.isChain_cons.mp hrun).1 z rfl ⟨hboth.1, hy ▸ hboth.2⟩

/-- Whether a run is being read after the list. -/
def endsIn (p : α → Bool) (b : Bool) (l : List α) : Bool := (l.getLast?.map p).getD b

theorem squeeze_append : ∀ (l m : List α) (b : Bool),
    squeeze p r b (l ++ m) = squeeze p r b l ++ squeeze p r (endsIn p b l) m
  | [], _, _ => rfl
  | x :: l, m, b => by
      have hends : endsIn p b (x :: l) = endsIn p (p x) l := by
        cases l with
        | nil => rfl
        | cons y l => simp [endsIn, List.getLast?_cons]
      rw [hends, List.cons_append]
      by_cases hx : p x
      · rw [squeeze_cons_pos hx, squeeze_cons_pos hx, squeeze_append l m, hx]
        split <;> rfl
      · rw [squeeze_cons_neg hx, squeeze_cons_neg hx, squeeze_append l m, Bool.eq_false_iff.mpr hx]
        rfl

/-- Within a run at most the sign of the run is left out. -/
theorem squeeze_false_cases (p : α → Bool) (r : α) (l : List α) :
    squeeze p r false l = squeeze p r true l ∨ squeeze p r false l = r :: squeeze p r true l := by
  cases l with
  | nil => exact .inl rfl
  | cons x l =>
    by_cases hx : p x
    · rw [squeeze_cons_pos hx, squeeze_cons_pos hx]
      exact .inr rfl
    · rw [squeeze_cons_neg hx, squeeze_cons_neg hx]
      exact .inl rfl

/-- Runs of a finer class, written as one before, make no difference. -/
theorem squeeze_squeeze {d : α} (hr : p r) : ∀ {l : List α} {b c : Bool}, (c = true → b = true) →
    (∀ a ∈ l, q a → p a) → squeeze p d b (squeeze q r c l) = squeeze p d b l
  | [], _, _, _, _ => rfl
  | x :: l, b, c, hbc, hfine => by
      obtain ⟨hx, hl⟩ := List.forall_mem_cons.mp hfine
      have hrest : ∀ {b c : Bool}, (c = true → b = true) → squeeze p d b (squeeze q r c l) = squeeze p d b l :=
        fun hbc => squeeze_squeeze hr hbc hl
      by_cases hq : q x
      · rw [squeeze_cons_pos hq, squeeze_cons_pos (hx hq)]
        cases c with
        | true =>
          rw [hbc rfl]
          exact hrest fun _ => rfl
        | false =>
          rw [if_neg Bool.false_ne_true, squeeze_cons_pos hr, hrest fun _ => rfl]
      · rw [squeeze_cons_neg hq]
        by_cases hp : p x
        · rw [squeeze_cons_pos hp, squeeze_cons_pos hp, hrest fun _ => rfl]
        · rw [squeeze_cons_neg hp, squeeze_cons_neg hp, hrest fun h => h]

/-- The others are all there. -/
theorem filter_squeeze (hr : p r) : ∀ (l : List α) (b : Bool),
    (squeeze p r b l).filter (fun a => !p a) = l.filter (fun a => !p a)
  | [], _ => rfl
  | x :: l, b => by
      have hrest := fun b => filter_squeeze hr l b
      by_cases hx : p x
      · rw [squeeze_cons_pos hx, List.filter_cons_of_neg (by simpa using hx)]
        split
        · exact hrest true
        · rw [List.filter_cons_of_neg (by simpa using hr), hrest true]
      · rw [squeeze_cons_neg hx, List.filter_cons_of_pos (by simpa using hx), List.filter_cons_of_pos (by simpa using hx),
          hrest false]

theorem length_squeeze_le : ∀ (l : List α) (b : Bool), (squeeze p r b l).length ≤ l.length
  | [], _ => le_rfl
  | x :: l, b => by
      have htrue := length_squeeze_le l true
      have hfalse := length_squeeze_le l false
      by_cases hx : p x
      · rw [squeeze_cons_pos hx]
        split <;> simp only [List.length_cons] <;> omega
      · rw [squeeze_cons_neg hx]
        simp only [List.length_cons]
        omega

/-! ### Trimming -/

theorem NoRun.infix (h : NoRun p l) (hm : m <:+: l) : NoRun p m := List.IsChain.infix h hm

theorem infix_trim : trim p l <:+: l :=
  (List.rdropWhile_prefix p _).isInfix.trans (List.dropWhile_suffix p).isInfix

theorem head_dropWhile_not : ∀ {l : List α}, ∀ a ∈ (l.dropWhile p).head?, ¬p a
  | [], _, h => nomatch h
  | x :: l, a, h => by
      rw [List.dropWhile_cons] at h
      by_cases hx : p x
      · rw [if_pos hx] at h
        exact head_dropWhile_not a h
      · rw [if_neg hx, List.head?_cons, Option.mem_def, Option.some.injEq] at h
        exact h ▸ hx

theorem getLast_rdropWhile_not : ∀ a ∈ (l.rdropWhile p).getLast?, ¬p a := by
  intro a ha
  obtain ⟨hne, rfl⟩ := List.mem_getLast?_eq_getLast ha
  exact List.rdropWhile_last_not p l hne

theorem head_trim_not : ∀ a ∈ (trim p l).head?, ¬p a := by
  intro a ha
  obtain ⟨rest, hrest⟩ := List.rdropWhile_prefix p (l.dropWhile p)
  apply head_dropWhile_not (p := p) (l := l) a
  rw [← hrest, List.head?_append]
  change a ∈ (trim p l).head?.or _
  rw [Option.mem_def.mp ha]
  rfl

theorem getLast_trim_not : ∀ a ∈ (trim p l).getLast?, ¬p a := getLast_rdropWhile_not

theorem rdropWhile_eq_self (h : ∀ a ∈ l.getLast?, ¬p a) : l.rdropWhile p = l :=
  List.rdropWhile_eq_self_iff.mpr fun hne => h _ (List.getLast?_eq_some_getLast hne)

theorem dropWhile_eq_self (h : ∀ a ∈ l.head?, ¬p a) : l.dropWhile p = l := by
  cases l with
  | nil => rfl
  | cons a l => rw [List.dropWhile_cons, if_neg (h a rfl)]

theorem trim_eq_self (hhead : ∀ a ∈ l.head?, ¬p a) (hlast : ∀ a ∈ l.getLast?, ¬p a) : trim p l = l := by
  rw [trim, dropWhile_eq_self hhead, rdropWhile_eq_self hlast]

theorem trim_cons (h : p a) : trim p (a :: l) = trim p l := by
  rw [trim, List.dropWhile_cons, if_pos h]
  rfl

theorem trim_concat (h : p a) : trim p (l ++ [a]) = trim p l := by
  unfold trim
  rw [List.dropWhile_append]
  cases hdrop : l.dropWhile p with
  | nil => simp [h]
  | cons x rest =>
    rw [if_neg (by simp)]
    exact List.rdropWhile_concat_pos p _ a h

theorem exists_trim (p : α → Bool) (l : List α) : ∃ u v, l = u ++ trim p l ++ v ∧ (∀ a ∈ u, p a) ∧ ∀ a ∈ v, p a := by
  refine ⟨l.takeWhile p, (l.dropWhile p).rtakeWhile p, ?_, fun a ha => List.mem_takeWhile_imp ha,
    fun a ha => List.mem_rtakeWhile_imp ha⟩
  rw [List.append_assoc, trim, List.rdropWhile_append_rtakeWhile, List.takeWhile_append_dropWhile]

theorem filter_trim (l : List α) : (trim p l).filter (fun a => !p a) = l.filter (fun a => !p a) := by
  obtain ⟨u, v, hl, hu, hv⟩ := exists_trim p l
  have hnone : ∀ {u : List α}, (∀ a ∈ u, p a) → u.filter (fun a => !p a) = [] := fun hu =>
    List.filter_eq_nil_iff.mpr fun a ha => by simp [hu a ha]
  conv_rhs => rw [hl]
  rw [List.filter_append, List.filter_append, hnone hu, hnone hv, List.nil_append, List.append_nil]

/-- Members of `p` at the ends make no difference when the runs are written as one and trimmed. -/
theorem trim_squeeze_append (hr : p r) {u v : List α} (hu : ∀ a ∈ u, p a) (hv : ∀ a ∈ v, p a) (l : List α) :
    trim p (squeeze p r false (u ++ l ++ v)) = trim p (squeeze p r false l) := by
  have hfront : ∀ {u : List α}, (∀ a ∈ u, p a) → ∀ l, trim p (squeeze p r false (u ++ l)) = trim p (squeeze p r false l) := by
    intro u hu l
    induction u with
    | nil => rfl
    | cons x u ih =>
      obtain ⟨hx, hu⟩ := List.forall_mem_cons.mp hu
      rw [← ih hu, List.cons_append, squeeze_cons_pos hx, if_neg Bool.false_ne_true, trim_cons hr]
      rcases squeeze_false_cases p r (u ++ l) with hsame | hsign
      · rw [hsame]
      · rw [hsign, trim_cons hr]
  rw [List.append_assoc, hfront hu]
  induction v using List.reverseRecOn with
  | nil => rw [List.append_nil]
  | append_singleton v x ih =>
    rw [← ih fun a ha => hv a (List.mem_append_left _ ha), ← List.append_assoc, squeeze_append,
      squeeze_cons_pos (hv x (by simp))]
    split
    · exact congrArg (trim p) (List.append_nil _)
    · exact trim_concat hr

end Experiential
