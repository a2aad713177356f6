import Mathlib.Data.List.Basic

/-! # Computations that may raise

A statement of a stored procedure either continues with a value or raises, and a raised
error abandons everything the procedure did. `Except ε` models this; the lemmas below are
the only facts about it the development uses, so that a successful run of a procedure is
taken apart with `obtain` and never by unfolding the monad. -/

namespace Experiential

variable {ε α β : Type}

/-- Continue when `c` holds, raise `e` otherwise. -/
def ensure (c : Prop) [Decidable c] (e : ε) : Except ε Unit :=
  if c then .ok () else .error e

/-- The value of an optional, or `e` when there is none. -/
def require (o : Option α) (e : ε) : Except ε α :=
  match o with
  | some a => .ok a
  | none => .error e

@[simp] theorem bind_eq_ok {x : Except ε α} {f : α → Except ε β} {b : β} :
    x >>= f = .ok b ↔ ∃ a, x = .ok a ∧ f a = .ok b := by
  cases x with
  | error e => simp [bind, Except.bind]
  | ok a => simp [bind, Except.bind]

@[simp] theorem pure_eq_ok {a b : α} : (pure a : Except ε α) = .ok b ↔ a = b := by
  simp [pure, Except.pure]

@[simp] theorem ensure_eq_ok {c : Prop} [Decidable c] {e : ε} {u : Unit} :
    ensure c e = .ok u ↔ c := by
  unfold ensure
  split_ifs with h <;> simp [h]

theorem bind_eq_error {x : Except ε α} {f : α → Except ε β} {e : ε} :
    x >>= f = .error e ↔ x = .error e ∨ ∃ a, x = .ok a ∧ f a = .error e := by
  cases x with
  | error e' => simp [bind, Except.bind]
  | ok a => simp [bind, Except.bind]

theorem ensure_eq_error {c : Prop} [Decidable c] {e e' : ε} :
    ensure c e = .error e' ↔ ¬ c ∧ e = e' := by
  unfold ensure
  split_ifs with h <;> simp [h]

@[simp] theorem require_eq_ok {o : Option α} {e : ε} {a : α} :
    require o e = .ok a ↔ o = some a := by
  cases o <;> simp [require]

theorem toOption_eq_some {x : Except ε α} {a : α} : x.toOption = some a ↔ x = .ok a := by
  cases x <;> simp [Except.toOption]

/-! ### What a computation raises -/

/-- Every error of `x` satisfies `P`. -/
def RaisesOnly (P : ε → Prop) (x : Except ε α) : Prop := ∀ e, x = .error e → P e

namespace RaisesOnly

variable {P : ε → Prop}

theorem ok (a : α) : RaisesOnly P (.ok a : Except ε α) := by
  intro e h
  cases h

theorem pure (a : α) : RaisesOnly P (Pure.pure a : Except ε α) := ok a

theorem error {e : ε} (h : P e) : RaisesOnly P (.error e : Except ε α) := by
  intro e' he
  cases he
  exact h

theorem ensure {c : Prop} [Decidable c] {e : ε} (h : ¬ c → P e) :
    RaisesOnly P (Experiential.ensure c e) := by
  intro e' he
  obtain ⟨hc, rfl⟩ := ensure_eq_error.mp he
  exact h hc

theorem require {o : Option α} {e : ε} (h : P e) : RaisesOnly P (Experiential.require o e) := by
  cases o with
  | none => exact error h
  | some a => exact ok a

theorem mono {Q : ε → Prop} {x : Except ε α} (hx : RaisesOnly P x) (h : ∀ e, P e → Q e) :
    RaisesOnly Q x := fun e he => h e (hx e he)

theorem bind {x : Except ε α} {f : α → Except ε β} (hx : RaisesOnly P x)
    (hf : ∀ a, x = .ok a → RaisesOnly P (f a)) : RaisesOnly P (x >>= f) := by
  intro e he
  rcases bind_eq_error.mp he with he | ⟨a, ha, he⟩
  · exact hx e he
  · exact hf a ha e he

end RaisesOnly

theorem mapM_eq_ok {f : α → Except ε β} : ∀ {l : List α} {out : List β},
    l.mapM f = .ok out ↔ List.Forall₂ (fun a b => f a = .ok b) l out
  | [], out => by
      rw [List.mapM_nil, pure_eq_ok]
      exact ⟨fun h => h ▸ .nil, fun h => by cases h; rfl⟩
  | a :: l, out => by
      rw [List.mapM_cons]
      simp only [bind_eq_ok, pure_eq_ok, mapM_eq_ok]
      constructor
      · rintro ⟨b, hb, rest, hrest, rfl⟩
        exact .cons hb hrest
      · rintro (_ | ⟨hb, hrest⟩)
        exact ⟨_, hb, _, hrest, rfl⟩

theorem mapM_eq_error {f : α → Except ε β} {e : ε} : ∀ {l : List α}, l.mapM f = .error e ↔
    ∃ before a behind, l = before ++ a :: behind ∧ (∀ b ∈ before, ∃ c, f b = .ok c) ∧ f a = .error e
  | [] => by
      rw [List.mapM_nil]
      refine ⟨nofun, ?_⟩
      rintro ⟨before, a, behind, hl, -⟩
      simp at hl
  | a :: l => by
      have ih := mapM_eq_error (f := f) (e := e) (l := l)
      rw [List.mapM_cons]
      constructor
      · intro h
        rcases bind_eq_error.mp h with ha | ⟨b, ha, hrest⟩
        · exact ⟨[], a, l, rfl, nofun, ha⟩
        · rcases bind_eq_error.mp hrest with hl | ⟨bs, -, hpure⟩
          · obtain ⟨before, x, behind, rfl, hbefore, hx⟩ := ih.mp hl
            exact ⟨a :: before, x, behind, rfl, List.forall_mem_cons.mpr ⟨⟨b, ha⟩, hbefore⟩, hx⟩
          · cases hpure
      · rintro ⟨before, x, behind, hl, hbefore, hx⟩
        cases before with
        | nil =>
          cases hl
          exact bind_eq_error.mpr (.inl hx)
        | cons b before =>
          cases hl
          obtain ⟨⟨c, hc⟩, hbefore⟩ := List.forall_mem_cons.mp hbefore
          refine bind_eq_error.mpr (.inr ⟨c, hc, bind_eq_error.mpr (.inl ?_)⟩)
          exact ih.mpr ⟨before, x, behind, rfl, hbefore, hx⟩

theorem RaisesOnly.mapM {P : ε → Prop} {f : α → Except ε β} {l : List α} (h : ∀ a ∈ l, RaisesOnly P (f a)) :
    RaisesOnly P (l.mapM f) := by
  intro e he
  obtain ⟨before, a, behind, rfl, -, ha⟩ := mapM_eq_error.mp he
  exact h a (by simp) e ha

theorem exists_mem_of_forall₂ {R : α → β → Prop} {l : List α} {out : List β} (h : List.Forall₂ R l out) :
    ∀ a ∈ l, ∃ b ∈ out, R a b := by
  induction h with
  | nil => exact nofun
  | cons hab _ ih =>
    refine List.forall_mem_cons.mpr ⟨⟨_, List.mem_cons_self, hab⟩, fun a ha => ?_⟩
    obtain ⟨b, hb, hR⟩ := ih a ha
    exact ⟨b, List.mem_cons_of_mem _ hb, hR⟩

theorem exists_of_forall₂ {R : α → β → Prop} {l : List α} {out : List β} (h : List.Forall₂ R l out) (a : α) (ha : a ∈ l) :
    ∃ b, R a b := by
  obtain ⟨b, -, hR⟩ := exists_mem_of_forall₂ h a ha
  exact ⟨b, hR⟩

theorem forall₂_of_mapM {f : α → Except ε β} {R : β → α → Prop} {l : List α} {out : List β} (h : l.mapM f = .ok out)
    (hf : ∀ a ∈ l, ∀ b, f a = .ok b → R b a) : List.Forall₂ R out l := by
  have hall := mapM_eq_ok.mp h
  clear h
  induction hall with
  | nil => exact .nil
  | cons hab _ ih =>
    obtain ⟨ha, hl⟩ := List.forall_mem_cons.mp hf
    exact .cons (ha _ hab) (ih hl)

/-- What the list of computations returned was returned by one of them. -/
theorem mem_of_mapM_eq_ok {f : α → Except ε β} {l : List α} {out : List β} (h : l.mapM f = .ok out) {b : β} :
    b ∈ out ↔ ∃ a ∈ l, f a = .ok b := by
  have hall := mapM_eq_ok.mp h
  clear h
  induction hall with
  | nil => simp
  | @cons a c l out hac _ ih =>
      constructor
      · intro hmem
        rcases List.mem_cons.mp hmem with rfl | hmem
        · exact ⟨a, List.mem_cons_self, hac⟩
        · obtain ⟨d, hd, hb⟩ := ih.mp hmem
          exact ⟨d, List.mem_cons_of_mem _ hd, hb⟩
      · rintro ⟨d, hd, hb⟩
        rcases List.mem_cons.mp hd with rfl | hd
        · rw [Except.ok.inj (hb.symm.trans hac)]
          exact List.mem_cons_self
        · exact List.mem_cons_of_mem _ (ih.mpr ⟨d, hd, hb⟩)

theorem exists_of_mem_mapM {f : α → Except ε β} {l : List α} {out : List β} (h : l.mapM f = .ok out) {a : α} (ha : a ∈ l) :
    ∃ b ∈ out, f a = .ok b := by
  have hall := mapM_eq_ok.mp h
  clear h
  induction hall with
  | nil => cases ha
  | @cons c b l out hcb _ ih =>
      obtain rfl | ha := List.mem_cons.mp ha
      · exact ⟨b, List.mem_cons_self, hcb⟩
      · obtain ⟨d, hd, had⟩ := ih ha
        exact ⟨d, List.mem_cons_of_mem _ hd, had⟩

theorem map_of_mapM {γ : Type} {f : α → Except ε β} {g : α → γ} {g' : β → γ} (hg : ∀ a b, f a = .ok b → g' b = g a)
    {l : List α} {out : List β} (h : l.mapM f = .ok out) : out.map g' = l.map g := by
  have hall := mapM_eq_ok.mp h
  clear h
  induction hall with
  | nil => rfl
  | cons hab _ ih => rw [List.map_cons, List.map_cons, ih, hg _ _ hab]

theorem exists_mapM_eq_ok {f : α → Except ε β} : ∀ {l : List α}, (∀ a ∈ l, ∃ b, f a = .ok b) → ∃ out, l.mapM f = .ok out
  | [], _ => ⟨[], rfl⟩
  | a :: l, h => by
      obtain ⟨b, hb⟩ := h a List.mem_cons_self
      obtain ⟨out, hout⟩ := exists_mapM_eq_ok fun c hc => h c (List.mem_cons_of_mem _ hc)
      exact ⟨b :: out, mapM_eq_ok.mpr (.cons hb (mapM_eq_ok.mp hout))⟩

/-- **Loop rule**: what one successful iteration preserves, the whole loop preserves. -/
theorem foldlM_invariant {I : β → Prop} {f : β → α → Except ε β}
    (hf : ∀ b a b', f b a = .ok b' → I b → I b') :
    ∀ (l : List α) (b b' : β), l.foldlM f b = .ok b' → I b → I b'
  | [], b, b', h, hb => by
      simp only [List.foldlM_nil, pure_eq_ok] at h
      exact h ▸ hb
  | a :: l, b, b', h, hb => by
      simp only [List.foldlM_cons, bind_eq_ok] at h
      obtain ⟨b₁, h1, h2⟩ := h
      exact foldlM_invariant hf l b₁ b' h2 (hf b a b₁ h1 hb)

/-- A loop that maintains `I` while consuming its list: `I` also sees what is still to come. -/
theorem foldlM_rec {I : β → List α → Prop} {f : β → α → Except ε β} {b' : β}
    (hf : ∀ b a l b₁, f b a = .ok b₁ → I b (a :: l) → I b₁ l) :
    ∀ (l : List α) (b : β), l.foldlM f b = .ok b' → I b l → I b' []
  | [], b, h, hb => by
      simp only [List.foldlM_nil, pure_eq_ok] at h
      exact h ▸ hb
  | a :: l, b, h, hb => by
      simp only [List.foldlM_cons, bind_eq_ok] at h
      obtain ⟨b₁, h1, h2⟩ := h
      exact foldlM_rec hf l b₁ h2 (hf b a l b₁ h1 hb)

/-- A loop whose every iteration succeeds from a state that meets `I`, and keeps it, succeeds. -/
theorem foldlM_total {I : β → Prop} {f : β → α → Except ε β} :
    ∀ (l : List α) (b : β), (∀ a ∈ l, ∀ b, I b → ∃ b', f b a = .ok b' ∧ I b') → I b →
      ∃ b', l.foldlM f b = .ok b' ∧ I b'
  | [], b, _, hb => ⟨b, by simp, hb⟩
  | a :: l, b, hf, hb => by
      obtain ⟨b₁, h1, hb₁⟩ := hf a List.mem_cons_self b hb
      obtain ⟨b', h2, hb'⟩ := foldlM_total l b₁ (fun c hc => hf c (List.mem_cons_of_mem _ hc)) hb₁
      refine ⟨b', ?_, hb'⟩
      simp only [List.foldlM_cons, bind_eq_ok]
      exact ⟨b₁, h1, h2⟩

/-- A loop whose every iteration reads something first, where all of them can. -/
theorem foldlM_read_eq_ok {γ : Type} {x : α → Except ε γ} {g : β → α → γ → β} {o : α → γ} :
    ∀ {l : List α} (_ : ∀ a ∈ l, x a = .ok (o a)) (b : β),
      l.foldlM (fun b a => x a >>= fun c => pure (g b a c)) b = .ok (l.foldl (fun b a => g b a (o a)) b)
  | [], _, _ => rfl
  | a :: l, h, b => by
      obtain ⟨ha, hl⟩ := List.forall_mem_cons.mp h
      rw [List.foldlM_cons, List.foldl_cons, ha]
      exact foldlM_read_eq_ok hl _

/-- Such a loop returns only where all of them can. -/
theorem forall_of_foldlM_read {γ : Type} {x : α → Except ε γ} {g : β → α → γ → β} : ∀ {l : List α} {b b' : β},
    l.foldlM (fun b a => x a >>= fun c => pure (g b a c)) b = .ok b' → ∀ a ∈ l, ∃ c, x a = .ok c
  | [], _, _, _ => nofun
  | a :: l, b, b', h => by
      rw [List.foldlM_cons, bind_eq_ok] at h
      obtain ⟨b₁, h₁, h₂⟩ := h
      obtain ⟨c, hc, -⟩ := bind_eq_ok.mp h₁
      exact List.forall_mem_cons.mpr ⟨⟨c, hc⟩, forall_of_foldlM_read h₂⟩

/-! ### Computations that succeed -/

/-- The computation returns something `Q` holds of. -/
def Succeeds (x : Except ε α) (Q : α → Prop) : Prop := ∃ a, x = .ok a ∧ Q a

namespace Succeeds

variable {x : Except ε α} {Q : α → Prop} {P : β → Prop}

theorem ok {a : α} (h : Q a) : Succeeds (.ok a : Except ε α) Q := ⟨a, rfl, h⟩

theorem bind {f : α → Except ε β} (hx : Succeeds x Q) (hf : ∀ a, Q a → Succeeds (f a) P) : Succeeds (x >>= f) P := by
  obtain ⟨a, rfl, ha⟩ := hx
  exact hf a ha

end Succeeds

end Experiential
