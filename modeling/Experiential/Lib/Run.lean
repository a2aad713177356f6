import Mathlib.Data.List.Basic

/-! # Finite runs of a deterministic system

A system is a step function `step : σ → ι → σ` on states `σ` driven by inputs `ι`; an input
that the system refuses leaves the state as it was. A run is a finite list of inputs.
`StepsMeet step C s is` says that every input of the run meets the condition `C` in the state
in which it is taken. `run_invariant` is the induction every safety theorem goes through:
what one step preserves under the condition, every run whose steps all meet it preserves. -/

namespace Experiential

variable {σ ι : Type} {step : σ → ι → σ}

/-- The state after the inputs of a run. -/
def run (step : σ → ι → σ) (s : σ) (is : List ι) : σ := is.foldl step s

/-- Every input of the run meets `C` in the state in which it is taken. -/
def StepsMeet (step : σ → ι → σ) (C : σ → ι → Prop) : σ → List ι → Prop
  | _, [] => True
  | s, i :: is => C s i ∧ StepsMeet step C (step s i) is

instance decidableStepsMeet {C : σ → ι → Prop} [∀ s i, Decidable (C s i)] :
    ∀ (s : σ) (is : List ι), Decidable (StepsMeet step C s is)
  | _, [] => .isTrue trivial
  | s, i :: is =>
      have := decidableStepsMeet (C := C) (step s i) is
      inferInstanceAs (Decidable (C s i ∧ StepsMeet step C (step s i) is))

@[simp] theorem run_nil (s : σ) : run step s [] = s := rfl

@[simp] theorem run_cons (s : σ) (i : ι) (is : List ι) :
    run step s (i :: is) = run step (step s i) is := rfl

theorem run_append (s : σ) (is js : List ι) :
    run step s (is ++ js) = run step (run step s is) js := List.foldl_append

theorem stepsMeet_of_forall {C : ι → Prop} : ∀ {is : List ι} (s : σ), (∀ i ∈ is, C i) →
    StepsMeet step (fun _ => C) s is
  | [], _, _ => trivial
  | i :: _, s, h => ⟨h i List.mem_cons_self,
      stepsMeet_of_forall (step s i) fun j hj => h j (List.mem_cons_of_mem _ hj)⟩

variable {C : σ → ι → Prop}

theorem stepsMeet_of_forall_states : ∀ {is : List ι} (s : σ), (∀ i ∈ is, ∀ s, C s i) → StepsMeet step C s is
  | [], _, _ => trivial
  | i :: _, s, h => ⟨h i List.mem_cons_self s,
      stepsMeet_of_forall_states (step s i) fun j hj => h j (List.mem_cons_of_mem _ hj)⟩

theorem stepsMeet_append : ∀ {is js : List ι} {s : σ},
    StepsMeet step C s (is ++ js) ↔ StepsMeet step C s is ∧ StepsMeet step C (run step s is) js
  | [], _, _ => by simp [StepsMeet]
  | i :: is, js, s => by
      rw [List.cons_append, StepsMeet, StepsMeet, stepsMeet_append, run_cons, and_assoc]

/-- A condition on the states together with one on the inputs. -/
theorem StepsMeet.and_forall {D : ι → Prop} : ∀ {is : List ι} {s : σ},
    StepsMeet step C s is → (∀ i ∈ is, D i) → StepsMeet step (fun s i => C s i ∧ D i) s is
  | [], _, _, _ => trivial
  | _ :: _, _, h, hD => ⟨⟨h.1, hD _ List.mem_cons_self⟩,
      h.2.and_forall fun j hj => hD j (List.mem_cons_of_mem _ hj)⟩

variable {I : σ → Prop}

theorem run_invariant (hstep : ∀ s i, C s i → I s → I (step s i)) :
    ∀ (is : List ι) (s : σ), I s → StepsMeet step C s is → I (run step s is)
  | [], _, hs, _ => hs
  | i :: is, s, hs, hC => run_invariant hstep is (step s i) (hstep s i hC.1 hs) hC.2

/-- The run rule for an invariant that needs no condition on the steps. -/
theorem run_invariant_of_forall (hstep : ∀ s i, I s → I (step s i)) : ∀ (is : List ι) (s : σ), I s → I (run step s is)
  | [], _, hs => hs
  | i :: is, s, hs => run_invariant_of_forall hstep is (step s i) (hstep s i hs)

/-- **Exact run rule**: when a step leaves `I` true exactly if it was true and the input meets `C`, a
run does exactly if all its inputs meet `C`. -/
theorem run_iff_stepsMeet (hstep : ∀ s i, I (step s i) ↔ I s ∧ C s i) :
    ∀ (is : List ι) (s : σ), I (run step s is) ↔ I s ∧ StepsMeet step C s is
  | [], s => (and_iff_left trivial).symm
  | i :: is, s => by
      rw [run_cons, run_iff_stepsMeet hstep is (step s i), hstep, StepsMeet, and_assoc]

/-- Two conditions that agree in the states of an invariant. -/
theorem stepsMeet_congr {C D : σ → ι → Prop} {J : σ → Prop} (hJ : ∀ s i, J s → J (step s i))
    (hCD : ∀ s i, J s → (C s i ↔ D s i)) :
    ∀ (is : List ι) (s : σ), J s → (StepsMeet step C s is ↔ StepsMeet step D s is)
  | [], _, _ => Iff.rfl
  | i :: is, s, hs => by
      rw [StepsMeet, StepsMeet, hCD s i hs, stepsMeet_congr hJ hCD is (step s i) (hJ s i hs)]

/-- The same, for an invariant that holds as long as the steps meet the first condition. -/
theorem stepsMeet_congr_of {C D : σ → ι → Prop} {J : σ → Prop} (hJ : ∀ s i, J s → C s i → J (step s i))
    (hCD : ∀ s i, J s → (C s i ↔ D s i)) :
    ∀ (is : List ι) (s : σ), J s → (StepsMeet step C s is ↔ StepsMeet step D s is)
  | [], _, _ => Iff.rfl
  | i :: is, s, hs => by
      rw [StepsMeet, StepsMeet, ← hCD s i hs]
      exact and_congr_right fun hC => stepsMeet_congr_of hJ hCD is (step s i) (hJ s i hs hC)

theorem stepsMeet_and {C D : σ → ι → Prop} : ∀ {is : List ι} {s : σ},
    StepsMeet step (fun s i => C s i ∧ D s i) s is ↔ StepsMeet step C s is ∧ StepsMeet step D s is
  | [], _ => by simp [StepsMeet]
  | i :: is, s => by
      rw [StepsMeet, StepsMeet, StepsMeet, stepsMeet_and]
      exact and_and_and_comm

/-- The exact rule for a property of every state reached, where `A` is assumed of all steps: the stronger
invariant `J` holds as long as the steps meet `C`, and the first that does not breaks `I`. -/
theorem always_iff_stepsMeet {A C : σ → ι → Prop} (J : σ → Prop) (hI : ∀ s, J s → I s)
    (hkeeps : ∀ s i, A s i → J s → C s i → J (step s i))
    (hbreaks : ∀ s i, A s i → J s → I (step s i) → C s i) :
    ∀ (is : List ι) (s : σ), J s → StepsMeet step A s is →
      ((∀ js, js <+: is → I (run step s js)) ↔ StepsMeet step C s is)
  | [], s, hs, _ => by
      refine ⟨fun _ => trivial, fun _ js hjs => ?_⟩
      rw [List.prefix_nil.mp hjs]
      exact hI s hs
  | i :: is, s, hs, hA => by
      have ih := always_iff_stepsMeet J hI hkeeps hbreaks is (step s i)
      constructor
      · intro hall
        have hC := hbreaks s i hA.1 hs (hall [i] (List.cons_prefix_cons.mpr ⟨rfl, List.nil_prefix⟩))
        refine ⟨hC, (ih (hkeeps s i hA.1 hs hC) hA.2).mp fun js hjs => ?_⟩
        exact hall (i :: js) (List.cons_prefix_cons.mpr ⟨rfl, hjs⟩)
      · rintro ⟨hC, hrest⟩ js hjs
        cases js with
        | nil => exact hI s hs
        | cons j js =>
            obtain ⟨rfl, htail⟩ := List.cons_prefix_cons.mp hjs
            exact (ih (hkeeps s j hA.1 hs hC) hA.2).mpr hrest js htail

/-- A property of the state after every step, beside the first. -/
theorem forall_prefix_iff {is : List ι} {s : σ} (hs : I s) :
    (∀ js, js <+: is → I (run step s js)) ↔ StepsMeet step (fun s i => I (step s i)) s is :=
  always_iff_stepsMeet (A := fun _ _ => True) I (fun _ h => h) (fun _ _ _ _ h => h) (fun _ _ _ _ h => h) is s hs
    (stepsMeet_of_forall_states s fun _ _ _ => trivial)

/-! ### Refusing steps -/

/-- The total step of a partial one: a raised error leaves the state unchanged. -/
def orStay {ε : Type} (f : σ → ι → Except ε σ) (s : σ) (i : ι) : σ :=
  match f s i with
  | .ok s' => s'
  | .error _ => s

theorem orStay_of_ok {ε : Type} {f : σ → ι → Except ε σ} {s s' : σ} {i : ι}
    (h : f s i = .ok s') : orStay f s i = s' := by
  unfold orStay; rw [h]

/-- A property that successful steps preserve is preserved by all steps. -/
theorem orStay_preserves {ε : Type} {f : σ → ι → Except ε σ} {s : σ} {i : ι}
    (h : ∀ s', f s i = .ok s' → I s → I s') (hs : I s) : I (orStay f s i) := by
  unfold orStay
  cases hf : f s i with
  | ok s' => exact h s' hf hs
  | error e => exact hs

/-! ### The entries of a list of processes -/

theorem getElem?_set_cases {α : Type} {l : List α} {k j : Nat} {x' y : α} (h : (l.set k x')[j]? = some y) :
    (j = k ∧ y = x') ∨ (j ≠ k ∧ l[j]? = some y) := by
  by_cases hjk : j = k
  · subst hjk
    obtain ⟨hlt, hy⟩ := List.getElem?_eq_some_iff.mp h
    rw [List.getElem_set_self] at hy
    exact .inl ⟨rfl, hy.symm⟩
  · rw [List.getElem?_set_ne (Ne.symm hjk)] at h
    exact .inr ⟨hjk, h⟩

/-- An entry is replaced by one that has `P` exactly if the old one had it and `C` holds. -/
theorem forall_mem_set_iff {α : Type} {l : List α} {k : Nat} {x x' : α} {P : α → Prop} {C : Prop}
    (hx : l[k]? = some x) (h : P x' ↔ P x ∧ C) : (∀ y ∈ l.set k x', P y) ↔ (∀ y ∈ l, P y) ∧ C := by
  have hlt : k < l.length := (List.getElem?_eq_some_iff.mp hx).1
  constructor
  · intro hall
    have hx' : P x ∧ C := h.mp (hall x' (List.mem_iff_getElem?.mpr ⟨k, List.getElem?_set_self hlt⟩))
    refine ⟨fun y hy => ?_, hx'.2⟩
    obtain ⟨j, hj⟩ := List.mem_iff_getElem?.mp hy
    by_cases hjk : j = k
    · subst hjk
      obtain rfl := Option.some.inj (hx.symm.trans hj)
      exact hx'.1
    · refine hall y (List.mem_iff_getElem?.mpr ⟨j, ?_⟩)
      rw [List.getElem?_set_ne (Ne.symm hjk)]
      exact hj
  · rintro ⟨hall, hC⟩ y hy
    obtain ⟨j, hj⟩ := List.mem_iff_getElem?.mp hy
    rcases getElem?_set_cases hj with ⟨-, rfl⟩ | ⟨-, hj⟩
    · exact h.mpr ⟨hall x (List.mem_of_getElem? hx), hC⟩
    · exact hall y (List.mem_of_getElem? hj)

theorem mem_set_of_mem {α : Type} {l : List α} {i : ℕ} {a b c : α} (hi : l[i]? = some c) (ha : a ∈ l) :
    a ∈ l.set i b ∨ a = c ∧ b ∈ l.set i b := by
  obtain ⟨j, hj⟩ := List.getElem?_of_mem ha
  by_cases hij : i = j
  · subst hij
    obtain ⟨hlt, -⟩ := List.getElem?_eq_some_iff.mp hi
    exact .inr ⟨Option.some.inj (hj.symm.trans hi), List.mem_set hlt b⟩
  · exact .inl (List.mem_of_getElem? ((List.getElem?_set_ne hij).trans hj))

theorem getElem?_append_cases {α : Type} {l : List α} {j : Nat} {x y : α} (h : (l ++ [x])[j]? = some y) :
    (j = l.length ∧ y = x) ∨ l[j]? = some y := by
  rcases Nat.lt_trichotomy j l.length with hlt | heq | hgt
  · rw [List.getElem?_append_left hlt] at h
    exact .inr h
  · subst heq
    rw [List.getElem?_concat_length] at h
    exact .inl ⟨rfl, (Option.some.inj h).symm⟩
  · rw [List.getElem?_append_right (Nat.le_of_lt hgt), List.getElem?_eq_none (by simp; omega)] at h
    cases h

end Experiential
