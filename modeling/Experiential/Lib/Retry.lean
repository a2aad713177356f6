import Mathlib.Data.List.Basic

/-! # Statements that are sent again

A client sends a statement and waits for the reply. The connection may break before the server has run the
statement or behind the run, which the client cannot tell apart; it sends the statement again, a bounded number
of times. `execute_eq`: the client gets the reply to one run, or none, and before it the server has run the
statement once for every sending whose reply was lost. -/

namespace Experiential

/-- What becomes of a sending. -/
inductive Delivery where
  | answered
  /-- The connection breaks before the server runs the statement. -/
  | lostBefore
  /-- It breaks when the server has run it. -/
  | lostAfter
deriving DecidableEq

/-- A statement by the number of its sending, since it may read the server's clock; a refused one is rolled back. -/
abbrev Statement (σ ε α : Type) := ℕ → σ → Except ε (α × σ)

/-- What the client has got, the server behind it, and the number of the next sending. -/
structure Sent (σ ε α : Type) where
  /-- Nothing when every connection broke. -/
  reply : Option (Except ε α)
  server : σ
  next : ℕ

namespace Statement

variable {σ ε α : Type} (f : Statement σ ε α) (net : ℕ → Delivery)

/-- The server when it has run the statement. -/
def after (k : ℕ) (s : σ) : σ :=
  match f k s with
  | .ok (_, s') => s'
  | .error _ => s

/-- The runs of some sendings, one after the other. -/
def runs (is : List ℕ) (s : σ) : σ := is.foldl (fun s i => f.after i s) s

/-- At most `n` sendings, the first of them with the number `k`. -/
def execute : ℕ → ℕ → σ → Sent σ ε α
  | 0, k, s => ⟨none, s, k⟩
  | n + 1, k, s =>
      match net k with
      | .answered => ⟨some ((f k s).map Prod.fst), f.after k s, k + 1⟩
      | .lostBefore => execute n (k + 1) s
      | .lostAfter => execute n (k + 1) (f.after k s)

end Statement

/-! ### What the client does not hear of -/

section pattern
variable (net : ℕ → Delivery)

/-- The sending that is answered. -/
def heard : ℕ → ℕ → Option ℕ
  | 0, _ => none
  | n + 1, k => if net k = .answered then some k else heard n (k + 1)

/-- The sendings before it whose replies are lost. -/
def unheard : ℕ → ℕ → List ℕ
  | 0, _ => []
  | n + 1, k =>
      match net k with
      | .answered => []
      | .lostBefore => unheard n (k + 1)
      | .lostAfter => k :: unheard n (k + 1)

end pattern

namespace Statement

variable {σ ε α : Type} {f : Statement σ ε α} {net : ℕ → Delivery} {n k : ℕ} {s : σ}

theorem execute_eq : ∀ (n k : ℕ) (s : σ), f.execute net n k s = match heard net n k with
    | some j => ⟨some ((f j (f.runs (unheard net n k) s)).map Prod.fst), f.after j (f.runs (unheard net n k) s), j + 1⟩
    | none => ⟨none, f.runs (unheard net n k) s, k + n⟩
  | 0, _, _ => rfl
  | n + 1, k, s => by
      have ih := execute_eq n (k + 1)
      cases hnet : net k with
      | answered => simp [execute, heard, unheard, runs, hnet]
      | lostBefore =>
          simp only [execute, heard, unheard, hnet, ih s, reduceCtorEq, if_false]
          rw [Nat.add_right_comm k 1 n, Nat.add_assoc]
      | lostAfter =>
          simp only [execute, heard, unheard, hnet, ih (f.after k s), reduceCtorEq, if_false]
          rw [Nat.add_right_comm k 1 n, Nat.add_assoc]
          rfl

/-! ### Rules -/

theorem after_ok {a : α} {s' : σ} (h : f k s = .ok (a, s')) : f.after k s = s' := by
  simp [after, h]

theorem after_error {e : ε} (h : f k s = .error e) : f.after k s = s := by
  simp [after, h]

/-- Runs that are refused, or do again what is done, leave the server where it is. -/
theorem runs_of_fixed : ∀ {is : List ℕ}, (∀ i ∈ is, f.after i s = s) → f.runs is s = s
  | [], _ => rfl
  | i :: is, h => by
      rw [runs, List.foldl_cons, h i List.mem_cons_self]
      exact runs_of_fixed fun j hj => h j (List.mem_cons_of_mem _ hj)

/-- A read, or a refused write: the reply is that of a single run. -/
theorem execute_of_fixed (h : ∀ i, f.after i s = s) (n k : ℕ) :
    (f.execute net n k s).server = s ∧
      (f.execute net n k s).reply = (heard net n k).map fun j => (f j s).map Prod.fst := by
  rw [execute_eq, runs_of_fixed fun i _ => h i]
  cases heard net n k with
  | none => exact ⟨rfl, rfl⟩
  | some j => exact ⟨h j, rfl⟩

/-- A statement whose first run does all that there is to do. -/
theorem runs_settles {s' : σ} (hfirst : ∀ i, f.after i s = s') (hagain : ∀ i, f.after i s' = s') :
    ∀ is : List ℕ, f.runs is s = if is = [] then s else s'
  | [] => rfl
  | i :: is => by
      have hrest : f.runs is s' = s' := runs_of_fixed fun j _ => hagain j
      rw [if_neg (List.cons_ne_nil i is), runs, List.foldl_cons, hfirst i]
      exact hrest

/-- The reply is the one to a first run or to a later one, and either way the statement has taken effect. -/
theorem execute_settles {s' : σ} (hfirst : ∀ i, f.after i s = s') (hagain : ∀ i, f.after i s' = s') (n k : ℕ) :
    let sent := f.execute net n k s
    (heard net n k = none ∧ sent.reply = none ∧ (sent.server = s ∨ sent.server = s')) ∨
      ∃ j, heard net n k = some j ∧ sent.server = s' ∧
        sent.reply = some ((f j (if unheard net n k = [] then s else s')).map Prod.fst) := by
  dsimp only
  rw [execute_eq, runs_settles hfirst hagain]
  cases hheard : heard net n k with
  | none =>
      refine .inl ⟨rfl, rfl, ?_⟩
      dsimp only
      split_ifs
      · exact .inl rfl
      · exact .inr rfl
  | some j =>
      refine .inr ⟨j, rfl, ?_, rfl⟩
      dsimp only
      split_ifs
      · exact hfirst j
      · exact hagain j

theorem runs_of_refused {is : List ℕ} (h : ∀ i ∈ is, ∃ e, f i s = .error e) : f.runs is s = s :=
  runs_of_fixed fun i hi => after_error (h i hi).choose_spec

/-- **Loop rule.**  What a run keeps, all runs keep. -/
theorem runs_invariant {I : σ → Prop} (hstep : ∀ i s, I s → I (f.after i s)) :
    ∀ {is : List ℕ} {s : σ}, I s → I (f.runs is s)
  | [], _, hs => hs
  | i :: is, s, hs => by
      have hrest : I (f.runs is (f.after i s)) := runs_invariant hstep (hstep i s hs)
      exact hrest

/-- The first of the runs that is accepted finds the server as it was. -/
theorem runs_of_accepted {is : List ℕ} (h : ∃ i ∈ is, ∃ a s', f i s = .ok (a, s')) :
    ∃ i a s' rest, f i s = .ok (a, s') ∧ f.runs is s = f.runs rest s' := by
  induction is with
  | nil => simp at h
  | cons i is ih =>
      cases hi : f i s with
      | ok x => exact ⟨i, x.1, x.2, is, hi, by rw [runs, List.foldl_cons, after_ok hi]; rfl⟩
      | error e =>
          obtain ⟨j, hj, a, s', hok⟩ := h
          have hmem : j ∈ is := by
            rcases List.mem_cons.mp hj with rfl | hj
            · rw [hi] at hok
              cases hok
            · exact hj
          obtain ⟨j', a', s'', rest, hj', hruns⟩ := ih ⟨j, hmem, a, s', hok⟩
          refine ⟨j', a', s'', rest, hj', ?_⟩
          rw [runs, List.foldl_cons, after_error hi]
          exact hruns

end Statement

end Experiential
