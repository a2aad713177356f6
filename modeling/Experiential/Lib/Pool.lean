import Experiential.Lib.Run

/-! # Processes over a shared state

A pool is a shared state and the processes that work on it, each where it is in its own
sequence of calls. One step lets one process make its next call, starts a process, or lets the
rest of the world change the shared state. `Pool.Holds I P` says that `I` holds of the shared
state and `P` of the shared state and every process. A process's step keeps it when it
establishes `P` for the process itself and interferes with nobody else's. -/

namespace Experiential

structure Pool (σ π : Type) where
  shared : σ
  procs : List π

inductive PoolStep (α ι κ : Type) where
  | spawn (a : α)
  | advance (k : ℕ) (i : ι)
  | env (e : κ)

section
variable {σ π α ι κ : Type} (start : α → π) (advance : ι → σ → π → σ × π) (env : κ → σ → σ)

/-- The step of a pool; a process that is not there does nothing. -/
def poolStep (w : Pool σ π) : PoolStep α ι κ → Pool σ π
  | .spawn a => { w with procs := w.procs ++ [start a] }
  | .advance k i =>
      match w.procs[k]? with
      | none => w
      | some x => ⟨(advance i w.shared x).1, w.procs.set k (advance i w.shared x).2⟩
  | .env e => { w with shared := env e w.shared }

def Pool.Holds (I : σ → Prop) (P : σ → ℕ → π → Prop) (w : Pool σ π) : Prop :=
  I w.shared ∧ ∀ k x, w.procs[k]? = some x → P w.shared k x

variable {start advance env} {w : Pool σ π} {I : σ → Prop} {P : σ → ℕ → π → Prop}

theorem poolStep_advance {k : ℕ} {i : ι} {x : π} (hx : w.procs[k]? = some x) :
    poolStep start advance env w (.advance k i) =
      ⟨(advance i w.shared x).1, w.procs.set k (advance i w.shared x).2⟩ := by
  unfold poolStep
  simp only [hx]

theorem poolStep_advance_none {k : ℕ} {i : ι} (hx : w.procs[k]? = none) :
    poolStep start advance env w (.advance k i) = w := by
  unfold poolStep
  simp only [hx]

theorem Pool.Holds.spawned (h : w.Holds I P) {a : α} (hnew : P w.shared w.procs.length (start a)) :
    (poolStep start advance env w (.spawn a)).Holds I P := by
  refine ⟨h.1, ?_⟩
  intro j y hy
  rcases getElem?_append_cases hy with ⟨rfl, rfl⟩ | hy
  · exact hnew
  · exact h.2 j y hy

/-- A process makes its next call: its own condition holds afterwards, and every other one's still
does. -/
theorem Pool.Holds.advanced (h : w.Holds I P) {k : ℕ} {i : ι}
    (hstep : ∀ x, w.procs[k]? = some x → I (advance i w.shared x).1 ∧
      P (advance i w.shared x).1 k (advance i w.shared x).2 ∧
      ∀ j y, j ≠ k → w.procs[j]? = some y → P (advance i w.shared x).1 j y) :
    (poolStep start advance env w (.advance k i)).Holds I P := by
  cases hx : w.procs[k]? with
  | none =>
      rw [poolStep_advance_none hx]
      exact h
  | some x =>
      obtain ⟨hI, hown, hothers⟩ := hstep x hx
      rw [poolStep_advance hx]
      refine ⟨hI, ?_⟩
      intro j y hy
      rcases getElem?_set_cases hy with ⟨rfl, rfl⟩ | ⟨hne, hy⟩
      · exact hown
      · exact hothers j y hne hy

end

end Experiential
