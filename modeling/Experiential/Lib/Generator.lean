import Experiential.Lib.Checked

/-! # Generators

A generator yields values, and ends with a result or an exception. `Scans` is its rule: a scanner reads what is
yielded, never refuses it, and stands where the postcondition says when there is a result; so what an exception
leaves behind is always a beginning that the scanner accepts. -/

namespace Experiential

variable {ε ω α β σ : Type}

/-- What a generator yielded, and how it ended. -/
structure Gen (ε ω α : Type) where
  yielded : List ω
  result : Except ε α

namespace Gen

/-- Go on behind a result. -/
def andThen (g : Gen ε ω α) (f : α → Gen ε ω β) : Gen ε ω β :=
  match g.result with
  | .ok a => ⟨g.yielded ++ (f a).yielded, (f a).result⟩
  | .error e => ⟨g.yielded, .error e⟩

instance : Monad (Gen ε ω) where
  pure a := ⟨[], .ok a⟩
  bind := andThen

def yield (w : ω) : Gen ε ω Unit := ⟨[w], .ok ()⟩

def yieldAll (ws : List ω) : Gen ε ω Unit := ⟨ws, .ok ()⟩

/-- A computation that yields nothing. -/
def ofExcept (x : Except ε α) : Gen ε ω α := ⟨[], x⟩

def raise (e : ε) : Gen ε ω α := ⟨[], .error e⟩

end Gen

/-! ### Scanners -/

/-- Read a list, unless the scanner refuses. -/
def scanAll (δ : σ → ω → Option σ) : σ → List ω → Option σ
  | s, [] => some s
  | s, w :: ws => (δ s w).bind (fun s => scanAll δ s ws)

theorem scanAll_append (δ : σ → ω → Option σ) : ∀ (s : σ) (ws vs : List ω),
    scanAll δ s (ws ++ vs) = (scanAll δ s ws).bind (fun s => scanAll δ s vs)
  | _, [], _ => rfl
  | s, w :: ws, vs => by
      rw [List.cons_append, scanAll, scanAll, Option.bind_assoc]
      congr 1
      funext s'
      exact scanAll_append δ s' ws vs

/-- What is yielded is accepted, and a result is as `Q` says where the scanner stands then. -/
def Gen.Scans (δ : σ → ω → Option σ) (s : σ) (g : Gen ε ω α) (Q : σ → α → Prop) : Prop :=
  ∃ s', scanAll δ s g.yielded = some s' ∧ ∀ a, g.result = .ok a → Q s' a

namespace Gen.Scans

variable {δ : σ → ω → Option σ} {s s' : σ} {Q R : σ → α → Prop}

theorem pure {a : α} (h : Q s a) : Scans δ s (pure a : Gen ε ω α) Q := by
  refine ⟨s, rfl, fun b hb => ?_⟩
  cases hb
  exact h

theorem raise (e : ε) : Scans δ s (raise e : Gen ε ω α) Q := ⟨s, rfl, fun _ hb => nomatch hb⟩

theorem ofExcept {x : Except ε α} (h : ∀ a, x = .ok a → Q s a) : Scans δ s (ofExcept x : Gen ε ω α) Q :=
  ⟨s, rfl, h⟩

theorem yield {w : ω} {Q : σ → Unit → Prop} (hw : δ s w = some s') (h : Q s' ()) :
    Scans δ s (yield w : Gen ε ω Unit) Q := by
  refine ⟨s', ?_, fun _ _ => h⟩
  show (δ s w).bind (fun s => some s) = some s'
  rw [hw]
  rfl

theorem yieldAll {ws : List ω} {Q : σ → Unit → Prop} (hw : scanAll δ s ws = some s') (h : Q s' ()) :
    Scans δ s (yieldAll ws : Gen ε ω Unit) Q :=
  ⟨s', hw, fun _ _ => h⟩

theorem bind {g : Gen ε ω α} {f : α → Gen ε ω β} {P : σ → β → Prop} (hg : Scans δ s g Q)
    (hf : ∀ s a, Q s a → Scans δ s (f a) P) : Scans δ s (g >>= f) P := by
  obtain ⟨s₁, hs₁, hQ⟩ := hg
  obtain ⟨ws, _ | a⟩ := g
  · exact ⟨s₁, hs₁, fun _ hb => nomatch hb⟩
  · obtain ⟨s₂, hs₂, hP⟩ := hf s₁ a (hQ a rfl)
    refine ⟨s₂, ?_, hP⟩
    show scanAll δ s (ws ++ (f a).yielded) = some s₂
    have hs₁ : scanAll δ s ws = some s₁ := hs₁
    rw [scanAll_append, hs₁]
    exact hs₂

theorem mono {g : Gen ε ω α} (h : Scans δ s g Q) (hQR : ∀ s a, Q s a → R s a) : Scans δ s g R := by
  obtain ⟨s₁, hs₁, hQ⟩ := h
  exact ⟨s₁, hs₁, fun a ha => hQR s₁ a (hQ a ha)⟩

end Gen.Scans

/-! ### Generators that do not raise -/

/-- There is a result, as `Q` says. -/
def Gen.Returns (g : Gen ε ω α) (Q : α → Prop) : Prop := ∃ a, g.result = .ok a ∧ Q a

namespace Gen.Returns

variable {Q : α → Prop} {P : β → Prop}

theorem pure {a : α} (h : Q a) : Returns (pure a : Gen ε ω α) Q := ⟨a, rfl, h⟩

theorem ofExcept {x : Except ε α} (h : Succeeds x Q) : Returns (ofExcept x : Gen ε ω α) Q := h

theorem yield {w : ω} {Q : Unit → Prop} (h : Q ()) : Returns (yield w : Gen ε ω Unit) Q := ⟨(), rfl, h⟩

theorem yieldAll {ws : List ω} {Q : Unit → Prop} (h : Q ()) : Returns (yieldAll ws : Gen ε ω Unit) Q := ⟨(), rfl, h⟩

theorem bind {g : Gen ε ω α} {f : α → Gen ε ω β} (hg : Returns g Q) (hf : ∀ a, Q a → Returns (f a) P) :
    Returns (g >>= f) P := by
  obtain ⟨a, ha, hQ⟩ := hg
  obtain ⟨ws, x⟩ := g
  obtain rfl : x = .ok a := ha
  exact hf a hQ

end Gen.Returns

end Experiential
