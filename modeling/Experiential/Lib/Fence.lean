import Experiential.Lib.Run

/-! # Fenced slots

A slot is held under a token until its holder publishes one result or releases it; meanwhile
a new token may take it over. `Slot.apply` is the whole protocol. A token can hold a slot only
through its own grant (`held_of_apply`), so a token that is granted once and lost never holds
the slot again; a published result stays until it expires (`done_run`). -/

namespace Experiential

variable {τ ρ : Type}

inductive Slot (τ ρ : Type) where
  | free
  | held (token : τ)
  | done (token : τ) (result : ρ)
deriving DecidableEq

inductive SlotOp (τ ρ : Type) where
  /-- A new holder takes a slot that is free or held. -/
  | grant (token : τ)
  | publish (token : τ) (result : ρ)
  | release (token : τ)
  /-- A published result is dropped. -/
  | expire
deriving DecidableEq

namespace Slot

/-- The token holds the slot. -/
def Held (s : Slot τ ρ) (t : τ) : Prop := s = .held t

/-- The token of the last grant, while the slot is not free. -/
def token? : Slot τ ρ → Option τ
  | .free => none
  | .held t => some t
  | .done t _ => some t

theorem token?_of_held {s : Slot τ ρ} {t : τ} (h : s.Held t) : s.token? = some t := by
  rw [h, token?]

theorem held_unique {s : Slot τ ρ} {t t' : τ} (h : s.Held t) (h' : s.Held t') : t = t' := by
  cases h.symm.trans h'
  rfl

variable [DecidableEq τ]

def apply : Slot τ ρ → SlotOp τ ρ → Slot τ ρ
  | .done t r, .grant _ => .done t r
  | _, .grant t => .held t
  | .held t, .publish t' r => if t' = t then .done t r else .held t
  | s, .publish _ _ => s
  | .held t, .release t' => if t' = t then .free else .held t
  | s, .release _ => s
  | .done _ _, .expire => .free
  | s, .expire => s

/-! ### One operation -/

/-- A token is in the slot because it was there, or was just granted. -/
theorem token?_apply {s : Slot τ ρ} {op : SlotOp τ ρ} {t : τ} (h : (s.apply op).token? = some t) :
    s.token? = some t ∨ op = .grant t := by
  cases s <;> cases op <;> simp only [apply] at h <;> first
    | exact .inl h
    | (split_ifs at h <;> first | exact .inl h | cases h)
    | (cases h; exact .inr rfl)
    | cases h

/-- A token holds the slot because it did, or was just granted. -/
theorem held_of_apply {s : Slot τ ρ} {op : SlotOp τ ρ} {t : τ} (h : (s.apply op).Held t) :
    s.Held t ∨ op = .grant t := by
  unfold Held at h ⊢
  cases s <;> cases op <;> simp only [apply, reduceCtorEq] at h <;> first
    | exact .inl h
    | (split_ifs at h; exact .inl h)
    | (cases h; exact .inr rfl)

theorem apply_done {t : τ} {r : ρ} {op : SlotOp τ ρ} (h : op ≠ .expire) :
    (Slot.done t r).apply op = .done t r := by
  cases op with
  | expire => exact absurd rfl h
  | _ => rfl

/-! ### Any number of operations -/

/-- A lost token stays lost, unless it is granted again. -/
theorem not_held_run {t : τ} : ∀ (ops : List (SlotOp τ ρ)) (s : Slot τ ρ), ¬ s.Held t →
    .grant t ∉ ops → ¬ (run apply s ops).Held t
  | [], _, hs, _ => hs
  | op :: ops, s, hs, hfresh => by
      obtain ⟨hne, hfresh⟩ := List.ne_and_not_mem_of_not_mem_cons hfresh
      refine not_held_run ops (s.apply op) (fun h => ?_) hfresh
      rcases held_of_apply h with h | rfl
      · exact hs h
      · exact hne rfl

theorem done_run {t : τ} {r : ρ} : ∀ (ops : List (SlotOp τ ρ)), .expire ∉ ops →
    run apply (.done t r) ops = .done t r
  | [], _ => rfl
  | op :: ops, h => by
      obtain ⟨hne, h⟩ := List.ne_and_not_mem_of_not_mem_cons h
      rw [run_cons, apply_done (Ne.symm hne), done_run ops h]

/-- A token in the slot was there before, or was granted meanwhile. -/
theorem token?_run {t : τ} : ∀ (ops : List (SlotOp τ ρ)) (s : Slot τ ρ),
    (run apply s ops).token? = some t → s.token? = some t ∨ .grant t ∈ ops
  | [], _, h => .inl h
  | op :: ops, s, h => by
      rcases token?_run ops (s.apply op) h with h | h
      · rcases token?_apply h with h | rfl
        · exact .inl h
        · exact .inr List.mem_cons_self
      · exact .inr (List.mem_cons_of_mem _ h)

end Slot

end Experiential
