import Experiential.Lib.Dict

/-! # Caches bounded in time and size

A cache keeps what it was given for a fixed time. A read forgets an entry that it finds expired, and a
write into a full cache forgets all the expired ones, or everything when none has expired. What a read
returns has been written (`TimedCache.get_eq_some`), so a property of all that is written is a property
of all that is read (`TimedCache.Holds`). -/

namespace Experiential

/-- Each value is kept with the time when it expires. -/
structure TimedCache (κ α : Type) where
  ttl : ℤ
  maxEntries : ℕ
  entries : Dict κ (α × ℤ)

namespace TimedCache

variable {κ α : Type} [DecidableEq κ] (c : TimedCache κ α)

def get (k : κ) (now : ℤ) : Option α × TimedCache κ α :=
  match c.entries.lookup k with
  | none => (none, c)
  | some (a, expires) =>
      if expires ≤ now then (none, { c with entries := c.entries.erase k }) else (some a, c)

/-- The entries that have not expired. -/
def live (now : ℤ) : Dict κ (α × ℤ) := c.entries.filter fun _ e => decide (now < e.2)

/-- The entries that a write keeps. -/
def kept (now : ℤ) : Dict κ (α × ℤ) :=
  if c.maxEntries ≤ c.entries.entries.length then
    if (c.live now).entries.length < c.maxEntries then c.live now else ∅
  else c.entries

def put (k : κ) (a : α) (now : ℤ) : TimedCache κ α :=
  { c with entries := (c.kept now).insert k (a, now + c.ttl) }

variable {c} {k : κ} {a : α} {now : ℤ} {P Q : κ → α → Prop}

theorem get_eq_some : (c.get k now).1 = some a ↔ ∃ expires, c.entries.lookup k = some (a, expires) ∧ now < expires := by
  unfold get
  split
  · next h => simp [h]
  · next b expires h =>
      rw [h]
      split_ifs with hexpired
      · constructor
        · nofun
        · rintro ⟨expires', heq, hlive⟩
          cases heq
          omega
      · constructor
        · intro heq
          cases heq
          exact ⟨expires, rfl, by omega⟩
        · rintro ⟨expires', heq, -⟩
          cases heq
          rfl

theorem lookup_kept {e : α × ℤ} (h : (c.kept now).lookup k = some e) : c.entries.lookup k = some e := by
  unfold kept at h
  split_ifs at h
  · exact (Dict.lookup_filter.mp h).1
  · simp at h
  · exact h

/-- Every value of the cache has the property under its key. -/
def Holds (P : κ → α → Prop) (c : TimedCache κ α) : Prop := Dict.All (fun k e => P k e.1) c.entries

theorem holds_empty {ttl : ℤ} {maxEntries : ℕ} : Holds P (⟨ttl, maxEntries, ∅⟩ : TimedCache κ α) := Dict.all_empty

theorem Holds.mono (h : Holds P c) (hPQ : ∀ k a, P k a → Q k a) : Holds Q c := Dict.All.mono h fun k e => hPQ k e.1

theorem all_get {T : κ → α × ℤ → Prop} (h : Dict.All T c.entries) : Dict.All T (c.get k now).2.entries := by
  unfold TimedCache.get
  split
  · exact h
  · split_ifs
    · intro k' e he
      have hne : k' ≠ k := by
        rintro rfl
        rw [AList.lookup_erase] at he
        cases he
      rw [AList.lookup_erase_ne hne] at he
      exact h k' e he
    · exact h

theorem all_put {T : κ → α × ℤ → Prop} (h : Dict.All T c.entries) (hk : T k (a, now + c.ttl)) :
    Dict.All T (c.put k a now).entries := by
  have hkept : Dict.All T (c.kept now) := fun k' e he => h k' e (lookup_kept he)
  exact hkept.insert hk

theorem Holds.get (h : Holds P c) : Holds P (c.get k now).2 := all_get h

theorem Holds.put (h : Holds P c) (hk : P k a) : Holds P (c.put k a now) := all_put h hk

@[simp] theorem get_ttl : (c.get k now).2.ttl = c.ttl := by
  unfold get
  split
  · rfl
  · split_ifs <;> rfl

@[simp] theorem get_maxEntries : (c.get k now).2.maxEntries = c.maxEntries := by
  unfold get
  split
  · rfl
  · split_ifs <;> rfl

theorem length_get_le : (c.get k now).2.entries.entries.length ≤ c.entries.entries.length := by
  unfold get
  split
  · exact Nat.le_refl _
  · split_ifs
    · exact (List.kerase_sublist _ _).length_le
    · exact Nat.le_refl _

theorem length_put_le (hmax : 0 < c.maxEntries) (a : α) (now : ℤ) : (c.put k a now).entries.entries.length ≤ c.maxEntries := by
  have hkept : (c.kept now).entries.length < c.maxEntries := by
    unfold kept
    split_ifs with hfull hlive
    · exact hlive
    · exact hmax
    · exact Nat.not_le.mp hfull
  have hinsert : (c.put k a now).entries.entries.length ≤ (c.kept now).entries.length + 1 := by
    change (List.kinsert k (a, now + c.ttl) (c.kept now).entries).length ≤ _
    rw [List.kinsert_def, List.length_cons]
    exact Nat.succ_le_succ (List.kerase_sublist _ _).length_le
  omega

end TimedCache

end Experiential
