import Mathlib.Data.List.AList

/-! # Dictionaries

Mathlib's association lists with values of one type, read as dictionaries: writing a key
replaces its value. `Dict.All P d` says that every entry satisfies `P`; it is the form in
which an invariant of a builder that only ever writes entries is kept. -/

namespace Experiential

variable {κ α : Type} [DecidableEq κ]

/-- A dictionary. -/
abbrev Dict (κ α : Type) := AList fun _ : κ => α

namespace Dict

theorem lookup_insert_eq_some {d : Dict κ α} {k k' : κ} {v w : α} :
    (AList.insert k v d).lookup k' = some w ↔
      k' = k ∧ w = v ∨ k' ≠ k ∧ d.lookup k' = some w := by
  by_cases hk : k' = k
  · subst hk
    rw [AList.lookup_insert]
    simp [eq_comm]
  · rw [AList.lookup_insert_ne hk]
    simp [hk]

theorem mem_entries_insert {d : Dict κ α} {k : κ} {v : α} {e : Sigma fun _ : κ => α} :
    e ∈ (AList.insert k v d).entries ↔ e = ⟨k, v⟩ ∨ e.1 ≠ k ∧ e ∈ d.entries := by
  obtain ⟨k', w⟩ := e
  rw [← AList.mem_lookup_iff, ← AList.mem_lookup_iff, Option.mem_def, Option.mem_def, lookup_insert_eq_some]
  simp

/-- Every entry satisfies `P`. -/
def All (P : κ → α → Prop) (d : Dict κ α) : Prop := ∀ k v, d.lookup k = some v → P k v

variable {P Q : κ → α → Prop} {d : Dict κ α}

theorem all_empty : All P (∅ : Dict κ α) := by
  intro k v h
  simp at h

theorem All.insert (h : All P d) {k : κ} {v : α} (hk : P k v) : All P (AList.insert k v d) := by
  intro k' w hw
  rcases lookup_insert_eq_some.mp hw with ⟨rfl, rfl⟩ | ⟨-, hd⟩
  · exact hk
  · exact h k' w hd

theorem All.mono (h : All P d) (hPQ : ∀ k v, P k v → Q k v) : All Q d :=
  fun k v hv => hPQ k v (h k v hv)

/-- The value of a key, or the empty dictionary. -/
def getOrEmpty {β : Type} (d : Dict κ (Dict β α)) (k : κ) : Dict β α := (d.lookup k).getD ∅

/-- Writing an entry of a dictionary of dictionaries. -/
theorem lookup_getOrEmpty_insert {β : Type} [DecidableEq β] {d : Dict κ (Dict β α)} {k k' : κ}
    {b b' : β} {v w : α} :
    (getOrEmpty (AList.insert k (AList.insert b v (getOrEmpty d k)) d) k').lookup b' = some w ↔
      k' = k ∧ b' = b ∧ w = v ∨ ¬ (k' = k ∧ b' = b) ∧ (getOrEmpty d k').lookup b' = some w := by
  by_cases hk : k' = k
  · subst hk
    rw [getOrEmpty, AList.lookup_insert, Option.getD_some, lookup_insert_eq_some]
    simp
  · rw [getOrEmpty, AList.lookup_insert_ne hk, ← getOrEmpty]
    simp [hk]

/-- Write one value under every key of a list. -/
def insertAll (keys : List κ) (v : α) (d : Dict κ α) : Dict κ α :=
  keys.foldl (fun d k => AList.insert k v d) d

theorem lookup_insertAll (v : α) (k : κ) : ∀ (keys : List κ) (d : Dict κ α),
    (insertAll keys v d).lookup k = if k ∈ keys then some v else d.lookup k
  | [], d => by simp [insertAll]
  | k' :: keys, d => by
      have ih := lookup_insertAll v k keys (AList.insert k' v d)
      rw [insertAll, List.foldl_cons]
      rw [insertAll] at ih
      rw [ih]
      by_cases hk : k ∈ keys
      · simp [hk]
      · by_cases he : k = k'
        · subst he
          simp
        · rw [AList.lookup_insert_ne he]
          simp [hk, he]

/-- The entries under the keys of a list. -/
def restrict (keys : List κ) (d : Dict κ α) : Dict κ α :=
  keys.foldl (fun acc k => match d.lookup k with
    | none => acc
    | some v => AList.insert k v acc) ∅

theorem lookup_restrict {keys : List κ} {d : Dict κ α} {k : κ} {v : α}
    (h : (restrict keys d).lookup k = some v) : d.lookup k = some v := by
  have hloop : ∀ (keys : List κ) (acc : Dict κ α),
      (∀ k v, acc.lookup k = some v → d.lookup k = some v) →
      ∀ k v, (keys.foldl (fun acc k => match d.lookup k with
        | none => acc
        | some v => AList.insert k v acc) acc).lookup k = some v → d.lookup k = some v := by
    intro keys
    induction keys with
    | nil => exact fun acc hacc => hacc
    | cons key keys ih =>
        intro acc hacc
        rw [List.foldl_cons]
        apply ih
        cases hd : d.lookup key with
        | none => exact hacc
        | some value =>
            intro k v hk
            rcases lookup_insert_eq_some.mp hk with ⟨rfl, rfl⟩ | ⟨-, hk⟩
            · exact hd
            · exact hacc k v hk
  exact hloop keys ∅ (by intro k v hk; simp at hk) k v h

/-- The entries that satisfy `p`. -/
def filter (p : κ → α → Bool) (d : Dict κ α) : Dict κ α :=
  ⟨d.entries.filter fun e => p e.1 e.2, d.nodupKeys.sublist List.filter_sublist⟩

theorem lookup_filter {p : κ → α → Bool} {d : Dict κ α} {k : κ} {v : α} :
    (filter p d).lookup k = some v ↔ d.lookup k = some v ∧ p k v = true := by
  rw [← Option.mem_def, ← Option.mem_def, AList.mem_lookup_iff, AList.mem_lookup_iff]
  exact List.mem_filter

/-- The dictionary of a list: under each key, the last element with it. -/
def ofList (key : α → κ) (l : List α) : Dict κ α := l.foldl (fun d a => AList.insert (key a) a d) ∅

theorem lookup_foldl_insert (key : α → κ) (k : κ) : ∀ (l : List α) (d : Dict κ α) (a : α),
    (l.foldl (fun d a => AList.insert (key a) a d) d).lookup k = some a →
      a ∈ l ∧ key a = k ∨ d.lookup k = some a
  | [], _, _, h => .inr h
  | b :: l, d, a, h => by
      rcases lookup_foldl_insert key k l _ a h with ⟨hl, hk⟩ | hd
      · exact .inl ⟨List.mem_cons_of_mem b hl, hk⟩
      · rcases lookup_insert_eq_some.mp hd with ⟨rfl, rfl⟩ | ⟨-, hd⟩
        · exact .inl ⟨List.mem_cons_self, rfl⟩
        · exact .inr hd

variable {key : α → κ}

theorem mem_of_lookup_ofList {l : List α} {k : κ} {a : α}
    (h : (ofList key l).lookup k = some a) : a ∈ l ∧ key a = k := by
  rcases lookup_foldl_insert key k l ∅ a h with h | h
  · exact h
  · simp at h

theorem isSome_foldl_insert (key : α → κ) (k : κ) : ∀ (l : List α) (d : Dict κ α),
    (∃ a ∈ l, key a = k) ∨ (d.lookup k).isSome →
      ((l.foldl (fun d a => AList.insert (key a) a d) d).lookup k).isSome
  | [], _, h => by simpa using h
  | b :: l, d, h => by
      refine isSome_foldl_insert key k l _ ?_
      by_cases hb : k = key b
      · subst hb
        exact .inr (by rw [AList.lookup_insert]; rfl)
      · rw [AList.lookup_insert_ne hb]
        rcases h with ⟨a, ha, hk⟩ | h
        · rcases List.mem_cons.mp ha with rfl | ha
          · exact absurd hk.symm hb
          · exact .inl ⟨a, ha, hk⟩
        · exact .inr h

theorem isSome_lookup_ofList {l : List α} {a : α} (ha : a ∈ l) : ((ofList key l).lookup (key a)).isSome :=
  isSome_foldl_insert key (key a) l ∅ (.inl ⟨a, ha, rfl⟩)

theorem lookup_ofList_of_nodup {l : List α} (hnodup : (l.map key).Nodup) {a : α} (ha : a ∈ l) :
    (ofList key l).lookup (key a) = some a := by
  have hsome : ((ofList key l).lookup (key a)).isSome := isSome_lookup_ofList ha
  obtain ⟨b, hb⟩ := Option.isSome_iff_exists.mp hsome
  obtain ⟨hmem, hkey⟩ := mem_of_lookup_ofList hb
  rw [hb, List.inj_on_of_nodup_map hnodup hmem ha hkey]

/-- The values that the elements have, each under its element's key. -/
def collect {β : Type} (key : α → κ) (value : α → Option β) (l : List α) : Dict κ β :=
  l.foldl (fun d a => match value a with
    | none => d
    | some b => AList.insert (key a) b d) ∅

theorem lookup_foldl_collect {β : Type} {value : α → Option β} {k : κ} {b : β} :
    ∀ (l : List α) (d : Dict κ β), (∀ a ∈ l, ∀ a' ∈ l, key a = key a' → value a = value a') →
      ((l.foldl (fun d a => match value a with
        | none => d
        | some b => AList.insert (key a) b d) d).lookup k = some b ↔
          (∃ a ∈ l, key a = k ∧ value a = some b) ∨
            (∀ a ∈ l, key a = k → value a = none) ∧ d.lookup k = some b)
  | [], d, _ => by simp
  | a :: l, d, hkeys => by
      have ih := fun d => lookup_foldl_collect (k := k) (b := b) l d fun x hx y hy =>
        hkeys x (List.mem_cons_of_mem a hx) y (List.mem_cons_of_mem a hy)
      have hsame : ∀ x ∈ l, key x = key a → value x = value a := fun x hx h =>
        hkeys x (List.mem_cons_of_mem a hx) a List.mem_cons_self h
      rw [List.foldl_cons, ih]
      simp only [List.exists_mem_cons_iff, List.forall_mem_cons]
      cases hv : value a with
      | none => simp
      | some c =>
          rw [lookup_insert_eq_some]
          constructor
          · rintro (h | ⟨hnone, ⟨rfl, rfl⟩ | ⟨hne, hd⟩⟩)
            · exact .inl (.inr h)
            · exact .inl (.inl ⟨rfl, rfl⟩)
            · exact .inr ⟨⟨fun h => absurd h.symm hne, hnone⟩, hd⟩
          · rintro ((⟨rfl, hc⟩ | h) | ⟨⟨hhead, hnone⟩, hd⟩)
            · obtain rfl := Option.some.inj hc
              by_cases hex : ∃ x ∈ l, key x = key a
              · obtain ⟨x, hx, hk⟩ := hex
                exact .inl ⟨x, hx, hk, (hsame x hx hk).trans hv⟩
              · exact .inr ⟨fun x hx hk => absurd ⟨x, hx, hk⟩ hex, .inl ⟨rfl, rfl⟩⟩
            · exact .inl h
            · refine .inr ⟨hnone, .inr ⟨fun h => ?_, hd⟩⟩
              cases hhead h.symm

theorem lookup_collect_eq_some {β : Type} {value : α → Option β} {l : List α} {k : κ} {b : β}
    (hkeys : ∀ a ∈ l, ∀ a' ∈ l, key a = key a' → value a = value a') :
    (collect key value l).lookup k = some b ↔ ∃ a ∈ l, key a = k ∧ value a = some b := by
  rw [collect, lookup_foldl_collect l ∅ hkeys]
  simp

end Dict

end Experiential
