import Experiential.Lib.Checked
import Experiential.Lib.Json

/-! # What can be written

A document whose strings are Unicode texts and whose containers are nested within the budget is written, and the text
can be encoded. -/

namespace Experiential.Py

variable {F : Type} {s t : PyStr} {depth : Nat}

/-- No surrogate stands alone in the text. -/
def IsUnicode (s : PyStr) : Prop := ∀ c ∈ s, c.utf8?.isSome = true

theorem isUnicode_scalars (cs : List Char) : IsUnicode (cs.map .scalar) := by
  intro c hc
  obtain ⟨a, -, rfl⟩ := List.mem_map.mp hc
  rfl

theorem isUnicode_text (s : String) : IsUnicode (text s) := text_eq s ▸ isUnicode_scalars s.toList

@[simp] theorem isUnicode_nil : IsUnicode [] := isUnicode_scalars []

theorem isUnicode_append : IsUnicode (s ++ t) ↔ IsUnicode s ∧ IsUnicode t := by
  simp only [IsUnicode, List.mem_append, or_imp, forall_and]

theorem isUnicode_cons {c : Char} : IsUnicode (.scalar c :: s) ↔ IsUnicode s := by
  simp [IsUnicode, CodePoint.utf8?]

theorem encode_of_isUnicode (h : IsUnicode s) : ∃ b, encode s = .ok b := by
  have hall : ∃ chunks, s.mapM CodePoint.utf8? = some chunks := by
    induction s with
    | nil => exact ⟨[], rfl⟩
    | cons c s ih =>
        obtain ⟨b, hb⟩ := Option.isSome_iff_exists.mp (h c List.mem_cons_self)
        obtain ⟨chunks, hchunks⟩ := ih fun d hd => h d (List.mem_cons_of_mem c hd)
        exact ⟨b :: chunks, by simp [List.mapM_cons, hb, hchunks]⟩
  obtain ⟨chunks, hchunks⟩ := hall
  exact ⟨chunks.flatten, by rw [encode, hchunks]⟩

theorem isUnicode_of_encode {b : Bytes} (h : encode s = .ok b) : IsUnicode s := by
  unfold encode at h
  cases hs : s.mapM CodePoint.utf8? with
  | none =>
    rw [hs] at h
    cases h
  | some chunks =>
    clear h
    intro c hc
    induction s generalizing chunks with
    | nil => cases hc
    | cons d s ih =>
      simp only [List.mapM_cons, Option.bind_eq_bind, Option.bind_eq_some_iff, Option.pure_def, Option.some.injEq] at hs
      obtain ⟨b, hb, rest, hrest, -⟩ := hs
      rcases List.mem_cons.mp hc with rfl | hc
      · rw [hb]
        rfl
      · exact ih rest hrest hc

theorem encode_append {b c : Bytes} (hs : encode s = .ok b) (ht : encode t = .ok c) : encode (s ++ t) = .ok (b ++ c) := by
  unfold encode at hs ht ⊢
  cases hs' : s.mapM CodePoint.utf8? with
  | none =>
    rw [hs'] at hs
    cases hs
  | some left =>
    cases ht' : t.mapM CodePoint.utf8? with
    | none =>
      rw [ht'] at ht
      cases ht
    | some right =>
      rw [hs'] at hs
      rw [ht'] at ht
      cases hs
      cases ht
      simp [List.mapM_append, hs', ht']

theorem isUnicode_intercalate : ∀ {ts : List PyStr}, IsUnicode s → (∀ t ∈ ts, IsUnicode t) →
    IsUnicode (s.intercalate ts)
  | [], _, _ => by simp [IsUnicode]
  | [t], _, ht => by simpa using ht t List.mem_cons_self
  | t :: u :: ts, hs, ht => by
      rw [List.intercalate_cons_cons, isUnicode_append, isUnicode_append]
      exact ⟨⟨ht t List.mem_cons_self, hs⟩,
        isUnicode_intercalate hs fun v hv => ht v (List.mem_cons_of_mem t hv)⟩

theorem isUnicode_escape {c : CodePoint} (h : c.utf8?.isSome = true) : IsUnicode (escape c) := by
  unfold escape
  split_ifs
  any_goals exact isUnicode_text _
  · refine isUnicode_append.mpr ⟨isUnicode_text _, ?_⟩
    exact isUnicode_scalars [_, _]
  · intro d hd
    rw [List.mem_singleton.mp hd]
    exact h

theorem isUnicode_quote (h : IsUnicode s) : IsUnicode (quote s) := by
  refine isUnicode_cons.mpr (isUnicode_append.mpr ⟨fun c hc => ?_, isUnicode_scalars ['"']⟩)
  obtain ⟨d, hd, hc⟩ := List.mem_flatMap.mp hc
  exact isUnicode_escape (h d hd) c hc

theorem isUnicode_intText (n : Int) : IsUnicode (intText n) := by
  refine isUnicode_append.mpr ⟨?_, isUnicode_scalars _⟩
  split_ifs
  · exact isUnicode_text _
  · exact isUnicode_scalars []

/-- Unicode strings, within `depth` containers. -/
def Json.Writable : Nat → Json F → Prop
  | _, .str s => IsUnicode s
  | 0, .list _ => False
  | 0, .dict _ => False
  | depth + 1, .list items => ∀ v ∈ items, Writable depth v
  | depth + 1, .dict entries => ∀ e ∈ entries, IsUnicode e.1 ∧ Writable depth e.2
  | _, _ => True

theorem dumpsWithin_of_writable (rt : Runtime F) {sep : Separators} (hitem : IsUnicode sep.item)
    (hkey : IsUnicode sep.key) : ∀ {depth : Nat} {v : Json F}, v.Writable depth →
    ∃ t, dumpsWithin rt sep depth v = .ok t ∧ IsUnicode t := by
  intro depth
  induction depth with
  | zero =>
      intro v hv
      cases v with
      | null => exact ⟨_, rfl, isUnicode_text _⟩
      | bool b => cases b <;> exact ⟨_, rfl, isUnicode_text _⟩
      | int n => exact ⟨_, rfl, isUnicode_intText n⟩
      | float x => exact ⟨_, rfl, isUnicode_scalars _⟩
      | str s => exact ⟨_, rfl, isUnicode_quote hv⟩
      | list items | dict entries => exact hv.elim
  | succ depth ih =>
      intro v hv
      cases v with
      | null => exact ⟨_, rfl, isUnicode_text _⟩
      | bool b => cases b <;> exact ⟨_, rfl, isUnicode_text _⟩
      | int n => exact ⟨_, rfl, isUnicode_intText n⟩
      | float x => exact ⟨_, rfl, isUnicode_scalars _⟩
      | str s => exact ⟨_, rfl, isUnicode_quote hv⟩
      | list items =>
          have hv : ∀ v ∈ items, v.Writable depth := hv
          obtain ⟨ts, hts⟩ := exists_mapM_eq_ok (f := dumpsWithin rt sep depth) (l := items) fun v hmem =>
            (ih (hv v hmem)).imp fun t ht => ht.1
          refine ⟨.scalar '[' :: (sep.item.intercalate ts ++ [.scalar ']']), ?_, ?_⟩
          · simp only [dumpsWithin, bind_eq_ok, pure_eq_ok]
            exact ⟨ts, hts, rfl⟩
          · refine isUnicode_cons.mpr (isUnicode_append.mpr ⟨isUnicode_intercalate hitem fun t ht => ?_,
              isUnicode_scalars [']']⟩)
            obtain ⟨v, hmem, hwritten⟩ := (mem_of_mapM_eq_ok hts).mp ht
            obtain ⟨u, hu, hunicode⟩ := ih (hv v hmem)
            cases hwritten.symm.trans hu
            exact hunicode
      | dict entries =>
          have hv : ∀ e ∈ entries, IsUnicode e.1 ∧ e.2.Writable depth := hv
          let member := fun e : PyStr × Json F => do
            let t ← dumpsWithin rt sep depth e.2
            return quote e.1 ++ (sep.key ++ t)
          have hmember : ∀ e ∈ entries, ∃ t, member e = .ok t ∧ IsUnicode t := by
            intro e hmem
            obtain ⟨t, ht, hunicode⟩ := ih (hv e hmem).2
            refine ⟨quote e.1 ++ (sep.key ++ t), ?_, ?_⟩
            · simp only [member, bind_eq_ok, pure_eq_ok]
              exact ⟨t, ht, rfl⟩
            · exact isUnicode_append.mpr ⟨isUnicode_quote (hv e hmem).1, isUnicode_append.mpr ⟨hkey, hunicode⟩⟩
          obtain ⟨ts, hts⟩ := exists_mapM_eq_ok (f := member) fun e hmem => (hmember e hmem).imp fun t ht => ht.1
          refine ⟨.scalar '\x7b' :: (sep.item.intercalate ts ++ [.scalar '\x7d']), ?_, ?_⟩
          · simp only [dumpsWithin, bind_eq_ok, pure_eq_ok]
            exact ⟨ts, hts, rfl⟩
          · refine isUnicode_cons.mpr (isUnicode_append.mpr ⟨isUnicode_intercalate hitem fun t ht => ?_,
              isUnicode_scalars ['\x7d']⟩)
            obtain ⟨e, hmem, hwritten⟩ := (mem_of_mapM_eq_ok hts).mp ht
            obtain ⟨u, hu, hunicode⟩ := hmember e hmem
            cases hwritten.symm.trans hu
            exact hunicode

/-- With the default separators and the interpreter's budget. -/
theorem dumps_of_writable (rt : Runtime F) {v : Json F} (h : v.Writable rt.recursionLimit) :
    ∃ t, dumps rt .default v = .ok t ∧ IsUnicode t :=
  dumpsWithin_of_writable rt (isUnicode_text ", ") (isUnicode_text ": ") h

end Experiential.Py
