import Mathlib.Data.List.Basic

/-! # Texts joined by a separator

The segments of a text are what is between its separators. Joined texts are equal exactly when their segments,
written one text after the other, are (`intercalate_eq_iff`): the joined text does not say where one text ends and
the next begins. Who knows how many separators a text has can tell (`append_splitOn_inj`). -/

namespace Experiential

variable {α : Type} [DecidableEq α] {c : α} {l l' m m' : List α}

theorem splitOn_append_cons : (l ++ c :: m).splitOn c = l.splitOn c ++ m.splitOn c :=
  List.splitOnP_append_cons l m (by simp)

theorem splitOn_of_not_mem (h : c ∉ l) : l.splitOn c = [l] :=
  List.splitOnP_eq_singleton fun x hx => by
    have hne : x ≠ c := fun he => h (he ▸ hx)
    simpa using hne

theorem splitOn_injective (h : l.splitOn c = l'.splitOn c) : l = l' := by
  have hback : [c].intercalate (l.splitOn c) = l := List.intercalate_splitOn c
  rw [← hback, h, List.intercalate_splitOn]

theorem length_splitOn (c : α) (l : List α) : (l.splitOn c).length = l.count c + 1 := by
  induction l with
  | nil => rfl
  | cons x l ih =>
    by_cases h : x = c
    · subst h
      change (([] ++ x :: l).splitOn x).length = _
      rw [splitOn_append_cons, List.length_append, ih, List.count_cons_self]
      exact Nat.add_comm _ _
    · have hsplit : (x :: l).splitOn c = (l.splitOn c).modifyHead (List.cons x) := by
        have hp : (x == c) = false := by simpa using h
        have hcons := List.splitOnP_cons_eq_if_modifyHead (p := fun y => y == c) x l
        rw [hp] at hcons
        exact hcons
      rw [hsplit, List.length_modifyHead, ih, List.count_cons_of_ne h]

/-- The segments of joined texts are those of the texts. -/
theorem splitOn_intercalate : ∀ {fields : List (List α)}, fields ≠ [] →
    ([c].intercalate fields).splitOn c = fields.flatMap (·.splitOn c)
  | [], h => absurd rfl h
  | [field], _ => by simp
  | field :: next :: fields, _ => by
      rw [List.intercalate_cons_cons, List.append_assoc, List.singleton_append, splitOn_append_cons,
        splitOn_intercalate (List.cons_ne_nil next fields)]
      rfl

theorem intercalate_eq_iff {fields fields' : List (List α)} (h : fields ≠ []) (h' : fields' ≠ []) :
    [c].intercalate fields = [c].intercalate fields' ↔ fields.flatMap (·.splitOn c) = fields'.flatMap (·.splitOn c) := by
  rw [← splitOn_intercalate h, ← splitOn_intercalate h']
  exact ⟨congrArg _, splitOn_injective⟩

theorem exists_segment {x : α} (hx : x ∈ l) (hne : x ≠ c) : ∃ segment ∈ l.splitOn c, x ∈ segment := by
  have hjoined : ∀ fields : List (List α), x ∈ [c].intercalate fields → ∃ segment ∈ fields, x ∈ segment := by
    intro fields
    induction fields with
    | nil => simp
    | cons field fields ih =>
      cases fields with
      | nil => simp
      | cons next fields =>
        intro h
        rw [List.intercalate_cons_cons, List.append_assoc, List.mem_append, List.singleton_append, List.mem_cons] at h
        rcases h with h | h | h
        · exact ⟨field, List.mem_cons_self, h⟩
        · exact absurd h hne
        · obtain ⟨segment, hmem, hx⟩ := ih h
          exact ⟨segment, List.mem_cons_of_mem field hmem, hx⟩
  have hback : [c].intercalate (l.splitOn c) = l := List.intercalate_splitOn c
  rw [← hback] at hx
  exact hjoined _ hx

theorem decimal_injective {m n : ℕ} (h : toString m = toString n) : m = n := by
  rw [Nat.toString_eq_repr, Nat.toString_eq_repr] at h
  have hdigits : Nat.toDigits 10 m = Nat.toDigits 10 n := by
    rw [← Nat.toList_repr, ← Nat.toList_repr, h]
  have hvalue := congrArg (fun l => Nat.ofDigitChars 10 l 0) hdigits
  simpa only [Nat.ofDigitChars_ten_toDigits] using hvalue

theorem not_mem_decimal {c : Char} (hc : c.isDigit = false) (n : ℕ) : c ∉ (toString n).toList := by
  intro h
  have hdigit := Nat.isDigit_of_mem_toDigits (b := 10) (n := n) (c := c) (by decide) (by decide) (by simpa using h)
  rw [hc] at hdigit
  cases hdigit

/-- With as many separators, the first text is told from what follows. -/
theorem append_splitOn_inj {s s' : List (List α)} (hcount : l.count c = l'.count c) :
    l.splitOn c ++ s = l'.splitOn c ++ s' ↔ l = l' ∧ s = s' := by
  constructor
  · intro h
    have hlength : (l.splitOn c).length = (l'.splitOn c).length := by rw [length_splitOn, length_splitOn, hcount]
    obtain ⟨hl, hs⟩ := List.append_inj h hlength
    exact ⟨splitOn_injective hl, hs⟩
  · rintro ⟨rfl, rfl⟩
    rfl

end Experiential
