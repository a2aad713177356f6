import Experiential.Lib.Checked
import Experiential.Lib.Json
import Mathlib.Algebra.Group.Nat.Defs
import Mathlib.Data.List.Forall2

/-! # Reading a JSON text

What the readers of `loads` take off a text that was written: a string literal its string, a number its digits, a
container the items between its commas. Each lemma is about the text with anything behind it that cannot continue a
number, so that the next one applies where it stopped. -/

namespace Experiential.Py

variable {F : Type}

/-! ### Strings -/

/-- Below the surrogates every number is the character it came from. -/
theorem CodePoint.ofNat_toNat {c : CodePoint} (h : c.toNat < 0xD800) : ofNat c.toNat = c := by
  cases c with
  | scalar c =>
    have h' : c.toNat < 0xD800 := h
    have hout : ¬(0xD800 ≤ c.toNat ∧ c.toNat < 0xE000) := by omega
    change ofNat c.toNat = _
    rw [ofNat, dif_neg hout, Char.ofNat_toNat]
  | surrogate n =>
    have h' : 0xD800 + n.val < 0xD800 := h
    omega

theorem hex4_hexDigits : ∀ n < 0x20, hex4 '0' '0' (n / 16).digitChar (n % 16).digitChar = .ok n := by
  decide

theorem scanString_quote (s : PyStr) : scanString (.scalar '"' :: s) = .ok ([], s) := by
  rw [scanString.eq_def]
  exact if_pos rfl

section literal
variable {c e : CodePoint} {s t rest : PyStr}

theorem scanString_plain (quote : c ≠ .scalar '"') (backslash : c ≠ .scalar '\\') (control : ¬c.toNat < 0x20)
    (h : scanString s = .ok (t, rest)) : scanString (c :: s) = .ok (c :: t, rest) := by
  rw [scanString.eq_def]
  simp only [if_neg quote, if_neg backslash, if_neg control, h]
  rfl

theorem scanString_simple (hu : e ≠ .scalar 'u') (he : simpleEscape e = .ok c) (h : scanString s = .ok (t, rest)) :
    scanString (.scalar '\\' :: e :: s) = .ok (c :: t, rest) := by
  have hquote : CodePoint.scalar '\\' ≠ .scalar '"' := by decide
  rw [scanString.eq_def]
  simp only [if_neg hquote, if_true, if_neg hu, he, h]
  rfl

/-- A `\u` escape that is no first half of a pair: no second half is looked for. -/
theorem scanString_unicode {x₁ x₂ x₃ x₄ : CodePoint} {n : Nat} (hn : hex4 x₁ x₂ x₃ x₄ = .ok n) (hlow : n < 0xD800)
    (h : scanString s = .ok (t, rest)) :
    scanString (.scalar '\\' :: .scalar 'u' :: x₁ :: x₂ :: x₃ :: x₄ :: s) = .ok (.ofNat n :: t, rest) := by
  have hquote : CodePoint.scalar '\\' ≠ .scalar '"' := by decide
  have hhigh : ¬(0xD800 ≤ n ∧ n < 0xDC00) := by omega
  rw [scanString.eq_def]
  simp only [if_neg hquote, if_true, hn]
  change (scanString s >>= fun r => _) = _
  rw [h]
  dsimp only [bind, Except.bind]
  rw [if_neg hhigh]
  rfl

/-- One character of a string literal, as written, reads back as that character. -/
theorem scanString_escape (c : CodePoint) (h : scanString s = .ok (t, rest)) :
    scanString (escape c ++ s) = .ok (c :: t, rest) := by
  unfold escape
  split_ifs with quote backslash newline cr tab ff bs control
  iterate 7
    · subst c
      exact scanString_simple (by decide) rfl h
  · have hn := hex4_hexDigits c.toNat control
    have hc : CodePoint.ofNat c.toNat = c := CodePoint.ofNat_toNat (by omega)
    have hread := scanString_unicode hn (by omega) h
    rw [hc] at hread
    exact hread
  · exact scanString_plain quote backslash control h

/-- A string literal reads back as the string, and what follows its closing quote is left. -/
theorem scanString_quoted (s rest : PyStr) : scanString (s.flatMap escape ++ .scalar '"' :: rest) = .ok (s, rest) := by
  induction s with
  | nil => exact scanString_quote rest
  | cons c s ih =>
    rw [List.flatMap_cons, List.append_assoc]
    exact scanString_escape c ih

end literal

/-! ### Numbers -/

namespace NumberText

/-- One zero, or digits that do not start with one. -/
def IntDigits : List Char → Prop
  | [] => False
  | c :: cs => c.isDigit = true ∧ (∀ d ∈ cs, d.isDigit = true) ∧ (c = '0' → cs = [])

/-- A letter, perhaps a sign, and digits. -/
def Exponent : List Char → Prop
  | [] => False
  | e :: s => (e = 'e' ∨ e = 'E') ∧ ∃ sign ds, s = sign ++ ds ∧ (sign = [] ∨ sign = ['+'] ∨ sign = ['-']) ∧ ds ≠ [] ∧
      ∀ d ∈ ds, d.isDigit = true

/-- The grammar of a JSON number. -/
structure Valid (n : NumberText) : Prop where
  int : IntDigits n.int
  frac : ∀ d ∈ n.frac, d.isDigit = true
  exp : n.exp ≠ [] → Exponent n.exp

def chars (n : NumberText) : List Char :=
  (if n.negative then ['-'] else []) ++ n.int ++ (if n.frac = [] then [] else '.' :: n.frac) ++ n.exp

def text (n : NumberText) : PyStr := n.chars.map .scalar

theorem Valid.int_eq {n : NumberText} (hn : n.Valid) : ∃ c cs, n.int = c :: cs ∧ c.isDigit = true := by
  have hint := hn.int
  cases h : n.int with
  | nil =>
    rw [h] at hint
    exact hint.elim
  | cons c cs =>
    rw [h] at hint
    exact ⟨c, cs, rfl, hint.1⟩

/-- A minus or a digit, and after a minus a digit. -/
theorem Valid.text_eq {n : NumberText} (hn : n.Valid) :
    ∃ c s, c.isDigit = true ∧ (n.text = .scalar c :: s ∨ n.text = .scalar '-' :: .scalar c :: s) := by
  obtain ⟨c, cs, hint, hc⟩ := hn.int_eq
  refine ⟨c, (cs ++ (if n.frac = [] then [] else '.' :: n.frac) ++ n.exp).map .scalar, hc, ?_⟩
  cases h : n.negative with
  | true => exact .inr (by simp [text, chars, hint, h])
  | false => exact .inl (by simp [text, chars, hint, h])

end NumberText

/-- No digit comes first. -/
def NoDigit (rest : PyStr) : Prop := ∀ c ∈ rest.head?, c.isDigit = false

/-- What follows a value cannot continue a number. -/
def EndsNumber (rest : PyStr) : Prop :=
  ∀ c ∈ rest.head?, c.isDigit = false ∧ c ≠ .scalar '.' ∧ c ≠ .scalar 'e' ∧ c ≠ .scalar 'E'

section number
variable {ds : List Char} {rest : PyStr}

theorem EndsNumber.noDigit (h : EndsNumber rest) : NoDigit rest := fun c hc => (h c hc).1

theorem endsNumber_nil : EndsNumber [] := nofun

theorem noDigit_cons {c : CodePoint} (s : PyStr) (h : c.isDigit = false) : NoDigit (c :: s) := by
  intro d hd
  rw [Option.mem_some.mp hd] at h
  exact h

theorem digitRun_of_noDigit (h : NoDigit rest) : digitRun rest = ([], rest) := by
  cases rest with
  | nil => rfl
  | cons c s =>
    have hc := h c rfl
    cases c with
    | surrogate n => rfl
    | scalar c =>
      have hc : c.isDigit = false := hc
      rw [digitRun, hc]
      rfl

theorem digitRun_append (hds : ∀ d ∈ ds, d.isDigit = true) (hr : NoDigit rest) :
    digitRun (ds.map .scalar ++ rest) = (ds, rest) := by
  induction ds with
  | nil => exact digitRun_of_noDigit hr
  | cons d ds ih =>
    have hrun := ih fun c hc => hds c (List.mem_cons_of_mem d hc)
    rw [List.map_cons, List.cons_append, digitRun, if_pos (hds d List.mem_cons_self), hrun]

theorem ne_of_isDigit {c d : Char} (hc : c.isDigit = true) (hd : d.isDigit = false) :
    CodePoint.scalar c ≠ .scalar d := by
  rintro ⟨⟩
  rw [hc] at hd
  cases hd

theorem intPart_append (hds : NumberText.IntDigits ds) (hr : NoDigit rest) :
    intPart (ds.map .scalar ++ rest) = .ok (ds, rest) := by
  cases ds with
  | nil => exact hds.elim
  | cons c cs =>
    obtain ⟨hc, hcs, hzero⟩ := hds
    by_cases h0 : c = '0'
    · rw [hzero h0, h0]
      rfl
    · have hrun : digitRun ((c :: cs).map .scalar ++ rest) = (c :: cs, rest) :=
        digitRun_append (List.forall_mem_cons.mpr ⟨hc, hcs⟩) hr
      have hne : CodePoint.scalar c ≠ .scalar '0' := by simpa using h0
      rw [List.map_cons, List.cons_append] at hrun ⊢
      rw [intPart, if_neg hne, hrun]
      rfl

theorem fracPart_append (hds : ∀ d ∈ ds, d.isDigit = true) (hr : NoDigit rest)
    (hpoint : ds = [] → rest.head? ≠ some (.scalar '.')) :
    fracPart ((if ds = [] then [] else '.' :: ds).map .scalar ++ rest) = (ds, rest) := by
  cases ds with
  | nil =>
    cases rest with
    | nil => rfl
    | cons c rest =>
      have hc : c ≠ .scalar '.' := by simpa using hpoint rfl
      exact if_neg fun h => hc h.1
  | cons d ds =>
    have hrun := digitRun_append hds hr
    have hne : d :: ds ≠ [] := List.cons_ne_nil d ds
    rw [if_neg hne, List.map_cons, List.cons_append, fracPart, hrun]
    exact if_pos ⟨rfl, hne⟩

theorem exponentSign_append {sign : List Char} (hsign : sign = [] ∨ sign = ['+'] ∨ sign = ['-']) (hne : ds ≠ [])
    (hds : ∀ d ∈ ds, d.isDigit = true) :
    exponentSign ((sign ++ ds).map .scalar ++ rest) = (sign, ds.map .scalar ++ rest) := by
  obtain rfl | rfl | rfl := hsign
  · cases ds with
    | nil => exact (hne rfl).elim
    | cons d ds =>
      have hd := hds d List.mem_cons_self
      have hplus : CodePoint.scalar d ≠ .scalar '+' := ne_of_isDigit hd rfl
      have hminus : CodePoint.scalar d ≠ .scalar '-' := ne_of_isDigit hd rfl
      exact (if_neg hplus).trans (if_neg hminus)
  · rfl
  · rfl

theorem expPart_append {e : List Char} (he : e ≠ [] → NumberText.Exponent e) (hr : EndsNumber rest) :
    expPart (e.map .scalar ++ rest) = (e, rest) := by
  cases e with
  | nil =>
    cases rest with
    | nil => rfl
    | cons c rest =>
      obtain ⟨-, -, hlower, hupper⟩ := hr c rfl
      cases c with
      | surrogate n => rfl
      | scalar c =>
        have hletter : ¬(c = 'e' ∨ c = 'E') := by
          rintro (rfl | rfl)
          · exact hlower rfl
          · exact hupper rfl
        exact if_neg fun h => hletter h.1
  | cons x s =>
    obtain ⟨hx, sign, ds, rfl, hsign, hne, hds⟩ := he (List.cons_ne_nil x s)
    rw [List.map_cons, List.cons_append, expPart, exponentSign_append hsign hne hds, digitRun_append hds hr.noDigit]
    exact if_pos ⟨hx, hne⟩

theorem minusSign_append {b : Bool} {c : Char} {s : PyStr} (hc : c.isDigit = true) :
    minusSign ((if b then ['-'] else []).map .scalar ++ .scalar c :: s) = (b, .scalar c :: s) := by
  cases b with
  | true => rfl
  | false => exact if_neg (ne_of_isDigit hc rfl)

/-- Behind the fraction comes an exponent's letter, or what follows the number. -/
theorem exponent_follows {exp : List Char} (he : exp ≠ [] → NumberText.Exponent exp) (hr : EndsNumber rest) :
    ∀ c ∈ (exp.map CodePoint.scalar ++ rest).head?, c.isDigit = false ∧ c ≠ .scalar '.' := by
  cases exp with
  | nil => exact fun c hc => ⟨(hr c hc).1, (hr c hc).2.1⟩
  | cons x s =>
    rintro c ⟨⟩
    obtain ⟨rfl | rfl, -⟩ := he (List.cons_ne_nil x s) <;> exact ⟨rfl, by decide⟩

theorem scanNumber_text {n : NumberText} (hn : n.Valid) (hr : EndsNumber rest) :
    scanNumber (n.text ++ rest) = .ok (n, rest) := by
  obtain ⟨c, cs, hint, hc⟩ := hn.int_eq
  obtain ⟨negative, int, frac, exp⟩ := n
  obtain rfl : int = c :: cs := hint
  have hafter := exponent_follows hn.exp hr
  -- what is left behind the exponent, the fraction and the integer digits
  have hexp := expPart_append hn.exp hr
  generalize hs₁ : exp.map CodePoint.scalar ++ rest = s₁ at hafter hexp
  have hfrac := fracPart_append hn.frac (fun d hd => (hafter d hd).1) fun _ h => (hafter _ h).2 rfl
  generalize hs₂ : (if frac = [] then [] else '.' :: frac).map CodePoint.scalar ++ s₁ = s₂ at hfrac
  have hs₂' : NoDigit s₂ := by
    subst s₂
    by_cases h : frac = []
    · rw [if_pos h]
      exact fun d hd => (hafter d hd).1
    · rw [if_neg h]
      exact noDigit_cons _ rfl
  have hint := intPart_append hn.int hs₂'
  have hminus : minusSign ((if negative then ['-'] else []).map .scalar ++ .scalar c :: (cs.map .scalar ++ s₂)) =
      (negative, .scalar c :: (cs.map .scalar ++ s₂)) := minusSign_append hc
  have htext : NumberText.text ⟨negative, c :: cs, frac, exp⟩ ++ rest =
      (if negative then ['-'] else []).map .scalar ++ .scalar c :: (cs.map .scalar ++ s₂) := by
    simp [NumberText.text, NumberText.chars, ← hs₂, ← hs₁]
  rw [List.map_cons, List.cons_append] at hint
  rw [scanNumber, htext, hminus, hint]
  refine bind_eq_ok.mpr ⟨_, rfl, ?_⟩
  simp only [hfrac, hexp, pure_eq_ok]

end number

/-! ### Integers and floats -/

/-- The number an integer is written as. -/
def intNumber (n : Int) : NumberText := ⟨decide (n < 0), Nat.toDigits 10 n.natAbs, [], []⟩

theorem intNumber_text (n : Int) : (intNumber n).text = intText n := by
  by_cases h : n < 0 <;> simp [NumberText.text, NumberText.chars, intNumber, intText, Py.text_eq, h]

theorem head_toDigits {m : Nat} (hm : 0 < m) : (Nat.toDigits 10 m).head? ≠ some '0' := by
  induction m using Nat.strongRecOn with
  | ind m ih =>
    rw [Nat.toDigits_eq_if (by decide)]
    split_ifs with hlt
    · simpa using Nat.pos_iff_ne_zero.mp hm
    · rw [List.head?_append_of_ne_nil _ Nat.toDigits_ne_nil]
      exact ih (m / 10) (by omega) (by omega)

theorem intNumber_valid (n : Int) : (intNumber n).Valid := by
  refine ⟨?_, by simp [intNumber], fun h => (h rfl).elim⟩
  have hdigit : ∀ c ∈ Nat.toDigits 10 n.natAbs, c.isDigit = true := fun c hc =>
    Nat.isDigit_of_mem_toDigits (by decide) (by decide) hc
  change NumberText.IntDigits (Nat.toDigits 10 n.natAbs)
  rcases Nat.eq_zero_or_pos n.natAbs with h0 | hpos
  · rw [h0]
    exact ⟨by decide, by simp, fun _ => rfl⟩
  · have hhead := head_toDigits hpos
    cases h : Nat.toDigits 10 n.natAbs with
    | nil => exact (Nat.toDigits_ne_nil h).elim
    | cons c cs =>
      rw [h] at hdigit hhead
      refine ⟨hdigit c List.mem_cons_self, fun d hd => hdigit d (List.mem_cons_of_mem c hd), fun hc => ?_⟩
      exact (hhead (by simp [hc])).elim

/-- An integer whose digits `int` reads. -/
def ShortInt (n : Int) : Prop := (Nat.toDigits 10 n.natAbs).length ≤ intMaxStrDigits

theorem numberOf_intNumber (rt : Runtime F) {n : Int} (h : ShortInt n) : numberOf rt (intNumber n) = .ok (.int n) := by
  have hint : ¬((intNumber n).frac ≠ [] ∨ (intNumber n).exp ≠ []) := by simp [intNumber]
  rw [numberOf, if_neg hint]
  refine (if_pos h).trans ?_
  simp only [intNumber, Nat.ofDigitChars_ten_toDigits, decide_eq_true_eq]
  split_ifs <;> congr 2 <;> omega

theorem ofDigitChars_lt {ds : List Char} (hds : ∀ d ∈ ds, d.isDigit = true) (m : Nat) :
    Nat.ofDigitChars 10 ds m < (m + 1) * 10 ^ ds.length := by
  induction ds generalizing m with
  | nil => simp
  | cons d ds ih =>
    have hd : d.toNat - '0'.toNat < 10 := by
      have hdigit := hds d List.mem_cons_self
      simp only [Char.isDigit, Bool.and_eq_true, decide_eq_true_eq] at hdigit
      have hle : d.toNat ≤ '9'.toNat := hdigit.2
      have hnine : '9'.toNat = '0'.toNat + 9 := rfl
      omega
    have hlt := ih (fun c hc => hds c (List.mem_cons_of_mem d hc)) (10 * m + (d.toNat - '0'.toNat))
    rw [Nat.ofDigitChars_cons, List.length_cons, Nat.pow_succ']
    calc Nat.ofDigitChars 10 ds (10 * m + (d.toNat - '0'.toNat))
        < (10 * m + (d.toNat - '0'.toNat) + 1) * 10 ^ ds.length := hlt
      _ ≤ (m + 1) * 10 * 10 ^ ds.length := Nat.mul_le_mul_right _ (by omega)
      _ = (m + 1) * (10 * 10 ^ ds.length) := Nat.mul_assoc _ _ _

theorem length_toDigits_le {ds : List Char} (hds : ∀ d ∈ ds, d.isDigit = true) (hne : ds ≠ []) :
    (Nat.toDigits 10 (Nat.ofDigitChars 10 ds 0)).length ≤ ds.length := by
  have hlt := ofDigitChars_lt hds 0
  rw [Nat.zero_add, Nat.one_mul] at hlt
  exact (Nat.length_toDigits_le_iff (by decide) (List.length_pos_of_ne_nil hne)).mpr hlt

/-- Python's three floats that are written as words. -/
def floatWords (rt : Runtime F) : List (List Char × F) :=
  [("NaN".toList, rt.nan), ("Infinity".toList, rt.infinity), ("-Infinity".toList, rt.negInfinity)]

/-- `float(repr(x)) == x` -/
def Runtime.FloatsReadBack (rt : Runtime F) : Prop :=
  ∀ x, (rt.floatText x, x) ∈ floatWords rt ∨
    ∃ n : NumberText, n.Valid ∧ (n.frac ≠ [] ∨ n.exp ≠ []) ∧ n.chars = rt.floatText x ∧ rt.floatOf n = x

/-! ### Scalars -/

/-- What a value may start with: no white space and no closing bracket. -/
def Opens (t : PyStr) : Prop :=
  ∃ c s, t = c :: s ∧ isWhitespace c = false ∧ c ≠ .scalar ']' ∧ c ≠ .scalar '\x7d'

theorem Opens.append {t : PyStr} (h : Opens t) (s : PyStr) : Opens (t ++ s) := by
  obtain ⟨c, t, rfl, hc⟩ := h
  exact ⟨c, t ++ s, rfl, hc⟩

theorem skipWhitespace_opens {t : PyStr} (h : Opens t) : skipWhitespace t = t := by
  obtain ⟨c, s, rfl, hc, -⟩ := h
  simp [skipWhitespace, hc]

theorem isWhitespace_of_isDigit {c : Char} (hc : c.isDigit = true) : isWhitespace (.scalar c) = false := by
  have hne : ∀ d : Char, d.isDigit = false → ¬c = d := by
    rintro d hd rfl
    rw [hc] at hd
    cases hd
  simp [isWhitespace, text_eq, hne]

theorem NumberText.Valid.opens {n : NumberText} (hn : n.Valid) : Opens n.text := by
  obtain ⟨c, s, hc, h | h⟩ := hn.text_eq
  · exact ⟨_, s, h, isWhitespace_of_isDigit hc, ne_of_isDigit hc rfl, ne_of_isDigit hc rfl⟩
  · exact ⟨_, _, h, rfl, by decide, by decide⟩

theorem opens_quote (s : PyStr) : Opens (quote s) := ⟨_, _, rfl, rfl, by decide, by decide⟩

/-- `item` reads the text as the value. -/
structure Reads {α : Type} (item : Scan α) (t : PyStr) (x : α) : Prop where
  opens : Opens t
  read : ∀ rest, EndsNumber rest → item (t ++ rest) = .ok (x, rest)

section scalar
variable {rt : Runtime F}

theorem scanOnce_scalar {c : CodePoint} {s : PyStr} (hlist : c ≠ .scalar '[') (hdict : c ≠ .scalar '\x7b')
    (depth : Nat) : scanOnce rt depth (c :: s) = scanScalar rt (c :: s) := by
  cases depth with
  | zero => exact if_neg (not_or.mpr ⟨hlist, hdict⟩)
  | succ depth => exact (if_neg hlist).trans (if_neg hdict)

theorem constants_number (rt : Runtime F) {n : NumberText} (hn : n.Valid) (rest : PyStr) :
    (constants rt).find? (fun w => w.1.isPrefixOf (n.text ++ rest)) = none := by
  obtain ⟨c, s, hc, h⟩ := hn.text_eq
  have hne : ∀ d : Char, d.isDigit = false → ¬d = c := by
    rintro d hd rfl
    rw [hc] at hd
    cases hd
  obtain h | h := h <;> simp [h, constants, text_eq, List.isPrefixOf, hne]

theorem reads_number {n : NumberText} {v : Json F} (hn : n.Valid) (hv : numberOf rt n = .ok v) (depth : Nat) :
    Reads (scanOnce rt depth) n.text v := by
  refine ⟨hn.opens, fun rest hr => ?_⟩
  have hconst := constants_number rt hn rest
  have hnum := scanNumber_text hn hr
  have hscalar : ∀ c s, n.text ++ rest = c :: s → c ≠ .scalar '"' →
      scanScalar rt (c :: s) = .ok (v, rest) := by
    intro c s h hquote
    rw [h] at hconst hnum
    rw [scanScalar, if_neg hquote, hconst]
    refine bind_eq_ok.mpr ⟨_, hnum, bind_eq_ok.mpr ⟨v, hv, rfl⟩⟩
  obtain ⟨c, s, hc, h⟩ := hn.text_eq
  have hne : ∀ d : Char, d.isDigit = false → CodePoint.scalar c ≠ .scalar d := fun d => ne_of_isDigit hc
  rcases h with h | h
  · have htext : n.text ++ rest = .scalar c :: (s ++ rest) := by rw [h, List.cons_append]
    rw [htext, scanOnce_scalar (hne _ rfl) (hne _ rfl)]
    exact hscalar _ _ htext (hne _ rfl)
  · have htext : n.text ++ rest = .scalar '-' :: .scalar c :: (s ++ rest) := by rw [h, List.cons_append, List.cons_append]
    rw [htext, scanOnce_scalar (by decide) (by decide)]
    exact hscalar _ _ htext (by decide)

theorem reads_string (depth : Nat) (s : PyStr) : Reads (scanOnce rt depth) (quote s) (.str s) := by
  refine ⟨opens_quote s, fun rest _ => ?_⟩
  have htext : quote s ++ rest = .scalar '"' :: (s.flatMap escape ++ .scalar '"' :: rest) := by
    rw [quote, List.cons_append, List.append_assoc, List.singleton_append]
  rw [htext, scanOnce_scalar (by decide) (by decide), scanScalar, if_pos rfl]
  exact bind_eq_ok.mpr ⟨_, scanString_quoted s rest, rfl⟩

theorem reads_word {w : PyStr} {v : Json F} (hopens : Opens w) (hplain : ∀ c ∈ w.head?, c ∉ text "\"[\x7b")
    (hfind : ∀ rest, (constants rt).find? (fun e => e.1.isPrefixOf (w ++ rest)) = some (w, v)) (depth : Nat) :
    Reads (scanOnce rt depth) w v := by
  refine ⟨hopens, fun rest _ => ?_⟩
  obtain ⟨c, s, rfl, -⟩ := hopens
  have hc := hplain c rfl
  simp only [text_eq, List.mem_map, not_exists, not_and] at hc
  have hquote : c ≠ .scalar '"' := fun h => hc '"' (by decide) h.symm
  have hlist : c ≠ .scalar '[' := fun h => hc '[' (by decide) h.symm
  have hdict : c ≠ .scalar '\x7b' := fun h => hc '\x7b' (by decide) h.symm
  rw [List.cons_append, scanOnce_scalar hlist hdict, scanScalar, if_neg hquote, ← List.cons_append, hfind rest]
  change Except.ok (v, ((c :: s) ++ rest).drop (c :: s).length) = _
  rw [List.drop_left]

theorem opens_constant {w : PyStr} {v : Json F} (h : (w, v) ∈ constants rt) :
    Opens w ∧ ∀ c ∈ w.head?, c ∉ text "\"[\x7b" := by
  simp only [constants, List.mem_cons, Prod.mk.injEq, List.not_mem_nil, or_false] at h
  obtain ⟨rfl, -⟩ | ⟨rfl, -⟩ | ⟨rfl, -⟩ | ⟨rfl, -⟩ | ⟨rfl, -⟩ | ⟨rfl, -⟩ := h <;>
    exact ⟨⟨_, _, rfl, by decide, by decide, by decide⟩, by decide⟩

theorem reads_constant {w : PyStr} {v : Json F} (h : (w, v) ∈ constants rt) (depth : Nat) :
    Reads (scanOnce rt depth) w v := by
  refine reads_word (opens_constant h).1 (opens_constant h).2 (fun rest => ?_) depth
  simp only [constants, List.mem_cons, Prod.mk.injEq, List.not_mem_nil, or_false] at h
  obtain ⟨rfl, rfl⟩ | ⟨rfl, rfl⟩ | ⟨rfl, rfl⟩ | ⟨rfl, rfl⟩ | ⟨rfl, rfl⟩ | ⟨rfl, rfl⟩ := h <;>
    simp [constants, text_eq, List.isPrefixOf]

theorem reads_int {n : Int} (h : ShortInt n) (depth : Nat) : Reads (scanOnce rt depth) (intText n) (.int n) := by
  have hread := reads_number (intNumber_valid n) (numberOf_intNumber rt h) depth
  rw [intNumber_text] at hread
  exact hread

theorem reads_float (hfloats : rt.FloatsReadBack) (x : F) (depth : Nat) :
    Reads (scanOnce rt depth) ((rt.floatText x).map .scalar) (.float x) := by
  rcases hfloats x with hword | ⟨n, hn, hfloat, hchars, rfl⟩
  · refine reads_constant ?_ depth
    simp only [floatWords, List.mem_cons, Prod.mk.injEq, List.not_mem_nil, or_false] at hword
    rcases hword with ⟨htext, rfl⟩ | ⟨htext, rfl⟩ | ⟨htext, rfl⟩ <;> rw [htext] <;> simp [constants, text_eq]
  · rw [← hchars]
    exact reads_number hn (if_pos hfloat) depth

end scalar

/-! ### What a reader raises -/

/-- `JSONDecodeError`, the `ValueError` for an integer of too many digits, or `RecursionError`. -/
def IsReadError (e : PyError) : Prop := e = .jsonDecode ∨ e = .value ∨ e = .recursion

theorem raises_jsonDecode {α : Type} : RaisesOnly IsReadError (.error .jsonDecode : Except PyError α) :=
  RaisesOnly.error (.inl rfl)

theorem hexDigit_raises (c : CodePoint) : RaisesOnly IsReadError (hexDigit c) := by
  unfold hexDigit
  split
  · split_ifs
    any_goals exact RaisesOnly.ok _
    exact raises_jsonDecode
  · exact raises_jsonDecode

theorem hex4_raises (a b c d : CodePoint) : RaisesOnly IsReadError (hex4 a b c d) := by
  unfold hex4
  refine (hexDigit_raises a).bind fun _ _ => (hexDigit_raises b).bind fun _ _ => ?_
  exact (hexDigit_raises c).bind fun _ _ => (hexDigit_raises d).bind fun _ _ => RaisesOnly.pure _

theorem simpleEscape_raises (c : CodePoint) : RaisesOnly IsReadError (simpleEscape c) := by
  unfold simpleEscape
  split
  · exact RaisesOnly.ok _
  · exact raises_jsonDecode

theorem scanString_raises (s : PyStr) : RaisesOnly IsReadError (scanString s) := by
  fun_induction scanString s with
  | case2 => exact RaisesOnly.ok _
  | case4 =>
    rename_i ih
    refine (hex4_raises _ _ _ _).bind fun _ _ => ih.bind fun _ _ => ?_
    dsimp only
    split <;> exact RaisesOnly.pure _
  | case6 =>
    rename_i ih
    exact (simpleEscape_raises _).bind fun _ _ => ih.bind fun _ _ => RaisesOnly.pure _
  | case8 _ _ _ _ _ ih => exact ih.bind fun _ _ => RaisesOnly.pure _
  | _ => exact raises_jsonDecode

theorem scanNumber_raises (s : PyStr) : RaisesOnly IsReadError (scanNumber s) := by
  have hint : ∀ s, RaisesOnly IsReadError (intPart s) := by
    intro s
    unfold intPart
    split
    · exact raises_jsonDecode
    · split_ifs
      · exact RaisesOnly.ok _
      · exact raises_jsonDecode
      · exact RaisesOnly.ok _
  unfold scanNumber
  exact (hint _).bind fun _ _ => RaisesOnly.pure _

theorem scanScalar_raises (rt : Runtime F) (s : PyStr) : RaisesOnly IsReadError (scanScalar rt s) := by
  have hnumber : ∀ n, RaisesOnly IsReadError (numberOf rt n) := by
    intro n
    unfold numberOf
    split_ifs
    any_goals exact RaisesOnly.ok _
    exact RaisesOnly.error (.inr (.inl rfl))
  cases s with
  | nil => exact raises_jsonDecode
  | cons c s =>
    unfold scanScalar
    dsimp only
    split_ifs
    · exact (scanString_raises s).bind fun _ _ => RaisesOnly.pure _
    · split
      · exact RaisesOnly.ok _
      · exact (scanNumber_raises _).bind fun n _ => (hnumber n.1).bind fun _ _ => RaisesOnly.pure _

theorem scanItems_raises {α : Type} {item : Scan α} {close : CodePoint} (h : ∀ s, RaisesOnly IsReadError (item s)) :
    ∀ (fuel : Nat) (s : PyStr), RaisesOnly IsReadError (scanItems item close fuel s)
  | 0, _ => raises_jsonDecode
  | fuel + 1, s => by
      have hseparator : ∀ s, RaisesOnly IsReadError (separator close s) := by
        intro s
        unfold separator
        split
        · exact raises_jsonDecode
        · split_ifs
          any_goals exact RaisesOnly.ok _
          exact raises_jsonDecode
      unfold scanItems
      refine (h s).bind fun _ _ => (hseparator _).bind fun _ _ => ?_
      dsimp only
      split_ifs
      · exact (scanItems_raises h fuel _).bind fun _ _ => RaisesOnly.pure _
      · exact RaisesOnly.pure _

theorem scanBody_raises {α : Type} {item : Scan α} {close : CodePoint} (h : ∀ s, RaisesOnly IsReadError (item s)) (s : PyStr) :
    RaisesOnly IsReadError (scanBody item close s) := by
  unfold scanBody
  split
  · exact raises_jsonDecode
  · split_ifs
    · exact RaisesOnly.ok _
    · exact scanItems_raises h _ _

theorem scanMember_raises {value : Scan (Json F)} (h : ∀ s, RaisesOnly IsReadError (value s)) (s : PyStr) :
    RaisesOnly IsReadError (scanMember value s) := by
  cases s with
  | nil => exact raises_jsonDecode
  | cons c s =>
    unfold scanMember
    dsimp only
    split_ifs
    · refine (scanString_raises s).bind fun _ _ => ?_
      split
      · exact raises_jsonDecode
      · split_ifs
        · exact (h _).bind fun _ _ => RaisesOnly.pure _
        · exact raises_jsonDecode
    · exact raises_jsonDecode

theorem scanOnce_raises (rt : Runtime F) : ∀ (depth : Nat) (s : PyStr), RaisesOnly IsReadError (scanOnce rt depth s)
  | 0, [] => raises_jsonDecode
  | _ + 1, [] => raises_jsonDecode
  | 0, c :: s => by
      unfold scanOnce
      split_ifs
      · exact RaisesOnly.error (.inr (.inr rfl))
      · exact scanScalar_raises rt _
  | depth + 1, c :: s => by
      unfold scanOnce
      split_ifs
      · exact (scanBody_raises (scanOnce_raises rt depth) s).bind fun _ _ => RaisesOnly.pure _
      · exact (scanBody_raises (scanMember_raises (scanOnce_raises rt depth)) s).bind fun _ _ => RaisesOnly.pure _
      · exact scanScalar_raises rt _

theorem loads_raises (rt : Runtime F) (s : PyStr) : RaisesOnly IsReadError (loads rt s) := by
  unfold loads
  split_ifs
  · exact raises_jsonDecode
  · unfold decodeDocument
    refine (scanOnce_raises rt _ _).bind fun _ _ => ?_
    dsimp only
    split_ifs
    · exact RaisesOnly.pure _
    · exact raises_jsonDecode

end Experiential.Py
