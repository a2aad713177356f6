import Mathlib.Data.List.DropRight
import Experiential.Lib.PyText

/-! # What `str` offers

White space, decimal digits and lower case as Python's tables have them, and the methods built on them. A letter
beyond ASCII keeps its case here, but for the two whose lower case begins in ASCII: no pattern looks at any other. -/

namespace Experiential.Py

namespace CodePoint

def between (a b : Char) (c : CodePoint) : Bool := decide (a.toNat ≤ c.toNat ∧ c.toNat ≤ b.toNat)

/-- `c.isspace()` -/
def isSpace (c : CodePoint) : Bool :=
  let n := c.toNat
  decide ((9 ≤ n ∧ n ≤ 13) ∨ (28 ≤ n ∧ n ≤ 32) ∨ n = 0x85 ∨ n = 0xA0 ∨ n = 0x1680 ∨ (0x2000 ≤ n ∧ n ≤ 0x200A) ∨
    n = 0x2028 ∨ n = 0x2029 ∨ n = 0x202F ∨ n = 0x205F ∨ n = 0x3000)

/-- The zeros of the scripts that have decimal digits; the other nine follow each of them. -/
def decimalZeros : List ℕ :=
  [0x30, 0x660, 0x6F0, 0x7C0, 0x966, 0x9E6, 0xA66, 0xAE6, 0xB66, 0xBE6, 0xC66, 0xCE6, 0xD66, 0xDE6, 0xE50, 0xED0,
    0xF20, 0x1040, 0x1090, 0x17E0, 0x1810, 0x1946, 0x19D0, 0x1A80, 0x1A90, 0x1B50, 0x1BB0, 0x1C40, 0x1C50, 0xA620,
    0xA8D0, 0xA900, 0xA9D0, 0xA9F0, 0xAA50, 0xABF0, 0xFF10, 0x104A0, 0x10D30, 0x11066, 0x110F0, 0x11136, 0x111D0,
    0x112F0, 0x11450, 0x114D0, 0x11650, 0x116C0, 0x11730, 0x118E0, 0x11950, 0x11C50, 0x11D50, 0x11DA0, 0x11F50,
    0x16A60, 0x16AC0, 0x16B50, 0x1D7CE, 0x1D7D8, 0x1D7E2, 0x1D7EC, 0x1D7F6, 0x1E140, 0x1E2F0, 0x1E4F0, 0x1E950,
    0x1FBF0]

/-- What `\d` matches. -/
def isDecimal (c : CodePoint) : Bool := decimalZeros.any fun z => decide (z ≤ c.toNat ∧ c.toNat < z + 10)

/-- The digits that are no decimal digits: superscripts, subscripts, and digits in circles, in parentheses or with a stop. -/
def digitRanges : List (ℕ × ℕ) :=
  [(0xB2, 0xB3), (0xB9, 0xB9), (0x1369, 0x1371), (0x19DA, 0x19DA), (0x2070, 0x2070), (0x2074, 0x2079), (0x2080, 0x2089),
    (0x2460, 0x2468), (0x2474, 0x247C), (0x2488, 0x2490), (0x24EA, 0x24EA), (0x24F5, 0x24FD), (0x24FF, 0x24FF),
    (0x2776, 0x277E), (0x2780, 0x2788), (0x278A, 0x2792), (0x10A40, 0x10A43), (0x10E60, 0x10E68), (0x11052, 0x1105A),
    (0x1F100, 0x1F10A)]

/-- `c.isdigit()` -/
def isUnicodeDigit (c : CodePoint) : Bool :=
  c.isDecimal || digitRanges.any fun r => decide (r.1 ≤ c.toNat ∧ c.toNat ≤ r.2)

/-- What ends a line for `str.splitlines`. -/
def isLineBreak (c : CodePoint) : Bool :=
  let n := c.toNat
  decide ((10 ≤ n ∧ n ≤ 13) ∨ (28 ≤ n ∧ n ≤ 30) ∨ n = 0x85 ∨ n = 0x2028 ∨ n = 0x2029)

/-- `c.lower()` -/
def lower (c : CodePoint) : PyStr :=
  if c.between 'A' 'Z' then [ofNat (c.toNat + 32)]
  else if c.toNat = 0x130 then [.scalar 'i', ofNat 0x307]
  else if c.toNat = 0x212A then [.scalar 'k']
  else [c]

theorem ofNat_toNat_scalar (c : Char) : (scalar c).toNat = c.toNat := rfl

theorem toNat_surrogate (n : Fin 2048) : (surrogate n).toNat = 0xD800 + n := rfl

theorem toNat_injective : Function.Injective toNat := by
  intro c d h
  cases c with
  | scalar c =>
    have hc := c.valid
    cases d with
    | scalar d => exact congrArg scalar (Char.toNat_inj.mp h)
    | surrogate n =>
      rw [ofNat_toNat_scalar, toNat_surrogate] at h
      have hn := n.isLt
      simp only [UInt32.isValidChar, Nat.isValidChar] at hc
      have hval : c.toNat = c.val.toNat := rfl
      omega
  | surrogate n =>
    have hn := n.isLt
    cases d with
    | scalar d =>
      have hd := d.valid
      rw [ofNat_toNat_scalar, toNat_surrogate] at h
      simp only [UInt32.isValidChar, Nat.isValidChar] at hd
      have hval : d.toNat = d.val.toNat := rfl
      omega
    | surrogate m =>
      rw [toNat_surrogate, toNat_surrogate] at h
      exact congrArg surrogate (Fin.ext (by omega))

theorem eq_scalar_iff {c : CodePoint} {ch : Char} : c = .scalar ch ↔ c.toNat = ch.toNat :=
  ⟨fun h => h ▸ rfl, fun h => toNat_injective h⟩

theorem between_iff {a b : Char} {c : CodePoint} : c.between a b = true ↔ a.toNat ≤ c.toNat ∧ c.toNat ≤ b.toNat :=
  decide_eq_true_iff

/-- What is no capital letter of ASCII and none of the two letters beyond it is its own lower case. -/
theorem lower_eq_self {c : CodePoint} (hupper : ¬c.between 'A' 'Z') (hi : c.toNat ≠ 0x130) (hk : c.toNat ≠ 0x212A) :
    c.lower = [c] := by
  rw [lower, if_neg hupper, if_neg hi, if_neg hk]

end CodePoint

/-! ### Methods -/

namespace Str

variable (s : PyStr)

/-- `s.lower()` -/
def lower : PyStr := s.flatMap CodePoint.lower

/-- `s.strip()` -/
def strip : PyStr := (s.dropWhile CodePoint.isSpace).rdropWhile CodePoint.isSpace

/-- `s.strip()` of a text without surrogates. -/
def stripText (s : String) : String :=
  let isSpace (c : Char) : Bool := (CodePoint.scalar c).isSpace
  String.ofList ((s.toList.dropWhile isSpace).rdropWhile isSpace)

/-- `s.split(c)` -/
def split (c : Char) : List PyStr := s.splitOn (CodePoint.scalar c)

/-- `c.join(parts)` -/
def join (c : Char) (parts : List PyStr) : PyStr := [CodePoint.scalar c].intercalate parts

/-- `s.isdigit()` -/
def isdigit : Bool := !s.isEmpty && s.all CodePoint.isUnicodeDigit

/-- The lines of a text behind what has been read of the first. -/
def linesFrom (line : PyStr) : PyStr → List PyStr
  | [] => if line.isEmpty then [] else [line]
  | .scalar '\r' :: .scalar '\n' :: s => line :: linesFrom [] s
  | c :: s => if c.isLineBreak then line :: linesFrom [] s else linesFrom (line ++ [c]) s

/-- `s.splitlines()` -/
def splitlines : List PyStr := linesFrom [] s

/-- `s.rpartition(c)` where `c` is in `s`: what is before the last one and what is behind it. -/
def rpartition (c : Char) : PyStr × PyStr :=
  (((s.reverse.dropWhile fun x => decide (x ≠ .scalar c)).drop 1).reverse,
    (s.reverse.takeWhile fun x => decide (x ≠ .scalar c)).reverse)

theorem stripText_eq_self {s : String} (h : ∀ c ∈ s.toList, (CodePoint.scalar c).isSpace = false) :
    stripText s = s := by
  unfold stripText
  dsimp only
  rw [List.dropWhile_eq_self_iff.mpr fun hpos => by simp [h _ (List.getElem_mem hpos)],
    List.rdropWhile_eq_self_iff.mpr fun hne => by simp [h _ (List.getLast_mem hne)], String.ofList_toList]

variable {s}

theorem lower_eq_self_of_forall : ∀ {s : PyStr}, (∀ c ∈ s, c.lower = [c]) → lower s = s
  | [], _ => rfl
  | c :: s, h => by
      obtain ⟨hc, hs⟩ := List.forall_mem_cons.mp h
      change c.lower ++ lower s = _
      rw [hc, lower_eq_self_of_forall hs]
      rfl

/-- A text without capital letters is its own lower case. -/
theorem lower_eq_self (h : ∀ c ∈ s, c.toNat < 128 ∧ ¬c.between 'A' 'Z') : lower s = s := by
  apply lower_eq_self_of_forall
  intro c hc
  obtain ⟨hascii, hupper⟩ := h c hc
  exact CodePoint.lower_eq_self hupper (by omega) (by omega)

theorem split_ne_nil (c : Char) (s : PyStr) : split s c ≠ [] := List.splitOn_ne_nil _ s

theorem join_split (c : Char) (s : PyStr) : join c (split s c) = s := List.intercalate_splitOn _

end Str

end Experiential.Py
