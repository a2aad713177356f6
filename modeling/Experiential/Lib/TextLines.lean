import Experiential.Lib.Checked
import Experiential.Lib.PyUnicode

/-! # Text line by line

A line feed is no part of a longer sequence of octets, so octets decode exactly when each of their lines does, and the
text is that of the lines. -/

namespace Experiential.Py

def lineFeed : UInt8 := 0x0A

@[simp] theorem isTail_lineFeed : isTail lineFeed = false := by decide

theorem decodeUtf8_lineFeed (surrogatepass : Bool) (s : Bytes) :
    decodeUtf8 surrogatepass (lineFeed :: s) = (decodeUtf8 surrogatepass s).map (.scalar '\n' :: ·) := by
  rw [decodeUtf8.eq_def]
  rfl

theorem bind_map_cons (c : CodePoint) (o p : Option PyStr) :
    (o.bind fun x => p.map fun y => x ++ .scalar '\n' :: y).map (c :: ·) =
      (o.map (c :: ·)).bind fun x => p.map fun y => x ++ .scalar '\n' :: y := by
  cases o <;> cases p <;> rfl

/-- Octets decode around a line feed as they do apart: a sequence that it cuts short is none. -/
theorem decodeUtf8_append (surrogatepass : Bool) (s t : Bytes) : decodeUtf8 surrogatepass (s ++ lineFeed :: t) =
    (decodeUtf8 surrogatepass s).bind fun x => (decodeUtf8 surrogatepass t).map fun y => x ++ .scalar '\n' :: y := by
  fun_induction decodeUtf8 surrogatepass s with
  | case1 => exact decodeUtf8_lineFeed surrogatepass t
  | case2 a s ascii ih =>
    rw [List.cons_append, decodeUtf8.eq_def]
    simp only [if_pos ascii, ih, bind_map_cons]
  | case3 a ascii two b s tail ih =>
    rw [List.cons_append, decodeUtf8.eq_def]
    simp only [List.cons_append, if_neg ascii, if_pos two, if_pos tail, ih, bind_map_cons]
  | case4 a ascii two b s tail =>
    rw [List.cons_append, decodeUtf8.eq_def]
    simp only [List.cons_append, if_neg ascii, if_pos two, if_neg tail, Option.bind_none]
  | case5 a s ascii two short =>
    rw [List.cons_append, decodeUtf8.eq_def]
    cases s with
    | nil => simp [ascii, two]
    | cons b s => exact (short b s rfl).elim
  | case6 a ascii two three b c s n tail ih =>
    rw [List.cons_append, decodeUtf8.eq_def]
    simp only [List.cons_append, if_neg ascii, if_neg two, if_pos three, n, if_pos tail, ih, bind_map_cons]
  | case7 a ascii two three b c s n tail =>
    rw [List.cons_append, decodeUtf8.eq_def]
    simp only [List.cons_append, if_neg ascii, if_neg two, if_pos three, n, if_neg tail, Option.bind_none]
  | case8 a s ascii two three short =>
    rw [List.cons_append, decodeUtf8.eq_def]
    match s with
    | [] => cases t <;> simp [ascii, two, three]
    | [b] => simp [ascii, two, three]
    | b :: c :: s => exact (short b c s rfl).elim
  | case9 a ascii two three four b c d s n tail ih =>
    rw [List.cons_append, decodeUtf8.eq_def]
    simp only [List.cons_append, if_neg ascii, if_neg two, if_neg three, if_pos four, n, if_pos tail, ih, bind_map_cons]
  | case10 a ascii two three four b c d s n tail =>
    rw [List.cons_append, decodeUtf8.eq_def]
    simp only [List.cons_append, if_neg ascii, if_neg two, if_neg three, if_pos four, n, if_neg tail, Option.bind_none]
  | case11 a s ascii two three four short =>
    rw [List.cons_append, decodeUtf8.eq_def]
    match s with
    | [] => rcases t with _ | ⟨c, _ | ⟨d, t⟩⟩ <;> simp [ascii, two, three, four]
    | [b] => cases t <;> simp [ascii, two, three, four]
    | [b, c] => simp [ascii, two, three, four]
    | b :: c :: d :: s => exact (short b c d s rfl).elim
  | case12 a s ascii two three four =>
    rw [List.cons_append, decodeUtf8.eq_def]
    simp only [if_neg ascii, if_neg two, if_neg three, if_neg four, Option.bind_none]

theorem decodeStrict_append (s t : Bytes) : decodeStrict (s ++ lineFeed :: t) =
    decodeStrict s >>= fun x => decodeStrict t >>= fun y => .ok (x ++ .scalar '\n' :: y) := by
  unfold decodeStrict
  rw [decodeUtf8_append]
  cases decodeUtf8 false s <;> cases decodeUtf8 false t <;> rfl

/-- The octets of lines. -/
def joinLines (lines : List Bytes) : Bytes := [lineFeed].intercalate lines

theorem decodeStrict_joinLines : ∀ lines : List Bytes,
    decodeStrict (joinLines lines) = lines.mapM decodeStrict >>= fun texts => .ok (Str.join '\n' texts)
  | [] => rfl
  | [line] => by
      rw [joinLines, List.intercalate_singleton, List.mapM_cons, List.mapM_nil]
      cases decodeStrict line with
      | error e => rfl
      | ok x =>
        refine congrArg Except.ok ?_
        rw [Str.join, List.intercalate_singleton]
  | line :: next :: lines => by
      have hrest := decodeStrict_joinLines (next :: lines)
      rw [joinLines] at hrest ⊢
      rw [List.intercalate_cons_cons, List.append_assoc, List.singleton_append, decodeStrict_append, hrest]
      simp only [List.mapM_cons]
      cases decodeStrict line with
      | error e => rfl
      | ok x =>
        cases decodeStrict next with
        | error e => rfl
        | ok y =>
          cases lines.mapM decodeStrict with
          | error e => rfl
          | ok rest =>
            refine congrArg Except.ok ?_
            rw [Str.join, Str.join, List.intercalate_cons_cons, List.append_assoc, List.singleton_append]

theorem splitOnP_join {p : CodePoint → Bool} (hp : p (.scalar '\n') = true) : ∀ {texts : List PyStr}, texts ≠ [] →
    (Str.join '\n' texts).splitOnP p = texts.flatMap (·.splitOnP p)
  | [x], _ => by rw [Str.join, List.intercalate_singleton, List.flatMap_singleton]
  | x :: y :: texts, _ => by
      have hrest := splitOnP_join hp (List.cons_ne_nil y texts)
      rw [Str.join] at hrest ⊢
      rw [List.intercalate_cons_cons, List.append_assoc, List.singleton_append, List.splitOnP_append_cons _ _ hp, hrest]
      rfl

/-! ### Encoded characters -/

theorem CodePoint.ofNat_char (c : Char) : CodePoint.ofNat c.toNat = .scalar c := by
  have hvalid : ¬(0xD800 ≤ c.toNat ∧ c.toNat < 0xE000) := by
    rcases c.valid with h | h <;> (have hval : c.toNat = c.val.toNat := rfl; omega)
  rw [ofNat, dif_neg hvalid, Char.ofNat_toNat]

theorem toNat_octet {n : Nat} (h : n < 256) : (UInt8.ofNat n).toNat = n := Nat.mod_eq_of_lt h

theorem isTail_octet (n : Nat) : isTail (UInt8.ofNat (n % 0x40 + 0x80)) = true := by
  have hn := toNat_octet (n := n % 0x40 + 0x80) (by omega)
  rw [isTail, decide_eq_true_eq, UInt8.le_iff_toNat_le, UInt8.lt_iff_toNat_lt, hn]
  exact ⟨by simp, by simp; omega⟩

theorem shiftTail_octet (m n : Nat) : shiftTail m (UInt8.ofNat (n % 0x40 + 0x80)) = m * 64 + n % 64 := by
  have hn := toNat_octet (n := n % 0x40 + 0x80) (by omega)
  unfold shiftTail
  omega

theorem decodeUtf8_encodeChar (surrogatepass : Bool) (c : Char) (s : Bytes) :
    decodeUtf8 surrogatepass (String.utf8EncodeChar c ++ s) = (decodeUtf8 surrogatepass s).map (.scalar c :: ·) := by
  have hvalid : c.val.toNat < 0xD800 ∨ 0xDFFF < c.val.toNat ∧ c.val.toNat < 0x110000 := c.valid
  rw [← CodePoint.ofNat_char c, show c.toNat = c.val.toNat from rfl, String.utf8EncodeChar]
  generalize c.val.toNat = n at hvalid
  split_ifs with h₁ h₂ h₃
  · have ha := toNat_octet (n := n) (by omega)
    rw [List.singleton_append, decodeUtf8.eq_def]
    simp only [UInt8.lt_iff_toNat_lt, ha, UInt8.reduceToNat]
    rw [if_pos (by omega)]
  · have ha := toNat_octet (n := n / 64 % 0x20 + 0xc0) (by omega)
    have hn : (n / 64 % 0x20 + 0xc0 - 0xc0) * 64 + n % 64 = n := by omega
    rw [List.cons_append, List.singleton_append, decodeUtf8.eq_def]
    simp only [UInt8.lt_iff_toNat_lt, UInt8.le_iff_toNat_le, UInt8.reduceToNat, ha, isTail_octet, shiftTail_octet, hn,
      if_true]
    rw [if_neg (by omega), if_pos (by omega)]
  · have ha := toNat_octet (n := n / 4096 % 0x10 + 0xe0) (by omega)
    have hn : ((n / 4096 % 0x10 + 0xe0 - 0xe0) * 64 + n / 64 % 64) * 64 + n % 64 = n := by omega
    rw [List.cons_append, List.cons_append, List.singleton_append, decodeUtf8.eq_def]
    simp only [UInt8.lt_iff_toNat_lt, UInt8.le_iff_toNat_le, UInt8.reduceToNat, ha, isTail_octet, shiftTail_octet, hn]
    rw [if_neg (by omega), if_neg (by omega), if_pos (by omega), if_pos ⟨trivial, trivial, by omega, by omega⟩]
  · have ha := toNat_octet (n := n / 262144 % 0x08 + 0xf0) (by omega)
    have hn : (((n / 262144 % 0x08 + 0xf0 - 0xf0) * 64 + n / 4096 % 64) * 64 + n / 64 % 64) * 64 + n % 64 = n := by
      omega
    rw [List.cons_append, List.cons_append, List.cons_append, List.singleton_append, decodeUtf8.eq_def]
    simp only [UInt8.lt_iff_toNat_lt, UInt8.le_iff_toNat_le, UInt8.reduceToNat, ha, isTail_octet, shiftTail_octet, hn]
    rw [if_neg (by omega), if_neg (by omega), if_neg (by omega), if_pos (by omega),
      if_pos ⟨trivial, trivial, trivial, by omega, by omega⟩]

theorem decodeStrict_chars : ∀ cs : List Char, decodeStrict (cs.flatMap String.utf8EncodeChar) = .ok (cs.map .scalar)
  | [] => rfl
  | c :: cs => by
      have ih := decodeStrict_chars cs
      unfold decodeStrict at ih ⊢
      rw [List.flatMap_cons, decodeUtf8_encodeChar]
      cases h : decodeUtf8 false (cs.flatMap String.utf8EncodeChar) with
      | none =>
        rw [h] at ih
        cases ih
      | some t =>
        rw [h] at ih
        cases ih
        rfl

/-! ### Lines of a text -/

/-- No character of the text ends a line for `str.splitlines`. -/
def Unbroken (s : PyStr) : Prop := ∀ c ∈ s, c.isLineBreak = false

theorem linesFrom_append (t : PyStr) : ∀ {s : PyStr} (line : PyStr), Unbroken s →
    Str.linesFrom line (s ++ .scalar '\n' :: t) = (line ++ s) :: Str.linesFrom [] t
  | [], line, _ => by
      rw [List.append_nil]
      rfl
  | c :: s, line, h => by
      obtain ⟨hc, hs⟩ := List.forall_mem_cons.mp h
      rw [List.cons_append, Str.linesFrom, hc, if_neg Bool.false_ne_true, linesFrom_append t _ hs, List.append_assoc]
      · rfl
      · rintro _ rfl -
        cases hc

theorem splitlines_lines : ∀ {lines : List PyStr}, (∀ line ∈ lines, Unbroken line) →
    Str.splitlines (lines.flatMap (· ++ [.scalar '\n'])) = lines
  | [], _ => rfl
  | line :: lines, h => by
      obtain ⟨hline, hlines⟩ := List.forall_mem_cons.mp h
      rw [List.flatMap_cons, List.append_assoc]
      exact (linesFrom_append _ [] hline).trans (congrArg (line :: ·) (splitlines_lines hlines))

theorem strip_ne_nil {line : PyStr} {c : CodePoint} (hc : c ∈ line) (h : c.isSpace = false) : Str.strip line ≠ [] := by
  intro hnil
  have hne : line.dropWhile CodePoint.isSpace ≠ [] := fun hnil => by
    rw [List.dropWhile_eq_nil_iff.mp hnil c hc] at h
    cases h
  have hhead := List.rdropWhile_eq_nil_iff.mp hnil _ (List.head_mem hne)
  rw [List.head_dropWhile_not CodePoint.isSpace hne] at hhead
  cases hhead

end Experiential.Py
