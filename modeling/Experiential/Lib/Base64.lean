import Mathlib.Data.List.Basic
import Mathlib.Tactic.IntervalCases

/-! # URL-safe base64

The encoder and the lenient decoder of Python's `base64` module, on bytes and on texts. The decoder
skips what is not in the alphabet and stops at a complete padding. Its state is the number of symbols of
the current group, the bits that they have left over, and the padding read so far. -/

namespace Experiential.Base64

/-! ### Symbols -/

/-- The symbol of six bits. -/
def symbol (v : ℕ) : UInt8 :=
  if v < 26 then UInt8.ofNat (65 + v)
  else if v < 52 then UInt8.ofNat (71 + v)
  else if v < 62 then UInt8.ofNat (v - 4)
  else if v = 62 then 45
  else 95

/-- The six bits of a symbol, of the standard alphabet or the URL-safe one. -/
def value (c : UInt8) : Option ℕ :=
  if 65 ≤ c.toNat ∧ c.toNat ≤ 90 then some (c.toNat - 65)
  else if 97 ≤ c.toNat ∧ c.toNat ≤ 122 then some (c.toNat - 71)
  else if 48 ≤ c.toNat ∧ c.toNat ≤ 57 then some (c.toNat + 4)
  else if c.toNat = 43 ∨ c.toNat = 45 then some 62
  else if c.toNat = 47 ∨ c.toNat = 95 then some 63
  else none

/-- `=`. -/
def pad : UInt8 := 61

theorem value_symbol {v : ℕ} (hv : v < 64) : value (symbol v) = some v := by
  interval_cases v <;> rfl

theorem symbol_ne_pad {v : ℕ} (hv : v < 64) : symbol v ≠ pad := by
  interval_cases v <;> decide

theorem symbol_lt {v : ℕ} (hv : v < 64) : (symbol v).toNat < 128 := by
  interval_cases v <;> decide

/-! ### Bytes -/

/-- `base64.urlsafe_b64encode`. -/
def encode : List UInt8 → List UInt8
  | [] => []
  | [a] => [symbol (a.toNat / 4), symbol (a.toNat % 4 * 16), pad, pad]
  | [a, b] => [symbol (a.toNat / 4), symbol (a.toNat % 4 * 16 + b.toNat / 16), symbol (b.toNat % 16 * 4), pad]
  | a :: b :: c :: rest =>
      symbol (a.toNat / 4) :: symbol (a.toNat % 4 * 16 + b.toNat / 16) ::
        symbol (b.toNat % 16 * 4 + c.toNat / 64) :: symbol (c.toNat % 64) :: encode rest

/-- `binascii.a2b_base64`, without strict mode: `none` when a group is cut short. -/
def decodeFrom (quad left pads : ℕ) : List UInt8 → Option (List UInt8)
  | [] => if quad = 0 then some [] else none
  | c :: cs =>
      if c = pad then
        if 2 ≤ quad then
          if 4 ≤ quad + (pads + 1) then some [] else decodeFrom quad left (pads + 1) cs
        else decodeFrom quad left pads cs
      else
        match value c with
        | none => decodeFrom quad left pads cs
        | some v =>
            match quad with
            | 0 => decodeFrom 1 v 0 cs
            | 1 => (decodeFrom 2 (v % 16) 0 cs).map (UInt8.ofNat (left * 4 + v / 16) :: ·)
            | 2 => (decodeFrom 3 (v % 4) 0 cs).map (UInt8.ofNat (left * 16 + v / 4) :: ·)
            | _ => (decodeFrom 0 0 0 cs).map (UInt8.ofNat (left * 64 + v) :: ·)

/-- `base64.urlsafe_b64decode`. -/
def decode (cs : List UInt8) : Option (List UInt8) := decodeFrom 0 0 0 cs

section steps
variable {left pads v : ℕ} (hv : v < 64) (cs : List UInt8)
include hv

theorem decodeFrom_zero : decodeFrom 0 left pads (symbol v :: cs) = decodeFrom 1 v 0 cs := by
  rw [decodeFrom, if_neg (symbol_ne_pad hv), value_symbol hv]
  rfl

theorem decodeFrom_one : decodeFrom 1 left pads (symbol v :: cs) =
    (decodeFrom 2 (v % 16) 0 cs).map (UInt8.ofNat (left * 4 + v / 16) :: ·) := by
  rw [decodeFrom, if_neg (symbol_ne_pad hv), value_symbol hv]
  rfl

theorem decodeFrom_two : decodeFrom 2 left pads (symbol v :: cs) =
    (decodeFrom 3 (v % 4) 0 cs).map (UInt8.ofNat (left * 16 + v / 4) :: ·) := by
  rw [decodeFrom, if_neg (symbol_ne_pad hv), value_symbol hv]
  rfl

theorem decodeFrom_three : decodeFrom 3 left pads (symbol v :: cs) =
    (decodeFrom 0 0 0 cs).map (UInt8.ofNat (left * 64 + v) :: ·) := by
  rw [decodeFrom, if_neg (symbol_ne_pad hv), value_symbol hv]
  rfl

end steps

theorem ofNat_eq {n : ℕ} {a : UInt8} (h : n = a.toNat) : UInt8.ofNat n = a := by
  rw [h, UInt8.ofNat_toNat]

theorem decode_encode : ∀ bs : List UInt8, decode (encode bs) = some bs
  | [] => rfl
  | [a] => by
      have ha := a.toNat_lt
      rw [decode, encode, decodeFrom_zero (by omega), decodeFrom_one (by omega), ofNat_eq (a := a) (by omega)]
      rfl
  | [a, b] => by
      have ha := a.toNat_lt
      have hb := b.toNat_lt
      rw [decode, encode, decodeFrom_zero (by omega), decodeFrom_one (by omega), decodeFrom_two (by omega),
        ofNat_eq (a := a) (by omega), ofNat_eq (a := b) (by omega)]
      rfl
  | a :: b :: c :: rest => by
      have ha := a.toNat_lt
      have hb := b.toNat_lt
      have hc := c.toNat_lt
      have ih : decodeFrom 0 0 0 (encode rest) = some rest := decode_encode rest
      rw [decode, encode, decodeFrom_zero (by omega), decodeFrom_one (by omega), decodeFrom_two (by omega),
        decodeFrom_three (by omega), ih, ofNat_eq (a := a) (by omega), ofNat_eq (a := b) (by omega),
        ofNat_eq (a := c) (by omega)]
      rfl

theorem encode_ascii : ∀ (bs : List UInt8), ∀ c ∈ encode bs, c.toNat < 128
  | [], c, hc => absurd hc List.not_mem_nil
  | [a], c, hc => by
      have ha := a.toNat_lt
      simp only [encode, List.mem_cons, List.not_mem_nil, or_false] at hc
      rcases hc with rfl | rfl | rfl | rfl
      · exact symbol_lt (by omega)
      · exact symbol_lt (by omega)
      · decide
      · decide
  | [a, b], c, hc => by
      have ha := a.toNat_lt
      have hb := b.toNat_lt
      simp only [encode, List.mem_cons, List.not_mem_nil, or_false] at hc
      rcases hc with rfl | rfl | rfl | rfl
      · exact symbol_lt (by omega)
      · exact symbol_lt (by omega)
      · exact symbol_lt (by omega)
      · decide
  | a :: b :: d :: rest, c, hc => by
      have ha := a.toNat_lt
      have hb := b.toNat_lt
      have hd := d.toNat_lt
      simp only [encode, List.mem_cons] at hc
      rcases hc with rfl | rfl | rfl | rfl | hc
      · exact symbol_lt (by omega)
      · exact symbol_lt (by omega)
      · exact symbol_lt (by omega)
      · exact symbol_lt (by omega)
      · exact encode_ascii rest c hc

/-! ### Texts -/

/-- `str.encode`. -/
def utf8 (s : String) : List UInt8 := s.toList.flatMap String.utf8EncodeChar

/-- `bytes.decode`. -/
def fromUtf8 (bs : List UInt8) : Option String := String.fromUTF8? bs.toByteArray

theorem fromUtf8_utf8 (s : String) : fromUtf8 (utf8 s) = some s := by
  have hbytes : (utf8 s).toByteArray = s.toByteArray := String.utf8Encode_toList
  rw [fromUtf8, hbytes, String.fromUTF8?, dif_pos s.isValidUTF8]
  rfl

/-- The text of ASCII bytes. -/
def asciiText (bs : List UInt8) : String := String.ofList (bs.map fun b => Char.ofNat b.toNat)

theorem utf8_asciiText {bs : List UInt8} (h : ∀ b ∈ bs, b.toNat < 128) : utf8 (asciiText bs) = bs := by
  have hchar : ∀ b ∈ bs, String.utf8EncodeChar (Char.ofNat b.toNat) = [b] := by
    intro b hb
    have hval : (Char.ofNat b.toNat).val.toNat = b.toNat := by
      rw [Char.ofNat, dif_pos (.inl ((h b hb).trans (by decide)))]
      rfl
    rw [String.utf8EncodeChar, hval, if_pos (Nat.le_of_lt_succ (h b hb)), UInt8.ofNat_toNat]
  rw [utf8, asciiText, String.toList_ofList, List.flatMap_map, List.flatMap_congr hchar]
  exact List.flatMap_singleton' bs

/-- `base64.urlsafe_b64encode(text.encode()).decode()`. -/
def encodeText (s : String) : String := asciiText (encode (utf8 s))

/-- `base64.urlsafe_b64decode(value.encode()).decode()`. -/
def decodeText (value : String) : Option String := (decode (utf8 value)).bind fromUtf8

theorem decodeText_encodeText (s : String) : decodeText (encodeText s) = some s := by
  rw [decodeText, encodeText, utf8_asciiText (encode_ascii _), decode_encode]
  exact fromUtf8_utf8 s

end Experiential.Base64
