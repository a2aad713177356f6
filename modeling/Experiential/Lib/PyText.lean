import Mathlib.Data.List.Basic

/-! # Python texts and bytes

A text of Python is a list of code points, surrogates that stand alone included; bytes are a list of octets.
`decode` and `encode` are the codecs `json.loads` chooses from, with the error handler `surrogatepass` where it is
given. Errors carry the class of the exception. -/

namespace Experiential.Py

/-- The exceptions. -/
inductive PyError where
  | value
  | jsonDecode
  | unicodeDecode
  | unicodeEncode
  | overflow
  | type
  | attribute
  | key
  | index
  | recursion
deriving DecidableEq

/-- `isinstance(e, ValueError)` -/
def PyError.isValueError : PyError → Bool
  | .value | .jsonDecode | .unicodeDecode | .unicodeEncode => true
  | _ => false

/-- A Unicode scalar value, or a surrogate that stands alone. -/
inductive CodePoint where
  | scalar (c : Char)
  | surrogate (n : Fin 2048)
deriving DecidableEq

abbrev PyStr := List CodePoint

abbrev Bytes := List UInt8

instance : Coe Char CodePoint := ⟨.scalar⟩

instance : LawfulBEq PyStr := inferInstanceAs (LawfulBEq (List CodePoint))

/-- The octets of a literal. -/
def bytes (s : String) : Bytes := s.toByteArray.data.toList

/-- The code points of a literal (`text_eq`); ASCII is read off the octets, which evaluate faster. -/
def text (s : String) : PyStr :=
  if (bytes s).all (· < 0x80) then (bytes s).map fun b => .scalar (Char.ofNat b.toNat) else s.toList.map .scalar

theorem bytes_eq (s : String) : bytes s = s.toList.flatMap String.utf8EncodeChar := by
  unfold bytes
  conv_lhs => rw [← String.ofList_toList (s := s)]
  rw [String.toByteArray_ofList, List.utf8Encode, List.toList_data_toByteArray]

theorem encodeChar_ascii {c : Char} (h : ∀ b ∈ String.utf8EncodeChar c, b < 0x80) :
    (String.utf8EncodeChar c).map (fun b => Char.ofNat b.toNat) = [c] := by
  simp only [String.utf8EncodeChar] at h ⊢
  split_ifs at h ⊢ with h₁ h₂ h₃
  · have hc : c.toNat % 256 = c.toNat := Nat.mod_eq_of_lt (Nat.lt_of_le_of_lt h₁ (by decide))
    simp [hc]
  all_goals
    have hlead := h _ List.mem_cons_self
    simp only [UInt8.lt_iff_toNat_lt, UInt8.toNat_ofNat', UInt8.reduceToNat] at hlead
    omega

theorem text_eq (s : String) : text s = s.toList.map .scalar := by
  unfold text
  split_ifs with h
  · rw [bytes_eq] at h ⊢
    rw [List.map_flatMap, List.map_eq_flatMap]
    refine List.flatMap_congr fun c hc => ?_
    have hascii := encodeChar_ascii fun b hb =>
      of_decide_eq_true (List.all_eq_true.mp h b (List.mem_flatMap.mpr ⟨c, hc, hb⟩))
    simpa using congrArg (List.map CodePoint.scalar) hascii
  · rfl

theorem text_injective {a b : String} (h : text a = text b) : a = b := by
  rw [text_eq, text_eq] at h
  apply String.toList_inj.mp
  exact List.map_injective_iff.mpr (fun _ _ hc => CodePoint.scalar.inj hc) h

namespace CodePoint

def toNat : CodePoint → Nat
  | .scalar c => c.toNat
  | .surrogate n => 0xD800 + n

/-- `chr` -/
def ofNat (n : Nat) : CodePoint :=
  if h : 0xD800 ≤ n ∧ n < 0xE000 then .surrogate ⟨n - 0xD800, by omega⟩ else .scalar (Char.ofNat n)

def isDigit : CodePoint → Bool
  | .scalar c => c.isDigit
  | .surrogate _ => false

/-- The octets of a code point; a surrogate has none. -/
def utf8? : CodePoint → Option Bytes
  | .scalar c => some (String.utf8EncodeChar c)
  | .surrogate _ => none

end CodePoint

/-! ### Codecs -/

inductive Encoding where
  | utf8
  | utf8Sig
  | utf16 (little : Bool)
  | utf32 (little : Bool)
  -- The byte order mark says which.
  | utf16Bom
  | utf32Bom
deriving DecidableEq

/-- `s.encode()` -/
def encode (s : PyStr) : Except PyError Bytes :=
  match s.mapM CodePoint.utf8? with
  | some chunks => .ok chunks.flatten
  | none => .error .unicodeEncode

def isTail (b : UInt8) : Bool := decide (0x80 ≤ b ∧ b < 0xC0)

/-- Six bits of a tail octet behind `n`. -/
def shiftTail (n : Nat) (b : UInt8) : Nat := n * 64 + (b.toNat - 0x80)

/-- UTF-8; `surrogatepass` reads the octets of a surrogate too. -/
def decodeUtf8 (surrogatepass : Bool) : Bytes → Option PyStr
  | [] => some []
  | a :: s =>
    if a < 0x80 then (decodeUtf8 surrogatepass s).map (.ofNat a.toNat :: ·)
    else if 0xC2 ≤ a ∧ a < 0xE0 then
      match s with
      | b :: s =>
        if isTail b then
          (decodeUtf8 surrogatepass s).map (.ofNat (shiftTail (a.toNat - 0xC0) b) :: ·)
        else none
      | _ => none
    else if 0xE0 ≤ a ∧ a < 0xF0 then
      match s with
      | b :: c :: s =>
        let n := shiftTail (shiftTail (a.toNat - 0xE0) b) c
        if isTail b ∧ isTail c ∧ 0x800 ≤ n ∧ (surrogatepass = true ∨ n < 0xD800 ∨ 0xE000 ≤ n) then
          (decodeUtf8 surrogatepass s).map (.ofNat n :: ·)
        else none
      | _ => none
    else if 0xF0 ≤ a ∧ a < 0xF5 then
      match s with
      | b :: c :: d :: s =>
        let n := shiftTail (shiftTail (shiftTail (a.toNat - 0xF0) b) c) d
        if isTail b ∧ isTail c ∧ isTail d ∧ 0x10000 ≤ n ∧ n < 0x110000 then
          (decodeUtf8 surrogatepass s).map (.ofNat n :: ·)
        else none
      | _ => none
    else none

/-- The number of octets, lowest first where `little`. -/
def ofOctets (little : Bool) (bs : Bytes) : Nat :=
  (if little then bs.reverse else bs).foldl (fun n b => n * 256 + b.toNat) 0

def units16 (little : Bool) : Bytes → Option (List Nat)
  | [] => some []
  | a :: b :: s => (units16 little s).map (ofOctets little [a, b] :: ·)
  | [_] => none

def joinSurrogates (high low : Nat) : CodePoint :=
  .ofNat (0x10000 + (high - 0xD800) * 1024 + (low - 0xDC00))

/-- A high half with a low one behind it is one code point, another half stands alone. -/
def joinUnits : List Nat → PyStr
  | [] => []
  | [n] => [.ofNat n]
  | n :: m :: s =>
    if 0xD800 ≤ n ∧ n < 0xDC00 ∧ 0xDC00 ≤ m ∧ m < 0xE000 then joinSurrogates n m :: joinUnits s
    else .ofNat n :: joinUnits (m :: s)

def decodeUtf16 (little : Bool) (b : Bytes) : Option PyStr := (units16 little b).map joinUnits

def decodeUtf32 (little : Bool) : Bytes → Option PyStr
  | [] => some []
  | a :: b :: c :: d :: s =>
    if ofOctets little [a, b, c, d] < 0x110000 then
      (decodeUtf32 little s).map (.ofNat (ofOctets little [a, b, c, d]) :: ·)
    else none
  | _ => none

def utf8Bom : Bytes := [0xEF, 0xBB, 0xBF]

/-- `b.decode(encoding, "surrogatepass")` -/
def decode (b : Bytes) : Encoding → Except PyError PyStr
  | .utf8 => ((decodeUtf8 true b).map .ok).getD (.error .unicodeDecode)
  | .utf8Sig => ((decodeUtf8 true (if utf8Bom <+: b then b.drop 3 else b)).map .ok).getD (.error .unicodeDecode)
  | .utf16 little => ((decodeUtf16 little b).map .ok).getD (.error .unicodeDecode)
  | .utf32 little => ((decodeUtf32 little b).map .ok).getD (.error .unicodeDecode)
  | .utf16Bom => ((decodeUtf16 (decide (b.head? = some 0xFF)) (b.drop 2)).map .ok).getD (.error .unicodeDecode)
  | .utf32Bom => ((decodeUtf32 (decide (b.head? = some 0xFF)) (b.drop 4)).map .ok).getD (.error .unicodeDecode)

/-- `b.decode("utf-8")` -/
def decodeStrict (b : Bytes) : Except PyError PyStr :=
  ((decodeUtf8 false b).map .ok).getD (.error .unicodeDecode)

/-- `json.detect_encoding` -/
def detectEncoding (b : Bytes) : Encoding :=
  if [0x00, 0x00, 0xFE, 0xFF] <+: b ∨ [0xFF, 0xFE, 0x00, 0x00] <+: b then .utf32Bom
  else if [0xFE, 0xFF] <+: b ∨ [0xFF, 0xFE] <+: b then .utf16Bom
  else if utf8Bom <+: b then .utf8Sig
  else
    match b with
    | [a, b] => if a = 0 then .utf16 false else if b = 0 then .utf16 true else .utf8
    | a :: b :: c :: d :: _ =>
      if a = 0 then (if b ≠ 0 then .utf16 false else .utf32 false)
      else if b = 0 then (if c ≠ 0 ∨ d ≠ 0 then .utf16 true else .utf32 true)
      else .utf8
    | _ => .utf8

/-! ### What `bytes` offers -/

def isSpace (b : UInt8) : Bool := b ∈ bytes " \t\n\r\x0b\x0c"

/-- `b.strip()` -/
def strip (b : Bytes) : Bytes := ((b.dropWhile isSpace).reverse.dropWhile isSpace).reverse

/-- `b.lower()` -/
def lower (b : Bytes) : Bytes := b.map fun c => if 0x41 ≤ c ∧ c ≤ 0x5A then c + 0x20 else c

end Experiential.Py
