import Experiential.Lib.Checked
import Experiential.Lib.Joined
import Experiential.Lib.Json
import Mathlib.Algebra.Group.Nat.Defs
import Mathlib.Data.List.Forall2

/-! # Internet addresses as text

`ipv4Address` and `ipv6Address` read the literals of Python's `ipaddress`, four decimal octets without leading zeros or
hextets; `inetAton` reads what `inet_aton` does, one to four parts that are each decimal, octal or hexadecimal and of
which the last fills what is left. A literal of the first kind is one of the second with the same value
(`inetAton_of_ipv4Address`). -/

namespace Experiential.Py

/-! ### Networks -/

/-- The addresses that begin like this one. -/
structure Network where
  address : Nat
  length : Nat
deriving DecidableEq

def Network.contains (bits : Nat) (n : Network) (a : Nat) : Bool :=
  decide (a >>> (bits - n.length) = n.address >>> (bits - n.length))

def v4 (a b c d : Nat) : Nat := ((a * 256 + b) * 256 + c) * 256 + d

/-- `_IPv4Constants._private_networks` -/
def privateNetworks4 : List Network :=
  [⟨v4 0 0 0 0, 8⟩, ⟨v4 10 0 0 0, 8⟩, ⟨v4 127 0 0 0, 8⟩, ⟨v4 169 254 0 0, 16⟩, ⟨v4 172 16 0 0, 12⟩, ⟨v4 192 0 0 0, 24⟩,
    ⟨v4 192 0 0 170, 31⟩, ⟨v4 192 0 2 0, 24⟩, ⟨v4 192 168 0 0, 16⟩, ⟨v4 198 18 0 0, 15⟩, ⟨v4 198 51 100 0, 24⟩,
    ⟨v4 203 0 113 0, 24⟩, ⟨v4 240 0 0 0, 4⟩, ⟨v4 255 255 255 255, 32⟩]

/-- `_IPv4Constants._private_networks_exceptions` -/
def privateExceptions4 : List Network := [⟨v4 192 0 0 9, 32⟩, ⟨v4 192 0 0 10, 32⟩]

/-- `_IPv4Constants._public_network` -/
def sharedNetwork4 : Network := ⟨v4 100 64 0 0, 10⟩

/-- `IPv4Address.is_global` -/
def isGlobal4 (a : Nat) : Bool :=
  !sharedNetwork4.contains 32 a &&
    !(privateNetworks4.any (·.contains 32 a) && !privateExceptions4.any (·.contains 32 a))

/-- The first three hextets; the others are zero. -/
def v6 (a b c : Nat) : Nat := ((a * 65536 + b) * 65536 + c) * 2 ^ 80

/-- `_IPv6Constants._private_networks` -/
def privateNetworks6 : List Network :=
  [⟨1, 128⟩, ⟨0, 128⟩, ⟨0xFFFF * 2 ^ 32, 96⟩, ⟨v6 0x64 0xFF9B 1, 48⟩, ⟨v6 0x100 0 0, 64⟩, ⟨v6 0x2001 0 0, 23⟩,
    ⟨v6 0x2001 0xDB8 0, 32⟩, ⟨v6 0x2002 0 0, 16⟩, ⟨v6 0xFC00 0 0, 7⟩, ⟨v6 0xFE80 0 0, 10⟩]

/-- `_IPv6Constants._private_networks_exceptions` -/
def privateExceptions6 : List Network :=
  [⟨v6 0x2001 1 0 + 1, 128⟩, ⟨v6 0x2001 1 0 + 2, 128⟩, ⟨v6 0x2001 3 0, 32⟩, ⟨v6 0x2001 4 0x112, 48⟩,
    ⟨v6 0x2001 0x20 0, 28⟩, ⟨v6 0x2001 0x30 0, 28⟩]

/-- `IPv6Address.ipv4_mapped` -/
def ipv4Mapped (a : Nat) : Option Nat := if a >>> 32 = 0xFFFF then some (a % 2 ^ 32) else none

/-- `IPv6Address.is_global` -/
def isGlobal6 (a : Nat) : Bool :=
  match ipv4Mapped a with
  | some b => isGlobal4 b
  | none => !(privateNetworks6.any (·.contains 128 a) && !privateExceptions6.any (·.contains 128 a))

/-! ### Literals -/

/-- The digits of a text of ASCII digits. -/
def asciiDigits (s : PyStr) : Option (List Char) :=
  s.mapM fun
    | .scalar c => if c.isDigit then some c else none
    | .surrogate _ => none

/-- `_parse_octet` -/
def parseOctet (s : PyStr) : Option Nat := do
  let ds ← asciiDigits s
  if ds ≠ [] ∧ ds.length ≤ 3 ∧ (ds = ['0'] ∨ ds.head? ≠ some '0') ∧ Nat.ofDigitChars 10 ds 0 ≤ 255 then
    some (Nat.ofDigitChars 10 ds 0)
  else none

/-- `IPv4Address(s)` -/
def ipv4Address (s : PyStr) : Option Nat := do
  if .scalar '/' ∈ s then none
  else
    match ← (s.splitOn (.scalar '.')).mapM parseOctet with
    | [a, b, c, d] => some (v4 a b c d)
    | _ => none

/-- Digits of a base up to 16. -/
def digitsValue (base : Nat) (s : PyStr) : Option Nat :=
  s.foldlM (fun n c =>
    match hexDigit c with
    | .ok d => if d < base then some (base * n + d) else none
    | .error _ => none) 0

/-- `_parse_hextet` -/
def parseHextet (s : PyStr) : Option Nat :=
  if s ≠ [] ∧ s.length ≤ 4 then digitsValue 16 s else none

/-- `'%x' % n` -/
def hexText (n : Nat) : PyStr := (Nat.toDigits 16 n).map .scalar

/-- The hextets of parts. -/
def hextets (parts : List PyStr) : Option (List Nat) := parts.mapM parseHextet

def ofHextets (hs : List Nat) : Nat := hs.foldl (fun n h => n * 65536 + h) 0

/-- `_ip_int_from_string` of `IPv6Address`. -/
def ipv6Int (s : PyStr) : Option Nat := do
  let parts := s.splitOn (.scalar ':')
  if parts.length < 3 then none
  else
    let last := parts.getLastD []
    let parts ← if .scalar '.' ∈ last then
        (ipv4Address last).map fun a => parts.dropLast ++ [hexText (a / 65536), hexText (a % 65536)]
      else some parts
    if 9 < parts.length then none
    else
      match (List.range (parts.length - 2)).filter fun i => decide (parts[i + 1]? = some []) with
      | [] => if parts.length = 8 then (hextets parts).map ofHextets else none
      | [i] =>
          let hi := parts.take (i + 1)
          let lo := parts.drop (i + 2)
          -- A colon may open the text only in two, and close it only in two.
          let hi ← if hi.head? = some [] then (if hi.length = 1 then some [] else none) else some hi
          let lo ← if lo.getLast? = some [] then (if lo.length = 1 then some [] else none) else some lo
          if 7 < hi.length + lo.length then none
          else
            let his ← hextets hi
            let los ← hextets lo
            some (ofHextets (his ++ List.replicate (8 - (his.length + los.length)) 0 ++ los))
      | _ => none

/-- `IPv6Address(s)`, whose scope must not be empty. -/
def ipv6Address (s : PyStr) : Option Nat :=
  if .scalar '/' ∈ s then none
  else
    match s.splitOn (.scalar '%') with
    | [addr] => ipv6Int addr
    | [addr, scope] => if scope = [] then none else ipv6Int addr
    | _ => none

inductive IpAddress where
  | v4 (a : Nat)
  | v6 (a : Nat)
deriving DecidableEq

def IpAddress.isGlobal : IpAddress → Bool
  | .v4 a => isGlobal4 a
  | .v6 a => isGlobal6 a

/-- `ip_address(s)` -/
def ipAddress (s : PyStr) : Option IpAddress :=
  match ipv4Address s with
  | some a => some (.v4 a)
  | none => (ipv6Address s).map .v6

/-! ### Resolvers -/

/-- Does the part begin with `0x`? -/
def isHexPart : PyStr → Bool
  | .scalar '0' :: .scalar 'x' :: _ => true
  | .scalar '0' :: .scalar 'X' :: _ => true
  | _ => false

/-- A part of `inet_aton`: hexadecimal behind `0x`, octal behind `0`, and else decimal. -/
def inetPart (s : PyStr) : Option Nat :=
  if isHexPart s then (if s.drop 2 = [] then none else digitsValue 16 (s.drop 2))
  else if s = [] then none
  else if s.head? = some (.scalar '0') then digitsValue 8 s
  else digitsValue 10 s

/-- `inet_aton(s)` -/
def inetAton (s : PyStr) : Option Nat := do
  match ← (s.splitOn (.scalar '.')).mapM inetPart with
  | [a] => if a < 2 ^ 32 then some a else none
  | [a, b] => if a < 256 ∧ b < 2 ^ 24 then some (a * 2 ^ 24 + b) else none
  | [a, b, c] => if a < 256 ∧ b < 256 ∧ c < 2 ^ 16 then some ((a * 256 + b) * 2 ^ 16 + c) else none
  | [a, b, c, d] => if a < 256 ∧ b < 256 ∧ c < 256 ∧ d < 256 then some (v4 a b c d) else none
  | _ => none

example : inetAton (text "0x7f.1") = some (v4 127 0 0 1) := by decide +kernel

example : inetAton (text "017700000001") = some (v4 127 0 0 1) := by decide +kernel

example : (ipv6Address (text "::ffff:10.1.2.3")).map isGlobal6 = some false := by decide +kernel

/-! ### Digits -/

section digits
variable {s part : PyStr} {base n d : Nat} {c : CodePoint}

theorem digit_of_hexDigit (h : hexDigit c = .ok d) (hd : d < 10) : ∃ a : Char, c = .scalar a ∧ a.isDigit = true := by
  cases c with
  | surrogate n => cases h
  | scalar a =>
    refine ⟨a, rfl, ?_⟩
    rw [hexDigit] at h
    split_ifs at h with hdecimal hlower hupper
    · simp only [Char.isDigit, Bool.and_eq_true, decide_eq_true_eq]
      exact hdecimal
    · cases h
      have hle : 'a'.toNat ≤ a.toNat := hlower.1
      have hvalue : 'a'.toNat = 97 := rfl
      omega
    · cases h
      have hle : 'A'.toNat ≤ a.toNat := hupper.1
      have hvalue : 'A'.toNat = 65 := rfl
      omega

theorem hexDigit_of_digit {a : Char} (h : a.isDigit = true) :
    hexDigit (.scalar a) = .ok (a.toNat - '0'.toNat) ∧ a.toNat - '0'.toNat < 10 := by
  simp only [Char.isDigit, Bool.and_eq_true, decide_eq_true_eq] at h
  refine ⟨if_pos h, ?_⟩
  have hle : a.toNat ≤ '9'.toNat := h.2
  have hvalue : '9'.toNat = '0'.toNat + 9 := rfl
  omega

/-- The step of `digitsValue`. -/
def addDigit (base n : Nat) (c : CodePoint) : Option Nat :=
  match hexDigit c with
  | .ok d => if d < base then some (base * n + d) else none
  | .error _ => none

theorem addDigit_eq_some {m : Nat} (h : addDigit base n c = some m) : ∃ d, hexDigit c = .ok d ∧ d < base := by
  unfold addDigit at h
  split at h
  · rename_i d hd
    split_ifs at h with hlt
    exact ⟨d, hd, hlt⟩
  · cases h

theorem hexDigits_of_foldlM {m : Nat} (h : s.foldlM (addDigit base) n = some m) : ∀ c ∈ s, ∃ d, hexDigit c = .ok d ∧ d < base := by
  induction s generalizing n with
  | nil => exact nofun
  | cons c s ih =>
    rw [List.foldlM_cons] at h
    obtain ⟨k, hk, h⟩ := Option.bind_eq_some_iff.mp h
    exact List.forall_mem_cons.mpr ⟨addDigit_eq_some hk, ih h⟩

theorem foldlM_of_digits (ds : List Char) (hds : ∀ a ∈ ds, a.isDigit = true) (n : Nat) :
    (ds.map CodePoint.scalar).foldlM (addDigit 10) n = some (Nat.ofDigitChars 10 ds n) := by
  induction ds generalizing n with
  | nil => simp
  | cons a ds ih =>
    obtain ⟨ha, hds⟩ := List.forall_mem_cons.mp hds
    obtain ⟨hvalue, hlt⟩ := hexDigit_of_digit ha
    have hstep : addDigit 10 n (.scalar a) = some (10 * n + (a.toNat - '0'.toNat)) := by
      rw [addDigit, hvalue]
      exact if_pos hlt
    rw [List.map_cons, List.foldlM_cons, hstep, Nat.ofDigitChars_cons]
    exact ih hds _

theorem asciiDigits_eq_some {ds : List Char} (h : asciiDigits s = some ds) :
    s = ds.map .scalar ∧ ∀ a ∈ ds, a.isDigit = true := by
  induction s generalizing ds with
  | nil =>
    cases h
    exact ⟨rfl, nofun⟩
  | cons c s ih =>
    rw [asciiDigits, List.mapM_cons] at h
    obtain ⟨a, ha, h⟩ := Option.bind_eq_some_iff.mp h
    obtain ⟨as, has, h⟩ := Option.bind_eq_some_iff.mp h
    cases h
    obtain ⟨rfl, hdigits⟩ := ih has
    cases c with
    | surrogate n => cases ha
    | scalar a' =>
      dsimp only at ha
      split_ifs at ha with hdigit
      cases ha
      exact ⟨rfl, List.forall_mem_cons.mpr ⟨hdigit, hdigits⟩⟩

theorem inetPart_of_parseOctet (h : parseOctet s = some n) : inetPart s = some n ∧ n < 256 := by
  obtain ⟨ds, hds, h⟩ := Option.bind_eq_some_iff.mp h
  split_ifs at h with hok
  cases h
  obtain ⟨hne, -, hzero, hle⟩ := hok
  obtain ⟨rfl, hdigits⟩ := asciiDigits_eq_some hds
  refine ⟨?_, by omega⟩
  rcases hzero with rfl | hzero
  · rfl
  · cases ds with
    | nil => exact (hne rfl).elim
    | cons a ds =>
      have ha : a ≠ '0' := by simpa using hzero
      have hhex : isHexPart ((a :: ds).map .scalar) = false := by
        rw [List.map_cons, isHexPart]
        · exact fun _ h => ha (CodePoint.scalar.inj (List.cons.inj h).1)
        · exact fun _ h => ha (CodePoint.scalar.inj (List.cons.inj h).1)
      have hhead : ¬((a :: ds).map CodePoint.scalar).head? = some (.scalar '0') := by simpa using ha
      rw [inetPart, hhex, if_neg Bool.false_ne_true, if_neg (by simp), if_neg hhead]
      exact foldlM_of_digits _ hdigits 0

theorem digits_of_inetPart (h : inetPart part = some n) (hhex : isHexPart part = false) :
    part ≠ [] ∧ ∀ c ∈ part, ∃ a : Char, c = .scalar a ∧ a.isDigit = true := by
  have hbase : ∀ {base : Nat}, base ≤ 10 → digitsValue base part = some n →
      ∀ c ∈ part, ∃ a : Char, c = .scalar a ∧ a.isDigit = true := by
    intro base hle hvalue c hc
    obtain ⟨d, hd, hlt⟩ := hexDigits_of_foldlM hvalue c hc
    exact digit_of_hexDigit hd (by omega)
  rw [inetPart, hhex, if_neg Bool.false_ne_true] at h
  split_ifs at h with hempty hoctal
  · exact ⟨hempty, hbase (by omega) h⟩
  · exact ⟨hempty, hbase (by omega) h⟩

/-- Nothing that stands in a part is one of these. -/
theorem not_mem_of_inetPart (h : inetPart part = some n) : ∀ m ∈ text ":%/", m ∉ part := by
  intro m hm hmem
  have hnone : hexDigit m = .error .jsonDecode := by
    obtain rfl | rfl | rfl : m = ':' ∨ m = '%' ∨ m = '/' := by simpa [text_eq] using hm
    all_goals rfl
  have hbase : ∀ {base : Nat} {t : PyStr}, digitsValue base t = some n → m ∉ t := by
    intro base t hvalue hmem
    obtain ⟨d, hd, -⟩ := hexDigits_of_foldlM hvalue m hmem
    rw [hnone] at hd
    cases hd
  rw [inetPart] at h
  split_ifs at h with hhex hempty hempty hoctal
  · have hrest := hbase h
    have hfirst : ∀ x ∈ part.take 2, x ≠ m := by
      obtain rfl | rfl | rfl : m = ':' ∨ m = '%' ∨ m = '/' := by simpa [text_eq] using hm
      all_goals
        unfold isHexPart at hhex
        split at hhex
        · simp only [List.take_succ_cons, List.take_zero]
          decide
        · simp only [List.take_succ_cons, List.take_zero]
          decide
        · cases hhex
    rw [← List.take_append_drop 2 part, List.mem_append] at hmem
    rcases hmem with hmem | hmem
    · exact hfirst m hmem rfl
    · exact hrest hmem
  · exact hbase h hmem
  · exact hbase h hmem

end digits

/-! ### Hosts -/

section hosts
variable {α β : Type} {s : PyStr} {a : Nat}

theorem mapM_eq_some {f : α → Option β} : ∀ {l : List α} {out : List β},
    l.mapM f = some out ↔ List.Forall₂ (fun a b => f a = some b) l out
  | [], out => by
    rw [List.mapM_nil]
    exact ⟨fun h => by cases h; exact .nil, fun h => by cases h; rfl⟩
  | a :: l, out => by
    rw [List.mapM_cons]
    constructor
    · intro h
      obtain ⟨b, hb, h⟩ := Option.bind_eq_some_iff.mp h
      obtain ⟨bs, hbs, h⟩ := Option.bind_eq_some_iff.mp h
      cases h
      exact .cons hb (mapM_eq_some.mp hbs)
    · rintro (_ | ⟨hb, hbs⟩)
      exact Option.bind_eq_some_iff.mpr ⟨_, hb, Option.bind_eq_some_iff.mpr ⟨_, mapM_eq_some.mpr hbs, rfl⟩⟩

theorem parts_of_inetAton (h : inetAton s = some a) : ∃ ns, List.Forall₂ (fun part n => inetPart part = some n)
    (s.splitOn (.scalar '.')) ns := by
  obtain ⟨ns, hns, -⟩ := Option.bind_eq_some_iff.mp h
  exact ⟨ns, mapM_eq_some.mp hns⟩

theorem inetAton_of_ipv4Address (h : ipv4Address s = some a) : inetAton s = some a := by
  rw [ipv4Address] at h
  split_ifs at h
  obtain ⟨ns, hns, h⟩ := Option.bind_eq_some_iff.mp h
  have hparts : List.Forall₂ (fun part n => inetPart part = some n ∧ n < 256) (s.splitOn (.scalar '.')) ns :=
    (mapM_eq_some.mp hns).imp fun _ _ h => inetPart_of_parseOctet h
  have hread : (s.splitOn (.scalar '.')).mapM inetPart = some ns := mapM_eq_some.mpr (hparts.imp fun _ _ h => h.1)
  have hsmall : ∀ n ∈ ns, n < 256 := fun n hn => (exists_of_forall₂ hparts.flip n hn).elim fun _ h => h.2
  refine Option.bind_eq_some_iff.mpr ⟨ns, hread, ?_⟩
  match ns, h with
  | [b, c, d, e], h =>
    have hall : b < 256 ∧ c < 256 ∧ d < 256 ∧ e < 256 := by simpa using hsmall
    exact (if_pos hall).trans h

theorem not_mem_of_inetAton (h : inetAton s = some a) : ∀ m ∈ text ":%/", m ∉ s := by
  intro m hm hmem
  obtain ⟨ns, hparts⟩ := parts_of_inetAton h
  have hdot : m ≠ .scalar '.' := by
    rintro rfl
    exact absurd hm (by decide)
  obtain ⟨part, hpart, hmem⟩ := exists_segment hmem hdot
  obtain ⟨n, hn⟩ := exists_of_forall₂ hparts part hpart
  exact not_mem_of_inetPart hn m hm hmem

/-- What `inet_aton` reads is no literal with colons. -/
theorem ipv6Address_of_inetAton (h : inetAton s = some a) : ipv6Address s = none := by
  have hnone := not_mem_of_inetAton h
  have hcolon : s.splitOn (.scalar ':') = [s] := splitOn_of_not_mem (hnone _ (by decide))
  have hscope : s.splitOn (.scalar '%') = [s] := splitOn_of_not_mem (hnone _ (by decide))
  rw [ipv6Address, if_neg (hnone _ (by decide)), hscope]
  change ipv6Int s = none
  rw [ipv6Int, hcolon]
  rfl

theorem ipAddress_of_ipv6Address (h : ipv6Address s = some a) : ipAddress s = some (.v6 a) := by
  have hnone : ipv4Address s = none := by
    rw [Option.eq_none_iff_forall_ne_some]
    intro b hb
    rw [ipv6Address_of_inetAton (inetAton_of_ipv4Address hb)] at h
    cases h
  rw [ipAddress, hnone, h]
  rfl

theorem digits_of_inetAton (h : inetAton s = some a) (hhex : ∀ part ∈ s.splitOn (.scalar '.'), isHexPart part = false) :
    ∀ part ∈ s.splitOn (.scalar '.'), part ≠ [] ∧ ∀ c ∈ part, ∃ d : Char, c = .scalar d ∧ d.isDigit = true := by
  intro part hpart
  obtain ⟨ns, hparts⟩ := parts_of_inetAton h
  obtain ⟨n, hn⟩ := exists_of_forall₂ hparts part hpart
  exact digits_of_inetPart hn (hhex part hpart)

end hosts

end Experiential.Py
