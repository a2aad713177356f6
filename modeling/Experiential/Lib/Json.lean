import Experiential.Lib.PyText

/-! # JSON as Python reads and writes it

`loads` and `dumps` of the `json` module over the values a document decodes to. Both recurse into a container only
while the interpreter's budget lasts. What Python's floats are is a parameter: a `Runtime` says how they are read,
written and converted. -/

namespace Experiential.Py

/-! ### Values -/

/-- A decoded document over the floats `F`; the entries of a dictionary are in insertion order. -/
inductive Json (F : Type) where
  | null
  | bool (b : Bool)
  | int (n : Int)
  | float (x : F)
  | str (s : PyStr)
  | list (items : List (Json F))
  | dict (entries : List (PyStr × Json F))

/-- A number as written: integer digits, digits of the fraction, exponent with its letter. -/
structure NumberText where
  negative : Bool
  int : List Char
  frac : List Char
  exp : List Char
deriving DecidableEq

/-- The interpreter: its recursion limit, its floats, and the texts of values that are no strings. -/
structure Runtime (F : Type) where
  recursionLimit : Nat
  /-- It has room for the payloads that are written here. -/
  limit_ge : 8 ≤ recursionLimit
  /-- `str(v)` -/
  strOf : Json F → PyStr
  floatOf : NumberText → F
  floatText : F → List Char
  nan : F
  infinity : F
  negInfinity : F
  isZero : F → Bool
  /-- `int(x)` -/
  truncate : F → Except PyError Int
  /-- `int(s)` -/
  intOf : PyStr → Except PyError Int
  /-- `n / 1_000_000` -/
  perMillion : Int → F

theorem room_for_payloads : 8 ≤ 1000 := by decide

/-- An interpreter without floats. -/
def Runtime.plain : Runtime Unit where
  recursionLimit := 1000
  limit_ge := room_for_payloads
  strOf _ := []
  floatOf _ := ()
  floatText _ := []
  nan := ()
  infinity := ()
  negInfinity := ()
  isZero _ := true
  truncate _ := .ok 0
  intOf _ := .error .value
  perMillion _ := ()

variable {F : Type}

abbrev Entries (F : Type) := List (PyStr × Json F)

/-- `d[k] = v` -/
def Entries.set (d : Entries F) (k : PyStr) (v : Json F) : Entries F :=
  if k ∈ d.map Prod.fst then d.map (fun e => if e.1 = k then (k, v) else e) else d ++ [(k, v)]

/-- `d.get(k)`, `none` where the key is absent. -/
def Entries.get? (d : Entries F) (k : PyStr) : Option (Json F) := (d.find? (fun e => decide (e.1 = k))).map Prod.snd

/-! ### Comparing -/

mutual
/-- Whether two documents are the same. -/
def Json.decEq [DecidableEq F] : (v w : Json F) → Decidable (v = w)
  | .null, .null => isTrue rfl
  | .bool a, .bool b => decidable_of_iff (a = b) (by simp)
  | .int a, .int b => decidable_of_iff (a = b) (by simp)
  | .float a, .float b => decidable_of_iff (a = b) (by simp)
  | .str a, .str b => decidable_of_iff (a = b) (by simp)
  | .list a, .list b => @decidable_of_iff _ (a = b) (by simp) (decEqItems a b)
  | .dict a, .dict b => @decidable_of_iff _ (a = b) (by simp) (decEqEntries a b)
  | .null, .bool _ | .null, .int _ | .null, .float _ | .null, .str _ | .null, .list _ | .null, .dict _
  | .bool _, .null | .bool _, .int _ | .bool _, .float _ | .bool _, .str _ | .bool _, .list _ | .bool _, .dict _
  | .int _, .null | .int _, .bool _ | .int _, .float _ | .int _, .str _ | .int _, .list _ | .int _, .dict _
  | .float _, .null | .float _, .bool _ | .float _, .int _ | .float _, .str _ | .float _, .list _ | .float _, .dict _
  | .str _, .null | .str _, .bool _ | .str _, .int _ | .str _, .float _ | .str _, .list _ | .str _, .dict _
  | .list _, .null | .list _, .bool _ | .list _, .int _ | .list _, .float _ | .list _, .str _ | .list _, .dict _
  | .dict _, .null | .dict _, .bool _ | .dict _, .int _ | .dict _, .float _ | .dict _, .str _ | .dict _, .list _ =>
      isFalse (fun h => by cases h)

def decEqItems [DecidableEq F] : (a b : List (Json F)) → Decidable (a = b)
  | [], [] => isTrue rfl
  | v :: a, w :: b => @decidable_of_iff _ (v = w ∧ a = b) (by simp) (@instDecidableAnd _ _ (Json.decEq v w) (decEqItems a b))
  | [], _ :: _ | _ :: _, [] => isFalse (fun h => by cases h)

def decEqEntries [DecidableEq F] : (a b : List (PyStr × Json F)) → Decidable (a = b)
  | [], [] => isTrue rfl
  | (k, v) :: a, (l, w) :: b =>
      @decidable_of_iff _ (k = l ∧ v = w ∧ a = b) (by simp [and_assoc])
        (@instDecidableAnd _ _ inferInstance (@instDecidableAnd _ _ (Json.decEq v w) (decEqEntries a b)))
  | [], _ :: _ | _ :: _, [] => isFalse (fun h => by cases h)
end

instance [DecidableEq F] : DecidableEq (Json F) := Json.decEq
/-! ### Writing -/

def hexDigits (n : Nat) : PyStr := [↑(n / 16).digitChar, ↑(n % 16).digitChar]

/-- A character of a string as `dumps` writes it without `ensure_ascii`. -/
def escape (c : CodePoint) : PyStr :=
  if c = .scalar '"' then text "\\\""
  else if c = .scalar '\\' then text "\\\\"
  else if c = .scalar '\n' then text "\\n"
  else if c = .scalar '\r' then text "\\r"
  else if c = .scalar '\t' then text "\\t"
  else if c = .scalar '\x0c' then text "\\f"
  else if c = .scalar '\x08' then text "\\b"
  else if c.toNat < 0x20 then text "\\u00" ++ hexDigits c.toNat
  else [c]

def quote (s : PyStr) : PyStr := .scalar '"' :: (s.flatMap escape ++ [.scalar '"'])

/-- `int.__repr__`; the limit on the digits of an integer is far beyond what is written here. -/
def intText (n : Int) : PyStr := (if n < 0 then text "-" else []) ++ (Nat.toDigits 10 n.natAbs).map .scalar

/-- The separators of items and of keys. -/
structure Separators where
  item : PyStr
  key : PyStr

def Separators.default : Separators := ⟨text ", ", text ": "⟩

def Separators.compact : Separators := ⟨text ",", text ":"⟩

/-- Write a value within `depth` containers. -/
def dumpsWithin (rt : Runtime F) (sep : Separators) : Nat → Json F → Except PyError PyStr
  | _, .null => .ok (text "null")
  | _, .bool true => .ok (text "true")
  | _, .bool false => .ok (text "false")
  | _, .int n => .ok (intText n)
  | _, .float x => .ok ((rt.floatText x).map .scalar)
  | _, .str s => .ok (quote s)
  | 0, .list _ => .error .recursion
  | 0, .dict _ => .error .recursion
  | depth + 1, .list items => do
      let ts ← items.mapM (dumpsWithin rt sep depth)
      return .scalar '[' :: (sep.item.intercalate ts ++ [.scalar ']'])
  | depth + 1, .dict entries => do
      let ts ← entries.mapM (fun e => do
        let t ← dumpsWithin rt sep depth e.2
        return quote e.1 ++ (sep.key ++ t))
      return .scalar '\x7b' :: (sep.item.intercalate ts ++ [.scalar '\x7d'])

/-- `json.dumps(v, ensure_ascii=False)` with these separators. -/
def dumps (rt : Runtime F) (sep : Separators) (v : Json F) : Except PyError PyStr :=
  dumpsWithin rt sep rt.recursionLimit v

/-! ### Reading -/

/-- Longest decimal text `int` reads. -/
def intMaxStrDigits : Nat := 4300

/-- A reader takes what it reads off the front. -/
abbrev Scan (α : Type) := PyStr → Except PyError (α × PyStr)

def isWhitespace (c : CodePoint) : Bool := c ∈ text " \t\n\r"

def skipWhitespace (s : PyStr) : PyStr := s.dropWhile isWhitespace

/-- The digits in front. -/
def digitRun : PyStr → List Char × PyStr
  | .scalar c :: s => if c.isDigit then (c :: (digitRun s).1, (digitRun s).2) else ([], .scalar c :: s)
  | s => ([], s)

def hexDigit (c : CodePoint) : Except PyError Nat :=
  match c with
  | .scalar c =>
      if '0' ≤ c ∧ c ≤ '9' then .ok (c.toNat - 48)
      else if 'a' ≤ c ∧ c ≤ 'f' then .ok (c.toNat - 87)
      else if 'A' ≤ c ∧ c ≤ 'F' then .ok (c.toNat - 55)
      else .error .jsonDecode
  | .surrogate _ => .error .jsonDecode

/-- The number of a `\u` escape. -/
def hex4 (a b c d : CodePoint) : Except PyError Nat := do
  let a ← hexDigit a
  let b ← hexDigit b
  let c ← hexDigit c
  let d ← hexDigit d
  return 4096 * a + 256 * b + 16 * c + d

/-- The character of a one-letter escape. -/
def simpleEscape (c : CodePoint) : Except PyError CodePoint :=
  match ((text "\"\\/bfnrt").zip (text "\"\\/\x08\x0c\n\r\t")).lookup c with
  | some r => .ok r
  | none => .error .jsonDecode

/-- The second half of a surrogate pair, where an escape of it is in front. -/
def lowSurrogate : PyStr → Option Nat
  | b :: u :: x₁ :: x₂ :: x₃ :: x₄ :: _ =>
      if b = .scalar '\\' ∧ u = .scalar 'u' then
        match hex4 x₁ x₂ x₃ x₄ with
        | .ok n => if 0xDC00 ≤ n ∧ n < 0xE000 then some n else none
        | .error _ => none
      else none
  | _ => none

/-- The rest of a string literal, after its opening quote. -/
def scanString : Scan PyStr
  | [] => .error .jsonDecode
  | c :: s =>
    if c = .scalar '"' then .ok ([], s)
    else if c = .scalar '\\' then
      match s with
      | [] => .error .jsonDecode
      | e :: s =>
        if e = .scalar 'u' then
          match s with
          | x₁ :: x₂ :: x₃ :: x₄ :: s => do
              let n ← hex4 x₁ x₂ x₃ x₄
              let (t, rest) ← scanString s
              -- The escape of the low half is the first character read after it.
              match if 0xD800 ≤ n ∧ n < 0xDC00 then lowSurrogate s else none with
              | some low => return (joinSurrogates n low :: t.tail, rest)
              | none => return (.ofNat n :: t, rest)
          | _ => .error .jsonDecode
        else do
          let r ← simpleEscape e
          let (t, rest) ← scanString s
          return (r :: t, rest)
    else if c.toNat < 0x20 then .error .jsonDecode
    else do
      let (t, rest) ← scanString s
      return (c :: t, rest)

def minusSign : PyStr → Bool × PyStr
  | [] => (false, [])
  | c :: s => if c = .scalar '-' then (true, s) else (false, c :: s)

/-- Nothing is read behind a leading zero. -/
def intPart : Scan (List Char)
  | [] => .error .jsonDecode
  | c :: s =>
    if c = .scalar '0' then .ok (['0'], s)
    else if (digitRun (c :: s)).1 = [] then .error .jsonDecode
    else .ok (digitRun (c :: s))

/-- A point without a digit behind it is left. -/
def fracPart (s : PyStr) : List Char × PyStr :=
  match s with
  | [] => ([], s)
  | c :: t => if c = .scalar '.' ∧ (digitRun t).1 ≠ [] then digitRun t else ([], s)

def exponentSign (s : PyStr) : List Char × PyStr :=
  match s with
  | [] => ([], s)
  | c :: t => if c = .scalar '+' then (['+'], t) else if c = .scalar '-' then (['-'], t) else ([], s)

/-- An exponent without digits is left. -/
def expPart (s : PyStr) : List Char × PyStr :=
  match s with
  | .scalar e :: t =>
      if (e = 'e' ∨ e = 'E') ∧ (digitRun (exponentSign t).2).1 ≠ [] then
        (e :: ((exponentSign t).1 ++ (digitRun (exponentSign t).2).1), (digitRun (exponentSign t).2).2)
      else ([], s)
  | _ => ([], s)

def scanNumber : Scan NumberText := fun s => do
  let (digits, t) ← intPart (minusSign s).2
  return (⟨(minusSign s).1, digits, (fracPart t).1, (expPart (fracPart t).2).1⟩, (expPart (fracPart t).2).2)

/-- `int(t)` or `float(t)` -/
def numberOf (rt : Runtime F) (n : NumberText) : Except PyError (Json F) :=
  if n.frac ≠ [] ∨ n.exp ≠ [] then .ok (.float (rt.floatOf n))
  else if n.int.length ≤ intMaxStrDigits then
    .ok (.int (if n.negative then -(Nat.ofDigitChars 10 n.int 0 : Int) else Nat.ofDigitChars 10 n.int 0))
  else .error .value

/-- The words a document may hold; the last three are Python's own. -/
def constants (rt : Runtime F) : List (PyStr × Json F) :=
  [(text "null", .null), (text "true", .bool true), (text "false", .bool false), (text "NaN", .float rt.nan),
    (text "Infinity", .float rt.infinity), (text "-Infinity", .float rt.negInfinity)]

/-- A string, a word or a number. -/
def scanScalar (rt : Runtime F) : Scan (Json F)
  | [] => .error .jsonDecode
  | c :: s =>
    if c = .scalar '"' then do
      let (t, rest) ← scanString s
      return (.str t, rest)
    else
      match (constants rt).find? (fun w => w.1.isPrefixOf (c :: s)) with
      | some w => .ok (w.2, (c :: s).drop w.1.length)
      | none => do
          let (n, rest) ← scanNumber (c :: s)
          return (← numberOf rt n, rest)

/-- What follows an item: whether another one does, and the text behind the comma or the bracket. -/
def separator (close : CodePoint) (s : PyStr) : Except PyError (Bool × PyStr) :=
  match skipWhitespace s with
  | [] => .error .jsonDecode
  | c :: s =>
    if c = close then .ok (false, s)
    else if c = .scalar ',' then .ok (true, skipWhitespace s)
    else .error .jsonDecode

/-- One item or more up to the closing bracket, at most `fuel` of them. -/
def scanItems {α : Type} (item : Scan α) (close : CodePoint) : Nat → Scan (List α)
  | 0, _ => .error .jsonDecode
  | fuel + 1, s => do
      let (x, s) ← item s
      let (more, s) ← separator close s
      if more then do
        let (xs, s) ← scanItems item close fuel s
        return (x :: xs, s)
      else return ([x], s)

/-- The rest of a container, after its opening bracket. -/
def scanBody {α : Type} (item : Scan α) (close : CodePoint) (s : PyStr) : Except PyError (List α × PyStr) :=
  match skipWhitespace s with
  | [] => .error .jsonDecode
  -- Every item takes a character.
  | c :: t => if c = close then .ok ([], t) else scanItems item close (t.length + 1) (c :: t)

/-- A key and its value. -/
def scanMember (value : Scan (Json F)) : Scan (PyStr × Json F)
  | [] => .error .jsonDecode
  | c :: s =>
    if c = .scalar '"' then do
      let (key, s) ← scanString s
      match skipWhitespace s with
      | [] => .error .jsonDecode
      | c :: s =>
        if c = .scalar ':' then do
          let (v, s) ← value (skipWhitespace s)
          return ((key, v), s)
        else .error .jsonDecode
    else .error .jsonDecode

/-- One value within `depth` containers. -/
def scanOnce (rt : Runtime F) : Nat → Scan (Json F)
  | _, [] => .error .jsonDecode
  | 0, c :: s => if c = .scalar '[' ∨ c = .scalar '\x7b' then .error .recursion else scanScalar rt (c :: s)
  | depth + 1, c :: s =>
    if c = .scalar '[' then do
      let (items, rest) ← scanBody (scanOnce rt depth) (.scalar ']') s
      return (.list items, rest)
    else if c = .scalar '\x7b' then do
      let (members, rest) ← scanBody (scanMember (scanOnce rt depth)) (.scalar '\x7d') s
      return (.dict (members.foldl (fun d e => Entries.set d e.1 e.2) []), rest)
    else scanScalar rt (c :: s)

/-- `JSONDecoder().decode(s)` -/
def decodeDocument (rt : Runtime F) (s : PyStr) : Except PyError (Json F) := do
  let (v, rest) ← scanOnce rt rt.recursionLimit (skipWhitespace s)
  if skipWhitespace rest = [] then return v else throw .jsonDecode

/-- `json.loads(s)` of a text. -/
def loads (rt : Runtime F) (s : PyStr) : Except PyError (Json F) :=
  if s.head? = some (.ofNat 0xFEFF) then .error .jsonDecode else decodeDocument rt s

/-- `json.loads(b)` of bytes. -/
def loadsBytes (rt : Runtime F) (b : Bytes) : Except PyError (Json F) := do
  let s ← decode b (detectEncoding b)
  decodeDocument rt s

/-! ### What values offer -/

namespace Json

/-- `bool(v)` -/
def truthy (rt : Runtime F) : Json F → Bool
  | .null => false
  | .bool b => b
  | .int n => decide (n ≠ 0)
  | .float x => !rt.isZero x
  | .str s => !s.isEmpty
  | .list items => !items.isEmpty
  | .dict entries => !entries.isEmpty

/-- `v or w` -/
def orElse (rt : Runtime F) (v w : Json F) : Json F := if v.truthy rt then v else w

/-- `v.get(k)` -/
def get (v : Json F) (k : PyStr) : Except PyError (Json F) :=
  match v with
  | .dict entries => .ok ((Entries.get? entries k).getD .null)
  | _ => .error .attribute

/-- `v[0]` -/
def first : Json F → Except PyError (Json F)
  | .list (v :: _) => .ok v
  | .str (c :: _) => .ok (.str [c])
  | .list [] => .error .index
  | .str [] => .error .index
  | .dict _ => .error .key
  | _ => .error .type

/-- `iter(v)` -/
def iter : Json F → Except PyError (List (Json F))
  | .list items => .ok items
  | .str s => .ok (s.map fun c => .str [c])
  | .dict entries => .ok (entries.map fun e => .str e.1)
  | _ => .error .type

/-- `int(v)` -/
def toInt (rt : Runtime F) : Json F → Except PyError Int
  | .int n => .ok n
  | .bool b => .ok (if b then 1 else 0)
  | .float x => rt.truncate x
  | .str s => rt.intOf s
  | _ => .error .type

/-- `str(v)` -/
def toStr (rt : Runtime F) : Json F → PyStr
  | .str s => s
  | v => rt.strOf v

/-- `json.loads(v)` -/
def loadsValue (rt : Runtime F) : Json F → Except PyError (Json F)
  | .str s => loads rt s
  | _ => .error .type

end Json

end Experiential.Py
