import Mathlib.Data.List.DropRight
import Mathlib.Data.Nat.Digits.Defs

/-! # Resolving a reference against an origin

The states of the WHATWG URL parser that decide the scheme, the host and the port of a reference which is resolved
against an `http` or `https` URL. The host parser and what a reference with a scheme of its own yields are parameters;
the states behind the authority neither fail nor touch the origin. `readAuthority` says without a machine what the
states read (`authorityState_eq`), and `resolve_slash` what becomes of a reference that begins with a slash. -/

namespace Experiential.Url

/-- The special schemes with a host of their own. -/
inductive Scheme where
  | http
  | https
deriving DecidableEq

def Scheme.defaultPort : Scheme → Nat
  | .http => 80
  | .https => 443

/-- A tuple origin; the default port is not written. -/
structure Origin (H : Type) where
  scheme : Scheme
  host : H
  port : Option Nat
deriving DecidableEq

/-- What the states below leave open. -/
structure Parser (H : Type) where
  parseHost : List Char → Option H
  /-- References that begin with a letter. -/
  parseLettered : Origin H → List Char → Option (Origin H)

/-! ### Characters -/

def isC0OrSpace (c : Char) : Bool := c.toNat ≤ 0x20

def isTabOrNewline (c : Char) : Bool := c = '\t' || c = '\n' || c = '\r'

/-- A slash of a special URL. -/
def isSlash (c : Char) : Bool := c = '/' || c = '\\'

/-- Does the character end the authority of a special URL? -/
def endsAuthority (c : Char) : Bool := isSlash c || c = '?' || c = '#'

/-- Leading and trailing C0 controls and spaces go, and every tab and newline. -/
def preprocess (s : List Char) : List Char :=
  ((s.dropWhile isC0OrSpace).rdropWhile isC0OrSpace).filter fun c => !isTabOrNewline c

/-! ### The states -/

section states
variable {H : Type} (p : Parser H) (scheme : Scheme)

/-- The port of a buffer of digits. -/
def finishPort (host : H) (buffer : List Char) : Option (Origin H) :=
  if buffer = [] then some ⟨scheme, host, none⟩
  else
    let port := Nat.ofDigitChars 10 buffer 0
    if 65535 < port then none
    else some ⟨scheme, host, if port = scheme.defaultPort then none else some port⟩

def portState (host : H) : List Char → List Char → Option (Origin H)
  | buffer, [] => finishPort scheme host buffer
  | buffer, c :: rest =>
      if c.isDigit then portState host (buffer ++ [c]) rest
      else if endsAuthority c then finishPort scheme host buffer
      else none

/-- An empty host fails a special URL. -/
def finishHost (buffer : List Char) : Option H :=
  if buffer = [] then none else p.parseHost buffer

def hostState : Bool → List Char → List Char → Option (Origin H)
  | _, buffer, [] => do
      let host ← finishHost p buffer
      finishPort scheme host []
  | insideBrackets, buffer, c :: rest =>
      if c = ':' ∧ insideBrackets = false then do
        let host ← finishHost p buffer
        portState scheme host [] rest
      else if endsAuthority c then do
        let host ← finishHost p buffer
        finishPort scheme host []
      else
        hostState (if c = '[' then true else if c = ']' then false else insideBrackets) (buffer ++ [c]) rest

/-- The buffer holds what has been read since the last `@`; the host state reads it again. -/
def authorityState : Bool → List Char → List Char → Option (Origin H)
  | atSignSeen, buffer, [] => if atSignSeen ∧ buffer = [] then none else hostState p scheme false [] buffer
  | atSignSeen, buffer, c :: rest =>
      if c = '@' then authorityState true [] rest
      else if endsAuthority c then
        if atSignSeen ∧ buffer = [] then none else hostState p scheme false [] (buffer ++ c :: rest)
      else authorityState atSignSeen (buffer ++ [c]) rest

/-- Any number of further slashes. -/
def specialAuthorityIgnoreSlashesState : List Char → Option (Origin H)
  | [] => authorityState p scheme false [] []
  | c :: rest => if isSlash c then specialAuthorityIgnoreSlashesState rest else authorityState p scheme false [] (c :: rest)

end states

section resolve
variable {H : Type} (p : Parser H) (base : Origin H)

/-- Behind one slash. -/
def relativeSlashState : List Char → Option (Origin H)
  | [] => some base
  | c :: rest => if isSlash c then specialAuthorityIgnoreSlashesState p base.scheme rest else some base

/-- A reference without a scheme. -/
def relativeState : List Char → Option (Origin H)
  | [] => some base
  | c :: rest => if isSlash c then relativeSlashState p base rest else some base

def schemeStartState : List Char → Option (Origin H)
  | [] => relativeState p base []
  | c :: rest => if c.isAlpha then p.parseLettered base (c :: rest) else relativeState p base (c :: rest)

/-- The origin of a reference resolved against a URL of the origin `base`; `none` is a failure. -/
def resolve (s : List Char) : Option (Origin H) := schemeStartState p base (preprocess s)

end resolve

/-! ### What an authority names -/

/-- What stands behind the last `@`, and whether there is one. -/
def splitUserinfo (a : List Char) : Bool × List Char :=
  (decide ('@' ∈ a), a.rtakeWhile fun c => c ≠ '@')

/-- The host, up to the first colon outside brackets, and what follows the colon. -/
def splitHost : Bool → List Char → List Char × Option (List Char)
  | _, [] => ([], none)
  | insideBrackets, c :: rest =>
      if c = ':' ∧ insideBrackets = false then ([], some rest)
      else
        let (host, port) := splitHost (if c = '[' then true else if c = ']' then false else insideBrackets) rest
        (c :: host, port)

/-- A port is digits only, or nothing. -/
def readPort {H : Type} (scheme : Scheme) (host : H) (port : List Char) : Option (Origin H) :=
  if port.all Char.isDigit then finishPort scheme host port else none

/-- The origin that a host and a port name. -/
def readHostPort {H : Type} (p : Parser H) (scheme : Scheme) (hostPort : List Char) : Option (Origin H) := do
  let host ← finishHost p (splitHost false hostPort).1
  readPort scheme host ((splitHost false hostPort).2.getD [])

/-- The origin that an authority names: its user information is left out, but must be followed by a host. -/
def readAuthority {H : Type} (p : Parser H) (scheme : Scheme) (a : List Char) : Option (Origin H) :=
  if (splitUserinfo a).1 = true ∧ (splitUserinfo a).2 = [] then none
  else readHostPort p scheme (splitUserinfo a).2

/-- The authority at the beginning of a text. -/
def authority (s : List Char) : List Char := s.takeWhile fun c => !endsAuthority c

/-! ### The states read what the authority names -/

section agreement
variable {H : Type} {p : Parser H} {scheme : Scheme}

theorem authority_cons_of_ends {c : Char} (s : List Char) (hc : endsAuthority c = true) : authority (c :: s) = [] := by
  unfold authority
  rw [List.takeWhile_cons_of_neg (by simp [hc])]

theorem authority_cons {c : Char} (s : List Char) (hc : endsAuthority c = false) :
    authority (c :: s) = c :: authority s := by
  unfold authority
  rw [List.takeWhile_cons_of_pos (by simp [hc])]

theorem portState_eq (scheme : Scheme) (host : H) : ∀ (rest buffer : List Char), buffer.all Char.isDigit = true →
    portState scheme host buffer rest = readPort scheme host (buffer ++ authority rest)
  | [], buffer, hbuffer => by
      have hnil : authority [] = [] := rfl
      rw [portState, hnil, List.append_nil, readPort, if_pos hbuffer]
  | c :: rest, buffer, hbuffer => by
      rw [portState]
      split
      · rename_i hdigit
        have hends : endsAuthority c = false := by
          have hne : ∀ d, d.isDigit = false → c ≠ d := fun d hd h => by rw [h, hd] at hdigit; cases hdigit
          simp [endsAuthority, isSlash, hne '/' rfl, hne '\\' rfl, hne '?' rfl, hne '#' rfl]
        rw [portState_eq scheme host rest (buffer ++ [c]) (by simp [hdigit, hbuffer]), authority_cons rest hends,
          List.append_assoc]
        rfl
      · rename_i hdigit
        split
        · rename_i hends
          rw [authority_cons_of_ends rest hends, List.append_nil, readPort, if_pos hbuffer]
        · rename_i hends
          rw [authority_cons rest (by simpa using hends), readPort, if_neg]
          simp [hdigit]

theorem hostState_eq : ∀ (rest buffer : List Char) (inside : Bool),
    hostState p scheme inside buffer rest = (do
      let host ← finishHost p (buffer ++ (splitHost inside (authority rest)).1)
      readPort scheme host ((splitHost inside (authority rest)).2.getD []))
  | [], buffer, inside => by
      have hnil : authority [] = [] := rfl
      rw [hostState, hnil, splitHost, List.append_nil]
      rfl
  | c :: rest, buffer, inside => by
      rw [hostState]
      split
      · rename_i hcolon
        obtain ⟨rfl, rfl⟩ := hcolon
        rw [authority_cons rest (by decide), splitHost, if_pos ⟨rfl, rfl⟩, List.append_nil]
        simp only [portState_eq scheme _ rest [] rfl]
        rfl
      · rename_i hcolon
        split
        · rename_i hends
          rw [authority_cons_of_ends rest hends, splitHost, List.append_nil]
          rfl
        · rename_i hends
          rw [hostState_eq rest, authority_cons rest (by simpa using hends), splitHost, if_neg hcolon,
            List.append_assoc]
          rfl

theorem authority_append {l : List Char} (hl : ∀ c ∈ l, endsAuthority c = false) (s : List Char) :
    authority (l ++ s) = l ++ authority s := by
  unfold authority
  exact List.takeWhile_append_of_pos fun c hc => by simp [hl c hc]

theorem rtakeWhile_of_forall {l : List Char} (hl : ∀ c ∈ l, c ≠ '@') : l.rtakeWhile (fun c => c ≠ '@') = l :=
  List.rtakeWhile_eq_self_iff.mpr fun c hc => by simpa using hl c hc

/-- What stands before an at sign is user information. -/
theorem rtakeWhile_append_at (l m : List Char) :
    (l ++ '@' :: m).rtakeWhile (fun c => c ≠ '@') = m.rtakeWhile fun c => c ≠ '@' := by
  unfold List.rtakeWhile
  rw [List.reverse_append, List.reverse_cons, List.append_assoc, List.takeWhile_append]
  split
  · rename_i hall
    have hself : m.reverse.takeWhile (fun c => c ≠ '@') = m.reverse :=
      List.IsPrefix.eq_of_length (List.takeWhile_prefix _) hall
    rw [hself]
    simp
  · rfl

theorem hostState_readHostPort (s : List Char) :
    hostState p scheme false [] s = readHostPort p scheme (authority s) := hostState_eq s [] false

/-- The buffer holds no at sign and nothing that ends the authority. -/
theorem authorityState_eq : ∀ (rest buffer : List Char) (seen : Bool),
    (∀ c ∈ buffer, endsAuthority c = false ∧ c ≠ '@') →
    authorityState p scheme seen buffer rest =
      if (seen = true ∨ '@' ∈ authority rest) ∧ (buffer ++ authority rest).rtakeWhile (fun c => c ≠ '@') = [] then none
      else readHostPort p scheme ((buffer ++ authority rest).rtakeWhile fun c => c ≠ '@')
  | [], buffer, seen, hbuffer => by
      have hnil : authority [] = [] := rfl
      have hself := rtakeWhile_of_forall fun c hc => (hbuffer c hc).2
      have hwhole := authority_append (fun c hc => (hbuffer c hc).1) []
      rw [hnil, List.append_nil] at hwhole
      rw [authorityState, hnil, List.append_nil, hself, hostState_readHostPort, hwhole]
      simp
  | c :: rest, buffer, seen, hbuffer => by
      rw [authorityState]
      split
      · rename_i hat
        subst hat
        rw [authorityState_eq rest [] true (by simp), authority_cons rest (by decide), rtakeWhile_append_at]
        simp
      · rename_i hat
        split
        · rename_i hends
          have hself := rtakeWhile_of_forall fun c hc => (hbuffer c hc).2
          rw [hostState_readHostPort, authority_append fun c hc => (hbuffer c hc).1, authority_cons_of_ends rest hends,
            List.append_nil, hself]
          simp
        · rename_i hends
          have hends : endsAuthority c = false := by simpa using hends
          have hmem : '@' ∈ c :: authority rest ↔ '@' ∈ authority rest := by
            rw [List.mem_cons]
            exact or_iff_right (Ne.symm hat)
          rw [authorityState_eq rest (buffer ++ [c]) seen, authority_cons rest hends, List.append_assoc]
          · simp only [hmem]
            rfl
          · intro d hd
            rcases List.mem_append.mp hd with hd | hd
            · exact hbuffer d hd
            · rw [List.mem_singleton.mp hd]
              exact ⟨hends, hat⟩

theorem authorityState_readAuthority (s : List Char) :
    authorityState p scheme false [] s = readAuthority p scheme (authority s) := by
  rw [authorityState_eq s [] false (by simp)]
  simp [readAuthority, splitUserinfo]

theorem specialAuthorityIgnoreSlashesState_eq : ∀ s : List Char,
    specialAuthorityIgnoreSlashesState p scheme s = readAuthority p scheme (authority (s.dropWhile isSlash))
  | [] => by rw [specialAuthorityIgnoreSlashesState, authorityState_readAuthority, List.dropWhile_nil]
  | c :: rest => by
      rw [specialAuthorityIgnoreSlashesState]
      split
      · rename_i hslash
        rw [specialAuthorityIgnoreSlashesState_eq rest, List.dropWhile_cons_of_pos hslash]
      · rename_i hslash
        rw [authorityState_readAuthority, List.dropWhile_cons_of_neg hslash]

end agreement

/-! ### References that begin with a slash -/

section slash
variable {H : Type} {p : Parser H} {base : Origin H}

/-- Whitespace at the end leaves a leading slash alone. -/
theorem preprocess_slash (s : List Char) :
    preprocess ('/' :: s) = '/' :: (s.rdropWhile isC0OrSpace).filter fun c => !isTabOrNewline c := by
  have hcons : ('/' :: s).rdropWhile isC0OrSpace = '/' :: s.rdropWhile isC0OrSpace := by
    unfold List.rdropWhile
    rw [List.reverse_cons, List.dropWhile_append]
    split
    · rename_i hempty
      rw [List.isEmpty_iff.mp hempty]
      rfl
    · rw [List.reverse_append]
      rfl
  unfold preprocess
  rw [List.dropWhile_cons_of_neg (by decide), hcons, List.filter_cons_of_pos (by decide)]

/-- The first character that counts, tabs and newlines apart. -/
theorem head?_preprocessed {s : List Char} {c : Char} (hc : isC0OrSpace c = false) :
    ((s.rdropWhile isC0OrSpace).filter fun c => !isTabOrNewline c).head? = some c ↔
      (s.dropWhile isTabOrNewline).head? = some c := by
  have hsplit : s.rdropWhile isC0OrSpace ++ s.rtakeWhile isC0OrSpace = s := List.rdropWhile_append_rtakeWhile
  have htail : (s.rtakeWhile isC0OrSpace).find? (fun c => !isTabOrNewline c) ≠ some c := fun h => by
    have hmem := List.mem_rtakeWhile_imp (List.mem_of_find?_eq_some h)
    rw [hc] at hmem
    cases hmem
  have hfind : s.find? (fun c => !isTabOrNewline c) =
      ((s.rdropWhile isC0OrSpace).find? fun c => !isTabOrNewline c).or
        ((s.rtakeWhile isC0OrSpace).find? fun c => !isTabOrNewline c) := by
    rw [← List.find?_append, hsplit]
  rw [List.head?_filter, ← List.find?_not_eq_head?_dropWhile, hfind, Option.or_eq_some_iff]
  constructor
  · exact .inl
  · rintro (h | ⟨-, h⟩)
    · exact h
    · exact absurd h htail

/-- **A reference that begins with a slash** stays on the origin, unless a second slash follows behind tabs and
newlines; then the authority behind it decides. -/
theorem resolve_slash (s : List Char)
    [Decidable (∃ c, (s.dropWhile isTabOrNewline).head? = some c ∧ isSlash c = true)] :
    resolve p base ('/' :: s) =
      if ∃ c, (s.dropWhile isTabOrNewline).head? = some c ∧ isSlash c = true then
        readAuthority p base.scheme (authority ((preprocess ('/' :: s)).dropWhile isSlash))
      else some base := by
  have hfirst : ∀ c, isSlash c = true → isC0OrSpace c = false := fun c h => by
    rcases Bool.or_eq_true_iff.mp h with h | h <;>
    · rw [of_decide_eq_true h]
      rfl
  unfold resolve
  rw [preprocess_slash, schemeStartState, if_neg (by decide), relativeState, if_pos (by decide),
    List.dropWhile_cons_of_pos (by decide)]
  cases hrest : (s.rdropWhile isC0OrSpace).filter (fun c => !isTabOrNewline c) with
  | nil =>
      rw [relativeSlashState, if_neg]
      rintro ⟨c, hhead, hslash⟩
      rw [← head?_preprocessed (hfirst c hslash), hrest] at hhead
      cases hhead
  | cons c rest =>
      rw [relativeSlashState]
      split
      · rename_i hslash
        rw [if_pos ⟨c, (head?_preprocessed (hfirst c hslash)).mp (by rw [hrest]; rfl), hslash⟩,
          specialAuthorityIgnoreSlashesState_eq, List.dropWhile_cons_of_pos hslash]
      · rename_i hslash
        rw [if_neg]
        rintro ⟨d, hhead, hd⟩
        rw [← head?_preprocessed (hfirst d hd), hrest] at hhead
        cases hhead
        exact hslash hd

end slash

end Experiential.Url
