import Experiential.Lib.Url

/-! # Redirects after sign-in

`safeNextPath` keeps a `next` value that begins with one slash and has no backslash. The browser's URL parser removes
tabs and newlines before it looks for a second slash, so a value may still leave the origin: `safeNextPath_on_origin_iff`
says exactly which. -/

namespace Experiential.Web

open Url

/-! ### Strings -/

/-- A JavaScript string: UTF-16 code units. -/
abbrev JsStr := List UInt16

def isLead (u : UInt16) : Bool := 0xD800 ≤ u && u < 0xDC00

def isTrail (u : UInt16) : Bool := 0xDC00 ≤ u && u < 0xE000

/-- A unit that stands alone; a lone surrogate is replaced. -/
def loneUnit (u : UInt16) : Char := if isLead u || isTrail u then Char.ofNat 0xFFFD else Char.ofNat u.toNat

/-- The conversion to scalar values that `new URL` begins with. -/
def toScalars : JsStr → List Char
  | [] => []
  | [u] => [loneUnit u]
  | u :: v :: s =>
      if isLead u ∧ isTrail v then
        Char.ofNat (0x10000 + (u.toNat - 0xD800) * 0x400 + (v.toNat - 0xDC00)) :: toScalars s
      else loneUnit u :: toScalars (v :: s)

/-- The units of a literal without characters beyond the basic plane. -/
def units (s : String) : JsStr := s.toList.map fun c => c.toNat.toUInt16

/-! ### The check -/

/-- `value.includes("\\")` and the tests before it. -/
def refusesNext (value : JsStr) : Bool :=
  value = [] || !List.isPrefixOf [0x2F] value || List.isPrefixOf [0x2F, 0x2F] value || value.contains 0x5C

/-- `safeNextPath` -/
def safeNextPath : Option JsStr → JsStr
  | none => [0x2F]
  | some value => if refusesNext value then [0x2F] else value

/-- `new URL(next, requestOrigin(request)).origin` -/
def redirectOrigin {H : Type} (p : Parser H) (origin : Origin H) (value : Option JsStr) : Option (Origin H) :=
  resolve p origin (toScalars (safeNextPath value))

/-! ### Units and characters -/

theorem toNat_ofNat {n : Nat} (hn : n.isValidChar) : (Char.ofNat n).toNat = n := by
  rw [Char.ofNat, dif_pos hn]
  rfl

theorem toScalars_cons {u : UInt16} (hu : u.toNat < 0x80) (s : JsStr) :
    toScalars (u :: s) = Char.ofNat u.toNat :: toScalars s := by
  have hlead : isLead u = false := by
    have hlt : ¬0xD800 ≤ u := fun h => by
      have := UInt16.le_iff_toNat_le.mp h
      simp at this
      omega
    simp [isLead, hlt]
  have htrail : isTrail u = false := by
    have hlt : ¬0xDC00 ≤ u := fun h => by
      have := UInt16.le_iff_toNat_le.mp h
      simp at this
      omega
    simp [isTrail, hlt]
  cases s with
  | nil | cons v s => simp [toScalars, loneUnit, hlead, htrail]

theorem le_toNat_loneUnit {u : UInt16} (hu : 0x80 ≤ u.toNat) : 0x80 ≤ (loneUnit u).toNat := by
  unfold loneUnit
  split
  · decide
  · rename_i hlone
    rw [toNat_ofNat]
    · exact hu
    · simp only [isLead, isTrail, Bool.or_eq_true, Bool.and_eq_true, decide_eq_true_eq, UInt16.le_iff_toNat_le,
        UInt16.lt_iff_toNat_lt] at hlone
      have hlt := u.toNat_lt
      simp at hlone
      unfold Nat.isValidChar
      omega

theorem toScalars_cons_high {u : UInt16} (hu : 0x80 ≤ u.toNat) :
    ∀ s : JsStr, ∃ c t, toScalars (u :: s) = c :: t ∧ 0x80 ≤ c.toNat
  | [] => ⟨loneUnit u, [], rfl, le_toNat_loneUnit hu⟩
  | v :: s => by
      rw [toScalars]
      split
      · rename_i hpair
        refine ⟨_, _, rfl, ?_⟩
        simp only [isLead, isTrail, Bool.and_eq_true, decide_eq_true_eq, UInt16.le_iff_toNat_le,
          UInt16.lt_iff_toNat_lt] at hpair
        simp at hpair
        rw [toNat_ofNat]
        · omega
        · unfold Nat.isValidChar
          omega
      · exact ⟨_, _, rfl, le_toNat_loneUnit hu⟩

/-! ### The second slash -/

/-- Tab, line feed or carriage return. -/
def isTabOrNewlineUnit (u : UInt16) : Bool := u = 0x09 || u = 0x0A || u = 0x0D

/-- Behind the first unit, tabs and newlines apart, the next one is a slash. -/
def SecondSlash (path : JsStr) : Prop := (path.tail.dropWhile isTabOrNewlineUnit).head? = some 0x2F

instance : DecidablePred SecondSlash := fun _ => inferInstanceAs (Decidable (_ = _))

/-- The authority behind the slashes is the origin's own. -/
def NamesOrigin {H : Type} (p : Parser H) (origin : Origin H) (path : JsStr) : Prop :=
  readAuthority p origin.scheme (authority ((preprocess (toScalars path)).dropWhile isSlash)) = some origin

theorem ofNat_eq_iff {u : UInt16} (hu : u.toNat < 0x80) (d : Char) : Char.ofNat u.toNat = d ↔ u.toNat = d.toNat := by
  have hself : (Char.ofNat u.toNat).toNat = u.toNat := toNat_ofNat (.inl (by omega))
  constructor
  · rintro rfl
    exact hself.symm
  · intro h
    rw [h, Char.ofNat_toNat]

theorem isTabOrNewline_ofNat {u : UInt16} (hu : u.toNat < 0x80) :
    isTabOrNewline (Char.ofNat u.toNat) = isTabOrNewlineUnit u := by
  unfold isTabOrNewline isTabOrNewlineUnit
  simp only [ofNat_eq_iff hu, ← UInt16.toNat_inj]
  rfl

/-- The first unit that counts is a slash exactly if the first character is. -/
theorem secondSlash_iff : ∀ {s : JsStr}, 0x5C ∉ s →
    ((∃ c, ((toScalars s).dropWhile isTabOrNewline).head? = some c ∧ isSlash c = true) ↔
      (s.dropWhile isTabOrNewlineUnit).head? = some 0x2F)
  | [], _ => by simp [toScalars]
  | u :: s, hs => by
      by_cases hu : u.toNat < 0x80
      · rw [toScalars_cons hu]
        cases htab : isTabOrNewlineUnit u with
        | true =>
            rw [List.dropWhile_cons_of_pos htab, List.dropWhile_cons_of_pos ((isTabOrNewline_ofNat hu).trans htab)]
            exact secondSlash_iff fun h => hs (List.mem_cons_of_mem _ h)
        | false =>
            have hchar : ¬isTabOrNewline (Char.ofNat u.toNat) = true := by rw [isTabOrNewline_ofNat hu, htab]; simp
            have hbackslash : u ≠ 0x5C := fun h => hs (h ▸ List.mem_cons_self)
            rw [List.dropWhile_cons_of_neg hchar, List.dropWhile_cons_of_neg (by simp [htab])]
            simp only [List.head?_cons, Option.some.injEq, exists_eq_left', isSlash, Bool.or_eq_true, decide_eq_true_eq]
            rw [ofNat_eq_iff hu, ofNat_eq_iff hu]
            rw [← UInt16.toNat_inj]
            refine or_iff_left fun h => hbackslash ?_
            rw [← UInt16.toNat_inj, h]
            rfl
      · obtain ⟨c, t, hcons, hc⟩ := toScalars_cons_high (by omega : 0x80 ≤ u.toNat) s
        have hne : ∀ d : Char, d.toNat < 0x80 → c ≠ d := by
          rintro d hd rfl
          omega
        have hneu : ∀ v : UInt16, v.toNat < 0x80 → u ≠ v := by
          rintro v hv rfl
          omega
        rw [hcons, List.dropWhile_cons_of_neg, List.dropWhile_cons_of_neg]
        · simp [isSlash, hne '/' (by decide), hne '\\' (by decide), hneu 0x2F (by decide)]
        · simp [isTabOrNewlineUnit, hneu 9 (by decide), hneu 10 (by decide), hneu 13 (by decide)]
        · simp [isTabOrNewline, hne '\t' (by decide), hne '\n' (by decide), hne '\r' (by decide)]

/-! ### Where a redirect goes -/

section redirect
variable {H : Type} {p : Parser H} {origin : Origin H}

theorem accepted {path : JsStr} (h : refusesNext path = false) : ∃ s, path = 0x2F :: s ∧ 0x5C ∉ s := by
  unfold refusesNext at h
  rw [Bool.or_eq_false_iff, Bool.or_eq_false_iff, Bool.or_eq_false_iff, decide_eq_false_iff_not] at h
  obtain ⟨⟨⟨hne, hprefix⟩, -⟩, hbackslash⟩ := h
  cases path with
  | nil => exact absurd rfl hne
  | cons u s =>
      have hu : 0x2F = u := by simpa [List.isPrefixOf] using hprefix
      refine ⟨s, by rw [hu], fun hmem => ?_⟩
      have hcontains : (u :: s).contains 0x5C = true := List.contains_iff_mem.mpr (List.mem_cons_of_mem _ hmem)
      rw [hcontains] at hbackslash
      cases hbackslash

theorem redirectOrigin_slash : resolve p origin (toScalars [0x2F]) = some origin := by
  have hslash : toScalars [0x2F] = ['/'] := by decide
  rw [hslash, resolve_slash, if_neg]
  rintro ⟨c, hc, -⟩
  cases hc

theorem redirectOrigin_accepted {path : JsStr} (h : refusesNext path = false) :
    resolve p origin (toScalars path) =
      if SecondSlash path then readAuthority p origin.scheme (authority ((preprocess (toScalars path)).dropWhile isSlash))
      else some origin := by
  obtain ⟨s, rfl, hs⟩ := accepted h
  have hcons : toScalars (0x2F :: s) = '/' :: toScalars s := toScalars_cons (by decide) s
  rw [hcons, resolve_slash]
  simp only [secondSlash_iff hs]
  rfl

/-- **A redirect stays on the origin** exactly if the value is absent or refused, or no second slash follows its first
one behind tabs and newlines, or the authority behind the slashes is the origin's own. -/
theorem safeNextPath_on_origin_iff {H : Type} (p : Parser H) (origin : Origin H) (value : Option JsStr) :
    redirectOrigin p origin value = some origin ↔
      ∀ path, value = some path → refusesNext path = false → SecondSlash path → NamesOrigin p origin path := by
  unfold redirectOrigin
  cases value with
  | none => exact iff_of_true redirectOrigin_slash nofun
  | some path =>
      cases hrefuse : refusesNext path with
      | true =>
          rw [safeNextPath, if_pos hrefuse]
          refine iff_of_true redirectOrigin_slash fun q hq hr => ?_
          cases hq
          rw [hrefuse] at hr
          cases hr
      | false =>
          rw [safeNextPath, if_neg (by simp [hrefuse]), redirectOrigin_accepted hrefuse]
          by_cases hsecond : SecondSlash path
          · rw [if_pos hsecond]
            constructor
            · rintro h q ⟨⟩ - -
              exact h
            · exact fun h => h path rfl hrefuse hsecond
          · rw [if_neg hsecond]
            refine iff_of_true rfl ?_
            rintro q ⟨⟩ - h
            exact absurd h hsecond

end redirect

/-- A host parser for lower-case ASCII domains. -/
def asciiDomains : Parser String where
  parseHost s := if s.all fun c => c.isLower || c.isDigit || c = '.' || c = '-' then some (String.ofList s) else none
  parseLettered _ _ := none

/-- The origin of the application in the example. -/
def appOrigin : Origin String := ⟨.https, "app.example", none⟩

/-- A tab hides the second slash from the check. -/
theorem tab_leaves_origin :
    redirectOrigin asciiDomains appOrigin (some (units "/\t/evil.example")) = some ⟨.https, "evil.example", none⟩ ∧
      redirectOrigin asciiDomains appOrigin (some (units "/\t/evil.example")) ≠ some appOrigin := by
  constructor <;> decide

end Experiential.Web
