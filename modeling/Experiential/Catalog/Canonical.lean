import Experiential.Lib.PyUnicode
import Experiential.Lib.Squeeze

/-! # Names that meet in one slug

A model found on a serving lane is named by its id on the wire without what the lane adds to it. The folded name is
the slug under which the lanes of one model meet.

Folding writes a run of anything but small letters, digits and dots as one dash, so that it keeps a name that is
`Plain` up to letter case and the spelling of its separators (`sameName_normalizeToken`) and no other: a plus sign is
lost. A folded name is left as it is (`normalizeToken_eq_self`). -/

namespace Experiential.Catalog

open Py

/-- `_SLUG_MAX` -/
def slugMax : ℕ := 128

def dash : CodePoint := .scalar '-'

def dot : CodePoint := .scalar '.'

/-- What `_SLUG_NONWORD` matches. -/
def isNonword (c : CodePoint) : Bool := !(c.between 'a' 'z' || c.between '0' '9' || decide (c = dot))

def isDot (c : CodePoint) : Bool := decide (c = dot)

def isDashOrDot (c : CodePoint) : Bool := decide (c = dash) || decide (c = dot)

/-- What may not end a slug. -/
def isSeparator (c : CodePoint) : Bool := decide (c = dash) || decide (c = dot) || decide (c = .scalar '_')

/-- `_FIREWORKS_PATHS` -/
def fireworksPaths : List PyStr := [text "accounts/fireworks/models/", text "accounts/fireworks/"]

/-- `_BEDROCK_REGIONS` -/
def bedrockRegions : List PyStr := ["us", "eu", "apac", "ap", "ca", "sa", "us-gov", "global"].map text

/-- `_KNOWN_MAKERS` -/
def knownMakers : List PyStr :=
  ["ai21", "amazon", "anthropic", "baidu", "bytedance", "cohere", "deepseek", "google", "luma", "meta", "microsoft",
    "minimax", "mistral", "moonshot", "moonshotai", "nvidia", "openai", "qwen", "stability", "thinkingmachines",
    "writer", "zai"].map text

/-- `_AZURE_LANE_PREFIXES` -/
def azureLanePrefixes : List PyStr := [text "fw-"]

structure CanonicalModel where
  slug : PyStr
  displayName : PyStr
deriving DecidableEq

/-- `_normalize_token` -/
def normalizeToken (value : PyStr) : PyStr :=
  trim isDashOrDot (squeeze isDot dot false (squeeze isNonword dash false (Str.lower value)))

/-- `_BEDROCK_VERSION_SUFFIX` without its minor part: `-v` and digits. -/
def stripMajor (s : PyStr) : PyStr :=
  if s.rtakeWhile CodePoint.isDecimal ≠ [] ∧ text "-v" <:+ s.rdropWhile CodePoint.isDecimal then
    (s.rdropWhile CodePoint.isDecimal).dropLast.dropLast
  else s

/-- `_BEDROCK_VERSION_SUFFIX.sub("", s)`: a colon with digits at the end, and `-v` with digits right before it. -/
def stripVersion (s : PyStr) : PyStr :=
  if s.rtakeWhile CodePoint.isDecimal ≠ [] ∧ (s.rdropWhile CodePoint.isDecimal).getLast? = some (.scalar ':') then
    stripMajor (s.rdropWhile CodePoint.isDecimal).dropLast
  else s

/-- `_split_dotted` -/
def splitDotted (identifier : PyStr) : Option PyStr × PyStr :=
  let parts := Str.split identifier '.'
  let index := if 2 < parts.length ∧ Str.lower (parts.getD 0 []) ∈ bedrockRegions then 1 else 0
  let head := Str.lower (parts.getD index [])
  if head ∈ knownMakers ∧ index + 1 < parts.length then (some head, Str.join '.' (parts.drop (index + 1)))
  else (none, identifier)

/-- The account path of Fireworks is dropped. -/
def stripPath (identifier : PyStr) : PyStr :=
  match fireworksPaths.find? fun path => decide (path <+: identifier) with
  | some path => identifier.drop path.length
  | none => identifier

/-- The marker of the lane of Azure is dropped. -/
def stripLane (identifier : PyStr) : PyStr :=
  match azureLanePrefixes.find? fun lane =>
    decide (lane <+: Str.lower identifier) && decide (lane.length < identifier.length) with
  | some lane => identifier.drop lane.length
  | none => identifier

/-- The maker before a slash or a dot, and what is behind it. -/
def splitVendor (identifier : PyStr) : Option PyStr × PyStr :=
  if CodePoint.scalar '/' ∈ identifier then
    let (vendor, tail) := Str.rpartition identifier '/'
    let vendorKey := (Str.lower vendor).filter fun c => !isNonword c
    (if vendorKey ∈ knownMakers then some vendorKey else none, tail)
  else if dot ∈ identifier then splitDotted identifier
  else (none, identifier)

/-- `_split_maker` -/
def splitMaker (provider providerModelId : PyStr) : Option PyStr × PyStr :=
  let (maker, identifier) := splitVendor (stripPath (Str.strip providerModelId))
  let identifier := if provider = text "azure_openai" then stripLane identifier else identifier
  (maker, if maker.isSome then stripVersion identifier else identifier)

/-- `_LETTER_FIRST.match(s)` -/
def letterFirst (s : PyStr) : Bool := s.head?.any fun c => c.between 'a' 'z'

/-- `_letter_first_slug` -/
def letterFirstSlug (normalized : PyStr) (maker : Option PyStr) (provider : PyStr) : PyStr :=
  if letterFirst normalized then normalized else maker.getD provider ++ dash :: normalized

/-- `c.upper()` of a letter of ASCII. -/
def upperLetter (c : CodePoint) : CodePoint := if c.between 'a' 'z' then .ofNat (c.toNat - 32) else c

/-- `_pretty_word`, of a word of small letters, digits and dots. -/
def prettyWord (word : PyStr) : PyStr :=
  if (word.any fun c => c.between '0' '9') && word.getLast?.any (fun c => c.between 'a' 'z') then word.map upperLetter
  else (word.take 1).map upperLetter ++ word.drop 1

/-- `_prettify` -/
def prettify (normalized : PyStr) : PyStr :=
  Str.join ' ' (((Str.split normalized '-').filter fun word => !word.isEmpty).map prettyWord)

/-- The first of the name, the display name and the provider that does not fold away. -/
def normalizedName (provider base displayName : PyStr) : PyStr :=
  let normalized := normalizeToken base
  let normalized := if normalized.isEmpty then normalizeToken displayName else normalized
  if normalized.isEmpty then provider else normalized

/-- `canonicalize` -/
def canonicalize (provider providerModelId displayName : PyStr) : CanonicalModel :=
  let (maker, base) := splitMaker provider providerModelId
  let normalized := normalizedName provider base displayName
  let slug := letterFirstSlug normalized maker provider
  ⟨(slug.take slugMax).rdropWhile isSeparator, prettify normalized⟩

/-! ### Characters -/

section characters
variable {c : CodePoint}

theorem eq_dash_iff : c = dash ↔ c.toNat = 45 := CodePoint.eq_scalar_iff

theorem eq_dot_iff : c = dot ↔ c.toNat = 46 := CodePoint.eq_scalar_iff

theorem small_iff : c.between 'a' 'z' = true ↔ 97 ≤ c.toNat ∧ c.toNat ≤ 122 := CodePoint.between_iff

theorem digit_iff : c.between '0' '9' = true ↔ 48 ≤ c.toNat ∧ c.toNat ≤ 57 := CodePoint.between_iff

theorem capital_iff : c.between 'A' 'Z' = true ↔ 65 ≤ c.toNat ∧ c.toNat ≤ 90 := CodePoint.between_iff

theorem word_iff : ¬isNonword c ↔
    (97 ≤ c.toNat ∧ c.toNat ≤ 122) ∨ (48 ≤ c.toNat ∧ c.toNat ≤ 57) ∨ c.toNat = 46 := by
  unfold isNonword
  simp only [Bool.not_eq_true', Bool.not_eq_false, Bool.or_eq_true, decide_eq_true_eq, small_iff, digit_iff, eq_dot_iff,
    or_assoc]

theorem isDot_iff : isDot c ↔ c.toNat = 46 := by
  rw [isDot, decide_eq_true_iff, eq_dot_iff]

theorem isDashOrDot_iff : isDashOrDot c ↔ c.toNat = 45 ∨ c.toNat = 46 := by
  rw [isDashOrDot, Bool.or_eq_true, decide_eq_true_iff, decide_eq_true_iff, eq_dash_iff, eq_dot_iff]

theorem isSeparator_iff : isSeparator c ↔ c.toNat = 45 ∨ c.toNat = 46 ∨ c.toNat = 95 := by
  rw [isSeparator, Bool.or_eq_true, Bool.or_eq_true, decide_eq_true_iff, decide_eq_true_iff, decide_eq_true_iff,
    eq_dash_iff, eq_dot_iff, or_assoc]
  exact or_congr_right (or_congr_right CodePoint.eq_scalar_iff)

theorem not_isNonword_dot : ¬isNonword dot := by decide

end characters

/-! ### Folded names -/

/-- Small letters, digits, single dots and single dashes, none of these at the ends. -/
structure Folded (s : PyStr) : Prop where
  chars : ∀ c ∈ s, isNonword c → c = dash
  dashes : NoRun isNonword s
  dots : NoRun isDot s
  head : ∀ c ∈ s.head?, ¬isDashOrDot c
  last : ∀ c ∈ s.getLast?, ¬isDashOrDot c

theorem folded_normalizeToken (value : PyStr) : Folded (normalizeToken value) := by
  have hinf : normalizeToken value <:+: squeeze isDot dot false (squeeze isNonword dash false (Str.lower value)) :=
    infix_trim
  refine ⟨fun c hc hnonword => ?_, ?_, ?_, head_trim_not, getLast_trim_not⟩
  · rcases mem_squeeze (hinf.subset hc) with ⟨rfl, -⟩ | ⟨hmem, -⟩
    · exact absurd hnonword not_isNonword_dot
    · rcases mem_squeeze hmem with ⟨rfl, -⟩ | ⟨-, hword⟩
      · rfl
      · exact absurd hnonword hword
  · refine NoRun.infix (noRun_squeeze_of_noRun (by decide) (fun c hdot => ?_) (noRun_squeeze _ false)) hinf
    rw [isDot_iff] at hdot
    rw [word_iff]
    omega
  · exact NoRun.infix (noRun_squeeze _ false) hinf

theorem Folded.lower {s : PyStr} (h : Folded s) : Str.lower s = s := by
  apply Str.lower_eq_self
  intro c hc
  rw [capital_iff]
  by_cases hnonword : isNonword c
  · obtain rfl := h.chars c hc hnonword
    decide
  · rw [word_iff] at hnonword
    omega

theorem normalizeToken_eq_self {s : PyStr} (h : Folded s) : normalizeToken s = s := by
  have hdots : ∀ c ∈ s, isDot c → c = dot := fun c _ hdot => eq_dot_iff.mpr (isDot_iff.mp hdot)
  rw [normalizeToken, h.lower, squeeze_eq_self h.dashes h.chars, squeeze_eq_self h.dots hdots, trim_eq_self h.head h.last]

theorem Folded.word_of_head {s : PyStr} (h : Folded s) {c : CodePoint} (hc : c ∈ s.head?) :
    (97 ≤ c.toNat ∧ c.toNat ≤ 122) ∨ (48 ≤ c.toNat ∧ c.toNat ≤ 57) := by
  have hmem : c ∈ s := List.mem_of_mem_head? hc
  have hends := h.head c hc
  rw [isDashOrDot_iff, not_or] at hends
  by_cases hnonword : isNonword c
  · exact absurd (eq_dash_iff.mp (h.chars c hmem hnonword)) hends.1
  · rw [word_iff] at hnonword
    omega

/-! ### Names -/

/-- What separates the words of a name: white space, a dash, a dot, an underscore. -/
def separates (c : CodePoint) : Bool := c.isSpace || isSeparator c

/-- A name in small letters, with a dash for every run of separators and none at the ends. -/
def spelled (name : PyStr) : PyStr := trim separates (squeeze separates dash false (Str.lower name))

/-- Equal up to letter case and the spelling of separators. -/
def SameName (a b : PyStr) : Prop := spelled a = spelled b

instance (a b : PyStr) : Decidable (SameName a b) := inferInstanceAs (Decidable (spelled a = spelled b))

/-- Letters and digits of ASCII, and separators. -/
def Plain (name : PyStr) : Prop := ∀ c ∈ Str.lower name, isNonword c → separates c

instance (name : PyStr) : Decidable (Plain name) :=
  inferInstanceAs (Decidable (∀ c ∈ Str.lower name, isNonword c → separates c))

theorem separates_dash : separates dash := by decide

theorem separates_of_isDashOrDot {c : CodePoint} (h : isDashOrDot c) : separates c := by
  rw [separates, Bool.or_eq_true]
  rw [isDashOrDot_iff] at h
  exact .inr (isSeparator_iff.mpr (by omega))

/-- Folding keeps the name of what is plain: only separators are written otherwise. -/
theorem sameName_normalizeToken {name : PyStr} (h : Plain name) : SameName (normalizeToken name) name := by
  have hlower : Str.lower (normalizeToken name) = normalizeToken name := (folded_normalizeToken name).lower
  unfold SameName spelled
  rw [hlower]
  obtain ⟨u, v, htrim, hu, hv⟩ := exists_trim isDashOrDot
    (squeeze isDot dot false (squeeze isNonword dash false (Str.lower name)))
  have hends := trim_squeeze_append (p := separates) (r := dash) separates_dash
    (fun c hc => separates_of_isDashOrDot (hu c hc)) (fun c hc => separates_of_isDashOrDot (hv c hc))
    (normalizeToken name)
  have hdots : ∀ c ∈ squeeze isNonword dash false (Str.lower name), isDot c → separates c := fun c _ hc =>
    separates_of_isDashOrDot (isDashOrDot_iff.mpr (.inr (isDot_iff.mp hc)))
  rw [← hends, normalizeToken, ← htrim, squeeze_squeeze (by decide) (fun h => h) hdots,
    squeeze_squeeze separates_dash (fun h => h) h]

theorem sameName_of_normalizeToken {a b : PyStr} (ha : Plain a) (hb : Plain b)
    (h : normalizeToken a = normalizeToken b) : SameName a b :=
  (sameName_normalizeToken ha).symm.trans ((congrArg spelled h).trans (sameName_normalizeToken hb))

theorem SameName.filter_eq {a b : PyStr} (h : SameName a b) :
    (Str.lower a).filter (fun c => !separates c) = (Str.lower b).filter (fun c => !separates c) := by
  have hspelled : ∀ s : PyStr, (spelled s).filter (fun c => !separates c) = (Str.lower s).filter (fun c => !separates c) :=
    fun s => (filter_trim _).trans (filter_squeeze separates_dash _ _)
  rw [← hspelled, ← hspelled, h]

end Experiential.Catalog
