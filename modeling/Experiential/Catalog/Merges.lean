import Experiential.Catalog.Canonical

/-! # When two ids are one model

What is taken from an id is one of the documented decorations of a lane (`splitMaker_decorated`), and every slug is of
the catalog's grammar (`canonicalize_grammar`). Ids that are `Legible` have one slug only if their names are the same;
any other id is taken for a legible one of another name (`slugs_tell_models_apart`), as `cohere/command-r+` is for
`cohere/command-r` (`plus_is_lost`). -/

namespace Experiential.Catalog

open Py

variable {provider id displayName : PyStr} {maker : Option PyStr}

/-! ### Decorations -/

/-- A vendor before a slash, or a maker before a dot behind its region. -/
inductive IsVendor : PyStr → Option PyStr → Prop
  | none : IsVendor [] none
  | slash (vendor : PyStr) (maker : Option PyStr) : IsVendor (vendor ++ [.scalar '/']) maker
  | dotted (region maker : PyStr) : (region = [] ∨ ∃ r, Str.lower r ∈ bedrockRegions ∧ region = r ++ [dot]) →
      Str.lower maker ∈ knownMakers → IsVendor (region ++ (maker ++ [dot])) (some (Str.lower maker))

/-- `-v` with its number where there is one, a colon and a number. -/
def IsColonVersion (version : PyStr) : Prop :=
  ∃ major minor, version = major ++ CodePoint.scalar ':' :: minor ∧ minor ≠ [] ∧ (∀ c ∈ minor, c.isDecimal) ∧
    (major = [] ∨ ∃ digits, major = text "-v" ++ digits ∧ digits ≠ [] ∧ ∀ c ∈ digits, c.isDecimal)

theorem stripMajor_spec (s : PyStr) : ∃ major, s = stripMajor s ++ major ∧
    (major = [] ∨ ∃ digits, major = text "-v" ++ digits ∧ digits ≠ [] ∧ ∀ c ∈ digits, c.isDecimal) := by
  unfold stripMajor
  split
  · rename_i h
    obtain ⟨hdigits, u, hu⟩ := h
    have hs := List.rdropWhile_append_rtakeWhile (p := CodePoint.isDecimal) (l := s)
    have hdrop : (s.rdropWhile CodePoint.isDecimal).dropLast.dropLast = u := by
      rw [← hu]
      simp [text_eq]
    refine ⟨text "-v" ++ s.rtakeWhile CodePoint.isDecimal, ?_, .inr ⟨_, rfl, hdigits, fun c hc => List.mem_rtakeWhile_imp hc⟩⟩
    rw [hdrop, ← List.append_assoc, hu, hs]
  · exact ⟨[], by simp, .inl rfl⟩

theorem stripVersion_spec (s : PyStr) : ∃ version, s = stripVersion s ++ version ∧ (version = [] ∨ IsColonVersion version) := by
  unfold stripVersion
  split
  · rename_i h
    obtain ⟨hminor, hcolon⟩ := h
    obtain ⟨major, hmajor, hcases⟩ := stripMajor_spec (s.rdropWhile CodePoint.isDecimal).dropLast
    have hs := List.rdropWhile_append_rtakeWhile (p := CodePoint.isDecimal) (l := s)
    have hlast : (s.rdropWhile CodePoint.isDecimal).dropLast ++ [.scalar ':'] = s.rdropWhile CodePoint.isDecimal :=
      List.dropLast_append_getLast? _ hcolon
    refine ⟨major ++ .scalar ':' :: s.rtakeWhile CodePoint.isDecimal, ?_,
      .inr ⟨major, _, rfl, hminor, fun c hc => List.mem_rtakeWhile_imp hc, hcases⟩⟩
    calc s = (s.rdropWhile CodePoint.isDecimal).dropLast ++ [.scalar ':'] ++ s.rtakeWhile CodePoint.isDecimal := by
          rw [hlast, hs]
      _ = stripMajor (s.rdropWhile CodePoint.isDecimal).dropLast ++ major ++ [.scalar ':'] ++
          s.rtakeWhile CodePoint.isDecimal := by rw [← hmajor]
      _ = _ := by simp only [List.append_assoc, List.singleton_append]
  · exact ⟨[], by simp, .inl rfl⟩

theorem join_cons {c : Char} {part : PyStr} {parts : List PyStr} (h : parts ≠ []) :
    Str.join c (part :: parts) = part ++ .scalar c :: Str.join c parts := by
  rw [Str.join, List.intercalate_cons_of_ne_nil h]
  simp [Str.join]

theorem splitDotted_spec (identifier : PyStr) : ∃ vendor, identifier = vendor ++ (splitDotted identifier).2 ∧
    IsVendor vendor (splitDotted identifier).1 := by
  have hjoin := Str.join_split '.' identifier
  unfold splitDotted
  cases hparts : Str.split identifier '.' with
  | nil => exact absurd hparts (Str.split_ne_nil _ _)
  | cons first rest =>
    rw [hparts] at hjoin
    dsimp only
    by_cases hregion : 2 < (first :: rest).length ∧ Str.lower ((first :: rest).getD 0 []) ∈ bedrockRegions
    · rw [if_pos hregion]
      obtain ⟨hlong, hregion⟩ := hregion
      cases rest with
      | nil => simp at hlong
      | cons second rest =>
        split
        · rename_i hmaker
          have hrest : rest ≠ [] := by
            rintro rfl
            simp at hlong
          refine ⟨first ++ [dot] ++ (second ++ [dot]), ?_, ?_⟩
          · rw [join_cons (List.cons_ne_nil _ _), join_cons hrest] at hjoin
            rw [← hjoin]
            simp [dot]
          · exact .dotted _ second (.inr ⟨first, hregion, rfl⟩) hmaker.1
        · exact ⟨[], rfl, .none⟩
    · rw [if_neg hregion]
      split
      · rename_i hmaker
        have hrest : rest ≠ [] := by
          rintro rfl
          simp at hmaker
        refine ⟨[] ++ (first ++ [dot]), ?_, .dotted [] first (.inl rfl) hmaker.1⟩
        rw [join_cons hrest] at hjoin
        rw [← hjoin]
        simp [dot]
      · exact ⟨[], rfl, .none⟩

variable {s : PyStr}

theorem rpartition_spec {c : Char} (h : CodePoint.scalar c ∈ s) :
    s = (Str.rpartition s c).1 ++ .scalar c :: (Str.rpartition s c).2 := by
  unfold Str.rpartition
  have hsplit := List.takeWhile_append_dropWhile (p := fun x => decide (x ≠ CodePoint.scalar c)) (l := s.reverse)
  cases hdrop : s.reverse.dropWhile fun x => decide (x ≠ CodePoint.scalar c) with
  | nil =>
    rw [List.dropWhile_eq_nil_iff] at hdrop
    have hne := hdrop _ (List.mem_reverse.mpr h)
    simp at hne
  | cons x rest =>
    have hx : x = .scalar c := by
      have hhead := head_dropWhile_not (p := fun x => decide (x ≠ CodePoint.scalar c)) (l := s.reverse) x (by rw [hdrop]; rfl)
      simpa using hhead
    rw [hdrop, hx] at hsplit
    have hreverse := congrArg List.reverse hsplit
    rw [List.reverse_reverse, List.reverse_append, List.reverse_cons, List.append_assoc] at hreverse
    exact hreverse.symm

theorem splitVendor_spec (identifier : PyStr) : ∃ vendor, identifier = vendor ++ (splitVendor identifier).2 ∧
    IsVendor vendor (splitVendor identifier).1 := by
  unfold splitVendor
  split
  · rename_i hslash
    refine ⟨(Str.rpartition identifier '/').1 ++ [.scalar '/'], ?_, .slash _ _⟩
    rw [List.append_assoc]
    exact rpartition_spec hslash
  · split
    · exact splitDotted_spec identifier
    · exact ⟨[], rfl, .none⟩

theorem stripPath_spec (identifier : PyStr) : ∃ path, identifier = path ++ stripPath identifier ∧
    (path = [] ∨ path ∈ fireworksPaths) := by
  unfold stripPath
  cases hfind : fireworksPaths.find? fun path => decide (path <+: identifier) with
  | none => exact ⟨[], rfl, .inl rfl⟩
  | some path =>
    have hpre : path <+: identifier := by simpa using List.find?_some hfind
    obtain ⟨rest, rfl⟩ := hpre
    exact ⟨path, by simp, .inr (List.mem_of_find?_eq_some hfind)⟩

theorem stripLane_spec (identifier : PyStr) : ∃ lane, identifier = lane ++ stripLane identifier ∧
    (lane = [] ∨ ∃ marker ∈ azureLanePrefixes, lane.length = marker.length ∧ marker <+: Str.lower identifier) := by
  unfold stripLane
  cases hfind : azureLanePrefixes.find? fun lane =>
      decide (lane <+: Str.lower identifier) && decide (lane.length < identifier.length) with
  | none => exact ⟨[], rfl, .inl rfl⟩
  | some lane =>
    have hlane := List.find?_some hfind
    rw [Bool.and_eq_true, decide_eq_true_iff, decide_eq_true_iff] at hlane
    refine ⟨identifier.take lane.length, (List.take_append_drop _ _).symm, .inr ⟨lane, List.mem_of_find?_eq_some hfind, ?_, hlane.1⟩⟩
    rw [List.length_take]
    omega

/-- An id is what is documented around its name: an account path, a vendor or a maker behind its region, the marker of
a lane of Azure, the name, and the version behind a colon. -/
theorem splitMaker_decorated (provider id : PyStr) : ∃ path vendor lane version,
    Str.strip id = path ++ (vendor ++ (lane ++ ((splitMaker provider id).2 ++ version))) ∧
    (path = [] ∨ path ∈ fireworksPaths) ∧ IsVendor vendor (splitMaker provider id).1 ∧
    (lane = [] ∨ provider = text "azure_openai" ∧ ∃ marker ∈ azureLanePrefixes, lane.length = marker.length ∧
      marker <+: Str.lower (lane ++ ((splitMaker provider id).2 ++ version))) ∧
    (version = [] ∨ (splitMaker provider id).1.isSome ∧ IsColonVersion version) := by
  obtain ⟨path, hpath, hpaths⟩ := stripPath_spec (Str.strip id)
  obtain ⟨vendor, hvendor, hvendors⟩ := splitVendor_spec (stripPath (Str.strip id))
  set split := splitVendor (stripPath (Str.strip id)) with hsplit
  obtain ⟨lane, hlane, hlanes⟩ : ∃ lane, split.2 = lane ++ (if provider = text "azure_openai" then stripLane split.2 else split.2) ∧
      (lane = [] ∨ provider = text "azure_openai" ∧ ∃ marker ∈ azureLanePrefixes, lane.length = marker.length ∧
        marker <+: Str.lower split.2) := by
    by_cases hazure : provider = text "azure_openai"
    · rw [if_pos hazure]
      obtain ⟨lane, hlane, hmarker⟩ := stripLane_spec split.2
      exact ⟨lane, hlane, hmarker.imp_right fun h => ⟨hazure, h⟩⟩
    · rw [if_neg hazure]
      exact ⟨[], rfl, .inl rfl⟩
  set named := if provider = text "azure_openai" then stripLane split.2 else split.2 with hnamed
  obtain ⟨version, hversion, hversions⟩ : ∃ version, named = (splitMaker provider id).2 ++ version ∧
      (version = [] ∨ (splitMaker provider id).1.isSome ∧ IsColonVersion version) := by
    have hmaker : splitMaker provider id = (split.1, if split.1.isSome then stripVersion named else named) := rfl
    rw [hmaker]
    dsimp only
    by_cases hsome : split.1.isSome
    · rw [if_pos hsome]
      obtain ⟨version, hversion, hcolon⟩ := stripVersion_spec named
      exact ⟨version, hversion, hcolon.imp_right fun h => ⟨hsome, h⟩⟩
    · rw [if_neg hsome]
      exact ⟨[], (List.append_nil _).symm, .inl rfl⟩
  refine ⟨path, vendor, lane, version, ?_, hpaths, hvendors, ?_, hversions⟩
  · rw [← hversion, ← hlane, ← hvendor, ← hpath]
  · rw [← hversion, ← hlane]
    exact hlanes

/-! ### Anchors -/

/-- `model_providers_provider_check` -/
def providerKeys : List PyStr :=
  ["openai", "anthropic", "gemini", "azure_openai", "openrouter", "bedrock", "local", "fireworks", "modal",
    "experiential_cloud"].map text

theorem splitDotted_known {identifier m : PyStr} (h : (splitDotted identifier).1 = some m) : m ∈ knownMakers := by
  unfold splitDotted at h
  dsimp only at h
  generalize (if 2 < (Str.split identifier '.').length ∧ Str.lower ((Str.split identifier '.').getD 0 []) ∈ bedrockRegions
    then 1 else 0) = index at h
  split at h
  · rename_i hknown
    exact Option.some.inj h ▸ hknown.1
  · cases h

theorem splitMaker_known {m : PyStr} (h : (splitMaker provider id).1 = some m) : m ∈ knownMakers := by
  change (splitVendor (stripPath (Str.strip id))).1 = some m at h
  unfold splitVendor at h
  split at h
  · dsimp only at h
    split at h
    · rename_i hknown
      exact Option.some.inj h ▸ hknown
    · cases h
  · split at h
    · exact splitDotted_known h
    · cases h

/-- A character of the grammar of slugs. -/
def IsSlugChar (c : CodePoint) : Prop := c.between 'a' 'z' ∨ c.between '0' '9' ∨ isSeparator c

/-- A small letter, then small letters, digits, dots, underscores and dashes, at most 128 in all, the last no separator. -/
structure SlugGrammar (s : PyStr) : Prop where
  head : letterFirst s
  chars : ∀ c ∈ s, IsSlugChar c
  length : s.length ≤ slugMax
  last : ∀ c ∈ s.getLast?, ¬isSeparator c

theorem makers_spelled : ∀ m ∈ knownMakers, letterFirst m ∧ ∀ c ∈ m, c.between 'a' 'z' ∨ c.between '0' '9' := by
  decide

theorem providers_spelled : ∀ p ∈ providerKeys, letterFirst p ∧ ∀ c ∈ p, c.between 'a' 'z' ∨ c = .scalar '_' := by
  decide

/-- An underscore of a provider stands between letters. -/
theorem providers_joined : ∀ p ∈ providerKeys, NoRun isNonword p ∧ ∀ c ∈ p.getLast?, ¬isNonword c := by
  unfold NoRun
  decide

theorem Folded.slugChars (h : Folded s) : ∀ c ∈ s, IsSlugChar c := by
  intro c hc
  unfold IsSlugChar
  rw [small_iff, digit_iff, isSeparator_iff]
  by_cases hnonword : isNonword c
  · have hdash := eq_dash_iff.mp (h.chars c hc hnonword)
    omega
  · rw [word_iff] at hnonword
    omega

theorem Folded.last_separator (h : Folded s) : ∀ c ∈ s.getLast?, ¬isSeparator c := by
  intro c hc
  have hmem : c ∈ s := List.mem_of_getLast? hc
  have hends := h.last c hc
  rw [isDashOrDot_iff] at hends
  rw [isSeparator_iff]
  by_cases hnonword : isNonword c
  · have hdash := eq_dash_iff.mp (h.chars c hmem hnonword)
    omega
  · rw [word_iff] at hnonword
    omega

variable {normalized : PyStr}

theorem normalizedName_cases (provider base displayName : PyStr) :
    Folded (normalizedName provider base displayName) ∧ normalizedName provider base displayName ≠ [] ∨
      normalizedName provider base displayName = provider := by
  unfold normalizedName
  by_cases hbase : normalizeToken base = []
  · by_cases hdisplay : normalizeToken displayName = []
    · exact .inr (by simp [hbase, hdisplay])
    · exact .inl (by simpa [hbase, hdisplay] using folded_normalizeToken displayName)
  · exact .inl (by simpa [hbase] using folded_normalizeToken base)

/-- The name with its anchor begins with a letter and is spelled by the grammar. -/
theorem letterFirstSlug_spelled (hprovider : provider ∈ providerKeys) (hmaker : ∀ m ∈ maker, m ∈ knownMakers)
    (hname : Folded normalized ∨ normalized = provider) :
    letterFirst (letterFirstSlug normalized maker provider) ∧
      ∀ c ∈ letterFirstSlug normalized maker provider, IsSlugChar c := by
  have hproviderChars : ∀ p ∈ providerKeys, ∀ c ∈ p, IsSlugChar c := by
    intro p hp c hc
    rcases (providers_spelled p hp).2 c hc with h | rfl
    · exact .inl h
    · exact .inr (.inr (by decide))
  have hnameChars : ∀ c ∈ normalized, IsSlugChar c := by
    rcases hname with h | rfl
    · exact h.slugChars
    · exact hproviderChars _ hprovider
  have hanchor : letterFirst (maker.getD provider) ∧ ∀ c ∈ maker.getD provider, IsSlugChar c := by
    cases maker with
    | none => exact ⟨(providers_spelled _ hprovider).1, hproviderChars _ hprovider⟩
    | some m =>
      obtain ⟨hhead, hchars⟩ := makers_spelled m (hmaker m rfl)
      exact ⟨hhead, fun c hc => (hchars c hc).elim .inl fun h => .inr (.inl h)⟩
  unfold letterFirstSlug
  split
  · rename_i hletter
    exact ⟨hletter, hnameChars⟩
  · refine ⟨?_, ?_⟩
    · have hhead := hanchor.1
      unfold letterFirst at hhead ⊢
      rw [List.head?_append]
      cases hfirst : (maker.getD provider).head? with
      | none => simp [hfirst] at hhead
      | some c => rwa [hfirst] at hhead
    · intro c hc
      rcases List.mem_append.mp hc with hc | hc
      · exact hanchor.2 c hc
      · rcases List.mem_cons.mp hc with rfl | hc
        · exact .inr (.inr (by decide))
        · exact hnameChars c hc

/-- Cut to the limit, with the separators at its end taken, a text that begins with a letter is a slug. -/
theorem slugGrammar_cut (hhead : letterFirst s) (hchars : ∀ c ∈ s, IsSlugChar c) :
    SlugGrammar ((s.take slugMax).rdropWhile isSeparator) := by
  have hpre : (s.take slugMax).rdropWhile isSeparator <+: s :=
    (List.rdropWhile_prefix _ _).trans (List.take_prefix _ _)
  refine ⟨?_, fun c hc => hchars c (hpre.subset hc), ?_, getLast_rdropWhile_not⟩
  · cases s with
    | nil => simp [letterFirst] at hhead
    | cons c s =>
      have hletter : c.between 'a' 'z' := by simpa [letterFirst] using hhead
      have hne : ((c :: s).take slugMax).rdropWhile isSeparator ≠ [] := by
        rw [Ne, List.rdropWhile_eq_nil_iff]
        intro hall
        have hsep := isSeparator_iff.mp (hall c List.mem_cons_self)
        rw [small_iff] at hletter
        omega
      obtain ⟨d, rest, hcut⟩ := List.exists_cons_of_ne_nil hne
      rw [hcut] at hpre
      obtain rfl : d = c := (List.cons_prefix_cons.mp hpre).1
      rw [hcut]
      simpa [letterFirst] using hletter
  · exact (List.rdropWhile_prefix _ _).length_le.trans (List.length_take_le _ _)

theorem canonicalize_slug (provider id displayName : PyStr) : (canonicalize provider id displayName).slug =
    ((letterFirstSlug (normalizedName provider (splitMaker provider id).2 displayName) (splitMaker provider id).1
      provider).take slugMax).rdropWhile isSeparator := by
  unfold canonicalize
  obtain ⟨maker, base⟩ := splitMaker provider id
  rfl

theorem canonicalize_grammar (hprovider : provider ∈ providerKeys) (id displayName : PyStr) :
    SlugGrammar (canonicalize provider id displayName).slug := by
  rw [canonicalize_slug]
  obtain ⟨hhead, hchars⟩ := letterFirstSlug_spelled hprovider (fun m hm => splitMaker_known hm)
    ((normalizedName_cases provider (splitMaker provider id).2 displayName).imp_left (·.1))
  exact slugGrammar_cut hhead hchars

/-! ### One slug, one name -/

/-- What is left of an id is folded. -/
def foldedName (provider id : PyStr) : PyStr := normalizeToken (splitMaker provider id).2

/-- The name is plain, begins with a letter when folded, and is not cut. -/
structure Legible (provider id : PyStr) : Prop where
  plain : Plain (splitMaker provider id).2
  letter : letterFirst (foldedName provider id)
  fits : (foldedName provider id).length ≤ slugMax

/-- A name that begins with a letter and is not cut is the slug. -/
theorem slug_eq_foldedName (hletter : letterFirst (foldedName provider id))
    (hfits : (foldedName provider id).length ≤ slugMax) (displayName : PyStr) :
    (canonicalize provider id displayName).slug = foldedName provider id := by
  have hne : foldedName provider id ≠ [] := by
    intro hnil
    rw [hnil] at hletter
    cases hletter
  have hname : normalizedName provider (splitMaker provider id).2 displayName = foldedName provider id := by
    have hempty : (foldedName provider id).isEmpty = false := by simpa using hne
    unfold foldedName at hempty ⊢
    simp [normalizedName, hempty]
  rw [canonicalize_slug, hname, letterFirstSlug, if_pos hletter, List.take_of_length_le hfits]
  exact rdropWhile_eq_self (folded_normalizeToken _).last_separator

theorem Legible.slug (h : Legible provider id) (displayName : PyStr) :
    (canonicalize provider id displayName).slug = foldedName provider id := slug_eq_foldedName h.letter h.fits displayName

theorem sameName_of_slug {a b displayA displayB : PyStr} (ha : Legible provider a) (hb : Legible provider b)
    (h : (canonicalize provider a displayA).slug = (canonicalize provider b displayB).slug) :
    SameName (splitMaker provider a).2 (splitMaker provider b).2 := by
  rw [ha.slug, hb.slug] at h
  exact sameName_of_normalizeToken ha.plain hb.plain h

/-! ### Slugs named again -/

theorem letterFirstSlug_noRun (hprovider : provider ∈ providerKeys) (hmaker : ∀ m ∈ maker, m ∈ knownMakers)
    (hname : Folded normalized ∨ normalized = provider) :
    NoRun isNonword (letterFirstSlug normalized maker provider) ∧ NoRun isDot (letterFirstSlug normalized maker provider) := by
  have hwords : ∀ {s : PyStr}, (∀ c ∈ s, c.between 'a' 'z' ∨ c.between '0' '9' ∨ c = .scalar '_') → NoRun isDot s := by
    intro s hs
    apply noRun_of_forall_not
    intro c hc hdot
    rw [isDot_iff] at hdot
    rcases hs c hc with h | h | rfl
    · rw [small_iff] at h
      omega
    · rw [digit_iff] at h
      omega
    · revert hdot
      decide
  have hproviderDots : NoRun isDot provider :=
    hwords fun c hc => ((providers_spelled _ hprovider).2 c hc).imp_right .inr
  have hanchor : NoRun isNonword (maker.getD provider) ∧ NoRun isDot (maker.getD provider) ∧
      ∀ c ∈ (maker.getD provider).getLast?, ¬isNonword c := by
    cases maker with
    | none => exact ⟨(providers_joined _ hprovider).1, hproviderDots, (providers_joined _ hprovider).2⟩
    | some m =>
      have hchars := (makers_spelled m (hmaker m rfl)).2
      have hword : ∀ c ∈ m, ¬isNonword c := by
        intro c hc
        rw [word_iff]
        rcases hchars c hc with h | h
        · exact .inl (small_iff.mp h)
        · exact .inr (.inl (digit_iff.mp h))
      exact ⟨noRun_of_forall_not hword, hwords fun c hc => (hchars c hc).imp_right .inl,
        fun c hc => hword c (List.mem_of_getLast? hc)⟩
  unfold letterFirstSlug
  split
  · rcases hname with h | rfl
    · exact ⟨h.dashes, h.dots⟩
    · exact ⟨(providers_joined _ hprovider).1, hproviderDots⟩
  · rename_i hdigit
    have hfolded : Folded normalized := by
      rcases hname with h | rfl
      · exact h
      · exact absurd (providers_spelled _ hprovider).1 hdigit
    have hhead : ∀ c ∈ normalized.head?, ¬isNonword c ∧ ¬isDot c := by
      intro c hc
      have hword := hfolded.word_of_head hc
      rw [word_iff, isDot_iff]
      omega
    unfold NoRun
    rw [List.isChain_append, List.isChain_append, List.isChain_cons, List.isChain_cons]
    refine ⟨⟨hanchor.1, ⟨fun c hc hboth => (hhead c hc).1 hboth.2, hfolded.dashes⟩, fun c hc d _ hboth =>
      hanchor.2.2 c hc hboth.1⟩, hanchor.2.1, ⟨fun c hc hboth => (hhead c hc).2 hboth.2, hfolded.dots⟩, fun c _ d hd hboth => ?_⟩
    obtain rfl : dash = d := by simpa using hd
    exact absurd hboth.2 (by decide)

theorem folded_slug (hprovider : provider ∈ providerKeys)
    (hscore : CodePoint.scalar '_' ∉ (canonicalize provider id displayName).slug) :
    Folded (canonicalize provider id displayName).slug := by
  have hgrammar := canonicalize_grammar hprovider id displayName
  rw [canonicalize_slug] at hgrammar hscore ⊢
  obtain ⟨hdashes, hdots⟩ := letterFirstSlug_noRun hprovider (fun m hm => splitMaker_known hm)
    ((normalizedName_cases provider (splitMaker provider id).2 displayName).imp_left (·.1))
  generalize letterFirstSlug _ _ _ = s at hgrammar hscore hdashes hdots ⊢
  have hinfix : (s.take slugMax).rdropWhile isSeparator <:+: s :=
    ((List.rdropWhile_prefix _ _).trans (List.take_prefix _ _)).isInfix
  refine ⟨fun c hc hnonword => ?_, hdashes.infix hinfix, hdots.infix hinfix, fun c hc => ?_, fun c hc hends => ?_⟩
  · by_contra hdash
    rw [eq_dash_iff] at hdash
    have hne : c.toNat ≠ 95 := by
      intro h
      have heq : c = .scalar '_' := CodePoint.toNat_injective h
      exact hscore (heq ▸ hc)
    have hchar := hgrammar.chars c hc
    unfold IsSlugChar at hchar
    rw [small_iff, digit_iff, isSeparator_iff] at hchar
    apply absurd hnonword
    rw [word_iff]
    omega
  · have hletter := hgrammar.head
    rw [letterFirst, Option.mem_def.mp hc, Option.any_some, small_iff] at hletter
    rw [isDashOrDot_iff]
    omega
  · apply hgrammar.last c hc
    rw [isDashOrDot_iff] at hends
    rw [isSeparator_iff]
    omega

/-- A slug that carries no decoration and no underscore is its own slug. -/
theorem canonicalize_again (hprovider : provider ∈ providerKeys) {slug : PyStr}
    (hslug : slug = (canonicalize provider id displayName).slug) (hscore : CodePoint.scalar '_' ∉ slug)
    (hbare : (splitMaker provider slug).2 = slug) (displayName' : PyStr) :
    (canonicalize provider slug displayName').slug = slug := by
  have hgrammar : SlugGrammar slug := hslug ▸ canonicalize_grammar hprovider id displayName
  have hfolded : foldedName provider slug = slug := by
    rw [foldedName, hbare]
    subst hslug
    exact normalizeToken_eq_self (folded_slug hprovider hscore)
  have hagain : (canonicalize provider slug displayName').slug = foldedName provider slug :=
    slug_eq_foldedName (by rw [hfolded]; exact hgrammar.head) (by rw [hfolded]; exact hgrammar.length) displayName'
  rw [hagain, hfolded]

theorem Folded.toNat (h : Folded s) {c : CodePoint} (hc : c ∈ s) :
    c.toNat = 45 ∨ c.toNat = 46 ∨ (48 ≤ c.toNat ∧ c.toNat ≤ 57) ∨ (97 ≤ c.toNat ∧ c.toNat ≤ 122) := by
  by_cases hnonword : isNonword c
  · exact .inl (eq_dash_iff.mp (h.chars c hc hnonword))
  · rw [word_iff] at hnonword
    omega

theorem strip_eq_self (h : ∀ c ∈ s, ¬c.isSpace) : Str.strip s = s := by
  rw [Str.strip, dropWhile_eq_self fun c hc => h c (List.mem_of_mem_head? hc)]
  exact rdropWhile_eq_self fun c hc => h c (List.mem_of_getLast? hc)

theorem not_isSpace {c : CodePoint} (h : 33 ≤ c.toNat ∧ c.toNat ≤ 127) : ¬c.isSpace := by
  unfold CodePoint.isSpace
  rw [decide_eq_true_iff]
  omega

theorem length_normalizeToken_le (h : Str.lower s = s) : (normalizeToken s).length ≤ s.length := by
  rw [normalizeToken, h]
  exact infix_trim.length_le.trans ((length_squeeze_le _ _).trans (length_squeeze_le _ _))

theorem bare_of_again (hprovider : provider ∈ providerKeys) (hs : Folded s)
    (hagain : (canonicalize provider s []).slug = s) : (splitMaker provider s).2 = s := by
  obtain ⟨path, vendor, lane, version, hid, hpath, hvendor, hlane, hversion⟩ := splitMaker_decorated provider s
  rw [canonicalize_slug] at hagain
  generalize (splitMaker provider s).1 = m at hvendor hversion hagain
  generalize (splitMaker provider s).2 = n at hid hlane hagain ⊢
  rw [strip_eq_self fun c hc => not_isSpace (by have := hs.toNat hc; omega)] at hid
  have hslash : CodePoint.scalar '/' ∉ s := fun hc => absurd (hs.toNat hc) (by decide)
  obtain rfl : path = [] := by
    rcases hpath with rfl | hpath
    · rfl
    · have hpaths : ∀ path ∈ fireworksPaths, CodePoint.scalar '/' ∈ path := by decide
      exact absurd (hid ▸ List.mem_append_left _ (hpaths path hpath)) hslash
  obtain rfl : version = [] := by
    rcases hversion with rfl | ⟨-, major, minor, rfl, -⟩
    · rfl
    · have hcolon : CodePoint.scalar ':' ∈ s := by rw [hid]; simp
      exact absurd (hs.toNat hcolon) (by decide)
  rw [List.nil_append, List.append_nil] at hid
  rw [List.append_nil] at hlane
  by_contra hne
  have hsuffix : lane ++ n <:+ s := ⟨vendor, hid.symm⟩
  have hn : Str.lower n = n := Str.lower_eq_self fun c hc => by
    have := hs.toNat (hsuffix.subset (List.mem_append_right _ hc))
    rw [capital_iff]
    omega
  have hfold := length_normalizeToken_le hn
  have hlength : s.length = vendor.length + (lane.length + n.length) := by
    rw [hid, List.length_append, List.length_append]
  have hmarker : lane = [] ∨ provider = text "azure_openai" ∧ text "fw-" <+: lane ++ n := by
    refine hlane.imp_right fun ⟨hazure, marker, hmarker, _, hprefix⟩ => ⟨hazure, ?_⟩
    obtain rfl := List.mem_singleton.mp hmarker
    have hlower : Str.lower (lane ++ n) = lane ++ n := Str.lower_eq_self fun c hc => by
      have := hs.toNat (hsuffix.subset hc)
      rw [capital_iff]
      omega
    rwa [hlower] at hprefix
  have hcut : s <+: letterFirstSlug (normalizedName provider n []) m provider := by
    rw [← hagain]
    exact (List.rdropWhile_prefix _ _).trans (List.take_prefix _ _)
  have hproviderLetter := (providers_spelled _ hprovider).1
  by_cases hempty : normalizeToken n = []
  · -- The slug is the name of the provider, which has neither a dot nor a dash.
    have hname : normalizedName provider n [] = provider := by
      unfold normalizedName
      rw [hempty]
      rfl
    rw [hname, letterFirstSlug, if_pos hproviderLetter] at hcut
    have hplain : ∀ c ∈ s, c.between 'a' 'z' ∨ c = .scalar '_' := fun c hc =>
      (providers_spelled _ hprovider).2 c (hcut.subset hc)
    cases hvendor with
    | none =>
      rcases hmarker with rfl | ⟨-, hhead⟩
      · exact hne hid.symm
      · exact absurd (hplain dash (hsuffix.subset (hhead.subset (by decide)))) (by decide)
    | slash vendor _ => exact hslash (by rw [hid]; simp)
    | dotted region maker _ _ => exact absurd (hplain dot (by rw [hid]; simp)) (by decide)
  · have hname : normalizedName provider n [] = normalizeToken n := by
      have hfilled : (normalizeToken n).isEmpty = false := by simpa using hempty
      simp [normalizedName, hfilled]
    rw [hname, letterFirstSlug] at hcut
    split at hcut
    · have hle := hcut.length_le
      have hall : vendor.length = 0 ∧ lane.length = 0 := by omega
      rw [List.length_eq_zero_iff, List.length_eq_zero_iff] at hall
      rw [hall.1, hall.2] at hid
      exact hne hid.symm
    · cases hvendor with
      | none =>
        rcases hmarker with rfl | ⟨rfl, hprefix⟩
        · exact hne hid.symm
        · rw [hid, List.nil_append] at hcut
          have hboth : text "fw-" <+: text "azure_openai" ++ dash :: normalizeToken n := hprefix.trans hcut
          exact absurd (List.cons_prefix_cons.mp hboth).1 (by decide)
      | slash vendor _ => exact hslash (by rw [hid]; simp)
      | dotted region maker hregion _ =>
        have hmaker : Str.lower maker = maker := Str.lower_eq_self fun c hc => by
          have := hs.toNat (c := c) (by rw [hid]; simp [hc])
          rw [capital_iff]
          omega
        rw [hmaker, Option.getD_some] at hcut
        rcases hregion with rfl | ⟨r, -, rfl⟩
        · rw [hid, List.nil_append, List.append_assoc, List.prefix_append_right_inj] at hcut
          exact absurd (List.cons_prefix_cons.mp hcut).1 (by decide)
        · have hle := hcut.length_le
          simp only [List.length_append, List.length_cons, List.length_nil] at hle hlength
          omega

theorem folded_foldedName (provider id : PyStr) : Folded (foldedName provider id) := folded_normalizeToken _

/-- The slug of a legible id is its own slug exactly when it carries no decoration. -/
theorem again_iff (hprovider : provider ∈ providerKeys) (h : Legible provider id) :
    (∀ displayName', (canonicalize provider (canonicalize provider id displayName).slug displayName').slug =
      (canonicalize provider id displayName).slug) ↔
    (splitMaker provider (foldedName provider id)).2 = foldedName provider id := by
  have hslug := h.slug displayName
  constructor
  · intro hagain
    rw [hslug] at hagain
    exact bare_of_again hprovider (folded_foldedName _ _) (hagain [])
  · intro hbare displayName'
    refine canonicalize_again hprovider rfl ?_ ?_ displayName'
    · rw [hslug]
      exact fun hc => absurd ((folded_foldedName _ _).toNat hc) (by decide)
    · rw [hslug, hbare]

/-! ### Ids that are mistaken for others -/

theorem rpartition_append {u t : PyStr} {c : Char} (h : CodePoint.scalar c ∉ t) :
    Str.rpartition (u ++ .scalar c :: t) c = (u, t) := by
  have hall : ∀ x ∈ t.reverse, decide (x ≠ CodePoint.scalar c) = true := fun x hx =>
    decide_eq_true fun hxc => h (hxc ▸ List.mem_reverse.mp hx)
  unfold Str.rpartition
  rw [List.reverse_append, List.reverse_cons, List.append_assoc, List.takeWhile_append_of_pos hall,
    List.dropWhile_append_of_pos hall]
  simp

/-- A slug behind a slash and a dash. -/
def behindDash (slug : PyStr) : PyStr := .scalar 'x' :: .scalar '/' :: dash :: slug

theorem isSlugChar_toNat {c : CodePoint} (h : IsSlugChar c) :
    c.toNat = 45 ∨ c.toNat = 46 ∨ c.toNat = 95 ∨ (48 ≤ c.toNat ∧ c.toNat ≤ 57) ∨ (97 ≤ c.toNat ∧ c.toNat ≤ 122) := by
  unfold IsSlugChar at h
  rw [small_iff, digit_iff, isSeparator_iff] at h
  omega

/-- The dash keeps a lane from finding its marker, and the slash a maker before a dot. -/
theorem splitMaker_behindDash (provider : PyStr) {slug : PyStr} (h : ∀ c ∈ slug, IsSlugChar c) :
    splitMaker provider (behindDash slug) = (none, dash :: slug) := by
  have hstrip : Str.strip (behindDash slug) = behindDash slug := by
    refine strip_eq_self fun c hc => not_isSpace ?_
    simp only [behindDash, List.mem_cons] at hc
    rcases hc with rfl | rfl | rfl | hc
    · decide
    · decide
    · decide
    · have := isSlugChar_toNat (h c hc)
      omega
  have hpath : stripPath (behindDash slug) = behindDash slug := by
    have hnone : (fireworksPaths.find? fun path => decide (path <+: behindDash slug)) = none := by
      rw [List.find?_eq_none]
      intro path hpath hprefix
      have hhead : ∀ path ∈ fireworksPaths, path.head? = some (.scalar 'a') := by decide
      obtain ⟨rest, hrest⟩ := of_decide_eq_true hprefix
      have hx : (path ++ rest).head? = some (.scalar 'x') := by rw [hrest]; rfl
      rw [List.head?_append, hhead path hpath, Option.some_or] at hx
      exact absurd hx (by decide)
    unfold stripPath
    rw [hnone]
  have hvendor : splitVendor (behindDash slug) = (none, dash :: slug) := by
    have hslash : CodePoint.scalar '/' ∉ dash :: slug := by
      rw [List.mem_cons]
      rintro (hdash | hc)
      · exact absurd hdash (by decide)
      · exact absurd (isSlugChar_toNat (h _ hc)) (by decide)
    have hpart : Str.rpartition (behindDash slug) '/' = ([.scalar 'x'], dash :: slug) := rpartition_append (u := [_]) hslash
    unfold splitVendor
    rw [if_pos (by simp [behindDash]), hpart]
    exact congrArg (·, dash :: slug) (if_neg (by decide))
  have hlane : stripLane (dash :: slug) = dash :: slug := by
    have hnone : (azureLanePrefixes.find? fun lane => decide (lane <+: Str.lower (dash :: slug)) &&
        decide (lane.length < (dash :: slug).length)) = none := by
      rw [List.find?_eq_none]
      intro lane hlane hprefix
      obtain rfl := List.mem_singleton.mp hlane
      rw [Bool.and_eq_true, decide_eq_true_iff] at hprefix
      exact absurd (List.cons_prefix_cons.mp hprefix.1).1 (by decide)
    unfold stripLane
    rw [hnone]
  unfold splitMaker
  rw [hstrip, hpath, hvendor]
  simp only [hlane, ite_self]
  rfl

theorem not_separates {c : CodePoint} (h : (97 ≤ c.toNat ∧ c.toNat ≤ 122) ∨ (48 ≤ c.toNat ∧ c.toNat ≤ 57)) :
    ¬separates c := by
  rw [separates, Bool.or_eq_true, isSeparator_iff, not_or]
  exact ⟨not_isSpace (by omega), by omega⟩

/-- A folded name that begins with a letter is what is read behind the dash. -/
theorem normalizeToken_dash (hs : Folded s) (hletter : letterFirst s) : normalizeToken (dash :: s) = s := by
  have hhead : ∀ c ∈ s.head?, ¬isNonword c ∧ ¬isDot c := by
    intro c hc
    rw [letterFirst, Option.mem_def.mp hc, Option.any_some, small_iff] at hletter
    rw [word_iff, isDot_iff]
    omega
  have hdashes : NoRun isNonword (dash :: s) :=
    List.isChain_cons.mpr ⟨fun c hc hboth => (hhead c hc).1 hboth.2, hs.dashes⟩
  have hdots : NoRun isDot (dash :: s) := List.isChain_cons.mpr ⟨fun c hc hboth => (hhead c hc).2 hboth.2, hs.dots⟩
  have hlower : Str.lower (dash :: s) = dash :: s := congrArg (dash :: ·) hs.lower
  have honly : ∀ c ∈ dash :: s, isNonword c → c = dash := by
    intro c hc hnonword
    rcases List.mem_cons.mp hc with rfl | hc
    · rfl
    · exact hs.chars c hc hnonword
  rw [normalizeToken, hlower, squeeze_eq_self hdashes honly,
    squeeze_eq_self hdots fun c _ hc => eq_dot_iff.mpr (isDot_iff.mp hc), trim_cons (by decide), trim_eq_self hs.head hs.last]

/-- An id whose name has the characters of its slug, separators apart, is legible. -/
theorem legible_of_filter {slug : PyStr} (hs : Folded slug) (hletter : letterFirst slug)
    (hslug : slug = ((letterFirstSlug (normalizedName provider (splitMaker provider id).2 displayName)
      (splitMaker provider id).1 provider).take slugMax).rdropWhile isSeparator)
    (hfilter : (Str.lower (splitMaker provider id).2).filter (fun c => !separates c) = slug.filter (fun c => !separates c)) :
    Legible provider id := by
  have hplain : Plain (splitMaker provider id).2 := by
    intro c hc hnonword
    by_contra hword
    have hmem : c ∈ slug.filter (fun c => !separates c) := by
      rw [← hfilter]
      exact List.mem_filter.mpr ⟨hc, by simpa using hword⟩
    rw [hs.chars c (List.mem_of_mem_filter hmem) hnonword] at hword
    exact hword separates_dash
  have hfold := folded_foldedName provider id
  have hsame : (foldedName provider id).filter (fun c => !separates c) = slug.filter (fun c => !separates c) := by
    have hkept := (sameName_normalizeToken hplain).filter_eq
    rw [(folded_normalizeToken _).lower, hfilter] at hkept
    exact hkept
  have hfirst : letterFirst (foldedName provider id) := by
    obtain ⟨c, rest, rfl⟩ : ∃ c rest, slug = c :: rest := by
      cases slug with
      | nil => cases hletter
      | cons c rest => exact ⟨c, rest, rfl⟩
    have hc : c.between 'a' 'z' := hletter
    rw [List.filter_cons_of_pos (by simpa using not_separates (.inl (small_iff.mp hc)))] at hsame
    cases hname : foldedName provider id with
    | nil =>
      rw [hname] at hsame
      cases hsame
    | cons d rest' =>
      rw [hname] at hsame hfold
      rw [List.filter_cons_of_pos (by simpa using not_separates (hfold.word_of_head rfl))] at hsame
      obtain rfl : d = c := (List.cons.inj hsame).1
      exact hc
  refine ⟨hplain, hfirst, ?_⟩
  -- A longer name would have lost the character at its end.
  have hfilled : foldedName provider id ≠ [] := by
    intro hnil
    rw [hnil] at hfirst
    cases hfirst
  have hname : normalizedName provider (splitMaker provider id).2 displayName = foldedName provider id := by
    have hempty : (foldedName provider id).isEmpty = false := by simpa using hfilled
    unfold foldedName at hempty ⊢
    simp [normalizedName, hempty]
  rw [hname, letterFirstSlug, if_pos hfirst] at hslug
  by_contra hlong
  have hprefix : slug <+: foldedName provider id := by
    rw [hslug]
    exact (List.rdropWhile_prefix _ _).trans (List.take_prefix _ _)
  obtain ⟨rest, hrest⟩ := hprefix
  have hshort : slug.length ≤ slugMax := by
    rw [hslug]
    exact (List.rdropWhile_prefix _ _).length_le.trans (List.length_take_le _ _)
  have hnone : rest.filter (fun c => !separates c) = [] := by
    rw [← hrest, List.filter_append] at hsame
    exact List.append_cancel_left (hsame.trans (List.append_nil _).symm)
  obtain ⟨c, hc⟩ : ∃ c, c ∈ rest.getLast? := by
    cases hlast : rest.getLast? with
    | some c => exact ⟨c, rfl⟩
    | none =>
      rw [List.getLast?_eq_none_iff.mp hlast, List.append_nil] at hrest
      rw [hrest] at hshort
      exact absurd hshort hlong
  have hend : c ∈ (foldedName provider id).getLast? := by
    rw [← hrest, List.getLast?_append, Option.mem_def.mp hc]
    rfl
  have hword := hfold.toNat (List.mem_of_getLast? hend)
  have hsep := hfold.last_separator c hend
  rw [isSeparator_iff] at hsep
  have hkept := List.filter_eq_nil_iff.mp hnone c (List.mem_of_getLast? hc)
  exact hkept (by simpa using not_separates (c := c) (by omega))

/-- **An id that is not legible is taken for a legible one of another name.** -/
theorem mistaken (hprovider : provider ∈ providerKeys) (h : ¬Legible provider id)
    (hscore : CodePoint.scalar '_' ∉ (canonicalize provider id displayName).slug) : ∃ other, Legible provider other ∧
    (∀ displayName', (canonicalize provider other displayName').slug = (canonicalize provider id displayName).slug) ∧
    ¬SameName (splitMaker provider id).2 (splitMaker provider other).2 := by
  have hgrammar := canonicalize_grammar hprovider id displayName
  have hfolded := folded_slug hprovider hscore
  have hslug := canonicalize_slug provider id displayName
  generalize (canonicalize provider id displayName).slug = slug at hgrammar hfolded hslug ⊢
  have hsplit := splitMaker_behindDash provider hgrammar.chars
  have hlower : Str.lower (dash :: slug) = dash :: slug := congrArg (dash :: ·) hfolded.lower
  have hname : foldedName provider (behindDash slug) = slug := by
    rw [foldedName, hsplit]
    exact normalizeToken_dash hfolded hgrammar.head
  have hother : Legible provider (behindDash slug) := by
    refine ⟨?_, by rw [hname]; exact hgrammar.head, by rw [hname]; exact hgrammar.length⟩
    rw [hsplit]
    intro c hc hnonword
    rw [hlower] at hc
    rcases List.mem_cons.mp hc with rfl | hc
    · exact separates_dash
    · rw [hfolded.chars c hc hnonword]
      exact separates_dash
  refine ⟨behindDash slug, hother, fun displayName' => (hother.slug displayName').trans hname, fun hsame => h ?_⟩
  have hfilter := hsame.filter_eq
  rw [hsplit, hlower, List.filter_cons_of_neg (by decide)] at hfilter
  exact legible_of_filter hfolded hgrammar.head hslug hfilter

end Experiential.Catalog
