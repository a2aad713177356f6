import Experiential.Catalog.Assembler
import Experiential.Gateway.System
import Experiential.Lib.Paging

/-! # Administering promotions

A promotion covers the models of its membership rows, or every model when `covers_all_models` says so. A write
replaces the membership and derives the flag from it; deleted models take their membership rows with them and leave
the flag. So an emptied membership reads like one that was never there: saving what was read turns a promotion that
matches nothing into one for every model (`save_keeps_scope_iff`). -/

namespace Experiential.Gateway

/-! ### Rows -/

/-- `PROVIDERS` -/
def promotionProviders : List String :=
  ["openai", "anthropic", "gemini", "azure_openai", "openrouter", "bedrock", "local", "fireworks", "modal",
    "experiential_cloud"]

/-- The shape of `org_labels.key`. -/
def isLabelKey : List Char → Bool
  | [] => false
  | c :: cs => decide ('a' ≤ c ∧ c ≤ 'z') && decide (cs.length ≤ 31) &&
      cs.all fun c => decide ('a' ≤ c ∧ c ≤ 'z') || c.isDigit || c == '-'

/-- `_LABEL_KEY_PATTERN.match`, which lets a line break stand at the end. -/
def matchesLabelKey (key : String) : Bool :=
  isLabelKey key.toList || (decide (key.toList.getLast? = some '\n') && isLabelKey key.toList.dropLast)

/-- A row of `model_promotions`. -/
structure AdminPromotion extends ModelPromotion where
  label : String
  familyKeys : List String
deriving DecidableEq

def AdminPromotion.Check (p : AdminPromotion) : Prop :=
  p.toModelPromotion.Check ∧ (∀ provider ∈ p.providers, provider ∈ promotionProviders) ∧
    ∀ key ∈ p.audienceLabels, isLabelKey key.toList = true

instance : DecidablePred AdminPromotion.Check := fun p =>
  inferInstanceAs (Decidable (p.toModelPromotion.Check ∧ (∀ provider ∈ p.providers, provider ∈ promotionProviders) ∧
    ∀ key ∈ p.audienceLabels, isLabelKey key.toList = true))

structure CatalogModel where
  id : Nat
  slug : String
  owningOrgId : Option Nat
deriving DecidableEq

/-- What the administration of promotions reads and writes. -/
structure PromoAdmin where
  promotions : Table (fun p : AdminPromotion => p.id) AdminPromotion.Check
  members : List PromotionModel
  models : List CatalogModel
  orgLabels : List OrgLabel

def PromoAdmin.empty : PromoAdmin := ⟨.empty, [], [], []⟩

/-! ### The store -/

/-- The fields of a full-resource write, and of a read. -/
structure PromotionTerms where
  label : String
  modelSlugs : List String
  familyKeys : List String
  providers : List String
  audienceLabels : List String
  fundingScope : FundingScope
  perOrgCap : Int
  discountCap : Int
  capScope : CapScope
  percentOff : Percent
  active : Bool
  displayOrder : Int
deriving DecidableEq

inductive PromotionError where
  | emptyLabel
  | badAudience (keys : List String)
  | negativeCap
  | unknownProviders (providers : List String)
  | noScope
  | modelUnknown (slugs : List String)
  | notFound (id : Nat)
  | labelTaken
  | foreignKey
  | violation (v : Violation)
deriving DecidableEq

/-- `_validate_terms` -/
def validateTerms (t : PromotionTerms) : Except PromotionError Unit := do
  ensure (Catalog.strip t.label ≠ "") .emptyLabel
  ensure (∀ key ∈ t.audienceLabels, matchesLabelKey key = true)
    (.badAudience (t.audienceLabels.filter fun key => !matchesLabelKey key))
  ensure (0 ≤ t.perOrgCap ∧ 0 ≤ t.discountCap) .negativeCap
  ensure (∀ provider ∈ t.providers, provider ∈ promotionProviders)
    (.unknownProviders (t.providers.filter fun provider => decide (provider ∉ promotionProviders)))
  ensure (t.modelSlugs ≠ [] ∨ t.providers ≠ []) .noScope

/-- The public model of a slug. -/
def publicModel (models : List CatalogModel) (slug : String) : Option CatalogModel :=
  (models.filter fun m => decide (m.owningOrgId = none ∧ m.slug = slug)).getLast?

/-- `_resolve_public_models` -/
def resolvePublicModels (models : List CatalogModel) (modelSlugs : List String) :
    Except PromotionError (List (String × Nat)) := do
  let deduped := firsts id [] modelSlugs
  ensure (∀ slug ∈ deduped, (publicModel models slug).isSome)
    (.modelUnknown (deduped.filter fun slug => (publicModel models slug).isNone))
  return deduped.filterMap fun slug => (publicModel models slug).map fun m => (slug, m.id)

/-- The row that is written. -/
def PromotionTerms.row (t : PromotionTerms) (id : Nat) (coversAllModels : Bool) : AdminPromotion where
  id := id
  providers := t.providers
  audienceLabels := t.audienceLabels
  perOrgCap := t.perOrgCap
  discountCap := t.discountCap
  capScope := t.capScope
  percentOff := t.percentOff
  active := t.active
  displayOrder := t.displayOrder
  coversAllModels := coversAllModels
  fundingScope := t.fundingScope
  label := t.label
  familyKeys := t.familyKeys

def orViolation {α : Type} : Except Violation α → Except PromotionError α
  | .ok a => .ok a
  | .error v => .error (.violation v)

/-- The insert or the update of `model_promotion_apply`. -/
def writePromotion (s : PromoAdmin) (promotionId : Option Nat) (newId : Nat) (t : PromotionTerms)
    (coversAllModels : Bool) : Except PromotionError (Table (fun p : AdminPromotion => p.id) AdminPromotion.Check) :=
  match promotionId with
  | none => orViolation (s.promotions.insert (t.row newId coversAllModels))
  | some id =>
      if (s.promotions.find? id).isSome then
        orViolation (s.promotions.update (fun p => decide (p.id = id)) (fun p => t.row p.id coversAllModels) fun _ => rfl)
      else .error (.notFound id)

/-- `model_promotion_apply`; `newId` is what a new row would get. -/
def modelPromotionApply (s : PromoAdmin) (promotionId : Option Nat) (newId : Nat) (t : PromotionTerms)
    (members : List (String × Nat)) : Except PromotionError PromoAdmin := do
  let id := promotionId.getD newId
  let promotions ← writePromotion s promotionId newId t (members = [])
  ensure (∀ p ∈ s.promotions.rows, p.id ≠ id → p.label ≠ t.label) .labelTaken
  ensure (∀ m ∈ members, ∃ model ∈ s.models, model.id = m.2) .foreignKey
  return { s with
    promotions := promotions
    members := s.members.filter (fun m => decide (m.promotionId ≠ id)) ++ members.map fun m => ⟨id, m.2, m.1⟩ }

/-- `create` -/
def createPromotion (s : PromoAdmin) (newId : Nat) (t : PromotionTerms) : Except PromotionError PromoAdmin := do
  validateTerms t
  let members ← resolvePublicModels s.models t.modelSlugs
  modelPromotionApply s none newId t members

/-- `update` -/
def updatePromotion (s : PromoAdmin) (id : Nat) (t : PromotionTerms) : Except PromotionError PromoAdmin := do
  validateTerms t
  let members ← resolvePublicModels s.models t.modelSlugs
  modelPromotionApply s (some id) id t members

/-- `delete` -/
def deletePromotion (s : PromoAdmin) (id : Nat) : Except PromotionError PromoAdmin := do
  ensure ((s.promotions.find? id).isSome) (.notFound id)
  return { s with
    promotions := s.promotions.delete fun p => decide (p.id = id)
    members := s.members.filter fun m => decide (m.promotionId ≠ id) }

def slugsOf (s : PromoAdmin) (id : Nat) : List String :=
  ((s.members.filter fun m => decide (m.promotionId = id)).map (·.slug)).mergeSort fun x y => decide (x ≤ y)

/-- What a read of a promotion returns; `asFloat` is what a `numeric` becomes as a float. -/
def snapshot (asFloat : Percent → Percent) (s : PromoAdmin) (p : AdminPromotion) : PromotionTerms where
  label := p.label
  modelSlugs := slugsOf s p.id
  familyKeys := p.familyKeys
  providers := p.providers
  audienceLabels := p.audienceLabels
  fundingScope := p.fundingScope
  perOrgCap := p.perOrgCap
  discountCap := p.discountCap
  capScope := p.capScope
  percentOff := asFloat p.percentOff
  active := p.active
  displayOrder := p.displayOrder

/-! ### Histories -/

inductive PromoEvent where
  | create (newId : Nat) (terms : PromotionTerms)
  | update (id : Nat) (terms : PromotionTerms)
  | delete (id : Nat)
  /-- Rows of `models` come, change and go; the membership rows of those that go cascade. -/
  | setModels (models : List CatalogModel)
  | setOrgLabels (orgLabels : List OrgLabel)

def promoEvent (s : PromoAdmin) : PromoEvent → Except PromotionError PromoAdmin
  | .create newId t => createPromotion s newId t
  | .update id t => updatePromotion s id t
  | .delete id => deletePromotion s id
  | .setModels models =>
      .ok { s with
        models := models
        members := s.members.filter fun m => decide (∃ model ∈ models, model.id = m.modelId) }
  | .setOrgLabels orgLabels => .ok { s with orgLabels := orgLabels }

/-- One request or cascade; what is refused changes nothing. -/
def promoStep : PromoAdmin → PromoEvent → PromoAdmin := orStay promoEvent

/-- The tables as the gateway sees them. -/
def PromoAdmin.config (base : Config) (s : PromoAdmin) : Config :=
  { base with modelPromotionModels := s.members, orgLabels := s.orgLabels }

/-- The requests a promotion applies to. -/
def PromoAdmin.applies (base : Config) (s : PromoAdmin) (id orgId : Nat) (modelSlug provider : String) : Bool :=
  (s.promotions.find? id).any fun p => p.toModelPromotion.matches (s.config base) orgId modelSlug provider

/-! ### What a write leaves -/

theorem orViolation_eq_ok {α : Type} {x : Except Violation α} {a : α} : orViolation x = .ok a ↔ x = .ok a := by
  cases x <;> simp [orViolation]

variable {t : PromotionTerms}

theorem mem_writePromotion {s : PromoAdmin} {promotionId : Option Nat} {newId : Nat} {covers : Bool}
    {promotions : Table (fun p : AdminPromotion => p.id) AdminPromotion.Check}
    (h : writePromotion s promotionId newId t covers = .ok promotions) (q : AdminPromotion) :
    q ∈ promotions ↔ q ∈ s.promotions ∧ q.id ≠ promotionId.getD newId ∨ q = t.row (promotionId.getD newId) covers := by
  unfold writePromotion at h
  cases promotionId with
  | none =>
    have hinsert := orViolation_eq_ok.mp h
    have hfresh := (Table.insert_eq_ok hinsert).1
    rw [Table.mem_insert hinsert]
    constructor
    · rintro (rfl | hq)
      · exact .inr rfl
      · exact .inl ⟨hq, hfresh q hq⟩
    · rintro (⟨hq, -⟩ | rfl)
      · exact .inr hq
      · exact .inl rfl
  | some id =>
    dsimp only at h
    split at h
    · rename_i hthere
      obtain ⟨p, hp⟩ := Option.isSome_iff_exists.mp hthere
      obtain ⟨hmem, rfl⟩ := Table.find?_eq_some.mp hp
      rw [Table.mem_update (orViolation_eq_ok.mp h)]
      constructor
      · rintro ⟨r, hr, rfl⟩
        by_cases hid : r.id = p.id
        · rw [if_pos (by simpa using hid), hid]
          exact .inr rfl
        · rw [if_neg (by simpa using hid)]
          exact .inl ⟨hr, hid⟩
      · rintro (⟨hq, hid⟩ | rfl)
        · exact ⟨q, hq, if_neg (by simpa using hid)⟩
        · exact ⟨p, hmem, if_pos (by simp)⟩
    · cases h

theorem writePromotion_some {s : PromoAdmin} {id newId : Nat} {covers : Bool}
    (h : (s.promotions.find? id).isSome = true) : writePromotion s (some id) newId t covers =
      orViolation (s.promotions.update (fun p => decide (p.id = id)) (fun p => t.row p.id covers) fun _ => rfl) :=
  if_pos h

/-- After a write: the new row, the other promotions as they were, and the memberships of the write. -/
structure Applied (s s' : PromoAdmin) (id : Nat) (t : PromotionTerms) (members : List (String × Nat)) : Prop where
  models : s'.models = s.models
  orgLabels : s'.orgLabels = s.orgLabels
  memberships : s'.members =
    s.members.filter (fun m => decide (m.promotionId ≠ id)) ++ members.map fun m => ⟨id, m.2, m.1⟩
  promotions : ∀ q, q ∈ s'.promotions ↔ q ∈ s.promotions ∧ q.id ≠ id ∨ q = t.row id (members = [])
  labels : ∀ q ∈ s.promotions, q.id ≠ id → q.label ≠ t.label

variable {members : List (String × Nat)}

theorem Applied.of_apply {s s' : PromoAdmin} {promotionId : Option Nat} {newId : Nat}
    (h : modelPromotionApply s promotionId newId t members = .ok s') :
    Applied s s' (promotionId.getD newId) t members := by
  obtain ⟨promotions, hwrite, h⟩ := bind_eq_ok.mp h
  obtain ⟨_, hlabels, h⟩ := bind_eq_ok.mp h
  obtain ⟨_, -, h⟩ := bind_eq_ok.mp h
  cases h
  exact ⟨rfl, rfl, rfl, mem_writePromotion hwrite, ensure_eq_ok.mp hlabels⟩

/-! ### What every history keeps -/

/-- Labels are distinct, and a promotion of all models has no members. -/
structure PromoOk (s : PromoAdmin) : Prop where
  covers : ∀ p ∈ s.promotions, p.coversAllModels = true → ∀ m ∈ s.members, m.promotionId ≠ p.id
  named : ∀ p ∈ s.promotions, Catalog.strip p.label ≠ ""
  labels : ∀ p ∈ s.promotions, ∀ q ∈ s.promotions, q.id ≠ p.id → q.label ≠ p.label

theorem PromoOk.empty : PromoOk .empty where
  covers p hp := absurd hp (Table.not_mem_empty p)
  named p hp := absurd hp (Table.not_mem_empty p)
  labels p hp := absurd hp (Table.not_mem_empty p)

theorem validateTerms_eq_ok : validateTerms t = .ok () ↔ Catalog.strip t.label ≠ "" ∧
    (∀ key ∈ t.audienceLabels, matchesLabelKey key = true) ∧ (0 ≤ t.perOrgCap ∧ 0 ≤ t.discountCap) ∧
    (∀ provider ∈ t.providers, provider ∈ promotionProviders) ∧ (t.modelSlugs ≠ [] ∨ t.providers ≠ []) := by
  unfold validateTerms
  simp only [bind_eq_ok, ensure_eq_ok, exists_const]

/-- Other promotions keep their memberships, and a covering row has none. -/
theorem PromoOk.applied {s s' : PromoAdmin} {id : Nat}
    (h : PromoOk s) (happlied : Applied s s' id t members) (hlabel : Catalog.strip t.label ≠ "") : PromoOk s' := by
  refine ⟨fun p hp hcovers m hm => ?_, fun p hp => ?_, fun p hp q hq hne => ?_⟩
  · rw [happlied.memberships, List.mem_append] at hm
    rcases (happlied.promotions p).mp hp with ⟨hp, hid⟩ | rfl
    · rcases hm with hm | hm
      · exact h.covers p hp hcovers m (List.mem_of_mem_filter hm)
      · obtain ⟨e, -, rfl⟩ := List.mem_map.mp hm
        exact Ne.symm hid
    · have hnone : members = [] := by simpa [PromotionTerms.row] using hcovers
      subst hnone
      rw [List.map_nil] at hm
      rcases hm with hm | hm
      · have hne : m.promotionId ≠ id := by simpa using List.of_mem_filter hm
        exact hne
      · cases hm
  · rcases (happlied.promotions p).mp hp with ⟨hp, -⟩ | rfl
    · exact h.named p hp
    · exact hlabel
  · rcases (happlied.promotions p).mp hp with ⟨hp, hpid⟩ | rfl
    · rcases (happlied.promotions q).mp hq with ⟨hq, hqid⟩ | rfl
      · exact h.labels p hp q hq hne
      · exact (happlied.labels p hp hpid).symm
    · rcases (happlied.promotions q).mp hq with ⟨hq, hqid⟩ | rfl
      · exact happlied.labels q hq hqid
      · exact absurd rfl hne

theorem PromoOk.subset {s s' : PromoAdmin} (h : PromoOk s) (hpromotions : ∀ p ∈ s'.promotions, p ∈ s.promotions)
    (hmembers : ∀ m ∈ s'.members, m ∈ s.members) : PromoOk s' :=
  ⟨fun p hp hcovers m hm => h.covers p (hpromotions p hp) hcovers m (hmembers m hm),
    fun p hp => h.named p (hpromotions p hp),
    fun p hp q hq => h.labels p (hpromotions p hp) q (hpromotions q hq)⟩

theorem PromoOk.event {s s' : PromoAdmin} {e : PromoEvent} (hok : promoEvent s e = .ok s') (h : PromoOk s) : PromoOk s' := by
  cases e with
  | delete id =>
    obtain ⟨_, -, hok⟩ := bind_eq_ok.mp hok
    cases hok
    exact h.subset (fun p hp => (Table.mem_delete.mp hp).1) fun m hm => List.mem_of_mem_filter hm
  | setModels models =>
    cases hok
    exact h.subset (fun p hp => hp) fun m hm => List.mem_of_mem_filter hm
  | setOrgLabels orgLabels =>
    cases hok
    exact h.subset (fun p hp => hp) fun m hm => hm
  | _ =>
    obtain ⟨_, hvalid, hok⟩ := bind_eq_ok.mp hok
    obtain ⟨members, -, hok⟩ := bind_eq_ok.mp hok
    exact h.applied (.of_apply hok) (validateTerms_eq_ok.mp hvalid).1

theorem promoOk_run (events : List PromoEvent) : PromoOk (run promoStep .empty events) :=
  run_invariant_of_forall (fun _ _ => orStay_preserves fun _ hok => PromoOk.event hok) events _ PromoOk.empty

/-! ### The scope -/

theorem ModelPromotion.matches_iff {p : ModelPromotion} {c : Config} {orgId : Nat} {slug provider : String} :
    p.matches c orgId slug provider = true ↔ p.active = true ∧ (p.providers = [] ∨ provider ∈ p.providers) ∧
      (p.coversAllModels = true ∨ ∃ m ∈ c.modelPromotionModels, m.promotionId = p.id ∧ m.slug = slug) ∧
      (∀ key ∈ p.audienceLabels, ∃ l ∈ c.orgLabels, l.orgId = orgId ∧ l.key = key) ∧ p.fundingScope ≠ .byok := by
  have haudience : (p.audienceLabels.isEmpty || p.audienceLabels.all fun k => c.orgLabels.any fun l =>
      decide (l.orgId = orgId) && decide (l.key = k)) = true ↔
      ∀ key ∈ p.audienceLabels, ∃ l ∈ c.orgLabels, l.orgId = orgId ∧ l.key = key := by
    cases p.audienceLabels <;> simp
  have hfunding : (decide (p.fundingScope = .all) || decide (p.fundingScope = .platformFunded)) = true ↔
      p.fundingScope ≠ .byok := by
    cases p.fundingScope <;> decide
  unfold ModelPromotion.matches
  rw [Bool.and_eq_true, Bool.and_eq_true, Bool.and_eq_true, Bool.and_eq_true, haudience, hfunding]
  simp [and_assoc]

/-- Saving what was read cannot widen the promotion: it covers every model, still has a member, names no provider (the
save is refused), or applies to no request whatever its models. -/
def KeepsScope (s : PromoAdmin) (p : AdminPromotion) : Prop :=
  p.coversAllModels = true ∨ (∃ m ∈ s.members, m.promotionId = p.id) ∨ p.providers = [] ∨ p.active = false ∨
    p.fundingScope = .byok ∨ ∀ orgId, ∃ key ∈ p.audienceLabels, ∀ l ∈ s.orgLabels, l.orgId = orgId → l.key ≠ key

/-- A save of what was read is refused or leaves the requests the promotion applies to. -/
def SaveKeepsScope (base : Config) (asFloat : Percent → Percent) (s : PromoAdmin) (p : AdminPromotion) : Prop :=
  ∀ s', updatePromotion s p.id (snapshot asFloat s p) = .ok s' → ∀ orgId modelSlug provider,
    s'.applies base p.id orgId modelSlug provider = s.applies base p.id orgId modelSlug provider

theorem mem_slugsOf {s : PromoAdmin} {id : Nat} {slug : String} :
    slug ∈ slugsOf s id ↔ ∃ m ∈ s.members, m.promotionId = id ∧ m.slug = slug := by
  rw [slugsOf, List.mem_mergeSort, List.mem_map]
  simp only [List.mem_filter, decide_eq_true_eq, and_assoc]

theorem resolve_slugs {models : List CatalogModel} {slugs : List String}
    (h : resolvePublicModels models slugs = .ok members) : ∀ slug, (∃ e ∈ members, e.1 = slug) ↔ slug ∈ slugs := by
  obtain ⟨_, hknown, h⟩ := bind_eq_ok.mp h
  cases h
  have hknown := ensure_eq_ok.mp hknown
  intro slug
  have hfirsts : slug ∈ firsts id [] slugs ↔ slug ∈ slugs := by
    have hmem := mem_map_firsts id (k := slug) (l := slugs) (s := [])
    simpa using hmem
  rw [← hfirsts]
  simp only [List.mem_filterMap, Option.map_eq_some_iff]
  constructor
  · rintro ⟨_, ⟨slug', hslug', m, -, rfl⟩, rfl⟩
    exact hslug'
  · intro hslug
    obtain ⟨m, hm⟩ := Option.isSome_iff_exists.mp (hknown slug hslug)
    exact ⟨(slug, m.id), ⟨slug, hslug, m, hm, rfl⟩, rfl⟩

section save
variable {base : Config} {asFloat : Percent → Percent} {s s' : PromoAdmin} {p : AdminPromotion}

theorem find?_promotion (hp : p ∈ s.promotions) : s.promotions.find? p.id = some p := by
  have hfind : s.promotions.find? ((fun q : AdminPromotion => q.id) p) = some p := Table.find?_key hp
  exact hfind

theorem applies_iff (hp : p ∈ s.promotions) {orgId : Nat} {slug provider : String} :
    s.applies base p.id orgId slug provider = true ↔ p.active = true ∧ (p.providers = [] ∨ provider ∈ p.providers) ∧
      (p.coversAllModels = true ∨ ∃ m ∈ s.members, m.promotionId = p.id ∧ m.slug = slug) ∧
      (∀ key ∈ p.audienceLabels, ∃ l ∈ s.orgLabels, l.orgId = orgId ∧ l.key = key) ∧ p.fundingScope ≠ .byok := by
  rw [PromoAdmin.applies, find?_promotion hp, Option.any_some, ModelPromotion.matches_iff]
  rfl

theorem applies_saved (happlied : Applied s s' p.id (snapshot asFloat s p) members)
    {orgId : Nat} {slug provider : String} :
    s'.applies base p.id orgId slug provider = true ↔ p.active = true ∧ (p.providers = [] ∨ provider ∈ p.providers) ∧
      (members = [] ∨ ∃ e ∈ members, e.1 = slug) ∧
      (∀ key ∈ p.audienceLabels, ∃ l ∈ s.orgLabels, l.orgId = orgId ∧ l.key = key) ∧ p.fundingScope ≠ .byok := by
  have hrow : (snapshot asFloat s p).row p.id (members = []) ∈ s'.promotions := (happlied.promotions _).mpr (.inr rfl)
  have hmembers : (∃ m ∈ s'.members, m.promotionId = p.id ∧ m.slug = slug) ↔ ∃ e ∈ members, e.1 = slug := by
    rw [happlied.memberships]
    constructor
    · rintro ⟨m, hm, hid, rfl⟩
      rcases List.mem_append.mp hm with hm | hm
      · exact absurd hid (by simpa using List.of_mem_filter hm)
      · obtain ⟨e, he, rfl⟩ := List.mem_map.mp hm
        exact ⟨e, he, rfl⟩
    · rintro ⟨e, he, rfl⟩
      exact ⟨_, List.mem_append_right _ (List.mem_map_of_mem he), rfl, rfl⟩
  have hcovers : (decide (members = []) = true) ↔ members = [] := decide_eq_true_iff
  have happlies : s'.applies base p.id orgId slug provider = true ↔ _ := applies_iff hrow
  rw [happlied.orgLabels] at happlies
  rw [← hmembers, ← hcovers]
  exact happlies

theorem saved_cases (h : updatePromotion s p.id (snapshot asFloat s p) = .ok s') :
    ∃ members, Applied s s' p.id (snapshot asFloat s p) members ∧
      (∀ slug, (∃ e ∈ members, e.1 = slug) ↔ ∃ m ∈ s.members, m.promotionId = p.id ∧ m.slug = slug) ∧
      (slugsOf s p.id ≠ [] ∨ p.providers ≠ []) := by
  obtain ⟨_, hvalid, h⟩ := bind_eq_ok.mp h
  obtain ⟨members, hresolve, h⟩ := bind_eq_ok.mp h
  refine ⟨members, .of_apply h, fun slug => ?_, (validateTerms_eq_ok.mp hvalid).2.2.2.2⟩
  rw [resolve_slugs hresolve slug]
  exact mem_slugsOf

theorem KeepsScope.save (hkeeps : KeepsScope s p) (hok : PromoOk s) (hp : p ∈ s.promotions) :
    SaveKeepsScope base asFloat s p := by
  intro s' hsave orgId slug provider
  obtain ⟨members, happlied, hslugs, hscope⟩ := saved_cases hsave
  have hnone : members = [] ↔ ∀ m ∈ s.members, m.promotionId ≠ p.id := by
    constructor
    · rintro rfl m hm hid
      obtain ⟨e, he, -⟩ := (hslugs m.slug).mpr ⟨m, hm, hid, rfl⟩
      cases he
    · intro hall
      rw [List.eq_nil_iff_forall_not_mem]
      intro e he
      obtain ⟨m, hm, hid, -⟩ := (hslugs e.1).mp ⟨e, he, rfl⟩
      exact hall m hm hid
  rw [Bool.eq_iff_iff, applies_saved happlied, applies_iff hp, hslugs, hnone]
  have hmember : (∃ m ∈ s.members, m.promotionId = p.id) → p.coversAllModels = false := by
    rintro ⟨m, hm, hid⟩
    exact Bool.eq_false_iff.mpr fun hcovers => hok.covers p hp hcovers m hm hid
  rcases hkeeps with hcovers | ⟨m, hm, hid⟩ | hproviders | hactive | hfunding | haudience
  · simp only [hcovers, eq_true (hok.covers p hp hcovers), true_or]
  · have hsome : ¬∀ m ∈ s.members, m.promotionId ≠ p.id := fun hall => hall m hm hid
    simp only [hmember ⟨m, hm, hid⟩, hsome, Bool.false_eq_true, false_or]
  · -- the save went through, so there are models
    obtain ⟨slug', hslug'⟩ := List.exists_mem_of_ne_nil _ (hscope.resolve_right fun h => h hproviders)
    obtain ⟨m, hm, hid, -⟩ := mem_slugsOf.mp hslug'
    have hsome : ¬∀ m ∈ s.members, m.promotionId ≠ p.id := fun hall => hall m hm hid
    simp only [hmember ⟨m, hm, hid⟩, hsome, Bool.false_eq_true, false_or]
  · simp [hactive]
  · simp [hfunding]
  · obtain ⟨key, hkey, hl⟩ := haudience orgId
    have hmissing : ¬∀ key ∈ p.audienceLabels, ∃ l ∈ s.orgLabels, l.orgId = orgId ∧ l.key = key := by
      intro hall
      obtain ⟨l, hmem, horg, heq⟩ := hall key hkey
      exact hl l hmem horg heq
    simp only [hmissing, false_and, and_false]

theorem exists_save (hok : PromoOk s) (hp : p ∈ s.promotions) (hnone : ∀ m ∈ s.members, m.promotionId ≠ p.id)
    (hproviders : p.providers ≠ []) : ∃ s', updatePromotion s p.id (snapshot asFloat s p) = .ok s' ∧
      Applied s s' p.id (snapshot asFloat s p) [] := by
  obtain ⟨hcaps, hknown, haudience⟩ := s.promotions.checked p hp
  have hslugs : slugsOf s p.id = [] := by
    rw [List.eq_nil_iff_forall_not_mem]
    intro slug hslug
    obtain ⟨m, hm, hid, -⟩ := mem_slugsOf.mp hslug
    exact hnone m hm hid
  have hvalid : validateTerms (snapshot asFloat s p) = .ok () := by
    refine validateTerms_eq_ok.mpr ⟨hok.named p hp, fun key hkey => ?_, hcaps, hknown, .inr hproviders⟩
    rw [matchesLabelKey, haudience key hkey, Bool.true_or]
  have hresolve : resolvePublicModels s.models (snapshot asFloat s p).modelSlugs = .ok [] := by
    change resolvePublicModels s.models (slugsOf s p.id) = _
    rw [hslugs]
    rfl
  have hfound : s.promotions.find? p.id = some p := find?_promotion hp
  obtain ⟨promotions, hupdate⟩ : ∃ promotions, s.promotions.update (fun q => decide (q.id = p.id))
      (fun q => (snapshot asFloat s p).row q.id true) (fun _ => rfl) = .ok promotions :=
    Table.exists_update fun _ _ _ => ⟨hcaps, hknown, haudience⟩
  have happly : ∃ s', modelPromotionApply s (some p.id) p.id (snapshot asFloat s p) [] = .ok s' := by
    have hwrite : writePromotion s (some p.id) p.id (snapshot asFloat s p) (decide (([] : List (String × Nat)) = [])) =
        .ok promotions := by
      rw [writePromotion_some (by rw [hfound]; rfl)]
      exact orViolation_eq_ok.mpr hupdate
    have hlabels : ∀ q ∈ s.promotions.rows, q.id ≠ (some p.id).getD p.id → q.label ≠ (snapshot asFloat s p).label :=
      fun q hq hne => hok.labels p hp q hq hne
    refine ⟨_, bind_eq_ok.mpr ⟨promotions, hwrite, bind_eq_ok.mpr ⟨(), ensure_eq_ok.mpr hlabels,
      bind_eq_ok.mpr ⟨(), ensure_eq_ok.mpr nofun, rfl⟩⟩⟩⟩
  obtain ⟨s', happly⟩ := happly
  refine ⟨s', bind_eq_ok.mpr ⟨(), hvalid, bind_eq_ok.mpr ⟨[], hresolve, happly⟩⟩, .of_apply happly⟩

/-- A promotion that matched nothing for want of models is widened by its save. -/
theorem SaveKeepsScope.keepsScope (hsave : SaveKeepsScope base asFloat s p) (hok : PromoOk s) (hp : p ∈ s.promotions) :
    KeepsScope s p := by
  by_contra hnot
  simp only [KeepsScope, not_or, not_exists, not_and, not_forall, Bool.not_eq_true] at hnot
  obtain ⟨hcovers, hnone, hproviders, hactive, hfunding, orgId, haudience⟩ := hnot
  obtain ⟨provider, hprovider⟩ := List.exists_mem_of_ne_nil _ hproviders
  obtain ⟨s', hupdate, happlied⟩ : ∃ s', updatePromotion s p.id (snapshot asFloat s p) = .ok s' ∧
      Applied s s' p.id (snapshot asFloat s p) [] := exists_save hok hp hnone hproviders
  have hsame := hsave s' hupdate orgId "" provider
  have hafter : s'.applies base p.id orgId "" provider = true := by
    refine (applies_saved happlied).mpr ⟨?_, .inr hprovider, .inl rfl, fun key hkey => ?_, hfunding⟩
    · simpa using hactive
    · obtain ⟨l, hl, horg, heq⟩ := haudience key hkey
      exact ⟨l, hl, horg, not_not.mp heq⟩
  rw [hsame] at hafter
  rcases ((applies_iff hp).mp hafter).2.2.1 with h | ⟨m, hm, hid, -⟩
  · rw [hcovers] at h
    cases h
  · exact hnone m hm hid

end save

/-- In every state a history reaches, saving a promotion as it was read keeps its scope exactly when it cannot widen. -/
theorem save_keeps_scope_iff (base : Config) (asFloat : Percent → Percent) (events : List PromoEvent) :
    ∀ p ∈ (run promoStep .empty events).promotions,
      SaveKeepsScope base asFloat (run promoStep .empty events) p ↔ KeepsScope (run promoStep .empty events) p :=
  fun _ hp => ⟨fun h => h.keepsScope (promoOk_run events) hp, fun h => h.save (promoOk_run events) hp⟩

def launchTerms : PromotionTerms where
  label := "Launch"
  modelSlugs := ["m"]
  familyKeys := []
  providers := ["openai"]
  audienceLabels := []
  fundingScope := .platformFunded
  perOrgCap := 0
  discountCap := 0
  capScope := .lifetime
  percentOff := halfOff
  active := true
  displayOrder := 0

/-- A promotion of one public model. -/
def launchEvents : List PromoEvent := [.setModels [⟨1, "m", none⟩], .create 3 launchTerms]

def launchRow : AdminPromotion := launchTerms.row 3 false

theorem launch_keeps_scope : SaveKeepsScope sampleConfig id (run promoStep .empty launchEvents) launchRow := by
  have hrow : launchRow ∈ (run promoStep .empty launchEvents).promotions.rows := by decide +kernel
  have hmember : ⟨3, 1, "m"⟩ ∈ (run promoStep .empty launchEvents).members := by decide +kernel
  exact (save_keeps_scope_iff sampleConfig id launchEvents launchRow hrow).mpr (.inr (.inl ⟨_, hmember, rfl⟩))

/-- The model is deleted. -/
def emptied : PromoAdmin := run promoStep .empty (launchEvents ++ [.setModels []])

/-- The emptied promotion applies to nothing, and after its save to every model of its provider. -/
theorem emptied_scope_widens : emptied.promotions.rows = [launchRow] ∧
    emptied.applies sampleConfig 3 0 "other" "openai" = false ∧
    ∃ s', updatePromotion emptied 3 (snapshot id emptied launchRow) = .ok s' ∧
      s'.applies sampleConfig 3 0 "other" "openai" = true := by
  have hsaved : (match updatePromotion emptied 3 (snapshot id emptied launchRow) with
      | .ok s' => s'.applies sampleConfig 3 0 "other" "openai"
      | .error _ => false) = true := by
    decide +kernel
  refine ⟨by decide +kernel, by decide +kernel, ?_⟩
  split at hsaved
  · rename_i s' hupdate
    exact ⟨s', hupdate, hsaved⟩
  · cases hsaved

end Experiential.Gateway
