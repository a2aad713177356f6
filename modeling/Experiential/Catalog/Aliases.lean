import Experiential.Catalog.Isolation

/-! # Aliases and their revisions

The tables authorization reads: an alias row names the current one of its immutable revisions,
and a revision carries the target and the catalog digest of a request. The catalog store
activates one revision per alias plan under the alias `model-<id>`; an admin's named aliases
copy the revision of a model under an alias and a revision of their own. `authorizeRequest`
finds the effective alias of a name for an organization and, when it may be used, the authority
of the request. -/

namespace Experiential.Catalog

/-! ### Tables -/

inductive AliasOrigin where
  | catalog
  | named
deriving DecidableEq

/-- One `gateway_aliases` row, under its alias id. -/
structure GatewayAlias where
  aliasName : String
  orgId : Option Uuid
  origin : AliasOrigin
  active : Bool
  currentRevisionId : Option String
deriving DecidableEq

/-- `target_document`: a direct target with its frozen order. -/
structure AliasTarget where
  poolId : String
  deploymentIds : List String
deriving DecidableEq

/-- `_CatalogRevision`: the content of a revision. -/
structure CatalogRevision where
  target : AliasTarget
  catalogSha256 : String
  providerConnectionRevisions : List (String × Nat)
  certification : Option (GatewayEquivalenceCertification × List String)
  refusalFailover : Bool
deriving DecidableEq

/-- One `gateway_alias_revisions` row, under its revision id. -/
structure AliasRevision extends CatalogRevision where
  aliasId : String
deriving DecidableEq

structure AliasTables where
  aliases : Dict String GatewayAlias
  revisions : Dict String AliasRevision
  /-- `gateway_named_alias_targets`: the model behind a named revision. -/
  namedTargets : Dict String (Option Uuid × String)
  /-- `gateway_grants`: alias and identity. -/
  grants : List (String × Uuid)
  organizations : List Uuid

def AliasTables.empty : AliasTables := ⟨∅, ∅, ∅, [], []⟩

/-- Why an alias function raises. -/
inductive AliasError where
  | uniqueViolation (message : String)
  | foreignKeyViolation
  | notFound (message : String)
  | notRoutable (slug : String)
  | invalidName
deriving DecidableEq

abbrev Activating := Except AliasError

/-! ### Activation -/

section activation
variable (t : AliasTables)

/-- Does another alias hold the name in the namespace? -/
def AliasTables.nameTaken (aliasId aliasName : String) (orgId : Option Uuid) : Bool :=
  t.aliases.entries.any fun e =>
    decide (e.2.aliasName = aliasName) && decide (e.2.orgId = orgId) && decide (e.1 ≠ aliasId)

/-- The row of an alias, or the one its insertion makes. -/
def AliasTables.aliasOrNew (aliasId aliasName : String) (orgId : Option Uuid) : GatewayAlias :=
  (t.aliases.lookup aliasId).getD ⟨aliasName, orgId, .catalog, true, none⟩

/-- Make a revision the current one of an active alias. -/
def AliasTables.point (aliasId : String) (row : GatewayAlias) (revisionId : String) : AliasTables :=
  let pointed := { row with currentRevisionId := some revisionId, active := true }
  { t with aliases := t.aliases.insert aliasId pointed }

/-- `gateway_activate_alias_revision`: the tables, and whether anything changed. -/
def gatewayActivateAliasRevision (aliasId aliasName : String) (orgId : Option Uuid)
    (revisionId : String) (content : CatalogRevision) : Activating (AliasTables × Bool) := do
  ensure (t.nameTaken aliasId aliasName orgId = false)
    (.uniqueViolation "alias name is already bound to a different alias id in this namespace")
  ensure ((t.aliases.lookup aliasId).isSome ∨ ∀ o, orgId = some o → o ∈ t.organizations)
    .foreignKeyViolation
  let row := t.aliasOrNew aliasId aliasName orgId
  ensure (row.aliasName = aliasName ∧ row.orgId = orgId)
    (.uniqueViolation "alias identity drifted: alias_id is bound to another name or organization")
  match t.revisions.lookup revisionId with
  | some stored => do
      ensure (stored = ⟨content, aliasId⟩)
        (.uniqueViolation "alias revision content drifted for an existing revision id")
      if row.currentRevisionId = some revisionId ∧ row.active = true then return (t, false)
      else return (t.point aliasId row revisionId, true)
  | none =>
      return ({ t.point aliasId row revisionId with
        revisions := t.revisions.insert revisionId ⟨content, aliasId⟩ }, true)

end activation

/-! ### The catalog store -/

/-- The content of the revision a plan activates. -/
def AliasActivationPlan.content (plan : AliasActivationPlan) : CatalogRevision where
  target := ⟨plan.targetPoolId, plan.targetDeploymentIds⟩
  catalogSha256 := plan.catalogSha256
  providerConnectionRevisions := plan.providerConnectionRevisions
  certification := plan.certification.map fun c => (c, plan.certificationOrder)
  refusalFailover := plan.refusalFailover

/-- What a store did, by alias name. -/
structure CatalogStoreResult where
  aliasChanges : List (String × Bool)
  skippedAliases : List String
  namedAliasShadowed : List String

/-- Did the store activate anything? -/
def CatalogStoreResult.changed (r : CatalogStoreResult) : Bool := r.aliasChanges.any (·.2)

/-- The names held by named aliases. -/
def AliasTables.namedNamespace (t : AliasTables) : List (String × Option Uuid) :=
  (t.aliases.entries.filter fun e => decide (e.2.origin = .named)).map fun e => (e.2.aliasName, e.2.orgId)

/-- One plan of a store: shadowed by a named alias, activated, or skipped for a missing row. -/
def storePlan (namespaceHeld : List (String × Option Uuid)) (acc : AliasTables × CatalogStoreResult)
    (plan : AliasActivationPlan) : Activating (AliasTables × CatalogStoreResult) :=
  if plan.orgId ≠ none ∧ (plan.aliasName, plan.orgId) ∈ namespaceHeld then
    .ok (acc.1, { acc.2 with namedAliasShadowed := acc.2.namedAliasShadowed ++ [plan.aliasName] })
  else
    match gatewayActivateAliasRevision acc.1 plan.aliasId plan.aliasName plan.orgId plan.revisionId
        plan.content with
    | .ok (t, changed) =>
        .ok (t, { acc.2 with aliasChanges := acc.2.aliasChanges ++ [(plan.aliasName, changed)] })
    | .error .foreignKeyViolation =>
        .ok (acc.1, { acc.2 with skippedAliases := acc.2.skippedAliases ++ [plan.aliasName] })
    | .error e => .error e

/-- `store_gateway_catalog` in one step, without the registration of the snapshot. -/
def storeGatewayCatalog (t : AliasTables) (b : GatewayCatalogBuild) :
    Activating (AliasTables × CatalogStoreResult) :=
  match b.catalog with
  | none => .ok (t, ⟨[], [], []⟩)
  | some _ => b.aliasPlans.foldlM (storePlan t.namedNamespace) (t, ⟨[], [], []⟩)

/-! ### Named aliases -/

/-- A call of `gateway_activate_named_alias_revision`. -/
structure NamedActivation where
  aliasId : String
  aliasName : String
  orgId : Uuid
  revisionId : String
  revision : CatalogRevision
  modelId : Option Uuid
  modelSlug : String

/-- The tables in which a named alias exists, or the refusal. -/
def AliasTables.markNamed (t : AliasTables) (a : NamedActivation) : Activating AliasTables :=
  match t.aliases.lookup a.aliasId with
  | some row => do
      ensure (row.origin = .named)
        (.uniqueViolation "alias id already exists as a catalog alias; named aliases use a distinct id")
      return t
  | none => do
      ensure (t.nameTaken a.aliasId a.aliasName (some a.orgId) = false)
        (.uniqueViolation "a model or alias named this already exists in this organization")
      ensure (a.orgId ∈ t.organizations) .foreignKeyViolation
      return { t with aliases := t.aliases.insert a.aliasId ⟨a.aliasName, some a.orgId, .named, true, none⟩ }

/-- `gateway_activate_named_alias_revision`. -/
def gatewayActivateNamedAliasRevision (t : AliasTables) (a : NamedActivation) : Activating AliasTables := do
  let marked ← t.markNamed a
  let activated ← gatewayActivateAliasRevision marked a.aliasId a.aliasName (some a.orgId) a.revisionId
    a.revision
  return { activated.1 with
    namedTargets := match activated.1.namedTargets.lookup a.revisionId with
      | some _ => activated.1.namedTargets
      | none => activated.1.namedTargets.insert a.revisionId (a.modelId, a.modelSlug) }

/-- `gateway_deactivate_alias`. -/
def gatewayDeactivateAlias (t : AliasTables) (aliasId : String) : Activating AliasTables := do
  let row ← require (t.aliases.lookup aliasId) (.notFound "alias does not exist")
  return { t with aliases := t.aliases.insert aliasId { row with active := false } }

/-- `_resolve_backing_model`: the organization's own model shadows a public one. -/
def resolveBackingModel (rows : PlatformCatalogRows) (slug : String) (org : Uuid) :
    Activating CatalogModelRow :=
  let visible := fun (owner : Option Uuid) =>
    rows.models.find? fun m => decide (m.slug = slug) && decide (m.owningOrgId = owner)
  require ((visible (some org)).or (visible none))
    (.notFound s!"model '{slug}' not found in the public catalog or your organization; GET /api/models lists the models you can point an alias at")

/-- `_model_catalog_revision`: the current revision of a model's catalog alias. -/
def modelCatalogRevision (t : AliasTables) (model : Uuid) (slug : String) : Activating CatalogRevision :=
  require (do
    let row ← t.aliases.lookup (modelAliasId model)
    let revisionId ← row.currentRevisionId.filter fun _ => row.active
    let revision ← t.revisions.lookup revisionId
    return revision.toCatalogRevision) (.notRoutable slug)

/-- `_resolve_named_alias`. -/
def resolveNamedAlias (t : AliasTables) (name : String) (org : Uuid) : Activating (String × GatewayAlias) :=
  require ((t.aliases.entries.find? fun e => decide (e.2.aliasName = name) &&
      decide (e.2.orgId = some org) && decide (e.2.origin = .named)).map fun e => (e.1, e.2))
    (.notFound s!"named alias '{name}' not found in this organization")

/-- A letter or digit that may stand in a name. -/
def isNameChar (c : Char) : Bool := c.isLower || c.isDigit

/-- The words of a name after its first letter: no separator is last or follows another. -/
def nameTail : List Char → Bool
  | [] => true
  | c :: cs =>
      if isNameChar c then nameTail cs
      else (c == '.' || c == '_' || c == '-') && (match cs with
        | [] => false
        | d :: _ => isNameChar d && nameTail cs)

/-- `^[a-z][a-z0-9]*(?:[._-][a-z0-9]+)*$`. -/
def artifactIdPattern (name : String) : Bool :=
  match name.toList with
  | [] => false
  | c :: cs => c.isLower && nameTail cs

/-- An admin's request, up to the call it makes; `hex` is what `uuid4` returns. -/
inductive NamedAliasRequest where
  | create (org : Uuid) (name model : String) (aliasHex revisionHex : String)
  | repoint (org : Uuid) (name model : String) (revisionHex : String)
  | rollback (org : Uuid) (name revisionId : String)
  | retire (org : Uuid) (name : String)

/-- The call of a request. -/
inductive AliasCall where
  | activate (a : NamedActivation)
  | deactivate (aliasId : String)

/-- What the routes read before their call. -/
def NamedAliasRequest.prepare (rows : PlatformCatalogRows) (t : AliasTables) :
    NamedAliasRequest → Activating AliasCall
  | create org name slug aliasHex revisionHex => do
      ensure (artifactIdPattern name = true ∧ name.length ≤ 128) .invalidName
      let model ← resolveBackingModel rows slug org
      let revision ← modelCatalogRevision t model.id slug
      return .activate ⟨"named-" ++ aliasHex, name, org, "nrev-" ++ revisionHex, revision, some model.id,
        model.slug⟩
  | repoint org name slug revisionHex => do
      let found ← resolveNamedAlias t name org
      let model ← resolveBackingModel rows slug org
      let revision ← modelCatalogRevision t model.id slug
      return .activate ⟨found.1, name, org, "nrev-" ++ revisionHex, revision, some model.id, model.slug⟩
  | rollback org name revisionId => do
      let found ← resolveNamedAlias t name org
      let stored ← require (t.revisions.lookup revisionId) (.notFound
        s!"revision '{revisionId}' does not belong to named alias '{name}'")
      ensure (stored.aliasId = found.1) (.notFound
        s!"revision '{revisionId}' does not belong to named alias '{name}'")
      let target := (t.namedTargets.lookup revisionId).getD (none, "")
      return .activate ⟨found.1, name, org, revisionId, stored.toCatalogRevision, target.1, target.2⟩
  | retire org name => do
      let found ← resolveNamedAlias t name org
      return .deactivate found.1

def AliasCall.execute (t : AliasTables) : AliasCall → Activating AliasTables
  | activate a => gatewayActivateNamedAliasRevision t a
  | deactivate aliasId => gatewayDeactivateAlias t aliasId

/-! ### Authorization -/

/-- The active alias of a name in a namespace. -/
def AliasTables.activeAlias (t : AliasTables) (name : String) (orgId : Option Uuid) :
    Option (String × GatewayAlias) :=
  (t.aliases.entries.find? fun e => decide (e.2.aliasName = name) && decide (e.2.orgId = orgId) &&
    e.2.active).map fun e => (e.1, e.2)

/-- The organization's alias of a name, or else the public one. -/
def AliasTables.effectiveAlias (t : AliasTables) (name : String) (org : Uuid) :
    Option (String × GatewayAlias) :=
  (t.activeAlias name (some org)).or (t.activeAlias name none)

/-- `authorize_request`, for an authenticated key of the organization: denied when the name is
no artifact id, the key has no identity, or the effective alias is neither public nor granted. -/
def authorizeRequest (t : AliasTables) (org : Uuid) (identity : Option Uuid) (name : String) :
    Option AuthorizationSnapshot := do
  let identity ← identity.filter fun _ => artifactIdPattern name && decide (name.length ≤ 128)
  let found ← t.effectiveAlias name org
  let revisionId ← found.2.currentRevisionId.filter fun _ =>
    decide (found.2.orgId = none ∨ (found.1, identity) ∈ t.grants)
  let revision ← t.revisions.lookup revisionId
  return {
    organizationId := organizationArtifactId org.text
    aliasRevisionId := revisionId
    targetPoolId := revision.target.poolId
    catalogSha256 := revision.catalogSha256 }

/-! ### What activation does -/

/-- `unique nulls not distinct (alias_name, org_id)`. -/
def NamespaceUnique (t : AliasTables) : Prop :=
  ∀ id a id' a', t.aliases.lookup id = some a → t.aliases.lookup id' = some a' →
    a.aliasName = a'.aliasName → a.orgId = a'.orgId → id = id'

section effects
variable {t t' : AliasTables} {aliasId aliasName revisionId : String} {orgId : Option Uuid}
  {content : CatalogRevision} {changed : Bool}

theorem nameTaken_eq_false : t.nameTaken aliasId aliasName orgId = false ↔
    ∀ id a, t.aliases.lookup id = some a → a.aliasName = aliasName → a.orgId = orgId → id = aliasId := by
  unfold AliasTables.nameTaken
  rw [List.any_eq_false]
  constructor
  · intro h id a ha hname horg
    by_contra hne
    have hentry := h _ (AList.mem_lookup_iff.mp ha)
    simp [hname, horg, hne] at hentry
  · intro h e he htaken
    simp only [Bool.and_eq_true, decide_eq_true_eq] at htaken
    exact htaken.2 (h e.1 e.2 (AList.mem_lookup_iff.mpr he) htaken.1.1 htaken.1.2)

/-- What a successful activation leaves behind. -/
structure Activated (t t' : AliasTables) (aliasId aliasName : String) (orgId : Option Uuid)
    (revisionId : String) (content : CatalogRevision) : Prop where
  free : t.nameTaken aliasId aliasName orgId = false
  identity : (t.aliasOrNew aliasId aliasName orgId).aliasName = aliasName ∧
    (t.aliasOrNew aliasId aliasName orgId).orgId = orgId
  row : ∃ row, t'.aliases.lookup aliasId = some row ∧ row.aliasName = aliasName ∧ row.orgId = orgId ∧
    row.origin = (t.aliasOrNew aliasId aliasName orgId).origin ∧ row.currentRevisionId = some revisionId
  others : ∀ id, id ≠ aliasId → t'.aliases.lookup id = t.aliases.lookup id
  revision : t'.revisions.lookup revisionId = some ⟨content, aliasId⟩
  revisions : ∀ id r, t.revisions.lookup id = some r → t'.revisions.lookup id = some r

theorem gatewayActivateAliasRevision_spec
    (h : gatewayActivateAliasRevision t aliasId aliasName orgId revisionId content = .ok (t', changed)) :
    Activated t t' aliasId aliasName orgId revisionId content ∧ (changed = false → t' = t) := by
  unfold gatewayActivateAliasRevision at h
  simp only [bind_eq_ok, ensure_eq_ok] at h
  obtain ⟨-, hfree, -, -, -, hidentity, h⟩ := h
  have hname := hidentity.1
  have horg := hidentity.2
  cases hstored : t.revisions.lookup revisionId with
  | none =>
      rw [hstored] at h
      simp only [pure_eq_ok, Prod.mk.injEq] at h
      obtain ⟨rfl, rfl⟩ := h
      refine ⟨⟨hfree, hidentity, ⟨_, AList.lookup_insert _, hname, horg, rfl, rfl⟩, ?_, AList.lookup_insert _, ?_⟩,
        by simp⟩
      · intro id hid
        exact AList.lookup_insert_ne hid
      · intro id r hr
        have hne : id ≠ revisionId := by
          rintro rfl
          rw [hstored] at hr
          cases hr
        show (AList.insert revisionId _ t.revisions).lookup id = some r
        rw [AList.lookup_insert_ne hne]
        exact hr
  | some stored =>
      rw [hstored] at h
      simp only [bind_eq_ok, ensure_eq_ok] at h
      obtain ⟨-, rfl, h⟩ := h
      split_ifs at h with hcurrent
      · simp only [pure_eq_ok, Prod.mk.injEq] at h
        obtain ⟨rfl, rfl⟩ := h
        -- the alias is there: a new one has no current revision
        cases hrow : t.aliases.lookup aliasId with
        | none =>
            unfold AliasTables.aliasOrNew at hcurrent
            rw [hrow] at hcurrent
            cases hcurrent.1
        | some row =>
            have hget : t.aliasOrNew aliasId aliasName orgId = row := by
              unfold AliasTables.aliasOrNew
              rw [hrow, Option.getD_some]
            rw [hget] at hname horg hcurrent
            exact ⟨⟨hfree, hidentity, ⟨row, hrow, hname, horg, by rw [hget], hcurrent.1⟩, fun _ _ => rfl, hstored,
              fun _ _ hr => hr⟩, fun _ => rfl⟩
      · simp only [pure_eq_ok, Prod.mk.injEq] at h
        obtain ⟨rfl, rfl⟩ := h
        refine ⟨⟨hfree, hidentity, ⟨_, AList.lookup_insert _, hname, horg, rfl, rfl⟩, ?_, hstored,
          fun _ _ hr => hr⟩, by simp⟩
        intro id hid
        exact AList.lookup_insert_ne hid

theorem lookup_of_foreignKeyViolation
    (h : gatewayActivateAliasRevision t aliasId aliasName orgId revisionId content =
      .error .foreignKeyViolation) : t.aliases.lookup aliasId = none := by
  unfold gatewayActivateAliasRevision at h
  simp only [bind_eq_error, ensure_eq_error, ensure_eq_ok, reduceCtorEq, and_false, false_or] at h
  obtain ⟨-, -, ⟨hmissing, -⟩ | ⟨-, -, -, -, h⟩⟩ := h
  · push Not at hmissing
    exact Option.not_isSome_iff_eq_none.mp hmissing.1
  · cases hstored : t.revisions.lookup revisionId with
    | none =>
        rw [hstored] at h
        cases h
    | some stored =>
        rw [hstored] at h
        simp only [bind_eq_error, ensure_eq_error, reduceCtorEq, and_false, false_or] at h
        obtain ⟨-, -, h⟩ := h
        split_ifs at h <;> cases h

namespace Activated

theorem namespaceUnique (h : Activated t t' aliasId aliasName orgId revisionId content)
    (hu : NamespaceUnique t) : NamespaceUnique t' := by
  obtain ⟨row, hrow, hname, horg, -, -⟩ := h.row
  have hfree := nameTaken_eq_false.mp h.free
  intro id a id' a' ha ha' hn ho
  by_cases hid : id = aliasId
  · subst hid
    by_cases hid' : id' = id
    · exact hid'.symm
    · rw [h.others id' hid'] at ha'
      rw [hrow] at ha
      cases ha
      exact (hfree id' a' ha' (hn.symm.trans hname) (ho.symm.trans horg)).symm
  · rw [h.others id hid] at ha
    by_cases hid' : id' = aliasId
    · subst hid'
      rw [hrow] at ha'
      cases ha'
      exact hfree id a ha (hn.trans hname) (ho.trans horg)
    · rw [h.others id' hid'] at ha'
      exact hu id a id' a' ha ha' hn ho

end Activated

end effects

/-! ### What a plan's alias serves -/

/-- The plan's alias, when it is there as a catalog alias under the plan's name, serves the plan. -/
def ServesPlan (t : AliasTables) (plan : AliasActivationPlan) : Prop :=
  ∀ a, t.aliases.lookup plan.aliasId = some a → a.origin = .catalog → a.aliasName = plan.aliasName →
    a.orgId = plan.orgId → a.currentRevisionId = some plan.revisionId ∧
      ∃ r, t.revisions.lookup plan.revisionId = some r ∧ r.catalogSha256 = plan.catalogSha256

/-- No catalog alias is added, renamed or pointed elsewhere, and no revision is lost. -/
structure KeepsCatalog (t t' : AliasTables) : Prop where
  aliases : ∀ id a', t'.aliases.lookup id = some a' → a'.origin = .catalog →
    ∃ a, t.aliases.lookup id = some a ∧ a.origin = .catalog ∧ a.aliasName = a'.aliasName ∧
      a.orgId = a'.orgId ∧ a.currentRevisionId = a'.currentRevisionId
  revisions : ∀ id r, t.revisions.lookup id = some r → t'.revisions.lookup id = some r

section keeps
variable {t t' : AliasTables} {plan : AliasActivationPlan}

theorem ServesPlan.keeps (h : ServesPlan t plan) (hk : KeepsCatalog t t') : ServesPlan t' plan := by
  intro a' ha' horigin hname horg
  obtain ⟨a, ha, ho, hn, hg, hc⟩ := hk.aliases _ _ ha' horigin
  obtain ⟨hcurrent, r, hr, hsha⟩ := h a ha ho (hn.trans hname) (hg.trans horg)
  exact ⟨hc.symm.trans hcurrent, r, hk.revisions _ _ hr, hsha⟩

/-- A named activation leaves the catalog's aliases alone. -/
theorem gatewayActivateNamedAliasRevision_spec {a : NamedActivation} (hu : NamespaceUnique t)
    (h : gatewayActivateNamedAliasRevision t a = .ok t') : NamespaceUnique t' ∧ KeepsCatalog t t' := by
  unfold gatewayActivateNamedAliasRevision at h
  simp only [bind_eq_ok, pure_eq_ok] at h
  obtain ⟨marked, hmarked, ⟨activated, changed⟩, hactivated, rfl⟩ := h
  obtain ⟨hspec, -⟩ := gatewayActivateAliasRevision_spec hactivated
  -- the alias is named before the activation, whether it was there or not
  have hmark : (∃ row, marked.aliases.lookup a.aliasId = some row ∧ row.origin = .named) ∧
      (∀ id, id ≠ a.aliasId → marked.aliases.lookup id = t.aliases.lookup id) ∧
      marked.revisions = t.revisions ∧ NamespaceUnique marked := by
    unfold AliasTables.markNamed at hmarked
    cases hrow : t.aliases.lookup a.aliasId with
    | some row =>
        rw [hrow] at hmarked
        simp only [bind_eq_ok, ensure_eq_ok, pure_eq_ok] at hmarked
        obtain ⟨-, hnamed, rfl⟩ := hmarked
        exact ⟨⟨row, hrow, hnamed⟩, fun _ _ => rfl, rfl, hu⟩
    | none =>
        rw [hrow] at hmarked
        simp only [bind_eq_ok, ensure_eq_ok, pure_eq_ok] at hmarked
        obtain ⟨-, hfree, -, -, rfl⟩ := hmarked
        have hfree := nameTaken_eq_false.mp hfree
        refine ⟨⟨_, AList.lookup_insert _, rfl⟩, fun _ hid => AList.lookup_insert_ne hid, rfl, ?_⟩
        intro id b id' b' hb hb' hn ho
        rcases Dict.lookup_insert_eq_some.mp hb with ⟨rfl, rfl⟩ | ⟨hid, hb⟩
        · rcases Dict.lookup_insert_eq_some.mp hb' with ⟨rfl, -⟩ | ⟨-, hb'⟩
          · rfl
          · exact (hfree id' b' hb' hn.symm ho.symm).symm
        · rcases Dict.lookup_insert_eq_some.mp hb' with ⟨rfl, rfl⟩ | ⟨-, hb'⟩
          · exact hfree id b hb hn ho
          · exact hu id b id' b' hb hb' hn ho
  obtain ⟨⟨row, hrow, hnamed⟩, hothers, hrevisions, humarked⟩ := hmark
  refine ⟨hspec.namespaceUnique humarked, ?_, ?_⟩
  · intro id b hb hb'
    have hne : id ≠ a.aliasId := by
      rintro rfl
      obtain ⟨row', hrow', -, -, horigin, -⟩ := hspec.row
      have hget : (marked.aliasOrNew a.aliasId a.aliasName (some a.orgId)).origin = .named := by
        unfold AliasTables.aliasOrNew
        rw [hrow, Option.getD_some, hnamed]
      have hsame : b = row' := Option.some.inj (hb.symm.trans hrow')
      rw [hsame, horigin, hget] at hb'
      cases hb'
    have hb : activated.aliases.lookup id = some b := hb
    rw [hspec.others id hne, hothers id hne] at hb
    exact ⟨b, hb, hb', rfl, rfl, rfl⟩
  · intro id r hr
    rw [← hrevisions] at hr
    exact hspec.revisions id r hr

theorem gatewayDeactivateAlias_spec {aliasId : String} (hu : NamespaceUnique t)
    (h : gatewayDeactivateAlias t aliasId = .ok t') : NamespaceUnique t' ∧ KeepsCatalog t t' := by
  unfold gatewayDeactivateAlias at h
  simp only [bind_eq_ok, require_eq_ok, pure_eq_ok] at h
  obtain ⟨row, hrow, rfl⟩ := h
  -- every alias is what it was, up to being active
  have hback : ∀ id b, (AList.insert aliasId { row with active := false } t.aliases).lookup id = some b →
      ∃ a, t.aliases.lookup id = some a ∧ a.origin = b.origin ∧ a.aliasName = b.aliasName ∧
        a.orgId = b.orgId ∧ a.currentRevisionId = b.currentRevisionId := by
    intro id b hb
    rcases Dict.lookup_insert_eq_some.mp hb with ⟨rfl, rfl⟩ | ⟨-, hb⟩
    · exact ⟨row, hrow, rfl, rfl, rfl, rfl⟩
    · exact ⟨b, hb, rfl, rfl, rfl, rfl⟩
  refine ⟨?_, ?_, fun _ _ hr => hr⟩
  · intro id b id' b' hb hb' hn ho
    obtain ⟨a, ha, -, hn1, ho1, -⟩ := hback id b hb
    obtain ⟨a', ha', -, hn2, ho2, -⟩ := hback id' b' hb'
    exact hu id a id' a' ha ha' (hn1.trans (hn.trans hn2.symm)) (ho1.trans (ho.trans ho2.symm))
  · intro id b hb horigin
    obtain ⟨a, ha, ho, hn, hg, hc⟩ := hback id b hb
    exact ⟨a, ha, ho.trans horigin, hn, hg, hc⟩

theorem AliasCall.execute_spec {call : AliasCall} (hu : NamespaceUnique t)
    (h : call.execute t = .ok t') : NamespaceUnique t' ∧ KeepsCatalog t t' := by
  cases call with
  | activate a => exact gatewayActivateNamedAliasRevision_spec hu h
  | deactivate aliasId => exact gatewayDeactivateAlias_spec hu h

end keeps

/-! ### What a store does -/

/-- A state of the store's loop: what it started from, and the names that named aliases hold. -/
structure Storing (t : AliasTables) (namespaceHeld : List (String × Option Uuid))
    (acc : AliasTables × CatalogStoreResult) : Prop where
  unique : NamespaceUnique acc.1
  held : ∀ name org, (name, org) ∈ namespaceHeld →
    ∃ id a, acc.1.aliases.lookup id = some a ∧ a.origin = .named ∧ a.aliasName = name ∧ a.orgId = org
  unchanged : acc.2.changed = false → acc.1 = t

theorem changed_append {r : CatalogStoreResult} {name : String} {b : Bool} :
    ({ r with aliasChanges := r.aliasChanges ++ [(name, b)] } : CatalogStoreResult).changed =
      (r.changed || b) := by
  unfold CatalogStoreResult.changed
  rw [List.any_append]
  simp

section store
variable {t : AliasTables} {held : List (String × Option Uuid)}
  {acc acc' : AliasTables × CatalogStoreResult} {plan : AliasActivationPlan}

/-- One plan is served after its turn, and the others as before. -/
theorem storePlan_spec (hs : Storing t held acc) (h : storePlan held acc plan = .ok acc') :
    Storing t held acc' ∧ ServesPlan acc'.1 plan ∧
      ∀ p : AliasActivationPlan, p.aliasId ≠ plan.aliasId → ServesPlan acc.1 p → ServesPlan acc'.1 p := by
  unfold storePlan at h
  split_ifs at h with hshadowed
  · cases h
    refine ⟨⟨hs.unique, hs.held, hs.unchanged⟩, ?_, fun p _ hp => hp⟩
    -- the name is held by a named alias, so the plan's own alias is not there under it
    intro a ha horigin hname horg
    obtain ⟨id, b, hb, hnamed, hn, ho⟩ := hs.held _ _ hshadowed.2
    have hid := hs.unique id b plan.aliasId a hb ha (hn.trans hname.symm) (ho.trans horg.symm)
    subst hid
    rw [hb] at ha
    cases ha
    rw [hnamed] at horigin
    cases horigin
  · cases hact : gatewayActivateAliasRevision acc.1 plan.aliasId plan.aliasName plan.orgId
        plan.revisionId plan.content with
    | error e =>
        rw [hact] at h
        cases e with
        | foreignKeyViolation =>
            cases h
            refine ⟨⟨hs.unique, hs.held, hs.unchanged⟩, ?_, fun p _ hp => hp⟩
            intro a ha
            rw [lookup_of_foreignKeyViolation hact] at ha
            cases ha
        | _ => cases h
    | ok done =>
        rw [hact] at h
        cases h
        obtain ⟨hspec, hsame⟩ := gatewayActivateAliasRevision_spec hact
        obtain ⟨row, hrow, hname, horg, horigin, hcurrent⟩ := hspec.row
        refine ⟨⟨hspec.namespaceUnique hs.unique, ?_, ?_⟩, ?_, ?_⟩
        · intro name org hmem
          obtain ⟨id, b, hb, hnamed, hn, ho⟩ := hs.held name org hmem
          by_cases hid : id = plan.aliasId
          · subst hid
            have hget : acc.1.aliasOrNew plan.aliasId plan.aliasName plan.orgId = b := by
              unfold AliasTables.aliasOrNew
              rw [hb, Option.getD_some]
            have hidentity := hspec.identity
            rw [hget] at horigin hidentity
            exact ⟨plan.aliasId, row, hrow, horigin.trans hnamed, hname.trans (hidentity.1.symm.trans hn),
              horg.trans (hidentity.2.symm.trans ho)⟩
          · exact ⟨id, b, by rw [hspec.others id hid]; exact hb, hnamed, hn, ho⟩
        · intro hc
          rw [changed_append, Bool.or_eq_false_iff] at hc
          exact (hsame hc.2).trans (hs.unchanged hc.1)
        · intro a ha _ _ _
          have hsame : a = row := Option.some.inj (ha.symm.trans hrow)
          rw [hsame]
          exact ⟨hcurrent, _, hspec.revision, rfl⟩
        · intro p hne hp a ha ho hn hg
          rw [hspec.others p.aliasId hne] at ha
          obtain ⟨hc, r, hr, hsha⟩ := hp a ha ho hn hg
          exact ⟨hc, r, hspec.revisions _ _ hr, hsha⟩

/-- **After a store, every plan is served**; a store that changed nothing left the tables alone. -/
theorem storeGatewayCatalog_spec {b : GatewayCatalogBuild} {result : CatalogStoreResult}
    {t' : AliasTables} (hu : NamespaceUnique t) (hids : (b.aliasPlans.map (·.aliasId)).Nodup)
    (hnone : b.catalog = none → b.aliasPlans = []) (h : storeGatewayCatalog t b = .ok (t', result)) :
    NamespaceUnique t' ∧ (result.changed = false → t' = t) ∧ ∀ plan ∈ b.aliasPlans, ServesPlan t' plan := by
  unfold storeGatewayCatalog at h
  cases hcatalog : b.catalog with
  | none =>
      rw [hcatalog] at h
      cases h
      refine ⟨hu, fun _ => rfl, ?_⟩
      rw [hnone hcatalog]
      intro plan hplan
      cases hplan
  | some catalog =>
      rw [hcatalog] at h
      simp only at h
      have hstart : Storing t t.namedNamespace (t, ⟨[], [], []⟩) := by
        refine ⟨hu, ?_, fun _ => rfl⟩
        intro name org hmem
        unfold AliasTables.namedNamespace at hmem
        obtain ⟨e, he, heq⟩ := List.mem_map.mp hmem
        obtain ⟨he, hnamed⟩ := List.mem_filter.mp he
        cases heq
        exact ⟨e.1, e.2, AList.mem_lookup_iff.mpr he, of_decide_eq_true hnamed, rfl, rfl⟩
      have hloop := foldlM_rec (I := fun acc rest => Storing t t.namedNamespace acc ∧
          (∀ p ∈ rest, p ∈ b.aliasPlans) ∧ ∀ p ∈ b.aliasPlans, p ∉ rest → ServesPlan acc.1 p)
        (fun acc plan rest acc' hstep hI => by
          obtain ⟨hs, hsub, hdone⟩ := hI
          obtain ⟨hs', hserved, hothers⟩ := storePlan_spec hs hstep
          refine ⟨hs', fun p hp => hsub p (List.mem_cons_of_mem _ hp), ?_⟩
          intro p hp hrest
          by_cases hpe : p = plan
          · rw [hpe]
            exact hserved
          · refine hothers p ?_ (hdone p hp ?_)
            · intro hid
              exact hpe (List.inj_on_of_nodup_map hids hp (hsub plan List.mem_cons_self) hid)
            · intro hmem
              rcases List.mem_cons.mp hmem with he | hmem
              · exact hpe he
              · exact hrest hmem)
        b.aliasPlans _ h ⟨hstart, fun _ hp => hp, fun p hp hnot => absurd hp hnot⟩
      exact ⟨hloop.1.unique, hloop.1.unchanged, fun plan hplan => hloop.2.2 plan hplan List.not_mem_nil⟩

end store

end Experiential.Catalog
