import Experiential.Catalog.Assembler

/-! # Deployments, pools and alias plans

The lanes of `_canonical_deployment`, the variants of the organizations that brought their own
key, and the alias plan of each model: the pool of its chain when two rungs are routable, else
a single deployment. -/

namespace Experiential.Catalog

/-! ### Lanes -/

section lanes
variable (i : Inputs) (s : Assembler) (model : CatalogModelRow) (row : CatalogProviderRow)

/-- `provider_row.owning_org_id or model.owning_org_id`. -/
def deploymentOwner : Option Uuid := row.owningOrgId.or model.owningOrgId

/-- `_row_is_admissible`: the reason no lane can carry the row. -/
def rowRefusal : Option String :=
  if row.provider.experiential ≠ "openai-compatible" ∧ row.baseUrl ≠ none then
    some s!"model_providers {row.id.text}: base_url is only supported for the openai-compatible provider family; row skipped"
  else if model.owningOrgId = none ∧ row.owningOrgId ≠ none then
    some s!"model_providers {row.id.text}: org-private deployment on a public model is not routable through the shared alias; row skipped"
  else none

/-- A reason that may be there. -/
def Assembler.refuse (s : Assembler) : Option String → Assembler
  | none => s
  | some message => s.warn message

/-- `_byok_provider_model`: a deployment the connection does not map has no spelling. -/
def byokProviderModel (c : CatalogConnectionRow) : Except (Option String) String :=
  if c.provider ≠ .azureOpenai then .ok row.providerModelId
  else
    match i.azureConnectionConfig c.config with
    | none => .error (some
        s!"provider connection {c.id.text}: malformed Azure config; its deployments are skipped")
    | some config => require (config.deployments.lookup row.providerModelId) none

/-- The alias of a deployment bound to a connection. -/
def byokAlias : Option Uuid → String
  | none => deploymentAlias row.id
  | some suffix => variantAlias row.id suffix

/-- `_byok_deployment`. -/
def byokDeployment (c : CatalogConnectionRow) (suffix : Option Uuid) :
    Raising (Assembler × Option String) :=
  if c.provider.byokRoutable = false then
    s.skip s!"model_providers {row.id.text}: BYOK {c.provider.text} is not routable by the shared gateway catalog; row skipped"
  else
    match byokProviderModel i row c with
    | .error message => .ok (s.refuse message, none)
    | .ok providerModel => do
        let registered ← registerByokConnection i s c
        match registered.2 with
        | none => return (registered.1, none)
        | some name =>
            return ((registered.1.addDeploymentRecord (byokAlias row suffix) name model row
              .customerManaged providerModel).bindRow (byokAlias row suffix) c,
              some (byokAlias row suffix))

/-- `_pinned_deployment`. -/
def pinnedDeployment (pin : Uuid) : Raising (Assembler × Option String) :=
  match i.connectionById pin with
  | none => s.skip s!"model_providers {row.id.text}: pinned provider connection is gone; row skipped"
  | some c =>
      if deploymentOwner model row ≠ some c.orgId then
        s.skip s!"model_providers {row.id.text}: pinned connection org does not own the deployment; row skipped so a private key never serves a shared alias"
      else if c.provider ≠ row.provider then
        s.skip s!"model_providers {row.id.text}: pinned connection provider {c.provider.text} does not match the row; row skipped"
      else byokDeployment i s model row c none

/-- `_local_deployment`. -/
def localDeployment : Raising (Assembler × Option String) :=
  if deploymentOwner model row = none then
    s.skip s!"model_providers {row.id.text}: local deployments are customer infrastructure and need an owning org; row skipped"
  else
    match row.baseUrl with
    | none => s.skip s!"model_providers {row.id.text}: local row lacks base_url; skipped"
    | some baseUrl =>
        let environmentName := i.byokEnv ("local:" ++ row.id.text)
        let config : ConnectionConfig :=
          { provider := "openai-compatible"
            baseUrl := some baseUrl
            region := none
            apiVersion := none
            apiKeyEnv := some environmentName }
        if i.engine.acceptsConnection config = false then
          s.skip s!"model_providers {row.id.text}: local base_url is not an acceptable endpoint; row skipped"
        else
          .ok ((s.addConnection (localName row.id) config
              (some ⟨environmentName, .placeholder, ""⟩)).addDeploymentRecord
                (deploymentAlias row.id) (localName row.id) model row .customerManaged
                row.providerModelId,
            some (deploymentAlias row.id))

/-- The connection of a host deployment, the provider's spelling of the model, and the house
row it rides. -/
structure HostConnection where
  name : String
  providerModel : String
  house : Option CatalogConnectionRow

/-- The house's connection for the row's provider. -/
def registerHouseConnection : Raising (Assembler × Option String) :=
  match i.houseConnection row.provider with
  | none => .ok (s, none)
  | some house => registerByokConnection i s house

/-- `_register_fixed_origin_host_connection`: the house connection, then the environment. -/
def registerFixedOriginHostConnection : Raising (Assembler × Option HostConnection) := do
  let housed ← registerHouseConnection i s row
  match housed.2 with
  | some name => return (housed.1, some ⟨name, row.providerModelId, i.houseConnection row.provider⟩)
  | none =>
      let platform ← registerPlatformConnection i housed.1 row.provider
      match platform.2 with
      | some name => return (platform.1, some ⟨name, row.providerModelId, none⟩)
      | none =>
          platform.1.skip s!"model_providers {row.id.text}: host_managed {row.provider.text} has neither a house-org connection nor a configured platform credential; row skipped"

/-- `_register_azure_host_connection`: the house connection only. -/
def registerAzureHostConnection : Raising (Assembler × Option HostConnection) :=
  match i.houseConnection .azureOpenai with
  | none => s.skip
      s!"model_providers {row.id.text}: host_managed azure_openai needs a house-org connection (no env fallback carries an endpoint); row skipped"
  | some house =>
      match byokProviderModel i row house with
      | .error message => (s.refuse message).skip
          s!"model_providers {row.id.text}: the house Azure connection has no deployment mapping for this wire id; row skipped"
      | .ok providerModel => do
          let registered ← registerByokConnection i s house
          match registered.2 with
          | none => return (registered.1, none)
          | some name => return (registered.1, some ⟨name, providerModel, some house⟩)

/-- The worker's bearer, or the placeholder of a keyless server. -/
def experientialCloudRef : ConnectionCredentialRef :=
  match experientialCloudApiKey i.environment with
  | none => ⟨i.byokEnv ("experiential_cloud:" ++ row.id.text), .placeholder, ""⟩
  | some _ => ⟨experientialCloudApiKeyEnv, .platformEnv, experientialCloudApiKeyEnv⟩

/-- `_register_experiential_cloud_connection`: the row's origin or the worker's. -/
def registerExperientialCloudConnection : Raising (Assembler × Option HostConnection) :=
  match experientialCloudBaseUrl i.environment row.baseUrl with
  | none => s.skip
      s!"model_providers {row.id.text}: host_managed experiential_cloud has no row endpoint and EXPLABS_EXPERIENTIAL_CLOUD_BASE_URL is unset; row skipped"
  | some baseUrl =>
      let ref := experientialCloudRef i row
      let config : ConnectionConfig :=
        { provider := "openai-compatible"
          baseUrl := some baseUrl
          region := none
          apiVersion := none
          apiKeyEnv := some ref.environmentName }
      if i.engine.acceptsConnection config = false then
        s.skip s!"model_providers {row.id.text}: Experiential Cloud base_url is not an acceptable endpoint; row skipped"
      else
        .ok (s.addConnection (hostName row.id) config (some ref),
          some ⟨hostName row.id, row.providerModelId, none⟩)

/-- The house connection of an openai-compatible row when it can be released. -/
def releasableHouse : Assembler × Option CatalogConnectionRow :=
  match i.houseConnection row.provider with
  | none => (s, none)
  | some house =>
      let probed := connectionReleasable i s house
      (probed.1, if probed.2 then some house else none)

/-- The credential of an openai-compatible host row: the house's, else the environment's. -/
def compatibleHostRef (house : Option CatalogConnectionRow) : Option ConnectionCredentialRef :=
  match house with
  | some house => some ⟨i.byokEnv house.id.text, .byokVault, house.id.text⟩
  | none =>
      (row.provider.platformCredentialEnv.filter fun name => i.environmentSet name).map
        fun name => ⟨name, .platformEnv, name⟩

/-- `_register_compatible_host_connection`. -/
def registerCompatibleHostConnection : Raising (Assembler × Option HostConnection) :=
  if row.provider = .experientialCloud then registerExperientialCloudConnection i s row
  else
    match (truthy row.baseUrl).or row.provider.defaultHostBaseUrl with
    | none => s.skip
        s!"model_providers {row.id.text}: {row.provider.text} row has no endpoint and no default origin exists; row skipped"
    | some baseUrl =>
        let housed := releasableHouse i s row
        match compatibleHostRef i row housed.2 with
        | none => housed.1.skip
            s!"model_providers {row.id.text}: host_managed {row.provider.text} has neither a house-org connection nor a configured platform credential; row skipped"
        | some ref =>
            let config : ConnectionConfig :=
              { provider := "openai-compatible"
                baseUrl := some baseUrl
                region := none
                apiVersion := none
                apiKeyEnv := some ref.environmentName }
            do
              checkedConfig i config
              return (housed.1.addConnection (hostName row.id) config (some ref),
                some ⟨hostName row.id, row.providerModelId, housed.2⟩)

/-- The connection a host deployment rides. -/
def registerHostConnection : Raising (Assembler × Option HostConnection) :=
  if row.provider = .bedrock then do
    let registered ← registerBedrockConnection i s row.region
    return (registered.1, some ⟨registered.2, row.providerModelId, none⟩)
  else if row.provider.openaiCompatibleHost then registerCompatibleHostConnection i s row
  else if row.provider = .azureOpenai then registerAzureHostConnection i s row
  else registerFixedOriginHostConnection i s row

/-- `_host_deployment`. -/
def hostDeployment : Raising (Assembler × Option String) := do
  let registered ← registerHostConnection i s row
  match registered.2 with
  | none => return (registered.1, none)
  | some host =>
      let added := registered.1.addDeploymentRecord (deploymentAlias row.id) host.name model row
        .hostManaged host.providerModel
      return (match host.house with
        | none => added
        | some house => added.bindRow (deploymentAlias row.id) house, some (deploymentAlias row.id))

/-- `_public_byok_canonical`. -/
def publicByokCanonical : Raising (Assembler × Option String) :=
  if row.provider.byokRoutable = false then
    s.skip s!"model_providers {row.id.text}: public customer_managed {row.provider.text} is not BYOK-routable; row skipped"
  else do
    let registered ← registerByokRequiredConnection i s row
    match registered.2 with
    | none => return (registered.1, none)
    | some name =>
        return ((registered.1.addDeploymentRecord (deploymentAlias row.id) name model row
          .customerManaged row.providerModelId).requireByok (deploymentAlias row.id),
          some (deploymentAlias row.id))

/-- `_unpinned_customer_managed_deployment`. -/
def unpinnedCustomerManagedDeployment : Raising (Assembler × Option String) :=
  match deploymentOwner model row with
  | none => publicByokCanonical i s model row
  | some owner =>
      match i.connectionByOrgProvider owner row.provider with
      | none => s.skip
          s!"model_providers {row.id.text}: owning org has no routable {row.provider.text} connection; row skipped"
      | some c =>
          if row.provider.byokRoutable = false then
            s.skip s!"model_providers {row.id.text}: owning org has no routable {row.provider.text} connection; row skipped"
          else byokDeployment i s model row c none

/-- `_canonical_deployment`. -/
def canonicalDeployment : Raising (Assembler × Option String) :=
  match rowRefusal model row with
  | some message => s.skip message
  | none =>
      match row.providerConnectionId with
      | some pin => pinnedDeployment i s model row pin
      | none =>
          if row.provider = .localServer then localDeployment i s model row
          else if row.billingSource = .hostManaged then hostDeployment i s model row
          else unpinnedCustomerManagedDeployment i s model row

/-! ### Variants -/

/-- The connections a variant may be made for: the owner's on a private model, everyone's but
the house's on a public one. -/
def variantCandidates : List CatalogConnectionRow :=
  (i.connectionsByProvider row.provider).filter fun c =>
    match model.owningOrgId with
    | some owner => decide (c.orgId = owner)
    | none => decide (some c.orgId ≠ i.rows.houseOrgId)

/-- The variant of one connection. -/
def addVariant (canonical : String) (s : Assembler) (c : CatalogConnectionRow) : Raising Assembler := do
  let deployed ← byokDeployment i s model row c (some c.id)
  match deployed.2 with
  | none => return deployed.1
  | some variant => return deployed.1.setVariant c.orgId.text canonical variant

/-- May a canonical deployment be replaced by a variant? -/
def Assembler.takesVariants (s : Assembler) (canonical : String) : Bool :=
  match s.catalogModels.lookup canonical with
  | none => false
  | some record => decide (record.billingSource = .hostManaged) ||
      decide (canonical ∈ s.byokRequiredCanonicals)

/-- `_add_variants`. -/
def addVariants (canonical : String) : Raising Assembler :=
  if s.takesVariants canonical = false then .ok s
  else if row.provider.byokRoutable = false then .ok s
  else (variantCandidates i model row).foldlM (addVariant i model row canonical) s

end lanes

/-! ### Models -/

/-- A model's deployments assembled so far: by row, and in order. -/
structure ModelAssembly where
  assembler : Assembler
  canonicalByProviderRow : Dict String String
  orderedCanonicals : List String

/-- One row of a model. -/
def assembleRow (i : Inputs) (model : CatalogModelRow) (a : ModelAssembly) (row : CatalogProviderRow) :
    Raising ModelAssembly :=
  if row.status = .disabled then .ok a
  else do
    let deployed ← canonicalDeployment i a.assembler model row
    match deployed.2 with
    | none => return { a with assembler := deployed.1 }
    | some canonical =>
        let s ← addVariants i (deployed.1.markProvider canonical row.provider) model row canonical
        return ⟨s, a.canonicalByProviderRow.insert row.id.text canonical,
          a.orderedCanonicals ++ [canonical]⟩

/-- Alias plan pieces known before the catalog digest exists. -/
structure AliasPlanDraft where
  model : CatalogModelRow
  targetPoolId : String
  deploymentIds : List String
  certification : Option GatewayEquivalenceCertification
  certificationOrder : List String

section plans
variable (i : Inputs) (model : CatalogModelRow)

/-- The organizations with an override the shared alias table cannot represent. -/
def foreignOverrides : List Uuid :=
  ((((i.rows.waterfalls.filter fun g => decide (g.modelId = model.id)).filterMap (·.orgId)).dedup.filter
    fun org => decide (some org ≠ model.owningOrgId))).insertionSort fun a b => a.text ≤ b.text

/-- `_model_chain`: the owner's override when there is one, else the default chain. -/
def modelChain : List CatalogWaterfallRow × Option Uuid :=
  match model.owningOrgId with
  | none => (i.chain model.id none, none)
  | some owner =>
      if i.chain model.id (some owner) = [] then (i.chain model.id none, none)
      else (i.chain model.id (some owner), some owner)

/-- The warnings of `_model_chain`. -/
def Assembler.warnOverrides (s : Assembler) : Assembler :=
  (foreignOverrides i model).foldl (fun s org =>
    s.warn s!"model {model.id.text} ({model.slug}): org {org.text} waterfall override is not representable by the shared alias table; override skipped") s

/-- `_waterfall_certification`. -/
def waterfallCertification (chain : List CatalogWaterfallRow) : Raising GatewayEquivalenceCertification :=
  let digest := i.engine.chainSha256 chain
  let certification : GatewayEquivalenceCertification :=
    { certificationId := "wfcert-" ++ digest
      provenance := "platform:model_waterfalls"
      evidenceSha256 := digest
      certifiedAt := ((chain.map (·.updatedAt)).max?).getD 0 }
  do
    ensure (i.engine.acceptsCertification certification = true) (.certification
      s!"synthesized waterfall certification for model {model.id.text} ({model.slug}) failed the pinned Experiential contract validator")
    return certification

/-- `_house_ordering_applies`: the default chain over lanes the platform pays for. -/
def Assembler.houseOrderingApplies (s : Assembler) (routable : List String) (chainOrg : Option Uuid) :
    Bool :=
  decide (chainOrg = none) && routable.all fun deployment =>
    decide ((s.catalogModels.lookup deployment).map (·.billingSource) = some .hostManaged)

/-- `_house_ordered`: a stable sort by the rank of the lane. -/
def Assembler.houseOrdered (s : Assembler) (deployments : List String) : List String :=
  deployments.insertionSort fun a b =>
    ((s.providerByAlias.lookup a).map Provider.houseRank).getD 5 ≤
      ((s.providerByAlias.lookup b).map Provider.houseRank).getD 5

/-- The routable rungs of a chain in serving order. -/
def routableRungs (a : ModelAssembly) (chain : List CatalogWaterfallRow) (chainOrg : Option Uuid) :
    List String :=
  let routable := chain.filterMap fun g => a.canonicalByProviderRow.lookup g.modelProviderId.text
  if a.assembler.houseOrderingApplies routable chainOrg then a.assembler.houseOrdered routable
  else routable

/-- `_draft_alias_plan`; `first` is the model's first deployment. -/
def draftAliasPlan (a : ModelAssembly) (first : String) : Raising (Assembler × AliasPlanDraft) :=
  let s := a.assembler.warnOverrides i model
  let chain := (modelChain i model).1
  let chainOrg := (modelChain i model).2
  let routable := routableRungs a chain chainOrg
  let s := if routable.length < chain.length then
      s.warn s!"model {model.id.text} ({model.slug}): waterfall names unroutable deployments; the chain serves its routable rungs only"
    else s
  match routable with
  | [] => .ok (s, ⟨model, first, [first], none, []⟩)
  | [only] => .ok (s, ⟨model, only, [only], none, []⟩)
  | primary :: second :: rest => do
      let certification ← waterfallCertification i model chain
      let pool : GatewayPoolRecord :=
        { exactModelId := "exact-" ++ model.id.text
          deploymentAliases := primary :: second :: rest
          equivalence := certification }
      return (s.addPool (poolName model.id chainOrg) pool,
        ⟨model, poolName model.id chainOrg, primary :: second :: rest, some certification,
          primary :: second :: rest⟩)

/-- `_assemble_model`. -/
def assembleModel (s : Assembler) : Raising (Assembler × Option AliasPlanDraft) := do
  let assembled ← (i.providersByModel model.id).foldlM (assembleRow i model) ⟨s, ∅, []⟩
  match assembled.orderedCanonicals with
  | [] =>
      assembled.assembler.skip s!"model {model.id.text} ({model.slug}) has no routable deployment; alias skipped"
  | first :: _ =>
      let drafted ← draftAliasPlan i model assembled first
      return (drafted.1, some drafted.2)

end plans

/-! ### The build -/

/-- One alias revision as `gateway_activate_alias_revision` stores it. -/
structure AliasActivationPlan where
  aliasId : String
  aliasName : String
  orgId : Option Uuid
  revisionId : String
  targetPoolId : String
  targetDeploymentIds : List String
  catalogSha256 : String
  providerConnectionRevisions : List (String × Nat)
  certification : Option GatewayEquivalenceCertification
  certificationOrder : List String
  refusalFailover : Bool
deriving DecidableEq

/-- The connection rows behind a deployment: its own and its variants'. -/
def Assembler.connectionRowsOf (s : Assembler) (deployment : String) : List CatalogConnectionRow :=
  (s.connectionRowByDeployment.lookup deployment).toList ++
    s.variants.entries.filterMap fun variants =>
      (variants.2.lookup deployment).bind fun variant => s.connectionRowByDeployment.lookup variant

/-- The serving revisions an alias plan was made from, by connection. -/
def Assembler.connectionRevisions (s : Assembler) (deployments : List String) : List (String × Nat) :=
  let revisions : Dict String Nat := (deployments.flatMap s.connectionRowsOf).foldl
    (fun d c => d.insert c.id.text c.servingRevision) ∅
  (revisions.entries.map fun e => (e.1, e.2)).insertionSort fun a b => a.1 ≤ b.1

/-- `_finalize_plan`. -/
def finalizePlan (i : Inputs) (s : Assembler) (catalogSha256 : String) (draft : AliasPlanDraft) :
    AliasActivationPlan :=
  let revisions := s.connectionRevisions draft.deploymentIds
  let payload : RevisionPayload :=
    { aliasId := modelAliasId draft.model.id
      aliasName := draft.model.slug
      orgId := draft.model.owningOrgId
      poolId := draft.targetPoolId
      deploymentIds := draft.deploymentIds
      catalogSha256 := catalogSha256
      providerConnectionRevisions := revisions
      certification := draft.certification
      certificationOrder := draft.certificationOrder
      refusalFailover := false }
  { aliasId := modelAliasId draft.model.id
    aliasName := draft.model.slug
    orgId := draft.model.owningOrgId
    revisionId := "rev-" ++ i.engine.revisionSha256 payload
    targetPoolId := draft.targetPoolId
    targetDeploymentIds := draft.deploymentIds
    catalogSha256 := catalogSha256
    providerConnectionRevisions := revisions
    certification := draft.certification
    certificationOrder := draft.certificationOrder
    refusalFailover := false }

/-- The authored catalog of a build, with its normalized form and digest. -/
structure BuiltCatalog where
  authored : ModelCatalog
  normalized : NormalizedGatewayCatalog
  catalogSha256 : String

structure GatewayCatalogBuild where
  /-- Absent when no deployment is routable. -/
  catalog : Option BuiltCatalog
  aliasPlans : List AliasActivationPlan
  byokDeploymentVariants : Dict String (Dict String String)
  credentialRefs : List ConnectionCredentialRef
  warnings : List String
  byokRequiredDeployments : List String

/-- One model of the build. -/
def buildModel (i : Inputs) (a : Assembler × List AliasPlanDraft) (model : CatalogModelRow) :
    Raising (Assembler × List AliasPlanDraft) := do
  let assembled ← assembleModel i model a.1
  return (assembled.1, a.2 ++ assembled.2.toList)

/-- `_credential_refs` by name. -/
def Assembler.sortedRefs (s : Assembler) : List ConnectionCredentialRef :=
  (s.credentialRefs.entries.insertionSort fun a b => a.1 ≤ b.1).map (·.2)

/-- `_CatalogAssembler.build`. -/
def buildGatewayCatalog (i : Inputs) : Raising GatewayCatalogBuild := do
  let built ← i.models.foldlM (buildModel i) (Assembler.empty, [])
  let s := built.1
  if s.catalogModels.entries = [] then
    return ⟨none, [], ∅, [], s.warnings, []⟩
  else
    let authored : ModelCatalog := ⟨s.catalogConnections, s.catalogModels, s.catalogPools⟩
    let normalized ← require (i.engine.normalize authored) .catalog
    let sha := i.engine.identitySha256 normalized
    return ⟨some ⟨authored, normalized, sha⟩,
      (built.2.map (finalizePlan i s sha)).insertionSort fun a b => a.aliasId ≤ b.aliasId,
      s.variants, s.sortedRefs, s.warnings, s.byokRequiredCanonicals⟩

end Experiential.Catalog
