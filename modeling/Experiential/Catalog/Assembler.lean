import Experiential.Catalog.Rows
import Experiential.Lib.Checked

/-! # The catalog assembler

Deployments, connections and pools are entries of dictionaries keyed by strings that the
builder puts together from row identifiers. The lemmas say which of these names can be equal:
a name determines the rows it was made from, and no lane's name is another lane's.

`buildGatewayCatalog` turns the catalog rows into one authored catalog: per enabled
`model_providers` row a canonical deployment on one of the lanes (pinned, local, host, owned
connection, public bring-your-own-key), the variants of the organizations that brought a key,
and per model a pool or a single deployment for its alias to name. A row no lane can carry is
skipped with a warning; a configuration the engine refuses abandons the build, except on the
two lanes that catch the refusal.

The engine's own package is a parameter: what it validates, how it normalizes a catalog and
the digests that go with it. -/

namespace Experiential.Catalog

/-- The alias of a row's canonical deployment. -/
def deploymentAlias (row : Uuid) : String := "mp-" ++ row.text

/-- The alias of the variant of a row for one connection. -/
def variantAlias (row connection : Uuid) : String :=
  "mp-" ++ row.text ++ "-c-" ++ connection.text

def platformName (p : Provider) : String := "platform-" ++ p.text

def bedrockName (region : Option String) : String :=
  match region with
  | none => "platform-bedrock"
  | some region => "platform-bedrock-" ++ region

def connectionName (c : Uuid) : String := "conn-" ++ c.text
def hostName (row : Uuid) : String := "host-" ++ row.text
def localName (row : Uuid) : String := "local-" ++ row.text
def byokRequiredName (row : Uuid) : String := "byok-required-" ++ row.text

/-- The pool of a model's chain. -/
def poolName (model : Uuid) (org : Option Uuid) : String :=
  match org with
  | none => "wf-" ++ model.text
  | some org => "wf-" ++ model.text ++ "-org-" ++ org.text

/-- The alias of a model. -/
def modelAliasId (model : Uuid) : String := "model-" ++ model.text

/-! ### Names determine their rows -/

theorem text_append_inj {a b : Uuid} {s t : String} (h : a.text ++ s = b.text ++ t) :
    a = b ∧ s = t := by
  have hl := congrArg String.toList h
  rw [String.toList_append, String.toList_append] at hl
  have hlen : a.text.toList.length = b.text.toList.length := by
    rw [String.length_toList, String.length_toList, a.length_text, b.length_text]
  obtain ⟨h1, h2⟩ := List.append_inj hl hlen
  exact ⟨Uuid.ext_text (String.toList_inj.mp h1), String.toList_inj.mp h2⟩

theorem prefix_text_inj {p : String} {a b : Uuid} (h : p ++ a.text = p ++ b.text) : a = b :=
  Uuid.ext_text ((String.append_right_inj p).mp h)

theorem deploymentAlias_inj {r s : Uuid} (h : deploymentAlias r = deploymentAlias s) : r = s :=
  prefix_text_inj h

theorem variantAlias_inj {r s c d : Uuid} (h : variantAlias r c = variantAlias s d) :
    r = s ∧ c = d := by
  unfold variantAlias at h
  rw [String.append_assoc, String.append_assoc, String.append_assoc, String.append_assoc] at h
  have h1 := (String.append_right_inj "mp-").mp h
  obtain ⟨hrow, hrest⟩ := text_append_inj h1
  exact ⟨hrow, prefix_text_inj hrest⟩

theorem deploymentAlias_ne_variantAlias (r s c : Uuid) : deploymentAlias r ≠ variantAlias s c := by
  intro h
  have hl := congrArg String.length h
  unfold deploymentAlias variantAlias at hl
  simp only [String.length_append, r.length_text, s.length_text, c.length_text] at hl
  have h3 : "-c-".length = 3 := by decide
  omega

theorem connectionName_inj {c d : Uuid} (h : connectionName c = connectionName d) : c = d :=
  prefix_text_inj h

theorem hostName_inj {r s : Uuid} (h : hostName r = hostName s) : r = s := prefix_text_inj h

theorem localName_inj {r s : Uuid} (h : localName r = localName s) : r = s := prefix_text_inj h

theorem byokRequiredName_inj {r s : Uuid} (h : byokRequiredName r = byokRequiredName s) : r = s :=
  prefix_text_inj h

theorem modelAliasId_inj {m n : Uuid} (h : modelAliasId m = modelAliasId n) : m = n :=
  prefix_text_inj h

/-- The first letter of a name that begins with a fixed text. -/
theorem head?_append {p s : String} {c : Char} (h : p.toList.head? = some c) : (p ++ s).toList.head? = some c := by
  rw [String.toList_append, List.head?_append, h, Option.some_or]

/-- The first letter of a connection name tells its lane. -/
def lane (name : String) : Option Char := name.toList.head?

@[simp] theorem lane_platformName (p : Provider) : lane (platformName p) = some 'p' := head?_append rfl

@[simp] theorem lane_bedrockName (region : Option String) : lane (bedrockName region) = some 'p' := by
  cases region with
  | none => rfl
  | some region => exact head?_append rfl

@[simp] theorem lane_connectionName (c : Uuid) : lane (connectionName c) = some 'c' := head?_append rfl

@[simp] theorem lane_hostName (r : Uuid) : lane (hostName r) = some 'h' := head?_append rfl

@[simp] theorem lane_localName (r : Uuid) : lane (localName r) = some 'l' := head?_append rfl

@[simp] theorem lane_byokRequiredName (r : Uuid) : lane (byokRequiredName r) = some 'b' := head?_append rfl

theorem poolName_inj {m n : Uuid} {o q : Option Uuid} (h : poolName m o = poolName n q) : m = n := by
  have key : ∀ (k : Uuid) (p : Option Uuid), ∃ rest, poolName k p = "wf-" ++ (k.text ++ rest) := by
    intro k p
    cases p with
    | none => exact ⟨"", by simp [poolName]⟩
    | some p => exact ⟨"-org-" ++ p.text, by simp [poolName, String.append_assoc]⟩
  obtain ⟨r1, h1⟩ := key m o
  obtain ⟨r2, h2⟩ := key n q
  rw [h1, h2] at h
  exact (text_append_inj ((String.append_right_inj "wf-").mp h)).1

theorem poolName_ne_deploymentAlias (m : Uuid) (o : Option Uuid) (r : Uuid) :
    poolName m o ≠ deploymentAlias r := by
  intro h
  have hpool : (poolName m o).toList.head? = some 'w' := by
    cases o with
    | none => exact head?_append rfl
    | some o => exact head?_append (head?_append (head?_append rfl))
  have hdeployment : (deploymentAlias r).toList.head? = some 'm' := head?_append rfl
  rw [h, hdeployment] at hpool
  cases hpool

/-! ### The engine's records -/

structure ConnectionConfig where
  provider : String
  baseUrl : Option String
  region : Option String
  apiVersion : Option String
  apiKeyEnv : Option String
deriving DecidableEq

structure ModelRecord where
  connection : String
  model : String
  billingSource : BillingSource
  exactModelId : String
  prices : GatewayTokenPrices
deriving DecidableEq

structure GatewayEquivalenceCertification where
  certificationId : String
  provenance : String
  evidenceSha256 : String
  certifiedAt : Int
deriving DecidableEq

structure GatewayPoolRecord where
  exactModelId : String
  deploymentAliases : List String
  equivalence : GatewayEquivalenceCertification
deriving DecidableEq

/-- The authored catalog. -/
structure ModelCatalog where
  connections : Dict String ConnectionConfig
  models : Dict String ModelRecord
  gatewayPools : Dict String GatewayPoolRecord

structure ExactModelDeployment where
  deploymentId : String
  provider : String
  billingSource : BillingSource
  providerModel : String
  prices : GatewayTokenPrices
deriving DecidableEq

structure ExactModelPool where
  poolId : String
  exactModelId : String
  deploymentIds : List String
  equivalence : Option GatewayEquivalenceCertification
deriving DecidableEq

structure NormalizedGatewayCatalog where
  deployments : List ExactModelDeployment
  pools : List ExactModelPool
deriving DecidableEq

/-- The content an alias revision is addressed by. -/
structure RevisionPayload where
  aliasId : String
  aliasName : String
  orgId : Option Uuid
  poolId : String
  deploymentIds : List String
  catalogSha256 : String
  providerConnectionRevisions : List (String × Nat)
  certification : Option GatewayEquivalenceCertification
  certificationOrder : List String
  refusalFailover : Bool
deriving DecidableEq

/-- The engine's package, and the digests. -/
structure Engine where
  acceptsConnection : ConnectionConfig → Bool
  acceptsCertification : GatewayEquivalenceCertification → Bool
  normalize : ModelCatalog → Option NormalizedGatewayCatalog
  identitySha256 : NormalizedGatewayCatalog → String
  chainSha256 : List CatalogWaterfallRow → String
  revisionSha256 : RevisionPayload → String
  byokDigest : String → String

/-- Azure's half of a connection's configuration. -/
structure AzureConnectionConfig where
  endpoint : String
  apiVersion : Option String
  deployments : List (String × String)
deriving DecidableEq

/-! ### Credential references -/

inductive CredentialSourceKind where
  | platformEnv
  | byokVault
  | placeholder
deriving DecidableEq

/-- A pointer from an environment name of the catalog to where its value comes from. -/
structure ConnectionCredentialRef where
  environmentName : String
  kind : CredentialSourceKind
  selector : String := ""
deriving DecidableEq

/-- `byok_credential_environment_name`. -/
def Engine.byokCredentialEnvironmentName (e : Engine) (selector : String) : String :=
  "EXPLABS_GATEWAY_KEY_" ++ e.byokDigest selector

/-- Python's whitespace. -/
def isSpace (c : Char) : Bool :=
  let n := c.toNat
  (9 ≤ n && n ≤ 13) || (28 ≤ n && n ≤ 32) || n == 0x85 || n == 0xa0 || n == 0x1680 ||
    (0x2000 ≤ n && n ≤ 0x200a) || n == 0x2028 || n == 0x2029 || n == 0x202f || n == 0x205f ||
    n == 0x3000

/-- `str.strip()`. -/
def strip (s : String) : String :=
  String.ofList ((s.toList.dropWhile isSpace).reverse.dropWhile isSpace).reverse

/-- A string that is there and not empty. -/
def truthy (o : Option String) : Option String := o.filter (· ≠ "")

theorem eq_some_of_truthy {o : Option String} {v : String} (h : truthy o = some v) : o = some v :=
  Option.eq_some_of_filter_eq_some h

def experientialCloudBaseUrlEnv : String := "EXPLABS_EXPERIENTIAL_CLOUD_BASE_URL"
def experientialCloudApiKeyEnv : String := "EXPLABS_EXPERIENTIAL_CLOUD_API_KEY"

/-- `experiential_cloud_base_url`. -/
def experientialCloudBaseUrl (environment : String → Option String) (rowBaseUrl : Option String) :
    Option String :=
  (truthy rowBaseUrl).or
    (truthy (some (strip ((environment experientialCloudBaseUrlEnv).getD ""))))

/-- `experiential_cloud_api_key`. -/
def experientialCloudApiKey (environment : String → Option String) : Option String :=
  truthy (some (strip ((environment experientialCloudApiKeyEnv).getD "")))

def byokPlaceholderAzureBaseUrl : String := "https://byok-placeholder.openai.azure.com/"

/-! ### Inputs and state -/

/-- What a build reads: the rows, the worker's environment, the probe of the connections'
credentials (absent in offline builds), the engine, and the validation of an Azure
configuration. -/
structure Inputs where
  rows : PlatformCatalogRows
  environment : String → Option String
  releaseProbe : Option (String → Bool)
  engine : Engine
  azureConnectionConfig : String → Option AzureConnectionConfig

namespace Inputs

/-- `_connections_by_org_provider`: the last row wins. -/
def connectionByOrgProvider (i : Inputs) (org : Uuid) (p : Provider) : Option CatalogConnectionRow :=
  (i.rows.connections.filter fun c => decide (c.orgId = org) && decide (c.provider = p)).getLast?

/-- `_connection_by_id`. -/
def connectionById (i : Inputs) (id : Uuid) : Option CatalogConnectionRow :=
  (i.rows.connections.filter fun c => decide (c.id = id)).getLast?

/-- `_connections_by_provider`, in the order of the ids. -/
def connectionsByProvider (i : Inputs) (p : Provider) : List CatalogConnectionRow :=
  (i.rows.connections.insertionSort fun a b => a.id.text ≤ b.id.text).filter
    fun c => decide (c.provider = p)

/-- `_providers_by_model`, in the order of creation. -/
def providersByModel (i : Inputs) (model : Uuid) : List CatalogProviderRow :=
  (i.rows.providers.insertionSort fun a b =>
      a.createdAt < b.createdAt ∨ a.createdAt = b.createdAt ∧ a.id.text ≤ b.id.text).filter
    fun r => decide (r.modelId = model)

/-- `_chains`, in the order of the positions. -/
def chain (i : Inputs) (model : Uuid) (org : Option Uuid) : List CatalogWaterfallRow :=
  (i.rows.waterfalls.filter fun g => decide (g.modelId = model) && decide (g.orgId = org)).insertionSort
    fun a b => a.position ≤ b.position

/-- The models in the order of their slugs. -/
def models (i : Inputs) : List CatalogModelRow :=
  i.rows.models.insertionSort fun a b => a.slug < b.slug ∨ a.slug = b.slug ∧ a.id.text ≤ b.id.text

/-- `_house_connection`. -/
def houseConnection (i : Inputs) (p : Provider) : Option CatalogConnectionRow :=
  i.rows.houseOrgId.bind fun house => i.connectionByOrgProvider house p

/-- The environment name a credential selector is bound to. -/
def byokEnv (i : Inputs) (selector : String) : String :=
  i.engine.byokCredentialEnvironmentName selector

/-- A worker variable that is set and not empty. -/
def environmentSet (i : Inputs) (name : String) : Bool := (truthy (i.environment name)).isSome

end Inputs

/-- Why a build is abandoned. -/
inductive GatewayCatalogBuildError where
  | connectionConfig (config : ConnectionConfig)
  | certification (message : String)
  | catalog
deriving DecidableEq

/-- The pieces assembled so far. -/
structure Assembler where
  catalogConnections : Dict String ConnectionConfig
  catalogModels : Dict String ModelRecord
  catalogPools : Dict String GatewayPoolRecord
  credentialRefs : Dict String ConnectionCredentialRef
  connectionRowByDeployment : Dict String CatalogConnectionRow
  providerByAlias : Dict String Provider
  /-- Organization, canonical alias, alias of the variant. -/
  variants : Dict String (Dict String String)
  byokRequiredCanonicals : List String
  probedReleasable : Dict String Bool
  warnings : List String

def Assembler.empty : Assembler :=
  ⟨∅, ∅, ∅, ∅, ∅, ∅, ∅, [], ∅, []⟩

/-- A computation that may abandon the build. -/
abbrev Raising := Except GatewayCatalogBuildError

namespace Assembler

/-- `_warn`. -/
def warn (s : Assembler) (message : String) : Assembler :=
  { s with warnings := s.warnings ++ [message] }

/-- A skipped row: a warning and no result. -/
def skip {α : Type} (s : Assembler) (message : String) : Raising (Assembler × Option α) := .ok (s.warn message, none)

/-- Record a connection and where its credential comes from. -/
def addConnection (s : Assembler) (name : String) (config : ConnectionConfig)
    (ref : Option ConnectionCredentialRef) : Assembler :=
  { s with
    catalogConnections := s.catalogConnections.insert name config
    credentialRefs := match ref with
      | none => s.credentialRefs
      | some ref => s.credentialRefs.insert ref.environmentName ref }

/-- Record a deployment: `_add_deployment_record`. -/
def addDeploymentRecord (s : Assembler) (deployment : String) (connection : String)
    (model : CatalogModelRow) (row : CatalogProviderRow) (billing : BillingSource)
    (providerModel : String) : Assembler :=
  { s with
    catalogModels := s.catalogModels.insert deployment
      { connection := connection
        model := providerModel
        billingSource := billing
        exactModelId := "exact-" ++ model.id.text
        prices := row.prices } }

/-- Remember the connection row of a deployment. -/
def bindRow (s : Assembler) (deployment : String) (c : CatalogConnectionRow) : Assembler :=
  { s with connectionRowByDeployment := s.connectionRowByDeployment.insert deployment c }

/-- Mark a canonical deployment as one that carries no shared credential. -/
def requireByok (s : Assembler) (deployment : String) : Assembler :=
  { s with byokRequiredCanonicals := s.byokRequiredCanonicals.insert deployment }

/-- Remember the provider a canonical deployment serves through. -/
def markProvider (s : Assembler) (canonical : String) (p : Provider) : Assembler :=
  { s with providerByAlias := s.providerByAlias.insert canonical p }

/-- Record a pool. -/
def addPool (s : Assembler) (name : String) (pool : GatewayPoolRecord) : Assembler :=
  { s with catalogPools := s.catalogPools.insert name pool }

/-- `self._variants.setdefault(org, {})[canonical] = variant`. -/
def setVariant (s : Assembler) (org canonical variant : String) : Assembler :=
  { s with variants := s.variants.insert org ((s.variants.getOrEmpty org).insert canonical variant) }

end Assembler

/-! ### Connections -/

section connections
variable (i : Inputs) (s : Assembler)

/-- The engine's validation of a connection, where the builder does not catch a refusal. -/
def checkedConfig (config : ConnectionConfig) : Raising Unit :=
  ensure (i.engine.acceptsConnection config = true) (.connectionConfig config)

/-- A probe's answer is kept; a negative one is warned about. -/
def Assembler.noteProbe (s : Assembler) (c : CatalogConnectionRow) (releasable : Bool) : Assembler :=
  let warned := if releasable then s else
    s.warn s!"provider connection {c.id.text}: credential release failed; its deployments are skipped"
  { warned with probedReleasable := warned.probedReleasable.insert c.id.text releasable }

/-- `_connection_releasable`: one probe per connection and build. -/
def connectionReleasable (c : CatalogConnectionRow) : Assembler × Bool :=
  match i.releaseProbe with
  | none => (s, true)
  | some probe =>
      match s.probedReleasable.lookup c.id.text with
      | some cached => (s, cached)
      | none => (s.noteProbe c (probe c.id.text), probe c.id.text)

/-- The configuration of an organization's connection, or the reason there is none. -/
def byokConnectionConfig (c : CatalogConnectionRow) : Except String ConnectionConfig :=
  let environmentName := i.byokEnv c.id.text
  if c.provider = .azureOpenai then
    match i.azureConnectionConfig c.config with
    | none => .error
        s!"provider connection {c.id.text}: malformed Azure config; its deployments are skipped"
    | some config => .ok
        { provider := "azure"
          baseUrl := some config.endpoint
          region := none
          apiVersion := some ((truthy config.apiVersion).getD "v1")
          apiKeyEnv := some environmentName }
  else if c.provider.openaiCompatibleHost then
    match c.provider.defaultHostBaseUrl with
    | none => .error
        s!"provider connection {c.id.text}: {c.provider.text} has no default origin; connection skipped"
    | some baseUrl => .ok
        { provider := "openai-compatible"
          baseUrl := some baseUrl
          region := none
          apiVersion := none
          apiKeyEnv := some environmentName }
  else .ok
    { provider := c.provider.experiential
      baseUrl := none
      region := none
      apiVersion := none
      apiKeyEnv := some environmentName }

/-- `_register_byok_connection`. -/
def registerByokConnection (c : CatalogConnectionRow) : Raising (Assembler × Option String) :=
  if (s.catalogConnections.lookup (connectionName c.id)).isSome then
    .ok (s, some (connectionName c.id))
  else
    let probed := connectionReleasable i s c
    if probed.2 = false then .ok (probed.1, none)
    else
      match byokConnectionConfig i c with
      | .error message => probed.1.skip message
      | .ok config => do
          checkedConfig i config
          return (probed.1.addConnection (connectionName c.id) config
            (some ⟨i.byokEnv c.id.text, .byokVault, c.id.text⟩), some (connectionName c.id))

/-- `_register_platform_connection`. -/
def registerPlatformConnection (p : Provider) : Raising (Assembler × Option String) :=
  match p.platformCredentialEnv with
  | none => .ok (s, none)
  | some environmentName =>
      if i.environmentSet environmentName = false then .ok (s, none)
      else if (s.catalogConnections.lookup (platformName p)).isSome then
        .ok (s, some (platformName p))
      else
        let config : ConnectionConfig :=
          { provider := p.experiential
            baseUrl := none
            region := none
            apiVersion := none
            apiKeyEnv := some environmentName }
        do
          checkedConfig i config
          return (s.addConnection (platformName p) config
            (some ⟨environmentName, .platformEnv, environmentName⟩), some (platformName p))

/-- `_register_bedrock_connection`. -/
def registerBedrockConnection (region : Option String) :
    Raising (Assembler × String) :=
  if (s.catalogConnections.lookup (bedrockName region)).isSome then .ok (s, bedrockName region)
  else
    let config : ConnectionConfig :=
      { provider := "bedrock", baseUrl := none, region := region, apiVersion := none, apiKeyEnv := none }
    do
      checkedConfig i config
      return (s.addConnection (bedrockName region) config none, bedrockName region)

/-- The configuration behind a public bring-your-own-key deployment; nobody's credential. -/
def byokRequiredConfig (row : CatalogProviderRow) : Except String ConnectionConfig :=
  let environmentName := i.byokEnv ("byok-required:" ++ row.id.text)
  if row.provider.openaiCompatibleHost then
    match (truthy row.baseUrl).or row.provider.defaultHostBaseUrl with
    | none => .error
        s!"model_providers {row.id.text}: {row.provider.text} has no default origin; row skipped"
    | some baseUrl => .ok
        { provider := "openai-compatible"
          baseUrl := some baseUrl
          region := none
          apiVersion := none
          apiKeyEnv := some environmentName }
  else if row.provider = .azureOpenai then .ok
    { provider := row.provider.experiential
      baseUrl := some ((truthy row.baseUrl).getD byokPlaceholderAzureBaseUrl)
      region := none
      apiVersion := some "v1"
      apiKeyEnv := some environmentName }
  else .ok
    { provider := row.provider.experiential
      baseUrl := none
      region := none
      apiVersion := none
      apiKeyEnv := some environmentName }

/-- `_register_byok_required_connection`. -/
def registerByokRequiredConnection (row : CatalogProviderRow) : Raising (Assembler × Option String) :=
  if (s.catalogConnections.lookup (byokRequiredName row.id)).isSome then
    .ok (s, some (byokRequiredName row.id))
  else
    match byokRequiredConfig i row with
    | .error message => s.skip message
    | .ok config => do
        checkedConfig i config
        return (s.addConnection (byokRequiredName row.id) config
          (some ⟨i.byokEnv ("byok-required:" ++ row.id.text), .placeholder, ""⟩),
          some (byokRequiredName row.id))

end connections

end Experiential.Catalog
