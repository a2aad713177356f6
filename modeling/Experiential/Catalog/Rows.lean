import Mathlib.Data.List.Sort
import Experiential.Lib.Dict

/-! # The catalog input rows

The rows of `models`, `model_providers`, `model_waterfalls` and `provider_connections` as the
catalog builder reads them, and `PlatformCatalogRows.Admitted`: what the keys, the foreign
keys, the checks and the tenancy triggers of the schema say about them together. Identifiers
are the canonical texts of uuids; all the builder relies on is that they have one length. -/

namespace Experiential.Catalog

/-- The canonical text of a uuid. -/
structure Uuid where
  text : String
  length_text : text.length = 36
deriving DecidableEq

theorem Uuid.ext_text {a b : Uuid} (h : a.text = b.text) : a = b := by
  cases a; cases b; simpa using h

/-- `model_providers.provider`; `provider_connections.provider` is one of these too. -/
inductive Provider where
  | openai
  | anthropic
  | gemini
  | azureOpenai
  | openrouter
  | bedrock
  | localServer
  | fireworks
  | modal
  | experientialCloud
deriving DecidableEq

/-- The column value. -/
def Provider.text : Provider → String
  | openai => "openai"
  | anthropic => "anthropic"
  | gemini => "gemini"
  | azureOpenai => "azure_openai"
  | openrouter => "openrouter"
  | bedrock => "bedrock"
  | localServer => "local"
  | fireworks => "fireworks"
  | modal => "modal"
  | experientialCloud => "experiential_cloud"

/-- `_EXPERIENTIAL_PROVIDER_BY_PLATFORM`. -/
def Provider.experiential : Provider → String
  | openai => "openai"
  | anthropic => "anthropic"
  | gemini => "gemini"
  | azureOpenai => "azure"
  | openrouter => "openrouter"
  | bedrock => "bedrock"
  | localServer => "openai-compatible"
  | fireworks => "openai-compatible"
  | modal => "openai-compatible"
  | experientialCloud => "openai-compatible"

/-- `_OPENAI_COMPATIBLE_HOST_PROVIDERS`. -/
def Provider.openaiCompatibleHost : Provider → Bool
  | fireworks | modal | experientialCloud => true
  | _ => false

/-- `_DEFAULT_HOST_BASE_URLS`. -/
def Provider.defaultHostBaseUrl : Provider → Option String
  | fireworks => some "https://api.fireworks.ai/inference/v1"
  | _ => none

/-- `_BYOK_ROUTABLE_PROVIDERS`. -/
def Provider.byokRoutable : Provider → Bool
  | openai | anthropic | gemini | openrouter | azureOpenai | fireworks => true
  | _ => false

/-- `_house_provider_rank`. -/
def Provider.houseRank : Provider → Nat
  | experientialCloud => 0
  | azureOpenai => 1
  | bedrock => 2
  | openai | anthropic | gemini => 3
  | fireworks => 4
  | _ => 5

/-- `PLATFORM_PROVIDER_CREDENTIAL_ENVS`. -/
def Provider.platformCredentialEnv : Provider → Option String
  | openai => some "OPENAI_API_KEY"
  | anthropic => some "ANTHROPIC_API_KEY"
  | gemini => some "GEMINI_API_KEY"
  | fireworks => some "FIREWORKS_API_KEY"
  | modal => some "MODAL_API_KEY"
  | experientialCloud => some "EXPLABS_EXPERIENTIAL_CLOUD_API_KEY"
  | _ => none

/-- `billing_source`. -/
inductive BillingSource where
  | hostManaged
  | customerManaged
deriving DecidableEq

/-- `model_providers.status`. -/
inductive DeploymentStatus where
  | active
  | degraded
  | disabled
deriving DecidableEq

/-- One `models` row. -/
structure CatalogModelRow where
  id : Uuid
  slug : String
  owningOrgId : Option Uuid
deriving DecidableEq

/-- The four rates of a deployment, in micro-USD per million tokens; absent is unknown. -/
structure GatewayTokenPrices where
  input : Option Nat
  cachedInput : Option Nat
  output : Option Nat
  reasoning : Option Nat
deriving DecidableEq

/-- One `model_providers` row. -/
structure CatalogProviderRow where
  id : Uuid
  modelId : Uuid
  provider : Provider
  providerModelId : String
  baseUrl : Option String
  region : Option String
  owningOrgId : Option Uuid
  providerConnectionId : Option Uuid
  billingSource : BillingSource
  prices : GatewayTokenPrices
  status : DeploymentStatus
  createdAt : Int
deriving DecidableEq

/-- One `model_waterfalls` rung. -/
structure CatalogWaterfallRow where
  id : Uuid
  modelId : Uuid
  orgId : Option Uuid
  position : Nat
  modelProviderId : Uuid
  updatedAt : Int
deriving DecidableEq

/-- One `provider_connections` row; `config` is the text of its JSON document. -/
structure CatalogConnectionRow where
  id : Uuid
  orgId : Uuid
  provider : Provider
  config : String
  servingRevision : Nat
deriving DecidableEq

/-- Every catalog input row. -/
structure PlatformCatalogRows where
  models : List CatalogModelRow
  providers : List CatalogProviderRow
  waterfalls : List CatalogWaterfallRow
  connections : List CatalogConnectionRow
  houseOrgId : Option Uuid

/-- `model_providers_base_url_check`, without the grammar of the URL. -/
def CatalogProviderRow.baseUrlCheck (r : CatalogProviderRow) : Prop :=
  match r.provider with
  | .localServer | .modal => r.baseUrl.isSome
  | .experientialCloud => True
  | _ => r.baseUrl = none

instance (r : CatalogProviderRow) : Decidable r.baseUrlCheck := by
  unfold CatalogProviderRow.baseUrlCheck
  split <;> infer_instance

/-- What the schema says about the rows of the four tables together. -/
structure PlatformCatalogRows.Admitted (rows : PlatformCatalogRows) : Prop where
  models_pkey : (rows.models.map (·.id)).Nodup
  models_namespace_slug_key : (rows.models.map fun m => (m.slug, m.owningOrgId)).Nodup
  providers_pkey : (rows.providers.map (·.id)).Nodup
  connections_pkey : (rows.connections.map (·.id)).Nodup
  connections_org_provider_key : (rows.connections.map fun c => (c.orgId, c.provider)).Nodup
  waterfalls_pkey : (rows.waterfalls.map (·.id)).Nodup
  waterfalls_chain_position_key :
    (rows.waterfalls.map fun g => (g.modelId, g.orgId, g.position)).Nodup
  waterfalls_chain_deployment_key :
    (rows.waterfalls.map fun g => (g.modelId, g.orgId, g.modelProviderId)).Nodup
  providers_model_fk : ∀ r ∈ rows.providers, ∃ m ∈ rows.models, m.id = r.modelId
  waterfalls_model_provider_fk : ∀ g ∈ rows.waterfalls,
    ∃ r ∈ rows.providers, r.modelId = g.modelId ∧ r.id = g.modelProviderId
  pin_requires_org : ∀ r ∈ rows.providers, r.providerConnectionId ≠ none → r.owningOrgId ≠ none
  connection_pin_fk : ∀ r ∈ rows.providers, ∀ p, r.providerConnectionId = some p →
    ∃ c ∈ rows.connections, c.id = p ∧ r.owningOrgId = some c.orgId
  base_url_check : ∀ r ∈ rows.providers, r.baseUrlCheck
  /-- A deployment on a private model is owned by the model's organization. -/
  providers_guard_tenancy : ∀ r ∈ rows.providers, ∀ m ∈ rows.models, m.id = r.modelId →
    ∀ o, m.owningOrgId = some o → r.owningOrgId = some o
  /-- A chain on a private model belongs to its owner. -/
  waterfalls_guard_chain : ∀ g ∈ rows.waterfalls, ∀ m ∈ rows.models, m.id = g.modelId →
    ∀ o, m.owningOrgId = some o → g.orgId = none ∨ g.orgId = some o
  /-- A rung is public or owned by the tenant of its chain. -/
  waterfalls_guard_rung : ∀ g ∈ rows.waterfalls, ∀ m ∈ rows.models, m.id = g.modelId →
    ∀ r ∈ rows.providers, r.id = g.modelProviderId → ∀ o, r.owningOrgId = some o →
      g.orgId.or m.owningOrgId = some o

namespace PlatformCatalogRows.Admitted

variable {rows : PlatformCatalogRows}

theorem model_eq (h : rows.Admitted) {m n : CatalogModelRow} (hm : m ∈ rows.models) (hn : n ∈ rows.models)
    (hid : m.id = n.id) : m = n := List.inj_on_of_nodup_map h.models_pkey hm hn hid

theorem provider_eq (h : rows.Admitted) {r s : CatalogProviderRow} (hr : r ∈ rows.providers)
    (hs : s ∈ rows.providers) (hid : r.id = s.id) : r = s := List.inj_on_of_nodup_map h.providers_pkey hr hs hid

theorem connection_eq (h : rows.Admitted) {c d : CatalogConnectionRow} (hc : c ∈ rows.connections)
    (hd : d ∈ rows.connections) (hid : c.id = d.id) : c = d :=
  List.inj_on_of_nodup_map h.connections_pkey hc hd hid

end PlatformCatalogRows.Admitted

end Experiential.Catalog
