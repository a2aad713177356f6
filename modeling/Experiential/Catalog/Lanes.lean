import Experiential.Catalog.Build

/-! # What the assembler's dictionaries contain

Every connection, credential reference, deployment and variant in the dictionaries comes from
one lane, and its name says which. `ConnectionLane`, `RefLane`, `RecordLane` and `VariantLane`
are the lanes with what each guarantees about the rows behind it; `Sound` collects them with
the links between the dictionaries. Each write of the assembler keeps `Sound`, and so does
each of its methods. -/

namespace Experiential.Catalog

/-! ### Lanes -/

/-- A public `customer_managed` deployment: nobody funds it, every caller brings a key. -/
structure RequiresByok (m : CatalogModelRow) (r : CatalogProviderRow) : Prop where
  public_model : m.owningOrgId = none
  public_row : r.owningOrgId = none
  unpinned : r.providerConnectionId = none
  hosted : r.provider ≠ .localServer
  customer : r.billingSource = .customerManaged

/-- A provider row together with its model. -/
structure Inputs.RowOf (i : Inputs) (m : CatalogModelRow) (r : CatalogProviderRow) : Prop where
  model : m ∈ i.rows.models
  row : r ∈ i.rows.providers
  model_id : r.modelId = m.id

/-- What the admission check leaves: a public model has public rows only. -/
def Shareable (m : CatalogModelRow) (r : CatalogProviderRow) : Prop :=
  m.owningOrgId = none → r.owningOrgId = none

/-- Is the connection's credential released by the probe? -/
def Inputs.releasable (i : Inputs) (c : CatalogConnectionRow) : Bool :=
  match i.releaseProbe with
  | none => true
  | some probe => probe c.id.text

/-- Can the connection be released and configured? -/
def Inputs.Usable (i : Inputs) (c : CatalogConnectionRow) : Prop :=
  i.releasable c = true ∧ ∃ config, byokConnectionConfig i c = .ok config

/-- Can the connection carry the row: has its provider a lane, has it a spelling of the row's
model, and is it usable? -/
structure Inputs.Carries (i : Inputs) (r : CatalogProviderRow) (c : CatalogConnectionRow) : Prop where
  routable : c.provider.byokRoutable = true
  spelled : ∃ spelling, byokProviderModel i r c = .ok spelling
  usable : i.Usable c

/-- An origin of the platform's own: a provider's public one, the placeholder's or the worker's. -/
inductive PlatformOrigin (i : Inputs) : String → Prop where
  | provider {p : Provider} {u : String} (h : p.defaultHostBaseUrl = some u) : PlatformOrigin i u
  | placeholder : PlatformOrigin i byokPlaceholderAzureBaseUrl
  | worker {u : String}
      (h : truthy (some (strip ((i.environment experientialCloudBaseUrlEnv).getD ""))) = some u) :
      PlatformOrigin i u

/-- The credential references, by environment name. -/
inductive RefLane (i : Inputs) : String → ConnectionCredentialRef → Prop where
  | platform {p : Provider} {env : String} (h : p.platformCredentialEnv = some env) :
      RefLane i env ⟨env, .platformEnv, env⟩
  | byok {c : CatalogConnectionRow} (hc : c ∈ i.rows.connections) :
      RefLane i (i.byokEnv c.id.text) ⟨i.byokEnv c.id.text, .byokVault, c.id.text⟩
  | localServer {r : CatalogProviderRow} (hr : r ∈ i.rows.providers) :
      RefLane i (i.byokEnv ("local:" ++ r.id.text)) ⟨i.byokEnv ("local:" ++ r.id.text), .placeholder, ""⟩
  | byokRequired {r : CatalogProviderRow} (hr : r ∈ i.rows.providers) :
      RefLane i (i.byokEnv ("byok-required:" ++ r.id.text))
        ⟨i.byokEnv ("byok-required:" ++ r.id.text), .placeholder, ""⟩
  | cloud {r : CatalogProviderRow} (hr : r ∈ i.rows.providers) :
      RefLane i (i.byokEnv ("experiential_cloud:" ++ r.id.text))
        ⟨i.byokEnv ("experiential_cloud:" ++ r.id.text), .placeholder, ""⟩

/-- The references an openai-compatible host row may ride: the house's, the worker's or none. -/
inductive HostRef (i : Inputs) (r : CatalogProviderRow) : ConnectionCredentialRef → Prop where
  | house {c : CatalogConnectionRow} (hc : c ∈ i.rows.connections)
      (ho : some c.orgId = i.rows.houseOrgId) :
      HostRef i r ⟨i.byokEnv c.id.text, .byokVault, c.id.text⟩
  | platform {p : Provider} {env : String} (h : p.platformCredentialEnv = some env) :
      HostRef i r ⟨env, .platformEnv, env⟩
  | cloud : HostRef i r ⟨i.byokEnv ("experiential_cloud:" ++ r.id.text), .placeholder, ""⟩

theorem HostRef.refLane {i : Inputs} {r : CatalogProviderRow} {ref : ConnectionCredentialRef}
    (h : HostRef i r ref) (hr : r ∈ i.rows.providers) : RefLane i ref.environmentName ref := by
  cases h with
  | house hc ho => exact .byok hc
  | platform hp => exact .platform hp
  | cloud => exact .cloud hr

/-- The connections, by name. -/
inductive ConnectionLane (i : Inputs) : String → ConnectionConfig → Prop where
  | platform {p : Provider} {env : String} (h : p.platformCredentialEnv = some env) :
      ConnectionLane i (platformName p) ⟨p.experiential, none, none, none, some env⟩
  | bedrock (region : Option String) :
      ConnectionLane i (bedrockName region) ⟨"bedrock", none, region, none, none⟩
  | byok {c : CatalogConnectionRow} {config : ConnectionConfig} (hc : c ∈ i.rows.connections)
      (hr : i.releasable c = true) (h : byokConnectionConfig i c = .ok config) :
      ConnectionLane i (connectionName c.id) config
  | host {r : CatalogProviderRow} {u : String} {ref : ConnectionCredentialRef}
      (hr : r ∈ i.rows.providers) (hu : r.baseUrl = some u ∨ PlatformOrigin i u)
      (href : HostRef i r ref) :
      ConnectionLane i (hostName r.id)
        ⟨"openai-compatible", some u, none, none, some ref.environmentName⟩
  | localServer {r : CatalogProviderRow} {u : String} (hr : r ∈ i.rows.providers)
      (hu : r.baseUrl = some u) :
      ConnectionLane i (localName r.id)
        ⟨"openai-compatible", some u, none, none, some (i.byokEnv ("local:" ++ r.id.text))⟩
  | byokRequired {r : CatalogProviderRow} {config : ConnectionConfig} (hr : r ∈ i.rows.providers)
      (h : byokRequiredConfig i r = .ok config) :
      ConnectionLane i (byokRequiredName r.id) config

/-- The connection names a host deployment may ride. -/
inductive HostName (i : Inputs) (r : CatalogProviderRow) : String → Prop where
  | bedrock (h : r.provider = .bedrock) : HostName i r (bedrockName r.region)
  | host (h : r.provider.openaiCompatibleHost = true) : HostName i r (hostName r.id)
  | house {c : CatalogConnectionRow} (hc : c ∈ i.rows.connections)
      (ho : some c.orgId = i.rows.houseOrgId) (hp : c.provider = r.provider) :
      HostName i r (connectionName c.id)
  | platform : HostName i r (platformName r.provider)

/-- The connections a variant of the row may be made for. -/
structure VariantCandidate (i : Inputs) (m : CatalogModelRow) (r : CatalogProviderRow)
    (c : CatalogConnectionRow) : Prop where
  connection : c ∈ i.rows.connections
  provider : c.provider = r.provider
  tenant : match m.owningOrgId with
    | some owner => c.orgId = owner
    | none => some c.orgId ≠ i.rows.houseOrgId

/-- The deployments, by alias. -/
inductive RecordLane (i : Inputs) : String → ModelRecord → Prop where
  | owned {m : CatalogModelRow} {r : CatalogProviderRow} {c : CatalogConnectionRow}
      {record : ModelRecord} (hr : i.RowOf m r) (hs : Shareable m r) (hc : c ∈ i.rows.connections)
      (ho : deploymentOwner m r = some c.orgId) (hp : c.provider = r.provider)
      (hname : record.connection = connectionName c.id)
      (hbilling : record.billingSource = .customerManaged) : RecordLane i (deploymentAlias r.id) record
  | localServer {m : CatalogModelRow} {r : CatalogProviderRow} {record : ModelRecord}
      (hr : i.RowOf m r) (hs : Shareable m r) (ho : deploymentOwner m r ≠ none)
      (hp : r.provider = .localServer)
      (hname : record.connection = localName r.id)
      (hbilling : record.billingSource = .customerManaged) : RecordLane i (deploymentAlias r.id) record
  | host {m : CatalogModelRow} {r : CatalogProviderRow} {record : ModelRecord}
      (hr : i.RowOf m r) (hs : Shareable m r) (hb : r.billingSource = .hostManaged)
      (hname : HostName i r record.connection)
      (hbilling : record.billingSource = .hostManaged) : RecordLane i (deploymentAlias r.id) record
  | byokRequired {m : CatalogModelRow} {r : CatalogProviderRow} {record : ModelRecord}
      (hr : i.RowOf m r) (hreq : RequiresByok m r)
      (hname : record.connection = byokRequiredName r.id)
      (hbilling : record.billingSource = .customerManaged) : RecordLane i (deploymentAlias r.id) record
  | variant {m : CatalogModelRow} {r : CatalogProviderRow} {c : CatalogConnectionRow}
      {record : ModelRecord} (hr : i.RowOf m r) (hc : VariantCandidate i m r c)
      (hname : record.connection = connectionName c.id) :
      RecordLane i (variantAlias r.id c.id) record

/-- The variants, by organization and canonical alias. -/
inductive VariantLane (i : Inputs) : String → String → String → Prop where
  | mk {m : CatalogModelRow} {r : CatalogProviderRow} {c : CatalogConnectionRow}
      (hr : i.RowOf m r) (hc : VariantCandidate i m r c) (hcarries : i.Carries r c) :
      VariantLane i c.orgId.text (deploymentAlias r.id) (variantAlias r.id c.id)

theorem VariantLane.inv {i : Inputs} {org canonical variant : String}
    (h : VariantLane i org canonical variant) : ∃ m r c, i.RowOf m r ∧ VariantCandidate i m r c ∧
      i.Carries r c ∧ org = c.orgId.text ∧ canonical = deploymentAlias r.id ∧
      variant = variantAlias r.id c.id := by
  cases h with
  | mk hr hc hcarries => exact ⟨_, _, _, hr, hc, hcarries, rfl, rfl, rfl⟩

/-! ### The invariant -/

/-- The row a byok-required canonical stands for. -/
def RequiredRow (i : Inputs) (deployment : String) : Prop :=
  ∃ m r, i.RowOf m r ∧ RequiresByok m r ∧ deployment = deploymentAlias r.id

/-- Every entry of the assembler comes from a row of its inputs. -/
structure Sound (i : Inputs) (s : Assembler) : Prop where
  connections : Dict.All (ConnectionLane i) s.catalogConnections
  refs : Dict.All (RefLane i) s.credentialRefs
  /-- A connection's credential has a reference. -/
  bound : ∀ name config env, s.catalogConnections.lookup name = some config →
    config.apiKeyEnv = some env → (s.credentialRefs.lookup env).isSome
  records : Dict.All (RecordLane i) s.catalogModels
  /-- A deployment's connection is there. -/
  connected : ∀ deployment record, s.catalogModels.lookup deployment = some record →
    (s.catalogConnections.lookup record.connection).isSome
  variants : ∀ org canonical variant, (s.variants.getOrEmpty org).lookup canonical = some variant →
    VariantLane i org canonical variant ∧ (s.catalogModels.lookup variant).isSome
  required : ∀ deployment ∈ s.byokRequiredCanonicals, RequiredRow i deployment
  required_complete : ∀ deployment, (s.catalogModels.lookup deployment).isSome →
    RequiredRow i deployment → deployment ∈ s.byokRequiredCanonicals
  probed : Dict.All (fun id b => ∀ probe, i.releaseProbe = some probe → b = probe id)
    s.probedReleasable

theorem sound_empty (i : Inputs) : Sound i .empty where
  connections := Dict.all_empty
  refs := Dict.all_empty
  bound := by intro name config env h; simp [Assembler.empty] at h
  records := Dict.all_empty
  connected := by intro d record h; simp [Assembler.empty] at h
  variants := by intro org k v h; simp [Assembler.empty, Dict.getOrEmpty] at h
  required := by intro d h; simp [Assembler.empty] at h
  required_complete := by intro d h; simp [Assembler.empty] at h
  probed := Dict.all_empty

namespace Sound

variable {i : Inputs} {s : Assembler}

/-- Warnings and probes are no part of the catalog. -/
theorem noted (h : Sound i s) (w : List String) {p : Dict String Bool}
    (hp : Dict.All (fun id b => ∀ probe, i.releaseProbe = some probe → b = probe id) p) :
    Sound i { s with warnings := w, probedReleasable := p } :=
  ⟨h.connections, h.refs, h.bound, h.records, h.connected, h.variants, h.required,
    h.required_complete, hp⟩

theorem warn (h : Sound i s) (message : String) : Sound i (s.warn message) :=
  h.noted _ h.probed

theorem refuse (h : Sound i s) (message : Option String) : Sound i (s.refuse message) := by
  cases message with
  | none => exact h
  | some message => exact h.warn message

theorem bindRow (h : Sound i s) (deployment : String) (c : CatalogConnectionRow) :
    Sound i (s.bindRow deployment c) :=
  ⟨h.connections, h.refs, h.bound, h.records, h.connected, h.variants, h.required,
    h.required_complete, h.probed⟩

theorem markProvider (h : Sound i s) (canonical : String) (p : Provider) :
    Sound i (s.markProvider canonical p) :=
  ⟨h.connections, h.refs, h.bound, h.records, h.connected, h.variants, h.required,
    h.required_complete, h.probed⟩

theorem addPool (h : Sound i s) (name : String) (pool : GatewayPoolRecord) :
    Sound i (s.addPool name pool) :=
  ⟨h.connections, h.refs, h.bound, h.records, h.connected, h.variants, h.required,
    h.required_complete, h.probed⟩

/-- A connection of a lane, with the reference its credential needs. -/
theorem addConnection (h : Sound i s) {name : String} {config : ConnectionConfig}
    {ref : Option ConnectionCredentialRef} (hlane : ConnectionLane i name config)
    (henv : config.apiKeyEnv = ref.map (·.environmentName))
    (href : ∀ r, ref = some r → RefLane i r.environmentName r) :
    Sound i (s.addConnection name config ref) where
  connections := h.connections.insert hlane
  refs := by
    cases ref with
    | none => exact h.refs
    | some r => exact h.refs.insert (href r rfl)
  bound := by
    intro n c env hn hc
    have hmono : ∀ e, (s.credentialRefs.lookup e).isSome →
        ((s.addConnection name config ref).credentialRefs.lookup e).isSome := by
      intro e he
      cases ref with
      | none => exact he
      | some r =>
          rw [AList.lookup_isSome] at he ⊢
          exact (AList.mem_insert _).mpr (.inr he)
    rcases Dict.lookup_insert_eq_some.mp hn with ⟨rfl, rfl⟩ | ⟨-, hn⟩
    · rw [henv] at hc
      cases ref with
      | none => cases hc
      | some r =>
          cases hc
          rw [AList.lookup_isSome]
          exact (AList.mem_insert _).mpr (.inl rfl)
    · exact hmono env (h.bound n c env hn hc)
  records := h.records
  connected := by
    intro d record hd
    have := h.connected d record hd
    rw [AList.lookup_isSome] at this ⊢
    exact (AList.mem_insert _).mpr (.inr this)
  variants := h.variants
  required := h.required
  required_complete := h.required_complete
  probed := h.probed

theorem addReferenced (h : Sound i s) {name : String} {config : ConnectionConfig}
    {ref : ConnectionCredentialRef} (hlane : ConnectionLane i name config)
    (henv : config.apiKeyEnv = some ref.environmentName) (href : RefLane i ref.environmentName ref) :
    Sound i (s.addConnection name config (some ref)) := by
  refine h.addConnection hlane henv ?_
  intro r hr
  cases hr
  exact href

theorem requireByok (h : Sound i s) {deployment : String} (hd : RequiredRow i deployment) :
    Sound i (s.requireByok deployment) where
  connections := h.connections
  refs := h.refs
  bound := h.bound
  records := h.records
  connected := h.connected
  variants := h.variants
  required := by
    intro d hm
    rcases List.mem_insert_iff.mp hm with rfl | hm
    · exact hd
    · exact h.required d hm
  required_complete := by
    intro d hs hr
    exact List.mem_insert_of_mem (h.required_complete d hs hr)
  probed := h.probed

/-- A deployment of a lane, whose connection is there. -/
theorem addDeploymentRecord (h : Sound i s) {deployment connection : String} {m : CatalogModelRow}
    {r : CatalogProviderRow} {billing : BillingSource} {providerModel : String}
    (hlane : RecordLane i deployment ⟨connection, providerModel, billing, "exact-" ++ m.id.text, r.prices⟩)
    (hconn : (s.catalogConnections.lookup connection).isSome)
    (hreq : RequiredRow i deployment → deployment ∈ s.byokRequiredCanonicals) :
    Sound i (s.addDeploymentRecord deployment connection m r billing providerModel) where
  connections := h.connections
  refs := h.refs
  bound := h.bound
  records := h.records.insert hlane
  connected := by
    intro d record hd
    rcases Dict.lookup_insert_eq_some.mp hd with ⟨rfl, rfl⟩ | ⟨-, hd⟩
    · exact hconn
    · exact h.connected d record hd
  variants := by
    intro org canonical variant hv
    obtain ⟨hl, hs⟩ := h.variants org canonical variant hv
    refine ⟨hl, ?_⟩
    rw [AList.lookup_isSome] at hs ⊢
    exact (AList.mem_insert _).mpr (.inr hs)
  required := h.required
  required_complete := by
    intro d hs hr
    rw [AList.lookup_isSome] at hs
    rcases (AList.mem_insert _).mp hs with rfl | hs
    · exact hreq hr
    · exact h.required_complete d (AList.lookup_isSome.mpr hs) hr
  probed := h.probed

theorem setVariant (h : Sound i s) {org canonical variant : String}
    (hlane : VariantLane i org canonical variant)
    (hs : (s.catalogModels.lookup variant).isSome) : Sound i (s.setVariant org canonical variant) where
  connections := h.connections
  refs := h.refs
  bound := h.bound
  records := h.records
  connected := h.connected
  variants := by
    intro o k v hk
    rcases Dict.lookup_getOrEmpty_insert.mp hk with ⟨rfl, rfl, rfl⟩ | ⟨-, hk⟩
    · exact ⟨hlane, hs⟩
    · exact h.variants o k v hk
  required := h.required
  required_complete := h.required_complete
  probed := h.probed

end Sound

end Experiential.Catalog
