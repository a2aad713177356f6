import Experiential.Catalog.FailClosed

/-! # Tenant isolation of routes

The catalog is shared, the credentials are not. `EndpointFor` and `CredentialFor` say where a
request of an organization may be sent and with what: to the platform, to a public row's
endpoint or to the organization's own, with the platform's credential, a placeholder or the
organization's own. `routes_isolated` proves it of every deployment of every route.

A connection points to its credential by an environment name made from a digest, so two
selectors of one digest would share a credential; the digest is assumed to separate the
selectors of the build. -/

namespace Experiential.Catalog

/-! ### What an organization may be bound to -/

/-- The organization's own connection, or the platform's: the house's. -/
def Inputs.MayUse (i : Inputs) (org : Uuid) (c : CatalogConnectionRow) : Prop :=
  c ∈ i.rows.connections ∧ (c.orgId = org ∨ some c.orgId = i.rows.houseOrgId)

/-- Where a request of the organization may be sent; no base URL is the provider's own origin. -/
inductive EndpointFor (i : Inputs) (org : Uuid) : Option String → Prop where
  | provider : EndpointFor i org none
  | platform {u : String} (h : PlatformOrigin i u) : EndpointFor i org (some u)
  | row {r : CatalogProviderRow} {u : String} (hr : r ∈ i.rows.providers)
      (ho : r.owningOrgId = none ∨ r.owningOrgId = some org) (hu : r.baseUrl = some u) :
      EndpointFor i org (some u)
  | connection {c : CatalogConnectionRow} {a : AzureConnectionConfig} (hc : i.MayUse org c)
      (ha : i.azureConnectionConfig c.config = some a) : EndpointFor i org (some a.endpoint)

/-- With what a request of the organization may be sent. -/
inductive CredentialFor (i : Inputs) (org : Uuid) : ConnectionCredentialRef → Prop where
  | platform {p : Provider} {env : String} (h : p.platformCredentialEnv = some env) :
      CredentialFor i org ⟨env, .platformEnv, env⟩
  | placeholder (env : String) : CredentialFor i org ⟨env, .placeholder, ""⟩
  | connection {c : CatalogConnectionRow} (hc : i.MayUse org c) (env : String) :
      CredentialFor i org ⟨env, .byokVault, c.id.text⟩

/-- A configuration the organization may be bound to. -/
structure ConfigFor (i : Inputs) (org : Uuid) (config : ConnectionConfig) : Prop where
  endpoint : EndpointFor i org config.baseUrl
  credential : ∀ env, config.apiKeyEnv = some env → ∃ ref, RefLane i env ref ∧ CredentialFor i org ref

/-! ### Credentials by environment name -/

/-- The credential selectors of a build. -/
def Inputs.selectors (i : Inputs) : List String :=
  i.rows.connections.map (·.id.text) ++ i.rows.providers.flatMap fun r =>
    ["local:" ++ r.id.text, "byok-required:" ++ r.id.text, "experiential_cloud:" ++ r.id.text]

/-- No two selectors have one digest. -/
def Inputs.DigestSeparates (i : Inputs) : Prop :=
  ∀ a ∈ i.selectors, ∀ b ∈ i.selectors, i.engine.byokDigest a = i.engine.byokDigest b → a = b

section credentials
variable {i : Inputs} {env : String}

/-- The reference of a selector: a connection is a bare uuid, everything else is a placeholder. -/
def Inputs.selectorRef (i : Inputs) (selector : String) : ConnectionCredentialRef :=
  if selector.length = 36 then ⟨i.byokEnv selector, .byokVault, selector⟩
  else ⟨i.byokEnv selector, .placeholder, ""⟩

theorem selectorRef_prefixed (p : String) (hp : p ≠ "") (r : Uuid) :
    i.selectorRef (p ++ r.text) = ⟨i.byokEnv (p ++ r.text), .placeholder, ""⟩ := by
  have hlen : (p ++ r.text).length ≠ 36 := by
    rw [String.length_append, r.length_text]
    have hpos : p.length ≠ 0 := by
      intro h0
      exact hp (String.length_eq_zero_iff.mp h0)
    omega
  unfold Inputs.selectorRef
  rw [if_neg hlen]

theorem mem_selectors {r : CatalogProviderRow} (hr : r ∈ i.rows.providers) {selector : String}
    (h : selector ∈ ["local:" ++ r.id.text, "byok-required:" ++ r.id.text,
      "experiential_cloud:" ++ r.id.text]) : selector ∈ i.selectors :=
  List.mem_append_right _ (List.mem_flatMap.mpr ⟨r, hr, h⟩)

/-- A reference is a platform variable's or a selector's. -/
theorem RefLane.source {ref : ConnectionCredentialRef} (h : RefLane i env ref) :
    (∃ p : Provider, p.platformCredentialEnv = some env ∧ ref = ⟨env, .platformEnv, env⟩) ∨
    ∃ selector ∈ i.selectors, env = i.byokEnv selector ∧ ref = i.selectorRef selector := by
  cases h with
  | platform hp => exact .inl ⟨_, hp, rfl⟩
  | byok hc =>
      rename_i c
      refine .inr ⟨_, List.mem_append_left _ (List.mem_map_of_mem hc), rfl, ?_⟩
      unfold Inputs.selectorRef
      rw [if_pos c.id.length_text]
  | localServer hr | byokRequired hr | cloud hr =>
      exact .inr ⟨_, mem_selectors hr (by simp), rfl, (selectorRef_prefixed _ (by decide) _).symm⟩

/-- No platform variable has the name of a selector's. -/
theorem platformCredentialEnv_ne_byokEnv {p : Provider} {selector : String} :
    p.platformCredentialEnv ≠ some (i.byokEnv selector) := by
  intro h
  have hl := congrArg (fun name => name.map fun name : String => name.toList.take 9) h
  unfold Inputs.byokEnv Engine.byokCredentialEnvironmentName at hl
  cases p <;> simp [Provider.platformCredentialEnv] at hl

theorem RefLane.eq (hsep : i.DigestSeparates) {ref ref' : ConnectionCredentialRef}
    (h : RefLane i env ref) (h' : RefLane i env ref') : ref = ref' := by
  rcases h.source with ⟨p, hp, rfl⟩ | ⟨a, ha, rfl, rfl⟩
  · rcases h'.source with ⟨p', -, rfl⟩ | ⟨b, -, rfl, rfl⟩
    · rfl
    · exact absurd hp platformCredentialEnv_ne_byokEnv
  · rcases h'.source with ⟨p', hp', rfl⟩ | ⟨b, hb, henv, rfl⟩
    · exact absurd hp' platformCredentialEnv_ne_byokEnv
    · have hdigest : i.engine.byokDigest a = i.engine.byokDigest b :=
        (String.append_right_inj _).mp henv
      rw [hsep a ha b hb hdigest]

variable {environment release : String → Option String}

/-- What one reference writes is there at the end, unless a later one of its name wrote again. -/
theorem lookup_resolve {all : List ConnectionCredentialRef} :
    ∀ (refs : List ConnectionCredentialRef) (d d' : Dict String String),
      (∀ ref ∈ refs, ref ∈ all) →
      refs.foldlM (fun d ref => do
        let value ← credentialOf environment release ref
        return d.insert ref.environmentName value) d = .ok d' →
      (∃ ref ∈ all, ref.environmentName = env ∧ ∃ value, credentialOf environment release ref = .ok value ∧
        d.lookup env = some value) ∨ (∃ ref ∈ refs, ref.environmentName = env) →
      ∃ ref ∈ all, ref.environmentName = env ∧ ∃ value, credentialOf environment release ref = .ok value ∧
        d'.lookup env = some value
  | [], d, d', _, hrun, h => by
      rw [List.foldlM_nil, pure_eq_ok] at hrun
      subst hrun
      rcases h with h | ⟨ref, hmem, -⟩
      · exact h
      · cases hmem
  | ref :: refs, d, d', hall, hrun, h => by
      rw [List.foldlM_cons, bind_eq_ok] at hrun
      obtain ⟨d₁, hone, hrest⟩ := hrun
      simp only [bind_eq_ok, pure_eq_ok] at hone
      obtain ⟨value, hvalue, rfl⟩ := hone
      refine lookup_resolve refs _ d' (fun r hr => hall r (List.mem_cons_of_mem _ hr)) hrest ?_
      by_cases hname : ref.environmentName = env
      · subst hname
        exact .inl ⟨ref, hall ref List.mem_cons_self, rfl, value, hvalue, AList.lookup_insert _⟩
      · rcases h with ⟨r, hr, hn, v, hv, hl⟩ | ⟨r, hr, hn⟩
        · refine .inl ⟨r, hr, hn, v, hv, ?_⟩
          rw [AList.lookup_insert_ne (Ne.symm hname)]
          exact hl
        · rcases List.mem_cons.mp hr with rfl | hr
          · exact absurd hn hname
          · exact .inr ⟨r, hr, hn⟩

/-- A reference's name has a value, and it comes from a reference of that name. -/
theorem resolveGatewayCredentials_lookup {refs : List ConnectionCredentialRef} {d : Dict String String}
    (h : resolveGatewayCredentials environment release refs = .ok d) {ref : ConnectionCredentialRef}
    (href : ref ∈ refs) : ∃ ref' ∈ refs, ref'.environmentName = ref.environmentName ∧
      ∃ value, credentialOf environment release ref' = .ok value ∧
        d.lookup ref.environmentName = some value :=
  lookup_resolve refs _ d (fun _ hr => hr) h (.inr ⟨ref, href, rfl⟩)

end credentials

/-! ### Lanes -/

section lanes
variable {i : Inputs} {org : Uuid} {config : ConnectionConfig} {m : CatalogModelRow}
  {r : CatalogProviderRow}

theorem byokConnectionConfig_for {c : CatalogConnectionRow} (hc : i.MayUse org c)
    (h : byokConnectionConfig i c = .ok config) : ConfigFor i org config := by
  have hcred : ∀ env, some (i.byokEnv c.id.text) = some env →
      ∃ ref, RefLane i env ref ∧ CredentialFor i org ref := by
    rintro env he
    cases he
    exact ⟨_, .byok hc.1, .connection hc _⟩
  unfold byokConnectionConfig at h
  split_ifs at h with hazure hhost
  · split at h
    · cases h
    · rename_i a ha
      cases h
      exact ⟨.connection hc ha, hcred⟩
  · split at h
    · cases h
    · rename_i u hu
      cases h
      exact ⟨.platform (.provider hu), hcred⟩
  · cases h
    exact ⟨.provider, hcred⟩

theorem byokRequiredConfig_for (hr : r ∈ i.rows.providers) (hpublic : r.owningOrgId = none)
    (h : byokRequiredConfig i r = .ok config) : ConfigFor i org config := by
  have hcred : ∀ env, some (i.byokEnv ("byok-required:" ++ r.id.text)) = some env →
      ∃ ref, RefLane i env ref ∧ CredentialFor i org ref := by
    rintro env he
    cases he
    exact ⟨_, .byokRequired hr, .placeholder _⟩
  unfold byokRequiredConfig at h
  split_ifs at h with hhost hazure
  · split at h
    · cases h
    · rename_i u hu
      cases h
      refine ⟨?_, hcred⟩
      rcases compatible_origin hu with hrow | hplatform
      · exact .row hr (.inl hpublic) hrow
      · exact .platform hplatform
  · cases h
    refine ⟨?_, hcred⟩
    cases hu : truthy r.baseUrl with
    | none => exact .platform .placeholder
    | some u => exact .row hr (.inl hpublic) (eq_some_of_truthy hu)
  · cases h
    exact ⟨.provider, hcred⟩

/-- A row of a model the organization may use is public or its own. -/
theorem row_owner (ha : i.rows.Admitted) (hrow : i.RowOf m r) (hs : Shareable m r)
    (hm : m.owningOrgId = none ∨ m.owningOrgId = some org) :
    r.owningOrgId = none ∨ r.owningOrgId = some org := by
  rcases hm with hm | hm
  · exact .inl (hs hm)
  · exact .inr (ha.providers_guard_tenancy r hrow.row m hrow.model hrow.model_id.symm org hm)

theorem owner_eq (ha : i.rows.Admitted) (hrow : i.RowOf m r) (hs : Shareable m r)
    (hm : m.owningOrgId = none ∨ m.owningOrgId = some org) {o : Uuid}
    (ho : deploymentOwner m r = some o) : o = org := by
  unfold deploymentOwner at ho
  rcases hm with hm | hm
  · rw [hs hm, hm] at ho
    cases ho
  · rw [ha.providers_guard_tenancy r hrow.row m hrow.model hrow.model_id.symm org hm] at ho
    cases ho
    rfl

theorem HostRef.credentialFor {ref : ConnectionCredentialRef} (h : HostRef i r ref) :
    CredentialFor i org ref := by
  cases h with
  | house hc ho => exact .connection ⟨hc, .inr ho⟩ _
  | platform hp => exact .platform hp
  | cloud => exact .placeholder _

theorem ConnectionLane.platform_for {name : String} (hname : lane name = some 'p')
    (h : ConnectionLane i name config) : ConfigFor i org config := by
  rcases h.platform_inv hname with ⟨p, env, -, henv, rfl⟩ | ⟨region, -, rfl⟩
  · refine ⟨.provider, ?_⟩
    rintro env' he
    cases he
    exact ⟨_, .platform henv, .platform henv⟩
  · refine ⟨.provider, ?_⟩
    rintro env' he
    cases he

/-- What a host deployment rides serves whoever may use its row. -/
theorem HostName.config_for (ha : i.rows.Admitted) {name : String} (hr : r ∈ i.rows.providers)
    (ho : r.owningOrgId = none ∨ r.owningOrgId = some org) (h : HostName i r name)
    (hlane : ConnectionLane i name config) : ConfigFor i org config := by
  cases h with
  | bedrock hp | platform => exact hlane.platform_for (by simp)
  | house hc hhouse hp => exact byokConnectionConfig_for ⟨hc, .inr hhouse⟩ (hlane.byok_inv ha hc)
  | host hp =>
      obtain ⟨u, ref, rfl, hu, href⟩ := hlane.host_inv ha hr
      constructor
      · rcases hu with hu | hu
        · exact .row hr ho hu
        · exact .platform hu
      · rintro env he
        cases he
        exact ⟨ref, href.refLane hr, href.credentialFor⟩

/-- The canonical deployment of a row the organization may use, or a variant of its own. -/
inductive NamedFor (i : Inputs) (org : Uuid) (r : CatalogProviderRow) : String → Prop where
  | canonical : NamedFor i org r (deploymentAlias r.id)
  | variant {c : CatalogConnectionRow} (hc : c ∈ i.rows.connections) (ho : c.orgId = org) :
      NamedFor i org r (variantAlias r.id c.id)

theorem record_for (ha : i.rows.Admitted) {s : Assembler} (h : Sound i s) (hrow : i.RowOf m r)
    (hm : m.owningOrgId = none ∨ m.owningOrgId = some org) {name : String}
    (hname : NamedFor i org r name) {record : ModelRecord}
    (hrecord : s.catalogModels.lookup name = some record)
    (hconfig : s.catalogConnections.lookup record.connection = some config) :
    ConfigFor i org config := by
  have hlane := h.connections _ _ hconfig
  have hrec := h.records _ _ hrecord
  cases hname with
  | variant hc ho =>
      generalize hn : variantAlias r.id _ = n at hrec
      cases hrec with
      | variant hr' hc' hconn =>
          obtain rfl := ha.connection_eq hc hc'.connection (variantAlias_inj hn).2
          rw [hconn] at hlane
          exact byokConnectionConfig_for ⟨hc, .inl ho⟩ (hlane.byok_inv ha hc)
      | _ =>
          exact absurd hn.symm (deploymentAlias_ne_variantAlias _ _ _)
  | canonical =>
      -- the row and the model behind the record are these
      have hsame : ∀ {m' : CatalogModelRow} {r' : CatalogProviderRow}, i.RowOf m' r' →
          deploymentAlias r.id = deploymentAlias r'.id → r' = r ∧ m' = m := by
        intro m' r' hr' he
        obtain rfl := ha.provider_eq hr'.row hrow.row (deploymentAlias_inj he).symm
        exact ⟨rfl, ha.model_eq hr'.model hrow.model (hr'.model_id.symm.trans hrow.model_id)⟩
      generalize hn : deploymentAlias r.id = n at hrec
      cases hrec with
      | owned hr' hs hc ho hp hconn hbilling =>
          obtain ⟨rfl, rfl⟩ := hsame hr' hn
          rw [hconn] at hlane
          exact byokConnectionConfig_for ⟨hc, .inl (owner_eq ha hrow hs hm ho)⟩ (hlane.byok_inv ha hc)
      | localServer hr' hs ho hp hconn hbilling =>
          obtain ⟨rfl, rfl⟩ := hsame hr' hn
          rw [hconn] at hlane
          obtain ⟨u, rfl, hu⟩ := hlane.local_inv ha hrow.row
          refine ⟨.row hrow.row (row_owner ha hrow hs hm) hu, ?_⟩
          rintro env he
          cases he
          exact ⟨_, .localServer hrow.row, .placeholder _⟩
      | host hr' hs hb hconn hbilling =>
          obtain ⟨rfl, rfl⟩ := hsame hr' hn
          exact hconn.config_for ha hrow.row (row_owner ha hrow hs hm) hlane
      | byokRequired hr' hreq hconn hbilling =>
          obtain ⟨rfl, rfl⟩ := hsame hr' hn
          rw [hconn] at hlane
          exact byokRequiredConfig_for hrow.row hreq.public_row (hlane.byokRequired_inv ha hrow.row)
      | variant hr' hc hconn => exact absurd hn (deploymentAlias_ne_variantAlias _ _ _)

end lanes

/-! ### Routes -/

section routes
variable {i : Inputs} {b : GatewayCatalogBuild} {plan : AliasActivationPlan}
  {state : GatewayCatalogState} {resolver : CatalogRouteResolver}
  {environment release : String → Option String} {previous : Option GatewayCatalogState}
  {controls : Dict String ProviderDataControls} {policies : Dict String OrgProviderPolicy}
  {org : Uuid}

/-- What a deployment of a request is bound to in the runtime catalog of the request's key: a
connection with an endpoint and a credential the organization may be sent to and with. -/
structure BoundFor (i : Inputs) (environment release : String → Option String)
    (runtime : RuntimeModelCatalog) (org : Uuid) (d : ExactModelDeployment) (record : ModelRecord)
    (config : ConnectionConfig) : Prop where
  deployed : runtime.authored.models.lookup d.deploymentId = some record
  connected : runtime.authored.connections.lookup record.connection = some config
  endpoint : EndpointFor i org config.baseUrl
  /-- A connection without a credential name is the worker's ambient one. -/
  credential : ∀ env, config.apiKeyEnv = some env → ∃ ref value, CredentialFor i org ref ∧
    credentialOf environment release ref = .ok value ∧ runtime.environment.lookup env = some value

theorem mem_sortedRefs {s : Assembler} {ref : ConnectionCredentialRef} :
    ref ∈ s.sortedRefs ↔ ∃ env, s.credentialRefs.lookup env = some ref := by
  unfold Assembler.sortedRefs
  rw [List.mem_map]
  constructor
  · rintro ⟨e, he, rfl⟩
    exact ⟨e.1, AList.mem_lookup_iff.mpr ((List.mem_insertionSort _).mp he)⟩
  · rintro ⟨env, henv⟩
    exact ⟨⟨env, ref⟩, (List.mem_insertionSort _).mpr (AList.mem_lookup_iff.mp henv), rfl⟩

theorem RefLane.environmentName {env : String} {ref : ConnectionCredentialRef} (h : RefLane i env ref) :
    ref.environmentName = env := by
  cases h with
  | _ => rfl

/-- The value under a connection's environment name is its own credential's. -/
theorem credential_for (hsep : i.DigestSeparates) {catalog : BuiltCatalog} {s : Assembler}
    (hb : Built i b catalog s) {credentials : Dict String String}
    (hcred : resolveGatewayCredentials environment release b.credentialRefs = .ok credentials)
    {name : String} {config : ConnectionConfig} (hfor : ConfigFor i org config)
    (hconfig : s.catalogConnections.lookup name = some config) {env : String}
    (henv : config.apiKeyEnv = some env) : ∃ ref value, CredentialFor i org ref ∧
      credentialOf environment release ref = .ok value ∧ credentials.lookup env = some value := by
  obtain ⟨ref, hlane, hallowed⟩ := hfor.credential env henv
  obtain ⟨stored, hstored⟩ := Option.isSome_iff_exists.mp (hb.sound.bound name config env hconfig henv)
  have hmem : stored ∈ b.credentialRefs := by
    rw [hb.refs]
    exact mem_sortedRefs.mpr ⟨env, hstored⟩
  obtain ⟨ref', hmem', hname, value, hvalue, hlookup⟩ := resolveGatewayCredentials_lookup hcred hmem
  rw [(hb.sound.refs env stored hstored).environmentName] at hname hlookup
  -- the reference that wrote the value has the name, so it is the connection's
  rw [hb.refs] at hmem'
  obtain ⟨env', henv'⟩ := mem_sortedRefs.mp hmem'
  have hlane' := hb.sound.refs env' ref' henv'
  rw [← hlane'.environmentName, hname] at hlane'
  obtain rfl := hlane'.eq hsep hlane
  exact ⟨ref', value, hallowed, hvalue, hlookup⟩

/-- What serves in the place of a row's canonical deployment is it or the organization's own
variant of it. -/
theorem served_namedFor {s : Assembler} {catalog : BuiltCatalog} (ha : i.rows.Admitted)
    (hb : Built i b catalog s) {m : CatalogModelRow} {r : CatalogProviderRow} (hrow : i.RowOf m r) :
    NamedFor i org r (((s.variants.getOrEmpty org.text).lookup (deploymentAlias r.id)).getD
      (deploymentAlias r.id)) := by
  cases hv : (s.variants.getOrEmpty org.text).lookup (deploymentAlias r.id) with
  | none => exact .canonical
  | some variant =>
      obtain ⟨m', r', c, hrow', hc, -, ho, hn, rfl⟩ := (hb.sound.variants _ _ _ hv).1.inv
      obtain rfl := ha.provider_eq hrow.row hrow'.row (deploymentAlias_inj hn)
      exact .variant hc.connection (Uuid.ext_text ho).symm

/-- **Tenant isolation.** Whatever the rows, the worker and the probe, a route of a plan the
organization may use sends its requests only where and with what the organization may. -/
theorem routes_isolated (ha : i.rows.Admitted) (hsep : i.DigestSeparates)
    (he : i.engine.ServesPools resolver) (hbuild : buildGatewayCatalog i = .ok b)
    (hplan : plan ∈ b.aliasPlans) (hmay : plan.orgId = none ∨ plan.orgId = some org)
    (hstate : buildCatalogState b environment release previous controls policies = .ok state)
    {route : GatewayRoute}
    (hroute : resolveRoute resolver state (plan.authorization org) = .ok route) :
    ∃ runtime, state.runtimeCatalogs.lookup (plan.authorization org).key = some runtime ∧
      ∀ d ∈ route.deployments, ∃ record config,
        BoundFor i environment release runtime org d record config := by
  obtain ⟨catalog, s, base, -, hb, hs, hbase, hids, hmem⟩ :=
    exists_base ha he hbuild hplan hstate org
  have horg : organizationUuid (plan.authorization org).organizationId = org.text :=
    organizationUuid_artifactId org.text
  refine ⟨_, hs.runtime, ?_⟩
  intro d hd
  rw [(resolveRoute_eq_ok hbase).1 route hroute, horg] at hd
  obtain ⟨hd, -⟩ := List.mem_filter.mp hd
  obtain ⟨d₀, hd₀, rfl⟩ := List.mem_map.mp hd
  have hplanned : d₀.deploymentId ∈ plan.targetDeploymentIds := by
    rw [← hids]
    exact List.mem_map_of_mem hd₀
  obtain ⟨m, r, hrow, howner, hid, -⟩ := hb.canonical hplan hplanned
  rw [howner] at hmay
  obtain ⟨hserved, hname⟩ := served_spec he hb hs org.text (hmem d₀ hd₀)
  have hnamed : NamedFor i org r
      (served state (plan.authorization org).key org.text d₀).deploymentId := by
    rw [hname, hid]
    exact served_namedFor ha hb hrow
  obtain ⟨record, config, hrecord, hconfig, -⟩ :=
    he.providers catalog.authored catalog.normalized hb.normalized _ hserved
  have hrecord' := hrecord
  have hconfig' := hconfig
  rw [hb.authored] at hrecord' hconfig'
  have hfor := record_for ha hb.sound hrow hmay hnamed hrecord' hconfig'
  have hcred : resolveGatewayCredentials environment release b.credentialRefs = .ok state.credentials := by
    unfold buildCatalogState at hstate
    simp only [bind_eq_ok, pure_eq_ok] at hstate
    obtain ⟨credentials, hcredentials, rfl⟩ := hstate
    exact hcredentials
  exact ⟨record, config, hrecord, hconfig, hfor.endpoint,
    fun env henv => credential_for hsep hb hcred hfor hconfig' henv⟩

/-- The organization that brought a key, on the mixed chain. -/
theorem routes_isolated_sample : ∃ b plan state route runtime,
    buildGatewayCatalog mixedInputs = .ok b ∧ plan ∈ b.aliasPlans ∧
    resolveRoute referenceResolver state (plan.authorization keyedOrg) = .ok route ∧
    state.runtimeCatalogs.lookup (plan.authorization keyedOrg).key = some runtime ∧
    ∀ d ∈ route.deployments, ∃ record config,
      BoundFor mixedInputs mixedInputs.environment (fun _ => some "customer-key") runtime keyedOrg d
        record config := by
  have hrun : (mixedInputs.generation.any fun g => g.1.aliasPlans.any fun plan =>
      decide (plan.orgId = none) && (routedIds g.2 plan keyedOrg).any fun _ => true) = true := by
    decide +kernel
  obtain ⟨⟨b, state⟩, hgen, hplans⟩ := Option.any_eq_true _ _ |>.mp hrun
  obtain ⟨plan, hplan, hchecks⟩ := List.any_eq_true.mp hplans
  obtain ⟨hpublic, hroutes⟩ := Bool.and_eq_true_iff.mp hchecks
  obtain ⟨name, hname, -⟩ := List.any_eq_true.mp hroutes
  obtain ⟨hbuild, hstate⟩ := Inputs.generation_eq_some hgen
  obtain ⟨route, hroute, -⟩ := mem_routedIds hname
  obtain ⟨runtime, hruntime, hbound⟩ := routes_isolated mixedRows_admitted (fun _ _ _ _ h => h)
    servesPools_reference hbuild hplan (.inl (of_decide_eq_true hpublic)) hstate hroute
  exact ⟨b, plan, state, route, runtime, hbuild, hplan, hroute, hruntime, hbound⟩

end routes

end Experiential.Catalog
