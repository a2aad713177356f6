import Experiential.Catalog.Routes

/-! # What a deployment is bound to

A deployment's record names a connection, and the connection's name says which lane its
configuration comes from. Read together they give the provider, the endpoint and the
credential of every deployment of a build. -/

namespace Experiential.Catalog

variable {i : Inputs} {s : Assembler} {config : ConnectionConfig}

/-! ### From a name to its configuration -/

section names
variable {r : CatalogProviderRow} {c : CatalogConnectionRow}

theorem ConnectionLane.byok_inv (ha : i.rows.Admitted) (hc : c ∈ i.rows.connections)
    (h : ConnectionLane i (connectionName c.id) config) : byokConnectionConfig i c = .ok config := by
  generalize hname : connectionName c.id = name at h
  cases h with
  | byok hd hrel hcfg =>
      obtain rfl := ha.connection_eq hc hd (connectionName_inj hname)
      exact hcfg
  | _ => exact absurd (congrArg lane hname) (by simp)

theorem ConnectionLane.host_inv (ha : i.rows.Admitted) (hr : r ∈ i.rows.providers)
    (h : ConnectionLane i (hostName r.id) config) : ∃ u ref,
      config = ⟨"openai-compatible", some u, none, none, some ref.environmentName⟩ ∧
        (r.baseUrl = some u ∨ PlatformOrigin i u) ∧ HostRef i r ref := by
  generalize hname : hostName r.id = name at h
  cases h with
  | host hr' hu href =>
      obtain rfl := ha.provider_eq hr hr' (hostName_inj hname)
      exact ⟨_, _, rfl, hu, href⟩
  | _ => exact absurd (congrArg lane hname) (by simp)

theorem ConnectionLane.local_inv (ha : i.rows.Admitted) (hr : r ∈ i.rows.providers)
    (h : ConnectionLane i (localName r.id) config) : ∃ u,
      config = ⟨"openai-compatible", some u, none, none, some (i.byokEnv ("local:" ++ r.id.text))⟩ ∧
        r.baseUrl = some u := by
  generalize hname : localName r.id = name at h
  cases h with
  | localServer hr' hu =>
      obtain rfl := ha.provider_eq hr hr' (localName_inj hname)
      exact ⟨_, rfl, hu⟩
  | _ => exact absurd (congrArg lane hname) (by simp)

theorem ConnectionLane.byokRequired_inv (ha : i.rows.Admitted) (hr : r ∈ i.rows.providers)
    (h : ConnectionLane i (byokRequiredName r.id) config) : byokRequiredConfig i r = .ok config := by
  generalize hname : byokRequiredName r.id = name at h
  cases h with
  | byokRequired hr' hcfg =>
      obtain rfl := ha.provider_eq hr hr' (byokRequiredName_inj hname)
      exact hcfg
  | _ => exact absurd (congrArg lane hname) (by simp)

theorem Provider.text_inj {p q : Provider} (h : p.text = q.text) : p = q := by
  cases p <;> cases q <;> first | rfl | exact absurd h (by decide)

theorem platformName_inj {p q : Provider} (h : platformName p = platformName q) : p = q :=
  Provider.text_inj ((String.append_right_inj _).mp h)

/-- Only one provider's name starts like the ambient chain's. -/
theorem platformName_eq_bedrockName {p : Provider} {region : Option String}
    (h : platformName p = bedrockName region) : p = .bedrock := by
  have hinitial : ∀ p : Provider, ((platformName p).toList.drop 9).head? = some 'b' → p = .bedrock := by
    intro p
    cases p <;> decide
  have hbedrock : ((bedrockName region).toList.drop 9).head? = some 'b' := by
    cases region with
    | none => decide
    | some region =>
        unfold bedrockName
        rw [String.toList_append]
        rfl
  exact hinitial p (by rw [h, hbedrock])

/-- A platform connection: the provider's own origin, the ambient chain or a platform key. -/
theorem ConnectionLane.platform_inv {name : String} (hname : lane name = some 'p')
    (h : ConnectionLane i name config) :
    (∃ p env, name = platformName p ∧ p.platformCredentialEnv = some env ∧
      config = ⟨p.experiential, none, none, none, some env⟩) ∨
    ∃ region, name = bedrockName region ∧ config = ⟨"bedrock", none, region, none, none⟩ := by
  cases h with
  | platform hp => exact .inl ⟨_, _, rfl, hp, rfl⟩
  | bedrock region => exact .inr ⟨region, rfl, rfl⟩
  | _ => simp at hname

end names

/-! ### Providers -/

theorem byokConnectionConfig_provider {c : CatalogConnectionRow}
    (h : byokConnectionConfig i c = .ok config) : config.provider = c.provider.experiential := by
  unfold byokConnectionConfig at h
  split_ifs at h with h1 h2
  · split at h
    · cases h
    · cases h; rw [h1]; rfl
  · split at h
    · cases h
    · cases h
      cases hp : c.provider <;> rw [hp] at h2 <;> first | rfl | cases h2
  · cases h; rfl

theorem byokRequiredConfig_provider {r : CatalogProviderRow}
    (h : byokRequiredConfig i r = .ok config) : config.provider = r.provider.experiential := by
  unfold byokRequiredConfig at h
  split_ifs at h with h1 h2
  · split at h
    · cases h
    · cases h
      cases hp : r.provider <;> rw [hp] at h1 <;> first | rfl | cases h1
  · cases h; rfl
  · cases h; rfl

theorem experiential_of_openaiCompatibleHost {p : Provider} (h : p.openaiCompatibleHost = true) :
    p.experiential = "openai-compatible" := by
  cases p <;> first | rfl | cases h

theorem HostName.config_provider (ha : i.rows.Admitted) {r : CatalogProviderRow} {name : String}
    (hr : r ∈ i.rows.providers) (h : HostName i r name) (hlane : ConnectionLane i name config) :
    config.provider = r.provider.experiential := by
  cases h with
  | bedrock hp =>
      rcases hlane.platform_inv (by simp) with ⟨p, env, hname, henv, rfl⟩ | ⟨region, -, rfl⟩
      · obtain rfl := platformName_eq_bedrockName hname.symm
        cases henv
      · rw [hp]; rfl
  | host hp =>
      obtain ⟨u, ref, rfl, -, -⟩ := hlane.host_inv ha hr
      exact (experiential_of_openaiCompatibleHost hp).symm
  | house hc ho hp =>
      rw [byokConnectionConfig_provider (hlane.byok_inv ha hc), hp]
  | platform =>
      rcases hlane.platform_inv (by simp) with ⟨p, env, hname, henv, rfl⟩ | ⟨region, hname, rfl⟩
      · rw [platformName_inj hname]
      · rw [platformName_eq_bedrockName hname]; rfl

/-- The deployments made from a row: its canonical one and its variants. -/
def MadeFrom (r : CatalogProviderRow) (name : String) : Prop :=
  name = deploymentAlias r.id ∨ ∃ c, name = variantAlias r.id c

/-- The record of a deployment made from a row is one of the row's. -/
theorem config_provider (ha : i.rows.Admitted) (h : Sound i s) {m : CatalogModelRow}
    {r : CatalogProviderRow} (hrow : i.RowOf m r) {name : String} (hname : MadeFrom r name)
    {record : ModelRecord} (hrecord : s.catalogModels.lookup name = some record)
    (hconfig : s.catalogConnections.lookup record.connection = some config) :
    config.provider = r.provider.experiential := by
  have hsame : ∀ {m' : CatalogModelRow} {r' : CatalogProviderRow}, i.RowOf m' r' →
      name = deploymentAlias r'.id → r' = r := by
    intro m' r' hr' he
    rcases hname with rfl | ⟨c, rfl⟩
    · exact ha.provider_eq hr'.row hrow.row (deploymentAlias_inj he).symm
    · exact absurd he.symm (deploymentAlias_ne_variantAlias _ _ _)
  have hlane := h.connections _ _ hconfig
  have hrec := h.records _ _ hrecord
  generalize hn : name = n at hrec
  cases hrec with
  | owned hr' hs hc ho hp hconn hbilling =>
      obtain rfl := hsame hr' hn
      rw [hconn] at hlane
      rw [byokConnectionConfig_provider (hlane.byok_inv ha hc), hp]
  | localServer hr' hs ho hp hconn hbilling =>
      obtain rfl := hsame hr' hn
      rw [hconn] at hlane
      obtain ⟨u, rfl, -⟩ := hlane.local_inv ha hr'.row
      rw [hp]; rfl
  | host hr' hs hb hconn hbilling =>
      obtain rfl := hsame hr' hn
      exact hconn.config_provider ha hr'.row hlane
  | byokRequired hr' hreq hconn hbilling =>
      obtain rfl := hsame hr' hn
      rw [hconn] at hlane
      exact byokRequiredConfig_provider (hlane.byokRequired_inv ha hr'.row)
  | variant hr' hc hconn =>
      rcases hname with rfl | ⟨c, rfl⟩
      · exact absurd hn (deploymentAlias_ne_variantAlias _ _ _)
      · obtain rfl := ha.provider_eq hr'.row hrow.row (variantAlias_inj hn).1.symm
        rw [hconn] at hlane
        rw [byokConnectionConfig_provider (hlane.byok_inv ha hc.connection), hc.provider]

/-! ### Served deployments -/

section served
variable {b : GatewayCatalogBuild} {catalog : BuiltCatalog} {state : GatewayCatalogState}
  {key : CatalogKey} {resolver : CatalogRouteResolver}

/-- Substitution stays in the catalog and follows the variants of the build. -/
theorem served_spec (he : i.engine.ServesPools resolver) (hb : Built i b catalog s)
    (hs : Serves state key b catalog) (org : String) {d : ExactModelDeployment}
    (hd : d ∈ catalog.normalized.deployments) :
    served state key org d ∈ catalog.normalized.deployments ∧
      (served state key org d).deploymentId =
        ((s.variants.getOrEmpty org).lookup d.deploymentId).getD d.deploymentId := by
  unfold served variantOf
  rw [hs.variants, hs.deployments, hb.variants]
  cases hv : (s.variants.getOrEmpty org).lookup d.deploymentId with
  | none => exact ⟨hd, rfl⟩
  | some variant =>
      have hin := (hb.sound.variants _ _ _ hv).2
      obtain ⟨e, hmem, hid⟩ := he.deployments catalog.authored catalog.normalized hb.normalized variant
        (by rw [hb.authored]; exact hin)
      subst hid
      have hkey : ((Dict.ofList (fun d : ExactModelDeployment => d.deploymentId)
          catalog.normalized.deployments).lookup e.deploymentId).isSome := Dict.isSome_lookup_ofList hmem
      obtain ⟨e', he'⟩ := Option.isSome_iff_exists.mp hkey
      obtain ⟨hmem', hid'⟩ := Dict.mem_of_lookup_ofList he'
      rw [Option.bind_some, he']
      exact ⟨hmem', hid'⟩

/-- A deployment of the catalog made from a row has the row's provider. -/
theorem deployment_provider (ha : i.rows.Admitted) (he : i.engine.ServesPools resolver)
    (hb : Built i b catalog s) {m : CatalogModelRow} {r : CatalogProviderRow} (hrow : i.RowOf m r)
    {d : ExactModelDeployment} (hd : d ∈ catalog.normalized.deployments)
    (hname : MadeFrom r d.deploymentId) : d.provider = r.provider.experiential := by
  obtain ⟨record, config, hrecord, hconfig, hp⟩ :=
    he.providers catalog.authored catalog.normalized hb.normalized d hd
  rw [hb.authored] at hrecord hconfig
  rw [hp]
  exact config_provider ha hb.sound hrow hname hrecord hconfig

/-- The variant of a canonical deployment is made from the same row. -/
theorem madeFrom_served {r : CatalogProviderRow} (hb : Built i b catalog s) (org : String) :
    MadeFrom r (((s.variants.getOrEmpty org).lookup (deploymentAlias r.id)).getD
      (deploymentAlias r.id)) := by
  cases hv : (s.variants.getOrEmpty org).lookup (deploymentAlias r.id) with
  | none => exact .inl rfl
  | some variant =>
      obtain ⟨m, r', c, -, -, -, -, hn, rfl⟩ := (hb.sound.variants _ _ _ hv).1.inv
      rw [Option.getD_some, ← deploymentAlias_inj hn]
      exact .inr ⟨_, rfl⟩

end served

end Experiential.Catalog
