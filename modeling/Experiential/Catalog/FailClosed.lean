import Experiential.Catalog.Bindings

/-! # Deployments nobody's credential serves

`Engine.ServesPools` is an assumption on a package whose code is elsewhere. The reference
engine meets it (`servesPools_reference`): it refuses a catalog with a dangling reference or
two targets of one name, and its resolver looks the target's pool up. Its digest of a
credential selector is the selector.

A public `customer_managed` row has no credential of its own: its canonical deployment is bound
to a placeholder, and an organization is served through the variant of its own connection. The
resolver refuses a route of which *every* deployment is such a canonical. `Unserved` is the
condition on the rows under which a rung stays one for an organization, and
`byok_fails_closed_iff` says that the placeholder is kept out of an organization's routes
exactly when the rungs its policy leaves are all served or all unserved: a chain that mixes
them keeps the placeholder as a rung. -/

namespace Experiential.Catalog

section catalog
variable (a : ModelCatalog)

/-- The deployment of an alias, when its connection is authored. -/
def ModelCatalog.deploymentOf (name : String) : Option ExactModelDeployment := do
  let record ← a.models.lookup name
  let config ← a.connections.lookup record.connection
  return {
    deploymentId := name
    provider := config.provider
    billingSource := record.billingSource
    providerModel := record.model
    prices := record.prices }

/-- The authored pools, then a pool of one for every deployment. -/
def ModelCatalog.exactPools : List ExactModelPool :=
  (a.gatewayPools.entries.map fun e => ⟨e.1, e.2.exactModelId, e.2.deploymentAliases, some e.2.equivalence⟩) ++
    a.models.entries.map fun e => ⟨e.1, e.2.exactModelId, [e.1], none⟩

/-- Nothing dangles and no two targets share a name. -/
structure ModelCatalog.Closed : Prop where
  connected : ∀ name ∈ a.models.keys, (a.deploymentOf name).isSome
  authored : ∀ pool ∈ a.exactPools, pool.deploymentIds ≠ [] ∧ ∀ id ∈ pool.deploymentIds, id ∈ a.models.keys
  named : (a.exactPools.map (·.poolId)).Nodup

instance : Decidable a.Closed :=
  decidable_of_iff
    ((∀ name ∈ a.models.keys, (a.deploymentOf name).isSome) ∧
      (∀ pool ∈ a.exactPools, pool.deploymentIds ≠ [] ∧ ∀ id ∈ pool.deploymentIds, id ∈ a.models.keys) ∧
      (a.exactPools.map (·.poolId)).Nodup)
    ⟨fun h => ⟨h.1, h.2.1, h.2.2⟩, fun h => ⟨h.connected, h.authored, h.named⟩⟩

def ModelCatalog.referenceNormalize : Option NormalizedGatewayCatalog :=
  if a.Closed then some ⟨a.models.keys.filterMap a.deploymentOf, a.exactPools⟩ else none

end catalog

/-- The engine; its digests are the names of what they digest. -/
def referenceEngine : Engine where
  acceptsConnection := fun _ => true
  acceptsCertification := fun _ => true
  normalize := ModelCatalog.referenceNormalize
  identitySha256 := fun n => "".intercalate (n.deployments.map (·.deploymentId))
  chainSha256 := fun chain => "".intercalate (chain.map (·.modelProviderId.text))
  revisionSha256 := fun payload => payload.aliasId ++ payload.catalogSha256
  byokDigest := id

/-- The deployment of a name. -/
def NormalizedGatewayCatalog.deploymentOf (n : NormalizedGatewayCatalog) (id : String) :
    Option ExactModelDeployment := n.deployments.find? fun d => d.deploymentId = id

/-- The route over the deployments of a pool. -/
def ExactModelPool.route (pool : ExactModelPool) (authorization : AuthorizationSnapshot)
    (primary : ExactModelDeployment) (fallbacks : List ExactModelDeployment) : GatewayRoute where
  snapshot := ⟨authorization, pool.exactModelId, pool.poolId, pool.deploymentIds⟩
  deployment := primary
  fallbackDeployments := fallbacks
  routeReason := "pool"
  fallbackReason := none

/-- The target's deployments in order. -/
def NormalizedGatewayCatalog.route (n : NormalizedGatewayCatalog) (authorization : AuthorizationSnapshot) :
    Option GatewayRoute := do
  let pool ← n.pools.find? fun pool => pool.poolId = authorization.targetPoolId
  match pool.deploymentIds.filterMap n.deploymentOf with
  | [] => none
  | primary :: fallbacks => some (pool.route authorization primary fallbacks)

def referenceResolver : CatalogRouteResolver := fun catalogs authorization => do
  let n ← require (AList.lookup authorization.key catalogs) .unknownKey
  require (n.route authorization) (.engine "unknown target")

/-! ### It serves pools -/

section serves
variable {a : ModelCatalog} {n : NormalizedGatewayCatalog} {name : String} {d : ExactModelDeployment}

theorem ModelCatalog.referenceNormalize_eq_some (h : a.referenceNormalize = some n) :
    a.Closed ∧ n = ⟨a.models.keys.filterMap a.deploymentOf, a.exactPools⟩ := by
  unfold ModelCatalog.referenceNormalize at h
  split_ifs at h with hc
  cases h
  exact ⟨hc, rfl⟩

theorem ModelCatalog.deploymentOf_eq_some (h : a.deploymentOf name = some d) :
    ∃ record config, a.models.lookup name = some record ∧
      a.connections.lookup record.connection = some config ∧ d.deploymentId = name ∧
      d.provider = config.provider := by
  unfold ModelCatalog.deploymentOf at h
  simp only [Option.bind_eq_bind, Option.bind_eq_some_iff, Option.pure_def, Option.some.injEq] at h
  obtain ⟨record, hrecord, config, hconfig, rfl⟩ := h
  exact ⟨record, config, hrecord, hconfig, rfl, rfl⟩

theorem exists_deployment (h : a.referenceNormalize = some n) (hname : name ∈ a.models.keys) :
    ∃ d ∈ n.deployments, d.deploymentId = name := by
  obtain ⟨hc, rfl⟩ := a.referenceNormalize_eq_some h
  obtain ⟨d, hd⟩ := Option.isSome_iff_exists.mp (hc.connected name hname)
  obtain ⟨-, -, -, -, hid, -⟩ := ModelCatalog.deploymentOf_eq_some hd
  exact ⟨d, List.mem_filterMap.mpr ⟨name, hname, hd⟩, hid⟩

theorem exists_pool {target : String} {ids : List String}
    (h : a.poolDeployments target = some ids) :
    ∃ pool ∈ a.exactPools, pool.poolId = target ∧ pool.deploymentIds = ids := by
  unfold ModelCatalog.poolDeployments at h
  cases hp : a.gatewayPools.lookup target with
  | some pool =>
      rw [hp] at h
      cases h
      have hmem := AList.mem_lookup_iff.mp hp
      exact ⟨_, List.mem_append_left _ (List.mem_map_of_mem hmem), rfl, rfl⟩
  | none =>
      rw [hp] at h
      simp only at h
      split_ifs at h with hm
      cases h
      obtain ⟨record, hrecord⟩ := Option.isSome_iff_exists.mp hm
      have hmem := AList.mem_lookup_iff.mp hrecord
      exact ⟨_, List.mem_append_right _ (List.mem_map_of_mem hmem), rfl, rfl⟩

theorem map_filterMap_deploymentOf {ids : List String}
    (h : ∀ id ∈ ids, ∃ d ∈ n.deployments, d.deploymentId = id) :
    (ids.filterMap n.deploymentOf).map (·.deploymentId) = ids := by
  induction ids with
  | nil => rfl
  | cons id ids ih =>
      obtain ⟨d, hd, hid⟩ := h id List.mem_cons_self
      have hsome : (n.deploymentOf id).isSome := by
        unfold NormalizedGatewayCatalog.deploymentOf
        rw [List.find?_isSome]
        exact ⟨d, hd, decide_eq_true hid⟩
      obtain ⟨e, he⟩ := Option.isSome_iff_exists.mp hsome
      have hname : e.deploymentId = id := by simpa using List.find?_some he
      rw [List.filterMap_cons_some he, List.map_cons, hname,
        ih fun id' hid' => h id' (List.mem_cons_of_mem _ hid')]

/-- The resolver's route over a normalized catalog is its pool's. -/
theorem referenceResolver_route {catalogs : Dict CatalogKey NormalizedGatewayCatalog}
    {authorization : AuthorizationSnapshot} {ids : List String} (h : a.referenceNormalize = some n)
    (hkey : AList.lookup authorization.key catalogs = some n)
    (htarget : a.poolDeployments authorization.targetPoolId = some ids) :
    ∃ (pool : ExactModelPool) (primary : ExactModelDeployment) (fallbacks : List ExactModelDeployment),
      referenceResolver catalogs authorization = .ok (pool.route authorization primary fallbacks) ∧
      pool.deploymentIds = ids ∧ (primary :: fallbacks).map (·.deploymentId) = ids ∧
      ∀ d ∈ primary :: fallbacks, d ∈ n.deployments := by
  obtain ⟨hc, hn⟩ := a.referenceNormalize_eq_some h
  obtain ⟨pool, hpool, hname, rfl⟩ := exists_pool htarget
  obtain ⟨hne, hauthored⟩ := hc.authored pool hpool
  -- the pool found under the name is the target's, for names are not shared
  have hfind : n.pools.find? (fun p => p.poolId = authorization.targetPoolId) = some pool := by
    rw [hn]
    have hsome : (a.exactPools.find? fun p => p.poolId = authorization.targetPoolId).isSome := by
      rw [List.find?_isSome]
      exact ⟨pool, hpool, decide_eq_true hname⟩
    obtain ⟨found, hfound⟩ := Option.isSome_iff_exists.mp hsome
    have hsame : found.poolId = pool.poolId := by
      rw [hname]
      simpa using List.find?_some hfound
    rw [hfound, List.inj_on_of_nodup_map hc.named (List.mem_of_find?_eq_some hfound) hpool hsame]
  have hids := map_filterMap_deploymentOf (n := n) fun id hid => exists_deployment h (hauthored id hid)
  have hmem : ∀ d ∈ pool.deploymentIds.filterMap n.deploymentOf, d ∈ n.deployments := by
    intro d hd
    obtain ⟨id, -, hd⟩ := List.mem_filterMap.mp hd
    exact List.mem_of_find?_eq_some hd
  unfold referenceResolver NormalizedGatewayCatalog.route
  rw [hkey]
  simp only [require, Option.bind_eq_bind]
  cases hk : pool.deploymentIds.filterMap n.deploymentOf with
  | nil =>
      rw [hk] at hids
      exact absurd hids.symm hne
  | cons primary fallbacks =>
      rw [hk] at hids hmem
      refine ⟨pool, primary, fallbacks, ?_, rfl, hids, hmem⟩
      simp only [hfind, bind, Except.bind, Option.bind, hk]

theorem servesPools_reference : referenceEngine.ServesPools referenceResolver where
  deployments := by
    intro a n h name hname
    rw [AList.lookup_isSome, AList.mem_keys] at hname
    exact exists_deployment h hname
  providers := by
    intro a n h d hd
    obtain ⟨hc, rfl⟩ := a.referenceNormalize_eq_some h
    obtain ⟨name, -, hname⟩ := List.mem_filterMap.mp hd
    obtain ⟨record, config, hrecord, hconfig, rfl, hp⟩ := ModelCatalog.deploymentOf_eq_some hname
    exact ⟨record, config, hrecord, hconfig, hp⟩
  resolves := by
    intro a n catalogs authorization ids h hkey htarget
    obtain ⟨pool, primary, fallbacks, hroute, -, hids, hmem⟩ := referenceResolver_route h hkey htarget
    exact ⟨_, hroute, hids, hmem⟩

/-- It fails with an unknown key exactly on keys it does not have. -/
theorem referenceResolver_unknownKey (catalogs : Dict CatalogKey NormalizedGatewayCatalog)
    (authorization : AuthorizationSnapshot) :
    referenceResolver catalogs authorization = .error .unknownKey ↔
      AList.lookup authorization.key catalogs = none := by
  unfold referenceResolver
  cases hkey : AList.lookup authorization.key catalogs with
  | none => simp [require, bind_eq_error]
  | some n =>
      simp only [require, bind_eq_error, reduceCtorEq, false_or, iff_false]
      rintro ⟨n', -, h⟩
      split at h
      · cases h
      · cases h

end serves

/-- The organization's own connection serves the row. -/
def Inputs.ServedBy (i : Inputs) (org : Uuid) (r : CatalogProviderRow) : Prop :=
  ∃ c ∈ i.rows.connections, c.orgId = org ∧ c.provider = r.provider ∧
    i.rows.houseOrgId ≠ some org ∧ i.Carries r c

/-- A public bring-your-own-key row for which the organization brought no key. -/
def Inputs.Unserved (i : Inputs) (org : Uuid) (r : CatalogProviderRow) : Prop :=
  (∃ m, i.RowOf m r ∧ RequiresByok m r) ∧ ¬ i.ServedBy org r

/-- The rows behind the deployments of a plan. -/
def Inputs.rungs (i : Inputs) (plan : AliasActivationPlan) : List CatalogProviderRow :=
  i.rows.providers.filter fun r => decide (deploymentAlias r.id ∈ plan.targetDeploymentIds)

/-- Does the organization's policy permit the row's provider? -/
def permitsRow (controls : Dict String ProviderDataControls) (policies : Dict String OrgProviderPolicy)
    (org : Uuid) (r : CatalogProviderRow) : Bool :=
  match policies.lookup org.text with
  | none => true
  | some policy => policy.permits r.provider.experiential controls

section
variable {i : Inputs} {s : Assembler} {b : GatewayCatalogBuild} {catalog : BuiltCatalog}
  {org : Uuid} {r : CatalogProviderRow} {m : CatalogModelRow}

/-- An organization has a variant of a public bring-your-own-key deployment exactly when its
connection serves the row. -/
theorem hasVariant_iff (ha : i.rows.Admitted) (hb : Built i b catalog s) (hrow : i.RowOf m r)
    (hreq : RequiresByok m r) (hin : (s.providerByAlias.lookup (deploymentAlias r.id)).isSome) :
    s.HasVariant org.text (deploymentAlias r.id) ↔ i.ServedBy org r := by
  constructor
  · intro h
    obtain ⟨variant, hv⟩ := Option.isSome_iff_exists.mp h
    obtain ⟨m', r', c, hr, hc, hcarries, ho, hn, -⟩ := (hb.sound.variants _ _ _ hv).1.inv
    obtain rfl := ha.provider_eq hrow.row hr.row (deploymentAlias_inj hn)
    obtain rfl := ha.model_eq hrow.model hr.model (hrow.model_id.symm.trans hr.model_id)
    obtain rfl := Uuid.ext_text ho
    have htenant := hc.tenant
    rw [hreq.public_model] at htenant
    exact ⟨c, hc.connection, rfl, hc.provider, fun he => htenant he.symm, hcarries⟩
  · rintro ⟨c, hc, rfl, hp, hhouse, hcarries⟩
    refine hb.complete.variants m r hrow hreq hin c ⟨hc, hp, ?_⟩ hcarries
    rw [hreq.public_model]
    exact fun he => hhouse he.symm

/-- What serves in the place of a rung is a placeholder exactly when the rung is unserved. -/
theorem served_mem_required_iff (ha : i.rows.Admitted) (hb : Built i b catalog s)
    (hrow : i.RowOf m r) (hin : (s.providerByAlias.lookup (deploymentAlias r.id)).isSome) :
    ((s.variants.getOrEmpty org.text).lookup (deploymentAlias r.id)).getD (deploymentAlias r.id) ∈
      b.byokRequiredDeployments ↔ i.Unserved org r := by
  rw [hb.required]
  cases hv : (s.variants.getOrEmpty org.text).lookup (deploymentAlias r.id) with
  | some variant =>
      -- a variant is never a canonical deployment
      obtain ⟨-, r', c, -, -, -, -, -, rfl⟩ := (hb.sound.variants _ _ _ hv).1.inv
      have hnot := not_requiredRow_variantAlias (i := i) r'.id c.id
      rw [Option.getD_some]
      refine iff_of_false (fun hmem => hnot (hb.sound.required _ hmem)) ?_
      rintro ⟨⟨m', hrow', hreq⟩, hnone⟩
      refine hnone ((hasVariant_iff ha hb hrow' hreq hin).mp ?_)
      unfold Assembler.HasVariant
      rw [hv]
      rfl
  | none =>
      rw [Option.getD_none]
      constructor
      · intro hmem
        have hreq := requiresByok_of_requiredRow ha hrow (hb.sound.required _ hmem)
        refine ⟨⟨m, hrow, hreq⟩, fun hserved => ?_⟩
        have hvariant := (hasVariant_iff ha hb hrow hreq hin).mpr hserved
        unfold Assembler.HasVariant at hvariant
        rw [hv] at hvariant
        cases hvariant
      · rintro ⟨⟨m', hrow', hreq⟩, -⟩
        exact hb.sound.required_complete _ (hb.complete.registered _ hin) ⟨m', r, hrow', hreq, rfl⟩

end

section
variable {i : Inputs} {b : GatewayCatalogBuild} {plan : AliasActivationPlan}
  {state : GatewayCatalogState} {resolver : CatalogRouteResolver}
  {environment release : String → Option String} {previous : Option GatewayCatalogState}
  {controls : Dict String ProviderDataControls} {policies : Dict String OrgProviderPolicy}

/-- A plan of a build, with everything the resolver reads for it. -/
theorem exists_base (ha : i.rows.Admitted) (he : i.engine.ServesPools resolver)
    (hbuild : buildGatewayCatalog i = .ok b) (hplan : plan ∈ b.aliasPlans)
    (hstate : buildCatalogState b environment release previous controls policies = .ok state)
    (org : Uuid) : ∃ catalog s base, b.catalog = some catalog ∧ Built i b catalog s ∧
      Serves state (plan.authorization org).key b catalog ∧
      resolver state.routeCatalogs (plan.authorization org) = .ok base ∧
      base.deployments.map (·.deploymentId) = plan.targetDeploymentIds ∧
      ∀ d ∈ base.deployments, d ∈ catalog.normalized.deployments := by
  obtain ⟨hnone, hsome⟩ := buildGatewayCatalog_spec ha hbuild
  cases hc : b.catalog with
  | none =>
      rw [hnone hc] at hplan
      cases hplan
  | some catalog =>
      obtain ⟨s, hb⟩ := hsome catalog hc
      have hs := buildCatalogState_serves hc (hb.key_mem hc hplan org) hstate
      obtain ⟨base, hbase, hids, hmem⟩ := he.resolves catalog.authored catalog.normalized
        state.routeCatalogs (plan.authorization org) plan.targetDeploymentIds hb.normalized hs.route
        (hb.poolDeployments hplan)
      exact ⟨catalog, s, base, rfl, hb, hs, hbase, hids, hmem⟩

/-- The resolver's verdict on a plan, in terms of what is left of its deployments. -/
theorem no_placeholder_iff {base : GatewayRoute} {required : List String}
    {authorization : AuthorizationSnapshot}
    (hbase : resolver state.routeCatalogs authorization = .ok base)
    (hreq : (state.byokRequiredByKey.lookup authorization.key).getD [] = required) :
    (∀ route, resolveRoute resolver state authorization = .ok route →
      ∀ d ∈ route.deployments, d.deploymentId ∉ required) ↔
    (∀ d ∈ servedDeployments state authorization.key
        (organizationUuid authorization.organizationId) base, d.deploymentId ∉ required) ∨
    (∀ d ∈ servedDeployments state authorization.key
        (organizationUuid authorization.organizationId) base, d.deploymentId ∈ required) := by
  obtain ⟨hleft, hexists⟩ := resolveRoute_eq_ok hbase
  rw [hreq] at hexists
  generalize servedDeployments state authorization.key
    (organizationUuid authorization.organizationId) base = left at *
  constructor
  · intro h
    by_cases hall : ∀ d ∈ left, d.deploymentId ∈ required
    · exact .inr hall
    · left
      push Not at hall
      obtain ⟨d, hd, hd'⟩ := hall
      obtain ⟨route, hroute⟩ := hexists.mpr ⟨List.ne_nil_of_mem hd, .inr ⟨d, hd, hd'⟩⟩
      rw [← hleft route hroute]
      exact h route hroute
  · rintro (h | h) route hroute d hd
    · rw [hleft route hroute] at hd
      exact h d hd
    · -- such a route is refused
      obtain ⟨hne, hnil | ⟨e, he, he'⟩⟩ := hexists.mp ⟨route, hroute⟩
      · rw [hnil]
        exact List.not_mem_nil
      · exact absurd (h e he) he'

/-- A rung of a plan and the deployment that serves in its place. -/
structure RungServed (i : Inputs) (b : GatewayCatalogBuild) (state : GatewayCatalogState)
    (controls : Dict String ProviderDataControls) (policies : Dict String OrgProviderPolicy)
    (org : Uuid) (r : CatalogProviderRow) (d : ExactModelDeployment) : Prop where
  required : d.deploymentId ∈ b.byokRequiredDeployments ↔ i.Unserved org r
  permitted : permitted state org.text d = permitsRow controls policies org r

theorem rungServed (ha : i.rows.Admitted) (he : i.engine.ServesPools resolver)
    (hstate : buildCatalogState b environment release previous controls policies = .ok state)
    {catalog : BuiltCatalog} {s : Assembler} {key : CatalogKey}
    (hb : Built i b catalog s) (hs : Serves state key b catalog) {m : CatalogModelRow}
    {r : CatalogProviderRow} (hrow : i.RowOf m r)
    (hin : (s.providerByAlias.lookup (deploymentAlias r.id)).isSome) {d : ExactModelDeployment}
    (hd : d ∈ catalog.normalized.deployments) (hid : d.deploymentId = deploymentAlias r.id)
    (org : Uuid) : RungServed i b state controls policies org r (served state key org.text d) := by
  obtain ⟨hmem, hname⟩ := served_spec he hb hs org.text hd
  rw [hid] at hname
  constructor
  · rw [hname]
    exact served_mem_required_iff ha hb hrow hin
  · have hprovider : (served state key org.text d).provider = r.provider.experiential :=
      deployment_provider ha he hb hrow hmem (by rw [hname]; exact madeFrom_served hb org.text)
    unfold permitted permitsRow
    rw [hprovider]
    unfold buildCatalogState at hstate
    simp only [bind_eq_ok, pure_eq_ok] at hstate
    obtain ⟨credentials, -, rfl⟩ := hstate
    rfl

/-- **Fail closed.** No placeholder is ever in an organization's route of a plan exactly when
the rungs its policy leaves are all served, or all unserved. -/
theorem byok_fails_closed_iff (ha : i.rows.Admitted) (he : i.engine.ServesPools resolver)
    (hbuild : buildGatewayCatalog i = .ok b) (hplan : plan ∈ b.aliasPlans)
    (hstate : buildCatalogState b environment release previous controls policies = .ok state)
    (org : Uuid) :
    (∀ route, resolveRoute resolver state (plan.authorization org) = .ok route →
      ∀ d ∈ route.deployments, d.deploymentId ∉ b.byokRequiredDeployments) ↔
    (∀ r ∈ i.rungs plan, permitsRow controls policies org r = true → ¬ i.Unserved org r) ∨
    (∀ r ∈ i.rungs plan, permitsRow controls policies org r = true → i.Unserved org r) := by
  obtain ⟨catalog, s, base, -, hb, hs, hbase, hids, hmem⟩ :=
    exists_base ha he hbuild hplan hstate org
  have horg : organizationUuid (plan.authorization org).organizationId = org.text :=
    organizationUuid_artifactId org.text
  rw [no_placeholder_iff hbase hs.required, horg]
  -- the deployments left and the rungs the policy leaves correspond
  have hto : ∀ d ∈ servedDeployments state (plan.authorization org).key org.text base,
      ∃ r ∈ i.rungs plan, RungServed i b state controls policies org r d ∧
        permitsRow controls policies org r = true := by
    intro d hd
    obtain ⟨hd, hp⟩ := List.mem_filter.mp hd
    obtain ⟨d₀, hd₀, rfl⟩ := List.mem_map.mp hd
    have hplanned : d₀.deploymentId ∈ plan.targetDeploymentIds := by
      rw [← hids]
      exact List.mem_map_of_mem hd₀
    obtain ⟨m, r, hrow, -, hid, hin⟩ := hb.canonical hplan hplanned
    rw [hid] at hin
    have hserved := rungServed ha he hstate hb hs hrow hin (hmem d₀ hd₀) hid org
    refine ⟨r, List.mem_filter.mpr ⟨hrow.row, ?_⟩, hserved, ?_⟩
    · rw [← hid]
      exact decide_eq_true hplanned
    · rw [← hserved.permitted]
      exact hp
  have hfrom : ∀ r ∈ i.rungs plan, permitsRow controls policies org r = true →
      ∃ d ∈ servedDeployments state (plan.authorization org).key org.text base,
        RungServed i b state controls policies org r d := by
    intro r hr hp
    obtain ⟨hrmem, hplanned⟩ := List.mem_filter.mp hr
    have hplanned := of_decide_eq_true hplanned
    obtain ⟨m, r', hrow, -, hid, hin⟩ := hb.canonical hplan hplanned
    obtain rfl := ha.provider_eq hrmem hrow.row (deploymentAlias_inj hid)
    rw [← hids] at hplanned
    obtain ⟨d₀, hd₀, hid₀⟩ := List.mem_map.mp hplanned
    have hserved := rungServed ha he hstate hb hs hrow hin (hmem d₀ hd₀) hid₀ org
    refine ⟨_, List.mem_filter.mpr ⟨List.mem_map_of_mem hd₀, ?_⟩, hserved⟩
    rw [hserved.permitted]
    exact hp
  constructor
  · rintro (h | h)
    · left
      intro r hr hp hunserved
      obtain ⟨d, hd, hserved⟩ := hfrom r hr hp
      exact h d hd (hserved.required.mpr hunserved)
    · right
      intro r hr hp
      obtain ⟨d, hd, hserved⟩ := hfrom r hr hp
      exact hserved.required.mp (h d hd)
  · rintro (h | h)
    · left
      intro d hd hreq
      obtain ⟨r, hr, hserved, hp⟩ := hto d hd
      exact h r hr hp (hserved.required.mp hreq)
    · right
      intro d hd
      obtain ⟨r, hr, hserved, hp⟩ := hto d hd
      exact hserved.required.mpr (h r hr hp)

end

/-! ### A mixed chain -/

section mixed

def rowId (digit : Char) : Uuid :=
  ⟨"00000000-0000-4000-8000-00000000000".push digit, by rw [String.length_push]; rfl⟩

/-- A public model. -/
def mixedModel : CatalogModelRow := ⟨rowId '1', "mixed", none⟩

/-- The platform funds the first rung. -/
def hostedRow : CatalogProviderRow where
  id := rowId '2'
  modelId := rowId '1'
  provider := .openai
  providerModelId := "gpt"
  baseUrl := none
  region := none
  owningOrgId := none
  providerConnectionId := none
  billingSource := .hostManaged
  prices := ⟨none, none, none, none⟩
  status := .active
  createdAt := 0

/-- Every caller brings a key for the second. -/
def customerRow : CatalogProviderRow :=
  { hostedRow with
    id := rowId '3'
    provider := .openrouter
    billingSource := .customerManaged
    createdAt := 1 }

def keyedOrg : Uuid := rowId '4'
def keylessOrg : Uuid := rowId '5'

/-- The connection of the organization that brought one. -/
def keyedConnection : CatalogConnectionRow := ⟨rowId '6', keyedOrg, .openrouter, "\x7b\x7d", 1⟩

def mixedRows : PlatformCatalogRows where
  models := [mixedModel]
  providers := [hostedRow, customerRow]
  waterfalls := [⟨rowId '7', rowId '1', none, 0, rowId '2', 0⟩, ⟨rowId '8', rowId '1', none, 1, rowId '3', 0⟩]
  connections := [keyedConnection]
  houseOrgId := none

theorem mixedRows_admitted : mixedRows.Admitted := by
  have hpublic : ∀ m ∈ mixedRows.models, m.owningOrgId = none := by decide
  have hshared : ∀ r ∈ mixedRows.providers, r.owningOrgId = none ∧ r.providerConnectionId = none := by
    decide
  constructor
  case pin_requires_org =>
    intro r hr hpin
    exact absurd (hshared r hr).2 hpin
  case connection_pin_fk =>
    intro r hr p hp
    rw [(hshared r hr).2] at hp
    cases hp
  case providers_guard_tenancy =>
    intro r hr m hm hid o ho
    rw [hpublic m hm] at ho
    cases ho
  case waterfalls_guard_chain =>
    intro g hg m hm hid o ho
    rw [hpublic m hm] at ho
    cases ho
  case waterfalls_guard_rung =>
    intro g hg m hm hid r hr hid' o ho
    rw [(hshared r hr).1] at ho
    cases ho
  all_goals decide +kernel

/-- A worker with a platform key for the first rung; every connection can be released. -/
def mixedInputs : Inputs where
  rows := mixedRows
  environment := fun name => if name = "OPENAI_API_KEY" then some "platform-key" else none
  releaseProbe := some fun _ => true
  engine := referenceEngine
  azureConnectionConfig := fun _ => none

/-- The build of a worker with the inputs and its first generation. -/
def Inputs.generation (i : Inputs) : Option (GatewayCatalogBuild × GatewayCatalogState) :=
  match buildGatewayCatalog i with
  | .error _ => none
  | .ok b =>
      match buildCatalogState b i.environment (fun _ => some "customer-key") none ∅ ∅ with
      | .error _ => none
      | .ok state => some (b, state)

theorem Inputs.generation_eq_some {i : Inputs} {b : GatewayCatalogBuild} {state : GatewayCatalogState}
    (h : i.generation = some (b, state)) : buildGatewayCatalog i = .ok b ∧
      buildCatalogState b i.environment (fun _ => some "customer-key") none ∅ ∅ = .ok state := by
  unfold Inputs.generation at h
  split at h
  · cases h
  · rename_i b' hb
    split at h
    · cases h
    · rename_i state' hstate
      cases h
      exact ⟨hb, hstate⟩

/-- The deployments of the organization's route of a plan. -/
def routedIds (state : GatewayCatalogState) (plan : AliasActivationPlan) (org : Uuid) : List String :=
  match resolveRoute referenceResolver state (plan.authorization org) with
  | .error _ => []
  | .ok route => route.deployments.map (·.deploymentId)

theorem mem_routedIds {state : GatewayCatalogState} {plan : AliasActivationPlan} {org : Uuid}
    {name : String} (h : name ∈ routedIds state plan org) : ∃ route,
      resolveRoute referenceResolver state (plan.authorization org) = .ok route ∧
      ∃ d ∈ route.deployments, d.deploymentId = name := by
  unfold routedIds at h
  split at h
  · cases h
  · rename_i route hroute
    exact ⟨route, hroute, List.mem_map.mp h⟩

/-- The platform's rung and the customer's, for an organization that brought a key. -/
theorem byok_fails_closed_iff_sample : ∃ b plan state, buildGatewayCatalog mixedInputs = .ok b ∧
    plan ∈ b.aliasPlans ∧ buildCatalogState b mixedInputs.environment (fun _ => some "customer-key")
      none ∅ ∅ = .ok state ∧
    routedIds state plan keyedOrg = [deploymentAlias (rowId '2'), variantAlias (rowId '3') (rowId '6')] ∧
    ∀ route, resolveRoute referenceResolver state (plan.authorization keyedOrg) = .ok route →
      ∀ d ∈ route.deployments, d.deploymentId ∉ b.byokRequiredDeployments := by
  have hrun : (mixedInputs.generation.any fun g => g.1.aliasPlans.any fun plan =>
      decide (routedIds g.2 plan keyedOrg =
        [deploymentAlias (rowId '2'), variantAlias (rowId '3') (rowId '6')])) = true := by
    decide +kernel
  obtain ⟨⟨b, state⟩, hgen, hplans⟩ := Option.any_eq_true _ _ |>.mp hrun
  obtain ⟨plan, hplan, hids⟩ := List.any_eq_true.mp hplans
  obtain ⟨hbuild, hstate⟩ := Inputs.generation_eq_some hgen
  refine ⟨b, plan, state, hbuild, hplan, hstate, of_decide_eq_true hids, ?_⟩
  refine (byok_fails_closed_iff mixedRows_admitted servesPools_reference hbuild hplan hstate
    keyedOrg).mpr (.inl ?_)
  rintro r hr - ⟨⟨m, hrow, hreq⟩, hnone⟩
  rcases List.mem_cons.mp (List.mem_filter.mp hr).1 with rfl | hr
  · cases hreq.customer
  · obtain rfl := List.mem_singleton.mp hr
    exact hnone ⟨keyedConnection, List.mem_singleton_self _, rfl, rfl, by decide, rfl, ⟨_, rfl⟩,
      rfl, _, rfl⟩

/-- The placeholder is a rung of the route of an organization that brought no key. -/
theorem placeholder_routed_as_fallback : ∃ b plan state route, mixedInputs.rows.Admitted ∧
    referenceEngine.ServesPools referenceResolver ∧ buildGatewayCatalog mixedInputs = .ok b ∧
    plan ∈ b.aliasPlans ∧ buildCatalogState b mixedInputs.environment (fun _ => some "customer-key")
      none ∅ ∅ = .ok state ∧
    resolveRoute referenceResolver state (plan.authorization keylessOrg) = .ok route ∧
    ∃ d ∈ route.deployments, d.deploymentId ∈ b.byokRequiredDeployments := by
  have hrun : (mixedInputs.generation.any fun g => g.1.aliasPlans.any fun plan =>
      (routedIds g.2 plan keylessOrg).any fun name => decide (name ∈ g.1.byokRequiredDeployments)) =
      true := by
    decide +kernel
  obtain ⟨⟨b, state⟩, hgen, hplans⟩ := Option.any_eq_true _ _ |>.mp hrun
  obtain ⟨plan, hplan, hroutes⟩ := List.any_eq_true.mp hplans
  obtain ⟨name, hname, hreq⟩ := List.any_eq_true.mp hroutes
  obtain ⟨hbuild, hstate⟩ := Inputs.generation_eq_some hgen
  obtain ⟨route, hroute, d, hd, rfl⟩ := mem_routedIds hname
  exact ⟨b, plan, state, route, mixedRows_admitted, servesPools_reference, hbuild, hplan, hstate,
    hroute, d, hd, of_decide_eq_true hreq⟩

end mixed

end Experiential.Catalog
