import Experiential.Catalog.FailClosed

/-! # Provider policy and the provider that serves

An organization's policy names platform providers, as the rows of `model_providers` and the
matrix of data controls do. A deployment of the catalog carries the name of the runtime family
that its provider executes through, and that is the name the policy is asked about.
`provider_policy_enforced_iff`: the route an organization gets is made of the rungs whose rows
its policy permits, for every plan whose rows get the same verdict under both names, and only
for these. Azure and the hosts of the openai-compatible family go by another name
(`fireworks_refused`). -/

namespace Experiential.Catalog

/-! ### The rows behind a route -/

/-- Does the organization's policy permit the row's provider under its platform name? -/
def permitsPlatform (controls : Dict String ProviderDataControls) (policies : Dict String OrgProviderPolicy)
    (org : Uuid) (r : CatalogProviderRow) : Bool :=
  (policies.lookup org.text).all fun policy => policy.permits r.provider.text controls

/-- The row a deployment was made from: its own, or the one it is a variant of. -/
def Inputs.servingRow (i : Inputs) (d : ExactModelDeployment) : Option CatalogProviderRow :=
  i.rows.providers.find? fun r => decide (d.deploymentId = deploymentAlias r.id) ||
    i.rows.connections.any fun c => decide (d.deploymentId = variantAlias r.id c.id)

/-- Does the policy permit the provider of the deployment's row? -/
def Inputs.permitsServing (i : Inputs) (controls : Dict String ProviderDataControls)
    (policies : Dict String OrgProviderPolicy) (org : Uuid) (d : ExactModelDeployment) : Bool :=
  (i.servingRow d).any (permitsPlatform controls policies org)

/-- The policy leaves exactly the deployments that are permitted, in order, with the snapshot naming
them, and refuses the route when there is none. -/
structure PolicyEnforced (state : GatewayCatalogState) (org : String)
    (permits : ExactModelDeployment → Bool) (route : GatewayRoute) : Prop where
  returned : ∀ final, applyProviderPolicy route state org = .ok final →
    final.deployments = route.deployments.filter permits ∧
      final.snapshot.deploymentIds = final.deployments.map (·.deploymentId)
  refused : (∃ e, applyProviderPolicy route state org = .error e) ↔ route.deployments.filter permits = []

/-- The engine's package documents that a route's snapshot names the target's deployments. -/
def Engine.NamesTargets (e : Engine) (resolver : CatalogRouteResolver) : Prop :=
  ∀ a n catalogs authorization ids route, e.normalize a = some n →
    AList.lookup authorization.key catalogs = some n →
    a.poolDeployments authorization.targetPoolId = some ids →
    resolver catalogs authorization = .ok route → route.snapshot.deploymentIds = ids

theorem namesTargets_reference : referenceEngine.NamesTargets referenceResolver := by
  intro a n catalogs authorization ids route h hkey htarget hroute
  obtain ⟨pool, primary, fallbacks, hfound, hids, -, -⟩ := referenceResolver_route h hkey htarget
  rw [hfound] at hroute
  cases hroute
  exact hids

/-! ### Filters -/

section filters
variable {state : GatewayCatalogState} {org : String} {route : GatewayRoute}

/-- The snapshot names the deployments. -/
def GatewayRoute.Named (r : GatewayRoute) : Prop :=
  r.snapshot.deploymentIds = r.deployments.map (·.deploymentId)

theorem substituteOrgVariants_named (h : route.Named) (key : CatalogKey) :
    (substituteOrgVariants route state key org).Named := by
  unfold substituteOrgVariants
  split
  · exact h
  · simp only
    split_ifs
    · exact h
    · rfl

theorem applyProviderPolicy_named (h : route.Named) {final : GatewayRoute}
    (hfinal : applyProviderPolicy route state org = .ok final) : final.Named := by
  unfold applyProviderPolicy at hfinal
  split at hfinal
  · cases hfinal
    exact h
  · split at hfinal
    · cases hfinal
    · split_ifs at hfinal
      · cases hfinal
        exact h
      · cases hfinal
        rfl

theorem filter_eq_filter_iff {α : Type} {p q : α → Bool} {l : List α} :
    l.filter p = l.filter q ↔ ∀ a ∈ l, p a = q a := by
  constructor
  · intro h a ha
    have hiff : p a = true ↔ q a = true := by
      constructor
      · intro hp
        exact (List.mem_filter.mp (h ▸ List.mem_filter.mpr ⟨ha, hp⟩)).2
      · intro hq
        exact (List.mem_filter.mp (h.symm ▸ List.mem_filter.mpr ⟨ha, hq⟩)).2
    exact Bool.eq_iff_iff.mpr hiff
  · exact List.filter_congr

/-- The policy is enforced on a predicate exactly when its own agrees with it. -/
theorem policyEnforced_iff (h : route.Named) {permits : ExactModelDeployment → Bool} :
    PolicyEnforced state org permits route ↔
      ∀ d ∈ route.deployments, permitted state org d = permits d := by
  rw [← filter_eq_filter_iff]
  rcases @applyProviderPolicy_eq state route org with ⟨final, hok, hkept⟩ | ⟨⟨e, he⟩, hnone⟩
  · constructor
    · intro henforced
      rw [← hkept]
      exact (henforced.returned final hok).1
    · intro hsame
      rw [hsame] at hkept
      refine ⟨?_, ?_⟩
      · intro final' hok'
        rw [hok] at hok'
        cases hok'
        exact ⟨hkept, applyProviderPolicy_named h hok⟩
      · rw [← hkept]
        constructor
        · rintro ⟨e, he⟩
          rw [hok] at he
          cases he
        · intro hnil
          exact absurd hnil (List.cons_ne_nil _ _)
  · constructor
    · intro henforced
      rw [hnone, henforced.refused.mp ⟨e, he⟩]
    · intro hsame
      refine ⟨?_, fun _ => hsame ▸ hnone, fun _ => ⟨e, he⟩⟩
      intro final hok
      rw [he] at hok
      cases hok

end filters

/-! ### Verdicts on rows -/

section rows
variable {i : Inputs} {b : GatewayCatalogBuild} {plan : AliasActivationPlan}
  {state : GatewayCatalogState} {resolver : CatalogRouteResolver}
  {environment release : String → Option String} {previous : Option GatewayCatalogState}
  {controls : Dict String ProviderDataControls} {policies : Dict String OrgProviderPolicy}
  {catalog : BuiltCatalog} {s : Assembler} {r : CatalogProviderRow} {d : ExactModelDeployment}

/-- The row of a deployment is the one that its name was made from. -/
theorem servingRow_eq_some (ha : i.rows.Admitted) (hr : r ∈ i.rows.providers)
    (hname : d.deploymentId = deploymentAlias r.id ∨
      ∃ c ∈ i.rows.connections, d.deploymentId = variantAlias r.id c.id) : i.servingRow d = some r := by
  have hmatches : ∀ r' : CatalogProviderRow, (decide (d.deploymentId = deploymentAlias r'.id) ||
      i.rows.connections.any fun c => decide (d.deploymentId = variantAlias r'.id c.id)) = true ↔
      d.deploymentId = deploymentAlias r'.id ∨
        ∃ c ∈ i.rows.connections, d.deploymentId = variantAlias r'.id c.id := by
    intro r'
    simp
  have hsome : (i.servingRow d).isSome := by
    unfold Inputs.servingRow
    rw [List.find?_isSome]
    exact ⟨r, hr, (hmatches r).mpr hname⟩
  obtain ⟨r', hr'⟩ := Option.isSome_iff_exists.mp hsome
  have hmem := List.mem_of_find?_eq_some hr'
  have hfound := hr'
  unfold Inputs.servingRow at hfound
  have hprop := (hmatches r').mp (List.find?_eq_some_iff_append.mp hfound).1
  rw [hr']
  have hid : r'.id = r.id := by
    rcases hname with h | ⟨c, -, h⟩
    · rcases hprop with h' | ⟨c', -, h'⟩
      · exact deploymentAlias_inj (h'.symm.trans h)
      · exact absurd (h.symm.trans h') (deploymentAlias_ne_variantAlias _ _ _)
    · rcases hprop with h' | ⟨c', -, h'⟩
      · exact absurd (h'.symm.trans h) (deploymentAlias_ne_variantAlias _ _ _)
      · exact (variantAlias_inj (h'.symm.trans h)).1
  rw [ha.provider_eq hmem hr hid]

/-- A rung's row is the row of what serves in its place. -/
theorem servingRow_served (ha : i.rows.Admitted) (he : i.engine.ServesPools resolver)
    (hb : Built i b catalog s) {key : CatalogKey} (hs : Serves state key b catalog)
    {m : CatalogModelRow} (hrow : i.RowOf m r) (hd : d ∈ catalog.normalized.deployments)
    (hid : d.deploymentId = deploymentAlias r.id) (org : Uuid) :
    i.servingRow (served state key org.text d) = some r := by
  obtain ⟨-, hname⟩ := served_spec he hb hs org.text hd
  rw [hid] at hname
  refine servingRow_eq_some ha hrow.row ?_
  rw [hname]
  cases hv : (s.variants.getOrEmpty org.text).lookup (deploymentAlias r.id) with
  | none => exact .inl rfl
  | some variant =>
      obtain ⟨m', r', c, -, hc, -, -, hn, rfl⟩ := (hb.sound.variants _ _ _ hv).1.inv
      rw [Option.getD_some, ← deploymentAlias_inj hn]
      exact .inr ⟨c, hc.connection, rfl⟩

/-- **The policy of the provider that serves.** The resolver's route of a plan, with the
organization's variants, is filtered by the verdict on its rows' providers exactly when these get
the same verdict under the name of their runtime family. -/
theorem provider_policy_enforced_iff (ha : i.rows.Admitted) (he : i.engine.ServesPools resolver)
    (hnames : i.engine.NamesTargets resolver) (hbuild : buildGatewayCatalog i = .ok b)
    (hplan : plan ∈ b.aliasPlans)
    (hstate : buildCatalogState b environment release previous controls policies = .ok state)
    (org : Uuid) :
    ∃ base, resolver state.routeCatalogs (plan.authorization org) = .ok base ∧
      (resolveRoute resolver state (plan.authorization org) = do
        let final ← applyProviderPolicy
          (substituteOrgVariants base state (plan.authorization org).key org.text) state org.text
        requireByokConnection final b.byokRequiredDeployments
        return final) ∧
      (PolicyEnforced state org.text (i.permitsServing controls policies org)
          (substituteOrgVariants base state (plan.authorization org).key org.text) ↔
        ∀ r ∈ i.rungs plan, permitsRow controls policies org r = permitsPlatform controls policies org r) := by
  obtain ⟨catalog, s, base, -, hb, hs, hbase, hids, hmem⟩ := exists_base ha he hbuild hplan hstate org
  have horg : organizationUuid (plan.authorization org).organizationId = org.text :=
    organizationUuid_artifactId org.text
  refine ⟨base, hbase, ?_, ?_⟩
  · unfold resolveRoute
    rw [hbase, horg, hs.required]
    rfl
  · have hnamed : base.Named := (hnames _ _ _ _ _ _ hb.normalized hs.route (hb.poolDeployments hplan) hbase).trans
      hids.symm
    rw [policyEnforced_iff (substituteOrgVariants_named hnamed _), deployments_substituteOrgVariants]
    -- a rung, what serves in its place, and the verdicts on both
    have hverdicts : ∀ d ∈ base.deployments, ∀ (m : CatalogModelRow) (r : CatalogProviderRow),
        i.RowOf m r → d.deploymentId = deploymentAlias r.id →
        (s.providerByAlias.lookup d.deploymentId).isSome →
        permitted state org.text (served state (plan.authorization org).key org.text d) =
            permitsRow controls policies org r ∧
          i.permitsServing controls policies org
            (served state (plan.authorization org).key org.text d) =
            permitsPlatform controls policies org r := by
      intro d hd m r hrow hid hin
      rw [hid] at hin
      refine ⟨(rungServed ha he hstate hb hs hrow hin (hmem d hd) hid org).permitted, ?_⟩
      unfold Inputs.permitsServing
      rw [servingRow_served ha he hb hs hrow (hmem d hd) hid org, Option.any_some]
    constructor
    · intro hsame r hr
      obtain ⟨hrmem, hplanned⟩ := List.mem_filter.mp hr
      have hplanned := of_decide_eq_true hplanned
      obtain ⟨m, r', hrow, -, hid, hin⟩ := hb.canonical hplan hplanned
      obtain rfl := ha.provider_eq hrmem hrow.row (deploymentAlias_inj hid)
      rw [← hids] at hplanned
      obtain ⟨d, hd, hid'⟩ := List.mem_map.mp hplanned
      rw [← hid'] at hin
      obtain ⟨hfamily, hplatform⟩ := hverdicts d hd m r hrow hid' hin
      rw [← hfamily, ← hplatform]
      exact hsame _ (List.mem_map_of_mem hd)
    · intro hsame d' hd'
      obtain ⟨d, hd, rfl⟩ := List.mem_map.mp hd'
      have hplanned : d.deploymentId ∈ plan.targetDeploymentIds := by
        rw [← hids]
        exact List.mem_map_of_mem hd
      obtain ⟨m, r, hrow, -, hid, hin⟩ := hb.canonical hplan hplanned
      obtain ⟨hfamily, hplatform⟩ := hverdicts d hd m r hrow hid hin
      rw [hfamily, hplatform]
      refine hsame r (List.mem_filter.mpr ⟨hrow.row, ?_⟩)
      rw [← hid]
      exact decide_eq_true hplanned

end rows

/-! ### A provider of another name -/

section named

/-- The build of a worker with the inputs, and its first generation under the policies. -/
def Inputs.governed (i : Inputs) (policies : Dict String OrgProviderPolicy) :
    Option (GatewayCatalogBuild × GatewayCatalogState) := do
  let b ← (buildGatewayCatalog i).toOption
  let state ← (buildCatalogState b i.environment (fun _ => some "customer-key") none ∅ policies).toOption
  return (b, state)

theorem Inputs.governed_eq_some {i : Inputs} {policies : Dict String OrgProviderPolicy}
    {b : GatewayCatalogBuild} {state : GatewayCatalogState} (h : i.governed policies = some (b, state)) :
    buildGatewayCatalog i = .ok b ∧
      buildCatalogState b i.environment (fun _ => some "customer-key") none ∅ policies = .ok state := by
  unfold Inputs.governed at h
  simp only [Option.bind_eq_bind, Option.bind_eq_some_iff, Option.pure_def, Option.some.injEq,
    Prod.mk.injEq, toOption_eq_some] at h
  obtain ⟨b', hb, state', hstate, rfl, rfl⟩ := h
  exact ⟨hb, hstate⟩

/-- An organization's allowlist. -/
def allowing (org : Uuid) (providers : List String) : Dict String OrgProviderPolicy :=
  .ofList (·.orgId) [⟨org.text, some providers, false, false⟩]

/-- OpenAI and OpenRouter go by their own names. -/
theorem provider_policy_enforced_iff_sample : ∃ b plan state base,
    mixedInputs.governed (allowing keyedOrg ["openai"]) = some (b, state) ∧ plan ∈ b.aliasPlans ∧
    referenceResolver state.routeCatalogs (plan.authorization keyedOrg) = .ok base ∧
    PolicyEnforced state keyedOrg.text
      (mixedInputs.permitsServing ∅ (allowing keyedOrg ["openai"]) keyedOrg)
      (substituteOrgVariants base state (plan.authorization keyedOrg).key keyedOrg.text) := by
  have hrun : ((mixedInputs.governed (allowing keyedOrg ["openai"])).any fun g =>
      g.1.aliasPlans.any fun _ => true) = true := by decide +kernel
  obtain ⟨⟨b, state⟩, hgen, hplans⟩ := Option.any_eq_true _ _ |>.mp hrun
  obtain ⟨plan, hplan, -⟩ := List.any_eq_true.mp hplans
  obtain ⟨hbuild, hstate⟩ := Inputs.governed_eq_some hgen
  obtain ⟨base, hbase, -, hiff⟩ := provider_policy_enforced_iff mixedRows_admitted servesPools_reference
    namesTargets_reference hbuild hplan hstate keyedOrg
  refine ⟨b, plan, state, base, hgen, hplan, hbase, hiff.mpr ?_⟩
  intro r hr
  rcases List.mem_cons.mp (List.mem_filter.mp hr).1 with rfl | hr
  · decide +kernel
  · obtain rfl := List.mem_singleton.mp hr
    decide +kernel

/-- One platform-funded Fireworks rung. -/
def fireworksInputs : Inputs where
  rows :=
    { models := [mixedModel]
      providers := [{ hostedRow with provider := .fireworks }]
      waterfalls := []
      connections := []
      houseOrgId := none }
  environment := fun name => if name = "FIREWORKS_API_KEY" then some "platform-key" else none
  releaseProbe := some fun _ => true
  engine := referenceEngine
  azureConnectionConfig := fun _ => none

theorem fireworksInputs_admitted : fireworksInputs.rows.Admitted := by
  have hpublic : ∀ m ∈ fireworksInputs.rows.models, m.owningOrgId = none := by decide
  have hshared : ∀ r ∈ fireworksInputs.rows.providers,
      r.owningOrgId = none ∧ r.providerConnectionId = none := by decide
  constructor
  case pin_requires_org =>
    intro r hr hpin
    exact absurd (hshared r hr).2 hpin
  case connection_pin_fk =>
    intro r hr p hp
    rw [(hshared r hr).2] at hp
    cases hp
  case providers_guard_tenancy =>
    intro r hr m hm hid o ho
    rw [hpublic m hm] at ho
    cases ho
  case waterfalls_guard_chain =>
    intro g hg
    cases hg
  case waterfalls_guard_rung =>
    intro g hg
    cases hg
  all_goals decide +kernel

/-- An organization that allows Fireworks is refused a route served by Fireworks. -/
theorem fireworks_refused : ∃ b plan state base, fireworksInputs.rows.Admitted ∧
    referenceEngine.ServesPools referenceResolver ∧ referenceEngine.NamesTargets referenceResolver ∧
    fireworksInputs.governed (allowing keyedOrg ["fireworks"]) = some (b, state) ∧ plan ∈ b.aliasPlans ∧
    referenceResolver state.routeCatalogs (plan.authorization keyedOrg) = .ok base ∧
    (∀ d ∈ (substituteOrgVariants base state (plan.authorization keyedOrg).key keyedOrg.text).deployments,
      fireworksInputs.permitsServing ∅ (allowing keyedOrg ["fireworks"]) keyedOrg d = true) ∧
    ∃ e, applyProviderPolicy
      (substituteOrgVariants base state (plan.authorization keyedOrg).key keyedOrg.text) state
      keyedOrg.text = .error e := by
  have hrun : ((fireworksInputs.governed (allowing keyedOrg ["fireworks"])).any fun g =>
      g.1.aliasPlans.any fun plan =>
        (referenceResolver g.2.routeCatalogs (plan.authorization keyedOrg)).toOption.any fun base =>
          let route := substituteOrgVariants base g.2 (plan.authorization keyedOrg).key keyedOrg.text
          (route.deployments.all fun d =>
            fireworksInputs.permitsServing ∅ (allowing keyedOrg ["fireworks"]) keyedOrg d) &&
            (applyProviderPolicy route g.2 keyedOrg.text).toOption.isNone) = true := by decide +kernel
  obtain ⟨⟨b, state⟩, hgen, hplans⟩ := Option.any_eq_true _ _ |>.mp hrun
  obtain ⟨plan, hplan, hroute⟩ := List.any_eq_true.mp hplans
  obtain ⟨base, hbase, hroute⟩ := Option.any_eq_true _ _ |>.mp hroute
  obtain ⟨hpermits, hrefused⟩ := Bool.and_eq_true_iff.mp hroute
  refine ⟨b, plan, state, base, fireworksInputs_admitted, servesPools_reference, namesTargets_reference,
    hgen, hplan, toOption_eq_some.mp hbase, List.all_eq_true.mp hpermits, ?_⟩
  cases happly : applyProviderPolicy
      (substituteOrgVariants base state (plan.authorization keyedOrg).key keyedOrg.text) state
      keyedOrg.text with
  | error e => exact ⟨e, rfl⟩
  | ok final =>
      rw [happly] at hrefused
      cases hrefused

end named

end Experiential.Catalog
