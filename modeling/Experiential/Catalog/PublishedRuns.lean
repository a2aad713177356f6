import Experiential.Lib.Pool
import Experiential.Catalog.Watermark

/-! # Calls of `published_metadata` between catalog swaps

`/v1/models` shows beside a model the rates of the deployment that serves it. They come from
`listingPricingByAlias`, one dictionary per catalog state, and the resolver keeps the last one it made in
two attributes: the state it is of and the dictionary. Nothing guards the two together, so each read and
write of one of them is a step of its own, between which the refresher may swap states and other calls
may read and write the attributes. `published_prices_served`: as long as no call replaces a dictionary
that another one of another state has yet to read, a call answers with the rates of the state that it
read.

`publishedStep` lets the refresher swap a state, a call begin, or a call make its next read or write of
an attribute. `Coherent` is the invariant: the dictionary is the one of every state whose call has yet
to read it, and the one of the state beside it unless a call is about to write that state. -/

namespace Experiential.Catalog

/-! ### The listing of a state -/

/-- `PricedAliasMetadata`: only price fields are published. -/
structure PricedAliasMetadata where
  inputMicroUsdPerMillionTokens : Option Nat
  outputMicroUsdPerMillionTokens : Option Nat
  cachedInputMicroUsdPerMillionTokens : Option Nat
  reasoningMicroUsdPerMillionTokens : Option Nat
deriving DecidableEq

/-- What a deployment publishes: nothing when it declares no rate. -/
def GatewayTokenPrices.metadata (prices : GatewayTokenPrices) : Option PricedAliasMetadata :=
  if prices.input = none ∧ prices.output = none ∧ prices.cachedInput = none ∧ prices.reasoning = none then none
  else some ⟨prices.input, prices.output, prices.cachedInput, prices.reasoning⟩

/-- The first deployment of a plan's pool that the state has under the plan's key. -/
def GatewayCatalogState.primary (state : GatewayCatalogState) (catalog : BuiltCatalog)
    (plan : AliasActivationPlan) : Option ExactModelDeployment :=
  let deployments := state.deploymentsByKey.getOrEmpty (plan.revisionId, catalog.catalogSha256)
  let poolsById : Dict String ExactModelPool := .ofList (·.poolId) catalog.normalized.pools
  let candidateIds := match poolsById.lookup plan.targetPoolId with
    | none => plan.targetDeploymentIds
    | some pool => pool.deploymentIds
  candidateIds.findSome? deployments.lookup

/-- `listing_pricing_by_alias`. -/
def listingPricingByAlias (state : GatewayCatalogState) : Dict (String × String) PricedAliasMetadata :=
  match state.build.catalog with
  | none => ∅
  | some catalog => .collect (fun plan : AliasActivationPlan => (plan.aliasName, plan.revisionId))
      (fun plan => (state.primary catalog plan).bind (·.prices.metadata)) state.build.aliasPlans

/-- The rates an answer shows; what it does not show is unknown. -/
def publishedRates : Option PricedAliasMetadata → GatewayTokenPrices
  | none => ⟨none, none, none, none⟩
  | some m =>
      { input := m.inputMicroUsdPerMillionTokens
        cachedInput := m.cachedInputMicroUsdPerMillionTokens
        output := m.outputMicroUsdPerMillionTokens
        reasoning := m.reasoningMicroUsdPerMillionTokens }

theorem publishedRates_metadata (prices : GatewayTokenPrices) : publishedRates prices.metadata = prices := by
  unfold GatewayTokenPrices.metadata
  split_ifs with h
  · obtain ⟨input, cachedInput, output, reasoning⟩ := prices
    obtain ⟨rfl, rfl, rfl, rfl⟩ := h
    rfl
  · rfl

/-! ### The served price -/

/-- What the engine's package documents of a normalized catalog: every target has a pool of its own,
no two deployments share a name, and a deployment carries its record's billing source. -/
structure Engine.ListsPools (e : Engine) : Prop where
  pools : ∀ a n, e.normalize a = some n → ∀ target ids, a.poolDeployments target = some ids →
    ∃ pool ∈ n.pools, pool.poolId = target ∧ pool.deploymentIds = ids
  poolIds : ∀ a n, e.normalize a = some n → (n.pools.map (·.poolId)).Nodup
  deploymentIds : ∀ a n, e.normalize a = some n → (n.deployments.map (·.deploymentId)).Nodup
  billing : ∀ a n, e.normalize a = some n → ∀ d ∈ n.deployments, ∃ record,
    a.models.lookup d.deploymentId = some record ∧ d.billingSource = record.billingSource

theorem listsPools_reference : referenceEngine.ListsPools where
  pools := by
    intro a n h target ids htarget
    obtain ⟨-, rfl⟩ := a.referenceNormalize_eq_some h
    exact exists_pool htarget
  poolIds := by
    intro a n h
    obtain ⟨hc, rfl⟩ := a.referenceNormalize_eq_some h
    exact hc.named
  deploymentIds := by
    intro a n h
    obtain ⟨-, rfl⟩ := a.referenceNormalize_eq_some h
    rw [List.map_filterMap]
    refine List.Nodup.filterMap ?_ a.models.keys_nodup
    intro name name' id hid hid'
    obtain ⟨d, hd, rfl⟩ := Option.map_eq_some_iff.mp hid
    obtain ⟨d', hd', hsame⟩ := Option.map_eq_some_iff.mp hid'
    obtain ⟨-, -, -, -, hname, -⟩ := ModelCatalog.deploymentOf_eq_some hd
    obtain ⟨-, -, -, -, hname', -⟩ := ModelCatalog.deploymentOf_eq_some hd'
    rw [← hname, ← hname', hsame]
  billing := by
    intro a n h d hd
    obtain ⟨-, rfl⟩ := a.referenceNormalize_eq_some h
    obtain ⟨name, -, hname⟩ := List.mem_filterMap.mp hd
    unfold ModelCatalog.deploymentOf at hname
    simp only [Option.bind_eq_bind, Option.bind_eq_some_iff, Option.pure_def, Option.some.injEq] at hname
    obtain ⟨record, hrecord, config, -, rfl⟩ := hname
    exact ⟨record, hrecord, rfl⟩

/-- What the engine's package documents about pools: every target has its one pool, deployments have ids
of their own, and a known key and target give the deployments of the pool in order. The ids of a
normalized catalog need not be the aliases that the deployments are authored under. -/
structure Engine.RoutesPools (e : Engine) (resolver : CatalogRouteResolver) : Prop where
  pools : ∀ a n, e.normalize a = some n → ∀ target ids, a.poolDeployments target = some ids →
    ∃ pool ∈ n.pools, pool.poolId = target
  poolIds : ∀ a n, e.normalize a = some n → (n.pools.map (·.poolId)).Nodup
  deploymentIds : ∀ a n, e.normalize a = some n → (n.deployments.map (·.deploymentId)).Nodup
  resolves : ∀ a n catalogs authorization ids, e.normalize a = some n →
    AList.lookup authorization.key catalogs = some n →
    a.poolDeployments authorization.targetPoolId = some ids →
    ∀ pool ∈ n.pools, pool.poolId = authorization.targetPoolId →
    ∃ route, resolver catalogs authorization = .ok route ∧
      route.deployments.map (·.deploymentId) = pool.deploymentIds ∧ ∀ d ∈ route.deployments, d ∈ n.deployments

theorem routesPools_reference : referenceEngine.RoutesPools referenceResolver where
  pools a n h target ids htarget := by
    obtain ⟨pool, hpool, hname, -⟩ := listsPools_reference.pools a n h target ids htarget
    exact ⟨pool, hpool, hname⟩
  poolIds := listsPools_reference.poolIds
  deploymentIds := listsPools_reference.deploymentIds
  resolves a n catalogs authorization ids h hkey htarget pool hpool hname := by
    obtain ⟨pool', hpool', hname', hids⟩ := listsPools_reference.pools a n h _ ids htarget
    obtain rfl := List.inj_on_of_nodup_map (listsPools_reference.poolIds a n h) hpool hpool' (hname.trans hname'.symm)
    obtain ⟨routed, primary, fallbacks, hroute, -, hmap, hmem⟩ := referenceResolver_route h hkey htarget
    exact ⟨_, hroute, hmap.trans hids.symm, hmem⟩

/-- The digest of a revision tells the aliases of one catalog apart. -/
def Engine.SeparatesAliases (e : Engine) : Prop :=
  ∀ p q : RevisionPayload, p.catalogSha256 = q.catalogSha256 → e.revisionSha256 p = e.revisionSha256 q →
    p.aliasId = q.aliasId

theorem separatesAliases_reference : referenceEngine.SeparatesAliases := by
  intro p q hsha h
  have hdigest : p.aliasId ++ p.catalogSha256 = q.aliasId ++ q.catalogSha256 := h
  rw [hsha] at hdigest
  exact String.append_left_inj _ |>.mp hdigest

/-- The organization has no variants and no policy. -/
def GatewayCatalogState.PlainCaller (state : GatewayCatalogState) (key : CatalogKey) (org : Uuid) : Prop :=
  (state.variantsByKey.getOrEmpty key).getOrEmpty org.text = ∅ ∧ state.providerPolicies.lookup org.text = none

/-- The answer shows the rates of the first deployment of the plan's route in the state. -/
def ShowsServedPrice (resolver : CatalogRouteResolver) (state : GatewayCatalogState) (plan : AliasActivationPlan)
    (answer : Option PricedAliasMetadata) : Prop :=
  ∀ org : Uuid, ∃ base, resolver state.routeCatalogs (plan.authorization org) = .ok base ∧
    publishedRates answer = base.deployment.prices ∧
    (state.PlainCaller (plan.authorization org).key org → ∀ route,
      resolveRoute resolver state (plan.authorization org) = .ok route →
        publishedRates answer = route.deployment.prices)

/-- What a call for an alias and a revision has to answer: the price of the plan with this name and
revision, and nothing when the state has none. -/
structure PublishesServedPrice (resolver : CatalogRouteResolver) (state : GatewayCatalogState)
    (aliasName revisionId : String) (answer : Option PricedAliasMetadata) : Prop where
  planned : ∀ plan ∈ state.build.aliasPlans, plan.aliasName = aliasName → plan.revisionId = revisionId →
    ShowsServedPrice resolver state plan answer
  unplanned : (∀ plan ∈ state.build.aliasPlans, plan.aliasName = aliasName → plan.revisionId ≠ revisionId) →
    answer = none

/-- The content a plan's revision is addressed by. -/
def AliasActivationPlan.payload (plan : AliasActivationPlan) : RevisionPayload where
  aliasId := plan.aliasId
  aliasName := plan.aliasName
  orgId := plan.orgId
  poolId := plan.targetPoolId
  deploymentIds := plan.targetDeploymentIds
  catalogSha256 := plan.catalogSha256
  providerConnectionRevisions := plan.providerConnectionRevisions
  certification := plan.certification
  certificationOrder := plan.certificationOrder
  refusalFailover := plan.refusalFailover

/-- A generation of a worker with the engine. -/
def GenerationOf (engine : Engine) (state : GatewayCatalogState) : Prop :=
  ∃ (i : Inputs) (environment release : String → Option String) (previous : Option GatewayCatalogState)
    (controls : Dict String ProviderDataControls) (policies : Dict String OrgProviderPolicy),
    i.engine = engine ∧ i.rows.Admitted ∧ buildGatewayCatalog i = .ok state.build ∧
      buildCatalogState state.build environment release previous controls policies = .ok state

section listing
variable {engine : Engine} {resolver : CatalogRouteResolver} {state : GatewayCatalogState}
  {plan : AliasActivationPlan} {catalog : BuiltCatalog} {i : Inputs} {s : Assembler}

/-- A caller without variants and policy is served by the engine's route. -/
theorem plainCaller_route {org : Uuid} {base route : GatewayRoute}
    (hplain : state.PlainCaller (plan.authorization org).key org)
    (hbase : resolver state.routeCatalogs (plan.authorization org) = .ok base)
    (hroute : resolveRoute resolver state (plan.authorization org) = .ok route) :
    route.deployments = base.deployments := by
  have hleft := (resolveRoute_eq_ok hbase).1 route hroute
  have horg : organizationUuid (plan.authorization org).organizationId = org.text :=
    organizationUuid_artifactId org.text
  rw [hleft, horg, servedDeployments]
  have hserved : served state (plan.authorization org).key org.text = id := by
    funext d
    rw [served, hplain.1]
    rfl
  have hpermitted : ∀ d ∈ base.deployments, permitted state org.text d = true := fun d _ => by
    rw [permitted, hplain.2]
  rw [hserved, List.map_id, List.filter_eq_self.mpr hpermitted]

theorem Built.plan_eq (hdigest : i.engine.SeparatesAliases)
    {b : GatewayCatalogBuild} (hb : Built i b catalog s) {plan' : AliasActivationPlan} (hp : plan ∈ b.aliasPlans)
    (hp' : plan' ∈ b.aliasPlans) (hrevision : plan.revisionId = plan'.revisionId) : plan = plan' := by
  have halias : plan.aliasId = plan'.aliasId := by
    obtain ⟨draft, -, rfl⟩ := hb.plans plan hp
    obtain ⟨draft', -, rfl⟩ := hb.plans plan' hp'
    exact hdigest (finalizePlan i s catalog.catalogSha256 draft).payload
      (finalizePlan i s catalog.catalogSha256 draft').payload rfl (String.append_right_inj _ |>.mp hrevision)
  exact List.inj_on_of_nodup_map hb.aliasIds hp hp' halias

/-- The candidate that the listing finds is the first deployment of the engine's route. -/
theorem primary_eq (he : i.engine.RoutesPools resolver) (hb : Built i state.build catalog s)
    (hs : ∀ key ∈ state.build.keys, Serves state key state.build catalog)
    (hc : state.build.catalog = some catalog) (hp : plan ∈ state.build.aliasPlans) (org : Uuid) :
    ∃ base, resolver state.routeCatalogs (plan.authorization org) = .ok base ∧
      state.primary catalog plan = some base.deployment := by
  have hkey := hb.key_mem hc hp org
  have hserves := hs _ hkey
  obtain ⟨pool, hpool, hname⟩ := he.pools _ _ hb.normalized _ _ (hb.poolDeployments hp)
  obtain ⟨base, hbase, hids, hmem⟩ := he.resolves _ _ state.routeCatalogs (plan.authorization org) _
    hb.normalized hserves.route (hb.poolDeployments hp) pool hpool hname
  refine ⟨base, hbase, ?_⟩
  have hsha : (plan.authorization org).key = (plan.revisionId, catalog.catalogSha256) := by
    obtain ⟨draft, -, rfl⟩ := hb.plans plan hp
    rfl
  have hfound : (Dict.ofList (·.poolId) catalog.normalized.pools).lookup plan.targetPoolId = some pool := by
    rw [← hname]
    exact Dict.lookup_ofList_of_nodup (he.poolIds _ _ hb.normalized) hpool
  have hprimary : (Dict.ofList (·.deploymentId) catalog.normalized.deployments).lookup base.deployment.deploymentId =
      some base.deployment :=
    Dict.lookup_ofList_of_nodup (he.deploymentIds _ _ hb.normalized) (hmem _ List.mem_cons_self)
  rw [GatewayCatalogState.primary, ← hsha, hserves.deployments]
  simp only [hfound]
  rw [← hids, GatewayRoute.deployments, List.map_cons, List.findSome?_cons, hprimary]

/-- **The listing of a generation is what the generation serves.** -/
theorem publishesServedPrice_listing (he : engine.RoutesPools resolver) (hdigest : engine.SeparatesAliases)
    (hstate : GenerationOf engine state) (aliasName revisionId : String) :
    PublishesServedPrice resolver state aliasName revisionId
      ((listingPricingByAlias state).lookup (aliasName, revisionId)) := by
  obtain ⟨i, environment, release, previous, controls, policies, rfl, ha, hbuild, hmade⟩ := hstate
  obtain ⟨hempty, hbuilt⟩ := buildGatewayCatalog_spec ha hbuild
  unfold listingPricingByAlias
  cases hc : state.build.catalog with
  | none =>
      have hplans := hempty hc
      constructor
      · intro plan hp
        rw [hplans] at hp
        exact absurd hp List.not_mem_nil
      · intro _
        rfl
  | some catalog =>
      obtain ⟨s, hb⟩ := hbuilt catalog hc
      have hkeys : ∀ p ∈ state.build.aliasPlans, ∀ q ∈ state.build.aliasPlans,
          (p.aliasName, p.revisionId) = (q.aliasName, q.revisionId) →
          (state.primary catalog p).bind (·.prices.metadata) = (state.primary catalog q).bind (·.prices.metadata) :=
        fun p hp q hq h => by rw [hb.plan_eq hdigest hp hq (congrArg Prod.snd h)]
      have hserves : ∀ key ∈ state.build.keys, Serves state key state.build catalog := fun key hkey =>
        buildCatalogState_serves hc hkey hmade
      constructor
      · rintro plan hp rfl rfl org
        obtain ⟨base, hbase, hprimary⟩ := primary_eq he hb hserves hc hp org
        have hlookup : (Dict.collect (fun plan : AliasActivationPlan => (plan.aliasName, plan.revisionId))
            (fun plan => (state.primary catalog plan).bind (·.prices.metadata)) state.build.aliasPlans).lookup
              (plan.aliasName, plan.revisionId) = base.deployment.prices.metadata := by
          refine Option.ext fun m => ?_
          rw [Dict.lookup_collect_eq_some hkeys]
          constructor
          · rintro ⟨q, hq, hkey, hm⟩
            rwa [hb.plan_eq hdigest hq hp (congrArg Prod.snd hkey), hprimary] at hm
          · intro hm
            exact ⟨plan, hp, rfl, by rw [hprimary]; exact hm⟩
        have hrates := (congrArg publishedRates hlookup).trans (publishedRates_metadata _)
        refine ⟨base, hbase, hrates, ?_⟩
        intro hplain route hroute
        have hsame := plainCaller_route hplain hbase hroute
        rw [(List.cons.inj hsame).1]
        exact hrates
      · intro hnone
        rw [Option.eq_none_iff_forall_ne_some]
        intro m hm
        obtain ⟨plan, hp, hkey, -⟩ := (Dict.lookup_collect_eq_some hkeys).mp hm
        exact hnone plan hp (congrArg Prod.fst hkey) (congrArg Prod.snd hkey)

end listing

/-! ### The resolver's attributes -/

/-- The refresher's states, each in its place, and the two attributes of the resolver; a state is its
place, for the source compares states by identity. -/
structure ListingCache where
  generations : List GatewayCatalogState
  listingPricingState : Option ℕ
  listingPricing : Dict (String × String) PricedAliasMetadata

def ListingCache.fresh : ListingCache := ⟨[], none, ∅⟩

/-- `state_for_key_if_loaded`: the current state and its place. -/
def ListingCache.stateForKeyIfLoaded (c : ListingCache) (key : CatalogKey) : Option (ℕ × GatewayCatalogState) :=
  match c.generations.getLast? with
  | none => none
  | some state =>
      if (state.routeCatalogs.lookup key).isSome then some (c.generations.length - 1, state) else none

/-- `listing_pricing_by_alias` of the state at a place. -/
def ListingCache.listing (c : ListingCache) (n : ℕ) : Dict (String × String) PricedAliasMetadata :=
  match c.generations[n]? with
  | none => ∅
  | some state => listingPricingByAlias state

/-- Where a call is; `n` is the state it has read. -/
inductive ListingPhase where
  | look
  | check (n : ℕ)
  | rebuild (n : ℕ)
  | mark (n : ℕ)
  | get (n : ℕ)
  | answered (read : Option ℕ) (answer : Option PricedAliasMetadata)

/-- A call of `published_metadata`. -/
structure ListingCall where
  aliasName : String
  revisionId : String
  catalogSha256 : String
  phase : ListingPhase

/-- `CatalogRouteResolver.published_metadata`. -/
abbrev EngineListing := Dict CatalogKey NormalizedGatewayCatalog → String → CatalogKey → Option PricedAliasMetadata

/-- The next read or write of a call. -/
def ListingCall.advance (published : EngineListing) (c : ListingCache) (x : ListingCall) : ListingCache × ListingCall :=
  match x.phase with
  | .look =>
      let key := (x.revisionId, x.catalogSha256)
      match c.stateForKeyIfLoaded key with
      | none => (c, { x with phase := .answered none none })
      | some (n, state) =>
          match published state.routeCatalogs x.aliasName key with
          | some metadata => (c, { x with phase := .answered (some n) (some metadata) })
          | none => (c, { x with phase := .check n })
  | .check n =>
      (c, { x with phase := if c.listingPricingState = some n then .get n else .rebuild n })
  | .rebuild n => ({ c with listingPricing := c.listing n }, { x with phase := .mark n })
  | .mark n => ({ c with listingPricingState := some n }, { x with phase := .get n })
  | .get n =>
      (c, { x with phase := .answered (some n) (c.listingPricing.lookup (x.aliasName, x.revisionId)) })
  | .answered _ _ => (c, x)

/-- What a refresh reads and is given. -/
structure CatalogSwap where
  rows : PlatformCatalogRows
  environment : String → Option String
  releaseProbe : Option (String → Bool)
  azureConnectionConfig : String → Option AzureConnectionConfig
  release : String → Option String
  controls : Dict String ProviderDataControls
  policies : Dict String OrgProviderPolicy

def CatalogSwap.inputs (swap : CatalogSwap) (engine : Engine) : Inputs :=
  ⟨swap.rows, swap.environment, swap.releaseProbe, engine, swap.azureConnectionConfig⟩

/-- The state a refresh builds behind the current one. -/
def CatalogSwap.generation (swap : CatalogSwap) (engine : Engine) (previous : Option GatewayCatalogState) :
    Option GatewayCatalogState :=
  match buildGatewayCatalog (swap.inputs engine) with
  | .error _ => none
  | .ok build =>
      (buildCatalogState build swap.environment swap.release previous swap.controls swap.policies).toOption

/-- A refresh: the built state becomes the current one; a failed build changes nothing. -/
def ListingCache.swap (engine : Engine) (swap : CatalogSwap) (c : ListingCache) : ListingCache :=
  { c with generations := c.generations ++ (swap.generation engine c.generations.getLast?).toList }

abbrev ListingPool := Pool ListingCache ListingCall
abbrev ListingStep := PoolStep (String × CatalogKey) Unit CatalogSwap

section
variable (engine : Engine) (published : EngineListing)

def publishedStep : ListingPool → ListingStep → ListingPool :=
  poolStep (fun request => ⟨request.1, request.2.1, request.2.2, .look⟩) (fun _ => ListingCall.advance published)
    (ListingCache.swap engine)

end

/-! ### The condition -/

/-- The state whose dictionary the call has found or written and not yet read. -/
def ListingPhase.unread : ListingPhase → Option ℕ
  | .mark n => some n
  | .get n => some n
  | _ => none

/-- The state the call is about to write. -/
def ListingPhase.marking : ListingPhase → Option ℕ
  | .mark n => some n
  | _ => none

/-- No dictionary is replaced that a call of another state has yet to read, and none is taken for that of
the state beside it while a call of another state is about to write its own there. -/
def ListingPhase.Undisturbed (w : ListingPool) : ListingPhase → Prop
  | .rebuild n => ∀ y ∈ w.procs, ∀ m ∈ y.phase.unread, m = n
  | .check n => w.shared.listingPricingState = some n → ∀ y ∈ w.procs, ∀ m ∈ y.phase.marking, m = n
  | _ => True

instance (w : ListingPool) : DecidablePred (ListingPhase.Undisturbed w)
  | .rebuild n => inferInstanceAs (Decidable (∀ y ∈ w.procs, ∀ m ∈ y.phase.unread, m = n))
  | .check n => inferInstanceAs (Decidable (w.shared.listingPricingState = some n →
      ∀ y ∈ w.procs, ∀ m ∈ y.phase.marking, m = n))
  | .look => .isTrue trivial
  | .mark _ => .isTrue trivial
  | .get _ => .isTrue trivial
  | .answered _ _ => .isTrue trivial

def ListingUndisturbed (w : ListingPool) : ListingStep → Prop
  | .advance k _ => ∀ x ∈ w.procs[k]?, x.phase.Undisturbed w
  | _ => True

instance (w : ListingPool) : DecidablePred (ListingUndisturbed w)
  | .advance k _ => inferInstanceAs (Decidable (∀ x ∈ w.procs[k]?, x.phase.Undisturbed w))
  | .spawn _ => .isTrue trivial
  | .env _ => .isTrue trivial

/-- The rows that refreshes read are rows that the schema admits. -/
def RowsAdmitted : ListingStep → Prop
  | .env swap => swap.rows.Admitted
  | _ => True

/-! ### The invariant -/

/-- The state a call has read. -/
def ListingPhase.read : ListingPhase → Option ℕ
  | .look => none
  | .check n => some n
  | .rebuild n => some n
  | .mark n => some n
  | .get n => some n
  | .answered read _ => read

/-- The dictionary is the one of every state whose call has yet to read it, and the one of the state
beside it unless another is about to be written there; answers are entries of the dictionary of the state
that their call read. -/
structure Coherent (w : ListingPool) : Prop where
  placed : ∀ y ∈ w.procs, ∀ n ∈ y.phase.read, n < w.shared.generations.length
  state_placed : ∀ n ∈ w.shared.listingPricingState, n < w.shared.generations.length
  unread : ∀ y ∈ w.procs, ∀ n ∈ y.phase.unread, w.shared.listingPricing = w.shared.listing n
  state : ∀ n ∈ w.shared.listingPricingState, (∀ y ∈ w.procs, ∀ m ∈ y.phase.marking, m = n) →
    w.shared.listingPricing = w.shared.listing n
  answers : ∀ y ∈ w.procs, ∀ n answer, y.phase = .answered (some n) answer →
    answer = (w.shared.listing n).lookup (y.aliasName, y.revisionId)

section invariant
variable {engine : Engine} {published : EngineListing} {w : ListingPool} {c : ListingCache} {k : ℕ} {x : ListingCall}

theorem listing_swap (engine : Engine) (swap : CatalogSwap) {n : ℕ} (hn : n < c.generations.length) :
    (c.swap engine swap).listing n = c.listing n := by
  unfold ListingCache.listing ListingCache.swap
  rw [List.getElem?_append_left hn]

theorem stateForKeyIfLoaded_eq_some {key : CatalogKey} {n : ℕ} {state : GatewayCatalogState}
    (h : c.stateForKeyIfLoaded key = some (n, state)) : n < c.generations.length := by
  unfold ListingCache.stateForKeyIfLoaded at h
  split at h
  · cases h
  · rename_i last hlast
    split at h
    · cases h
      have hne : c.generations ≠ [] := by
        intro hnil
        rw [hnil] at hlast
        cases hlast
      exact Nat.sub_lt (List.length_pos_iff.mpr hne) one_pos
    · cases h

theorem mem_set_cases {y x' : ListingCall} (h : y ∈ w.procs.set k x') : y = x' ∨ y ∈ w.procs :=
  (List.mem_or_eq_of_mem_set h).symm

/-- A condition on the calls after one has moved was one before, when it holds of the call that has. -/
theorem forall_of_set {P : ListingCall → Prop} {x' : ListingCall} (hx : w.procs[k]? = some x) (hP : P x)
    (h : ∀ y ∈ w.procs.set k x', P y) : ∀ y ∈ w.procs, P y := by
  intro y hy
  obtain ⟨j, hj⟩ := List.mem_iff_getElem?.mp hy
  by_cases hjk : j = k
  · subst hjk
    obtain rfl := Option.some.inj (hx.symm.trans hj)
    exact hP
  · refine h y (List.mem_iff_getElem?.mpr ⟨j, ?_⟩)
    rw [List.getElem?_set_ne (Ne.symm hjk)]
    exact hj

/-- A call that leaves the attributes alone moves to a phase that has what the invariant asks of it. -/
theorem Coherent.moved (h : Coherent w) (hx : w.procs[k]? = some x) (hmark : x.phase.marking = none)
    {phase : ListingPhase} (hplaced : ∀ n ∈ phase.read, n < w.shared.generations.length)
    (hunread : ∀ n ∈ phase.unread, w.shared.listingPricing = w.shared.listing n)
    (hanswer : ∀ n answer, phase = .answered (some n) answer →
      answer = (w.shared.listing n).lookup (x.aliasName, x.revisionId)) :
    Coherent ⟨w.shared, w.procs.set k { x with phase := phase }⟩ where
  placed y hy := by
    rcases mem_set_cases hy with rfl | hy
    · exact hplaced
    · exact h.placed y hy
  state_placed := h.state_placed
  unread y hy := by
    rcases mem_set_cases hy with rfl | hy
    · exact hunread
    · exact h.unread y hy
  state n hn hmarks := by
    refine h.state n hn (forall_of_set hx ?_ hmarks)
    intro m hm
    rw [hmark] at hm
    cases hm
  answers y hy := by
    rcases mem_set_cases hy with rfl | hy
    · exact hanswer
    · exact h.answers y hy

theorem Coherent.rebuilt (h : Coherent w) (hx : w.procs[k]? = some x) {n : ℕ} (hphase : x.phase = .rebuild n)
    (hC : ∀ y ∈ w.procs, ∀ m ∈ y.phase.unread, m = n) :
    Coherent ⟨{ w.shared with listingPricing := w.shared.listing n }, w.procs.set k { x with phase := .mark n }⟩ where
  placed y hy := by
    rcases mem_set_cases hy with rfl | hy
    · have hread := h.placed x (List.mem_of_getElem? hx)
      rw [hphase] at hread
      exact hread
    · exact h.placed y hy
  state_placed := h.state_placed
  unread y hy m hm := by
    rcases mem_set_cases hy with rfl | hy
    · obtain rfl := Option.some.inj hm
      rfl
    · rw [hC y hy m hm]
      rfl
  state m hm hmarks := by
    have hlt : k < w.procs.length := (List.getElem?_eq_some_iff.mp hx).1
    rw [← hmarks _ (List.mem_iff_getElem?.mpr ⟨k, List.getElem?_set_self hlt⟩) n rfl]
    rfl
  answers y hy m answer hy' := by
    rcases mem_set_cases hy with rfl | hy
    · cases hy'
    · exact h.answers y hy m answer hy'

theorem Coherent.marked (h : Coherent w) (hx : w.procs[k]? = some x) {n : ℕ} (hphase : x.phase = .mark n) :
    Coherent ⟨{ w.shared with listingPricingState := some n }, w.procs.set k { x with phase := .get n }⟩ := by
  have hplaced := h.placed x (List.mem_of_getElem? hx) n (by rw [hphase]; rfl)
  have hown := h.unread x (List.mem_of_getElem? hx) n (by rw [hphase]; rfl)
  constructor
  · intro y hy m hm
    rcases mem_set_cases hy with rfl | hy
    · obtain rfl := Option.some.inj hm
      exact hplaced
    · exact h.placed y hy m hm
  · intro m hm
    obtain rfl := Option.some.inj hm
    exact hplaced
  · intro y hy m hm
    rcases mem_set_cases hy with rfl | hy
    · obtain rfl := Option.some.inj hm
      exact hown
    · exact h.unread y hy m hm
  · intro m hm _
    obtain rfl := Option.some.inj hm
    exact hown
  · intro y hy m answer hy'
    rcases mem_set_cases hy with rfl | hy
    · cases hy'
    · exact h.answers y hy m answer hy'

theorem Coherent.step (hsilent : ∀ catalogs aliasName key, published catalogs aliasName key = none)
    (h : Coherent w) (step : ListingStep) (hC : ListingUndisturbed w step) :
    Coherent (publishedStep engine published w step) := by
  cases step with
  | spawn request =>
    constructor
    · intro y hy n hn
      rcases List.mem_append.mp hy with hy | hy
      · exact h.placed y hy n hn
      · obtain rfl := List.mem_singleton.mp hy
        cases hn
    · exact h.state_placed
    · intro y hy n hn
      rcases List.mem_append.mp hy with hy | hy
      · exact h.unread y hy n hn
      · obtain rfl := List.mem_singleton.mp hy
        cases hn
    · intro n hn hmarks
      exact h.state n hn fun y hy => hmarks y (List.mem_append_left _ hy)
    · intro y hy n answer hphase
      rcases List.mem_append.mp hy with hy | hy
      · exact h.answers y hy n answer hphase
      · obtain rfl := List.mem_singleton.mp hy
        cases hphase
  | env swap =>
    -- a place keeps its state, for states are only added behind it
    have hlonger : w.shared.generations.length ≤ (w.shared.swap engine swap).generations.length := by
      rw [ListingCache.swap, List.length_append]
      exact Nat.le_add_right _ _
    constructor
    · exact fun y hy n hn => (h.placed y hy n hn).trans_le hlonger
    · exact fun n hn => (h.state_placed n hn).trans_le hlonger
    · intro y hy n hn
      have hread : n ∈ y.phase.read := by
        cases hphase : y.phase <;> rw [hphase] at hn <;> first | exact hn | cases hn
      exact (h.unread y hy n hn).trans (listing_swap engine swap (h.placed y hy n hread)).symm
    · exact fun n hn hmarks => (h.state n hn hmarks).trans (listing_swap engine swap (h.state_placed n hn)).symm
    · intro y hy n answer hphase
      rw [h.answers y hy n answer hphase]
      have hn := h.placed y hy n (by rw [hphase]; rfl)
      exact congrArg (AList.lookup _) (listing_swap engine swap hn).symm
  | advance k i =>
    cases hx : w.procs[k]? with
    | none =>
      rw [publishedStep, poolStep_advance_none hx]
      exact h
    | some x =>
      have hplaced := h.placed x (List.mem_of_getElem? hx)
      have hC := hC x hx
      rw [publishedStep, poolStep_advance hx, ListingCall.advance]
      cases hphase : x.phase with
      | look =>
        dsimp only
        split
        · exact h.moved hx (by rw [hphase]; rfl) nofun nofun nofun
        · rename_i n state hloaded
          rw [hsilent]
          refine h.moved hx (by rw [hphase]; rfl) ?_ nofun nofun
          intro m hm
          obtain rfl := Option.some.inj hm
          exact stateForKeyIfLoaded_eq_some hloaded
      | check n =>
        rw [hphase] at hplaced hC
        refine h.moved hx (by rw [hphase]; rfl) ?_ ?_ ?_
        · split <;> exact hplaced
        · split
          · rename_i hstate
            intro m hm
            obtain rfl := Option.some.inj hm
            exact h.state n hstate (hC hstate)
          · exact nofun
        · split <;> exact nofun
      | rebuild n =>
        rw [hphase] at hC
        exact h.rebuilt hx hphase hC
      | mark n => exact h.marked hx hphase
      | get n =>
        rw [hphase] at hplaced
        refine h.moved hx (by rw [hphase]; rfl) hplaced nofun ?_
        intro m answer hanswer
        cases hanswer
        rw [h.unread x (List.mem_of_getElem? hx) n (by rw [hphase]; rfl)]
      | answered read answer =>
        have hself : w.procs.set k x = w.procs := by
          obtain ⟨hlt, hget⟩ := List.getElem?_eq_some_iff.mp hx
          rw [← hget, List.set_getElem_self]
        dsimp only
        rw [hself]
        exact h

theorem coherent_fresh : Coherent ⟨.fresh, []⟩ :=
  ⟨nofun, nofun, nofun, nofun, nofun⟩

theorem generations_step (step : ListingStep) (hrows : RowsAdmitted step)
    (h : ∀ state ∈ w.shared.generations, GenerationOf engine state) :
    ∀ state ∈ (publishedStep engine published w step).shared.generations, GenerationOf engine state := by
  cases step with
  | spawn request => exact h
  | advance k i =>
    have hsame : ∀ c x, (ListingCall.advance published c x).1.generations = c.generations := by
      intro c x
      unfold ListingCall.advance
      split
      · dsimp only
        split
        · rfl
        · split <;> rfl
      all_goals rfl
    cases hx : w.procs[k]? with
    | none =>
      rw [publishedStep, poolStep_advance_none hx]
      exact h
    | some x =>
      rw [publishedStep, poolStep_advance hx, hsame]
      exact h
  | env swap =>
    intro state hstate
    rcases List.mem_append.mp hstate with hstate | hstate
    · exact h state hstate
    · have hnew := Option.mem_toList.mp hstate
      unfold CatalogSwap.generation at hnew
      split at hnew
      · cases hnew
      · rename_i build hbuild
        obtain ⟨made, hmade, rfl⟩ : ∃ made, buildCatalogState build swap.environment swap.release
            w.shared.generations.getLast? swap.controls swap.policies = .ok made ∧ made = state := by
          cases hm : buildCatalogState build swap.environment swap.release w.shared.generations.getLast?
              swap.controls swap.policies with
          | error e =>
            rw [hm] at hnew
            cases hnew
          | ok made =>
            rw [hm] at hnew
            exact ⟨made, rfl, Option.some.inj hnew⟩
        have hsame : made.build = build := by
          have hmade := hmade
          unfold buildCatalogState at hmade
          simp only [bind_eq_ok, pure_eq_ok] at hmade
          obtain ⟨credentials, -, rfl⟩ := hmade
          rfl
        subst hsame
        exact ⟨swap.inputs engine, _, _, _, _, _, rfl, hrows, hbuild, hmade⟩

end invariant

/-! ### Every run -/

/-- **Published prices are the served prices**: in every run whose steps are undisturbed, a call that read a
state has answered with the rates the state serves. -/
theorem published_prices_served {engine : Engine} {resolver : CatalogRouteResolver} {published : EngineListing}
    (he : engine.RoutesPools resolver) (hdigest : engine.SeparatesAliases)
    (hsilent : ∀ catalogs aliasName key, published catalogs aliasName key = none) (steps : List ListingStep)
    (hrows : ∀ step ∈ steps, RowsAdmitted step)
    (hC : StepsMeet (publishedStep engine published) ListingUndisturbed ⟨.fresh, []⟩ steps) :
    let w := run (publishedStep engine published) ⟨.fresh, []⟩ steps
    ∀ x ∈ w.procs, ∀ n answer, x.phase = .answered (some n) answer →
      ∃ state, w.shared.generations[n]? = some state ∧
        PublishesServedPrice resolver state x.aliasName x.revisionId answer := by
  intro w x hx n answer hphase
  have hcoherent : Coherent w := run_invariant (fun _ step hC h => h.step hsilent step hC) steps _ coherent_fresh hC
  have hgenerations : ∀ state ∈ w.shared.generations, GenerationOf engine state :=
    run_invariant (C := fun _ => RowsAdmitted)
      (I := fun w : ListingPool => ∀ state ∈ w.shared.generations, GenerationOf engine state)
      (fun _ step hrows h => generations_step step hrows h) steps _ (fun _ h => absurd h List.not_mem_nil)
      (stepsMeet_of_forall _ hrows)
  have hn := hcoherent.placed x hx n (by rw [hphase]; rfl)
  have hget := List.getElem?_eq_getElem hn
  refine ⟨_, hget, ?_⟩
  rw [hcoherent.answers x hx n answer hphase, ListingCache.listing, hget]
  exact publishesServedPrice_listing he hdigest (hgenerations _ (List.getElem_mem hn)) x.aliasName x.revisionId

/-! ### Two generations -/

section priced

/-- A model whose one deployment declares an input and an output rate; the later generation has another
deployment with other rates. -/
def pricedRow (later : Bool) : CatalogProviderRow :=
  { hostedRow with
    id := if later then rowId '3' else rowId '2'
    prices := if later then ⟨some 3000000, none, some 12000000, none⟩ else ⟨some 2500000, none, some 10000000, none⟩ }

def pricedSwap (later : Bool) : CatalogSwap where
  rows := ⟨[mixedModel], [pricedRow later], [], [], none⟩
  environment := mixedInputs.environment
  releaseProbe := none
  azureConnectionConfig := fun _ => none
  release := fun _ => none
  controls := ∅
  policies := ∅

theorem pricedSwap_admitted (later : Bool) : (pricedSwap later).rows.Admitted := by
  have hrow : ∀ r ∈ (pricedSwap later).rows.providers, r.owningOrgId = none ∧ r.providerConnectionId = none := by
    cases later <;> decide
  have hpublic : ∀ m ∈ (pricedSwap later).rows.models, m.owningOrgId = none := by
    cases later <;> decide
  constructor
  case pin_requires_org =>
    intro r hr hpin
    exact absurd (hrow r hr).2 hpin
  case connection_pin_fk =>
    intro r hr p hp
    rw [(hrow r hr).2] at hp
    cases hp
  case providers_guard_tenancy =>
    intro r hr m hm hid o ho
    rw [hpublic m hm] at ho
    cases ho
  case waterfalls_guard_chain =>
    intro g hg
    exact absurd hg List.not_mem_nil
  case waterfalls_guard_rung =>
    intro g hg
    exact absurd hg List.not_mem_nil
  all_goals cases later <;> decide +kernel

/-- The granted revision of the model in a generation. -/
def pricedRequest (later : Bool) : String × CatalogKey :=
  match buildGatewayCatalog ((pricedSwap later).inputs referenceEngine) with
  | .error _ => ("", "", "")
  | .ok build =>
      match build.aliasPlans with
      | [] => ("", "", "")
      | plan :: _ => (plan.aliasName, plan.revisionId, plan.catalogSha256)

/-- A refresh and a call, one after the other. -/
def pricedSteps (later : Bool) (k : ℕ) : List ListingStep :=
  [.env (pricedSwap later), .spawn (pricedRequest later)] ++ List.replicate 5 (.advance k ())

/-- The pool after the steps; the engine's own listing is silent. -/
abbrev pricedRun (steps : List ListingStep) : ListingPool :=
  run (publishedStep referenceEngine fun _ _ _ => none) ⟨.fresh, []⟩ steps

def quietSteps : List ListingStep := pricedSteps false 0 ++ pricedSteps true 1

/-- A call of the first generation and one of the second rebuild the dictionary at the same time: the
second writes it first and its state last. -/
def racingSteps : List ListingStep :=
  [.env (pricedSwap false), .spawn (pricedRequest false), .advance 0 (), .env (pricedSwap true),
    .spawn (pricedRequest true), .advance 1 (), .advance 1 (), .advance 0 (), .advance 1 (), .advance 0 (),
    .advance 0 (), .advance 1 (), .spawn (pricedRequest true), .advance 2 (), .advance 2 (), .advance 2 ()]

theorem rowsAdmitted_priced {steps : List ListingStep} (h : ∀ swap, .env swap ∈ steps → ∃ later, swap = pricedSwap later) :
    ∀ step ∈ steps, RowsAdmitted step := by
  rintro (request | ⟨k, i⟩ | swap) hstep
  · trivial
  · trivial
  · obtain ⟨later, rfl⟩ := h swap hstep
    exact pricedSwap_admitted later

/-- Has a call of the second generation the answer? -/
def ListingPool.answers (w : ListingPool) (answer : Option PricedAliasMetadata) : Bool :=
  w.procs.any fun x => match x.phase with
    | .answered (some 1) given => decide (given = answer) && decide (x.aliasName = (pricedRequest true).1) &&
        decide (x.revisionId = (pricedRequest true).2.1)
    | _ => false

theorem ListingPool.exists_of_answers {w : ListingPool} {answer : Option PricedAliasMetadata}
    (h : w.answers answer = true) : ∃ x ∈ w.procs, x.phase = .answered (some 1) answer ∧
      x.aliasName = (pricedRequest true).1 ∧ x.revisionId = (pricedRequest true).2.1 := by
  obtain ⟨x, hx, hans⟩ := List.any_eq_true.mp h
  refine ⟨x, hx, ?_⟩
  split at hans
  · rename_i given hphase
    simp only [Bool.and_eq_true, decide_eq_true_eq] at hans
    obtain ⟨⟨rfl, hname⟩, hrevision⟩ := hans
    exact ⟨hphase, hname, hrevision⟩
  · cases hans

/-- One generation after the other, each with its own rates. -/
theorem published_prices_served_once : ∃ x ∈ (pricedRun quietSteps).procs,
    ∃ state, (pricedRun quietSteps).shared.generations[1]? = some state ∧
      x.phase = .answered (some 1) (some ⟨some 3000000, some 12000000, none, none⟩) ∧
      PublishesServedPrice referenceResolver state x.aliasName x.revisionId
        (some ⟨some 3000000, some 12000000, none, none⟩) := by
  have hrun : (pricedRun quietSteps).answers (some ⟨some 3000000, some 12000000, none, none⟩) = true := by
    decide +kernel
  obtain ⟨x, hx, hphase, -, -⟩ := ListingPool.exists_of_answers hrun
  have hC : StepsMeet (publishedStep referenceEngine fun _ _ _ => none) ListingUndisturbed ⟨.fresh, []⟩ quietSteps := by
    decide +kernel
  have hrows : ∀ step ∈ quietSteps, RowsAdmitted step := rowsAdmitted_priced (by simp [quietSteps, pricedSteps])
  obtain ⟨state, hstate, hprice⟩ := published_prices_served routesPools_reference separatesAliases_reference
    (fun _ _ _ => rfl) quietSteps hrows hC x hx 1 _ hphase
  exact ⟨x, hx, state, hstate, hphase, hprice⟩

/-- Does the second generation serve the model at a declared price? -/
def ListingPool.servesPriced (w : ListingPool) : Bool :=
  (w.shared.generations[1]?).any fun state => state.build.aliasPlans.any fun plan =>
    decide (plan.aliasName = (pricedRequest true).1) && decide (plan.revisionId = (pricedRequest true).2.1) &&
      match referenceResolver state.routeCatalogs (plan.authorization keylessOrg) with
      | .error _ => false
      | .ok base => decide (base.deployment.prices ≠ publishedRates none)

/-- The prices of the second generation are not published once the two calls are done. -/
theorem racing_rebuilds_unpublish : (∀ step ∈ racingSteps, RowsAdmitted step) ∧
    ∃ x ∈ (pricedRun racingSteps).procs, ∃ state, (pricedRun racingSteps).shared.generations[1]? = some state ∧
      x.phase = .answered (some 1) none ∧
      ¬PublishesServedPrice referenceResolver state x.aliasName x.revisionId none := by
  have hrun : (pricedRun racingSteps).answers none = true := by decide +kernel
  have hserves : (pricedRun racingSteps).servesPriced = true := by decide +kernel
  obtain ⟨x, hx, hphase, hname, hrevision⟩ := ListingPool.exists_of_answers hrun
  obtain ⟨state, hstate, hplans⟩ := Option.any_eq_true _ _ |>.mp hserves
  obtain ⟨plan, hplan, hpriced⟩ := List.any_eq_true.mp hplans
  refine ⟨rowsAdmitted_priced (by simp [racingSteps]), x, hx, state, hstate, hphase, fun h => ?_⟩
  simp only [Bool.and_eq_true, decide_eq_true_eq] at hpriced
  obtain ⟨⟨hplanName, hplanRevision⟩, hpriced⟩ := hpriced
  obtain ⟨base, hbase, hrates, -⟩ := h.planned plan hplan (hplanName.trans hname.symm)
    (hplanRevision.trans hrevision.symm) keylessOrg
  rw [hbase] at hpriced
  exact of_decide_eq_true hpriced hrates.symm

end priced

end Experiential.Catalog
