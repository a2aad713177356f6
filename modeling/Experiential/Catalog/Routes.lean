import Experiential.Catalog.Plans

/-! # What a route is made of

`buildCatalogState` makes one immutable generation out of a build: the credentials by
environment name and, for the key (revision, catalog digest) of every alias plan, the catalogs,
deployments and variants a request with that key is served from; the previous generation's
keys stay for requests authorized before the swap. `resolveRoute` is the path of a request:
the engine's route, the organization's variants in place of the deployments they replace, the
organization's provider policy, and the refusal of a route nobody's credential serves.

`Engine.ServesPools` is what the engine's package promises: it normalizes an authored catalog
one deployment per record, and its resolver returns the deployments of the target's pool in
order. Under it, the route of an alias plan is the plan's deployments, each replaced by the
organization's variant when there is one, without those the organization's policy refuses
(`resolveRoute_eq_ok`). -/

namespace Experiential.Catalog

/-- An alias revision and the digest of its catalog. -/
abbrev CatalogKey := String × String

/-! ### Routes -/

/-- The authority of a request, as far as routing reads it. -/
structure AuthorizationSnapshot where
  organizationId : String
  aliasRevisionId : String
  targetPoolId : String
  catalogSha256 : String
deriving DecidableEq

def AuthorizationSnapshot.key (a : AuthorizationSnapshot) : CatalogKey :=
  (a.aliasRevisionId, a.catalogSha256)

/-- What the ledger lets an attempt dispatch. -/
structure ExecutionSnapshot where
  authorization : AuthorizationSnapshot
  exactModelId : String
  poolId : String
  deploymentIds : List String
deriving DecidableEq

structure GatewayRoute where
  snapshot : ExecutionSnapshot
  deployment : ExactModelDeployment
  fallbackDeployments : List ExactModelDeployment
  routeReason : String
  fallbackReason : Option String
deriving DecidableEq

def GatewayRoute.deployments (r : GatewayRoute) : List ExactModelDeployment :=
  r.deployment :: r.fallbackDeployments

/-- The route over other deployments, with the snapshot naming exactly them. -/
def GatewayRoute.rebuilt (r : GatewayRoute) (primary : ExactModelDeployment)
    (fallbacks : List ExactModelDeployment) : GatewayRoute :=
  { snapshot := { r.snapshot with deploymentIds := (primary :: fallbacks).map (·.deploymentId) }
    deployment := primary
    fallbackDeployments := fallbacks
    routeReason := r.routeReason
    fallbackReason := r.fallbackReason }

inductive GatewayFailureClass where
  | invalidRequest
  | authorization
deriving DecidableEq

structure GatewayFailure where
  failureClass : GatewayFailureClass
  safeMessage : String
deriving DecidableEq

/-- Why a request gets no route; the engine's own failures are a message. -/
inductive RouteError where
  | execution (failure : GatewayFailure)
  | unknownKey
  | engine (message : String)
deriving DecidableEq

/-- The engine's resolver over the route catalogs of a state. -/
abbrev CatalogRouteResolver :=
  Dict CatalogKey NormalizedGatewayCatalog → AuthorizationSnapshot → Except RouteError GatewayRoute

/-! ### Credentials -/

inductive GatewayCredentialError where
  | platformUnset (selector : String)
  | releaseFailed (selector : String)
  | releasedEmpty (selector : String)
deriving DecidableEq

/-- One reference's value. -/
def credentialOf (environment : String → Option String) (release : String → Option String)
    (ref : ConnectionCredentialRef) : Except GatewayCredentialError String :=
  match ref.kind with
  | .platformEnv => require (truthy (environment ref.selector)) (.platformUnset ref.selector)
  | .byokVault =>
      match release ref.selector with
      | none => .error (.releaseFailed ref.selector)
      | some released => require (truthy (some released)) (.releasedEmpty ref.selector)
  | .placeholder => .ok "not-needed"

/-- The AWS region variables that are set. -/
def awsPassthrough (environment : String → Option String) : Dict String String :=
  ["AWS_REGION", "AWS_DEFAULT_REGION"].foldl (fun d name =>
    match truthy (environment name) with
    | none => d
    | some value => d.insert name value) ∅

/-- `resolve_gateway_credentials`. -/
def resolveGatewayCredentials (environment : String → Option String)
    (release : String → Option String) (refs : List ConnectionCredentialRef) :
    Except GatewayCredentialError (Dict String String) :=
  refs.foldlM (fun d ref => do
    let value ← credentialOf environment release ref
    return d.insert ref.environmentName value) (awsPassthrough environment)

/-! ### The state -/

structure ProviderDataControls where
  provider : String
  zeroDataRetention : Bool
  noTraining : Bool
deriving DecidableEq

structure OrgProviderPolicy where
  orgId : String
  allowedProviders : Option (List String)
  requireZdr : Bool
  requireNoTraining : Bool
deriving DecidableEq

/-- `OrgProviderPolicy.permits`: an unknown posture satisfies no required flag. -/
def OrgProviderPolicy.permits (p : OrgProviderPolicy) (provider : String)
    (controls : Dict String ProviderDataControls) : Bool :=
  if p.allowedProviders.any (fun allowed => decide (provider ∉ allowed)) then false
  else if p.requireZdr || p.requireNoTraining then
    match controls.lookup provider with
    | none => false
    | some posture =>
        if p.requireZdr && !posture.zeroDataRetention then false
        else !(p.requireNoTraining && !posture.noTraining)
  else true

/-- `RuntimeModelCatalog(authored, environment=credentials)`. -/
structure RuntimeModelCatalog where
  authored : ModelCatalog
  environment : Dict String String

structure GatewayCatalogState where
  build : GatewayCatalogBuild
  credentials : Dict String String
  generationKeys : List CatalogKey
  routeCatalogs : Dict CatalogKey NormalizedGatewayCatalog
  runtimeCatalogs : Dict CatalogKey RuntimeModelCatalog
  deploymentsByKey : Dict CatalogKey (Dict String ExactModelDeployment)
  variantsByKey : Dict CatalogKey (Dict String (Dict String String))
  byokRequiredByKey : Dict CatalogKey (List String)
  providerControls : Dict String ProviderDataControls
  providerPolicies : Dict String OrgProviderPolicy

/-- The keys of a build's plans. -/
def GatewayCatalogBuild.keys (b : GatewayCatalogBuild) : List CatalogKey :=
  match b.catalog with
  | none => []
  | some catalog => b.aliasPlans.map fun plan => (plan.revisionId, catalog.catalogSha256)

/-- What the new generation inherits: the entries under the previous generation's own keys. -/
def grace {α : Type} (previous : Option GatewayCatalogState)
    (entries : GatewayCatalogState → Dict CatalogKey α) : Dict CatalogKey α :=
  match previous with
  | none => ∅
  | some previous => (entries previous).restrict previous.generationKeys

/-- Write the build's value under its keys. -/
def GatewayCatalogBuild.serve {α : Type} (b : GatewayCatalogBuild) (value : BuiltCatalog → α)
    (d : Dict CatalogKey α) : Dict CatalogKey α :=
  match b.catalog with
  | none => d
  | some catalog => d.insertAll b.keys (value catalog)

/-- `build_catalog_state`. -/
def buildCatalogState (build : GatewayCatalogBuild) (environment release : String → Option String)
    (previous : Option GatewayCatalogState) (controls : Dict String ProviderDataControls)
    (policies : Dict String OrgProviderPolicy) :
    Except GatewayCredentialError GatewayCatalogState := do
  let credentials ← resolveGatewayCredentials environment release build.credentialRefs
  return {
    build := build
    credentials := credentials
    generationKeys := build.keys
    routeCatalogs := build.serve (·.normalized) (grace previous (·.routeCatalogs))
    runtimeCatalogs := build.serve (fun catalog => ⟨catalog.authored, credentials⟩)
      (grace previous (·.runtimeCatalogs))
    deploymentsByKey := build.serve
      (fun catalog => .ofList (·.deploymentId) catalog.normalized.deployments)
      (grace previous (·.deploymentsByKey))
    variantsByKey := build.serve (fun _ => build.byokDeploymentVariants)
      (grace previous (·.variantsByKey))
    byokRequiredByKey := build.serve (fun _ => build.byokRequiredDeployments)
      (grace previous (·.byokRequiredByKey))
    providerControls := controls
    providerPolicies := policies }

/-! ### The resolver -/

/-- `organization_artifact_id`. -/
def organizationArtifactId (org : String) : String := "org-" ++ org

/-- `_organization_uuid`: `removeprefix("org-")`. -/
def organizationUuid (organizationId : String) : String :=
  match organizationId.toList with
  | 'o' :: 'r' :: 'g' :: '-' :: rest => String.ofList rest
  | _ => organizationId

@[simp] theorem organizationUuid_artifactId (org : String) :
    organizationUuid (organizationArtifactId org) = org := by
  simp [organizationUuid, organizationArtifactId]

/-- The variant that replaces a deployment, when the catalog has it. -/
def variantOf (variants : Dict String String) (deployments : Dict String ExactModelDeployment)
    (d : ExactModelDeployment) : Option ExactModelDeployment :=
  (variants.lookup d.deploymentId).bind deployments.lookup

/-- `_substitute_org_variants`. -/
def substituteOrgVariants (route : GatewayRoute) (state : GatewayCatalogState) (key : CatalogKey)
    (organization : String) : GatewayRoute :=
  match (state.variantsByKey.getOrEmpty key).lookup organization with
  | none => route
  | some variants =>
      let deployments := state.deploymentsByKey.getOrEmpty key
      let substitute := fun d => (variantOf variants deployments d).getD d
      if route.deployments.all fun d => (variantOf variants deployments d).isNone then route
      else route.rebuilt (substitute route.deployment) (route.fallbackDeployments.map substitute)

/-- The requirements a policy's refusal names. -/
def OrgProviderPolicy.requirements (p : OrgProviderPolicy) : List String :=
  (if p.allowedProviders.isSome then ["the provider allowlist"] else []) ++
    (if p.requireZdr then ["zero-data-retention providers only"] else []) ++
    (if p.requireNoTraining then ["no-training providers only"] else [])

/-- `_apply_provider_policy`. -/
def applyProviderPolicy (route : GatewayRoute) (state : GatewayCatalogState) (organization : String) :
    Except RouteError GatewayRoute :=
  match state.providerPolicies.lookup organization with
  | none => .ok route
  | some policy =>
      match route.deployments.filter fun d => policy.permits d.provider state.providerControls with
      | [] => .error (.execution ⟨.authorization,
          "No route for this model satisfies your organization's provider policy (" ++
            "; ".intercalate policy.requirements ++
            "). An organization admin can adjust the policy under Settings → Provider policy."⟩)
      | primary :: fallbacks =>
          if (primary :: fallbacks).length = route.deployments.length then .ok route
          else .ok (route.rebuilt primary fallbacks)

/-- `_require_byok_connection`: refuse a route of which no deployment has a credential. -/
def requireByokConnection (route : GatewayRoute) (byokRequired : List String) :
    Except RouteError Unit :=
  if byokRequired = [] then .ok ()
  else ensure (¬ ∀ d ∈ route.deployments, d.deploymentId ∈ byokRequired) (.execution
    ⟨.invalidRequest, "This model requires your own provider API key. Connect the model's provider under your workspace's provider keys (Bring Your Own Key) and retry."⟩)

/-- `OrgAwareRouteResolver.resolve_direct`, and `resolve` once the engine's route for the
request is at hand, in a state that serves the key. -/
def resolveRoute (resolver : CatalogRouteResolver) (state : GatewayCatalogState)
    (authorization : AuthorizationSnapshot) : Except RouteError GatewayRoute := do
  let route ← resolver state.routeCatalogs authorization
  let organization := organizationUuid authorization.organizationId
  let substituted := substituteOrgVariants route state authorization.key organization
  let final ← applyProviderPolicy substituted state organization
  requireByokConnection final ((state.byokRequiredByKey.lookup authorization.key).getD [])
  return final

/-! ### The engine -/

/-- The deployments of a target: its pool's, in order, or the deployment it names. -/
def ModelCatalog.poolDeployments (a : ModelCatalog) (target : String) : Option (List String) :=
  match a.gatewayPools.lookup target with
  | some pool => some pool.deploymentAliases
  | none => if (a.models.lookup target).isSome then some [target] else none

/-- What the engine's package documents about normalization and direct routes. -/
structure Engine.ServesPools (e : Engine) (resolver : CatalogRouteResolver) : Prop where
  /-- Every authored deployment is there under its alias. -/
  deployments : ∀ a n, e.normalize a = some n → ∀ name, (a.models.lookup name).isSome →
    ∃ d ∈ n.deployments, d.deploymentId = name
  /-- A deployment carries the provider of its connection. -/
  providers : ∀ a n, e.normalize a = some n → ∀ d ∈ n.deployments, ∃ record config,
    a.models.lookup d.deploymentId = some record ∧
    a.connections.lookup record.connection = some config ∧ d.provider = config.provider
  /-- A known key and target give the pool's deployments in order. -/
  resolves : ∀ a n catalogs authorization ids, e.normalize a = some n →
    AList.lookup authorization.key catalogs = some n →
    a.poolDeployments authorization.targetPoolId = some ids →
    ∃ route, resolver catalogs authorization = .ok route ∧
      route.deployments.map (·.deploymentId) = ids ∧ ∀ d ∈ route.deployments, d ∈ n.deployments

/-- The authority of a request for the alias of a plan. -/
def AliasActivationPlan.authorization (plan : AliasActivationPlan) (org : Uuid) :
    AuthorizationSnapshot where
  organizationId := organizationArtifactId org.text
  aliasRevisionId := plan.revisionId
  targetPoolId := plan.targetPoolId
  catalogSha256 := plan.catalogSha256

/-! ### Steps of the resolver -/

section steps
variable {state : GatewayCatalogState}

/-- The deployment that serves in the place of `d`. -/
def served (state : GatewayCatalogState) (key : CatalogKey) (org : String) (d : ExactModelDeployment) :
    ExactModelDeployment :=
  (variantOf ((state.variantsByKey.getOrEmpty key).getOrEmpty org)
    (state.deploymentsByKey.getOrEmpty key) d).getD d

/-- Does the organization's policy permit the deployment? -/
def permitted (state : GatewayCatalogState) (org : String) (d : ExactModelDeployment) : Bool :=
  match state.providerPolicies.lookup org with
  | none => true
  | some policy => policy.permits d.provider state.providerControls

theorem deployments_substituteOrgVariants (route : GatewayRoute) (key : CatalogKey) (org : String) :
    (substituteOrgVariants route state key org).deployments =
      route.deployments.map (served state key org) := by
  unfold substituteOrgVariants served
  cases hv : (state.variantsByKey.getOrEmpty key).lookup org with
  | none =>
      have hget : (state.variantsByKey.getOrEmpty key).getOrEmpty org = ∅ := by
        rw [Dict.getOrEmpty, hv, Option.getD_none]
      rw [hget]
      simp [variantOf]
  | some variants =>
      have hget : (state.variantsByKey.getOrEmpty key).getOrEmpty org = variants := by
        rw [Dict.getOrEmpty, hv, Option.getD_some]
      rw [hget]
      simp only
      split_ifs with hall
      · -- nothing to substitute
        rw [List.all_eq_true] at hall
        conv_lhs => rw [← List.map_id route.deployments]
        apply List.map_congr_left
        intro d hd
        have hnone := hall d hd
        rw [Option.isNone_iff_eq_none] at hnone
        rw [hnone]
        rfl
      · rfl

theorem applyProviderPolicy_eq (route : GatewayRoute) (org : String) :
    (∃ r, applyProviderPolicy route state org = .ok r ∧
      r.deployments = route.deployments.filter (permitted state org)) ∨
    (∃ e, applyProviderPolicy route state org = .error e) ∧
      route.deployments.filter (permitted state org) = [] := by
  unfold applyProviderPolicy permitted
  cases hp : state.providerPolicies.lookup org with
  | none =>
      left
      exact ⟨route, rfl, by simp⟩
  | some policy =>
      simp only
      cases hk : route.deployments.filter fun d => policy.permits d.provider state.providerControls with
      | nil =>
          right
          exact ⟨⟨_, rfl⟩, rfl⟩
      | cons primary fallbacks =>
          left
          simp only
          split_ifs with hlen
          · refine ⟨route, rfl, ?_⟩
            rw [← hk] at hlen ⊢
            exact (List.filter_sublist.eq_of_length hlen).symm
          · exact ⟨_, rfl, rfl⟩

theorem requireByokConnection_eq_ok {route : GatewayRoute} {required : List String} :
    requireByokConnection route required = .ok () ↔
      required = [] ∨ ∃ d ∈ route.deployments, d.deploymentId ∉ required := by
  unfold requireByokConnection
  split_ifs with h
  · simp [h]
  · rw [ensure_eq_ok]
    simp [h]

variable {resolver : CatalogRouteResolver} {authorization : AuthorizationSnapshot} {base : GatewayRoute}

/-- What is left of the engine's route after substitution and policy. -/
def servedDeployments (state : GatewayCatalogState) (key : CatalogKey) (org : String)
    (base : GatewayRoute) : List ExactModelDeployment :=
  (base.deployments.map (served state key org)).filter (permitted state org)

/-- A route is what is left, and there is one unless nothing is left or nobody has a credential. -/
theorem resolveRoute_eq_ok (hbase : resolver state.routeCatalogs authorization = .ok base) :
    let left := servedDeployments state authorization.key (organizationUuid authorization.organizationId)
      base
    let required := (state.byokRequiredByKey.lookup authorization.key).getD []
    (∀ route, resolveRoute resolver state authorization = .ok route → route.deployments = left) ∧
      ((∃ route, resolveRoute resolver state authorization = .ok route) ↔
        left ≠ [] ∧ (required = [] ∨ ∃ d ∈ left, d.deploymentId ∉ required)) := by
  intro left required
  have hpolicy := @applyProviderPolicy_eq state
    (substituteOrgVariants base state authorization.key (organizationUuid authorization.organizationId))
    (organizationUuid authorization.organizationId)
  rw [deployments_substituteOrgVariants] at hpolicy
  have hrun : resolveRoute resolver state authorization =
      (applyProviderPolicy (substituteOrgVariants base state authorization.key
        (organizationUuid authorization.organizationId)) state
        (organizationUuid authorization.organizationId) >>= fun final =>
          requireByokConnection final required >>= fun _ => pure final) := by
    unfold resolveRoute
    rw [hbase]
    rfl
  rw [hrun]
  rcases hpolicy with ⟨final, hok, hdeps⟩ | ⟨⟨e, he⟩, hnil⟩
  · have hleft : final.deployments = left := hdeps
    have hne : left ≠ [] := by
      rw [← hleft]
      exact List.cons_ne_nil _ _
    rw [hok]
    simp only [bind_eq_ok, pure_eq_ok]
    constructor
    · rintro route ⟨final', hf, u, -, rfl⟩
      cases hf
      exact hleft
    · rw [← hleft, ← requireByokConnection_eq_ok]
      constructor
      · rintro ⟨route, final', hf, u, hu, rfl⟩
        cases hf
        exact ⟨by rw [hleft]; exact hne, hu⟩
      · rintro ⟨-, hu⟩
        exact ⟨final, final, rfl, (), hu, rfl⟩
  · rw [he]
    have hleft : left = [] := hnil
    constructor
    · intro route hr
      cases hr
    · constructor
      · rintro ⟨route, hr⟩
        cases hr
      · rintro ⟨hne, -⟩
        exact absurd hleft hne

end steps

/-! ### The state of a build -/

/-- The state serves the key from the build. -/
structure Serves (state : GatewayCatalogState) (key : CatalogKey) (b : GatewayCatalogBuild)
    (catalog : BuiltCatalog) : Prop where
  route : state.routeCatalogs.lookup key = some catalog.normalized
  runtime : state.runtimeCatalogs.lookup key = some ⟨catalog.authored, state.credentials⟩
  deployments : state.deploymentsByKey.getOrEmpty key =
    .ofList (·.deploymentId) catalog.normalized.deployments
  variants : state.variantsByKey.getOrEmpty key = b.byokDeploymentVariants
  required : (state.byokRequiredByKey.lookup key).getD [] = b.byokRequiredDeployments

theorem lookup_serve {α : Type} {b : GatewayCatalogBuild} {catalog : BuiltCatalog} {key : CatalogKey}
    (hb : b.catalog = some catalog) (hkey : key ∈ b.keys) (value : BuiltCatalog → α)
    (d : Dict CatalogKey α) : (b.serve value d).lookup key = some (value catalog) := by
  unfold GatewayCatalogBuild.serve
  rw [hb]
  simp only
  rw [Dict.lookup_insertAll, if_pos hkey]

/-- A new generation serves the keys of its build. -/
theorem buildCatalogState_serves {b : GatewayCatalogBuild} {catalog : BuiltCatalog} {key : CatalogKey}
    {environment release : String → Option String} {previous : Option GatewayCatalogState}
    {controls : Dict String ProviderDataControls} {policies : Dict String OrgProviderPolicy}
    {state : GatewayCatalogState} (hb : b.catalog = some catalog) (hkey : key ∈ b.keys)
    (h : buildCatalogState b environment release previous controls policies = .ok state) :
    Serves state key b catalog := by
  unfold buildCatalogState at h
  simp only [bind_eq_ok, pure_eq_ok] at h
  obtain ⟨credentials, -, rfl⟩ := h
  constructor
  · exact lookup_serve hb hkey _ _
  · exact lookup_serve hb hkey _ _
  · rw [Dict.getOrEmpty, lookup_serve hb hkey, Option.getD_some]
  · rw [Dict.getOrEmpty, lookup_serve hb hkey, Option.getD_some]
  · rw [lookup_serve hb hkey, Option.getD_some]

/-! ### The route of a plan -/

section plan
variable {i : Inputs} {b : GatewayCatalogBuild} {catalog : BuiltCatalog} {s : Assembler}
  {plan : AliasActivationPlan}

theorem Built.key_mem (h : Built i b catalog s) (hb : b.catalog = some catalog)
    (hp : plan ∈ b.aliasPlans) (org : Uuid) : (plan.authorization org).key ∈ b.keys := by
  obtain ⟨draft, -, rfl⟩ := h.plans plan hp
  unfold GatewayCatalogBuild.keys
  rw [hb]
  exact List.mem_map_of_mem hp

theorem Built.poolDeployments (h : Built i b catalog s) (hp : plan ∈ b.aliasPlans) :
    catalog.authored.poolDeployments plan.targetPoolId = some plan.targetDeploymentIds := by
  obtain ⟨draft, hok, rfl⟩ := h.plans plan hp
  rw [h.authored]
  unfold ModelCatalog.poolDeployments finalizePlan
  simp only
  cases hok.targets with
  | pool hname hpool hids =>
      rw [hpool]
      simp only
      rw [hids]
  | single hname hids =>
      have hnone : s.catalogPools.lookup draft.targetPoolId = none := by
        cases hl : s.catalogPools.lookup draft.targetPoolId with
        | none => rfl
        | some pool =>
            obtain ⟨m, o, he⟩ := h.names _ _ hl
            rw [hname] at he
            exact absurd he.symm (poolName_ne_deploymentAlias _ _ _)
      obtain ⟨r, -, -, hin⟩ := hok.canonical draft.targetPoolId
        (by rw [hids]; exact List.mem_singleton_self _)
      rw [hnone, hids]
      simp only
      rw [if_pos (h.complete.registered _ hin)]

theorem Built.canonical (h : Built i b catalog s) (hp : plan ∈ b.aliasPlans) {name : String}
    (hn : name ∈ plan.targetDeploymentIds) : ∃ m r, i.RowOf m r ∧ plan.orgId = m.owningOrgId ∧
      name = deploymentAlias r.id ∧ (s.providerByAlias.lookup name).isSome := by
  obtain ⟨draft, hok, rfl⟩ := h.plans plan hp
  obtain ⟨r, hrow, he, hin⟩ := hok.canonical name hn
  exact ⟨draft.model, r, hrow, rfl, he, hin⟩

end plan

end Experiential.Catalog
