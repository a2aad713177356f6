import Experiential.Catalog.Assembly

/-! # What a build contains

The loops over candidates, rows and models, on top of the methods. `Assembled` is what a
finished build guarantees: every entry of its dictionaries comes from its lane, every public
bring-your-own-key deployment has a variant for each organization whose connection can carry
it, and every alias plan names canonical deployments of its model, in the order of its pool. -/

namespace Experiential.Catalog

variable {i : Inputs} {s : Assembler}

/-! ### Variants -/

/-- Has the organization a variant of the deployment? -/
def Assembler.HasVariant (s : Assembler) (org deployment : String) : Prop :=
  ((s.variants.getOrEmpty org).lookup deployment).isSome

/-- Deployments and variants were added, nothing else. -/
structure Extended (i : Inputs) (s s' : Assembler) : Prop where
  sound : Sound i s'
  pools : s'.catalogPools = s.catalogPools
  providers : s'.providerByAlias = s.providerByAlias
  kept : ∀ d, (s.catalogModels.lookup d).isSome → (s'.catalogModels.lookup d).isSome
  variants : ∀ org d, s.HasVariant org d → s'.HasVariant org d

theorem Extended.rfl' (h : Sound i s) : Extended i s s :=
  ⟨h, rfl, rfl, fun _ h => h, fun _ _ h => h⟩

theorem Extended.trans {t u : Assembler} (h : Extended i s t) (h' : Extended i t u) :
    Extended i s u :=
  ⟨h'.sound, h'.pools.trans h.pools, h'.providers.trans h.providers,
    fun d hd => h'.kept d (h.kept d hd), fun o d hd => h'.variants o d (h.variants o d hd)⟩

theorem Deployed.extended {deployment : String} {out : Assembler × Option String}
    (h : Deployed i s deployment out) : Extended i s out.1 where
  sound := h.sound
  pools := h.pools
  providers := h.providers
  kept := h.kept
  variants := by
    intro o d hd
    unfold Assembler.HasVariant at hd ⊢
    rw [h.variants]
    exact hd

theorem hasVariant_setVariant (s : Assembler) (org canonical variant : String) :
    (s.setVariant org canonical variant).HasVariant org canonical := by
  unfold Assembler.HasVariant Assembler.setVariant
  rw [Dict.lookup_getOrEmpty_insert.mpr (.inl ⟨rfl, rfl, rfl⟩)]
  rfl

theorem HasVariant.setVariant {org canonical variant o d : String} (h : s.HasVariant o d) :
    (s.setVariant org canonical variant).HasVariant o d := by
  by_cases he : o = org ∧ d = canonical
  · obtain ⟨rfl, rfl⟩ := he
    exact hasVariant_setVariant s o d variant
  · obtain ⟨v, hv⟩ := Option.isSome_iff_exists.mp h
    unfold Assembler.HasVariant Assembler.setVariant
    rw [Dict.lookup_getOrEmpty_insert.mpr (.inr ⟨he, hv⟩)]
    rfl

section rows
variable {m : CatalogModelRow} {row : CatalogProviderRow}

theorem mem_variantCandidates {c : CatalogConnectionRow} :
    c ∈ variantCandidates i m row ↔ VariantCandidate i m row c := by
  unfold variantCandidates Inputs.connectionsByProvider
  rw [List.mem_filter, List.mem_filter, List.mem_insertionSort, decide_eq_true_eq]
  constructor
  · rintro ⟨⟨hc, hp⟩, ht⟩
    refine ⟨hc, hp, ?_⟩
    cases ho : m.owningOrgId with
    | none | some owner => rw [ho] at ht; exact of_decide_eq_true ht
  · rintro ⟨hc, hp, ht⟩
    refine ⟨⟨hc, hp⟩, ?_⟩
    cases ho : m.owningOrgId with
    | none | some owner => rw [ho] at ht; exact decide_eq_true ht

theorem addVariant_spec (ha : i.rows.Admitted) (h : Sound i s) (hrow : i.RowOf m row)
    {c : CatalogConnectionRow} (hc : VariantCandidate i m row c) {s' : Assembler}
    (hr : addVariant i m row (deploymentAlias row.id) s c = .ok s') :
    Extended i s s' ∧ (i.Carries row c → s'.HasVariant c.orgId.text (deploymentAlias row.id)) := by
  unfold addVariant at hr
  rw [bind_eq_ok] at hr
  obtain ⟨deployed, hd, hr⟩ := hr
  have hlane : ∀ record : ModelRecord, record.connection = connectionName c.id →
      record.billingSource = .customerManaged → RecordLane i (byokAlias row (some c.id)) record :=
    fun record hname _ => .variant hrow hc hname
  obtain ⟨hspec, hcarries⟩ := byokDeployment_spec ha h hc.connection hlane
    (not_requiredRow_variantAlias _ _) hd
  cases hv : deployed.2 with
  | none =>
      rw [hv] at hr hcarries
      cases hr
      refine ⟨hspec.extended, fun hq => ?_⟩
      simpa using hcarries.mpr hq
  | some variant =>
      rw [hv] at hr hcarries
      cases hr
      obtain ⟨rfl, hin⟩ := hspec.name variant hv
      have hset := hspec.sound.setVariant (.mk hrow hc (hcarries.mp rfl)) hin
      refine ⟨hspec.extended.trans ⟨hset, rfl, rfl, fun _ h => h, fun _ _ h => HasVariant.setVariant h⟩, ?_⟩
      intro _
      exact hasVariant_setVariant _ _ _ _

theorem foldlM_addVariant_spec (ha : i.rows.Admitted) (hrow : i.RowOf m row) :
    ∀ (l : List CatalogConnectionRow) (s s' : Assembler), Sound i s →
      (∀ c ∈ l, VariantCandidate i m row c) →
      l.foldlM (addVariant i m row (deploymentAlias row.id)) s = .ok s' →
      Extended i s s' ∧
        ∀ c ∈ l, i.Carries row c → s'.HasVariant c.orgId.text (deploymentAlias row.id)
  | [], s, s', h, _, hr => by
      simp only [List.foldlM_nil, pure_eq_ok] at hr
      subst hr
      exact ⟨.rfl' h, by intro c hc; cases hc⟩
  | c :: l, s, s', h, hl, hr => by
      simp only [List.foldlM_cons, bind_eq_ok] at hr
      obtain ⟨t, ht, hr⟩ := hr
      obtain ⟨hext, hnew⟩ := addVariant_spec ha h hrow (hl c List.mem_cons_self) ht
      obtain ⟨hext', hrest⟩ := foldlM_addVariant_spec ha hrow l t s' hext.sound
        (fun d hd => hl d (List.mem_cons_of_mem c hd)) hr
      refine ⟨hext.trans hext', ?_⟩
      intro d hd hcarries
      rcases List.mem_cons.mp hd with rfl | hd
      · exact hext'.variants _ _ (hnew hcarries)
      · exact hrest d hd hcarries

theorem addVariants_spec (ha : i.rows.Admitted) (h : Sound i s) (hrow : i.RowOf m row)
    (hin : (s.catalogModels.lookup (deploymentAlias row.id)).isSome) {s' : Assembler}
    (hr : addVariants i s m row (deploymentAlias row.id) = .ok s') :
    Extended i s s' ∧ (RequiresByok m row → ∀ c, VariantCandidate i m row c → i.Carries row c →
      s'.HasVariant c.orgId.text (deploymentAlias row.id)) := by
  unfold addVariants at hr
  split_ifs at hr with htakes hroutable
  · cases hr
    refine ⟨.rfl' h, fun hreq => ?_⟩
    have hmem := h.required_complete _ hin ⟨m, row, hrow, hreq, rfl⟩
    obtain ⟨record, hrecord⟩ := Option.isSome_iff_exists.mp hin
    unfold Assembler.takesVariants at htakes
    rw [hrecord] at htakes
    simp [hmem] at htakes
  · cases hr
    refine ⟨.rfl' h, fun _ c hc hcarries => ?_⟩
    have := hcarries.routable
    rw [hc.provider, hroutable] at this
    cases this
  · obtain ⟨hext, hall⟩ := foldlM_addVariant_spec ha hrow _ s s' h
      (fun c hc => mem_variantCandidates.mp hc) hr
    exact ⟨hext, fun _ c hc => hall c (mem_variantCandidates.mpr hc)⟩

end rows

/-! ### Rows -/

/-- Every canonical deployment that requires a key has the variants it can have. -/
structure Complete (i : Inputs) (s : Assembler) : Prop where
  registered : ∀ d, (s.providerByAlias.lookup d).isSome → (s.catalogModels.lookup d).isSome
  variants : ∀ m r, i.RowOf m r → RequiresByok m r →
    (s.providerByAlias.lookup (deploymentAlias r.id)).isSome →
    ∀ c, VariantCandidate i m r c → i.Carries r c → s.HasVariant c.orgId.text (deploymentAlias r.id)

/-- A canonical deployment of the model. -/
def Canonical (i : Inputs) (m : CatalogModelRow) (s : Assembler) (d : String) : Prop :=
  ∃ r, i.RowOf m r ∧ d = deploymentAlias r.id ∧ (s.providerByAlias.lookup d).isSome

/-- Between two rows of a model. -/
structure RowsDone (i : Inputs) (m : CatalogModelRow) (s : Assembler) (a : ModelAssembly) : Prop where
  sound : Sound i a.assembler
  complete : Complete i a.assembler
  pools : a.assembler.catalogPools = s.catalogPools
  providers : ∀ d, (s.providerByAlias.lookup d).isSome → (a.assembler.providerByAlias.lookup d).isSome
  ordered : ∀ d ∈ a.orderedCanonicals, Canonical i m a.assembler d
  byRow : ∀ k d, a.canonicalByProviderRow.lookup k = some d → Canonical i m a.assembler d

theorem Complete.of_extended {t : Assembler} (h : Complete i s) (he : Extended i s t) : Complete i t where
  registered := by
    intro d hd
    rw [he.providers] at hd
    exact he.kept d (h.registered d hd)
  variants := by
    intro m r hrow hreq hd c hc hcarries
    rw [he.providers] at hd
    exact he.variants _ _ (h.variants m r hrow hreq hd c hc hcarries)

theorem isSome_markProvider {d canonical : String} {p : Provider} :
    ((s.markProvider canonical p).providerByAlias.lookup d).isSome ↔
      d = canonical ∨ (s.providerByAlias.lookup d).isSome := by
  rw [AList.lookup_isSome, AList.lookup_isSome]
  exact AList.mem_insert _

theorem assembleRow_spec (ha : i.rows.Admitted) {m : CatalogModelRow} {s : Assembler}
    {a a' : ModelAssembly} {row : CatalogProviderRow} (hrow : i.RowOf m row) (h : RowsDone i m s a)
    (hr : assembleRow i m a row = .ok a') : RowsDone i m s a' := by
  unfold assembleRow at hr
  split_ifs at hr with hdisabled
  · cases hr
    exact h
  · rw [bind_eq_ok] at hr
    obtain ⟨deployed, hd, hr⟩ := hr
    have hspec := canonicalDeployment_spec ha h.sound hrow hd
    have hext := hspec.extended
    cases hn : deployed.2 with
    | none =>
        rw [hn] at hr
        cases hr
        have hcanon : ∀ d, Canonical i m a.assembler d → Canonical i m deployed.1 d := by
          rintro d ⟨r, hr, rfl, hin⟩
          exact ⟨r, hr, rfl, by rw [hext.providers]; exact hin⟩
        exact ⟨hext.sound, h.complete.of_extended hext, hext.pools.trans h.pools,
          fun d hd => by rw [hext.providers]; exact h.providers d hd,
          fun d hd => hcanon d (h.ordered d hd), fun k d hd => hcanon d (h.byRow k d hd)⟩
    | some canonical =>
        rw [hn] at hr
        simp only [bind_eq_ok, pure_eq_ok] at hr
        obtain ⟨s', hv, rfl⟩ := hr
        obtain ⟨rfl, hin⟩ := hspec.name canonical hn
        -- the alias is marked before its variants are added
        obtain ⟨hext', hall⟩ := addVariants_spec ha (hspec.sound.markProvider _ _) hrow hin hv
        have hproviders : ∀ d, (a.assembler.providerByAlias.lookup d).isSome →
            (s'.providerByAlias.lookup d).isSome := by
          intro d hd
          rw [hext'.providers]
          exact isSome_markProvider.mpr (.inr (by rw [hext.providers]; exact hd))
        have hself : (s'.providerByAlias.lookup (deploymentAlias row.id)).isSome := by
          rw [hext'.providers]
          exact isSome_markProvider.mpr (.inl rfl)
        have hcanon : ∀ d, Canonical i m a.assembler d → Canonical i m s' d := by
          rintro d ⟨r, hr, rfl, hd⟩
          exact ⟨r, hr, rfl, hproviders _ hd⟩
        have hnew : Canonical i m s' (deploymentAlias row.id) := ⟨row, hrow, rfl, hself⟩
        refine ⟨hext'.sound, ⟨?_, ?_⟩, hext'.pools.trans (hext.pools.trans h.pools),
          fun d hd => hproviders d (h.providers d hd), ?_, ?_⟩
        · intro d hd
          rw [hext'.providers] at hd
          rcases isSome_markProvider.mp hd with rfl | hd
          · exact hext'.kept _ hin
          · rw [hext.providers] at hd
            exact hext'.kept d (hext.kept d (h.complete.registered d hd))
        · intro m' r hr' hreq hd c hc hcarries
          rw [hext'.providers] at hd
          rcases isSome_markProvider.mp hd with he | hd
          · obtain rfl := ha.provider_eq hr'.row hrow.row (deploymentAlias_inj he)
            obtain rfl := ha.model_eq hr'.model hrow.model (hr'.model_id.symm.trans hrow.model_id)
            exact hall hreq c hc hcarries
          · rw [hext.providers] at hd
            exact hext'.variants _ _ (hext.variants _ _ (h.complete.variants m' r hr' hreq hd c hc
              hcarries))
        · intro d hd
          rcases List.mem_append.mp hd with hd | hd
          · exact hcanon d (h.ordered d hd)
          · rw [List.mem_singleton] at hd
            exact hd ▸ hnew
        · intro k d hd
          rcases Dict.lookup_insert_eq_some.mp hd with ⟨-, rfl⟩ | ⟨-, hd⟩
          · exact hnew
          · exact hcanon d (h.byRow k d hd)

theorem foldlM_assembleRow_spec (ha : i.rows.Admitted) {m : CatalogModelRow} {s : Assembler} :
    ∀ (l : List CatalogProviderRow) (a a' : ModelAssembly), (∀ r ∈ l, i.RowOf m r) →
      RowsDone i m s a → l.foldlM (assembleRow i m) a = .ok a' → RowsDone i m s a'
  | [], a, a', _, h, hr => by
      simp only [List.foldlM_nil, pure_eq_ok] at hr
      exact hr ▸ h
  | r :: l, a, a', hl, h, hr => by
      simp only [List.foldlM_cons, bind_eq_ok] at hr
      obtain ⟨b, hb, hr⟩ := hr
      exact foldlM_assembleRow_spec ha l b a' (fun r' hr' => hl r' (List.mem_cons_of_mem r hr'))
        (assembleRow_spec ha (hl r List.mem_cons_self) h hb) hr

/-! ### Models -/

/-- The names of pools. -/
def PoolNames (pools : Dict String GatewayPoolRecord) : Prop :=
  pools.All fun name _ => ∃ m o, name = poolName m o

/-- The target of a draft is a pool with its deployments in order, or its only deployment. -/
inductive Targets (pools : Dict String GatewayPoolRecord) (draft : AliasPlanDraft) : Prop where
  | pool {o : Option Uuid} {pool : GatewayPoolRecord}
      (hname : draft.targetPoolId = poolName draft.model.id o)
      (hpool : pools.lookup draft.targetPoolId = some pool)
      (hids : pool.deploymentAliases = draft.deploymentIds)
  | single {r : Uuid} (hname : draft.targetPoolId = deploymentAlias r)
      (hids : draft.deploymentIds = [draft.targetPoolId])

structure DraftOk (i : Inputs) (s : Assembler) (draft : AliasPlanDraft) : Prop where
  model : draft.model ∈ i.rows.models
  canonical : ∀ d ∈ draft.deploymentIds, Canonical i draft.model s d
  targets : Targets s.catalogPools draft

/-- After a model. -/
structure ModelDone (i : Inputs) (m : CatalogModelRow) (s : Assembler)
    (out : Assembler × Option AliasPlanDraft) : Prop where
  sound : Sound i out.1
  complete : Complete i out.1
  names : PoolNames out.1.catalogPools
  pools : ∀ k, (∀ o, k ≠ poolName m.id o) → out.1.catalogPools.lookup k = s.catalogPools.lookup k
  providers : ∀ d, (s.providerByAlias.lookup d).isSome → (out.1.providerByAlias.lookup d).isSome
  draft : ∀ draft, out.2 = some draft → draft.model = m ∧ DraftOk i out.1 draft

section models
variable {m : CatalogModelRow}

theorem mem_routableRungs {a : ModelAssembly} {chain : List CatalogWaterfallRow} {o : Option Uuid}
    {d : String} (h : d ∈ routableRungs a chain o) :
    ∃ k, a.canonicalByProviderRow.lookup k = some d := by
  have hm : d ∈ chain.filterMap fun g => a.canonicalByProviderRow.lookup g.modelProviderId.text := by
    unfold routableRungs at h
    simp only at h
    split_ifs at h with hhouse
    · unfold Assembler.houseOrdered at h
      exact (List.mem_insertionSort _).mp h
    · exact h
  obtain ⟨g, -, hg⟩ := List.mem_filterMap.mp hm
  exact ⟨_, hg⟩

theorem warnOverrides_eq (s : Assembler) :
    ∃ w, s.warnOverrides i m = { s with warnings := w } := by
  unfold Assembler.warnOverrides
  generalize foreignOverrides i m = orgs
  induction orgs generalizing s with
  | nil => exact ⟨s.warnings, rfl⟩
  | cons o orgs ih =>
      obtain ⟨w, hw⟩ := ih (s.warn _)
      exact ⟨w, hw⟩

/-- Drafting writes warnings, and the pool when there is one. -/
theorem draftAliasPlan_spec {a : ModelAssembly} {first : String} {out : Assembler × AliasPlanDraft}
    (hfirst : first ∈ a.orderedCanonicals) (hm : m ∈ i.rows.models) (h : RowsDone i m s a)
    (hnames : PoolNames s.catalogPools) (hr : draftAliasPlan i m a first = .ok out) :
    ModelDone i m s (out.1, some out.2) := by
  obtain ⟨w, hw⟩ := warnOverrides_eq (i := i) (m := m) a.assembler
  have hcanon : ∀ d ∈ routableRungs a (modelChain i m).1 (modelChain i m).2,
      Canonical i m a.assembler d := by
    intro d hd
    obtain ⟨k, hk⟩ := mem_routableRungs hd
    exact h.byRow k d hk
  unfold draftAliasPlan at hr
  simp only [hw] at hr
  generalize hs : (if (routableRungs a (modelChain i m).1 (modelChain i m).2).length <
      (modelChain i m).1.length then
    Assembler.warn { a.assembler with warnings := w } _
    else { a.assembler with warnings := w }) = t at hr
  obtain ⟨w', ht⟩ : ∃ w', t = { a.assembler with warnings := w' } := by
    split_ifs at hs with hlt
    · exact ⟨_, hs.symm⟩
    · exact ⟨w, hs.symm⟩
  have hnoted : Sound i t := by
    rw [ht]
    exact h.sound.noted w' h.sound.probed
  have hcomplete : Complete i t := by
    rw [ht]
    exact ⟨h.complete.registered, h.complete.variants⟩
  have hpools : t.catalogPools = s.catalogPools := by rw [ht]; exact h.pools
  have hproviders : t.providerByAlias = a.assembler.providerByAlias := by rw [ht]
  have hcanon' : ∀ d, Canonical i m a.assembler d → Canonical i m t d := by
    rintro d ⟨r, hrow, rfl, hin⟩
    exact ⟨r, hrow, rfl, by rw [hproviders]; exact hin⟩
  have hkept : ∀ d, (s.providerByAlias.lookup d).isSome → (t.providerByAlias.lookup d).isSome := by
    rw [hproviders]
    exact h.providers
  -- a single deployment, whichever it is
  have hsingle : ∀ d, Canonical i m a.assembler d →
      ModelDone i m s (t, some ⟨m, d, [d], none, []⟩) := by
    intro d hd
    refine ⟨hnoted, hcomplete, by rw [hpools]; exact hnames, fun k _ => by rw [hpools], hkept, ?_⟩
    intro draft he
    cases he
    refine ⟨rfl, hm, ?_, ?_⟩
    · intro d' hd'
      rw [List.mem_singleton] at hd'
      exact hd' ▸ hcanon' d hd
    · obtain ⟨r, -, rfl, -⟩ := hd
      exact .single rfl rfl
  cases hrungs : routableRungs a (modelChain i m).1 (modelChain i m).2 with
  | nil =>
      simp only [hrungs] at hr
      cases hr
      exact hsingle first (h.ordered first hfirst)
  | cons primary rest =>
      rw [hrungs] at hcanon
      cases rest with
      | nil =>
          simp only [hrungs] at hr
          cases hr
          exact hsingle primary (hcanon primary List.mem_cons_self)
      | cons second rest =>
          simp only [hrungs, bind_eq_ok, pure_eq_ok] at hr
          obtain ⟨certification, -, rfl⟩ := hr
          refine ⟨hnoted.addPool _ _, ⟨hcomplete.registered, hcomplete.variants⟩, ?_, ?_, hkept, ?_⟩
          · refine Dict.All.insert ?_ ⟨m.id, _, rfl⟩
            rw [hpools]
            exact hnames
          · intro k hk
            rw [← hpools]
            exact AList.lookup_insert_ne (hk _)
          · intro draft he
            cases he
            exact ⟨rfl, hm, fun d hd => hcanon' d (hcanon d hd),
              .pool rfl (AList.lookup_insert _) rfl⟩

theorem mem_providersByModel {r : CatalogProviderRow} (hm : m ∈ i.rows.models)
    (h : r ∈ i.providersByModel m.id) : i.RowOf m r := by
  unfold Inputs.providersByModel at h
  rw [List.mem_filter, List.mem_insertionSort, decide_eq_true_eq] at h
  exact ⟨hm, h.1, h.2⟩

theorem assembleModel_spec (ha : i.rows.Admitted) (hm : m ∈ i.rows.models) (h : Sound i s)
    (hc : Complete i s) (hnames : PoolNames s.catalogPools) {out : Assembler × Option AliasPlanDraft}
    (hr : assembleModel i m s = .ok out) : ModelDone i m s out := by
  unfold assembleModel at hr
  rw [bind_eq_ok] at hr
  obtain ⟨assembled, ha', hr⟩ := hr
  have hstart : RowsDone i m s ⟨s, ∅, []⟩ :=
    ⟨h, hc, rfl, fun _ hd => hd, (by intro d hd; cases hd), (by intro k d hd; simp at hd)⟩
  have hdone := foldlM_assembleRow_spec ha _ _ _ (fun r hr => mem_providersByModel hm hr) hstart ha'
  cases ho : assembled.orderedCanonicals with
  | nil =>
      rw [ho] at hr
      cases hr
      refine ⟨hdone.sound.warn _, ⟨hdone.complete.registered, hdone.complete.variants⟩, ?_, ?_,
        hdone.providers, by intro draft he; cases he⟩
      · show PoolNames assembled.assembler.catalogPools
        rw [hdone.pools]
        exact hnames
      · intro k _
        show assembled.assembler.catalogPools.lookup k = _
        rw [hdone.pools]
  | cons first rest =>
      rw [ho] at hr
      simp only [bind_eq_ok, pure_eq_ok] at hr
      obtain ⟨drafted, hd, rfl⟩ := hr
      exact draftAliasPlan_spec (by rw [ho]; exact List.mem_cons_self) hm hdone hnames hd

/-- Another model leaves a draft's deployments and pool as they are. -/
theorem DraftOk.kept {draft : AliasPlanDraft} {out : Assembler × Option AliasPlanDraft}
    (h : DraftOk i s draft) (hdone : ModelDone i m s out) (hne : draft.model.id ≠ m.id) :
    DraftOk i out.1 draft := by
  refine ⟨h.model, ?_, ?_⟩
  · intro d hd
    obtain ⟨r, hr, rfl, hin⟩ := h.canonical d hd
    exact ⟨r, hr, rfl, hdone.providers _ hin⟩
  · cases h.targets with
    | single hname hids => exact .single hname hids
    | pool hname hpool hids =>
        refine .pool hname ?_ hids
        rw [hdone.pools, hpool]
        intro o he
        rw [hname] at he
        exact hne (poolName_inj he)

end models

/-! ### Builds -/

/-- Between two models: the models of `done` have been drafted or skipped. -/
structure ModelsDone (i : Inputs) (done : List CatalogModelRow) (s : Assembler)
    (drafts : List AliasPlanDraft) : Prop where
  sound : Sound i s
  complete : Complete i s
  names : PoolNames s.catalogPools
  ok : ∀ draft ∈ drafts, DraftOk i s draft
  models : (drafts.map (·.model)).Sublist done

theorem foldlM_buildModel_spec (ha : i.rows.Admitted) :
    ∀ (l done : List CatalogModelRow) (a a' : Assembler × List AliasPlanDraft),
      (∀ m ∈ l, m ∈ i.rows.models) → ((done ++ l).map (·.id)).Nodup →
      ModelsDone i done a.1 a.2 → l.foldlM (buildModel i) a = .ok a' →
      ModelsDone i (done ++ l) a'.1 a'.2
  | [], done, a, a', _, _, h, hr => by
      simp only [List.foldlM_nil, pure_eq_ok] at hr
      subst hr
      rw [List.append_nil]
      exact h
  | m :: l, done, a, a', hl, hnd, h, hr => by
      simp only [List.foldlM_cons, bind_eq_ok] at hr
      obtain ⟨b, hb, hr⟩ := hr
      unfold buildModel at hb
      simp only [bind_eq_ok, pure_eq_ok] at hb
      obtain ⟨out, hout, rfl⟩ := hb
      have hdone := assembleModel_spec ha (hl m List.mem_cons_self) h.sound h.complete h.names hout
      have hne : ∀ draft ∈ a.2, draft.model.id ≠ m.id := by
        intro draft hd he
        have hmem := h.models.subset (List.mem_map_of_mem hd)
        rw [List.map_append, List.nodup_append] at hnd
        exact hnd.2.2 _ (List.mem_map_of_mem hmem) _ (List.mem_map_of_mem List.mem_cons_self) he
      have hstep : ModelsDone i (done ++ [m]) out.1 (a.2 ++ out.2.toList) := by
        refine ⟨hdone.sound, hdone.complete, hdone.names, ?_, ?_⟩
        · intro draft hd
          rcases List.mem_append.mp hd with hd | hd
          · exact (h.ok draft hd).kept hdone (hne draft hd)
          · exact (hdone.draft draft (by simpa using hd)).2
        · rw [List.map_append]
          refine h.models.append ?_
          cases ho : out.2 with
          | none => exact List.nil_sublist _
          | some draft =>
              obtain ⟨rfl, -⟩ := hdone.draft draft ho
              exact List.Sublist.refl _
      have := foldlM_buildModel_spec ha l (done ++ [m]) _ a'
        (fun m' hm' => hl m' (List.mem_cons_of_mem m hm')) (by simpa using hnd) hstep hr
      simpa using this

/-- What a build with a catalog guarantees. -/
structure Built (i : Inputs) (b : GatewayCatalogBuild) (catalog : BuiltCatalog) (s : Assembler) :
    Prop where
  sound : Sound i s
  complete : Complete i s
  authored : catalog.authored = ⟨s.catalogConnections, s.catalogModels, s.catalogPools⟩
  normalized : i.engine.normalize catalog.authored = some catalog.normalized
  names : PoolNames s.catalogPools
  variants : b.byokDeploymentVariants = s.variants
  refs : b.credentialRefs = s.sortedRefs
  required : b.byokRequiredDeployments = s.byokRequiredCanonicals
  plans : ∀ plan ∈ b.aliasPlans, ∃ draft, DraftOk i s draft ∧
    plan = finalizePlan i s catalog.catalogSha256 draft
  aliasIds : (b.aliasPlans.map (·.aliasId)).Nodup

theorem buildGatewayCatalog_spec (ha : i.rows.Admitted) {b : GatewayCatalogBuild}
    (hr : buildGatewayCatalog i = .ok b) :
    (b.catalog = none → b.aliasPlans = []) ∧
      ∀ catalog, b.catalog = some catalog → ∃ s, Built i b catalog s := by
  unfold buildGatewayCatalog at hr
  rw [bind_eq_ok] at hr
  obtain ⟨built, hb, hr⟩ := hr
  have hmem : ∀ m ∈ i.models, m ∈ i.rows.models := by
    intro m hm
    exact (List.mem_insertionSort _).mp hm
  have hnd : ((([] : List CatalogModelRow) ++ i.models).map (·.id)).Nodup := by
    have hp := (List.perm_insertionSort (fun a b : CatalogModelRow =>
      a.slug < b.slug ∨ a.slug = b.slug ∧ a.id.text ≤ b.id.text) i.rows.models).map (·.id)
    exact hp.nodup_iff.mpr ha.models_pkey
  have hstart : ModelsDone i [] (Assembler.empty, ([] : List AliasPlanDraft)).1 [] :=
    ⟨sound_empty i, ⟨(by intro d hd; simp [Assembler.empty] at hd),
      (by intro m r _ _ hd; simp [Assembler.empty] at hd)⟩, Dict.all_empty,
      (by intro d hd; cases hd), List.nil_sublist _⟩
  have hdone := foldlM_buildModel_spec ha i.models [] _ built hmem hnd hstart hb
  simp only at hr
  split_ifs at hr with hempty
  · rw [pure_eq_ok] at hr
    subst hr
    exact ⟨fun _ => rfl, (by intro catalog he; cases he)⟩
  · simp only [bind_eq_ok, require_eq_ok, pure_eq_ok] at hr
    obtain ⟨normalized, hn, rfl⟩ := hr
    refine ⟨(by intro he; cases he), ?_⟩
    intro catalog he
    cases he
    refine ⟨built.1, hdone.sound, hdone.complete, rfl, hn, hdone.names, rfl, rfl, rfl, ?_, ?_⟩
    · intro plan hp
      rw [List.mem_insertionSort] at hp
      obtain ⟨draft, hd, rfl⟩ := List.mem_map.mp hp
      exact ⟨draft, hdone.ok draft hd, rfl⟩
    · have hperm := (List.perm_insertionSort (fun a b : AliasActivationPlan => a.aliasId ≤ b.aliasId)
        (built.2.map (finalizePlan i built.1 (i.engine.identitySha256 normalized)))).map (·.aliasId)
      have hids : (built.2.map (finalizePlan i built.1 (i.engine.identitySha256 normalized))).map
          (·.aliasId) = ((built.2.map (·.model)).map (·.id)).map modelAliasId := by
        simp [finalizePlan]
      rw [hperm.nodup_iff, hids]
      have hsub : ((built.2.map (·.model)).map (·.id)).Nodup := (hdone.models.map (·.id)).nodup hnd
      exact hsub.map fun _ _ => modelAliasId_inj

end Experiential.Catalog
