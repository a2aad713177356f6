import Experiential.Catalog.Lanes

/-! # The assembler's methods keep the lanes

One lemma per method of the assembler: it keeps `Sound`, what it returns is a name of its
lane, and what it does not write is as it was. Over the methods, `assembleRow` keeps
`Complete`: an organization has a variant for a canonical deployment that takes variants
exactly when one of its connections can carry the row. -/

namespace Experiential.Catalog

variable {i : Inputs} {s : Assembler}

/-- The dictionaries of deployments are untouched. -/
structure SameDeployments (s s' : Assembler) : Prop where
  models : s'.catalogModels = s.catalogModels
  pools : s'.catalogPools = s.catalogPools
  providers : s'.providerByAlias = s.providerByAlias
  variants : s'.variants = s.variants

theorem SameDeployments.rfl' (s : Assembler) : SameDeployments s s := ⟨rfl, rfl, rfl, rfl⟩

theorem SameDeployments.trans {s t u : Assembler} (h : SameDeployments s t)
    (h' : SameDeployments t u) : SameDeployments s u :=
  ⟨h'.models.trans h.models, h'.pools.trans h.pools, h'.providers.trans h.providers,
    h'.variants.trans h.variants⟩

theorem SameDeployments.refuse (s : Assembler) (message : Option String) :
    SameDeployments s (s.refuse message) := by
  cases message with
  | none => exact .rfl' s
  | some message => exact ⟨rfl, rfl, rfl, rfl⟩

/-! ### Probing -/

/-- The probe's answer, cached or not, is the connection's releasability. -/
theorem connectionReleasable_snd (h : Sound i s) (c : CatalogConnectionRow) :
    (connectionReleasable i s c).2 = i.releasable c := by
  unfold connectionReleasable Inputs.releasable
  cases hp : i.releaseProbe with
  | none => rfl
  | some probe =>
      cases hl : s.probedReleasable.lookup c.id.text with
      | none => rfl
      | some cached => exact h.probed _ _ hl probe hp

theorem noteProbe_eq (s : Assembler) (c : CatalogConnectionRow) (b : Bool) :
    ∃ w, s.noteProbe c b =
      { s with warnings := w, probedReleasable := s.probedReleasable.insert c.id.text b } := by
  cases b with
  | true | false => exact ⟨_, rfl⟩

/-- Probing notes its answer and, the first time it is negative, a warning. -/
theorem connectionReleasable_fst (h : Sound i s) (c : CatalogConnectionRow) :
    ∃ w p, (connectionReleasable i s c).1 = { s with warnings := w, probedReleasable := p } ∧
      Dict.All (fun id b => ∀ probe, i.releaseProbe = some probe → b = probe id) p := by
  unfold connectionReleasable
  cases hp : i.releaseProbe with
  | none => exact ⟨s.warnings, s.probedReleasable, rfl, by rw [← hp]; exact h.probed⟩
  | some probe =>
      cases hl : s.probedReleasable.lookup c.id.text with
      | some cached => exact ⟨s.warnings, s.probedReleasable, rfl, by rw [← hp]; exact h.probed⟩
      | none =>
          obtain ⟨w, hw⟩ := noteProbe_eq s c (probe c.id.text)
          refine ⟨w, _, hw, ?_⟩
          have hold := h.probed
          rw [hp] at hold
          refine hold.insert ?_
          intro q hq
          cases hq
          rfl

theorem connectionReleasable_sound (h : Sound i s) (c : CatalogConnectionRow) :
    Sound i (connectionReleasable i s c).1 := by
  obtain ⟨w, p, he, hp⟩ := connectionReleasable_fst h c
  rw [he]
  exact h.noted w hp

theorem connectionReleasable_same (h : Sound i s) (c : CatalogConnectionRow) :
    SameDeployments s (connectionReleasable i s c).1 := by
  obtain ⟨w, p, he, -⟩ := connectionReleasable_fst h c
  rw [he]
  exact ⟨rfl, rfl, rfl, rfl⟩

/-! ### Connections -/

/-- A method that registers a connection. -/
structure Registered (i : Inputs) (s : Assembler) (Name : String → Prop)
    (r : Assembler × Option String) : Prop where
  sound : Sound i r.1
  same : SameDeployments s r.1
  name : ∀ n, r.2 = some n → Name n ∧ (r.1.catalogConnections.lookup n).isSome

theorem Registered.nothing {Name : String → Prop} {s' : Assembler} (h : Sound i s')
    (hs : SameDeployments s s') : Registered i s Name (s', none) :=
  ⟨h, hs, by intro n hn; cases hn⟩

theorem Registered.cached {Name : String → Prop} {name : String} (h : Sound i s)
    (hn : (s.catalogConnections.lookup name).isSome) (hname : Name name) :
    Registered i s Name (s, some name) :=
  ⟨h, .rfl' s, by intro n he; cases he; exact ⟨hname, hn⟩⟩

theorem Registered.added {Name : String → Prop} {s' : Assembler} {name : String}
    {config : ConnectionConfig} {ref : Option ConnectionCredentialRef}
    (hsame : SameDeployments s s') (h : Sound i (s'.addConnection name config ref))
    (hname : Name name) : Registered i s Name (s'.addConnection name config ref, some name) := by
  refine ⟨h, hsame.trans ⟨rfl, rfl, rfl, rfl⟩, ?_⟩
  intro n he
  cases he
  refine ⟨hname, ?_⟩
  rw [AList.lookup_isSome]
  exact (AList.mem_insert _).mpr (.inl rfl)

theorem Registered.mono {Name Name' : String → Prop} {r : Assembler × Option String}
    (h : Registered i s Name r) (hn : ∀ n, Name n → Name' n) : Registered i s Name' r :=
  ⟨h.sound, h.same, fun n he => ⟨hn n (h.name n he).1, (h.name n he).2⟩⟩

variable {c : CatalogConnectionRow}

theorem byokConnectionConfig_apiKeyEnv {config : ConnectionConfig}
    (h : byokConnectionConfig i c = .ok config) : config.apiKeyEnv = some (i.byokEnv c.id.text) := by
  unfold byokConnectionConfig at h
  split_ifs at h with h1 h2
  · split at h
    · cases h
    · cases h; rfl
  · split at h
    · cases h
    · cases h; rfl
  · cases h; rfl

theorem registerByokConnection_spec (ha : i.rows.Admitted) (h : Sound i s)
    (hc : c ∈ i.rows.connections) {r : Assembler × Option String}
    (hr : registerByokConnection i s c = .ok r) :
    Registered i s (fun n => n = connectionName c.id) r ∧ (r.2.isSome ↔ i.Usable c) := by
  unfold registerByokConnection at hr
  split_ifs at hr with hin
  · -- already there: the entry's lane says that it is usable
    cases hr
    refine ⟨.cached h hin rfl, iff_of_true rfl ?_⟩
    obtain ⟨config, hconfig⟩ := Option.isSome_iff_exists.mp hin
    have hlane := h.connections _ _ hconfig
    generalize hname : connectionName c.id = name at hlane
    cases hlane with
    | byok hd hrel hcfg =>
        obtain rfl := ha.connection_eq hc hd (connectionName_inj hname)
        exact ⟨hrel, _, hcfg⟩
    | _ => exact absurd (congrArg lane hname) (by simp)
  · have hsound := connectionReleasable_sound h c
    have hsame := connectionReleasable_same h c
    have hrel := connectionReleasable_snd h c
    simp only at hr
    split_ifs at hr with hp
    · cases hr
      rw [hrel] at hp
      refine ⟨.nothing hsound hsame, by simp, fun hu => ?_⟩
      rw [hu.1] at hp
      cases hp
    · rw [hrel, Bool.not_eq_false] at hp
      cases hcfg : byokConnectionConfig i c with
      | error message =>
          rw [hcfg] at hr
          cases hr
          refine ⟨.nothing (hsound.warn message) (hsame.trans ⟨rfl, rfl, rfl, rfl⟩), by simp, ?_⟩
          rintro ⟨-, config, hok⟩
          rw [hcfg] at hok
          cases hok
      | ok config =>
          rw [hcfg] at hr
          simp only [bind_eq_ok, pure_eq_ok] at hr
          obtain ⟨-, -, rfl⟩ := hr
          exact ⟨.added hsame (hsound.addReferenced (.byok hc hp hcfg)
            (byokConnectionConfig_apiKeyEnv hcfg) (.byok hc)) rfl, iff_of_true rfl ⟨hp, config, hcfg⟩⟩

theorem registerPlatformConnection_spec (h : Sound i s) {p : Provider} {r : Assembler × Option String}
    (hr : registerPlatformConnection i s p = .ok r) :
    Registered i s (fun n => n = platformName p) r := by
  unfold registerPlatformConnection at hr
  cases henv : p.platformCredentialEnv with
  | none =>
      rw [henv] at hr
      cases hr
      exact .nothing h (.rfl' s)
  | some env =>
      rw [henv] at hr
      simp only at hr
      split_ifs at hr with hset hin
      · cases hr
        exact .nothing h (.rfl' s)
      · cases hr
        exact .cached h hin rfl
      · simp only [bind_eq_ok, pure_eq_ok] at hr
        obtain ⟨-, -, rfl⟩ := hr
        exact .added (.rfl' s) (h.addReferenced (.platform henv) rfl (.platform henv)) rfl

theorem registerBedrockConnection_spec (h : Sound i s) {region : Option String} {r : Assembler × String}
    (hr : registerBedrockConnection i s region = .ok r) :
    Registered i s (fun n => n = bedrockName region) (r.1, some r.2) := by
  unfold registerBedrockConnection at hr
  split_ifs at hr with hin
  · cases hr
    exact .cached h hin rfl
  · simp only [bind_eq_ok, pure_eq_ok] at hr
    obtain ⟨-, -, rfl⟩ := hr
    refine .added (.rfl' s) (@Sound.addConnection i s h _ _ none (.bedrock region) rfl ?_) rfl
    intro ref href
    cases href

theorem byokRequiredConfig_apiKeyEnv {r : CatalogProviderRow} {config : ConnectionConfig}
    (h : byokRequiredConfig i r = .ok config) :
    config.apiKeyEnv = some (i.byokEnv ("byok-required:" ++ r.id.text)) := by
  unfold byokRequiredConfig at h
  split_ifs at h with h1 h2
  · split at h
    · cases h
    · cases h; rfl
  · cases h; rfl
  · cases h; rfl

theorem registerByokRequiredConnection_spec (h : Sound i s) {row : CatalogProviderRow}
    (hrow : row ∈ i.rows.providers) {r : Assembler × Option String}
    (hr : registerByokRequiredConnection i s row = .ok r) :
    Registered i s (fun n => n = byokRequiredName row.id) r := by
  unfold registerByokRequiredConnection at hr
  split_ifs at hr with hin
  · cases hr
    exact .cached h hin rfl
  · cases hcfg : byokRequiredConfig i row with
    | error message =>
        rw [hcfg] at hr
        cases hr
        exact .nothing (h.warn message) ⟨rfl, rfl, rfl, rfl⟩
    | ok config =>
        rw [hcfg] at hr
        simp only [bind_eq_ok, pure_eq_ok] at hr
        obtain ⟨-, -, rfl⟩ := hr
        exact .added (.rfl' s) (h.addReferenced (.byokRequired hrow hcfg)
          (byokRequiredConfig_apiKeyEnv hcfg) (.byokRequired hrow)) rfl

/-! ### Host connections -/

theorem houseConnection_mem {p : Provider} (h : i.houseConnection p = some c) :
    c ∈ i.rows.connections ∧ some c.orgId = i.rows.houseOrgId ∧ c.provider = p := by
  unfold Inputs.houseConnection at h
  rw [Option.bind_eq_some_iff] at h
  obtain ⟨house, hhouse, hc⟩ := h
  unfold Inputs.connectionByOrgProvider at hc
  have hm := List.mem_filter.mp (List.mem_of_getLast? hc)
  simp only [Bool.and_eq_true, decide_eq_true_eq] at hm
  exact ⟨hm.1, by rw [hm.2.1, hhouse], hm.2.2⟩

section host
variable {row : CatalogProviderRow} {r : Assembler × Option HostConnection}

theorem registerHouseConnection_spec (ha : i.rows.Admitted) (h : Sound i s)
    {out : Assembler × Option String} (hr : registerHouseConnection i s row = .ok out) :
    Registered i s (HostName i row) out := by
  unfold registerHouseConnection at hr
  cases hc : i.houseConnection row.provider with
  | none =>
      rw [hc] at hr
      cases hr
      exact .nothing h (.rfl' s)
  | some house =>
      rw [hc] at hr
      obtain ⟨hmem, horg, hp⟩ := houseConnection_mem hc
      refine (registerByokConnection_spec ha h hmem hr).1.mono ?_
      rintro n rfl
      exact .house hmem horg hp

theorem registerFixedOriginHostConnection_spec (ha : i.rows.Admitted) (h : Sound i s)
    (hr : registerFixedOriginHostConnection i s row = .ok r) :
    Registered i s (HostName i row) (r.1, r.2.map (·.name)) := by
  unfold registerFixedOriginHostConnection at hr
  rw [bind_eq_ok] at hr
  obtain ⟨housed, hh, hr⟩ := hr
  have hhouse := registerHouseConnection_spec ha h hh
  cases hn : housed.2 with
  | some name =>
      rw [hn] at hr
      cases hr
      refine ⟨hhouse.sound, hhouse.same, ?_⟩
      intro n he
      cases he
      exact hhouse.name name hn
  | none =>
      rw [hn] at hr
      simp only [bind_eq_ok] at hr
      obtain ⟨platform, hp, hr⟩ := hr
      have hplatform := registerPlatformConnection_spec hhouse.sound hp
      cases hm : platform.2 with
      | some name =>
          rw [hm] at hr
          cases hr
          refine ⟨hplatform.sound, hhouse.same.trans hplatform.same, ?_⟩
          intro n he
          cases he
          obtain ⟨rfl, hin⟩ := hplatform.name name hm
          exact ⟨.platform, hin⟩
      | none =>
          rw [hm] at hr
          cases hr
          exact .nothing (hplatform.sound.warn _)
            (hhouse.same.trans (hplatform.same.trans (.refuse _ (some _))))

theorem registerAzureHostConnection_spec (ha : i.rows.Admitted) (h : Sound i s)
    (hp : row.provider = .azureOpenai) (hr : registerAzureHostConnection i s row = .ok r) :
    Registered i s (HostName i row) (r.1, r.2.map (·.name)) := by
  unfold registerAzureHostConnection at hr
  cases hc : i.houseConnection .azureOpenai with
  | none =>
      rw [hc] at hr
      cases hr
      exact .nothing (h.warn _) (.refuse _ (some _))
  | some house =>
      rw [hc] at hr
      obtain ⟨hmem, horg, hprov⟩ := houseConnection_mem hc
      cases hs : byokProviderModel i row house with
      | error message =>
          simp only [hs] at hr
          cases hr
          exact .nothing ((h.refuse message).warn _)
            ((SameDeployments.refuse _ message).trans (.refuse _ (some _)))
      | ok providerModel =>
          simp only [hs, bind_eq_ok] at hr
          obtain ⟨registered, hreg, hr⟩ := hr
          have hspec := (registerByokConnection_spec ha h hmem hreg).1
          cases hn : registered.2 with
          | none =>
              rw [hn] at hr
              cases hr
              exact .nothing hspec.sound hspec.same
          | some name =>
              rw [hn] at hr
              cases hr
              refine ⟨hspec.sound, hspec.same, ?_⟩
              intro n he
              cases he
              obtain ⟨rfl, hin⟩ := hspec.name name hn
              exact ⟨.house hmem horg (hprov.trans hp.symm), hin⟩

theorem experientialCloudBaseUrl_origin {u : String}
    (h : experientialCloudBaseUrl i.environment row.baseUrl = some u) :
    row.baseUrl = some u ∨ PlatformOrigin i u := by
  unfold experientialCloudBaseUrl at h
  cases hu : truthy row.baseUrl with
  | some v =>
      rw [hu, Option.some_or] at h
      cases h
      exact .inl (eq_some_of_truthy hu)
  | none =>
      rw [hu, Option.none_or] at h
      exact .inr (.worker h)

theorem experientialCloudRef_lane (i : Inputs) (row : CatalogProviderRow) :
    HostRef i row (experientialCloudRef i row) := by
  unfold experientialCloudRef
  cases experientialCloudApiKey i.environment with
  | none => exact .cloud
  | some key => exact @HostRef.platform i row .experientialCloud _ rfl

theorem registerExperientialCloudConnection_spec (h : Sound i s) (hrow : row ∈ i.rows.providers)
    (hp : row.provider.openaiCompatibleHost = true)
    (hr : registerExperientialCloudConnection i s row = .ok r) :
    Registered i s (HostName i row) (r.1, r.2.map (·.name)) := by
  unfold registerExperientialCloudConnection at hr
  cases hu : experientialCloudBaseUrl i.environment row.baseUrl with
  | none =>
      rw [hu] at hr
      cases hr
      exact .nothing (h.warn _) (.refuse _ (some _))
  | some baseUrl =>
      rw [hu] at hr
      simp only at hr
      split_ifs at hr with hacc
      · cases hr
        exact .nothing (h.warn _) (.refuse _ (some _))
      · cases hr
        have href := experientialCloudRef_lane i row
        exact .added (.rfl' s) (h.addReferenced
          (.host hrow (experientialCloudBaseUrl_origin hu) href) rfl (href.refLane hrow)) (.host hp)

theorem compatibleHostRef_lane {house : Option CatalogConnectionRow} {ref : ConnectionCredentialRef}
    (hh : ∀ c, house = some c → c ∈ i.rows.connections ∧ some c.orgId = i.rows.houseOrgId)
    (h : compatibleHostRef i row house = some ref) : HostRef i row ref := by
  cases house with
  | some c =>
      cases h
      exact .house (hh c rfl).1 (hh c rfl).2
  | none =>
      simp only [compatibleHostRef, Option.map_eq_some_iff] at h
      obtain ⟨name, hname, rfl⟩ := h
      exact .platform (Option.eq_some_of_filter_eq_some hname)

theorem releasableHouse_spec (row : CatalogProviderRow) (h : Sound i s) :
    Sound i (releasableHouse i s row).1 ∧ SameDeployments s (releasableHouse i s row).1 ∧
      ∀ c, (releasableHouse i s row).2 = some c →
        c ∈ i.rows.connections ∧ some c.orgId = i.rows.houseOrgId := by
  unfold releasableHouse
  cases hc : i.houseConnection row.provider with
  | none => exact ⟨h, .rfl' s, by intro c he; cases he⟩
  | some house =>
      obtain ⟨hmem, horg, -⟩ := houseConnection_mem hc
      refine ⟨connectionReleasable_sound h house, connectionReleasable_same h house, ?_⟩
      intro c he
      simp only at he
      split_ifs at he
      cases he
      exact ⟨hmem, horg⟩

theorem compatible_origin {u : String}
    (h : (truthy row.baseUrl).or row.provider.defaultHostBaseUrl = some u) :
    row.baseUrl = some u ∨ PlatformOrigin i u := by
  cases hu : truthy row.baseUrl with
  | some v =>
      rw [hu, Option.some_or] at h
      cases h
      exact .inl (eq_some_of_truthy hu)
  | none =>
      rw [hu, Option.none_or] at h
      exact .inr (.provider h)

theorem registerCompatibleHostConnection_spec (h : Sound i s) (hrow : row ∈ i.rows.providers)
    (hp : row.provider.openaiCompatibleHost = true)
    (hr : registerCompatibleHostConnection i s row = .ok r) :
    Registered i s (HostName i row) (r.1, r.2.map (·.name)) := by
  unfold registerCompatibleHostConnection at hr
  split_ifs at hr with hcloud
  · exact registerExperientialCloudConnection_spec h hrow hp hr
  · cases hu : (truthy row.baseUrl).or row.provider.defaultHostBaseUrl with
    | none =>
        rw [hu] at hr
        cases hr
        exact .nothing (h.warn _) (.refuse _ (some _))
    | some baseUrl =>
        rw [hu] at hr
        obtain ⟨hsound, hsame, hhouse⟩ := releasableHouse_spec row h
        cases href : compatibleHostRef i row (releasableHouse i s row).2 with
        | none =>
            simp only [href] at hr
            cases hr
            exact .nothing (hsound.warn _) (hsame.trans (.refuse _ (some _)))
        | some ref =>
            simp only [href, bind_eq_ok, pure_eq_ok] at hr
            obtain ⟨-, -, rfl⟩ := hr
            have hlane := compatibleHostRef_lane hhouse href
            exact .added hsame (hsound.addReferenced (.host hrow (compatible_origin hu) hlane) rfl
              (hlane.refLane hrow)) (.host hp)

theorem registerHostConnection_spec (ha : i.rows.Admitted) (h : Sound i s)
    (hrow : row ∈ i.rows.providers) (hr : registerHostConnection i s row = .ok r) :
    Registered i s (HostName i row) (r.1, r.2.map (·.name)) := by
  unfold registerHostConnection at hr
  split_ifs at hr with hbed hcomp haz
  · simp only [bind_eq_ok, pure_eq_ok] at hr
    obtain ⟨registered, hreg, rfl⟩ := hr
    refine (registerBedrockConnection_spec h hreg).mono ?_
    rintro n rfl
    exact .bedrock hbed
  · exact registerCompatibleHostConnection_spec h hrow hcomp hr
  · exact registerAzureHostConnection_spec ha h haz hr
  · exact registerFixedOriginHostConnection_spec ha h hr

end host

/-! ### Deployments -/

/-- A method that registers one deployment. -/
structure Deployed (i : Inputs) (s : Assembler) (deployment : String)
    (out : Assembler × Option String) : Prop where
  sound : Sound i out.1
  pools : out.1.catalogPools = s.catalogPools
  providers : out.1.providerByAlias = s.providerByAlias
  variants : out.1.variants = s.variants
  kept : ∀ d, (s.catalogModels.lookup d).isSome → (out.1.catalogModels.lookup d).isSome
  name : ∀ d, out.2 = some d → d = deployment ∧ (out.1.catalogModels.lookup d).isSome

theorem Deployed.nothing {deployment : String} {s' : Assembler} (h : Sound i s')
    (hs : SameDeployments s s') : Deployed i s deployment (s', none) where
  sound := h
  pools := hs.pools
  providers := hs.providers
  variants := hs.variants
  kept := by intro d hd; rw [hs.models]; exact hd
  name := by intro d hd; cases hd

theorem Deployed.added {deployment connection : String} {s' : Assembler} {m : CatalogModelRow}
    {r : CatalogProviderRow} {billing : BillingSource} {providerModel : String}
    (hsame : SameDeployments s s')
    (h : Sound i (s'.addDeploymentRecord deployment connection m r billing providerModel)) :
    Deployed i s deployment
      (s'.addDeploymentRecord deployment connection m r billing providerModel, some deployment) where
  sound := h
  pools := hsame.pools
  providers := hsame.providers
  variants := hsame.variants
  kept := by
    intro d hd
    rw [← hsame.models, AList.lookup_isSome] at hd
    rw [AList.lookup_isSome]
    exact (AList.mem_insert _).mpr (.inr hd)
  name := by
    intro d hd
    cases hd
    refine ⟨rfl, ?_⟩
    rw [AList.lookup_isSome]
    exact (AList.mem_insert _).mpr (.inl rfl)

theorem Deployed.bindRow {deployment : String} {s' : Assembler}
    (h : Deployed i s deployment (s', some deployment)) (d : String) (c : CatalogConnectionRow) :
    Deployed i s deployment (s'.bindRow d c, some deployment) :=
  ⟨h.sound.bindRow d c, h.pools, h.providers, h.variants, h.kept, h.name⟩

section deployments
variable {m : CatalogModelRow} {row : CatalogProviderRow} {out : Assembler × Option String}

theorem requiresByok_of_requiredRow (ha : i.rows.Admitted) (hrow : i.RowOf m row)
    (h : RequiredRow i (deploymentAlias row.id)) : RequiresByok m row := by
  obtain ⟨m', r', hr', hreq, he⟩ := h
  obtain rfl := ha.provider_eq hrow.row hr'.row (deploymentAlias_inj he)
  obtain rfl := ha.model_eq hrow.model hr'.model (hrow.model_id.symm.trans hr'.model_id)
  exact hreq

theorem not_requiredRow_variantAlias (r c : Uuid) : ¬ RequiredRow i (variantAlias r c) := by
  rintro ⟨m, r', -, -, he⟩
  exact deploymentAlias_ne_variantAlias _ _ _ he.symm

theorem byokDeployment_spec (ha : i.rows.Admitted) (h : Sound i s)
    (hc : c ∈ i.rows.connections) {suffix : Option Uuid}
    (hlane : ∀ record : ModelRecord, record.connection = connectionName c.id →
      record.billingSource = .customerManaged → RecordLane i (byokAlias row suffix) record)
    (hreq : ¬ RequiredRow i (byokAlias row suffix))
    (hr : byokDeployment i s m row c suffix = .ok out) :
    Deployed i s (byokAlias row suffix) out ∧ (out.2.isSome ↔ i.Carries row c) := by
  unfold byokDeployment at hr
  split_ifs at hr with hroutable
  · cases hr
    refine ⟨.nothing (h.warn _) (.refuse _ (some _)), by simp, ?_⟩
    rintro ⟨ht, -, -⟩
    rw [hroutable] at ht
    cases ht
  · rw [Bool.not_eq_false] at hroutable
    cases hs : byokProviderModel i row c with
    | error message =>
        simp only [hs] at hr
        cases hr
        refine ⟨.nothing (h.refuse message) (.refuse s message), by simp, ?_⟩
        rintro ⟨-, ⟨spelling, hok⟩, -⟩
        rw [hs] at hok
        cases hok
    | ok providerModel =>
        simp only [hs, bind_eq_ok] at hr
        obtain ⟨registered, hreg, hr⟩ := hr
        obtain ⟨hspec, husable⟩ := registerByokConnection_spec ha h hc hreg
        cases hn : registered.2 with
        | none =>
            rw [hn] at hr husable
            cases hr
            refine ⟨.nothing hspec.sound hspec.same, by simp, ?_⟩
            rintro ⟨-, -, hu⟩
            simpa using husable.mpr hu
        | some name =>
            rw [hn] at hr husable
            cases hr
            obtain ⟨rfl, hin⟩ := hspec.name name hn
            refine ⟨?_, iff_of_true rfl ⟨hroutable, ⟨providerModel, hs⟩, husable.mp rfl⟩⟩
            apply Deployed.bindRow
            exact .added hspec.same (hspec.sound.addDeploymentRecord (hlane _ rfl rfl) hin
              fun hq => absurd hq hreq)

theorem localDeployment_spec (ha : i.rows.Admitted) (h : Sound i s) (hrow : i.RowOf m row)
    (hs : Shareable m row) (hp : row.provider = .localServer) (hr : localDeployment i s m row = .ok out) :
    Deployed i s (deploymentAlias row.id) out := by
  unfold localDeployment at hr
  split_ifs at hr with howner
  · cases hr
    exact .nothing (h.warn _) (.refuse _ (some _))
  · cases hu : row.baseUrl with
    | none =>
        rw [hu] at hr
        cases hr
        exact .nothing (h.warn _) (.refuse _ (some _))
    | some baseUrl =>
        rw [hu] at hr
        simp only at hr
        split_ifs at hr with hacc
        · cases hr
          exact .nothing (h.warn _) (.refuse _ (some _))
        · cases hr
          refine .added ⟨rfl, rfl, rfl, rfl⟩ (Sound.addDeploymentRecord ?_
            (.localServer hrow hs howner hp rfl rfl) ?_ ?_)
          · exact h.addReferenced (.localServer hrow.row hu) rfl (.localServer hrow.row)
          · rw [AList.lookup_isSome]
            exact (AList.mem_insert _).mpr (.inl rfl)
          · intro hq
            exact absurd hp (requiresByok_of_requiredRow ha hrow hq).hosted

theorem hostDeployment_spec (ha : i.rows.Admitted) (h : Sound i s) (hrow : i.RowOf m row)
    (hs : Shareable m row) (hb : row.billingSource = .hostManaged) (hr : hostDeployment i s m row = .ok out) :
    Deployed i s (deploymentAlias row.id) out := by
  unfold hostDeployment at hr
  rw [bind_eq_ok] at hr
  obtain ⟨registered, hreg, hr⟩ := hr
  have hspec := registerHostConnection_spec ha h hrow.row hreg
  cases hn : registered.2 with
  | none =>
      rw [hn] at hr
      cases hr
      exact .nothing hspec.sound hspec.same
  | some host =>
      rw [hn] at hr
      obtain ⟨hname, hin⟩ := hspec.name host.name (by rw [hn]; rfl)
      have hdep : Deployed i s (deploymentAlias row.id)
          (registered.1.addDeploymentRecord (deploymentAlias row.id) host.name m row .hostManaged
            host.providerModel, some (deploymentAlias row.id)) := by
        refine .added hspec.same (hspec.sound.addDeploymentRecord (.host hrow hs hb hname rfl) hin ?_)
        intro hq
        have hcustomer := (requiresByok_of_requiredRow ha hrow hq).customer
        rw [hb] at hcustomer
        cases hcustomer
      cases hh : host.house with
      | none =>
          simp only [hh] at hr
          cases hr
          exact hdep
      | some house =>
          simp only [hh] at hr
          cases hr
          exact hdep.bindRow _ house

theorem publicByokCanonical_spec (h : Sound i s) (hrow : i.RowOf m row) (hreq : RequiresByok m row)
    (hr : publicByokCanonical i s m row = .ok out) : Deployed i s (deploymentAlias row.id) out := by
  unfold publicByokCanonical at hr
  split_ifs at hr with hroutable
  · cases hr
    exact .nothing (h.warn _) (.refuse _ (some _))
  · rw [bind_eq_ok] at hr
    obtain ⟨registered, hreg, hr⟩ := hr
    have hspec := registerByokRequiredConnection_spec h hrow.row hreg
    cases hn : registered.2 with
    | none =>
        rw [hn] at hr
        cases hr
        exact .nothing hspec.sound hspec.same
    | some name =>
        rw [hn] at hr
        cases hr
        obtain ⟨rfl, hin⟩ := hspec.name name hn
        -- the mark and the record are written to different fields
        show Deployed i s (deploymentAlias row.id)
          ((registered.1.requireByok (deploymentAlias row.id)).addDeploymentRecord
            (deploymentAlias row.id) (byokRequiredName row.id) m row .customerManaged
            row.providerModelId, some (deploymentAlias row.id))
        refine .added (hspec.same.trans ⟨rfl, rfl, rfl, rfl⟩) (Sound.addDeploymentRecord
          (hspec.sound.requireByok ⟨m, row, hrow, hreq, rfl⟩) (.byokRequired hrow hreq rfl rfl) hin ?_)
        intro hq
        exact List.mem_insert_self

theorem connectionByOrgProvider_mem {org : Uuid} {p : Provider} (h : i.connectionByOrgProvider org p = some c) :
    c ∈ i.rows.connections ∧ c.orgId = org ∧ c.provider = p := by
  unfold Inputs.connectionByOrgProvider at h
  have hm := List.mem_filter.mp (List.mem_of_getLast? h)
  simp only [Bool.and_eq_true, decide_eq_true_eq] at hm
  exact ⟨hm.1, hm.2.1, hm.2.2⟩

theorem connectionById_mem {id : Uuid} (h : i.connectionById id = some c) :
    c ∈ i.rows.connections := (List.mem_filter.mp (List.mem_of_getLast? h)).1

/-- A deployment bound to a connection of its owner. -/
theorem ownedDeployment_spec (ha : i.rows.Admitted) (h : Sound i s) (hrow : i.RowOf m row)
    (hs : Shareable m row) (hc : c ∈ i.rows.connections)
    (ho : deploymentOwner m row = some c.orgId) (hp : c.provider = row.provider)
    (hr : byokDeployment i s m row c none = .ok out) : Deployed i s (deploymentAlias row.id) out := by
  refine (byokDeployment_spec ha h hc ?_ ?_ hr).1
  · intro record hname hbilling
    exact .owned hrow hs hc ho hp hname hbilling
  · intro hq
    have hreq := requiresByok_of_requiredRow ha hrow hq
    unfold deploymentOwner at ho
    rw [hreq.public_row, hreq.public_model] at ho
    cases ho

theorem shareable_of_rowRefusal (h : rowRefusal m row = none) : Shareable m row := by
  intro hm
  by_contra hr
  unfold rowRefusal at h
  split_ifs at h with h1 h2
  exact h2 ⟨hm, hr⟩

theorem canonicalDeployment_spec (ha : i.rows.Admitted) (h : Sound i s) (hrow : i.RowOf m row)
    (hr : canonicalDeployment i s m row = .ok out) : Deployed i s (deploymentAlias row.id) out := by
  unfold canonicalDeployment at hr
  cases href : rowRefusal m row with
  | some message =>
      rw [href] at hr
      cases hr
      exact .nothing (h.warn _) (.refuse _ (some _))
  | none =>
      rw [href] at hr
      have hs := shareable_of_rowRefusal href
      cases hpin : row.providerConnectionId with
      | some pin =>
          simp only [hpin] at hr
          unfold pinnedDeployment at hr
          cases hc : i.connectionById pin with
          | none =>
              rw [hc] at hr
              cases hr
              exact .nothing (h.warn _) (.refuse _ (some _))
          | some c =>
              rw [hc] at hr
              simp only at hr
              split_ifs at hr with howner hprov
              · cases hr
                exact .nothing (h.warn _) (.refuse _ (some _))
              · cases hr
                exact .nothing (h.warn _) (.refuse _ (some _))
              · exact ownedDeployment_spec ha h hrow hs (connectionById_mem hc) (not_not.mp howner)
                  (not_not.mp hprov) hr
      | none =>
          simp only [hpin] at hr
          split_ifs at hr with hlocal hhost
          · exact localDeployment_spec ha h hrow hs hlocal hr
          · exact hostDeployment_spec ha h hrow hs hhost hr
          · unfold unpinnedCustomerManagedDeployment at hr
            cases howner : deploymentOwner m row with
            | none =>
                rw [howner] at hr
                unfold deploymentOwner at howner
                rw [Option.or_eq_none_iff] at howner
                refine publicByokCanonical_spec h hrow ⟨howner.2, howner.1, hpin, hlocal, ?_⟩ hr
                cases hb : row.billingSource with
                | hostManaged => exact absurd hb hhost
                | customerManaged => rfl
            | some owner =>
                rw [howner] at hr
                cases hc : i.connectionByOrgProvider owner row.provider with
                | none =>
                    simp only [hc] at hr
                    cases hr
                    exact .nothing (h.warn _) (.refuse _ (some _))
                | some c =>
                    simp only [hc] at hr
                    split_ifs at hr with hroutable
                    · cases hr
                      exact .nothing (h.warn _) (.refuse _ (some _))
                    · obtain ⟨hmem, rfl, hp⟩ := connectionByOrgProvider_mem hc
                      exact ownedDeployment_spec ha h hrow hs hmem howner hp hr

end deployments

end Experiential.Catalog
