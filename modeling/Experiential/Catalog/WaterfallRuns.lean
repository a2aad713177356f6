import Experiential.Catalog.Waterfall

/-! # A waterfall after its replacements

A chain is what it was or what a successful request wrote, less the deployments that are gone, and a request that answers
an error has changed nothing, as long as no replacement is cut off: behind a delete the insert finds an empty chain and
its deployments, and no call fails. The delete and the insert are two calls, so that is not so in general: an insert
that fails leaves an empty chain. -/

namespace Experiential.Catalog

/-- The keys and references of the schema that a chain rests on. -/
structure WaterfallDb.Keyed (db : WaterfallDb) : Prop where
  models_pkey : (db.models.map (·.id)).Nodup
  providers_pkey : (db.providers.map (·.id)).Nodup
  model_provider_fk : ∀ g ∈ db.rungs, db.Routes g.modelId g.modelProviderId

/-- Those rungs whose deployments are there. -/
def WaterfallDb.remaining (db : WaterfallDb) (rungs : List Rung) : List Rung :=
  rungs.filter fun g => decide (db.Routes g.modelId g.modelProviderId)

/-- No replacement is cut off: the answer of a delete is not lost, the insert behind it is carried out, into an empty
chain and with its deployments still there, and no later call fails. -/
def Uninterrupted (orgId : Option String) (w : PutPool) : PutStep → Prop
  | .spawn _ => True
  | .advance k i =>
      match w.procs[k]? with
      | none => True
      | some x =>
        match x.phase with
        | .clear _ => i ≠ .lost
        | .insert m => i = .succeeds ∧ w.shared.chainOf m.id orgId = [] ∧ ∀ id ∈ x.ids, w.shared.Routes m.id id
        | .touch _ | .views => i = .succeeds
        | .resolve | .deployments _ | .answered _ => True
  | .env _ => True

instance (orgId : Option String) (w : PutPool) : DecidablePred (Uninterrupted orgId w) := fun step => by
  unfold Uninterrupted
  cases step with
  | spawn _ => exact .isTrue trivial
  | env _ => exact .isTrue trivial
  | advance k i =>
    dsimp only
    split
    · infer_instance
    · split <;> infer_instance

/-! ### Single calls -/

theorem find?_pkey {α : Type} {key : α → String} {l : List α} {a : α} (hnodup : (l.map key).Nodup) (ha : a ∈ l) :
    (l.find? fun b => decide (key b = key a)) = some a := by
  cases hfind : l.find? fun b => decide (key b = key a) with
  | none =>
    have hne := List.find?_eq_none.mp hfind a ha
    simp at hne
  | some b =>
    have hkey : key b = key a := by simpa using List.find?_some hfind
    rw [List.inj_on_of_nodup_map hnodup (List.mem_of_find?_eq_some hfind) ha hkey]

section calls
variable {db : WaterfallDb} {models : List ChainModel} {slug modelId : String} {orgId : Option String} {m : ChainModel}
  {ids : List String}

theorem publicModel_eq_ok {rows : List ChainModel} (h : publicModel slug rows = .ok m) :
    m ∈ rows ∧ m.owningOrgId = none := by
  rw [publicModel, require_eq_ok] at h
  exact ⟨List.mem_of_find?_eq_some h, by simpa using List.find?_some h⟩

/-- A private model is resolved for its owner or for the operator. -/
theorem resolveModel_eq_ok (h : resolveModel models slug orgId = .ok m) :
    m ∈ models ∧ (m.owningOrgId = none ∨ orgId = none ∨ orgId = m.owningOrgId) := by
  unfold resolveModel at h
  cases orgId with
  | some org =>
    dsimp only at h
    split at h
    · rename_i m' hfind
      obtain rfl : m' = m := Except.ok.inj h
      have howner : m'.owningOrgId = some org := by simpa using List.find?_some hfind
      exact ⟨(List.mem_filter.mp (List.mem_of_find?_eq_some hfind)).1, .inr (.inr howner.symm)⟩
    · obtain ⟨hm, hpublic⟩ := publicModel_eq_ok h
      exact ⟨(List.mem_filter.mp hm).1, .inl hpublic⟩
  | none =>
    refine ⟨?_, .inr (.inl rfl)⟩
    dsimp only at h
    split at h
    · exact (List.mem_filter.mp (publicModel_eq_ok h).1).1
    · rename_i m' hrows
      obtain rfl : m' = m := Except.ok.inj h
      have hmem := List.mem_of_mem_filter (hrows ▸ List.mem_singleton_self m')
      exact (List.mem_filter.mp hmem).1
    · cases h

/-- What the deployments of a request must be, as long as they are there. -/
def ChainableAll (providers : List ChainDeployment) (modelId : String) (orgId : Option String) (ids : List String) : Prop :=
  ∀ id ∈ ids, ∀ d ∈ providers, d.modelId = modelId → d.id = id → d.Chainable orgId

theorem forM_ensure {P : String → Prop} [DecidablePred P] {e : String → PutError} : ∀ {l : List String} {u : Unit},
    (l.forM fun a => ensure (P a) (e a)) = .ok u → ∀ a ∈ l, P a
  | [], _, _ => nofun
  | a :: l, u, h => by
      change (ensure (P a) (e a) >>= fun _ => l.forM fun a => ensure (P a) (e a)) = .ok u at h
      rw [bind_eq_ok] at h
      obtain ⟨_, ha, hl⟩ := h
      exact List.forall_mem_cons.mpr ⟨ensure_eq_ok.mp ha, forM_ensure hl⟩

theorem validated_eq_ok {u : Unit} (hkeys : (db.providers.map (·.id)).Nodup)
    (h : validatedChainDeployments db m orgId ids = .ok u) : ids.Nodup ∧ ChainableAll db.providers m.id orgId ids := by
  rw [validatedChainDeployments, bind_eq_ok] at h
  obtain ⟨_, hnodup, hall⟩ := h
  refine ⟨ensure_eq_ok.mp hnodup, fun id hid d hd _ hdid => ?_⟩
  obtain ⟨d', hd', ⟨-, hd'id⟩, hchainable⟩ := forM_ensure hall id hid
  obtain rfl : d' = d := List.inj_on_of_nodup_map hkeys hd' hd (hd'id.trans hdid.symm)
  exact hchainable

/-! ### Chains -/

theorem chainOf_deleteChain : (db.deleteChain modelId orgId).chainOf modelId orgId = [] := by
  rw [WaterfallDb.chainOf, WaterfallDb.deleteChain, List.filter_eq_nil_iff]
  intro g hg
  have hother := (List.mem_filter.mp hg).2
  rw [Bool.not_eq_true'] at hother
  rw [hother]
  exact Bool.false_ne_true

theorem chainOf_rungsOf : (rungsOf modelId orgId ids).filter (fun g => decide (g.modelId = modelId ∧ g.orgId = orgId)) =
    rungsOf modelId orgId ids := by
  rw [List.filter_eq_self]
  intro g hg
  obtain ⟨e, -, rfl⟩ := List.mem_map.mp hg
  simp

theorem mem_rungsOf {g : Rung} (hg : g ∈ rungsOf modelId orgId ids) :
    g.modelId = modelId ∧ g.orgId = orgId ∧ g.modelProviderId ∈ ids := by
  obtain ⟨e, he, rfl⟩ := List.mem_map.mp hg
  exact ⟨rfl, rfl, List.fst_mem_of_mem_zipIdx he⟩

theorem remaining_eq_self {rungs : List Rung} (h : ∀ g ∈ rungs, db.Routes g.modelId g.modelProviderId) :
    db.remaining rungs = rungs := List.filter_eq_self.mpr fun g hg => decide_eq_true (h g hg)

theorem chainOf_deleteDeployment (id : String) :
    (db.deleteDeployment id).chainOf modelId orgId =
      (db.chainOf modelId orgId).filter fun g => decide (g.modelProviderId ≠ id) := by
  rw [WaterfallDb.chainOf, WaterfallDb.chainOf, WaterfallDb.deleteDeployment, List.filter_comm]

theorem routes_deleteDeployment {id id' : String} :
    (db.deleteDeployment id).Routes modelId id' ↔ db.Routes modelId id' ∧ id' ≠ id := by
  constructor
  · rintro ⟨d, hd, hmodel, hid⟩
    obtain ⟨hd, hne⟩ := List.mem_filter.mp hd
    exact ⟨⟨d, hd, hmodel, hid⟩, hid ▸ by simpa using hne⟩
  · rintro ⟨⟨d, hd, hmodel, hid⟩, hne⟩
    exact ⟨d, List.mem_filter.mpr ⟨hd, by simpa [hid] using hne⟩, hmodel, hid⟩

theorem remaining_deleteDeployment (id : String) (rungs : List Rung) :
    (db.deleteDeployment id).remaining rungs =
      (db.remaining rungs).filter fun g => decide (g.modelProviderId ≠ id) := by
  rw [WaterfallDb.remaining, WaterfallDb.remaining, List.filter_filter]
  refine List.filter_congr fun g _ => ?_
  rw [Bool.and_comm, ← Bool.decide_and, decide_eq_decide]
  exact routes_deleteDeployment

/-! ### Inserting -/

theorem keepsKey_rungsOf {κ : Type} {key : Rung → κ} (hnodup : ((rungsOf modelId orgId ids).map key).Nodup)
    (hkey : ∀ g g' : Rung, key g = key g' → g.modelId = g'.modelId ∧ g.orgId = g'.orgId)
    (hempty : db.chainOf modelId orgId = []) : KeepsKey key db.rungs (rungsOf modelId orgId ids) := by
  refine ⟨hnodup, fun g hg g' hg' heq => ?_⟩
  obtain ⟨hmodel, horg, -⟩ := mem_rungsOf hg
  obtain ⟨hmodel', horg'⟩ := hkey g' g heq
  have hin : g' ∈ db.chainOf modelId orgId := by
    rw [WaterfallDb.chainOf, List.mem_filter]
    exact ⟨hg', decide_eq_true ⟨hmodel'.trans hmodel, horg'.trans horg⟩⟩
  rw [hempty] at hin
  cases hin

theorem nodup_positions : ((rungsOf modelId orgId ids).map Rung.positionKey).Nodup := by
  have hinj : Function.Injective fun n : ℕ => (modelId, orgId, n) := fun a b h => by simpa using h
  have hmap : (rungsOf modelId orgId ids).map Rung.positionKey = (List.range' 0 ids.length).map fun n => (modelId, orgId, n) := by
    rw [← List.zipIdx_map_snd 0 ids, rungsOf, List.map_map, List.map_map]
    rfl
  rw [hmap]
  exact List.Nodup.map hinj List.nodup_range'

theorem nodup_deployments (hnodup : ids.Nodup) : ((rungsOf modelId orgId ids).map Rung.deploymentKey).Nodup := by
  have hinj : Function.Injective fun id : String => (modelId, orgId, id) := fun a b h => by simpa using h
  have hmap : (rungsOf modelId orgId ids).map Rung.deploymentKey = ids.map fun id => (modelId, orgId, id) := by
    conv_rhs => rw [← List.zipIdx_map_fst 0 ids]
    rw [rungsOf, List.map_map, List.map_map]
    rfl
  rw [hmap]
  exact List.Nodup.map hinj hnodup

theorem keepsKeys_rungsOf (hnodup : ids.Nodup) (hempty : db.chainOf modelId orgId = []) :
    KeepsKey Rung.positionKey db.rungs (rungsOf modelId orgId ids) ∧
      KeepsKey Rung.deploymentKey db.rungs (rungsOf modelId orgId ids) := by
  refine ⟨keepsKey_rungsOf nodup_positions (fun g g' h => ?_) hempty,
    keepsKey_rungsOf (nodup_deployments hnodup) (fun g g' h => ?_) hempty⟩
  · exact ⟨congrArg (·.1) h, congrArg (·.2.1) h⟩
  · exact ⟨congrArg (·.1) h, congrArg (·.2.1) h⟩

theorem guards_of_chainable {g : Rung} (hmodels : (db.models.map (·.id)).Nodup) (hm : m ∈ db.models)
    (howner : m.owningOrgId = none ∨ orgId = none ∨ orgId = m.owningOrgId) (hmodel : g.modelId = m.id) (horg : g.orgId = orgId)
    (hroutes : db.Routes m.id g.modelProviderId) (hproviders : (db.providers.map (·.id)).Nodup)
    (hchainable : ∀ d ∈ db.providers, d.modelId = m.id → d.id = g.modelProviderId → d.Chainable orgId) : db.Guards g := by
  obtain ⟨d, hd, hdmodel, hdid⟩ := hroutes
  have hfindModel : (db.models.find? fun m' => decide (m'.id = m.id)) = some m := find?_pkey hmodels hm
  have hfindDeployment : (db.providers.find? fun d' => decide (d'.id = d.id)) = some d := find?_pkey hproviders hd
  rw [← hmodel] at hfindModel
  rw [hdid] at hfindDeployment
  rw [WaterfallDb.Guards, hfindModel, hfindDeployment, horg]
  refine ⟨howner, ?_⟩
  rcases hchainable d hd hdmodel hdid with hpublic | ⟨hsome, hsame⟩
  · exact .inl hpublic
  · refine .inr (hsame.trans ?_)
    cases orgId with
    | none => exact absurd rfl hsome
    | some org => rfl

/-- The insert of a checked list into an empty chain. -/
theorem insertRungs_eq_ok (hmodels : (db.models.map (·.id)).Nodup) (hproviders : (db.providers.map (·.id)).Nodup)
    (hm : m ∈ db.models) (howner : m.owningOrgId = none ∨ orgId = none ∨ orgId = m.owningOrgId) (hnodup : ids.Nodup)
    (hchainable : ChainableAll db.providers m.id orgId ids) (hempty : db.chainOf m.id orgId = [])
    (hroutes : ∀ id ∈ ids, db.Routes m.id id) :
    db.insertRungs (rungsOf m.id orgId ids) = .ok { db with rungs := db.rungs ++ rungsOf m.id orgId ids } := by
  have hguards : ∀ g ∈ rungsOf m.id orgId ids, db.Guards g := by
    intro g hg
    obtain ⟨hmodel, horg, hid⟩ := mem_rungsOf hg
    exact guards_of_chainable hmodels hm howner hmodel horg (hroutes _ hid) hproviders (hchainable _ hid)
  have hunique := keepsKeys_rungsOf hnodup hempty
  have hreferences : ∀ g ∈ rungsOf m.id orgId ids, db.Routes g.modelId g.modelProviderId := by
    intro g hg
    obtain ⟨hmodel, -, hid⟩ := mem_rungsOf hg
    rw [hmodel]
    exact hroutes _ hid
  rw [WaterfallDb.insertRungs, ensure, if_pos hguards, ensure, if_pos hunique, ensure, if_pos hreferences]
  rfl

end calls

/-! ### The invariant -/

/-- What a request has seen of its model and its deployments. -/
def PutCall.Seen (m : ChainModel) (orgId : Option String) (providers : List ChainDeployment) (x : PutCall) : Prop :=
  match x.phase with
  | .deployments m' | .touch m' => m' = m
  | .clear m' | .insert m' => m' = m ∧ x.ids.Nodup ∧ ChainableAll providers m.id orgId x.ids
  | .resolve | .views | .answered _ => True

/-- The chain is what it was, or what was written, less what is gone; or it is empty, and a request is about to
insert. -/
structure PutOk (db₀ : WaterfallDb) (m : ChainModel) (orgId : Option String) (w : PutPool) : Prop where
  models : w.shared.models = db₀.models
  providers : w.shared.providers.Sublist db₀.providers
  seen : ∀ x ∈ w.procs, x.Seen m orgId w.shared.providers
  chain : (∃ source,
      (source = db₀.chainOf m.id orgId ∨ ∃ x ∈ w.procs, x.Written ∧ source = rungsOf m.id orgId x.ids) ∧
      w.shared.chainOf m.id orgId = w.shared.remaining source) ∨
    w.shared.chainOf m.id orgId = [] ∧ ∃ x ∈ w.procs, x.Inserting

section invariant
variable {db₀ : WaterfallDb} {slug : String} {orgId : Option String} {m : ChainModel} {w : PutPool} {k : ℕ} {x y : PutCall}

theorem PutCall.Seen.of_sublist {providers providers' : List ChainDeployment} (hsub : providers'.Sublist providers)
    (hseen : x.Seen m orgId providers) : x.Seen m orgId providers' := by
  have hall : ChainableAll providers m.id orgId x.ids → ChainableAll providers' m.id orgId x.ids :=
    fun h id hid d hd => h id hid d (hsub.subset hd)
  unfold PutCall.Seen at hseen ⊢
  split <;> simp_all

theorem PutOk.start (hkeys : db₀.Keyed) : PutOk db₀ m orgId ⟨db₀, []⟩ where
  models := rfl
  providers := .refl _
  seen := nofun
  chain := by
    refine .inl ⟨_, .inl rfl, ?_⟩
    rw [remaining_eq_self fun g hg => ?_]
    exact hkeys.model_provider_fk g (List.mem_of_mem_filter hg)

/-- What one request of a list has, one has after a step that keeps it. -/
theorem exists_mem_set {procs : List PutCall} {Q : PutCall → Prop} (hx : procs[k]? = some x) (hkeep : Q x → Q y)
    (hex : ∃ z ∈ procs, Q z) : ∃ z ∈ procs.set k y, Q z := by
  obtain ⟨z, hz, hQ⟩ := hex
  obtain ⟨j, hj⟩ := List.mem_iff_getElem?.mp hz
  by_cases hjk : k = j
  · subst hjk
    obtain rfl := Option.some.inj (hx.symm.trans hj)
    exact ⟨y, List.mem_set (List.getElem?_eq_some_iff.mp hx).1 y, hkeep hQ⟩
  · refine ⟨z, List.mem_iff_getElem?.mpr ⟨j, ?_⟩, hQ⟩
    rw [List.getElem?_set_ne hjk]
    exact hj

/-! ### Steps -/

/-- What a request has seen stays seen, whatever it does to the rungs. -/
theorem seen_set {providers : List ChainDeployment} {procs : List PutCall} (hseen : ∀ z ∈ procs, z.Seen m orgId providers)
    (hy : y.Seen m orgId providers) : ∀ z ∈ procs.set k y, z.Seen m orgId providers := by
  intro z hz
  rcases List.mem_or_eq_of_mem_set hz with hz | rfl
  · exact hseen z hz
  · exact hy

theorem PutOk.quiet (hok : PutOk db₀ m orgId w) (hx : w.procs[k]? = some x) (hxi : ¬x.Inserting)
    (hseen : y.Seen m orgId w.shared.providers) (hids : y.ids = x.ids) (hwritten : x.Written → y.Written) :
    PutOk db₀ m orgId ⟨w.shared, w.procs.set k y⟩ where
  models := hok.models
  providers := hok.providers
  seen := seen_set hok.seen hseen
  chain := by
    rcases hok.chain with ⟨source, hsource, hchain⟩ | ⟨hempty, hex⟩
    · refine .inl ⟨source, hsource.imp_right fun hex => ?_, hchain⟩
      exact exists_mem_set hx (fun h => ⟨hwritten h.1, hids ▸ h.2⟩) hex
    · exact .inr ⟨hempty, exists_mem_set hx (fun h => absurd h hxi) hex⟩

theorem PutOk.cleared (hok : PutOk db₀ m orgId w) (hx : w.procs[k]? = some x) (hphase : x.phase = .clear m) :
    PutOk db₀ m orgId ⟨w.shared.deleteChain m.id orgId, w.procs.set k (x.goto (.insert m))⟩ where
  models := hok.models
  providers := hok.providers
  seen := by
    have hseen := hok.seen x (List.mem_of_getElem? hx)
    rw [PutCall.Seen, hphase] at hseen
    exact seen_set hok.seen hseen
  chain := .inr ⟨chainOf_deleteChain, x.goto (.insert m), List.mem_set (List.getElem?_eq_some_iff.mp hx).1 _, trivial⟩

theorem PutOk.written (hok : PutOk db₀ m orgId w) (hx : w.procs[k]? = some x) {rungs : List Rung}
    (hchain : ({ w.shared with rungs := rungs } : WaterfallDb).chainOf m.id orgId = rungsOf m.id orgId x.ids)
    (hroutes : ∀ id ∈ x.ids, w.shared.Routes m.id id) :
    PutOk db₀ m orgId ⟨{ w.shared with rungs := rungs }, w.procs.set k (x.goto (.touch m))⟩ where
  models := hok.models
  providers := hok.providers
  seen := seen_set hok.seen rfl
  chain := by
    refine .inl ⟨rungsOf m.id orgId x.ids, .inr ⟨x.goto (.touch m), List.mem_set (List.getElem?_eq_some_iff.mp hx).1 _, trivial, rfl⟩, ?_⟩
    rw [hchain, remaining_eq_self fun g hg => ?_]
    obtain ⟨hmodel, -, hid⟩ := mem_rungsOf hg
    rw [hmodel]
    exact hroutes _ hid

theorem PutOk.spawned (hok : PutOk db₀ m orgId w) (ids : List String) :
    PutOk db₀ m orgId { w with procs := w.procs ++ [PutCall.begin ids] } where
  models := hok.models
  providers := hok.providers
  seen z hz := by
    rcases List.mem_append.mp hz with hz | hz
    · exact hok.seen z hz
    · rw [List.mem_singleton.mp hz]
      exact trivial
  chain := by
    rcases hok.chain with ⟨source, hsource, hchain⟩ | ⟨hempty, z, hz, hzi⟩
    · refine .inl ⟨source, hsource.imp_right ?_, hchain⟩
      rintro ⟨z, hz, hwritten⟩
      exact ⟨z, List.mem_append_left _ hz, hwritten⟩
    · exact .inr ⟨hempty, z, List.mem_append_left _ hz, hzi⟩

theorem PutOk.removed (hok : PutOk db₀ m orgId w) (id : String) :
    PutOk db₀ m orgId { w with shared := w.shared.deleteDeployment id } where
  models := hok.models
  providers := List.filter_sublist.trans hok.providers
  seen z hz := (hok.seen z hz).of_sublist List.filter_sublist
  chain := by
    dsimp only
    rw [chainOf_deleteDeployment]
    rcases hok.chain with ⟨source, hsource, hchain⟩ | ⟨hempty, hex⟩
    · refine .inl ⟨source, hsource, ?_⟩
      rw [hchain, remaining_deleteDeployment]
    · refine .inr ⟨?_, hex⟩
      rw [hempty]
      rfl

theorem fail_quiet {providers : List ChainDeployment} (hwritten : ¬x.Written) :
    x.fail.ids = x.ids ∧ x.fail.Seen m orgId providers ∧ (x.Written → x.fail.Written) := by
  obtain ⟨ids, phase⟩ := x
  cases phase with
  | answered a => exact ⟨rfl, trivial, id⟩
  | _ => exact ⟨rfl, trivial, fun h => absurd h hwritten⟩

/-- **What a call does**, when the request is not cut off. -/
theorem advance_cases (hok : PutOk db₀ m orgId w) (hkeys : db₀.Keyed)
    (hmodel : resolveModel db₀.models slug orgId = .ok m) {i : PutOutcome} (hx : w.procs[k]? = some x)
    (hcalm : Uninterrupted orgId w (.advance k i)) :
    (x.phase = .clear m ∧ x.advance slug orgId w.shared i =
      (w.shared.deleteChain m.id orgId, x.goto (if x.ids = [] then .touch m else .insert m))) ∨
    (x.Inserting ∧ w.shared.chainOf m.id orgId = [] ∧ (∀ id ∈ x.ids, w.shared.Routes m.id id) ∧
      x.advance slug orgId w.shared i =
        ({ w.shared with rungs := w.shared.rungs ++ rungsOf m.id orgId x.ids }, x.goto (.touch m))) ∨
    ¬x.Inserting ∧ ∃ y, x.advance slug orgId w.shared i = (w.shared, y) ∧ y.ids = x.ids ∧
      y.Seen m orgId w.shared.providers ∧ (x.Written → y.Written) := by
  have hmem := List.mem_of_getElem? hx
  have hseen := hok.seen x hmem
  have hproviders : (w.shared.providers.map (·.id)).Nodup := (hok.providers.map _).nodup hkeys.providers_pkey
  obtain ⟨hm, howner⟩ := resolveModel_eq_ok hmodel
  simp only [Uninterrupted, hx] at hcalm
  obtain ⟨ids, phase⟩ := x
  cases phase with
  | resolve =>
    refine .inr (.inr ⟨id, ?_⟩)
    cases i with
    | succeeds =>
      refine ⟨⟨ids, .deployments m⟩, ?_, rfl, rfl, False.elim⟩
      simp only [PutCall.advance, PutCall.succeed, hok.models, hmodel]
      rfl
    | refused | lost => exact ⟨_, rfl, fail_quiet id⟩
  | deployments m' =>
    obtain rfl : m' = m := hseen
    refine .inr (.inr ⟨id, ?_⟩)
    cases i with
    | succeeds =>
      refine ⟨_, rfl, ?_⟩
      dsimp only
      cases hvalid : validatedChainDeployments w.shared m' orgId ids with
      | error e => exact ⟨rfl, trivial, False.elim⟩
      | ok u => exact ⟨rfl, ⟨rfl, validated_eq_ok hproviders hvalid⟩, False.elim⟩
    | refused | lost => exact ⟨_, rfl, fail_quiet id⟩
  | clear m' =>
    obtain rfl : m' = m := hseen.1
    cases i with
    | succeeds => exact .inl ⟨rfl, rfl⟩
    | refused => exact .inr (.inr ⟨id, _, rfl, fail_quiet id⟩)
    | lost => exact absurd rfl hcalm
  | insert m' =>
    obtain ⟨rfl, hnodup, hchainable⟩ := hseen
    obtain ⟨rfl, hempty, hroutes⟩ := hcalm
    have hinsert := insertRungs_eq_ok (by rw [hok.models]; exact hkeys.models_pkey) hproviders
      (by rw [hok.models]; exact hm) howner hnodup hchainable hempty hroutes
    refine .inr (.inl ⟨trivial, hempty, hroutes, ?_⟩)
    simp only [PutCall.advance, PutCall.succeed, hinsert]
  | touch m' =>
    obtain rfl : i = .succeeds := hcalm
    exact .inr (.inr ⟨id, ⟨ids, .views⟩, rfl, rfl, trivial, fun _ => trivial⟩)
  | views =>
    obtain rfl : i = .succeeds := hcalm
    exact .inr (.inr ⟨id, ⟨ids, .answered (.ok ())⟩, rfl, rfl, trivial, fun _ => trivial⟩)
  | answered a =>
    refine .inr (.inr ⟨id, ⟨ids, .answered a⟩, ?_, rfl, trivial, id⟩)
    cases i <;> rfl

theorem PutOk.step (hok : PutOk db₀ m orgId w) (hkeys : db₀.Keyed) (hmodel : resolveModel db₀.models slug orgId = .ok m)
    (step : PutStep) (hcalm : Uninterrupted orgId w step) : PutOk db₀ m orgId (putStep slug orgId w step) := by
  cases step with
  | spawn ids => exact hok.spawned ids
  | env id => exact hok.removed id
  | advance k i =>
    rw [putStep]
    cases hx : w.procs[k]? with
    | none =>
      rw [poolStep_advance_none hx]
      exact hok
    | some x =>
      rw [poolStep_advance hx]
      rcases advance_cases hok hkeys hmodel hx hcalm with ⟨hphase, heq⟩ | ⟨-, hempty, hroutes, heq⟩ |
        ⟨hxi, y, heq, hids, hseen, hwritten⟩
      · rw [heq]
        dsimp only
        split_ifs with hids
        · refine hok.written hx ?_ (by simp [hids])
          rw [hids]
          exact chainOf_deleteChain
        · exact hok.cleared hx hphase
      · rw [heq]
        refine hok.written hx ?_ hroutes
        rw [WaterfallDb.chainOf, List.filter_append, chainOf_rungsOf]
        change w.shared.chainOf m.id orgId ++ _ = _
        rw [hempty, List.nil_append]
      · rw [heq]
        exact hok.quiet hx hxi hseen hids hwritten

theorem PutOk.run (hok : PutOk db₀ m orgId w) (hkeys : db₀.Keyed) (hmodel : resolveModel db₀.models slug orgId = .ok m)
    (steps : List PutStep) (hcalm : StepsMeet (putStep slug orgId) (Uninterrupted orgId) w steps) :
    PutOk db₀ m orgId (run (putStep slug orgId) w steps) :=
  run_invariant (fun _ step hstep h => h.step hkeys hmodel step hstep) steps w hok hcalm

/-! ### Requests that changed the chain -/

/-- Has the request deleted the chain, with nothing failed since? -/
def Committed (k : ℕ) (w : PutPool) : Prop := ∃ x, w.procs[k]? = some x ∧ (x.Inserting ∨ x.Written)

/-- A request that deleted the chain goes on to its answer. -/
theorem Committed.step (hok : PutOk db₀ m orgId w) (hkeys : db₀.Keyed)
    (hmodel : resolveModel db₀.models slug orgId = .ok m) (hcommitted : Committed k w) (step : PutStep)
    (hcalm : Uninterrupted orgId w step) : Committed k (putStep slug orgId w step) := by
  obtain ⟨x, hx, hdone⟩ := hcommitted
  have hlt : k < w.procs.length := (List.getElem?_eq_some_iff.mp hx).1
  cases step with
  | spawn ids => exact ⟨x, (List.getElem?_append_left hlt).trans hx, hdone⟩
  | env id => exact ⟨x, hx, hdone⟩
  | advance j i =>
    rw [putStep]
    cases hy : w.procs[j]? with
    | none =>
      rw [poolStep_advance_none hy]
      exact ⟨x, hx, hdone⟩
    | some y =>
      rw [poolStep_advance hy]
      by_cases hjk : j = k
      · subst hjk
        obtain rfl := Option.some.inj (hx.symm.trans hy)
        refine ⟨_, List.getElem?_set_self hlt, ?_⟩
        rcases advance_cases hok hkeys hmodel hx hcalm with ⟨hphase, -⟩ | ⟨-, -, -, heq⟩ | ⟨hxi, z, heq, -, -, hwritten⟩
        · simp [PutCall.Inserting, PutCall.Written, hphase] at hdone
        · rw [heq]
          exact .inr trivial
        · rw [heq]
          exact .inr (hwritten (hdone.resolve_left hxi))
      · refine ⟨x, ?_, hdone⟩
        rw [List.getElem?_set_ne hjk]
        exact hx

theorem chainOf_or_committed (hok : PutOk db₀ m orgId w) (hkeys : db₀.Keyed)
    (hmodel : resolveModel db₀.models slug orgId = .ok m) (i : PutOutcome) (hcalm : Uninterrupted orgId w (.advance k i)) :
    (putStep slug orgId w (.advance k i)).shared.chainOf m.id orgId = w.shared.chainOf m.id orgId ∨
      Committed k (putStep slug orgId w (.advance k i)) := by
  rw [putStep]
  cases hx : w.procs[k]? with
  | none =>
    rw [poolStep_advance_none hx]
    exact .inl rfl
  | some x =>
    have hlt : k < w.procs.length := (List.getElem?_eq_some_iff.mp hx).1
    rw [poolStep_advance hx]
    rcases advance_cases hok hkeys hmodel hx hcalm with ⟨-, heq⟩ | ⟨-, -, -, heq⟩ | ⟨-, y, heq, -⟩
    · rw [heq]
      refine .inr ⟨_, List.getElem?_set_self hlt, ?_⟩
      dsimp only
      split_ifs
      · exact .inr trivial
      · exact .inl trivial
    · rw [heq]
      exact .inr ⟨_, List.getElem?_set_self hlt, .inr trivial⟩
    · rw [heq]
      exact .inl rfl

theorem Committed.run (hkeys : db₀.Keyed) (hmodel : resolveModel db₀.models slug orgId = .ok m) :
    ∀ (steps : List PutStep) {w : PutPool}, PutOk db₀ m orgId w → Committed k w →
      StepsMeet (putStep slug orgId) (Uninterrupted orgId) w steps → Committed k (run (putStep slug orgId) w steps)
  | [], _, _, hcommitted, _ => hcommitted
  | step :: steps, _, hok, hcommitted, hcalm =>
      Committed.run hkeys hmodel steps (hok.step hkeys hmodel step hcalm.1)
        (hcommitted.step hok hkeys hmodel step hcalm.1) hcalm.2

end invariant

/-! ### Runs -/

/-- **A waterfall is replaced as a whole**, or not at all, where no replacement is cut off. -/
theorem waterfall_replaced_whole (slug : String) (orgId : Option String) (m : ChainModel) (db₀ : WaterfallDb) (hkeys : db₀.Keyed)
    (hmodel : resolveModel db₀.models slug orgId = .ok m) (steps : List PutStep)
    (hcalm : StepsMeet (putStep slug orgId) (Uninterrupted orgId) ⟨db₀, []⟩ steps) :
    let w := run (putStep slug orgId) ⟨db₀, []⟩ steps
    ((∀ x ∈ w.procs, ∃ a, x.phase = .answered a) → ∃ source,
      (source = db₀.chainOf m.id orgId ∨
        ∃ x ∈ w.procs, x.phase = .answered (.ok ()) ∧ source = rungsOf m.id orgId x.ids) ∧
      w.shared.chainOf m.id orgId = w.shared.remaining source) ∧
    ∀ (before after : List PutStep) (k : ℕ) (i : PutOutcome) (x : PutCall) (e : PutError),
      steps = before ++ .advance k i :: after → w.procs[k]? = some x → x.phase = .answered (.error e) →
      (run (putStep slug orgId) ⟨db₀, []⟩ (before ++ [.advance k i])).shared.chainOf m.id orgId =
        (run (putStep slug orgId) ⟨db₀, []⟩ before).shared.chainOf m.id orgId := by
  refine ⟨fun hfinished => ?_, fun before after k i x e hsteps hx hphase => ?_⟩
  · have hok := (PutOk.start hkeys).run hkeys hmodel steps hcalm
    have hnone : ∀ x ∈ (run (putStep slug orgId) ⟨db₀, []⟩ steps).procs, ¬x.Inserting := by
      intro x hx hinserting
      obtain ⟨a, ha⟩ := hfinished x hx
      rw [PutCall.Inserting, ha] at hinserting
      exact hinserting
    obtain ⟨source, hsource, hchain⟩ := hok.chain.resolve_right fun h => h.2.elim fun x hx => hnone x hx.1 hx.2
    refine ⟨source, hsource.imp_right ?_, hchain⟩
    rintro ⟨x, hx, hwritten, hids⟩
    obtain ⟨a, ha⟩ := hfinished x hx
    refine ⟨x, hx, ?_, hids⟩
    rw [PutCall.Written, ha] at hwritten
    cases a with
    | error e => exact hwritten.elim
    | ok _ => exact ha
  · subst hsteps
    obtain ⟨hbefore, hcall, hafter⟩ := stepsMeet_append.mp hcalm
    have hok := (PutOk.start hkeys).run hkeys hmodel before hbefore
    rw [run_append]
    refine (chainOf_or_committed hok hkeys hmodel i hcall).resolve_right fun hcommitted => ?_
    have hend := hcommitted.run hkeys hmodel after (hok.step hkeys hmodel _ hcall) hafter
    obtain ⟨y, hy, hdone⟩ := hend
    rw [run_append, run_cons] at hx
    obtain rfl := Option.some.inj (hx.symm.trans hy)
    simp [PutCall.Inserting, PutCall.Written, hphase] at hdone

/-! ### Two replacements -/

def publicGpt : ChainModel := ⟨"model", "gpt", none, false⟩

/-- Two deployments, and the first on the default chain. -/
def routedGpt : WaterfallDb where
  models := [publicGpt]
  providers := [⟨"first", "model", none⟩, ⟨"second", "model", none⟩]
  rungs := rungsOf "model" none ["first"]

theorem routedGpt_keyed : routedGpt.Keyed := ⟨by decide, by decide, by decide⟩

/-- Two requests overlap, a third is refused, and the first deployment goes while the chain ends with it. -/
def overlappingPuts : List PutStep :=
  [.spawn ["second"], .spawn ["second", "first"], .spawn ["second"], .advance 0 .succeeds, .advance 1 .succeeds,
    .advance 2 .refused, .advance 0 .succeeds, .advance 1 .succeeds, .advance 0 .succeeds, .advance 0 .succeeds,
    .advance 1 .succeeds, .advance 1 .succeeds, .env "first", .advance 0 .succeeds, .advance 0 .succeeds,
    .advance 1 .succeeds, .advance 1 .succeeds]

theorem waterfall_replaced_whole_once :
    let w := run (putStep "gpt" none) ⟨routedGpt, []⟩ overlappingPuts
    ∃ source, (source = routedGpt.chainOf "model" none ∨
        ∃ x ∈ w.procs, x.phase = .answered (.ok ()) ∧ source = rungsOf "model" none x.ids) ∧
      w.shared.chainOf "model" none = w.shared.remaining source := by
  have hcalm : StepsMeet (putStep "gpt" none) (Uninterrupted none) ⟨routedGpt, []⟩ overlappingPuts := by decide +kernel
  refine (waterfall_replaced_whole "gpt" none publicGpt routedGpt routedGpt_keyed rfl _ hcalm).1 ?_
  have hprocs : (run (putStep "gpt" none) ⟨routedGpt, []⟩ overlappingPuts).procs =
      [⟨["second"], .answered (.ok ())⟩, ⟨["second", "first"], .answered (.ok ())⟩,
        ⟨["second"], .answered (.error .callFailed)⟩] := by decide +kernel
  rw [hprocs]
  simp

/-- The second deployment instead, with an outcome for each call. -/
def replacement (outcomes : List PutOutcome) : List PutStep := .spawn ["second"] :: outcomes.map (.advance 0)

/-- The runs after an insert that is refused, and after a deployment that goes between the delete and the insert. -/
def refusedRun : PutPool :=
  run (putStep "gpt" none) ⟨routedGpt, []⟩ (replacement [.succeeds, .succeeds, .succeeds, .refused])

def removedRun : PutPool :=
  run (putStep "gpt" none) ⟨routedGpt, []⟩
    (replacement [.succeeds, .succeeds, .succeeds] ++ [.env "second", .advance 0 .succeeds])

/-- Both leave an empty chain behind an error. -/
theorem cut_off_replacement_empties_chain :
    routedGpt.chainOf "model" none = rungsOf "model" none ["first"] ∧
    refusedRun.procs = [⟨["second"], .answered (.error .callFailed)⟩] ∧ refusedRun.shared.chainOf "model" none = [] ∧
    removedRun.procs = [⟨["second"], .answered (.error (.rejected .foreignKey))⟩] ∧
      removedRun.shared.chainOf "model" none = [] := by
  decide +kernel

end Experiential.Catalog
