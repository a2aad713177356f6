import Experiential.Catalog.Refresh

/-! # Authorized and routable

Authorization reads the current revision of an alias, a worker serves the revisions its own
build planned. The two agree after a store (`storeGatewayCatalog_spec`) and as long as no
other store moves an alias; `authorized_routable` says so for every run in which no refresh
takes a watermark for current after another store has moved an alias. -/

namespace Experiential.Catalog

/-! ### Plans of a build

The tables are read one by one, so nothing the schema says about them together can be used. -/

/-- What a build says of its plans whatever its rows. -/
structure GatewayCatalogBuild.PlansOk (b : GatewayCatalogBuild) : Prop where
  aliasIds : (b.aliasPlans.map (·.aliasId)).Nodup
  empty : b.catalog = none → b.aliasPlans = []
  keys : ∀ plan ∈ b.aliasPlans, (plan.revisionId, plan.catalogSha256) ∈ b.keys
  revisions : ∀ plan ∈ b.aliasPlans, ∃ digest, plan.revisionId = "rev-" ++ digest

section plans
variable {i : Inputs} {m : CatalogModelRow} {s : Assembler}

theorem draftAliasPlan_model {a : ModelAssembly} {first : String} {out : Assembler × AliasPlanDraft}
    (h : draftAliasPlan i m a first = .ok out) : out.2.model = m := by
  unfold draftAliasPlan at h
  simp only at h
  split at h
  · cases h
    rfl
  · cases h
    rfl
  · simp only [bind_eq_ok, pure_eq_ok] at h
    obtain ⟨-, -, rfl⟩ := h
    rfl

theorem assembleModel_model {out : Assembler × Option AliasPlanDraft}
    (h : assembleModel i m s = .ok out) : ∀ draft, out.2 = some draft → draft.model = m := by
  unfold assembleModel at h
  rw [bind_eq_ok] at h
  obtain ⟨assembled, -, h⟩ := h
  intro draft hdraft
  split at h
  · cases h
    cases hdraft
  · simp only [bind_eq_ok, pure_eq_ok] at h
    obtain ⟨drafted, hd, rfl⟩ := h
    cases hdraft
    exact draftAliasPlan_model hd

theorem drafts_nodup {a : Assembler × List AliasPlanDraft} {models : List CatalogModelRow}
    (hmodels : (models.map (·.id)).Nodup)
    (h : models.foldlM (buildModel i) (Assembler.empty, []) = .ok a) :
    (a.2.map (·.model.id)).Nodup := by
  have hloop := foldlM_rec
    (I := fun (b : Assembler × List AliasPlanDraft) rest =>
      (b.2.map (·.model.id) ++ rest.map (·.id)).Nodup)
    (fun b m rest b' hstep hnd => by
      unfold buildModel at hstep
      simp only [bind_eq_ok, pure_eq_ok] at hstep
      obtain ⟨out, hout, rfl⟩ := hstep
      have hmodel := assembleModel_model hout
      cases ho : out.2 with
      | none =>
          simp only [Option.toList_none, List.append_nil]
          refine hnd.sublist ?_
          exact List.Sublist.append_left (List.sublist_cons_self _ _) _
      | some draft =>
          rw [List.map_cons] at hnd
          simpa [hmodel draft ho] using hnd)
    models _ h (by simpa using hmodels)
  simpa using hloop

theorem buildGatewayCatalog_plansOk {b : GatewayCatalogBuild}
    (hmodels : (i.rows.models.map (·.id)).Nodup) (h : buildGatewayCatalog i = .ok b) : b.PlansOk := by
  unfold buildGatewayCatalog at h
  rw [bind_eq_ok] at h
  obtain ⟨built, hb, h⟩ := h
  have hsorted : (i.models.map (·.id)).Nodup := by
    have hp := (List.perm_insertionSort (fun a b : CatalogModelRow =>
      a.slug < b.slug ∨ a.slug = b.slug ∧ a.id.text ≤ b.id.text) i.rows.models).map (·.id)
    exact hp.nodup_iff.mpr hmodels
  have hdrafts := drafts_nodup hsorted hb
  simp only at h
  split_ifs at h
  · rw [pure_eq_ok] at h
    subst h
    refine ⟨List.nodup_nil, fun _ => rfl, ?_, ?_⟩
    all_goals
      intro plan hplan
      cases hplan
  · simp only [bind_eq_ok, require_eq_ok, pure_eq_ok] at h
    obtain ⟨normalized, -, rfl⟩ := h
    have hmem : ∀ plan, plan ∈ (built.2.map (finalizePlan i built.1
        (i.engine.identitySha256 normalized))).insertionSort (fun a b => a.aliasId ≤ b.aliasId) →
        ∃ draft, plan = finalizePlan i built.1 (i.engine.identitySha256 normalized) draft := by
      intro plan hplan
      obtain ⟨draft, -, rfl⟩ := List.mem_map.mp ((List.mem_insertionSort _).mp hplan)
      exact ⟨draft, rfl⟩
    refine ⟨?_, (by intro hc; cases hc), ?_, ?_⟩
    · have hperm := (List.perm_insertionSort (fun a b : AliasActivationPlan => a.aliasId ≤ b.aliasId)
        (built.2.map (finalizePlan i built.1 (i.engine.identitySha256 normalized)))).map (·.aliasId)
      have hids : (built.2.map (finalizePlan i built.1 (i.engine.identitySha256 normalized))).map
          (·.aliasId) = (built.2.map (·.model.id)).map modelAliasId := by
        simp [finalizePlan]
      rw [hperm.nodup_iff, hids]
      exact hdrafts.map fun _ _ => modelAliasId_inj
    · intro plan hplan
      obtain ⟨draft, hdraft⟩ := hmem plan hplan
      refine List.mem_map.mpr ⟨plan, hplan, ?_⟩
      rw [hdraft]
      rfl
    · intro plan hplan
      obtain ⟨draft, hdraft⟩ := hmem plan hplan
      exact ⟨_, by rw [hdraft]; rfl⟩

end plans

/-- The plans of a state's build are served by the state. -/
def GatewayCatalogState.ServesBuild (st : GatewayCatalogState) : Prop :=
  ∀ plan ∈ st.build.aliasPlans, (st.routeCatalogs.lookup (plan.revisionId, plan.catalogSha256)).isSome

theorem buildCatalogState_servesBuild {b : GatewayCatalogBuild} (hb : b.PlansOk)
    {environment release : String → Option String} {previous : Option GatewayCatalogState}
    {controls : Dict String ProviderDataControls} {policies : Dict String OrgProviderPolicy}
    {st : GatewayCatalogState}
    (h : buildCatalogState b environment release previous controls policies = .ok st) :
    st.build = b ∧ st.ServesBuild := by
  have hbuild : st.build = b := by
    unfold buildCatalogState at h
    simp only [bind_eq_ok, pure_eq_ok] at h
    obtain ⟨credentials, -, rfl⟩ := h
    rfl
  refine ⟨hbuild, ?_⟩
  intro plan hplan
  rw [hbuild] at hplan
  cases hcatalog : b.catalog with
  | none =>
      rw [hb.empty hcatalog] at hplan
      cases hplan
  | some catalog =>
      have hs := buildCatalogState_serves hcatalog (hb.keys plan hplan) h
      rw [hs.route]
      rfl

/-- Every key a state serves is a planned revision's. -/
def GatewayCatalogState.KeysPlanned (st : GatewayCatalogState) : Prop :=
  ∀ key catalog, st.routeCatalogs.lookup key = some catalog → ∃ digest, key.1 = "rev-" ++ digest

theorem buildCatalogState_keysPlanned {b : GatewayCatalogBuild} (hb : b.PlansOk)
    {environment release : String → Option String} {previous : Option GatewayCatalogState}
    {controls : Dict String ProviderDataControls} {policies : Dict String OrgProviderPolicy}
    {st : GatewayCatalogState}
    (h : buildCatalogState b environment release previous controls policies = .ok st)
    (hprevious : ∀ st', previous = some st' → st'.KeysPlanned) : st.KeysPlanned := by
  unfold buildCatalogState at h
  simp only [bind_eq_ok, pure_eq_ok] at h
  obtain ⟨credentials, -, rfl⟩ := h
  have hgrace : ∀ key catalog, (grace previous (·.routeCatalogs)).lookup key = some catalog →
      ∃ digest, key.1 = "rev-" ++ digest := by
    intro key catalog hkey
    cases previous with
    | none => simp [grace] at hkey
    | some st' => exact hprevious st' rfl key catalog (Dict.lookup_restrict hkey)
  intro key catalog hkey
  cases hcatalog : b.catalog with
  | none =>
      simp only [GatewayCatalogBuild.serve, hcatalog] at hkey
      exact hgrace key catalog hkey
  | some built =>
      simp only [GatewayCatalogBuild.serve, hcatalog, Dict.lookup_insertAll] at hkey
      split_ifs at hkey with hmem
      · unfold GatewayCatalogBuild.keys at hmem
        rw [hcatalog] at hmem
        obtain ⟨plan, hplan, rfl⟩ := List.mem_map.mp hmem
        exact hb.revisions plan hplan
      · exact hgrace key catalog hkey

/-! ### The invariant -/

/-- Every plan of the build is served by its alias. -/
def ServesPlans (t : AliasTables) (b : GatewayCatalogBuild) : Prop :=
  ∀ plan ∈ b.aliasPlans, ServesPlan t plan

/-- Where a refresh is, its build's plans are in order, and served once they are stored. -/
def RefreshPhase.Ok (t : AliasTables) : RefreshPhase → Prop
  | .idle => True
  | .reading _ loaded => (loaded.models.map (·.row.id)).Nodup
  | .built build _ => build.PlansOk
  | .stored build _ overtaken => build.PlansOk ∧ (overtaken = false → ServesPlans t build)

/-- What a worker serves follows from the plans it stored. -/
structure GatewayWorker.Ok (t : AliasTables) (x : GatewayWorker) : Prop where
  phase : x.phase.Ok t
  states : ∀ st, x.state = some st → st.ServesBuild ∧ (x.overtaken = false → ServesPlans t st.build)
  planned : ∀ st, x.state = some st → st.KeysPlanned

structure World.Ok (w : World) : Prop where
  unique : NamespaceUnique w.aliases
  models : (w.tables.models.map (·.row.id)).Nodup
  workers : ∀ p, (w.workers p).Ok w.aliases

theorem GatewayWorker.fresh_ok (t : AliasTables) : GatewayWorker.fresh.Ok t :=
  ⟨trivial, (by intro st h; cases h), (by intro st h; cases h)⟩

theorem World.initial_ok (house : Option Uuid) (clock : CatalogTable → Int) :
    (World.initial house clock).Ok :=
  ⟨(by intro id a id' a' h; simp [World.initial, AliasTables.empty] at h), List.nodup_nil,
    fun _ => GatewayWorker.fresh_ok _⟩

section preservation
variable {t t' : AliasTables} {w : World} {x : GatewayWorker}

theorem ServesPlans.keeps {b : GatewayCatalogBuild} (h : ServesPlans t b) (hk : KeepsCatalog t t') :
    ServesPlans t' b :=
  fun plan hplan => (h plan hplan).keeps hk

/-- The calls of the alias API keep what a worker serves. -/
theorem GatewayWorker.Ok.keeps (h : x.Ok t) (hk : KeepsCatalog t t') :
    ({ x with completed := false } : GatewayWorker).Ok t' := by
  refine ⟨?_, ?_, h.planned⟩
  · have hphase := h.phase
    show x.phase.Ok t'
    cases hp : x.phase with
    | idle => trivial
    | stored build loaded overtaken =>
        rw [hp] at hphase
        exact ⟨hphase.1, fun ho => (hphase.2 ho).keeps hk⟩
    | _ =>
        rw [hp] at hphase
        exact hphase
  · intro st hst
    obtain ⟨hserves, hplans⟩ := h.states st hst
    exact ⟨hserves, fun ho => (hplans ho).keeps hk⟩

/-- A store that moved something leaves nobody else with a claim. -/
theorem GatewayWorker.Ok.noteStore (h : x.Ok t) {changed : Bool} (hsame : changed = false → t' = t) :
    (x.noteStore changed).Ok t' := by
  refine ⟨?_, ?_, h.planned⟩
  · have hphase := h.phase
    unfold GatewayWorker.noteStore
    cases hp : x.phase with
    | stored build loaded overtaken =>
        rw [hp] at hphase
        refine ⟨hphase.1, ?_⟩
        intro ho
        obtain ⟨ho, hc⟩ := Bool.or_eq_false_iff.mp ho
        rw [hsame hc]
        exact hphase.2 ho
    | idle => trivial
    | reading todo loaded | built build loaded =>
        rw [hp] at hphase
        exact hphase
  · intro st hst
    obtain ⟨hserves, hplans⟩ := h.states st hst
    refine ⟨hserves, ?_⟩
    intro ho
    obtain ⟨ho, hc⟩ := Bool.or_eq_false_iff.mp ho
    rw [hsame hc]
    exact hplans ho

theorem World.Ok.setWorker (h : w.Ok) (p : ℕ) (hx : x.Ok w.aliases) : (w.setWorker p x).Ok := by
  refine ⟨h.unique, h.models, ?_⟩
  intro q
  unfold World.setWorker
  simp only
  split_ifs
  · exact hx
  · exact h.workers q

theorem World.Ok.setAliases (h : w.Ok) (hu : NamespaceUnique t') (hk : KeepsCatalog w.aliases t') :
    (w.setAliases t').Ok :=
  ⟨hu, h.models, fun p => (h.workers p).keeps hk⟩

theorem World.Ok.giveUp (h : w.Ok) (p : ℕ) : (w.giveUp p).Ok :=
  h.setWorker p ⟨trivial, (h.workers p).states, (h.workers p).planned⟩

end preservation

/-! ### Steps -/

/-- A store has moved an alias since this refresh's own. -/
def RefreshPhase.overtaken : RefreshPhase → Bool
  | .stored _ _ overtaken => overtaken
  | _ => false

/-- The next poll finds nothing to do. -/
def World.skips (w : World) (p : ℕ) : Bool :=
  (match (w.workers p).phase with
  | .idle => true
  | _ => false) && w.upToDate p

/-- No refresh takes a watermark for current after another store has moved an alias: neither by
finding it unchanged, nor by reading it after its own store. -/
def NotOverlooked (w : World) : RefreshStep → Prop
  | .poll p => w.skips p = true → (w.workers p).overtaken = false
  | .swap p _ => (w.workers p).phase.overtaken = false
  | _ => True

instance (w : World) (s : RefreshStep) : Decidable (NotOverlooked w s) := by
  unfold NotOverlooked
  split <;> infer_instance

section steps
variable {fleet : Fleet} {w : World}

theorem writeStep_ok (h : w.Ok) (c : CatalogWrite) : (writeStep w c).Ok := by
  unfold writeStep
  split_ifs with hkeys
  · refine ⟨h.unique, hkeys.1, ?_⟩
    intro p
    exact ⟨(h.workers p).phase, (h.workers p).states, (h.workers p).planned⟩
  · exact h

theorem requestStep_ok (h : w.Ok) (r : NamedAliasRequest) : (requestStep w r).Ok := by
  unfold requestStep
  split
  · exact ⟨h.unique, h.models, h.workers⟩
  · exact h

theorem callStep_ok (h : w.Ok) (k : ℕ) : (callStep w k).Ok := by
  unfold callStep
  cases hcall : w.calls[k]? with
  | none => exact h
  | some call =>
      have hrest : ({ w with calls := w.calls.eraseIdx k } : World).Ok := ⟨h.unique, h.models, h.workers⟩
      simp only
      cases hexec : call.execute w.aliases with
      | ok aliases =>
          obtain ⟨hu, hk⟩ := AliasCall.execute_spec h.unique hexec
          exact hrest.setAliases hu hk
      | error e => exact hrest

theorem pollStep_ok (h : w.Ok) (p : ℕ) : (pollStep w p).Ok := by
  unfold pollStep
  cases hphase : (w.workers p).phase with
  | idle =>
      have hw := h.workers p
      simp only
      split_ifs with hsame
      · refine h.setWorker p ⟨?_, hw.states, hw.planned⟩
        rw [hphase]
        trivial
      · exact h.setWorker p ⟨List.nodup_nil, hw.states, hw.planned⟩
  | _ => exact h

theorem copy_models_nodup {loaded db : CatalogTables} (table : CatalogTable)
    (hl : (loaded.models.map (·.row.id)).Nodup) (hd : (db.models.map (·.row.id)).Nodup) :
    ((loaded.copy db table).models.map (·.row.id)).Nodup := by
  cases table with
  | models => exact hd
  | _ => exact hl

theorem readStep_ok (h : w.Ok) (p : ℕ) : (readStep w p).Ok := by
  unfold readStep
  cases hphase : (w.workers p).phase with
  | reading todo loaded =>
      cases todo with
      | nil => exact h
      | cons table todo =>
          have hw := h.workers p
          have hloaded := hw.phase
          rw [hphase] at hloaded
          exact h.setWorker p ⟨copy_models_nodup table hloaded h.models, hw.states, hw.planned⟩
  | _ => exact h

theorem buildStep_ok (h : w.Ok) (p : ℕ) (probe : String → Bool) : (buildStep fleet w p probe).Ok := by
  unfold buildStep
  cases hphase : (w.workers p).phase with
  | reading todo loaded =>
      cases todo with
      | cons table todo => exact h
      | nil =>
          have hw := h.workers p
          have hloaded := hw.phase
          rw [hphase] at hloaded
          simp only
          cases hbuild : buildGatewayCatalog (fleet.inputs p loaded probe) with
          | error e => exact h.giveUp p
          | ok build =>
              have hmodels : ((fleet.inputs p loaded probe).rows.models.map (·.id)).Nodup := by
                show ((loaded.models.map (·.row)).map (·.id)).Nodup
                rw [List.map_map]
                exact hloaded
              exact h.setWorker p ⟨buildGatewayCatalog_plansOk hmodels hbuild, hw.states, hw.planned⟩
  | _ => exact h

theorem storeStep_ok (h : w.Ok) (p : ℕ) : (storeStep w p).Ok := by
  unfold storeStep
  cases hphase : (w.workers p).phase with
  | built build loaded =>
      have hplans := (h.workers p).phase
      rw [hphase] at hplans
      simp only
      cases hstore : storeGatewayCatalog w.aliases build with
      | error e => exact h.giveUp p
      | ok out =>
          obtain ⟨hu, hsame, hserves⟩ := storeGatewayCatalog_spec h.unique hplans.aliasIds hplans.empty hstore
          have hnoted : ({ w with
              aliases := out.1
              workers := fun q => (w.workers q).noteStore out.2.changed } : World).Ok :=
            ⟨hu, h.models, fun q => (h.workers q).noteStore hsame⟩
          have hw := hnoted.workers p
          exact hnoted.setWorker p ⟨⟨hplans, fun _ => hserves⟩, hw.states, hw.planned⟩
  | _ => exact h

theorem swapStep_ok (h : w.Ok) (p : ℕ) (release : String → Option String) : (swapStep fleet w p release).Ok := by
  unfold swapStep
  cases hphase : (w.workers p).phase with
  | stored build loaded overtaken =>
      have hstored := (h.workers p).phase
      rw [hphase] at hstored
      simp only
      cases hstate : buildCatalogState build (fleet.environment p) release (w.workers p).state
          loaded.providerControls loaded.providerPolicies with
      | error e => exact h.giveUp p
      | ok state =>
          obtain ⟨hbuild, hserves⟩ := buildCatalogState_servesBuild hstored.1 hstate
          refine h.setWorker p ⟨trivial, ?_, ?_⟩
          · intro st hst
            cases hst
            exact ⟨hserves, fun ho => by rw [hbuild]; exact hstored.2 ho⟩
          · intro st hst
            cases hst
            exact buildCatalogState_keysPlanned hstored.1 hstate (h.workers p).planned
  | _ => exact h

theorem refreshStep_ok (s : RefreshStep) (h : w.Ok) : (refreshStep fleet w s).Ok := by
  cases s with
  | write c => exact writeStep_ok h c
  | request r => exact requestStep_ok h r
  | call k => exact callStep_ok h k
  | poll p => exact pollStep_ok h p
  | read p => exact readStep_ok h p
  | build p probe => exact buildStep_ok h p probe
  | store p => exact storeStep_ok h p
  | swap p release => exact swapStep_ok h p release
  | abandon p => exact h.giveUp p
  | restart p => exact h.setWorker p (GatewayWorker.fresh_ok _)
  | _ =>
      exact h.setAliases h.unique ⟨fun _ a ha ho => ⟨a, ha, ho, rfl, rfl, rfl⟩, fun _ _ hr => hr⟩

theorem run_ok (house : Option Uuid) (clock : CatalogTable → Int) (steps : List RefreshStep) :
    (run (refreshStep fleet) (World.initial house clock) steps).Ok :=
  run_invariant_of_forall (fun _ s h => refreshStep_ok s h) steps _ (World.initial_ok house clock)

end steps

/-! ### Completed refreshes -/

/-- A worker whose refresh is completed has not been overtaken. -/
def World.Noticed (w : World) : Prop := ∀ p, (w.workers p).completed = true → (w.workers p).overtaken = false

section noticed
variable {fleet : Fleet} {w : World}

theorem World.Noticed.setWorker (h : w.Noticed) (p : ℕ) {x : GatewayWorker}
    (hx : x.completed = true → x.overtaken = false) : (w.setWorker p x).Noticed := by
  intro q
  unfold World.setWorker
  simp only
  split_ifs
  · exact hx
  · exact h q

theorem World.setAliases_noticed (w : World) (t : AliasTables) : (w.setAliases t).Noticed := by
  intro p hc
  cases hc

theorem storeStep_noticed (h : w.Noticed) (p : ℕ) : (storeStep w p).Noticed := by
  unfold storeStep
  cases hphase : (w.workers p).phase with
  | built build loaded =>
      simp only
      cases hstore : storeGatewayCatalog w.aliases build with
      | error e => exact h.setWorker p (h p)
      | ok out =>
          have hnoted : ({ w with
              aliases := out.1
              workers := fun q => (w.workers q).noteStore out.2.changed } : World).Noticed := by
            intro q hc
            obtain ⟨hc, hchanged⟩ := Bool.and_eq_true_iff.mp hc
            refine Bool.or_eq_false_iff.mpr ⟨h q hc, ?_⟩
            simpa using hchanged
          exact hnoted.setWorker p (hnoted p)
  | _ => exact h

theorem refreshStep_noticed (s : RefreshStep) (hC : NotOverlooked w s) (h : w.Noticed) :
    (refreshStep fleet w s).Noticed := by
  cases s with
  | write c =>
      show (writeStep w c).Noticed
      unfold writeStep
      split_ifs
      · nofun
      · exact h
  | request r =>
      show (requestStep w r).Noticed
      unfold requestStep
      split
      · exact h
      · exact h
  | call k =>
      show (callStep w k).Noticed
      unfold callStep
      split
      · exact h
      · simp only
        split
        · exact World.setAliases_noticed _ _
        · exact h
  | poll p =>
      show (pollStep w p).Noticed
      unfold pollStep
      cases hphase : (w.workers p).phase with
      | idle =>
          simp only
          split_ifs with hsame
          · exact h.setWorker p fun _ => hC (by unfold World.skips; rw [hphase]; exact hsame)
          · exact h.setWorker p (h p)
      | _ => exact h
  | read p =>
      show (readStep w p).Noticed
      unfold readStep
      split
      · exact h.setWorker p (h p)
      · exact h
  | build p probe =>
      show (buildStep fleet w p probe).Noticed
      unfold buildStep
      split
      · split
        · exact h.setWorker p (h p)
        · exact h.setWorker p (h p)
      · exact h
  | store p => exact storeStep_noticed h p
  | swap p release =>
      show (swapStep fleet w p release).Noticed
      unfold swapStep
      cases hphase : (w.workers p).phase with
      | stored build loaded overtaken =>
          have hnot : (w.workers p).phase.overtaken = false := hC
          rw [hphase] at hnot
          simp only
          split
          · exact h.setWorker p fun _ => hnot
          · exact h.setWorker p (h p)
      | _ => exact h
  | abandon p => exact h.setWorker p (h p)
  | restart p => exact h.setWorker p (by intro hc; cases hc)
  | _ => exact w.setAliases_noticed _

theorem run_noticed (house : Option Uuid) (clock : CatalogTable → Int) {steps : List RefreshStep}
    (hsteps : StepsMeet (refreshStep fleet) NotOverlooked (World.initial house clock) steps) :
    (run (refreshStep fleet) (World.initial house clock) steps).Noticed :=
  run_invariant (fun _ s hC h => refreshStep_noticed s hC h) steps _ (by intro p hc; cases hc) hsteps

end noticed

/-! ### Authorized requests -/

section authorized
variable {t : AliasTables} {org : Uuid} {identity : Option Uuid} {name : String}
  {authorization : AuthorizationSnapshot}

/-- An authorized request carries the current revision of the effective alias. -/
theorem authorizeRequest_spec (h : authorizeRequest t org identity name = some authorization) :
    ∃ aliasId row revision, t.effectiveAlias name org = some (aliasId, row) ∧
      row.currentRevisionId = some authorization.aliasRevisionId ∧
      t.revisions.lookup authorization.aliasRevisionId = some revision ∧
      authorization.catalogSha256 = revision.catalogSha256 := by
  unfold authorizeRequest at h
  simp only [Option.bind_eq_bind, Option.bind_eq_some_iff, Option.pure_def, Option.some.injEq] at h
  obtain ⟨i, -, found, hfound, revisionId, hrevision, revision, hlookup, rfl⟩ := h
  exact ⟨found.1, found.2, revision, hfound, Option.eq_some_of_filter_eq_some hrevision, hlookup, rfl⟩

theorem lookup_of_effectiveAlias {found : String × GatewayAlias}
    (h : t.effectiveAlias name org = some found) : t.aliases.lookup found.1 = some found.2 := by
  have hactive : ∀ o found, t.activeAlias name o = some found → t.aliases.lookup found.1 = some found.2 := by
    intro o found hf
    unfold AliasTables.activeAlias at hf
    obtain ⟨e, he, rfl⟩ := Option.map_eq_some_iff.mp hf
    exact AList.mem_lookup_iff.mpr (List.mem_of_find?_eq_some he)
  unfold AliasTables.effectiveAlias at h
  rcases Option.or_eq_some_iff.mp h with h | ⟨-, h⟩
  · exact hactive _ _ h
  · exact hactive _ _ h

variable {resolver : CatalogRouteResolver} {st : GatewayCatalogState}

/-- The platform's own refusals are not the engine's unknown key. -/
theorem resolveRoute_ne_unknownKey
    (hresolver : ∀ catalogs a, resolver catalogs a = .error .unknownKey ↔
      AList.lookup a.key catalogs = none)
    (hkey : (st.routeCatalogs.lookup authorization.key).isSome) :
    resolveRoute resolver st authorization ≠ .error .unknownKey := by
  intro h
  unfold resolveRoute at h
  rw [bind_eq_error] at h
  rcases h with h | ⟨route, -, h⟩
  · rw [hresolver] at h
    rw [h] at hkey
    cases hkey
  · simp only [bind_eq_error] at h
    rcases h with h | ⟨final, -, h | ⟨-, -, h⟩⟩
    · unfold applyProviderPolicy at h
      split at h
      · cases h
      · split at h
        · cases h
        · split_ifs at h
    · unfold requireByokConnection at h
      split_ifs at h
      rw [ensure_eq_error] at h
      cases h.2
    · cases h

/-- **Authorized implies routable.** In every run in which no refresh overlooks another store's
activation, a worker that has completed a refresh since the last change serves every request
authorized through a catalog alias that its build plans. -/
theorem authorized_routable {fleet : Fleet} (house : Option Uuid) (clock : CatalogTable → Int)
    {steps : List RefreshStep}
    (hsteps : StepsMeet (refreshStep fleet) NotOverlooked (World.initial house clock) steps)
    (hresolver : ∀ catalogs a, resolver catalogs a = .error .unknownKey ↔
      AList.lookup a.key catalogs = none) (p : ℕ)
    (hstate : ((run (refreshStep fleet) (World.initial house clock) steps).workers p).state = some st)
    (hcompleted :
      ((run (refreshStep fleet) (World.initial house clock) steps).workers p).completed = true)
    (hauthorized : authorizeRequest (run (refreshStep fleet) (World.initial house clock) steps).aliases
      org identity name = some authorization)
    {aliasId : String} {row : GatewayAlias}
    (heffective : (run (refreshStep fleet) (World.initial house clock) steps).aliases.effectiveAlias
      name org = some (aliasId, row))
    (hcatalog : row.origin = .catalog) {plan : AliasActivationPlan} (hplan : plan ∈ st.build.aliasPlans)
    (hid : plan.aliasId = aliasId) (hname : plan.aliasName = row.aliasName)
    (horg : plan.orgId = row.orgId) :
    (st.routeCatalogs.lookup authorization.key).isSome ∧
      resolveRoute resolver st authorization ≠ .error .unknownKey := by
  have hok : (run (refreshStep fleet) (World.initial house clock) steps).Ok := run_ok house clock steps
  have hnoticed := run_noticed house clock hsteps
  generalize run (refreshStep fleet) (World.initial house clock) steps = w at *
  obtain ⟨hserves, hplans⟩ := (hok.workers p).states st hstate
  have hserved := hplans (hnoticed p hcompleted) plan hplan
  -- the effective alias is the plan's, and it points to the plan's revision
  have hrow : w.aliases.aliases.lookup plan.aliasId = some row := by
    rw [hid]
    exact lookup_of_effectiveAlias heffective
  obtain ⟨hcurrent, r, hr, hsha⟩ := hserved row hrow hcatalog hname.symm horg.symm
  obtain ⟨aliasId', row', revision, heffective', hcurrent', hrevision, hsha'⟩ :=
    authorizeRequest_spec hauthorized
  rw [heffective] at heffective'
  cases heffective'
  have hrev : authorization.aliasRevisionId = plan.revisionId :=
    Option.some.inj (hcurrent'.symm.trans hcurrent)
  rw [hrev, hr] at hrevision
  cases hrevision
  have hkey : authorization.key = (plan.revisionId, plan.catalogSha256) := by
    unfold AuthorizationSnapshot.key
    rw [hrev, hsha', hsha]
  have hin : (st.routeCatalogs.lookup authorization.key).isSome := by
    rw [hkey]
    exact hserves plan hplan
  exact ⟨hin, resolveRoute_ne_unknownKey hresolver hin⟩

end authorized

/-! ### A named alias -/

section named

def sampleFleet : Fleet where
  engine := referenceEngine
  azureConnectionConfig := fun _ => none
  environment := fun _ => mixedInputs.environment

/-- One whole refresh of the first worker. -/
def refreshSteps : List RefreshStep :=
  .poll 0 :: List.replicate 7 (.read 0) ++ [.build 0 fun _ => true, .store 0,
    .swap 0 fun _ => some "customer-key"]

/-- The rows of the mixed chain. -/
def mixedWrite : CatalogWrite where
  models := mixedRows.models.map (.insert · 1)
  providers := mixedRows.providers.map (.insert · 1)
  waterfalls := mixedRows.waterfalls.map (.insert · 1)
  connections := mixedRows.connections.map (.insert · 1)

def plannedSteps : List RefreshStep :=
  .write mixedWrite :: .addOrganization keyedOrg :: refreshSteps

/-- An identity of the organization. -/
def sampleIdentity : Uuid := rowId '9'

/-- An admin names the model and grants the alias; the worker refreshes, and finds nothing new. -/
def namedSteps : List RefreshStep :=
  plannedSteps ++ [.request (.create keyedOrg "coding" "mixed" "a" "b"), .call 0,
    .grant "named-a" sampleIdentity] ++ refreshSteps ++ [.poll 0]

def plannedWorld : World := run (refreshStep sampleFleet) (World.initial none fun _ => 0) plannedSteps
def namedWorld : World := run (refreshStep sampleFleet) (World.initial none fun _ => 0) namedSteps

/-- The state of the first worker and the request for a name. -/
def World.authorized (w : World) (name : String) : Option (GatewayCatalogState × AuthorizationSnapshot) := do
  let st ← (w.workers 0).state
  let authorization ← authorizeRequest w.aliases keyedOrg (some sampleIdentity) name
  return (st, authorization)

theorem World.authorized_eq_some {w : World} {name : String} {st : GatewayCatalogState}
    {authorization : AuthorizationSnapshot} (h : w.authorized name = some (st, authorization)) :
    (w.workers 0).state = some st ∧
      authorizeRequest w.aliases keyedOrg (some sampleIdentity) name = some authorization := by
  unfold World.authorized at h
  simp only [Option.bind_eq_bind, Option.bind_eq_some_iff, Option.pure_def, Option.some.injEq,
    Prod.mk.injEq] at h
  obtain ⟨st', hst, authorization', hauthorized, rfl, rfl⟩ := h
  exact ⟨hst, hauthorized⟩

/-- The model by its own name. -/
theorem authorized_routable_sample : ∃ st authorization,
    (plannedWorld.workers 0).state = some st ∧
    authorizeRequest plannedWorld.aliases keyedOrg (some sampleIdentity) "mixed" = some authorization ∧
    (st.routeCatalogs.lookup authorization.key).isSome ∧
    resolveRoute referenceResolver st authorization ≠ .error .unknownKey := by
  have hsteps : StepsMeet (refreshStep sampleFleet) NotOverlooked (World.initial none fun _ => 0)
      plannedSteps := by decide +kernel
  have hrun : ((plannedWorld.workers 0).completed && (plannedWorld.authorized "mixed").any fun found =>
      (plannedWorld.aliases.effectiveAlias "mixed" keyedOrg).any fun alias_ =>
        decide (alias_.2.origin = .catalog) && found.1.build.aliasPlans.any fun plan =>
          decide (plan.aliasId = alias_.1) && decide (plan.aliasName = alias_.2.aliasName) &&
            decide (plan.orgId = alias_.2.orgId)) = true := by decide +kernel
  obtain ⟨hcompleted, hrun⟩ := Bool.and_eq_true_iff.mp hrun
  obtain ⟨⟨st, authorization⟩, hfound, hrun⟩ := Option.any_eq_true _ _ |>.mp hrun
  obtain ⟨⟨aliasId, row⟩, heffective, hrun⟩ := Option.any_eq_true _ _ |>.mp hrun
  obtain ⟨horigin, hplans⟩ := Bool.and_eq_true_iff.mp hrun
  obtain ⟨plan, hplan, hsame⟩ := List.any_eq_true.mp hplans
  simp only [Bool.and_eq_true, decide_eq_true_eq] at hsame horigin
  obtain ⟨hstate, hauthorized⟩ := World.authorized_eq_some hfound
  exact ⟨st, authorization, hstate, hauthorized, authorized_routable none (fun _ => 0) hsteps
    referenceResolver_unknownKey 0 hstate hcompleted hauthorized heffective horigin hplan hsame.1.1
    hsame.1.2 hsame.2⟩

/-- The named alias of a planned model is authorized, and its key is unknown to an up-to-date
worker. -/
theorem named_alias_unroutable : ∃ st authorization model,
    (namedWorld.workers 0).state = some st ∧ (namedWorld.workers 0).completed = true ∧
    authorizeRequest namedWorld.aliases keyedOrg (some sampleIdentity) "coding" = some authorization ∧
    namedWorld.aliases.namedTargets.lookup authorization.aliasRevisionId = some (some model, "mixed") ∧
    (∃ plan ∈ st.build.aliasPlans, plan.aliasId = modelAliasId model) ∧
    st.routeCatalogs.lookup authorization.key = none ∧
    resolveRoute referenceResolver st authorization = .error .unknownKey := by
  have hrun : ((namedWorld.workers 0).completed && (namedWorld.authorized "coding").any fun found =>
      decide (namedWorld.aliases.namedTargets.lookup found.2.aliasRevisionId = some (some (rowId '1'), "mixed")) &&
      (found.1.build.aliasPlans.any fun plan => decide (plan.aliasId = modelAliasId (rowId '1'))) &&
      decide (found.1.routeCatalogs.lookup found.2.key = none)) = true := by decide +kernel
  obtain ⟨hcompleted, hrun⟩ := Bool.and_eq_true_iff.mp hrun
  obtain ⟨⟨st, authorization⟩, hfound, hrun⟩ := Option.any_eq_true _ _ |>.mp hrun
  simp only [Bool.and_eq_true, decide_eq_true_eq] at hrun
  obtain ⟨⟨htarget, hplans⟩, hkey⟩ := hrun
  obtain ⟨plan, hplan, hid⟩ := List.any_eq_true.mp hplans
  obtain ⟨hstate, hauthorized⟩ := World.authorized_eq_some hfound
  refine ⟨st, authorization, rowId '1', hstate, hcompleted, hauthorized, htarget,
    ⟨plan, hplan, of_decide_eq_true hid⟩, hkey, ?_⟩
  unfold resolveRoute
  rw [(referenceResolver_unknownKey _ _).mpr hkey]
  rfl

end named

end Experiential.Catalog
