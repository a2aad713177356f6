import Experiential.Catalog.Authorized

/-! # No lost catalog update

A refresh that returns has read every table and records a watermark; a later one that finds the
watermark unchanged keeps the state. `no_lost_update`: in every run in which no table is
written between a running refresh's read of it and the re-read of the watermark, every write
stamps its rows later than any committed before, and no data control is deleted, the state of a
worker whose refresh began and returned after the last write is the one of the current tables.
Between the read and the re-read a write is recorded as seen and never served (`policy_lost`). -/

namespace Experiential.Catalog

/-! ### Versions of the tables -/

/-- The two agree on a table. -/
def SameTable (a b : CatalogTables) : CatalogTable → Prop
  | .models => a.models = b.models
  | .providers => a.providers = b.providers
  | .waterfalls => a.waterfalls = b.waterfalls
  | .connections => a.connections = b.connections
  | .house => a.houseOrgId = b.houseOrgId
  | .controls => a.controls = b.controls
  | .policies => a.policies = b.policies

/-- The tables have come from `src` by writes stamped after `bound`; no control was deleted. -/
structure TablesSince (bound : CatalogTable → Int) (src cur : CatalogTables) : Prop where
  models : Since (bound .models) src.models cur.models
  providers : Since (bound .providers) src.providers cur.providers
  waterfalls : Since (bound .waterfalls) src.waterfalls cur.waterfalls
  connections : Since (bound .connections) src.connections cur.connections
  house : cur.houseOrgId = src.houseOrgId
  controls : Since (bound .controls) src.controls cur.controls
  policies : Since (bound .policies) src.policies cur.policies
  kept : src.controls.length ≤ cur.controls.length

/-- Every statement of a list stamps later than the clock. -/
def Later {α : Type} (clock : Int) (writes : List (TableWrite α)) : Prop :=
  ∀ x ∈ writes, ∀ t, x.time = some t → clock < t

/-- A write whose stamps are later than any committed to its tables, and that deletes no
control. -/
structure CatalogWrite.InOrder (c : CatalogWrite) (clock : CatalogTable → Int) : Prop where
  models : Later (clock .models) c.models
  providers : Later (clock .providers) c.providers
  waterfalls : Later (clock .waterfalls) c.waterfalls
  connections : Later (clock .connections) c.connections
  controls : Later (clock .controls) c.controls
  policies : Later (clock .policies) c.policies
  keeps : ∀ x ∈ c.controls, x.deletes = false

section versions
variable {a b db loaded src cur : CatalogTables} {bound clock : CatalogTable → Int}

theorem eq_of_sameTable (h : ∀ table, SameTable a b table) : a = b := by
  have hm := h .models
  have hp := h .providers
  have hw := h .waterfalls
  have hc := h .connections
  have hh := h .house
  have hd := h .controls
  have ho := h .policies
  cases a
  cases b
  simp only [SameTable] at hm hp hw hc hh hd ho
  subst hm hp hw hc hh hd ho
  rfl

/-- A table that has been read is the one of the database, and the others are untouched. -/
theorem sameTable_copy (table : CatalogTable) : SameTable (loaded.copy db table) db table := by
  cases table <;> rfl

theorem sameTable_copy_of_ne {table other : CatalogTable} (hne : other ≠ table)
    (h : SameTable loaded db other) : SameTable (loaded.copy db table) db other := by
  cases table <;> cases other <;> first | exact h | exact absurd rfl hne

theorem sameTable_apply {c : CatalogWrite} {table : CatalogTable} (hspared : c.Spares table)
    (h : SameTable loaded db table) : SameTable loaded (c.apply db) table := by
  cases table with
  | house => exact h
  | models => exact h.trans (by rw [CatalogWrite.apply, show c.models = [] from hspared]; rfl)
  | providers => exact h.trans (by rw [CatalogWrite.apply, show c.providers = [] from hspared]; rfl)
  | waterfalls => exact h.trans (by rw [CatalogWrite.apply, show c.waterfalls = [] from hspared]; rfl)
  | connections => exact h.trans (by rw [CatalogWrite.apply, show c.connections = [] from hspared]; rfl)
  | controls => exact h.trans (by rw [CatalogWrite.apply, show c.controls = [] from hspared]; rfl)
  | policies => exact h.trans (by rw [CatalogWrite.apply, show c.policies = [] from hspared]; rfl)

theorem Later.mono {α : Type} {m n : Int} {writes : List (TableWrite α)} (h : Later n writes)
    (hle : m ≤ n) : Later m writes :=
  fun x hx t ht => lt_of_le_of_lt hle (h x hx t ht)

theorem TablesSince.apply (h : TablesSince bound src cur) {c : CatalogWrite} (hc : c.InOrder clock)
    (hle : ∀ table, bound table ≤ clock table) : TablesSince bound src (c.apply cur) where
  models := h.models.applyAll (hc.models.mono (hle _))
  providers := h.providers.applyAll (hc.providers.mono (hle _))
  waterfalls := h.waterfalls.applyAll (hc.waterfalls.mono (hle _))
  connections := h.connections.applyAll (hc.connections.mono (hle _))
  house := h.house
  controls := h.controls.applyAll (hc.controls.mono (hle _))
  policies := h.policies.applyAll (hc.policies.mono (hle _))
  kept := h.kept.trans (length_le_applyAll hc.keeps)

/-- The tables are what they were when the watermark is. -/
theorem TablesSince.eq (h : TablesSince bound src cur) {s t : AliasTables}
    (hw : readCatalogWatermark cur s = readCatalogWatermark src t) : cur = src := by
  simp only [readCatalogWatermark, CatalogWatermark.mk.injEq] at hw
  obtain ⟨hmc, hm, hpc, hp, hwc, hwm, hcc, hcm, -, -, hoc, ho, hd⟩ := hw
  refine eq_of_sameTable ?_
  intro table
  cases table with
  | models => exact h.models.eq hmc.ge hm
  | providers => exact h.providers.eq hpc.ge hp
  | waterfalls => exact h.waterfalls.eq hwc.ge hwm
  | connections => exact h.connections.eq hcc.ge hcm
  | house => exact h.house
  | controls => exact h.controls.eq h.kept hd
  | policies => exact h.policies.eq hoc.ge ho

end versions

/-- Every stamp of the tables is at most the latest committed to its table. -/
structure Bounded (clock : CatalogTable → Int) (t : CatalogTables) : Prop where
  models : ∀ r ∈ t.models, r.updatedAt ≤ clock .models
  providers : ∀ r ∈ t.providers, r.updatedAt ≤ clock .providers
  waterfalls : ∀ r ∈ t.waterfalls, r.updatedAt ≤ clock .waterfalls
  connections : ∀ r ∈ t.connections, r.updatedAt ≤ clock .connections
  controls : ∀ r ∈ t.controls, r.updatedAt ≤ clock .controls
  policies : ∀ r ∈ t.policies, r.updatedAt ≤ clock .policies

theorem Bounded.apply {clock : CatalogTable → Int} {t : CatalogTables} (h : Bounded clock t)
    (c : CatalogWrite) : Bounded (c.advance clock) (c.apply t) where
  models := bounded_applyAll h.models
  providers := bounded_applyAll h.providers
  waterfalls := bounded_applyAll h.waterfalls
  connections := bounded_applyAll h.connections
  controls := bounded_applyAll h.controls
  policies := bounded_applyAll h.policies

theorem Bounded.since {clock : CatalogTable → Int} {t : CatalogTables} (h : Bounded clock t) :
    TablesSince clock t t where
  models := .refl h.models
  providers := .refl h.providers
  waterfalls := .refl h.waterfalls
  connections := .refl h.connections
  house := rfl
  controls := .refl h.controls
  policies := .refl h.policies
  kept := le_refl _

theorem le_advance (c : CatalogWrite) (clock : CatalogTable → Int) (table : CatalogTable) :
    clock table ≤ c.advance clock table := by
  cases table with
  | house => exact le_refl _
  | _ => exact le_latest _ _

/-! ### The condition -/

/-- A running refresh has read the table and has not read the watermark again. -/
def RefreshPhase.HasRead : RefreshPhase → CatalogTable → Prop
  | .idle, _ => False
  | .reading todo _, table => table ∉ todo
  | .built _ _, _ => True
  | .stored _ _ _, _ => True

/-- A write is stamped later than those before it, deletes no control, and comes between no
refresh's read of a table it writes and the refresh's re-read of the watermark. -/
def Undisturbed (w : World) : RefreshStep → Prop
  | .write c => c.InOrder w.clock ∧ ∀ p table, (w.workers p).phase.HasRead table → c.Spares table
  | _ => True

/-! ### The invariant -/

/-- The state was built from the tables. -/
def BuiltFrom (fleet : Fleet) (p : ℕ) (t : CatalogTables) (st : GatewayCatalogState) : Prop :=
  (∃ probe, buildGatewayCatalog (fleet.inputs p t probe) = .ok st.build) ∧
    st.providerControls = t.providerControls ∧ st.providerPolicies = t.providerPolicies

/-- What a running refresh has read is what the tables are. -/
def RefreshPhase.Reads (fleet : Fleet) (p : ℕ) (t : CatalogTables) : RefreshPhase → Prop
  | .idle => True
  | .reading todo loaded => ∀ table, table ∉ todo → SameTable loaded t table
  | .built build loaded => loaded = t ∧ ∃ probe, buildGatewayCatalog (fleet.inputs p loaded probe) = .ok build
  | .stored build loaded _ =>
      loaded = t ∧ ∃ probe, buildGatewayCatalog (fleet.inputs p loaded probe) = .ok build

/-- The state comes from an earlier version of the tables, whose watermark is recorded. -/
structure Recorded (fleet : Fleet) (p : ℕ) (x : GatewayWorker) (t : CatalogTables)
    (clock : CatalogTable → Int) (st : GatewayCatalogState) : Prop where
  built : BuiltFrom fleet p x.served st
  since : ∃ bound, (∀ table, bound table ≤ clock table) ∧ TablesSince bound x.served t
  watermark : ∃ aliases, x.watermark = some (readCatalogWatermark x.served aliases)

structure GatewayWorker.Tracks (fleet : Fleet) (p : ℕ) (t : CatalogTables) (clock : CatalogTable → Int)
    (x : GatewayWorker) : Prop where
  phase : x.phase.Reads fleet p t
  state : ∀ st, x.state = some st → Recorded fleet p x t clock st
  current : x.current = true → x.state ≠ none ∧ x.served = t

/-- The clock bounds the stamps, and what a worker serves was built from tables that it read. -/
structure World.Tracked (fleet : Fleet) (w : World) : Prop where
  bounded : Bounded w.clock w.tables
  workers : ∀ p, (w.workers p).Tracks fleet p w.tables w.clock

section tracking
variable {fleet : Fleet} {w : World}

theorem GatewayWorker.fresh_tracks (p : ℕ) (t : CatalogTables) (clock : CatalogTable → Int) :
    GatewayWorker.fresh.Tracks fleet p t clock :=
  ⟨trivial, (by intro st h; cases h), (by intro h; cases h)⟩

theorem World.initial_tracked (house : Option Uuid) (clock : CatalogTable → Int) :
    (World.initial house clock).Tracked fleet := by
  refine ⟨?_, fun p => GatewayWorker.fresh_tracks p _ _⟩
  constructor
  all_goals
    intro r hr
    cases hr

theorem World.Tracked.setWorker (h : w.Tracked fleet) (p : ℕ) {x : GatewayWorker}
    (hx : x.Tracks fleet p w.tables w.clock) : (w.setWorker p x).Tracked fleet := by
  refine ⟨h.bounded, ?_⟩
  intro q
  unfold World.setWorker
  simp only
  split_ifs with hq
  · rw [hq]
    exact hx
  · exact h.workers q

theorem World.Tracked.giveUp (h : w.Tracked fleet) (p : ℕ) : (w.giveUp p).Tracked fleet :=
  h.setWorker p ⟨trivial,
    fun st hst => ⟨((h.workers p).state st hst).built, ((h.workers p).state st hst).since,
      ((h.workers p).state st hst).watermark⟩,
    (h.workers p).current⟩

/-- The aliases and what is noted of stores do not matter. -/
theorem GatewayWorker.Tracks.congr {p : ℕ} {t : CatalogTables} {clock : CatalogTable → Int}
    {x y : GatewayWorker} (h : x.Tracks fleet p t clock) (hphase : y.phase.Reads fleet p t)
    (hstate : y.state = x.state) (hwatermark : y.watermark = x.watermark) (hserved : y.served = x.served)
    (hcurrent : y.current = true → x.current = true) : y.Tracks fleet p t clock := by
  refine ⟨hphase, ?_, ?_⟩
  · intro st hst
    rw [hstate] at hst
    have hr := h.state st hst
    refine ⟨?_, ?_, ?_⟩
    · rw [hserved]
      exact hr.built
    · rw [hserved]
      exact hr.since
    · rw [hserved, hwatermark]
      exact hr.watermark
  · intro hc
    rw [hstate, hserved]
    exact h.current (hcurrent hc)

theorem noteStore_tracks {p : ℕ} {t : CatalogTables} {clock : CatalogTable → Int} {x : GatewayWorker}
    (h : x.Tracks fleet p t clock) (changed : Bool) : (x.noteStore changed).Tracks fleet p t clock := by
  refine h.congr ?_ rfl rfl rfl fun hc => hc
  have hphase := h.phase
  unfold GatewayWorker.noteStore
  cases hp : x.phase with
  | idle => trivial
  | _ =>
      rw [hp] at hphase
      exact hphase

/-- A write in order, away from what running refreshes have read. -/
theorem writeStep_tracked (h : w.Tracked fleet) {c : CatalogWrite} (hC : Undisturbed w (.write c)) :
    (writeStep w c).Tracked fleet := by
  obtain ⟨horder, hspares⟩ := hC
  unfold writeStep
  split_ifs
  · refine ⟨h.bounded.apply c, ?_⟩
    intro p
    have hw := h.workers p
    have hspared := hspares p
    refine ⟨?_, ?_, by intro hc; cases hc⟩
    · have hphase := hw.phase
      show (w.workers p).phase.Reads fleet p (c.apply w.tables)
      cases hp : (w.workers p).phase with
      | idle => trivial
      | reading todo loaded =>
          rw [hp] at hphase hspared
          intro table htable
          exact sameTable_apply (hspared table htable) (hphase table htable)
      | _ =>
          rw [hp] at hphase hspared
          refine ⟨eq_of_sameTable fun table => ?_, hphase.2⟩
          rw [hphase.1]
          exact sameTable_apply (hspared table trivial) (by cases table <;> rfl)
    · intro st hst
      have hr := hw.state st hst
      obtain ⟨bound, hle, hsince⟩ := hr.since
      exact ⟨hr.built, ⟨bound, fun table => (hle table).trans (le_advance c w.clock table),
        hsince.apply horder hle⟩, hr.watermark⟩
  · exact h

theorem pollStep_tracked (h : w.Tracked fleet) (p : ℕ) : (pollStep w p).Tracked fleet := by
  unfold pollStep
  cases hphase : (w.workers p).phase with
  | idle =>
      have hw := h.workers p
      simp only
      split_ifs with hsame
      · refine h.setWorker p ⟨?_, ?_, ?_⟩
        · rw [hphase]
          trivial
        · exact fun st hst => ⟨(hw.state st hst).built, (hw.state st hst).since, (hw.state st hst).watermark⟩
        · -- the watermark is the one recorded for the served tables
          intro _
          obtain ⟨hsome, hwatermark⟩ := Bool.and_eq_true_iff.mp hsame
          obtain ⟨st, hst⟩ := Option.isSome_iff_exists.mp hsome
          obtain ⟨bound, -, hsince⟩ := (hw.state st hst).since
          obtain ⟨aliases, hrecorded⟩ := (hw.state st hst).watermark
          have hread : readCatalogWatermark w.tables w.aliases =
              readCatalogWatermark (w.workers p).served aliases := by
            rw [of_decide_eq_true hwatermark] at hrecorded
            exact Option.some.inj hrecorded
          refine ⟨?_, (hsince.eq hread).symm⟩
          show (w.workers p).state ≠ none
          rw [hst]
          simp
      · refine h.setWorker p (hw.congr ?_ rfl rfl rfl fun hc => hc)
        intro table htable
        exact absurd (by cases table <;> decide) htable
  | _ => exact h

theorem readStep_tracked (h : w.Tracked fleet) (p : ℕ) : (readStep w p).Tracked fleet := by
  unfold readStep
  cases hphase : (w.workers p).phase with
  | reading todo loaded =>
      cases todo with
      | nil => exact h
      | cons table todo =>
          have hw := h.workers p
          have hreads := hw.phase
          rw [hphase] at hreads
          refine h.setWorker p (hw.congr ?_ rfl rfl rfl fun hc => hc)
          intro other hother
          by_cases he : other = table
          · rw [he]
            exact sameTable_copy table
          · refine sameTable_copy_of_ne he (hreads other ?_)
            intro hmem
            rcases List.mem_cons.mp hmem with hmem | hmem
            · exact he hmem
            · exact hother hmem
  | _ => exact h

theorem buildStep_tracked (h : w.Tracked fleet) (p : ℕ) (probe : String → Bool) :
    (buildStep fleet w p probe).Tracked fleet := by
  unfold buildStep
  cases hphase : (w.workers p).phase with
  | reading todo loaded =>
      cases todo with
      | cons table todo => exact h
      | nil =>
          have hw := h.workers p
          have hreads := hw.phase
          rw [hphase] at hreads
          simp only
          cases hbuild : buildGatewayCatalog (fleet.inputs p loaded probe) with
          | error e => exact h.giveUp p
          | ok build =>
              refine h.setWorker p (hw.congr ?_ rfl rfl rfl fun hc => hc)
              exact ⟨eq_of_sameTable fun table => hreads table List.not_mem_nil, probe, hbuild⟩
  | _ => exact h

theorem storeStep_tracked (h : w.Tracked fleet) (p : ℕ) : (storeStep w p).Tracked fleet := by
  unfold storeStep
  cases hphase : (w.workers p).phase with
  | built build loaded =>
      have hreads := (h.workers p).phase
      rw [hphase] at hreads
      simp only
      cases hstore : storeGatewayCatalog w.aliases build with
      | error e => exact h.giveUp p
      | ok out =>
          have hnoted : ({ w with
              aliases := out.1
              workers := fun q => (w.workers q).noteStore out.2.changed } : World).Tracked fleet :=
            ⟨h.bounded, fun q => noteStore_tracks (h.workers q) _⟩
          exact hnoted.setWorker p ((hnoted.workers p).congr hreads rfl rfl rfl fun hc => hc)
  | _ => exact h

theorem swapStep_tracked (h : w.Tracked fleet) (p : ℕ) (release : String → Option String) :
    (swapStep fleet w p release).Tracked fleet := by
  unfold swapStep
  cases hphase : (w.workers p).phase with
  | stored build loaded overtaken =>
      have hreads := (h.workers p).phase
      rw [hphase] at hreads
      obtain ⟨hloaded, probe, hbuild⟩ := hreads
      simp only
      cases hstate : buildCatalogState build (fleet.environment p) release (w.workers p).state
          loaded.providerControls loaded.providerPolicies with
      | error e => exact h.giveUp p
      | ok state =>
          have hbuilt : BuiltFrom fleet p loaded state := by
            unfold buildCatalogState at hstate
            simp only [bind_eq_ok, pure_eq_ok] at hstate
            obtain ⟨credentials, -, rfl⟩ := hstate
            exact ⟨⟨probe, hbuild⟩, rfl, rfl⟩
          refine h.setWorker p ⟨trivial, ?_, ?_⟩
          · intro st hst
            cases hst
            refine ⟨hbuilt, ⟨w.clock, fun _ => le_refl _, ?_⟩, ⟨w.aliases, ?_⟩⟩
            · rw [hloaded]
              exact h.bounded.since
            · rw [hloaded]
          · intro _
            exact ⟨by simp, hloaded⟩
  | _ => exact h

theorem World.Tracked.setAliases (h : w.Tracked fleet) (t : AliasTables) :
    (w.setAliases t).Tracked fleet :=
  ⟨h.bounded, fun p => (h.workers p).congr (h.workers p).phase rfl rfl rfl fun hc => hc⟩

theorem refreshStep_tracked (s : RefreshStep) (hC : Undisturbed w s) (h : w.Tracked fleet) :
    (refreshStep fleet w s).Tracked fleet := by
  cases s with
  | write c => exact writeStep_tracked h hC
  | request r =>
      show (requestStep w r).Tracked fleet
      unfold requestStep
      split
      · exact ⟨h.bounded, h.workers⟩
      · exact h
  | call k =>
      show (callStep w k).Tracked fleet
      unfold callStep
      split
      · exact h
      · have hrest : ({ w with calls := w.calls.eraseIdx k } : World).Tracked fleet := ⟨h.bounded, h.workers⟩
        simp only
        split
        · exact hrest.setAliases _
        · exact hrest
  | poll p => exact pollStep_tracked h p
  | read p => exact readStep_tracked h p
  | build p probe => exact buildStep_tracked h p probe
  | store p => exact storeStep_tracked h p
  | swap p release => exact swapStep_tracked h p release
  | abandon p => exact h.giveUp p
  | restart p => exact h.setWorker p (GatewayWorker.fresh_tracks p _ _)
  | _ => exact h.setAliases _

end tracking

/-- **No lost update.** In every run whose writes disturb no refresh, a worker whose refresh began
and returned after the last write serves the current tables. -/
theorem no_lost_update {fleet : Fleet} (house : Option Uuid) (clock : CatalogTable → Int)
    {steps : List RefreshStep}
    (hsteps : StepsMeet (refreshStep fleet) Undisturbed (World.initial house clock) steps) (p : ℕ)
    (hcurrent : ((run (refreshStep fleet) (World.initial house clock) steps).workers p).current = true) :
    ∃ st, ((run (refreshStep fleet) (World.initial house clock) steps).workers p).state = some st ∧
      BuiltFrom fleet p (run (refreshStep fleet) (World.initial house clock) steps).tables st := by
  have hinitial : (World.initial house clock).Tracked fleet := World.initial_tracked house clock
  have htracked := run_invariant (fun _ s hC h => refreshStep_tracked s hC h) steps _ hinitial hsteps
  have hw := htracked.workers p
  obtain ⟨hne, hserved⟩ := hw.current hcurrent
  obtain ⟨st, hst⟩ := Option.ne_none_iff_exists'.mp hne
  refine ⟨st, hst, ?_⟩
  rw [← hserved]
  exact (hw.state st hst).built

/-! ### A lost policy -/

section lost

theorem later_map_insert {α : Type} {clock time : Int} (h : clock < time) (l : List α) :
    Later clock (l.map (TableWrite.insert · time)) := by
  intro x hx t ht
  obtain ⟨row, -, rfl⟩ := List.mem_map.mp hx
  cases ht
  exact h

/-- The mixed chain's rows, then a refresh: nothing is written while it runs. -/
theorem no_lost_update_sample : ∃ st, (plannedWorld.workers 0).state = some st ∧
    BuiltFrom sampleFleet 0 plannedWorld.tables st := by
  have hfirst : Undisturbed (World.initial none fun _ => 0) (.write mixedWrite) := by
    refine ⟨?_, fun p table h => h.elim⟩
    exact {
      models := later_map_insert Int.one_pos _
      providers := later_map_insert Int.one_pos _
      waterfalls := later_map_insert Int.one_pos _
      connections := later_map_insert Int.one_pos _
      controls := fun x hx => absurd hx List.not_mem_nil
      policies := fun x hx => absurd hx List.not_mem_nil
      keeps := fun x hx => absurd hx List.not_mem_nil }
  have hrest : ∀ s ∈ .addOrganization keyedOrg :: refreshSteps, ∀ w, Undisturbed w s := by
    intro s hs w
    simp only [refreshSteps, List.mem_cons, List.mem_append, List.mem_replicate, List.not_mem_nil,
      or_false] at hs
    rcases hs with rfl | (rfl | ⟨-, rfl⟩) | rfl | rfl | rfl <;> trivial
  have hcurrent : (plannedWorld.workers 0).current = true := by decide +kernel
  have hsteps : StepsMeet (refreshStep sampleFleet) Undisturbed (World.initial none fun _ => 0)
      plannedSteps := And.intro hfirst (stepsMeet_of_forall_states _ hrest)
  exact no_lost_update none (fun _ => 0) hsteps 0 hcurrent

/-- An organization allows a single provider. -/
def samplePolicy : OrgProviderPolicy where
  orgId := keyedOrg.text
  allowedProviders := some ["openai"]
  requireZdr := false
  requireNoTraining := false

/-- The policy is committed between a refresh's store and its re-read of the watermark. -/
def lostSteps : List RefreshStep :=
  .addOrganization keyedOrg :: .poll 0 :: List.replicate 7 (.read 0) ++ [.build 0 fun _ => true, .store 0,
    .write { policies := [.insert samplePolicy 1] }, .swap 0 fun _ => none, .poll 0]

def lostWorld : World := run (refreshStep sampleFleet) (World.initial none fun _ => 0) lostSteps

/-- A refresh has begun and returned after the policy, and the worker does not serve it. -/
theorem policy_lost : ∃ st, (lostWorld.workers 0).state = some st ∧
    (lostWorld.workers 0).current = true ∧
    lostWorld.tables.providerPolicies.lookup keyedOrg.text = some samplePolicy ∧
    st.providerPolicies.lookup keyedOrg.text = none := by
  have hcurrent : (lostWorld.workers 0).current = true := by decide +kernel
  have hpolicy : lostWorld.tables.providerPolicies.lookup keyedOrg.text = some samplePolicy := by
    decide +kernel
  have hstate : ((lostWorld.workers 0).state.any fun st =>
      (st.providerPolicies.lookup keyedOrg.text).isNone) = true := by decide +kernel
  obtain ⟨st, hst, hnone⟩ := Option.any_eq_true _ _ |>.mp hstate
  exact ⟨st, hst, hcurrent, hpolicy, Option.isNone_iff_eq_none.mp hnone⟩

end lost

end Experiential.Catalog
