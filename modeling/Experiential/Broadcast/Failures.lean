import Experiential.Broadcast.Consent

/-! # Failures

One tick over a queue whose organizations all consent, and every behaviour of its destinations.
`no_delivery_lost_iff`: when the tick has ended, every row that was undelivered is still in the
queue or was delivered to every destination its organization had enabled, and unless the budget
ran out every row of an organization none of whose deliveries failed was claimed, exactly when
every exception that came out of a release, a construction or a delivery was of a class that the
tick handles. Another exception ends the tick with the rows claimed, no longer in the queue
and not delivered (`delivery_lost`). -/

namespace Experiential.Broadcast

def tickStep (x : Tables × Tick) (i : CallResult) : Tables × Tick := x.2.advance i x.1

def tickStart (db : Tables) : Tables × Tick := (db, Tick.start)

/-- The tick releases a credential or posts. -/
def Tick.shipping (t : Tick) : Bool :=
  match t.phase with
  | .release _ => true
  | .post _ _ => true
  | _ => false

def Tick.ended (t : Tick) : Bool :=
  match t.phase with
  | .finished _ => true
  | .escaped _ => true
  | _ => false

/-- The calls of the queue and the reads of the connections return. -/
def StoreWorks (x : Tables × Tick) : CallResult → Prop
  | .returns _ => True
  | .raises _ _ => x.2.shipping ∨ x.2.ended

/-- What comes out of a release or a delivery is handled. -/
def FailuresHandled (x : Tables × Tick) : CallResult → Prop
  | .returns _ => True
  | .raises e _ => x.2.shipping → e.handled

instance (x : Tables × Tick) (i : CallResult) : Decidable (StoreWorks x i) := by
  unfold StoreWorks
  split <;> infer_instance

instance (x : Tables × Tick) (i : CallResult) : Decidable (FailuresHandled x i) := by
  unfold FailuresHandled
  split <;> infer_instance

/-- The id and the organization of each captured prompt. -/
def Tables.keys (db : Tables) : List (String × String) := db.captured.map fun p => (p.requestId, p.orgId)

/-- Nothing was lost. -/
structure NothingLost (db : Tables) (x : Tables × Tick) : Prop where
  /-- Each row is in the queue, or was delivered everywhere. -/
  delivered : ∀ e ∈ db.keys, ¬ db.Exported e.1 → ¬ x.1.Exported e.1 ∨
    ∀ d ∈ enabledDestinations db e.2, (d.kind, e.1) ∈ x.2.log.delivered
  /-- Each row of an organization without a failure was claimed, or the budget ran out. -/
  claimed : x.2.log.expired = false → ∀ e ∈ db.keys, ¬ db.Exported e.1 → e.2 ∉ x.2.log.failures →
    e.1 ∈ x.2.log.stamps.map (·.requestId)

/-! ### The queue -/

section queue
variable {db s : Tables}

/-- The table has changed in its stamps only. -/
structure Same (db s : Tables) : Prop where
  organizations : s.organizations = db.organizations
  requests : s.requests = db.requests
  connections : s.connections = db.connections
  keys : s.keys = db.keys

/-- The organizations of the queue consent, and its rows have their requests. -/
structure Tables.Ready (db : Tables) : Prop where
  unique : db.KeyUnique
  consents : ∀ e ∈ db.keys, db.consents e.2 = true
  requests : ∀ e ∈ db.keys, e.1 ∈ db.requests.map (·.requestId)

theorem ids_keys (db : Tables) : db.keys.map (·.1) = db.captured.map (·.requestId) := by
  unfold Tables.keys
  rw [List.map_map]
  rfl

theorem Same.ready (h : Same db s) (hready : db.Ready) : s.Ready := by
  refine ⟨?_, ?_, ?_⟩
  · have hunique := hready.unique
    unfold Tables.KeyUnique at hunique ⊢
    rw [← ids_keys] at hunique ⊢
    rw [h.keys]
    exact hunique
  · intro e he
    rw [h.keys] at he
    have hconsents := hready.consents e he
    unfold Tables.consents at hconsents ⊢
    rw [h.organizations]
    exact hconsents
  · intro e he
    rw [h.keys] at he
    rw [h.requests]
    exact hready.requests e he

theorem exported_iff (hunique : db.KeyUnique) {p : CapturedPrompt} (hp : p ∈ db.captured) :
    db.Exported p.requestId ↔ p.exportedAt.isSome := by
  constructor
  · rintro ⟨q, hq, hid, hsome⟩
    have heq : q = p := List.inj_on_of_nodup_map hunique hq hp hid
    rwa [heq] at hsome
  · intro hsome
    exact ⟨p, hp, rfl, hsome⟩

theorem mem_toExport (hready : db.Ready) {limit : Nat} {excludeOrgs : List String} {row : CaptureExportRow}
    (h : row ∈ gatewayCapturedPromptsToExport db (some limit) excludeOrgs) :
    (row.requestId, row.orgId) ∈ db.keys ∧ ¬ db.Exported row.requestId ∧ row.orgId ∉ excludeOrgs := by
  have hqueue : row ∈ db.queue excludeOrgs := by
    have hmem := List.mem_of_mem_take h
    rwa [List.mem_insertionSort] at hmem
  obtain ⟨p, hp, hrow⟩ := List.mem_filterMap.mp hqueue
  obtain ⟨r, -, rfl⟩ := Option.map_eq_some_iff.mp hrow
  obtain ⟨hmem, hqueued⟩ := List.mem_filter.mp hp
  unfold Tables.queued at hqueued
  simp only [Bool.and_eq_true, Option.isNone_iff_eq_none, Bool.not_eq_true', decide_eq_false_iff_not] at hqueued
  refine ⟨List.mem_map.mpr ⟨p, hmem, rfl⟩, ?_, hqueued.2⟩
  intro hexported
  have hsome := (exported_iff hready.unique hmem).mp hexported
  rw [hqueued.1.1] at hsome
  cases hsome

/-- **A batch that is not full is the whole queue.** -/
theorem toExport_complete (hready : db.Ready) {excludeOrgs : List String} {e : String × String} (he : e ∈ db.keys)
    (hunexported : ¬ db.Exported e.1) (horg : e.2 ∉ excludeOrgs)
    (hshort : (gatewayCapturedPromptsToExport db (some batchLimit) excludeOrgs).length < batchLimit) :
    ∃ row ∈ gatewayCapturedPromptsToExport db (some batchLimit) excludeOrgs, row.requestId = e.1 := by
  obtain ⟨p, hp, rfl⟩ := List.mem_map.mp he
  obtain ⟨r, hr, hid⟩ := List.mem_map.mp (hready.requests _ he)
  have hfound : (db.requests.find? fun r => decide (r.requestId = p.requestId)).isSome := by
    rw [List.find?_isSome]
    exact ⟨r, hr, decide_eq_true hid⟩
  obtain ⟨r', hr'⟩ := Option.isSome_iff_exists.mp hfound
  have hnone : p.exportedAt.isNone := by
    cases hstamp : p.exportedAt with
    | none => rfl
    | some at' => exact absurd ((exported_iff hready.unique hp).mpr (by rw [hstamp]; rfl)) hunexported
  have hqueued : p ∈ db.captured.filter (db.queued excludeOrgs) := by
    refine List.mem_filter.mpr ⟨hp, ?_⟩
    unfold Tables.queued
    simp [hnone, hready.consents _ he, horg]
  have hqueue : p.exportRow r' ∈ db.queue excludeOrgs :=
    List.mem_filterMap.mpr ⟨p, hqueued, by rw [hr']; rfl⟩
  have hlimit : exportLimit (some (batchLimit : ℕ)) = batchLimit := by decide
  unfold gatewayCapturedPromptsToExport at hshort ⊢
  rw [hlimit] at hshort ⊢
  rw [List.length_take, List.length_insertionSort] at hshort
  rw [List.take_of_length_le (by rw [List.length_insertionSort]; omega)]
  exact ⟨p.exportRow r', (List.mem_insertionSort _).mpr hqueue, rfl⟩

theorem mem_markExported (hready : db.Ready) {requestIds : List String} {now : Int} {id : String} :
    id ∈ (gatewayCapturedPromptsMarkExported db requestIds now).2 ↔
      id ∈ requestIds ∧ id ∈ db.keys.map (·.1) ∧ ¬ db.Exported id := by
  unfold gatewayCapturedPromptsMarkExported
  simp only
  constructor
  · intro h
    obtain ⟨p, hp, rfl⟩ := List.mem_map.mp h
    obtain ⟨hmem, hclaims⟩ := List.mem_filter.mp hp
    unfold Tables.claims at hclaims
    simp only [Bool.and_eq_true, decide_eq_true_eq, Option.isNone_iff_eq_none] at hclaims
    refine ⟨hclaims.1.1, ?_, ?_⟩
    · rw [ids_keys]
      exact List.mem_map.mpr ⟨p, hmem, rfl⟩
    · rw [exported_iff hready.unique hmem, hclaims.1.2]
      simp
  · rintro ⟨hin, hkey, hunexported⟩
    rw [ids_keys] at hkey
    obtain ⟨p, hp, rfl⟩ := List.mem_map.mp hkey
    refine List.mem_map.mpr ⟨p, List.mem_filter.mpr ⟨hp, ?_⟩, rfl⟩
    rw [exported_iff hready.unique hp] at hunexported
    have hconsents := hready.consents _ (List.mem_map.mpr ⟨p, hp, rfl⟩)
    unfold Tables.claims
    simp only [Bool.not_eq_true, Option.isSome_eq_false_iff] at hunexported
    simp [hin, hunexported, hconsents]

theorem exported_markExported (hready : db.Ready) {requestIds : List String} {now : Int} {id : String} :
    (gatewayCapturedPromptsMarkExported db requestIds now).1.Exported id ↔
      db.Exported id ∨ id ∈ (gatewayCapturedPromptsMarkExported db requestIds now).2 := by
  constructor
  · rintro ⟨q, hq, rfl, hsome⟩
    obtain ⟨p, hp, rfl⟩ := List.mem_map.mp hq
    split_ifs at hsome ⊢ with hclaims
    · exact .inr (List.mem_map.mpr ⟨p, List.mem_filter.mpr ⟨hp, hclaims⟩, rfl⟩)
    · exact .inl ⟨p, hp, rfl, hsome⟩
  · rintro (hold | hnew)
    · exact (mark_kept [] requestIds now db).exported id List.not_mem_nil hold
    · exact (mark_claims hready.unique hnew).2

theorem exported_unmarkExported {requestIds : List String} {id : String} :
    (gatewayCapturedPromptsUnmarkExported db requestIds).Exported id ↔ db.Exported id ∧ id ∉ requestIds := by
  constructor
  · rintro ⟨q, hq, rfl, hsome⟩
    obtain ⟨p, hp, rfl⟩ := List.mem_map.mp hq
    split_ifs at hsome ⊢ with hin
    · cases hsome
    · exact ⟨⟨p, hp, rfl, hsome⟩, hin⟩
  · rintro ⟨hold, hnot⟩
    exact (unmark_kept requestIds db).exported id hnot hold

theorem Same.mark (h : Same db s) (requestIds : List String) (now : Int) :
    Same db (gatewayCapturedPromptsMarkExported s requestIds now).1 := by
  refine ⟨h.organizations, h.requests, h.connections, ?_⟩
  rw [← h.keys]
  unfold gatewayCapturedPromptsMarkExported Tables.keys
  simp only [List.map_map]
  refine List.map_congr_left fun p _ => ?_
  simp only [Function.comp]
  split_ifs <;> rfl

theorem Same.unmark (h : Same db s) (requestIds : List String) :
    Same db (gatewayCapturedPromptsUnmarkExported s requestIds) := by
  refine ⟨h.organizations, h.requests, h.connections, ?_⟩
  rw [← h.keys]
  unfold gatewayCapturedPromptsUnmarkExported Tables.keys
  simp only [List.map_map]
  refine List.map_congr_left fun p _ => ?_
  simp only [Function.comp]
  split_ifs <;> rfl

theorem Same.findConnection (h : Same db s) (orgId : String) (kind : ConnectionKind) :
    findConnection s orgId kind = findConnection db orgId kind := by
  unfold Broadcast.findConnection
  rw [h.connections]

end queue

/-! ### Batches and destinations -/

theorem nodup_eraseDups {α : Type} [DecidableEq α] : ∀ l : List α, l.eraseDups.Nodup
  | [] => List.nodup_nil
  | a :: l => by
      rw [List.eraseDups_cons]
      refine List.nodup_cons.mpr ⟨?_, nodup_eraseDups _⟩
      intro h
      simpa using List.mem_eraseDups.mp h
termination_by l => l.length
decreasing_by
  simp only [List.length_cons]
  have := List.length_filter_le (fun b => !b == a) l
  omega

section batches
variable {rows : List CaptureExportRow}

theorem byOrg_group {e : String × List CaptureExportRow} (he : e ∈ byOrg rows) :
    e.2 ≠ [] ∧ ∀ row ∈ e.2, row ∈ rows ∧ row.orgId = e.1 := by
  obtain ⟨orgId, horg, rfl⟩ := List.mem_map.mp he
  obtain ⟨row, hrow, rfl⟩ := List.mem_map.mp (List.mem_eraseDups.mp horg)
  constructor
  · exact List.ne_nil_of_mem (List.mem_filter.mpr ⟨hrow, decide_eq_true rfl⟩)
  · intro row' hrow'
    obtain ⟨hin, hsame⟩ := List.mem_filter.mp hrow'
    exact ⟨hin, of_decide_eq_true hsame⟩

theorem mem_byOrg {row : CaptureExportRow} (hrow : row ∈ rows) : ∃ e ∈ byOrg rows, row ∈ e.2 := by
  refine ⟨(row.orgId, rows.filter fun r => decide (r.orgId = row.orgId)), ?_, ?_⟩
  · exact List.mem_map.mpr ⟨row.orgId, List.mem_eraseDups.mpr (List.mem_map_of_mem hrow), rfl⟩
  · exact List.mem_filter.mpr ⟨hrow, decide_eq_true rfl⟩

theorem byOrg_nodup (rows : List CaptureExportRow) : ((byOrg rows).map (·.1)).Nodup := by
  unfold byOrg
  rw [List.map_map]
  have hids : ((rows.map (·.orgId)).eraseDups.map
      ((·.1) ∘ fun orgId => (orgId, rows.filter fun row => decide (row.orgId = orgId)))) =
      (rows.map (·.orgId)).eraseDups := List.map_id _
  rw [hids]
  exact nodup_eraseDups _

/-- The destinations found over the kinds that are left. -/
def enabledOver (db : Tables) (orgId : String) (kinds : List ConnectionKind) (enabled : List EnabledDestination) :
    List EnabledDestination :=
  kinds.foldl (fun enabled kind => enabledWith kind (findConnection db orgId kind) enabled) enabled

theorem kinds_enabledWith (kind : ConnectionKind) (found : Option TraceConnection)
    (enabled : List EnabledDestination) :
    ((enabledWith kind found enabled).map (·.kind)).Sublist (enabled.map (·.kind) ++ [kind]) := by
  unfold enabledWith
  cases found with
  | none => exact List.sublist_append_left _ _
  | some c =>
      simp only
      split_ifs
      · rw [List.map_append]
        exact List.Sublist.refl _
      · exact List.sublist_append_left _ _

theorem kinds_enabledOver (db : Tables) (orgId : String) : ∀ (kinds : List ConnectionKind)
    (enabled : List EnabledDestination),
    ((enabledOver db orgId kinds enabled).map (·.kind)).Sublist (enabled.map (·.kind) ++ kinds)
  | [], enabled => by
      rw [List.append_nil]
      exact List.Sublist.refl _
  | kind :: kinds, enabled => by
      have hrest := kinds_enabledOver db orgId kinds (enabledWith kind (findConnection db orgId kind) enabled)
      have hone := (kinds_enabledWith kind (findConnection db orgId kind) enabled).append_right kinds
      rw [List.append_assoc] at hone
      exact hrest.trans hone

theorem enabledDestinations_nodup (db : Tables) (orgId : String) :
    ((enabledDestinations db orgId).map (·.kind)).Nodup :=
  List.Nodup.sublist (kinds_enabledOver db orgId destinationKinds []) (by decide)

end batches

/-! ### Accounts -/

section accounts
variable (db s : Tables)

/-- The row was delivered to every destination of its organization. -/
def TickLog.DeliveredAll (log : TickLog) (id : String) : Prop :=
  ∀ orgId, (id, orgId) ∈ db.keys → ∀ d ∈ enabledDestinations db orgId, (d.kind, id) ∈ log.delivered

/-- What has become of the rows that the tick has stamped; those it holds are listed. -/
structure Accounts (log : TickLog) (failedOrgs held : List String) : Prop where
  same : Same db s
  kept : ∀ id, db.Exported id → s.Exported id
  stamped : ∀ stamp ∈ log.stamps, ¬ db.Exported stamp.requestId ∧
    (stamp.requestId, stamp.orgId) ∈ db.keys ∧ (s.Exported stamp.requestId ∨ stamp.orgId ∈ failedOrgs)
  account : ∀ id, s.Exported id → db.Exported id ∨
    id ∈ log.stamps.map (·.requestId) ∧ (id ∈ held ∨ log.DeliveredAll db id)
  delivered : ∀ e ∈ log.delivered, e.2 ∈ log.stamps.map (·.requestId)
  failed : ∀ orgId ∈ failedOrgs, orgId ∈ log.failures

/-- The organizations of the batch that are still to be claimed. -/
structure Pending (failedOrgs : List String) (todo : List (String × List CaptureExportRow)) : Prop where
  rows : ∀ e ∈ todo, e.2 ≠ [] ∧ ∀ row ∈ e.2, row.orgId = e.1 ∧ (row.requestId, row.orgId) ∈ db.keys ∧
    ¬ s.Exported row.requestId
  orgs : ∀ e ∈ todo, e.1 ∉ failedOrgs
  apart : (todo.map (·.1)).Nodup

/-- Of a batch that is not full, what is left of the queue is left of the batch. -/
def Covered (failedOrgs : List String) (fetched : Nat) (todo : List (String × List CaptureExportRow)) : Prop :=
  fetched < batchLimit → ∀ e ∈ db.keys, ¬ s.Exported e.1 → e.2 ∉ failedOrgs →
    ∃ g ∈ todo, ∃ row ∈ g.2, row.requestId = e.1

/-- A claim is being delivered; the destinations listed are still to be served. -/
structure Shipping (t : Tick) (rest : List EnabledDestination) : Prop where
  some : t.claimedIds ≠ []
  left : rest ≠ []
  claimed : ∀ id ∈ t.claimedIds, (id, t.orgId) ∈ db.keys ∧ ¬ db.Exported id ∧ s.Exported id ∧
    id ∈ t.log.stamps.map (·.requestId) ∧ ∃ row ∈ t.orgRows, row.requestId = id
  served : ∀ d ∈ enabledDestinations db t.orgId, d ∈ rest ∨ ∀ id ∈ t.claimedIds, (d.kind, id) ∈ t.log.delivered
  unserved : ∀ d ∈ rest, d ∈ enabledDestinations db t.orgId ∧
    ∀ id ∈ t.claimedIds, (d.kind, id) ∉ t.log.delivered
  kinds : (rest.map (·.kind)).Nodup

/-- The rest of the batch, once the first organization is through. -/
structure Rest (t : Tick) : Prop where
  pending : Pending db s t.failedOrgs t.todo.tail
  covered : Covered db s t.failedOrgs t.fetched t.todo.tail
  org : ∀ e ∈ t.todo.tail, e.1 ≠ t.orgId
  fresh : t.orgId ∉ t.failedOrgs

def PhaseAccounts (t : Tick) : Prop :=
  match t.phase with
  | .fetch => True
  | .connections kinds enabled => t.todo ≠ [] ∧ Pending db s t.failedOrgs t.todo ∧
      Covered db s t.failedOrgs t.fetched t.todo ∧
      enabledOver db t.orgId kinds enabled = enabledDestinations db t.orgId
  | .claim enabled => t.todo ≠ [] ∧ Pending db s t.failedOrgs t.todo ∧
      Covered db s t.failedOrgs t.fetched t.todo ∧ enabled = enabledDestinations db t.orgId
  | .release rest => Rest db s t ∧ Shipping db s t rest
  | .post rest posts => Rest db s t ∧ Shipping db s t rest ∧ posts ≠ []
  | .unclaim => Rest db s t ∧ t.claimedIds ≠ [] ∧ t.orgId ∈ t.log.failures ∧
      ∀ id ∈ t.claimedIds, (id, t.orgId) ∈ db.keys ∧ ¬ db.Exported id ∧ id ∈ t.log.stamps.map (·.requestId)
  | .finished _ => t.log.expired = false → ∀ e ∈ db.keys, ¬ s.Exported e.1 → e.2 ∈ t.failedOrgs
  | .escaped _ => ∃ e ∈ db.keys, ¬ db.Exported e.1 ∧ s.Exported e.1 ∧
      ∃ d ∈ enabledDestinations db e.2, (d.kind, e.1) ∉ t.log.delivered

/-- The rows that the tick has claimed and neither delivered nor released. -/
def Tick.owed (t : Tick) : List String :=
  match t.phase with
  | .release _ => t.claimedIds
  | .post _ _ => t.claimedIds
  | .unclaim => t.claimedIds
  | .escaped _ => t.claimedIds
  | _ => []

/-- What every state of a tick satisfies. -/
structure TickAccounts (t : Tick) : Prop where
  accounts : Accounts db s t.log t.failedOrgs t.owed
  phase : PhaseAccounts db s t

end accounts

section parts
variable {db s : Tables} {t : Tick}

theorem next_accounts (haccounts : Accounts db s t.log t.failedOrgs [])
    (hpending : Pending db s t.failedOrgs t.todo.tail)
    (hcovered : Covered db s t.failedOrgs t.fetched t.todo.tail)
    (hmoved : t.progressed ≠ 0 ∨ t.newlyFailed = true) : TickAccounts db s t.next := by
  unfold Tick.next
  cases htail : t.todo.tail with
  | cons org rest =>
      rw [htail] at hpending hcovered
      exact ⟨haccounts, List.cons_ne_nil _ _, hpending, hcovered, rfl⟩
  | nil =>
      rw [htail] at hcovered
      simp only
      split_ifs with hend
      · refine ⟨haccounts, ?_⟩
        -- something has moved, so that the batch was not full
        have hshort : t.fetched < batchLimit := by
          rcases hend with hshort | ⟨hzero, hnone⟩
          · exact hshort
          · rcases hmoved with hmoved | hmoved
            · exact absurd hzero hmoved
            · rw [hnone] at hmoved
              cases hmoved
        intro _ e he hunexported
        by_contra horg
        obtain ⟨g, hg, -⟩ := hcovered hshort e he hunexported horg
        exact absurd hg List.not_mem_nil
      · exact ⟨haccounts, trivial⟩

theorem batched_accounts (hready : db.Ready) (haccounts : Accounts db s t.log t.failedOrgs []) :
    TickAccounts db s
      (t.batched (gatewayCapturedPromptsToExport s (some batchLimit) t.failedOrgs)) := by
  have hready' := haccounts.same.ready hready
  have hcovered : ∀ e ∈ db.keys, ¬ s.Exported e.1 → e.2 ∉ t.failedOrgs →
      (gatewayCapturedPromptsToExport s (some batchLimit) t.failedOrgs).length < batchLimit →
      ∃ g ∈ byOrg (gatewayCapturedPromptsToExport s (some batchLimit) t.failedOrgs), ∃ row ∈ g.2,
        row.requestId = e.1 := by
    intro e he hunexported horg hshort
    rw [← haccounts.same.keys] at he
    obtain ⟨row, hrow, hid⟩ := toExport_complete hready' he hunexported horg hshort
    obtain ⟨g, hg, hin⟩ := mem_byOrg hrow
    exact ⟨g, hg, row, hin, hid⟩
  have hpending : Pending db s t.failedOrgs
      (byOrg (gatewayCapturedPromptsToExport s (some batchLimit) t.failedOrgs)) := by
    refine ⟨?_, ?_, byOrg_nodup _⟩
    · intro e he
      obtain ⟨hsome, hrows⟩ := byOrg_group he
      refine ⟨hsome, ?_⟩
      intro row hrow
      obtain ⟨hin, horg⟩ := hrows row hrow
      obtain ⟨hkey, hunexported, -⟩ := mem_toExport hready' hin
      rw [haccounts.same.keys] at hkey
      exact ⟨horg, hkey, hunexported⟩
    · intro e he
      obtain ⟨hsome, hrows⟩ := byOrg_group he
      obtain ⟨row, hrow⟩ := List.exists_mem_of_ne_nil _ hsome
      obtain ⟨hin, horg⟩ := hrows row hrow
      rw [← horg]
      exact (mem_toExport hready' hin).2.2
  unfold Tick.batched
  cases horgs : byOrg (gatewayCapturedPromptsToExport s (some batchLimit) t.failedOrgs) with
  | nil =>
      refine ⟨haccounts, ?_⟩
      have hempty : gatewayCapturedPromptsToExport s (some batchLimit) t.failedOrgs = [] := by
        by_contra hne
        obtain ⟨row, hrow⟩ := List.exists_mem_of_ne_nil _ hne
        obtain ⟨g, hg, -⟩ := mem_byOrg hrow
        rw [horgs] at hg
        exact absurd hg List.not_mem_nil
      intro _ e he hunexported
      by_contra horg
      obtain ⟨g, hg, -⟩ := hcovered e he hunexported horg (by rw [hempty]; decide)
      rw [horgs] at hg
      exact absurd hg List.not_mem_nil
  | cons org rest =>
      rw [horgs] at hpending hcovered
      exact ⟨haccounts, List.cons_ne_nil _ _, hpending, fun hshort e he hunexported horg =>
        hcovered e he hunexported horg hshort, rfl⟩

theorem Accounts.logged {log log' : TickLog} {failedOrgs held : List String}
    (h : Accounts db s log failedOrgs held) (hstamps : log'.stamps = log.stamps)
    (hdelivered : log'.delivered = log.delivered) (hfailures : ∀ orgId ∈ log.failures, orgId ∈ log'.failures) :
    Accounts db s log' failedOrgs held := by
  refine ⟨h.same, h.kept, ?_, ?_, ?_, fun orgId horg => hfailures orgId (h.failed orgId horg)⟩
  · rw [hstamps]
    exact h.stamped
  · rw [hstamps]
    unfold TickLog.DeliveredAll
    rw [hdelivered]
    exact h.account
  · rw [hstamps, hdelivered]
    exact h.delivered

variable {enabled : List EnabledDestination}

theorem connected_accounts (haccounts : Accounts db s t.log t.failedOrgs []) {kind : ConnectionKind}
    {kinds : List ConnectionKind} (htodo : t.todo ≠ [])
    (hpending : Pending db s t.failedOrgs t.todo) (hcovered : Covered db s t.failedOrgs t.fetched t.todo)
    (henabled : enabledOver db t.orgId (kind :: kinds) enabled = enabledDestinations db t.orgId) :
    TickAccounts db s (t.connected kind kinds enabled (findConnection s t.orgId kind)) := by
  rw [haccounts.same.findConnection]
  unfold Tick.connected
  split_ifs with hlast
  · refine ⟨haccounts.logged rfl rfl fun orgId h => h, htodo, hpending, hcovered, ?_⟩
    rw [List.isEmpty_iff.mp hlast] at henabled
    exact henabled
  · exact ⟨haccounts.logged rfl rfl fun orgId h => h, htodo, hpending, hcovered, henabled⟩

theorem keys_unique (hready : db.Ready) {id orgId orgId' : String} (h : (id, orgId) ∈ db.keys)
    (h' : (id, orgId') ∈ db.keys) : orgId = orgId' := by
  have hnodup := hready.unique
  unfold Tables.KeyUnique at hnodup
  rw [← ids_keys] at hnodup
  have heq := List.inj_on_of_nodup_map hnodup h h' rfl
  exact congrArg Prod.snd heq

theorem ids_stamps (s : Tables) (requestIds : List String) (now : Int) :
    (((s.captured.filter (s.claims requestIds)).map fun p =>
      (⟨p.requestId, p.orgId, s.consents p.orgId⟩ : Stamp)).map (·.requestId)) =
      (gatewayCapturedPromptsMarkExported s requestIds now).2 := by
  rw [List.map_map]
  rfl

theorem Pending.head (h : Pending db s t.failedOrgs t.todo) (htodo : t.todo ≠ []) :
    t.orgRows ≠ [] ∧ (∀ row ∈ t.orgRows, (row.requestId, t.orgId) ∈ db.keys ∧ ¬ s.Exported row.requestId) ∧
      t.orgId ∉ t.failedOrgs ∧ ∀ e ∈ t.todo.tail, e.1 ≠ t.orgId := by
  unfold Tick.orgRows Tick.orgId
  cases hx : t.todo with
  | nil => exact absurd hx htodo
  | cons e rest =>
      rw [hx] at h
      obtain ⟨hsome, hrows⟩ := h.rows e List.mem_cons_self
      refine ⟨hsome, ?_, h.orgs e List.mem_cons_self, ?_⟩
      · intro row hrow
        obtain ⟨horg, hkey, hunexported⟩ := hrows row hrow
        rw [horg] at hkey
        exact ⟨hkey, hunexported⟩
      · intro e' he' hsame
        have hapart := h.apart
        rw [List.map_cons, List.nodup_cons] at hapart
        exact hapart.1 (List.mem_map.mpr ⟨e', he', hsame⟩)

theorem Pending.tail {failedOrgs : List String} {todo : List (String × List CaptureExportRow)}
    (h : Pending db s failedOrgs todo) : Pending db s failedOrgs todo.tail := by
  refine ⟨fun e he => h.rows e (List.mem_of_mem_tail he), fun e he => h.orgs e (List.mem_of_mem_tail he), ?_⟩
  rw [List.map_tail]
  exact h.apart.tail

/-- What a claim of the batch's first organization returns: all its rows. -/
theorem claim_all (hready : db.Ready) (hsame : Same db s) (hpending : Pending db s t.failedOrgs t.todo)
    (htodo : t.todo ≠ []) (now : Int) (id : String) :
    id ∈ (gatewayCapturedPromptsMarkExported s (t.orgRows.map (·.requestId)) now).2 ↔
      ∃ row ∈ t.orgRows, row.requestId = id := by
  obtain ⟨-, hrows, -, -⟩ := hpending.head htodo
  rw [mem_markExported (hsame.ready hready), hsame.keys, List.mem_map]
  constructor
  · exact fun h => h.1
  · rintro ⟨row, hrow, rfl⟩
    obtain ⟨hkey, hunexported⟩ := hrows row hrow
    exact ⟨⟨row, hrow, rfl⟩, List.mem_map.mpr ⟨_, hkey, rfl⟩, hunexported⟩

theorem claim_rest (hready : db.Ready) (hsame : Same db s) (hpending : Pending db s t.failedOrgs t.todo)
    (hcovered : Covered db s t.failedOrgs t.fetched t.todo) (htodo : t.todo ≠ []) (now : Int) :
    Rest db (gatewayCapturedPromptsMarkExported s (t.orgRows.map (·.requestId)) now).1 t := by
  have hready' := hsame.ready hready
  obtain ⟨-, hrows, hfresh, hothers⟩ := hpending.head htodo
  have hclaim := claim_all hready hsame hpending htodo now
  refine ⟨⟨?_, hpending.tail.orgs, hpending.tail.apart⟩, ?_, hothers, hfresh⟩
  · intro e he
    obtain ⟨hsome, hgroup⟩ := hpending.tail.rows e he
    refine ⟨hsome, ?_⟩
    intro row hrow
    obtain ⟨horg, hkey, hunexported⟩ := hgroup row hrow
    refine ⟨horg, hkey, ?_⟩
    rw [exported_markExported hready', hclaim]
    rintro (hold | ⟨row', hrow', hid⟩)
    · exact hunexported hold
    · -- it would be of the first organization
      have hkey' := (hrows row' hrow').1
      rw [hid] at hkey'
      exact hothers e he (horg.symm.trans (keys_unique hready hkey hkey'))
  · intro hshort e he hunexported horg
    rw [exported_markExported hready', hclaim] at hunexported
    obtain ⟨g, hg, row, hrow, hid⟩ := hcovered hshort e he (fun hold => hunexported (.inl hold)) horg
    unfold Tick.orgRows at hunexported
    cases hx : t.todo with
    | nil => exact absurd hx htodo
    | cons first rest =>
        rw [hx] at hg hunexported
        rcases List.mem_cons.mp hg with rfl | hg
        · exact absurd ⟨row, hrow, hid⟩ fun h => hunexported (.inr h)
        · exact ⟨g, hg, row, hrow, hid⟩

/-- The accounts after a claim: what it returned is owed. -/
theorem claim_accounts (hready : db.Ready) (haccounts : Accounts db s t.log t.failedOrgs [])
    (requestIds : List String) (now : Int) {log' : TickLog}
    (hstamps : log'.stamps = t.log.stamps ++ (s.captured.filter (s.claims requestIds)).map fun p =>
      ⟨p.requestId, p.orgId, s.consents p.orgId⟩)
    (hdelivered : log'.delivered = t.log.delivered) (hfailures : log'.failures = t.log.failures)
    {held : List String} (hheld : ∀ id ∈ (gatewayCapturedPromptsMarkExported s requestIds now).2,
      id ∈ held ∨ log'.DeliveredAll db id) :
    Accounts db (gatewayCapturedPromptsMarkExported s requestIds now).1 log' t.failedOrgs held := by
  have hready' := haccounts.same.ready hready
  have hids : log'.stamps.map (·.requestId) = t.log.stamps.map (·.requestId) ++
      (gatewayCapturedPromptsMarkExported s requestIds now).2 := by
    rw [hstamps, List.map_append, ids_stamps]
  have hexported : ∀ id, s.Exported id →
      (gatewayCapturedPromptsMarkExported s requestIds now).1.Exported id :=
    fun id hold => (exported_markExported hready').mpr (.inl hold)
  refine ⟨haccounts.same.mark _ _, fun id hold => hexported id (haccounts.kept id hold), ?_, ?_, ?_, ?_⟩
  · intro stamp hstamp
    rw [hstamps] at hstamp
    rcases List.mem_append.mp hstamp with hold | hnew
    · obtain ⟨hstart, hkey, hstate⟩ := haccounts.stamped stamp hold
      exact ⟨hstart, hkey, hstate.imp (hexported _) id⟩
    · obtain ⟨p, hp, rfl⟩ := List.mem_map.mp hnew
      have hmem := (List.mem_filter.mp hp).1
      have hin : p.requestId ∈ (gatewayCapturedPromptsMarkExported s requestIds now).2 :=
        List.mem_map.mpr ⟨p, hp, rfl⟩
      have hunexported := ((mem_markExported hready').mp hin).2.2
      refine ⟨fun hstart => hunexported (haccounts.kept _ hstart), ?_, ?_⟩
      · rw [← haccounts.same.keys]
        exact List.mem_map.mpr ⟨p, hmem, rfl⟩
      · exact .inl ((exported_markExported hready').mpr (.inr hin))
  · intro id hid
    rw [hids]
    rcases (exported_markExported hready').mp hid with hold | hnew
    · refine (haccounts.account id hold).imp (fun hstart => hstart) ?_
      rintro ⟨hstamp, hnone | hall⟩
      · exact absurd hnone List.not_mem_nil
      · refine ⟨List.mem_append_left _ hstamp, .inr ?_⟩
        unfold TickLog.DeliveredAll at hall ⊢
        rw [hdelivered]
        exact hall
    · exact .inr ⟨List.mem_append_right _ hnew, hheld id hnew⟩
  · intro e he
    rw [hdelivered] at he
    rw [hids]
    exact List.mem_append_left _ (haccounts.delivered e he)
  · intro orgId horg
    rw [hfailures]
    exact haccounts.failed orgId horg

theorem claimed_accounts (hready : db.Ready) (haccounts : Accounts db s t.log t.failedOrgs [])
    (hpending : Pending db s t.failedOrgs t.todo) (hcovered : Covered db s t.failedOrgs t.fetched t.todo)
    (htodo : t.todo ≠ []) (now : Int) :
    TickAccounts db (gatewayCapturedPromptsMarkExported s (t.orgRows.map (·.requestId)) now).1
      (t.claimed s (enabledDestinations db t.orgId)
        (gatewayCapturedPromptsMarkExported s (t.orgRows.map (·.requestId)) now).2) := by
  have hready' := haccounts.same.ready hready
  obtain ⟨hsome, hrows, hfresh, -⟩ := hpending.head htodo
  have hclaim := claim_all hready haccounts.same hpending htodo now
  have hrest := claim_rest hready haccounts.same hpending hcovered htodo now
  obtain ⟨row, hrow⟩ := List.exists_mem_of_ne_nil _ hsome
  have hne : (gatewayCapturedPromptsMarkExported s (t.orgRows.map (·.requestId)) now).2 ≠ [] :=
    List.ne_nil_of_mem ((hclaim row.requestId).mpr ⟨row, hrow, rfl⟩)
  have hkeys : ∀ id ∈ (gatewayCapturedPromptsMarkExported s (t.orgRows.map (·.requestId)) now).2,
      (id, t.orgId) ∈ db.keys ∧ ¬ s.Exported id := by
    intro id hid
    obtain ⟨row, hrow, rfl⟩ := (hclaim id).mp hid
    exact hrows row hrow
  unfold Tick.claimed
  simp only
  split_ifs with hnone hempty
  · -- nowhere to deliver
    refine next_accounts ?_ hrest.pending hrest.covered (.inl ?_)
    · refine claim_accounts hready haccounts (t.orgRows.map (·.requestId)) now ?_ ?_ ?_ ?_
      · rfl
      · rfl
      · rfl
      · intro id hid
        refine .inr ?_
        intro orgId hkey d hd
        rw [keys_unique hready hkey (hkeys id hid).1, List.isEmpty_iff.mp hnone] at hd
        exact absurd hd List.not_mem_nil
    · have hpos := List.length_pos_iff.mpr hne
      show t.progressed + _ ≠ 0
      omega
  · exact absurd (List.isEmpty_iff.mp hempty) hne
  · refine ⟨?_, ⟨hrest.pending, hrest.covered, hrest.org, hrest.fresh⟩, ⟨hne, ?_, ?_, ?_, ?_, ?_⟩⟩
    · refine claim_accounts hready haccounts (t.orgRows.map (·.requestId)) now ?_ ?_ ?_ ?_
      · rfl
      · rfl
      · rfl
      · exact fun id hid => .inl hid
    · intro hnil
      rw [hnil] at hnone
      exact hnone rfl
    · intro id hid
      obtain ⟨hkey, hunexported⟩ := hkeys id hid
      refine ⟨hkey, fun hstart => hunexported (haccounts.kept id hstart), ?_, ?_, (hclaim id).mp hid⟩
      · exact (exported_markExported hready').mpr (.inr hid)
      · simp only [List.map_append]
        rw [ids_stamps s _ now]
        exact List.mem_append_right _ hid
    · intro d hd
      exact .inl hd
    · -- what has been delivered was stamped before
      intro d hd
      refine ⟨hd, ?_⟩
      intro id hid hdelivered
      obtain ⟨hkey, hunexported⟩ := hkeys id hid
      obtain ⟨stamp, hstamp, hsame⟩ := List.mem_map.mp (haccounts.delivered _ hdelivered)
      simp only at hsame
      obtain ⟨-, hkey', hstate⟩ := haccounts.stamped stamp hstamp
      rw [hsame] at hkey' hstate
      rcases hstate with hexported | hfailed
      · exact hunexported hexported
      · rw [keys_unique hready hkey' hkey] at hfailed
        exact hfresh hfailed
    · exact enabledDestinations_nodup db t.orgId

/-- The batch of a delivery: the rows that were claimed. -/
theorem mem_shipRows_ids {id : String} (hclaimed : ∃ row ∈ t.orgRows, row.requestId = id)
    (hid : id ∈ t.claimedIds) : ∃ row ∈ t.shipRows, row.requestId = id := by
  obtain ⟨row, hrow, rfl⟩ := hclaimed
  exact ⟨row, List.mem_filter.mpr ⟨hrow, decide_eq_true hid⟩, rfl⟩

theorem delivered_accounts (hready : db.Ready) {d : EnabledDestination}
    (haccounts : Accounts db s t.log t.failedOrgs t.claimedIds) (hrest : Rest db s t)
    (hships : Shipping db s t (d :: enabled)) : TickAccounts db s (t.delivered d enabled) := by
  have hnow : ∀ id ∈ t.claimedIds, (d.kind, id) ∈ t.shipRows.map fun row => (d.kind, row.requestId) := by
    intro id hid
    obtain ⟨row, hrow, rfl⟩ := mem_shipRows_ids (hships.claimed id hid).2.2.2.2 hid
    exact List.mem_map.mpr ⟨row, hrow, rfl⟩
  have hnew : ∀ e ∈ t.shipRows.map (fun row => (d.kind, row.requestId)), e.1 = d.kind ∧ e.2 ∈ t.claimedIds := by
    intro e he
    obtain ⟨row, hrow, rfl⟩ := List.mem_map.mp he
    exact ⟨rfl, of_decide_eq_true (List.mem_filter.mp hrow).2⟩
  -- the accounts, whichever of the rows are still owed
  have hgrown : ∀ held : List String, (∀ id ∈ t.claimedIds, id ∈ held ∨ ∀ d' ∈ enabledDestinations db t.orgId,
      (d'.kind, id) ∈ t.log.delivered ++ t.shipRows.map fun row => (d.kind, row.requestId)) →
      Accounts db s { t.log with
        delivered := t.log.delivered ++ t.shipRows.map fun row => (d.kind, row.requestId) } t.failedOrgs held := by
    intro held hheld
    refine ⟨haccounts.same, haccounts.kept, haccounts.stamped, ?_, ?_, haccounts.failed⟩
    · intro id hid
      refine (haccounts.account id hid).imp (fun hstart => hstart) ?_
      rintro ⟨hstamp, hclaimed | hall⟩
      · refine ⟨hstamp, (hheld id hclaimed).imp (fun h => h) ?_⟩
        intro hall orgId hkey d' hd'
        rw [keys_unique hready hkey (hships.claimed id hclaimed).1] at hd'
        exact hall d' hd'
      · exact ⟨hstamp, .inr fun orgId hkey d' hd' => List.mem_append_left _ (hall orgId hkey d' hd')⟩
    · intro e he
      rcases List.mem_append.mp he with hold | hlast
      · exact haccounts.delivered e hold
      · exact (hships.claimed e.2 (hnew e hlast).2).2.2.2.1
  unfold Tick.delivered
  simp only
  split_ifs with hlast
  · rw [List.isEmpty_iff] at hlast
    subst hlast
    unfold Tick.shipped
    refine next_accounts ?_ hrest.pending hrest.covered (.inl ?_)
    · refine hgrown [] ?_
      intro id hid
      refine .inr ?_
      intro d' hd'
      rcases hships.served d' hd' with hleft | hserved
      · rw [List.mem_singleton.mp hleft]
        exact List.mem_append_right _ (hnow id hid)
      · exact List.mem_append_left _ (hserved id hid)
    · have hpos := List.length_pos_iff.mpr hships.some
      show t.progressed + t.claimedIds.length ≠ 0
      omega
  · refine ⟨hgrown _ fun id hid => .inl hid, ⟨hrest.pending, hrest.covered, hrest.org, hrest.fresh⟩,
      ⟨hships.some, ?_, hships.claimed, ?_, ?_, ?_⟩⟩
    · intro hnil
      rw [hnil] at hlast
      exact hlast rfl
    · intro d' hd'
      rcases hships.served d' hd' with hleft | hserved
      · rcases List.mem_cons.mp hleft with rfl | hleft
        · exact .inr fun id hid => List.mem_append_right _ (hnow id hid)
        · exact .inl hleft
      · exact .inr fun id hid => List.mem_append_left _ (hserved id hid)
    · intro d' hd'
      obtain ⟨henabled, hnot⟩ := hships.unserved d' (List.mem_cons_of_mem _ hd')
      refine ⟨henabled, ?_⟩
      intro id hid hin
      rcases List.mem_append.mp hin with hold | hlast'
      · exact hnot id hid hold
      · -- an organization has one destination of a kind
        have hkinds := hships.kinds
        rw [List.map_cons, List.nodup_cons] at hkinds
        exact hkinds.1 (List.mem_map.mpr ⟨d', hd', (hnew _ hlast').1⟩)
    · have hkinds := hships.kinds
      rw [List.map_cons, List.nodup_cons] at hkinds
      exact hkinds.2

/-- **An exception while the claim is delivered.** -/
theorem raised_accounts {rest : List EnabledDestination} (haccounts : Accounts db s t.log t.failedOrgs t.claimedIds)
    (hrest : Rest db s t) (hships : Shipping db s t rest) (e : Raised) : TickAccounts db s (t.raised e) := by
  have hlogged : Accounts db s { t.log with failures := t.orgId :: t.log.failures } t.failedOrgs t.claimedIds :=
    haccounts.logged rfl rfl fun orgId h => List.mem_cons_of_mem _ h
  unfold Tick.raised
  cases e.handled with
  | true =>
      refine ⟨hlogged, ⟨hrest.pending, hrest.covered, hrest.org, hrest.fresh⟩, hships.some, List.mem_cons_self, ?_⟩
      intro id hid
      obtain ⟨hkey, hstart, -, hstamp, -⟩ := hships.claimed id hid
      exact ⟨hkey, hstart, hstamp⟩
  | false =>
      refine ⟨hlogged, ?_⟩
      obtain ⟨id, hid⟩ := List.exists_mem_of_ne_nil _ hships.some
      obtain ⟨d, hd⟩ := List.exists_mem_of_ne_nil _ hships.left
      obtain ⟨hkey, hstart, hexported, -⟩ := hships.claimed id hid
      obtain ⟨henabled, hnot⟩ := hships.unserved d hd
      exact ⟨(id, t.orgId), hkey, hstart, hexported, d, henabled, hnot id hid⟩

theorem released_accounts (hready : db.Ready) {d : EnabledDestination}
    (haccounts : Accounts db s t.log t.failedOrgs t.claimedIds) (hrest : Rest db s t)
    (hships : Shipping db s t (d :: enabled)) (credential : String) :
    TickAccounts db s (t.released d enabled credential) := by
  unfold Tick.released
  cases deliveryPosts d.kind credential d.connection.config d.config t.shipRows (!d.config.privacyMode) with
  | error e => exact raised_accounts haccounts hrest hships e
  | ok posts =>
      cases posts with
      | nil => exact delivered_accounts hready haccounts hrest hships
      | cons p posts =>
          exact ⟨haccounts, ⟨hrest.pending, hrest.covered, hrest.org, hrest.fresh⟩,
            ⟨hships.some, hships.left, hships.claimed, hships.served, hships.unserved, hships.kinds⟩,
            List.cons_ne_nil _ _⟩

theorem answered_accounts (hready : db.Ready) {d : EnabledDestination}
    (haccounts : Accounts db s t.log t.failedOrgs t.claimedIds) (hrest : Rest db s t)
    (hships : Shipping db s t (d :: enabled)) (p : Post) (posts : List Post) (r : Returned) :
    TickAccounts db s (t.answered d enabled p posts r) := by
  have haccounts' : Accounts db s { t.log with sent := t.log.sent ++ [⟨d.connection, p⟩] } t.failedOrgs
      t.claimedIds := haccounts.logged rfl rfl fun orgId h => h
  have hrest' : Rest db s { t with log.sent := t.log.sent ++ [⟨d.connection, p⟩] } :=
    ⟨hrest.pending, hrest.covered, hrest.org, hrest.fresh⟩
  have hships' : Shipping db s { t with log.sent := t.log.sent ++ [⟨d.connection, p⟩] } (d :: enabled) :=
    ⟨hships.some, hships.left, hships.claimed, hships.served, hships.unserved, hships.kinds⟩
  unfold Tick.answered
  simp only
  split_ifs
  · exact raised_accounts haccounts' hrest' hships' _
  · split
    · exact raised_accounts haccounts' hrest' hships' _
    · split
      · exact delivered_accounts hready haccounts' hrest' hships'
      · rename_i hposts
        refine ⟨haccounts', ⟨hrest.pending, hrest.covered, hrest.org, hrest.fresh⟩,
          ⟨hships.some, hships.left, hships.claimed, hships.served, hships.unserved, hships.kinds⟩, ?_⟩
        exact fun hnil => hposts hnil

theorem unclaimed_accounts (hready : db.Ready) (haccounts : Accounts db s t.log t.failedOrgs t.claimedIds)
    (hrest : Rest db s t) (hfailed : t.orgId ∈ t.log.failures)
    (hclaimed : ∀ id ∈ t.claimedIds, (id, t.orgId) ∈ db.keys ∧ ¬ db.Exported id ∧
      id ∈ t.log.stamps.map (·.requestId)) :
    TickAccounts db (gatewayCapturedPromptsUnmarkExported s t.claimedIds) t.unclaimed := by
  have haccounts' : Accounts db (gatewayCapturedPromptsUnmarkExported s t.claimedIds) t.log
      (t.orgId :: t.failedOrgs) [] := by
    refine ⟨haccounts.same.unmark _, ?_, ?_, ?_, haccounts.delivered, ?_⟩
    · intro id hstart
      refine exported_unmarkExported.mpr ⟨haccounts.kept id hstart, ?_⟩
      exact fun hid => (hclaimed id hid).2.1 hstart
    · intro stamp hstamp
      obtain ⟨hstart, hkey, hstate⟩ := haccounts.stamped stamp hstamp
      refine ⟨hstart, hkey, ?_⟩
      rcases hstate with hexported | hin
      · by_cases hid : stamp.requestId ∈ t.claimedIds
        · rw [keys_unique hready hkey (hclaimed _ hid).1]
          exact .inr List.mem_cons_self
        · exact .inl (exported_unmarkExported.mpr ⟨hexported, hid⟩)
      · exact .inr (List.mem_cons_of_mem _ hin)
    · intro id hid
      obtain ⟨hexported, hnot⟩ := exported_unmarkExported.mp hid
      refine (haccounts.account id hexported).imp (fun hstart => hstart) ?_
      rintro ⟨hstamp, howed | hall⟩
      · exact absurd howed hnot
      · exact ⟨hstamp, .inr hall⟩
    · intro orgId horg
      rcases List.mem_cons.mp horg with rfl | horg
      · exact hfailed
      · exact haccounts.failed orgId horg
  unfold Tick.unclaimed
  refine next_accounts haccounts' ⟨?_, ?_, hrest.pending.apart⟩ ?_ (.inr rfl)
  · intro e he
    obtain ⟨hsome, hrows⟩ := hrest.pending.rows e he
    refine ⟨hsome, ?_⟩
    intro row hrow
    obtain ⟨horg, hkey, hunexported⟩ := hrows row hrow
    exact ⟨horg, hkey, fun hexported => hunexported (exported_unmarkExported.mp hexported).1⟩
  · intro e he hin
    rcases List.mem_cons.mp hin with hsame | hin
    · exact hrest.org e he hsame
    · exact hrest.pending.orgs e he hin
  · intro hshort e he hunexported horg
    refine hrest.covered hshort e he ?_ fun hin => horg (List.mem_cons_of_mem _ hin)
    intro hexported
    have hid : e.1 ∈ t.claimedIds := by
      by_contra hnot
      exact hunexported (exported_unmarkExported.mpr ⟨hexported, hnot⟩)
    -- a row that was released is of the organization that failed
    have hsame := keys_unique hready he (hclaimed _ hid).1
    rw [hsame] at horg
    exact horg List.mem_cons_self

/-! ### Steps -/

theorem succeed_accounts (hready : db.Ready) (h : TickAccounts db s t) (r : Returned) :
    TickAccounts db (t.succeed r s).1 (t.succeed r s).2 := by
  have haccounts := h.accounts
  have hphase := h.phase
  unfold Tick.owed at haccounts
  unfold PhaseAccounts at hphase
  unfold Tick.succeed
  cases hx : t.phase with
  | fetch =>
      rw [hx] at haccounts
      simp only
      split_ifs
      · refine ⟨haccounts.logged rfl rfl fun orgId h => h, ?_⟩
        intro hexpired
        cases hexpired
      · exact batched_accounts hready haccounts
  | connections kinds enabled =>
      rw [hx] at haccounts hphase
      obtain ⟨htodo, hpending, hcovered, henabled⟩ := hphase
      cases kinds with
      | nil => exact ⟨haccounts, htodo, hpending, hcovered, henabled⟩
      | cons kind kinds => exact connected_accounts haccounts htodo hpending hcovered henabled
  | claim enabled =>
      rw [hx] at haccounts hphase
      obtain ⟨htodo, hpending, hcovered, rfl⟩ := hphase
      exact claimed_accounts hready haccounts hpending hcovered htodo r.now
  | release rest =>
      rw [hx] at haccounts hphase
      obtain ⟨hrest, hships⟩ := hphase
      cases rest with
      | nil => exact absurd rfl hships.left
      | cons d enabled => exact released_accounts hready haccounts hrest hships r.credential
  | post rest posts =>
      rw [hx] at haccounts hphase
      obtain ⟨hrest, hships, hposts⟩ := hphase
      cases rest with
      | nil => exact absurd rfl hships.left
      | cons d enabled =>
          cases posts with
          | nil => exact absurd rfl hposts
          | cons p posts => exact answered_accounts hready haccounts hrest hships p posts r
  | unclaim =>
      rw [hx] at haccounts hphase
      obtain ⟨hrest, -, hfailed, hclaimed⟩ := hphase
      exact unclaimed_accounts hready haccounts hrest hfailed hclaimed
  | finished summary | escaped e => exact h

theorem fail_accounts (h : TickAccounts db s t) {e : Raised} {applied : Bool}
    (hstore : StoreWorks (s, t) (.raises e applied)) :
    TickAccounts db (t.fail e applied s).1 (t.fail e applied s).2 := by
  have haccounts := h.accounts
  have hphase := h.phase
  unfold Tick.owed at haccounts
  unfold PhaseAccounts at hphase
  unfold StoreWorks Tick.shipping Tick.ended at hstore
  unfold Tick.fail
  cases hx : t.phase with
  | release rest =>
      rw [hx] at haccounts hphase
      exact raised_accounts haccounts hphase.1 hphase.2 e
  | post rest posts =>
      rw [hx] at haccounts hphase
      obtain ⟨hrest, hships, hposts⟩ := hphase
      cases rest with
      | nil => exact absurd rfl hships.left
      | cons d enabled =>
          cases posts with
          | nil => exact absurd rfl hposts
          | cons p posts =>
              -- the failed post is in the log, which is no part of what is being shipped
              have hships' : Shipping db s { t with log.sent := t.log.sent ++ [⟨d.connection, p⟩] }
                  (d :: enabled) :=
                ⟨hships.some, hships.left, hships.claimed, hships.served, hships.unserved, hships.kinds⟩
              simp only
              rw [← hx]
              refine raised_accounts ?_ ?_ hships' e
              · exact haccounts.logged rfl rfl fun orgId h => h
              · exact ⟨hrest.pending, hrest.covered, hrest.org, hrest.fresh⟩
  | finished summary | escaped e' => exact h
  | _ => simp [hx] at hstore

theorem tickStep_accounts (hready : db.Ready) {x : Tables × Tick} {i : CallResult} (hstore : StoreWorks x i)
    (h : TickAccounts db x.1 x.2) : TickAccounts db (tickStep x i).1 (tickStep x i).2 := by
  cases i with
  | returns r => exact succeed_accounts hready h r
  | raises e applied => exact fail_accounts h hstore

end parts

/-! ### Escapes -/

def Tick.hasEscaped (t : Tick) : Bool :=
  match t.phase with
  | .escaped _ => true
  | _ => false

section escapes
variable {db s : Tables} {t : Tick}

theorem next_stays : t.next.hasEscaped = false := by
  unfold Tick.next
  cases t.todo.tail with
  | cons org rest => rfl
  | nil =>
      simp only
      split_ifs <;> rfl

theorem raised_stays {e : Raised} (he : e.handled = true) : (t.raised e).hasEscaped = false := by
  unfold Tick.raised Tick.hasEscaped
  rw [he]
  rfl

theorem delivered_stays (d : EnabledDestination) (enabled : List EnabledDestination) :
    (t.delivered d enabled).hasEscaped = false := by
  unfold Tick.delivered
  simp only
  split_ifs
  · unfold Tick.shipped
    exact next_stays
  · rfl

theorem deliveryPosts_error {kind : ConnectionKind} {credential : String} {connectionConfig : ConnectionConfig}
    {config : BroadcastConfig} {rows : List CaptureExportRow} {includeContent : Bool} {e : Raised}
    (h : deliveryPosts kind credential connectionConfig config rows includeContent = .error e) :
    e.handled = true := by
  have hhost : ∀ e, host connectionConfig kind = .error e → e.handled = true := by
    intro e he
    unfold host at he
    split at he
    · cases he
    · cases he
      rfl
  unfold deliveryPosts at h
  cases hbase : host connectionConfig kind with
  | error e' =>
      have hhandled := hhost e' hbase
      cases kind <;> simp only [hbase] at h
      case langfuse =>
        split_ifs at h
        · cases h
          rfl
        · cases h
          exact hhandled
      case posthog =>
        split_ifs at h
        · cases h
          rfl
        · cases h
          exact hhandled
      case mastra => cases h; rfl
      case postgres => cases h; rfl
      all_goals
        cases h
        exact hhandled
  | ok base =>
      cases kind <;> simp only [hbase] at h
      case langfuse =>
        split_ifs at h
        · cases h
          rfl
        · cases h
      case posthog =>
        split_ifs at h
        · cases h
          rfl
        · cases h
      case mastra => cases h; rfl
      case postgres => cases h; rfl
      all_goals cases h

theorem succeed_stays (ht : t.hasEscaped = false) (r : Returned) : (t.succeed r s).2.hasEscaped = false := by
  unfold Tick.succeed
  cases hx : t.phase with
  | fetch =>
      simp only
      split_ifs
      · rfl
      · unfold Tick.batched
        split <;> rfl
  | connections kinds enabled =>
      cases kinds with
      | nil => rfl
      | cons kind kinds =>
          simp only
          unfold Tick.connected Tick.hasEscaped
          split_ifs <;> rfl
  | claim enabled =>
      simp only
      unfold Tick.claimed
      simp only
      split_ifs
      · exact next_stays
      · exact next_stays
      · rfl
  | release rest =>
      cases rest with
      | nil =>
          simp only
          unfold Tick.shipped
          exact next_stays
      | cons d enabled =>
          simp only
          unfold Tick.released
          cases hposts : deliveryPosts d.kind r.credential d.connection.config d.config t.shipRows
              (!d.config.privacyMode) with
          | error e => exact raised_stays (deliveryPosts_error hposts)
          | ok posts =>
              cases posts with
              | nil => exact delivered_stays d enabled
              | cons p posts => rfl
  | post rest posts =>
      cases rest with
      | nil => exact ht
      | cons d enabled =>
          cases posts with
          | nil => exact ht
          | cons p posts =>
              simp only
              unfold Tick.answered
              simp only
              split_ifs
              · exact raised_stays rfl
              · split
                · exact raised_stays rfl
                · split
                  · exact delivered_stays d enabled
                  · rfl
  | unclaim =>
      simp only
      unfold Tick.unclaimed
      exact next_stays
  | finished summary | escaped e => exact ht

/-- **A tick's step escapes exactly by an exception that is not handled.** -/
theorem tickStep_escapes {x : Tables × Tick} {i : CallResult} (h : TickAccounts db x.1 x.2)
    (hstore : StoreWorks x i) :
    (tickStep x i).2.hasEscaped = true ↔ x.2.hasEscaped = true ∨ ¬ FailuresHandled x i := by
  cases i with
  | returns r =>
      unfold FailuresHandled
      simp only [not_true_eq_false, or_false]
      cases hx : x.2.hasEscaped with
      | true =>
          -- a tick that has ended stays as it is
          unfold Tick.hasEscaped at hx
          unfold tickStep Tick.advance Tick.succeed Tick.hasEscaped
          split at hx
          · rename_i hphase
            simp [hphase]
          · cases hx
      | false =>
          have hstays := succeed_stays (s := x.1) hx r
          constructor
          · intro hescaped
            have hstep : (tickStep x (.returns r)).2.hasEscaped = false := hstays
            rw [hstep] at hescaped
            cases hescaped
          · nofun
  | raises e applied =>
      have hphase := h.phase
      unfold PhaseAccounts at hphase
      unfold StoreWorks Tick.ended at hstore
      unfold FailuresHandled
      unfold tickStep Tick.advance Tick.fail
      cases hx : x.2.phase with
      | release rest =>
          simp only [Tick.raised, Tick.hasEscaped, Tick.shipping, hx]
          cases e.handled <;> simp
      | post rest posts =>
          rw [hx] at hphase
          obtain ⟨-, hships, hposts⟩ := hphase
          cases rest with
          | nil => exact absurd rfl hships.left
          | cons d enabled =>
              cases posts with
              | nil => exact absurd rfl hposts
              | cons p posts =>
                  simp only [Tick.raised, Tick.hasEscaped, Tick.shipping, hx]
                  cases e.handled <;> simp
      | finished summary => simp [Tick.hasEscaped, Tick.shipping, hx]
      | escaped e' => simp [Tick.hasEscaped, hx]
      | _ => simp [Tick.shipping, hx] at hstore

end escapes

/-! ### Ticks -/

section ticks
variable {db : Tables}

theorem tickStart_accounts (db : Tables) : TickAccounts db (tickStart db).1 (tickStart db).2 := by
  refine ⟨⟨⟨rfl, rfl, rfl, rfl⟩, fun _ h => h, ?_, fun id h => .inl h, ?_, ?_⟩, trivial⟩
  · exact fun stamp hstamp => absurd hstamp List.not_mem_nil
  · exact fun e he => absurd he List.not_mem_nil
  · exact fun orgId horg => absurd horg List.not_mem_nil

/-- A run of a tick: the accounts, and when it escapes. -/
theorem run_accounts (hready : db.Ready) : ∀ (is : List CallResult) (x : Tables × Tick),
    TickAccounts db x.1 x.2 → StepsMeet tickStep StoreWorks x is →
      TickAccounts db (run tickStep x is).1 (run tickStep x is).2 ∧
        ((run tickStep x is).2.hasEscaped = true ↔
          x.2.hasEscaped = true ∨ ¬ StepsMeet tickStep FailuresHandled x is)
  | [], x, h, _ => ⟨h, by simp [StepsMeet]⟩
  | i :: is, x, h, hstore => by
      obtain ⟨haccounts, hescapes⟩ :=
        run_accounts hready is (tickStep x i) (tickStep_accounts hready hstore.1 h) hstore.2
      refine ⟨haccounts, ?_⟩
      rw [run_cons, hescapes, tickStep_escapes h hstore.1, StepsMeet]
      tauto

/-- A tick that has ended lost nothing, unless an exception escaped. -/
theorem nothingLost_iff {x : Tables × Tick} (h : TickAccounts db x.1 x.2) (hended : x.2.ended = true) :
    NothingLost db x ↔ x.2.hasEscaped = false := by
  have haccounts := h.accounts
  have hphase := h.phase
  unfold Tick.owed at haccounts
  unfold PhaseAccounts at hphase
  unfold Tick.ended at hended
  unfold Tick.hasEscaped
  cases hx : x.2.phase with
  | finished summary =>
      rw [hx] at haccounts hphase
      simp only [iff_true]
      constructor
      · intro e he hstart
        by_cases hexported : x.1.Exported e.1
        · rcases haccounts.account e.1 hexported with hold | ⟨-, hnone | hall⟩
          · exact absurd hold hstart
          · exact absurd hnone List.not_mem_nil
          · exact .inr (hall e.2 he)
        · exact .inl hexported
      · intro hexpired e he hstart horg
        by_cases hexported : x.1.Exported e.1
        · rcases haccounts.account e.1 hexported with hold | ⟨hstamp, -⟩
          · exact absurd hold hstart
          · exact hstamp
        · exact absurd (haccounts.failed _ (hphase hexpired e he hexported)) horg
  | escaped e =>
      rw [hx] at hphase
      simp only [Bool.true_eq_false, iff_false]
      intro hnothing
      obtain ⟨e, he, hstart, hexported, d, hd, hnot⟩ := hphase
      rcases hnothing.delivered e he hstart with hunexported | hall
      · exact hunexported hexported
      · exact hnot (hall d hd)
  | _ => simp [hx] at hended

/-- **A tick loses no delivery exactly when every failure is of a class it handles.** -/
theorem no_delivery_lost_iff (hready : db.Ready) {is : List CallResult}
    (hstore : StepsMeet tickStep StoreWorks (tickStart db) is)
    (hended : (run tickStep (tickStart db) is).2.ended = true) :
    NothingLost db (run tickStep (tickStart db) is) ↔
      StepsMeet tickStep FailuresHandled (tickStart db) is := by
  obtain ⟨haccounts, hescapes⟩ := run_accounts hready is _ (tickStart_accounts db) hstore
  rw [nothingLost_iff haccounts hended, Bool.eq_false_iff, ne_eq, hescapes]
  have hstart : (tickStart db).2.hasEscaped = false := rfl
  rw [hstart]
  simp

end ticks

/-! ### A delivery lost -/

section lost

/-- Two organizations, each with a captured prompt and a destination. -/
def twoOrganizations : Tables where
  organizations := [⟨"first", true⟩, ⟨"second", true⟩]
  requests := [⟨"one", "first", "model"⟩, ⟨"two", "second", "model"⟩]
  captured := [⟨"one", "first", none, ["hello"], 0, none⟩, ⟨"two", "second", none, ["hello"], 1, none⟩]
  connections := [⟨"a", "first", .braintrust, broadcasting⟩, ⟨"b", "second", .langsmith, broadcasting⟩]

/-- The queue, the five kinds, the claim, and the release of the first credential. -/
def releaseFails (e : Raised) : List CallResult := List.replicate 7 returns ++ [.raises e false]

/-- After the failure: the release of the claim, and the second organization. -/
def handledSteps : List CallResult := releaseFails .runtimeError ++ List.replicate 9 returns

theorem twoOrganizations_ready : twoOrganizations.Ready := ⟨by decide, by decide, by decide⟩

theorem no_delivery_lost_iff_sample :
    (run tickStep (tickStart twoOrganizations) handledSteps).2.phase = .finished ⟨1, 0, 1⟩ ∧
      NothingLost twoOrganizations (run tickStep (tickStart twoOrganizations) handledSteps) := by
  have hstore : StepsMeet tickStep StoreWorks (tickStart twoOrganizations) handledSteps := by
    decide +kernel
  have hhandled : StepsMeet tickStep FailuresHandled (tickStart twoOrganizations) handledSteps := by
    decide +kernel
  refine ⟨by decide +kernel, ?_⟩
  exact (no_delivery_lost_iff twoOrganizations_ready hstore (by decide +kernel)).mpr hhandled

/-- The credential's release raises an exception of the database client: the first organization's
row is out of the queue and was delivered nowhere, and the second one's was not claimed. -/
theorem delivery_lost :
    StepsMeet tickStep StoreWorks (tickStart twoOrganizations) (releaseFails (.other "APIError")) ∧
      (run tickStep (tickStart twoOrganizations) (releaseFails (.other "APIError"))).2.phase =
        .escaped (.other "APIError") ∧
      (run tickStep (tickStart twoOrganizations) (releaseFails (.other "APIError"))).2.log.stamps.map
        (·.requestId) = ["one"] ∧
      ¬ NothingLost twoOrganizations
        (run tickStep (tickStart twoOrganizations) (releaseFails (.other "APIError"))) := by
  refine ⟨by decide +kernel, by decide +kernel, by decide +kernel, ?_⟩
  intro hnothing
  have hunexported : ¬ twoOrganizations.Exported "two" := by
    rintro ⟨p, hp, hid, hsome⟩
    simp only [twoOrganizations, List.mem_cons, List.not_mem_nil, or_false] at hp
    rcases hp with rfl | rfl <;> cases hsome
  have hclaimed := hnothing.claimed (by decide +kernel) ("two", "second") (by decide) hunexported
    (by decide +kernel)
  revert hclaimed
  decide +kernel

end lost

end Experiential.Broadcast
