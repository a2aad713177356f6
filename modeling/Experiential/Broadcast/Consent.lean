import Experiential.Lib.Pool
import Experiential.Broadcast.Tick

/-! # Consent and isolation

Any number of ticks over one queue, while prompts are captured, organizations consent or not, and
destinations are connected, switched and disconnected. `broadcast_respects_consent`: a post that
holds a row's prompt went to a connection of the row's own organization that the tick had read,
enabled and without privacy mode, after the tick's own claim had stamped the row while the
organization consented; and two ticks never hold the same row. A claim returns rows that were
undelivered, a tick releases no row but its own, and between the two its rows stay stamped, so
that no other claim can return them. -/

namespace Experiential.Broadcast

/-- What goes on beside the ticks. -/
inductive QueueChange where
  | request (r : GatewayRequest)
  | capture (requestId orgId : String) (promptSha256 : Option String) (messages : List String) (now : Int)
  | consent (orgId : String) (on : Bool)
  | connections (rows : List TraceConnection)
deriving DecidableEq

def QueueChange.apply (change : QueueChange) (db : Tables) : Tables :=
  match change with
  | .request r =>
      if r.requestId ∈ db.requests.map (·.requestId) then db else { db with requests := db.requests ++ [r] }
  | .capture requestId orgId promptSha256 messages now =>
      gatewayCapturePrompt db requestId orgId promptSha256 messages now
  | .consent orgId on =>
      { db with
        organizations := db.organizations.map fun o =>
          if o.id = orgId then { o with capturePromptContent := on } else o }
  | .connections rows => { db with connections := rows }

abbrev BroadcastStep := PoolStep Unit CallResult QueueChange

def broadcastStep : Pool Tables Tick → BroadcastStep → Pool Tables Tick :=
  poolStep (fun _ => Tick.start) Tick.advance QueueChange.apply

def broadcastStart (db : Tables) : Pool Tables Tick := ⟨db, []⟩

/-! ### Rows -/

/-- The row of the queue is a captured prompt. -/
def Tables.HasRow (db : Tables) (row : CaptureExportRow) : Prop :=
  ∃ p ∈ db.captured, p.requestId = row.requestId ∧ p.orgId = row.orgId ∧ p.messages = row.messages

def Tables.Exported (db : Tables) (requestId : String) : Prop :=
  ∃ p ∈ db.captured, p.requestId = requestId ∧ p.exportedAt.isSome

/-- The primary key of the captured prompts. -/
def Tables.KeyUnique (db : Tables) : Prop := (db.captured.map (·.requestId)).Nodup

instance (db : Tables) : Decidable db.KeyUnique := by
  unfold Tables.KeyUnique
  infer_instance

/-- Captured prompts stay, whose they are and what they hold; those exported and not among the ids
stay exported. -/
structure Kept (released : List String) (db db' : Tables) : Prop where
  rows : ∀ row, db.HasRow row → db'.HasRow row
  unique : db.KeyUnique → db'.KeyUnique
  exported : ∀ id, id ∉ released → db.Exported id → db'.Exported id

section kept
variable {db db' : Tables} {released : List String}

theorem Kept.refl (released : List String) (db : Tables) : Kept released db db :=
  ⟨fun _ h => h, fun h => h, fun _ _ h => h⟩

theorem Kept.of_captured (h : db'.captured = db.captured) : Kept released db db' := by
  refine ⟨?_, ?_, ?_⟩
  · intro row hrow
    unfold Tables.HasRow at hrow ⊢
    rw [h]
    exact hrow
  · intro hunique
    unfold Tables.KeyUnique at hunique ⊢
    rw [h]
    exact hunique
  · intro id _ hexported
    unfold Tables.Exported at hexported ⊢
    rw [h]
    exact hexported

theorem Kept.of_map {f : CapturedPrompt → CapturedPrompt}
    (hf : ∀ p, (f p).requestId = p.requestId ∧ (f p).orgId = p.orgId ∧ (f p).messages = p.messages)
    (hexported : ∀ p, p.requestId ∉ released → p.exportedAt.isSome → (f p).exportedAt.isSome) :
    Kept released db { db with captured := db.captured.map f } := by
  refine ⟨?_, ?_, ?_⟩
  · rintro row ⟨p, hp, hid, horg, hmessages⟩
    obtain ⟨hfid, hforg, hfmessages⟩ := hf p
    exact ⟨f p, List.mem_map_of_mem hp, hfid.trans hid, hforg.trans horg, hfmessages.trans hmessages⟩
  · intro hunique
    have hids : (db.captured.map f).map (·.requestId) = db.captured.map (·.requestId) := by
      rw [List.map_map]
      exact List.map_congr_left fun p _ => (hf p).1
    unfold Tables.KeyUnique
    simp only [hids]
    exact hunique
  · rintro id hnot ⟨p, hp, rfl, hsome⟩
    exact ⟨f p, List.mem_map_of_mem hp, (hf p).1, hexported p hnot hsome⟩

theorem mark_kept (released requestIds : List String) (now : Int) (db : Tables) :
    Kept released db (gatewayCapturedPromptsMarkExported db requestIds now).1 := by
  refine Kept.of_map ?_ ?_
  · intro p
    split_ifs <;> exact ⟨rfl, rfl, rfl⟩
  · intro p _ hsome
    split_ifs
    · rfl
    · exact hsome

theorem unmark_kept (requestIds : List String) (db : Tables) :
    Kept requestIds db (gatewayCapturedPromptsUnmarkExported db requestIds) := by
  refine Kept.of_map ?_ ?_
  · intro p
    split_ifs <;> exact ⟨rfl, rfl, rfl⟩
  · intro p hnot hsome
    rw [if_neg hnot]
    exact hsome

theorem QueueChange.kept (change : QueueChange) (db : Tables) : Kept [] db (change.apply db) := by
  unfold QueueChange.apply
  cases change with
  | request r =>
      simp only
      split_ifs
      · exact .refl [] db
      · exact .of_captured rfl
  | capture requestId orgId promptSha256 messages now =>
      simp only
      unfold gatewayCapturePrompt
      split_ifs with _ _ hnew
      · exact .refl [] db
      · exact .refl [] db
      · exact .refl [] db
      · refine ⟨?_, ?_, ?_⟩
        · rintro row ⟨p, hp, hsame⟩
          exact ⟨p, List.mem_append_left _ hp, hsame⟩
        · intro hunique
          unfold Tables.KeyUnique
          simp only [List.map_append, List.map_cons, List.map_nil]
          exact List.nodup_append.mpr ⟨hunique, List.nodup_singleton _, by
            intro a ha b hb
            rw [List.mem_singleton.mp hb]
            rintro rfl
            exact hnew ha⟩
        · rintro id _ ⟨p, hp, hsame⟩
          exact ⟨p, List.mem_append_left _ hp, hsame⟩
  | consent orgId on | connections rows => exact .of_captured rfl

/-- What a claim returns was not exported, and is now. -/
theorem mark_claims (hunique : db.KeyUnique) {requestIds : List String} {now : Int} {id : String}
    (hid : id ∈ (gatewayCapturedPromptsMarkExported db requestIds now).2) :
    ¬ db.Exported id ∧ (gatewayCapturedPromptsMarkExported db requestIds now).1.Exported id := by
  obtain ⟨p, hp, rfl⟩ := List.mem_map.mp hid
  obtain ⟨hmem, hclaims⟩ := List.mem_filter.mp hp
  constructor
  · rintro ⟨q, hq, hsame, hsome⟩
    have heq : q = p := List.inj_on_of_nodup_map hunique hq hmem hsame
    subst heq
    unfold Tables.claims at hclaims
    simp only [Bool.and_eq_true, Option.isNone_iff_eq_none] at hclaims
    rw [hclaims.1.2] at hsome
    cases hsome
  · refine ⟨{ p with exportedAt := some now }, ?_, rfl, rfl⟩
    refine List.mem_map.mpr ⟨p, hmem, ?_⟩
    rw [if_pos hclaims]

theorem toExport_hasRow {inLimit : Option Int} {excludeOrgs : List String} {row : CaptureExportRow}
    (h : row ∈ gatewayCapturedPromptsToExport db inLimit excludeOrgs) : db.HasRow row := by
  have hqueue : row ∈ db.queue excludeOrgs := by
    have hmem := List.mem_of_mem_take h
    rwa [List.mem_insertionSort] at hmem
  obtain ⟨p, hp, hrow⟩ := List.mem_filterMap.mp hqueue
  obtain ⟨r, -, rfl⟩ := Option.map_eq_some_iff.mp hrow
  exact ⟨p, (List.mem_filter.mp hp).1, rfl, rfl, rfl⟩

end kept

/-! ### What a tick has established -/

/-- The tick's claim stamped the row while its organization consented. -/
def TickLog.Stamped (log : TickLog) (row : CaptureExportRow) : Prop :=
  ∃ s ∈ log.stamps, s.requestId = row.requestId ∧ s.orgId = row.orgId ∧ s.consent = true

/-- The row's prompt may go to the connection. -/
structure TickLog.Permits (log : TickLog) (c : TraceConnection) (row : CaptureExportRow) : Prop where
  stamped : log.Stamped row
  read : c ∈ log.reads
  own : c.orgId = row.orgId
  enabled : (BroadcastConfig.fromConnectionConfig c.config).enabled = true
  privacy : (BroadcastConfig.fromConnectionConfig c.config).privacyMode = false

namespace Tick
variable (db : Tables) (t : Tick)

/-- An enabled destination of the organization the tick is at. -/
structure Chosen (d : EnabledDestination) : Prop where
  read : d.connection ∈ t.log.reads
  own : d.connection.orgId = t.orgId
  config : d.config = BroadcastConfig.fromConnectionConfig d.connection.config
  enabled : d.config.enabled = true

def PhaseFits : Prop :=
  match t.phase with
  | .connections _ enabled => ∀ d ∈ enabled, t.Chosen d
  | .claim enabled => ∀ d ∈ enabled, t.Chosen d
  | .release enabled => (∀ d ∈ enabled, t.Chosen d) ∧ ∀ row ∈ t.shipRows, t.log.Stamped row
  | .post enabled posts => (∀ d ∈ enabled, t.Chosen d) ∧ (∀ row ∈ t.shipRows, t.log.Stamped row) ∧
      ∀ p ∈ posts, ∀ row, p.Holds row → row ∈ t.shipRows ∧ ∀ d ∈ enabled.head?, d.config.privacyMode = false
  | _ => True

/-- The batch is of captured prompts, by organization; what was sent was permitted. -/
structure Base : Prop where
  todo : ∀ e ∈ t.todo, ∀ row ∈ e.2, row.orgId = e.1 ∧ db.HasRow row
  sent : ∀ s ∈ t.log.sent, ∀ row, s.post.Holds row → t.log.Permits s.connection row ∧ db.HasRow row

/-- A tick agrees with the tables. -/
structure Fits : Prop where
  base : t.Base db
  phase : t.PhaseFits

variable {db t} {t' : Tick} {db' : Tables} {released : List String}

theorem Base.kept (h : t.Base db) (hkept : Kept released db db') : t.Base db' := by
  refine ⟨?_, ?_⟩
  · intro e he row hrow
    obtain ⟨horg, hhas⟩ := h.todo e he row hrow
    exact ⟨horg, hkept.rows row hhas⟩
  · intro s hs row hholds
    obtain ⟨hpermits, hhas⟩ := h.sent s hs row hholds
    exact ⟨hpermits, hkept.rows row hhas⟩

theorem Fits.kept (h : t.Fits db) (hkept : Kept released db db') : t.Fits db' := ⟨h.base.kept hkept, h.phase⟩

theorem Base.orgRows (h : t.Base db) {row : CaptureExportRow} (hrow : row ∈ t.orgRows) :
    row.orgId = t.orgId ∧ db.HasRow row := by
  unfold Tick.orgRows at hrow
  unfold Tick.orgId
  cases htodo : t.todo with
  | nil =>
      rw [htodo] at hrow
      exact absurd hrow List.not_mem_nil
  | cons e rest =>
      rw [htodo] at hrow
      exact h.todo e (by rw [htodo]; exact List.mem_cons_self) row hrow

theorem mem_orgRows_of_shipRows {row : CaptureExportRow} (hrow : row ∈ t.shipRows) : row ∈ t.orgRows :=
  (List.mem_filter.mp hrow).1

/-! ### The parts of a step -/

/-- What the parts of a step yield: the tick still fits, and it holds nothing but what it had
claimed. -/
structure Goes (db : Tables) (claimedIds : List String) (t : Tick) : Prop where
  fits : t.Fits db
  held : ∀ id ∈ t.held, id ∈ claimedIds

theorem next_goes (h : t.Base db) (claimedIds : List String) : t.next.Goes db claimedIds := by
  unfold next
  cases htail : t.todo.tail with
  | cons org rest =>
      refine ⟨⟨⟨?_, h.sent⟩, ?_⟩, ?_⟩
      · intro e he
        exact h.todo e (List.mem_of_mem_tail (by rw [htail]; exact he))
      · intro d hd
        exact absurd hd List.not_mem_nil
      · intro id hid
        exact absurd hid List.not_mem_nil
  | nil =>
      have hbase : Base db { t with todo := [], claimedIds := [] } :=
        ⟨fun e he => absurd he List.not_mem_nil, h.sent⟩
      simp only
      split_ifs
      · exact ⟨⟨⟨hbase.todo, hbase.sent⟩, trivial⟩, fun id hid => absurd hid List.not_mem_nil⟩
      · exact ⟨⟨⟨hbase.todo, hbase.sent⟩, trivial⟩, fun id hid => absurd hid List.not_mem_nil⟩

theorem batched_goes (h : t.Base db) {rows : List CaptureExportRow} (hrows : ∀ row ∈ rows, db.HasRow row)
    (claimedIds : List String) : (t.batched rows).Goes db claimedIds := by
  unfold batched
  cases horgs : byOrg rows with
  | nil => exact ⟨⟨⟨h.todo, h.sent⟩, trivial⟩, fun id hid => absurd hid List.not_mem_nil⟩
  | cons org rest =>
      refine ⟨⟨⟨?_, h.sent⟩, ?_⟩, ?_⟩
      · intro e he row hrow
        have hmem : e ∈ byOrg rows := by
          rw [horgs]
          exact he
        obtain ⟨orgId, -, rfl⟩ := List.mem_map.mp hmem
        obtain ⟨hin, horg⟩ := List.mem_filter.mp hrow
        exact ⟨of_decide_eq_true horg, hrows row hin⟩
      · intro d hd
        exact absurd hd List.not_mem_nil
      · intro id hid
        exact absurd hid List.not_mem_nil

theorem Base.logged (h : t.Base db) {t' : Tick} (htodo : t'.todo = t.todo) (hsent : t'.log.sent = t.log.sent)
    (hreads : ∀ c ∈ t.log.reads, c ∈ t'.log.reads) (hstamps : ∀ s ∈ t.log.stamps, s ∈ t'.log.stamps) :
    t'.Base db := by
  constructor
  · rw [htodo]
    exact h.todo
  · intro s hs row hholds
    rw [hsent] at hs
    obtain ⟨hpermits, hhas⟩ := h.sent s hs row hholds
    obtain ⟨stamp, hstamp, hsame⟩ := hpermits.stamped
    exact ⟨⟨⟨stamp, hstamps stamp hstamp, hsame⟩, hreads _ hpermits.read, hpermits.own, hpermits.enabled,
      hpermits.privacy⟩, hhas⟩

variable {enabled : List EnabledDestination} {d : EnabledDestination}

theorem mem_enabledWith {kind : ConnectionKind} {found : Option TraceConnection}
    (hd : d ∈ enabledWith kind found enabled) :
    d ∈ enabled ∨ ∃ c ∈ found, (BroadcastConfig.fromConnectionConfig c.config).enabled = true ∧
      d = ⟨kind, c, BroadcastConfig.fromConnectionConfig c.config⟩ := by
  unfold enabledWith at hd
  cases found with
  | none => exact .inl hd
  | some c =>
      simp only at hd
      split_ifs at hd with hon
      · rcases List.mem_append.mp hd with hold | hlast
        · exact .inl hold
        · exact .inr ⟨c, rfl, hon, List.mem_singleton.mp hlast⟩
      · exact .inl hd

theorem Chosen.congr {t t' : Tick} {d : EnabledDestination} (h : t.Chosen d) (hlog : t'.log.reads = t.log.reads)
    (horg : t'.orgId = t.orgId) : t'.Chosen d :=
  ⟨hlog ▸ h.read, horg ▸ h.own, h.config, h.enabled⟩

theorem connected_goes (h : t.Base db) {kind : ConnectionKind} {kinds : List ConnectionKind}
    (hchosen : ∀ d ∈ enabled, t.Chosen d) {found : Option TraceConnection}
    (hfound : ∀ c ∈ found, c.orgId = t.orgId) (claimedIds : List String) :
    (t.connected kind kinds enabled found).Goes db claimedIds := by
  have hall : ∀ d ∈ enabledWith kind found enabled, d.connection ∈ t.log.reads ++ found.toList ∧
      d.connection.orgId = t.orgId ∧ d.config = BroadcastConfig.fromConnectionConfig d.connection.config ∧
      d.config.enabled = true := by
    intro d hd
    rcases mem_enabledWith hd with hold | ⟨c, hc, hon, rfl⟩
    · have hchosen := hchosen d hold
      exact ⟨List.mem_append_left _ hchosen.read, hchosen.own, hchosen.config, hchosen.enabled⟩
    · exact ⟨List.mem_append_right _ (Option.mem_toList.mpr hc), hfound c hc, rfl, hon⟩
  have hlogged : (t.connected kind kinds enabled found).Base db :=
    h.logged rfl rfl (fun c hc => List.mem_append_left _ hc) fun s hs => hs
  unfold connected at hlogged ⊢
  split_ifs at hlogged ⊢
  · refine ⟨⟨hlogged, ?_⟩, fun id hid => absurd hid List.not_mem_nil⟩
    intro d hd
    obtain ⟨hread, hown, hconfig, hon⟩ := hall d hd
    exact ⟨hread, hown, hconfig, hon⟩
  · refine ⟨⟨hlogged, ?_⟩, fun id hid => absurd hid List.not_mem_nil⟩
    intro d hd
    obtain ⟨hread, hown, hconfig, hon⟩ := hall d hd
    exact ⟨hread, hown, hconfig, hon⟩

theorem claimed_goes (h : t.Base db) (hunique : db.KeyUnique) (hchosen : ∀ d ∈ enabled, t.Chosen d) (now : Int) :
    (t.claimed db enabled
      (gatewayCapturedPromptsMarkExported db (t.orgRows.map (·.requestId)) now).2).Goes db
      (gatewayCapturedPromptsMarkExported db (t.orgRows.map (·.requestId)) now).2 := by
  unfold claimed
  simp only
  split_ifs
  · refine next_goes ?_ _
    exact h.logged rfl rfl (fun c hc => hc) fun s hs => List.mem_append_left _ hs
  · refine next_goes ?_ _
    exact h.logged rfl rfl (fun c hc => hc) fun s hs => List.mem_append_left _ hs
  · refine ⟨⟨h.logged rfl rfl (fun c hc => hc) fun s hs => List.mem_append_left _ hs, ?_, ?_⟩, fun id hid => hid⟩
    · intro d hd
      exact (hchosen d hd).congr rfl rfl
    · -- a row that is shipped was among those the claim stamped
      intro row hrow
      obtain ⟨hin, hid⟩ := List.mem_filter.mp hrow
      obtain ⟨p, hp, hsame⟩ := List.mem_map.mp (of_decide_eq_true hid)
      obtain ⟨hmem, hclaims⟩ := List.mem_filter.mp hp
      obtain ⟨q, hq, hqid, hqorg, -⟩ := (h.orgRows hin).2
      have heq : q = p := List.inj_on_of_nodup_map hunique hq hmem (hqid.trans hsame.symm)
      subst heq
      refine ⟨⟨q.requestId, q.orgId, db.consents q.orgId⟩, ?_, hqid, hqorg, ?_⟩
      · exact List.mem_append_right _ (List.mem_map.mpr ⟨q, hp, rfl⟩)
      · unfold Tables.claims at hclaims
        simp only [Bool.and_eq_true] at hclaims
        exact hclaims.2

/-- A tick that ships. -/
structure Ships (db : Tables) (t : Tick) : Prop where
  base : t.Base db
  stamped : ∀ row ∈ t.shipRows, t.log.Stamped row

theorem delivered_goes (h : t.Ships db) (d : EnabledDestination)
    (hchosen : ∀ d ∈ enabled, t.Chosen d) : (t.delivered d enabled).Goes db t.claimedIds := by
  unfold delivered
  simp only
  split_ifs
  · unfold shipped
    refine next_goes ?_ _
    exact h.base.logged rfl rfl (fun c hc => hc) fun s hs => hs
  · refine ⟨⟨h.base.logged rfl rfl (fun c hc => hc) fun s hs => hs, ?_, h.stamped⟩, fun id hid => hid⟩
    intro d' hd'
    exact (hchosen d' hd').congr rfl rfl

theorem raised_goes (h : t.Base db) (e : Raised) : (t.raised e).Goes db t.claimedIds := by
  unfold raised
  cases e.handled with
  | true =>
      exact ⟨⟨h.logged rfl rfl (fun c hc => hc) fun s hs => hs, trivial⟩, fun id hid => hid⟩
  | false =>
      exact ⟨⟨h.logged rfl rfl (fun c hc => hc) fun s hs => hs, trivial⟩,
        fun id hid => absurd hid List.not_mem_nil⟩

theorem released_goes (h : t.Ships db) (hchosen : ∀ d' ∈ d :: enabled, t.Chosen d') (credential : String) :
    (t.released d enabled credential).Goes db t.claimedIds := by
  have htail : ∀ d' ∈ enabled, t.Chosen d' := fun d' hd' => hchosen d' (List.mem_cons_of_mem _ hd')
  unfold released
  cases hposts : deliveryPosts d.kind credential d.connection.config d.config t.shipRows
      (!d.config.privacyMode) with
  | error e => exact raised_goes h.base e
  | ok posts =>
      cases posts with
      | nil => exact delivered_goes h d htail
      | cons p rest =>
          have hbase := h.base
          refine ⟨⟨⟨hbase.todo, hbase.sent⟩, ?_, h.stamped, ?_⟩, fun id hid => hid⟩
          · intro d' hd'
            exact (hchosen d' hd').congr rfl rfl
          · intro q hq row hholds
            obtain ⟨hship, hcontent⟩ := deliveryPosts_holds hposts hq hholds
            refine ⟨hship, ?_⟩
            intro d' hd'
            cases hd'
            simpa using hcontent

/-- **A post.**  What it holds, the tick was permitted to send. -/
theorem sent_base (h : t.Ships db) (hchosen : t.Chosen d) {p : Post}
    (hp : ∀ row, p.Holds row → row ∈ t.shipRows ∧ d.config.privacyMode = false) :
    Base db { t with log.sent := t.log.sent ++ [⟨d.connection, p⟩] } := by
  have hbase := h.base
  refine ⟨hbase.todo, ?_⟩
  intro s hs row hholds
  rcases List.mem_append.mp hs with hold | hnew
  · obtain ⟨hpermits, hhas⟩ := hbase.sent s hold row hholds
    exact ⟨⟨hpermits.stamped, hpermits.read, hpermits.own, hpermits.enabled, hpermits.privacy⟩, hhas⟩
  · rw [List.mem_singleton.mp hnew] at hholds ⊢
    obtain ⟨hship, hprivacy⟩ := hp row hholds
    obtain ⟨horg, hhas⟩ := hbase.orgRows (mem_orgRows_of_shipRows hship)
    have hconfig := hchosen.config
    refine ⟨⟨h.stamped row hship, hchosen.read, hchosen.own.trans horg.symm, ?_, ?_⟩, hhas⟩
    · rw [← hconfig]
      exact hchosen.enabled
    · rw [← hconfig]
      exact hprivacy

theorem answered_goes (h : t.Ships db) (hchosen : ∀ d' ∈ d :: enabled, t.Chosen d') {p : Post} {posts : List Post}
    (hposts : ∀ q ∈ p :: posts, ∀ row, q.Holds row → row ∈ t.shipRows ∧ d.config.privacyMode = false)
    (r : Returned) : (t.answered d enabled p posts r).Goes db t.claimedIds := by
  have hchosen' : ∀ d' ∈ d :: enabled,
      Tick.Chosen { t with log.sent := t.log.sent ++ [⟨d.connection, p⟩] } d' := by
    intro d' hd'
    exact (hchosen d' hd').congr rfl rfl
  have hsent := sent_base h (hchosen d List.mem_cons_self) (hposts p List.mem_cons_self)
  have hships : Tick.Ships db { t with log.sent := t.log.sent ++ [⟨d.connection, p⟩] } :=
    ⟨hsent, h.stamped⟩
  unfold answered
  simp only
  split_ifs
  · exact raised_goes hsent _
  · split
    · exact raised_goes hsent _
    · split
      · exact delivered_goes hships d fun d' hd' => hchosen' d' (List.mem_cons_of_mem _ hd')
      · refine ⟨⟨⟨hsent.todo, hsent.sent⟩, ?_, h.stamped, ?_⟩, fun id hid => hid⟩
        · intro d' hd'
          exact (hchosen d' hd').congr rfl rfl
        · intro q hq row hholds
          obtain ⟨q', hq', rfl⟩ := List.mem_map.mp hq
          obtain ⟨hship, hprivacy⟩ := hposts q' (List.mem_cons_of_mem _ hq') row (withProject_holds.mp hholds)
          refine ⟨hship, ?_⟩
          intro d' hd'
          cases hd'
          exact hprivacy

theorem unclaimed_goes (h : t.Base db) : t.unclaimed.Goes db [] := by
  unfold unclaimed
  refine next_goes ?_ []
  exact ⟨h.todo, h.sent⟩

/-! ### Steps -/

/-- A step of a tick, for the table and for the tick. -/
structure Moves (db : Tables) (t : Tick) (out : Tables × Tick) : Prop where
  kept : Kept t.held db out.1
  fits : out.2.Fits out.1
  held : ∀ id ∈ out.2.held, id ∈ t.held ∧ (db.Exported id → out.1.Exported id) ∨
    ¬ db.Exported id ∧ out.1.Exported id

theorem Goes.moves (h : t'.Goes db t.held) : Moves db t (db, t') :=
  ⟨.refl _ db, h.fits, fun id hid => .inl ⟨h.held id hid, fun hexported => hexported⟩⟩

theorem moves_self (h : t.Fits db) : Moves db t (db, t) :=
  ⟨.refl _ db, h, fun _ hid => .inl ⟨hid, fun hexported => hexported⟩⟩

theorem succeed_moves (h : t.Fits db) (hunique : db.KeyUnique) (r : Returned) : Moves db t (t.succeed r db) := by
  have hbase := h.base
  have hphase := h.phase
  unfold succeed
  unfold PhaseFits at hphase
  cases hx : t.phase with
  | fetch =>
      simp only
      split_ifs
      · exact ⟨.refl _ db, ⟨hbase.logged rfl rfl (fun c hc => hc) fun s hs => hs, trivial⟩,
          fun _ hid => absurd hid List.not_mem_nil⟩
      · exact (batched_goes hbase (fun row hrow => toExport_hasRow hrow) t.held).moves
  | connections kinds enabled =>
      rw [hx] at hphase
      cases kinds with
      | nil =>
          have hgoes : (t.goto (.claim enabled)).Goes db t.held := by
            refine ⟨⟨⟨hbase.todo, hbase.sent⟩, ?_⟩, fun id hid => absurd hid List.not_mem_nil⟩
            intro d hd
            exact ⟨(hphase d hd).read, (hphase d hd).own, (hphase d hd).config, (hphase d hd).enabled⟩
          exact hgoes.moves
      | cons kind kinds =>
          refine (connected_goes hbase hphase ?_ t.held).moves
          intro c hc
          have hfound := List.find?_some (Option.mem_def.mp hc)
          simp only [Bool.and_eq_true, decide_eq_true_eq] at hfound
          exact hfound.1
  | claim enabled =>
      rw [hx] at hphase
      have hgoes := claimed_goes hbase hunique hphase r.now
      refine ⟨mark_kept _ _ _ _, hgoes.fits.kept (mark_kept [] _ _ _), ?_⟩
      intro id hid
      exact .inr (mark_claims hunique (hgoes.held id hid))
  | release enabled =>
      rw [hx] at hphase
      have hheld : t.held = t.claimedIds := by
        unfold held
        rw [hx]
      have hships : t.Ships db := ⟨hbase, hphase.2⟩
      cases enabled with
      | nil =>
          have hgoes : t.shipped.Goes db t.held := by
            unfold shipped
            refine next_goes ?_ _
            exact ⟨hbase.todo, hbase.sent⟩
          exact hgoes.moves
      | cons d enabled =>
          have hgoes := released_goes hships hphase.1 r.credential
          rw [← hheld] at hgoes
          exact hgoes.moves
  | post enabled posts =>
      rw [hx] at hphase
      have hheld : t.held = t.claimedIds := by
        unfold held
        rw [hx]
      cases enabled with
      | nil => exact moves_self h
      | cons d enabled =>
          cases posts with
          | nil => exact moves_self h
          | cons p posts =>
              have hposts : ∀ q ∈ p :: posts, ∀ row, q.Holds row →
                  row ∈ t.shipRows ∧ d.config.privacyMode = false := by
                intro q hq row hholds
                obtain ⟨hship, hprivacy⟩ := hphase.2.2 q hq row hholds
                exact ⟨hship, hprivacy d rfl⟩
              have hgoes := answered_goes ⟨hbase, hphase.2.1⟩ hphase.1 hposts r
              rw [← hheld] at hgoes
              exact hgoes.moves
  | unclaim =>
      have hheld : t.held = t.claimedIds := by
        unfold held
        rw [hx]
      have hgoes := unclaimed_goes hbase
      have hkept := unmark_kept t.claimedIds db
      refine ⟨?_, hgoes.fits.kept hkept, fun id hid => absurd (hgoes.held id hid) List.not_mem_nil⟩
      rw [hheld]
      exact hkept
  | finished summary | escaped e => exact moves_self h

theorem escaped_goes (h : t.Base db) (e : Raised) (claimedIds : List String) :
    (t.goto (.escaped e)).Goes db claimedIds :=
  ⟨⟨⟨h.todo, h.sent⟩, trivial⟩, fun _ hid => absurd hid List.not_mem_nil⟩

theorem fail_moves (h : t.Fits db) (e : Raised) (applied : Bool) : Moves db t (t.fail e applied db) := by
  have hbase := h.base
  have hphase := h.phase
  unfold fail
  unfold PhaseFits at hphase
  cases hx : t.phase with
  | fetch | connections kinds enabled => exact (escaped_goes hbase e t.held).moves
  | claim enabled =>
      simp only
      split_ifs
      · have hgoes := escaped_goes hbase e t.held
        have hkept := mark_kept t.held (t.orgRows.map (·.requestId)) 0 db
        exact ⟨hkept, hgoes.fits.kept hkept, fun _ hid => absurd hid List.not_mem_nil⟩
      · exact (escaped_goes hbase e t.held).moves
  | release enabled =>
      have hgoes := raised_goes hbase e
      have hheld : t.held = t.claimedIds := by
        unfold held
        rw [hx]
      rw [← hheld] at hgoes
      exact hgoes.moves
  | post enabled posts =>
      rw [hx] at hphase
      have hheld : t.held = t.claimedIds := by
        unfold held
        rw [hx]
      cases enabled with
      | nil => exact moves_self h
      | cons d enabled =>
          cases posts with
          | nil => exact moves_self h
          | cons p posts =>
              have hpost : ∀ row, p.Holds row → row ∈ t.shipRows ∧ d.config.privacyMode = false := by
                intro row hholds
                obtain ⟨hship, hprivacy⟩ := hphase.2.2 p List.mem_cons_self row hholds
                exact ⟨hship, hprivacy d rfl⟩
              have hsent := sent_base ⟨hbase, hphase.2.1⟩ (hphase.1 d List.mem_cons_self) hpost
              have hgoes : Goes db t.held
                  (Tick.raised { t with log.sent := t.log.sent ++ [⟨d.connection, p⟩] } e) := by
                rw [hheld]
                exact raised_goes hsent e
              exact hgoes.moves
  | unclaim =>
      have hheld : t.held = t.claimedIds := by
        unfold held
        rw [hx]
      simp only
      split_ifs
      · have hgoes := escaped_goes hbase e t.held
        have hkept := unmark_kept t.claimedIds db
        rw [← hheld] at hkept
        exact ⟨by rw [← hheld]; exact hkept, by rw [← hheld]; exact hgoes.fits.kept hkept,
          fun _ hid => absurd hid List.not_mem_nil⟩
      · exact (escaped_goes hbase e t.held).moves
  | finished summary | escaped e' => exact moves_self h

theorem advance_moves (h : t.Fits db) (hunique : db.KeyUnique) (i : CallResult) :
    Moves db t (Tick.advance i db t) := by
  cases i with
  | returns r => exact succeed_moves h hunique r
  | raises e applied => exact fail_moves h e applied

end Tick

/-! ### Runs -/

/-- What every reachable state satisfies. -/
structure BroadcastInv (w : Pool Tables Tick) : Prop where
  unique : w.shared.KeyUnique
  fits : ∀ t ∈ w.procs, t.Fits w.shared
  held : ∀ t ∈ w.procs, ∀ id ∈ t.held, w.shared.Exported id
  apart : ∀ (j k : ℕ) (x y : Tick), w.procs[j]? = some x → w.procs[k]? = some y → j ≠ k →
    ∀ id ∈ x.held, id ∉ y.held

section runs
variable {w : Pool Tables Tick}

theorem broadcastStart_inv {db : Tables} (hunique : db.KeyUnique) : BroadcastInv (broadcastStart db) := by
  refine ⟨hunique, ?_, ?_, ?_⟩
  · intro t ht
    exact absurd ht List.not_mem_nil
  · intro t ht
    exact absurd ht List.not_mem_nil
  · intro j k x y hx
    simp [broadcastStart] at hx

theorem BroadcastInv.env (h : BroadcastInv w) (change : QueueChange) :
    BroadcastInv (broadcastStep w (.env change)) := by
  have hkept := change.kept w.shared
  refine ⟨hkept.unique h.unique, ?_, ?_, h.apart⟩
  · intro t ht
    exact (h.fits t ht).kept hkept
  · intro t ht id hid
    exact hkept.exported id List.not_mem_nil (h.held t ht id hid)

theorem BroadcastInv.spawn (h : BroadcastInv w) : BroadcastInv (broadcastStep w (.spawn ())) := by
  have hstart : Tick.start.Fits w.shared :=
    ⟨⟨fun e he => absurd he List.not_mem_nil, fun s hs => absurd hs List.not_mem_nil⟩, trivial⟩
  have hnone : Tick.start.held = [] := rfl
  refine ⟨h.unique, ?_, ?_, ?_⟩
  · intro t ht
    rcases List.mem_append.mp ht with hold | hnew
    · exact h.fits t hold
    · rw [List.mem_singleton.mp hnew]
      exact hstart
  · intro t ht id hid
    rcases List.mem_append.mp ht with hold | hnew
    · exact h.held t hold id hid
    · rw [List.mem_singleton.mp hnew, hnone] at hid
      exact absurd hid List.not_mem_nil
  · intro j k x y hx hy hne id hid
    rcases getElem?_append_cases hx with ⟨rfl, rfl⟩ | hx
    · exact absurd hid List.not_mem_nil
    · rcases getElem?_append_cases hy with ⟨rfl, rfl⟩ | hy
      · exact List.not_mem_nil
      · exact h.apart j k x y hx hy hne id hid

/-- **A tick's step.**  The others' rows stay stamped, and what it claims nobody else holds. -/
theorem BroadcastInv.advance (h : BroadcastInv w) (k : ℕ) (i : CallResult) :
    BroadcastInv (broadcastStep w (.advance k i)) := by
  unfold broadcastStep
  cases hx : w.procs[k]? with
  | none =>
      rw [poolStep_advance_none hx]
      exact h
  | some t =>
      have hmem := List.mem_of_getElem? hx
      have hmoves := Tick.advance_moves (h.fits t hmem) h.unique i
      rw [poolStep_advance hx]
      have hothers : ∀ (j : ℕ) (y : Tick), w.procs[j]? = some y → j ≠ k → ∀ id ∈ y.held,
          (Tick.advance i w.shared t).1.Exported id ∧ id ∉ (Tick.advance i w.shared t).2.held := by
        intro j y hy hne id hid
        have hexported := h.held y (List.mem_of_getElem? hy) id hid
        have hnot : id ∉ t.held := h.apart j k y t hy hx hne id hid
        refine ⟨hmoves.kept.exported id hnot hexported, ?_⟩
        intro hin
        rcases hmoves.held id hin with ⟨hold, -⟩ | ⟨hunexported, -⟩
        · exact hnot hold
        · exact hunexported hexported
      refine ⟨hmoves.kept.unique h.unique, ?_, ?_, ?_⟩
      · intro t' ht'
        obtain ⟨j, hj⟩ := List.mem_iff_getElem?.mp ht'
        rcases getElem?_set_cases hj with ⟨-, rfl⟩ | ⟨-, hj⟩
        · exact hmoves.fits
        · exact (h.fits t' (List.mem_of_getElem? hj)).kept hmoves.kept
      · intro t' ht' id hid
        obtain ⟨j, hj⟩ := List.mem_iff_getElem?.mp ht'
        rcases getElem?_set_cases hj with ⟨-, rfl⟩ | ⟨hne, hj⟩
        · rcases hmoves.held id hid with ⟨hold, hstill⟩ | ⟨-, hexported⟩
          · exact hstill (h.held t hmem id hold)
          · exact hexported
        · exact (hothers j t' hj hne id hid).1
      · intro j l x y hxj hyl hne id hid
        rcases getElem?_set_cases hxj with ⟨rfl, rfl⟩ | ⟨hjk, hxold⟩
        · rcases getElem?_set_cases hyl with ⟨rfl, -⟩ | ⟨hlk, hyold⟩
          · exact absurd rfl hne
          · intro hin
            exact (hothers l y hyold hlk id hin).2 hid
        · rcases getElem?_set_cases hyl with ⟨rfl, rfl⟩ | ⟨-, hyold⟩
          · exact (hothers j x hxold hjk id hid).2
          · exact h.apart j l x y hxold hyold hne id hid

/-- The posts a tick is about to make hold rows that it holds. -/
theorem Tick.Fits.posts_held {db : Tables} {t : Tick} (h : t.Fits db) {enabled : List EnabledDestination}
    {posts : List Post} (hx : t.phase = .post enabled posts) {p : Post} (hp : p ∈ posts)
    {row : CaptureExportRow} (hholds : p.Holds row) : row.requestId ∈ t.held := by
  have hphase := h.phase
  unfold Tick.PhaseFits at hphase
  rw [hx] at hphase
  have hship := (hphase.2.2 p hp row hholds).1
  unfold Tick.held
  rw [hx]
  exact of_decide_eq_true (List.mem_filter.mp hship).2

/-- **Broadcast respects consent and isolation.** -/
theorem broadcast_respects_consent {db : Tables} (hunique : db.KeyUnique) (steps : List BroadcastStep) :
    (∀ t ∈ (run broadcastStep (broadcastStart db) steps).procs, ∀ s ∈ t.log.sent, ∀ row,
      s.post.Holds row → t.log.Permits s.connection row ∧
        (run broadcastStep (broadcastStart db) steps).shared.HasRow row) ∧
    (∀ t ∈ (run broadcastStep (broadcastStart db) steps).procs, ∀ enabled posts,
      t.phase = .post enabled posts → ∀ p ∈ posts, ∀ row, p.Holds row → row.requestId ∈ t.held) ∧
    ∀ (j k : ℕ) (x y : Tick), (run broadcastStep (broadcastStart db) steps).procs[j]? = some x →
      (run broadcastStep (broadcastStart db) steps).procs[k]? = some y → j ≠ k →
      ∀ id ∈ x.held, id ∉ y.held := by
  have hinv : BroadcastInv (run broadcastStep (broadcastStart db) steps) := by
    refine run_invariant_of_forall ?_ steps _ (broadcastStart_inv hunique)
    intro w step h
    cases step with
    | spawn _ => exact h.spawn
    | advance k i => exact h.advance k i
    | env change => exact h.env change
  refine ⟨?_, ?_, hinv.apart⟩
  · intro t ht s hs row hholds
    exact (hinv.fits t ht).base.sent s hs row hholds
  · intro t ht enabled posts hx p hp row hholds
    exact (hinv.fits t ht).posts_held hx hp hholds

end runs

section sample

def broadcasting : ConnectionConfig := ⟨none, none, .object { enabled := true }⟩

/-- One captured prompt of an organization with two destinations, one of them in privacy mode. -/
def sampleTables : Tables where
  organizations := [⟨"org", true⟩]
  requests := [⟨"req", "org", "model"⟩]
  captured := [⟨"req", "org", none, ["hello"], 0, none⟩]
  connections := [⟨"braintrust", "org", .braintrust, broadcasting⟩,
    ⟨"langsmith", "org", .langsmith, ⟨none, none, .object { enabled := true, privacyMode := true }⟩⟩]

def returns : CallResult := .returns { projectId := some "project" }

/-- Two ticks read the queue; the second one claims, and consent is withdrawn while it delivers. -/
def overlappingSteps : List BroadcastStep :=
  [.spawn (), .spawn (), .advance 0 returns, .advance 1 returns] ++ List.replicate 6 (.advance 1 returns) ++
    [.env (.consent "org" false)] ++ List.replicate 6 (.advance 0 returns) ++
    List.replicate 8 (.advance 1 returns)

theorem broadcast_respects_consent_sample :
    ((run broadcastStep (broadcastStart sampleTables) overlappingSteps).procs.map (·.phase) =
        [.finished ⟨0, 0, 0⟩, .finished ⟨1, 0, 0⟩] ∧
      (run broadcastStep (broadcastStart sampleTables) overlappingSteps).procs.map (·.log.delivered) =
        [[], [(.braintrust, "req"), (.langsmith, "req")]]) ∧
    ∀ t ∈ (run broadcastStep (broadcastStart sampleTables) overlappingSteps).procs, ∀ s ∈ t.log.sent,
      ∀ row, s.post.Holds row → t.log.Permits s.connection row := by
  refine ⟨by decide +kernel, ?_⟩
  intro t ht s hs row hholds
  exact ((broadcast_respects_consent (by decide) overlappingSteps).1 t ht s hs row hholds).1

end sample

end Experiential.Broadcast
