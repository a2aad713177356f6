import Experiential.Lib.TimedCache
import Experiential.Control.Listing

/-! # Authorizing through the caches

A worker keeps the authority of a key and the resolution of a public alias for a short time, and answers
from both without asking the database. The reads of a call, its transaction and its writes into the
caches are steps of their own, so that the calls of the worker interleave with each other and with the
writers of the tables.

A resolution of an organization's own alias is never kept. But a kept resolution of the public alias of
the same name goes on being served when the organization's own one has become the effective alias:
`through_caches_iff` says that this, and nothing else, sets the answers apart from those of the query. -/

namespace Experiential.Control

open Catalog (Uuid GatewayAlias AliasOrigin artifactIdPattern)

deriving instance DecidableEq for KeyAuthority, AuthorizeArgs

/-- Organization, identity and alias name. -/
abbrev GrantKey := Uuid × String × String

/-- A write into a cache that a call still has to make. -/
inductive Fill where
  | authority (keyHash : String) (authority : KeyAuthority)
  | resolution (key : GrantKey) (resolution : String × AliasRevision)
deriving DecidableEq

/-- A call that the caches could not answer, with the authority they had. -/
structure Missed where
  request : AuthorizeArgs
  cached : Option KeyAuthority

structure ControlWorker where
  db : ControlDb
  authorityReuse : TimedCache String KeyAuthority
  /-- A resolution is kept with its whole revision. -/
  grantResolution : TimedCache GrantKey (String × AliasRevision)
  missed : List Missed
  fills : List Fill

/-- What a call of `authorize_request` returns, and the authority that it acts under, if it comes to that. -/
structure Answer where
  request : AuthorizeArgs
  authority : Except ControlError KeyAuthority
  result : Except ControlError AuthorizationSnapshot
deriving DecidableEq

section query
variable (contracts : Contracts) (db : ControlDb) (authority : KeyAuthority) (r : AuthorizeArgs)

/-- What is checked before the caches are read. -/
def admitRequest (clock : GatewayClock) : Except ControlError Unit := do
  ensure (clock.monotonic < r.deadlineMonotonic) (.store "request deadline has already expired")
  ensure (artifactIdPattern r.aliasName = true ∧ r.aliasName.length ≤ 128) (.aliasNotGranted aliasNotGrantedMessage)

/-- What the database has for the authority. -/
def authorizeAs : Except ControlError AuthorizationSnapshot := do
  let identity ← require authority.identityId (.aliasNotGranted aliasNotGrantedMessage)
  let resolution ← require (db.resolution authority identity r.aliasName) (.aliasNotGranted aliasNotGrantedMessage)
  snapshotFromResolution contracts authority identity r resolution

/-- `is_public`, of the effective alias. -/
def ControlDb.isPublic : Bool :=
  (db.effective r.aliasName authority.orgId).any fun found => found.2.orgId.isNone

/-- The resolution that is kept: a public one that the identity may use. -/
def ControlDb.fillOf : Option Fill := do
  let identity ← authority.identityId
  let resolution ← db.resolution authority identity r.aliasName
  if db.isPublic authority r then some (.resolution (authority.orgId, identity, r.aliasName) resolution) else none

end query

namespace ControlWorker

section calls
variable (contracts : Contracts) (w : ControlWorker) (clock : GatewayClock)

/-- The two caches on the way of a request: the authority, and the resolution under an identity of it. -/
def hit (r : AuthorizeArgs) : Option (KeyAuthority × String × String × AliasRevision) := do
  let authority ← (w.authorityReuse.get r.keyHash clock.monotonic).1
  let identity ← authority.identityId
  let resolution ← (w.grantResolution.get (authority.orgId, identity, r.aliasName) clock.monotonic).1
  return (authority, identity, resolution)

/-- The caches after these reads. -/
def afterReads (r : AuthorizeArgs) : ControlWorker :=
  let read := w.authorityReuse.get r.keyHash clock.monotonic
  { w with
    authorityReuse := read.2
    grantResolution := match read.1.bind fun authority => authority.identityId.map fun identity =>
        (authority.orgId, identity, r.aliasName) with
      | none => w.grantResolution
      | some key => (w.grantResolution.get key clock.monotonic).2 }

/-- `authorize_request` up to its transaction. -/
def lookUp (r : AuthorizeArgs) : Option Answer × ControlWorker :=
  match admitRequest r clock with
  | .error e => (some ⟨r, .error e, .error e⟩, w)
  | .ok () =>
      match w.hit clock r with
      | some (authority, identity, resolution) =>
          (some ⟨r, .ok authority, snapshotFromResolution contracts authority identity r resolution⟩, w.afterReads clock r)
      | none =>
          let cached := (w.authorityReuse.get r.keyHash clock.monotonic).1
          (none, { w.afterReads clock r with missed := w.missed ++ [⟨r, cached⟩] })

/-- The transaction of `authorize_request`, with the authority in reach or the one that it reads. -/
def query (call : Missed) : Option Answer × ControlWorker :=
  let read : Except ControlError KeyAuthority := match call.cached with
    | some authority => .ok authority
    | none => authenticate w.db clock.now call.request.keyHash
  match read with
  | .error e => (some ⟨call.request, .error e, .error e⟩, w)
  | .ok authority =>
      let fills := (if call.cached.isNone then [Fill.authority call.request.keyHash authority] else []) ++
        (w.db.fillOf authority call.request).toList
      (some ⟨call.request, .ok authority, authorizeAs contracts w.db authority call.request⟩,
        { w with fills := w.fills ++ fills })

/-- `authenticate_key`, up to its write into the cache. -/
def authenticateKey (keyHash : String) : ControlWorker :=
  let read := w.authorityReuse.get keyHash clock.monotonic
  let w := { w with authorityReuse := read.2 }
  match read.1, authenticate w.db clock.now keyHash with
  | none, .ok authority => { w with fills := w.fills ++ [.authority keyHash authority] }
  | _, _ => w

/-- A write into a cache. -/
def store : Fill → ControlWorker
  | .authority keyHash authority => { w with authorityReuse := w.authorityReuse.put keyHash authority clock.monotonic }
  | .resolution key resolution => { w with grantResolution := w.grantResolution.put key resolution clock.monotonic }

end calls

end ControlWorker

/-- A step of the worker or of a writer of its tables; the calls under way are counted from the oldest. -/
inductive WorkerEvent where
  | control (call : ControlCall)
  | authenticateKey (clock : GatewayClock) (keyHash : String)
  | lookUp (clock : GatewayClock) (r : AuthorizeArgs)
  | query (clock : GatewayClock) (index : ℕ)
  | store (clock : GatewayClock) (index : ℕ)

/-- One step, with the answer that it gives. -/
def ControlWorker.react (contracts : Contracts) (w : ControlWorker) : WorkerEvent → Option Answer × ControlWorker
  | .control call => (none, { w with db := controlStep w.db call })
  | .authenticateKey clock keyHash => (none, w.authenticateKey clock keyHash)
  | .lookUp clock r => w.lookUp contracts clock r
  | .query clock index => match w.missed[index]? with
      | none => (none, w)
      | some call => { w with missed := w.missed.eraseIdx index }.query contracts clock call
  | .store clock index => match w.fills[index]? with
      | none => (none, w)
      | some fill => (none, { w with fills := w.fills.eraseIdx index }.store clock fill)

def workerStep (contracts : Contracts) (w : ControlWorker) (event : WorkerEvent) : ControlWorker :=
  (w.react contracts event).2

/-- A worker with empty caches, before any table is written. -/
def ControlWorker.fresh (authorityTtl grantTtl : ℤ) (authorityMax grantMax : ℕ) : ControlWorker :=
  ⟨.empty, ⟨authorityTtl, authorityMax, ∅⟩, ⟨grantTtl, grantMax, ∅⟩, [], []⟩

/-! ### Transparency -/

/-- The effective alias of the name is the organization's own. -/
def ControlDb.OwnAlias (db : ControlDb) (org : Uuid) (name : String) : Prop :=
  ∃ found, db.effective name org = some found ∧ found.2.orgId.isSome

/-- Where the effective alias of the authority's organization is its own, an answer names the revision that the
query names under that authority at this instant, or it is the same refusal. -/
def Transparent (contracts : Contracts) (w : ControlWorker) (event : WorkerEvent) : Prop :=
  ∀ answer, (w.react contracts event).1 = some answer →
    (∀ authority, answer.authority = .ok authority → w.db.OwnAlias authority.orgId answer.request.aliasName) →
      answer.result.map (·.aliasRevisionId) =
        (answer.authority >>= fun authority => authorizeAs contracts w.db authority answer.request).map (·.aliasRevisionId)

/-- The caches hold an authority of the key and a resolution of the name for it, neither of them expired. -/
structure PublicCopy (w : ControlWorker) (clock : GatewayClock) (r : AuthorizeArgs) (authority : KeyAuthority)
    (identity : String) (resolution : String × AliasRevision) : Prop where
  known : ∃ expires, w.authorityReuse.entries.lookup r.keyHash = some (authority, expires) ∧ clock.monotonic < expires
  named : authority.identityId = some identity
  copied : ∃ expires, w.grantResolution.entries.lookup (authority.orgId, identity, r.aliasName) =
    some (resolution, expires) ∧ clock.monotonic < expires

/-- The request path refuses a resolution and the one that the identity has, both with the same error. -/
def RefusedAlike (contracts : Contracts) (db : ControlDb) (authority : KeyAuthority) (identity : String)
    (r : AuthorizeArgs) (resolution : String × AliasRevision) : Prop :=
  ∃ own e, db.resolution authority identity r.aliasName = some own ∧
    snapshotFromResolution contracts authority identity r resolution = .error e ∧
      snapshotFromResolution contracts authority identity r own = .error e

/-- A request meets a public copy of the name although the organization has an effective alias of its own. -/
def ShadowMissed (contracts : Contracts) (w : ControlWorker) : WorkerEvent → Prop
  | .lookUp clock r => admitRequest r clock = .ok () ∧ ∃ authority identity resolution,
      PublicCopy w clock r authority identity resolution ∧ w.db.OwnAlias authority.orgId r.aliasName ∧
        ¬ RefusedAlike contracts w.db authority identity r resolution
  | _ => False

/-! ### What the tables keep -/

/-- The current revision of an alias is one of its own. -/
def Owned (db : ControlDb) : Prop := ∀ id row revisionId, db.aliases.lookup id = some row →
  row.currentRevisionId = some revisionId → ∃ r, db.revisions.lookup revisionId = some r ∧ r.aliasId = id

/-- Revisions stay as they are, and aliases in their namespaces. -/
structure Extends (db db' : ControlDb) : Prop where
  revisions : ∀ id r, db.revisions.lookup id = some r → db'.revisions.lookup id = some r
  aliases : ∀ id row, db.aliases.lookup id = some row → ∃ row', db'.aliases.lookup id = some row' ∧ row'.orgId = row.orgId

/-- A revision of a public alias. -/
def PublicRevision (db : ControlDb) (resolution : String × AliasRevision) : Prop :=
  db.revisions.lookup resolution.1 = some resolution.2 ∧
    ∃ row, db.aliases.lookup resolution.2.aliasId = some row ∧ row.orgId = none

section tables
variable {db db' : ControlDb} {a : AliasActivation} {origin : AliasOrigin} {c : ControlCall}

theorem Extends.refl : Extends db db := ⟨fun _ _ h => h, fun _ row h => ⟨row, h, rfl⟩⟩

theorem extends_activateRevision (h : activateRevision db a origin = .ok db') : Extends db db' := by
  obtain ⟨-, -, horg, rfl | ⟨haliases, -, hkept⟩⟩ := activateRevision_cases h
  · exact .refl
  · refine ⟨hkept, fun id row hrow => ?_⟩
    rw [haliases]
    by_cases hid : id = a.aliasId
    · subst hid
      refine ⟨_, AList.lookup_insert _, ?_⟩
      -- the row that is pointed is the one that is there
      simp [ControlDb.aliasOrNew, hrow]
    · exact ⟨row, (AList.lookup_insert_ne hid).trans hrow, rfl⟩

theorem Owned.activateRevision (ho : Owned db) (h : activateRevision db a origin = .ok db') : Owned db' := by
  obtain ⟨-, -, -, rfl | ⟨haliases, hnew, hkept⟩⟩ := activateRevision_cases h
  · exact ho
  · intro id row revisionId hrow hcurrent
    rw [haliases] at hrow
    rcases Dict.lookup_insert_eq_some.mp hrow with ⟨rfl, rfl⟩ | ⟨-, hold⟩
    · cases hcurrent
      exact ⟨_, hnew, rfl⟩
    · obtain ⟨r, hr, halias⟩ := ho id row revisionId hold hcurrent
      exact ⟨r, hkept revisionId r hr, halias⟩

theorem deactivate_cases {aliasId : String} (h : gatewayDeactivateAlias db aliasId = .ok db') :
    db' = db ∨ ∃ row, db.aliases.lookup aliasId = some row ∧
      db' = { db with aliases := db.aliases.insert aliasId { row with active := false } } := by
  unfold gatewayDeactivateAlias at h
  simp only [bind_eq_ok, require_eq_ok] at h
  obtain ⟨row, hrow, h⟩ := h
  split_ifs at h
  · cases h
    exact .inr ⟨row, hrow, rfl⟩
  · cases h
    exact .inl rfl

theorem extends_deactivate {aliasId : String} (h : gatewayDeactivateAlias db aliasId = .ok db') : Extends db db' := by
  obtain rfl | ⟨row, hrow, rfl⟩ := deactivate_cases h
  · exact .refl
  · refine ⟨fun _ _ hr => hr, fun id old hold => ?_⟩
    by_cases hid : id = aliasId
    · subst hid
      cases hold.symm.trans hrow
      exact ⟨_, AList.lookup_insert _, rfl⟩
    · exact ⟨old, (AList.lookup_insert_ne hid).trans hold, rfl⟩

theorem Owned.deactivate {aliasId : String} (ho : Owned db) (h : gatewayDeactivateAlias db aliasId = .ok db') :
    Owned db' := by
  obtain rfl | ⟨row, hrow, rfl⟩ := deactivate_cases h
  · exact ho
  · intro id new revisionId hnew hcurrent
    rcases Dict.lookup_insert_eq_some.mp hnew with ⟨rfl, rfl⟩ | ⟨-, hold⟩
    · exact ho id row revisionId hrow hcurrent
    · exact ho id new revisionId hold hcurrent

theorem call_cases (h : controlCall db c = .ok db') :
    (∃ a origin, activateRevision db a origin = .ok db') ∨ (∃ aliasId, gatewayDeactivateAlias db aliasId = .ok db') ∨
      db'.aliases = db.aliases ∧ db'.revisions = db.revisions := by
  cases c with
  | activate a => exact .inl ⟨a, .catalog, h⟩
  | activateNamed a =>
      simp only [controlCall, gatewayActivateNamedAliasRevision, bind_eq_ok] at h
      obtain ⟨-, -, -, -, hact⟩ := h
      exact .inl ⟨a, .named, hact⟩
  | deactivate aliasId => exact .inr (.inl ⟨aliasId, h⟩)
  | write grants keys organizations snapshots =>
      cases h
      exact .inr (.inr ⟨rfl, rfl⟩)

theorem extends_call (h : controlCall db c = .ok db') : Extends db db' := by
  obtain ⟨a, origin, hact⟩ | ⟨aliasId, hdeact⟩ | ⟨haliases, hrevisions⟩ := call_cases h
  · exact extends_activateRevision hact
  · exact extends_deactivate hdeact
  · refine ⟨fun id r hr => ?_, fun id row hrow => ⟨row, ?_, rfl⟩⟩
    · rw [hrevisions]
      exact hr
    · rw [haliases]
      exact hrow

theorem Owned.call (ho : Owned db) (h : controlCall db c = .ok db') : Owned db' := by
  obtain ⟨a, origin, hact⟩ | ⟨aliasId, hdeact⟩ | ⟨haliases, hrevisions⟩ := call_cases h
  · exact ho.activateRevision hact
  · exact ho.deactivate hdeact
  · intro id row revisionId hrow hcurrent
    rw [haliases] at hrow
    rw [hrevisions]
    exact ho id row revisionId hrow hcurrent

theorem PublicRevision.extends {resolution : String × AliasRevision} (h : PublicRevision db resolution)
    (hext : Extends db db') : PublicRevision db' resolution := by
  obtain ⟨hrevision, row, hrow, horg⟩ := h
  obtain ⟨row', hrow', horg'⟩ := hext.aliases _ _ hrow
  exact ⟨hext.revisions _ _ hrevision, row', hrow', horg'.trans horg⟩

end tables

/-! ### What the worker keeps -/

/-- What is kept, and what is on its way to the caches, are revisions of public aliases. -/
structure WorkerOk (w : ControlWorker) : Prop where
  tables : TablesOk w.db
  owned : Owned w.db
  kept : w.grantResolution.Holds fun _ resolution => PublicRevision w.db resolution
  fills : ∀ key resolution, Fill.resolution key resolution ∈ w.fills → PublicRevision w.db resolution

section worker
variable {contracts : Contracts} {w : ControlWorker} {clock : GatewayClock} {r : AuthorizeArgs} {db : ControlDb}
  {authority : KeyAuthority} {identity : String} {resolution : String × AliasRevision}

/-- A resolution is a revision of the effective alias. -/
theorem resolution_owned (ht : TablesOk db) (ho : Owned db) (h : db.resolution authority identity r.aliasName = some resolution) :
    ∃ found, db.effective r.aliasName authority.orgId = some found ∧ db.revisions.lookup resolution.1 = some resolution.2 ∧
      db.aliases.lookup resolution.2.aliasId = some found.2 := by
  obtain ⟨found, heff, -, hrevision⟩ := resolution_eq_some.mp h
  have hrow := (mem_visible.mp ((effective_eq_some ht).mp heff).1).1
  simp only [ControlDb.revisionOf, Option.bind_eq_bind, Option.bind_eq_some_iff, Option.pure_def, Option.some.injEq] at hrevision
  obtain ⟨revisionId, hcurrent, revision, hlookup, rfl⟩ := hrevision
  obtain ⟨revision', hlookup', halias⟩ := ho found.1 found.2 revisionId hrow hcurrent
  cases hlookup.symm.trans hlookup'
  exact ⟨found, heff, hlookup, by rw [halias]; exact hrow⟩

theorem fillOf_public (ht : TablesOk db) (ho : Owned db) {key : GrantKey}
    (h : db.fillOf authority r = some (.resolution key resolution)) : PublicRevision db resolution := by
  simp only [ControlDb.fillOf, Option.bind_eq_bind, Option.bind_eq_some_iff] at h
  obtain ⟨identity, -, resolution', hresolution, h⟩ := h
  split_ifs at h with hpublic
  cases h
  obtain ⟨found, heff, hlookup, halias⟩ := resolution_owned ht ho hresolution
  rw [ControlDb.isPublic, heff] at hpublic
  exact ⟨hlookup, found.2, halias, by simpa using hpublic⟩

theorem workerOk_fresh {authorityTtl grantTtl : ℤ} {authorityMax grantMax : ℕ} :
    WorkerOk (.fresh authorityTtl grantTtl authorityMax grantMax) := by
  refine ⟨tablesOk_empty, ?_, TimedCache.holds_empty, ?_⟩
  · intro id row revisionId hrow
    simp [ControlWorker.fresh, ControlDb.empty] at hrow
  · intro key resolution h
    cases h

theorem WorkerOk.afterReads (h : WorkerOk w) : WorkerOk (w.afterReads clock r) := by
  refine ⟨h.tables, h.owned, ?_, h.fills⟩
  unfold ControlWorker.afterReads
  dsimp only
  split
  · exact h.kept
  · exact h.kept.get

theorem WorkerOk.lookUp (h : WorkerOk w) : WorkerOk (w.lookUp contracts clock r).2 := by
  unfold ControlWorker.lookUp
  split
  · exact h
  · split
    · exact h.afterReads
    · exact ⟨h.tables, h.owned, h.afterReads.kept, h.fills⟩

theorem WorkerOk.query (h : WorkerOk w) {missed : Missed} : WorkerOk (w.query contracts clock missed).2 := by
  unfold ControlWorker.query
  dsimp only
  split
  · exact h
  · next authority _ =>
      refine ⟨h.tables, h.owned, h.kept, fun key resolution hfill => ?_⟩
      rcases List.mem_append.mp hfill with hfill | hfill
      · exact h.fills key resolution hfill
      · rcases List.mem_append.mp hfill with hfill | hfill
        · -- the write of an authority
          split at hfill <;> simp at hfill
        · exact fillOf_public h.tables h.owned (by simpa using hfill)

theorem WorkerOk.authenticateKey (h : WorkerOk w) {keyHash : String} : WorkerOk (w.authenticateKey clock keyHash) := by
  unfold ControlWorker.authenticateKey
  dsimp only
  split
  · refine ⟨h.tables, h.owned, h.kept, fun key resolution hfill => ?_⟩
    rcases List.mem_append.mp hfill with hfill | hfill
    · exact h.fills key resolution hfill
    · simp at hfill
  · exact ⟨h.tables, h.owned, h.kept, h.fills⟩

theorem WorkerOk.store (h : WorkerOk w) {fill : Fill} (hfill : ∀ key resolution, fill = .resolution key resolution →
    PublicRevision w.db resolution) : WorkerOk (w.store clock fill) := by
  cases fill with
  | authority keyHash authority => exact ⟨h.tables, h.owned, h.kept, h.fills⟩
  | resolution key resolution => exact ⟨h.tables, h.owned, h.kept.put (hfill key resolution rfl), h.fills⟩

theorem WorkerOk.control (h : WorkerOk w) {c : ControlCall} : WorkerOk { w with db := controlStep w.db c } := by
  have hstep : TablesOk (controlStep w.db c) ∧ Owned (controlStep w.db c) ∧ Extends w.db (controlStep w.db c) := by
    refine orStay_preserves (I := fun db => TablesOk db ∧ Owned db ∧ Extends w.db db) ?_ ⟨h.tables, h.owned, .refl⟩
    rintro db' hcall ⟨ht, ho, -⟩
    exact ⟨ht.call hcall, ho.call hcall, extends_call hcall⟩
  obtain ⟨ht, ho, hext⟩ := hstep
  exact ⟨ht, ho, h.kept.mono fun _ _ hpublic => hpublic.extends hext,
    fun key resolution hfill => (h.fills key resolution hfill).extends hext⟩

theorem WorkerOk.step (h : WorkerOk w) (event : WorkerEvent) : WorkerOk (workerStep contracts w event) := by
  cases event with
  | control c => exact h.control
  | authenticateKey clock keyHash => exact h.authenticateKey
  | lookUp clock r => exact h.lookUp
  | query clock index =>
      simp only [workerStep, ControlWorker.react]
      split
      · exact h
      · have hrest : WorkerOk { w with missed := w.missed.eraseIdx index } := ⟨h.tables, h.owned, h.kept, h.fills⟩
        exact hrest.query
  | store clock index =>
      simp only [workerStep, ControlWorker.react]
      split
      · exact h
      · next fill hfill =>
          have hrest : WorkerOk { w with fills := w.fills.eraseIdx index } :=
            ⟨h.tables, h.owned, h.kept, fun key resolution hmem =>
              h.fills key resolution (List.mem_of_mem_eraseIdx hmem)⟩
          refine hrest.store fun key resolution heq => h.fills key resolution ?_
          rw [← heq]
          exact List.mem_of_getElem? hfill

theorem workerOk_run (events : List WorkerEvent) (h : WorkerOk w) : WorkerOk (run (workerStep contracts) w events) :=
  run_invariant_of_forall (fun _ event hw => hw.step event) events w h

/-! ### Answers -/

theorem authorizeRequest_eq : authorizeRequest contracts db clock r =
    admitRequest r clock >>= fun _ => authenticate db clock.now r.keyHash >>= fun authority =>
      authorizeAs contracts db authority r := by
  simp only [authorizeRequest, admitRequest, authorizeAs, bind_assoc]

theorem hit_eq_some : w.hit clock r = some (authority, identity, resolution) ↔
    PublicCopy w clock r authority identity resolution := by
  simp only [ControlWorker.hit, Option.bind_eq_bind, Option.bind_eq_some_iff, Option.pure_def, Option.some.injEq,
    TimedCache.get_eq_some]
  constructor
  · rintro ⟨authority', hknown, identity', hnamed, resolution', hcopied, heq⟩
    cases heq
    exact ⟨hknown, hnamed, hcopied⟩
  · rintro ⟨hknown, hnamed, hcopied⟩
    exact ⟨authority, hknown, identity, hnamed, resolution, hcopied, rfl⟩

/-- A resolution is never refused as one that is not granted. -/
theorem snapshot_refusal : snapshotFromResolution contracts authority identity r resolution ≠
    .error (.aliasNotGranted aliasNotGrantedMessage) := by
  have htarget : RaisesOnly (· ≠ .aliasNotGranted aliasNotGrantedMessage) (aliasTarget contracts resolution.2.target) := by
    unfold aliasTarget
    refine .bind (.require (by simp)) fun target _ => ?_
    exact .bind (.ensure fun _ => by simp) fun _ _ => .pure target
  have hsnapshot : RaisesOnly (· ≠ .aliasNotGranted aliasNotGrantedMessage)
      (snapshotFromResolution contracts authority identity r resolution) := by
    unfold snapshotFromResolution
    refine .bind htarget fun target _ => ?_
    exact .bind (.ensure fun _ => by simp) fun _ _ => .pure _
  exact fun h => hsnapshot _ h rfl

theorem snapshot_revision {snapshot : AuthorizationSnapshot}
    (h : snapshotFromResolution contracts authority identity r resolution = .ok snapshot) :
    snapshot.aliasRevisionId = resolution.1 := by
  simp only [snapshotFromResolution, bind_eq_ok, pure_eq_ok] at h
  obtain ⟨target, -, -, -, rfl⟩ := h
  rfl

/-- The organization's own resolution is another revision than any that is public. -/
theorem own_ne_public (ht : TablesOk db) (ho : Owned db) (hown : db.OwnAlias authority.orgId r.aliasName)
    {own : String × AliasRevision} (h : db.resolution authority identity r.aliasName = some own)
    (hpublic : PublicRevision db resolution) : resolution.1 ≠ own.1 := by
  obtain ⟨found, heff, hlookup, halias⟩ := resolution_owned ht ho h
  obtain ⟨found', heff', horg⟩ := hown
  cases heff.symm.trans heff'
  obtain ⟨hcopy, row, hrow, hnone⟩ := hpublic
  intro heq
  -- one revision id, one revision, one alias
  rw [heq, hlookup] at hcopy
  rw [← Option.some.inj hcopy, halias] at hrow
  cases hrow
  rw [hnone] at horg
  cases horg

/-- What the query answers, where the identity is known. -/
theorem authorizeAs_of_identity (hidentity : authority.identityId = some identity) :
    authorizeAs contracts db authority r = match db.resolution authority identity r.aliasName with
      | none => .error (.aliasNotGranted aliasNotGrantedMessage)
      | some own => snapshotFromResolution contracts authority identity r own := by
  unfold authorizeAs
  rw [hidentity]
  change (require (db.resolution authority identity r.aliasName) _ >>= fun own =>
    snapshotFromResolution contracts authority identity r own) = _
  cases db.resolution authority identity r.aliasName with
  | none | some own => rfl

/-- A public copy answers like the organization's own alias only where both are refused alike. -/
theorem copy_alike_iff (h : WorkerOk w) (hcopy : PublicCopy w clock r authority identity resolution)
    (hown : w.db.OwnAlias authority.orgId r.aliasName) :
    (snapshotFromResolution contracts authority identity r resolution).map (·.aliasRevisionId) =
        (authorizeAs contracts w.db authority r).map (·.aliasRevisionId) ↔
      RefusedAlike contracts w.db authority identity r resolution := by
  have hpublic : PublicRevision w.db resolution := by
    obtain ⟨expires, hlookup, -⟩ := hcopy.copied
    exact h.kept _ _ hlookup
  rw [authorizeAs_of_identity hcopy.named]
  constructor
  · intro heq
    cases hresolution : w.db.resolution authority identity r.aliasName with
    | none =>
        rw [hresolution] at heq
        cases hserved : snapshotFromResolution contracts authority identity r resolution with
        | ok snapshot =>
            rw [hserved] at heq
            cases heq
        | error e =>
            rw [hserved] at heq
            cases heq
            exact absurd hserved snapshot_refusal
    | some own =>
        rw [hresolution] at heq
        dsimp only at heq
        cases hserved : snapshotFromResolution contracts authority identity r resolution with
        | ok snapshot =>
            cases hasked : snapshotFromResolution contracts authority identity r own with
            | ok snapshot' =>
                rw [hserved, hasked] at heq
                have hrevision : resolution.1 = own.1 := by
                  rw [← snapshot_revision hserved, ← snapshot_revision hasked]
                  exact Except.ok.inj heq
                exact absurd hrevision (own_ne_public h.tables h.owned hown hresolution hpublic)
            | error e =>
                rw [hserved, hasked] at heq
                cases heq
        | error e =>
            cases hasked : snapshotFromResolution contracts authority identity r own with
            | ok snapshot' =>
                rw [hserved, hasked] at heq
                cases heq
            | error e' =>
                rw [hserved, hasked] at heq
                cases heq
                exact ⟨own, e, hresolution, hserved, hasked⟩
  · rintro ⟨own, e, hresolution, hserved, hasked⟩
    rw [hresolution]
    dsimp only
    rw [hserved, hasked]

theorem transparent_iff (h : WorkerOk w) (event : WorkerEvent) :
    Transparent contracts w event ↔ ¬ ShadowMissed contracts w event := by
  cases event with
  | control c | authenticateKey clock keyHash => simp [Transparent, ShadowMissed, ControlWorker.react]
  | store clock index =>
      refine ⟨fun _ => id, fun _ answer hanswer => ?_⟩
      simp only [ControlWorker.react] at hanswer
      split at hanswer <;> cases hanswer
  | query clock index =>
      refine ⟨fun _ => id, fun _ answer hanswer _ => ?_⟩
      simp only [ControlWorker.react] at hanswer
      split at hanswer
      · cases hanswer
      · -- the answer is what the query says
        unfold ControlWorker.query at hanswer
        dsimp only at hanswer
        split at hanswer <;> cases hanswer <;> rfl
  | lookUp clock r =>
      unfold Transparent ShadowMissed
      simp only [ControlWorker.react, ControlWorker.lookUp]
      cases hadmit : admitRequest r clock with
      | error e =>
          constructor
          · rintro - ⟨hadmitted, -⟩
            cases hadmitted
          · intro _ answer hanswer _
            cases hanswer
            rfl
      | ok u =>
          cases hhit : w.hit clock r with
          | none =>
              refine ⟨?_, fun _ answer hanswer => by cases hanswer⟩
              rintro - ⟨-, authority, identity, resolution, hcopy, -⟩
              rw [hit_eq_some.mpr hcopy] at hhit
              cases hhit
          | some found =>
              obtain ⟨authority, identity, resolution⟩ := found
              have hcopy := hit_eq_some.mp hhit
              constructor
              · rintro htransparent ⟨-, authority', identity', resolution', hcopy', hown, hrefused⟩
                rw [hit_eq_some.mpr hcopy'] at hhit
                cases hhit
                refine hrefused ((copy_alike_iff h hcopy hown).mp (htransparent _ rfl ?_))
                intro authority' hauthority
                cases hauthority
                exact hown
              · intro hmissed answer hanswer hall
                cases hanswer
                have hown := hall authority rfl
                refine (copy_alike_iff h hcopy hown).mpr ?_
                by_contra hrefused
                exact hmissed ⟨rfl, authority, identity, resolution, hcopy, hown, hrefused⟩

end worker

/-- **The caches and the query.**  After any steps of a worker and of the writers of its tables, the next answer is
that of the query where the effective alias is the organization's own, unless the request meets a public copy;
and the query under an authority that the database still gives is `authorize_request` without the caches. -/
theorem through_caches_iff (contracts : Contracts) (authorityTtl grantTtl : ℤ) (authorityMax grantMax : ℕ)
    (events : List WorkerEvent) (event : WorkerEvent) :
    let w := run (workerStep contracts) (.fresh authorityTtl grantTtl authorityMax grantMax) events
    (Transparent contracts w event ↔ ¬ ShadowMissed contracts w event) ∧
      ∀ clock r authority, admitRequest r clock = .ok () → authenticate w.db clock.now r.keyHash = .ok authority →
        authorizeRequest contracts w.db clock r = authorizeAs contracts w.db authority r := by
  intro w
  refine ⟨transparent_iff (workerOk_run events workerOk_fresh) event, ?_⟩
  intro clock r authority hadmit hauthority
  rw [authorizeRequest_eq, hadmit, hauthority]
  rfl

/-- A request fills both caches, and then the organization gets an alias of the same name. -/
def sampleShadowing : List WorkerEvent :=
  (sampleCalls "gpt-5").take 2 |>.map .control
    |>.append [.lookUp ⟨0, 0⟩ (sampleRequest "gpt-5"), .query ⟨0, 0⟩ 0, .store ⟨0, 0⟩ 0, .store ⟨0, 0⟩ 0]
    |>.append ((sampleCalls "gpt-5").drop 2 |>.map .control)

/-- The worker when the request comes again, after the time to live. -/
def sampleMissed : ControlWorker :=
  run (workerStep ⟨fun _ => true, fun _ => true⟩) (.fresh 2 2 4096 8192)
    (sampleShadowing ++ [.lookUp ⟨3, 3⟩ (sampleRequest "gpt-5")])

/-- It is then answered under the organization's own alias. -/
theorem through_caches_sample :
    (sampleMissed.react ⟨fun _ => true, fun _ => true⟩ (.query ⟨3, 3⟩ 0)).1.map (·.result.map (·.aliasRevisionId)) =
        some (.ok "rev-2") ∧
      Transparent ⟨fun _ => true, fun _ => true⟩ sampleMissed (.query ⟨3, 3⟩ 0) := by
  refine ⟨by decide +kernel, ?_⟩
  exact (through_caches_iff ⟨fun _ => true, fun _ => true⟩ 2 2 4096 8192
    (sampleShadowing ++ [.lookUp ⟨3, 3⟩ (sampleRequest "gpt-5")]) (.query ⟨3, 3⟩ 0)).1.mpr id

/-- The public alias goes on being served. -/
theorem shadow_not_immediate : ¬ ∀ contracts events event,
    Transparent contracts (run (workerStep contracts) (.fresh 2 2 4096 8192) events) event := by
  intro hall
  let contracts : Contracts := ⟨fun _ => true, fun _ => true⟩
  let request := sampleRequest "gpt-5"
  let authority : KeyAuthority := ⟨sampleKey.id, sampleOrg, some "ann"⟩
  let served := snapshotOf authority "ann" request "rev-1" ⟨⟨⟨AList.insert "kind" (.string "direct")
    (AList.insert "pool_id" (.string "pool-1") ∅)⟩, "sha", "\x7b\x7d", none, false⟩, "public"⟩ (.direct "pool-1")
  have hserved : ((run (workerStep contracts) (.fresh 2 2 4096 8192) sampleShadowing).react contracts
      (.lookUp ⟨1, 1⟩ request)).1 = some ⟨request, .ok authority, .ok served⟩ := by decide +kernel
  have heff : (run (workerStep contracts) (.fresh 2 2 4096 8192) sampleShadowing).db.effective "gpt-5" sampleOrg =
      some ("own", ⟨"gpt-5", some sampleOrg, .catalog, true, some "rev-2"⟩) := by decide +kernel
  have hasked : (authorizeAs contracts (run (workerStep contracts) (.fresh 2 2 4096 8192) sampleShadowing).db
      authority request).map (·.aliasRevisionId) = .ok "rev-2" := by decide +kernel
  have h := hall contracts sampleShadowing (.lookUp ⟨1, 1⟩ request) _ hserved fun _ hauthority => by
    cases hauthority
    exact ⟨_, heff, rfl⟩
  rw [show (Except.ok authority >>= fun authority => authorizeAs contracts _ authority request) =
    authorizeAs contracts _ authority request from rfl, hasked] at h
  exact absurd (Except.ok.inj h) (by decide +kernel)

end Experiential.Control
