import Experiential.Lib.Run
import Experiential.Catalog.Aliases
import Experiential.Lib.DistinctOn

/-! # Authorizing a request and listing what may be requested

Keys, grants, aliases and alias revisions, with the functions that activate and retire aliases. A caller
of these gives the target of a revision as a JSON object, which nothing reads before a request is
authorized; so the target is kept here as that document, and not as the direct target that the catalog
store writes.

`authorizeRequest` and the two listings of the control store, without its caches. Each authenticates the
key and finds the effective alias of a name, the organization's before the public one, before it asks
whether the key's identity may use it. What the request path's own types accept is a parameter. -/

namespace Experiential.Control

open Catalog (Uuid GatewayAlias AliasOrigin)

/-- A value of a JSON object: a string, or the text of another value. -/
inductive FieldValue where
  | string (s : String)
  | other (json : String)
deriving DecidableEq

/-- A JSON object. -/
structure TargetDocument where
  fields : Dict String FieldValue
deriving DecidableEq

/-- A field, when it is a string. -/
def TargetDocument.string? (d : TargetDocument) (field : String) : Option String :=
  match d.fields.lookup field with
  | some (.string s) => some s
  | _ => none

/-- The content of a revision; the two other documents are kept as texts. -/
structure RevisionContent where
  target : TargetDocument
  catalogSha256 : String
  providerConnectionRevisions : String
  certification : Option String
  refusalFailover : Bool
deriving DecidableEq

/-- One `gateway_alias_revisions` row, under its revision id. -/
structure AliasRevision extends RevisionContent where
  aliasId : String
deriving DecidableEq

/-- One `api_keys` row, as far as authentication reads it. -/
structure ApiKey where
  id : Uuid
  orgId : Uuid
  keyHash : String
  revokedAt : Option ℤ
  expiresAt : Option ℤ
  identityId : Option String
deriving DecidableEq

structure ControlDb where
  aliases : Dict String GatewayAlias
  revisions : Dict String AliasRevision
  /-- `gateway_grants`: identity and alias. -/
  grants : List (String × String)
  keys : List ApiKey
  organizations : List Uuid
  /-- The digests of `gateway_catalog_snapshots`. -/
  snapshots : List String

def ControlDb.empty : ControlDb := ⟨∅, ∅, [], [], [], []⟩

inductive SqlError where
  | checkViolation (message : String)
  | uniqueViolation (message : String)
  | foreignKeyViolation
  | noDataFound (message : String)
deriving DecidableEq

/-! ### Activation -/

/-- The arguments of `gateway_activate_alias_revision`. -/
structure AliasActivation where
  aliasId : String
  aliasName : String
  orgId : Option Uuid
  revisionId : String
  content : RevisionContent

/-- `char_length(…) between 1 and 128 and … !~ '[[:cntrl:]]'`. -/
def checkedText (s : String) : Bool :=
  decide (1 ≤ s.length) && decide (s.length ≤ 128) && s.toList.all fun c => !(c.toNat < 32 || c.toNat = 127)

section activation
variable (db : ControlDb) (a : AliasActivation)

/-- Does another alias hold the name in the namespace? -/
def ControlDb.nameTaken : Bool :=
  db.aliases.entries.any fun e =>
    decide (e.2.aliasName = a.aliasName) && decide (e.2.orgId = a.orgId) && decide (e.1 ≠ a.aliasId)

/-- The row of the alias, or the one its insertion makes. -/
def ControlDb.aliasOrNew (origin : AliasOrigin) : GatewayAlias :=
  (db.aliases.lookup a.aliasId).getD ⟨a.aliasName, a.orgId, origin, true, none⟩

/-- The revision becomes the current one of the active alias. -/
def ControlDb.point (row : GatewayAlias) : ControlDb :=
  { db with aliases := db.aliases.insert a.aliasId { row with currentRevisionId := some a.revisionId, active := true } }

/-- `gateway_activate_alias_revision`, where a new alias has the origin. -/
def activateRevision (origin : AliasOrigin) : Except SqlError ControlDb := do
  ensure (db.nameTaken a = false)
    (.uniqueViolation "alias name is already bound to a different alias id in this namespace")
  ensure (checkedText a.aliasId = true ∧ checkedText a.aliasName = true) (.checkViolation "gateway_aliases")
  ensure ((db.aliases.lookup a.aliasId).isSome ∨ ∀ o, a.orgId = some o → o ∈ db.organizations)
    .foreignKeyViolation
  let row := db.aliasOrNew a origin
  ensure (row.aliasName = a.aliasName ∧ row.orgId = a.orgId)
    (.uniqueViolation "alias identity drifted: alias_id is bound to another name or organization")
  match db.revisions.lookup a.revisionId with
  | some stored => do
      ensure (stored = ⟨a.content, a.aliasId⟩)
        (.uniqueViolation "alias revision content drifted for an existing revision id")
      if row.currentRevisionId = some a.revisionId ∧ row.active = true then return db
      else return db.point a row
  | none => do
      ensure (checkedText a.revisionId = true) (.checkViolation "gateway_alias_revisions")
      ensure (a.content.catalogSha256 ∈ db.snapshots) .foreignKeyViolation
      return { db.point a row with revisions := db.revisions.insert a.revisionId ⟨a.content, a.aliasId⟩ }

def gatewayActivateAliasRevision : Except SqlError ControlDb := activateRevision db a .catalog

/-- An alias that is not there yet will be named, one that is must be. -/
def requireNamed : Except SqlError Unit :=
  match db.aliases.lookup a.aliasId with
  | none => ensure (db.nameTaken a = false)
      (.uniqueViolation "a model or alias named this already exists in this organization")
  | some row => ensure (row.origin = .named)
      (.uniqueViolation "alias id already exists as a catalog alias; named aliases use a distinct id")

def gatewayActivateNamedAliasRevision : Except SqlError ControlDb := do
  ensure a.orgId.isSome (.checkViolation "named aliases are organization-scoped; org_id is required")
  requireNamed db a
  activateRevision db a .named

end activation

/-- `gateway_deactivate_alias`. -/
def gatewayDeactivateAlias (db : ControlDb) (aliasId : String) : Except SqlError ControlDb := do
  let row ← require (db.aliases.lookup aliasId) (.noDataFound "alias does not exist")
  if row.active then return { db with aliases := db.aliases.insert aliasId { row with active := false } }
  else return db

/-! ### Runs -/

inductive ControlCall where
  | activate (a : AliasActivation)
  | activateNamed (a : AliasActivation)
  | deactivate (aliasId : String)
  /-- The tables that other functions write, as these leave them. -/
  | write (grants : List (String × String)) (keys : List ApiKey) (organizations : List Uuid) (snapshots : List String)

def controlCall (db : ControlDb) : ControlCall → Except SqlError ControlDb
  | .activate a => gatewayActivateAliasRevision db a
  | .activateNamed a => gatewayActivateNamedAliasRevision db a
  | .deactivate aliasId => gatewayDeactivateAlias db aliasId
  | .write grants keys organizations snapshots =>
      .ok { db with grants := grants, keys := keys, organizations := organizations, snapshots := snapshots }

/-- One call; one that raises leaves the tables as they were. -/
def controlStep : ControlDb → ControlCall → ControlDb := orStay controlCall

/-! ### What holds of the tables -/

/-- `unique nulls not distinct (alias_name, org_id)`, and an active alias has a current revision. -/
structure TablesOk (db : ControlDb) : Prop where
  unique : ∀ id a id' a', db.aliases.lookup id = some a → db.aliases.lookup id' = some a' →
    a.aliasName = a'.aliasName → a.orgId = a'.orgId → id = id'
  current : ∀ id a, db.aliases.lookup id = some a → a.active = true →
    ∃ revisionId, a.currentRevisionId = some revisionId ∧ (db.revisions.lookup revisionId).isSome

section
variable {db db' : ControlDb} {a : AliasActivation} {origin : AliasOrigin} {aliasId : String}

theorem nameTaken_eq_false : db.nameTaken a = false ↔
    ∀ id row, db.aliases.lookup id = some row → row.aliasName = a.aliasName → row.orgId = a.orgId → id = a.aliasId := by
  unfold ControlDb.nameTaken
  rw [List.any_eq_false]
  constructor
  · intro h id row hrow hname horg
    by_contra hne
    have hentry := h _ (AList.mem_lookup_iff.mp hrow)
    simp [hname, horg, hne] at hentry
  · intro h e he htaken
    simp only [Bool.and_eq_true, decide_eq_true_eq] at htaken
    exact htaken.2 (h e.1 e.2 (AList.mem_lookup_iff.mpr he) htaken.1.1 htaken.1.2)

theorem tablesOk_empty : TablesOk ControlDb.empty := by
  refine ⟨?_, ?_⟩
  · intro id a id' a' h
    simp [ControlDb.empty] at h
  · intro id a h
    simp [ControlDb.empty] at h

/-- Pointing an alias of a free name at a revision that is there. -/
theorem TablesOk.pointed (h : TablesOk db) (hfree : db.nameTaken a = false) {row : GatewayAlias}
    (hname : row.aliasName = a.aliasName) (horg : row.orgId = a.orgId)
    (hrevisions : ∀ id r, db.revisions.lookup id = some r → (db'.revisions.lookup id).isSome)
    (hnew : (db'.revisions.lookup a.revisionId).isSome) (haliases : db'.aliases = (db.point a row).aliases) :
    TablesOk db' := by
  have htaken := nameTaken_eq_false.mp hfree
  have hlookup : ∀ id b, db'.aliases.lookup id = some b →
      id = a.aliasId ∧ b = { row with currentRevisionId := some a.revisionId, active := true } ∨
        id ≠ a.aliasId ∧ db.aliases.lookup id = some b := by
    intro id b hb
    rw [haliases] at hb
    exact Dict.lookup_insert_eq_some.mp hb
  refine ⟨?_, ?_⟩
  · intro id b id' b' hb hb' hn ho
    rcases hlookup id b hb with ⟨rfl, rfl⟩ | ⟨hne, hold⟩
    · rcases hlookup id' b' hb' with ⟨rfl, rfl⟩ | ⟨hne', hold'⟩
      · rfl
      · exact (htaken id' b' hold' (hn.symm.trans hname) (ho.symm.trans horg)).symm
    · rcases hlookup id' b' hb' with ⟨rfl, rfl⟩ | ⟨hne', hold'⟩
      · exact htaken id b hold (hn.trans hname) (ho.trans horg)
      · exact h.unique id b id' b' hold hold' hn ho
  · intro id b hb hactive
    rcases hlookup id b hb with ⟨rfl, rfl⟩ | ⟨-, hold⟩
    · exact ⟨a.revisionId, rfl, hnew⟩
    · obtain ⟨revisionId, hcurrent, hsome⟩ := h.current id b hold hactive
      obtain ⟨r, hr⟩ := Option.isSome_iff_exists.mp hsome
      exact ⟨revisionId, hcurrent, hrevisions revisionId r hr⟩

/-- **What an activation does**: it finds everything as it is to be, or it points the alias at a revision that
is there now, as every other one still is. -/
theorem activateRevision_cases (hact : activateRevision db a origin = .ok db') :
    db.nameTaken a = false ∧ (db.aliasOrNew a origin).aliasName = a.aliasName ∧
      (db.aliasOrNew a origin).orgId = a.orgId ∧
        (db' = db ∨ db'.aliases = (db.point a (db.aliasOrNew a origin)).aliases ∧
          db'.revisions.lookup a.revisionId = some ⟨a.content, a.aliasId⟩ ∧
            ∀ id r, db.revisions.lookup id = some r → db'.revisions.lookup id = some r) := by
  unfold Control.activateRevision at hact
  simp only [bind_eq_ok, ensure_eq_ok] at hact
  obtain ⟨-, hfree, -, -, -, -, -, ⟨hname, horg⟩, hact⟩ := hact
  refine ⟨hfree, hname, horg, ?_⟩
  cases hstored : db.revisions.lookup a.revisionId with
  | some stored =>
      rw [hstored] at hact
      simp only [bind_eq_ok, ensure_eq_ok] at hact
      obtain ⟨-, hsame, hact⟩ := hact
      split_ifs at hact
      · cases hact
        exact .inl rfl
      · cases hact
        subst hsame
        exact .inr ⟨rfl, hstored, fun _ _ hr => hr⟩
  | none =>
      rw [hstored] at hact
      simp only [bind_eq_ok, ensure_eq_ok, pure_eq_ok] at hact
      obtain ⟨-, -, -, -, rfl⟩ := hact
      refine .inr ⟨rfl, AList.lookup_insert _, fun id r hr => ?_⟩
      have hne : id ≠ a.revisionId := by
        rintro rfl
        rw [hstored] at hr
        cases hr
      exact (AList.lookup_insert_ne hne).trans hr

theorem TablesOk.activateRevision (h : TablesOk db) (hact : activateRevision db a origin = .ok db') :
    TablesOk db' := by
  obtain ⟨hfree, hname, horg, rfl | ⟨haliases, hnew, hkept⟩⟩ := activateRevision_cases hact
  · exact h
  · refine h.pointed hfree hname horg ?_ ?_ haliases
    · intro id r hr
      exact Option.isSome_iff_exists.mpr ⟨r, hkept id r hr⟩
    · exact Option.isSome_iff_exists.mpr ⟨_, hnew⟩

theorem TablesOk.deactivate (h : TablesOk db) (hdeact : gatewayDeactivateAlias db aliasId = .ok db') : TablesOk db' := by
  unfold gatewayDeactivateAlias at hdeact
  simp only [bind_eq_ok, require_eq_ok] at hdeact
  obtain ⟨row, hrow, hdeact⟩ := hdeact
  split_ifs at hdeact
  · cases hdeact
    -- every alias is still there under its name
    have hback : ∀ id b, (db.aliases.insert aliasId { row with active := false }).lookup id = some b →
        ∃ c, db.aliases.lookup id = some c ∧ c.aliasName = b.aliasName ∧ c.orgId = b.orgId ∧ (b.active = true → c = b) := by
      intro id b hb
      rcases Dict.lookup_insert_eq_some.mp hb with ⟨rfl, rfl⟩ | ⟨-, hold⟩
      · exact ⟨row, hrow, rfl, rfl, by simp⟩
      · exact ⟨b, hold, rfl, rfl, fun _ => rfl⟩
    refine ⟨?_, ?_⟩
    · intro id b id' b' hb hb' hn ho
      obtain ⟨c, hc, hcn, hco, -⟩ := hback id b hb
      obtain ⟨c', hc', hcn', hco', -⟩ := hback id' b' hb'
      exact h.unique id c id' c' hc hc' (hcn.trans (hn.trans hcn'.symm)) (hco.trans (ho.trans hco'.symm))
    · intro id b hb hactive
      obtain ⟨c, hc, -, -, heq⟩ := hback id b hb
      obtain rfl := heq hactive
      exact h.current id c hc hactive
  · cases hdeact
    exact h

theorem TablesOk.call {call : ControlCall} (h : TablesOk db) (hcall : controlCall db call = .ok db') : TablesOk db' := by
  cases call with
  | activate a => exact h.activateRevision hcall
  | activateNamed a =>
      simp only [controlCall, gatewayActivateNamedAliasRevision, bind_eq_ok] at hcall
      obtain ⟨-, -, -, -, hact⟩ := hcall
      exact h.activateRevision hact
  | deactivate aliasId => exact h.deactivate hcall
  | write grants keys organizations snapshots =>
      cases hcall
      exact ⟨h.unique, h.current⟩

theorem tablesOk_run (calls : List ControlCall) : TablesOk (run controlStep ControlDb.empty calls) :=
  run_invariant_of_forall (fun _ _ h => orStay_preserves (fun _ hok h => h.call hok) h) calls _ tablesOk_empty

end

open Catalog (artifactIdPattern organizationArtifactId)

inductive GatewayTarget where
  | direct (poolId : String)
  | project (projectRef activationRef catalogSha256 : String)
deriving DecidableEq

/-- The authority of a request. -/
structure AuthorizationSnapshot where
  requestId : String
  organizationId : String
  identityId : String
  virtualKeyId : String
  aliasName : String
  aliasRevisionId : String
  target : GatewayTarget
  surface : String
  catalogSha256 : String
  canonicalRequestSha256 : String
  callerOperationSha256 : String
  refusalFailover : Bool
  deadlineMonotonic : ℤ
  appReferer : Option String
  appTitle : Option String
deriving DecidableEq

/-- What the validation of the request path's types accepts. -/
structure Contracts where
  target : GatewayTarget → Bool
  snapshot : AuthorizationSnapshot → Bool

inductive ControlError where
  | invalidVirtualKey (message : String)
  | aliasNotGranted (message : String)
  | store (message : String)
  /-- The snapshot's own bounds. -/
  | validation
deriving DecidableEq

def invalidKeyMessage : String := "virtual key is invalid"

def aliasNotGrantedMessage : String := "requested model alias is not granted"

def malformedTargetMessage : String := "active alias revision target is malformed"

structure KeyAuthority where
  apiKeyId : Uuid
  orgId : Uuid
  identityId : Option String

/-- The two clocks. -/
structure GatewayClock where
  now : ℤ
  monotonic : ℤ

/-- The arguments of `authorize_request`, with what is derived from the request and the id it draws. -/
structure AuthorizeArgs where
  keyHash : String
  aliasName : String
  deadlineMonotonic : ℤ
  appReferer : Option String
  appTitle : Option String
  requestId : String
  surface : String
  canonicalRequestSha256 : String
  callerOperationSha256 : String

/-! ### Authentication -/

/-- `_authenticate_in_transaction`. -/
def authenticate (db : ControlDb) (now : ℤ) (keyHash : String) : Except ControlError KeyAuthority := do
  let key ← require (db.keys.find? fun key => decide (key.keyHash = keyHash)) (.invalidVirtualKey invalidKeyMessage)
  ensure (¬ (key.revokedAt.isSome ∨ ∃ t, key.expiresAt = some t ∧ t ≤ now)) (.invalidVirtualKey invalidKeyMessage)
  return ⟨key.id, key.orgId, key.identityId⟩

/-! ### The effective alias -/

/-- The active aliases of the organization and the public ones. -/
def ControlDb.visible (db : ControlDb) (org : Uuid) : List (String × GatewayAlias) :=
  (db.aliases.entries.map fun e => (e.1, e.2)).filter fun e =>
    e.2.active && decide (e.2.orgId = none ∨ e.2.orgId = some org)

/-- `(aliases.org_id is not null) desc`. -/
def OrgFirst (a b : String × GatewayAlias) : Prop := a.2.orgId.isSome ∨ b.2.orgId = none

instance : DecidableRel OrgFirst := fun a b => inferInstanceAs (Decidable (a.2.orgId.isSome ∨ b.2.orgId = none))

/-- `aliases.alias_name, (aliases.org_id is not null) desc`. -/
def ByName (a b : String × GatewayAlias) : Prop :=
  a.2.aliasName < b.2.aliasName ∨ a.2.aliasName = b.2.aliasName ∧ OrgFirst a b

instance : DecidableRel ByName := fun a b =>
  inferInstanceAs (Decidable (a.2.aliasName < b.2.aliasName ∨ a.2.aliasName = b.2.aliasName ∧ OrgFirst a b))

/-- `effective` of `authorize_request`. -/
def ControlDb.effective (db : ControlDb) (name : String) (org : Uuid) : Option (String × GatewayAlias) :=
  (((db.visible org).filter fun e => decide (e.2.aliasName = name)).insertionSort OrgFirst).head?

/-- `effective` of the listings. -/
def ControlDb.effectiveAll (db : ControlDb) (org : Uuid) : List (String × GatewayAlias) :=
  distinctOn (fun e => e.2.aliasName)
    (((db.visible org).filter fun e => e.2.currentRevisionId.isSome).insertionSort ByName)

/-- A public alias is for everyone, another one for the identities it is granted to. -/
def ControlDb.Usable (db : ControlDb) (identity : String) (e : String × GatewayAlias) : Prop :=
  e.2.orgId = none ∨ (identity, e.1) ∈ db.grants

instance (db : ControlDb) (identity : String) (e : String × GatewayAlias) : Decidable (db.Usable identity e) :=
  inferInstanceAs (Decidable (_ ∨ _))

/-- The current revision of an alias, under its id. -/
def ControlDb.revisionOf (db : ControlDb) (row : GatewayAlias) : Option (String × AliasRevision) := do
  let revisionId ← row.currentRevisionId
  let revision ← db.revisions.lookup revisionId
  return (revisionId, revision)

/-! ### Authorization -/

/-- `_alias_target`. -/
def aliasTarget (contracts : Contracts) (document : TargetDocument) : Except ControlError GatewayTarget := do
  let target ← require (match document.string? "kind" with
    | some "direct" => (document.string? "pool_id").map .direct
    | some "project" => do
        let projectRef ← document.string? "project_ref"
        let activationRef ← document.string? "activation_ref"
        let catalogSha256 ← document.string? "catalog_sha256"
        return .project projectRef activationRef catalogSha256
    | _ => none) (.store malformedTargetMessage)
  ensure (contracts.target target = true) (.store malformedTargetMessage)
  return target

/-- The snapshot of a request for the revision. -/
def snapshotOf (authority : KeyAuthority) (identity : String) (r : AuthorizeArgs) (revisionId : String)
    (revision : AliasRevision) (target : GatewayTarget) : AuthorizationSnapshot where
  requestId := r.requestId
  organizationId := organizationArtifactId authority.orgId.text
  identityId := identity
  virtualKeyId := "key-" ++ authority.apiKeyId.text
  aliasName := r.aliasName
  aliasRevisionId := revisionId
  target := target
  surface := r.surface
  catalogSha256 := revision.catalogSha256
  canonicalRequestSha256 := r.canonicalRequestSha256
  callerOperationSha256 := r.callerOperationSha256
  refusalFailover := revision.refusalFailover
  deadlineMonotonic := r.deadlineMonotonic
  appReferer := r.appReferer
  appTitle := r.appTitle

/-- `_snapshot_from_resolution`. -/
def snapshotFromResolution (contracts : Contracts) (authority : KeyAuthority) (identity : String) (r : AuthorizeArgs)
    (resolution : String × AliasRevision) : Except ControlError AuthorizationSnapshot := do
  let target ← aliasTarget contracts resolution.2.target
  let snapshot := snapshotOf authority identity r resolution.1 resolution.2 target
  ensure (contracts.snapshot snapshot = true) .validation
  return snapshot

/-- The revision that the key's identity may use under the name. -/
def ControlDb.resolution (db : ControlDb) (authority : KeyAuthority) (identity name : String) :
    Option (String × AliasRevision) := do
  let found ← db.effective name authority.orgId
  let revision ← db.revisionOf found.2
  if db.Usable identity found then some revision else none

/-- `authorize_request`, without the caches. -/
def authorizeRequest (contracts : Contracts) (db : ControlDb) (clock : GatewayClock) (r : AuthorizeArgs) :
    Except ControlError AuthorizationSnapshot := do
  ensure (clock.monotonic < r.deadlineMonotonic) (.store "request deadline has already expired")
  ensure (artifactIdPattern r.aliasName = true ∧ r.aliasName.length ≤ 128) (.aliasNotGranted aliasNotGrantedMessage)
  let authority ← authenticate db clock.now r.keyHash
  let identity ← require authority.identityId (.aliasNotGranted aliasNotGrantedMessage)
  let resolution ← require (db.resolution authority identity r.aliasName) (.aliasNotGranted aliasNotGrantedMessage)
  snapshotFromResolution contracts authority identity r resolution

/-! ### Listings -/

/-- The effective aliases that the identity may use, by name. -/
def ControlDb.granted (db : ControlDb) (authority : KeyAuthority) : List (String × GatewayAlias) :=
  match authority.identityId with
  | none => []
  | some identity => ((db.effectiveAll authority.orgId).filter fun e => decide (db.Usable identity e)).insertionSort
      fun a b => a.2.aliasName ≤ b.2.aliasName

def grantedAliases (db : ControlDb) (now : ℤ) (keyHash : String) : Except ControlError (List String) := do
  let authority ← authenticate db now keyHash
  return (db.granted authority).map fun e => e.2.aliasName

/-- `granted_alias_authorities`: alias, revision and catalog digest. -/
def grantedAliasAuthorities (db : ControlDb) (now : ℤ) (keyHash : String) :
    Except ControlError (List (String × String × String)) := do
  let authority ← authenticate db now keyHash
  return (db.granted authority).filterMap fun e =>
    (db.revisionOf e.2).map fun revision => (e.2.aliasName, revision.1, revision.2.catalogSha256)

end Experiential.Control
