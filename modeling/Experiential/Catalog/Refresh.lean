import Experiential.Lib.Run
import Experiential.Lib.Stamped
import Experiential.Catalog.Aliases

/-! # The refresh loop

`refresh_now`, with the other writers around it. A worker compares the watermark of the input
tables with the one it recorded; when they differ it reads the tables one by one, builds,
stores, reads the watermark again and swaps its state. Every statement is one step of the
`World`, so writes to the tables, the stores of other workers and the calls of the alias API
land between any two of them; a refresh may fail at any point.

A worker also carries what no worker knows, to speak about runs: the rows its state was built
from, whether a refresh has begun or been completed since the last write, and whether a store
has moved an alias since the store its state came from. -/

namespace Experiential.Catalog

/-! ### Input tables -/

/-- The tables a refresh reads, in its order. -/
inductive CatalogTable where
  | models
  | providers
  | waterfalls
  | connections
  | house
  | controls
  | policies
deriving DecidableEq

structure CatalogTables where
  models : List (Stamped CatalogModelRow)
  providers : List (Stamped CatalogProviderRow)
  waterfalls : List (Stamped CatalogWaterfallRow)
  connections : List (Stamped CatalogConnectionRow)
  /-- The organization of the house slug. -/
  houseOrgId : Option Uuid
  controls : List (Stamped ProviderDataControls)
  policies : List (Stamped OrgProviderPolicy)

namespace CatalogTables

def empty : CatalogTables := ⟨[], [], [], [], none, [], []⟩

/-- One statement of `load_catalog_rows` and `load_provider_policy_rows`. -/
def copy (loaded db : CatalogTables) : CatalogTable → CatalogTables
  | .models => { loaded with models := db.models }
  | .providers => { loaded with providers := db.providers }
  | .waterfalls => { loaded with waterfalls := db.waterfalls }
  | .connections => { loaded with connections := db.connections }
  | .house => { loaded with houseOrgId := db.houseOrgId }
  | .controls => { loaded with controls := db.controls }
  | .policies => { loaded with policies := db.policies }

/-- The catalog rows; a rung carries its own time. -/
def rows (t : CatalogTables) : PlatformCatalogRows where
  models := t.models.map (·.row)
  providers := t.providers.map (·.row)
  waterfalls := t.waterfalls.map fun g => { g.row with updatedAt := g.updatedAt }
  connections := t.connections.map (·.row)
  houseOrgId := t.houseOrgId

/-- The controls by provider. -/
def providerControls (t : CatalogTables) : Dict String ProviderDataControls :=
  .ofList (·.provider) (t.controls.map (·.row))

/-- The policies by organization. -/
def providerPolicies (t : CatalogTables) : Dict String OrgProviderPolicy :=
  .ofList (·.orgId) (t.policies.map (·.row))

/-- The primary keys, and `models_namespace_slug_key`. -/
def KeysUnique (t : CatalogTables) : Prop :=
  (t.models.map (·.row.id)).Nodup ∧ (t.providers.map (·.row.id)).Nodup ∧
    (t.waterfalls.map (·.row.id)).Nodup ∧ (t.connections.map (·.row.id)).Nodup ∧
    (t.controls.map (·.row.provider)).Nodup ∧ (t.policies.map (·.row.orgId)).Nodup ∧
    (t.models.map fun m => (m.row.slug, m.row.owningOrgId)).Nodup

instance (t : CatalogTables) : Decidable t.KeysUnique := by
  unfold KeysUnique
  infer_instance

end CatalogTables

/-- One committed write: the statements of a transaction, table by table. -/
structure CatalogWrite where
  models : List (TableWrite CatalogModelRow) := []
  providers : List (TableWrite CatalogProviderRow) := []
  waterfalls : List (TableWrite CatalogWaterfallRow) := []
  connections : List (TableWrite CatalogConnectionRow) := []
  controls : List (TableWrite ProviderDataControls) := []
  policies : List (TableWrite OrgProviderPolicy) := []

namespace CatalogWrite

def apply (c : CatalogWrite) (t : CatalogTables) : CatalogTables where
  models := applyAll t.models c.models
  providers := applyAll t.providers c.providers
  waterfalls := applyAll t.waterfalls c.waterfalls
  connections := applyAll t.connections c.connections
  houseOrgId := t.houseOrgId
  controls := applyAll t.controls c.controls
  policies := applyAll t.policies c.policies

/-- Does the write leave the table alone? -/
def Spares (c : CatalogWrite) : CatalogTable → Prop
  | .models => c.models = []
  | .providers => c.providers = []
  | .waterfalls => c.waterfalls = []
  | .connections => c.connections = []
  | .house => True
  | .controls => c.controls = []
  | .policies => c.policies = []

/-- The latest time of each table. -/
def advance (c : CatalogWrite) (clock : CatalogTable → Int) : CatalogTable → Int
  | .models => latest (clock .models) c.models
  | .providers => latest (clock .providers) c.providers
  | .waterfalls => latest (clock .waterfalls) c.waterfalls
  | .connections => latest (clock .connections) c.connections
  | .house => clock .house
  | .controls => latest (clock .controls) c.controls
  | .policies => latest (clock .policies) c.policies

end CatalogWrite

/-! ### The watermark -/

/-- `CatalogWatermark`. -/
structure CatalogWatermark where
  modelsCount : Nat
  modelsUpdatedAt : Option Int
  providersCount : Nat
  providersUpdatedAt : Option Int
  waterfallsCount : Nat
  waterfallsUpdatedAt : Option Int
  connectionsCount : Nat
  connectionsUpdatedAt : Option Int
  connectionsServingRevision : Nat
  aliasRevisionsCount : Nat
  providerPoliciesCount : Nat
  providerPoliciesUpdatedAt : Option Int
  dataControlsUpdatedAt : Option Int
deriving DecidableEq

/-- `read_catalog_watermark`: one statement. -/
def readCatalogWatermark (t : CatalogTables) (aliases : AliasTables) : CatalogWatermark where
  modelsCount := t.models.length
  modelsUpdatedAt := maxUpdatedAt t.models
  providersCount := t.providers.length
  providersUpdatedAt := maxUpdatedAt t.providers
  waterfallsCount := t.waterfalls.length
  waterfallsUpdatedAt := maxUpdatedAt t.waterfalls
  connectionsCount := t.connections.length
  connectionsUpdatedAt := maxUpdatedAt t.connections
  connectionsServingRevision := (t.connections.map (·.row.servingRevision)).max?.getD 0
  aliasRevisionsCount := aliases.revisions.entries.length
  providerPoliciesCount := t.policies.length
  providerPoliciesUpdatedAt := maxUpdatedAt t.policies
  dataControlsUpdatedAt := maxUpdatedAt t.controls

/-! ### Workers -/

/-- Where a refresh is. -/
inductive RefreshPhase where
  | idle
  | reading (todo : List CatalogTable) (loaded : CatalogTables)
  | built (build : GatewayCatalogBuild) (loaded : CatalogTables)
  /-- `overtaken`: a store has moved an alias since this worker's. -/
  | stored (build : GatewayCatalogBuild) (loaded : CatalogTables) (overtaken : Bool)

structure GatewayWorker where
  state : Option GatewayCatalogState
  watermark : Option CatalogWatermark
  phase : RefreshPhase
  /-- The tables the state was built from. -/
  served : CatalogTables
  /-- A store has moved an alias since the store the state came from. -/
  overtaken : Bool
  /-- A refresh has begun since the last write. -/
  begun : Bool
  /-- A refresh has begun and returned since the last write. -/
  current : Bool
  /-- A refresh has returned since the last change of the tables or the aliases. -/
  completed : Bool

def GatewayWorker.fresh : GatewayWorker := ⟨none, none, .idle, .empty, false, false, false, false⟩

/-- A write has been committed. -/
def GatewayWorker.noteWrite (x : GatewayWorker) : GatewayWorker :=
  { x with begun := false, current := false, completed := false }

/-- A store has been committed. -/
def GatewayWorker.noteStore (x : GatewayWorker) (changed : Bool) : GatewayWorker :=
  { x with
    phase := match x.phase with
      | .stored build loaded overtaken => .stored build loaded (overtaken || changed)
      | phase => phase
    overtaken := x.overtaken || changed
    completed := x.completed && !changed }

/-- The workers' common code and their environments. -/
structure Fleet where
  engine : Engine
  azureConnectionConfig : String → Option AzureConnectionConfig
  environment : ℕ → String → Option String

def Fleet.inputs (fleet : Fleet) (p : ℕ) (loaded : CatalogTables) (probe : String → Bool) : Inputs where
  rows := loaded.rows
  environment := fleet.environment p
  releaseProbe := some probe
  engine := fleet.engine
  azureConnectionConfig := fleet.azureConnectionConfig

structure World where
  tables : CatalogTables
  aliases : AliasTables
  /-- Calls of the alias API on their way. -/
  calls : List AliasCall
  workers : ℕ → GatewayWorker
  /-- The latest time committed to each table. -/
  clock : CatalogTable → Int

/-- Nothing is stored and no worker has started. -/
def World.initial (house : Option Uuid) (clock : CatalogTable → Int) : World :=
  ⟨{ CatalogTables.empty with houseOrgId := house }, .empty, [], fun _ => .fresh, clock⟩

namespace World

def setWorker (w : World) (p : ℕ) (x : GatewayWorker) : World :=
  { w with workers := fun q => if q = p then x else w.workers q }

/-- The alias tables after a call. -/
def setAliases (w : World) (aliases : AliasTables) : World :=
  { w with
    aliases := aliases
    workers := fun q => { w.workers q with completed := false } }

/-- A worker's refresh ends without a new state. -/
def giveUp (w : World) (p : ℕ) : World := w.setWorker p { w.workers p with phase := .idle }

/-- The recorded watermark is the current one. -/
def upToDate (w : World) (p : ℕ) : Bool :=
  (w.workers p).state.isSome &&
    decide ((w.workers p).watermark = some (readCatalogWatermark w.tables w.aliases))

end World

/-- What happens next. -/
inductive RefreshStep where
  | write (c : CatalogWrite)
  | addOrganization (org : Uuid)
  | grant (aliasId : String) (identity : Uuid)
  | revoke (aliasId : String) (identity : Uuid)
  | request (r : NamedAliasRequest)
  | call (k : ℕ)
  | poll (p : ℕ)
  | read (p : ℕ)
  | build (p : ℕ) (probe : String → Bool)
  | store (p : ℕ)
  | swap (p : ℕ) (release : String → Option String)
  | abandon (p : ℕ)
  | restart (p : ℕ)

/-- The tables in the order they are read. -/
def CatalogTable.all : List CatalogTable :=
  [.models, .providers, .waterfalls, .connections, .house, .controls, .policies]

section steps
variable (fleet : Fleet) (w : World)

def writeStep (c : CatalogWrite) : World :=
  if (c.apply w.tables).KeysUnique then
    { w with
      tables := c.apply w.tables
      clock := c.advance w.clock
      workers := fun q => (w.workers q).noteWrite }
  else w

def requestStep (r : NamedAliasRequest) : World :=
  match r.prepare w.tables.rows w.aliases with
  | .ok call => { w with calls := w.calls ++ [call] }
  | .error _ => w

def callStep (k : ℕ) : World :=
  match w.calls[k]? with
  | none => w
  | some call =>
      let rest := { w with calls := w.calls.eraseIdx k }
      match call.execute w.aliases with
      | .ok aliases => rest.setAliases aliases
      | .error _ => rest

def pollStep (p : ℕ) : World :=
  match (w.workers p).phase with
  | .idle =>
      if w.upToDate p then
        w.setWorker p { w.workers p with begun := true, current := true, completed := true }
      else
        w.setWorker p { w.workers p with phase := .reading CatalogTable.all .empty, begun := true }
  | _ => w

def readStep (p : ℕ) : World :=
  match (w.workers p).phase with
  | .reading (table :: todo) loaded =>
      w.setWorker p { w.workers p with phase := .reading todo (loaded.copy w.tables table) }
  | _ => w

def buildStep (p : ℕ) (probe : String → Bool) : World :=
  match (w.workers p).phase with
  | .reading [] loaded =>
      match buildGatewayCatalog (fleet.inputs p loaded probe) with
      | .ok build => w.setWorker p { w.workers p with phase := .built build loaded }
      | .error _ => w.giveUp p
  | _ => w

def storeStep (p : ℕ) : World :=
  match (w.workers p).phase with
  | .built build loaded =>
      match storeGatewayCatalog w.aliases build with
      | .ok (aliases, result) =>
          let noted : World :=
            { w with
              aliases := aliases
              workers := fun q => (w.workers q).noteStore result.changed }
          noted.setWorker p { noted.workers p with phase := .stored build loaded false }
      | .error _ => w.giveUp p
  | _ => w

def swapStep (p : ℕ) (release : String → Option String) : World :=
  match (w.workers p).phase with
  | .stored build loaded overtaken =>
      match buildCatalogState build (fleet.environment p) release (w.workers p).state
          loaded.providerControls loaded.providerPolicies with
      | .ok state => w.setWorker p
          { state := some state
            watermark := some (readCatalogWatermark w.tables w.aliases)
            phase := .idle
            served := loaded
            overtaken := overtaken
            begun := (w.workers p).begun
            current := (w.workers p).begun
            completed := true }
      | .error _ => w.giveUp p
  | _ => w

def refreshStep : RefreshStep → World
  | .write c => writeStep w c
  | .addOrganization org =>
      w.setAliases { w.aliases with organizations := org :: w.aliases.organizations }
  | .grant aliasId identity =>
      w.setAliases { w.aliases with grants := (aliasId, identity) :: w.aliases.grants }
  | .revoke aliasId identity =>
      w.setAliases { w.aliases with
        grants := w.aliases.grants.filter fun g => decide (g ≠ (aliasId, identity)) }
  | .request r => requestStep w r
  | .call k => callStep w k
  | .poll p => pollStep w p
  | .read p => readStep w p
  | .build p probe => buildStep fleet w p probe
  | .store p => storeStep w p
  | .swap p release => swapStep fleet w p release
  | .abandon p => w.giveUp p
  | .restart p => w.setWorker p .fresh

end steps

end Experiential.Catalog
