import Mathlib.Data.List.Sort
import Experiential.Lib.Checked
import Experiential.Lib.Pool

/-! # Replacing a waterfall

A chain is the rungs of a model for an organization, or its default. `put_model_waterfall` checks the deployments it is
given, deletes the chain and inserts the new one, each in a call of its own. Requests on one chain go side by side call
by call, deployments are deleted in between, and every call may fail: refused, or lost after it was carried out. -/

namespace Experiential.Catalog

/-! ### Rows -/

/-- A row of `models`. -/
structure ChainModel where
  id : String
  slug : String
  owningOrgId : Option String
  hidden : Bool
deriving DecidableEq

/-- A row of `model_providers`. -/
structure ChainDeployment where
  id : String
  modelId : String
  owningOrgId : Option String
deriving DecidableEq

/-- A row of `model_waterfalls`. -/
structure Rung where
  modelId : String
  orgId : Option String
  position : ℕ
  modelProviderId : String
deriving DecidableEq

structure WaterfallDb where
  models : List ChainModel
  providers : List ChainDeployment
  rungs : List Rung
deriving DecidableEq

/-- The rungs of a chain. -/
def WaterfallDb.chainOf (db : WaterfallDb) (modelId : String) (orgId : Option String) : List Rung :=
  db.rungs.filter fun g => decide (g.modelId = modelId ∧ g.orgId = orgId)

/-- Is the deployment there? -/
def WaterfallDb.Routes (db : WaterfallDb) (modelId id : String) : Prop :=
  ∃ d ∈ db.providers, d.modelId = modelId ∧ d.id = id

instance (db : WaterfallDb) (modelId id : String) : Decidable (db.Routes modelId id) :=
  inferInstanceAs (Decidable (∃ d ∈ db.providers, d.modelId = modelId ∧ d.id = id))

/-! ### Writes -/

/-- What an insert may violate. -/
inductive RungViolation where
  | check
  | unique
  | foreignKey
deriving DecidableEq

/-- `_translated_write_error` -/
def RungViolation.status : RungViolation → ℕ
  | unique => 409
  | check | foreignKey => 422

/-- `model_waterfalls_guard_tenancy` -/
def WaterfallDb.Guards (db : WaterfallDb) (g : Rung) : Prop :=
  let modelOrg := (db.models.find? fun m => decide (m.id = g.modelId)).bind (·.owningOrgId)
  let deploymentOrg := (db.providers.find? fun d => decide (d.id = g.modelProviderId)).bind (·.owningOrgId)
  (modelOrg = none ∨ g.orgId = none ∨ g.orgId = modelOrg) ∧ (deploymentOrg = none ∨ deploymentOrg = g.orgId.or modelOrg)

instance (db : WaterfallDb) (g : Rung) : Decidable (db.Guards g) := inferInstanceAs (Decidable (_ ∧ _))

/-- `model_waterfalls_chain_position_key` -/
def Rung.positionKey (g : Rung) : String × Option String × ℕ := (g.modelId, g.orgId, g.position)

/-- `model_waterfalls_chain_deployment_key` -/
def Rung.deploymentKey (g : Rung) : String × Option String × String := (g.modelId, g.orgId, g.modelProviderId)

/-- Do the new rows keep a key of the table? -/
def KeepsKey {κ : Type} (key : Rung → κ) (rows new : List Rung) : Prop :=
  (new.map key).Nodup ∧ ∀ g ∈ new, ∀ g' ∈ rows, key g' ≠ key g

instance {κ : Type} [DecidableEq κ] (key : Rung → κ) (rows new : List Rung) : Decidable (KeepsKey key rows new) :=
  inferInstanceAs (Decidable (_ ∧ _))

/-- One insert, of all rungs or none. -/
def WaterfallDb.insertRungs (db : WaterfallDb) (new : List Rung) : Except RungViolation WaterfallDb := do
  ensure (∀ g ∈ new, db.Guards g) .check
  ensure (KeepsKey Rung.positionKey db.rungs new ∧ KeepsKey Rung.deploymentKey db.rungs new) .unique
  ensure (∀ g ∈ new, db.Routes g.modelId g.modelProviderId) .foreignKey
  return { db with rungs := db.rungs ++ new }

def WaterfallDb.deleteChain (db : WaterfallDb) (modelId : String) (orgId : Option String) : WaterfallDb :=
  { db with rungs := db.rungs.filter fun g => !decide (g.modelId = modelId ∧ g.orgId = orgId) }

/-- A deployment is deleted, and by the cascade its rungs. -/
def WaterfallDb.deleteDeployment (id : String) (db : WaterfallDb) : WaterfallDb :=
  { db with
    providers := db.providers.filter fun d => decide (d.id ≠ id)
    rungs := db.rungs.filter fun g => decide (g.modelProviderId ≠ id) }

/-! ### Checks -/

/-- The answers but 200; the texts name what the constructors carry. -/
inductive PutError where
  | modelNotFound (slug : String)
  | ambiguousModel (slug : String) (owners : List String)
  | repeatedDeployments (ids : List String)
  | deploymentNotFound (id slug : String)
  | rejected (v : RungViolation)
  | callFailed
deriving DecidableEq

def PutError.status : PutError → ℕ
  | modelNotFound _ => 404
  | ambiguousModel _ _ => 409
  | repeatedDeployments _ => 422
  | deploymentNotFound _ _ => 404
  | rejected v => v.status
  | callFailed => 500

/-- `_org_visible` -/
def orgVisible (owningOrgId viewerOrg : Option String) : Bool :=
  match owningOrgId, viewerOrg with
  | none, _ => true
  | _, none => true
  | some o, some v => decide (o = v)

/-- `_model_visible` -/
def ChainModel.visible (m : ChainModel) (viewerOrg : Option String) : Bool :=
  orgVisible m.owningOrgId viewerOrg && (if m.hidden && m.owningOrgId.isNone then viewerOrg.isNone else true)

/-- The public row of a slug. -/
def publicModel (slug : String) (rows : List ChainModel) : Except PutError ChainModel :=
  require (rows.find? fun m => m.owningOrgId.isNone) (.modelNotFound slug)

/-- `_resolve_model` for the organization that is acted for, which alone sees the model, or for the operator. -/
def resolveModel (models : List ChainModel) (slug : String) (actingOrg : Option String) : Except PutError ChainModel :=
  let rows := models.filter fun m => decide (m.slug = slug) && m.visible actingOrg
  match actingOrg with
  | some org =>
    match rows.find? fun m => decide (m.owningOrgId = some org) with
    | some m => .ok m
    | none => publicModel slug rows
  | none =>
    match rows.filter (·.owningOrgId.isSome) with
    | [] => publicModel slug rows
    | [m] => .ok m
    | ms => .error (.ambiguousModel slug ((ms.filterMap (·.owningOrgId)).insertionSort (· ≤ ·)))

/-- May the deployment stand on the chain? -/
def ChainDeployment.Chainable (d : ChainDeployment) (orgId : Option String) : Prop :=
  d.owningOrgId = none ∨ (orgId ≠ none ∧ d.owningOrgId = orgId)

instance (d : ChainDeployment) (orgId : Option String) : Decidable (d.Chainable orgId) := inferInstanceAs (Decidable (_ ∨ _))

/-- `_validated_chain_deployments` -/
def validatedChainDeployments (db : WaterfallDb) (m : ChainModel) (orgId : Option String) (ids : List String) :
    Except PutError Unit := do
  ensure (ids.Nodup) (.repeatedDeployments ((ids.filter fun id => decide (1 < ids.count id)).dedup.insertionSort (· ≤ ·)))
  ids.forM fun id =>
    ensure (∃ d ∈ db.providers, (d.modelId = m.id ∧ d.id = id) ∧ d.Chainable orgId) (.deploymentNotFound id m.slug)

/-! ### Requests -/

/-- What a request does next. -/
inductive PutPhase where
  | resolve
  | deployments (m : ChainModel)
  | clear (m : ChainModel)
  | insert (m : ChainModel)
  | touch (m : ChainModel)
  | views
  | answered (a : Except PutError Unit)
deriving DecidableEq

structure PutCall where
  ids : List String
  phase : PutPhase
deriving DecidableEq

inductive PutOutcome where
  | succeeds
  | refused
  | lost
deriving DecidableEq

/-- The rungs of a list of deployments. -/
def rungsOf (modelId : String) (orgId : Option String) (ids : List String) : List Rung :=
  ids.zipIdx.map fun e => ⟨modelId, orgId, e.2, e.1⟩

namespace PutCall

def begin (ids : List String) : PutCall := ⟨ids, .resolve⟩

section calls
variable (slug : String) (orgId : Option String) (db : WaterfallDb) (x : PutCall)

def goto (phase : PutPhase) : PutCall := { x with phase := phase }

def refuse (e : PutError) : PutCall := x.goto (.answered (.error e))

/-- `put_model_waterfall`: the request's next call is carried out. -/
def succeed : WaterfallDb × PutCall :=
  match x.phase with
  | .resolve =>
      (db, match resolveModel db.models slug orgId with
        | .error e => x.refuse e
        | .ok m => x.goto (.deployments m))
  | .deployments m =>
      (db, match validatedChainDeployments db m orgId x.ids with
        | .error e => x.refuse e
        | .ok _ => x.goto (.clear m))
  | .clear m => (db.deleteChain m.id orgId, x.goto (if x.ids = [] then .touch m else .insert m))
  | .insert m =>
      match db.insertRungs (rungsOf m.id orgId x.ids) with
      | .error v => (db, x.refuse (.rejected v))
      | .ok db' => (db', x.goto (.touch m))
  | .touch _ => (db, x.goto .views)
  | .views => (db, x.goto (.answered (.ok ())))
  | .answered _ => (db, x)

def fail : PutCall :=
  match x.phase with
  | .answered _ => x
  | _ => x.refuse .callFailed

def advance (i : PutOutcome) : WaterfallDb × PutCall :=
  match i with
  | .succeeds => x.succeed slug orgId db
  | .refused => (db, x.fail)
  | .lost => ((x.succeed slug orgId db).1, x.fail)

end calls

/-- Has the request deleted the chain, and not yet written its own? -/
def Inserting (x : PutCall) : Prop :=
  match x.phase with
  | .insert _ => True
  | _ => False

/-- Is the request's chain written, with nothing failed since? -/
def Written (x : PutCall) : Prop :=
  match x.phase with
  | .touch _ | .views | .answered (.ok _) => True
  | _ => False

end PutCall

abbrev PutPool := Pool WaterfallDb PutCall

/-- The requests on a chain, and the deployments that are deleted. -/
abbrev PutStep := PoolStep (List String) PutOutcome String

def putStep (slug : String) (orgId : Option String) : PutPool → PutStep → PutPool :=
  poolStep PutCall.begin (fun i db x => x.advance slug orgId db i) WaterfallDb.deleteDeployment

end Experiential.Catalog
