import Experiential.Lib.Pool
import Experiential.Catalog.Assembler

/-! # A provider connection and its writers, call by call

The routes that store a provider's key, check it and check one deployment of a model, over the
`provider_connections` row of an organization and one provider. Any number of requests run side by side,
and each of their database calls is one step. The row keeps the last four characters of the key, and
neither with which key a check was made nor when an entry was committed; both are noted here beside it. -/

namespace Experiential.Providers

inductive ConnectableProvider where
  | openai
  | anthropic
  | azureOpenai
  | openrouter
  | gemini
  | bedrock
  | fireworks
  | modal
deriving DecidableEq

namespace ConnectableProvider

def value : ConnectableProvider → String
  | openai => "openai"
  | anthropic => "anthropic"
  | azureOpenai => "azure_openai"
  | openrouter => "openrouter"
  | gemini => "gemini"
  | bedrock => "bedrock"
  | fireworks => "fireworks"
  | modal => "modal"

/-- `_ADMIN_KEY_SPEND_PROVIDERS`. -/
def takesAdminKey : ConnectableProvider → Bool
  | openai | anthropic => true
  | _ => false

end ConnectableProvider

inductive ConnectionStatus where
  | unchecked
  | valid
  | invalid
  | rateLimited
  | quotaExhausted
  | providerError
deriving DecidableEq

inductive ConnectionStatusSource where
  | hookupCheck
  | traffic
deriving DecidableEq

structure ProbeDetail where
  providerStatus : Option ℕ
  providerCode : Option String
  providerMessage : Option String
  remediation : String
  /-- The payload's JSON text. -/
  providerPayload : Option String
deriving DecidableEq

/-- A verdict on a key; a probe always concludes. -/
structure ProbeResult where
  status : ConnectionStatus
  detail : ProbeDetail
  concluded : status ≠ .unchecked

structure AzureDeploymentCheck extends ProbeDetail where
  deployed : Bool
deriving DecidableEq

/-! ### The row -/

/-- What a check found, and the credential that it was made with. -/
structure Made (α : Type) where
  found : α
  madeWith : String
deriving DecidableEq

/-- An entry of a dictionary of the row, and how many writes had been committed before its own. -/
structure Committed (α : Type) where
  entry : α
  committedAt : ℕ
deriving DecidableEq

/-- `status_detail.spend_key`. -/
structure SpendKeyDetail where
  status : ConnectionStatus
  checkedAt : ℕ
  detail : ProbeDetail
deriving DecidableEq

/-- An entry of `status_detail.models`. -/
structure ModelFact where
  deployment : String
  checkedAt : ℕ
  check : AzureDeploymentCheck
deriving DecidableEq

/-- `status_detail`; a detail without `models` has none. -/
structure StatusDetail where
  probe : Option (Made ProbeDetail)
  spendKey : Option (Made SpendKeyDetail)
  models : Dict String (Committed (Made ModelFact))

/-- The configuration: Azure's deployment names by model, and the provider's other settings. -/
structure ConnectionConfig where
  settings : Dict String String
  deployments : Dict String (Committed String)

structure ProviderConnection where
  config : ConnectionConfig
  credentialLast4 : String
  spendCredentialLast4 : Option String
  status : ConnectionStatus
  statusDetail : Option StatusDetail
  statusCheckedAt : Option ℕ
  statusSource : Option ConnectionStatusSource
  /-- The key that the status was found with. -/
  statusMadeWith : Option String

/-- The key, and the provider's admin key, which only reads spend. -/
structure Credentials where
  key : String
  spendKey : Option String
deriving DecidableEq

/-- The row, the credentials that the vault holds for it, and the number of writes committed. -/
structure ConnectionDb where
  row : ProviderConnection
  vault : Credentials
  commits : ℕ

/-- What a request knows of the row that it read, when it did, and which credentials were stored then. -/
structure ProviderConnectionRecord where
  config : ConnectionConfig
  credentialLast4 : String
  spendCredentialLast4 : Option String
  statusDetail : Option StatusDetail
  readAt : ℕ
  heldAt : Credentials

/-! ### The database calls -/

namespace ConnectionDb

def right4 (secret : String) : String := String.ofList (secret.toList.drop (secret.length - 4))

/-- The configuration as one write commits it. -/
def commitConfig (settings deployments : Dict String String) (commits : ℕ) : ConnectionConfig :=
  ⟨settings, ⟨deployments.entries.map fun e => ⟨e.1, ⟨e.2, commits⟩⟩, by
    have h := deployments.nodupKeys
    rw [List.NodupKeys, List.keys] at h ⊢
    rw [List.map_map]
    exact h⟩⟩

/-- `upsert_provider_connection` for a connection that is there. -/
def upsertProviderConnection (settings deployments : Dict String String) (secret : String) (db : ConnectionDb) :
    ConnectionDb where
  row := { db.row with
    config := commitConfig settings deployments db.commits
    credentialLast4 := right4 secret
    status := .unchecked
    statusDetail := none
    statusCheckedAt := none
    statusSource := none
    statusMadeWith := none }
  vault := { db.vault with key := secret }
  commits := db.commits + 1

/-- `set_provider_connection_spend_credential`. -/
def setSpendCredential (secret : String) (db : ConnectionDb) : ConnectionDb where
  row := { db.row with spendCredentialLast4 := some (right4 secret) }
  vault := { db.vault with spendKey := some secret }
  commits := db.commits + 1

def find (db : ConnectionDb) : ProviderConnectionRecord :=
  ⟨db.row.config, db.row.credentialLast4, db.row.spendCredentialLast4, db.row.statusDetail, db.commits, db.vault⟩

/-- `record_status` of a check that was made with the key; none when the fence skips the write. -/
def recordStatus (result : ProbeResult) (detail : StatusDetail) (now : ℕ) (forCredentialLast4 madeWith : String)
    (db : ConnectionDb) : Option ConnectionDb :=
  if db.row.credentialLast4 = forCredentialLast4 then
    some { db with
      row := { db.row with
        status := result.status
        statusDetail := some detail
        statusCheckedAt := some now
        statusSource := some .hookupCheck
        statusMadeWith := some madeWith }
      commits := db.commits + 1 }
  else none

def updateConfig (config : ConnectionConfig) (db : ConnectionDb) : ConnectionDb :=
  { db with row := { db.row with config := config }, commits := db.commits + 1 }

/-- `record_model_fact`. -/
def recordModelFact (record : ProviderConnectionRecord) (model : String) (fact : Made ModelFact)
    (db : ConnectionDb) : ConnectionDb :=
  let detail := record.statusDetail.getD ⟨none, none, ∅⟩
  { db with
    row := { db.row with
      statusDetail := some { detail with models := AList.insert model ⟨fact, db.commits⟩ detail.models } }
    commits := db.commits + 1 }

end ConnectionDb

/-! ### The routes -/

/-- A request that passed the checks of its body. -/
inductive ConnectionRequest where
  /-- `PUT`, with the provider's settings and the deployments of the configuration. -/
  | put (settings deployments : Dict String String) (secret : String) (spendSecret : Option String)
  | check
  | deploymentCheck (model : String) (deployment : Option String)

inductive ConnectionAnswer where
  | done
  | error (status : ℕ) (message : String)
deriving DecidableEq

/-- The next call of a request, with what it has read so far. -/
inductive ConnectionPhase where
  | upsert
  | setSpendCredential (secret : String)
  | find
  | updateConfig (record : ProviderConnectionRecord) (model deployment : String)
  | releaseCredential (record : ProviderConnectionRecord)
  | releaseForDeployment (record : ProviderConnectionRecord) (model deployment : String)
  | releaseSpendCredential (record : ProviderConnectionRecord) (key : String)
  | recordStatus (record : ProviderConnectionRecord) (probed : Credentials)
  | recordModelFact (record : ProviderConnectionRecord) (model deployment key : String)
  /-- The read of the row that a fenced write left alone. -/
  | findById
  | answered (answer : ConnectionAnswer)

structure ConnectionCall where
  request : ConnectionRequest
  phase : ConnectionPhase

/-- The time, and what the provider says of the credentials that the request holds. -/
structure Probes where
  now : ℕ
  key : ProbeResult
  spendKey : ConnectionStatus × ProbeDetail
  deployment : AzureDeploymentCheck

inductive ConnectionOutcome where
  | succeeds (probes : Probes)
  | fails

def ConnectionRequest.begin (provider : ConnectableProvider) (r : ConnectionRequest) : ConnectionCall where
  request := r
  phase := match r with
    | put _ _ _ spendSecret => if spendSecret.isSome && !provider.takesAdminKey then
        .answered (.error 400 "Only Anthropic and OpenAI connections take an admin key for spend.") else .upsert
    | check => .find
    | deploymentCheck _ _ => if provider = .azureOpenai then .find
        else .answered (.error 400 ("Per-model deployment checks exist only for azure_openai; " ++
          provider.value ++ " addresses models directly, so a valid key already serves them."))

namespace ConnectionCall

section calls
variable (provider : ConnectableProvider) (probes : Probes) (db : ConnectionDb) (x : ConnectionCall)

def goto (phase : ConnectionPhase) : ConnectionCall := { x with phase := phase }

def refuse (status : ℕ) (message : String) : ConnectionCall := x.goto (.answered (.error status message))

/-- The deployment check once the mapping is stored. -/
def mapped (record : ProviderConnectionRecord) (model : String) : ConnectionCall :=
  match record.config.deployments.lookup model with
  | none => x.refuse 404 ("No Azure deployment is mapped for model '" ++ model ++ "' on this connection; " ++
      "pass `deployment` to map the deployment name it is served under.")
  | some d => x.goto (.releaseForDeployment record model d.entry)

/-- The request has read the row. -/
def found (record : ProviderConnectionRecord) : ConnectionCall :=
  match x.request with
  | .put .. | .check => x.goto (.releaseCredential record)
  | .deploymentCheck model deployment =>
      if Catalog.strip model = "" then
        x.refuse 422 "model must name the catalog model slug the deployment serves."
      else match deployment with
        | none => x.mapped record (Catalog.strip model)
        | some d =>
            if Catalog.strip d = "" then
              x.refuse 422 "deployment must name the Azure deployment this model is served under."
            else x.goto (.updateConfig record (Catalog.strip model) (Catalog.strip d))

/-- `_map_deployment`: the configuration that was read, with one more deployment. -/
def mapDeployment (record : ProviderConnectionRecord) (model deployment : String) : ConnectionConfig :=
  { record.config with deployments := AList.insert model ⟨deployment, db.commits⟩ record.config.deployments }

/-- The detail of a hookup check. -/
def checkDetail (probed : Credentials) : StatusDetail where
  probe := some ⟨probes.key.detail, probed.key⟩
  spendKey := probed.spendKey.map fun c => ⟨⟨probes.spendKey.1, probes.now, probes.spendKey.2⟩, c⟩
  models := ∅

/-- The request's next call succeeds. -/
def succeed : ConnectionDb × ConnectionCall :=
  match x.phase with
  | .upsert =>
      match x.request with
      | .put settings deployments secret spendSecret =>
          (db.upsertProviderConnection settings deployments secret,
            x.goto (match spendSecret with
              | none => .find
              | some c => .setSpendCredential c))
      | .check | .deploymentCheck .. => (db, x)
  | .setSpendCredential secret => (db.setSpendCredential secret, x.goto .find)
  | .find => (db, x.found db.find)
  | .updateConfig record model deployment =>
      let db' := db.updateConfig (mapDeployment db record model deployment)
      (db', x.mapped db'.find model)
  | .releaseCredential record =>
      (db, x.goto (if provider.takesAdminKey && record.spendCredentialLast4.isSome then
        .releaseSpendCredential record db.vault.key else .recordStatus record ⟨db.vault.key, none⟩))
  | .releaseForDeployment record model deployment =>
      (db, x.goto (.recordModelFact record model deployment db.vault.key))
  | .releaseSpendCredential record key =>
      (db, match db.vault.spendKey with
        | none => x.refuse 500 ""
        | some c => x.goto (.recordStatus record ⟨key, some c⟩))
  | .recordStatus record probed =>
      match db.recordStatus probes.key (checkDetail probes probed) probes.now record.credentialLast4 probed.key with
      | none => (db, x.goto .findById)
      | some db' => (db', x.goto (.answered .done))
  | .recordModelFact record model deployment key =>
      (db.recordModelFact record model ⟨⟨deployment, probes.now, probes.deployment⟩, key⟩,
        x.goto (.answered .done))
  | .findById => (db, x.goto (.answered .done))
  | .answered _ => (db, x)

/-- The request's next call fails, or the provider cannot be asked: the request ends. -/
def fail : ConnectionCall :=
  match x.phase with
  | .answered _ => x
  | _ => x.refuse 500 ""

end calls

def advance (provider : ConnectableProvider) (i : ConnectionOutcome) (db : ConnectionDb) (x : ConnectionCall) :
    ConnectionDb × ConnectionCall :=
  match i with
  | .succeeds probes => x.succeed provider probes db
  | .fails => (db, x.fail)

/-- The read that the request's next write goes back to. -/
def record? (x : ConnectionCall) : Option ProviderConnectionRecord :=
  match x.phase with
  | .updateConfig record .. | .releaseCredential record | .releaseForDeployment record .. |
    .releaseSpendCredential record _ | .recordStatus record _ | .recordModelFact record .. => some record
  | .upsert | .setSpendCredential _ | .find | .findById | .answered _ => none

end ConnectionCall

abbrev ConnectionPool := Pool ConnectionDb ConnectionCall

abbrev ConnectionStep := PoolStep ConnectionRequest ConnectionOutcome Empty

def connectionStep (provider : ConnectableProvider) : ConnectionPool → ConnectionStep → ConnectionPool :=
  poolStep (ConnectionRequest.begin provider) (ConnectionCall.advance provider) fun e _ => e.elim

/-- The connection as `upsert_provider_connection` inserts it. -/
def connected (settings deployments : Dict String String) (secret : String) : ConnectionPool where
  shared := {
    row := {
      config := ConnectionDb.commitConfig settings deployments 0
      credentialLast4 := ConnectionDb.right4 secret
      spendCredentialLast4 := none
      status := .unchecked
      statusDetail := none
      statusCheckedAt := none
      statusSource := none
      statusMadeWith := none }
    vault := ⟨secret, none⟩
    commits := 1 }
  procs := []

end Experiential.Providers
