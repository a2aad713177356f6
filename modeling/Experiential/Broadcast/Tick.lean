import Experiential.Broadcast.Destinations

/-! # A tick

`run_broadcast`, call by call: it reads a batch of the queue, and for each organization of the
batch reads its destinations, claims its rows, and delivers what the claim returned to each
destination in turn; a delivery that raises one of the handled exceptions releases the claim.
The tick also keeps what it has done: the connections it has read, the rows its claims stamped
with the consent each had, the posts it has made, the deliveries that returned, and the
organizations whose delivery raised. -/

namespace Experiential.Broadcast

/-- `DESTINATION_KINDS`. -/
def destinationKinds : List ConnectionKind := [.braintrust, .langfuse, .langsmith, .phoenix, .posthog]

def batchLimit : Nat := 100

structure EnabledDestination where
  kind : ConnectionKind
  connection : TraceConnection
  config : BroadcastConfig
deriving DecidableEq

structure BroadcastSummary where
  broadcast : Nat
  skippedNoDestination : Nat
  failed : Nat
deriving DecidableEq

/-- The next call of a tick. -/
inductive TickPhase where
  | fetch
  | connections (kinds : List ConnectionKind) (enabled : List EnabledDestination)
  | claim (enabled : List EnabledDestination)
  | release (enabled : List EnabledDestination)
  | post (enabled : List EnabledDestination) (posts : List Post)
  | unclaim
  | finished (summary : BroadcastSummary)
  | escaped (e : Raised)
deriving DecidableEq

/-- A row that a claim stamped, and the consent of its organization at that moment. -/
structure Stamp where
  requestId : String
  orgId : String
  consent : Bool
deriving DecidableEq

/-- A post to a connection, as it was made. -/
structure Sent where
  connection : TraceConnection
  post : Post
deriving DecidableEq

/-- What a tick has done. -/
structure TickLog where
  reads : List TraceConnection := []
  stamps : List Stamp := []
  sent : List Sent := []
  delivered : List (ConnectionKind × String) := []
  failures : List String := []
  expired : Bool := false
deriving DecidableEq

structure Tick where
  phase : TickPhase
  broadcast : Nat := 0
  skipped : Nat := 0
  failed : Nat := 0
  failedOrgs : List String := []
  /-- The length of the batch, and what is left of it: the first organization is the one the tick
  is at. -/
  fetched : Nat := 0
  todo : List (String × List CaptureExportRow) := []
  progressed : Nat := 0
  newlyFailed : Bool := false
  claimedIds : List String := []
  log : TickLog := {}
deriving DecidableEq

/-- What a call gives back. -/
structure Returned where
  now : Int := 0
  /-- The budget is over, at the head of the loop. -/
  expired : Bool := false
  credential : String := ""
  status : Nat := 200
  /-- The `id` of a resolved project, when there is one. -/
  projectId : Option String := none
deriving DecidableEq

/-- A call returns; or it raises, and a call of the database may have taken effect before. -/
inductive CallResult where
  | returns (r : Returned)
  | raises (e : Raised) (applied : Bool)
deriving DecidableEq

/-- The batch by organization, in the order of each one's first row. -/
def byOrg (rows : List CaptureExportRow) : List (String × List CaptureExportRow) :=
  (rows.map (·.orgId)).eraseDups.map fun orgId => (orgId, rows.filter fun row => decide (row.orgId = orgId))

/-- `_enabled_destinations`, one kind further. -/
def enabledWith (kind : ConnectionKind) (found : Option TraceConnection) (enabled : List EnabledDestination) :
    List EnabledDestination :=
  match found with
  | none => enabled
  | some c =>
      let config := BroadcastConfig.fromConnectionConfig c.config
      if config.enabled then enabled ++ [⟨kind, c, config⟩] else enabled

/-- `_enabled_destinations`. -/
def enabledDestinations (db : Tables) (orgId : String) : List EnabledDestination :=
  destinationKinds.foldl (fun enabled kind => enabledWith kind (findConnection db orgId kind) enabled) []

namespace Tick
variable (t : Tick)

def start : Tick := { phase := .fetch }

def goto (phase : TickPhase) : Tick := { t with phase := phase }

def orgId : String := (t.todo.head?.map (·.1)).getD ""

def orgRows : List CaptureExportRow := (t.todo.head?.map (·.2)).getD []

/-- The rows that the claim returned. -/
def shipRows : List CaptureExportRow := t.orgRows.filter fun row => decide (row.requestId ∈ t.claimedIds)

def summary : BroadcastSummary := ⟨t.broadcast, t.skipped, t.failed⟩

/-- The loop's next step: the next organization, the next batch, or the end. -/
def next : Tick :=
  match t.todo.tail with
  | org :: rest => { t with todo := org :: rest, claimedIds := [], phase := .connections destinationKinds [] }
  | [] =>
      let t : Tick := { t with todo := [], claimedIds := [] }
      if t.fetched < batchLimit ∨ (t.progressed = 0 ∧ t.newlyFailed = false) then t.goto (.finished t.summary)
      else t.goto .fetch

/-- A batch has come. -/
def batched (rows : List CaptureExportRow) : Tick :=
  match byOrg rows with
  | [] => t.goto (.finished t.summary)
  | todo =>
      { t with
        fetched := rows.length
        todo := todo
        progressed := 0
        newlyFailed := false
        phase := .connections destinationKinds [] }

/-- A connection has been read. -/
def connected (kind : ConnectionKind) (kinds : List ConnectionKind) (enabled : List EnabledDestination)
    (found : Option TraceConnection) : Tick :=
  { t with
    log.reads := t.log.reads ++ found.toList
    phase := if kinds.isEmpty then .claim (enabledWith kind found enabled)
      else .connections kinds (enabledWith kind found enabled) }

/-- The claim has returned. -/
def claimed (db : Tables) (enabled : List EnabledDestination) (ids : List String) : Tick :=
  let t : Tick := { t with
    log.stamps := t.log.stamps ++ (db.captured.filter (db.claims (t.orgRows.map (·.requestId)))).map fun p =>
      ⟨p.requestId, p.orgId, db.consents p.orgId⟩ }
  if enabled.isEmpty then
    { t with skipped := t.skipped + ids.length, progressed := t.progressed + ids.length }.next
  else if ids.isEmpty then t.next
  else { t with claimedIds := ids, phase := .release enabled }

/-- Every destination has the batch. -/
def shipped : Tick :=
  { t with
    broadcast := t.broadcast + t.claimedIds.length
    progressed := t.progressed + t.claimedIds.length }.next

/-- A delivery has returned. -/
def delivered (d : EnabledDestination) (enabled : List EnabledDestination) : Tick :=
  let t : Tick := { t with log.delivered := t.log.delivered ++ t.shipRows.map fun row => (d.kind, row.requestId) }
  if enabled.isEmpty then t.shipped else t.goto (.release enabled)

/-- A release, a construction or a delivery has raised. -/
def raised (e : Raised) : Tick :=
  { t with
    log.failures := t.orgId :: t.log.failures
    phase := if e.handled then .unclaim else .escaped e }

/-- The claim is released. -/
def unclaimed : Tick :=
  { t with
    failed := t.failed + t.shipRows.length
    failedOrgs := t.orgId :: t.failedOrgs
    newlyFailed := true }.next

/-- The credential is there: the adapter, and its first post. -/
def released (d : EnabledDestination) (enabled : List EnabledDestination) (credential : String) : Tick :=
  match deliveryPosts d.kind credential d.connection.config d.config t.shipRows (!d.config.privacyMode) with
  | .error e => t.raised e
  | .ok [] => t.delivered d enabled
  | .ok posts => t.goto (.post (d :: enabled) posts)

/-- A post has been answered. -/
def answered (d : EnabledDestination) (enabled : List EnabledDestination) (p : Post) (posts : List Post)
    (r : Returned) : Tick :=
  let t : Tick := { t with log.sent := t.log.sent ++ [⟨d.connection, p⟩] }
  if p.target.accepts r.status = false then t.raised .httpError
  else match p.target, r.projectId.getD "" with
    | .project _, "" => t.raised .runtimeError
    | _, projectId =>
        match posts.map (Post.withProject projectId) with
        | [] => t.delivered d enabled
        | posts => t.goto (.post (d :: enabled) posts)

/-- The tick's next call returns. -/
def succeed (r : Returned) (db : Tables) : Tables × Tick :=
  match t.phase with
  | .fetch =>
      if r.expired then (db, { t with log.expired := true, phase := .finished t.summary })
      else (db, t.batched (gatewayCapturedPromptsToExport db (some batchLimit) t.failedOrgs))
  | .connections [] enabled => (db, t.goto (.claim enabled))
  | .connections (kind :: kinds) enabled =>
      (db, t.connected kind kinds enabled (findConnection db t.orgId kind))
  | .claim enabled =>
      ((gatewayCapturedPromptsMarkExported db (t.orgRows.map (·.requestId)) r.now).1,
        t.claimed db enabled (gatewayCapturedPromptsMarkExported db (t.orgRows.map (·.requestId)) r.now).2)
  | .release [] => (db, t.shipped)
  | .release (d :: enabled) => (db, t.released d enabled r.credential)
  | .post (d :: enabled) (p :: posts) => (db, t.answered d enabled p posts r)
  | .unclaim => (gatewayCapturedPromptsUnmarkExported db t.claimedIds, t.unclaimed)
  | _ => (db, t)

/-- The tick's next call raises. -/
def fail (e : Raised) (applied : Bool) (db : Tables) : Tables × Tick :=
  match t.phase with
  | .fetch => (db, t.goto (.escaped e))
  | .connections _ _ => (db, t.goto (.escaped e))
  | .claim _ =>
      (if applied then (gatewayCapturedPromptsMarkExported db (t.orgRows.map (·.requestId)) 0).1 else db,
        t.goto (.escaped e))
  | .release _ => (db, t.raised e)
  | .post (d :: _) (p :: _) =>
      -- what was sent may have arrived
      (db, ({ t with log.sent := t.log.sent ++ [⟨d.connection, p⟩] } : Tick).raised e)
  | .unclaim =>
      (if applied then gatewayCapturedPromptsUnmarkExported db t.claimedIds else db, t.goto (.escaped e))
  | _ => (db, t)

def advance (i : CallResult) (db : Tables) (t : Tick) : Tables × Tick :=
  match i with
  | .returns r => t.succeed r db
  | .raises e applied => t.fail e applied db

/-- The rows a tick holds: those its claim has stamped and its delivery or release has not left. -/
def held : List String :=
  match t.phase with
  | .release _ => t.claimedIds
  | .post _ _ => t.claimedIds
  | .unclaim => t.claimedIds
  | _ => []

end Tick

end Experiential.Broadcast
