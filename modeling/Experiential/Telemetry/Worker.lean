import Experiential.Telemetry.Calls

/-! # The projection worker and its ClickHouse table

Each claim a worker holds is an actor with a stage: `ProjectionActor` follows `_project` and the
acknowledgement after it, `ErasureActor` follows one job of `_run_deletions`. Every remote call may be
lost, or be carried out without an answer. `World` puts the actors beside the database and the
stored rows; `worldStep` takes one step of one of them, or one call of the service. -/

namespace Experiential.Telemetry

open Gateway

/-! ### Remote calls -/

/-- What became of a remote call. -/
inductive Outcome where
  /-- It was not carried out. -/
  | lost (error : String)
  /-- It was carried out, but the caller sees an error. -/
  | unanswered (error : String)
  | answered
deriving DecidableEq

/-- The call was carried out. -/
def Outcome.happened : Outcome → Bool
  | .lost _ => false
  | .unanswered _ => true
  | .answered => true

/-- The answer the caller sees. -/
def Outcome.answer {α : Type} (o : Outcome) (a : Except String α) : Except String α :=
  match o with
  | .lost error => .error error
  | .unanswered error => .error error
  | .answered => a

/-! ### Actors -/

/-- What `verify_stored_trace_object` returns. -/
structure VerifiedObject where
  sha256 : String
  byteSize : Int
  traceCount : Int
deriving DecidableEq

/-- How it fails: a `TelemetryTraceObjectError` is terminal, any other error is retried. -/
inductive VerifyError where
  | object (code message : String)
  | other (error : String)
deriving DecidableEq

/-- The pure steps of a projection. -/
structure Pipeline (Content Payload : Type) where
  verify : ProjectionClaim → Option Content → Except VerifyError VerifiedObject
  normalize : ProjectionClaim → VerifiedObject → Option Content → Except String (List Payload)
  batches : List Payload → List (List Payload)

inductive ProjectionStage (Content Payload : Type) where
  | claimed
  | downloaded (content : Option Content)
  | recording (content : Option Content) (verified : VerifiedObject)
  | normalizing (content : Option Content) (verified : VerifiedObject)
  | inserting (rows : Nat) (batches : List (List Payload))
  | acknowledging (rows : Nat)
  /-- An error is about to release the claim. -/
  | raised (error : String)
  /-- A terminal error is about to be recorded. -/
  | failing (code message : String)
  /-- The stored object is about to be removed. -/
  | removing
deriving DecidableEq

structure ProjectionActor (Content Payload : Type) where
  claim : ProjectionClaim
  stage : ProjectionStage Content Payload
deriving DecidableEq

inductive ErasureStage where
  | claimed
  | erased
  | raised (error : String)
deriving DecidableEq

structure ErasureActor where
  claim : DeletionClaim
  stage : ErasureStage
deriving DecidableEq

/-- A row of the ClickHouse table. -/
structure TraceRow (Payload : Type) where
  orgId : Nat
  ingestId : Nat
  projectionVersion : Int
  payload : Payload
deriving DecidableEq

structure World (Content Payload : Type) where
  db : TraceDb
  stored : List (TraceRow Payload)
  projecting : List (ProjectionActor Content Payload)
  erasing : List ErasureActor

variable {Content Payload : Type}

namespace World

/-- Nothing has happened yet. -/
def empty : World Content Payload := ⟨.empty, [], [], []⟩

/-- Run a queue function remotely. -/
def call (w : World Content Payload) (o : Outcome) (c : QueueCall) : World Content Payload × Except String Reply :=
  (if o.happened then { w with db := queueStep w.db c } else w,
    o.answer (match queueExecute w.db c with
      | .ok r => .ok r.2
      | .error _ => .error "APIError"))

/-- The actor of the claim goes on to this stage. -/
def goOn (w : World Content Payload) (c : ProjectionClaim) (stage : ProjectionStage Content Payload) :
    World Content Payload :=
  { w with projecting := w.projecting.map (fun a => if a.claim = c then ⟨c, stage⟩ else a) }

/-- The actor of the claim is finished, or gone. -/
def finish (w : World Content Payload) (c : ProjectionClaim) : World Content Payload :=
  { w with projecting := w.projecting.filter (fun a => !decide (a.claim = c)) }

def goOnErasing (w : World Content Payload) (c : DeletionClaim) (stage : ErasureStage) : World Content Payload :=
  { w with erasing := w.erasing.map (fun a => if a.claim = c then ⟨c, stage⟩ else a) }

def finishErasing (w : World Content Payload) (c : DeletionClaim) : World Content Payload :=
  { w with erasing := w.erasing.filter (fun a => !decide (a.claim = c)) }

/-- Something refers to the ingest. -/
def known (w : World Content Payload) (id : Nat) : Bool :=
  (w.db.ingests.find? id).isSome || (w.db.deletions.find? id).isSome ||
    w.stored.any (fun r => decide (r.ingestId = id)) ||
    w.projecting.any (fun a => decide (a.claim.ingestId = id)) ||
    w.erasing.any (fun a => decide (a.claim.ingestId = id))

end World

/-- The row a worker stores. -/
def ProjectionClaim.row (c : ProjectionClaim) (payload : Payload) : TraceRow Payload :=
  ⟨c.orgId, c.ingestId, c.projectionVersion, payload⟩

/-! ### Steps -/

/-- What a projection worker does next, with what it is answered. -/
inductive ProjectionInput (Content : Type) where
  | download (answer : Except String (Option Content))
  | verify
  | record (o : Outcome) (now : Int)
  | normalize
  | insert (o : Outcome)
  | count (answer : Except String Nat)
  | ack (o : Outcome) (now : Int)
  | nack (o : Outcome) (now : Int)
  /-- `removed`: the stored object could be removed. -/
  | fail (o : Outcome) (removed : Bool) (now : Int)
  | clear (o : Outcome) (now : Int)
  | crash

inductive ErasureInput where
  | erase (o : Outcome)
  | ack (o : Outcome)
  | nack (o : Outcome) (now : Int)
  | crash
deriving DecidableEq

/-- One step anywhere; the settings of the worker are in the claims. -/
inductive WorldEvent (Content : Type) where
  /-- A call of the service or of the clean-up of abandoned uploads. -/
  | service (c : QueueCall)
  | claim (p : ClaimArgs) (o : Outcome) (now : Int)
  | project (token : Nat) (retrySeconds : Int) (input : ProjectionInput Content)
  | claimDeletion (p : ClaimArgs) (o : Outcome) (now : Int)
  | erase (token : Nat) (retrySeconds : Int) (input : ErasureInput)

/-- The calls that need no claim. -/
def QueueCall.isService : QueueCall → Bool
  | .create _ _ => true
  | .complete _ _ => true
  | .accept _ _ => true
  | .backfill _ _ _ => true
  | .claimAbandoned _ _ _ _ => true
  | .ackAbandoned _ _ _ => true
  | .delete _ _ => true
  | _ => false

/-- A fresh id is one that nothing refers to. -/
def World.drawsFresh (w : World Content Payload) : QueueCall → Bool
  | .create p _ => !w.known p.ingestId
  | _ => true

/-- The next step of a projection. -/
def projectionStep (P : Pipeline Content Payload) (w : World Content Payload)
    (a : ProjectionActor Content Payload) (retrySeconds : Int) (input : ProjectionInput Content) :
    World Content Payload :=
  let c := a.claim
  let token := c.claimToken
  match a.stage, input with
  | .claimed, .download answer =>
      if coalesce c.resultPath "" = "" then
        w.goOn c (.failing "object_missing" "Projection job is missing its reserved object path")
      else match answer with
        | .ok content => w.goOn c (.downloaded content)
        | .error error => w.goOn c (.raised error)
  | .downloaded content, .verify =>
      match P.verify c content with
      | .ok verified =>
          if c.objectSha256 = none then w.goOn c (.recording content verified)
          else w.goOn c (.normalizing content verified)
      | .error (.object code message) => w.goOn c (.failing code message)
      | .error (.other error) => w.goOn c (.raised error)
  | .recording content verified, .record o now =>
      match w.call o (.record c.ingestId token ⟨verified.sha256, verified.byteSize, verified.traceCount⟩ now) with
      | (w', .ok _) => w'.goOn c (.normalizing content verified)
      | (w', .error error) => w'.goOn c (.raised error)
  | .normalizing content verified, .normalize =>
      match P.normalize c verified content with
      | .ok rows => w.goOn c (.inserting rows.length (P.batches rows))
      | .error error => w.goOn c (.raised error)
  | .inserting rows (batch :: batches), .insert o =>
      let w' := if o.happened then { w with stored := w.stored ++ batch.map c.row } else w
      match o.answer (.ok ()) with
      | .ok _ => w'.goOn c (.inserting rows batches)
      | .error error => w'.goOn c (.raised error)
  | .inserting rows [], .count answer =>
      match answer with
      | .ok n => if n = rows then w.goOn c (.acknowledging rows) else w.goOn c (.raised "RuntimeError")
      | .error error => w.goOn c (.raised error)
  | .acknowledging rows, .ack o now =>
      match w.call o (.ack c.ingestId token rows now) with
      | (w', .ok (.flag true)) => w'.finish c
      | (w', .ok _) => w'.goOn c (.raised "RuntimeError")
      | (w', .error error) => w'.goOn c (.raised error)
  | .raised error, .nack o now =>
      (w.call o (.nack c.ingestId token (some retrySeconds) (some (left error 128)) now)).1.finish c
  | .failing code message, .fail o removed now =>
      match w.call o (.fail c.ingestId token (some code) (some message) now) with
      | (w', .ok (.flag true)) =>
          if coalesce c.resultPath "" ≠ "" ∧ removed = true then w'.goOn c .removing else w'.finish c
      | (w', _) => w'.finish c
  | .removing, .clear o now => (w.call o (.ackAbandoned c.ingestId false now)).1.finish c
  | _, .crash => w.finish c
  | _, _ => w

/-- The next step of an erasure. -/
def erasureStep (w : World Content Payload) (a : ErasureActor) (retrySeconds : Int) (input : ErasureInput) :
    World Content Payload :=
  let c := a.claim
  let token := c.claimToken
  match a.stage, input with
  | .claimed, .erase o =>
      let w' := if o.happened then { w with
          stored := w.stored.filter (fun r => !decide (r.orgId = c.orgId ∧ r.ingestId = c.ingestId)) } else w
      match o.answer (.ok ()) with
      | .ok _ => w'.goOnErasing c .erased
      | .error error => w'.goOnErasing c (.raised error)
  | .erased, .ack o =>
      match w.call o (.ackDeletion c.ingestId token) with
      | (w', .ok (.flag true)) => w'.finishErasing c
      | (w', .ok _) => w'.goOnErasing c (.raised "RuntimeError")
      | (w', .error error) => w'.goOnErasing c (.raised error)
  | .raised error, .nack o now =>
      (w.call o (.nackDeletion c.ingestId token (some retrySeconds) (some (left error 128)) now)).1.finishErasing c
  | _, .crash => w.finishErasing c
  | _, _ => w

/-- The actors of the claims a worker was answered. -/
def World.spawn (w : World Content Payload) : Except String Reply → World Content Payload
  | .ok (.claims claims) =>
      { w with projecting := claims.map (fun c => ⟨c, .claimed⟩) ++ w.projecting }
  | .ok (.deletions claims) => { w with erasing := claims.map (fun c => ⟨c, .claimed⟩) ++ w.erasing }
  | _ => w

/-- One step of the system; drawn ids and tokens are not in use. -/
def worldStep (P : Pipeline Content Payload) (w : World Content Payload) :
    WorldEvent Content → World Content Payload
  | .service c => if c.isService && w.drawsFresh c then { w with db := queueStep w.db c } else w
  | .claim p o now =>
      if w.projecting.any (fun a => decide (a.claim.claimToken ∈ p.tokens)) then w
      else
        let r := w.call o (.claim p now)
        r.1.spawn r.2
  | .project token retrySeconds input =>
      match w.projecting.find? (fun a => decide (a.claim.claimToken = token)) with
      | some a => projectionStep P w a retrySeconds input
      | none => w
  | .claimDeletion p o now =>
      if w.erasing.any (fun a => decide (a.claim.claimToken ∈ p.tokens)) then w
      else
        let r := w.call o (.claimDeletion p now)
        r.1.spawn r.2
  | .erase token retrySeconds input =>
      match w.erasing.find? (fun a => decide (a.claim.claimToken = token)) with
      | some a => erasureStep w a retrySeconds input
      | none => w

end Experiential.Telemetry
