import Experiential.Gateway.Database

/-! # The trace projection queue

One row of `trace_ingests` is the receipt of one trace object; a row of
`trace_clickhouse_projections` is the job that copies it into ClickHouse, and a row of
`trace_clickhouse_deletions` the job that erases it there. Workers hold a job under a claim token.
`TraceDb` keeps the foreign key of the projections; the writes below are the only ways the model
changes a table, and `view` is what they do to the three rows of one ingest.

The functions over the queue: `completeIngest` and `acceptIngest` enqueue the projection of an
ingest, `claimProjection` grants eligible jobs under fresh tokens, `ackProjection`, `nackProjection`,
`recordObject` and `failIngest` are for the holder of a claim, `enqueueBackfill` and the functions
on abandoned uploads work from the receipts alone. Deleting an ingest leaves a row in the deletion
outbox, whose claims are taken the same way. -/

namespace Experiential.Telemetry

open Gateway

/-! ### Texts -/

/-- `btrim(s)`. -/
def btrim (s : String) : String :=
  String.ofList (((s.toList.dropWhile (· = ' ')).reverse.dropWhile (· = ' ')).reverse)

/-- `nullif(btrim(s), '')`. -/
def nonBlank (s : String) : Option String := if btrim s = "" then none else some (btrim s)

/-- `left(s, n)`. -/
def left (s : String) (n : Nat) : String := String.ofList (s.toList.take n)

/-- `lower(btrim(s))`; only ASCII letters matter to the digest check. -/
def lowerTrim (s : String) : String := String.ofList ((btrim s).toList.map Char.toLower)

/-- `s ~ '^[0-9a-f]{64}$'`. -/
def isSha256 (s : String) : Bool :=
  decide (s.toList.length = 64) && s.toList.all (fun c => c.isDigit || decide ('a' ≤ c ∧ c ≤ 'f'))

/-- `[[:cntrl:]]`. -/
def isCntrl (c : Char) : Bool := decide (c.toNat < 32) || decide (127 ≤ c.toNat ∧ c.toNat < 160)

/-- The texts the claim functions take as a worker id. -/
def validWorkerId (s : String) : Bool :=
  decide (1 ≤ s.toList.length ∧ s.toList.length ≤ 128) && !s.toList.any isCntrl

/-- `least(greatest(coalesce(o, d), lo), hi)`. -/
def clamp (o : Option Int) (d lo hi : Int) : Int := min (max (coalesce o d) lo) hi

/-! ### Rows -/

/-- The states of an ingest, and of its projection. -/
inductive IngestStatus where
  | pending
  | running
  | done
  | error
deriving DecidableEq

/-- A row of `trace_ingests`; `source` is a document, kept as its text. -/
structure TraceIngest where
  id : Nat
  orgId : Nat
  worldModelId : Option Nat
  source : String
  status : IngestStatus
  uploadPath : Option String
  resultPath : Option String
  traceUploadId : Option Nat
  traceCount : Option Int
  stepCount : Option Int
  errorMessage : Option String
  errorCode : Option String
  objectSha256 : Option String
  byteSize : Option Int
  traceProjectionStatus : Option IngestStatus
  traceProjectionVersion : Option Int
  traceProjectedRows : Option Int
  traceProjectedAt : Option Int
  traceProjectionErrorCode : Option String
  createdAt : Int
  updatedAt : Int
deriving DecidableEq

def TraceIngest.Check (i : TraceIngest) : Prop :=
  (∀ s ∈ i.objectSha256, isSha256 s = true) ∧ (∀ n ∈ i.byteSize, 0 < n) ∧
    (∀ v ∈ i.traceProjectionVersion, 0 < v) ∧ NullOrNonneg i.traceProjectedRows

instance : DecidablePred TraceIngest.Check := fun i =>
  inferInstanceAs (Decidable ((∀ s ∈ i.objectSha256, isSha256 s = true) ∧ (∀ n ∈ i.byteSize, 0 < n) ∧
    (∀ v ∈ i.traceProjectionVersion, 0 < v) ∧ NullOrNonneg i.traceProjectedRows))

/-- The claim columns of a job are set exactly while it is running. -/
inductive QueueState where
  | pending
  | running (claimedBy : String) (claimToken : Nat) (claimedUntil : Int)
deriving DecidableEq

/-- The token a job is claimed under. -/
def QueueState.claimToken : QueueState → Option Nat
  | .pending => none
  | .running _ token _ => some token

/-- A row of `trace_clickhouse_projections`. -/
structure ProjectionJob where
  ingestId : Nat
  orgId : Nat
  projectionVersion : Int
  state : QueueState
  attempts : Int
  availableAt : Int
  lastErrorCode : Option String
  createdAt : Int
  updatedAt : Int
deriving DecidableEq

def ProjectionJob.Check (q : ProjectionJob) : Prop := 0 < q.projectionVersion ∧ 0 ≤ q.attempts

instance : DecidablePred ProjectionJob.Check := fun _ => inferInstanceAs (Decidable (_ ∧ _))

/-- A row of `trace_clickhouse_deletions`. -/
structure DeletionJob where
  ingestId : Nat
  orgId : Nat
  state : QueueState
  attempts : Int
  availableAt : Int
  lastErrorCode : Option String
  createdAt : Int
  updatedAt : Int
deriving DecidableEq

def DeletionJob.Check (q : DeletionJob) : Prop := 0 ≤ q.attempts

instance : DecidablePred DeletionJob.Check := fun q => inferInstanceAs (Decidable (0 ≤ q.attempts))

/-- A job is claimed while it is available, or after its lease. -/
def QueueState.claimable (s : QueueState) (availableAt now : Int) : Bool :=
  match s with
  | .pending => decide (availableAt ≤ now)
  | .running _ _ claimedUntil => decide (claimedUntil ≤ now)

abbrev Ingests := Table TraceIngest.id TraceIngest.Check
abbrev Projections := Table ProjectionJob.ingestId ProjectionJob.Check
abbrev Deletions := Table DeletionJob.ingestId DeletionJob.Check

structure TraceDb where
  ingests : Ingests
  projections : Projections
  deletions : Deletions
  /-- Every projection references its ingest. -/
  projections_ingest : ∀ q ∈ projections, ∃ i ∈ ingests, i.id = q.ingestId

namespace TraceDb

/-- The database without rows. -/
def empty : TraceDb := ⟨.empty, .empty, .empty, by simp⟩

theorem ingest_of_job (db : TraceDb) {q : ProjectionJob} {id : Nat}
    (h : db.projections.find? id = some q) : ∃ i, db.ingests.find? id = some i := by
  obtain ⟨hq, rfl⟩ := Table.find?_eq_some.mp h
  obtain ⟨i, hi, he⟩ := db.projections_ingest q hq
  exact ⟨i, he ▸ Table.find?_key hi⟩

theorem job_none_of_ingest_none (db : TraceDb) {id : Nat} (h : db.ingests.find? id = none) :
    db.projections.find? id = none := by
  cases hq : db.projections.find? id with
  | none => rfl
  | some q =>
      obtain ⟨i, hi⟩ := db.ingest_of_job hq
      rw [h] at hi
      cases hi

/-! ### Writes -/

/-- Insert an ingest. -/
def insertIngest (db : TraceDb) (i : TraceIngest) : Raises TraceDb :=
  match h : db.ingests.insert i with
  | .ok t => .ok { db with
      ingests := t
      projections_ingest := fun q hq => by
        obtain ⟨j, hj, he⟩ := db.projections_ingest q hq
        exact ⟨j, (Table.mem_insert h).mpr (.inr hj), he⟩ }
  | .error v => .error (ofViolation v)

/-- Rewrite the ingests satisfying `p`. -/
def updateIngests (db : TraceDb) (p : TraceIngest → Bool) (f : TraceIngest → TraceIngest)
    (hf : ∀ i, (f i).id = i.id) : Raises TraceDb :=
  match h : db.ingests.update p f hf with
  | .ok t => .ok { db with
      ingests := t
      projections_ingest := fun q hq => by
        obtain ⟨i, hi, he⟩ := db.projections_ingest q hq
        refine ⟨_, (Table.mem_update h).mpr ⟨i, hi, rfl⟩, ?_⟩
        rw [← he]
        split_ifs
        · exact hf i
        · rfl }
  | .error v => .error (ofViolation v)

/-- Insert a projection job; its ingest must exist. -/
def insertJob (db : TraceDb) (q : ProjectionJob) : Raises TraceDb :=
  match hi : db.ingests.find? q.ingestId with
  | none => .error foreignKeyViolation
  | some i =>
      match h : db.projections.insert q with
      | .ok t => .ok { db with
          projections := t
          projections_ingest := fun q' hq' => by
            cases (Table.mem_insert h).mp hq' with
            | inl he => exact ⟨i, (Table.find?_eq_some.mp hi).1, he ▸ (Table.find?_eq_some.mp hi).2⟩
            | inr hq' => exact db.projections_ingest q' hq' }
      | .error v => .error (ofViolation v)

/-- Rewrite the projection jobs satisfying `p`. -/
def updateJobs (db : TraceDb) (p : ProjectionJob → Bool) (f : ProjectionJob → ProjectionJob)
    (hf : ∀ q, (f q).ingestId = q.ingestId) : Raises TraceDb :=
  match h : db.projections.update p f hf with
  | .ok t => .ok { db with
      projections := t
      projections_ingest := fun q hq => by
        obtain ⟨q', hq', he, -⟩ := Table.exists_of_mem_update h hq
        obtain ⟨i, hi, hid⟩ := db.projections_ingest q' hq'
        exact ⟨i, hi, hid.trans he⟩ }
  | .error v => .error (ofViolation v)

/-- Remove the projection jobs satisfying `p`. -/
def deleteJobs (db : TraceDb) (p : ProjectionJob → Bool) : TraceDb :=
  { db with
    projections := db.projections.delete p
    projections_ingest := fun q hq => db.projections_ingest q (Table.mem_delete.mp hq).1 }

/-- Remove an ingest; the foreign key removes its job. -/
def removeIngest (db : TraceDb) (id : Nat) : TraceDb :=
  { db with
    ingests := db.ingests.delete (fun i => decide (i.id = id))
    projections := db.projections.delete (fun q => decide (q.ingestId = id))
    projections_ingest := fun q hq => by
      obtain ⟨hq, hne⟩ := Table.mem_delete.mp hq
      obtain ⟨i, hi, he⟩ := db.projections_ingest q hq
      refine ⟨i, Table.mem_delete.mpr ⟨hi, ?_⟩, he⟩
      rw [he]
      exact hne }

end TraceDb

/-! ### What one ingest sees of a write -/

/-- The three rows of one ingest. -/
structure View where
  ingest : Option TraceIngest
  job : Option ProjectionJob
  deletion : Option DeletionJob
deriving DecidableEq

namespace TraceDb

def view (db : TraceDb) (id : Nat) : View :=
  ⟨db.ingests.find? id, db.projections.find? id, db.deletions.find? id⟩

@[simp] theorem view_ingest (db : TraceDb) (id : Nat) : (db.view id).ingest = db.ingests.find? id := rfl

@[simp] theorem view_job (db : TraceDb) (id : Nat) : (db.view id).job = db.projections.find? id := rfl

theorem deletions_view (db : TraceDb) (t : Deletions) (id : Nat) :
    ({ db with deletions := t } : TraceDb).view id = { db.view id with deletion := t.find? id } := rfl

variable {db db' : TraceDb}

theorem insertIngest_view {i : TraceIngest} (h : db.insertIngest i = .ok db') :
    db.ingests.find? i.id = none ∧ ∀ id, db'.view id =
      if i.id = id then { db.view id with ingest := some i } else db.view id := by
  unfold insertIngest at h
  split at h
  · rename_i t ht
    cases h
    refine ⟨Table.find?_eq_none.mpr (Table.insert_eq_ok ht).1, fun id => ?_⟩
    rw [view, Table.find?_insert ht id]
    split_ifs <;> rfl
  · cases h

theorem updateIngests_view {p : TraceIngest → Bool} {f : TraceIngest → TraceIngest}
    {hf : ∀ i, (f i).id = i.id} (h : db.updateIngests p f hf = .ok db') (id : Nat) :
    db'.view id =
      { db.view id with ingest := (db.view id).ingest.map (fun i => if p i then f i else i) } := by
  unfold updateIngests at h
  split at h
  · rename_i t ht
    cases h
    rw [view, Table.find?_update ht id]
    rfl
  · cases h

theorem updateIngest_view {k : Nat} {f : TraceIngest → TraceIngest}
    {hf : ∀ i, (f i).id = i.id} (h : db.updateIngests (fun i => decide (i.id = k)) f hf = .ok db')
    (id : Nat) : db'.view id =
      if id = k then { db.view id with ingest := (db.view id).ingest.map f } else db.view id := by
  unfold updateIngests at h
  split at h
  · rename_i t ht
    cases h
    rw [view, Table.find?_update_key ht id]
    split_ifs <;> rfl
  · cases h

theorem insertJob_view {q : ProjectionJob} (h : db.insertJob q = .ok db') :
    db.projections.find? q.ingestId = none ∧ ∀ id, db'.view id =
      if q.ingestId = id then { db.view id with job := some q } else db.view id := by
  unfold insertJob at h
  split at h
  · cases h
  · split at h
    · rename_i t ht
      cases h
      refine ⟨Table.find?_eq_none.mpr (Table.insert_eq_ok ht).1, fun id => ?_⟩
      rw [view, Table.find?_insert ht id]
      split_ifs <;> rfl
    · cases h

theorem updateJobs_view {p : ProjectionJob → Bool} {f : ProjectionJob → ProjectionJob}
    {hf : ∀ q, (f q).ingestId = q.ingestId} (h : db.updateJobs p f hf = .ok db') (id : Nat) :
    db'.view id =
      { db.view id with job := (db.view id).job.map (fun q => if p q then f q else q) } := by
  unfold updateJobs at h
  split at h
  · rename_i t ht
    cases h
    rw [view, Table.find?_update ht id]
    rfl
  · cases h

theorem updateJob_view {k : Nat} {f : ProjectionJob → ProjectionJob} {hf : ∀ q, (f q).ingestId = q.ingestId}
    (h : db.updateJobs (fun q => decide (q.ingestId = k)) f hf = .ok db') (id : Nat) :
    db'.view id = if id = k then { db.view id with job := (db.view id).job.map f } else db.view id := by
  unfold updateJobs at h
  split at h
  · rename_i t ht
    cases h
    rw [view, Table.find?_update_key ht id]
    split_ifs <;> rfl
  · cases h

theorem deleteJob_view (db : TraceDb) (k id : Nat) :
    (db.deleteJobs (fun q => decide (q.ingestId = k))).view id =
      if id = k then { db.view id with job := none } else db.view id := by
  rw [view, deleteJobs, Table.find?_delete_key]
  split_ifs <;> rfl

theorem removeIngest_view (db : TraceDb) (k id : Nat) :
    (db.removeIngest k).view id =
      if id = k then { db.view id with ingest := none, job := none } else db.view id := by
  rw [view, removeIngest, Table.find?_delete_key, Table.find?_delete_key]
  split_ifs with he
  · rfl
  · rfl

end TraceDb

/-! ### Choosing rows -/

/-- `order by created_at, id for update skip locked limit cap`. -/
def firstUnlocked {ρ : Type} (createdAt : ρ → Int) (id : ρ → Nat) (eligible : ρ → Bool)
    (locked : List Nat) (cap : Int) (rows : List ρ) : List ρ :=
  Table.firstUnlocked
    (fun r s => createdAt r < createdAt s ∨ createdAt r = createdAt s ∧ id r ≤ id s)
    eligible (fun r => decide (id r ∈ locked)) cap.toNat rows

theorem mem_firstUnlocked {ρ : Type} {createdAt : ρ → Int} {id : ρ → Nat} {eligible : ρ → Bool}
    {locked : List Nat} {cap : Int} {rows : List ρ} {r : ρ}
    (h : r ∈ firstUnlocked createdAt id eligible locked cap rows) : r ∈ rows ∧ eligible r = true :=
  Table.mem_firstUnlocked h

/-- The tokens drawn for the chosen rows, in their order. -/
def drawn (ids : List Nat) (tokens : List Nat) : List (Nat × Nat) := ids.zip tokens

/-- The token drawn for a row. -/
def tokenOf (picked : List (Nat × Nat)) (id : Nat) : Option Nat :=
  (picked.find? (fun p => decide (p.1 = id))).map Prod.snd

theorem tokenOf_drawn {ids tokens : List Nat} {id token : Nat}
    (h : tokenOf (drawn ids tokens) id = some token) : id ∈ ids ∧ token ∈ tokens := by
  obtain ⟨p, hp, rfl⟩ := Option.map_eq_some_iff.mp h
  have hid : p.1 = id := by simpa using List.find?_some hp
  have hmem := List.of_mem_zip (List.mem_of_find?_eq_some hp)
  exact ⟨hid ▸ hmem.1, hmem.2⟩

/-! ### Enqueueing -/

/-- A new job, with the defaults of its columns. -/
def newJob (ingestId orgId : Nat) (projectionVersion now : Int) : ProjectionJob where
  ingestId := ingestId
  orgId := orgId
  projectionVersion := projectionVersion
  state := .pending
  attempts := 0
  availableAt := now
  lastErrorCode := none
  createdAt := now
  updatedAt := now

structure CompleteArgs where
  ingestId : Nat
  resultPath : String
  traceCount : Int
  byteSize : Int
  objectSha256 : String
  projectionVersion : Int
deriving DecidableEq

/-- The completed receipt. -/
def CompleteArgs.complete (p : CompleteArgs) (path : String) (now : Int) (i : TraceIngest) : TraceIngest :=
  { i with
    status := .done
    resultPath := some path
    traceCount := some p.traceCount
    stepCount := some 0
    traceUploadId := none
    objectSha256 := some (lowerTrim p.objectSha256)
    byteSize := some p.byteSize
    traceProjectionStatus := some .pending
    traceProjectionVersion := some p.projectionVersion
    traceProjectedRows := none
    traceProjectedAt := none
    traceProjectionErrorCode := none
    updatedAt := now }

/-- The job enqueued again. -/
def CompleteArgs.requeue (p : CompleteArgs) (now : Int) (q : ProjectionJob) : ProjectionJob :=
  { q with
    projectionVersion := p.projectionVersion
    state := .pending
    availableAt := now
    lastErrorCode := none
    updatedAt := now }

/-- The receipts a completion under this path accepts. -/
def TraceIngest.completable (i : TraceIngest) (path : String) : Bool :=
  decide (i.worldModelId = none) && decide (i.uploadPath = some path) &&
    decide (i.status = .pending ∨ i.status = .done)

def ingestNotFound : GatewayError := raised .P0002 "router-free telemetry trace ingest not found"

/-- Insert the job, or enqueue the one there again. -/
def TraceDb.upsertJob (db : TraceDb) (p : CompleteArgs) (orgId : Nat) (now : Int) : Raises TraceDb :=
  if (db.projections.find? p.ingestId).isSome then
    db.updateJobs (fun q => decide (q.ingestId = p.ingestId)) (p.requeue now) (fun _ => rfl)
  else db.insertJob (newJob p.ingestId orgId p.projectionVersion now)

/-- `complete_telemetry_trace_ingest`. -/
def completeIngest (db : TraceDb) (p : CompleteArgs) (now : Int) : Raises (TraceDb × TraceIngest) :=
  let invalid := raised .c22023 "invalid telemetry trace completion metadata"
  do
    let path ← require (nonBlank p.resultPath) invalid
    ensure (0 ≤ p.traceCount ∧ 0 < p.byteSize ∧ isSha256 (lowerTrim p.objectSha256) = true ∧
      0 < p.projectionVersion) invalid
    let i ← require ((db.ingests.find? p.ingestId).filter (·.completable path)) ingestNotFound
    let db₁ ← db.updateIngests (fun j => decide (j.id = p.ingestId)) (p.complete path now) (fun _ => rfl)
    let db₂ ← db₁.upsertJob p i.orgId now
    return (db₂, p.complete path now i)

/-- The accepted receipt. -/
def TraceIngest.accepted (i : TraceIngest) (now : Int) : TraceIngest :=
  { i with
    status := .running
    resultPath := i.resultPath.or i.uploadPath
    traceProjectionStatus := some .pending
    traceProjectionVersion := some (coalesce i.traceProjectionVersion 1)
    traceProjectionErrorCode := none
    updatedAt := now }

/-- The receipts an acceptance enqueues. -/
def TraceIngest.awaitsProjection (i : TraceIngest) : Bool :=
  decide (i.status = .pending ∨ i.status = .running) ||
    decide (i.status = .done ∧ i.traceProjectionStatus ≠ some .done)

/-- The job of an accepted receipt: `on conflict do nothing`. -/
def TraceDb.enqueueAwaited (db : TraceDb) (i : TraceIngest) (now : Int) : Raises TraceDb :=
  if i.awaitsProjection = true ∧ db.projections.find? i.id = none then
    db.insertJob (newJob i.id i.orgId (coalesce i.traceProjectionVersion 1) now)
  else pure db

/-- `accept_telemetry_trace_ingest`. -/
def acceptIngest (db : TraceDb) (ingestId : Nat) (now : Int) : Raises (TraceDb × TraceIngest) :=
  let missingPath := raised .c22023 "telemetry trace ingest is missing its reserved object path"
  do
    let current ← require ((db.ingests.find? ingestId).filter (fun i => decide (i.worldModelId = none)))
      ingestNotFound
    ensure ((current.uploadPath.bind nonBlank).isSome = true) missingPath
    if current.status = .pending then do
      let db₁ ← db.updateIngests (fun i => decide (i.id = ingestId)) (·.accepted now) (fun _ => rfl)
      let db₂ ← db₁.enqueueAwaited (current.accepted now) now
      return (db₂, current.accepted now)
    else do
      let db₁ ← db.enqueueAwaited current now
      return (db₁, current)

/-- The receipts a backfill enqueues. -/
def TraceDb.needsBackfill (db : TraceDb) (projectionVersion : Int) (i : TraceIngest) : Bool :=
  decide (i.worldModelId = none) && decide (i.status = .done) && i.resultPath.isSome &&
    i.objectSha256.isSome && decide (db.projections.find? i.id = none) &&
    decide (i.traceProjectionStatus ≠ some .done ∨ i.traceProjectionVersion ≠ some projectionVersion)

/-- One row of the backfill: `on conflict do nothing`. -/
def backfillOne (projectionVersion now : Int) (acc : TraceDb × Int) (i : TraceIngest) : Raises (TraceDb × Int) :=
  if (acc.1.projections.find? i.id).isSome then pure acc
  else do
    let db' ← acc.1.insertJob (newJob i.id i.orgId projectionVersion now)
    return (db', acc.2 + 1)

/-- `enqueue_trace_clickhouse_backfill`. -/
def enqueueBackfill (db : TraceDb) (limit : Option Int) (projectionVersion now : Int) : Raises (TraceDb × Int) := do
  ensure (0 < projectionVersion) (raised .c22023 "invalid projection version")
  (firstUnlocked (·.createdAt) (·.id) (db.needsBackfill projectionVersion) []
    (clamp limit 1000 1 10000) db.ingests.rows).foldlM (backfillOne projectionVersion now) (db, 0)

/-! ### Claims -/

/-- The parameters of a claim, with the rows other transactions have locked and the tokens drawn. -/
structure ClaimArgs where
  workerId : Option String
  limit : Option Int
  leaseSeconds : Option Int
  locked : List Nat
  tokens : List Nat
deriving DecidableEq

/-- What a claim returns for each job. -/
structure ProjectionClaim where
  ingestId : Nat
  orgId : Nat
  resultPath : Option String
  objectSha256 : Option String
  byteSize : Option Int
  source : String
  receivedAt : Int
  projectionVersion : Int
  projectionAttempt : Int
  claimToken : Nat
deriving DecidableEq

/-- The job claimed. -/
def ProjectionJob.claim (q : ProjectionJob) (workerId : String) (token : Nat) (claimedUntil now : Int) :
    ProjectionJob :=
  { q with state := .running workerId token claimedUntil, attempts := q.attempts + 1, updatedAt := now }

/-- The job claimed if a token was drawn for it. -/
def ProjectionJob.claimWith (q : ProjectionJob) (picked : List (Nat × Nat)) (workerId : String)
    (claimedUntil now : Int) : ProjectionJob :=
  match tokenOf picked q.ingestId with
  | some token => q.claim workerId token claimedUntil now
  | none => q

theorem ProjectionJob.claimWith_ingestId (q : ProjectionJob) (picked : List (Nat × Nat)) (workerId : String)
    (claimedUntil now : Int) : (q.claimWith picked workerId claimedUntil now).ingestId = q.ingestId := by
  unfold claimWith
  split <;> rfl

/-- The ingest whose projection was claimed. -/
def TraceIngest.projecting (i : TraceIngest) (now : Int) : TraceIngest :=
  { i with traceProjectionStatus := some .running, traceProjectionErrorCode := none, updatedAt := now }

/-- The claim of a job, as returned to the worker. -/
def ProjectionJob.claimed (q : ProjectionJob) (i : TraceIngest) (token : Nat) : ProjectionClaim where
  ingestId := i.id
  orgId := i.orgId
  resultPath := i.resultPath
  objectSha256 := i.objectSha256
  byteSize := i.byteSize
  source := i.source
  receivedAt := i.createdAt
  projectionVersion := q.projectionVersion
  projectionAttempt := q.attempts
  claimToken := token

/-- The jobs a claim picks, with their tokens. -/
def TraceDb.pickProjections (db : TraceDb) (p : ClaimArgs) (now : Int) : List (Nat × Nat) :=
  drawn ((firstUnlocked (·.createdAt) (·.ingestId) (fun q => q.state.claimable q.availableAt now) p.locked
    (clamp p.limit 1 1 16) db.projections.rows).map (·.ingestId)) p.tokens

/-- `claim_trace_clickhouse_projection`. -/
def claimProjection (db : TraceDb) (p : ClaimArgs) (now : Int) : Raises (TraceDb × List ProjectionClaim) :=
  let invalid := raised .c22023 "invalid trace projection worker id"
  do
    let workerId ← require p.workerId invalid
    ensure (validWorkerId workerId = true) invalid
    let picked := db.pickProjections p now
    let db₁ ← db.updateJobs (fun q => (tokenOf picked q.ingestId).isSome)
      (fun q => q.claimWith picked workerId (now + clamp p.leaseSeconds 120 30 900 * usPerSecond) now)
      (fun q => q.claimWith_ingestId picked workerId _ now)
    let db₂ ← db₁.updateIngests (fun i => (tokenOf picked i.id).isSome) (·.projecting now) (fun _ => rfl)
    return (db₂, picked.filterMap (fun c => do
      let i ← db₂.ingests.find? c.1
      let q ← db₂.projections.find? c.1
      let token ← q.state.claimToken
      return q.claimed i token))

/-! ### The holder of a claim -/

/-- The running job of an ingest under this token. -/
def TraceDb.heldJob (db : TraceDb) (ingestId token : Nat) : Option ProjectionJob :=
  (db.projections.find? ingestId).filter (fun q => decide (q.state.claimToken = some token))

/-- The ingest after its projection is acknowledged. -/
def TraceIngest.acked (i : TraceIngest) (projectionVersion projectedRows now : Int) : TraceIngest :=
  { i with
    status := if i.worldModelId = none ∧ (i.status = .pending ∨ i.status = .running) then .done else i.status
    traceProjectionStatus := some .done
    traceProjectionVersion := some projectionVersion
    traceProjectedRows := some projectedRows
    traceProjectedAt := some now
    traceProjectionErrorCode := none
    updatedAt := now }

/-- `ack_trace_clickhouse_projection`. -/
def ackProjection (db : TraceDb) (ingestId token : Nat) (projectedRows now : Int) : Raises (TraceDb × Bool) := do
  ensure (0 ≤ projectedRows) (raised .c22023 "invalid projected row count")
  match db.heldJob ingestId token with
  | none => return (db, false)
  | some q => do
      let db₁ := db.deleteJobs (fun q => decide (q.ingestId = ingestId))
      let db₂ ← db₁.updateIngests (fun i => decide (i.id = ingestId))
        (·.acked q.projectionVersion projectedRows now) (fun _ => rfl)
      return (db₂, (db.ingests.find? ingestId).isSome)

/-- The error code a failed job is recorded under. -/
def errorCodeOr (code : Option String) (default : String) : String :=
  left (coalesce (code.bind nonBlank) default) 128

/-- The job released for a later attempt. -/
def ProjectionJob.release (q : ProjectionJob) (availableAt : Int) (error : String) (now : Int) : ProjectionJob :=
  { q with state := .pending, availableAt := availableAt, lastErrorCode := some error, updatedAt := now }

/-- The ingest whose projection failed. -/
def TraceIngest.nacked (i : TraceIngest) (error : String) (now : Int) : TraceIngest :=
  { i with traceProjectionStatus := some .error, traceProjectionErrorCode := some error, updatedAt := now }

/-- `nack_trace_clickhouse_projection`. -/
def nackProjection (db : TraceDb) (ingestId token : Nat) (retrySeconds : Option Int)
    (errorCode : Option String) (now : Int) : Raises (TraceDb × Bool) :=
  let error := errorCodeOr errorCode "projection_failed"
  match db.heldJob ingestId token with
  | none => return (db, false)
  | some _ => do
      let db₁ ← db.updateJobs (fun q => decide (q.ingestId = ingestId))
        (·.release (now + clamp retrySeconds 10 1 3600 * usPerSecond) error now) (fun _ => rfl)
      let db₂ ← db₁.updateIngests (fun i => decide (i.id = ingestId)) (·.nacked error now) (fun _ => rfl)
      return (db₂, (db.ingests.find? ingestId).isSome)

structure RecordArgs where
  objectSha256 : String
  byteSize : Int
  traceCount : Int
deriving DecidableEq

/-- The receipt with the verified object. -/
def RecordArgs.record (p : RecordArgs) (now : Int) (i : TraceIngest) : TraceIngest :=
  { i with
    objectSha256 := some (lowerTrim p.objectSha256)
    byteSize := some p.byteSize
    traceCount := some p.traceCount
    resultPath := i.resultPath.or i.uploadPath
    updatedAt := now }

/-- The receipts that can take the verified object. -/
def RecordArgs.fits (p : RecordArgs) (i : TraceIngest) : Bool :=
  decide (i.worldModelId = none) &&
    decide (i.objectSha256 = none ∨ i.objectSha256 = some (lowerTrim p.objectSha256)) &&
    decide (i.byteSize = none ∨ i.byteSize = some p.byteSize)

/-- `record_telemetry_trace_object`. -/
def recordObject (db : TraceDb) (ingestId token : Nat) (p : RecordArgs) (now : Int) :
    Raises (TraceDb × TraceIngest) :=
  let invalid := raised .c22023 "invalid verified telemetry trace object metadata"
  let notRecorded := raised .P0002 "verified telemetry trace object could not be recorded"
  do
    ensure (0 < p.byteSize ∧ 0 ≤ p.traceCount ∧ isSha256 (lowerTrim p.objectSha256) = true) invalid
    let _ ← require (db.heldJob ingestId token) notRecorded
    let i ← require ((db.ingests.find? ingestId).filter p.fits) notRecorded
    let db₁ ← db.updateIngests (fun j => decide (j.id = ingestId)) (p.record now) (fun _ => rfl)
    return (db₁, p.record now i)

/-- The ingest failed for good. -/
def TraceIngest.failed (i : TraceIngest) (error message : String) (now : Int) : TraceIngest :=
  { i with
    status := .error
    errorCode := some error
    errorMessage := some message
    traceProjectionStatus := some .error
    traceProjectionErrorCode := some error
    updatedAt := now }

/-- `fail_telemetry_trace_ingest`. -/
def failIngest (db : TraceDb) (ingestId token : Nat) (errorCode errorMessage : Option String) (now : Int) :
    Raises (TraceDb × Bool) :=
  let error := errorCodeOr errorCode "object_malformed"
  let message := left (coalesce (errorMessage.bind nonBlank) error) 500
  match db.heldJob ingestId token with
  | none => return (db, false)
  | some _ => do
      let db₁ := db.deleteJobs (fun q => decide (q.ingestId = ingestId))
      let db₂ ← db₁.updateIngests (fun i => decide (i.id = ingestId)) (·.failed error message now)
        (fun _ => rfl)
      return (db₂, (db.ingests.find? ingestId).isSome)

/-! ### Abandoned uploads -/

/-- The error codes of uploads that still own a stored object. -/
def uploadErrorCodes : List String :=
  ["abandoned_upload", "object_missing", "object_too_large", "object_malformed"]

/-- The uploads a clean-up claims. -/
def TraceIngest.abandonedBy (i : TraceIngest) (ageSeconds now : Int) : Bool :=
  decide (i.worldModelId = none) && i.uploadPath.isSome &&
    (decide (i.status = .pending ∧ i.traceProjectionStatus = none ∧
        i.createdAt ≤ now - ageSeconds * usPerSecond) ||
      decide (i.status = .error ∧ ∃ code ∈ i.errorCode, code ∈ uploadErrorCodes))

/-- The receipt of an abandoned upload. -/
def TraceIngest.abandon (i : TraceIngest) (now : Int) : TraceIngest :=
  { i with
    status := .error
    errorCode := some (coalesce i.errorCode "abandoned_upload")
    errorMessage := some (coalesce i.errorMessage "abandoned signed upload")
    updatedAt := now }

/-- `claim_abandoned_telemetry_trace_ingests`. -/
def claimAbandoned (db : TraceDb) (olderThanSeconds limit : Option Int) (locked : List Nat) (now : Int) :
    Raises (TraceDb × List TraceIngest) := do
  let picked := (firstUnlocked (·.createdAt) (·.id)
    (·.abandonedBy (clamp olderThanSeconds 7200 60 604800) now) locked (clamp limit 16 1 100)
    db.ingests.rows).map (·.id)
  let db₁ ← db.updateIngests (fun i => decide (i.id ∈ picked)) (·.abandon now) (fun _ => rfl)
  return (db₁, db₁.ingests.rows.filter (fun i => decide (i.id ∈ picked)))

/-! ### Deletions -/

/-- A new row of the deletion outbox. -/
def newDeletion (i : TraceIngest) (now : Int) : DeletionJob where
  ingestId := i.id
  orgId := i.orgId
  state := .pending
  attempts := 0
  availableAt := now
  lastErrorCode := none
  createdAt := now
  updatedAt := now

/-- The trigger `enqueue_trace_clickhouse_deletion`. -/
def TraceDb.enqueueDeletion (db : TraceDb) (old : TraceIngest) (now : Int) : Raises TraceDb :=
  if old.worldModelId = none ∧ old.traceProjectionStatus ≠ none then
    if (db.deletions.find? old.id).isSome then pure db
    else do
      let t ← write (db.deletions.insert (newDeletion old now))
      return { db with deletions := t }
  else pure db

/-- `delete from trace_ingests` of one row. -/
def TraceDb.deleteIngest (db : TraceDb) (id : Nat) (now : Int) : Raises TraceDb :=
  match db.ingests.find? id with
  | none => pure db
  | some i => do
      let db₁ ← db.enqueueDeletion i now
      return db₁.removeIngest id

/-- The receipt without its object. -/
def TraceIngest.dropPaths (i : TraceIngest) (now : Int) : TraceIngest :=
  { i with uploadPath := none, resultPath := none, updatedAt := now }

/-- `ack_abandoned_telemetry_trace_ingest`. -/
def ackAbandoned (db : TraceDb) (ingestId : Nat) (deleteRow : Bool) (now : Int) : Raises (TraceDb × Bool) :=
  match (db.ingests.find? ingestId).filter
      (fun i => decide (i.worldModelId = none) && decide (i.status = .error)) with
  | none => return (db, false)
  | some _ =>
      if deleteRow then do
        let db₁ ← db.deleteIngest ingestId now
        return (db₁, true)
      else do
        let db₁ ← db.updateIngests (fun i => decide (i.id = ingestId)) (·.dropPaths now) (fun _ => rfl)
        return (db₁, true)

/-- What a deletion claim returns for each job. -/
structure DeletionClaim where
  ingestId : Nat
  orgId : Nat
  claimToken : Nat
deriving DecidableEq

/-- The deletion job claimed if a token was drawn for it. -/
def DeletionJob.claimWith (q : DeletionJob) (picked : List (Nat × Nat)) (workerId : String)
    (claimedUntil now : Int) : DeletionJob :=
  match tokenOf picked q.ingestId with
  | some token =>
      { q with state := .running workerId token claimedUntil, attempts := q.attempts + 1, updatedAt := now }
  | none => q

theorem DeletionJob.claimWith_ingestId (q : DeletionJob) (picked : List (Nat × Nat)) (workerId : String)
    (claimedUntil now : Int) : (q.claimWith picked workerId claimedUntil now).ingestId = q.ingestId := by
  unfold claimWith
  split <;> rfl

/-- The deletions a claim picks, with their tokens. -/
def TraceDb.pickDeletions (db : TraceDb) (p : ClaimArgs) (now : Int) : List (Nat × Nat) :=
  drawn ((firstUnlocked (·.createdAt) (·.ingestId) (fun q => q.state.claimable q.availableAt now) p.locked
    (clamp p.limit 16 1 100) db.deletions.rows).map (·.ingestId)) p.tokens

/-- `claim_trace_clickhouse_deletion`. -/
def claimDeletion (db : TraceDb) (p : ClaimArgs) (now : Int) : Raises (TraceDb × List DeletionClaim) :=
  let invalid := raised .c22023 "invalid trace deletion worker id"
  do
    let workerId ← require p.workerId invalid
    ensure (validWorkerId workerId = true) invalid
    let picked := db.pickDeletions p now
    let t ← write (db.deletions.update (fun q => (tokenOf picked q.ingestId).isSome)
      (fun q => q.claimWith picked workerId (now + clamp p.leaseSeconds 120 30 900 * usPerSecond) now)
      (fun q => q.claimWith_ingestId picked workerId _ now))
    return ({ db with deletions := t }, picked.filterMap (fun c => do
      let q ← t.find? c.1
      let token ← q.state.claimToken
      return ⟨q.ingestId, q.orgId, token⟩))

/-- The running deletion of an ingest under this token. -/
def TraceDb.heldDeletion (db : TraceDb) (ingestId token : Nat) : Option DeletionJob :=
  (db.deletions.find? ingestId).filter (fun q => decide (q.state.claimToken = some token))

/-- `ack_trace_clickhouse_deletion`. -/
def ackDeletion (db : TraceDb) (ingestId token : Nat) : TraceDb × Bool :=
  match db.heldDeletion ingestId token with
  | none => (db, false)
  | some _ => ({ db with deletions := db.deletions.delete (fun q => decide (q.ingestId = ingestId)) }, true)

/-- The deletion job released for a later attempt. -/
def DeletionJob.release (q : DeletionJob) (availableAt : Int) (error : String) (now : Int) : DeletionJob :=
  { q with state := .pending, availableAt := availableAt, lastErrorCode := some error, updatedAt := now }

/-- `nack_trace_clickhouse_deletion`. -/
def nackDeletion (db : TraceDb) (ingestId token : Nat) (retrySeconds : Option Int)
    (errorCode : Option String) (now : Int) : Raises (TraceDb × Bool) :=
  match db.heldDeletion ingestId token with
  | none => return (db, false)
  | some _ => do
      let t ← write (db.deletions.update (fun q => decide (q.ingestId = ingestId))
        (·.release (now + clamp retrySeconds 10 1 3600 * usPerSecond)
          (errorCodeOr errorCode "deletion_failed") now) (fun _ => rfl))
      return ({ db with deletions := t }, true)

end Experiential.Telemetry
