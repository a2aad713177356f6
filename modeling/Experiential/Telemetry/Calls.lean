import Experiential.Telemetry.Queue
import Experiential.Lib.Run

/-! # Calls on the trace database

A run of the queue is a list of calls. `Moves` lists all a successful call can do to the three rows
of one ingest, and `queueExecute_moves` says that there is nothing else; what holds of every ingest in
every run is proved from `Moves` alone. -/

namespace Experiential.Telemetry

open Gateway

/-- The columns `create_ingest` sets. -/
structure CreateArgs where
  ingestId : Nat
  orgId : Nat
  worldModelId : Option Nat
  source : String
  uploadPath : Option String
deriving DecidableEq

/-- The receipt of a requested ingest. -/
def CreateArgs.row (p : CreateArgs) (now : Int) : TraceIngest where
  id := p.ingestId
  orgId := p.orgId
  worldModelId := p.worldModelId
  source := p.source
  status := .pending
  uploadPath := p.uploadPath
  resultPath := none
  traceUploadId := none
  traceCount := none
  stepCount := none
  errorMessage := none
  errorCode := none
  objectSha256 := none
  byteSize := none
  traceProjectionStatus := none
  traceProjectionVersion := none
  traceProjectedRows := none
  traceProjectedAt := none
  traceProjectionErrorCode := none
  createdAt := now
  updatedAt := now

/-- One call, at the clock reading it makes. -/
inductive QueueCall where
  | create (p : CreateArgs) (now : Int)
  | complete (p : CompleteArgs) (now : Int)
  | accept (ingestId : Nat) (now : Int)
  | backfill (limit : Option Int) (projectionVersion now : Int)
  | claim (p : ClaimArgs) (now : Int)
  | ack (ingestId token : Nat) (projectedRows now : Int)
  | nack (ingestId token : Nat) (retrySeconds : Option Int) (errorCode : Option String) (now : Int)
  | record (ingestId token : Nat) (p : RecordArgs) (now : Int)
  | fail (ingestId token : Nat) (errorCode errorMessage : Option String) (now : Int)
  | claimAbandoned (olderThanSeconds limit : Option Int) (locked : List Nat) (now : Int)
  | ackAbandoned (ingestId : Nat) (deleteRow : Bool) (now : Int)
  /-- The ingest is deleted, as with its organization. -/
  | delete (ingestId : Nat) (now : Int)
  | claimDeletion (p : ClaimArgs) (now : Int)
  | ackDeletion (ingestId token : Nat)
  | nackDeletion (ingestId token : Nat) (retrySeconds : Option Int) (errorCode : Option String) (now : Int)
deriving DecidableEq

/-- What a call returns. -/
inductive Reply where
  | none
  | receipts (rows : List TraceIngest)
  | count (n : Int)
  | claims (claims : List ProjectionClaim)
  | deletions (claims : List DeletionClaim)
  | flag (b : Bool)
deriving DecidableEq

/-- Run one call. -/
def queueExecute (db : TraceDb) : QueueCall → Raises (TraceDb × Reply)
  | .create p now => do
      let db' ← db.insertIngest (p.row now)
      return (db', .receipts [p.row now])
  | .complete p now => do
      let r ← completeIngest db p now
      return (r.1, .receipts [r.2])
  | .accept ingestId now => do
      let r ← acceptIngest db ingestId now
      return (r.1, .receipts [r.2])
  | .backfill limit projectionVersion now => do
      let r ← enqueueBackfill db limit projectionVersion now
      return (r.1, .count r.2)
  | .claim p now => do
      let r ← claimProjection db p now
      return (r.1, .claims r.2)
  | .ack ingestId token projectedRows now => do
      let r ← ackProjection db ingestId token projectedRows now
      return (r.1, .flag r.2)
  | .nack ingestId token retrySeconds errorCode now => do
      let r ← nackProjection db ingestId token retrySeconds errorCode now
      return (r.1, .flag r.2)
  | .record ingestId token p now => do
      let r ← recordObject db ingestId token p now
      return (r.1, .receipts [r.2])
  | .fail ingestId token errorCode errorMessage now => do
      let r ← failIngest db ingestId token errorCode errorMessage now
      return (r.1, .flag r.2)
  | .claimAbandoned olderThanSeconds limit locked now => do
      let r ← claimAbandoned db olderThanSeconds limit locked now
      return (r.1, .receipts r.2)
  | .ackAbandoned ingestId deleteRow now => do
      let r ← ackAbandoned db ingestId deleteRow now
      return (r.1, .flag r.2)
  | .delete ingestId now => do
      let db' ← db.deleteIngest ingestId now
      return (db', .none)
  | .claimDeletion p now => do
      let r ← claimDeletion db p now
      return (r.1, .deletions r.2)
  | .ackDeletion ingestId token => return ((ackDeletion db ingestId token).1, .flag (ackDeletion db ingestId token).2)
  | .nackDeletion ingestId token retrySeconds errorCode now => do
      let r ← nackDeletion db ingestId token retrySeconds errorCode now
      return (r.1, .flag r.2)

/-- The database driven by calls. -/
def queueStep : TraceDb → QueueCall → TraceDb :=
  orStay (fun db call => (queueExecute db call).map Prod.fst)

variable {call : QueueCall}

theorem queueStep_of_ok {db db' : TraceDb} {reply : Reply}
    (h : queueExecute db call = .ok (db', reply)) : queueStep db call = db' :=
  orStay_of_ok (by rw [h]; rfl)

theorem queueStep_cases (db : TraceDb) (call : QueueCall) :
    (∃ reply, queueExecute db call = .ok (queueStep db call, reply)) ∨
    (∃ e, queueExecute db call = .error e) ∧ queueStep db call = db := by
  cases h : queueExecute db call with
  | ok r =>
      refine .inl ⟨r.2, ?_⟩
      rw [queueStep_of_ok h]
  | error e =>
      refine .inr ⟨⟨e, rfl⟩, ?_⟩
      simp only [queueStep, orStay, h, Except.map]

variable {claims : List ProjectionClaim}

theorem queueExecute_claims {db db' : TraceDb} (h : queueExecute db call = .ok (db', .claims claims)) :
    ∃ p now, call = .claim p now ∧ claimProjection db p now = .ok (db', claims) := by
  cases call <;> simp only [queueExecute, bind_eq_ok, pure_eq_ok, Prod.mk.injEq, reduceCtorEq,
    and_false, exists_false] at h
  case claim p now =>
    obtain ⟨r, hr, rfl, he⟩ := h
    cases he
    exact ⟨p, now, rfl, hr⟩

theorem queueExecute_deletions {db db' : TraceDb} {claims : List DeletionClaim}
    (h : queueExecute db call = .ok (db', .deletions claims)) :
    ∃ p now, call = .claimDeletion p now ∧ claimDeletion db p now = .ok (db', claims) := by
  cases call <;> simp only [queueExecute, bind_eq_ok, pure_eq_ok, Prod.mk.injEq, reduceCtorEq,
    and_false, exists_false] at h
  case claimDeletion p now =>
    obtain ⟨r, hr, rfl, he⟩ := h
    cases he
    exact ⟨p, now, rfl, hr⟩

/-! ### What a call does to one ingest -/

/-- The call removes the ingest `i`. -/
def QueueCall.Removes (call : QueueCall) (i : TraceIngest) : Prop :=
  (∃ now, call = .ackAbandoned i.id true now ∧ i.worldModelId = none ∧ i.status = .error) ∨
    ∃ now, call = .delete i.id now

/-- The changes a call can make to the rows of the ingest `id`. -/
inductive Moves (id : Nat) : QueueCall → View → View → Prop where
  | stay (call : QueueCall) (v : View) : Moves id call v v
  | create (p : CreateArgs) (now : Int) (v : View) : p.ingestId = id → v.ingest = none → v.job = none →
      Moves id (.create p now) v { v with ingest := some (p.row now) }
  | complete (p : CompleteArgs) (now : Int) (v : View) (i : TraceIngest) (path : String)
      (q : ProjectionJob) : p.ingestId = id → v.ingest = some i → i.completable path = true →
      q.state = .pending →
      Moves id (.complete p now) v { v with ingest := some (p.complete path now i), job := some q }
  | accept (now : Int) (v : View) (i : TraceIngest) (j : Option ProjectionJob) : v.ingest = some i →
      i.worldModelId = none → i.status = .pending →
      (j = v.job ∨ ∃ q, v.job = none ∧ q.state = .pending ∧ j = some q) →
      Moves id (.accept id now) v { v with ingest := some (i.accepted now), job := j }
  | reaccept (now : Int) (v : View) (i : TraceIngest) (q : ProjectionJob) : v.ingest = some i →
      i.worldModelId = none → i.status ≠ .pending → i.awaitsProjection = true → v.job = none →
      q.state = .pending → Moves id (.accept id now) v { v with job := some q }
  | backfill (limit : Option Int) (version now : Int) (v : View) (i : TraceIngest) (q : ProjectionJob) :
      v.ingest = some i → i.worldModelId = none → i.status = .done → v.job = none →
      q.state = .pending → Moves id (.backfill limit version now) v { v with job := some q }
  | claim (p : ClaimArgs) (now : Int) (v : View) (i : TraceIngest) (q : ProjectionJob)
      (workerId : String) (token : Nat) (claimedUntil : Int) : v.ingest = some i → v.job = some q →
      token ∈ p.tokens →
      Moves id (.claim p now) v { v with
        ingest := some (i.projecting now), job := some (q.claim workerId token claimedUntil now) }
  | ack (token : Nat) (projectedRows now : Int) (v : View) (i : TraceIngest) (q : ProjectionJob) :
      v.ingest = some i → v.job = some q → q.state.claimToken = some token →
      Moves id (.ack id token projectedRows now) v { v with
        ingest := some (i.acked q.projectionVersion projectedRows now), job := none }
  | nack (token : Nat) (retrySeconds : Option Int) (errorCode : Option String) (now : Int) (v : View)
      (i : TraceIngest) (q q' : ProjectionJob) (error : String) : v.ingest = some i → v.job = some q →
      q.state.claimToken = some token → q'.state = .pending →
      Moves id (.nack id token retrySeconds errorCode now) v { v with
        ingest := some (i.nacked error now), job := some q' }
  | record (token : Nat) (p : RecordArgs) (now : Int) (v : View) (i : TraceIngest) (q : ProjectionJob) :
      v.ingest = some i → v.job = some q → q.state.claimToken = some token →
      Moves id (.record id token p now) v { v with ingest := some (p.record now i) }
  | fail (token : Nat) (errorCode errorMessage : Option String) (now : Int) (v : View) (i : TraceIngest)
      (q : ProjectionJob) (error message : String) : v.ingest = some i → v.job = some q →
      q.state.claimToken = some token →
      Moves id (.fail id token errorCode errorMessage now) v { v with
        ingest := some (i.failed error message now), job := none }
  | claimAbandoned (olderThanSeconds limit : Option Int) (locked : List Nat) (now age : Int) (v : View)
      (i : TraceIngest) : v.ingest = some i → i.abandonedBy age now = true →
      Moves id (.claimAbandoned olderThanSeconds limit locked now) v { v with ingest := some (i.abandon now) }
  | dropPaths (now : Int) (v : View) (i : TraceIngest) : v.ingest = some i → i.status = .error →
      Moves id (.ackAbandoned id false now) v { v with ingest := some (i.dropPaths now) }
  | remove (call : QueueCall) (v : View) (i : TraceIngest) (d : Option DeletionJob) : call.Removes i →
      v.ingest = some i →
      (d = v.deletion ∨ ∃ q, v.deletion = none ∧ q.state = .pending ∧ q.orgId = i.orgId ∧ d = some q) →
      (i.worldModelId = none → i.traceProjectionStatus ≠ none → d ≠ none) →
      Moves id call v { v with ingest := none, job := none, deletion := d }
  | claimDeletion (p : ClaimArgs) (now : Int) (v : View) (q q' : DeletionJob) (workerId : String)
      (token : Nat) (claimedUntil : Int) : v.deletion = some q → token ∈ p.tokens → q'.orgId = q.orgId →
      q'.state = .running workerId token claimedUntil →
      Moves id (.claimDeletion p now) v { v with deletion := some q' }
  | ackDeletion (token : Nat) (v : View) (q : DeletionJob) : v.deletion = some q →
      q.state.claimToken = some token → Moves id (.ackDeletion id token) v { v with deletion := none }
  | nackDeletion (token : Nat) (retrySeconds : Option Int) (errorCode : Option String) (now : Int)
      (v : View) (q q' : DeletionJob) : v.deletion = some q → q.state.claimToken = some token →
      q'.orgId = q.orgId → q'.state = .pending →
      Moves id (.nackDeletion id token retrySeconds errorCode now) v { v with deletion := some q' }

variable {db db' : TraceDb} {now : Int}

theorem createIngest_moves {p : CreateArgs} (h : db.insertIngest (p.row now) = .ok db') (id : Nat) :
    Moves id (.create p now) (db.view id) (db'.view id) := by
  obtain ⟨hnone, hview⟩ := TraceDb.insertIngest_view h
  rw [hview id]
  split_ifs with he
  · obtain rfl : p.ingestId = id := he
    exact .create p now _ rfl hnone (db.job_none_of_ingest_none hnone)
  · exact .stay _ _

theorem upsertJob_view {p : CompleteArgs} {orgId : Nat} (h : db.upsertJob p orgId now = .ok db') :
    ∃ q, q.state = .pending ∧ ∀ id, db'.view id =
      if id = p.ingestId then { db.view id with job := some q } else db.view id := by
  unfold TraceDb.upsertJob at h
  cases hq : db.projections.find? p.ingestId with
  | none =>
      rw [hq, Option.isSome_none, if_neg Bool.false_ne_true] at h
      refine ⟨newJob p.ingestId orgId p.projectionVersion now, rfl, fun id => ?_⟩
      rw [(TraceDb.insertJob_view h).2 id]
      simp only [newJob, eq_comm]
  | some q =>
      rw [hq, Option.isSome_some, if_pos rfl] at h
      refine ⟨p.requeue now q, rfl, fun id => (TraceDb.updateJob_view h id).trans ?_⟩
      split_ifs with he
      · rw [he, TraceDb.view_job, hq]
        rfl
      · rfl

theorem completeIngest_moves {p : CompleteArgs} {r : TraceIngest}
    (h : completeIngest db p now = .ok (db', r)) (id : Nat) :
    Moves id (.complete p now) (db.view id) (db'.view id) := by
  simp only [completeIngest, bind_eq_ok, require_eq_ok, ensure_eq_ok, pure_eq_ok, Prod.mk.injEq] at h
  obtain ⟨path, -, _, -, i, hi, db₁, h₁, db₂, h₂, rfl, -⟩ := h
  obtain ⟨hi, hc⟩ := Option.filter_eq_some_iff.mp hi
  obtain ⟨q, hpending, hview₂⟩ := upsertJob_view h₂
  have hview₁ := TraceDb.updateIngest_view h₁ id
  by_cases he : id = p.ingestId
  · subst he
    rw [hview₂, if_pos rfl, hview₁, if_pos rfl, TraceDb.view_ingest, hi]
    exact .complete p now _ i path q rfl hi hc hpending
  · rw [hview₂, if_neg he, hview₁, if_neg he]
    exact .stay _ _

theorem enqueueAwaited_view {i : TraceIngest} (h : db.enqueueAwaited i now = .ok db') :
    db' = db ∨ i.awaitsProjection = true ∧ db.projections.find? i.id = none ∧ ∃ q, q.state = .pending ∧
      ∀ id, db'.view id = if id = i.id then { db.view id with job := some q } else db.view id := by
  unfold TraceDb.enqueueAwaited at h
  split_ifs at h with hc
  · refine .inr ⟨hc.1, hc.2, newJob i.id i.orgId (coalesce i.traceProjectionVersion 1) now, rfl, fun id => ?_⟩
    rw [(TraceDb.insertJob_view h).2 id]
    simp only [newJob, eq_comm]
  · exact .inl (pure_eq_ok.mp h).symm

theorem acceptIngest_moves {ingestId : Nat} {r : TraceIngest}
    (h : acceptIngest db ingestId now = .ok (db', r)) (id : Nat) :
    Moves id (.accept ingestId now) (db.view id) (db'.view id) := by
  simp only [acceptIngest, bind_eq_ok, require_eq_ok, ensure_eq_ok] at h
  obtain ⟨i, hi, _, -, h⟩ := h
  obtain ⟨hi, hfilter⟩ := Option.filter_eq_some_iff.mp hi
  have hnull : i.worldModelId = none := by simpa using hfilter
  obtain rfl : i.id = ingestId := (Table.find?_eq_some.mp hi).2
  split_ifs at h with hp
  · simp only [bind_eq_ok, pure_eq_ok, Prod.mk.injEq] at h
    obtain ⟨db₁, h₁, db₂, h₂, rfl, -⟩ := h
    have hview₁ := TraceDb.updateIngest_view h₁ id
    by_cases he : id = i.id
    · subst he
      rw [if_pos rfl, TraceDb.view_ingest, hi] at hview₁
      have hjob : db₁.projections.find? i.id = (db.view i.id).job := congrArg View.job hview₁
      cases enqueueAwaited_view h₂ with
      | inl h₂ =>
          rw [h₂, hview₁]
          exact .accept now _ i _ hi hnull hp (.inl rfl)
      | inr h₂ =>
          obtain ⟨-, hnone, q, hq, hview₂⟩ := h₂
          rw [(hview₂ i.id).trans (if_pos rfl), hview₁]
          exact .accept now _ i _ hi hnull hp (.inr ⟨q, hjob.symm.trans hnone, hq, rfl⟩)
    · have hview₂ : db₂.view id = db₁.view id := by
        cases enqueueAwaited_view h₂ with
        | inl h₂ => rw [h₂]
        | inr h₂ =>
            obtain ⟨-, -, q, -, hview₂⟩ := h₂
            rw [hview₂]
            exact if_neg he
      rw [hview₂, hview₁, if_neg he]
      exact .stay _ _
  · simp only [bind_eq_ok, pure_eq_ok, Prod.mk.injEq] at h
    obtain ⟨db₁, h₁, rfl, -⟩ := h
    cases enqueueAwaited_view h₁ with
    | inl h₁ =>
        rw [h₁]
        exact .stay _ _
    | inr h₁ =>
        obtain ⟨hawaits, hnone, q, hq, hview⟩ := h₁
        rw [hview]
        split_ifs with he
        · subst he
          exact .reaccept now _ i q hi hnull hp hawaits hnone hq
        · exact .stay _ _

/-- So far the backfill has left the rows of an ingest alone or given it a job. -/
def BackfilledFrom (db : TraceDb) (version : Int) (db' : TraceDb) : Prop :=
  ∀ id, db'.view id = db.view id ∨ ∃ i q, db.ingests.find? id = some i ∧ db.needsBackfill version i = true ∧
    q.state = .pending ∧ db'.view id = { db.view id with job := some q }

theorem backfillOne_backfilled {version : Int} {acc acc' : TraceDb × Int} {i : TraceIngest}
    (h : backfillOne version now acc i = .ok acc') (hi : db.needsBackfill version i = true)
    (hmem : i ∈ db.ingests) (hacc : BackfilledFrom db version acc.1) : BackfilledFrom db version acc'.1 := by
  unfold backfillOne at h
  split_ifs at h
  · obtain rfl := pure_eq_ok.mp h
    exact hacc
  · simp only [bind_eq_ok, pure_eq_ok] at h
    obtain ⟨db₁, h₁, rfl⟩ := h
    obtain ⟨hnone, hview⟩ := TraceDb.insertJob_view h₁
    intro id
    rw [hview id]
    split_ifs with he
    · obtain rfl : i.id = id := he
      refine .inr ⟨i, newJob i.id i.orgId version now, Table.find?_key hmem, hi, rfl, ?_⟩
      cases hacc i.id with
      | inl hsame => rw [hsame]
      | inr hjob =>
          obtain ⟨j, q, -, -, -, hq⟩ := hjob
          have : acc.1.projections.find? i.id = some q := congrArg View.job hq
          rw [show acc.1.projections.find? i.id = none from hnone] at this
          cases this
    · exact hacc id

theorem enqueueBackfill_moves {limit : Option Int} {version : Int} {r : Int}
    (h : enqueueBackfill db limit version now = .ok (db', r)) (id : Nat) :
    Moves id (.backfill limit version now) (db.view id) (db'.view id) := by
  simp only [enqueueBackfill, bind_eq_ok, ensure_eq_ok] at h
  obtain ⟨_, -, h⟩ := h
  have hbackfilled := foldlM_rec
    (I := fun acc rest => (∀ i ∈ rest, i ∈ db.ingests.rows ∧ db.needsBackfill version i = true) ∧
      BackfilledFrom db version acc.1)
    (fun acc i rest acc₁ h₁ hI => by
      obtain ⟨hmem, hi⟩ := hI.1 i List.mem_cons_self
      exact ⟨fun j hj => hI.1 j (List.mem_cons_of_mem _ hj), backfillOne_backfilled h₁ hi hmem hI.2⟩)
    _ (db, 0) h ⟨fun i hi => mem_firstUnlocked hi, fun id => .inl rfl⟩
  cases hbackfilled.2 id with
  | inl hsame =>
      rw [hsame]
      exact .stay _ _
  | inr hjob =>
      obtain ⟨i, q, hi, hneeds, hq, hview⟩ := hjob
      simp only [TraceDb.needsBackfill, Bool.and_eq_true, decide_eq_true_eq] at hneeds
      rw [hview]
      have hid : i.id = id := (Table.find?_eq_some.mp hi).2
      exact .backfill limit version now _ i q hi hneeds.1.1.1.1.1 hneeds.1.1.1.1.2
        (hid ▸ hneeds.1.2) hq

/-! ### Claims -/

variable {p : ClaimArgs}

/-- A claim claims the jobs it picked, under the tokens drawn for them. -/
theorem claimProjection_view (h : claimProjection db p now = .ok (db', claims)) : ∃ workerId claimedUntil,
      (∀ id, tokenOf (db.pickProjections p now) id = none → db'.view id = db.view id) ∧
      (∀ id token, tokenOf (db.pickProjections p now) id = some token → db'.view id = { db.view id with
        ingest := (db.view id).ingest.map (·.projecting now)
        job := (db.view id).job.map (·.claim workerId token claimedUntil now) }) ∧
      claims = (db.pickProjections p now).filterMap (fun c => do
        let i ← db'.ingests.find? c.1
        let q ← db'.projections.find? c.1
        let token ← q.state.claimToken
        return q.claimed i token) := by
  simp only [claimProjection, bind_eq_ok, require_eq_ok, ensure_eq_ok, pure_eq_ok, Prod.mk.injEq] at h
  obtain ⟨workerId, -, _, -, db₁, h₁, db₂, h₂, rfl, hclaims⟩ := h
  refine ⟨workerId, now + clamp p.leaseSeconds 120 30 900 * usPerSecond, fun id hnone => ?_,
    fun id token hsome => ?_, hclaims.symm⟩
  · rw [TraceDb.updateIngests_view h₂, TraceDb.updateJobs_view h₁]
    simp only [TraceDb.view_ingest, TraceDb.view_job]
    rw [Table.map_find?_eq_self fun i hi => by rw [hi, hnone]; rfl,
      Table.map_find?_eq_self fun q hq => by rw [hq, hnone]; rfl]
    rfl
  · rw [TraceDb.updateIngests_view h₂, TraceDb.updateJobs_view h₁]
    simp only [TraceDb.view_ingest, TraceDb.view_job]
    rw [Table.map_find?_congr (g := fun i => i.projecting now) fun i hi => by
        rw [hi, hsome, Option.isSome_some, if_pos rfl],
      Table.map_find?_congr (t := db.projections) (g := fun q => q.claim workerId token _ now) fun q hq => by
        rw [hq, hsome, Option.isSome_some, if_pos rfl, ProjectionJob.claimWith, hq, hsome]]

theorem claimProjection_moves (h : claimProjection db p now = .ok (db', claims)) (id : Nat) :
    Moves id (.claim p now) (db.view id) (db'.view id) := by
  obtain ⟨workerId, claimedUntil, hnone, hsome, -⟩ := claimProjection_view h
  cases ht : tokenOf (db.pickProjections p now) id with
  | none =>
      rw [hnone id ht]
      exact .stay _ _
  | some token =>
      obtain ⟨hid, htoken⟩ := tokenOf_drawn ht
      obtain ⟨q, hq, rfl⟩ := List.mem_map.mp hid
      have hfind := Table.find?_key (mem_firstUnlocked hq).1
      obtain ⟨i, hi⟩ := db.ingest_of_job hfind
      rw [hsome _ token ht, TraceDb.view_ingest, TraceDb.view_job, hi, hfind]
      exact .claim p now _ i q workerId token claimedUntil hi hfind htoken

/-- **A claim returns the jobs it holds afterwards, each under its token.** -/
theorem rows_of_mem_claims {c : ProjectionClaim}
    (h : claimProjection db p now = .ok (db', claims)) (hc : c ∈ claims) :
    ∃ i q, db'.ingests.find? c.ingestId = some i ∧ i.orgId = c.orgId ∧
      db'.projections.find? c.ingestId = some q ∧ q.state.claimToken = some c.claimToken := by
  obtain ⟨_, _, -, -, rfl⟩ := claimProjection_view h
  obtain ⟨d, -, hd⟩ := List.mem_filterMap.mp hc
  simp only [bind, pure, Option.bind_eq_some_iff, Option.some.injEq] at hd
  obtain ⟨i, hi, q, hq, token, htoken, rfl⟩ := hd
  obtain ⟨-, hid⟩ := Table.find?_eq_some.mp hi
  have hc : (q.claimed i token).ingestId = d.1 := hid
  exact ⟨i, q, by rw [hc, hi], rfl, by rw [hc, hq], htoken⟩

theorem mem_claims_of_token {id token : Nat} (h : claimProjection db p now = .ok (db', claims))
    (ht : tokenOf (db.pickProjections p now) id = some token) :
    ∃ c ∈ claims, c.ingestId = id ∧ c.claimToken = token := by
  obtain ⟨workerId, claimedUntil, -, hsome, rfl⟩ := claimProjection_view h
  obtain ⟨hid, -⟩ := tokenOf_drawn ht
  obtain ⟨q, hq, rfl⟩ := List.mem_map.mp hid
  have hfind := Table.find?_key (mem_firstUnlocked hq).1
  obtain ⟨i, hi⟩ := db.ingest_of_job hfind
  have hview := hsome _ token ht
  rw [TraceDb.view_ingest, TraceDb.view_job, hi, hfind] at hview
  have hi' : db'.ingests.find? q.ingestId = some (i.projecting now) := congrArg View.ingest hview
  have hq' : db'.projections.find? q.ingestId = some (q.claim workerId token claimedUntil now) :=
    congrArg View.job hview
  obtain ⟨d, hd, he⟩ := Option.map_eq_some_iff.mp ht
  have hd1 : d.1 = q.ingestId := by simpa using List.find?_some hd
  refine ⟨(q.claim workerId token claimedUntil now).claimed (i.projecting now) token,
    List.mem_filterMap.mpr ⟨d, List.mem_of_find?_eq_some hd, ?_⟩, (Table.find?_eq_some.mp hi).2, rfl⟩
  rw [hd1, hi', hq']
  rfl

/-! ### The holder of a claim -/

variable {ingestId token : Nat}

theorem heldJob_eq_some {q : ProjectionJob} (h : db.heldJob ingestId token = some q) :
    db.projections.find? ingestId = some q ∧ q.state.claimToken = some token := by
  obtain ⟨hq, htoken⟩ := Option.filter_eq_some_iff.mp h
  exact ⟨hq, by simpa using htoken⟩

theorem ackProjection_moves {projectedRows : Int} {b : Bool}
    (h : ackProjection db ingestId token projectedRows now = .ok (db', b)) (id : Nat) :
    Moves id (.ack ingestId token projectedRows now) (db.view id) (db'.view id) := by
  simp only [ackProjection, bind_eq_ok, ensure_eq_ok] at h
  obtain ⟨_, -, h⟩ := h
  cases hheld : db.heldJob ingestId token with
  | none =>
      simp only [hheld, pure_eq_ok, Prod.mk.injEq] at h
      rw [h.1]
      exact .stay _ _
  | some q =>
      simp only [hheld, bind_eq_ok, pure_eq_ok, Prod.mk.injEq] at h
      obtain ⟨db₁, h₁, rfl, -⟩ := h
      obtain ⟨hq, htoken⟩ := heldJob_eq_some hheld
      obtain ⟨i, hi⟩ := db.ingest_of_job hq
      rw [TraceDb.updateIngest_view h₁, TraceDb.deleteJob_view]
      by_cases he : id = ingestId
      · subst he
        rw [if_pos rfl, if_pos rfl, TraceDb.view_ingest, hi]
        exact .ack token projectedRows now _ i q hi hq htoken
      · rw [if_neg he, if_neg he]
        exact .stay _ _

theorem nackProjection_moves {retrySeconds : Option Int} {errorCode : Option String}
    {b : Bool} (h : nackProjection db ingestId token retrySeconds errorCode now = .ok (db', b)) (id : Nat) :
    Moves id (.nack ingestId token retrySeconds errorCode now) (db.view id) (db'.view id) := by
  unfold nackProjection at h
  cases hheld : db.heldJob ingestId token with
  | none =>
      simp only [hheld, pure_eq_ok, Prod.mk.injEq] at h
      rw [h.1]
      exact .stay _ _
  | some q =>
      simp only [hheld, bind_eq_ok, pure_eq_ok, Prod.mk.injEq] at h
      obtain ⟨db₁, h₁, db₂, h₂, rfl, -⟩ := h
      obtain ⟨hq, htoken⟩ := heldJob_eq_some hheld
      obtain ⟨i, hi⟩ := db.ingest_of_job hq
      rw [TraceDb.updateIngest_view h₂, TraceDb.updateJob_view h₁]
      by_cases he : id = ingestId
      · subst he
        rw [if_pos rfl, if_pos rfl, TraceDb.view_ingest, TraceDb.view_job, hi, hq]
        exact .nack token retrySeconds errorCode now _ i q (q.release _ _ now) _ hi hq htoken rfl
      · rw [if_neg he, if_neg he]
        exact .stay _ _

theorem recordObject_moves {p : RecordArgs} {r : TraceIngest}
    (h : recordObject db ingestId token p now = .ok (db', r)) (id : Nat) :
    Moves id (.record ingestId token p now) (db.view id) (db'.view id) := by
  simp only [recordObject, bind_eq_ok, require_eq_ok, ensure_eq_ok, pure_eq_ok, Prod.mk.injEq] at h
  obtain ⟨_, -, q, hheld, i, hi, db₁, h₁, rfl, -⟩ := h
  obtain ⟨hq, htoken⟩ := heldJob_eq_some hheld
  obtain ⟨hi, -⟩ := Option.filter_eq_some_iff.mp hi
  rw [TraceDb.updateIngest_view h₁]
  split_ifs with he
  · subst he
    rw [TraceDb.view_ingest, hi]
    exact .record token p now _ i q hi hq htoken
  · exact .stay _ _

theorem failIngest_moves {errorCode errorMessage : Option String} {b : Bool}
    (h : failIngest db ingestId token errorCode errorMessage now = .ok (db', b)) (id : Nat) :
    Moves id (.fail ingestId token errorCode errorMessage now) (db.view id) (db'.view id) := by
  unfold failIngest at h
  cases hheld : db.heldJob ingestId token with
  | none =>
      simp only [hheld, pure_eq_ok, Prod.mk.injEq] at h
      rw [h.1]
      exact .stay _ _
  | some q =>
      simp only [hheld, bind_eq_ok, pure_eq_ok, Prod.mk.injEq] at h
      obtain ⟨db₁, h₁, rfl, -⟩ := h
      obtain ⟨hq, htoken⟩ := heldJob_eq_some hheld
      obtain ⟨i, hi⟩ := db.ingest_of_job hq
      rw [TraceDb.updateIngest_view h₁, TraceDb.deleteJob_view]
      by_cases he : id = ingestId
      · subst he
        rw [if_pos rfl, if_pos rfl, TraceDb.view_ingest, hi]
        exact .fail token errorCode errorMessage now _ i q _ _ hi hq htoken
      · rw [if_neg he, if_neg he]
        exact .stay _ _

/-! ### Abandoned uploads and deletions -/

theorem claimAbandoned_moves {olderThanSeconds limit : Option Int} {locked : List Nat} {r : List TraceIngest}
    (h : claimAbandoned db olderThanSeconds limit locked now = .ok (db', r)) (id : Nat) :
    Moves id (.claimAbandoned olderThanSeconds limit locked now) (db.view id) (db'.view id) := by
  simp only [claimAbandoned, bind_eq_ok, pure_eq_ok, Prod.mk.injEq] at h
  obtain ⟨db₁, h₁, rfl, -⟩ := h
  rw [TraceDb.updateIngests_view h₁]
  by_cases hid : id ∈ (firstUnlocked (·.createdAt) (·.id)
      (·.abandonedBy (clamp olderThanSeconds 7200 60 604800) now) locked (clamp limit 16 1 100)
      db.ingests.rows).map (·.id)
  · obtain ⟨i, hi, rfl⟩ := List.mem_map.mp hid
    obtain ⟨hmem, habandoned⟩ := mem_firstUnlocked hi
    have hfind : (db.view i.id).ingest = some i := Table.find?_key hmem
    rw [hfind, Option.map_some, if_pos (by simpa using hid)]
    exact .claimAbandoned olderThanSeconds limit locked now _ _ i hfind habandoned
  · rw [TraceDb.view_ingest, Table.map_find?_eq_self fun i hi => by rw [hi, if_neg (by simpa using hid)]]
    exact .stay _ _

/-- The trigger leaves a row in the outbox for a projected telemetry ingest. -/
theorem enqueueDeletion_view {i : TraceIngest} (h : db.enqueueDeletion i now = .ok db') :
    (∀ id, id ≠ i.id → db'.view id = db.view id) ∧
    ∃ d, db'.view i.id = { db.view i.id with deletion := d } ∧
      (d = db.deletions.find? i.id ∨
        ∃ q, db.deletions.find? i.id = none ∧ q.state = .pending ∧ q.orgId = i.orgId ∧ d = some q) ∧
      (i.worldModelId = none → i.traceProjectionStatus ≠ none → d ≠ none) := by
  unfold TraceDb.enqueueDeletion at h
  split_ifs at h with hc hsome
  · rw [pure_eq_ok.mp h]
    exact ⟨fun _ _ => rfl, _, rfl, .inl rfl, fun _ _ => Option.isSome_iff_ne_none.mp (pure_eq_ok.mp h ▸ hsome)⟩
  · simp only [bind_eq_ok, write_eq_ok, pure_eq_ok] at h
    obtain ⟨t, ht, rfl⟩ := h
    refine ⟨fun id he => ?_, some (newDeletion i now), ?_, ?_, fun _ _ => by simp⟩
    · have hne : (newDeletion i now).ingestId ≠ id := fun h => he h.symm
      rw [TraceDb.deletions_view db t, Table.find?_insert ht, if_neg hne]
      rfl
    · have heq : (newDeletion i now).ingestId = i.id := rfl
      rw [TraceDb.deletions_view db t, Table.find?_insert ht, if_pos heq]
    · exact .inr ⟨_, by simpa using hsome, rfl, rfl, rfl⟩
  · rw [pure_eq_ok.mp h]
    exact ⟨fun _ _ => rfl, _, rfl, .inl rfl, fun hnull hprojected => absurd ⟨hnull, hprojected⟩ hc⟩

theorem deleteIngest_view {k : Nat} (h : db.deleteIngest k now = .ok db') :
    (∀ id, id ≠ k → db'.view id = db.view id) ∧
    (db'.view k = db.view k ∨ ∃ i d, db.ingests.find? k = some i ∧
      db'.view k = { db.view k with ingest := none, job := none, deletion := d } ∧
      (d = db.deletions.find? k ∨
        ∃ q, db.deletions.find? k = none ∧ q.state = .pending ∧ q.orgId = i.orgId ∧ d = some q) ∧
      (i.worldModelId = none → i.traceProjectionStatus ≠ none → d ≠ none)) := by
  unfold TraceDb.deleteIngest at h
  cases hi : db.ingests.find? k with
  | none =>
      simp only [hi, pure_eq_ok] at h
      rw [h]
      exact ⟨fun _ _ => rfl, .inl rfl⟩
  | some i =>
      simp only [hi, bind_eq_ok, pure_eq_ok] at h
      obtain ⟨db₁, h₁, rfl⟩ := h
      obtain rfl : i.id = k := (Table.find?_eq_some.mp hi).2
      obtain ⟨hother, d, hview, hd, hprojected⟩ := enqueueDeletion_view h₁
      refine ⟨fun id he => ?_, .inr ⟨i, d, rfl, ?_, hd, hprojected⟩⟩
      · rw [TraceDb.removeIngest_view, if_neg he, hother id he]
      · rw [TraceDb.removeIngest_view, if_pos rfl, hview]

theorem deleteIngest_moves {k : Nat} (h : db.deleteIngest k now = .ok db')
    (hcall : ∀ i, db.ingests.find? k = some i → call.Removes i) (id : Nat) :
    Moves id call (db.view id) (db'.view id) := by
  obtain ⟨hother, hview⟩ := deleteIngest_view h
  by_cases he : id = k
  · subst he
    cases hview with
    | inl hview =>
        rw [hview]
        exact .stay _ _
    | inr hview =>
        obtain ⟨i, d, hi, hview, hd, hprojected⟩ := hview
        rw [hview]
        exact .remove call _ i d (hcall i hi) hi hd hprojected
  · rw [hother id he]
    exact .stay _ _

theorem ackAbandoned_moves {ingestId : Nat} {deleteRow b : Bool}
    (h : ackAbandoned db ingestId deleteRow now = .ok (db', b)) (id : Nat) :
    Moves id (.ackAbandoned ingestId deleteRow now) (db.view id) (db'.view id) := by
  unfold ackAbandoned at h
  cases hi : (db.ingests.find? ingestId).filter
      (fun i => decide (i.worldModelId = none) && decide (i.status = .error)) with
  | none =>
      simp only [hi, pure_eq_ok, Prod.mk.injEq] at h
      rw [h.1]
      exact .stay _ _
  | some i =>
      simp only [hi] at h
      obtain ⟨hi, hc⟩ := Option.filter_eq_some_iff.mp hi
      simp only [Bool.and_eq_true, decide_eq_true_eq] at hc
      obtain rfl : i.id = ingestId := (Table.find?_eq_some.mp hi).2
      split_ifs at h with hdelete
      · simp only [bind_eq_ok, pure_eq_ok, Prod.mk.injEq] at h
        obtain ⟨db₁, h₁, rfl, -⟩ := h
        refine deleteIngest_moves h₁ (fun j hj => .inl ⟨now, ?_⟩) id
        obtain rfl : i = j := Option.some.inj (hi.symm.trans hj)
        exact ⟨by rw [hdelete], hc.1, hc.2⟩
      · simp only [bind_eq_ok, pure_eq_ok, Prod.mk.injEq] at h
        obtain ⟨db₁, h₁, rfl, -⟩ := h
        obtain rfl : deleteRow = false := by simpa using hdelete
        rw [TraceDb.updateIngest_view h₁]
        split_ifs with he
        · subst he
          rw [TraceDb.view_ingest, hi]
          exact .dropPaths now _ i hi hc.2
        · exact .stay _ _

theorem claimDeletion_moves {r : List DeletionClaim} (h : claimDeletion db p now = .ok (db', r)) (id : Nat) :
    Moves id (.claimDeletion p now) (db.view id) (db'.view id) := by
  simp only [claimDeletion, bind_eq_ok, require_eq_ok, ensure_eq_ok, write_eq_ok, pure_eq_ok,
    Prod.mk.injEq] at h
  obtain ⟨workerId, -, _, -, t, ht, rfl, -⟩ := h
  have hfind := Table.find?_update ht id
  cases hq : tokenOf (db.pickDeletions p now) id with
  | none =>
      have hsame : t.find? id = db.deletions.find? id := hfind.trans
        (Table.map_find?_eq_self fun q hid => by rw [hid, hq]; rfl)
      rw [TraceDb.deletions_view db t, hsame]
      exact .stay _ _
  | some token =>
      obtain ⟨hid, htoken⟩ := tokenOf_drawn hq
      obtain ⟨q, hmem, rfl⟩ := List.mem_map.mp hid
      have hold := Table.find?_key (mem_firstUnlocked hmem).1
      rw [hold, Option.map_some, hq, Option.isSome_some, if_pos rfl, DeletionJob.claimWith, hq] at hfind
      rw [TraceDb.deletions_view db t, hfind]
      exact .claimDeletion p now (db.view q.ingestId) q _ workerId token _ hold htoken rfl rfl

/-- **A deletion claim returns jobs that are in the outbox afterwards.** -/
theorem deletion_of_mem_claims {claims : List DeletionClaim} {c : DeletionClaim}
    (h : claimDeletion db p now = .ok (db', claims)) (hc : c ∈ claims) :
    ∃ q, db'.deletions.find? c.ingestId = some q ∧ q.orgId = c.orgId := by
  simp only [claimDeletion, bind_eq_ok, require_eq_ok, ensure_eq_ok, write_eq_ok, pure_eq_ok,
    Prod.mk.injEq] at h
  obtain ⟨_, -, _, -, t, -, rfl, rfl⟩ := h
  obtain ⟨d, -, hd⟩ := List.mem_filterMap.mp hc
  simp only [bind, pure, Option.bind_eq_some_iff, Option.some.injEq] at hd
  obtain ⟨q, hq, token, -, rfl⟩ := hd
  exact ⟨q, Table.find?_key (Table.find?_eq_some.mp hq).1, rfl⟩

theorem heldDeletion_eq_some {q : DeletionJob} (h : db.heldDeletion ingestId token = some q) :
    db.deletions.find? ingestId = some q ∧ q.state.claimToken = some token := by
  obtain ⟨hq, htoken⟩ := Option.filter_eq_some_iff.mp h
  exact ⟨hq, by simpa using htoken⟩

theorem ackDeletion_moves (db : TraceDb) (ingestId token id : Nat) :
    Moves id (.ackDeletion ingestId token) (db.view id) ((ackDeletion db ingestId token).1.view id) := by
  unfold ackDeletion
  cases hheld : db.heldDeletion ingestId token with
  | none => exact .stay _ _
  | some q =>
      obtain ⟨hq, htoken⟩ := heldDeletion_eq_some hheld
      show Moves id _ _ (TraceDb.view { db with deletions := _ } id)
      rw [TraceDb.deletions_view db (db.deletions.delete _), Table.find?_delete_key]
      split_ifs with he
      · subst he
        exact .ackDeletion token (db.view id) q hq htoken
      · exact .stay _ _

theorem nackDeletion_moves {retrySeconds : Option Int} {errorCode : Option String}
    {b : Bool} (h : nackDeletion db ingestId token retrySeconds errorCode now = .ok (db', b)) (id : Nat) :
    Moves id (.nackDeletion ingestId token retrySeconds errorCode now) (db.view id) (db'.view id) := by
  unfold nackDeletion at h
  cases hheld : db.heldDeletion ingestId token with
  | none =>
      simp only [hheld, pure_eq_ok, Prod.mk.injEq] at h
      rw [h.1]
      exact .stay _ _
  | some q =>
      simp only [hheld, bind_eq_ok, write_eq_ok, pure_eq_ok, Prod.mk.injEq] at h
      obtain ⟨t, ht, rfl, -⟩ := h
      obtain ⟨hq, htoken⟩ := heldDeletion_eq_some hheld
      rw [TraceDb.deletions_view db t, Table.find?_update_key ht]
      split_ifs with he
      · subst he
        rw [hq]
        exact .nackDeletion token retrySeconds errorCode now (db.view id) q (q.release _ _ now) hq htoken rfl rfl
      · exact .stay _ _

/-- **Every call changes the rows of an ingest in one of the ways of `Moves`.** -/
theorem queueExecute_moves {reply : Reply}
    (h : queueExecute db call = .ok (db', reply)) (id : Nat) : Moves id call (db.view id) (db'.view id) := by
  cases call <;> simp only [queueExecute, bind_eq_ok, pure_eq_ok, Prod.mk.injEq] at h
  case create p now =>
    obtain ⟨db₁, h, rfl, -⟩ := h
    exact createIngest_moves h id
  case delete k now =>
    obtain ⟨db₁, h, rfl, -⟩ := h
    refine deleteIngest_moves h (fun i hi => .inr ⟨now, ?_⟩) id
    rw [(Table.find?_eq_some.mp hi).2]
  case ackDeletion k token =>
    obtain ⟨rfl, -⟩ := h
    exact ackDeletion_moves db k token id
  all_goals obtain ⟨⟨db₁, r⟩, h, rfl, -⟩ := h
  case complete => exact completeIngest_moves h id
  case accept => exact acceptIngest_moves h id
  case backfill => exact enqueueBackfill_moves h id
  case claim => exact claimProjection_moves h id
  case ack => exact ackProjection_moves h id
  case nack => exact nackProjection_moves h id
  case record => exact recordObject_moves h id
  case fail => exact failIngest_moves h id
  case claimAbandoned => exact claimAbandoned_moves h id
  case ackAbandoned => exact ackAbandoned_moves h id
  case claimDeletion => exact claimDeletion_moves h id
  case nackDeletion => exact nackDeletion_moves h id

theorem queueStep_moves (db : TraceDb) (call : QueueCall) (id : Nat) :
    Moves id call (db.view id) ((queueStep db call).view id) := by
  cases queueStep_cases db call with
  | inl h =>
      obtain ⟨reply, h⟩ := h
      exact queueExecute_moves h id
  | inr h =>
      rw [h.2]
      exact .stay _ _

end Experiential.Telemetry
