import Experiential.Replay.Ownership

/-! # Workers and their callers

A worker reaches the store through an adapter: it draws a fresh token for every claim, keeps what
came of it in a lease, publishes or abandons under the lease's token, and lets a joiner poll the
row until it is published, gone or lapsed. A `World` holds the rows and all callers of all
workers; `worldStep` lets one of them take one step. -/

namespace Experiential.Replay

open Gateway

/-! ### Protocol values -/

/-- A keyed request: the operation, and the body it was sent with. -/
structure ReplayKey where
  operation : ReplayOperation
  canonicalRequestSha256 : String
deriving DecidableEq

/-- The exact response a keyed request is answered with. -/
structure CachedResponse where
  statusCode : Int
  mediaType : String
  headers : List (String × String)
  body : List UInt8
deriving DecidableEq

/-- An error of the protocol; `none` is a parameter left at its default. -/
structure ProtocolError where
  statusCode : Nat
  code : String
  message : String
  errorType : Option String
  param : Option String
deriving DecidableEq

/-- What a worker can raise: an error of the protocol, or of the database. -/
inductive WorkerError where
  | protocol (e : ProtocolError)
  | database (e : GatewayError)
deriving DecidableEq

def replayUnavailable : ProtocolError :=
  ⟨409, "idempotency_replay_unavailable",
    "The original keyed request ended before publishing a replayable result.", some "api_error",
    some "Idempotency-Key"⟩

def malformedHeaders : ProtocolError :=
  ⟨500, "idempotency_replay_unavailable", "stored replay headers are malformed", some "api_error", none⟩

def operationReused : ProtocolError :=
  ⟨409, "idempotency_conflict", "The caller operation was reused with a different request body.", none,
    some "Idempotency-Key"⟩

def notTheOwner : ProtocolError :=
  ⟨409, "idempotency_conflict", "Only the original keyed request may publish its result.", none,
    some "Idempotency-Key"⟩

def ownershipLapsed : ProtocolError :=
  ⟨409, "idempotency_conflict", "The keyed operation no longer belongs to this request.", none,
    some "Idempotency-Key"⟩

def responseTooLarge : ProtocolError :=
  ⟨500, "idempotency_replay_unavailable", "The completed response exceeds the bounded replay cache.",
    some "api_error", none⟩

/-! ### Responses in the store -/

/-- `_headers_document`. -/
def headersDocument (response : CachedResponse) : List (List String) :=
  response.headers.map (fun h => [h.1, h.2])

/-- The columns a response is stored in. -/
def CachedResponse.stored (response : CachedResponse) : StoredResponse :=
  ⟨response.statusCode, response.mediaType, headersDocument response, response.body⟩

/-- One header pair of a stored document. -/
def headerPair : List String → Except ProtocolError (String × String)
  | [name, value] => .ok (name, value)
  | _ => .error malformedHeaders

/-- `_cached_response`. -/
def cachedResponse (s : StoredResponse) : Except ProtocolError CachedResponse := do
  let headers ← s.headers.mapM headerPair
  return ⟨s.status, s.mediaType, headers, s.body⟩

theorem mapM_headerPair : ∀ headers : List (String × String),
    (headers.map (fun h => [h.1, h.2])).mapM headerPair = .ok headers
  | [] => rfl
  | h :: headers => by
      rw [List.map_cons, List.mapM_cons, mapM_headerPair headers]
      rfl

/-- **Round trip**: a stored response is read back exactly. -/
theorem cachedResponse_stored (response : CachedResponse) : cachedResponse response.stored = .ok response := by
  rw [cachedResponse, CachedResponse.stored, headersDocument, mapM_headerPair]
  rfl

/-! ### The adapter -/

/-- `PostgresReplayStore`, with its bounds. -/
structure ReplayStore where
  leaseSeconds : Int
  retentionSeconds : Int
  maxEntryBytes : Int
  positive : 0 < leaseSeconds ∧ 0 < retentionSeconds ∧ 0 < maxEntryBytes
deriving DecidableEq

/-- The constructor of `PostgresReplayStore`. -/
def ReplayStore.new (leaseSeconds retentionSeconds maxEntryBytes : Int) : Except String ReplayStore :=
  if h : 0 < leaseSeconds ∧ 0 < retentionSeconds ∧ 0 < maxEntryBytes then
    .ok ⟨leaseSeconds, retentionSeconds, maxEntryBytes, h⟩
  else .error "replay bounds must be positive"

inductive ReplayClaimKind where
  | owner
  | join
  | replay
deriving DecidableEq

/-- `PostgresReplayLease`: what one claim came to. -/
structure ReplayLease where
  store : ReplayStore
  key : ReplayKey
  ownerToken : Nat
  kind : ReplayClaimKind
  cached : Option CachedResponse
deriving DecidableEq

/-- The lease for the answer of the store. -/
def ReplayStore.lease (store : ReplayStore) (key : ReplayKey) (ownerToken : Nat) :
    ClaimKind → Except ProtocolError ReplayLease
  | .conflict => .error operationReused
  | .owner => .ok ⟨store, key, ownerToken, .owner, none⟩
  | .join => .ok ⟨store, key, ownerToken, .join, none⟩
  | .replay response => do
      let cached ← cachedResponse response
      return ⟨store, key, ownerToken, .replay, some cached⟩

/-- The call of the store a claim makes. -/
def ReplayStore.claimArgs (store : ReplayStore) (key : ReplayKey) (ownerToken : Nat) : ClaimArgs :=
  ⟨key.operation, key.canonicalRequestSha256, ownerToken, some store.leaseSeconds⟩

/-- `PostgresReplayStore.claim`, with the token it drew. The rows stay written when decoding the
answer raises: the transaction has ended by then. -/
def ReplayStore.claim (store : ReplayStore) (rows : ReplayRows) (key : ReplayKey) (ownerToken : Nat)
    (c : ClaimClock) : ReplayRows × Except WorkerError ReplayLease :=
  match replayClaim rows (store.claimArgs key ownerToken) c with
  | .error e => (rows, .error (.database e))
  | .ok (rows', kind) => (rows', (store.lease key ownerToken kind).mapError .protocol)

inductive ReadOutcome where
  | published (cached : CachedResponse)
  | gone
  | leaseExpired
  | claimed
deriving DecidableEq

/-- `_read`: the row is looked up by the operation alone. -/
def readRow (rows : ReplayRows) (key : ReplayKey) (now : Int) : Except ProtocolError ReadOutcome :=
  match rows.find? key.operation with
  | none => return .gone
  | some r =>
      match r.state with
      | .published _ _ response => do
          let cached ← cachedResponse response
          return .published cached
      | .claimed => return if r.leaseExpiresAt ≤ now then .leaseExpired else .claimed

/-- One round of the loop of `_await_published`: `none` sleeps and goes round again. -/
def awaitPublished (rows : ReplayRows) (key : ReplayKey) (now : Int) :
    Option (Except ProtocolError CachedResponse) :=
  match readRow rows key now with
  | .error e => some (.error e)
  | .ok (.published cached) => some (.ok cached)
  | .ok .gone => some (.error replayUnavailable)
  | .ok .leaseExpired => some (.error replayUnavailable)
  | .ok .claimed => none

/-- `PostgresReplayLease.abandon`. -/
def ReplayLease.abandon (lease : ReplayLease) (rows : ReplayRows) : ReplayRows :=
  if lease.kind = .owner then replayAbandon rows lease.key.operation lease.ownerToken else rows

/-- The publication `PostgresReplayLease.complete` asks the store for. -/
def ReplayLease.publication (lease : ReplayLease) (response : CachedResponse) : PublishArgs :=
  ⟨lease.key.operation, lease.ownerToken, response.stored, some lease.store.retentionSeconds⟩

/-- `PostgresReplayLease.complete`; `sizeBytes` is the size of a response. -/
def ReplayLease.complete (sizeBytes : CachedResponse → Int) (lease : ReplayLease) (rows : ReplayRows)
    (response : CachedResponse) (c : PublishClock) : ReplayRows × Except WorkerError ReplayLease :=
  if lease.kind ≠ .owner then (rows, .error (.protocol notTheOwner))
  else if lease.store.maxEntryBytes < sizeBytes response then
    (lease.abandon rows, .error (.protocol responseTooLarge))
  else
    match replayPublish rows (lease.publication response) c with
    | .error e => (rows, .error (.database e))
    | .ok (rows', true) => (rows', .ok { lease with cached := some response })
    | .ok (rows', false) => (rows', .error (.protocol ownershipLapsed))

/-! ### The world -/

/-- A response a caller received, and the token of the row it was read from. -/
structure Answer where
  response : CachedResponse
  source : Option Nat
deriving DecidableEq

/-- A caller that was given a lease, and the result it was given, if any. -/
structure Caller where
  lease : ReplayLease
  answer : Option (Except ProtocolError Answer)

/-- A response an owner published, with the key and the token of its claim. -/
structure Publication where
  key : ReplayKey
  ownerToken : Nat
  response : CachedResponse
deriving DecidableEq

/-- The rows, the callers of all workers, and everything published so far. -/
structure World where
  rows : ReplayRows
  callers : List Caller
  publications : List Publication

def World.initial : World := ⟨.empty, [], []⟩

/-- A step of one caller, named by its place among the callers. -/
inductive WorldEvent where
  | claim (store : ReplayStore) (key : ReplayKey) (ownerToken : Nat) (c : ClaimClock)
  | poll (caller : Nat) (now : Int)
  | complete (caller : Nat) (response : CachedResponse) (c : PublishClock)
  | abandon (caller : Nat)

/-- The token of the row of an operation. -/
def tokenOf (rows : ReplayRows) (operation : ReplayOperation) : Option Nat :=
  (rows.find? operation).map (·.ownerToken)

/-- A new caller; a replayed response is its answer at once. -/
def ReplayLease.caller (lease : ReplayLease) (rows : ReplayRows) : Caller :=
  ⟨lease, lease.cached.map fun response => .ok ⟨response, tokenOf rows lease.key.operation⟩⟩

/-- A joiner without an answer: it is still polling. -/
def Caller.Waiting (c : Caller) : Prop := c.lease.kind = .join ∧ c.answer = none

instance : DecidablePred Caller.Waiting := fun c =>
  decidable_of_iff (c.lease.kind = .join ∧ c.answer.isNone = true) (by simp [Caller.Waiting])

variable (sizeBytes : CachedResponse → Int)

def worldStep (w : World) : WorldEvent → World
  | .claim store key ownerToken c =>
      match store.claim w.rows key ownerToken c with
      | (rows, .ok lease) => { w with rows := rows, callers := w.callers ++ [lease.caller rows] }
      | (rows, .error _) => { w with rows := rows }
  | .poll i now =>
      match w.callers[i]? with
      | none => w
      | some caller =>
          if caller.Waiting then
            match awaitPublished w.rows caller.lease.key now with
            | none => w
            | some result => { w with callers := w.callers.set i { caller with
                answer := some (result.map fun response =>
                  ⟨response, tokenOf w.rows caller.lease.key.operation⟩) } }
          else w
  | .complete i response c =>
      match w.callers[i]? with
      | none => w
      | some caller =>
          match caller.lease.complete sizeBytes w.rows response c with
          | (rows, .ok lease) => { w with
              rows := rows
              callers := w.callers.set i { caller with lease := lease }
              publications := ⟨lease.key, lease.ownerToken, response⟩ :: w.publications }
          | (rows, .error _) => { w with rows := rows }
  | .abandon i =>
      match w.callers[i]? with
      | none => w
      | some caller => { w with rows := caller.lease.abandon w.rows }

/-! ### What a step does -/

/-- A joiner receives what it reads from a published row of its operation. -/
theorem awaitPublished_ok {rows : ReplayRows} {key : ReplayKey} {now : Int} {cached : CachedResponse}
    (h : awaitPublished rows key now = some (.ok cached)) :
    ∃ r s, rows.find? key.operation = some r ∧ r.response? = some s ∧ cachedResponse s = .ok cached := by
  unfold awaitPublished readRow at h
  cases hr : rows.find? key.operation with
  | none => simp [hr, replayUnavailable, pure, Except.pure] at h
  | some r =>
      cases hs : r.state with
      | claimed =>
          simp only [hr, hs, pure, Except.pure] at h
          split_ifs at h
          simp at h
      | published t e s =>
          cases hc : cachedResponse s with
          | error e => simp [hr, hs, hc, bind, Except.bind] at h
          | ok cached' =>
              simp [hr, hs, hc, bind, Except.bind, pure, Except.pure] at h
              exact ⟨r, s, rfl, by simp [ReplayRow.response?, hs], h ▸ hc⟩

/-- A completion publishes under its lease's token, abandons it, or leaves the rows alone. -/
theorem complete_cases (lease : ReplayLease) (rows : ReplayRows) (response : CachedResponse)
    (c : PublishClock) :
    (∃ rows', replayPublish rows (lease.publication response) c = .ok (rows', true) ∧
      lease.kind = .owner ∧ lease.complete sizeBytes rows response c
        = (rows', .ok { lease with cached := some response })) ∨
    ∃ e, lease.complete sizeBytes rows response c = (rows, .error e) ∨
      lease.complete sizeBytes rows response c = (lease.abandon rows, .error e) := by
  unfold ReplayLease.complete
  split_ifs with hkind hsize
  · exact .inr ⟨_, .inl rfl⟩
  · exact .inr ⟨_, .inr rfl⟩
  · cases hp : replayPublish rows (lease.publication response) c with
    | error e => exact .inr ⟨_, .inl rfl⟩
    | ok result =>
        obtain ⟨rows', b⟩ := result
        cases b with
        | true => exact .inl ⟨rows', rfl, not_not.mp hkind, rfl⟩
        | false =>
            rcases replayPublish_eq_ok hp with ⟨hb, -⟩ | ⟨-, rfl, -⟩
            · cases hb
            · exact .inr ⟨_, .inl rfl⟩

end Experiential.Replay
