import Experiential.Gateway.Start
import Experiential.Gateway.Reconcile
import Experiential.Lib.Run

/-! # The gateway as a system

`acceptRequest` records one accepted request. A caller operation (an idempotency key, hashed)
names at most one live request for an organization, alias revision and surface: a second one
is admitted only when the latest is a dead owner, that is, it was closed by the reconciler or
is still open past its own deadline. `acceptRequest_eq_ok` is the whole effect: the call
returns the receipt of an equal earlier call, or inserts exactly one open request.

A `GatewayCall` is one call of one of the six money functions; `execute` runs it against the
database at the instants of its `Env`, and a call that raises leaves the database as it was.
`administer` stands for everything outside the six functions that edits configuration and
organizations.

Every successful call is a sequence of `Move`s: an accepted request, a reserved attempt, a
settled attempt (by a call or by the reconciler) or a closed request. `execute_moves` proves
it once; an invariant is then proved move by move. `Terms` are conditions on the moves, and
`Meets` is what a call must satisfy so that all its moves meet them. -/

namespace Experiential.Gateway

/-- The parameters of `gateway_accept_request`. -/
structure AcceptArgs where
  requestId : String
  orgId : Nat
  apiKeyId : Nat
  aliasName : String
  aliasRevisionId : String
  apiSurface : ApiSurface
  canonicalRequestSha256 : String
  callerOperationSha256 : Option String
  deadlineAt : Option Int
  promptSha256 : Option String
  conversationSha256 : Option String
  stablePrefixChars : Option Int
deriving DecidableEq

/-- The row an accept inserts. -/
def AcceptArgs.row (p : AcceptArgs) (deadlineAt now : Int) : GatewayRequest where
  requestId := p.requestId
  orgId := p.orgId
  apiKeyId := some p.apiKeyId
  aliasName := p.aliasName
  aliasRevisionId := p.aliasRevisionId
  apiSurface := p.apiSurface
  canonicalRequestSha256 := p.canonicalRequestSha256
  callerOperationSha256 := p.callerOperationSha256
  acceptedAt := now
  deadlineAt := deadlineAt
  terminalState := none
  terminalAt := none
  terminalFailureClass := none
  terminalErrorMessage := none
  promptSha256 := p.promptSha256
  conversationSha256 := p.conversationSha256
  stablePrefixChars := p.stablePrefixChars

/-- Does the accepted row carry the content of the call?  Lineage takes no part. -/
def AcceptArgs.sameContent (p : AcceptArgs) (r : GatewayRequest) : Prop :=
  r.orgId = p.orgId ∧ r.apiKeyId = some p.apiKeyId ∧ r.aliasRevisionId = p.aliasRevisionId ∧
    r.apiSurface = p.apiSurface ∧ r.canonicalRequestSha256 = p.canonicalRequestSha256 ∧
    r.callerOperationSha256 = p.callerOperationSha256

instance (p : AcceptArgs) (r : GatewayRequest) : Decidable (p.sameContent r) := by
  unfold AcceptArgs.sameContent
  infer_instance

/-- The latest request of a caller operation on this alias revision and surface. -/
def Db.priorOperation (db : Db) (p : AcceptArgs) (operation : String) : Option GatewayRequest :=
  Table.greatestBy (·.acceptedAt) (db.requests.rows.filter (fun r =>
    decide (r.orgId = p.orgId) && decide (r.aliasRevisionId = p.aliasRevisionId) &&
      decide (r.apiSurface = p.apiSurface) &&
      decide (r.callerOperationSha256 = some operation)))

/-- A dead owner: closed by the reconciler, or open past its own deadline. -/
def GatewayRequest.reclaimable (r : GatewayRequest) (now : Int) : Bool :=
  decide (r.terminalState = some .expiredBeforeDispatch) ||
    decide (r.terminalState = some .unknownAfterCrash) ||
    (decide (r.terminalState = none) && decide (r.deadlineAt < now))

/-- The idempotency gate of a keyed accept. -/
def admitOperation (db : Db) (p : AcceptArgs) (now : Int) : Raises Unit :=
  match p.callerOperationSha256 with
  | none => return ()
  | some operation =>
      match db.priorOperation p operation with
      | none => return ()
      | some prior => do
          ensure (prior.canonicalRequestSha256 = p.canonicalRequestSha256) (raised .P1020
            ("idempotency_conflict: the caller operation key was reused with different request " ++
              "content; mint a new Idempotency-Key"))
          ensure (prior.reclaimable now = true) (raised .P1021
            ("idempotency_replay_unavailable: a matching keyed request exists but durable content " ++
              "replay is unavailable; resend the full request with a new Idempotency-Key"))

/-- `gateway_accept_request`. -/
def acceptRequest (db : Db) (p : AcceptArgs) (now : Int) : Raises Db := do
  let deadlineAt ← require p.deadlineAt
    (raised .c22023 "accepted gateway request requires a deadline")
  ensure (∃ k ∈ db.config.apiKeys.find? p.apiKeyId, k.orgId = p.orgId)
    (raised .c42501 "gateway request key attribution is invalid")
  ensure (∃ k ∈ db.config.apiKeys.find? p.apiKeyId, k.live now = true)
    (raised .c42501 "gateway request api key is revoked or expired")
  match db.requests.find? p.requestId with
  | some existing => do
      ensure (p.sameContent existing)
        (raised .c23505 "gateway request id is bound to different accepted content")
      return db
  | none => do
      admitOperation db p now
      db.insertRequest (p.row deadlineAt now)

/-! ### What an accept does -/

variable {db db' : Db}

theorem acceptRequest_eq_ok {p : AcceptArgs} {now : Int} (h : acceptRequest db p now = .ok db') :
    (db' = db ∧ ∃ r, db.requests.find? p.requestId = some r ∧ p.sameContent r) ∨
    ∃ d, p.deadlineAt = some d ∧ db.requests.find? p.requestId = none ∧
      admitOperation db p now = .ok () ∧ db.insertRequest (p.row d now) = .ok db' := by
  simp only [acceptRequest, bind_eq_ok, require_eq_ok, ensure_eq_ok] at h
  obtain ⟨d, hd, -, -, -, -, h⟩ := h
  cases hr : db.requests.find? p.requestId with
  | some r =>
      simp only [hr, bind_eq_ok, ensure_eq_ok, pure_eq_ok] at h
      obtain ⟨-, hsame, rfl⟩ := h
      exact .inl ⟨rfl, r, rfl, hsame⟩
  | none =>
      simp only [hr, bind_eq_ok] at h
      obtain ⟨u, hadm, h⟩ := h
      exact .inr ⟨d, hd, rfl, hadm, h⟩

/-! ### Calls -/

/-- The parameters of `gateway_accept_and_start_attempt`. -/
structure AcceptAndStartArgs extends StartArgs where
  apiKeyId : Nat
  aliasName : String
  aliasRevisionId : String
  apiSurface : ApiSurface
  canonicalRequestSha256 : String
  deadlineAt : Option Int
  promptSha256 : Option String
  conversationSha256 : Option String
  stablePrefixChars : Option Int
deriving DecidableEq

/-- The accept the fold makes: it never carries a caller operation. -/
def AcceptAndStartArgs.accept (p : AcceptAndStartArgs) : AcceptArgs where
  requestId := p.requestId
  orgId := p.orgId
  apiKeyId := p.apiKeyId
  aliasName := p.aliasName
  aliasRevisionId := p.aliasRevisionId
  apiSurface := p.apiSurface
  canonicalRequestSha256 := p.canonicalRequestSha256
  callerOperationSha256 := none
  deadlineAt := p.deadlineAt
  promptSha256 := p.promptSha256
  conversationSha256 := p.conversationSha256
  stablePrefixChars := p.stablePrefixChars

inductive GatewayCall where
  | accept (p : AcceptArgs)
  | start (p : StartArgs)
  | acceptAndStart (p : AcceptAndStartArgs)
  | settle (p : SettleArgs)
  | finish (p : FinishArgs)
  | reconcile (graceSeconds : Option Int)
deriving DecidableEq

/-- The clock readings of one call, and the identifier the database would draw for an attempt. -/
structure Env where
  now : Int
  clock : StartClock
  attemptId : String
deriving DecidableEq

/-- Run one call. -/
def execute (db : Db) (call : GatewayCall × Env) : Raises Db :=
  match call.1 with
  | .accept p => acceptRequest db p call.2.now
  | .start p => do
      let (db', _) ← startAttempt db p call.2.clock call.2.attemptId
      return db'
  | .acceptAndStart p => do
      let db₁ ← acceptRequest db p.accept call.2.now
      let (db', _) ← startAttempt db₁ p.toStartArgs call.2.clock call.2.attemptId
      return db'
  | .settle p => settleAttempt db p call.2.now
  | .finish p => finishRequest db p call.2.now
  | .reconcile graceSeconds => do
      let (db', _, _) ← reconcileCrashed db graceSeconds call.2.now
      return db'

/-- The system driven by calls only. -/
def callStep : Db → GatewayCall × Env → Db := orStay execute

variable {call : GatewayCall × Env}

theorem callStep_of_ok (h : execute db call = .ok db') : callStep db call = db' := orStay_of_ok h

/-- A call, or an edit of configuration and organizations from outside the gateway. -/
inductive GatewayEvent where
  | call (call : GatewayCall × Env)
  | administer (config : Config) (organizations : Table Organization.id Organization.Check)

/-- The system driven by calls and edits. -/
def step (db : Db) : GatewayEvent → Db
  | .call c => callStep db c
  | .administer config organizations =>
      { db with config := config, organizations := organizations }

/-! ### Moves -/

/-- Conditions on moves, each in the state the move is made in. -/
structure Terms where
  accept : Db → AcceptArgs → Int → Prop := fun _ _ _ => True
  start : Db → StartArgs → StartClock → Prop := fun _ _ _ => True
  settle : Db → GatewayAttempt → Settlement → Prop := fun _ _ _ => True
  crash : Db → GatewayAttempt → Prop := fun _ _ => True

/-- One elementary change of the database, under `T`. -/
inductive Move (T : Terms) : Db → Db → Prop
  | accept {db db' : Db} (p : AcceptArgs) (deadlineAt now : Int) (hT : T.accept db p now)
      (hfresh : db.requests.find? p.requestId = none) (hgate : admitOperation db p now = .ok ())
      (h : db.insertRequest (p.row deadlineAt now) = .ok db') : Move T db db'
  | reserve {db db' : Db} (p : StartArgs) (r : GatewayRequest) (c : StartClock) (f : Funding)
      (id : String) (hT : T.start db p c) (hr : Dispatchable db p c r) (hf : Funded db p r c f)
      (h : db.insertAttempt (p.row r f id c) = .ok db') : Move T db db'
  | settle {db db' : Db} (p : SettleArgs) (o : Outcome) (u : UsageSource) (now : Int)
      (a : GatewayAttempt) (s : Settlement) (hs : p.settlement a o u now = .ok s) (hT : T.settle db a s)
      (h : Settles db a s db') : Move T db db'
  | crash {db db' : Db} (a : GatewayAttempt) (now : Int) (hT : T.crash db a)
      (h : Settles db a (a.crash now) db') : Move T db db'
  | close {db db' : Db} (r : GatewayRequest) (s : TerminalState) (h : Closes db r s db') : Move T db db'

/-- A sequence of moves. -/
abbrev Moves (T : Terms) : Db → Db → Prop := Relation.ReflTransGen (Move T)

/-- **Move rule**: what every move preserves, every sequence of moves preserves. -/
theorem Moves.invariant {T : Terms} {I : Db → Prop} (hI : ∀ db db', Move T db db' → I db → I db')
    (h : Moves T db db') (hdb : I db) : I db' := by
  induction h with
  | refl => exact hdb
  | tail _ hmove ih => exact hI _ _ hmove ih

/-! ### What a call must meet -/

/-- Where the second loop of the reconciler, begun in `db₀`, settles the attempt `a`. -/
structure CrashSite (db₀ : Db) (graceSeconds now : Int) (db : Db) (a : GatewayAttempt) : Prop where
  mem₀ : a ∈ db₀.attempts
  crashed : db₀.crashed graceSeconds now a = true
  /-- An event of the request was there before, or came with another of its crashed attempts. -/
  event : ∀ e, db.usageEvents.find? a.requestId = some e →
    db₀.usageEvents.find? a.requestId = some e ∨
    ∃ b ∈ db₀.attempts, b ≠ a ∧ b.requestId = a.requestId ∧ db₀.crashed graceSeconds now b = true

/-- The call meets the terms in `db`. -/
def Meets (T : Terms) (db : Db) (call : GatewayCall × Env) : Prop :=
  match call.1 with
  | .accept p => T.accept db p call.2.now
  | .start p => T.start db p call.2.clock
  | .acceptAndStart p => T.accept db p.accept call.2.now ∧
      ∀ db₁, acceptRequest db p.accept call.2.now = .ok db₁ → T.start db₁ p.toStartArgs call.2.clock
  | .settle p => ∀ outcome usageSource a s, p.state = some outcome → p.usageSource = some usageSource →
      db.attempts.find? p.attemptId = some a → a.state = .dispatched →
      p.settlement a outcome usageSource call.2.now = .ok s → T.settle db a s
  | .finish _ => True
  | .reconcile graceSeconds => ∀ g ∈ graceSeconds, ∀ db₁ a, CrashSite db g call.2.now db₁ a →
      T.crash db₁ a

theorem meets_of_forall {db : Db} (call : GatewayCall × Env) : Meets {} db call := by
  obtain ⟨c, e⟩ := call
  cases c with
  | acceptAndStart p => exact ⟨trivial, fun _ _ => trivial⟩
  | settle p => exact fun _ _ _ _ _ _ _ _ _ => trivial
  | reconcile g => exact fun _ _ _ _ _ => trivial
  | _ => trivial

variable {a : GatewayAttempt}

/-- A settle call meets the terms when the settlement it computes does. -/
theorem meets_settle {T : Terms} {db : Db} {p : SettleArgs} {e : Env} {o : Outcome} {u : UsageSource}
    {s : Settlement} (ho : p.state = some o) (hu : p.usageSource = some u)
    (ha : db.attempts.find? p.attemptId = some a) (hs : p.settlement a o u e.now = .ok s)
    (hT : T.settle db a s) : Meets T db (.settle p, e) := by
  intro o' u' a' s' ho' hu' ha' _ hs'
  cases ho.symm.trans ho'
  cases hu.symm.trans hu'
  cases ha.symm.trans ha'
  cases hs.symm.trans hs'
  exact hT

/-! ### A call is a sequence of moves -/

variable {T : Terms}

theorem accept_moves {p : AcceptArgs} {now : Int} (h : acceptRequest db p now = .ok db')
    (hT : T.accept db p now) : Moves T db db' := by
  rcases acceptRequest_eq_ok h with ⟨rfl, -⟩ | ⟨d, -, hfresh, hadm, hins⟩
  · exact .refl
  · exact .single (.accept p d now hT hfresh hadm hins)

theorem start_moves {p : StartArgs} {c : StartClock} {id id' : String}
    (h : startAttempt db p c id = .ok (db', id')) (hT : T.start db p c) : Moves T db db' := by
  rcases startAttempt_eq_ok h with ⟨rfl, -⟩ | ⟨r, f, hr, hf, hins⟩
  · exact .refl
  · exact .single (.reserve p r c f id hT hr hf hins)

theorem closesIf_moves {finalize : Bool} {requestId : String} {s : TerminalState}
    (h : ClosesIf finalize db requestId s db') : Moves T db db' := by
  rcases h with ⟨-, rfl⟩ | ⟨-, r, -, hcl⟩
  · exact .refl
  · exact .single (.close r s hcl)

theorem expireLoop_moves {db : Db} {now : Int} {rs : List GatewayRequest} {acc : Db × Nat}
    (h : rs.foldlM (expireRequest now) (db, 0) = .ok acc) : Moves T db acc.1 := by
  refine foldlM_invariant (I := fun acc => Moves T db acc.1) ?_ rs (db, 0) acc h .refl
  intro acc₁ r acc₂ hstep hacc
  rcases expireRequest_eq_ok hstep with ⟨q, -, -, -, hcl⟩ | ⟨hsame, -⟩
  · exact hacc.tail (.close q _ hcl)
  · rw [hsame]
    exact hacc

/-- The invariant of the second loop, begun in `db` with the attempts `all` and with those in
`rest` still to come. -/
structure CrashLoop (T : Terms) (db : Db) (all : List GatewayAttempt) (db' : Db)
    (rest : List GatewayAttempt) : Prop extends StillToCome all db' rest where
  moves : Moves T db db'
  event : ∀ id e, db'.usageEvents.find? id = some e → db.usageEvents.find? id = some e ∨
    ∃ b ∈ all, b ∉ rest ∧ b.requestId = id

theorem CrashLoop.step {db : Db} {all : List GatewayAttempt} {now : Int} {acc acc' : Db × Nat}
    {rest : List GatewayAttempt} (hI : CrashLoop T db all acc.1 (a :: rest))
    (h : crashAttempt now acc a = .ok acc') (hd : a.state = .dispatched) (hT : T.crash acc.1 a) :
    CrashLoop T db all acc'.1 rest := by
  obtain ⟨db₁, r, hset, hr, hcl⟩ := crashAttempt_eq_ok h (hI.mem a List.mem_cons_self) hd
  refine ⟨hI.toStillToCome.step hset hcl, (hI.moves.tail (.crash a now hT hset)).tail (.close r _ hcl), ?_⟩
  intro id e he
  obtain ⟨-, hrid⟩ := Table.find?_eq_some.mp hr
  by_cases hid : id = a.requestId
  · exact .inr ⟨a, hI.sub a List.mem_cons_self, hI.not_mem, hid.symm⟩
  · rw [hcl.usageEvents_find? (hrid ▸ hid), hset.usageEvents] at he
    rcases hI.event id e he with he | ⟨b, hb, hnot, hbid⟩
    · exact .inl he
    · exact .inr ⟨b, hb, fun hmem => hnot (List.mem_cons_of_mem _ hmem), hbid⟩

theorem reconcile_moves {graceSeconds : Option Int} {now : Int} {n m : Nat}
    (h : reconcileCrashed db graceSeconds now = .ok (db', n, m))
    (hT : ∀ g ∈ graceSeconds, ∀ db₁ a, CrashSite db g now db₁ a → T.crash db₁ a) : Moves T db db' := by
  obtain ⟨g, db₁, rfl, -, h1, h2⟩ := reconcileCrashed_eq_ok h
  have hexp : Expires db db₁ := expireLoop_expires h1
  refine (expireLoop_moves h1).trans ?_
  set all := db₁.attempts.rows.filter (db₁.crashed g now) with hall
  have hcand : ∀ a ∈ all, a ∈ db.attempts ∧ db.crashed g now a = true := by
    intro a ha
    obtain ⟨hmem, hc⟩ := List.mem_filter.mp ha
    have hmem' : a ∈ db.attempts := hexp.attempts ▸ hmem
    exact ⟨hmem', by rw [← hexp.crashed hmem']; exact hc⟩
  have hI := foldlM_rec (I := fun acc rest => CrashLoop T db₁ all acc.1 rest) ?_ all (db₁, 0) h2
    ⟨.refl, .refl, fun _ _ he => .inl he⟩
  · exact hI.moves
  · intro acc a rest acc' hstep hacc
    obtain ⟨hmem, hc⟩ := hcand a (hacc.sub a List.mem_cons_self)
    have hd : a.state = .dispatched := by
      simp only [Db.crashed, Bool.and_eq_true, decide_eq_true_eq] at hc
      exact hc.1
    refine hacc.step hstep hd (hT g rfl acc.1 a ⟨hmem, hc, ?_⟩)
    intro e he
    rcases hacc.event _ e he with he | ⟨b, hb, hnot, hbid⟩
    · refine .inl ?_
      rw [← hexp.events]
      · exact he
      · simp only [Db.hasAttempt, Table.any_eq_true, decide_eq_true_eq]
        exact ⟨a, hmem, rfl⟩
    · obtain ⟨hbm, hbc⟩ := hcand b hb
      refine .inr ⟨b, hbm, ?_, hbid, hbc⟩
      rintro rfl
      exact hnot List.mem_cons_self

/-- **Every successful call that meets the terms is a sequence of moves under them.** -/
theorem execute_moves (h : execute db call = .ok db') (hT : Meets T db call) : Moves T db db' := by
  obtain ⟨c, e⟩ := call
  cases c with
  | accept p => exact accept_moves h hT
  | start p =>
      simp only [execute, bind_eq_ok, pure_eq_ok] at h
      obtain ⟨⟨db₁, id⟩, hs, rfl⟩ := h
      exact start_moves hs hT
  | acceptAndStart p =>
      simp only [execute, bind_eq_ok, pure_eq_ok] at h
      obtain ⟨db₁, ha, ⟨db₂, id⟩, hs, rfl⟩ := h
      exact (accept_moves ha hT.1).trans (start_moves hs (hT.2 db₁ ha))
  | settle p =>
      obtain ⟨o, u, a, ho, hu, ha, hcase⟩ := settleAttempt_eq_ok h
      rcases hcase with ⟨s, db₁, hs, hset, hcl⟩ | ⟨-, -, hcl⟩
      · exact .head (.settle p o u e.now a s hs (hT o u a s ho hu ha hset.dispatched hs) hset)
          (closesIf_moves hcl)
      · exact closesIf_moves hcl
  | finish p =>
      rcases finishRequest_eq_ok h with ⟨rfl, -⟩ | ⟨r, s, -, -, -, hcl⟩
      · exact .refl
      · exact .single (.close r s hcl)
  | reconcile g =>
      simp only [execute, bind_eq_ok, pure_eq_ok] at h
      obtain ⟨⟨db₁, n, m⟩, hs, rfl⟩ := h
      exact reconcile_moves hs hT

/-! ### What every move keeps -/

theorem Move.config (h : Move T db db') : db'.config = db.config := by
  cases h with
  | accept p d now hT hfresh hgate h =>
      obtain ⟨t, hfk, -, rfl⟩ := Db.insertRequest_eq_ok h
      rfl
  | reserve p r c f id hT hr hf h =>
      obtain ⟨t, hfk, -, rfl⟩ := Db.insertAttempt_eq_ok h
      rfl
  | settle p o u now a s hs hT h | crash a now hT h | close r s h => exact h.config

/-- `r'` is `r`, or `r` ended while it was open. -/
def GatewayRequest.Later (r r' : GatewayRequest) : Prop :=
  r' = r ∨ r.terminalState = none ∧ ∃ s, r.EndsAs r' s

theorem GatewayRequest.Later.trans {r q x : GatewayRequest} (h : r.Later q) (h' : q.Later x) :
    r.Later x := by
  rcases h with rfl | ⟨hopen, s, t, c, m, rfl⟩
  · exact h'
  · rcases h' with rfl | ⟨hopen', -⟩
    · exact .inr ⟨hopen, s, t, c, m, rfl⟩
    · cases hopen'

theorem GatewayRequest.Later.frozen {r r' : GatewayRequest} (h : r.Later r') :
    r'.requestId = r.requestId ∧ r'.acceptedAt = r.acceptedAt ∧ r'.deadlineAt = r.deadlineAt := by
  rcases h with rfl | ⟨-, s, t, c, m, rfl⟩ <;> exact ⟨rfl, rfl, rfl⟩

theorem GatewayRequest.Later.ended {r r' : GatewayRequest} (h : r.Later r')
    (hended : r.terminalState ≠ none) : r'.terminalState ≠ none := by
  rcases h with rfl | ⟨hopen, -⟩
  · exact hended
  · exact absurd hopen hended

/-- The requests of `db'` are those of `db`, each as it was or ended since. -/
structure SameRequests (db db' : Db) : Prop where
  later : ∀ id r, db.requests.find? id = some r → ∃ r', db'.requests.find? id = some r' ∧ r.Later r'
  absent : ∀ id, db.requests.find? id = none → db'.requests.find? id = none

namespace SameRequests

theorem of_eq (h : db'.requests = db.requests) : SameRequests db db' :=
  ⟨fun _ r hr => ⟨r, h ▸ hr, .inl rfl⟩, fun _ hid => h ▸ hid⟩

theorem trans {db₁ db₂ db₃ : Db} (h : SameRequests db₁ db₂) (h' : SameRequests db₂ db₃) :
    SameRequests db₁ db₃ := by
  refine ⟨?_, fun id hid => h'.absent id (h.absent id hid)⟩
  intro id r hr
  obtain ⟨q, hq, hl⟩ := h.later id r hr
  obtain ⟨x, hx, hl'⟩ := h'.later id q hq
  exact ⟨x, hx, hl.trans hl'⟩

theorem earlier (h : SameRequests db db') {r' : GatewayRequest} (hr' : r' ∈ db'.requests) :
    ∃ r ∈ db.requests, r.Later r' := by
  have hfind := Table.find?_key hr'
  cases hr : db.requests.find? r'.requestId with
  | none =>
      rw [h.absent _ hr] at hfind
      cases hfind
  | some r =>
      obtain ⟨r'', hr'', hl⟩ := h.later _ r hr
      obtain rfl : r'' = r' := Option.some.inj (hr''.symm.trans hfind)
      exact ⟨r, (Table.find?_eq_some.mp hr).1, hl⟩

end SameRequests

theorem Closes.sameRequests {r : GatewayRequest} {s : TerminalState}
    (h : Closes db r s db') : SameRequests db db' := by
  refine ⟨?_, fun _ hid => h.requests_absent hid⟩
  intro id q hq
  obtain ⟨q', hq', hcase⟩ := h.requests_find? id q hq
  refine ⟨q', hq', ?_⟩
  rcases hcase with ⟨rfl, -⟩ | ⟨rfl, hopen, hends⟩
  · exact .inl rfl
  · exact .inr ⟨hopen, s, hends⟩

theorem Expires.sameRequests (h : Expires db db') : SameRequests db db' := by
  refine ⟨?_, h.absent⟩
  intro id r hr
  obtain ⟨r', hr', hcase⟩ := h.requests id r hr
  refine ⟨r', hr', ?_⟩
  rcases hcase with rfl | ⟨hopen, -, hends⟩
  · exact .inl rfl
  · exact .inr ⟨hopen, _, hends⟩

/-- A request stays, with what was accepted; it ends at most once. -/
theorem Move.requests_find? (h : Move T db db') {id : String} {r : GatewayRequest}
    (hr : db.requests.find? id = some r) : ∃ r', db'.requests.find? id = some r' ∧ r.Later r' := by
  cases h with
  | accept p d now hT hfresh hgate h =>
      obtain ⟨t, hfk, ht, rfl⟩ := Db.insertRequest_eq_ok h
      refine ⟨r, ?_, .inl rfl⟩
      rw [Table.find?_insert ht, if_neg, hr]
      rintro rfl
      rw [show (p.row d now).requestId = p.requestId from rfl, hfresh] at hr
      cases hr
  | reserve p q c f id hT hq hf h =>
      obtain ⟨t, hfk, -, rfl⟩ := Db.insertAttempt_eq_ok h
      exact ⟨r, hr, .inl rfl⟩
  | settle p o u now a s hs hT h | crash a now hT h => exact ⟨r, h.requests ▸ hr, .inl rfl⟩
  | close q s h => exact h.sameRequests.later id r hr

/-- `a'` is `a`, or `a` settled while it was dispatched. -/
def GatewayAttempt.Later (a a' : GatewayAttempt) : Prop :=
  a' = a ∨ a.state = .dispatched ∧ ∃ s, a' = a.settle s

theorem GatewayAttempt.Later.trans {a b c : GatewayAttempt} (h : a.Later b) (h' : b.Later c) :
    a.Later c := by
  rcases h with rfl | ⟨hd, s, rfl⟩
  · exact h'
  · rcases h' with rfl | ⟨hd', -⟩
    · exact .inr ⟨hd, s, rfl⟩
    · exact absurd hd' s.terminal

theorem Settles.attempts_later {b : GatewayAttempt} {s : Settlement} (h : Settles db b s db') (ha : a ∈ db.attempts) :
    ∃ a' ∈ db'.attempts, a.Later a' := by
  rcases h.attempts.mem_of_mem ha with rfl | hmem
  · exact ⟨_, h.attempts.mem_new, .inr ⟨h.dispatched, s, rfl⟩⟩
  · exact ⟨a, hmem, .inl rfl⟩

/-- An attempt stays, with what was reserved; it is settled at most once. -/
theorem Move.attempts_later (h : Move T db db') (ha : a ∈ db.attempts) : ∃ a' ∈ db'.attempts, a.Later a' := by
  cases h with
  | accept p d now hT hfresh hgate h =>
      obtain ⟨t, hfk, -, rfl⟩ := Db.insertRequest_eq_ok h
      exact ⟨a, ha, .inl rfl⟩
  | reserve p r c f id hT hr hf h =>
      obtain ⟨t, hfk, ht, rfl⟩ := Db.insertAttempt_eq_ok h
      exact ⟨a, (Table.mem_insert ht).mpr (.inr ha), .inl rfl⟩
  | settle p o u now b s hs hT h | crash b now hT h => exact h.attempts_later ha
  | close r s h => exact ⟨a, h.attempts.symm ▸ ha, .inl rfl⟩

theorem Moves.attempts_later (h : Moves T db db') (ha : a ∈ db.attempts) : ∃ a' ∈ db'.attempts, a.Later a' := by
  induction h with
  | refl => exact ⟨a, ha, .inl rfl⟩
  | tail _ hmove ih =>
      obtain ⟨b, hb, hab⟩ := ih
      obtain ⟨c, hc, hbc⟩ := hmove.attempts_later hb
      exact ⟨c, hc, hab.trans hbc⟩

theorem Move.mem_of_settled (h : Move T db db')
    (ha : a ∈ db.attempts) (hs : a.state ≠ .dispatched) : a ∈ db'.attempts := by
  obtain ⟨a', ha', rfl | ⟨hd, -⟩⟩ := h.attempts_later ha
  · exact ha'
  · exact absurd hd hs

/-- A call that meets the terms, successful or not, is a sequence of moves. -/
theorem callStep_moves {db : Db} (hT : Meets T db call) : Moves T db (callStep db call) :=
  orStay_preserves (I := Moves T db) (fun _ h _ => execute_moves h hT) .refl

/-- A call that meets the terms preserves what every move under them preserves. -/
theorem callStep_preserves {I : Db → Prop} (hI : ∀ db db', Move T db db' → I db → I db') {db : Db}
    (hT : Meets T db call) (hdb : I db) : I (callStep db call) :=
  (callStep_moves hT).invariant hI hdb

theorem step_attempts_later (db : Db) (event : GatewayEvent)
    (ha : a ∈ db.attempts) : ∃ a' ∈ (step db event).attempts, a.Later a' := by
  cases event with
  | call c => exact (callStep_moves (meets_of_forall c)).attempts_later ha
  | administer config organizations => exact ⟨a, ha, .inl rfl⟩

theorem run_attempts_later (db : Db) (events : List GatewayEvent)
    (ha : a ∈ db.attempts) : ∃ a' ∈ (run step db events).attempts, a.Later a' := by
  refine run_invariant_of_forall (I := fun db' => ∃ a' ∈ db'.attempts, a.Later a') ?_ events db
    ⟨a, ha, .inl rfl⟩
  rintro db' event ⟨b, hb, hab⟩
  obtain ⟨c, hc, hbc⟩ := step_attempts_later db' event hb
  exact ⟨c, hc, hab.trans hbc⟩

/-! ### A small installation -/

/-- The database before the first request. -/
def Db.initial (config : Config) (organizations : Table Organization.id Organization.Check) : Db where
  config := config
  organizations := organizations
  requests := .empty
  attempts := .empty
  usageEvents := .empty
  usageDaily := .empty
  attempts_request := attempts_request_empty

/-- One unlimited key of organization 1, no budgets and no promotions. -/
def sampleConfig : Config where
  apiKeys := ⟨[⟨7, 1, "key", some "identity", none, none, none⟩], by decide, fun _ _ => trivial⟩
  keyLimits := ⟨[⟨7, none, none, none⟩], by decide, by decide⟩
  creditLedger := []
  organizationMembers := []
  modelPromotions := .empty
  modelPromotionModels := []
  modelPromotionNotices := []
  orgLabels := []
  gatewayBudgets := .empty
  aliasRevisions := ⟨[⟨"revision", "alias"⟩], by decide, fun _ _ => trivial⟩
  preVerifyAllowance := none
  webappUrl := "https://example.com"
  supportPhone := "555"
  supportEmail := "support"

/-- Organization 1 with 200 USD of granted credit. -/
def sampleOrganizations : Table Organization.id Organization.Check :=
  ⟨[⟨1, 200000000, 0, none, none, 0⟩], by decide, by decide⟩

def sampleDb : Db := .initial sampleConfig sampleOrganizations

/-- A discount of 50 percent. -/
def halfOff : Percent := ⟨50, 0, by omega⟩

/-- An accept by the sample key, of the given caller operation. -/
def sampleAccept (requestId : String) (operation : Option String) (deadlineAt : Int) : AcceptArgs where
  requestId := requestId
  orgId := 1
  apiKeyId := 7
  aliasName := "alias"
  aliasRevisionId := "revision"
  apiSurface := .responses
  canonicalRequestSha256 := "body"
  callerOperationSha256 := operation
  deadlineAt := some deadlineAt
  promptSha256 := none
  conversationSha256 := none
  stablePrefixChars := none

/-- A start of the request, priced at one USD per token on either side. -/
def sampleStart (requestId : String) (ordinal : Int) (lane : BillingSource) (maximumCost : Int) :
    StartArgs where
  requestId := requestId
  orgId := 1
  attemptOrdinal := ordinal
  routeDepth := 0
  deploymentId := "deployment"
  provider := "provider"
  exactModelId := "model"
  poolId := "pool"
  catalogSha256 := "catalog"
  billingSource := lane
  pricingSource := none
  pricingEffectiveAt := none
  inputRate := some 1000000000000
  cachedInputRate := none
  outputRate := some 1000000000000
  reasoningRate := none
  maximumCost := some maximumCost

/-- A settlement with `tokens` output tokens. -/
def sampleSettle (attemptId : String) (state : Outcome) (tokens : Int) (finalize : Bool) : SettleArgs where
  attemptId := attemptId
  state := some state
  failureClass := none
  inputTokens := some 0
  cachedInputTokens := none
  outputTokens := some tokens
  reasoningTokens := none
  usageSource := some .observed
  finalizeRequest := finalize
  toolNames := none
  errorMessage := none
  firstTokenAt := none

/-- A call at one instant; `id` is the identifier an attempt would get. -/
def GatewayCall.atTime (call : GatewayCall) (t : Int) (id : String) : GatewayCall × Env :=
  (call, ⟨t, .at t, id⟩)

end Experiential.Gateway
