import Experiential.Gateway.System
import Experiential.Lib.Locks

/-! # Row locks of the money functions

Each of the six functions runs in one transaction and locks the rows of four tables: requests,
attempts, organizations and daily rollups. `callLocks` is the sequence of locks a call takes, in
order: its `select .. for update` statements, its updates and upserts, and the `key share` locks
of the foreign keys its inserts check. Two advisory locks come first: an accept with a caller
operation waits for the operation's, a reconciler gives up when it does not get its own.

Requests come before organizations and organizations before rollups, with attempts before all of
them; `callLocks_ascending` is that four of the six functions and the pass-through lane of a
fifth keep to it. A platform-funded `gateway_accept_and_start_attempt` locks the organization
first, and a reconciler goes from one request to the next. `calls_not_deadlocked` is the run
theorem, `money_functions_deadlock` has a cycle of each kind. -/

namespace Experiential.Gateway

/-! ### The rows -/

/-- What is locked: the rows of four tables, and the two advisory keys. -/
inductive LockedRow where
  | reconciler
  | operation (orgId : Nat) (aliasRevisionId : String) (surface : ApiSurface) (operation : String)
  | attempt (attemptId : String)
  | request (requestId : String)
  | organization (orgId : Nat)
  | daily (key : Nat × Nat × Int × String)
deriving DecidableEq

/-- Advisory keys, then attempts, requests, organizations and rollups. -/
def LockedRow.level : LockedRow → ℕ
  | .reconciler => 0
  | .operation .. => 1
  | .attempt _ => 2
  | .request _ => 3
  | .organization _ => 4
  | .daily _ => 5

@[simp] theorem level_operation (o : Nat) (a : String) (s : ApiSurface) (k : String) :
    (LockedRow.operation o a s k).level = 1 := rfl
@[simp] theorem level_attempt (id : String) : (LockedRow.attempt id).level = 2 := rfl
@[simp] theorem level_request (id : String) : (LockedRow.request id).level = 3 := rfl
@[simp] theorem level_organization (id : Nat) : (LockedRow.organization id).level = 4 := rfl
@[simp] theorem level_daily (k : Nat × Nat × Int × String) : (LockedRow.daily k).level = 5 := rfl

abbrev RowLock := Lock LockedRow

/-- Every attempt belongs to the organization of its request. -/
def Db.AttemptsOfOrg (db : Db) : Prop :=
  ∀ a ∈ db.attempts, ∀ r ∈ db.requests, r.requestId = a.requestId → r.orgId = a.orgId

/-- No move changes the organization of an attempt or of a request. -/
theorem Move.attemptsOfOrg {T : Terms} {db db' : Db} (h : Move T db db') (hdb : db.AttemptsOfOrg) :
    db'.AttemptsOfOrg := by
  have hrow : ∀ {a : GatewayAttempt} {r' : GatewayRequest}, a ∈ db.attempts → r' ∈ db'.requests →
      r'.requestId = a.requestId → r'.orgId = a.orgId := by
    intro a r' ha hr' hid
    obtain ⟨r, hr⟩ := db.request_of_attempt ha
    obtain ⟨q, hq, hlater⟩ := h.requests_find? hr
    have hfind := Table.find?_key hr'
    rw [hid, hq] at hfind
    obtain rfl := Option.some.inj hfind
    obtain ⟨hmem, hrid⟩ := Table.find?_eq_some.mp hr
    have horg := hdb a ha r hmem hrid
    rcases hlater with rfl | ⟨-, s, t, c, m, rfl⟩
    · exact horg
    · exact horg
  intro a' ha' r' hr' hid
  cases h with
  | accept p d now hT hfresh hgate h =>
      obtain ⟨t, hfk, -, rfl⟩ := Db.insertRequest_eq_ok h
      exact hrow ha' hr' hid
  | reserve p r c f id hT hr hf h =>
      obtain ⟨t, hfk, ht, rfl⟩ := Db.insertAttempt_eq_ok h
      rcases (Table.mem_insert ht).mp ha' with rfl | ha
      · have hfind := Table.find?_key hr'
        rw [hid] at hfind
        rw [show (p.row r f id c).requestId = p.requestId from rfl, hr.found] at hfind
        obtain rfl := Option.some.inj hfind
        exact hr.org
      · exact hrow ha hr' hid
  | settle p o u now b s hs hT h | crash b now hT h =>
      rcases h.attempts.mem_iff.mp ha' with rfl | ⟨ha, -⟩
      · exact hrow (a := b) h.attempts.mem hr' hid
      · exact hrow ha hr' hid
  | close r s h => exact hrow (h.attempts ▸ ha') hr' hid

theorem run_attemptsOfOrg (config : Config) (organizations : Table Organization.id Organization.Check)
    (calls : List (GatewayCall × Env)) : (run callStep (.initial config organizations) calls).AttemptsOfOrg := by
  refine run_invariant_of_forall (fun db call hdb => ?_) calls _ fun a ha => absurd ha (Table.not_mem_empty a)
  exact callStep_preserves (fun _ _ => Move.attemptsOfOrg) (meets_of_forall call) hdb

/-- A database a call may read. -/
structure Snapshot where
  db : Db
  attemptsOfOrg : db.AttemptsOfOrg

/-- The database after a run of calls. -/
def Snapshot.after (config : Config) (organizations : Table Organization.id Organization.Check)
    (calls : List (GatewayCall × Env)) : Snapshot :=
  ⟨run callStep (.initial config organizations) calls, run_attemptsOfOrg config organizations calls⟩

/-! ### The locks of a call -/

/-- `gateway_finalize_usage` of a request that ended at `terminalAt`: the event's foreign keys and
its bucket, unless the event is there already. -/
def finalizeLocks (db : Db) (r : GatewayRequest) (terminalAt : Int) : List RowLock :=
  if (db.usageEvents.find? r.requestId).isSome then []
  else
    let userId := coalesce ((r.apiKeyId.bind db.config.apiKeys.find?).bind (·.createdBy)) 0
    [⟨.request r.requestId, .keyShare⟩, ⟨.organization r.orgId, .keyShare⟩,
      ⟨.daily (r.orgId, userId, dayOf terminalAt, r.aliasName), .noKeyUpdate⟩,
      ⟨.organization r.orgId, .keyShare⟩]

/-- Make the request terminal if it is still open, and finalize its usage. -/
def closeLocks (db : Db) (requestId : String) (now : Int) : List RowLock :=
  match db.requests.find? requestId with
  | none => []
  | some r =>
      (if r.terminalState = none then [⟨.request r.requestId, .noKeyUpdate⟩] else []) ++
        finalizeLocks db r (coalesce r.terminalAt now)

/-- `gateway_accept_request`: a request that is there already is not locked. -/
def acceptLocks (db : Db) (p : AcceptArgs) : List RowLock :=
  match db.requests.find? p.requestId with
  | some _ => []
  | none =>
      (match p.callerOperationSha256 with
        | some operation =>
            [⟨.operation p.orgId p.aliasRevisionId p.apiSurface operation, .update⟩]
        | none => []) ++
      [⟨.request p.requestId, .update⟩, ⟨.organization p.orgId, .keyShare⟩]

/-- The row lock under which the platform-funded lane decides about money. -/
def hostLock (lane : BillingSource) (orgId : Nat) : List RowLock :=
  match lane with
  | .hostManaged => [⟨.organization orgId, .update⟩]
  | .customerManaged => []

/-- `gateway_start_attempt`. The attempt it inserts is seen by no other transaction before the
end, so nothing waits for it. -/
def startLocks (db : Db) (p : StartArgs) (c : StartClock) : List RowLock :=
  match db.requests.find? p.requestId with
  | none => []
  | some _ =>
      ⟨.request p.requestId, .update⟩ ::
        match beginAttempt db p c with
        | .ok (.admitted _) => hostLock p.billingSource p.orgId ++
            [⟨.request p.requestId, .keyShare⟩, ⟨.organization p.orgId, .keyShare⟩]
        | _ => []

/-- `gateway_accept_and_start_attempt`: the platform-funded lane locks the organization first. -/
def acceptAndStartLocks (db : Db) (p : AcceptAndStartArgs) (env : Env) : List RowLock :=
  hostLock p.billingSource p.orgId ++ acceptLocks db p.accept ++
    match acceptRequest db p.accept env.now with
    | .ok db₁ => startLocks db₁ p.toStartArgs env.clock
    | .error _ => []

/-- `gateway_settle_billing`: an amount, or an unknown cost to review, updates the organization. -/
def billLocks (a : GatewayAttempt) (s : Settlement) : List RowLock :=
  if a.promoFunded = false ∧ a.billingSource = .hostManaged ∧ (s.budgetSettled ≠ 0 ∨
      (s.state = .completed ∨ s.state = .incomplete ∨ s.state = .cancelled) ∧
        0 < coalesce s.outputTokens 0 ∧ s.estimatedCost = none) then
    [⟨.organization a.orgId, .noKeyUpdate⟩]
  else []

/-- `gateway_settle_attempt`. -/
def settleLocks (db : Db) (p : SettleArgs) (now : Int) : List RowLock :=
  match p.state, p.usageSource, db.attempts.find? p.attemptId with
  | some outcome, some usageSource, some a =>
      ⟨.attempt a.attemptId, .update⟩ ::
        if a.state = .dispatched then
          (if p.finalizeRequest then [⟨.request a.requestId, .update⟩] else []) ++
            match p.settlement a outcome usageSource now with
            | .ok s => ⟨.attempt a.attemptId, .noKeyUpdate⟩ :: billLocks a s ++
                (if p.finalizeRequest then closeLocks db a.requestId now else [])
            | .error _ => []
        else if a.state = outcome.attemptState ∧ p.finalizeRequest = true then
          closeLocks db a.requestId now
        else []
  | _, _, _ => []

/-- `gateway_finish_request`. -/
def finishLocks (db : Db) (p : FinishArgs) (now : Int) : List RowLock :=
  match db.requests.find? p.requestId with
  | none => []
  | some r => ⟨.request r.requestId, .update⟩ ::
      if r.orgId = p.orgId ∧ r.terminalState = none then
        ⟨.request r.requestId, .noKeyUpdate⟩ :: finalizeLocks db r now
      else []

/-- The rows the two cursors of a reconciler return, fetch by fetch: a loop fetches some rows ahead,
and the rows of a fetch are locked together. Each row comes with what its iteration reads. -/
structure Fetches where
  expired : List (List (GatewayRequest × Snapshot))
  crashed : List (List (GatewayAttempt × Snapshot))

/-- One iteration of the first loop, after its request was fetched. -/
def expireLocks (now : Int) (x : GatewayRequest × Snapshot) : List RowLock :=
  if (x.2.db.requests.find? x.1.requestId).any (fun r => decide (r.terminalState = none)) ∧
      x.2.db.hasAttempt x.1.requestId = false then closeLocks x.2.db x.1.requestId now
  else []

/-- One iteration of the second loop, after its attempt was fetched. It bills nothing, and an
attempt that is unknown after a crash is not reviewed: the organization is not updated. -/
def crashLocks (now : Int) (x : GatewayAttempt × Snapshot) : List RowLock :=
  ⟨.attempt x.1.attemptId, .noKeyUpdate⟩ :: closeLocks x.2.db x.1.requestId now

/-- `gateway_reconcile_crashed`, once it has the advisory lock. -/
def reconcileLocks (f : Fetches) (now : Int) : List RowLock :=
  (f.expired.flatMap fun batch =>
    batch.map (fun x => ⟨.request x.1.requestId, .update⟩) ++ batch.flatMap (expireLocks now)) ++
  (f.crashed.flatMap fun batch =>
    batch.map (fun x => ⟨.attempt x.1.attemptId, .update⟩) ++ batch.flatMap (crashLocks now))

/-- The locks of a call, from what it reads. -/
def callLocks (call : GatewayCall × Env) (x : Snapshot) (f : Fetches) : List RowLock :=
  match call.1 with
  | .accept p => acceptLocks x.db p
  | .start p => startLocks x.db p call.2.clock
  | .acceptAndStart p => acceptAndStartLocks x.db p call.2
  | .settle p => settleLocks x.db p call.2.now
  | .finish p => finishLocks x.db p call.2.now
  | .reconcile _ => reconcileLocks f call.2.now

/-! ### Four functions and a lane keep the order -/

/-- The calls that lock rows out of order: platform-funded folds and reconcilers. -/
def GatewayCall.LeavesOrder : GatewayCall → Prop
  | .acceptAndStart p => p.billingSource = .hostManaged
  | .reconcile _ => True
  | _ => False

instance : DecidablePred GatewayCall.LeavesOrder := fun c => by
  unfold GatewayCall.LeavesOrder
  split <;> infer_instance

/-- Ascending in the order of the tables. -/
abbrev InTableOrder (held todo : List RowLock) : Prop := Ascending LockedRow.level held todo

/-- The held rows come before all requests, or are the request and its organization. -/
structure Around (requestId : String) (orgId : Nat) (held : List RowLock) : Prop where
  rows : ∀ h ∈ held, h.row.level < 3 ∨ h.row = .request requestId ∨ h.row = .organization orgId
  /-- The request was locked first, if anything was. -/
  first : (∃ h ∈ held, h.row = .request requestId) ∨ ∀ h ∈ held, h.row.level < 3

theorem finalizeLocks_ascending (db : Db) (r : GatewayRequest) (t : Int) {held : List RowLock}
    (h : Around r.requestId r.orgId held) : InTableOrder held (finalizeLocks db r t) := by
  unfold finalizeLocks
  split_ifs
  · exact trivial
  · have hlow : ∀ g ∈ held, g.row.level ≤ 4 := by
      intro g hg
      rcases h.rows g hg with hlow | hrow | hrow
      · omega
      · simp [hrow]
      · simp [hrow]
    refine ⟨?_, ?_, .inr fun g hg => ?_, .inl ?_, trivial⟩
    · rcases h.first with ⟨g, hg, hrow⟩ | hlow
      · exact .inl ⟨g, hg, hrow, g.mode.keyShare_le⟩
      · exact .inr hlow
    · by_cases hown : ∃ g ∈ held, g.row = .organization r.orgId
      · obtain ⟨g, hg, hrow⟩ := hown
        exact .inl ⟨g, List.mem_cons_of_mem _ hg, hrow, g.mode.keyShare_le⟩
      · refine .inr fun g hg => ?_
        rcases List.mem_cons.mp hg with rfl | hg
        · simp
        · rcases h.rows g hg with hlow | hrow | hrow
          · rw [level_organization]
            omega
          · simp [hrow]
          · exact absurd ⟨g, hg, hrow⟩ hown
    · simp only [List.mem_cons] at hg
      rcases hg with rfl | rfl | hg
      · simp
      · simp
      · have := hlow g hg
        rw [level_daily]
        omega
    · exact ⟨⟨.organization r.orgId, .keyShare⟩, by simp, rfl, le_refl _⟩

/-- Closing a request, as far as its rows are locked around it and the request not more weakly. -/
theorem closeLocks_ascending (db : Db) (requestId : String) (now : Int) {held : List RowLock}
    {orgId : Nat} (horg : ∀ r, db.requests.find? requestId = some r → r.orgId = orgId)
    (h : Around requestId orgId held)
    (hmode : ∀ g ∈ held, g.row = .request requestId → LockMode.noKeyUpdate.strength ≤ g.mode.strength) :
    InTableOrder held (closeLocks db requestId now) := by
  unfold closeLocks
  cases hr : db.requests.find? requestId with
  | none => exact trivial
  | some r =>
      obtain rfl := horg r hr
      obtain rfl := (Table.find?_eq_some.mp hr).2
      simp only
      split_ifs
      · refine ⟨?_, finalizeLocks_ascending db r _ ⟨fun g hg => ?_, .inl ⟨_, List.mem_cons_self, rfl⟩⟩⟩
        · rcases h.first with ⟨g, hg, hrow⟩ | hlow
          · exact .inl ⟨g, hg, hrow, hmode g hg hrow⟩
          · exact .inr hlow
        · rcases List.mem_cons.mp hg with rfl | hg
          · exact .inr (.inl rfl)
          · exact h.rows g hg
      · exact finalizeLocks_ascending db r _ h

theorem acceptLocks_ascending (db : Db) (p : AcceptArgs) : InTableOrder [] (acceptLocks db p) := by
  unfold acceptLocks
  cases db.requests.find? p.requestId with
  | some r => exact trivial
  | none =>
      cases p.callerOperationSha256 with
      | none | some operation => simp [Ascending]

/-- A start takes its request, then the organization; on the pass-through lane it may follow the
accept that inserted the request. -/
theorem startLocks_ascending (db : Db) (p : StartArgs) (c : StartClock) {held : List RowLock}
    (h : held = [] ∨ p.billingSource = .customerManaged ∧
      held = [⟨.organization p.orgId, .keyShare⟩, ⟨.request p.requestId, .update⟩]) :
    InTableOrder held (startLocks db p c) := by
  unfold startLocks
  cases db.requests.find? p.requestId with
  | none => exact trivial
  | some r =>
      rcases h with rfl | ⟨hlane, rfl⟩
      · refine ⟨.inr (by simp), ?_⟩
        split
        · cases p.billingSource with
          | hostManaged | customerManaged => simp [hostLock, Ascending, Owned, Lock.Covers, LockMode.strength]
        · exact trivial
      · refine ⟨.inl (by simp [Owned, Lock.Covers]), ?_⟩
        split
        · rw [hlane]
          simp [hostLock, Ascending, Owned, Lock.Covers, LockMode.strength]
        · exact trivial

theorem acceptAndStartLocks_ascending (db : Db) (p : AcceptAndStartArgs) (env : Env)
    (hlane : p.billingSource ≠ .hostManaged) : InTableOrder [] (acceptAndStartLocks db p env) := by
  have hlane' : p.billingSource = .customerManaged := by
    cases hb : p.billingSource with
    | hostManaged => exact absurd hb hlane
    | customerManaged => rfl
  unfold acceptAndStartLocks
  rw [hlane']
  refine (acceptLocks_ascending db p.accept).append ?_
  split
  · refine startLocks_ascending _ _ _ ?_
    unfold acceptLocks
    cases db.requests.find? p.accept.requestId with
    | some r => exact .inl rfl
    | none => exact .inr ⟨hlane', rfl⟩
  · exact trivial

/-- A settlement bills its organization after it locked the request it will close. -/
theorem settleLocks_ascending (x : Snapshot) (p : SettleArgs) (now : Int) :
    InTableOrder [] (settleLocks x.db p now) := by
  unfold settleLocks
  split
  · rename_i outcome usageSource a hstate husage ha
    obtain ⟨hmem, -⟩ := Table.find?_eq_some.mp ha
    have horg : ∀ r, x.db.requests.find? a.requestId = some r → r.orgId = a.orgId := by
      intro r hr
      obtain ⟨hr, hid⟩ := Table.find?_eq_some.mp hr
      exact x.attemptsOfOrg a hmem r hr hid
    refine ⟨.inr (by simp), ?_⟩
    split_ifs with hd hfin hreplay
    · refine ⟨.inr (by simp), ?_⟩
      cases p.settlement a outcome usageSource now with
      | error e => exact trivial
      | ok s =>
          refine ⟨.inl (by simp [Owned, Lock.Covers, LockMode.strength]), ?_⟩
          unfold billLocks
          split_ifs
          · refine ⟨.inr (by simp), closeLocks_ascending x.db _ now horg ⟨by simp, .inl (by simp)⟩ ?_⟩
            simp [LockMode.strength]
          · refine closeLocks_ascending x.db _ now horg ⟨by simp, .inl (by simp)⟩ ?_
            simp [LockMode.strength]
    · cases p.settlement a outcome usageSource now with
      | error e => exact trivial
      | ok s =>
          simp only [billLocks, List.nil_append]
          split_ifs
          · simp [Ascending, Owned, Lock.Covers, LockMode.strength]
          · simp [Ascending, Owned, Lock.Covers, LockMode.strength]
    · exact closeLocks_ascending x.db _ now horg ⟨by simp, .inr (by simp)⟩ (by simp)
    · exact trivial
  · exact trivial

theorem finishLocks_ascending (db : Db) (p : FinishArgs) (now : Int) :
    InTableOrder [] (finishLocks db p now) := by
  unfold finishLocks
  cases db.requests.find? p.requestId with
  | none => exact trivial
  | some r =>
      refine ⟨.inr (by simp), ?_⟩
      split_ifs
      · refine ⟨.inl (by simp [Owned, Lock.Covers, LockMode.strength]), ?_⟩
        exact finalizeLocks_ascending db r now ⟨by simp, .inl (by simp)⟩
      · exact trivial

/-- **The calls that do not leave the order lock rows in the order of the tables.** -/
theorem callLocks_ascending (call : GatewayCall × Env) (x : Snapshot) (f : Fetches)
    (h : ¬ call.1.LeavesOrder) : InTableOrder [] (callLocks call x f) := by
  obtain ⟨c, env⟩ := call
  cases c with
  | accept p => exact acceptLocks_ascending x.db p
  | start p => exact startLocks_ascending x.db p env.clock (.inl rfl)
  | acceptAndStart p => exact acceptAndStartLocks_ascending x.db p env h
  | settle p => exact settleLocks_ascending x p env.now
  | finish p => exact finishLocks_ascending x.db p env.now
  | reconcile g => exact absurd trivial h

/-! ### Calls side by side -/

/-- A call begins, tries for its next lock, or ends (an error ends it early). -/
inductive CallEvent where
  | start (call : GatewayCall × Env) (x : Snapshot) (f : Fetches)
  | advance (i : ℕ)
  | finish (i : ℕ)

/-- What it is for the locks: a reconciler does nothing when another one is at work. -/
def CallEvent.lockEvent : CallEvent → TransactionEvent GatewayCall LockedRow
  | .start call x f =>
      match call.1 with
      | .reconcile _ => .tryStart call.1 ⟨.reconciler, .update⟩ (callLocks call x f)
      | _ => .start call.1 (callLocks call x f)
  | .advance i => .advance i
  | .finish i => .finish i

/-- The calls that were started, in order. -/
abbrev Calls := List (Transaction GatewayCall LockedRow)

def callsStep (s : Calls) (event : CallEvent) : Calls := transactionStep s event.lockEvent

/-- A platform-funded fold or a reconciler that holds a row finds the next row it locks, when that
row comes earlier in the order of the tables, free. The reconciler may wait for further rows of
the table it is at. -/
def FindsFree (s : Calls) (event : CallEvent) : Prop :=
  StopsInOrder LockedRow.level .reconciler GatewayCall.LeavesOrder s event.lockEvent

instance : DecidableRel FindsFree := fun _ _ => by
  unfold FindsFree
  infer_instance

theorem startsAscending (event : CallEvent) :
    StartsAscending LockedRow.level GatewayCall.LeavesOrder event.lockEvent := by
  cases event with
  | start call x f =>
      have hasc : call.1.LeavesOrder ∨ InTableOrder [] (callLocks call x f) := by
        by_cases h : call.1.LeavesOrder
        · exact .inl h
        · exact .inr (callLocks_ascending call x f h)
      obtain ⟨c, env⟩ := call
      cases c with
      | reconcile g => exact .inl trivial
      | _ => exact hasc
  | advance i | finish i => exact trivial

theorem run_callsStep (events : List CallEvent) (s : Calls) :
    run callsStep s events = run transactionStep s (events.map CallEvent.lockEvent) := by
  induction events generalizing s with
  | nil => rfl
  | cons event events ih => exact ih _

theorem stepsMeet_lockEvents : ∀ {events : List CallEvent} {s : Calls},
    StepsMeet callsStep FindsFree s events →
    StepsMeet transactionStep (fun s event =>
      StopsInOrder LockedRow.level .reconciler GatewayCall.LeavesOrder s event ∧
        StartsAscending LockedRow.level GatewayCall.LeavesOrder event) s (events.map CallEvent.lockEvent)
  | [], _, _ => trivial
  | event :: _, _, h => ⟨⟨h.1, startsAscending event⟩, stepsMeet_lockEvents h.2⟩

/-- **The money functions do not deadlock** in any run, of any number of calls with any arguments in
any interleaving, whose platform-funded folds and reconcilers find free what they lock out of
order. -/
theorem calls_not_deadlocked (events : List CallEvent) (h : StepsMeet callsStep FindsFree [] events) :
    ¬ Deadlocked (run callsStep [] events) := by
  rw [run_callsStep]
  exact run_not_deadlocked (events.map CallEvent.lockEvent) (stepsMeet_lockEvents h)

/-! ### Two cycles -/

/-- What the cursors return when everything is read from one database, in one fetch each. -/
def Fetches.of (x : Snapshot) (graceSeconds now : Int) : Fetches where
  expired := [(x.db.requests.rows.filter (x.db.expirable now)).map (fun r => (r, x))]
  crashed := [(x.db.attempts.rows.filter (x.db.crashed graceSeconds now)).map (fun a => (a, x))]

/-- `r1` was accepted and never dispatched, `r2` has the dispatched attempt `a2`. -/
def abandoned : Snapshot :=
  .after sampleConfig sampleOrganizations
    [(GatewayCall.accept (sampleAccept "r1" none 10)).atTime 0 "",
      (GatewayCall.accept (sampleAccept "r2" none 10)).atTime 1 "",
      (GatewayCall.start (sampleStart "r2" 0 .hostManaged 5000000)).atTime 2 "a2"]

/-- At `now`, the reconciler closes `r1` while the late settlement of `a2` closes `r2`; each takes
its first locks, and then the settlement goes on to the rollup. -/
def lateSettlement (now : Int) : List CallEvent :=
  [.start ((GatewayCall.reconcile (some 30)).atTime now "") abandoned (.of abandoned 30 now),
    .start ((GatewayCall.settle (sampleSettle "a2" .completed 3 true)).atTime now "") abandoned ⟨[], []⟩] ++
  List.replicate 6 (.advance 0) ++ List.replicate 8 (.advance 1)

/-- Before the grace is over nothing is crashed, and the settlement waits for the reconciler. -/
theorem calls_not_deadlocked_sample :
    (run callsStep [] (lateSettlement 100)).map (·.waiting) = [false, true] ∧
    ¬ Deadlocked (run callsStep [] (lateSettlement 100)) :=
  ⟨by decide +kernel, calls_not_deadlocked (lateSettlement 100) (by decide +kernel)⟩

/-- A platform-funded fold of the request `r1`. -/
def sampleFold : AcceptAndStartArgs where
  toStartArgs := sampleStart "r1" 0 .hostManaged 5000000
  apiKeyId := 7
  aliasName := "alias"
  aliasRevisionId := "revision"
  apiSurface := .responses
  canonicalRequestSha256 := "body"
  deadlineAt := some 1000
  promptSha256 := none
  conversationSha256 := none
  stablePrefixChars := none

/-- The fold of `r1` committed. -/
def dispatched : Snapshot :=
  .after sampleConfig sampleOrganizations [(GatewayCall.acceptAndStart sampleFold).atTime 1 "a1"]

/-- The fold is replayed while the next attempt of `r1` starts. -/
def replayedFold : List CallEvent :=
  [.start ((GatewayCall.start (sampleStart "r1" 1 .hostManaged 5000000)).atTime 2 "a2") dispatched ⟨[], []⟩,
    .start ((GatewayCall.acceptAndStart sampleFold).atTime 3 "a3") dispatched ⟨[], []⟩,
    .advance 0, .advance 1, .advance 0, .advance 1]

/-- The start holds the request and waits for the organization, which the fold holds waiting for
the request; and the settlement of an attempt waits for the rollup of a reconciler that waits for
the attempt. -/
theorem money_functions_deadlock :
    Deadlocked (run callsStep [] replayedFold) ∧
    Deadlocked (run callsStep [] (lateSettlement 31000000 ++ [.advance 0])) := by
  constructor
  · have hstart : WaitsFor (run callsStep [] replayedFold) 0 1 := by decide +kernel
    have hfold : WaitsFor (run callsStep [] replayedFold) 1 0 := by decide +kernel
    exact deadlocked_of_pair hstart hfold
  · have hsettle : WaitsFor (run callsStep [] (lateSettlement 31000000 ++ [.advance 0])) 1 0 := by
      decide +kernel
    have hreconcile : WaitsFor (run callsStep [] (lateSettlement 31000000 ++ [.advance 0])) 0 1 := by
      decide +kernel
    exact deadlocked_of_pair hreconcile hsettle

end Experiential.Gateway
