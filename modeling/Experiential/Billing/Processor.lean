import Experiential.Billing.System

/-! # The auto-recharge processor and the webhook

A processor drains the queue: it claims an attempt, has the payment provider charge it and records the id of
the payment intent; the provider reports the outcome to a webhook on its own. Every call of the database or
of the provider is one step, processors may crash, and a call may fail before or after it took effect. The
provider is a parameter: it keeps one payment intent for each idempotency key. -/

namespace Experiential.Billing

open Gateway

/-! ### The provider -/

inductive IntentStatus where
  | succeeded
  | processing
  | requiresAction
  | requiresPaymentMethod
deriving DecidableEq

/-- The answer to a charge: the payment intent, or a card error that may carry one. -/
inductive ChargeAnswer where
  | intent (status : IntentStatus)
  | cardError (withIntent : Bool) (message : String)
deriving DecidableEq

/-- What the provider keeps under an idempotency key, and the ids it gives to checkout sessions. -/
structure PaymentProvider where
  intentId : Nat → String
  answer : Nat → ChargeAnswer
  received : Nat → Int
  sessionId : Nat → String
  intentId_injective : ∀ k l, intentId k = intentId l → k = l
  intent_ne_session : ∀ k n, intentId k ≠ sessionId n
  received_pos : ∀ k, 0 < received k

/-- The charge under a key succeeds. -/
def PaymentProvider.Succeeds (provider : PaymentProvider) (key : Nat) : Prop :=
  provider.answer key = .intent .succeeded ∨ provider.answer key = .intent .processing

instance (provider : PaymentProvider) : DecidablePred provider.Succeeds := fun key =>
  inferInstanceAs (Decidable (provider.answer key = .intent .succeeded ∨ provider.answer key = .intent .processing))

def autorechargePurpose : String := "platform-credit-autorecharge"

structure ChargeRequest where
  idempotencyKey : Nat
  amount : Int
  currency : String
  customer : String
  paymentMethod : String
  purpose : String
  orgId : Nat
deriving DecidableEq

structure PaymentIntent where
  id : String
  purpose : Option String
  orgId : Option Nat
  currency : String
  amount : Int
  amountReceived : Int
  lastPaymentError : Option String
deriving DecidableEq

/-- The intent of a request: the provider gives the metadata back. -/
def PaymentProvider.intentOf (provider : PaymentProvider) (r : ChargeRequest) (error : Option String) :
    PaymentIntent :=
  ⟨provider.intentId r.idempotencyKey, some r.purpose, some r.orgId, r.currency, provider.received r.idempotencyKey,
    provider.received r.idempotencyKey, error⟩

/-! ### The webhook -/

/-- `amount_received || amount`. -/
def PaymentIntent.cents (intent : PaymentIntent) : Int :=
  if intent.amountReceived = 0 then intent.amount else intent.amountReceived

/-- `handleAutoRechargeSucceeded`: the tables, and whether the event was ours. -/
def handleAutoRechargeSucceeded (db : Db) (intent : PaymentIntent) (now : Int) : Raises (Db × Bool) :=
  if intent.purpose ≠ some autorechargePurpose ∨ intent.currency ≠ "usd" then .ok (db, false)
  else match intent.orgId with
    | none => .ok (db, false)
    | some orgId =>
        if intent.cents ≤ 0 then .ok (db, false)
        else do
          let r ← recordAutoRechargeSuccess db orgId intent.id (intent.cents * 10000) (some "auto-recharge") now
          return (r.1, true)

/-- `handleAutoRechargeFailed`. -/
def handleAutoRechargeFailed (db : Db) (intent : PaymentIntent) (now : Int) : Raises (Db × Bool) :=
  if intent.purpose ≠ some autorechargePurpose then .ok (db, false)
  else match intent.orgId with
    | none => .ok (db, false)
    | some orgId => do
        let db' ← recordAutoRechargeFailure db orgId intent.id
          (intent.lastPaymentError.getD "The card was declined.") now
        return (db', true)

/-! ### The processor -/

/-- Five minutes. -/
def rechargeLease : Int := 5 * 60 * usPerSecond

/-- The attempts a run takes up: pending ones, and claimed ones without an intent whose lease is over. -/
def RechargeAttempt.due (a : RechargeAttempt) (now : Int) : Bool :=
  decide (a.status = .pending) || decide (a.status = .processing) && decide (a.stripePaymentIntentId = none) &&
    decide (a.updatedAt < now - rechargeLease)

def candidates (db : Db) (limit : Nat) (now : Int) : List RechargeAttempt :=
  Table.firstUnlocked (fun a b => a.createdAt ≤ b.createdAt) (·.due now) (fun _ => false) limit db.attempts.rows

def loadSettings (db : Db) (rows : List RechargeAttempt) : List RechargeSettings :=
  db.settings.rows.filter (fun s => decide (s.orgId ∈ rows.map RechargeAttempt.orgId))

/-- The saved customer and card of an organization. -/
def savedCard (settings : List RechargeSettings) (orgId : Nat) : Option (String × String) := do
  let s ← settings.find? (fun s => decide (s.orgId = orgId))
  let customer ← s.stripeCustomerId
  let paymentMethod ← s.stripePaymentMethodId
  if customer = "" ∨ paymentMethod = "" then none else some (customer, paymentMethod)

/-- Rewrite the attempts satisfying `p`; an error of the database is ignored. -/
def Db.updateAttempts (db : Db) (p : RechargeAttempt → Bool) (f : RechargeAttempt → RechargeAttempt)
    (hf : ∀ a, (f a).id = a.id) : Db :=
  match db.attempts.update p f hf with
  | .ok attempts => { db with attempts := attempts }
  | .error _ => db

/-- The row is the one loaded, not written since, and still open. -/
def RechargeAttempt.claimable (loaded : RechargeAttempt) (a : RechargeAttempt) : Bool :=
  decide (a.id = loaded.id) && decide (a.updatedAt = loaded.updatedAt) && a.active

/-- `claimAttempt`: the compare-and-swap on `updated_at`. -/
def claimAttempt (db : Db) (a : RechargeAttempt) (now : Int) : Db :=
  db.updateAttempts a.claimable (fun r => { r with status := .processing, updatedAt := now }) (fun _ => rfl)

def recordIntent (db : Db) (attemptId : Nat) (intentId : String) (now : Int) : Db :=
  db.updateAttempts (fun r => decide (r.id = attemptId))
    (fun r => { r with stripePaymentIntentId := some intentId, updatedAt := now }) (fun _ => rfl)

def failAttemptById (db : Db) (attemptId : Nat) (message : String) (now : Int) : Db :=
  db.updateAttempts (fun r => decide (r.id = attemptId)) (·.fail message now) (fail_id message now)

/-- After a transient error the attempt goes back to the queue. -/
def resetAttempt (db : Db) (attemptId : Nat) (message : String) (now : Int) : Db :=
  db.updateAttempts (fun r => decide (r.id = attemptId))
    (fun r => { r with status := .pending, errorMessage := some message, updatedAt := now }) (fun _ => rfl)

def chargeRequest (a : RechargeAttempt) (card : String × String) : ChargeRequest :=
  ⟨a.id, a.amount, "usd", card.1, card.2, autorechargePurpose, a.orgId⟩

/-- What is left of a run: attempts to claim, and the settings loaded for them. -/
structure Batch where
  rows : List RechargeAttempt
  settings : List RechargeSettings

/-- Where a processor is: each phase is named by what it does next. -/
inductive ProcessorPhase where
  | loading
  | loadingSettings (rows : List RechargeAttempt)
  | claiming (batch : Batch)
  | charging (a : RechargeAttempt) (batch : Batch)
  | recording (a : RechargeAttempt) (status : IntentStatus) (batch : Batch)
  | declining (a : RechargeAttempt) (withIntent : Bool) (message : String) (batch : Batch)
  | refusing (a : RechargeAttempt) (message : String) (caught : Bool) (batch : Batch)
  | resetting (a : RechargeAttempt) (message : String) (batch : Batch)

/-- Does a call come back, and if not, did it take effect? -/
inductive Reply where
  | arrived
  | lost (tookEffect : Bool) (message : String)

def Reply.tookEffect : Reply → Bool
  | .arrived => true
  | .lost tookEffect _ => tookEffect

/-! ### Worlds -/

/-- The tables, the clock, the processors and what has happened at the provider: the requests it carried out,
the attempts whose intent was recorded and the attempts whose success was delivered. -/
structure RechargeWorld where
  db : Db
  now : Int
  processors : Nat → ProcessorPhase
  charged : List ChargeRequest
  recorded : List Nat
  delivered : List Nat

namespace RechargeWorld

def goto (w : RechargeWorld) (p : Nat) (phase : ProcessorPhase) : RechargeWorld :=
  { w with processors := Function.update w.processors p phase }

/-- The provider carries out a request unless it knows the key. -/
def charge (w : RechargeWorld) (r : ChargeRequest) : RechargeWorld :=
  if w.charged.any (fun q => decide (q.idempotencyKey = r.idempotencyKey)) then w
  else { w with charged := r :: w.charged }

/-- The intent of an attempt is recorded. -/
def record (w : RechargeWorld) (provider : PaymentProvider) (a : RechargeAttempt) (reply : Reply) : RechargeWorld :=
  if reply.tookEffect then { w with
    db := recordIntent w.db a.id (provider.intentId a.id) w.now
    recorded := a.id :: w.recorded }
  else w

/-- A write to the attempts that may be lost. -/
def write (w : RechargeWorld) (reply : Reply) (db : Db) : RechargeWorld :=
  if reply.tookEffect then { w with db := db } else w

/-- The phase after the provider's answer. -/
def answered (provider : PaymentProvider) (a : RechargeAttempt) (batch : Batch) : Reply → ProcessorPhase
  | .lost _ message => .resetting a message batch
  | .arrived =>
      match provider.answer a.id with
      | .intent status => .recording a status batch
      | .cardError withIntent message => .declining a withIntent message batch

/-- The error that `recordFailure` throws. -/
def recordingFailed (error : String) : String := "auto-recharge: recording failure failed: " ++ error

/-- A processor makes its next call. -/
def next (provider : PaymentProvider) (w : RechargeWorld) (p limit : Nat) (reply : Reply) : RechargeWorld :=
  match w.processors p with
  | .loading => w.goto p (.loadingSettings (candidates w.db limit w.now))
  | .loadingSettings rows =>
      match reply with
      | .arrived => w.goto p (.claiming ⟨rows, loadSettings w.db rows⟩)
      -- The error of this read is not looked at: the run goes on as if no card were saved.
      | .lost _ _ => w.goto p (.claiming ⟨rows, []⟩)
  | .claiming ⟨[], _⟩ => w.goto p .loading
  | .claiming ⟨a :: rows, settings⟩ =>
      match reply with
      -- A failed claim throws, and ends the run.
      | .lost _ _ => (w.write reply (claimAttempt w.db a w.now)).goto p .loading
      | .arrived =>
          if w.db.attempts.rows.any a.claimable then
            (w.write reply (claimAttempt w.db a w.now)).goto p (.charging a ⟨rows, settings⟩)
          else w.goto p (.claiming ⟨rows, settings⟩)
  | .charging a batch =>
      match savedCard batch.settings a.orgId with
      | none => (w.write reply (failAttemptById w.db a.id "No saved payment method." w.now)).goto p (.claiming batch)
      | some card =>
          (if reply.tookEffect then w.charge (chargeRequest a card) else w).goto p (answered provider a batch reply)
  | .recording a status batch =>
      (w.record provider a reply).goto p
        (if status = .requiresAction ∨ status = .requiresPaymentMethod then
          .refusing a "The card needs authentication." true batch
        else .claiming batch)
  | .declining a withIntent message batch =>
      if withIntent then (w.record provider a reply).goto p (.refusing a message false batch)
      else (w.write reply (failAttemptById w.db a.id message w.now)).goto p (.claiming batch)
  | .refusing a message caught batch =>
      match reply, recordAutoRechargeFailure w.db a.orgId (provider.intentId a.id) message w.now with
      | .arrived, .ok db => (w.write reply db).goto p (.claiming batch)
      -- The failure of this call is caught as a transient error, or ends the run.
      | .lost _ error, .ok db =>
          (w.write reply db).goto p (if caught then .resetting a (recordingFailed error) batch else .loading)
      | _, .error error =>
          w.goto p (if caught then .resetting a (recordingFailed error.message) batch else .loading)
  | .resetting a message batch => (w.write reply (resetAttempt w.db a.id message w.now)).goto p (.claiming batch)

end RechargeWorld

def checkoutCredit (provider : PaymentProvider) (session orgId : Nat) (amount : Int) (createdBy : Option String) :
    Credit :=
  ⟨orgId, .topup, amount, some "Credit top-up", .stripe, some (provider.sessionId session), createdBy, none, none⟩

inductive RechargeStep where
  | advance (duration : Nat)
  | call (c : BillingCall)
  | checkout (session orgId : Nat) (amount : Int) (createdBy : Option String)
  | next (p limit : Nat) (reply : Reply)
  | crash (p : Nat)
  | deliverSuccess (r : ChargeRequest)
  | deliverFailure (r : ChargeRequest) (error : Option String)

/-- A call that raises leaves the world. -/
def RechargeWorld.onOk (w : RechargeWorld) (db : Raises Db) : RechargeWorld :=
  match db with
  | .ok db => { w with db := db }
  | .error _ => w

/-- The provider delivers an event of a request it carried out. -/
def deliverSuccess (provider : PaymentProvider) (w : RechargeWorld) (r : ChargeRequest) : RechargeWorld :=
  if r ∈ w.charged ∧ provider.Succeeds r.idempotencyKey then
    match handleAutoRechargeSucceeded w.db (provider.intentOf r none) w.now with
    | .ok (db, true) => { w with
        db := db
        delivered := r.idempotencyKey :: w.delivered }
    | _ => w
  else w

def deliverFailure (provider : PaymentProvider) (w : RechargeWorld) (r : ChargeRequest) (error : Option String) :
    RechargeWorld :=
  if r ∈ w.charged ∧ ¬ provider.Succeeds r.idempotencyKey then
    match handleAutoRechargeFailed w.db (provider.intentOf r error) w.now with
    | .ok (db, _) => { w with db := db }
    | .error _ => w
  else w

def rechargeStep (provider : PaymentProvider) (w : RechargeWorld) : RechargeStep → RechargeWorld
  | .advance duration => { w with now := w.now + duration }
  | .call c => if c.ownCall then w.onOk (execute w.db w.now c) else w
  | .checkout session orgId amount createdBy =>
      w.onOk (insertCredit w.db (checkoutCredit provider session orgId amount createdBy) w.now)
  | .next p limit reply => w.next provider p limit reply
  | .crash p => w.goto p .loading
  | .deliverSuccess r => deliverSuccess provider w r
  | .deliverFailure r error => deliverFailure provider w r error

end Experiential.Billing
