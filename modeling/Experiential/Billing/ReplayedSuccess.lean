import Experiential.Billing.Checkout
import Experiential.Billing.Completion

/-! # A success that is reported again

A processor writes attempts, and when it is refused it reports a failure; the provider's events are the two
reports; every other step is a call of the platform's own. `next_db` and `rechargeStep_kept` say what follows
for the tables.

The credit of a success is fenced by the payment intent, the update of the settings beside it is not: every
report clears the failure counter and moves the last recharge. So a report of a success that is recorded
changes nothing exactly when the settings already say what it writes (`replayed_success_unchanged_iff`), and
one that comes after a later failure takes the back-off away (`replay_clears_backoff`). -/

namespace Experiential.Billing

open Gateway

variable {provider : PaymentProvider}

/-- Only columns of attempts were written. -/
structure AttemptsOnly (db db' : Db) : Prop where
  organizations : db'.organizations = db.organizations
  labels : db'.labels = db.labels
  ledger : db'.ledger = db.ledger
  settings : db'.settings = db.settings
  ids : db'.attempts.rows.map RechargeAttempt.id = db.attempts.rows.map RechargeAttempt.id

theorem AttemptsOnly.refl (db : Db) : AttemptsOnly db db := ⟨rfl, rfl, rfl, rfl, rfl⟩

theorem updateAttempts_only (db : Db) (p : RechargeAttempt → Bool) (f : RechargeAttempt → RechargeAttempt)
    (hf : ∀ a, (f a).id = a.id) : AttemptsOnly db (db.updateAttempts p f hf) := by
  unfold Db.updateAttempts
  split
  · next attempts hupdate =>
    refine ⟨rfl, rfl, rfl, rfl, ?_⟩
    show attempts.rows.map RechargeAttempt.id = _
    rw [(Table.update_eq_ok (RechargeAttempts.ofTable_eq_ok.mp hupdate)).2]
    exact map_update_key (fun a _ => hf a) _
  · exact .refl db

theorem write_only {w : RechargeWorld} {reply : Reply} {db : Db} (h : AttemptsOnly w.db db) :
    AttemptsOnly w.db (w.write reply db).db := by
  unfold RechargeWorld.write
  split_ifs
  · exact h
  · exact .refl w.db

theorem record_only (w : RechargeWorld) (a : RechargeAttempt) (reply : Reply) :
    AttemptsOnly w.db (w.record provider a reply).db := by
  unfold RechargeWorld.record
  split_ifs
  · exact updateAttempts_only _ _ _ _
  · exact .refl w.db

/-- A processor that is about to report a failure of the attempt. -/
structure Refusing (w : RechargeWorld) (p : Nat) (a : RechargeAttempt) (message : String) : Prop where
  phase : ∃ caught batch, w.processors p = .refusing a message caught batch

/-- **A processor writes attempts, or reports a failure.** -/
theorem next_db (provider : PaymentProvider) (w : RechargeWorld) (p limit : Nat) (reply : Reply) :
    AttemptsOnly w.db (w.next provider p limit reply).db ∨
    ∃ a message, Refusing w p a message ∧ reply.tookEffect = true ∧
      recordAutoRechargeFailure w.db a.orgId (provider.intentId a.id) message w.now =
        .ok (w.next provider p limit reply).db := by
  unfold RechargeWorld.next
  split
  · exact .inl (.refl w.db)
  · split <;> exact .inl (.refl w.db)
  · exact .inl (.refl w.db)
  · split
    · exact .inl (write_only (updateAttempts_only _ _ _ _))
    · split_ifs
      · exact .inl (write_only (updateAttempts_only _ _ _ _))
      · exact .inl (.refl w.db)
  · split
    · exact .inl (write_only (updateAttempts_only _ _ _ _))
    · refine .inl ?_
      show AttemptsOnly w.db (if reply.tookEffect then w.charge _ else w).db
      unfold RechargeWorld.charge
      split_ifs <;> exact .refl w.db
  · exact .inl (record_only w _ reply)
  · split_ifs
    · exact .inl (record_only w _ reply)
    · exact .inl (write_only (updateAttempts_only _ _ _ _))
  · next a message caught batch hphase =>
    have hreport : ∀ db, recordAutoRechargeFailure w.db a.orgId (provider.intentId a.id) message w.now = .ok db →
        AttemptsOnly w.db (w.write reply db).db ∨ ∃ a message, Refusing w p a message ∧ reply.tookEffect = true ∧
          recordAutoRechargeFailure w.db a.orgId (provider.intentId a.id) message w.now = .ok (w.write reply db).db := by
      intro db hdb
      unfold RechargeWorld.write
      split_ifs with heffect
      · exact .inr ⟨a, message, ⟨caught, batch, hphase⟩, heffect, hdb⟩
      · exact .inl (.refl w.db)
    split
    · next hdb => exact hreport _ hdb
    · next hdb => exact hreport _ hdb
    · exact .inl (.refl w.db)
  · exact .inl (write_only (updateAttempts_only _ _ _ _))

theorem onOk_kept {w : RechargeWorld} {r : Raises Db} (h : ∀ db, r = .ok db → LedgerKept w.db db) :
    LedgerKept w.db (w.onOk r).db := by
  cases r with
  | error _ => exact .of_eq rfl
  | ok db => exact h db rfl

theorem handleSucceeded_eq_ok {db db' : Db} {intent : PaymentIntent} {now : Int} {ours : Bool}
    (h : handleAutoRechargeSucceeded db intent now = .ok (db', ours)) :
    ours = false ∧ db' = db ∨ ours = true ∧ ∃ orgId outcome, intent.orgId = some orgId ∧
      recordAutoRechargeSuccess db orgId intent.id (intent.cents * 10000) (some "auto-recharge") now =
        .ok (db', outcome) := by
  unfold handleAutoRechargeSucceeded at h
  split at h
  · cases h
    exact .inl ⟨rfl, rfl⟩
  · split at h
    · cases h
      exact .inl ⟨rfl, rfl⟩
    · next orgId horg =>
      split at h
      · cases h
        exact .inl ⟨rfl, rfl⟩
      · simp only [bind_eq_ok, pure_eq_ok, Prod.mk.injEq] at h
        obtain ⟨r, hr, rfl, rfl⟩ := h
        exact .inr ⟨rfl, orgId, r.2, horg, hr⟩

theorem handleFailed_eq_ok {db db' : Db} {intent : PaymentIntent} {now : Int} {ours : Bool}
    (h : handleAutoRechargeFailed db intent now = .ok (db', ours)) :
    db' = db ∨ ∃ orgId, intent.orgId = some orgId ∧
      recordAutoRechargeFailure db orgId intent.id (intent.lastPaymentError.getD "The card was declined.") now =
        .ok db' := by
  unfold handleAutoRechargeFailed at h
  split_ifs at h
  · cases h
    exact .inl rfl
  · split at h
    · cases h
      exact .inl rfl
    · next orgId horg =>
      simp only [bind_eq_ok, pure_eq_ok, Prod.mk.injEq] at h
      obtain ⟨db₁, hdb, rfl, rfl⟩ := h
      exact .inr ⟨orgId, horg, hdb⟩

theorem deliverSuccess_db (provider : PaymentProvider) (w : RechargeWorld) (r : ChargeRequest) :
    (deliverSuccess provider w r).db = w.db ∨
    ∃ orgId outcome, recordAutoRechargeSuccess w.db orgId (provider.intentId r.idempotencyKey)
      ((provider.intentOf r none).cents * 10000) (some "auto-recharge") w.now =
        .ok ((deliverSuccess provider w r).db, outcome) ∧ r.orgId = orgId := by
  unfold deliverSuccess
  split_ifs
  · split
    · next db hhandle =>
      obtain ⟨hours, -⟩ | ⟨-, orgId, outcome, horg, hrecord⟩ := handleSucceeded_eq_ok hhandle
      · cases hours
      · exact .inr ⟨orgId, outcome, hrecord, Option.some.inj horg⟩
    · exact .inl rfl
  · exact .inl rfl

theorem deliverFailure_db (provider : PaymentProvider) (w : RechargeWorld) (r : ChargeRequest)
    (error : Option String) :
    (deliverFailure provider w r error).db = w.db ∨
    ∃ message, recordAutoRechargeFailure w.db r.orgId (provider.intentId r.idempotencyKey) message w.now =
      .ok (deliverFailure provider w r error).db := by
  unfold deliverFailure
  split_ifs
  · split
    · next db ours hhandle =>
      obtain rfl | ⟨orgId, horg, hrecord⟩ := handleFailed_eq_ok hhandle
      · exact .inl rfl
      · refine .inr ⟨(provider.intentOf r error).lastPaymentError.getD "The card was declined.", ?_⟩
        rw [show r.orgId = orgId from Option.some.inj horg]
        exact hrecord
    · exact .inl rfl
  · exact .inl rfl

theorem rechargeStep_kept (w : RechargeWorld) (s : RechargeStep) : LedgerKept w.db (rechargeStep provider w s).db := by
  cases s with
  | advance duration => exact .of_eq rfl
  | call c =>
      show LedgerKept w.db (if c.ownCall then w.onOk (execute w.db w.now c) else w).db
      split_ifs
      · exact onOk_kept fun db h => execute_kept h
      · exact .of_eq rfl
  | checkout session orgId amount createdBy => exact onOk_kept fun db h => (insertCredit_eq_ok h).mem
  | next p limit reply =>
      obtain hattempts | ⟨a, message, -, -, hreport⟩ := next_db provider w p limit reply
      · exact .of_eq hattempts.ledger
      · exact .of_eq (recordFailure_eq_ok hreport).2.1
  | crash p => exact .of_eq rfl
  | deliverSuccess r =>
      obtain hsame | ⟨orgId, outcome, hreport, -⟩ := deliverSuccess_db provider w r
      · exact .of_eq (by rw [rechargeStep, hsame])
      · exact (recordSuccess_sameGrants hreport).rows
  | deliverFailure r error =>
      obtain hsame | ⟨message, hreport⟩ := deliverFailure_db provider w r error
      · exact .of_eq (by rw [rechargeStep, hsame])
      · exact .of_eq (recordFailure_eq_ok hreport).2.1

/-! ### Tables that an update leaves alone -/

/-- The attempt after its success. -/
def RechargeAttempt.succeed (now : Int) (a : RechargeAttempt) : RechargeAttempt :=
  { a with status := .succeeded, updatedAt := now }

/-- The settings after a success. -/
def RechargeSettings.recharged (now : Int) (s : RechargeSettings) : RechargeSettings :=
  { s with
    lastRechargeAt := some now
    consecutiveFailures := 0
    lastFailureAt := none
    lastFailureMessage := none
    updatedAt := now }

theorem update_closing (t : RechargeAttempts) (p : RechargeAttempt → Bool) (f : RechargeAttempt → RechargeAttempt)
    (hf : ∀ a, (f a).id = a.id) (hclosed : ∀ a, (f a).active = false) (hcheck : ∀ a, a.Check → (f a).Check) :
    ∃ u, t.update p f hf = .ok u ∧ u.rows = t.rows.map fun a => if p a then f a else a := by
  obtain ⟨table, hupdate⟩ : ∃ table, t.toTable.update p f hf = .ok table :=
    Table.exists_update fun a ha _ => hcheck a (t.checked a ha)
  have hrows := (Table.update_eq_ok hupdate).2
  have hopen : ∀ a ∈ table.rows, a.active = true → a ∈ t.rows := by
    intro a ha hactive
    rw [hrows] at ha
    obtain ⟨b, hb, rfl⟩ := List.mem_map.mp ha
    split_ifs at hactive ⊢ with hp
    · rw [hclosed] at hactive
      cases hactive
    · exact hb
  have hone : OneActive table.rows := fun a ha b hb hactive hactive' =>
    t.one_active a (hopen a ha hactive) b (hopen b hb hactive') hactive hactive'
  exact ⟨⟨table, hone⟩, RechargeAttempts.ofTable_eq_ok.mpr hupdate, hrows⟩

theorem update_succeed (t : RechargeAttempts) (p : RechargeAttempt → Bool) (now : Int) :
    ∃ u, t.update p (·.succeed now) (fun _ => rfl) = .ok u ∧
      u.rows = t.rows.map fun a => if p a then a.succeed now else a :=
  update_closing t p _ _ (fun _ => rfl) fun _ hcheck => hcheck

theorem update_recharged (t : Table RechargeSettings.orgId RechargeSettings.Check) (orgId : Nat) (now : Int) :
    ∃ u, t.update (fun s => decide (s.orgId = orgId)) (·.recharged now) (fun _ => rfl) = .ok u := by
  refine Table.exists_update fun s hs _ => ?_
  obtain ⟨hthreshold, hrange, hlow, hhigh, -⟩ := t.checked s hs
  exact ⟨hthreshold, hrange, hlow, hhigh, le_refl _⟩

/-! ### A recorded success -/

/-- The credit of the intent is in the ledger. -/
structure SuccessRecorded (db : Db) (c : Credit) : Prop where
  check : c.Check
  conflict : db.ledger.conflict c = true

theorem creditRecharge_recorded {db : Db} {c : Credit} (h : SuccessRecorded db c) (now : Int) :
    creditRecharge db c now = .ok (db, .replay) := by
  have hinsert : insertCredit db c now = .error (ofViolation .unique) := by
    rw [insertCredit, CreditLedger.insert, dif_pos h.check, dif_pos h.conflict]
    rfl
  unfold creditRecharge
  rw [hinsert]
  rfl

theorem recordSuccess_recorded {db db₁ : Db} {orgId : Nat} {intent : String} {amount : Int}
    {createdBy : Option String} {now : Int} {outcome : RechargeOutcome}
    (h : recordAutoRechargeSuccess db orgId intent amount createdBy now = .ok (db₁, outcome)) :
    SuccessRecorded db₁ (rechargeCredit orgId intent amount createdBy) := by
  obtain ⟨db₂, hcredit, -, hledger, -⟩ := recordSuccess_eq_ok h
  obtain ⟨-, hcredited⟩ | ⟨-, rfl, e, herror, hcode⟩ := creditRecharge_eq_ok hcredit
  · refine ⟨hcredited.check, ?_⟩
    rw [hledger, CreditLedger.conflict, hcredited.ledger]
    simp [Credit.SameRef, rechargeCredit, CreditLedger.newRow]
  · refine ⟨?_, ?_⟩
    · by_contra hcheck
      rw [insertCredit, CreditLedger.insert, dif_neg hcheck] at herror
      cases herror
      cases hcode
    · rw [hledger]
      exact conflict_of_insertCredit herror hcode

theorem SuccessRecorded.kept {db db' : Db} {c : Credit} (h : SuccessRecorded db c) (hkept : LedgerKept db db') :
    SuccessRecorded db' c := by
  refine ⟨h.check, ?_⟩
  have hconflict := h.conflict
  rw [CreditLedger.conflict, List.any_eq_true] at hconflict ⊢
  obtain ⟨r, hr, hsame⟩ := hconflict
  exact ⟨r, hkept r hr, hsame⟩

/-! ### The same report again -/

/-- The tables after a report; one that raises leaves them. -/
def reportSuccess (db : Db) (orgId : Nat) (intent : String) (amount : Int) (createdBy : Option String) (now : Int) : Db :=
  match recordAutoRechargeSuccess db orgId intent amount createdBy now with
  | .ok r => r.1
  | .error _ => db

/-- Everything is as it was, but for the time of the last write to the settings. -/
structure SameRecords (db db' : Db) : Prop where
  organizations : db'.organizations = db.organizations
  labels : db'.labels = db.labels
  ledger : db'.ledger = db.ledger
  attempts : db'.attempts.rows = db.attempts.rows
  settings : ∀ k, (db'.settings.find? k).map RechargeSettings.content = (db.settings.find? k).map RechargeSettings.content

/-- What a report at `now` would write is there. -/
structure NothingToReset (s : RechargeSettings) (now : Int) : Prop where
  lastRechargeAt : s.lastRechargeAt = some now
  consecutiveFailures : s.consecutiveFailures = 0
  lastFailureAt : s.lastFailureAt = none
  lastFailureMessage : s.lastFailureMessage = none

/-- The report finds nothing to do: no open attempt has the intent, and the settings are reset at `now`. -/
structure ReplayHarmless (db : Db) (orgId : Nat) (intent : String) (now : Int) : Prop where
  closed : ∀ a ∈ db.attempts.rows, a.awaits intent = false
  settings : ∀ s, db.settings.find? orgId = some s → NothingToReset s now

section replay
variable {db : Db} {orgId : Nat} {intent : String} {amount : Int} {createdBy : Option String} {now : Int}

theorem reportSuccess_recorded (now : Int) (h : SuccessRecorded db (rechargeCredit orgId intent amount createdBy)) :
    ∃ attempts settings, reportSuccess db orgId intent amount createdBy now =
        { db with attempts := attempts, settings := settings } ∧
      attempts.rows = db.attempts.rows.map (fun a => if a.awaits intent then a.succeed now else a) ∧
      ∀ k, settings.find? k = if k = orgId then (db.settings.find? k).map (·.recharged now) else db.settings.find? k := by
  obtain ⟨attempts, hattempts, hrows⟩ := update_succeed db.attempts (·.awaits intent) now
  obtain ⟨settings, hsettings⟩ := update_recharged db.settings orgId now
  refine ⟨attempts, settings, ?_, hrows, Table.find?_update_key hsettings⟩
  have hreport : recordAutoRechargeSuccess db orgId intent amount createdBy now =
      .ok ({ db with attempts := attempts, settings := settings }, .replay) := by
    simp only [recordAutoRechargeSuccess, bind_eq_ok, write_eq_ok, pure_eq_ok]
    exact ⟨_, creditRecharge_recorded h now, attempts, hattempts, settings, hsettings, rfl⟩
  unfold reportSuccess
  rw [hreport]

/-- Closing the awaiting attempts changes nothing when there is none. -/
theorem map_succeed_iff {rows : List RechargeAttempt} :
    rows.map (fun a => if a.awaits intent then a.succeed now else a) = rows ↔ ∀ a ∈ rows, a.awaits intent = false := by
  have hself : ∀ a : RechargeAttempt, (if a.awaits intent then a.succeed now else a) = a ↔ a.awaits intent = false := by
    intro a
    split_ifs with hawaits
    · refine iff_of_false (fun heq => ?_) (by simp [hawaits])
      have hactive : a.active = true := (Bool.and_eq_true_iff.mp hawaits).2
      rw [← heq] at hactive
      exact absurd hactive (by simp [RechargeAttempt.active, RechargeAttempt.succeed])
    · exact iff_of_true rfl (by simpa using hawaits)
  conv_lhs => rw [← List.map_id rows, List.map_map]
  rw [List.map_inj_left]
  simp only [Function.comp_apply, id, hself]

theorem content_recharged_iff {s : RechargeSettings} : (s.recharged now).content = s.content ↔ NothingToReset s now := by
  constructor
  · intro h
    simp only [RechargeSettings.recharged, RechargeSettings.content, RechargeSettings.mk.injEq, true_and, and_true] at h
    exact ⟨h.1.symm, h.2.1.symm, h.2.2.1.symm, h.2.2.2.symm⟩
  · rintro ⟨hlast, hfailures, hat, hmessage⟩
    simp only [RechargeSettings.recharged, RechargeSettings.content, RechargeSettings.mk.injEq, true_and, and_true]
    exact ⟨hlast.symm, hfailures.symm, hat.symm, hmessage.symm⟩

/-- **A report of a recorded success changes nothing exactly when it finds nothing to do.** -/
theorem reportSuccess_same_iff (h : SuccessRecorded db (rechargeCredit orgId intent amount createdBy)) :
    SameRecords db (reportSuccess db orgId intent amount createdBy now) ↔ ReplayHarmless db orgId intent now := by
  obtain ⟨attempts, settings, hreport, hrows, hfind⟩ := reportSuccess_recorded now h
  rw [hreport]
  constructor
  · intro hsame
    refine ⟨map_succeed_iff.mp (hrows.symm.trans hsame.attempts), fun s hs => ?_⟩
    have hcontent := hsame.settings orgId
    simp only [hfind, if_pos, hs, Option.map_some, Option.some.injEq] at hcontent
    exact content_recharged_iff.mp hcontent
  · rintro ⟨hclosed, hsettings⟩
    refine ⟨rfl, rfl, rfl, hrows.trans (map_succeed_iff.mpr hclosed), fun k => ?_⟩
    show (settings.find? k).map RechargeSettings.content = _
    rw [hfind]
    split_ifs with hk
    · cases hs : db.settings.find? k with
      | none => rfl
      | some s =>
          rw [Option.map_some, Option.map_some, Option.map_some]
          exact congrArg some (content_recharged_iff.mpr (hsettings s (hk ▸ hs)))
    · rfl

end replay

/-- The run rule: a recorded success stays recorded. -/
theorem recorded_run {provider : PaymentProvider} {w : RechargeWorld} {c : Credit} (h : SuccessRecorded w.db c)
    (steps : List RechargeStep) : SuccessRecorded (run (rechargeStep provider) w steps).db c := by
  refine run_invariant_of_forall (I := fun w : RechargeWorld => SuccessRecorded w.db c) ?_ steps w h
  intro w s hw
  exact hw.kept (rechargeStep_kept w s)

/-- **A success reported again.**  After a report was recorded, in any state, and whatever happened since, the
same report changes nothing exactly when it finds nothing to do. -/
theorem replayed_success_unchanged_iff (provider : PaymentProvider) (w : RechargeWorld) (orgId : Nat)
    (intent : String) (amount : Int) (createdBy : Option String) (db₁ : Db) (outcome : RechargeOutcome)
    (h : recordAutoRechargeSuccess w.db orgId intent amount createdBy w.now = .ok (db₁, outcome))
    (steps : List RechargeStep) :
    SameRecords (run (rechargeStep provider) { w with db := db₁ } steps).db
        (reportSuccess (run (rechargeStep provider) { w with db := db₁ } steps).db orgId intent amount createdBy
          (run (rechargeStep provider) { w with db := db₁ } steps).now) ↔
      ReplayHarmless (run (rechargeStep provider) { w with db := db₁ } steps).db orgId intent
        (run (rechargeStep provider) { w with db := db₁ } steps).now := by
  have hfirst : SuccessRecorded { w with db := db₁ }.db (rechargeCredit orgId intent amount createdBy) :=
    recordSuccess_recorded h
  exact reportSuccess_same_iff (recorded_run hfirst steps)

/-- The organization spends below its threshold, and a processor looks for an attempt: a recharge this recent lets
none be queued. -/
def spentAtOnce : List RechargeStep :=
  [.call (.spend 1 8000000), .next 0 25 .arrived]

/-- At the same instant the settings are reset already. -/
theorem replayed_success_unchanged_sample : ∃ db₁,
    recordAutoRechargeSuccess armedWorld.db 1 "pi_1" 5000000 none 0 = .ok (db₁, .credited) ∧
      SameRecords (run (rechargeStep payingProvider) { armedWorld with db := db₁ } spentAtOnce).db
        (reportSuccess (run (rechargeStep payingProvider) { armedWorld with db := db₁ } spentAtOnce).db 1 "pi_1"
          5000000 none (run (rechargeStep payingProvider) { armedWorld with db := db₁ } spentAtOnce).now) := by
  obtain ⟨r, hr⟩ : ∃ r, recordAutoRechargeSuccess armedWorld.db 1 "pi_1" 5000000 none 0 = .ok r := ⟨_, rfl⟩
  have hcredited : r.2 = .credited := by
    cases hr
    rfl
  obtain ⟨db₁, outcome⟩ := r
  obtain rfl : outcome = .credited := hcredited
  refine ⟨db₁, hr, ?_⟩
  refine (replayed_success_unchanged_iff payingProvider armedWorld 1 "pi_1" 5000000 none db₁ .credited hr
    spentAtOnce).mpr ?_
  cases hr
  constructor
  · decide +kernel
  · intro s hs
    cases hs
    exact ⟨rfl, rfl, rfl, rfl⟩

/-- The first charge succeeds, every later one is declined. -/
def decliningProvider : PaymentProvider :=
  { payingProvider with answer := fun k => if k = 1 then .intent .succeeded else .cardError true "declined" }

/-- Attempt 1 is recharged; sixteen minutes later a second attempt is queued, and its card is declined. -/
def declinedRun : List RechargeStep :=
  chargeRun ++ [.next 0 25 .arrived, .deliverSuccess firstRequest, .advance 960000000, .call (.spend 1 4000000)] ++
    List.replicate 7 (.next 0 25 .arrived)

/-- The success of attempt 1 is delivered again after the decline: the failure and its back-off are gone, and the
last recharge is now. -/
theorem replay_clears_backoff :
    let w := run (rechargeStep decliningProvider) armedWorld declinedRun
    let replayed := reportSuccess w.db 1 "pi_1" 5000000 (some "auto-recharge") w.now
    w.db.attempts.rows.map (fun a => (a.id, a.status)) = [(2, .failed), (1, .succeeded)] ∧
    SuccessRecorded w.db (rechargeCredit 1 "pi_1" 5000000 (some "auto-recharge")) ∧
    (w.db.settings.find? 1).map (fun s => (s.consecutiveFailures, s.lastFailureAt, s.lastRechargeAt)) =
      some (1, some 960000000, some 0) ∧
    (replayed.settings.find? 1).map (fun s => (s.consecutiveFailures, s.lastFailureAt, s.lastRechargeAt)) =
      some (0, none, some 960000000) ∧
    ¬ SameRecords w.db replayed := by
  intro w replayed
  have hbefore : (w.db.settings.find? 1).map (fun s => (s.consecutiveFailures, s.lastFailureAt, s.lastRechargeAt)) =
      some (1, some 960000000, some 0) := by decide +kernel
  have hafter : (replayed.settings.find? 1).map (fun s => (s.consecutiveFailures, s.lastFailureAt, s.lastRechargeAt)) =
      some (0, none, some 960000000) := by decide +kernel
  refine ⟨by decide +kernel, ⟨by decide, by decide +kernel⟩, hbefore, hafter, fun hsame => ?_⟩
  have hcounter := congrArg (Option.map RechargeSettings.consecutiveFailures) (hsame.settings 1)
  rw [Option.map_map, Option.map_map] at hcounter
  have h1 := congrArg (Option.map Prod.fst) hbefore
  have h0 := congrArg (Option.map Prod.fst) hafter
  rw [Option.map_map] at h1 h0
  exact absurd (h0.symm.trans (hcounter.trans h1)) (by decide)

end Experiential.Billing
