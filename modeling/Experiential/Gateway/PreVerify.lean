import Experiential.Gateway.Admission
import Experiential.Gateway.Refusals

/-! # The allowance before verification

An organization whose founding admin has not verified draws credits up to an allowance. The gate
sums what the organization has charged or reserved on the platform-funded lane over its whole
history, under the organization's row lock, and stands inside the credits branch, so a dispatch
that a promotion pays for in full or that runs on the customer's own keys never meets it.
`allowance_holds` is the bound, and that these two are never refused by the gate. -/

namespace Experiential.Gateway

/-! ### The bound -/

/-- The organization is unverified, and within the allowance. -/
structure WithinAllowance (orgId : Nat) (db : Db) : Prop where
  unverified : db.ownerUnverified orgId = true
  spent : db.preVerifySpent orgId ≤ db.config.allowance

theorem hostOf_frozen (orgId : Nat) : Frozen (·.hostOf orgId) := fun _ _ => rfl

theorem Debited.ownerUnverified {db db' : Db} {orgId : Nat} {amount : Int}
    (h : Debited db db' orgId amount) (hc : db'.config = db.config) (id : Nat) :
    db'.ownerUnverified id = db.ownerUnverified id := by
  obtain ⟨n, hn⟩ := h.find?
  unfold Db.ownerUnverified
  rw [hn, hc]
  cases db.organizations.find? id with
  | none => rfl
  | some o =>
      simp only [Option.map_some, Option.any_some]
      split_ifs <;> rfl

section allowance
variable {orgId : Nat} {db db' : Db}

theorem WithinAllowance.settles {a : GatewayAttempt} {s : Settlement} (hdb : WithinAllowance orgId db)
    (h : Settles db a s db') (hle : ChargeWithin a s) : WithinAllowance orgId db' := by
  refine ⟨(h.organizations.ownerUnverified h.config orgId).trans hdb.unverified, ?_⟩
  rw [h.config]
  exact le_trans (h.charged_le (hostOf_frozen orgId) fun hq => hle (billingSource_of_hostOf hq)) hdb.spent

theorem WithinAllowance.reserve {p : StartArgs} {r : GatewayRequest} {c : StartClock} {f : Funding}
    {id : String} (hdb : WithinAllowance orgId db) (hf : fundAttempt db p r c = .ok f)
    (h : db.insertAttempt (p.row r f id c) = .ok db') : WithinAllowance orgId db' := by
  obtain ⟨u, hfk, hu, rfl⟩ := Db.insertAttempt_eq_ok h
  refine ⟨hdb.unverified, reserve_charged_le hu hdb.spent fun hq hpaid => ?_⟩
  have hhost : p.billingSource = .hostManaged := billingSource_of_hostOf hq
  have horg : p.orgId = orgId := by
    simp only [GatewayAttempt.hostOf, Bool.and_eq_true, decide_eq_true_eq] at hq
    exact hq.1
  have hgate := (fundAttempt_gated hf hhost).preVerify hpaid
  rw [horg] at hgate
  exact hgate hdb.unverified

theorem WithinAllowance.move (h : Move withinReservations.gated db db') (hdb : WithinAllowance orgId db) :
    WithinAllowance orgId db' := by
  cases h with
  | accept p d now hT hfresh hgate h =>
      obtain ⟨t, hfk, -, rfl⟩ := Db.insertRequest_eq_ok h
      exact ⟨hdb.unverified, hdb.spent⟩
  | reserve p r c f id hT hr hf h => exact hdb.reserve (hT.2 r f hr hf) h
  | settle p o u now a s hs hT h => exact hdb.settles h hT
  | crash a now hT h => exact hdb.settles h fun _ => crash_within h.attempts.mem now
  | close r s h =>
      refine ⟨?_, ?_⟩
      · unfold Db.ownerUnverified
        rw [h.config, h.organizations]
        exact hdb.unverified
      · unfold Db.preVerifySpent
        rw [h.config, h.attempts]
        exact hdb.spent

end allowance

/-! ### Who is never refused -/

/-- The step decides the start `p` of the request `r` in `db`, with the readings `c`. -/
inductive Decides (s : Locked) : LockEvent → Db → StartArgs → GatewayRequest → StartClock → Prop
  | start {p : StartArgs} {e : Env} {r : GatewayRequest} (hr : s.db.requests.find? p.requestId = some r) :
      Decides s (.call (.start p, e)) s.db p r e.clock
  | fold {p : AcceptAndStartArgs} {e : Env} {db₁ : Db} {r : GatewayRequest}
      (ha : acceptRequest s.db p.accept e.now = .ok db₁) (hr : db₁.requests.find? p.requestId = some r) :
      Decides s (.call (.acceptAndStart p, e)) db₁ p.toStartArgs r e.clock
  | proceed {i : Nat} {c : StartClock} {id : String} {w : Waiting} (hw : s.waiting[i]? = some w) :
      Decides s (.proceed i c id) s.db w.args w.request (w.clock.resume c)

/-- The winning promotion pays for the dispatch in full. -/
def PromoPays (db : Db) (p : StartArgs) (r : GatewayRequest) (c : StartClock) : Prop :=
  ∃ w s, p.maximumCost = some w ∧
    gatewayPromoState db p.orgId r.aliasName p.provider (some w) c.promoState = .ok s ∧ s.free = true

/-- What `P1025` says of the dispatch it refuses. -/
def UnverifiedError (db : Db) (p : StartArgs) (r : GatewayRequest) (c : StartClock) (e : GatewayError) : Prop :=
  e.errcode = .P1025 → p.billingSource = .hostManaged ∧ ¬ PromoPays db p r c ∧ db.ownerUnverified p.orgId = true

section raises
variable {db : Db} {p : StartArgs} {r : GatewayRequest} {c : StartClock}

theorem Generic.unverifiedError {α : Type} {x : Raises α} (h : Generic x) :
    RaisesOnly (UnverifiedError db p r c) x := h.mono fun _ hne he => absurd he hne.1

theorem checkPromoNotice_unverified (s : PromoState) (f : Funding) (aliasName : String) :
    RaisesOnly (UnverifiedError db p r c) (checkPromoNotice s f aliasName) :=
  .ensure fun _ he => by cases he

theorem admitHost_unverified (hhost : p.billingSource = .hostManaged) :
    RaisesOnly (UnverifiedError db p r c) (admitHost db p r c) := by
  refine .bind (checkRequestRate_generic _ _ _ _).unverifiedError fun _ _ =>
    .bind (checkTokenRate_generic _ _ _ _).unverifiedError fun _ _ =>
    .bind (.require fun he => by cases he) fun w hw =>
    .bind (gatewayPromoState_generic _ _ _ _ _ _).unverifiedError fun s hs => ?_
  rw [require_eq_ok] at hw
  simp only
  split_ifs with hfree
  · exact .pure _
  · refine .bind (.bind (checkPromoNotice_unverified s _ _) fun _ _ => ?_) fun _ _ => .pure _
    refine .bind ?_ fun _ _ => .bind (checkKeyDailyCap_generic _ _ _ _ _).unverifiedError fun _ _ =>
      .bind (checkSpendPolicy_generic _ _ _ _ _ _).unverifiedError fun _ _ =>
      (checkBudgets_generic _ _ _ _ _).unverifiedError
    -- the gate itself: the dispatch is not free, and the admin has not verified
    intro e he hcode
    refine ⟨hhost, ?_, ?_⟩
    · rintro ⟨w', s', hw', hs', hfree'⟩
      cases hw.symm.trans hw'
      cases hs.symm.trans hs'
      exact hfree hfree'
    · by_contra hverified
      simp only [checkPreVerify, if_neg hverified] at he
      cases he

theorem reserveAttempt_unverified (id : String) :
    RaisesOnly (UnverifiedError db p r c) (reserveAttempt db p r c id) := by
  refine .bind ?_ fun f _ => (insertAttempt_generic _ _).unverifiedError
  unfold fundAttempt
  cases hlane : p.billingSource with
  | hostManaged => exact admitHost_unverified hlane
  | customerManaged => exact .pure _

theorem startAttempt_unverified (hr : db.requests.find? p.requestId = some r) (id : String) :
    RaisesOnly (UnverifiedError db p r c) (startAttempt db p c id) := by
  refine .bind (beginAttempt_generic db p c).unverifiedError fun begun hbegun => ?_
  cases begun with
  | receipt existing => exact .pure _
  | admitted q =>
      obtain rfl := Option.some.inj ((beginAttempt_admitted hbegun).found.symm.trans hr)
      exact .bind (reserveAttempt_unverified id) fun _ _ => .pure _

end raises

/-- A step refused with `P1025` decides a dispatch that draws credits. -/
theorem refusal_unverified {s : Locked} {event : LockEvent} {db : Db} {p : StartArgs} {r : GatewayRequest}
    {c : StartClock} (hd : Decides s event db p r c) {e : GatewayError} (h : refusal s event = some e) :
    UnverifiedError db p r c e := by
  cases hd with
  | @start p env r hr =>
      have herr : execute s.db (.start p, env) = .error e := errorOf_eq_some.mp h
      exact RaisesOnly.bind (startAttempt_unverified hr env.attemptId) (fun _ _ => .pure _) e herr
  | @fold p env db₁ r ha hr =>
      have herr : execute s.db (.acceptAndStart p, env) = .error e := errorOf_eq_some.mp h
      refine RaisesOnly.bind (acceptRequest_generic s.db p.accept env.now).unverifiedError (fun db₂ ha' => ?_) e
        herr
      cases ha.symm.trans ha'
      exact .bind (startAttempt_unverified hr env.attemptId) fun _ _ => .pure _
  | @proceed i c id w hw =>
      obtain ⟨w', hw', herr⟩ := Option.bind_eq_some_iff.mp h
      cases hw.symm.trans hw'
      exact reserveAttempt_unverified id e (errorOf_eq_some.mp herr)

/-! ### The run -/

/-- What a step must meet: settlements within reservations, and edits that neither unlock the
organization nor take its admins nor lower the allowance. -/
def AllowanceMeets (orgId : Nat) (s : Locked) : InstallationEvent → Prop
  | .lock event => LockMeets withinReservations s event
  | .administer config organizations =>
      { s.db with config := config, organizations := organizations }.ownerUnverified orgId = true ∧
        s.db.config.allowance ≤ config.allowance

/-- **Pre-verification allowance.**  From the creation of an organization, while it has an admin and no
unlock, under every interleaving of waiting starts, other calls and edits: what its
platform-funded attempts charged or reserved is within the allowance; and in every state, a
dispatch on the customer's keys or paid for by a promotion is not refused by this gate. -/
theorem allowance_holds (orgId : Nat) (s : Locked) (events : List InstallationEvent)
    (hunverified : s.db.ownerUnverified orgId = true) (hallowance : 0 ≤ s.db.config.allowance)
    (hnew : ∀ a ∈ s.db.attempts, a.hostOf orgId = false)
    (h : StepsMeet installationStep (AllowanceMeets orgId) s events) :
    (run installationStep s events).db.preVerifySpent orgId ≤
      (run installationStep s events).db.config.allowance ∧
    ∀ (s' : Locked) (event : LockEvent) (db : Db) (p : StartArgs) (r : GatewayRequest) (c : StartClock)
      (e : GatewayError), Decides s' event db p r c → refusal s' event = some e →
      p.billingSource = .customerManaged ∨ PromoPays db p r c → e.errcode ≠ .P1025 := by
  constructor
  · refine (run_invariant (I := fun s => WithinAllowance orgId s.db) ?_ events s ⟨hunverified, ?_⟩ h).spent
    · intro s event hmeets hs
      cases event with
      | lock event =>
          exact lockStep_gated (fun _ _ => WithinAllowance.move)
            (fun _ _ _ _ _ _ _ _ hf hins hdb => hdb.reserve hf hins) hmeets hs
      | administer config organizations => exact ⟨hmeets.1, le_trans hs.spent hmeets.2⟩
    · refine le_of_eq_of_le (Table.sumWhere_eq_zero fun a ha => Table.share_false ?_) hallowance
      exact hnew a ha
  · intro s' event db p r c e hd hrefused hexempt hcode
    obtain ⟨hhost, hpaid, -⟩ := refusal_unverified hd hrefused hcode
    rcases hexempt with hcustomer | hpromo
    · rw [hhost] at hcustomer
      cases hcustomer
    · exact hpaid hpromo

/-- The sample installation, its organization with an admin who has not verified. -/
def unverifiedDb : Db := .initial { sampleConfig with organizationMembers := [⟨1, 5, .admin⟩] } sampleOrganizations

/-- 0.60 USD are reserved while another start of 0.60 USD waits, which is refused; a start on the
customer's keys is served, and the allowance is raised to 2 USD. -/
def unverifiedRun : List InstallationEvent :=
  [.lock (.call ((GatewayCall.accept (sampleAccept "r1" none 900000000)).atTime 1000000 "")),
    .lock (.call ((GatewayCall.accept (sampleAccept "r2" none 900000000)).atTime 2000000 "")),
    .lock (.arrive (sampleStart "r1" 0 .hostManaged 600000) (.at 3000000)),
    .lock (.arrive (sampleStart "r2" 0 .hostManaged 600000) (.at 4000000)),
    .lock (.proceed 0 (.at 5000000) "a1"),
    .lock (.proceed 0 (.at 6000000) "a2"),
    .lock (.call ((GatewayCall.start (sampleStart "r2" 1 .customerManaged 600000)).atTime 7000000 "a3")),
    .administer { unverifiedDb.config with preVerifyAllowance := some 2000000 } sampleOrganizations]

theorem allowance_holds_sample :
    (run installationStep ⟨unverifiedDb, []⟩ unverifiedRun).db.attempts.rows.map (·.attemptId) = ["a3", "a1"] ∧
    (run installationStep ⟨unverifiedDb, []⟩ unverifiedRun).db.preVerifySpent 1 ≤
      (run installationStep ⟨unverifiedDb, []⟩ unverifiedRun).db.config.allowance := by
  refine ⟨by rfl, (allowance_holds 1 ⟨unverifiedDb, []⟩ unverifiedRun (by rfl) (by decide) ?_ ?_).1⟩
  · exact fun a ha => absurd ha (Table.not_mem_empty a)
  · exact ⟨trivial, trivial, trivial, trivial, fun _ _ => trivial, fun _ _ => trivial, trivial,
      ⟨by rfl, by decide⟩, trivial⟩

end Experiential.Gateway
