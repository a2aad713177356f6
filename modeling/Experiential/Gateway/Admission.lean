import Experiential.Gateway.Balance

/-! # What a successful start has passed

A start reads the day it will be recorded under before it waits for the organization's row
lock, and the spend policy reads the clock again once it holds the lock. `lockStep` is the
system with that wait: a start arrives and waits, other calls run, and later it proceeds.

The cap of a key, its own or the default of an organization on free credit, is checked against the
day the attempt is recorded under, so it holds in every run (`LockedKeyDays.step`). The cap of an organization is checked against the day of the
policy's own reading; it holds in every run whose starts make both readings on one UTC day
(`daily_caps_hold`), and a start that waits across midnight breaks it (`org_cap_exceeded`).

`Funded` is what an inserted attempt shows of its gates: how it is paid for and the money it fits
under. Two gates leave no trace in the row, the request rate of the key and the allowance of an
organization whose admin has not verified; `Gated` is what a start that passed them knows.
`lockStep_gated` is the step rule of the system with the lock in which every reservation comes
with its gates, and `installationStep` adds edits of configuration and organizations. -/

namespace Experiential.Gateway

/-! ### Two gates -/

/-- The allowance of an organization whose admin has not verified. -/
def Config.allowance (c : Config) : Int := coalesce c.preVerifyAllowance 1000000

theorem checkRequestRate_ok {db : Db} {k : Option Nat} {rpm : Option Int} {t : Int} {u : Unit}
    (h : checkRequestRate db k rpm t = .ok u) : ∀ limit, rpm = some limit →
      db.recentDispatches k t < limit := by
  rintro limit rfl
  simpa only [checkRequestRate, ensure_eq_ok] using h

theorem checkPreVerify_ok {db : Db} {orgId : Nat} {w : Int} {u : Unit} (h : checkPreVerify db orgId w = .ok u)
    (hunverified : db.ownerUnverified orgId = true) :
    db.preVerifySpent orgId + w ≤ db.config.allowance := by
  simp only [checkPreVerify, if_pos hunverified, bind_eq_ok, ensure_eq_ok] at h
  obtain ⟨spent, hs, total, ht, hle⟩ := h
  obtain rfl := int8_eq_ok hs
  obtain rfl := int8_eq_ok ht
  exact hle

/-- What the start of a platform-funded attempt has passed beside its money. -/
structure Gated (db : Db) (p : StartArgs) (r : GatewayRequest) (c : StartClock) (f : Funding) : Prop where
  rate : ∀ limit, (keyGates db p.orgId r.apiKeyId).requestsPerMinute = some limit →
    db.recentDispatches r.apiKeyId c.rateWindow < limit
  preVerify : f.free = false → db.ownerUnverified p.orgId = true →
    db.preVerifySpent p.orgId + f.chargeWorst ≤ db.config.allowance

theorem admitHost_gated {db : Db} {p : StartArgs} {r : GatewayRequest} {c : StartClock} {f : Funding}
    (h : admitHost db p r c = .ok f) : Gated db p r c f := by
  simp only [admitHost, bind_eq_ok, require_eq_ok] at h
  obtain ⟨_, hrate, _, -, w, -, s, -, h⟩ := h
  refine ⟨checkRequestRate_ok hrate, fun hpaid hunverified => ?_⟩
  split_ifs at h with hfree
  · simp only [pure_eq_ok] at h
    obtain rfl := h
    exact absurd (hpaid.symm.trans hfree) (by simp)
  · simp only [bind_eq_ok, pure_eq_ok] at h
    obtain ⟨_, hcredits, rfl⟩ := h
    simp only [checkCredits, bind_eq_ok] at hcredits
    obtain ⟨_, -, _, hpre, -⟩ := hcredits
    exact checkPreVerify_ok hpre hunverified

theorem fundAttempt_gated {db : Db} {p : StartArgs} {r : GatewayRequest} {c : StartClock} {f : Funding}
    (h : fundAttempt db p r c = .ok f) (hhost : p.billingSource = .hostManaged) : Gated db p r c f := by
  simp only [fundAttempt, hhost] at h
  exact admitHost_gated h

theorem Funded.unique {db : Db} {p : StartArgs} {r : GatewayRequest} {c : StartClock} {f g : Funding}
    (hf : Funded db p r c f) (hg : Funded db p r c g) : f = g := by
  cases hlane : p.billingSource with
  | customerManaged => rw [hf.customer hlane, hg.customer hlane]
  | hostManaged =>
      obtain ⟨s, w, hw, hs, rfl⟩ := (hf.host hlane).promo
      obtain ⟨s', w', hw', hs', rfl⟩ := (hg.host hlane).promo
      cases hw.symm.trans hw'
      cases hs.symm.trans hs'
      rfl

/-! ### Calls that succeed -/

/-- The terms together with: a request is accepted for a key of its organization, and a start that is
made has passed every gate. -/
def Terms.gated (T : Terms) : Terms :=
  { T with
    accept := fun db p now => T.accept db p now ∧ ∃ k ∈ db.config.apiKeys.find? p.apiKeyId, k.orgId = p.orgId
    start := fun db p c => T.start db p c ∧
      ∀ r f, Dispatchable db p c r → Funded db p r c f → fundAttempt db p r c = .ok f }

theorem acceptRequest_key {db db' : Db} {p : AcceptArgs} {now : Int} (h : acceptRequest db p now = .ok db') :
    ∃ k ∈ db.config.apiKeys.find? p.apiKeyId, k.orgId = p.orgId := by
  simp only [acceptRequest, bind_eq_ok, require_eq_ok, ensure_eq_ok] at h
  obtain ⟨-, -, -, hkey, -⟩ := h
  exact hkey

theorem startAttempt_funds {db : Db} {p : StartArgs} {c : StartClock} {id : String} {x : Db × String}
    (h : startAttempt db p c id = .ok x) (r : GatewayRequest) (f : Funding) (hr : Dispatchable db p c r)
    (hf : Funded db p r c f) : fundAttempt db p r c = .ok f := by
  simp only [startAttempt, bind_eq_ok] at h
  obtain ⟨begun, hb, h⟩ := h
  cases begun with
  | receipt existing =>
      obtain ⟨a, ha, -⟩ := beginAttempt_receipt hb
      rw [hr.fresh] at ha
      cases ha
  | admitted q =>
      simp only [bind_eq_ok, reserveAttempt] at h
      obtain ⟨_, ⟨g, hg, -⟩, -⟩ := h
      obtain rfl := Option.some.inj ((beginAttempt_admitted hb).found.symm.trans hr.found)
      rw [hf.unique (fundAttempt_ok hg)]
      exact hg

theorem Meets.gated {T : Terms} {db db' : Db} {call : GatewayCall × Env} (hT : Meets T db call)
    (h : execute db call = .ok db') : Meets T.gated db call := by
  obtain ⟨c, e⟩ := call
  cases c with
  | start p =>
      simp only [execute, bind_eq_ok] at h
      obtain ⟨x, hx, -⟩ := h
      exact ⟨hT, startAttempt_funds hx⟩
  | acceptAndStart p =>
      simp only [execute, bind_eq_ok] at h
      obtain ⟨db₁, ha, x, hx, -⟩ := h
      refine ⟨⟨hT.1, acceptRequest_key ha⟩, fun db₂ ha' => ⟨hT.2 db₂ ha', ?_⟩⟩
      cases ha.symm.trans ha'
      exact startAttempt_funds hx
  | accept p => exact ⟨hT, acceptRequest_key h⟩
  | _ => exact hT

/-! ### The two caps -/

/-- Every key with a daily limit is within it, on every day. The limit is that of the key's row, or where
it has none the default of an organization on free credit. -/
def KeyCaps (db : Db) : Prop :=
  ∀ k ∈ db.config.apiKeys, ∀ cap, (keyGates db k.orgId (some k.id)).dailySpendCap = some cap →
    ∀ t, db.keyDaySpent (some k.id) (truncDay t) ≤ cap

/-- Every organization on free credit is within the daily policy cap, on every day. -/
def OrgCaps (db : Db) : Prop :=
  ∀ orgId, db.orgFreeCreditFunded orgId = true → ∀ t, db.orgDaySpent orgId (truncDay t) ≤ orgDailyCap

theorem hostOfKey_frozen (apiKeyId : Option Nat) (t : Int) :
    Frozen (fun a => a.hostOfKey apiKeyId && decide (a.budgetPeriodStart = t)) := fun _ _ => rfl

theorem hostOfDay_frozen (orgId : Nat) (t : Int) :
    Frozen (fun a => a.hostOf orgId && decide (a.budgetPeriodStart = t)) := fun _ _ => rfl

theorem Debited.freeCreditFunded {db db' : Db} {orgId : Nat} {amount : Int}
    (h : Debited db db' orgId amount) (hc : db'.config = db.config) (id : Nat) :
    db'.orgFreeCreditFunded id = db.orgFreeCreditFunded id := by
  obtain ⟨n, hn⟩ := h.find?
  unfold Db.orgFreeCreditFunded
  rw [hn, hc]
  cases db.organizations.find? id with
  | none => rfl
  | some o =>
      simp only [Option.map_some, Option.bind_some]
      split_ifs <;> rfl

theorem Debited.keyGates {db db' : Db} {orgId : Nat} {amount : Int} (h : Debited db db' orgId amount)
    (hc : db'.config = db.config) (id : Nat) (k : Option Nat) :
    keyGates db' id k = keyGates db id k := by
  unfold Gateway.keyGates
  rw [hc, h.freeCreditFunded hc]

theorem keyGates_dailySpendCap_nonneg {db : Db} {orgId : Nat} {k : Option Nat} {cap : Int}
    (h : (keyGates db orgId k).dailySpendCap = some cap) : 0 ≤ cap := by
  unfold keyGates at h
  split at h
  next l hl =>
    obtain ⟨id, -, hl⟩ := Option.bind_eq_some_iff.mp hl
    exact (db.config.keyLimits.checked l (Table.find?_eq_some.mp hl).1).1 cap h
  next =>
    split_ifs at h
    cases h
    decide

/-- The key is a key of the organization, if the table has it. -/
def Config.KeyOf (config : Config) (apiKeyId : Option Nat) (orgId : Nat) : Prop :=
  ∀ k ∈ config.apiKeys, apiKeyId = some k.id → k.orgId = orgId

/-! ### Settlements and reservations -/

section settles
variable {db db' : Db} {a : GatewayAttempt} {s : Settlement}

theorem KeyCaps.settles (hdb : KeyCaps db) (h : Settles db a s db') (hle : ChargeWithin a s) :
    KeyCaps db' := by
  intro k hk cap hcap t
  rw [h.config] at hk
  rw [h.organizations.keyGates h.config] at hcap
  refine le_trans (h.charged_le (hostOfKey_frozen _ _) fun hq => hle ?_) (hdb k hk cap hcap t)
  simp only [GatewayAttempt.hostOfKey, Bool.and_eq_true, decide_eq_true_eq] at hq
  exact hq.1.2

theorem OrgCaps.settles (hdb : OrgCaps db) (h : Settles db a s db') (hle : ChargeWithin a s) :
    OrgCaps db' := by
  intro orgId hfree t
  rw [h.organizations.freeCreditFunded h.config] at hfree
  refine le_trans (h.charged_le (hostOfDay_frozen _ _) fun hq => hle ?_) (hdb orgId hfree t)
  simp only [Bool.and_eq_true] at hq
  exact billingSource_of_hostOf hq.1

end settles

section reserve
variable {db db' : Db} {p : StartArgs} {r : GatewayRequest} {c : StartClock} {f : Funding} {id : String}

/-- The key's cap is checked against the day the attempt is recorded under. -/
theorem KeyCaps.reserve (hdb : KeyCaps db) (hkeyOf : db.config.KeyOf r.apiKeyId p.orgId)
    (hf : Funded db p r c f) (h : db.insertAttempt (p.row r f id c) = .ok db') : KeyCaps db' := by
  obtain ⟨u, hfk, hu, rfl⟩ := Db.insertAttempt_eq_ok h
  intro k hk cap hcap t
  refine reserve_charged_le hu (hdb k hk cap hcap t) fun hq hfree => ?_
  simp only [GatewayAttempt.hostOfKey, Bool.and_eq_true, decide_eq_true_eq] at hq
  obtain ⟨⟨⟨-, hkey⟩, hhost⟩, hday⟩ := hq
  have hkey' : r.apiKeyId = some k.id := hkey
  have hday' : truncDay c.periodStart = truncDay t := hday
  have hgate : (keyGates db p.orgId r.apiKeyId).dailySpendCap = some cap := by
    rw [hkey', ← hkeyOf k hk hkey']
    exact hcap
  have hfits := ((hf.host hhost).credits hfree).keyCap cap hgate
  rwa [hkey', hday'] at hfits

/-- The organization's cap is checked against the day of the policy's own clock reading. -/
theorem OrgCaps.reserve (hdb : OrgCaps db) (hf : Funded db p r c f)
    (hsame : dayOf c.periodStart = dayOf c.spendPolicy)
    (h : db.insertAttempt (p.row r f id c) = .ok db') : OrgCaps db' := by
  obtain ⟨u, hfk, hu, rfl⟩ := Db.insertAttempt_eq_ok h
  intro orgId hfunded t
  have hfunded' : db.orgFreeCreditFunded orgId = true := hfunded
  refine reserve_charged_le hu (hdb orgId hfunded' t) fun hq hfree => ?_
  simp only [Bool.and_eq_true, decide_eq_true_eq] at hq
  obtain ⟨hhost, hday⟩ := hq
  have horg : p.orgId = orgId := by
    simp only [GatewayAttempt.hostOf, Bool.and_eq_true, decide_eq_true_eq] at hhost
    exact hhost.1
  have hpolicy : truncDay c.spendPolicy = truncDay t := (truncDay_eq_iff.mpr hsame).symm.trans hday
  have hfits := ((hf.host (billingSource_of_hostOf hhost)).credits hfree).spend.orgDay (horg ▸ hfunded')
  rwa [horg, hpolicy] at hfits

end reserve

/-! ### Moves -/

/-- Both readings of a start on one UTC day, and every settlement within its reservation. -/
def dayTerms : Terms where
  start := fun _ _ c => dayOf c.periodStart = dayOf c.spendPolicy
  settle := fun _ a s => ChargeWithin a s

/-- Under a configuration, the requests carry keys of their organizations and the keys are within their
daily limits. -/
structure KeyDays (config : Config) (db : Db) : Prop where
  unchanged : db.config = config
  requests : ∀ r ∈ db.requests, config.KeyOf r.apiKeyId r.orgId
  caps : KeyCaps db

theorem KeyDays.initial (config : Config) (organizations : Table Organization.id Organization.Check) :
    KeyDays config (.initial config organizations) where
  unchanged := rfl
  requests r hr := absurd hr (Table.not_mem_empty r)
  caps _ _ _ hcap _ :=
    le_of_eq_of_le (Table.sumWhere_eq_zero fun a ha => absurd ha (Table.not_mem_empty a))
      (keyGates_dailySpendCap_nonneg hcap)

theorem KeyDays.move {config : Config} {db db' : Db} (h : Move withinReservations.gated db db')
    (hdb : KeyDays config db) : KeyDays config db' := by
  cases h with
  | accept p d now hT hfresh hgate h =>
      obtain ⟨t, hfk, ht, rfl⟩ := Db.insertRequest_eq_ok h
      refine ⟨hdb.unchanged, fun r hr => ?_, hdb.caps⟩
      rcases (Table.mem_insert ht).mp hr with rfl | hr
      · obtain ⟨-, q, hq, horg⟩ := hT
        intro k hk hkey
        obtain ⟨hmem, hid⟩ := Table.find?_eq_some.mp hq
        have hsame : some p.apiKeyId = some k.id := hkey
        rw [hdb.unchanged] at hmem
        rw [← Table.eq_of_key_eq hmem hk (hid.trans (Option.some.inj hsame))]
        exact horg
      · exact hdb.requests r hr
  | reserve p r c f id hT hr hf h =>
      have hkeyOf : db.config.KeyOf r.apiKeyId p.orgId := by
        rw [hdb.unchanged, ← hr.org]
        exact hdb.requests r (Table.find?_eq_some.mp hr.found).1
      have hcaps := hdb.caps.reserve hkeyOf hf h
      obtain ⟨u, hfk, hu, rfl⟩ := Db.insertAttempt_eq_ok h
      exact ⟨hdb.unchanged, hdb.requests, hcaps⟩
  | settle p o u now a s hs hT h =>
      exact ⟨h.config.trans hdb.unchanged, h.requests ▸ hdb.requests, hdb.caps.settles h hT⟩
  | crash a now hT h =>
      exact ⟨h.config.trans hdb.unchanged, h.requests ▸ hdb.requests,
        hdb.caps.settles h fun _ => crash_within h.attempts.mem now⟩
  | close r s h =>
      refine ⟨h.config.trans hdb.unchanged, fun r' hr' => ?_, ?_⟩
      · obtain ⟨q, hq, hlater⟩ := h.sameRequests.earlier hr'
        have hkey := hdb.requests q hq
        rcases hlater with rfl | ⟨-, s, t, c, m, rfl⟩
        · exact hkey
        · exact hkey
      · have hcaps := hdb.caps
        unfold KeyCaps Db.keyDaySpent keyGates Db.orgFreeCreditFunded at hcaps ⊢
        rw [h.config, h.attempts, h.organizations]
        exact hcaps

theorem OrgCaps.move {db db' : Db} (h : Move dayTerms db db') (hdb : OrgCaps db) : OrgCaps db' := by
  cases h with
  | accept p d now hT hfresh hgate h =>
      obtain ⟨t, hfk, -, rfl⟩ := Db.insertRequest_eq_ok h
      exact hdb
  | reserve p r c f id hT hr hf h => exact hdb.reserve hf hT h
  | settle p o u now a s hs hT h => exact hdb.settles h hT
  | crash a now hT h => exact hdb.settles h fun _ => crash_within h.attempts.mem now
  | close r s h =>
      unfold OrgCaps Db.orgDaySpent Db.orgFreeCreditFunded
      rw [h.config, h.attempts, h.organizations]
      exact hdb

/-! ### The system with the lock -/

/-- A start that waits for the organization lock: its parameters, the request it locked, and the
readings it made so far. -/
structure Waiting where
  args : StartArgs
  request : GatewayRequest
  clock : StartClock
deriving DecidableEq

structure Locked where
  db : Db
  waiting : List Waiting

/-- The readings of a call that made the first three before the lock and the others after it. -/
def StartClock.resume (before after : StartClock) : StartClock :=
  { after with
    deadlineCheck := before.deadlineCheck
    keyCheck := before.keyCheck
    periodStart := before.periodStart }

/-- `arrive` runs a start up to the lock, `proceed` runs the `i`-th waiting start after it; of
their readings only those made in that phase count. `call` is a whole call. -/
inductive LockEvent where
  | call (call : GatewayCall × Env)
  | arrive (p : StartArgs) (c : StartClock)
  | proceed (i : Nat) (c : StartClock) (attemptId : String)
deriving DecidableEq

def lockStep (s : Locked) : LockEvent → Locked
  | .call c => { s with db := callStep s.db c }
  | .arrive p c =>
      match beginAttempt s.db p c with
      | .ok (.admitted r) => { s with waiting := s.waiting ++ [⟨p, r, c⟩] }
      | _ => s
  | .proceed i c attemptId =>
      match s.waiting[i]? with
      | none => s
      | some w =>
          match reserveAttempt s.db w.args w.request (w.clock.resume c) attemptId with
          | .ok db => ⟨db, s.waiting.eraseIdx i⟩
          | .error _ => { s with waiting := s.waiting.eraseIdx i }

/-- A step of the system with the lock meets the terms. -/
def LockMeets (T : Terms) (s : Locked) : LockEvent → Prop
  | .call c => Meets T s.db c
  | .arrive _ _ => True
  | .proceed i c _ => ∀ w, s.waiting[i]? = some w → T.start s.db w.args (w.clock.resume c)

/-- What moves under the terms preserve, and reservations under them, every step preserves. -/
theorem lockStep_preserves {T : Terms} {I : Db → Prop}
    (hmove : ∀ db db', Move T db db' → I db → I db')
    (hreserve : ∀ db db' p r c f id, T.start db p c → Funded db p r c f →
      db.insertAttempt (p.row r f id c) = .ok db' → I db → I db')
    {s : Locked} {event : LockEvent} (hmeets : LockMeets T s event) (hs : I s.db) :
    I (lockStep s event).db := by
  cases event with
  | call c => exact callStep_preserves hmove hmeets hs
  | arrive p c =>
      simp only [lockStep]
      split <;> exact hs
  | proceed i c id =>
      simp only [lockStep]
      cases hw : s.waiting[i]? with
      | none => exact hs
      | some w =>
          cases hres : reserveAttempt s.db w.args w.request (w.clock.resume c) id with
          | error e => simpa only [hres] using hs
          | ok db =>
              obtain ⟨f, hf, hins⟩ := reserveAttempt_eq_ok hres
              simp only [hres]
              exact hreserve _ _ _ _ _ _ _ (hmeets w hw) hf hins hs

/-- The keys are within their daily limits, and the starts that wait have a key of their organization. -/
structure LockedKeyDays (config : Config) (s : Locked) : Prop where
  db : KeyDays config s.db
  waiting : ∀ w ∈ s.waiting, config.KeyOf w.request.apiKeyId w.args.orgId

theorem LockedKeyDays.step {config : Config} {s : Locked} {event : LockEvent}
    (hmeets : LockMeets withinReservations s event) (hs : LockedKeyDays config s) :
    LockedKeyDays config (lockStep s event) := by
  have hrest : ∀ i, ∀ w ∈ s.waiting.eraseIdx i, config.KeyOf w.request.apiKeyId w.args.orgId :=
    fun i w hw => hs.waiting w ((List.eraseIdx_sublist s.waiting i).subset hw)
  cases event with
  | call c =>
      exact ⟨orStay_preserves (I := KeyDays config)
        (fun _ h hdb => (execute_moves h (hmeets.gated h)).invariant (fun _ _ => KeyDays.move) hdb) hs.db, hs.waiting⟩
  | arrive p c =>
      simp only [lockStep]
      split
      next r hbegin =>
        refine ⟨hs.db, fun w hw => ?_⟩
        rcases List.mem_append.mp hw with hw | hw
        · exact hs.waiting w hw
        · obtain rfl := List.mem_singleton.mp hw
          have hr := beginAttempt_admitted hbegin
          have hkey := hs.db.requests r (Table.find?_eq_some.mp hr.found).1
          rwa [hr.org] at hkey
      next => exact hs
  | proceed i c id =>
      simp only [lockStep]
      cases hw : s.waiting[i]? with
      | none => exact hs
      | some w =>
          cases hres : reserveAttempt s.db w.args w.request (w.clock.resume c) id with
          | error e => simpa only [hres] using ⟨hs.db, hrest i⟩
          | ok db =>
              obtain ⟨f, hf, hins⟩ := reserveAttempt_eq_ok hres
              have hkeyOf := hs.waiting w (List.mem_of_getElem? hw)
              rw [← hs.db.unchanged] at hkeyOf
              have hcaps := hs.db.caps.reserve hkeyOf hf hins
              obtain ⟨u, hfk, hu, rfl⟩ := Db.insertAttempt_eq_ok hins
              simp only [hres]
              exact ⟨⟨hs.db.unchanged, hs.db.requests, hcaps⟩, hrest i⟩

/-! ### The run -/

/-- **Daily caps.**  From the empty database, under every interleaving of waiting starts and other
calls with settlements within reservations: every key's daily limit holds, and so does the
organization's daily cap if every start reads its day and its spend policy on one UTC day. -/
theorem daily_caps_hold (config : Config) (organizations : Table Organization.id Organization.Check)
    (events : List LockEvent) :
    (StepsMeet lockStep (LockMeets withinReservations) ⟨.initial config organizations, []⟩ events →
      KeyCaps (run lockStep ⟨.initial config organizations, []⟩ events).db) ∧
    (StepsMeet lockStep (LockMeets dayTerms) ⟨.initial config organizations, []⟩ events →
      OrgCaps (run lockStep ⟨.initial config organizations, []⟩ events).db) := by
  constructor
  · intro h
    have hs : LockedKeyDays config (run lockStep ⟨.initial config organizations, []⟩ events) :=
      run_invariant (I := LockedKeyDays config) (fun _ _ hmeets hs => hs.step hmeets) events _
        ⟨.initial config organizations, fun w hw => absurd hw (List.not_mem_nil)⟩ h
    exact hs.db.caps
  · intro h
    refine run_invariant (I := fun s => OrgCaps s.db) ?_ events _ ?_ h
    · intro s event hmeets hs
      exact lockStep_preserves (fun _ _ => OrgCaps.move)
        (fun _ _ _ _ _ _ _ hT hf hins hdb => hdb.reserve hf hT hins) hmeets hs
    · intro orgId _ t
      refine le_of_eq_of_le (Table.sumWhere_eq_zero fun a ha => absurd ha (Table.not_mem_empty a)) ?_
      decide

/-- The sample installation with a daily limit of 60 USD on its key. -/
def limitedConfig : Config :=
  { sampleConfig with
    keyLimits := ⟨[⟨7, some 60000000, none, none⟩], by decide, by decide⟩ }

/-- A key without a row of limits, in an organization on free credit. -/
example : (keyGates (.initial { sampleConfig with keyLimits := .empty } sampleOrganizations) 1 (some 7)).dailySpendCap =
    some 50000000 := by decide

/-- Three starts of 25 USD, on two models, arrive just before midnight; two proceed before it, the
third waits and proceeds at `resumed`. -/
def waitingRun (resumed : Int) : List LockEvent :=
  [.call ((GatewayCall.accept (sampleAccept "r1" none 87000000000)).atTime 86399000000 ""),
    .call ((GatewayCall.accept (sampleAccept "r2" none 87000000000)).atTime 86399100000 ""),
    .call ((GatewayCall.accept (sampleAccept "r3" none 87000000000)).atTime 86399200000 ""),
    .arrive (sampleStart "r1" 0 .hostManaged 25000000) (.at 86399300000),
    .arrive { sampleStart "r2" 0 .hostManaged 25000000 with exactModelId := "other" } (.at 86399400000),
    .arrive (sampleStart "r3" 0 .hostManaged 25000000) (.at 86399500000),
    .proceed 0 (.at 86399600000) "a1",
    .proceed 0 (.at 86399700000) "a2",
    .proceed 0 (.at resumed) "a3"]

theorem daily_caps_hold_sample :
    (run lockStep ⟨.initial limitedConfig sampleOrganizations, []⟩
      (waitingRun 86399800000)).db.attempts.rows.length = 2 ∧
    KeyCaps (run lockStep ⟨.initial limitedConfig sampleOrganizations, []⟩
      (waitingRun 86399800000)).db ∧
    OrgCaps (run lockStep ⟨.initial limitedConfig sampleOrganizations, []⟩
      (waitingRun 86399800000)).db := by
  have hcaps := daily_caps_hold limitedConfig sampleOrganizations (waitingRun 86399800000)
  refine ⟨by rfl, hcaps.1 ?_, hcaps.2 ?_⟩
  · exact ⟨trivial, trivial, trivial, trivial, trivial, trivial, fun _ _ => trivial, fun _ _ => trivial,
      fun _ _ => trivial, trivial⟩
  · refine ⟨trivial, trivial, trivial, trivial, trivial, trivial, fun w hw => ?_, fun w hw => ?_,
      fun w hw => ?_, trivial⟩
    all_goals
      cases hw
      rfl

/-- 75 USD are recorded under one day: the third start read its day before midnight, and its spend
policy read the next one. -/
theorem org_cap_exceeded :
    StepsMeet lockStep (LockMeets withinReservations) ⟨sampleDb, []⟩ (waitingRun 86400100000) ∧
    (run lockStep ⟨sampleDb, []⟩ (waitingRun 86400100000)).db.orgDaySpent 1 0 = 75000000 ∧
    ¬ OrgCaps (run lockStep ⟨sampleDb, []⟩ (waitingRun 86400100000)).db := by
  have hspent : (run lockStep ⟨sampleDb, []⟩ (waitingRun 86400100000)).db.orgDaySpent 1 0
      = 75000000 := by rfl
  refine ⟨⟨trivial, trivial, trivial, trivial, trivial, trivial, fun _ _ => trivial,
    fun _ _ => trivial, fun _ _ => trivial, trivial⟩, hspent, fun h => ?_⟩
  have hle := h 1 (by rfl) 0
  rw [show truncDay 0 = 0 by decide, hspent] at hle
  exact absurd hle (by decide)

/-! ### Starts and their gates -/

/-- **Step rule with the gates**: what moves under the terms preserve, the starts among them gated,
and waiting starts that proceed do. -/
theorem lockStep_gated {T : Terms} {I : Db → Prop}
    (hmove : ∀ db db', Move T.gated db db' → I db → I db')
    (hreserve : ∀ db db' p r c f id, T.start db p c → fundAttempt db p r c = .ok f →
      db.insertAttempt (p.row r f id c) = .ok db' → I db → I db')
    {s : Locked} {event : LockEvent} (hmeets : LockMeets T s event) (hs : I s.db) :
    I (lockStep s event).db := by
  cases event with
  | call c =>
      exact orStay_preserves (I := I) (fun _ h hdb => (execute_moves h (hmeets.gated h)).invariant hmove hdb) hs
  | arrive p c =>
      simp only [lockStep]
      split <;> exact hs
  | proceed i c id =>
      simp only [lockStep]
      cases hw : s.waiting[i]? with
      | none => exact hs
      | some w =>
          cases hres : reserveAttempt s.db w.args w.request (w.clock.resume c) id with
          | error e => simpa only [hres] using hs
          | ok db =>
              simp only [hres]
              simp only [reserveAttempt, bind_eq_ok] at hres
              obtain ⟨f, hf, hins⟩ := hres
              exact hreserve _ _ _ _ _ _ _ (hmeets w hw) hf hins hs

/-! ### The system with edits -/

/-- A step of the system with the lock, or an edit of configuration and organizations. -/
inductive InstallationEvent where
  | lock (event : LockEvent)
  | administer (config : Config) (organizations : Table Organization.id Organization.Check)

def installationStep (s : Locked) : InstallationEvent → Locked
  | .lock event => lockStep s event
  | .administer config organizations =>
      { s with db := { s.db with config := config, organizations := organizations } }

/-! ### Refusals -/

def errorOf {α : Type} : Raises α → Option GatewayError
  | .ok _ => none
  | .error e => some e

theorem errorOf_eq_some {α : Type} {x : Raises α} {e : GatewayError} : errorOf x = some e ↔ x = .error e := by
  cases x <;> simp [errorOf]

/-- The error a step of the system raises. -/
def refusal (s : Locked) : LockEvent → Option GatewayError
  | .call c => errorOf (execute s.db c)
  | .arrive p c => errorOf (beginAttempt s.db p c)
  | .proceed i c attemptId =>
      s.waiting[i]?.bind fun w => errorOf (reserveAttempt s.db w.args w.request (w.clock.resume c) attemptId)

theorem lockStep_refused {s : Locked} {event : LockEvent} {e : GatewayError} (h : refusal s event = some e) :
    (lockStep s event).db = s.db := by
  cases event with
  | call c =>
      have herr : execute s.db c = .error e := errorOf_eq_some.mp h
      simp only [lockStep, callStep, orStay, herr]
  | arrive p c =>
      have herr : beginAttempt s.db p c = .error e := errorOf_eq_some.mp h
      simp only [lockStep, herr]
  | proceed i c id =>
      obtain ⟨w, hw, herr⟩ := Option.bind_eq_some_iff.mp h
      simp only [lockStep, hw, errorOf_eq_some.mp herr]

end Experiential.Gateway
