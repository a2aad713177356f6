import Experiential.Gateway.PreVerify
import Experiential.Gateway.PromoNotices

/-! # Quota messages

The executor turns a refused start into one generic 429, and the reason is lost. The worker's
middleware restores two of the reasons from the database: a notice of the organization written in
the last seconds means that a free tier was exhausted, and a spend lock of the organization means
that its admin has not verified. Both are facts about the organization, not about the request.

`Serving` is the gateway with the requests it refused, each on its way from the refusal over the
notice the ledger writes and the two lookups to its answer. `quota_messages_true`: every answer names
its reason in every run in which a refused request finds no trace of another refusal in the database
and every trace of its own (`Serving.Undisturbed`). The reason is read off the gates, not off the code of the
refusal: `refusal_code_iff` says that the code for an unverified owner stands for a dispatch that got
past the gates before the allowance and over it. `rate_limit_blamed_on_email` is a run in which an
answer names another reason. -/

namespace Experiential.Gateway

/-! ### Reservation scopes -/

inductive BudgetScopeKind where
  | team
  | identity
  | pool
  | deployment
deriving DecidableEq

/-- `_RESERVATION_SCOPES`: the scope of a refusal with a quota code. -/
def Errcode.scope : Errcode → Option BudgetScopeKind
  | .P1010 | .P1014 | .P1016 | .P1025 | .P1030 | .P1031 => some .team
  | .P1011 | .P1012 | .P1017 | .P1022 | .P1023 => some .identity
  | .P1015 | .P1018 | .P1024 => some .pool
  | .P1013 | .P1019 => some .deployment
  | _ => none

/-! ### The envelope -/

/-- The error object of an OpenAI envelope. -/
structure QuotaError where
  message : String
  type : String
  code : String
deriving DecidableEq

/-- A 429 as the executor wrote it: its bytes, and the error object they hold, if they hold one. -/
structure QuotaResponse where
  body : List UInt8
  error : Option QuotaError
deriving DecidableEq

/-- What the client gets: the bytes as they came, or an envelope written anew. -/
inductive Reply where
  | passed (body : List UInt8)
  | written (error : QuotaError)
deriving DecidableEq

/-- `is_insufficient_quota_envelope`. -/
def QuotaError.insufficientQuota (e : QuotaError) : Bool :=
  decide (e.type = "insufficient_quota") || decide (e.code = "insufficient_quota")

/-- The error object of an insufficient-quota response. -/
def QuotaResponse.quotaError (r : QuotaResponse) : Option QuotaError := r.error.filter (·.insufficientQuota)

def verifyEmailCode : String := "email_unverified"

def verifyEmailMessage : String :=
  "Verify your email to use your credits: check your inbox for the verification link, then retry. " ++
    "Everything else works now, including your own provider keys (BYOK) and trace uploads."

def promoCreditsNowCode : String := "promo_credits_now"

def promoExhaustedMessage (promoLabel : String) : String :=
  "Your free promo for " ++ promoLabel ++
    (" is used up. Further requests to these models now draw your organization's platform credits -- " ++
      "retry to continue. Requests using your own provider keys (BYOK) are unaffected.")

def applyVerifyEmailNotice (e : QuotaError) : QuotaError :=
  { e with message := verifyEmailMessage, code := verifyEmailCode }

def applyPromoExhaustedNotice (e : QuotaError) (promoLabel : String) : QuotaError :=
  { e with message := promoExhaustedMessage promoLabel, code := promoCreditsNowCode }

theorem promoNotice_injective {e : QuotaError} {l l' : String}
    (h : applyPromoExhaustedNotice e l = applyPromoExhaustedNotice e l') : l = l' := by
  have hmessage : promoExhaustedMessage l = promoExhaustedMessage l' := congrArg QuotaError.message h
  unfold promoExhaustedMessage at hmessage
  exact (String.append_right_inj _).mp ((String.append_left_inj _).mp hmessage)

theorem promoNotice_ne_verify (e : QuotaError) (l : String) :
    applyPromoExhaustedNotice e l ≠ applyVerifyEmailNotice e := by
  intro h
  have hcode : promoCreditsNowCode = verifyEmailCode := congrArg QuotaError.code h
  exact absurd hcode (by decide)

/-! ### Decisions -/

/-- A start of the request `request`, in the state and with the readings it is decided in. -/
structure Decision where
  db : Db
  args : StartArgs
  request : GatewayRequest
  clock : StartClock

/-- The start a step decides. -/
def decision (s : Locked) : LockEvent → Option Decision
  | .call (.start p, e) => (s.db.requests.find? p.requestId).map (⟨s.db, p, ·, e.clock⟩)
  | .call (.acceptAndStart p, e) =>
      match acceptRequest s.db p.accept e.now with
      | .ok db => (db.requests.find? p.requestId).map (⟨db, p.toStartArgs, ·, e.clock⟩)
      | .error _ => none
  | .call _ => none
  | .arrive _ _ => none
  | .proceed i c _ => s.waiting[i]?.map fun w => ⟨s.db, w.args, w.request, w.clock.resume c⟩

namespace Decision

/-- The limits of the key. -/
def gates (d : Decision) : KeyGates := keyGates d.db d.args.orgId d.request.apiKeyId

/-- The dispatch draws credits: no promotion pays for it, and none is to be announced as used up. What it
would take the organization to is over the allowance. -/
def exceeds (d : Decision) (maximumCost : Int) : Bool :=
  match gatewayPromoState d.db d.args.orgId d.request.aliasName d.args.provider (some maximumCost)
      d.clock.promoState with
  | .ok promo => !promo.free && !(promo.isPromo && promo.hasFreeTier && !promo.notified) &&
      decide (d.db.config.allowance < d.db.preVerifySpent d.args.orgId + (fundingOf promo maximumCost).chargeWorst)
  | .error _ => false

/-- The owner of the organization is unverified, and the dispatch is within the rates of its key and over
the allowance. -/
def overAllowance (d : Decision) : Bool :=
  decide (d.args.billingSource = .hostManaged) && d.db.ownerUnverified d.args.orgId &&
    d.gates.requestsPerMinute.all (fun rpm =>
      decide (d.db.recentDispatches d.request.apiKeyId d.clock.rateWindow < rpm)) &&
    d.gates.tokensPerMinute.all (fun tpm =>
      decide (d.db.recentTokens d.request.apiKeyId d.clock.tokenWindow < tpm)) &&
    d.args.maximumCost.any d.exceeds

end Decision

/-! ### Requests on their way to an answer -/

/-- Where a refused request is. -/
inductive QuotaPhase where
  /-- The ledger is about to write the notice of its refusal. -/
  | mark
  /-- The middleware is about to look for a fresh notice. -/
  | lookPromo
  /-- It found none, and is about to look at the spend lock. -/
  | lookOwner
  | answered (reply : Reply) (label : Nat → String)
  /-- Routing went on after the refusal. -/
  | dropped

/-- The ledger is about to write the notice. -/
def QuotaPhase.isMark : QuotaPhase → Bool
  | .mark => true
  | _ => false

/-- The first lookup comes next. -/
def QuotaPhase.isLookPromo : QuotaPhase → Bool
  | .lookPromo => true
  | _ => false

/-- The second lookup comes next. -/
def QuotaPhase.isLookOwner : QuotaPhase → Bool
  | .lookOwner => true
  | _ => false

/-- There is no answer yet. -/
def QuotaPhase.isOpen (phase : QuotaPhase) : Bool := phase.isMark || phase.isLookPromo || phase.isLookOwner

/-- A request that a start refused, and the 429 it becomes unless routing goes on. Two fields are kept for
the record only: what the refused dispatch was, and when the notice of its promotion was written. -/
structure RefusedRequest where
  orgId : Nat
  apiKeyId : Nat
  refusal : GatewayError
  response : Option QuotaResponse
  phase : QuotaPhase
  overAllowance : Bool
  markedAt : Option Int

/-- What the request was answered with. -/
def RefusedRequest.reply (x : RefusedRequest) : Option Reply :=
  match x.phase with
  | .answered reply _ => some reply
  | _ => none

/-- The installation, when each notice was written, the operator-facing labels of the promotions,
and the refused requests. -/
structure Serving where
  gateway : Locked
  notifiedAt : PromotionNotice → Int
  label : Nat → String
  requests : List RefusedRequest

/-- The request a refused step leaves to be answered. -/
def refusedRequest (s : Locked) (event : LockEvent) (response : Option QuotaResponse) :
    Option RefusedRequest :=
  match decision s event, refusal s event with
  | some d, some e =>
      if e.errcode.scope.isSome then
        d.request.apiKeyId.map fun apiKeyId => ⟨d.args.orgId, apiKeyId, e, response,
          if e.errcode = .P1030 then .mark else .lookPromo, d.overAllowance, none⟩
      else none
  | _, _ => none

/-! ### Lookups -/

/-- Seconds within which a notice is attributed to the current refusal. -/
def noticeFreshness : Int := 15 * usPerSecond

/-- The notices of the organization written in the last seconds. -/
def Serving.freshNotices (s : Serving) (orgId : Nat) (now : Int) : List PromotionNotice :=
  s.gateway.db.config.modelPromotionNotices.filter (fun n => decide (n.orgId = orgId) &&
    (s.gateway.db.config.modelPromotions.find? n.promotionId).isSome &&
    decide (now - noticeFreshness ≤ s.notifiedAt n))

/-- `promo_exhausted_label_for_key`. -/
def promoExhaustedLabelForKey (s : Serving) (apiKeyId : Nat) (now : Int) : Option String :=
  (s.gateway.db.config.apiKeys.find? apiKeyId).bind fun k =>
    (Table.greatestBy s.notifiedAt (s.freshNotices k.orgId now)).map fun n => s.label n.promotionId

/-- `org_owner_unverified_for_key`. -/
def orgOwnerUnverifiedForKey (s : Serving) (apiKeyId : Nat) : Bool :=
  (s.gateway.db.config.apiKeys.find? apiKeyId).any fun k => s.gateway.db.ownerUnverified k.orgId

/-- The first part of `_rewrite`; a lookup that fails (`now` is none) finds nothing. -/
def lookPromo (s : Serving) (x : RefusedRequest) (now : Option Int) : QuotaPhase :=
  match x.response with
  | none => .dropped
  | some r =>
      match r.quotaError with
      | none => .answered (.passed r.body) s.label
      | some e =>
          match now.bind (promoExhaustedLabelForKey s x.apiKeyId) with
          | some l => .answered (.written (applyPromoExhaustedNotice e l)) s.label
          | none => .lookOwner

/-- The second part; `reached` says that the lookup did not fail. -/
def lookOwner (s : Serving) (x : RefusedRequest) (reached : Bool) : QuotaPhase :=
  match x.response.bind (fun r => r.quotaError.map (r, ·)) with
  | none => .dropped
  | some (r, e) =>
      if reached && orgOwnerUnverifiedForKey s x.apiKeyId then
        .answered (.written (applyVerifyEmailNotice e)) s.label
      else .answered (.passed r.body) s.label

/-! ### Steps -/

inductive ServingEvent where
  /-- A step of the gateway; `response` is what becomes of the request if its start is refused. -/
  | gateway (event : LockEvent) (response : Option QuotaResponse)
  | administer (config : Config) (organizations : Table Organization.id Organization.Check)
      (label : Nat → String)
  /-- The notice of the `k`-th request is written at `now`. -/
  | mark (k : Nat) (now : Int)
  /-- The write fails. -/
  | markFails (k : Nat)
  | lookPromo (k : Nat) (now : Option Int)
  | lookOwner (k : Nat) (reached : Bool)

/-- The notice of a promotion's period. -/
def noticeOf (db : Db) (orgId : Nat) (promotionId : String) (now : Int) : Option PromotionNotice :=
  (db.activePromotion promotionId).map fun q => ⟨orgId, q.id, q.periodKey (monthOf now)⟩

/-- The installation after a notice write; a notice that is there keeps its time. -/
def writeNotice (s : Serving) (orgId : Nat) (promotionId : String) (now : Int) : Serving :=
  { s with
    gateway.db := gatewayMarkPromoNotified s.gateway.db orgId promotionId now
    notifiedAt := fun n =>
      if noticeOf s.gateway.db orgId promotionId now = some n ∧
          n ∉ s.gateway.db.config.modelPromotionNotices then now
      else s.notifiedAt n }

/-- The `k`-th request, when it is in the phase. -/
def Serving.requestAt (s : Serving) (k : Nat) (phase : QuotaPhase → Bool) : Option RefusedRequest :=
  s.requests[k]?.filter fun x => phase x.phase

/-- The `k`-th request goes on. -/
def Serving.setPhase (s : Serving) (k : Nat) (x : RefusedRequest) (phase : QuotaPhase) : Serving :=
  { s with requests := s.requests.set k { x with phase := phase } }

/-- A step of the gateway, an edit, or the next call of a refused request. -/
def servingStep (s : Serving) : ServingEvent → Serving
  | .gateway event response =>
      { s with
        gateway := lockStep s.gateway event
        requests := s.requests ++ (refusedRequest s.gateway event response).toList }
  | .administer config organizations label =>
      { s with
        gateway := { s.gateway with db := { s.gateway.db with
          config := { config with
            modelPromotionNotices := keptNotices s.gateway.db.config.modelPromotionNotices config organizations }
          organizations := organizations } }
        label := label }
  | .mark k now =>
      match s.requestAt k QuotaPhase.isMark with
      | some x =>
          -- without a detail nothing is written
          if coalesce x.refusal.detail "" = "" then s.setPhase k x .lookPromo
          else
            let s' := writeNotice s x.orgId (coalesce x.refusal.detail "") now
            let notice := noticeOf s.gateway.db x.orgId (coalesce x.refusal.detail "") now
            s'.setPhase k { x with markedAt := notice.map s'.notifiedAt } .lookPromo
      | none => s
  | .markFails k =>
      match s.requestAt k QuotaPhase.isMark with
      | some x => s.setPhase k x .lookPromo
      | none => s
  | .lookPromo k now =>
      match s.requestAt k QuotaPhase.isLookPromo with
      | some x => s.setPhase k x (lookPromo s x now)
      | none => s
  | .lookOwner k reached =>
      match s.requestAt k QuotaPhase.isLookOwner with
      | some x => s.setPhase k x (lookOwner s x reached)
      | none => s

/-- No notices and no requests yet. -/
def Serving.initial (config : Config) (organizations : Table Organization.id Organization.Check)
    (label : Nat → String) : Serving :=
  ⟨⟨.initial { config with modelPromotionNotices := [] } organizations, []⟩, fun _ => 0, label, []⟩

/-! ### True answers -/

/-- The promo-exhaustion refusal for the promotion with this id. -/
def GatewayError.exhausts (e : GatewayError) (promotionId : Nat) : Prop :=
  e.errcode = .P1030 ∧ e.detail = some (toString promotionId)

/-- The answer to an insufficient-quota response names the reason of the refusal. -/
structure NamesReason (e : GatewayError) (body : List UInt8) (q : QuotaError) (label : Nat → String)
    (reply : Reply) : Prop where
  promo : ∀ l, reply = .written (applyPromoExhaustedNotice q l) ↔ ∃ id, e.exhausts id ∧ label id = l
  verify : reply = .written (applyVerifyEmailNotice q) ↔ e.errcode = .P1025
  passed : e.errcode ≠ .P1025 → (∀ id, ¬ e.exhausts id) → reply = .passed body

theorem exhausts_unique {e : GatewayError} {id id' : Nat} (h : e.exhausts id) (h' : e.exhausts id') :
    id = id' := repr_injective (Option.some.inj (h.2.symm.trans h'.2))

section names
variable {e : GatewayError} {body : List UInt8} {q : QuotaError} {label : Nat → String}

theorem namesReason_promo {l : String} :
    NamesReason e body q label (.written (applyPromoExhaustedNotice q l)) ↔
      ∃ id, e.exhausts id ∧ label id = l := by
  refine ⟨fun h => (h.promo l).mp rfl, ?_⟩
  rintro ⟨id, hid, rfl⟩
  refine ⟨fun l' => ⟨fun h => ⟨id, hid, promoNotice_injective (Reply.written.inj h)⟩, ?_⟩, ?_, ?_⟩
  · rintro ⟨id', hid', rfl⟩
    rw [exhausts_unique hid hid']
  · refine ⟨fun h => absurd (Reply.written.inj h) (promoNotice_ne_verify q _), fun h => ?_⟩
    rw [hid.1] at h
    cases h
  · exact fun _ h => absurd hid (h id)

theorem namesReason_verify : NamesReason e body q label (.written (applyVerifyEmailNotice q)) ↔
    (∀ id, ¬ e.exhausts id) ∧ e.errcode = .P1025 := by
  constructor
  · intro h
    refine ⟨fun id hid => ?_, h.verify.mp rfl⟩
    exact promoNotice_ne_verify q _ (Reply.written.inj ((h.promo _).mpr ⟨id, hid, rfl⟩)).symm
  · rintro ⟨hnone, hcode⟩
    refine ⟨fun l => ⟨fun h => absurd (Reply.written.inj h).symm (promoNotice_ne_verify q l), ?_⟩,
      ⟨fun _ => hcode, fun _ => rfl⟩, fun h => absurd hcode h⟩
    rintro ⟨id, hid, -⟩
    exact absurd hid (hnone id)

theorem namesReason_passed : NamesReason e body q label (.passed body) ↔
    (∀ id, ¬ e.exhausts id) ∧ e.errcode ≠ .P1025 := by
  constructor
  · intro h
    refine ⟨fun id hid => ?_, fun hcode => ?_⟩
    · cases (h.promo _).mpr ⟨id, hid, rfl⟩
    · cases h.verify.mpr hcode
  · rintro ⟨hnone, hcode⟩
    refine ⟨fun l => ⟨fun h => (by cases h), ?_⟩, ⟨fun h => (by cases h), fun h => absurd h hcode⟩,
      fun _ _ => rfl⟩
    rintro ⟨id, hid, -⟩
    exact absurd hid (hnone id)

end names

/-! ### What a code says of the dispatch -/

theorem decision_decides {s : Locked} {event : LockEvent} {d : Decision} (h : decision s event = some d) :
    Decides s event d.db d.args d.request d.clock := by
  unfold decision at h
  split at h
  · obtain ⟨r, hr, rfl⟩ := Option.map_eq_some_iff.mp h
    exact .start hr
  · split at h
    next db ha =>
      obtain ⟨r, hr, rfl⟩ := Option.map_eq_some_iff.mp h
      exact .fold ha hr
    next => cases h
  · cases h
  · cases h
  · obtain ⟨w, hw, rfl⟩ := Option.map_eq_some_iff.mp h
    exact .proceed hw

/-- A quota code stands for an unverified owner exactly for a dispatch over the allowance. -/
def Decision.Reason (d : Decision) (e : GatewayError) : Prop :=
  e.errcode.scope.isSome = true → (e.errcode = .P1025 ↔ d.overAllowance = true)

section reason
variable {d : Decision}

theorem int8_unscoped (x : Int) : RaisesOnly (fun e => e.errcode.scope = none) (int8 x) := by
  unfold int8
  split_ifs
  · exact .ok x
  · exact .error rfl

theorem beginAttempt_unscoped (db : Db) (p : StartArgs) (c : StartClock) :
    RaisesOnly (fun e => e.errcode.scope = none) (beginAttempt db p c) := by
  refine .bind (.require rfl) fun r _ => .bind (.ensure fun _ => rfl) fun _ _ => ?_
  cases db.attemptAt p.requestId p.attemptOrdinal with
  | some existing => exact .bind (.ensure fun _ => rfl) fun _ _ => .pure _
  | none =>
      exact .bind (.ensure fun _ => rfl) fun _ _ => .bind (.ensure fun _ => rfl) fun _ _ =>
        .bind (.ensure fun _ => rfl) fun _ _ => .pure _

theorem reason_of_unscoped {α : Type} {x : Raises α} (h : RaisesOnly (fun e => e.errcode.scope = none) x) :
    RaisesOnly d.Reason x := by
  intro e he hscope
  rw [h e he] at hscope
  cases hscope

/-- A gate with another code, which no dispatch over the allowance fails. -/
theorem Generic.reason {α : Type} {x : Raises α} (hx : Generic x)
    (h : d.overAllowance = true → RaisesOnly (fun e => e.errcode.scope = none) x) : RaisesOnly d.Reason x := by
  intro e he hscope
  refine iff_of_false (hx e he).1 fun hover => ?_
  rw [h hover e he] at hscope
  cases hscope

theorem overAllowance_iff : d.overAllowance = true ↔ d.args.billingSource = .hostManaged ∧
    d.db.ownerUnverified d.args.orgId = true ∧
    (∀ rpm ∈ d.gates.requestsPerMinute, d.db.recentDispatches d.request.apiKeyId d.clock.rateWindow < rpm) ∧
    (∀ tpm ∈ d.gates.tokensPerMinute, d.db.recentTokens d.request.apiKeyId d.clock.tokenWindow < tpm) ∧
    ∃ w ∈ d.args.maximumCost, d.exceeds w = true := by
  unfold Decision.overAllowance
  simp only [Bool.and_eq_true, decide_eq_true_eq, Option.all_eq_true, Option.any_eq_true, Option.mem_def, and_assoc]

theorem checkTokenRate_ok {db : Db} {k : Option Nat} {tpm : Option Int} {t : Int} {u : Unit}
    (h : checkTokenRate db k tpm t = .ok u) : ∀ limit, tpm = some limit → db.recentTokens k t < limit := by
  rintro limit rfl
  simp only [checkTokenRate, bind_eq_ok, ensure_eq_ok] at h
  obtain ⟨recent, hrecent, hlt⟩ := h
  obtain rfl := int8_eq_ok hrecent
  exact hlt

/-- The allowance gate raises its code for a dispatch over the allowance. -/
theorem checkPreVerify_reason {w : Int}
    (hbefore : d.overAllowance = true ↔ d.db.ownerUnverified d.args.orgId = true ∧
      d.db.config.allowance < d.db.preVerifySpent d.args.orgId + w) :
    RaisesOnly d.Reason (checkPreVerify d.db d.args.orgId w) := by
  unfold checkPreVerify
  split_ifs with hunverified
  · refine .bind (reason_of_unscoped (int8_unscoped _)) fun spent hspent =>
      .bind (reason_of_unscoped (int8_unscoped _)) fun total htotal => .ensure fun hexceeds _ => ?_
    obtain rfl := int8_eq_ok hspent
    obtain rfl := int8_eq_ok htotal
    exact iff_of_true rfl (hbefore.mpr ⟨hunverified, not_le.mp hexceeds⟩)
  · exact .pure ()

theorem admitHost_reason (hhost : d.args.billingSource = .hostManaged) :
    RaisesOnly d.Reason (admitHost d.db d.args d.request d.clock) := by
  refine .bind ((checkRequestRate_generic _ _ _ _).reason fun hover => ?_) fun _ hrate =>
    .bind ((checkTokenRate_generic _ _ _ _).reason fun hover => ?_) fun _ htokens => ?_
  · -- within the request rate
    obtain ⟨-, -, hrpm, -⟩ := overAllowance_iff.mp hover
    unfold checkRequestRate
    split
    · exact .pure ()
    next rpm hgate => exact .ensure fun hnot => absurd (hrpm rpm hgate) hnot
  · -- within the token rate
    obtain ⟨-, -, -, htpm, -⟩ := overAllowance_iff.mp hover
    unfold checkTokenRate
    split
    · exact .pure ()
    next tpm hgate =>
      refine .bind (int8_unscoped _) fun recent hrecent => .ensure fun hnot => ?_
      obtain rfl := int8_eq_ok hrecent
      exact absurd (htpm tpm hgate) hnot
  · have hprice : Generic (require d.args.maximumCost (raised .P1013
        ("deployment_price_unknown: this route has no known price, so its spend cannot be bounded " ++
          "against the credit balance, a daily cap, or a scope budget; it is ineligible and another " ++
          "route may serve the request"))) := .require (by decide)
    refine .bind (hprice.reason fun hover => ?_) fun w hw =>
      .bind ((gatewayPromoState_generic _ _ _ _ _ _).reason fun hover => ?_) fun promo hpromo => ?_
    · obtain ⟨-, -, -, -, w, hw, -⟩ := overAllowance_iff.mp hover
      rw [Option.mem_def.mp hw]
      exact .ok w
    · obtain ⟨-, -, -, -, w', hw', hexceeds⟩ := overAllowance_iff.mp hover
      cases (require_eq_ok.mp hw).symm.trans hw'
      intro e he
      simp [Decision.exceeds, he] at hexceeds
    · have hw := require_eq_ok.mp hw
      have hover : d.overAllowance = true ↔ d.db.ownerUnverified d.args.orgId = true ∧ d.exceeds w = true := by
        rw [overAllowance_iff]
        constructor
        · rintro ⟨-, hunverified, -, -, w', hw', hexceeds⟩
          cases hw.symm.trans hw'
          exact ⟨hunverified, hexceeds⟩
        · rintro ⟨hunverified, hexceeds⟩
          exact ⟨hhost, hunverified, checkRequestRate_ok hrate, checkTokenRate_ok htokens, w, hw, hexceeds⟩
      simp only [Decision.exceeds, hpromo, Bool.and_eq_true, Bool.not_eq_true', decide_eq_true_eq] at hover
      simp only
      split_ifs with hfree
      · exact .pure _
      · have hpaid : promo.free = false := Bool.not_eq_true _ ▸ hfree
        refine .bind (.bind (.ensure fun hnotice _ => iff_of_false (by simp) fun h => ?_) fun _ hquiet => ?_)
          fun _ _ => .pure _
        · exact hnotice (by simpa using (hover.mp h).2.1.2)
        · have hannounced : (promo.isPromo && promo.hasFreeTier && !promo.notified) = false := by
            simpa [checkPromoNotice, ensure_eq_ok] using hquiet
          rw [hpaid, hannounced] at hover
          simp only [and_self, true_and] at hover
          refine .bind (checkPreVerify_reason hover) fun _ hpre => ?_
          -- past the allowance gate
          have hwithin : ¬ d.overAllowance = true := fun h =>
            absurd (hover.mp h).2 (not_lt.mpr (checkPreVerify_ok hpre (hover.mp h).1))
          exact .bind ((checkKeyDailyCap_generic _ _ _ _ _).reason fun h => absurd h hwithin) fun _ _ =>
            .bind ((checkSpendPolicy_generic _ _ _ _ _ _).reason fun h => absurd h hwithin) fun _ _ =>
            (checkBudgets_generic _ _ _ _ _).reason fun h => absurd h hwithin

theorem not_overAllowance_of_admitted {f : Funding} (h : fundAttempt d.db d.args d.request d.clock = .ok f) :
    ¬ d.overAllowance = true := by
  intro hover
  obtain ⟨hhost, hunverified, -, -, w, hw, hexceeds⟩ := overAllowance_iff.mp hover
  have hgate := (fundAttempt_gated h hhost).preVerify
  obtain ⟨promo, w', hw', hpromo, rfl⟩ := ((fundAttempt_ok h).host hhost).promo
  cases (Option.mem_def.mp hw).symm.trans hw'
  simp only [Decision.exceeds, hpromo, Bool.and_eq_true, Bool.not_eq_true', decide_eq_true_eq] at hexceeds
  exact absurd (hgate hexceeds.1.1 hunverified) (not_le.mpr hexceeds.2)

theorem reserveAttempt_reason (id : String) :
    RaisesOnly d.Reason (reserveAttempt d.db d.args d.request d.clock id) := by
  refine .bind ?_ fun f hf => (insertAttempt_generic _ _).reason fun h => absurd h (not_overAllowance_of_admitted hf)
  unfold fundAttempt
  cases hlane : d.args.billingSource with
  | hostManaged => exact admitHost_reason hlane
  | customerManaged => exact .pure _

theorem startAttempt_reason (hr : d.db.requests.find? d.args.requestId = some d.request) (id : String) :
    RaisesOnly d.Reason (startAttempt d.db d.args d.clock id) := by
  refine .bind (reason_of_unscoped (beginAttempt_unscoped _ _ _)) fun begun hbegun => ?_
  cases begun with
  | receipt existing => exact .pure _
  | admitted q =>
      obtain rfl := Option.some.inj ((beginAttempt_admitted hbegun).found.symm.trans hr)
      exact .bind (reserveAttempt_reason id) fun _ _ => .pure _

/-- **The code for an unverified owner**, among the quota codes, stands for a dispatch over the
allowance. -/
theorem refusal_code_iff {s : Locked} {event : LockEvent} (hd : decision s event = some d) {e : GatewayError}
    (h : refusal s event = some e) : d.Reason e := by
  have hdecides := decision_decides hd
  obtain ⟨db, args, request, clock⟩ := d
  cases hdecides with
  | @start _ env _ hr =>
      have herr : execute s.db (.start args, env) = .error e := errorOf_eq_some.mp h
      exact RaisesOnly.bind (startAttempt_reason hr env.attemptId) (fun _ _ => .pure _) e herr
  | @fold p env _ _ ha hr =>
      have herr : execute s.db (.acceptAndStart p, env) = .error e := errorOf_eq_some.mp h
      rcases bind_eq_error.mp herr with herr | ⟨db₂, ha', herr⟩
      · rw [ha] at herr
        cases herr
      · cases ha.symm.trans ha'
        exact RaisesOnly.bind (startAttempt_reason hr env.attemptId) (fun _ _ => .pure _) e herr
  | @proceed i c id w hw =>
      obtain ⟨w', hw', herr⟩ := Option.bind_eq_some_iff.mp h
      cases hw.symm.trans hw'
      exact reserveAttempt_reason id e (errorOf_eq_some.mp herr)

end reason

/-! ### Lookups that tell the reason -/

/-- An answered request is told its reason, and one that waits for the second lookup still can be. -/
def RefusedRequest.Sound (x : RefusedRequest) : Prop :=
  ∀ r ∈ x.response, ∀ q ∈ r.quotaError,
    match x.phase with
    | .answered reply label => NamesReason x.refusal r.body q label reply
    | .lookOwner => ∀ id, ¬ x.refusal.exhausts id
    | _ => True

/-- The request is one of the responses that the middleware looks at. -/
def RefusedRequest.asks (x : RefusedRequest) : Bool := x.response.any fun r => r.quotaError.isSome

/-- The caller's key is there, and is the organization's. -/
def Serving.HasKey (s : Serving) (x : RefusedRequest) : Prop :=
  ∃ k ∈ s.gateway.db.config.apiKeys.find? x.apiKeyId, k.orgId = x.orgId

/-- The first lookup comes in time. For a refusal whose promotion was marked: within the freshness of its
notice, before a notice of another label, and it succeeds. For every other refusal: not within the
freshness of a notice of the organization. -/
structure PromoLookupTimely (s : Serving) (x : RefusedRequest) (now : Option Int) : Prop where
  exhausted : ∀ id, x.refusal.exhausts id →
    s.HasKey x ∧ ∃ t ∈ now, ∃ m ∈ x.markedAt, t - noticeFreshness ≤ m ∧
    ∀ n ∈ s.gateway.db.config.modelPromotionNotices, n.orgId = x.orgId →
      s.label n.promotionId ≠ s.label id → s.notifiedAt n < m
  other : (∀ id, ¬ x.refusal.exhausts id) → ∀ t ∈ now, ∀ n ∈ s.gateway.db.config.modelPromotionNotices,
    n.orgId = x.orgId → s.notifiedAt n < t - noticeFreshness

/-- The second lookup succeeds for a dispatch over the allowance; for every other one the organization is
not locked, or the lookup fails. -/
def OwnerLookupTimely (s : Serving) (x : RefusedRequest) (reached : Bool) : Prop :=
  if x.overAllowance = true then reached = true ∧ s.HasKey x
  else reached = true → s.gateway.db.ownerUnverified x.orgId = false

/-- An edit leaves what the unanswered request is about: the lock of its organization if its dispatch was over the
allowance, and its promotion if it was refused for one. -/
def Keeps (after : Db) (x : RefusedRequest) : Prop :=
  (x.overAllowance = true → after.ownerUnverified x.orgId = true) ∧
    ∀ id, x.refusal.exhausts id → (after.config.modelPromotions.find? id).isSome = true ∧
      (after.organizations.find? x.orgId).isSome = true

/-- A refused request finds the traces of its own refusal in the database, and no others: its lookups are timely,
and no edit between takes away what it is about. No key changes its organization. -/
def Serving.Undisturbed (s : Serving) : ServingEvent → Prop
  | .administer config organizations label => ∀ x ∈ s.requests, x.phase.isOpen = true → x.asks = true →
      Keeps (servingStep s (.administer config organizations label)).gateway.db x
  | .lookPromo k now => ∀ x ∈ s.requestAt k QuotaPhase.isLookPromo, x.asks = true →
      (∀ key ∈ s.gateway.db.config.apiKeys.find? x.apiKeyId, key.orgId = x.orgId) ∧ PromoLookupTimely s x now
  | .lookOwner k reached => ∀ x ∈ s.requestAt k QuotaPhase.isLookOwner, x.asks = true →
      (∀ key ∈ s.gateway.db.config.apiKeys.find? x.apiKeyId, key.orgId = x.orgId) ∧ OwnerLookupTimely s x reached
  | _ => True

/-- The notice of the request's promotion is there, with its time. -/
def Serving.Marked (s : Serving) (x : RefusedRequest) : Prop :=
  ∀ m ∈ x.markedAt, ∀ id, x.refusal.exhausts id →
    (s.gateway.db.config.modelPromotions.find? id).isSome = true ∧
    ∃ n ∈ s.gateway.db.config.modelPromotionNotices, n.orgId = x.orgId ∧ n.promotionId = id ∧ s.notifiedAt n = m

/-- What is known of a refused request on its way. -/
structure Tracked (s : Serving) (x : RefusedRequest) : Prop where
  sound : x.Sound
  code : x.refusal.errcode = .P1025 ↔ x.overAllowance = true
  locked : x.phase.isOpen = true → x.asks = true → x.overAllowance = true →
    s.gateway.db.ownerUnverified x.orgId = true
  marked : x.phase.isOpen = true → x.asks = true → s.Marked x

section lookups
variable {s : Serving} {x : RefusedRequest}

theorem asks_of_quotaError {r : QuotaResponse} {q : QuotaError} (hr : x.response = some r)
    (hq : r.quotaError = some q) : x.asks = true := by
  simp [RefusedRequest.asks, hr, hq]

/-- The lookup for a promotion that was marked in time finds its label. -/
theorem label_of_timely {id : Nat} (hid : x.refusal.exhausts id) {now : Option Int} (hmarked : s.Marked x)
    (htimely : PromoLookupTimely s x now) :
    now.bind (promoExhaustedLabelForKey s x.apiKeyId) = some (s.label id) := by
  obtain ⟨⟨k, hk, horg⟩, t, ht, m, hm, hfresh, hlast⟩ := htimely.exhausted id hid
  obtain ⟨hpromotion, n, hn, hnorg, hnid, hntime⟩ := hmarked m hm id hid
  have hmem : n ∈ s.freshNotices k.orgId t := by
    unfold Serving.freshNotices
    rw [List.mem_filter]
    refine ⟨hn, ?_⟩
    simp only [hnid, hpromotion, hntime, horg, hnorg, Bool.and_eq_true, decide_eq_true_eq, and_true, true_and]
    exact hfresh
  rw [Option.mem_def.mp ht, Option.bind_some, promoExhaustedLabelForKey, Option.mem_def.mp hk, Option.bind_some]
  cases hbest : Table.greatestBy s.notifiedAt (s.freshNotices k.orgId t) with
  | none =>
      rw [Table.greatestBy_eq_none] at hbest
      rw [hbest] at hmem
      cases hmem
  | some best =>
      have hle := Table.le_greatestBy hbest hmem
      obtain ⟨hbestmem, hfields⟩ := List.mem_filter.mp (Table.greatestBy_mem hbest)
      simp only [Bool.and_eq_true, decide_eq_true_eq] at hfields
      refine congrArg some ?_
      by_contra hother
      have hlt := hlast best hbestmem (hfields.1.1.trans horg) hother
      omega

theorem label_eq_none_of_timely (hnone : ∀ id, ¬ x.refusal.exhausts id) {now : Option Int}
    (hkey : ∀ key ∈ s.gateway.db.config.apiKeys.find? x.apiKeyId, key.orgId = x.orgId)
    (htimely : PromoLookupTimely s x now) : now.bind (promoExhaustedLabelForKey s x.apiKeyId) = none := by
  simp only [promoExhaustedLabelForKey, Option.bind_eq_none_iff, Option.map_eq_none_iff, Table.greatestBy_eq_none]
  intro t ht k hk
  refine List.filter_eq_nil_iff.mpr fun n hn hfields => ?_
  simp only [Bool.and_eq_true, decide_eq_true_eq] at hfields
  have hold := htimely.other hnone t ht n hn (hfields.1.1.trans (hkey k hk))
  omega

theorem lookPromo_sound {now : Option Int} (hmarked : x.asks = true → s.Marked x)
    (h : x.asks = true → (∀ key ∈ s.gateway.db.config.apiKeys.find? x.apiKeyId, key.orgId = x.orgId) ∧
      PromoLookupTimely s x now) : ({ x with phase := lookPromo s x now } : RefusedRequest).Sound := by
  intro r hr q hq
  have hr : x.response = some r := hr
  have hasks := asks_of_quotaError hr hq
  obtain ⟨hkey, htimely⟩ := h hasks
  by_cases hpromo : ∃ id, x.refusal.exhausts id
  · obtain ⟨id, hid⟩ := hpromo
    simp only [lookPromo, hr, Option.mem_def.mp hq, label_of_timely hid (hmarked hasks) htimely]
    exact namesReason_promo.mpr ⟨id, hid, rfl⟩
  · have hnone : ∀ id, ¬ x.refusal.exhausts id := fun id hid => hpromo ⟨id, hid⟩
    simp only [lookPromo, hr, Option.mem_def.mp hq, label_eq_none_of_timely hnone hkey htimely]
    exact hnone

theorem lookOwner_sound {reached : Bool} (hx : Tracked s x) (hphase : x.phase = .lookOwner)
    (h : x.asks = true → (∀ key ∈ s.gateway.db.config.apiKeys.find? x.apiKeyId, key.orgId = x.orgId) ∧
      OwnerLookupTimely s x reached) : ({ x with phase := lookOwner s x reached } : RefusedRequest).Sound := by
  intro r hr q hq
  have hr : x.response = some r := hr
  have hasks := asks_of_quotaError hr hq
  obtain ⟨hkey, htimely⟩ := h hasks
  have hnone : ∀ id, ¬ x.refusal.exhausts id := by
    have hsound := hx.sound r hr q hq
    rwa [hphase] at hsound
  simp only [lookOwner, hr, Option.mem_def.mp hq, Option.bind_some, Option.map_some]
  unfold OwnerLookupTimely at htimely
  by_cases hover : x.overAllowance = true
  · -- its organization is still locked
    rw [if_pos hover] at htimely
    obtain ⟨hreached, k, hk, horg⟩ := htimely
    have hlocked := hx.locked (by rw [hphase]; rfl) hasks hover
    have hfound : orgOwnerUnverifiedForKey s x.apiKeyId = true := by
      unfold orgOwnerUnverifiedForKey
      rw [Option.mem_def.mp hk, Option.any_some, horg, hlocked]
    rw [hreached, hfound]
    exact namesReason_verify.mpr ⟨hnone, hx.code.mpr hover⟩
  · rw [if_neg hover] at htimely
    have hpassed : NamesReason x.refusal r.body q s.label (.passed r.body) :=
      namesReason_passed.mpr ⟨hnone, fun hcode => hover (hx.code.mp hcode)⟩
    have hfound : (reached && orgOwnerUnverifiedForKey s x.apiKeyId) = false := by
      by_contra hfound
      simp only [Bool.not_eq_false, Bool.and_eq_true, orgOwnerUnverifiedForKey, Option.any_eq_true] at hfound
      obtain ⟨hreached, k, hk, hlocked⟩ := hfound
      rw [hkey k hk, htimely hreached] at hlocked
      cases hlocked
    rw [hfound]
    exact hpassed

end lookups

/-! ### Steps -/

theorem Move.ownerUnverified {T : Terms} {db db' : Db} (h : Move T db db') (orgId : Nat) :
    db'.ownerUnverified orgId = db.ownerUnverified orgId := by
  cases h with
  | accept p d now hT hfresh hgate h =>
      obtain ⟨t, hfk, -, rfl⟩ := Db.insertRequest_eq_ok h
      rfl
  | reserve p r c f id hT hr hf h =>
      obtain ⟨t, hfk, -, rfl⟩ := Db.insertAttempt_eq_ok h
      rfl
  | settle p o u now a s hs hT h | crash a now hT h => exact h.organizations.ownerUnverified h.config orgId
  | close r s h =>
      unfold Db.ownerUnverified
      rw [h.config, h.organizations]

theorem lockStep_frame (s : Locked) (event : LockEvent) : (lockStep s event).db.config = s.db.config ∧
    ∀ orgId, (lockStep s event).db.ownerUnverified orgId = s.db.ownerUnverified orgId := by
  refine lockStep_preserves (T := {})
    (I := fun db => db.config = s.db.config ∧ ∀ orgId, db.ownerUnverified orgId = s.db.ownerUnverified orgId)
    ?_ ?_ ?_ ⟨rfl, fun _ => rfl⟩
  · rintro db db' h ⟨hconfig, howner⟩
    exact ⟨h.config.trans hconfig, fun orgId => (h.ownerUnverified orgId).trans (howner orgId)⟩
  · rintro db db' p r c f id - - h ⟨hconfig, howner⟩
    obtain ⟨t, hfk, -, rfl⟩ := Db.insertAttempt_eq_ok h
    exact ⟨hconfig, howner⟩
  · cases event with
    | call c => exact meets_of_forall c
    | arrive p c => trivial
    | proceed i c id => exact fun _ _ => trivial

/-- The state a start is decided in has the lock of the state before the step. -/
theorem decision_ownerUnverified {s : Locked} {event : LockEvent} {d : Decision} (h : decision s event = some d)
    (orgId : Nat) : d.db.ownerUnverified orgId = s.db.ownerUnverified orgId := by
  have hdecides := decision_decides h
  obtain ⟨db, args, request, clock⟩ := d
  cases hdecides with
  | start hr => rfl
  | fold ha hr =>
      rcases acceptRequest_eq_ok ha with ⟨rfl, -⟩ | ⟨d, -, -, -, hins⟩
      · rfl
      · obtain ⟨t, hfk, -, rfl⟩ := Db.insertRequest_eq_ok hins
        rfl
  | proceed hw => rfl

theorem refusedRequest_tracked {s : Serving} {event : LockEvent} {response : Option QuotaResponse}
    {x : RefusedRequest} (h : refusedRequest s.gateway event response = some x) :
    Tracked { s with gateway := lockStep s.gateway event } x := by
  unfold refusedRequest at h
  split at h
  next d e hd he =>
    by_cases hscope : e.errcode.scope.isSome = true
    · rw [if_pos hscope] at h
      obtain ⟨apiKeyId, -, rfl⟩ := Option.map_eq_some_iff.mp h
      refine ⟨fun r _ q _ => ?_, refusal_code_iff hd he hscope, fun _ _ hover => ?_, fun _ _ m hm => by cases hm⟩
      · dsimp only
        split_ifs <;> trivial
      · show (lockStep s.gateway event).db.ownerUnverified d.args.orgId = true
        rw [(lockStep_frame s.gateway event).2, ← decision_ownerUnverified hd]
        exact (overAllowance_iff.mp hover).2.1
    · rw [if_neg hscope] at h
      cases h
  · cases h

theorem Tracked.congr {s s' : Serving} {x : RefusedRequest} (h : Tracked s x)
    (hlocked : s'.gateway.db.ownerUnverified x.orgId = s.gateway.db.ownerUnverified x.orgId)
    (hpromotions : s'.gateway.db.config.modelPromotions = s.gateway.db.config.modelPromotions)
    (hnotices : ∀ n ∈ s.gateway.db.config.modelPromotionNotices,
      n ∈ s'.gateway.db.config.modelPromotionNotices ∧ s'.notifiedAt n = s.notifiedAt n) : Tracked s' x := by
  refine ⟨h.sound, h.code, fun hopen hasks hover => hlocked.trans (h.locked hopen hasks hover), ?_⟩
  intro hopen hasks m hm id hid
  obtain ⟨hpromotion, n, hn, horg, hnid, htime⟩ := h.marked hopen hasks m hm id hid
  refine ⟨?_, n, (hnotices n hn).1, horg, hnid, (hnotices n hn).2.trans htime⟩
  rw [hpromotions]
  exact hpromotion

/-- The write of a notice leaves the promotions, the locks and the other notices. -/
theorem writeNotice_frame (s : Serving) (orgId : Nat) (promotionId : String) (now : Int) :
    (∀ o, (writeNotice s orgId promotionId now).gateway.db.ownerUnverified o = s.gateway.db.ownerUnverified o) ∧
    (writeNotice s orgId promotionId now).gateway.db.config.modelPromotions =
      s.gateway.db.config.modelPromotions ∧
    ∀ n ∈ s.gateway.db.config.modelPromotionNotices,
      n ∈ (writeNotice s orgId promotionId now).gateway.db.config.modelPromotionNotices ∧
        (writeNotice s orgId promotionId now).notifiedAt n = s.notifiedAt n := by
  refine ⟨?_, ?_, fun n hn => ⟨?_, if_neg fun hnew => hnew.2 hn⟩⟩
  all_goals
    unfold writeNotice gatewayMarkPromoNotified
    simp only
    cases s.gateway.db.activePromotion promotionId with
    | none => first | exact hn | rfl | exact fun _ => rfl
    | some q =>
        simp only [Db.insertNotice]
        split_ifs
        all_goals first | exact hn | exact List.mem_cons_of_mem _ hn | rfl | exact fun _ => rfl

/-- The notice of the promotion a refusal names is there after the write. -/
theorem writeNotice_marked {s s' : Serving} {x : RefusedRequest} {now : Int} {phase : QuotaPhase}
    (hs' : s' = writeNotice s x.orgId (coalesce x.refusal.detail "") now) :
    s'.Marked { x with
      phase := phase
      markedAt := (noticeOf s.gateway.db x.orgId (coalesce x.refusal.detail "") now).map s'.notifiedAt } := by
  subst hs'
  intro m hm id hid
  obtain ⟨n, hn, rfl⟩ := Option.map_eq_some_iff.mp hm
  obtain ⟨q, hq, rfl⟩ := Option.map_eq_some_iff.mp hn
  have hdetail : coalesce x.refusal.detail "" = toString id := by
    have hid : x.refusal.detail = some (toString id) := hid.2
    rw [hid]
    rfl
  have hqid : q.id = id := repr_injective ((activePromotion_id hq).trans hdetail)
  have hmem : q ∈ s.gateway.db.config.modelPromotions.rows := List.mem_of_find?_eq_some hq
  refine ⟨?_, _, ?_, rfl, hqid, rfl⟩
  · rw [(writeNotice_frame s _ _ now).2.1, ← hqid, Table.find?_key hmem]
    rfl
  · unfold writeNotice gatewayMarkPromoNotified
    simp only [hq, Db.insertNotice]
    split_ifs with hthere
    · exact hthere
    · exact List.mem_cons_self

/-- Every request is tracked. -/
def AllTracked (s : Serving) : Prop := ∀ x ∈ s.requests, Tracked s x

theorem allTracked_setPhase {s : Serving} {k : Nat} {x : RefusedRequest} {phase : QuotaPhase}
    (h : AllTracked s) (hx : Tracked s { x with phase := phase }) : AllTracked (s.setPhase k x phase) := by
  intro y hy
  have htracked : Tracked s y := by
    rcases List.mem_or_eq_of_mem_set hy with hy | rfl
    · exact h y hy
    · exact hx
  exact htracked.congr rfl rfl fun n hn => ⟨hn, rfl⟩

theorem Tracked.toLookPromo {s : Serving} {x : RefusedRequest} (h : Tracked s x) (hopen : x.phase.isOpen = true) :
    Tracked s { x with phase := .lookPromo } :=
  ⟨fun _ _ _ _ => trivial, h.code, fun _ => h.locked hopen, fun _ => h.marked hopen⟩

theorem isOpen_of {phase : QuotaPhase}
    (h : phase.isMark = true ∨ phase.isLookPromo = true ∨ phase.isLookOwner = true) : phase.isOpen = true := by
  unfold QuotaPhase.isOpen
  rcases h with h | h | h <;> simp [h]

/-- **A step keeps every request tracked.** -/
theorem allTracked_step {s : Serving} {event : ServingEvent} (hstep : s.Undisturbed event) (h : AllTracked s) :
    AllTracked (servingStep s event) := by
  cases event with
  | gateway event response =>
      obtain ⟨hconfig, howner⟩ := lockStep_frame s.gateway event
      intro x hx
      have htracked : Tracked { s with gateway := lockStep s.gateway event } x := by
        rcases List.mem_append.mp hx with hx | hx
        · refine (h x hx).congr (howner x.orgId) (congrArg _ hconfig) fun n hn => ⟨?_, rfl⟩
          rw [hconfig]
          exact hn
        · exact refusedRequest_tracked (Option.mem_toList.mp hx)
      exact htracked.congr rfl rfl fun n hn => ⟨hn, rfl⟩
  | administer config organizations label =>
      intro x hx
      have htracked := h x hx
      refine ⟨htracked.sound, htracked.code, fun hopen hasks => (hstep x hx hopen hasks).1, ?_⟩
      intro hopen hasks m hm id hid
      obtain ⟨-, n, hn, horg, hnid, htime⟩ := htracked.marked hopen hasks m hm id hid
      obtain ⟨hpromotion, horganization⟩ := (hstep x hx hopen hasks).2 id hid
      refine ⟨hpromotion, n, List.mem_filter.mpr ⟨hn, ?_⟩, horg, hnid, htime⟩
      rw [horg, hnid, Bool.and_eq_true]
      exact ⟨hpromotion, horganization⟩
  | mark k now =>
      cases hx : s.requestAt k QuotaPhase.isMark with
      | none =>
          simp only [servingStep, hx]
          exact h
      | some x =>
          obtain ⟨hmem, hphase⟩ := Option.filter_eq_some_iff.mp hx
          have hopen := isOpen_of (.inl hphase)
          have htracked := h x (List.mem_of_getElem? hmem)
          simp only [servingStep, hx]
          split_ifs
          · exact allTracked_setPhase h (htracked.toLookPromo hopen)
          · obtain ⟨howner, hpromotions, hnotices⟩ :=
              writeNotice_frame s x.orgId (coalesce x.refusal.detail "") now
            have hkept (y : RefusedRequest) (hy : Tracked s y) :
                Tracked (writeNotice s x.orgId (coalesce x.refusal.detail "") now) y :=
              hy.congr (howner y.orgId) hpromotions hnotices
            refine allTracked_setPhase (fun y hy => hkept y (h y hy)) ?_
            refine ⟨fun _ _ _ _ => trivial, htracked.code, fun _ => (hkept x htracked).locked hopen, fun _ _ => ?_⟩
            exact writeNotice_marked rfl
  | markFails k =>
      cases hx : s.requestAt k QuotaPhase.isMark with
      | none =>
          simp only [servingStep, hx]
          exact h
      | some x =>
          obtain ⟨hmem, hphase⟩ := Option.filter_eq_some_iff.mp hx
          simp only [servingStep, hx]
          exact allTracked_setPhase h ((h x (List.mem_of_getElem? hmem)).toLookPromo (isOpen_of (.inl hphase)))
  | lookPromo k now =>
      cases hx : s.requestAt k QuotaPhase.isLookPromo with
      | none =>
          simp only [servingStep, hx]
          exact h
      | some x =>
          obtain ⟨hmem, hphase⟩ := Option.filter_eq_some_iff.mp hx
          have hopen := isOpen_of (.inr (.inl hphase))
          have htracked := h x (List.mem_of_getElem? hmem)
          simp only [servingStep, hx]
          refine allTracked_setPhase h ⟨lookPromo_sound (htracked.marked hopen) (hstep x hx), htracked.code,
            fun _ => htracked.locked hopen, fun _ => htracked.marked hopen⟩
  | lookOwner k reached =>
      cases hx : s.requestAt k QuotaPhase.isLookOwner with
      | none =>
          simp only [servingStep, hx]
          exact h
      | some x =>
          obtain ⟨hmem, hphase⟩ := Option.filter_eq_some_iff.mp hx
          have hopen := isOpen_of (.inr (.inr hphase))
          have htracked := h x (List.mem_of_getElem? hmem)
          have hlook : x.phase = .lookOwner := by
            cases hx' : x.phase <;> simp [hx', QuotaPhase.isLookOwner] at hphase ⊢
          simp only [servingStep, hx]
          exact allTracked_setPhase h ⟨lookOwner_sound htracked hlook (hstep x hx), htracked.code,
            fun _ => htracked.locked hopen, fun _ => htracked.marked hopen⟩

/-! ### The run -/

/-- Every request is, or still can be, told its reason. -/
def AllSound (s : Serving) : Prop := ∀ x ∈ s.requests, x.Sound

/-- **Quota messages.**  In every run from an installation without notices whose refused requests are
undisturbed: every refused request is answered with the reason of its refusal (the promotion's notice, the
request to verify, or the response as it came), or still can be. -/
theorem quota_messages_true (config : Config) (organizations : Table Organization.id Organization.Check)
    (label : Nat → String) (events : List ServingEvent)
    (h : StepsMeet servingStep Serving.Undisturbed (.initial config organizations label) events) :
    AllSound (run servingStep (.initial config organizations label) events) := by
  have htracked : AllTracked (run servingStep (.initial config organizations label) events) :=
    run_invariant (fun _ _ => allTracked_step) events _ (fun _ hx => absurd hx List.not_mem_nil) h
  exact fun x hx => (htracked x hx).sound

/-- The error the executor writes for every refusal. -/
def genericQuota : QuotaError :=
  ⟨"monthly gateway allocation is exhausted", "insufficient_quota", "insufficient_quota"⟩

def genericResponse : QuotaResponse := ⟨[123, 125], some genericQuota⟩

/-- The sample installation with an unverified admin, a free tier of 6 USD a month, and a limit of
`more + 1` requests a minute. -/
def servedConfig (more : ℕ) : Config :=
  { noticeConfig with
    organizationMembers := [⟨1, 5, .admin⟩]
    keyLimits := ⟨[⟨7, none, some (more + 1), none⟩], by simp, by simp [KeyLimits.Check, NullOrNonneg]⟩ }

/-- The accept of a request. -/
def acceptedAt (requestId : String) (now : Int) : ServingEvent :=
  .gateway (.call ((GatewayCall.accept (sampleAccept requestId none 900000000)).atTime now "")) none

/-- The start of a request, which becomes the generic response if it is refused. -/
def startedAt (requestId : String) (maximumCost now : Int) : ServingEvent :=
  .gateway (.call ((GatewayCall.start (sampleStart requestId 0 .hostManaged maximumCost)).atTime now requestId))
    (some genericResponse)

/-- The organization, once its admin has verified. -/
def unlockedOrganizations : Table Organization.id Organization.Check :=
  ⟨[⟨1, 200000000, 0, some 40000000, none, 0⟩], by decide, by decide⟩

/-- The free tier is exhausted by `r2`; after the freshness of its notice `r3` is over the allowance; the admin
verifies, `r3` is served, and `r4` is over the rate of the key. -/
def servedRun : List ServingEvent :=
  [acceptedAt "r1" 1000000, acceptedAt "r2" 1000000, acceptedAt "r3" 1000000, acceptedAt "r4" 1000000,
    startedAt "r1" 5000000 4000000,
    startedAt "r2" 5000000 5000000, .mark 0 6000000, .lookPromo 0 (some 7000000),
    startedAt "r3" 5000000 30000000, .lookPromo 1 (some 31000000), .lookOwner 1 true,
    .administer (servedConfig 1) unlockedOrganizations toString,
    startedAt "r3" 5000000 50000000,
    startedAt "r4" 5000000 55000000, .lookPromo 2 (some 56000000), .lookOwner 2 true]

theorem quota_messages_true_sample :
    (run servingStep (.initial (servedConfig 1) sampleOrganizations toString) servedRun).requests.map
      (fun x => (x.refusal.errcode, x.reply)) =
      [(.P1030, some (.written (applyPromoExhaustedNotice genericQuota "3"))),
        (.P1025, some (.written (applyVerifyEmailNotice genericQuota))),
        (.P1012, some (.passed genericResponse.body))] ∧
    AllSound (run servingStep (.initial (servedConfig 1) sampleOrganizations toString) servedRun) := by
  refine ⟨by rfl, quota_messages_true (servedConfig 1) sampleOrganizations toString servedRun ?_⟩
  refine ⟨trivial, trivial, trivial, trivial, trivial, trivial, trivial, ?_, trivial, ?_, ?_, ?_, trivial, trivial,
    ?_, ?_, trivial⟩
  · -- the promotion of `r2`
    intro x hx _
    cases hx
    refine ⟨fun key hkey => by cases hkey; rfl, fun id hid => ?_, fun hnone => absurd ⟨rfl, rfl⟩ (hnone 3)⟩
    refine ⟨⟨_, rfl, rfl⟩, 7000000, rfl, 6000000, rfl, by decide, fun n hn _ hother => ?_⟩
    obtain rfl := List.mem_singleton.mp hn
    exact absurd (congrArg toString (exhausts_unique ⟨rfl, rfl⟩ hid)) hother
  · -- no notice when `r3` is looked up
    intro x hx _
    cases hx
    refine ⟨fun key hkey => by cases hkey; rfl, fun id hid => (nomatch hid.1), fun _ t ht n hn _ => ?_⟩
    cases ht
    obtain rfl := List.mem_singleton.mp hn
    decide
  · intro x hx _
    cases hx
    exact ⟨fun key hkey => by cases hkey; rfl, (if_pos rfl).mpr ⟨rfl, _, rfl, rfl⟩⟩
  · -- both requests are answered
    intro x hx hopen
    rcases List.mem_cons.mp hx with rfl | hx
    · cases hopen
    · obtain rfl := List.mem_singleton.mp hx
      cases hopen
  · intro x hx _
    cases hx
    refine ⟨fun key hkey => by cases hkey; rfl, fun id hid => (nomatch hid.1), fun _ t ht n hn _ => ?_⟩
    cases ht
    obtain rfl := List.mem_singleton.mp hn
    decide
  · -- `r4` is within the allowance, and its organization is unlocked
    intro x hx _
    cases hx
    exact ⟨fun key hkey => by cases hkey; rfl, (if_neg (by decide)).mpr fun _ => rfl⟩

/-- A second start within the minute, well within the allowance. -/
def throttledRun : List ServingEvent :=
  [acceptedAt "r1" 1000000, acceptedAt "r2" 1000000,
    startedAt "r1" 1000 3000000, startedAt "r2" 1000 4000000, .lookPromo 0 (some 5000000), .lookOwner 0 true]

/-- A key over its request rate is told to verify its email. -/
theorem rate_limit_blamed_on_email :
    (run servingStep (.initial (servedConfig 0) sampleOrganizations toString) throttledRun).requests.map
      (fun x => (x.refusal.errcode, x.reply)) =
      [(.P1012, some (.written (applyVerifyEmailNotice genericQuota)))] ∧
    ¬ AllSound (run servingStep (.initial (servedConfig 0) sampleOrganizations toString) throttledRun) := by
  refine ⟨by rfl, fun h => ?_⟩
  have hreply := h _ (List.mem_cons_self) genericResponse rfl genericQuota rfl
  exact absurd (hreply.verify.mp rfl) (by decide)

-- within the freshness of a notice, a request over the daily cap is told that its free tier is used up
example : (run servingStep (.initial noticeConfig sampleOrganizations toString)
    [acceptedAt "r1" 1000000, acceptedAt "r2" 1000000, acceptedAt "r3" 1000000,
      startedAt "r1" 5000000 4000000, startedAt "r2" 5000000 5000000, .mark 0 6000000,
      startedAt "r3" 60000000 8000000, .lookPromo 1 (some 9000000)]).requests.map
    (fun x => (x.refusal.errcode, x.reply)) =
    [(.P1030, none), (.P1014, some (.written (applyPromoExhaustedNotice genericQuota "3")))] := by rfl

end Experiential.Gateway
