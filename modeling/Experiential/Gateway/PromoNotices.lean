import Experiential.Gateway.Refusals

/-! # Exhaustion notices

A start that finds the free tier of its winning promotion exhausted is refused once, with
`P1030`; the refusal rolls its transaction back, so the ledger writes the notice that keeps the
next start from being refused in a transaction of its own (`gatewayMarkPromoNotified`). That
write knows the promotion only by the text in the refusal's detail: it reads the promotion's
scope again and the month from its own clock.

`NoticeState` is the gateway with the writes still to be made. `promoRefusal_exhausted` says
what a refusal means, `notices_of_refused_periods` that notices stand for refusals of their own
period as long as every write is made in the period it was caused in, and
`next_month_marked` that a write made after the turn of the month takes the new month's free
tier away. -/

namespace Experiential.Gateway

/-! ### Refused starts -/

/-- The attempt a call starts. -/
def GatewayCall.startArgs : GatewayCall → Option StartArgs
  | .start p => some p
  | .acceptAndStart p => some p.toStartArgs
  | _ => none

/-- The start a call makes and the `P1030` it is refused with. -/
def promoRefusal (db : Db) (call : GatewayCall × Env) : Option (StartArgs × GatewayError) :=
  match call.1.startArgs, execute db call with
  | some p, .error e => if e.errcode = .P1030 then some (p, e) else none
  | _, _ => none

/-- Is the notice for the promotion's period in the month there? -/
def Db.HasNotice (db : Db) (orgId : Nat) (q : ModelPromotion) (month : Int) : Prop :=
  ⟨orgId, q.id, q.periodKey month⟩ ∈ db.config.modelPromotionNotices

instance (db : Db) (orgId : Nat) (q : ModelPromotion) (month : Int) :
    Decidable (db.HasNotice orgId q month) := inferInstanceAs (Decidable (_ ∈ _))

/-- The promotion a start of the organization is refused for: its free tier is exhausted for the
worst case, and no notice says so yet. -/
structure Exhausted (db : Db) (orgId : Nat) (worst : Int) (month : Int) (q : ModelPromotion) : Prop where
  mem : q ∈ db.config.modelPromotions
  unnoticed : ¬ db.HasNotice orgId q month
  exceeds : q.perOrgCap < db.promoFreeSpent orgId q month + worst

/-! ### Which statement raises the notice -/

/-- The computation never raises `P1030`. -/
abbrev Quiet {α : Type} (x : Raises α) : Prop := RaisesOnly (·.errcode ≠ .P1030) x

/-- What raises neither of the two codes does not raise `P1030`. -/
theorem Generic.quiet {α : Type} {x : Raises α} (h : Generic x) : Quiet x := h.mono fun _ he => he.2

theorem ensure_quiet {c : Prop} [Decidable c] {code : Errcode} {message : String} (h : code ≠ .P1030) :
    Quiet (ensure c (raised code message)) := .ensure fun _ => h

theorem checkPreVerify_quiet (db : Db) (orgId : Nat) (worst : Int) : Quiet (checkPreVerify db orgId worst) := by
  unfold checkPreVerify
  split_ifs
  · exact .bind (int8_generic _).quiet fun _ _ => .bind (int8_generic _).quiet fun _ _ =>
      ensure_quiet (by decide)
  · exact .pure ()

/-- What a start may raise: `P1030` only for an exhausted promotion, whose id is the detail. -/
def NoticeError (db : Db) (orgId : Nat) (worst month : Int) (e : GatewayError) : Prop :=
  e.errcode = .P1030 → ∃ q, Exhausted db orgId worst month q ∧ e.detail = some (toString q.id)

variable {db : Db}

theorem Quiet.noticeError {α : Type} {x : Raises α} (h : Quiet x) {orgId : Nat}
    {worst month : Int} : RaisesOnly (NoticeError db orgId worst month) x :=
  h.mono fun _ hne he => absurd he hne

theorem Generic.noticeError {α : Type} {x : Raises α} (h : Generic x) {orgId : Nat}
    {worst month : Int} : RaisesOnly (NoticeError db orgId worst month) x := h.quiet.noticeError

/-! ### What a refusal means -/

theorem fitsUnder_false {spent w cap : Int} (h : fitsUnder spent (some w) cap = .ok false) :
    cap < spent + w := by
  simp only [fitsUnder, bind_eq_ok, pure_eq_ok, decide_eq_false_iff_not] at h
  obtain ⟨total, ht, h⟩ := h
  obtain rfl := int8_eq_ok ht
  exact not_le.mp h

/-- What a candidate says of its notice and of its free tier. -/
theorem promoCandidate_eq_ok {orgId : Nat} {worst month : Int} {p : ModelPromotion}
    {c : PromoCandidate} (h : promoCandidate db orgId (some worst) month p = .ok c) :
    c.promotion = p ∧ (c.notified = true ↔ db.HasNotice orgId p month) ∧
      fitsUnder (db.promoFreeSpent orgId p month) (some worst) p.perOrgCap = .ok c.withinFree := by
  simp only [promoCandidate, bind_eq_ok, pure_eq_ok] at h
  obtain ⟨f, hf, d, hd, w, hw, act, hact, rfl⟩ := h
  obtain rfl := int8_eq_ok hf
  refine ⟨rfl, ?_, hw⟩
  simp only [List.any_eq_true, Bool.and_eq_true, decide_eq_true_eq, Db.HasNotice]
  constructor
  · rintro ⟨n, hn, ⟨horg, hid⟩, hkey⟩
    obtain ⟨o, i, k⟩ := n
    simp only at horg hid hkey
    rwa [horg, hid, hkey] at hn
  · intro hn
    exact ⟨_, hn, ⟨rfl, rfl⟩, rfl⟩

/-- The notice check refuses only when the free tier is there, unnoticed, and too small. -/
theorem checkPromoNotice_raises {orgId : Nat} {slug provider aliasName : String}
    {w now : Int} {s : PromoState} (hs : gatewayPromoState db orgId slug provider (some w) now = .ok s)
    (hfree : s.free = false) (f : Funding) :
    RaisesOnly (NoticeError db orgId w (monthOf now)) (checkPromoNotice s f aliasName) := by
  refine .ensure fun hcond _ => ?_
  rw [not_not] at hcond
  rcases gatewayPromoState_eq_ok hs with rfl | ⟨q, hq, c, hc, rfl⟩
  · cases hcond
  · obtain ⟨rfl, hnotice, hfits⟩ := promoCandidate_eq_ok hc
    simp only [PromoCandidate.state, Bool.true_and, Bool.and_eq_true, Bool.not_eq_true'] at hcond
    have hwithin : c.withinFree = false := by
      simpa [PromoState.free, PromoCandidate.state, hcond.1, hcond.2] using hfree
    rw [hwithin] at hfits
    refine ⟨c.promotion, ⟨hq, ?_, fitsUnder_false hfits⟩, rfl⟩
    rw [← hnotice, hcond.2]
    decide

theorem admitHost_raises (db : Db) (p : StartArgs) (r : GatewayRequest) (c : StartClock) :
    RaisesOnly (NoticeError db p.orgId (coalesce p.maximumCost 0) (monthOf c.promoState))
      (admitHost db p r c) := by
  refine .bind (checkRequestRate_generic _ _ _ _).noticeError fun _ _ =>
    .bind (checkTokenRate_generic _ _ _ _).noticeError fun _ _ =>
    .bind (.require fun h => by cases h) fun w hw =>
    .bind (gatewayPromoState_generic _ _ _ _ _ _).noticeError fun s hs => ?_
  rw [require_eq_ok] at hw
  rw [hw]
  simp only
  split_ifs with hfree
  · exact .pure _
  · rw [Bool.not_eq_true] at hfree
    refine .bind (.bind (checkPromoNotice_raises hs hfree _) fun _ _ => ?_) fun _ _ => .pure _
    exact .bind (checkPreVerify_quiet _ _ _).noticeError fun _ _ =>
      .bind (checkKeyDailyCap_generic _ _ _ _ _).noticeError fun _ _ =>
      .bind (checkSpendPolicy_generic _ _ _ _ _ _).noticeError fun _ _ =>
      (checkBudgets_generic _ _ _ _ _).noticeError

/-- **A start is refused with the notice only for an exhausted promotion.** -/
theorem startAttempt_raises (db : Db) (p : StartArgs) (c : StartClock) (id : String) :
    RaisesOnly (NoticeError db p.orgId (coalesce p.maximumCost 0) (monthOf c.promoState))
      (startAttempt db p c id) := by
  refine .bind (beginAttempt_generic db p c).noticeError fun begun _ => ?_
  cases begun with
  | receipt existing => exact .pure _
  | admitted r =>
      refine .bind (.bind ?_ fun f _ => (insertAttempt_generic _ _).noticeError) fun _ _ => .pure _
      unfold fundAttempt
      cases p.billingSource with
      | hostManaged => exact admitHost_raises db p r c
      | customerManaged => exact .pure _

/-- What an accept leaves of the facts a refusal is about. -/
theorem acceptRequest_frame {db db' : Db} {p : AcceptArgs} {now : Int}
    (h : acceptRequest db p now = .ok db') : db'.config = db.config ∧ db'.attempts = db.attempts := by
  rcases acceptRequest_eq_ok h with ⟨rfl, -⟩ | ⟨d, -, -, -, hins⟩
  · exact ⟨rfl, rfl⟩
  · obtain ⟨t, hfk, -, rfl⟩ := Db.insertRequest_eq_ok hins
    exact ⟨rfl, rfl⟩

theorem NoticeError.congr {db db' : Db} {orgId : Nat} {worst month : Int} {e : GatewayError}
    (h : NoticeError db' orgId worst month e) (hconfig : db'.config = db.config)
    (hattempts : db'.attempts = db.attempts) : NoticeError db orgId worst month e := by
  intro hcode
  obtain ⟨q, ⟨hmem, hnotice, hexceeds⟩, hdetail⟩ := h hcode
  unfold Db.HasNotice at hnotice
  unfold Db.promoFreeSpent at hexceeds
  rw [hconfig] at hmem hnotice
  rw [hattempts] at hexceeds
  exact ⟨q, ⟨hmem, hnotice, hexceeds⟩, hdetail⟩

theorem execute_raises {c : GatewayCall} {p : StartArgs} (h : c.startArgs = some p) (env : Env) :
    RaisesOnly (NoticeError db p.orgId (coalesce p.maximumCost 0) (monthOf env.clock.promoState))
      (execute db (c, env)) := by
  cases c with
  | start a =>
      cases h
      exact .bind (startAttempt_raises db p env.clock env.attemptId) fun _ _ => .pure _
  | acceptAndStart a =>
      cases h
      refine .bind (acceptRequest_generic db a.accept env.now).noticeError fun db₁ hacc =>
        .bind ?_ fun _ _ => .pure _
      obtain ⟨hconfig, hattempts⟩ := acceptRequest_frame hacc
      exact (startAttempt_raises db₁ a.toStartArgs env.clock env.attemptId).mono fun _ he =>
        he.congr hconfig hattempts
  | _ => cases h

/-- **A refused call is the start of an exhausted promotion.** -/
theorem promoRefusal_exhausted {call : GatewayCall × Env} {p : StartArgs} {e : GatewayError}
    (h : promoRefusal db call = some (p, e)) : ∃ q,
      Exhausted db p.orgId (coalesce p.maximumCost 0) (monthOf call.2.clock.promoState) q ∧
      e.detail = some (toString q.id) := by
  unfold promoRefusal at h
  cases hstart : call.1.startArgs with
  | none => simp [hstart] at h
  | some p₁ =>
      cases hexec : execute db call with
      | ok db' => simp [hstart, hexec] at h
      | error e₁ =>
          simp only [hstart, hexec, Option.ite_none_right_eq_some, Option.some.injEq,
            Prod.mk.injEq] at h
          obtain ⟨hcode, rfl, rfl⟩ := h
          exact execute_raises hstart call.2 e₁ hexec hcode

/-! ### Notice writes -/

/-- The active promotion with this id, as text. -/
def Db.activePromotion (db : Db) (promotionId : String) : Option ModelPromotion :=
  db.config.modelPromotions.rows.find? (fun q => decide (toString q.id = promotionId) && q.active)

/-- Insert a notice, on conflict do nothing. -/
def Db.insertNotice (db : Db) (n : PromotionNotice) : Db :=
  if n ∈ db.config.modelPromotionNotices then db
  else { db with config := { db.config with
    modelPromotionNotices := n :: db.config.modelPromotionNotices } }

/-- `gateway_mark_promo_notified`. -/
def gatewayMarkPromoNotified (db : Db) (orgId : Nat) (promotionId : String) (now : Int) : Db :=
  match db.activePromotion promotionId with
  | none => db
  | some q => db.insertNotice ⟨orgId, q.id, q.periodKey (monthOf now)⟩

/-- A refusal with `P1030`: the organization, the promotion, its period at the refusal, and how its
free tier stood. -/
structure PromoRefusal where
  orgId : Nat
  promotionId : Nat
  periodKey : PeriodKey
  freeSpent : Int
  worst : Int
  cap : Int
deriving DecidableEq

/-- A notice the ledger is about to write, with the refusal that caused it. -/
structure PendingNotice where
  orgId : Nat
  promotionId : String
  refusal : Option PromoRefusal
deriving DecidableEq

/-- The gateway, the notices still to be written, and every refusal so far. -/
structure NoticeState where
  db : Db
  pending : List PendingNotice
  refused : List PromoRefusal

inductive NoticeEvent where
  /-- A call of the gateway; a refused start leaves its notice to be written. -/
  | call (call : GatewayCall × Env)
  /-- Configuration and organizations are edited. -/
  | administer (config : Config) (organizations : Table Organization.id Organization.Check)
  /-- The `k`-th notice write commits at `now`. -/
  | write (k : Nat) (now : Int)
  /-- The `k`-th notice write fails. -/
  | drop (k : Nat)

/-- How the promotion stood for the refused start. -/
def ModelPromotion.refusal (q : ModelPromotion) (db : Db) (p : StartArgs) (month : Int) : PromoRefusal where
  orgId := p.orgId
  promotionId := q.id
  periodKey := q.periodKey month
  freeSpent := db.promoFreeSpent p.orgId q month
  worst := coalesce p.maximumCost 0
  cap := q.perOrgCap

/-- The refusal an error reports: its detail names the promotion. -/
def refusalOf (db : Db) (p : StartArgs) (e : GatewayError) (month : Int) : Option PromoRefusal :=
  (db.config.modelPromotions.rows.find? (fun q => decide (some (toString q.id) = e.detail))).map
    (·.refusal db p month)

/-- What `start_attempt_sync` does with the error: without a detail nothing is written. -/
def markPromoNotified (s : NoticeState) (p : StartArgs) (e : GatewayError) (month : Int) : NoticeState :=
  { s with
    pending := if coalesce e.detail "" = "" then s.pending
      else s.pending ++ [⟨p.orgId, coalesce e.detail "", refusalOf s.db p e month⟩]
    refused := s.refused ++ (refusalOf s.db p e month).toList }

/-- The notices an edit keeps: they go with their promotion and their organization. -/
def keptNotices (notices : List PromotionNotice) (config : Config)
    (organizations : Table Organization.id Organization.Check) : List PromotionNotice :=
  notices.filter (fun n => (config.modelPromotions.find? n.promotionId).isSome &&
    (organizations.find? n.orgId).isSome)

def noticeStep (s : NoticeState) : NoticeEvent → NoticeState
  | .call c =>
      match promoRefusal s.db c with
      | some (p, e) => markPromoNotified s p e (monthOf c.2.clock.promoState)
      | none => { s with db := callStep s.db c }
  | .administer config organizations => { s with
      db.config := { config with
        modelPromotionNotices := keptNotices s.db.config.modelPromotionNotices config organizations }
      db.organizations := organizations }
  | .write k now =>
      match s.pending[k]? with
      | none => s
      | some n => { s with
          db := gatewayMarkPromoNotified s.db n.orgId n.promotionId now
          pending := s.pending.eraseIdx k }
  | .drop k => { s with pending := s.pending.eraseIdx k }

/-- A write is made in the period its refusal was in: for a recurring promotion before the month is
over, and for any promotion before its scope is changed. -/
def NoticeTimely (s : NoticeState) : NoticeEvent → Prop
  | .write k now => ∀ n ∈ s.pending[k]?, ∀ q ∈ s.db.activePromotion n.promotionId,
      ∀ r ∈ n.refusal, r.periodKey = q.periodKey (monthOf now)
  | _ => True

/-- No notices yet, and none to be written. -/
def NoticeState.initial (config : Config) (organizations : Table Organization.id Organization.Check) :
    NoticeState :=
  ⟨.initial { config with modelPromotionNotices := [] } organizations, [], []⟩

/-! ### The free tier of an unnoticed promotion -/

theorem PromoCandidate.free_of_tier {c : PromoCandidate} (h : c.tier = 1) : c.state.free = true := by
  have husable : 0 < c.promotion.perOrgCap ∧ c.withinFree = true ∧ c.notified = false := by
    unfold PromoCandidate.tier at h
    split_ifs at h with husable
    all_goals first | exact husable | omega
  obtain ⟨hcap, hwithin, hnotified⟩ := husable
  simp [PromoState.free, PromoCandidate.state, hcap, hwithin, hnotified]

/-- A dispatch that a promotion matches, and whose worst case fits the promotion's free tier, is
free as long as there is no notice. -/
theorem free_of_unnoticed {orgId : Nat} {slug provider : String} {w now : Int} {s : PromoState}
    (h : gatewayPromoState db orgId slug provider (some w) now = .ok s) {q : ModelPromotion}
    (hq : q ∈ db.config.modelPromotions) (hmatch : q.matches db.config orgId slug provider = true)
    (hcap : 0 < q.perOrgCap) (hfits : db.promoFreeSpent orgId q (monthOf now) + w ≤ q.perOrgCap)
    (hnotice : ¬ db.HasNotice orgId q (monthOf now)) : s.free = true := by
  simp only [gatewayPromoState, bind_eq_ok] at h
  obtain ⟨best, hbest, h⟩ := h
  have husable : ∀ c, promoCandidate db orgId (some w) (monthOf now) q = .ok c → c.tier = 1 := by
    intro c hc
    obtain ⟨rfl, hnotified, hfree⟩ := promoCandidate_eq_ok hc
    have hwithin : c.withinFree = true := by
      cases hw : c.withinFree with
      | true => rfl
      | false =>
          rw [hw] at hfree
          exact absurd (fitsUnder_false hfree) (not_lt.mpr hfits)
    have hfresh : c.notified = false := by
      rw [← Bool.not_eq_true, hnotified]
      exact hnotice
    exact if_pos ⟨hcap, hwithin, hfresh⟩
  obtain ⟨c, rfl, htier⟩ := promoLoop_usable husable
    ((List.mem_insertionSort _).mpr (List.mem_filter.mpr ⟨hq, hmatch⟩)) hbest
  simp only [pure_eq_ok] at h
  rw [← h]
  exact c.free_of_tier htier

/-! ### The invariant -/

/-- Refusals are for exhausted tiers; notices, written or not, stand for refusals. -/
structure NoticeInv (s : NoticeState) : Prop where
  exceeds : ∀ r ∈ s.refused, r.cap < r.freeSpent + r.worst
  pending : ∀ n ∈ s.pending, ∃ r ∈ s.refused, n.refusal = some r ∧ r.orgId = n.orgId ∧
    toString r.promotionId = n.promotionId
  notices : ∀ n ∈ s.db.config.modelPromotionNotices, ∃ r ∈ s.refused, r.orgId = n.orgId ∧
    r.promotionId = n.promotionId ∧ r.periodKey = n.periodKey

theorem callStep_config (db : Db) (call : GatewayCall × Env) : (callStep db call).config = db.config :=
  callStep_preserves (I := fun db' => db'.config = db.config) (fun _ _ h hdb => h.config.trans hdb)
    (meets_of_forall call) rfl

theorem NoticeInv.initial (config : Config) (organizations : Table Organization.id Organization.Check) :
    NoticeInv (.initial config organizations) :=
  ⟨fun _ h => absurd h List.not_mem_nil, fun _ h => absurd h List.not_mem_nil,
    fun _ h => absurd h List.not_mem_nil⟩

/-- The refusal an error reports is the one of the exhausted promotion. -/
theorem refusalOf_eq {p : StartArgs} {e : GatewayError} {month : Int} {q : ModelPromotion}
    (hq : q ∈ db.config.modelPromotions) (h : e.detail = some (toString q.id)) :
    refusalOf db p e month = some (q.refusal db p month) := by
  unfold refusalOf
  cases hfind : db.config.modelPromotions.rows.find? (fun q => decide (some (toString q.id) = e.detail)) with
  | none =>
      have hnone := List.find?_eq_none.mp hfind q hq
      simp [h] at hnone
  | some q' =>
      have hid := List.find?_some hfind
      simp only [h, Option.some.injEq, decide_eq_true_eq] at hid
      rw [db.config.modelPromotions.eq_of_key_eq (List.mem_of_find?_eq_some hfind) hq
        (repr_injective hid)]
      rfl

theorem NoticeInv.refuse {s : NoticeState} (hs : NoticeInv s) {p : StartArgs} {e : GatewayError}
    {month : Int} {q : ModelPromotion}
    (hq : Exhausted s.db p.orgId (coalesce p.maximumCost 0) month q)
    (hdetail : e.detail = some (toString q.id)) : NoticeInv (markPromoNotified s p e month) := by
  have href : refusalOf s.db p e month = some (q.refusal s.db p month) := refusalOf_eq hq.mem hdetail
  unfold markPromoNotified
  rw [href, hdetail]
  refine ⟨?_, ?_, ?_⟩
  · intro r hr
    rcases List.mem_append.mp hr with hr | hr
    · exact hs.exceeds r hr
    · obtain rfl := List.mem_singleton.mp hr
      exact hq.exceeds
  · intro n hn
    have hcases : n ∈ s.pending ∨
        n = ⟨p.orgId, toString q.id, some (q.refusal s.db p month)⟩ := by
      simp only at hn
      split_ifs at hn
      · exact .inl hn
      · exact (List.mem_append.mp hn).imp_right List.mem_singleton.mp
    rcases hcases with hn | rfl
    · obtain ⟨r, hr, hrest⟩ := hs.pending n hn
      exact ⟨r, List.mem_append_left _ hr, hrest⟩
    · exact ⟨_, List.mem_append_right _ List.mem_cons_self, rfl, rfl, rfl⟩
  · intro n hn
    obtain ⟨r, hr, hrest⟩ := hs.notices n hn
    exact ⟨r, List.mem_append_left _ hr, hrest⟩

theorem activePromotion_id {promotionId : String} {q : ModelPromotion}
    (h : db.activePromotion promotionId = some q) : toString q.id = promotionId := by
  have hq := List.find?_some h
  rw [Bool.and_eq_true, decide_eq_true_eq] at hq
  exact hq.1

/-- A timely write adds a notice of the refused period, or none. -/
theorem NoticeInv.mark {s : NoticeState} (hs : NoticeInv s) {n : PendingNotice} (hn : n ∈ s.pending)
    {now : Int} (htimely : ∀ q ∈ s.db.activePromotion n.promotionId, ∀ r ∈ n.refusal,
      r.periodKey = q.periodKey (monthOf now)) :
    ∀ x ∈ (gatewayMarkPromoNotified s.db n.orgId n.promotionId now).config.modelPromotionNotices,
      ∃ r ∈ s.refused, r.orgId = x.orgId ∧ r.promotionId = x.promotionId ∧ r.periodKey = x.periodKey := by
  intro x hx
  unfold gatewayMarkPromoNotified at hx
  cases hq : s.db.activePromotion n.promotionId with
  | none =>
      rw [hq] at hx
      exact hs.notices x hx
  | some q =>
      simp only [hq, Db.insertNotice] at hx
      split_ifs at hx
      · exact hs.notices x hx
      · rcases List.mem_cons.mp hx with rfl | hx
        · obtain ⟨r, hr, href, horg, hid⟩ := hs.pending n hn
          refine ⟨r, hr, horg, ?_, htimely q hq r href⟩
          exact repr_injective (hid.trans (activePromotion_id hq).symm)
        · exact hs.notices x hx

theorem NoticeInv.step {s : NoticeState} (hs : NoticeInv s) (event : NoticeEvent)
    (h : NoticeTimely s event) : NoticeInv (noticeStep s event) := by
  cases event with
  | call c =>
      cases href : promoRefusal s.db c with
      | some pe =>
          obtain ⟨q, hq, hdetail⟩ := promoRefusal_exhausted href
          simp only [noticeStep, href]
          exact hs.refuse hq hdetail
      | none =>
          simp only [noticeStep, href]
          refine ⟨hs.exceeds, hs.pending, ?_⟩
          rw [callStep_config]
          exact hs.notices
  | administer config organizations =>
      exact ⟨hs.exceeds, hs.pending, fun n hn => hs.notices n (List.mem_of_mem_filter hn)⟩
  | write k now =>
      cases hk : s.pending[k]? with
      | none =>
          simp only [noticeStep, hk]
          exact hs
      | some n =>
          simp only [noticeStep, hk]
          have hn : n ∈ s.pending := List.mem_of_getElem? hk
          refine ⟨hs.exceeds, fun x hx => hs.pending x (List.mem_of_mem_eraseIdx hx), ?_⟩
          exact hs.mark hn (h n hk)
  | drop k =>
      exact ⟨hs.exceeds, fun x hx => hs.pending x (List.mem_of_mem_eraseIdx hx), hs.notices⟩

/-! ### The run -/

/-- Notices and refusals agree. -/
structure NoticesSound (s : NoticeState) : Prop where
  /-- A notice stands for a start refused in its period for the exhausted free tier. -/
  caused : ∀ n ∈ s.db.config.modelPromotionNotices, ∃ r ∈ s.refused, r.orgId = n.orgId ∧
    r.promotionId = n.promotionId ∧ r.periodKey = n.periodKey ∧ r.cap < r.freeSpent + r.worst
  /-- No start is refused for a promotion with a notice of the period. -/
  once : ∀ call p e, promoRefusal s.db call = some (p, e) → ∀ q ∈ s.db.config.modelPromotions,
    e.detail = some (toString q.id) → ¬ s.db.HasNotice p.orgId q (monthOf call.2.clock.promoState)
  /-- Until a start of the period was refused, what fits the free tier is free. -/
  available : ∀ orgId slug provider w now promo,
    gatewayPromoState s.db orgId slug provider (some w) now = .ok promo →
    ∀ q ∈ s.db.config.modelPromotions, q.matches s.db.config orgId slug provider = true →
    0 < q.perOrgCap → s.db.promoFreeSpent orgId q (monthOf now) + w ≤ q.perOrgCap →
    (∀ r ∈ s.refused, r.orgId = orgId → r.promotionId = q.id → r.periodKey ≠ q.periodKey (monthOf now)) →
    promo.free = true

theorem NoticeInv.sound {s : NoticeState} (hs : NoticeInv s) : NoticesSound s := by
  refine ⟨?_, ?_, ?_⟩
  · intro n hn
    obtain ⟨r, hr, horg, hid, hkey⟩ := hs.notices n hn
    exact ⟨r, hr, horg, hid, hkey, hs.exceeds r hr⟩
  · intro call p e href q hq hdetail
    obtain ⟨q', hq', hdetail'⟩ := promoRefusal_exhausted href
    rw [hdetail, Option.some.injEq] at hdetail'
    rw [s.db.config.modelPromotions.eq_of_key_eq hq hq'.mem (repr_injective hdetail')]
    exact hq'.unnoticed
  · intro orgId slug provider w now promo hpromo q hq hmatch hcap hfits hnone
    refine free_of_unnoticed hpromo hq hmatch hcap hfits fun hnotice => ?_
    obtain ⟨r, hr, horg, hid, hkey⟩ := hs.notices _ hnotice
    exact hnone r hr horg hid hkey

/-- **Exhaustion notices belong to the period that was exhausted** in every run, from an
installation without notices, whose notice writes are each made in the refused period. -/
theorem notices_of_refused_periods (config : Config)
    (organizations : Table Organization.id Organization.Check) (events : List NoticeEvent)
    (h : StepsMeet noticeStep NoticeTimely (.initial config organizations) events) :
    NoticesSound (run noticeStep (.initial config organizations) events) :=
  (run_invariant (fun _ event ht hs => hs.step event ht) events _
    (NoticeInv.initial config organizations) h).sound

/-- The sample installation with a free tier of 6 USD a month. -/
def noticeConfig : Config :=
  { sampleConfig with
    modelPromotions := ⟨[⟨3, [], [], 6000000, 0, .recurring, .zero, true, 0, true, .all⟩],
      by decide, by decide⟩ }

/-- 5 USD of the free tier are used, and a second start of 5 USD is refused; the notice of the
refusal is written at `writtenAt`. -/
def noticeRun (writtenAt : Int) : List NoticeEvent :=
  [.call ((GatewayCall.accept (sampleAccept "r1" none 1000)).atTime 0 ""),
    .call ((GatewayCall.start (sampleStart "r1" 0 .hostManaged 5000000)).atTime 1 "a1"),
    .call ((GatewayCall.accept (sampleAccept "r2" none 1000)).atTime 2 ""),
    .call ((GatewayCall.start (sampleStart "r2" 0 .hostManaged 5000000)).atTime 3 "a2"),
    .write 0 writtenAt]

theorem notices_of_refused_periods_sample :
    (run noticeStep (.initial noticeConfig sampleOrganizations) (noticeRun 4)).db.config.modelPromotionNotices =
      [⟨1, 3, .month (monthOf 3)⟩] ∧
    NoticesSound (run noticeStep (.initial noticeConfig sampleOrganizations) (noticeRun 4)) := by
  refine ⟨by rfl, notices_of_refused_periods noticeConfig sampleOrganizations (noticeRun 4) ?_⟩
  refine ⟨trivial, trivial, trivial, trivial, ?_, trivial⟩
  rintro n hn q hq r hr
  cases hn
  cases hq
  cases hr
  rfl

/-- The first instant of the month after `noticeRun`'s refusal. -/
def nextMonth : Int := monthStart (monthOf 3 + 1)

/-- The write of a refusal in January, made in February, marks February: nothing was refused in it,
nothing of its free tier is spent, and 5 of its 6 USD are not free. -/
theorem next_month_marked :
    let s := run noticeStep (.initial noticeConfig sampleOrganizations) (noticeRun nextMonth)
    s.refused.map (·.periodKey) = [.month (monthOf 3)] ∧
    s.db.config.modelPromotionNotices = [⟨1, 3, .month (monthOf nextMonth)⟩] ∧
    (∃ promo, gatewayPromoState s.db 1 "alias" "provider" (some 5000000) nextMonth = .ok promo ∧
      promo.promoSpent = 0 ∧ promo.cap = some 6000000 ∧ promo.free = false) ∧
    ¬ NoticesSound s := by
  have hrefused : (run noticeStep (.initial noticeConfig sampleOrganizations)
      (noticeRun nextMonth)).refused.map (·.periodKey) = [.month (monthOf 3)] := by rfl
  have hnotices : (run noticeStep (.initial noticeConfig sampleOrganizations)
      (noticeRun nextMonth)).db.config.modelPromotionNotices = [⟨1, 3, .month (monthOf nextMonth)⟩] := by
    rfl
  refine ⟨hrefused, hnotices, ⟨_, rfl, rfl, rfl, rfl⟩, fun hsound => ?_⟩
  obtain ⟨r, hr, -, -, hkey, -⟩ := hsound.caused ⟨1, 3, .month (monthOf nextMonth)⟩ (by
    rw [hnotices]
    exact List.mem_cons_self)
  have hmem := List.mem_map_of_mem (f := PromoRefusal.periodKey) hr
  rw [hrefused, List.mem_singleton, hkey] at hmem
  revert hmem
  decide

end Experiential.Gateway
