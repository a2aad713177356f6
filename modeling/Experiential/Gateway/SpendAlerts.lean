import Experiential.Gateway.System

/-! # Spend alerts

`spendAlertsDue` fires each crossed rule once a month and leases the undelivered events to the sender
that called it; `spendAlertMark` reports what became of one. A live lease or a delivery keeps an event
from everybody else, but a failure report clears both without looking at whose they are.
`spend_alerts_once` holds in the runs in which only the sender with the last lease of an undelivered
event reports its failure; `late_failure_undoes_delivery` is a run with another report. -/

namespace Experiential.Gateway

/-! ### Rows -/

/-- The kind of a rule with exactly the fields that kind owns; fractions are in thousandths. -/
inductive AlertKind where
  | orgMonthlySpend (threshold : Int)
  | budgetFraction (budgetId : String) (fraction : Int)
deriving DecidableEq

structure SpendAlert where
  alertId : String
  orgId : Nat
  kind : AlertKind
  notifyEmail : String
deriving DecidableEq

def SpendAlert.Check (a : SpendAlert) : Prop :=
  match a.kind with
  | .orgMonthlySpend threshold => 0 < threshold
  | .budgetFraction _ fraction => 0 < fraction ∧ fraction ≤ 1000

instance : DecidablePred SpendAlert.Check := fun a => by
  unfold SpendAlert.Check
  split <;> infer_instance

/-- A fired rule of one month, with the state of its delivery. -/
structure SpendAlertEvent where
  alertId : String
  period : Int
  firedAt : Int
  measured : Int
  threshold : Int
  deliveredAt : Option Int
  deliveryError : Option String
  claimExpiresAt : Option Int
deriving DecidableEq

def SpendAlertEvent.key (e : SpendAlertEvent) : String × Int := (e.alertId, e.period)

def SpendAlertEvent.Check (e : SpendAlertEvent) : Prop := 0 ≤ e.measured ∧ 0 ≤ e.threshold

instance : DecidablePred SpendAlertEvent.Check := fun _ => inferInstanceAs (Decidable (_ ∧ _))

abbrev SpendAlerts := Table SpendAlert.alertId SpendAlert.Check
abbrev SpendAlertEvents := Table SpendAlertEvent.key SpendAlertEvent.Check

/-! ### Firing -/

/-- `ceil(limit * fraction)` for a fraction in thousandths. -/
def ceilFraction (limit fraction : Int) : Int := (limit * fraction + 999) / 1000

/-- What a rule measures this month, and its threshold; `none` when it measures nothing. -/
def measureAlert (db : Db) (month : Int) (a : SpendAlert) : Raises (Option (Int × Int)) :=
  let spent (scope : BudgetScope) := db.budgetScopeSpent a.orgId scope (monthStart month) (monthStart (month + 1))
  match a.kind with
  | .orgMonthlySpend threshold => do
      let measured ← int8 (spent .team)
      return some (measured, threshold)
  | .budgetFraction budgetId fraction =>
      match db.config.gatewayBudgets.find? budgetId with
      | none => return none
      | some b =>
          if b.period.includes month then do
            let measured ← int8 (spent b.scope)
            let threshold ← int8 (ceilFraction b.limit fraction)
            return some (measured, threshold)
          else return none

/-- One rule of the loop: `on conflict do nothing`. -/
def fireAlert (db : Db) (month now : Int) (events : SpendAlertEvents) (a : SpendAlert) :
    Raises SpendAlertEvents := do
  match ← measureAlert db month a with
  | none => return events
  | some (measured, threshold) =>
      if threshold ≤ measured ∧ events.find? (a.alertId, month) = none then
        write (events.insert ⟨a.alertId, month, now, measured, threshold, none, none, none⟩)
      else return events

/-- Fire the rules that have no event this month. -/
def fireAlerts (db : Db) (alerts : SpendAlerts) (events : SpendAlertEvents) (now : Int) : Raises SpendAlertEvents :=
  (alerts.rows.filter (fun a => decide (events.find? (a.alertId, monthOf now) = none))).foldlM
    (fireAlert db (monthOf now) now) events

/-! ### Leasing -/

/-- The events a tick may lease. -/
def SpendAlertEvent.leasable (e : SpendAlertEvent) (now : Int) : Bool :=
  decide (e.deliveredAt = none) && decide (∀ t ∈ e.claimExpiresAt, t < now)

/-- Ten minutes. -/
def alertLease : Int := 600 * usPerSecond

/-- What a tick returns for each event it leased. -/
structure DueAlert where
  alertId : String
  period : Int
  kind : AlertKind
  orgId : Nat
  notifyEmail : String
  scope : Option BudgetScope
  measured : Int
  threshold : Int
  limit : Option Int
  firedAt : Int
deriving DecidableEq

/-- The budget of a rule. -/
def Db.alertBudget (db : Db) (a : SpendAlert) : Option GatewayBudget :=
  match a.kind with
  | .orgMonthlySpend _ => none
  | .budgetFraction budgetId _ => db.config.gatewayBudgets.find? budgetId

/-- The context of a leased event: its rule, the organization and the budget. -/
def SpendAlertEvent.due (e : SpendAlertEvent) (db : Db) (alerts : SpendAlerts) : Option DueAlert := do
  let a ← alerts.find? e.alertId
  let o ← db.organizations.find? a.orgId
  let budget := db.alertBudget a
  return ⟨e.alertId, e.period, a.kind, o.id, a.notifyEmail, budget.map (·.scope), e.measured, e.threshold,
    budget.map (·.limit), e.firedAt⟩

/-- The events a tick leases: the hundred oldest that it may. -/
def leaseCandidates (events : SpendAlertEvents) (locked : List (String × Int)) (now : Int) : List SpendAlertEvent :=
  Table.firstUnlocked (fun e f => e.firedAt < f.firedAt ∨ e.firedAt = f.firedAt ∧ e.alertId ≤ f.alertId)
    (·.leasable now) (fun e => decide (e.key ∈ locked)) 100 events.rows

/-- `gateway_spend_alerts_due`, with the rows other transactions have locked. -/
def spendAlertsDue (db : Db) (alerts : SpendAlerts) (events : SpendAlertEvents) (locked : List (String × Int))
    (now : Int) : Raises (SpendAlertEvents × List DueAlert) := do
  let fired ← fireAlerts db alerts events now
  let leased := leaseCandidates fired locked now
  let events' ← write (fired.update (fun e => decide (e.key ∈ leased.map SpendAlertEvent.key))
    (fun e => { e with claimExpiresAt := some (now + alertLease) }) (fun _ => rfl))
  return (events', leased.filterMap (fun e => e.due db alerts))

/-- The event after a report. -/
def SpendAlertEvent.mark (e : SpendAlertEvent) (error : Option String) (now : Int) : SpendAlertEvent :=
  { e with
    deliveredAt := if error = none then some now else none
    deliveryError := error
    claimExpiresAt := if error = none then e.claimExpiresAt else none }

/-- `gateway_spend_alert_mark`. -/
def spendAlertMark (events : SpendAlertEvents) (alertId : String) (period : Int) (error : Option String)
    (now : Int) : Raises SpendAlertEvents :=
  write (events.update (fun e => decide (e.key = (alertId, period))) (·.mark error now) (fun _ => rfl))

/-! ### Senders -/

/-- The events and the clock, with the leases taken so far, the last one first. -/
structure AlertWorld where
  alerts : SpendAlerts
  events : SpendAlertEvents
  now : Int
  leases : List ((String × Int) × Nat)

/-- One step: the clock advances, or a sender calls, with the spend there is at that time. -/
inductive AlertStep where
  | advance (duration : Nat)
  | due (sender : Nat) (db : Db) (locked : List (String × Int))
  | mark (sender : Nat) (alertId : String) (period : Int) (error : Option String)

namespace AlertWorld

/-- Nothing has fired. -/
def start (alerts : SpendAlerts) (now : Int) : AlertWorld := ⟨alerts, .empty, now, []⟩

/-- The alerts a call of `gateway_spend_alerts_due` returns. -/
def returned (w : AlertWorld) (db : Db) (locked : List (String × Int)) : List (String × Int) :=
  match spendAlertsDue db w.alerts w.events locked w.now with
  | .ok r => r.2.map (fun d => (d.alertId, d.period))
  | .error _ => []

/-- The sender that was returned the alert last. -/
def holder (w : AlertWorld) (k : String × Int) : Option Nat :=
  (w.leases.find? (fun l => decide (l.1 = k))).map Prod.snd

/-- The alert is marked delivered. -/
def Delivered (w : AlertWorld) (k : String × Int) : Prop :=
  ∃ e, w.events.find? k = some e ∧ e.deliveredAt ≠ none

end AlertWorld

def alertStep (w : AlertWorld) : AlertStep → AlertWorld
  | .advance duration => { w with now := w.now + duration }
  | .due sender db locked =>
      match spendAlertsDue db w.alerts w.events locked w.now with
      | .ok r => { w with
          events := r.1
          leases := (w.returned db locked).map (fun k => (k, sender)) ++ w.leases }
      | .error _ => w
  | .mark _ alertId period error =>
      match spendAlertMark w.events alertId period error w.now with
      | .ok events => { w with events := events }
      | .error _ => w

theorem alertStep_due (w : AlertWorld) (sender : Nat) (db : Db) (locked : List (String × Int)) :
    alertStep w (.due sender db locked) = w ∨
    ∃ r, spendAlertsDue db w.alerts w.events locked w.now = .ok r ∧ alertStep w (.due sender db locked) =
      { w with events := r.1, leases := (w.returned db locked).map (fun k => (k, sender)) ++ w.leases } := by
  cases hr : spendAlertsDue db w.alerts w.events locked w.now with
  | error _ => exact .inl (by simp only [alertStep, hr])
  | ok r => exact .inr ⟨r, rfl, by simp only [alertStep, hr]⟩

theorem alertStep_mark (w : AlertWorld) (sender : Nat) (alertId : String) (period : Int)
    (error : Option String) :
    alertStep w (.mark sender alertId period error) = w ∨
    ∃ events, spendAlertMark w.events alertId period error w.now = .ok events ∧
      alertStep w (.mark sender alertId period error) = { w with events := events } := by
  cases hr : spendAlertMark w.events alertId period error w.now with
  | error _ => exact .inl (by simp only [alertStep, hr])
  | ok events => exact .inr ⟨events, rfl, by simp only [alertStep, hr]⟩

/-- A failure is reported by the sender with the last lease, of an alert that is not delivered. -/
def OwnFailure (w : AlertWorld) : AlertStep → Prop
  | .mark sender alertId period (some _) =>
      w.holder (alertId, period) = some sender ∧ ¬ w.Delivered (alertId, period)
  | _ => True

/-! ### One call -/

variable {db : Db} {alerts : SpendAlerts} {events events' : SpendAlertEvents} {locked : List (String × Int)}
  {now : Int} {k : String × Int}

variable {e : SpendAlertEvent}

theorem fireAlert_find? {month : Int} {a : SpendAlert}
    (h : fireAlert db month now events a = .ok events') (he : events.find? k = some e) :
    events'.find? k = some e := by
  simp only [fireAlert, bind_eq_ok] at h
  obtain ⟨measure, -, h⟩ := h
  cases measure with
  | none => exact pure_eq_ok.mp h ▸ he
  | some m =>
      dsimp only at h
      split_ifs at h with hc
      · rw [write_eq_ok] at h
        rw [Table.find?_insert h, if_neg]
        · exact he
        · intro hk
          rw [show (a.alertId, month) = k from hk, he] at hc
          exact absurd hc.2 (by simp)
      · exact pure_eq_ok.mp h ▸ he

theorem fireAlerts_find? (h : fireAlerts db alerts events now = .ok events')
    (he : events.find? k = some e) : events'.find? k = some e :=
  foldlM_invariant (I := fun t : SpendAlertEvents => t.find? k = some e)
    (fun _ _ _ h he => fireAlert_find? h he) _ _ _ h he

theorem due_key {d : DueAlert} (h : e.due db alerts = some d) : (d.alertId, d.period) = e.key := by
  simp only [SpendAlertEvent.due, bind, pure, Option.bind_eq_some_iff, Option.some.injEq] at h
  obtain ⟨a, -, o, -, rfl⟩ := h
  rfl

theorem mem_returned {leased : List SpendAlertEvent}
    (hk : k ∈ (leased.filterMap (fun e => e.due db alerts)).map (fun d => (d.alertId, d.period))) :
    ∃ e ∈ leased, e.key = k := by
  obtain ⟨d, hd, rfl⟩ := List.mem_map.mp hk
  obtain ⟨e, he, hdue⟩ := List.mem_filterMap.mp hd
  exact ⟨e, he, (due_key hdue).symm⟩

theorem leasable_of_candidate (h : e ∈ leaseCandidates events locked now) :
    events.find? e.key = some e ∧ e.leasable now = true := by
  obtain ⟨hmem, hlease⟩ := Table.mem_firstUnlocked h
  exact ⟨Table.find?_key hmem, hlease⟩

/-- **A tick leaves alone, and does not return, an event that it may not lease.** -/
theorem spendAlertsDue_not_leasable {r : SpendAlertEvents × List DueAlert}
    (h : spendAlertsDue db alerts events locked now = .ok r) (he : events.find? k = some e)
    (hlease : e.leasable now = false) :
    r.1.find? k = some e ∧ k ∉ r.2.map (fun d => (d.alertId, d.period)) := by
  simp only [spendAlertsDue, bind_eq_ok, pure_eq_ok, write_eq_ok] at h
  obtain ⟨fired, hfired, t, ht, rfl⟩ := h
  have hfind := fireAlerts_find? hfired he
  have hnot : ∀ c ∈ leaseCandidates fired locked now, c.key ≠ k := by
    rintro c hc rfl
    obtain ⟨hc, hok⟩ := leasable_of_candidate hc
    obtain rfl : c = e := Option.some.inj (hc.symm.trans hfind)
    rw [hlease] at hok
    cases hok
  constructor
  · have hk : e.key = k := (Table.find?_eq_some.mp hfind).2
    have hnone : k ∉ (leaseCandidates fired locked now).map SpendAlertEvent.key := by
      intro hmem
      obtain ⟨c, hc, hck⟩ := List.mem_map.mp hmem
      exact hnot c hc hck
    rw [Table.find?_update ht, hfind, Option.map_some, hk, if_neg (by simpa using hnone)]
  · intro hk
    obtain ⟨c, hc, hck⟩ := mem_returned hk
    exact hnot c hc hck

theorem spendAlertsDue_returned {r : SpendAlertEvents × List DueAlert}
    (h : spendAlertsDue db alerts events locked now = .ok r)
    (hk : k ∈ r.2.map (fun d => (d.alertId, d.period))) :
    ∃ e, r.1.find? k = some e ∧ e.claimExpiresAt = some (now + alertLease) := by
  simp only [spendAlertsDue, bind_eq_ok, pure_eq_ok, write_eq_ok] at h
  obtain ⟨fired, hfired, t, ht, rfl⟩ := h
  obtain ⟨c, hc, rfl⟩ := mem_returned hk
  have hmem : c.key ∈ (leaseCandidates fired locked now).map SpendAlertEvent.key := List.mem_map_of_mem hc
  refine ⟨{ c with claimExpiresAt := some (now + alertLease) }, ?_, rfl⟩
  rw [Table.find?_update ht, (leasable_of_candidate hc).1, Option.map_some, if_pos (by simpa using hmem)]

theorem spendAlertMark_find? {alertId : String} {period : Int} {error : Option String}
    (h : spendAlertMark events alertId period error now = .ok events') (k : String × Int) :
    events'.find? k =
      if k = (alertId, period) then (events.find? k).map (·.mark error now) else events.find? k := by
  unfold spendAlertMark at h
  rw [write_eq_ok] at h
  exact Table.find?_update_key h k

/-! ### What a step keeps -/

variable {w : AlertWorld} {s : AlertStep}

theorem not_leasable_of_delivered (h : e.deliveredAt ≠ none) : e.leasable now = false := by
  simp [SpendAlertEvent.leasable, h]

theorem not_leasable_of_live {t : Int} (h : e.claimExpiresAt = some t) (ht : now ≤ t) : e.leasable now = false := by
  simp only [SpendAlertEvent.leasable, h, Bool.and_eq_false_iff, decide_eq_false_iff_not]
  refine .inr fun hlt => ?_
  have := hlt t rfl
  omega

theorem not_returned (he : w.events.find? k = some e) (hlease : e.leasable w.now = false)
    (db : Db) (locked : List (String × Int)) : k ∉ w.returned db locked := by
  unfold AlertWorld.returned
  cases hr : spendAlertsDue db w.alerts w.events locked w.now with
  | ok r => exact (spendAlertsDue_not_leasable hr he hlease).2
  | error _ => simp

/-- **A tick does nothing about an event it may not lease.** -/
theorem due_not_leasable (he : w.events.find? k = some e)
    (hlease : e.leasable w.now = false) (sender : Nat) (db : Db) (locked : List (String × Int)) :
    (alertStep w (.due sender db locked)).events.find? k = some e ∧
      (alertStep w (.due sender db locked)).holder k = w.holder k := by
  have hnot := not_returned he hlease db locked
  cases alertStep_due w sender db locked with
  | inl hstay =>
      rw [hstay]
      exact ⟨he, rfl⟩
  | inr hok =>
      obtain ⟨r, hr, hstep⟩ := hok
      rw [hstep]
      refine ⟨(spendAlertsDue_not_leasable hr he hlease).1, ?_⟩
      have hnone : ((w.returned db locked).map (fun k => (k, sender))).find? (fun l => decide (l.1 = k)) = none := by
        rw [List.find?_eq_none]
        rintro l hl
        obtain ⟨k', hk', rfl⟩ := List.mem_map.mp hl
        simp only [decide_eq_true_eq]
        rintro rfl
        exact hnot hk'
      unfold AlertWorld.holder
      rw [List.find?_append, hnone, Option.none_or]

/-- A report on an event that is not a failure of it. -/
theorem mark_find? (sender : Nat) (alertId : String) (period : Int) (error : Option String)
    (he : w.events.find? k = some e) :
    (alertStep w (.mark sender alertId period error)).holder k = w.holder k ∧
    ((alertStep w (.mark sender alertId period error)).events.find? k = some e ∨
      k = (alertId, period) ∧
        (alertStep w (.mark sender alertId period error)).events.find? k = some (e.mark error w.now)) := by
  cases alertStep_mark w sender alertId period error with
  | inl hstay =>
      rw [hstay]
      exact ⟨rfl, .inl he⟩
  | inr hok =>
      obtain ⟨events', hr, hstep⟩ := hok
      rw [hstep]
      refine ⟨rfl, ?_⟩
      have hfind := spendAlertMark_find? hr k
      rw [he] at hfind
      split_ifs at hfind with hk
      · exact .inr ⟨hk, hfind⟩
      · exact .inl hfind

theorem delivered_step (hown : OwnFailure w s) (h : w.Delivered k) : (alertStep w s).Delivered k := by
  obtain ⟨e, he, hdelivered⟩ := h
  cases s with
  | advance duration => exact ⟨e, he, hdelivered⟩
  | due sender db locked =>
      exact ⟨e, (due_not_leasable he (not_leasable_of_delivered hdelivered) sender db locked).1, hdelivered⟩
  | mark sender alertId period error =>
      cases (mark_find? sender alertId period error he).2 with
      | inl he' => exact ⟨e, he', hdelivered⟩
      | inr he' =>
          obtain ⟨rfl, he'⟩ := he'
          cases error with
          | none => exact ⟨_, he', by simp [SpendAlertEvent.mark]⟩
          | some error => exact absurd ⟨e, he, hdelivered⟩ hown.2

/-- The alert is delivered, or its lease to `sender` runs until `expires`. -/
def AlertWorld.Leased (w : AlertWorld) (k : String × Int) (sender : Nat) (expires : Int) : Prop :=
  w.Delivered k ∨ ∃ e, w.events.find? k = some e ∧ e.claimExpiresAt = some expires ∧ w.holder k = some sender

theorem now_le_step (w : AlertWorld) (s : AlertStep) : w.now ≤ (alertStep w s).now := by
  cases s with
  | advance duration =>
      show w.now ≤ w.now + duration
      omega
  | due sender db locked =>
      rcases alertStep_due w sender db locked with h | ⟨r, -, h⟩
      · rw [h]
      · rw [h]
  | mark sender alertId period error =>
      rcases alertStep_mark w sender alertId period error with h | ⟨events, -, h⟩
      · rw [h]
      · rw [h]

/-- **Until a lease expires only its sender's failure report ends it.** -/
theorem leased_step {sender : Nat} {expires : Int} (hown : OwnFailure w s)
    (hfail : ∀ error, s ≠ .mark sender k.1 k.2 (some error)) (h : w.now ≤ expires → w.Leased k sender expires)
    (hnow : (alertStep w s).now ≤ expires) : (alertStep w s).Leased k sender expires := by
  have hle : w.now ≤ expires := Int.le_trans (now_le_step w s) hnow
  cases h hle with
  | inl hdelivered => exact .inl (delivered_step hown hdelivered)
  | inr hlive =>
      obtain ⟨e, he, hexpires, hholder⟩ := hlive
      cases s with
      | advance duration => exact .inr ⟨e, he, hexpires, hholder⟩
      | due sender' db locked =>
          obtain ⟨he', hholder'⟩ := due_not_leasable he (not_leasable_of_live hexpires hle) sender' db locked
          exact .inr ⟨e, he', hexpires, hholder'.trans hholder⟩
      | mark sender' alertId period error =>
          obtain ⟨hholder', hfind⟩ := mark_find? sender' alertId period error he
          cases hfind with
          | inl he' => exact .inr ⟨e, he', hexpires, hholder'.trans hholder⟩
          | inr he' =>
              obtain ⟨rfl, he'⟩ := he'
              cases error with
              | none => exact .inl ⟨_, he', by simp [SpendAlertEvent.mark]⟩
              | some error =>
                  -- The report is by the sender of the last lease, who makes none.
                  obtain rfl : sender' = sender := Option.some.inj (hown.1.symm.trans hholder)
                  exact absurd rfl (hfail error)

theorem leased_of_returned {sender : Nat} {db : Db} {locked : List (String × Int)}
    (hk : k ∈ w.returned db locked) :
    (alertStep w (.due sender db locked)).Leased k sender (w.now + alertLease) := by
  cases hr : spendAlertsDue db w.alerts w.events locked w.now with
  | error _ => simp [AlertWorld.returned, hr] at hk
  | ok r =>
      have hkr : k ∈ r.2.map (fun d => (d.alertId, d.period)) := by simpa [AlertWorld.returned, hr] using hk
      obtain ⟨e, he, hexpires⟩ := spendAlertsDue_returned hr hkr
      have hstep : alertStep w (.due sender db locked) =
          { w with events := r.1, leases := (w.returned db locked).map (fun k => (k, sender)) ++ w.leases } := by
        simp only [alertStep, hr]
      rw [hstep]
      refine .inr ⟨e, he, hexpires, ?_⟩
      have hfirst : ((w.returned db locked).map (fun k => (k, sender))).find? (fun l => decide (l.1 = k)) ≠ none := by
        intro hnone
        have := List.find?_eq_none.mp hnone (k, sender) (List.mem_map_of_mem hk)
        simp at this
      obtain ⟨l, hl⟩ := Option.ne_none_iff_exists'.mp hfirst
      obtain ⟨k', -, rfl⟩ := List.mem_map.mp (List.mem_of_find?_eq_some hl)
      unfold AlertWorld.holder
      rw [List.find?_append, hl]
      rfl

/-! ### The run -/

/-- **A spend alert goes out once.**  In every run in which each failure is reported by the sender with
the last lease of an undelivered alert: no tick returns a delivered alert, no report undoes a
delivery, and from the tick that returns an alert until that lease expires no other tick returns it
unless its sender has reported a failure. -/
theorem spend_alerts_once (alerts : SpendAlerts) (now : Int) (steps : List AlertStep) (k : String × Int)
    (h : StepsMeet alertStep OwnFailure (.start alerts now) steps) :
    (∀ pre mid sender db locked post, steps = pre ++ (mid ++ .due sender db locked :: post) →
      (run alertStep (.start alerts now) pre).Delivered k →
      k ∉ (run alertStep (.start alerts now) (pre ++ mid)).returned db locked) ∧
    (∀ pre post, steps = pre ++ post → (run alertStep (.start alerts now) pre).Delivered k →
      (run alertStep (.start alerts now) steps).Delivered k) ∧
    ∀ pre sender db locked mid sender' db' locked' post,
      steps = pre ++ .due sender db locked :: (mid ++ .due sender' db' locked' :: post) →
      k ∈ (run alertStep (.start alerts now) pre).returned db locked →
      (∀ error, .mark sender k.1 k.2 (some error) ∉ mid) →
      (run alertStep (.start alerts now) (pre ++ .due sender db locked :: mid)).now ≤
        (run alertStep (.start alerts now) pre).now + alertLease →
      k ∉ (run alertStep (.start alerts now) (pre ++ .due sender db locked :: mid)).returned db' locked' := by
  have hstays : ∀ (w : AlertWorld) steps, StepsMeet alertStep OwnFailure w steps → w.Delivered k →
      (run alertStep w steps).Delivered k := fun w steps hC hw =>
    run_invariant (I := fun w => w.Delivered k) (fun _ _ hown hd => delivered_step hown hd) steps w hw hC
  refine ⟨?_, ?_, ?_⟩
  · rintro pre mid sender db locked post rfl hdelivered
    rw [stepsMeet_append, stepsMeet_append] at h
    rw [run_append]
    obtain ⟨e, he, hd⟩ := hstays _ mid h.2.1 hdelivered
    exact not_returned he (not_leasable_of_delivered hd) db locked
  · rintro pre post rfl hdelivered
    rw [stepsMeet_append] at h
    rw [run_append]
    exact hstays _ post h.2 hdelivered
  · rintro pre sender db locked mid sender' db' locked' post rfl hk hfail hnow
    rw [stepsMeet_append] at h
    obtain ⟨-, -, h⟩ := h
    rw [stepsMeet_append] at h
    rw [run_append, run_cons] at hnow ⊢
    have hleased := run_invariant
      (I := fun w => w.now ≤ (run alertStep (.start alerts now) pre).now + alertLease →
        w.Leased k sender ((run alertStep (.start alerts now) pre).now + alertLease))
      (fun w s hC hI => leased_step hC.1 (fun error he => hC.2 error he) hI) mid _
      (fun _ => leased_of_returned hk)
      (h.1.and_forall (D := fun s => ∀ error, s ≠ .mark sender k.1 k.2 (some error))
        fun s hs error he => hfail error (he ▸ hs)) hnow
    cases hleased with
    | inl hdelivered =>
        obtain ⟨e, he, hd⟩ := hdelivered
        exact not_returned he (not_leasable_of_delivered hd) db' locked'
    | inr hlive =>
        obtain ⟨e, he, hexpires, -⟩ := hlive
        exact not_returned he (not_leasable_of_live hexpires hnow) db' locked'

/-- Organization 1 has spent 3 USD. -/
def spentDb : Db :=
  run step sampleDb
    [.call ((GatewayCall.accept (sampleAccept "r1" none 1000)).atTime 0 ""),
      .call ((GatewayCall.start (sampleStart "r1" 0 .hostManaged 5000000)).atTime 1 "a1"),
      .call ((GatewayCall.settle (sampleSettle "a1" .completed 3 true)).atTime 2 "")]

/-- A rule that fires at 2 USD a month. -/
def sampleAlerts : SpendAlerts :=
  ⟨[⟨"alert", 1, .orgMonthlySpend 2000000, "owner@example.com"⟩], by decide, by decide⟩

/-- The month of the sample. -/
def sampleAlert : String × Int := ("alert", monthOf 0)

/-- The first sender fails, the second delivers. -/
def retryRun : List AlertStep :=
  [.due 1 spentDb [], .mark 1 "alert" (monthOf 0) (some "bounced"), .due 2 spentDb [],
    .mark 2 "alert" (monthOf 0) none]

theorem spend_alerts_once_sample :
    sampleAlert ∉ (run alertStep (.start sampleAlerts 0) retryRun).returned spentDb [] := by
  have hown : StepsMeet alertStep OwnFailure (.start sampleAlerts 0) (retryRun ++ [.due 3 spentDb []]) := by
    refine ⟨trivial, ⟨rfl, ?_⟩, trivial, trivial, trivial, trivial⟩
    rintro ⟨e, he, hd⟩
    cases he
    exact hd rfl
  exact (spend_alerts_once sampleAlerts 0 _ sampleAlert hown).1 retryRun [] 3 spentDb [] [] rfl
    ⟨_, rfl, by decide⟩

/-- The first sender's lease runs out, the second delivers, and the first reports a failure. -/
def lateFailure : List AlertStep :=
  [.due 1 spentDb [], .advance 601000000, .due 2 spentDb [], .mark 2 "alert" (monthOf 0) none]

/-- A late failure report undoes another sender's delivery, and the alert is returned again. -/
theorem late_failure_undoes_delivery : ¬ ∀ (alerts : SpendAlerts) (now : Int) (pre mid : List AlertStep)
    (db : Db) (locked : List (String × Int)) (k : String × Int),
    (run alertStep (.start alerts now) pre).Delivered k →
    k ∉ (run alertStep (.start alerts now) (pre ++ mid)).returned db locked := by
  intro h
  exact h sampleAlerts 0 lateFailure [.mark 1 "alert" (monthOf 0) (some "timeout")] spentDb [] sampleAlert
    ⟨_, rfl, by decide⟩ List.mem_cons_self

end Experiential.Gateway
