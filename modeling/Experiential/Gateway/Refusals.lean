import Experiential.Gateway.System

/-! # Which statement raises what

The codes `P1025` (the admin of the organization has not verified) and `P1030` (a free tier is
exhausted) are each raised by one gate of a start. Everything else the gateway functions run is
`Generic`: it raises neither. -/

namespace Experiential.Gateway

/-- The computation raises neither `P1025` nor `P1030`. -/
abbrev Generic {α : Type} (x : Raises α) : Prop :=
  RaisesOnly (fun e => e.errcode ≠ .P1025 ∧ e.errcode ≠ .P1030) x

theorem raised_generic {α : Type} {code : Errcode} {message : String}
    (h : code ≠ .P1025 ∧ code ≠ .P1030) : Generic (.error (raised code message) : Raises α) := .error h

theorem ensure_generic {c : Prop} [Decidable c] {code : Errcode} {message : String}
    (h : code ≠ .P1025 ∧ code ≠ .P1030) : Generic (ensure c (raised code message)) := .ensure fun _ => h

theorem int8_generic (x : Int) : Generic (int8 x) := by
  unfold int8
  split_ifs
  · exact .ok x
  · exact .error (by decide)

theorem ofViolation_errcode (v : Violation) :
    (ofViolation v).errcode ≠ .P1025 ∧ (ofViolation v).errcode ≠ .P1030 := by
  cases v <;> decide

theorem fitsUnder_generic (spent : Int) (worst : Option Int) (cap : Int) : Generic (fitsUnder spent worst cap) := by
  cases worst with
  | none => exact .pure false
  | some w => exact .bind (int8_generic _) fun _ _ => .pure _

theorem discountFits_generic (p : ModelPromotion) (spent : Int) (worst : Option Int) :
    Generic (discountFits p spent worst) := by
  unfold discountFits
  split_ifs
  · exact .pure true
  · exact fitsUnder_generic _ _ _
  · exact .pure false

theorem promoCandidate_generic (db : Db) (orgId : Nat) (worst : Option Int) (month : Int)
    (p : ModelPromotion) : Generic (promoCandidate db orgId worst month p) := by
  refine .bind (int8_generic _) fun f _ => .bind (int8_generic _) fun d _ => ?_
  exact .bind (fitsUnder_generic _ _ _) fun w _ => .bind (discountFits_generic _ _ _) fun a _ => .pure _

theorem promoLoop_generic (db : Db) (orgId : Nat) (worst : Option Int) (month : Int) :
    ∀ (ps : List ModelPromotion) (best : Option PromoCandidate),
      Generic (promoLoop db orgId worst month ps best)
  | [], best => .pure best
  | p :: ps, best => by
      refine .bind (promoCandidate_generic db orgId worst month p) fun c _ => ?_
      split_ifs
      · exact .pure _
      · exact promoLoop_generic db orgId worst month ps _

theorem gatewayPromoState_generic (db : Db) (orgId : Nat) (slug provider : String) (worst : Option Int)
    (now : Int) : Generic (gatewayPromoState db orgId slug provider worst now) := by
  refine .bind (promoLoop_generic _ _ _ _ _ _) fun best _ => ?_
  cases best with
  | none => exact .pure _
  | some c => exact .pure _

theorem checkRequestRate_generic (db : Db) (k : Option Nat) (rpm : Option Int) (now : Int) :
    Generic (checkRequestRate db k rpm now) := by
  cases rpm with
  | none => exact .pure ()
  | some rpm => exact ensure_generic (by decide)

theorem checkTokenRate_generic (db : Db) (k : Option Nat) (tpm : Option Int) (now : Int) :
    Generic (checkTokenRate db k tpm now) := by
  cases tpm with
  | none => exact .pure ()
  | some tpm => exact .bind (int8_generic _) fun _ _ => ensure_generic (by decide)

theorem checkKeyDailyCap_generic (db : Db) (k : Option Nat) (cap : Option Int) (worst day : Int) :
    Generic (checkKeyDailyCap db k cap worst day) := by
  cases cap with
  | none => exact .pure ()
  | some cap =>
      exact .bind (int8_generic _) fun _ _ => .bind (int8_generic _) fun _ _ => ensure_generic (by decide)

theorem spendPolicyCheck_generic (db : Db) (orgId : Nat) (model : String) (proposed : Option Int)
    (now : Int) : Generic (spendPolicyCheck db orgId model proposed now) := by
  unfold spendPolicyCheck
  cases db.organizations.find? orgId with
  | none => exact .ok _
  | some org =>
      refine .bind (int8_generic _) fun out _ => ?_
      simp only
      split_ifs
      · exact .pure _
      · refine .bind (int8_generic _) fun _ _ => .bind (int8_generic _) fun _ _ =>
          .bind (int8_generic _) fun _ _ => ?_
        split_ifs
        · exact .pure _
        · refine .bind (int8_generic _) fun _ _ => ?_
          split_ifs
          · exact .pure _
          · exact .pure _
      · exact .pure _

theorem checkSpendPolicy_generic (db : Db) (p : StartArgs) (slug : String) (isPromo : Bool)
    (worst now : Int) : Generic (checkSpendPolicy db p slug isPromo worst now) := by
  refine .bind (spendPolicyCheck_generic _ _ _ _ _) fun v _ => ?_
  cases v with
  | allowed => exact .pure ()
  | refused reason message =>
      simp only
      split_ifs
      · exact raised_generic (by decide)
      · exact raised_generic (by cases reason <;> simp [ReasonCode.spendErrcode])

theorem budgetLoop_generic (db : Db) (c : BudgetCoordinates) (proposed : Option Int) (month : Int) :
    ∀ bs : List GatewayBudget, Generic (budgetLoop db c proposed month bs)
  | [] => .pure _
  | b :: bs => by
      refine .bind (int8_generic _) fun spent _ => ?_
      cases proposed with
      | none => exact .pure _
      | some x =>
          refine .bind (int8_generic _) fun total _ => ?_
          split_ifs
          · exact .pure _
          · exact budgetLoop_generic db c (some x) month bs

theorem checkBudgets_generic (db : Db) (p : StartArgs) (r : GatewayRequest) (worst now : Int) :
    Generic (checkBudgets db p r worst now) := by
  refine .bind (budgetLoop_generic _ _ _ _ _) fun v _ => ?_
  cases v with
  | allowed => exact .pure ()
  | refused reason message =>
      refine raised_generic ?_
      cases reason with
      | budget scope => cases scope <;> simp [ReasonCode.budgetErrcode]
      | _ => simp [ReasonCode.budgetErrcode]

theorem insertRequest_generic (db : Db) (r : GatewayRequest) : Generic (db.insertRequest r) := by
  unfold Db.insertRequest
  split_ifs
  · split
    · exact .ok _
    · exact .error (ofViolation_errcode _)
  · exact .error (by decide)

theorem insertAttempt_generic (db : Db) (a : GatewayAttempt) : Generic (db.insertAttempt a) := by
  unfold Db.insertAttempt
  split_ifs
  · exact .error (by decide)
  · split
    · exact .error (by decide)
    · split
      · exact .ok _
      · exact .error (ofViolation_errcode _)

theorem admitOperation_generic (db : Db) (p : AcceptArgs) (now : Int) : Generic (admitOperation db p now) := by
  unfold admitOperation
  cases p.callerOperationSha256 with
  | none => exact .pure ()
  | some operation =>
      simp only
      cases db.priorOperation p operation with
      | none => exact .pure ()
      | some prior => exact .bind (ensure_generic (by decide)) fun _ _ => ensure_generic (by decide)

theorem acceptRequest_generic (db : Db) (p : AcceptArgs) (now : Int) : Generic (acceptRequest db p now) := by
  refine .bind (.require (by decide)) fun d _ => .bind (ensure_generic (by decide)) fun _ _ =>
    .bind (ensure_generic (by decide)) fun _ _ => ?_
  cases db.requests.find? p.requestId with
  | some existing => exact .bind (ensure_generic (by decide)) fun _ _ => .pure db
  | none => exact .bind (admitOperation_generic db p now) fun _ _ => insertRequest_generic _ _

theorem beginAttempt_generic (db : Db) (p : StartArgs) (c : StartClock) : Generic (beginAttempt db p c) := by
  refine .bind (.require (by decide)) fun r _ => .bind (ensure_generic (by decide)) fun _ _ => ?_
  cases db.attemptAt p.requestId p.attemptOrdinal with
  | some existing => exact .bind (ensure_generic (by decide)) fun _ _ => .pure _
  | none =>
      exact .bind (ensure_generic (by decide)) fun _ _ => .bind (ensure_generic (by decide)) fun _ _ =>
        .bind (ensure_generic (by decide)) fun _ _ => .pure _

end Experiential.Gateway
