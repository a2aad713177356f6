import Mathlib.Data.Rat.Floor
import Experiential.Gateway.Start

/-! # Rotating a key

`Db.swapKeys` is the database in which two keys have made each other's requests and attempts. When
nothing in the configuration tells the two apart but their names (`Interchangeable`), every gate of a
platform-funded dispatch decides the same there: `admitHost_swap`. This is what it means to meet a gate
with the same spend under another key.

A rotation mints a replacement with the organization, the name and the identity of the old key and
schedules the old key's expiry. The team, the limits row and the key's own budgets are kept under the
old key's id and stay with it, and the old expiry is overwritten without being read. `rotation_iff`
says which keys that leaves no wider. -/

namespace Experiential.Gateway

variable {old new : Nat}

/-! ### The other key's rows -/

/-- The one key in the place of the other. -/
def swapKey (old new : Nat) (k : Option Nat) : Option Nat := k.map (Equiv.swap old new)

def GatewayRequest.swapKey (old new : Nat) (r : GatewayRequest) : GatewayRequest :=
  { r with apiKeyId := Gateway.swapKey old new r.apiKeyId }

def GatewayAttempt.swapKey (old new : Nat) (a : GatewayAttempt) : GatewayAttempt :=
  { a with apiKeyId := Gateway.swapKey old new a.apiKeyId }

theorem swapKey_injective : Function.Injective (swapKey old new) :=
  Option.map_injective (Equiv.swap old new).injective

@[simp] theorem swapKey_isSome (k : Option Nat) : (swapKey old new k).isSome = k.isSome := Option.isSome_map

theorem GatewayAttempt.swapKey_check {a : GatewayAttempt} (h : a.Check) : (a.swapKey old new).Check := by
  obtain ⟨⟩ := h
  constructor <;> assumption

/-- The two keys have made each other's requests. -/
def Db.swapKeys (db : Db) (old new : Nat) : Db :=
  { db with
    requests := db.requests.mapRows (·.swapKey old new) (fun _ => rfl) (fun _ h => h)
    attempts := db.attempts.mapRows (·.swapKey old new) (fun _ => rfl) (fun _ => GatewayAttempt.swapKey_check)
    attempts_request := by
      intro a' ha'
      obtain ⟨a, ha, rfl⟩ := (Table.mem_mapRows _ _ _ _).mp ha'
      obtain ⟨r, hr, hid⟩ := db.attempts_request a ha
      exact ⟨r.swapKey old new, (Table.mem_mapRows _ _ _ _).mpr ⟨r, hr, rfl⟩, hid⟩ }

/-- Nothing but their names tells the two keys apart: the same identity, and no guardrail of their own. -/
structure Interchangeable (c : Config) (old new : Nat) : Prop where
  identity : (c.apiKeys.find? old).bind (·.identityId) = (c.apiKeys.find? new).bind (·.identityId)
  oldLimits : c.keyLimits.find? old = none
  newLimits : c.keyLimits.find? new = none
  budgets : ∀ b ∈ c.gatewayBudgets, b.scope ≠ .key old ∧ b.scope ≠ .key new

/-! ### Sums and lookups -/

section swap
variable {db : Db}

theorem sumWhere_swap {p q : GatewayAttempt → Bool} {w : GatewayAttempt → Int}
    (hp : ∀ a ∈ db.attempts, p (a.swapKey old new) = q a) (hw : ∀ a, w (a.swapKey old new) = w a) :
    (db.swapKeys old new).attempts.sumWhere p w = db.attempts.sumWhere q w :=
  Table.sumWhere_mapRows db.attempts (·.swapKey old new) (fun _ => rfl) (fun _ => GatewayAttempt.swapKey_check) hp hw

theorem find?_swap (id : String) :
    (db.swapKeys old new).requests.find? id = (db.requests.find? id).map (·.swapKey old new) :=
  Table.find?_mapRows db.requests (·.swapKey old new) (fun _ => rfl) (fun _ h => h) id

theorem hostOfKey_swap (a : GatewayAttempt) (k : Option Nat) :
    (a.swapKey old new).hostOfKey (swapKey old new k) = a.hostOfKey k := by
  unfold GatewayAttempt.hostOfKey
  have hkey : (a.swapKey old new).apiKeyId = swapKey old new k ↔ a.apiKeyId = k := swapKey_injective.eq_iff
  rw [swapKey_isSome, decide_eq_decide.mpr hkey]
  rfl

theorem identityIdOf_swap (h : Interchangeable db.config old new) (k : Option Nat) :
    db.identityIdOf (swapKey old new k) = db.identityIdOf k := by
  unfold Db.identityIdOf swapKey
  cases k with
  | none => rfl
  | some k =>
      simp only [Option.map_some, Option.bind_some]
      by_cases hold : k = old
      · rw [hold, Equiv.swap_apply_left, h.identity]
      · by_cases hnew : k = new
        · rw [hnew, Equiv.swap_apply_right, h.identity]
        · rw [Equiv.swap_apply_of_ne_of_ne hold hnew]

theorem swapKey_eq_some {k : Nat} (hold : k ≠ old) (hnew : k ≠ new) (k' : Option Nat) :
    swapKey old new k' = some k ↔ k' = some k := by
  have hk : swapKey old new (some k) = some k := congrArg some (Equiv.swap_apply_of_ne_of_ne hold hnew)
  constructor
  · exact fun heq => swapKey_injective (heq.trans hk.symm)
  · rintro rfl
    exact hk

/-- A budget of another key, or of no key, covers the same dispatches. -/
theorem inScope_swap (h : Interchangeable db.config old new) {scope : BudgetScope}
    (hold : scope ≠ .key old) (hnew : scope ≠ .key new) (a : GatewayAttempt) :
    (db.swapKeys old new).inScope scope (a.swapKey old new) = db.inScope scope a := by
  have hrequest : ((db.swapKeys old new).requests.find? (a.swapKey old new).requestId) =
      (db.requests.find? a.requestId).map (·.swapKey old new) := find?_swap a.requestId
  unfold Db.inScope
  rw [hrequest]
  cases scope with
  | team => rfl
  | identity i =>
      cases hr : db.requests.find? a.requestId with
      | none => rfl
      | some r =>
          have hid := identityIdOf_swap h r.apiKeyId
          exact congrArg (fun x => decide (x = some i)) hid
  | key k =>
      refine decide_eq_decide.mpr (swapKey_eq_some ?_ ?_ a.apiKeyId)
      · rintro rfl
        exact hold rfl
      · rintro rfl
        exact hnew rfl
  | _ => cases hr : db.requests.find? a.requestId <;> rfl

theorem budgetScopeSpent_swap (h : Interchangeable db.config old new) {scope : BudgetScope}
    (hold : scope ≠ .key old) (hnew : scope ≠ .key new) (orgId : Nat) (start nextMonth : Int) :
    (db.swapKeys old new).budgetScopeSpent orgId scope start nextMonth =
      db.budgetScopeSpent orgId scope start nextMonth := by
  unfold Db.budgetScopeSpent
  refine sumWhere_swap (fun a _ => ?_) fun _ => rfl
  rw [inScope_swap h hold hnew]
  rfl

/-! ### The gates -/

theorem keyGates_swap (h : Interchangeable db.config old new) (orgId : Nat) (k : Option Nat) :
    keyGates (db.swapKeys old new) orgId (swapKey old new k) = keyGates db orgId k := by
  have hlimits : (swapKey old new k).bind db.config.keyLimits.find? = k.bind db.config.keyLimits.find? := by
    cases k with
    | none => rfl
    | some k =>
        unfold swapKey
        simp only [Option.map_some, Option.bind_some]
        by_cases hold : k = old
        · rw [hold, Equiv.swap_apply_left, h.newLimits, h.oldLimits]
        · by_cases hnew : k = new
          · rw [hnew, Equiv.swap_apply_right, h.newLimits, h.oldLimits]
          · rw [Equiv.swap_apply_of_ne_of_ne hold hnew]
  unfold keyGates
  have hconfig : (db.swapKeys old new).config = db.config := rfl
  rw [hconfig, hlimits]
  rfl

theorem checkRequestRate_swap (k : Option Nat) (rpm : Option Int) (now : Int) :
    checkRequestRate (db.swapKeys old new) (swapKey old new k) rpm now = checkRequestRate db k rpm now := by
  have hsum : (db.swapKeys old new).recentDispatches (swapKey old new k) now = db.recentDispatches k now := by
    refine sumWhere_swap (fun a _ => ?_) fun _ => rfl
    rw [hostOfKey_swap]
    rfl
  unfold checkRequestRate
  rw [hsum]

theorem checkTokenRate_swap (k : Option Nat) (tpm : Option Int) (now : Int) :
    checkTokenRate (db.swapKeys old new) (swapKey old new k) tpm now = checkTokenRate db k tpm now := by
  have hsum : (db.swapKeys old new).recentTokens (swapKey old new k) now = db.recentTokens k now := by
    refine sumWhere_swap (fun a _ => ?_) fun _ => rfl
    rw [hostOfKey_swap]
    rfl
  unfold checkTokenRate
  rw [hsum]

theorem checkKeyDailyCap_swap (k : Option Nat) (cap : Option Int) (chargeWorst periodStart : Int) :
    checkKeyDailyCap (db.swapKeys old new) (swapKey old new k) cap chargeWorst periodStart =
      checkKeyDailyCap db k cap chargeWorst periodStart := by
  have hsum : (db.swapKeys old new).keyDaySpent (swapKey old new k) periodStart = db.keyDaySpent k periodStart := by
    refine sumWhere_swap (fun a _ => ?_) fun _ => rfl
    rw [hostOfKey_swap]
    rfl
  unfold checkKeyDailyCap
  rw [hsum]

theorem checkPreVerify_swap (orgId : Nat) (chargeWorst : Int) :
    checkPreVerify (db.swapKeys old new) orgId chargeWorst = checkPreVerify db orgId chargeWorst := by
  have hsum : (db.swapKeys old new).preVerifySpent orgId = db.preVerifySpent orgId :=
    sumWhere_swap (fun _ _ => rfl) fun _ => rfl
  unfold checkPreVerify
  rw [hsum]
  rfl

theorem checkSpendPolicy_swap (p : StartArgs) (aliasName : String) (isPromo : Bool) (chargeWorst now : Int) :
    checkSpendPolicy (db.swapKeys old new) p aliasName isPromo chargeWorst now =
      checkSpendPolicy db p aliasName isPromo chargeWorst now := by
  have hout : (db.swapKeys old new).outstanding p.orgId = db.outstanding p.orgId :=
    sumWhere_swap (fun _ _ => rfl) fun _ => rfl
  have hday : ∀ t, (db.swapKeys old new).orgDaySpent p.orgId t = db.orgDaySpent p.orgId t := fun t =>
    sumWhere_swap (fun _ _ => rfl) fun _ => rfl
  have hmodel : ∀ t, (db.swapKeys old new).modelDaySpent p.orgId p.exactModelId t =
      db.modelDaySpent p.orgId p.exactModelId t := fun t => sumWhere_swap (fun _ _ => rfl) fun _ => rfl
  have hpolicy : spendPolicyCheck (db.swapKeys old new) p.orgId p.exactModelId (some chargeWorst) now =
      spendPolicyCheck db p.orgId p.exactModelId (some chargeWorst) now := by
    unfold spendPolicyCheck
    rw [hout, hday, hmodel]
    rfl
  unfold checkSpendPolicy
  rw [hpolicy]
  rfl

theorem promoLoop_swap (orgId : Nat) (worst : Option Int) (month : Int) :
    ∀ (ps : List ModelPromotion) (best : Option PromoCandidate),
      promoLoop (db.swapKeys old new) orgId worst month ps best = promoLoop db orgId worst month ps best
  | [], _ => rfl
  | p :: ps, best => by
      have hfree : (db.swapKeys old new).promoFreeSpent orgId p month = db.promoFreeSpent orgId p month :=
        sumWhere_swap (fun _ _ => rfl) fun _ => rfl
      have hdisc : (db.swapKeys old new).promoDiscountSpent orgId p month = db.promoDiscountSpent orgId p month :=
        sumWhere_swap (fun _ _ => rfl) fun _ => rfl
      have hcandidate : promoCandidate (db.swapKeys old new) orgId worst month p =
          promoCandidate db orgId worst month p := by
        unfold promoCandidate
        rw [hfree, hdisc]
        rfl
      unfold promoLoop
      rw [hcandidate]
      refine congrArg (promoCandidate db orgId worst month p >>= ·) (funext fun c => ?_)
      rw [promoLoop_swap orgId worst month ps]

theorem gatewayPromoState_swap (orgId : Nat) (modelSlug provider : String) (worst : Option Int) (now : Int) :
    gatewayPromoState (db.swapKeys old new) orgId modelSlug provider worst now =
      gatewayPromoState db orgId modelSlug provider worst now := by
  unfold gatewayPromoState
  simp only [promoLoop_swap]
  rfl

theorem budgetLoop_swap (h : Interchangeable db.config old new) (c c' : BudgetCoordinates) (hc : c'.orgId = c.orgId)
    (proposed : Option Int) (month : Int) : ∀ bs : List GatewayBudget,
      (∀ b ∈ bs, b ∈ db.config.gatewayBudgets) →
      budgetLoop (db.swapKeys old new) c' proposed month bs = budgetLoop db c proposed month bs
  | [], _ => rfl
  | b :: bs, hbs => by
      obtain ⟨hold, hnew⟩ := h.budgets b (hbs b List.mem_cons_self)
      have ih := budgetLoop_swap h c c' hc proposed month bs fun b hb => hbs b (List.mem_cons_of_mem _ hb)
      unfold budgetLoop
      rw [hc, budgetScopeSpent_swap h hold hnew, ih]
      rfl

/-- The same budgets govern the dispatch of the one key and of the other. -/
theorem governing_swap (h : Interchangeable db.config old new) (p : StartArgs) (r : GatewayRequest) (month : Int) :
    db.config.governing ((db.swapKeys old new).coordinates p (r.swapKey old new)) month =
      db.config.governing (db.coordinates p r) month := by
  unfold Config.governing
  refine List.filter_congr fun b hb => ?_
  obtain ⟨hold, hnew⟩ := h.budgets b hb
  have hcovers : b.scope.covers ((db.swapKeys old new).coordinates p (r.swapKey old new)) =
      b.scope.covers (db.coordinates p r) := by
    cases hscope : b.scope with
    | identity i => exact congrArg (fun x => decide (x = some i)) (identityIdOf_swap h r.apiKeyId)
    | key k =>
        rw [hscope] at hold hnew
        refine decide_eq_decide.mpr (swapKey_eq_some ?_ ?_ r.apiKeyId)
        · rintro rfl
          exact hold rfl
        · rintro rfl
          exact hnew rfl
    | _ => rfl
  rw [hcovers]
  rfl

theorem checkBudgets_swap (h : Interchangeable db.config old new) (p : StartArgs) (r : GatewayRequest)
    (chargeWorst now : Int) :
    checkBudgets (db.swapKeys old new) p (r.swapKey old new) chargeWorst now = checkBudgets db p r chargeWorst now := by
  have hcheck : budgetReservationCheck (db.swapKeys old new)
      ((db.swapKeys old new).coordinates p (r.swapKey old new)) (some chargeWorst) now =
        budgetReservationCheck db (db.coordinates p r) (some chargeWorst) now := by
    unfold budgetReservationCheck
    have hconfig : (db.swapKeys old new).config = db.config := rfl
    rw [hconfig, governing_swap h]
    refine budgetLoop_swap h (db.coordinates p r) ((db.swapKeys old new).coordinates p (r.swapKey old new)) rfl _ _ _
      fun b hb => ?_
    rw [List.mem_insertionSort, Config.governing, List.mem_filter] at hb
    exact hb.1
  unfold checkBudgets
  rw [hcheck]

theorem admitHost_swap (h : Interchangeable db.config old new) (p : StartArgs) (r : GatewayRequest) (c : StartClock) :
    admitHost (db.swapKeys old new) p (r.swapKey old new) c = admitHost db p r c := by
  have hkey : (r.swapKey old new).apiKeyId = swapKey old new r.apiKeyId := rfl
  have hcredits : ∀ s f, checkCredits (db.swapKeys old new) p (r.swapKey old new) s f c = checkCredits db p r s f c := by
    intro s f
    unfold checkCredits
    rw [hkey, keyGates_swap h, checkPreVerify_swap, checkKeyDailyCap_swap, checkBudgets_swap h]
    have halias : (r.swapKey old new).aliasName = r.aliasName := rfl
    rw [halias, checkSpendPolicy_swap]
  unfold admitHost
  rw [hkey, keyGates_swap h, checkRequestRate_swap, checkTokenRate_swap]
  have halias : (r.swapKey old new).aliasName = r.aliasName := rfl
  simp only [halias, gatewayPromoState_swap, hcredits]

theorem fundAttempt_swap (h : Interchangeable db.config old new) (p : StartArgs) (r : GatewayRequest) (c : StartClock) :
    fundAttempt (db.swapKeys old new) p (r.swapKey old new) c = fundAttempt db p r c := by
  unfold fundAttempt
  split
  · exact admitHost_swap h p r c
  · rfl

end swap

/-! ### The request -/

/-- The `overlapHours` field of the body; a JSON number may overflow to infinity. -/
inductive OverlapField where
  | absent
  | number (hours : ℚ)
  | infinite
  | other
deriving DecidableEq

def defaultOverlapHours : ℚ := 24
def minOverlapHours : ℚ := 1
def maxOverlapHours : ℚ := 72

/-- `parseOverlapHours` -/
def parseOverlapHours : OverlapField → Option ℚ
  | .absent => some defaultOverlapHours
  | .number hours => some (min maxOverlapHours (max minOverlapHours hours))
  | .infinite => none
  | .other => none

/-- A rotation request; `nowMs` is `Date.now()` and `newId` the id that the database draws. -/
structure Rotation where
  actor : Nat
  platformAdmin : Bool
  keyId : Nat
  overlap : OverlapField
  nowMs : Int
  newId : Nat

/-- `Date.now() + overlapHours * 60 * 60 * 1000`, as an instant of the database. -/
def Rotation.oldKeyExpiresAt (r : Rotation) (hours : ℚ) : Int := ⌊(r.nowMs : ℚ) + hours * 60 * 60 * 1000⌋ * 1000

/-! ### The tables -/

/-- The gateway's tables with `api_keys.team_id`; the limits and the budgets of a key refer to it. -/
structure KeyTables where
  db : Db
  teamOf : Nat → Option Nat
  limits_key : ∀ l ∈ db.config.keyLimits, ∃ k ∈ db.config.apiKeys, k.id = l.apiKeyId
  budgets_key : ∀ b ∈ db.config.gatewayBudgets, ∀ id, b.scope = .key id → ∃ k ∈ db.config.apiKeys, k.id = id

namespace KeyTables
variable (s : KeyTables)

def find? (keyId : Nat) : Option ApiKey := s.db.config.apiKeys.find? keyId

def isMember (orgId userId : Nat) : Bool :=
  s.db.config.organizationMembers.any fun m => decide (m.orgId = orgId) && decide (m.userId = userId)

/-- `isOrgAdmin` -/
def isOrgAdmin (orgId userId : Nat) : Bool :=
  s.db.config.organizationMembers.any fun m =>
    decide (m.orgId = orgId) && decide (m.userId = userId) && decide (m.role = .admin)

def withKeys (t : Table ApiKey.id (fun _ => True)) (h : ∀ k ∈ s.db.config.apiKeys, ∃ k' ∈ t, k'.id = k.id)
    (teamOf : Nat → Option Nat) : KeyTables where
  db := { s.db with config := { s.db.config with apiKeys := t } }
  teamOf := teamOf
  limits_key := by
    intro l hl
    obtain ⟨k, hk, hid⟩ := s.limits_key l hl
    obtain ⟨k', hk', hid'⟩ := h k hk
    exact ⟨k', hk', hid'.trans hid⟩
  budgets_key := by
    intro b hb id hscope
    obtain ⟨k, hk, hid⟩ := s.budgets_key b hb id hscope
    obtain ⟨k', hk', hid'⟩ := h k hk
    exact ⟨k', hk', hid'.trans hid⟩

/-- The insert; the column default of `team_id` is null. -/
def insertKey (k : ApiKey) : Except (Nat × String) KeyTables :=
  match h : s.db.config.apiKeys.insert k with
  | .ok t => .ok (s.withKeys t (fun k' hk' => ⟨k', (Table.mem_insert h).mpr (.inr hk'), rfl⟩)
      (Function.update s.teamOf k.id none))
  | .error _ => .error (500, "duplicate key value violates unique constraint")

/-- The update of `expires_at`. -/
def expireKey (keyId : Nat) (expiresAt : Int) : Except (Nat × String) KeyTables :=
  match h : s.db.config.apiKeys.update (fun k => decide (k.id = keyId)) (fun k => { k with expiresAt := some expiresAt })
      (fun _ => rfl) with
  | .ok t => .ok (s.withKeys t (fun k hk => ⟨_, (Table.mem_update h).mpr ⟨k, hk, rfl⟩, by split <;> rfl⟩) s.teamOf)
  | .error _ => .error (500, "new row violates check constraint")

end KeyTables

/-- The row that the rotation inserts; a trigger gives a key without an identity the organization's. -/
def Rotation.replacement (r : Rotation) (oldKey : ApiKey) : ApiKey where
  id := r.newId
  orgId := oldKey.orgId
  name := oldKey.name
  identityId := some (coalesce oldKey.identityId ("org-" ++ toString oldKey.orgId))
  createdBy := some r.actor
  revokedAt := none
  expiresAt := none

/-- `POST` of a rotation. -/
def rotateKey (s : KeyTables) (r : Rotation) : Except (Nat × String) KeyTables := do
  let hours ← require (parseOverlapHours r.overlap) (400, "overlapHours must be a number.")
  -- another organization's key is invisible to the caller
  let oldKey ← require ((s.find? r.keyId).filter fun k => r.platformAdmin || s.isMember k.orgId r.actor)
    (404, s!"API key not found: {r.keyId}")
  ensure (r.platformAdmin = true ∨ s.isOrgAdmin oldKey.orgId r.actor = true)
    (403, "Only organization admins can manage API keys.")
  ensure (oldKey.revokedAt = none) (409, "API key is already revoked; mint a new key instead of rotating.")
  let s ← s.insertKey (r.replacement oldKey)
  s.expireKey r.keyId (r.oldKeyExpiresAt hours)

/-! ### What a rotation does -/

/-- The keys, the teams and everything else after a successful rotation. -/
structure Rotated (s s' : KeyTables) (r : Rotation) (oldKey : ApiKey) (hours : ℚ) : Prop where
  overlap : parseOverlapHours r.overlap = some hours
  found : s.find? r.keyId = some oldKey
  fresh : s.find? r.newId = none
  keys : ∀ k, s'.find? k = if k = r.keyId then some { oldKey with expiresAt := some (r.oldKeyExpiresAt hours) }
    else if k = r.newId then some (r.replacement oldKey) else s.find? k
  teams : s'.teamOf = Function.update s.teamOf r.newId none
  config : ∃ t, s'.db = { s.db with config := { s.db.config with apiKeys := t } }

theorem insertKey_eq_ok {s s' : KeyTables} {k : ApiKey} (h : s.insertKey k = .ok s') :
    ∃ t, s.db.config.apiKeys.insert k = .ok t ∧ s'.db = { s.db with config := { s.db.config with apiKeys := t } } ∧
      s'.teamOf = Function.update s.teamOf k.id none := by
  unfold KeyTables.insertKey at h
  split at h
  · rename_i t ht
    cases h
    exact ⟨t, ht, rfl, rfl⟩
  · cases h

theorem expireKey_eq_ok {s s' : KeyTables} {keyId : Nat} {expiresAt : Int} (h : s.expireKey keyId expiresAt = .ok s') :
    ∃ t, s.db.config.apiKeys.update (fun k => decide (k.id = keyId))
        (fun k => { k with expiresAt := some expiresAt }) (fun _ => rfl) = .ok t ∧
      s'.db = { s.db with config := { s.db.config with apiKeys := t } } ∧ s'.teamOf = s.teamOf := by
  unfold KeyTables.expireKey at h
  split at h
  · rename_i t ht
    cases h
    exact ⟨t, ht, rfl, rfl⟩
  · cases h

theorem rotateKey_eq_ok {s s' : KeyTables} {r : Rotation} (h : rotateKey s r = .ok s') :
    ∃ oldKey hours, Rotated s s' r oldKey hours := by
  unfold rotateKey at h
  simp only [bind_eq_ok, require_eq_ok, ensure_eq_ok, exists_const, Option.filter_eq_some_iff] at h
  obtain ⟨hours, hhours, oldKey, ⟨hfound, -⟩, -, -, s₁, hinsert, hexpire⟩ := h
  obtain ⟨t, ht, hdb, hteam⟩ := insertKey_eq_ok hinsert
  obtain ⟨t', ht', hdb', hteam'⟩ := expireKey_eq_ok hexpire
  have hid : oldKey.id = r.keyId := (Table.find?_eq_some.mp hfound).2
  have hnot : ∀ k ∈ s.db.config.apiKeys, k.id ≠ r.newId := (Table.insert_eq_ok ht).1
  have hne : r.newId ≠ r.keyId := by
    rw [← hid]
    exact (hnot oldKey (Table.find?_eq_some.mp hfound).1).symm
  refine ⟨oldKey, hours, hhours, hfound, Table.find?_eq_none.mpr hnot, fun k => ?_, ?_, t', ?_⟩
  · have hkeys₁ : s₁.db.config.apiKeys = t := by rw [hdb]
    have hkeys : s'.find? k = t'.find? k := by
      unfold KeyTables.find?
      rw [hdb']
    rw [hkeys, Table.find?_update_key ht', hkeys₁, Table.find?_insert ht]
    by_cases hk : k = r.keyId
    · subst hk
      rw [if_pos rfl, if_pos rfl, if_neg (show ¬ (r.replacement oldKey).id = r.keyId from hne)]
      exact congrArg (Option.map _) hfound
    · rw [if_neg hk, if_neg hk]
      by_cases hk' : k = r.newId
      · rw [if_pos hk']
        exact if_pos hk'.symm
      · rw [if_neg hk']
        exact if_neg fun heq => hk' heq.symm
  · rw [hteam', hteam]
    rfl
  · rw [hdb', hdb]

/-! ### Authority -/

/-- The two keys have the same identity and team, and the same limits and budgets of their own. -/
structure SameGuardrails (s : KeyTables) (old new : Nat) : Prop where
  identity : (s.find? old).bind (·.identityId) = (s.find? new).bind (·.identityId)
  team : s.teamOf old = s.teamOf new
  limits : (s.db.config.keyLimits.find? old).map (fun l => (l.requestsPerMinute, l.tokensPerMinute, l.dailySpendCap)) =
    (s.db.config.keyLimits.find? new).map fun l => (l.requestsPerMinute, l.tokensPerMinute, l.dailySpendCap)
  budgets : ∀ orgId period limit,
    (∃ b ∈ s.db.config.gatewayBudgets, b.orgId = orgId ∧ b.period = period ∧ b.limit = limit ∧ b.scope = .key old) ↔
      ∃ b ∈ s.db.config.gatewayBudgets, b.orgId = orgId ∧ b.period = period ∧ b.limit = limit ∧ b.scope = .key new

/-- A start for a request of the key that gets to its gates, and that they refuse. -/
def GatesRefuse (db : Db) (p : StartArgs) (c : StartClock) (keyId : Nat) : Prop :=
  ∃ r e, beginAttempt db p c = .ok (.admitted r) ∧ r.apiKeyId = some keyId ∧ fundAttempt db p r c = .error e

/-- What the gates refuse to the one key, whatever is spent, is refused to the other with that spend. -/
def RefusalsKept (cfg : Config) (old new : Nat) : Prop :=
  ∀ db : Db, db.config = cfg → ∀ p c, GatesRefuse db p c old →
    ∀ id, ∃ e, startAttempt (db.swapKeys old new) p c id = .error e

/-- A rotation widens nothing. -/
structure NeverWidens (s s' : KeyTables) (old new : Nat) (now : Int) : Prop where
  guardrails : SameGuardrails s' old new
  refusals : RefusalsKept s'.db.config old new
  notLater : ∀ k ∈ s.find? old, ∀ k' ∈ s'.find? old, ∀ e ∈ k.expiresAt, ∃ e' ∈ k'.expiresAt, e' ≤ e
  notRevived : ∀ k ∈ s.find? old, ∀ k' ∈ s'.find? old, k.live now = false → ∀ t, now ≤ t → k'.live t = false

theorem attemptAt_swap {db : Db} {old new : Nat} (requestId : String) (ordinal : Int) :
    (db.swapKeys old new).attemptAt requestId ordinal = (db.attemptAt requestId ordinal).map (·.swapKey old new) := by
  unfold Db.attemptAt Db.swapKeys Table.mapRows
  rw [List.find?_map]
  rfl

theorem Interchangeable.refusalsKept {cfg : Config} {old new : Nat} (h : Interchangeable cfg old new) :
    RefusalsKept cfg old new := by
  rintro db rfl p c ⟨r, e, hbegin, -, hrefused⟩ id
  obtain ⟨hfound, -, hfresh, -, -, -⟩ := beginAttempt_admitted hbegin
  have hfound' : (db.swapKeys old new).requests.find? p.requestId = some (r.swapKey old new) := by
    rw [find?_swap, hfound]
    rfl
  have hfresh' : (db.swapKeys old new).attemptAt p.requestId p.attemptOrdinal = none := by
    rw [attemptAt_swap, hfresh]
    rfl
  have hrefused' : fundAttempt (db.swapKeys old new) p (r.swapKey old new) c = .error e := by
    rw [fundAttempt_swap h]
    exact hrefused
  cases hstart : startAttempt (db.swapKeys old new) p c id with
  | error e' => exact ⟨e', rfl⟩
  | ok x =>
      simp only [startAttempt, bind_eq_ok] at hstart
      obtain ⟨begun, hbegun, hstart⟩ := hstart
      cases begun with
      | receipt existing =>
          obtain ⟨a, ha, -⟩ := beginAttempt_receipt hbegun
          rw [hfresh'] at ha
          cases ha
      | admitted r' =>
          obtain rfl := Option.some.inj (hfound'.symm.trans (beginAttempt_admitted hbegun).found)
          simp only [reserveAttempt, bind_eq_ok] at hstart
          obtain ⟨_, ⟨f, hfunded, -⟩, -⟩ := hstart
          rw [hrefused'] at hfunded
          cases hfunded

/-- What the rotation has to find: an identity, no team, no guardrail of the key's own, and an expiry, if any,
that is no earlier than the overlap. -/
structure Rotatable (s : KeyTables) (oldKey : ApiKey) (expiresAt : Int) : Prop where
  identity : oldKey.identityId.isSome = true
  team : s.teamOf oldKey.id = none
  limits : s.db.config.keyLimits.find? oldKey.id = none
  budgets : ∀ b ∈ s.db.config.gatewayBudgets, b.scope ≠ .key oldKey.id
  expiry : ∀ e ∈ oldKey.expiresAt, expiresAt ≤ e

section rotated
variable {s s' : KeyTables} {r : Rotation} {oldKey : ApiKey} {hours : ℚ}

theorem Rotated.ne (h : Rotated s s' r oldKey hours) : r.newId ≠ r.keyId := by
  intro heq
  have hfresh := h.fresh
  rw [heq, h.found] at hfresh
  cases hfresh

theorem Rotated.find?_old (h : Rotated s s' r oldKey hours) :
    s'.find? r.keyId = some { oldKey with expiresAt := some (r.oldKeyExpiresAt hours) } := by
  rw [h.keys, if_pos rfl]

theorem Rotated.find?_new (h : Rotated s s' r oldKey hours) : s'.find? r.newId = some (r.replacement oldKey) := by
  rw [h.keys, if_neg h.ne, if_pos rfl]

theorem Rotated.limits_new (h : Rotated s s' r oldKey hours) : s'.db.config.keyLimits.find? r.newId = none := by
  obtain ⟨t, ht⟩ := h.config
  rw [ht]
  refine Table.find?_eq_none.mpr fun l hl heq => ?_
  obtain ⟨k, hk, hid⟩ := s.limits_key l hl
  exact Table.find?_eq_none.mp h.fresh k hk (hid.trans heq)

theorem Rotated.budgets_new (h : Rotated s s' r oldKey hours) :
    ∀ b ∈ s'.db.config.gatewayBudgets, b.scope ≠ .key r.newId := by
  obtain ⟨t, ht⟩ := h.config
  rw [ht]
  intro b hb hscope
  obtain ⟨k, hk, hid⟩ := s.budgets_key b hb r.newId hscope
  exact Table.find?_eq_none.mp h.fresh k hk hid

theorem Rotated.id (h : Rotated s s' r oldKey hours) : oldKey.id = r.keyId := (Table.find?_eq_some.mp h.found).2

theorem Rotated.rotatable (h : Rotated s s' r oldKey hours) {now : Int}
    (hkeeps : NeverWidens s s' r.keyId r.newId now) : Rotatable s oldKey (r.oldKeyExpiresAt hours) := by
  obtain ⟨t, ht⟩ := h.config
  obtain ⟨hidentity, hteam, hlimits, hbudgets⟩ := hkeeps.guardrails
  have hid := h.id
  refine ⟨?_, ?_, ?_, ?_, ?_⟩
  · rw [h.find?_old, h.find?_new] at hidentity
    exact Option.isSome_iff_exists.mpr ⟨_, hidentity⟩
  · rw [h.teams, Function.update_self, Function.update_of_ne h.ne.symm] at hteam
    rw [hid]
    exact hteam
  · rw [h.limits_new, Option.map_none, Option.map_eq_none_iff, ht] at hlimits
    rw [hid]
    exact hlimits
  · intro b hb hscope
    have hb' : b ∈ s'.db.config.gatewayBudgets := by
      rw [ht]
      exact hb
    obtain ⟨b', hb', -, -, -, hscope'⟩ := (hbudgets b.orgId b.period b.limit).mp
      ⟨b, hb', rfl, rfl, rfl, hid ▸ hscope⟩
    exact h.budgets_new b' hb' hscope'
  · intro e he
    obtain ⟨e', he', hle⟩ := hkeeps.notLater oldKey h.found _ h.find?_old e he
    cases he'
    exact hle

/-- A key that is not live stays so under an expiry that is no later. -/
theorem live_of_expiry_le {k k' : ApiKey} {now t : Int} (hrevoked : k'.revokedAt = k.revokedAt)
    (hexpiry : ∀ e ∈ k.expiresAt, ∃ e' ∈ k'.expiresAt, e' ≤ e) (hnow : now ≤ t) (h : k.live now = false) :
    k'.live t = false := by
  unfold ApiKey.live at h ⊢
  rw [hrevoked]
  cases hr : k.revokedAt with
  | some x => rfl
  | none =>
      cases he : k.expiresAt with
      | none =>
          rw [hr, he] at h
          cases h
      | some e =>
          rw [hr, he] at h
          obtain ⟨e', he', hle⟩ := hexpiry e he
          have hpast : ¬ now < e := of_decide_eq_false h
          rw [he']
          exact decide_eq_false (by omega)

theorem Rotated.neverWidens (h : Rotated s s' r oldKey hours) {now : Int}
    (hrotatable : Rotatable s oldKey (r.oldKeyExpiresAt hours)) : NeverWidens s s' r.keyId r.newId now := by
  obtain ⟨t, ht⟩ := h.config
  obtain ⟨hidentity, hteam, hlimits, hbudgets, hexpiry⟩ := hrotatable
  rw [h.id] at hteam hlimits hbudgets
  have hidentity' : (s'.find? r.keyId).bind (·.identityId) = (s'.find? r.newId).bind (·.identityId) := by
    obtain ⟨i, hi⟩ := Option.isSome_iff_exists.mp hidentity
    rw [h.find?_old, h.find?_new]
    unfold Rotation.replacement
    simp only [Option.bind_some, hi, coalesce_some]
  have hlimits' : s'.db.config.keyLimits.find? r.keyId = none := by
    rw [ht]
    exact hlimits
  have hbudgets' : ∀ b ∈ s'.db.config.gatewayBudgets, b.scope ≠ .key r.keyId := by
    rw [ht]
    exact hbudgets
  have hnotLater : ∀ k ∈ s.find? r.keyId, ∀ k' ∈ s'.find? r.keyId, ∀ e ∈ k.expiresAt, ∃ e' ∈ k'.expiresAt, e' ≤ e := by
    intro k hk k' hk' e he
    rw [h.found] at hk
    rw [h.find?_old] at hk'
    cases hk
    cases hk'
    exact ⟨_, rfl, hexpiry e he⟩
  refine ⟨⟨hidentity', ?_, ?_, ?_⟩, ?_, hnotLater, ?_⟩
  · rw [h.teams, Function.update_self, Function.update_of_ne h.ne.symm, hteam]
  · rw [h.limits_new, hlimits']
  · intro orgId period limit
    constructor
    · rintro ⟨b, hb, -, -, -, hscope⟩
      exact absurd hscope (hbudgets' b hb)
    · rintro ⟨b, hb, -, -, -, hscope⟩
      exact absurd hscope (h.budgets_new b hb)
  · exact Interchangeable.refusalsKept
      ⟨hidentity', hlimits', h.limits_new, fun b hb => ⟨hbudgets' b hb, h.budgets_new b hb⟩⟩
  · intro k hk k' hk' hlive t hnow
    have hrevoked : k'.revokedAt = k.revokedAt := by
      rw [h.found] at hk
      rw [h.find?_old] at hk'
      cases hk
      cases hk'
      rfl
    exact live_of_expiry_le hrevoked (hnotLater k hk k' hk') hnow hlive

end rotated

/-- **What a rotation must find.**  A successful rotation widens nothing, whenever it is asked, exactly if the
old key has an identity, no team, no limits row and no budget of its own, and no expiry before the overlap ends. -/
theorem rotation_iff {s s' : KeyTables} {r : Rotation} (h : rotateKey s r = .ok s') (now : Int) :
    ∃ oldKey hours, s.find? r.keyId = some oldKey ∧ parseOverlapHours r.overlap = some hours ∧
      (NeverWidens s s' r.keyId r.newId now ↔ Rotatable s oldKey (r.oldKeyExpiresAt hours)) := by
  obtain ⟨oldKey, hours, hrotated⟩ := rotateKey_eq_ok h
  exact ⟨oldKey, hours, hrotated.found, hrotated.overlap, hrotated.rotatable, hrotated.neverWidens⟩

/-- An organization with one admin and one key. -/
def oneKey (k : ApiKey) (limits : Table KeyLimits.apiKeyId KeyLimits.Check)
    (h : ∀ l ∈ limits, l.apiKeyId = k.id) : KeyTables where
  db :=
    { config :=
        { apiKeys := ⟨[k], List.nodup_singleton _, fun _ _ => trivial⟩
          keyLimits := limits
          creditLedger := []
          organizationMembers := [⟨1, 9, .admin⟩]
          modelPromotions := .empty
          modelPromotionModels := []
          modelPromotionNotices := []
          orgLabels := []
          gatewayBudgets := .empty
          aliasRevisions := .empty
          preVerifyAllowance := none
          webappUrl := ""
          supportPhone := ""
          supportEmail := "" }
      organizations := .empty
      requests := .empty
      attempts := .empty
      usageEvents := .empty
      usageDaily := .empty
      attempts_request := attempts_request_empty }
  teamOf := fun _ => none
  limits_key := fun l hl => ⟨k, List.mem_singleton_self k, (h l hl).symm⟩
  budgets_key := fun b hb => absurd hb (Table.not_mem_empty b)

/-- The admin rotates key 1 ten seconds after the epoch. -/
def sampleRotation : Rotation := ⟨9, false, 1, .absent, 10000, 2⟩

def plainKey : ApiKey := ⟨1, 1, "ci", some "org-1", some 9, none, none⟩

def plainTables : KeyTables := oneKey plainKey .empty fun l hl => absurd hl (Table.not_mem_empty l)

theorem rotation_sample : ∃ s', rotateKey plainTables sampleRotation = .ok s' ∧
    NeverWidens plainTables s' 1 2 10000000 := by
  cases hrotation : rotateKey plainTables sampleRotation with
  | error e =>
      have hok : (rotateKey plainTables sampleRotation).isOk = true := by decide
      rw [hrotation] at hok
      cases hok
  | ok s' =>
      obtain ⟨oldKey, hours, hfound, -, hiff⟩ := rotation_iff hrotation 10000000
      obtain rfl : plainKey = oldKey := Option.some.inj hfound
      refine ⟨s', rfl, hiff.mpr ⟨rfl, rfl, rfl, fun b hb => absurd hb (Table.not_mem_empty b), ?_⟩⟩
      intro e he
      cases he

/-- A key that expired five seconds ago, limited to one request a minute. -/
def lapsedKey : ApiKey := ⟨1, 1, "ci", some "org-1", some 9, none, some 5000000⟩

def lapsedTables : KeyTables :=
  oneKey lapsedKey ⟨[⟨1, none, some 1, none⟩], List.nodup_singleton _, by decide⟩ (by
    intro l hl
    rw [List.mem_singleton.mp hl]
    rfl)

/-- The rotation brings the lapsed key back for a day, and its replacement has sixty requests a minute. -/
theorem lapsed_key_revived : ∃ s', rotateKey lapsedTables sampleRotation = .ok s' ∧
    ¬ NeverWidens lapsedTables s' 1 2 10000000 ∧
      (∃ k ∈ lapsedTables.find? 1, k.live 10000000 = false) ∧ (∃ k ∈ s'.find? 1, k.live 20000000 = true) ∧
        (keyGates s'.db 1 (some 1)).requestsPerMinute = some 1 ∧
          (keyGates s'.db 1 (some 2)).requestsPerMinute = some 60 := by
  cases hrotation : rotateKey lapsedTables sampleRotation with
  | error e =>
      have hok : (rotateKey lapsedTables sampleRotation).isOk = true := by decide
      rw [hrotation] at hok
      cases hok
  | ok s' =>
      obtain ⟨oldKey, hours, h⟩ := rotateKey_eq_ok hrotation
      obtain rfl : lapsedKey = oldKey := Option.some.inj h.found
      obtain rfl : defaultOverlapHours = hours := Option.some.inj h.overlap
      have hexpiry : sampleRotation.oldKeyExpiresAt defaultOverlapHours = 86410000000 := by
        unfold Rotation.oldKeyExpiresAt defaultOverlapHours sampleRotation
        norm_num
      obtain ⟨t, ht⟩ := h.config
      refine ⟨s', rfl, fun hwidens => ?_, ⟨lapsedKey, rfl, by decide⟩, ⟨_, h.find?_old, ?_⟩, ?_, ?_⟩
      · obtain ⟨e', he', hle⟩ := hwidens.notLater lapsedKey rfl _ h.find?_old 5000000 rfl
        cases he'
        rw [hexpiry] at hle
        omega
      · rw [hexpiry]
        decide
      · rw [ht]
        rfl
      · rw [ht]
        rfl

end Experiential.Gateway
