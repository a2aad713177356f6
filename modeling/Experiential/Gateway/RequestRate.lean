import Experiential.Gateway.Admission
import Experiential.Lib.Window

/-! # The request rate of a key

A platform-funded start counts the key's attempts of the trailing minute under the organization's
row lock, goes through the other gates, and stamps the attempt it inserts with a later reading.
`request_rate_holds` is that no minute ever holds more attempts of a key than its limit: the count
has no upper end, so it takes in whatever was stamped before it, and the stamp comes after it. A
folded call takes the lock before it reads anything, so its wait is over when it runs as a whole
call. -/

namespace Experiential.Gateway

/-- The requests-per-minute limit of a key: its row, or the default. -/
def Config.requestLimit (c : Config) (apiKeyId : Nat) : Option Int :=
  match c.keyLimits.find? apiKeyId with
  | some l => l.requestsPerMinute
  | none => some 60

theorem keyGates_requestsPerMinute (db : Db) (orgId apiKeyId : Nat) :
    (keyGates db orgId (some apiKeyId)).requestsPerMinute = db.config.requestLimit apiKeyId := by
  simp only [keyGates, Config.requestLimit, Option.bind_some]
  cases db.config.keyLimits.find? apiKeyId <;> rfl

theorem requestLimit_pos {c : Config} {apiKeyId : Nat} {limit : Int}
    (h : c.requestLimit apiKeyId = some limit) : 0 < limit := by
  unfold Config.requestLimit at h
  cases hl : c.keyLimits.find? apiKeyId with
  | none =>
      simp only [hl, Option.some.injEq] at h
      omega
  | some l =>
      simp only [hl] at h
      exact (c.keyLimits.checked l (Table.find?_eq_some.mp hl).1).2.1 limit h

/-- The key's platform-funded attempts started in the 60 seconds that end at `t`. -/
def Db.dispatchesEnding (db : Db) (apiKeyId : Nat) (t : Int) : Int :=
  db.attempts.windowCount (·.hostOfKey (some apiKeyId)) (·.startedAt) (60 * usPerSecond) t

/-- No minute holds more of the key's attempts than `limit`. -/
def RateBounded (apiKeyId : Nat) (limit : Int) (db : Db) : Prop :=
  db.config.requestLimit apiKeyId = some limit ∧ ∀ t, db.dispatchesEnding apiKeyId t ≤ limit

/-- The readings of a call in the order it makes them. -/
def StartClock.readings (c : StartClock) : List Int :=
  [c.deadlineCheck, c.keyCheck, c.periodStart, c.rateWindow, c.tokenWindow, c.promoState, c.spendPolicy,
    c.budgetMonth, c.startedAt]

/-- The clock does not run backwards during a call. -/
def StartClock.Forward (c : StartClock) : Prop := c.readings.Pairwise (· ≤ ·)

theorem StartClock.Forward.counted {c : StartClock} (h : c.Forward) : c.rateWindow ≤ c.startedAt := by
  simp only [Forward, readings, List.pairwise_cons, List.mem_cons, forall_eq_or_imp] at h
  tauto

theorem forward_at (t t' : Int) (h : t ≤ t') : ((StartClock.at t).resume (.at t')).Forward := by
  simp only [StartClock.Forward, StartClock.readings, StartClock.at, StartClock.resume,
    List.pairwise_cons, List.mem_cons]
  grind

/-- Every start reads a clock that does not run backwards. -/
def forwardTerms : Terms := { start := fun _ _ c => c.Forward }

section rate
variable {apiKeyId : Nat} {limit : Int} {db db' : Db}

theorem RateBounded.reserve {p : StartArgs} {r : GatewayRequest} {c : StartClock} {f : Funding} {id : String}
    (hdb : RateBounded apiKeyId limit db) (hforward : c.Forward) (hf : fundAttempt db p r c = .ok f)
    (h : db.insertAttempt (p.row r f id c) = .ok db') : RateBounded apiKeyId limit db' := by
  obtain ⟨u, hfk, hu, rfl⟩ := Db.insertAttempt_eq_ok h
  refine ⟨hdb.1, fun t => ?_⟩
  cases hq : (p.row r f id c).hostOfKey (some apiKeyId) with
  | false => exact le_of_eq_of_le (Table.windowCount_insert_other hu hq _ _ t) (hdb.2 t)
  | true =>
      simp only [GatewayAttempt.hostOfKey, Bool.and_eq_true, decide_eq_true_eq] at hq
      obtain ⟨⟨-, hkey⟩, hhost⟩ := hq
      have hkey' : r.apiKeyId = some apiKeyId := hkey
      have hrate := (fundAttempt_gated hf hhost).rate limit
      rw [hkey', keyGates_requestsPerMinute] at hrate
      exact Table.windowCount_insert hu (hrate hdb.1) hforward.counted hdb.2 t

theorem RateBounded.settles {a : GatewayAttempt} {s : Settlement} (hdb : RateBounded apiKeyId limit db)
    (h : Settles db a s db') : RateBounded apiKeyId limit db' := by
  refine ⟨by rw [h.config]; exact hdb.1, fun t => ?_⟩
  exact le_of_eq_of_le (Table.windowCount_replaced h.attempts rfl rfl _ t) (hdb.2 t)

theorem RateBounded.move (h : Move forwardTerms.gated db db') (hdb : RateBounded apiKeyId limit db) :
    RateBounded apiKeyId limit db' := by
  cases h with
  | accept p d now hT hfresh hgate h =>
      obtain ⟨t, hfk, -, rfl⟩ := Db.insertRequest_eq_ok h
      exact hdb
  | reserve p r c f id hT hr hf h => exact hdb.reserve hT.1 (hT.2 r f hr hf) h
  | settle p o u now a s hs hT h | crash a now hT h => exact hdb.settles h
  | close r s h =>
      unfold RateBounded Db.dispatchesEnding
      rw [h.config, h.attempts]
      exact hdb

end rate

/-- What a step must meet: a clock that runs forward, and edits that leave the key its limit. -/
def RateMeets (apiKeyId : Nat) (limit : Int) (s : Locked) : InstallationEvent → Prop
  | .lock event => LockMeets forwardTerms s event
  | .administer config _ => config.requestLimit apiKeyId = some limit

/-- **Request rate.**  From the time a key has no platform-funded attempt, while its limit stays
`limit`, under every interleaving of waiting starts and other calls and edits: no 60 seconds hold
more than `limit` of its platform-funded attempts, and a refused step leaves the counts as they
were. -/
theorem request_rate_holds (apiKeyId : Nat) (limit : Int) (s : Locked) (events : List InstallationEvent)
    (hlimit : s.db.config.requestLimit apiKeyId = some limit)
    (hnew : ∀ a ∈ s.db.attempts, a.hostOfKey (some apiKeyId) = false)
    (h : StepsMeet installationStep (RateMeets apiKeyId limit) s events) :
    (∀ t, (run installationStep s events).db.dispatchesEnding apiKeyId t ≤ limit) ∧
    ∀ event e, refusal (run installationStep s events) event = some e →
      ∀ t now, (lockStep (run installationStep s events) event).db.dispatchesEnding apiKeyId t =
          (run installationStep s events).db.dispatchesEnding apiKeyId t ∧
        (lockStep (run installationStep s events) event).db.recentDispatches (some apiKeyId) now =
          (run installationStep s events).db.recentDispatches (some apiKeyId) now := by
  constructor
  · refine (run_invariant (I := fun s => RateBounded apiKeyId limit s.db) ?_ events s ⟨hlimit, fun t => ?_⟩ h).2
    · intro s event hmeets hs
      cases event with
      | lock event =>
          exact lockStep_gated (fun _ _ => RateBounded.move)
            (fun _ _ _ _ _ _ _ hT hf hins hdb => hdb.reserve hT hf hins) hmeets hs
      | administer config organizations => exact ⟨hmeets, hs.2⟩
    · have hpos := requestLimit_pos hlimit
      unfold Db.dispatchesEnding
      rw [Table.windowCount_eq_zero hnew]
      omega
  · intro event e hrefused t now
    rw [lockStep_refused hrefused]
    exact ⟨rfl, rfl⟩

/-- The sample installation with a limit of two requests a minute on its key. -/
def meteredDb : Db :=
  .initial { sampleConfig with keyLimits := ⟨[⟨7, none, some 2, none⟩], by decide, by decide⟩ }
    sampleOrganizations

/-- Three starts wait for the lock while a promotion model is added; the third is refused, and one
that arrives a minute after the first is served. -/
def meteredRun : List InstallationEvent :=
  [.lock (.call ((GatewayCall.accept (sampleAccept "r1" none 900000000)).atTime 1000000 "")),
    .lock (.call ((GatewayCall.accept (sampleAccept "r2" none 900000000)).atTime 2000000 "")),
    .lock (.call ((GatewayCall.accept (sampleAccept "r3" none 900000000)).atTime 3000000 "")),
    .lock (.arrive (sampleStart "r1" 0 .hostManaged 1000) (.at 4000000)),
    .lock (.arrive (sampleStart "r2" 0 .hostManaged 1000) (.at 5000000)),
    .lock (.arrive (sampleStart "r3" 0 .hostManaged 1000) (.at 6000000)),
    .lock (.proceed 0 (.at 7000000) "a1"),
    .administer { meteredDb.config with modelPromotionModels := [⟨3, 4, "other"⟩] } sampleOrganizations,
    .lock (.proceed 0 (.at 8000000) "a2"),
    .lock (.proceed 0 (.at 9000000) "a3"),
    .lock (.call ((GatewayCall.start (sampleStart "r3" 0 .hostManaged 1000)).atTime 67500000 "a4"))]

theorem request_rate_holds_sample :
    (run installationStep ⟨meteredDb, []⟩ meteredRun).db.attempts.rows.map (·.attemptId) = ["a4", "a2", "a1"] ∧
    ∀ t, (run installationStep ⟨meteredDb, []⟩ meteredRun).db.dispatchesEnding 7 t ≤ 2 := by
  refine ⟨by rfl, (request_rate_holds 7 2 ⟨meteredDb, []⟩ meteredRun (by rfl) ?_ ?_).1⟩
  · exact fun a ha => absurd ha (Table.not_mem_empty a)
  · refine ⟨trivial, trivial, trivial, trivial, trivial, trivial, fun w hw => ?_, by rfl, fun w hw => ?_,
      fun w hw => ?_, ?_, trivial⟩
    · cases hw
      exact forward_at 4000000 7000000 (by decide)
    · cases hw
      exact forward_at 5000000 8000000 (by decide)
    · cases hw
      exact forward_at 6000000 9000000 (by decide)
    · exact forward_at 67500000 67500000 (by decide)

end Experiential.Gateway
