import Experiential.Gateway.System

/-! # The daily rollup

`finalizeUsage` inserts the event of a request and adds its amounts to a bucket, or does neither. So in
every state of every run each bucket carries the sums over its events, and every event has its bucket
(`daily_rollup_exact`). -/

namespace Experiential.Gateway

/-- The bucket of an event; without a user it is that of the zero `uuid`. -/
def UsageEvent.bucket (e : UsageEvent) : Nat × Nat × Int × String :=
  (e.orgId, coalesce e.userId 0, e.day, e.aliasName)

/-- The sum of `w` over the events of a bucket. -/
def Db.bucketSum (db : Db) (bucket : Nat × Nat × Int × String) (w : UsageEvent → Int) : Int :=
  db.usageEvents.sumWhere (fun e => decide (e.bucket = bucket)) w

/-- The row carries the sums over the events of its bucket. -/
structure UsageDaily.Sums (d : UsageDaily) (db : Db) : Prop where
  requests : d.requests = db.bucketSum d.key fun _ => 1
  inputTokens : d.inputTokens = db.bucketSum d.key (·.inputTokens)
  outputTokens : d.outputTokens = db.bucketSum d.key (·.outputTokens)
  spend : d.spend = db.bucketSum d.key fun e => e.cost + e.estimatedCost

/-- The rollup is the fold of the events. -/
structure RollupExact (db : Db) : Prop where
  sums : ∀ d ∈ db.usageDaily, d.Sums db
  bucket : ∀ e ∈ db.usageEvents, ∃ d, db.usageDaily.find? e.bucket = some d

/-! ### One event -/

/-- Neither events nor buckets change. -/
def SameUsage (db db' : Db) : Prop := db'.usageEvents = db.usageEvents ∧ db'.usageDaily = db.usageDaily

theorem RollupExact.same {db db' : Db} (hdb : RollupExact db) (h : SameUsage db db') : RollupExact db' := by
  obtain ⟨hevents, hdaily⟩ := h
  have hsum : db'.bucketSum = db.bucketSum := by
    unfold Db.bucketSum
    rw [hevents]
  constructor
  · intro d hd
    rw [hdaily] at hd
    obtain ⟨hrequests, hinput, houtput, hspend⟩ := hdb.sums d hd
    exact ⟨by rw [hsum]; exact hrequests, by rw [hsum]; exact hinput, by rw [hsum]; exact houtput,
      by rw [hsum]; exact hspend⟩
  · intro e he
    rw [hevents] at he
    rw [hdaily]
    exact hdb.bucket e he

section rolled
variable {db db' : Db} {e : UsageEvent} {events : Table UsageEvent.requestId UsageEvent.Check}

theorem bucketSum_insert (hins : db.usageEvents.insert e = .ok events) (hevents : db'.usageEvents = events)
    (bucket : Nat × Nat × Int × String) (w : UsageEvent → Int) :
    db'.bucketSum bucket w = (if e.bucket = bucket then w e else 0) + db.bucketSum bucket w := by
  unfold Db.bucketSum
  rw [hevents, Table.sumWhere_insert hins]
  simp [Table.share]

theorem bucketSum_empty (h : ∀ e ∈ db.usageEvents, e.bucket ≠ bucket) (w : UsageEvent → Int) :
    db.bucketSum bucket w = 0 := by
  refine Table.sumWhere_eq_zero ?_
  intro e he
  exact Table.share_false (by simpa using h e he)

theorem UsageDaily.Sums.other {d : UsageDaily} (hd : d.Sums db) (hins : db.usageEvents.insert e = .ok events)
    (hevents : db'.usageEvents = events) (hne : e.bucket ≠ d.key) : d.Sums db' := by
  obtain ⟨hrequests, hinput, houtput, hspend⟩ := hd
  constructor <;> rw [bucketSum_insert hins hevents, if_neg hne, zero_add] <;> assumption

/-- The row of the event's bucket, with the event's amounts added. -/
def UsageDaily.plus (x : UsageDaily) (d : UsageDaily) : UsageDaily :=
  { x with
    requests := x.requests + 1
    inputTokens := x.inputTokens + d.inputTokens
    outputTokens := x.outputTokens + d.outputTokens
    spend := x.spend + d.spend }

theorem UsageDaily.Sums.own {d : UsageDaily} (hd : d.Sums db) (hins : db.usageEvents.insert e = .ok events)
    (hevents : db'.usageEvents = events) (hkey : e.bucket = d.key) :
    (d.plus (e.daily (e.cost + e.estimatedCost))).Sums db' := by
  obtain ⟨hrequests, hinput, houtput, hspend⟩ := hd
  have hown : ∀ w, db'.bucketSum d.key w = w e + db.bucketSum d.key w := by
    intro w
    rw [bucketSum_insert hins hevents, if_pos hkey]
  constructor
  · show d.requests + 1 = db'.bucketSum d.key _
    rw [hown, hrequests, add_comm]
  · show d.inputTokens + e.inputTokens = db'.bucketSum d.key _
    rw [hown, hinput, add_comm]
  · show d.outputTokens + e.outputTokens = db'.bucketSum d.key _
    rw [hown, houtput, add_comm]
  · show d.spend + (e.cost + e.estimatedCost) = db'.bucketSum d.key _
    rw [hown, hspend, add_comm]

/-- The first row of a bucket carries its first event. -/
theorem UsageDaily.Sums.first (hins : db.usageEvents.insert e = .ok events) (hevents : db'.usageEvents = events)
    (hnone : ∀ e₀ ∈ db.usageEvents, e₀.bucket ≠ e.bucket) : (e.daily (e.cost + e.estimatedCost)).Sums db' := by
  have hown : ∀ w, db'.bucketSum e.bucket w = w e := by
    intro w
    rw [bucketSum_insert hins hevents, if_pos rfl, bucketSum_empty hnone, add_zero]
  constructor
  · exact (hown fun _ => 1).symm
  · exact (hown (·.inputTokens)).symm
  · exact (hown (·.outputTokens)).symm
  · exact (hown fun e => e.cost + e.estimatedCost).symm

/-- **An event that is inserted and rolled up keeps the rollup exact.** -/
theorem RollupExact.rolled {db₁ : Db} (hdb : RollupExact db) (hins : db.usageEvents.insert e = .ok events)
    (h : Db.upsertDaily { db with usageEvents := events } (e.daily (e.cost + e.estimatedCost)) = .ok db₁) :
    RollupExact db₁ := by
  have hbucket : (e.daily (e.cost + e.estimatedCost)).key = e.bucket := rfl
  unfold Db.upsertDaily at h
  split_ifs at h with hsome
  · simp only [bind_eq_ok, write_eq_ok, pure_eq_ok] at h
    obtain ⟨t, ht, rfl⟩ := h
    obtain ⟨d₀, hd₀⟩ := Option.isSome_iff_exists.mp hsome
    constructor
    · intro d hd
      obtain ⟨r, hr, -, ⟨hhit, rfl⟩ | ⟨hmiss, rfl⟩⟩ := Table.exists_of_mem_update ht hd
      · exact (hdb.sums r hr).own hins rfl (of_decide_eq_true hhit).symm
      · exact (hdb.sums d hr).other hins rfl (Ne.symm (of_decide_eq_false hmiss))
    · intro e' he'
      have hold : ∃ d, db.usageDaily.find? e'.bucket = some d := by
        obtain rfl | he' := (Table.mem_insert hins).mp he'
        · exact ⟨d₀, hd₀⟩
        · exact hdb.bucket e' he'
      obtain ⟨d, hd⟩ := hold
      simp only [Table.find?_update ht e'.bucket, hd, Option.map_some, Option.some.injEq, exists_eq']
  · simp only [bind_eq_ok, write_eq_ok, pure_eq_ok] at h
    obtain ⟨t, ht, rfl⟩ := h
    have hnone : ∀ e₀ ∈ db.usageEvents, e₀.bucket ≠ e.bucket := by
      intro e₀ he₀ heq
      obtain ⟨d, hd⟩ := hdb.bucket e₀ he₀
      rw [heq, ← hbucket] at hd
      exact hsome (by simp [hd])
    constructor
    · intro d hd
      obtain rfl | hd := (Table.mem_insert ht).mp hd
      · exact .first hins rfl hnone
      · refine (hdb.sums d hd).other hins rfl ?_
        intro heq
        apply hsome
        simp only [hbucket, heq]
        rw [Table.find?_key hd]
        rfl
    · intro e' he'
      have hfind := fun k => Table.find?_insert ht k
      obtain rfl | he' := (Table.mem_insert hins).mp he'
      · exact ⟨_, (hfind _).trans (if_pos hbucket)⟩
      · obtain ⟨d, hd⟩ := hdb.bucket e' he'
        rw [hfind]
        split_ifs with heq
        · exact ⟨_, rfl⟩
        · exact ⟨d, hd⟩

end rolled

/-! ### The calls -/

variable {now : Int}

theorem finalizeUsage_rollup {db db' : Db} {requestId : String} (hdb : RollupExact db)
    (h : finalizeUsage db requestId now = .ok db') : RollupExact db' := by
  simp only [finalizeUsage, bind_eq_ok] at h
  obtain ⟨r, -, s, -, t, -, e, -, ⟨db₁, inserted⟩, hins, h⟩ := h
  obtain ⟨rfl, rfl, -⟩ | ⟨u, rfl, -, hu, rfl⟩ := Db.insertUsageEvent_eq_ok hins
  · simp only [Bool.false_eq_true, if_false, pure_eq_ok] at h
    exact h ▸ hdb
  · simp only [if_true, bind_eq_ok] at h
    obtain ⟨spend, hspend, h⟩ := h
    rw [int8_eq_ok hspend] at h
    exact hdb.rolled hu h

theorem updateRequests_usage {db db' : Db} {p : GatewayRequest → Bool} {f : GatewayRequest → GatewayRequest}
    {hf : ∀ r, (f r).requestId = r.requestId} (h : db.updateRequests p f hf = .ok db') : SameUsage db db' := by
  obtain ⟨t, _, -, rfl⟩ := Db.updateRequests_eq_ok h
  exact ⟨rfl, rfl⟩

theorem closeRequest_rollup {db db' : Db} {requestId : String} {s : TerminalState}
    (hdb : RollupExact db) (h : closeRequest db requestId s now = .ok db') : RollupExact db' := by
  simp only [closeRequest, bind_eq_ok] at h
  obtain ⟨db₁, hclosed, h⟩ := h
  exact finalizeUsage_rollup (hdb.same (updateRequests_usage hclosed)) h

theorem finishRequest_rollup {db db' : Db} {p : FinishArgs} (hdb : RollupExact db)
    (h : finishRequest db p now = .ok db') : RollupExact db' := by
  simp only [finishRequest, bind_eq_ok] at h
  obtain ⟨s, -, _, -, _, -, r, -, _, -, h⟩ := h
  cases hended : r.terminalState with
  | some ended =>
      simp only [hended, bind_eq_ok, pure_eq_ok] at h
      obtain ⟨_, -, rfl⟩ := h
      exact hdb
  | none =>
      simp only [hended, bind_eq_ok] at h
      obtain ⟨db₁, hclosed, h⟩ := h
      exact finalizeUsage_rollup (hdb.same (updateRequests_usage hclosed)) h

theorem OnlyOrganizations.usage {db db' : Db} (h : OnlyOrganizations db db') : SameUsage db db' :=
  ⟨h.usageEvents, h.usageDaily⟩

theorem settleRow_usage {db db' : Db} {a : GatewayAttempt} {s : Settlement} (h : db.settleRow a s = .ok db') :
    SameUsage db db' := by
  obtain ⟨t, _, -, rfl⟩ := Db.updateAttempts_eq_ok h
  exact ⟨rfl, rfl⟩

theorem acceptRequest_usage {db db' : Db} {p : AcceptArgs} (h : acceptRequest db p now = .ok db') :
    SameUsage db db' := by
  obtain ⟨rfl, -⟩ | ⟨d, -, -, -, hins⟩ := acceptRequest_eq_ok h
  · exact ⟨rfl, rfl⟩
  · obtain ⟨t, _, -, rfl⟩ := Db.insertRequest_eq_ok hins
    exact ⟨rfl, rfl⟩

theorem startAttempt_usage {db db' : Db} {p : StartArgs} {c : StartClock} {id id' : String}
    (h : startAttempt db p c id = .ok (db', id')) : SameUsage db db' := by
  obtain ⟨rfl, -⟩ | ⟨r, f, -, -, hins⟩ := startAttempt_eq_ok h
  · exact ⟨rfl, rfl⟩
  · obtain ⟨t, _, -, rfl⟩ := Db.insertAttempt_eq_ok hins
    exact ⟨rfl, rfl⟩

theorem settleAttempt_rollup {db db' : Db} {p : SettleArgs} (hdb : RollupExact db)
    (h : settleAttempt db p now = .ok db') : RollupExact db' := by
  simp only [settleAttempt, bind_eq_ok] at h
  obtain ⟨outcome, -, source, -, _, -, a, -, h⟩ := h
  split_ifs at h with hdispatched hfinalize
  · simp only [bind_eq_ok] at h
    obtain ⟨s, -, db₁, hrow, db₂, hbill, h⟩ := h
    have h₁ : RollupExact db₁ := hdb.same (settleRow_usage hrow)
    have h₂ : RollupExact db₂ := h₁.same (billSettlement_eq_ok hbill).2.usage
    exact closeRequest_rollup h₂ h
  · simp only [bind_eq_ok, pure_eq_ok] at h
    obtain ⟨s, -, db₁, hrow, db₂, hbill, rfl⟩ := h
    exact (hdb.same (settleRow_usage hrow)).same (billSettlement_eq_ok hbill).2.usage
  · simp only [bind_eq_ok] at h
    obtain ⟨_, -, h⟩ := h
    exact closeRequest_rollup hdb h
  · simp only [bind_eq_ok, pure_eq_ok] at h
    obtain ⟨_, -, rfl⟩ := h
    exact hdb

theorem expireRequest_rollup {acc acc' : Db × Nat} {r : GatewayRequest}
    (h : expireRequest now acc r = .ok acc') (hacc : RollupExact acc.1) : RollupExact acc'.1 := by
  unfold expireRequest at h
  split_ifs at h
  · simp only [bind_eq_ok, pure_eq_ok] at h
    obtain ⟨db, hclosed, rfl⟩ := h
    exact closeRequest_rollup hacc hclosed
  · simp only [pure_eq_ok] at h
    exact h ▸ hacc

theorem crashAttempt_rollup {acc acc' : Db × Nat} {a : GatewayAttempt}
    (h : crashAttempt now acc a = .ok acc') (hacc : RollupExact acc.1) : RollupExact acc'.1 := by
  simp only [crashAttempt, bind_eq_ok, pure_eq_ok] at h
  obtain ⟨db₁, hrow, db₂, hbill, db, hclosed, rfl⟩ := h
  have h₁ : RollupExact db₁ := hacc.same (settleRow_usage hrow)
  have h₂ : RollupExact db₂ := h₁.same (billCrash_eq_ok hbill).2.usage
  exact closeRequest_rollup h₂ hclosed

theorem reconcileCrashed_rollup {db db' : Db} {grace : Option Int} {n m : Nat}
    (hdb : RollupExact db) (h : reconcileCrashed db grace now = .ok (db', n, m)) : RollupExact db' := by
  obtain ⟨g, db₁, -, -, hexpire, hcrash⟩ := reconcileCrashed_eq_ok h
  have h₁ : RollupExact db₁ := foldlM_invariant (I := fun acc => RollupExact acc.1)
    (fun _ _ _ => expireRequest_rollup) _ _ _ hexpire hdb
  exact foldlM_invariant (I := fun acc => RollupExact acc.1) (fun _ _ _ => crashAttempt_rollup) _ _ _ hcrash h₁

theorem execute_rollup {db db' : Db} {call : GatewayCall × Env} (hdb : RollupExact db)
    (h : execute db call = .ok db') : RollupExact db' := by
  obtain ⟨c, e⟩ := call
  cases c with
  | accept p => exact hdb.same (acceptRequest_usage h)
  | start p =>
      simp only [execute, bind_eq_ok, pure_eq_ok] at h
      obtain ⟨⟨db₁, id⟩, hstart, rfl⟩ := h
      exact hdb.same (startAttempt_usage hstart)
  | acceptAndStart p =>
      simp only [execute, bind_eq_ok, pure_eq_ok] at h
      obtain ⟨db₁, haccept, ⟨db₂, id⟩, hstart, rfl⟩ := h
      exact (hdb.same (acceptRequest_usage haccept)).same (startAttempt_usage hstart)
  | settle p => exact settleAttempt_rollup hdb h
  | finish p => exact finishRequest_rollup hdb h
  | reconcile g =>
      simp only [execute, bind_eq_ok, pure_eq_ok] at h
      obtain ⟨⟨db₁, n, m⟩, hreconciled, rfl⟩ := h
      exact reconcileCrashed_rollup hdb hreconciled

/-- **The daily rollup is the fold of the usage events**: after every run of calls, every row carries the
count and sums of the events of its bucket, and every event has a row. -/
theorem daily_rollup_exact (config : Config) (organizations : Table Organization.id Organization.Check)
    (events : List GatewayEvent) : RollupExact (run step (Db.initial config organizations) events) := by
  refine run_invariant_of_forall ?_ events (Db.initial config organizations) ?_
  · intro db event hdb
    cases event with
    | call c => exact orStay_preserves (I := RollupExact) (fun _ h hdb => execute_rollup hdb h) hdb
    | administer config organizations => exact hdb.same ⟨rfl, rfl⟩
  · exact ⟨fun d hd => absurd hd (Table.not_mem_empty d), fun e he => absurd he (Table.not_mem_empty e)⟩

end Experiential.Gateway
