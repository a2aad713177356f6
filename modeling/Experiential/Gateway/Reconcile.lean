import Experiential.Gateway.Settle

/-! # The crash reconciler

`reconcileCrashed` closes what crashed workers left behind, in two loops: open requests past
their deadline that never dispatched expire, and dispatched attempts whose request is past its
deadline and grace are settled as unknown (at nothing on the platform-funded lane, at their
reservation as an estimate on the pass-through lane) and their request closed. The two loop
rules `expireLoop_rec` and `crashLoop_rec` hand each iteration's effect to an invariant of the
caller's choice. -/

namespace Experiential.Gateway

/-- What the reconciler settles an attempt with an unknown outcome at. -/
def GatewayAttempt.crashSettled (a : GatewayAttempt) : Int :=
  match a.billingSource with
  | .hostManaged => 0
  | .customerManaged => a.budgetReserved

/-- The settlement the reconciler writes; the columns it leaves alone keep their values. -/
def GatewayAttempt.crash (a : GatewayAttempt) (now : Int) : Settlement where
  state := .unknownAfterCrash
  terminalAt := now
  firstTokenAt := a.firstTokenAt
  failureClass := a.failureClass
  inputTokens := a.inputTokens
  cachedInputTokens := a.cachedInputTokens
  outputTokens := a.outputTokens
  reasoningTokens := a.reasoningTokens
  usageSource := some .unknown
  estimatedCost := match a.billingSource with
    | .customerManaged => some a.budgetReserved
    | .hostManaged => none
  budgetSettled := a.crashSettled
  promoSettled := a.promoSettled
  toolNames := a.toolNames
  errorMessage := a.errorMessage
  terminal := by decide

/-- Has the request an attempt? -/
def Db.hasAttempt (db : Db) (requestId : String) : Bool :=
  db.attempts.any (fun a => decide (a.requestId = requestId))

/-- An open request past its deadline that never dispatched. -/
def Db.expirable (db : Db) (now : Int) (r : GatewayRequest) : Bool :=
  decide (r.terminalState = none) && decide (r.deadlineAt ≤ now) && !db.hasAttempt r.requestId

/-- A dispatched attempt whose request is past its deadline and grace. -/
def Db.crashed (db : Db) (graceSeconds now : Int) (a : GatewayAttempt) : Bool :=
  decide (a.state = .dispatched) &&
    (db.requests.find? a.requestId).any
      (fun r => decide (r.deadlineAt + graceSeconds * usPerSecond ≤ now))

/-- One iteration of the first loop: the statement checks again that there is no attempt. -/
def expireRequest (now : Int) (acc : Db × Nat) (r : GatewayRequest) : Raises (Db × Nat) :=
  if (acc.1.requests.find? r.requestId).any (fun r => decide (r.terminalState = none)) ∧
      acc.1.hasAttempt r.requestId = false then do
    let db ← closeRequest acc.1 r.requestId .expiredBeforeDispatch now
    return (db, acc.2 + 1)
  else return acc

/-- Bill a crashed attempt at nothing, on the platform-funded lane. -/
def billCrash (db : Db) (a : GatewayAttempt) : Raises Db :=
  if a.billingSource = .hostManaged then settleBilling db a.orgId a.attemptId 0 else return db

/-- One iteration of the second loop. -/
def crashAttempt (now : Int) (acc : Db × Nat) (a : GatewayAttempt) : Raises (Db × Nat) := do
  let db₁ ← acc.1.settleRow a (a.crash now)
  let db₂ ← billCrash db₁ a
  let db ← closeRequest db₂ a.requestId .unknownAfterCrash now
  return (db, acc.2 + 1)

/-- `gateway_reconcile_crashed`, with the numbers of expired requests and unknown attempts. The
advisory lock is free: no other reconciler runs at the same time. -/
def reconcileCrashed (db : Db) (graceSeconds : Option Int) (now : Int) : Raises (Db × Nat × Nat) :=
  let negative := raised .c22023 "gateway reconcile grace cannot be negative"
  do
    let grace ← require graceSeconds negative
    ensure (0 ≤ grace) negative
    let (db₁, expired) ← (db.requests.rows.filter (db.expirable now)).foldlM (expireRequest now) (db, 0)
    let (db₂, unknown) ←
      (db₁.attempts.rows.filter (db₁.crashed grace now)).foldlM (crashAttempt now) (db₁, 0)
    return (db₂, expired, unknown)

/-! ### What one iteration does -/

variable {r : GatewayRequest}

theorem expireRequest_eq_ok {now : Int} {acc acc' : Db × Nat} (h : expireRequest now acc r = .ok acc') :
    (∃ q, acc.1.requests.find? r.requestId = some q ∧ q.terminalState = none ∧
      acc.1.hasAttempt r.requestId = false ∧ Closes acc.1 q .expiredBeforeDispatch acc'.1) ∨
    acc'.1 = acc.1 ∧ ∀ q, acc.1.requests.find? r.requestId = some q → q.terminalState = none →
      acc.1.hasAttempt r.requestId = true := by
  unfold expireRequest at h
  split_ifs at h with hc
  · obtain ⟨hopen, hnone⟩ := hc
    simp only [bind_eq_ok, pure_eq_ok] at h
    obtain ⟨db, hdb, rfl⟩ := h
    obtain ⟨q, hq, hcl⟩ := closeRequest_eq_ok hdb
    refine .inl ⟨q, hq, ?_, hnone, hcl⟩
    simpa [hq] using hopen
  · simp only [pure_eq_ok] at h
    refine .inr ⟨by rw [h], ?_⟩
    intro q hq hopen
    by_contra hat
    exact hc ⟨by simp [hq, hopen], by simpa using hat⟩

variable {a : GatewayAttempt} {db db' : Db}

theorem billCrash_eq_ok (h : billCrash db a = .ok db') : Debited db db' a.orgId 0 ∧ OnlyOrganizations db db' := by
  unfold billCrash at h
  split_ifs at h with hhost
  · exact (settleBilling_eq_ok h).2
  · simp only [pure_eq_ok] at h
    obtain rfl := h
    exact ⟨Debited.refl rfl _, rfl, rfl, rfl, rfl, rfl⟩

theorem crash_debit (a : GatewayAttempt) (now : Int) :
    (if a.billingSource = .hostManaged ∧ a.promoFunded = false
      then (a.crash now).budgetSettled else 0) = 0 := by
  split_ifs with hh
  · simp [GatewayAttempt.crash, GatewayAttempt.crashSettled, hh.1]
  · rfl

theorem crashAttempt_eq_ok {now : Int} {acc acc' : Db × Nat}
    (h : crashAttempt now acc a = .ok acc') (ha : a ∈ acc.1.attempts) (hd : a.state = .dispatched) :
    ∃ db₁ r, Settles acc.1 a (a.crash now) db₁ ∧ db₁.requests.find? a.requestId = some r ∧
      Closes db₁ r .unknownAfterCrash acc'.1 := by
  simp only [crashAttempt, bind_eq_ok, pure_eq_ok] at h
  obtain ⟨db₁, hrow, db₂, hbill, db, hclose, rfl⟩ := h
  obtain ⟨r, hr, hcl⟩ := closeRequest_eq_ok hclose
  obtain ⟨hdebit, honly⟩ := billCrash_eq_ok hbill
  rw [← crash_debit a now] at hdebit
  exact ⟨db₂, r, settles_of_settleRow hrow ha hd hdebit honly, hr, hcl⟩

/-! ### What the loops do -/

theorem reconcileCrashed_eq_ok {graceSeconds : Option Int} {now : Int} {n m : Nat}
    (h : reconcileCrashed db graceSeconds now = .ok (db', n, m)) :
    ∃ grace db₁, graceSeconds = some grace ∧ 0 ≤ grace ∧
      (db.requests.rows.filter (db.expirable now)).foldlM (expireRequest now) (db, 0) = .ok (db₁, n) ∧
      (db₁.attempts.rows.filter (db₁.crashed grace now)).foldlM (crashAttempt now) (db₁, 0)
        = .ok (db', m) := by
  simp only [reconcileCrashed, bind_eq_ok, require_eq_ok, ensure_eq_ok, pure_eq_ok] at h
  obtain ⟨grace, hg, _, h0, ⟨db₁, n₁⟩, h1, ⟨db₂, m₁⟩, h2, h⟩ := h
  simp only [Prod.mk.injEq] at h
  obtain ⟨rfl, rfl, rfl⟩ := h
  exact ⟨grace, db₁, hg, h0, h1, h2⟩

/-- The effect of the first loop so far: some open requests without attempts are closed. -/
structure Expires (db db' : Db) : Prop where
  config : db'.config = db.config
  organizations : db'.organizations = db.organizations
  attempts : db'.attempts = db.attempts
  requests : ∀ id r, db.requests.find? id = some r → ∃ r', db'.requests.find? id = some r' ∧
    (r' = r ∨ r.terminalState = none ∧ db.hasAttempt id = false ∧ r.EndsAs r' .expiredBeforeDispatch)
  absent : ∀ id, db.requests.find? id = none → db'.requests.find? id = none
  events : ∀ id, db.hasAttempt id = true → db'.usageEvents.find? id = db.usageEvents.find? id

theorem Expires.refl (db : Db) : Expires db db :=
  ⟨rfl, rfl, rfl, fun _ r hr => ⟨r, hr, .inl rfl⟩, fun _ h => h, fun _ _ => rfl⟩

theorem Closes.usageEvents_find? {s : TerminalState} (h : Closes db r s db') {id : String} (hid : id ≠ r.requestId) :
    db'.usageEvents.find? id = db.usageEvents.find? id := by
  rcases h.event with ⟨-, he⟩ | ⟨-, e, he, -, -, hins⟩
  · rw [he]
  · rw [Table.find?_insert hins, he, if_neg (Ne.symm hid)]

/-- A close leaves every other request alone, and its own request with the ending. -/
theorem Closes.requests_find? {s : TerminalState}
    (h : Closes db r s db') (id : String) (q : GatewayRequest) (hq : db.requests.find? id = some q) :
    ∃ q', db'.requests.find? id = some q' ∧
      (q' = q ∧ (q = r → r.terminalState ≠ none) ∨ q = r ∧ r.terminalState = none ∧ r.EndsAs q' s) := by
  rcases h.requests with ⟨hopen, r', hends, hrep⟩ | ⟨hne, hsame⟩
  · by_cases hid : r.requestId = id
    · obtain rfl : q = r := by
        subst hid
        exact Option.some.inj (hq.symm.trans (Table.find?_key h.mem))
      exact ⟨r', by rw [hrep.find?, if_pos hid], .inr ⟨rfl, hopen, hends⟩⟩
    · refine ⟨q, by rw [hrep.find?, if_neg hid, hq], .inl ⟨rfl, ?_⟩⟩
      rintro rfl
      exact absurd (Table.find?_eq_some.mp hq).2 hid
  · exact ⟨q, by rw [hsame, hq], .inl ⟨rfl, fun _ => hne⟩⟩

theorem Closes.requests_absent {s : TerminalState}
    (h : Closes db r s db') {id : String} (hid : db.requests.find? id = none) :
    db'.requests.find? id = none := by
  rcases h.requests with ⟨-, r', -, hrep⟩ | ⟨-, hsame⟩
  · rw [hrep.find?, if_neg, hid]
    exact Table.find?_eq_none.mp hid r h.mem
  · rw [hsame, hid]

theorem Closes.terminal {s : TerminalState} (h : Closes db r s db') :
    ∃ r', db'.requests.find? r.requestId = some r' ∧ r'.terminalState ≠ none := by
  obtain ⟨r', hr', hcase⟩ := h.requests_find? r.requestId r (Table.find?_key h.mem)
  refine ⟨r', hr', ?_⟩
  rcases hcase with ⟨rfl, hne⟩ | ⟨-, -, t, c, m, rfl⟩
  · exact hne rfl
  · simp

/-- The effect of the second loop on the attempts `rest` still to come, out of `all`: they are as
they were. -/
structure StillToCome (all : List GatewayAttempt) (db : Db) (rest : List GatewayAttempt) : Prop where
  sub : ∀ a ∈ rest, a ∈ all
  mem : ∀ a ∈ rest, a ∈ db.attempts
  nodup : (rest.map GatewayAttempt.attemptId).Nodup

theorem StillToCome.refl {db : Db} {q : GatewayAttempt → Bool} :
    StillToCome (db.attempts.rows.filter q) db (db.attempts.rows.filter q) :=
  ⟨fun _ ha => ha, fun _ ha => (List.mem_filter.mp ha).1,
    (List.filter_sublist.map _).nodup db.attempts.keyed⟩

theorem StillToCome.not_mem {all rest : List GatewayAttempt} {db : Db}
    (h : StillToCome all db (a :: rest)) : a ∉ rest :=
  fun ha => (List.nodup_cons.mp h.nodup).1 (List.mem_map_of_mem ha)

theorem StillToCome.step {all rest : List GatewayAttempt} {db db₁ db' : Db}
    {s : Settlement} {t : TerminalState} (h : StillToCome all db (a :: rest))
    (hset : Settles db a s db₁) (hcl : Closes db₁ r t db') : StillToCome all db' rest := by
  obtain ⟨hne, hnd⟩ := List.nodup_cons.mp h.nodup
  refine ⟨fun b hb => h.sub b (List.mem_cons_of_mem _ hb), ?_, hnd⟩
  intro b hb
  rw [hcl.attempts]
  refine hset.attempts.mem_iff.mpr (.inr ⟨h.mem b (List.mem_cons_of_mem _ hb), ?_⟩)
  exact fun he => hne (he ▸ List.mem_map_of_mem hb)

theorem Expires.step {db : Db} {now : Int} {acc acc' : Db × Nat}
    (hacc : Expires db acc.1) (h : expireRequest now acc r = .ok acc') : Expires db acc'.1 := by
  rcases expireRequest_eq_ok h with ⟨q, hq, hopen, hnone, hcl⟩ | ⟨hsame, -⟩
  · have hat : ∀ id, acc.1.hasAttempt id = db.hasAttempt id := by
      intro id
      unfold Db.hasAttempt
      rw [hacc.attempts]
    obtain ⟨-, hqid⟩ := Table.find?_eq_some.mp hq
    refine ⟨hcl.config.trans hacc.config, hcl.organizations.trans hacc.organizations,
      hcl.attempts.trans hacc.attempts, ?_, fun id hid => hcl.requests_absent (hacc.absent id hid), ?_⟩
    · intro id x hx
      obtain ⟨x', hx', hrel⟩ := hacc.requests id x hx
      obtain ⟨x'', hx'', hrel'⟩ := hcl.requests_find? id x' hx'
      refine ⟨x'', hx'', ?_⟩
      rcases hrel' with ⟨rfl, -⟩ | ⟨rfl, -, hends⟩
      · exact hrel
      · rcases hrel with rfl | ⟨-, -, t, c, m, rfl⟩
        · refine .inr ⟨hopen, ?_, hends⟩
          rw [← hat, ← hnone]
          congr 1
          exact (Table.find?_eq_some.mp hx').2.symm.trans hqid
        · cases hopen
    · intro id hid
      rw [hcl.usageEvents_find?, hacc.events id hid]
      rintro rfl
      rw [← hat, hqid, hnone] at hid
      cases hid
  · rw [hsame]
    exact hacc

/-- The first loop closes requests without attempts and does nothing else. -/
theorem expireLoop_expires {db : Db} {now : Int} {rs : List GatewayRequest} {acc : Db × Nat}
    (h : rs.foldlM (expireRequest now) (db, 0) = .ok acc) : Expires db acc.1 :=
  foldlM_invariant (I := fun acc => Expires db acc.1) (fun _ _ _ hstep hacc => hacc.step hstep)
    rs (db, 0) acc h (.refl db)

/-- The first loop does not change which attempts are crashed. -/
theorem Expires.crashed (h : Expires db db') {grace now : Int}
    (ha : a ∈ db.attempts) : db'.crashed grace now a = db.crashed grace now a := by
  obtain ⟨r, hr⟩ := db.request_of_attempt ha
  obtain ⟨r', hr', hrel⟩ := h.requests _ r hr
  unfold Db.crashed
  rw [hr, hr']
  rcases hrel with rfl | ⟨-, -, t, c, m, rfl⟩
  · rfl
  · rfl

end Experiential.Gateway
