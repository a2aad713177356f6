import Experiential.Gateway.System

/-! # Deadlines and the reconciler

The reconciler is meant to leave no request open past its deadline and grace. Its first loop
takes the requests that never dispatched, its second the attempts that are still dispatched; an
open request whose attempts are all settled is in neither (`Covered`).
`reconcile_leaves_none_iff` says that this is the only gap, for every state and every clock
reading; `request_left_open` is a run that falls into it. -/

namespace Experiential.Gateway

/-- No request past its deadline and grace is open, or has a dispatched attempt. -/
def NoneStuck (db : Db) (graceSeconds now : Int) : Prop :=
  ∀ r ∈ db.requests, r.deadlineAt + graceSeconds * usPerSecond < now →
    r.terminalState ≠ none ∧ ∀ a ∈ db.attempts, a.requestId = r.requestId → a.state ≠ .dispatched

/-- Every open request past its deadline and grace has no attempts, or a dispatched one. -/
def Covered (db : Db) (graceSeconds now : Int) : Prop :=
  ∀ r ∈ db.requests, r.deadlineAt + graceSeconds * usPerSecond < now → r.terminalState = none →
    db.hasAttempt r.requestId = false ∨
      ∃ a ∈ db.attempts, a.requestId = r.requestId ∧ a.state = .dispatched

/-- The request is terminal. -/
def Db.Ended (db : Db) (requestId : String) : Prop :=
  ∃ r, db.requests.find? requestId = some r ∧ r.terminalState ≠ none

theorem SameRequests.ended {db db' : Db} (h : SameRequests db db') {id : String} (hid : db.Ended id) :
    db'.Ended id := by
  obtain ⟨r, hr, hne⟩ := hid
  obtain ⟨r', hr', hl⟩ := h.later id r hr
  exact ⟨r', hr', hl.ended hne⟩

/-! ### The first loop -/

variable {r : GatewayRequest}

/-- The invariant of the first loop: what it has passed is closed. -/
theorem expireLoop_ended {db : Db} {now : Int} {acc : Db × Nat}
    (h : (db.requests.rows.filter (db.expirable now)).foldlM (expireRequest now) (db, 0) = .ok acc)
    (hr : r ∈ db.requests) (he : db.expirable now r = true) :
    acc.1.Ended r.requestId := by
  have hI := foldlM_rec
    (I := fun acc rest => Expires db acc.1 ∧ (∀ q ∈ rest, db.expirable now q = true) ∧
      ∀ q ∈ db.requests.rows.filter (db.expirable now), q ∈ rest ∨ acc.1.Ended q.requestId)
    ?_ _ (db, 0) h ⟨.refl db, fun q hq => (List.mem_filter.mp hq).2, fun q hq => .inl hq⟩
  · exact (hI.2.2 r (List.mem_filter.mpr ⟨hr, he⟩)).resolve_left (by simp)
  · rintro acc q rest acc' hstep ⟨hexp, hrest, hpassed⟩
    refine ⟨hexp.step hstep, fun x hx => hrest x (List.mem_cons_of_mem _ hx), fun x hx => ?_⟩
    have hq := hrest q List.mem_cons_self
    simp only [Db.expirable, Bool.and_eq_true, Bool.not_eq_true'] at hq
    rcases expireRequest_eq_ok hstep with ⟨y, hy, -, -, hcl⟩ | ⟨hsame, hopen⟩
    · rcases hpassed x hx with hmem | hend
      · rcases List.mem_cons.mp hmem with rfl | hmem
        · right
          rw [← (Table.find?_eq_some.mp hy).2]
          exact hcl.terminal
        · exact .inl hmem
      · exact .inr (hcl.sameRequests.ended hend)
    · rw [hsame]
      rcases hpassed x hx with hmem | hend
      · rcases List.mem_cons.mp hmem with rfl | hmem
        · -- The statement found the request closed already: it has no attempts.
          obtain ⟨y, hy, -⟩ := hexp.requests _ x (Table.find?_key (List.mem_filter.mp hx).1)
          refine .inr ⟨y, hy, fun hnone => ?_⟩
          have hat := hopen y hy hnone
          unfold Db.hasAttempt at hat hq
          rw [hexp.attempts, hq.2] at hat
          cases hat
        · exact .inl hmem
      · exact .inr hend

/-! ### The second loop -/

/-- The invariant of the second loop, begun in `db` with the attempts `all`: what it has passed is
settled and closed, and it touches no request but theirs. -/
structure CrashPassed (db : Db) (all : List GatewayAttempt) (db' : Db) (rest : List GatewayAttempt) :
    Prop extends StillToCome all db' rest where
  ended : ∀ a ∈ all, a ∈ rest ∨ db'.Ended a.requestId
  dispatched : ∀ a ∈ db'.attempts, a.state = .dispatched → a ∈ db.attempts ∧ (a ∈ all → a ∈ rest)
  untouched : ∀ id, (∀ a ∈ all, a.requestId ≠ id) → db'.requests.find? id = db.requests.find? id
  same : SameRequests db db'

theorem CrashPassed.step {db : Db} {all : List GatewayAttempt} {now : Int} {acc acc' : Db × Nat}
    {a : GatewayAttempt} {rest : List GatewayAttempt} (hI : CrashPassed db all acc.1 (a :: rest))
    (h : crashAttempt now acc a = .ok acc') (hd : a.state = .dispatched) :
    CrashPassed db all acc'.1 rest := by
  obtain ⟨db₁, r, hset, hr, hcl⟩ := crashAttempt_eq_ok h (hI.mem a List.mem_cons_self) hd
  obtain ⟨-, hrid⟩ := Table.find?_eq_some.mp hr
  have hreq : db₁.requests = acc.1.requests := hset.requests
  have hsame : SameRequests acc.1 acc'.1 := (SameRequests.of_eq hreq).trans hcl.sameRequests
  refine ⟨hI.toStillToCome.step hset hcl, ?_, ?_, ?_, hI.same.trans hsame⟩
  · intro b hb
    rcases hI.ended b hb with hmem | hend
    · rcases List.mem_cons.mp hmem with rfl | hmem
      · right
        rw [← hrid]
        exact hcl.terminal
      · exact .inl hmem
    · exact .inr (hsame.ended hend)
  · intro b hb hbd
    rw [hcl.attempts] at hb
    rcases hset.attempts.mem_iff.mp hb with rfl | ⟨hb, hne⟩
    · exact absurd hbd (Settlement.terminal _)
    · obtain ⟨hmem, hrest⟩ := hI.dispatched b hb hbd
      refine ⟨hmem, fun hall => ?_⟩
      rcases List.mem_cons.mp (hrest hall) with rfl | hmem'
      · exact absurd rfl hne
      · exact hmem'
  · intro id hid
    rw [← hI.untouched id hid, ← hreq]
    have hne : r.requestId ≠ id := hrid ▸ hid a (hI.sub a List.mem_cons_self)
    rcases hcl.requests with ⟨-, r', -, hrep⟩ | ⟨-, hsame⟩
    · rw [hrep.find?, if_neg hne]
    · rw [hsame]

theorem crashLoop_passed {db : Db} {grace now : Int} {acc : Db × Nat}
    (h : (db.attempts.rows.filter (db.crashed grace now)).foldlM (crashAttempt now) (db, 0) = .ok acc) :
    CrashPassed db (db.attempts.rows.filter (db.crashed grace now)) acc.1 [] := by
  refine foldlM_rec (I := fun acc rest => CrashPassed db _ acc.1 rest) ?_ _ (db, 0) h
    ⟨.refl, fun _ ha => .inl ha, fun a ha _ => ⟨ha, fun hall => hall⟩, fun _ _ => rfl, .of_eq rfl⟩
  intro acc a rest acc' hstep hI
  have hc := (List.mem_filter.mp (hI.sub a List.mem_cons_self)).2
  simp only [Db.crashed, Bool.and_eq_true, decide_eq_true_eq] at hc
  exact hI.step hstep hc.1

/-! ### The whole pass -/

/-- A dispatched attempt of a request past its deadline and grace is crashed. -/
theorem crashed_of_due {db : Db} {grace now : Int} {a : GatewayAttempt}
    (hd : a.state = .dispatched) (hr : db.requests.find? a.requestId = some r)
    (hdue : r.deadlineAt + grace * usPerSecond < now) : db.crashed grace now a = true := by
  simp only [Db.crashed, hr, hd, decide_true, Bool.true_and, Option.any_some, decide_eq_true_eq]
  omega

/-- What a pass of the reconciler does, by way of the state `db₁` between its loops. -/
structure Reconciled (db db₁ db' : Db) (grace now : Int) : Prop where
  nonneg : 0 ≤ grace
  expires : Expires db db₁
  expired : ∀ r ∈ db.requests, db.expirable now r = true → db₁.Ended r.requestId
  passed : CrashPassed db₁ (db₁.attempts.rows.filter (db₁.crashed grace now)) db' []

theorem reconciled_of_ok {db db' : Db} {grace now : Int} {n m : Nat}
    (h : reconcileCrashed db (some grace) now = .ok (db', n, m)) :
    ∃ db₁, Reconciled db db₁ db' grace now := by
  obtain ⟨g, db₁, hg, hnonneg, h1, h2⟩ := reconcileCrashed_eq_ok h
  cases hg
  exact ⟨db₁, hnonneg, expireLoop_expires h1, fun r hr he => expireLoop_ended h1 hr he,
    crashLoop_passed h2⟩

namespace Reconciled
variable {db db₁ db' : Db} {grace now : Int}

theorem same (h : Reconciled db db₁ db' grace now) : SameRequests db db' :=
  h.expires.sameRequests.trans h.passed.same

/-- The first loop ends an open request past its deadline that has no attempts. -/
theorem ended_of_absent (h : Reconciled db db₁ db' grace now) (hr : r ∈ db.requests) (hopen : r.terminalState = none)
    (hdue : r.deadlineAt + grace * usPerSecond < now) (hnone : db.hasAttempt r.requestId = false) :
    db'.Ended r.requestId := by
  refine h.passed.same.ended (h.expired r hr ?_)
  have hgrace : 0 ≤ grace * usPerSecond := mul_nonneg h.nonneg (by decide)
  have hdead : r.deadlineAt ≤ now := by omega
  simp [Db.expirable, hopen, hnone, hdead]

/-- The second loop ends the request of a dispatched attempt past its deadline and grace. -/
theorem ended_of_dispatched (h : Reconciled db db₁ db' grace now)
    (hr : r ∈ db.requests) (hdue : r.deadlineAt + grace * usPerSecond < now) {a : GatewayAttempt}
    (ha : a ∈ db.attempts) (haid : a.requestId = r.requestId) (hd : a.state = .dispatched) :
    db'.Ended r.requestId := by
  have hc : db₁.crashed grace now a = true := by
    rw [h.expires.crashed ha]
    exact crashed_of_due hd (haid ▸ Table.find?_key hr) hdue
  have ha₁ : a ∈ db₁.attempts := h.expires.attempts.symm ▸ ha
  rw [← haid]
  exact (h.passed.ended a (List.mem_filter.mpr ⟨ha₁, hc⟩)).resolve_left (by simp)

/-- No dispatched attempt is left past its deadline and grace. -/
theorem not_dispatched (h : Reconciled db db₁ db' grace now)
    (hr : r ∈ db'.requests) (hdue : r.deadlineAt + grace * usPerSecond < now) {a : GatewayAttempt}
    (ha : a ∈ db'.attempts) (haid : a.requestId = r.requestId) : a.state ≠ .dispatched := by
  intro hd
  obtain ⟨ha₁, hrest⟩ := h.passed.dispatched a ha hd
  obtain ⟨r₁, hr₁, hl⟩ := h.passed.same.earlier hr
  obtain ⟨hid, -, hdead⟩ := hl.frozen
  rw [hdead] at hdue
  have hfind : db₁.requests.find? a.requestId = some r₁ := by
    rw [haid, hid]
    exact Table.find?_key hr₁
  exact absurd (hrest (List.mem_filter.mpr ⟨ha₁, crashed_of_due hd hfind hdue⟩)) (by simp)

/-- Neither loop touches a request that has attempts and none of them dispatched. -/
theorem kept (h : Reconciled db db₁ db' grace now) (hr : r ∈ db.requests) (hsome : db.hasAttempt r.requestId = true)
    (hnone : ∀ a ∈ db.attempts, a.requestId = r.requestId → a.state ≠ .dispatched) :
    r ∈ db'.requests := by
  obtain ⟨r₁, hr₁, rfl | ⟨-, hat, -⟩⟩ := h.expires.requests _ r (Table.find?_key hr)
  · refine (Table.find?_eq_some.mp ((h.passed.untouched r₁.requestId ?_).trans hr₁)).1
    intro a ha hid
    obtain ⟨hmem, hc⟩ := List.mem_filter.mp ha
    simp only [Db.crashed, Bool.and_eq_true, decide_eq_true_eq] at hc
    exact hnone a (h.expires.attempts ▸ hmem) hid hc.1
  · rw [hsome] at hat
    cases hat

end Reconciled

/-- **The reconciler leaves no request stuck exactly when every open one past its deadline is
covered** by one of its two loops. -/
theorem reconcile_leaves_none_iff {db db' : Db} {graceSeconds now : Int} {n m : Nat}
    (h : reconcileCrashed db (some graceSeconds) now = .ok (db', n, m)) :
    NoneStuck db' graceSeconds now ↔ Covered db graceSeconds now := by
  obtain ⟨db₁, hrec⟩ := reconciled_of_ok h
  constructor
  · intro hclean r hr hdue hopen
    by_contra hnot
    obtain ⟨hsome, hnone⟩ := not_or.mp hnot
    -- No loop touches the request, so it is still there and open.
    have hkept := hrec.kept hr (by simpa using hsome) fun a ha hid hd => hnone ⟨a, ha, hid, hd⟩
    exact (hclean r hkept hdue).1 hopen
  · intro hcov r' hr' hdue
    refine ⟨fun hopen => ?_, fun a ha haid => hrec.not_dispatched hr' hdue ha haid⟩
    -- An open request was open before the pass, and one of the loops takes it.
    obtain ⟨r, hr, rfl | ⟨-, s, t, c, e, rfl⟩⟩ := hrec.same.earlier hr'
    · obtain ⟨x, hx, hne⟩ : db'.Ended r'.requestId := by
        rcases hcov r' hr hdue hopen with hnone | ⟨a, ha, haid, hd⟩
        · exact hrec.ended_of_absent hr hopen hdue hnone
        · exact hrec.ended_of_dispatched hr hdue ha haid hd
      rw [Table.find?_key hr'] at hx
      cases hx
      exact hne hopen
    · cases hopen

/-- A request with a dispatched attempt and one that never dispatched. -/
def abandonedRun : List (GatewayCall × Env) :=
  [(GatewayCall.accept (sampleAccept "r1" none 1000)).atTime 0 "",
    (GatewayCall.accept (sampleAccept "r2" none 1000)).atTime 1 "",
    (GatewayCall.start (sampleStart "r1" 0 .hostManaged 5000000)).atTime 2 "a1"]

theorem reconcile_leaves_none_iff_sample : ∃ db',
    reconcileCrashed (run callStep sampleDb abandonedRun) (some 30) 40000000 = .ok (db', 1, 1) ∧
    (NoneStuck db' 30 40000000 ↔ Covered (run callStep sampleDb abandonedRun) 30 40000000) :=
  have h : ∃ db', reconcileCrashed (run callStep sampleDb abandonedRun) (some 30) 40000000
      = .ok (db', 1, 1) := ⟨_, by rfl⟩
  h.imp fun _ h => ⟨h, reconcile_leaves_none_iff h⟩

/-- The only attempt of the request failed, and nobody finished the request. -/
def failedRun : List (GatewayCall × Env) :=
  [(GatewayCall.accept (sampleAccept "r1" none 1000)).atTime 0 "",
    (GatewayCall.start (sampleStart "r1" 0 .hostManaged 5000000)).atTime 1 "a1",
    (GatewayCall.settle (sampleSettle "a1" .failed 0 false)).atTime 2 ""]

/-- The reconciler succeeds, changes nothing and leaves the request open. -/
theorem request_left_open :
    reconcileCrashed (run callStep sampleDb failedRun) (some 30) 40000000
      = .ok (run callStep sampleDb failedRun, 0, 0) ∧
    ¬ NoneStuck (run callStep sampleDb failedRun) 30 40000000 := by
  refine ⟨by rfl, fun h => ?_⟩
  have hopen : ∃ r ∈ (run callStep sampleDb failedRun).requests.rows,
      r.deadlineAt + 30 * usPerSecond < 40000000 ∧ r.terminalState = none := by decide
  obtain ⟨r, hr, hdue, hnone⟩ := hopen
  exact (h r hr hdue).1 hnone

end Experiential.Gateway
