import Experiential.Gateway.LockOrder

/-! # Tenants side by side

All organizations share the tables. What is recorded for one of them changes by calls made in its name, by settlements
of its own attempts and by a reconciler that finds something of it lapsed, and by nothing else (`tenants_isolated`).
Rows only move forward: none is lost, none is rewritten once it has ended (`ledger_append_only`). -/

namespace Experiential.Gateway

variable {o : Nat} {db db' : Db}

/-! ### What stays -/

/-- What is recorded for the organization in `db'` is what was in `db`. -/
structure Untouched (o : Nat) (db db' : Db) : Prop where
  requests : ∀ r, r.orgId = o → (r ∈ db'.requests ↔ r ∈ db.requests)
  attempts : ∀ a, a.orgId = o → (a ∈ db'.attempts ↔ a ∈ db.attempts)
  usageEvents : ∀ r ∈ db.requests, r.orgId = o →
    db'.usageEvents.find? r.requestId = db.usageEvents.find? r.requestId
  organization : db'.organizations.find? o = db.organizations.find? o

/-- The call is another organization's, or a reconciler's that finds nothing of this one. -/
def Foreign (o : Nat) (db : Db) (call : GatewayCall × Env) : Prop :=
  match call.1 with
  | .accept p => p.orgId ≠ o
  | .start p => p.orgId ≠ o
  | .acceptAndStart p => p.orgId ≠ o
  -- A settlement names its attempt only.
  | .settle p => ∀ a ∈ db.attempts, a.attemptId = p.attemptId → a.orgId ≠ o
  | .finish p => p.orgId ≠ o
  | .reconcile graceSeconds =>
      (∀ r ∈ db.requests, r.orgId = o → db.expirable call.2.now r = false) ∧
        ∀ g ∈ graceSeconds, ∀ a ∈ db.attempts, a.orgId = o → db.crashed g call.2.now a = false

theorem Untouched.refl (db : Db) : Untouched o db db := ⟨fun _ _ => .rfl, fun _ _ => .rfl, fun _ _ _ => rfl, rfl⟩

theorem Untouched.trans {db₁ db₂ db₃ : Db} (h : Untouched o db₁ db₂) (h' : Untouched o db₂ db₃) :
    Untouched o db₁ db₃ where
  requests r hr := (h'.requests r hr).trans (h.requests r hr)
  attempts a ha := (h'.attempts a ha).trans (h.attempts a ha)
  usageEvents r hmem hr :=
    (h'.usageEvents r ((h.requests r hr).mpr hmem) hr).trans (h.usageEvents r hmem hr)
  organization := h'.organization.trans h.organization

theorem Closes.untouched {r : GatewayRequest} {s : TerminalState} (h : Closes db r s db') (hne : r.orgId ≠ o) :
    Untouched o db db' where
  requests q hq := by
    rcases h.requests with ⟨-, r', ⟨t, c, m, rfl⟩, hrep⟩ | ⟨-, hsame⟩
    · exact hrep.mem_iff_of_not (P := fun x => x.orgId = o) hne hne hq
    · rw [hsame]
  attempts a _ := by rw [h.attempts]
  usageEvents q hmem hq := by
    refine h.usageEvents_find? fun hid => ?_
    obtain rfl := db.requests.eq_of_key_eq hmem h.mem hid
    exact hne hq
  organization := by rw [h.organizations]

theorem Settles.untouched {a : GatewayAttempt} {s : Settlement} (h : Settles db a s db') (hne : a.orgId ≠ o) :
    Untouched o db db' where
  requests r _ := by rw [h.requests]
  attempts b hb := h.attempts.mem_iff_of_not (P := fun x => x.orgId = o) hne hne hb
  usageEvents r _ _ := by rw [h.usageEvents]
  organization := by
    obtain ⟨n, hfind⟩ := h.organizations.find?
    rw [hfind]
    exact Table.map_find?_eq_self fun x hx => if_neg fun hid => hne (hid.symm.trans hx)

theorem ClosesIf.untouched {finalize : Bool} {requestId : String} {s : TerminalState}
    (h : ClosesIf finalize db requestId s db') (hne : ∀ r ∈ db.requests, r.requestId = requestId → r.orgId ≠ o) :
    Untouched o db db' := by
  rcases h with ⟨-, rfl⟩ | ⟨-, r, hr, hcl⟩
  · exact .refl _
  · obtain ⟨hmem, hid⟩ := Table.find?_eq_some.mp hr
    exact hcl.untouched (hne r hmem hid)

/-! ### Calls -/

theorem acceptRequest_untouched {p : AcceptArgs} {now : Int} (h : acceptRequest db p now = .ok db')
    (hne : p.orgId ≠ o) : Untouched o db db' := by
  rcases acceptRequest_eq_ok h with ⟨rfl, -⟩ | ⟨d, -, -, -, hins⟩
  · exact .refl _
  · obtain ⟨t, hfk, ht, rfl⟩ := Db.insertRequest_eq_ok hins
    refine ⟨fun r hr => (Table.mem_insert ht).trans (or_iff_right ?_), fun _ _ => .rfl, fun _ _ _ => rfl, rfl⟩
    rintro rfl
    exact hne hr

theorem startAttempt_untouched {p : StartArgs} {c : StartClock} {id id' : String}
    (h : startAttempt db p c id = .ok (db', id')) (hne : p.orgId ≠ o) : Untouched o db db' := by
  rcases startAttempt_eq_ok h with ⟨rfl, -⟩ | ⟨r, f, -, -, hins⟩
  · exact .refl _
  · obtain ⟨t, hfk, ht, rfl⟩ := Db.insertAttempt_eq_ok hins
    refine ⟨fun _ _ => .rfl, fun a ha => (Table.mem_insert ht).trans (or_iff_right ?_), fun _ _ _ => rfl, rfl⟩
    rintro rfl
    exact hne ha

theorem settleAttempt_untouched {p : SettleArgs} {now : Int} (h : settleAttempt db p now = .ok db')
    (hdb : db.AttemptsOfOrg) (hne : ∀ a ∈ db.attempts, a.attemptId = p.attemptId → a.orgId ≠ o) :
    Untouched o db db' := by
  obtain ⟨_, _, a, -, -, ha, hcase⟩ := settleAttempt_eq_ok h
  obtain ⟨hmem, hid⟩ := Table.find?_eq_some.mp ha
  have horg := hne a hmem hid
  have hrequest : ∀ r ∈ db.requests, r.requestId = a.requestId → r.orgId ≠ o :=
    fun r hr hrid hro => horg ((hdb a hmem r hr hrid).symm.trans hro)
  rcases hcase with ⟨s, db₁, -, hset, hcl⟩ | ⟨-, -, hcl⟩
  · refine (hset.untouched horg).trans (hcl.untouched fun r hr => ?_)
    rw [hset.requests] at hr
    exact hrequest r hr
  · exact hcl.untouched hrequest

theorem finishRequest_untouched {p : FinishArgs} {now : Int} (h : finishRequest db p now = .ok db')
    (hne : p.orgId ≠ o) : Untouched o db db' := by
  -- The call is made in the name of the organization of its request.
  have howner : ∀ r, db.requests.find? p.requestId = some r → r.orgId = p.orgId := by
    intro r hr
    simp only [finishRequest, bind_eq_ok, require_eq_ok, ensure_eq_ok] at h
    obtain ⟨s, -, _, -, _, -, q, hq, _, horg, -⟩ := h
    cases hr.symm.trans hq
    exact horg
  rcases finishRequest_eq_ok h with ⟨rfl, -⟩ | ⟨r, s, -, hr, -, hcl⟩
  · exact .refl _
  · refine hcl.untouched ?_
    rw [howner r hr]
    exact hne

theorem reconcileCrashed_untouched {graceSeconds : Option Int} {now : Int} {n m : Nat}
    (h : reconcileCrashed db graceSeconds now = .ok (db', n, m)) (hdb : db.AttemptsOfOrg)
    (hopen : ∀ r ∈ db.requests, r.orgId = o → db.expirable now r = false)
    (halive : ∀ g ∈ graceSeconds, ∀ a ∈ db.attempts, a.orgId = o → db.crashed g now a = false) :
    Untouched o db db' := by
  obtain ⟨grace, db₁, rfl, -, h₁, h₂⟩ := reconcileCrashed_eq_ok h
  have hexp : Expires db db₁ := expireLoop_expires h₁
  have hfirst : Untouched o db db₁ := by
    refine (foldlM_rec (I := fun acc rest => Untouched o db acc.1 ∧
      ∀ r ∈ rest, r ∈ db.requests.rows.filter (db.expirable now)) ?_ _ _ h₁ ⟨.refl _, fun _ hr => hr⟩).1
    rintro acc r rest acc' hstep ⟨hacc, hrest⟩
    refine ⟨?_, fun q hq => hrest q (List.mem_cons_of_mem _ hq)⟩
    rcases expireRequest_eq_ok hstep with ⟨q, hq, -, -, hcl⟩ | ⟨hsame, -⟩
    · -- A request of the organization would be the one that was to expire.
      refine hacc.trans (hcl.untouched fun horg => ?_)
      obtain ⟨hmem, hid⟩ := Table.find?_eq_some.mp hq
      obtain ⟨hr, hexpirable⟩ := List.mem_filter.mp (hrest r List.mem_cons_self)
      obtain rfl := db.requests.eq_of_key_eq ((hacc.requests q horg).mp hmem) hr hid
      rw [hopen q hr horg] at hexpirable
      cases hexpirable
    · rw [hsame]
      exact hacc
  have hcrashed : ∀ a ∈ db₁.attempts.rows.filter (db₁.crashed grace now),
      a ∈ db.attempts ∧ a.state = .dispatched ∧ a.orgId ≠ o := by
    intro a ha
    obtain ⟨hmem, hc⟩ := List.mem_filter.mp ha
    have hmem' : a ∈ db.attempts := hexp.attempts ▸ hmem
    rw [hexp.crashed hmem'] at hc
    refine ⟨hmem', ?_, fun horg => ?_⟩
    · simp only [Db.crashed, Bool.and_eq_true, decide_eq_true_eq] at hc
      exact hc.1
    · rw [halive grace rfl a hmem' horg] at hc
      cases hc
  refine (foldlM_rec (I := fun acc rest => Untouched o db acc.1 ∧
    StillToCome (db₁.attempts.rows.filter (db₁.crashed grace now)) acc.1 rest) ?_ _ _ h₂ ⟨hfirst, .refl⟩).1
  rintro acc a rest acc' hstep ⟨hacc, hrest⟩
  obtain ⟨ha, hd, hne⟩ := hcrashed a (hrest.sub a List.mem_cons_self)
  obtain ⟨db₂, r, hset, hr, hcl⟩ := crashAttempt_eq_ok hstep (hrest.mem a List.mem_cons_self) hd
  refine ⟨hacc.trans ((hset.untouched hne).trans (hcl.untouched fun horg => hne ?_)), hrest.step hset hcl⟩
  obtain ⟨hmem, hid⟩ := Table.find?_eq_some.mp hr
  rw [hset.requests] at hmem
  exact (hdb a ha r ((hacc.requests r horg).mp hmem) hid).symm.trans horg

theorem execute_untouched {call : GatewayCall × Env} (h : execute db call = .ok db') (hdb : db.AttemptsOfOrg)
    (hforeign : Foreign o db call) : Untouched o db db' := by
  obtain ⟨c, e⟩ := call
  cases c with
  | accept p => exact acceptRequest_untouched h hforeign
  | start p =>
    simp only [execute, bind_eq_ok, pure_eq_ok] at h
    obtain ⟨⟨db₁, id⟩, hs, rfl⟩ := h
    exact startAttempt_untouched hs hforeign
  | acceptAndStart p =>
    simp only [execute, bind_eq_ok, pure_eq_ok] at h
    obtain ⟨db₁, ha, ⟨db₂, id⟩, hs, rfl⟩ := h
    exact (acceptRequest_untouched ha hforeign).trans (startAttempt_untouched hs hforeign)
  | settle p => exact settleAttempt_untouched h hdb hforeign
  | finish p => exact finishRequest_untouched h hforeign
  | reconcile g =>
    simp only [execute, bind_eq_ok, pure_eq_ok] at h
    obtain ⟨⟨db₁, n, m⟩, hs, rfl⟩ := h
    exact reconcileCrashed_untouched hs hdb hforeign.1 hforeign.2

/-! ### Runs -/

/-- **Isolation.**  However many calls of others come in between, everything recorded for an organization stays as it
is: its requests, its attempts, the usage of its requests and its balance. -/
theorem tenants_isolated (config : Config) (organizations : Table Organization.id Organization.Check)
    (before after : List (GatewayCall × Env)) (o : Nat)
    (h : StepsMeet callStep (Foreign o) (run callStep (.initial config organizations) before) after) :
    Untouched o (run callStep (.initial config organizations) before)
      (run callStep (.initial config organizations) (before ++ after)) := by
  rw [run_append]
  refine (run_invariant (I := fun db => Untouched o _ db ∧ db.AttemptsOfOrg) ?_ after _
    ⟨.refl _, run_attemptsOfOrg config organizations before⟩ h).1
  rintro db call hforeign ⟨huntouched, hdb⟩
  refine ⟨?_, callStep_preserves (fun _ _ => Move.attemptsOfOrg) (meets_of_forall call) hdb⟩
  exact orStay_preserves (I := Untouched o _) (fun _ hexec _ => huntouched.trans (execute_untouched hexec hdb hforeign))
    huntouched

/-- The sample installation with a key of a second organization. -/
def twoConfig : Config :=
  { sampleConfig with
    apiKeys := ⟨[⟨7, 1, "key", some "identity", none, none, none⟩, ⟨8, 2, "other", none, none, none, none⟩],
      by decide, fun _ _ => trivial⟩ }

def twoOrganizations : Table Organization.id Organization.Check :=
  ⟨[⟨1, 200000000, 0, none, none, 0⟩, ⟨2, 200000000, 0, none, none, 0⟩], by decide, by decide⟩

/-- Organization 1 has a dispatched attempt. -/
def openRun : List (GatewayCall × Env) :=
  [(GatewayCall.accept (sampleAccept "r1" none 1000)).atTime 0 "",
    (GatewayCall.start (sampleStart "r1" 0 .hostManaged 5000000)).atTime 1 "a1"]

/-- Organization 2 is served. -/
def foreignRun : List (GatewayCall × Env) :=
  [(GatewayCall.accept { sampleAccept "r2" none 1000 with orgId := 2, apiKeyId := 8 }).atTime 2 "",
    (GatewayCall.start { sampleStart "r2" 0 .hostManaged 5000000 with orgId := 2 }).atTime 3 "a2",
    (GatewayCall.settle (sampleSettle "a2" .completed 3 true)).atTime 4 ""]

def twoDb : Db := .initial twoConfig twoOrganizations

/-- Organization 2 is charged for its attempt, and nothing of organization 1 is touched. -/
theorem tenants_isolated_sample :
    ((run callStep twoDb (openRun ++ foreignRun)).organizations.find? 2).map
      (·.billableSpend) = some 3000000 ∧
    Untouched 1 (run callStep twoDb openRun)
      (run callStep twoDb (openRun ++ foreignRun)) := by
  refine ⟨by rfl, tenants_isolated twoConfig twoOrganizations openRun foreignRun 1 ⟨?_, ?_, ?_, trivial⟩⟩
  · exact Nat.succ_ne_self 1
  · exact Nat.succ_ne_self 1
  · have hown : ∀ a ∈ (run callStep twoDb (openRun ++ foreignRun.take 2)).attempts.rows,
        a.attemptId = "a2" → a.orgId ≠ 1 := by decide
    exact hown

/-! ### Edits from outside -/

section edits
variable (db : Db) (config : Config) (organizations : Table Organization.id Organization.Check)

/-- A row references a key that the edit deletes. -/
def Db.keyDeleted (apiKeyId : Option Nat) : Bool :=
  apiKeyId.any fun id => (db.config.apiKeys.find? id).isSome && (config.apiKeys.find? id).isNone

/-- A row references an organization that the edit deletes. -/
def Db.orgDeleted (orgId : Nat) : Bool :=
  (db.organizations.find? orgId).isSome && (organizations.find? orgId).isNone

/-- A row references a request that goes with its organization. -/
def Db.requestDeleted (requestId : String) : Bool :=
  (db.requests.find? requestId).any fun r => db.orgDeleted organizations r.orgId

/-- `on delete set null` of `gateway_requests.api_key_id` -/
def GatewayRequest.setNull (deleted : Option Nat → Bool) (r : GatewayRequest) : GatewayRequest :=
  { r with apiKeyId := if deleted r.apiKeyId then none else r.apiKeyId }

/-- `on delete set null` of `gateway_attempts.api_key_id` -/
def GatewayAttempt.setNull (deleted : Option Nat → Bool) (a : GatewayAttempt) : GatewayAttempt :=
  { a with apiKeyId := if deleted a.apiKeyId then none else a.apiKeyId }

theorem GatewayAttempt.check_setNull {deleted : Option Nat → Bool} (a : GatewayAttempt) (h : a.Check) :
    (a.setNull deleted).Check := by
  cases h
  constructor <;> assumption

/-- An edit of configuration and organizations from outside the gateway. What belongs to an organization that it
deletes goes with it (`on delete cascade`); of a key that it deletes the ledger's rows are kept. -/
def Db.administer : Db where
  config := config
  organizations := organizations
  requests := (db.requests.delete fun r => db.orgDeleted organizations r.orgId).mapRows
    (GatewayRequest.setNull (db.keyDeleted config)) (fun _ => rfl) fun _ h => h
  attempts := (db.attempts.delete fun a =>
      db.orgDeleted organizations a.orgId || db.requestDeleted organizations a.requestId).mapRows
    (GatewayAttempt.setNull (db.keyDeleted config)) (fun _ => rfl) GatewayAttempt.check_setNull
  usageEvents := db.usageEvents.delete fun e =>
    db.orgDeleted organizations e.orgId || db.requestDeleted organizations e.requestId
  usageDaily := db.usageDaily.delete fun d => db.orgDeleted organizations d.orgId
  attempts_request := by
    intro a' ha'
    obtain ⟨a, ha, rfl⟩ := (Table.mem_mapRows ..).mp ha'
    obtain ⟨ha, hkept⟩ := Table.mem_delete.mp ha
    obtain ⟨r, hr, hid⟩ := db.attempts_request a ha
    refine ⟨r.setNull (db.keyDeleted config), List.mem_map_of_mem (Table.mem_delete.mpr ⟨hr, ?_⟩), hid⟩
    simp only [Bool.or_eq_false_iff, Db.requestDeleted, ← hid, Table.find?_key hr] at hkept
    exact hkept.2

theorem Db.mem_administer_requests {r : GatewayRequest} (hr : r ∈ db.requests)
    (h : db.orgDeleted organizations r.orgId = false) :
    r.setNull (db.keyDeleted config) ∈ (db.administer config organizations).requests :=
  List.mem_map_of_mem (Table.mem_delete.mpr ⟨hr, h⟩)

theorem Db.mem_administer_attempts {a : GatewayAttempt} (ha : a ∈ db.attempts)
    (h : db.orgDeleted organizations a.orgId = false) (hr : db.requestDeleted organizations a.requestId = false) :
    a.setNull (db.keyDeleted config) ∈ (db.administer config organizations).attempts :=
  List.mem_map_of_mem (Table.mem_delete.mpr ⟨ha, Bool.or_eq_false_iff.mpr ⟨h, hr⟩⟩)

end edits

/-- The system driven by calls and by edits that cascade. -/
def ledgerStep (db : Db) : GatewayEvent → Db
  | .call c => callStep db c
  | .administer config organizations => db.administer config organizations

/-! ### The ledger -/

/-- The request is the organization's. -/
def Db.Owns (db : Db) (o : Nat) (requestId : String) : Prop :=
  ∃ r ∈ db.requests, r.requestId = requestId ∧ r.orgId = o

/-- The request has ended at most, and its key may have been forgotten. -/
def GatewayRequest.Kept (r r' : GatewayRequest) : Prop :=
  ∃ k, (k = r.apiKeyId ∨ k = none) ∧ GatewayRequest.Later { r with apiKeyId := k } r'

/-- The attempt has settled at most, and its key may have been forgotten. -/
def GatewayAttempt.Kept (a a' : GatewayAttempt) : Prop :=
  ∃ k, (k = a.apiKeyId ∨ k = none) ∧ GatewayAttempt.Later { a with apiKeyId := k } a'

/-- What `db` has recorded for the organization is in `db'`. -/
structure Db.Extends (o : Nat) (db db' : Db) : Prop where
  requests : ∀ r ∈ db.requests, r.orgId = o → ∃ r' ∈ db'.requests, r.Kept r'
  attempts : ∀ a ∈ db.attempts, a.orgId = o → db.Owns o a.requestId → ∃ a' ∈ db'.attempts, a.Kept a'
  usageEvents : ∀ e ∈ db.usageEvents, e.orgId = o → db.Owns o e.requestId → e ∈ db'.usageEvents

theorem GatewayRequest.Kept.frozen {r r' : GatewayRequest} (h : r.Kept r') :
    r'.requestId = r.requestId ∧ r'.orgId = r.orgId := by
  obtain ⟨k, -, rfl | ⟨-, s, t, c, m, rfl⟩⟩ := h <;> exact ⟨rfl, rfl⟩

theorem GatewayRequest.Kept.trans {r q x : GatewayRequest} (h : r.Kept q) (h' : q.Kept x) : r.Kept x := by
  obtain ⟨k, hk, hlater⟩ := h
  obtain ⟨k', hk', hlater'⟩ := h'
  have hkey : q.apiKeyId = k := by
    rcases hlater with rfl | ⟨-, s, t, c, m, rfl⟩ <;> rfl
  refine ⟨k', ?_, GatewayRequest.Later.trans ?_ hlater'⟩
  · rcases hk' with rfl | rfl
    · exact hkey ▸ hk
    · exact .inr rfl
  · rcases hlater with rfl | ⟨hopen, s, t, c, m, rfl⟩
    · exact .inl rfl
    · exact .inr ⟨hopen, s, t, c, m, rfl⟩

theorem GatewayAttempt.Kept.frozen {a a' : GatewayAttempt} (h : a.Kept a') :
    a'.requestId = a.requestId ∧ a'.orgId = a.orgId := by
  obtain ⟨k, -, rfl | ⟨-, s, rfl⟩⟩ := h <;> exact ⟨rfl, rfl⟩

theorem GatewayAttempt.Kept.trans {a b c : GatewayAttempt} (h : a.Kept b) (h' : b.Kept c) : a.Kept c := by
  obtain ⟨k, hk, hlater⟩ := h
  obtain ⟨k', hk', hlater'⟩ := h'
  have hkey : b.apiKeyId = k := by
    rcases hlater with rfl | ⟨-, s, rfl⟩ <;> rfl
  refine ⟨k', ?_, GatewayAttempt.Later.trans ?_ hlater'⟩
  · rcases hk' with rfl | rfl
    · exact hkey ▸ hk
    · exact .inr rfl
  · rcases hlater with rfl | ⟨hd, s, rfl⟩
    · exact .inl rfl
    · exact .inr ⟨hd, s, rfl⟩

theorem Db.Extends.owns (h : db.Extends o db') {requestId : String} (hown : db.Owns o requestId) :
    db'.Owns o requestId := by
  obtain ⟨r, hr, rfl, horg⟩ := hown
  obtain ⟨r', hr', hkept⟩ := h.requests r hr horg
  exact ⟨r', hr', hkept.frozen.1, hkept.frozen.2.trans horg⟩

theorem Db.Extends.refl (db : Db) : db.Extends o db :=
  ⟨fun r hr _ => ⟨r, hr, _, .inl rfl, .inl rfl⟩, fun a ha _ _ => ⟨a, ha, _, .inl rfl, .inl rfl⟩,
    fun _ he _ _ => he⟩

theorem Db.Extends.trans {db₁ db₂ db₃ : Db} (h : db₁.Extends o db₂) (h' : db₂.Extends o db₃) : db₁.Extends o db₃ where
  requests r hr horg := by
    obtain ⟨q, hq, hkept⟩ := h.requests r hr horg
    obtain ⟨x, hx, hkept'⟩ := h'.requests q hq (hkept.frozen.2.trans horg)
    exact ⟨x, hx, hkept.trans hkept'⟩
  attempts a ha horg hown := by
    obtain ⟨b, hb, hkept⟩ := h.attempts a ha horg hown
    obtain ⟨c, hc, hkept'⟩ := h'.attempts b hb (hkept.frozen.2.trans horg) (hkept.frozen.1 ▸ h.owns hown)
    exact ⟨c, hc, hkept.trans hkept'⟩
  usageEvents e he horg hown := h'.usageEvents e (h.usageEvents e he horg hown) horg (h.owns hown)

theorem Move.extends {T : Terms} (h : Move T db db') : db.Extends o db' := by
  refine ⟨fun r hr _ => ?_, fun a ha _ _ => ?_, fun e he _ _ => ?_⟩
  · obtain ⟨r', hr', hlater⟩ := h.requests_find? (Table.find?_key hr)
    exact ⟨r', (Table.find?_eq_some.mp hr').1, _, .inl rfl, hlater⟩
  · obtain ⟨a', ha', hlater⟩ := h.attempts_later ha
    exact ⟨a', ha', _, .inl rfl, hlater⟩
  · cases h with
    | accept p d now hT hfresh hgate h =>
      obtain ⟨t, hfk, -, rfl⟩ := Db.insertRequest_eq_ok h
      exact he
    | reserve p r c f id hT hr hf h =>
      obtain ⟨t, hfk, -, rfl⟩ := Db.insertAttempt_eq_ok h
      exact he
    | settle p outcome u now a s hs hT h | crash a now hT h => exact h.usageEvents ▸ he
    | close r s h =>
      rcases h.event with ⟨-, hsame⟩ | ⟨-, _, -, -, -, hins⟩
      · exact hsame ▸ he
      · exact (Table.mem_insert hins).mpr (.inr he)

/-- An edit that keeps the organization cascades to nothing of it. -/
theorem Db.administer_extends {config : Config} {organizations : Table Organization.id Organization.Check}
    (h : db.orgDeleted organizations o = false) : db.Extends o (db.administer config organizations) := by
  have hnull : ∀ k, (if db.keyDeleted config k then none else k) = k ∨
      (if db.keyDeleted config k then none else k) = none := by
    intro k
    split_ifs
    · exact .inr rfl
    · exact .inl rfl
  have hstays : ∀ requestId, db.Owns o requestId → db.requestDeleted organizations requestId = false := by
    rintro _ ⟨r, hr, rfl, horg⟩
    rw [Db.requestDeleted, Table.find?_key hr, Option.any_some, horg]
    exact h
  refine ⟨fun r hr horg => ?_, fun a ha horg hown => ?_, fun e he horg hown => ?_⟩
  · exact ⟨_, db.mem_administer_requests config organizations hr (horg ▸ h), _, hnull _, .inl rfl⟩
  · exact ⟨_, db.mem_administer_attempts config organizations ha (horg ▸ h) (hstays _ hown), _, hnull _, .inl rfl⟩
  · exact Table.mem_delete.mpr ⟨he, Bool.or_eq_false_iff.mpr ⟨horg ▸ h, hstays _ hown⟩⟩

/-- An edit keeps the organization. -/
def KeepsOrg (o : Nat) (db : Db) : GatewayEvent → Prop
  | .call _ => True
  | .administer _ organizations => db.orgDeleted organizations o = false

/-- **The ledger is append-only.**  In every run of calls and of edits from outside, whatever is recorded for an
organization that is not deleted stays: a request keeps what it was accepted with and ends once, an attempt settles
once, a usage event is never corrected. Of a deleted key only the reference goes. -/
theorem ledger_append_only (db : Db) (events : List GatewayEvent) (o : Nat)
    (h : StepsMeet ledgerStep (KeepsOrg o) db events) : db.Extends o (run ledgerStep db events) := by
  refine run_invariant (I := db.Extends o) (fun s event hkeeps hs => ?_) events db (.refl db) h
  cases event with
  | call c => exact callStep_preserves (fun _ _ hmove h => h.trans hmove.extends) (meets_of_forall c) hs
  | administer config organizations => exact hs.trans (Db.administer_extends hkeeps)

/-- The key of the attempt and the other organization are deleted, and then the attempt settles. -/
def cascadingRun : List GatewayEvent :=
  [.administer { sampleConfig with apiKeys := .empty } sampleOrganizations,
    .call ((GatewayCall.settle (sampleSettle "a1" .completed 3 true)).atTime 5 "")]

theorem ledger_append_only_sample :
    (run ledgerStep (run callStep twoDb (openRun ++ foreignRun)) cascadingRun).attempts.rows.map
      (fun a => (a.attemptId, a.apiKeyId, a.state)) = [("a1", none, .completed)] ∧
    Db.Extends 1 (run callStep twoDb (openRun ++ foreignRun))
      (run ledgerStep (run callStep twoDb (openRun ++ foreignRun)) cascadingRun) := by
  refine ⟨by rfl, ledger_append_only _ cascadingRun 1 ⟨?_, trivial, trivial⟩⟩
  have hkept : Db.orgDeleted (run callStep twoDb (openRun ++ foreignRun))
      sampleOrganizations 1 = false := by decide
  exact hkept

end Experiential.Gateway
