import Experiential.Lib.Checked
import Experiential.Gateway.Schema

/-! # Errors and writes

A gateway function raises a SQLSTATE with a message, and the statement that called it is then
rolled back; so a function is a computation in `Except GatewayError`. `int4` and `int8` are
the casts into PostgreSQL's integer types, which raise outside their range. The writes to
`Db` below are the only ways the model changes a table; each `..._eq_ok` lemma says that a
successful write changes that one table and nothing else. -/

namespace Experiential.Gateway

/-- The SQLSTATEs the gateway functions raise. -/
inductive Errcode where
  | P0002 | P1010 | P1011 | P1012 | P1013 | P1014 | P1015 | P1016 | P1017 | P1018 | P1019
  | P1020 | P1021 | P1022 | P1023 | P1024 | P1025 | P1030 | P1031
  | c22003 | c22023 | c23503 | c23505 | c23514 | c42501
deriving DecidableEq

structure GatewayError where
  errcode : Errcode
  message : String
  detail : Option String
deriving DecidableEq

/-- `raise exception using errcode = .., message = ..`. -/
def raised (errcode : Errcode) (message : String) : GatewayError := ⟨errcode, message, none⟩

abbrev Raises := Except GatewayError

/-- The error of a constraint the database itself enforces. -/
def ofViolation : Violation → GatewayError
  | .unique => raised .c23505 "duplicate key value violates unique constraint"
  | .check => raised .c23514 "new row violates check constraint"

def foreignKeyViolation : GatewayError :=
  raised .c23503 "insert or update on table violates foreign key constraint"

def outOfRange : GatewayError := raised .c22003 "value out of range"

/-- Cast into `int8`. -/
def int8 (x : Int) : Raises Int :=
  if -2 ^ 63 ≤ x ∧ x < 2 ^ 63 then .ok x else .error outOfRange

/-- Cast into `int4`. -/
def int4 (x : Int) : Raises Int :=
  if -2 ^ 31 ≤ x ∧ x < 2 ^ 31 then .ok x else .error outOfRange

/-- A value of type `int8`. -/
def Int8 (x : Int) : Prop := -2 ^ 63 ≤ x ∧ x < 2 ^ 63

instance : DecidablePred Int8 := fun x => inferInstanceAs (Decidable (-2 ^ 63 ≤ x ∧ x < 2 ^ 63))

theorem int8_eq_ok_iff {x y : Int} : int8 x = .ok y ↔ Int8 x ∧ y = x := by
  unfold int8
  change (if Int8 x then Except.ok x else _) = _ ↔ _
  split_ifs with h
  · simp only [Except.ok.injEq, h, true_and]
    exact eq_comm
  · simp [h]

theorem int8_eq_ok {x y : Int} (h : int8 x = .ok y) : y = x := by
  unfold int8 at h
  split_ifs at h
  cases h
  rfl

/-- Run a table write inside a function. -/
def write {α : Type} (x : Except Violation α) : Raises α :=
  match x with
  | .ok a => .ok a
  | .error v => .error (ofViolation v)

@[simp] theorem write_eq_ok {α : Type} {x : Except Violation α} {a : α} :
    write x = .ok a ↔ x = .ok a := by
  cases x <;> simp [write]

namespace Db

/-! ### Requests -/

/-- Insert an accepted request; its organization must exist. -/
def insertRequest (db : Db) (r : GatewayRequest) : Raises Db :=
  if (db.organizations.find? r.orgId).isSome then
    match h : db.requests.insert r with
    | .ok t => .ok { db with
        requests := t
        attempts_request := fun a ha => by
          obtain ⟨s, hs, he⟩ := db.attempts_request a ha
          exact ⟨s, (Table.mem_insert h).mpr (.inr hs), he⟩ }
    | .error v => .error (ofViolation v)
  else .error foreignKeyViolation

variable {db db' : Db}

theorem insertRequest_eq_ok {r : GatewayRequest} (h : db.insertRequest r = .ok db') :
    ∃ t hfk, db.requests.insert r = .ok t ∧
      db' = { db with requests := t, attempts_request := hfk } := by
  unfold insertRequest at h
  split_ifs at h
  split at h
  · rename_i t ht
    cases h
    exact ⟨t, _, ht, rfl⟩
  · cases h

/-- Rewrite the requests satisfying `p`. -/
def updateRequests (db : Db) (p : GatewayRequest → Bool) (f : GatewayRequest → GatewayRequest)
    (hf : ∀ r, (f r).requestId = r.requestId) : Raises Db :=
  match h : db.requests.update p f hf with
  | .ok t => .ok { db with
      requests := t
      attempts_request := fun a ha => by
        obtain ⟨s, hs, he⟩ := db.attempts_request a ha
        refine ⟨_, (Table.mem_update h).mpr ⟨s, hs, rfl⟩, ?_⟩
        rw [← he]
        split_ifs
        · exact hf s
        · rfl }
  | .error v => .error (ofViolation v)

theorem updateRequests_eq_ok {p : GatewayRequest → Bool}
    {f : GatewayRequest → GatewayRequest} {hf : ∀ r, (f r).requestId = r.requestId}
    (h : db.updateRequests p f hf = .ok db') :
    ∃ t hfk, db.requests.update p f hf = .ok t ∧
      db' = { db with requests := t, attempts_request := hfk } := by
  unfold updateRequests at h
  split at h
  · rename_i t ht
    cases h
    exact ⟨t, _, ht, rfl⟩
  · cases h

/-! ### Attempts -/

/-- Insert an attempt; its request must exist and not have one with the same ordinal. -/
def insertAttempt (db : Db) (a : GatewayAttempt) : Raises Db :=
  if db.attempts.any (fun b => decide (b.requestId = a.requestId) &&
      decide (b.attemptOrdinal = a.attemptOrdinal)) then .error (ofViolation .unique)
  else match hr : db.requests.find? a.requestId with
    | none => .error foreignKeyViolation
    | some r =>
        match h : db.attempts.insert a with
        | .ok t => .ok { db with
            attempts := t
            attempts_request := fun b hb => by
              rcases (Table.mem_insert h).mp hb with rfl | hb
              · exact ⟨r, Table.find?_eq_some.mp hr⟩
              · exact db.attempts_request b hb }
        | .error v => .error (ofViolation v)

theorem insertAttempt_eq_ok {a : GatewayAttempt} (h : db.insertAttempt a = .ok db') :
    ∃ t hfk, db.attempts.insert a = .ok t ∧
      db' = { db with attempts := t, attempts_request := hfk } := by
  unfold insertAttempt at h
  split_ifs at h
  split at h
  · cases h
  · split at h
    · rename_i t ht
      cases h
      exact ⟨t, _, ht, rfl⟩
    · cases h

/-- Rewrite the attempts satisfying `p`. -/
def updateAttempts (db : Db) (p : GatewayAttempt → Bool) (f : GatewayAttempt → GatewayAttempt)
    (hf : ∀ a, (f a).attemptId = a.attemptId) (hr : ∀ a, (f a).requestId = a.requestId) :
    Raises Db :=
  match h : db.attempts.update p f hf with
  | .ok t => .ok { db with
      attempts := t
      attempts_request := fun a ha => by
        obtain ⟨b, hb, rfl⟩ := (Table.mem_update h).mp ha
        obtain ⟨s, hs, he⟩ := db.attempts_request b hb
        refine ⟨s, hs, ?_⟩
        rw [he]
        split_ifs
        · exact (hr b).symm
        · rfl }
  | .error v => .error (ofViolation v)

theorem updateAttempts_eq_ok {p : GatewayAttempt → Bool}
    {f : GatewayAttempt → GatewayAttempt} {hf : ∀ a, (f a).attemptId = a.attemptId}
    {hr : ∀ a, (f a).requestId = a.requestId} (h : db.updateAttempts p f hf hr = .ok db') :
    ∃ t hfk, db.attempts.update p f hf = .ok t ∧
      db' = { db with attempts := t, attempts_request := hfk } := by
  unfold updateAttempts at h
  split at h
  · rename_i t ht
    cases h
    exact ⟨t, _, ht, rfl⟩
  · cases h

theorem request_of_attempt (db : Db) {a : GatewayAttempt} (ha : a ∈ db.attempts) :
    ∃ r, db.requests.find? a.requestId = some r := by
  obtain ⟨r, hr, he⟩ := db.attempts_request a ha
  exact ⟨r, he ▸ Table.find?_key hr⟩

/-! ### Organizations and usage -/

/-- Rewrite one organization; `e` when there is none with this id. -/
def updateOrganization (db : Db) (id : Nat) (f : Organization → Organization)
    (hf : ∀ o, (f o).id = o.id) (e : GatewayError) : Raises Db := do
  let _ ← require (db.organizations.find? id) e
  let t ← write (db.organizations.update (fun o => decide (o.id = id)) f hf)
  return { db with organizations := t }

theorem updateOrganization_eq_ok {id : Nat} {f : Organization → Organization}
    {hf : ∀ o, (f o).id = o.id} {e : GatewayError}
    (h : db.updateOrganization id f hf e = .ok db') :
    ∃ o t, o ∈ db.organizations ∧ o.id = id ∧
      db.organizations.update (fun o => decide (o.id = id)) f hf = .ok t ∧
      db' = { db with organizations := t } := by
  simp only [updateOrganization, bind_eq_ok, require_eq_ok, write_eq_ok, pure_eq_ok] at h
  obtain ⟨o, ho, t, ht, rfl⟩ := h
  obtain ⟨hmem, hid⟩ := Table.find?_eq_some.mp ho
  exact ⟨o, t, hmem, hid, ht, rfl⟩

/-- `insert .. on conflict do nothing`: the events and whether a row was inserted. -/
def insertUsageEvent (db : Db) (e : UsageEvent) : Raises (Db × Bool) :=
  if (db.usageEvents.find? e.requestId).isSome then .ok (db, false)
  else do
    let t ← write (db.usageEvents.insert e)
    return ({ db with usageEvents := t }, true)

theorem insertUsageEvent_eq_ok {e : UsageEvent} {inserted : Bool} (h : db.insertUsageEvent e = .ok (db', inserted)) :
    (inserted = false ∧ db' = db ∧ ∃ e₀, db.usageEvents.find? e.requestId = some e₀) ∨
    ∃ t, inserted = true ∧ db.usageEvents.find? e.requestId = none ∧
      db.usageEvents.insert e = .ok t ∧ db' = { db with usageEvents := t } := by
  unfold insertUsageEvent at h
  split_ifs at h with hsome
  · cases h
    exact .inl ⟨rfl, rfl, Option.isSome_iff_exists.mp hsome⟩
  · simp only [bind_eq_ok, write_eq_ok, pure_eq_ok, Prod.mk.injEq] at h
    obtain ⟨t, ht, rfl, rfl⟩ := h
    exact .inr ⟨t, rfl, by simpa using hsome, ht, rfl⟩

/-- `insert .. on conflict do update`: add one event's amounts to its bucket. -/
def upsertDaily (db : Db) (d : UsageDaily) : Raises Db :=
  if (db.usageDaily.find? d.key).isSome then do
    let t ← write (db.usageDaily.update (fun x => decide (x.key = d.key))
      (fun x => { x with
        requests := x.requests + 1
        inputTokens := x.inputTokens + d.inputTokens
        outputTokens := x.outputTokens + d.outputTokens
        spend := x.spend + d.spend })
      (fun _ => rfl))
    return { db with usageDaily := t }
  else do
    let t ← write (db.usageDaily.insert d)
    return { db with usageDaily := t }

theorem upsertDaily_eq_ok {d : UsageDaily} (h : db.upsertDaily d = .ok db') :
    ∃ t, db' = { db with usageDaily := t } := by
  unfold upsertDaily at h
  split_ifs at h
  · simp only [bind_eq_ok, pure_eq_ok] at h
    obtain ⟨t, -, rfl⟩ := h
    exact ⟨t, rfl⟩
  · simp only [bind_eq_ok, pure_eq_ok] at h
    obtain ⟨t, -, rfl⟩ := h
    exact ⟨t, rfl⟩

end Db

end Experiential.Gateway
