import Experiential.Gateway.Schema
import Experiential.Lib.Pool

/-! # Setting budgets

A PUT looks a scope up, updates the row it found or inserts one, looks a second time after an insert that lost to
another, and rereads the balances for its answer; a DELETE removes a row by its id. Every call is one step of the pool of requests. The scope index and the ids
are fields of the table, so that a scope never has two rows. `budget_writes_atomic` is about every run: what a successful
PUT wrote, what a failed request did not unless its rereading failed, and exactly when requests beside it make a PUT
fail. -/

namespace Experiential.Gateway

/-! ### The table -/

/-- The columns of `gateway_budgets_scope_uniq`. -/
structure BudgetKey where
  orgId : Nat
  period : BudgetPeriod
  scope : BudgetScope
deriving DecidableEq

/-- `BudgetRecord`; a budget's uuid is its number in the order of generation. -/
structure BudgetRecord where
  budgetId : ℕ
  key : BudgetKey
  limitMicroUsd : ℕ
deriving DecidableEq

/-- `gateway_budgets`, and the next uuid. -/
@[ext]
structure BudgetRows where
  rows : List BudgetRecord
  next : ℕ
  budgets_pkey : (rows.map (·.budgetId)).Nodup
  scope_uniq : (rows.map (·.key)).Nodup
  drawn : ∀ b ∈ rows, b.budgetId < next

namespace BudgetRows

/-- `find_budget_for_scope` -/
def findBudgetForScope (t : BudgetRows) (key : BudgetKey) : Option BudgetRecord :=
  t.rows.find? fun b => decide (b.key = key)

/-- The update by id, with the rows it returns. -/
def updateLimit (t : BudgetRows) (id limit : ℕ) : BudgetRows × List BudgetRecord :=
  let set := fun b : BudgetRecord => if b.budgetId = id then { b with limitMicroUsd := limit } else b
  have hid : ∀ b, (set b).budgetId = b.budgetId := fun b => by unfold set; split <;> rfl
  have hkey : ∀ b, (set b).key = b.key := fun b => by unfold set; split <;> rfl
  ({ rows := t.rows.map set
     next := t.next
     budgets_pkey := by
       rw [List.map_map, show (·.budgetId) ∘ set = (·.budgetId) from funext hid]
       exact t.budgets_pkey
     scope_uniq := by
       rw [List.map_map, show (·.key) ∘ set = (·.key) from funext hkey]
       exact t.scope_uniq
     drawn := fun b hb => by
       obtain ⟨a, ha, rfl⟩ := List.mem_map.mp hb
       rw [hid]
       exact t.drawn a ha },
    (t.rows.filter fun b => decide (b.budgetId = id)).map set)

/-- The insert with a new uuid. `references`: the key, identity or alias named by the scope is there. -/
def insertBudget (t : BudgetRows) (references : Bool) (key : BudgetKey) (limit : ℕ) :
    Except Violation (BudgetRows × BudgetRecord) :=
  if hkey : key ∈ t.rows.map (·.key) then .error .unique
  else if references then
    .ok ({ rows := ⟨t.next, key, limit⟩ :: t.rows
           next := t.next + 1
           budgets_pkey := by
             rw [List.map_cons, List.nodup_cons]
             refine ⟨fun hmem => ?_, t.budgets_pkey⟩
             obtain ⟨b, hb, hid⟩ := List.mem_map.mp hmem
             exact absurd (t.drawn b hb) (by rw [hid]; exact lt_irrefl _)
           scope_uniq := List.nodup_cons.mpr ⟨hkey, t.scope_uniq⟩
           drawn := fun b hb => by
             rcases List.mem_cons.mp hb with rfl | hb
             · exact Nat.lt_succ_self _
             · exact Nat.lt_succ_of_lt (t.drawn b hb) }, ⟨t.next, key, limit⟩)
  else .error .check

/-- The delete by organization and id. -/
def deleteBudget (t : BudgetRows) (orgId id : ℕ) : BudgetRows × Bool :=
  let other := fun b : BudgetRecord => !decide (b.key.orgId = orgId ∧ b.budgetId = id)
  ({ rows := t.rows.filter other
     next := t.next
     budgets_pkey := t.budgets_pkey.sublist (List.filter_sublist.map _)
     scope_uniq := t.scope_uniq.sublist (List.filter_sublist.map _)
     drawn := fun b hb => t.drawn b (List.mem_of_mem_filter hb) },
    decide (∃ b ∈ t.rows, b.key.orgId = orgId ∧ b.budgetId = id))

/-- The limit of a scope. -/
def limitOf (t : BudgetRows) (key : BudgetKey) : Option ℕ := (t.findBudgetForScope key).map (·.limitMicroUsd)

end BudgetRows

/-! ### Requests -/

inductive BudgetError where
  /-- A reference that is not there. -/
  | references
  /-- What `gateway_budget_balances` raises. -/
  | balances
  /-- `rows[0]` of an update that touched nothing. -/
  | noRow
  | lostTwice
  | notFound (budgetId : ℕ)
deriving DecidableEq

def BudgetError.message : BudgetError → Option String
  | .references | .balances | .noRow => none
  | .lostTwice => some "budget upsert lost the insert race twice for one scope"
  | .notFound budgetId => some s!"Budget not found: {budgetId}"

inductive BudgetRequest where
  | put (key : BudgetKey) (limit : ℕ)
  | delete (orgId budgetId : ℕ)
deriving DecidableEq

/-- What a request does next; `again` marks the second round of `upsert_budget`. -/
inductive BudgetPhase where
  | validate
  | find (again : Bool)
  | update (budgetId : ℕ)
  | insert (again : Bool)
  | view
  | delete
  | answered (a : Except BudgetError Unit)
deriving DecidableEq

structure BudgetCall where
  request : BudgetRequest
  phase : BudgetPhase
deriving DecidableEq

namespace BudgetCall

def begin (r : BudgetRequest) : BudgetCall :=
  ⟨r, match r with
    | .put _ _ => .validate
    | .delete _ _ => .delete⟩

def goto (x : BudgetCall) (phase : BudgetPhase) : BudgetCall := { x with phase := phase }

def fail (x : BudgetCall) (e : BudgetError) : BudgetCall := x.goto (.answered (.error e))

/-- `set_budget` and `upsert_budget`: the next call of a PUT. `available`: what it relies on beside the budgets is
there, the references of its scope or the balances of its period. -/
def advancePut (available : Bool) (t : BudgetRows) (x : BudgetCall) (key : BudgetKey) (limit : ℕ) :
    BudgetRows × BudgetCall :=
  match x.phase with
  | .validate => (t, if available then x.goto (.find false) else x.fail .references)
  | .find again =>
      (t, match t.findBudgetForScope key with
        | some existing => x.goto (.update existing.budgetId)
        | none => x.goto (.insert again))
  | .update id =>
      ((t.updateLimit id limit).1, match (t.updateLimit id limit).2 with
        | [] => x.fail .noRow
        | _ :: _ => x.goto .view)
  | .insert again =>
      match t.insertBudget available key limit with
      | .ok (t', _) => (t', x.goto .view)
      | .error .unique => (t, if again then x.fail .lostTwice else x.goto (.find true))
      | .error .check => (t, x.fail .references)
  | .view => (t, if available then x.goto (.answered (.ok ())) else x.fail .balances)
  | .delete | .answered _ => (t, x)

/-- `delete_budget` -/
def advanceDelete (t : BudgetRows) (x : BudgetCall) (orgId id : ℕ) : BudgetRows × BudgetCall :=
  match x.phase with
  | .delete =>
      ((t.deleteBudget orgId id).1,
        if (t.deleteBudget orgId id).2 then x.goto (.answered (.ok ())) else x.fail (.notFound id))
  | _ => (t, x)

/-- The next call of a request. -/
def advance (available : Bool) (t : BudgetRows) (x : BudgetCall) : BudgetRows × BudgetCall :=
  match x.request with
  | .put key limit => x.advancePut available t key limit
  | .delete orgId id => x.advanceDelete t orgId id

end BudgetCall

abbrev BudgetPool := Pool BudgetRows BudgetCall

/-- The requests, and whether what the one that goes on relies on is there. -/
abbrev BudgetWriteStep := PoolStep BudgetRequest Bool Empty

def budgetStep : BudgetPool → BudgetWriteStep → BudgetPool := poolStep BudgetCall.begin (fun i t x => x.advance i t) nofun

/-! ### Calls on the table -/

section table
variable {t : BudgetRows} {key : BudgetKey} {id limit orgId : ℕ} {references : Bool} {b : BudgetRecord}

theorem findBudgetForScope_eq_some : t.findBudgetForScope key = some b ↔ b ∈ t.rows ∧ b.key = key := by
  unfold BudgetRows.findBudgetForScope
  constructor
  · intro h
    exact ⟨List.mem_of_find?_eq_some h, by simpa using List.find?_some h⟩
  · rintro ⟨hb, rfl⟩
    cases hfind : t.rows.find? fun a => decide (a.key = b.key) with
    | none =>
        have hne := List.find?_eq_none.mp hfind b hb
        simp at hne
    | some a =>
        have hkey : a.key = b.key := by simpa using List.find?_some hfind
        rw [List.inj_on_of_nodup_map t.scope_uniq (List.mem_of_find?_eq_some hfind) hb hkey]

theorem findBudgetForScope_eq_none : t.findBudgetForScope key = none ↔ key ∉ t.rows.map (·.key) := by
  simp [BudgetRows.findBudgetForScope, List.find?_eq_none]

theorem limitOf_of_mem (hb : b ∈ t.rows) : t.limitOf b.key = some b.limitMicroUsd := by
  rw [BudgetRows.limitOf, findBudgetForScope_eq_some.mpr ⟨hb, rfl⟩, Option.map_some]

theorem one_row {a b : BudgetRecord} (ha : a ∈ t.rows) (hb : b ∈ t.rows) (h : a.key = b.key) : a = b :=
  List.inj_on_of_nodup_map t.scope_uniq ha hb h

theorem mem_updateLimit {c : BudgetRecord} : c ∈ (t.updateLimit id limit).1.rows ↔
    ∃ b ∈ t.rows, (if b.budgetId = id then { b with limitMicroUsd := limit } else b) = c := List.mem_map

theorem exists_of_mem_updateLimit {c : BudgetRecord} (hc : c ∈ (t.updateLimit id limit).1.rows) :
    ∃ b ∈ t.rows, b.budgetId = c.budgetId ∧ b.key = c.key := by
  obtain ⟨b, hb, rfl⟩ := mem_updateLimit.mp hc
  refine ⟨b, hb, ?_⟩
  split <;> exact ⟨rfl, rfl⟩

theorem updateLimit_eq_nil : (t.updateLimit id limit).2 = [] ↔ ∀ b ∈ t.rows, b.budgetId ≠ id := by
  simp [BudgetRows.updateLimit, List.filter_eq_nil_iff]

theorem updateLimit_of_none (h : ∀ b ∈ t.rows, b.budgetId ≠ id) : (t.updateLimit id limit).1 = t := by
  refine BudgetRows.ext ?_ rfl
  refine (List.map_congr_left fun b hb => ?_).trans t.rows.map_id
  exact if_neg (h b hb)

theorem limitOf_updateLimit (hb : b ∈ t.rows) (hid : b.budgetId = id) :
    (t.updateLimit id limit).1.limitOf b.key = some limit :=
  limitOf_of_mem (b := { b with limitMicroUsd := limit }) (mem_updateLimit.mpr ⟨b, hb, if_pos hid⟩)

theorem insertBudget_eq_ok {t' : BudgetRows} (h : t.insertBudget references key limit = .ok (t', b)) :
    t'.rows = ⟨t.next, key, limit⟩ :: t.rows ∧ t'.next = t.next + 1 := by
  unfold BudgetRows.insertBudget at h
  split_ifs at h
  cases h
  exact ⟨rfl, rfl⟩

theorem insertBudget_eq_unique :
    t.insertBudget references key limit = .error .unique ↔ t.findBudgetForScope key ≠ none := by
  rw [ne_eq, findBudgetForScope_eq_none, not_not]
  unfold BudgetRows.insertBudget
  split_ifs with hkey hreferences <;> simp [hkey]

theorem limitOf_insertBudget {t' : BudgetRows} (h : t.insertBudget references key limit = .ok (t', b)) :
    t'.limitOf key = some limit :=
  limitOf_of_mem (b := ⟨t.next, key, limit⟩) (by rw [(insertBudget_eq_ok h).1]; exact List.mem_cons_self)

theorem deleteBudget_of_false (h : (t.deleteBudget orgId id).2 = false) : (t.deleteBudget orgId id).1 = t := by
  refine BudgetRows.ext (List.filter_eq_self.mpr fun b hb => ?_) rfl
  have hnone := of_decide_eq_false h
  rw [Bool.not_eq_true', decide_eq_false_iff_not]
  exact fun hrow => hnone ⟨b, hb, hrow⟩

end table

/-! ### Calls of a request -/

/-- The request has failed at the rereading of the balances. -/
def BudgetCall.Unread (x : BudgetCall) : Prop := x.phase = .answered (.error .balances)

/-- Has the request done what it was sent for? -/
def BudgetCall.Done (x : BudgetCall) : Prop := x.phase = .view ∨ x.phase = .answered (.ok ()) ∨ x.Unread

/-- A PUT that is about to update holds the id of its scope's row, if the row is still there. -/
def BudgetCall.Holds (t : BudgetRows) (x : BudgetCall) : Prop :=
  match x.request, x.phase with
  | .put key _, .update id => id < t.next ∧ ∀ b ∈ t.rows, b.budgetId = id → b.key = key
  | _, _ => True

/-- What other requests must not have done before a PUT's next call: taken away the row that it found, or inserted one
where it has found none for the second time. -/
def BudgetCall.Undisturbed (t : BudgetRows) (x : BudgetCall) : Prop :=
  match x.request, x.phase with
  | .put _ _, .update id => ∃ b ∈ t.rows, b.budgetId = id
  | .put key _, .insert true => t.findBudgetForScope key = none
  | _, _ => True

/-- A failure that only requests beside this one can cause. -/
def BudgetCall.Crowded (x : BudgetCall) : Prop :=
  x.phase = .answered (.error .noRow) ∨ x.phase = .answered (.error .lostTwice)

/-- What the calls do to a table: rows keep their ids and scopes, and new ones have new ids. -/
structure BudgetRows.Evolves (t t' : BudgetRows) : Prop where
  next : t.next ≤ t'.next
  rows : ∀ b' ∈ t'.rows, (∃ b ∈ t.rows, b.budgetId = b'.budgetId ∧ b.key = b'.key) ∨ t.next ≤ b'.budgetId

theorem BudgetCall.Holds.evolves {t t' : BudgetRows} {x : BudgetCall} (h : x.Holds t) (ht : t.Evolves t') : x.Holds t' := by
  obtain ⟨request, phase⟩ := x
  cases request with
  | delete orgId id => trivial
  | put key limit =>
    cases phase with
    | update id =>
      obtain ⟨hnext, hrow⟩ := h
      refine ⟨hnext.trans_le ht.next, fun b' hb' hid => ?_⟩
      rcases ht.rows b' hb' with ⟨b, hb, hbid, hkey⟩ | hnew
      · rw [← hkey]
        exact hrow b hb (hbid.trans hid)
      · omega
    | _ => trivial

section advance
variable {t : BudgetRows} {x : BudgetCall} {key : BudgetKey} {limit : ℕ} {references : Bool}

/-- A request goes on without having touched the table. -/
def BudgetCall.Quiet (t : BudgetRows) (x : BudgetCall) (next : BudgetRows × BudgetCall) : Prop :=
  ∃ p, next = (t, x.goto p) ∧ ((x.goto p).Done ↔ x.Done) ∧ (x.goto p).Holds t

/-- Its phase is not one of those behind a write, and holds no id. -/
theorem quiet_goto {p : BudgetPhase} (hx : ¬x.Done) (hview : p ≠ .view) (hok : p ≠ .answered (.ok ()))
    (hread : p ≠ .answered (.error .balances)) (hholds : (x.goto p).Holds t) : x.Quiet t (t, x.goto p) := by
  refine ⟨p, rfl, iff_of_false ?_ hx, hholds⟩
  rintro (h | h | h)
  · exact absurd h hview
  · exact absurd h hok
  · exact absurd h hread

theorem quiet_self (hholds : x.Holds t) : x.Quiet t (t, x) := ⟨x.phase, rfl, Iff.rfl, hholds⟩

theorem holds_fail {e : BudgetError} : (x.fail e).Holds t := by
  obtain ⟨request, phase⟩ := x
  cases request <;> trivial

/-- A request has done what it was sent for: a PUT has set the limit of its scope. -/
structure BudgetCall.Wrote (t : BudgetRows) (x : BudgetCall) (next : BudgetRows × BudgetCall) : Prop where
  fresh : ¬x.Done
  done : next.2.Done
  request : next.2.request = x.request
  evolves : t.Evolves next.1
  holds : next.2.Holds next.1
  limit : ∀ key limit, x.request = .put key limit → next.1.limitOf key = some limit

theorem evolves_updateLimit (t : BudgetRows) (id limit : ℕ) : t.Evolves (t.updateLimit id limit).1 where
  next := le_rfl
  rows _ hb' := .inl (exists_of_mem_updateLimit hb')

theorem evolves_insertBudget {t' : BudgetRows} {b : BudgetRecord}
    (h : t.insertBudget references key limit = .ok (t', b)) : t.Evolves t' := by
  obtain ⟨hrows, hnext⟩ := insertBudget_eq_ok h
  refine ⟨by omega, fun b' hb' => ?_⟩
  rw [hrows] at hb'
  rcases List.mem_cons.mp hb' with rfl | hb'
  · exact .inr le_rfl
  · exact .inl ⟨b', hb', rfl, rfl⟩

theorem evolves_deleteBudget (t : BudgetRows) (orgId id : ℕ) : t.Evolves (t.deleteBudget orgId id).1 where
  next := le_rfl
  rows b' hb' := .inl ⟨b', List.mem_of_mem_filter hb', rfl, rfl⟩

/-- **A PUT's call** leaves the table alone, or writes the limit. -/
theorem advancePut_cases (hholds : x.Holds t) (hrequest : x.request = .put key limit) :
    x.Quiet t (x.advancePut available t key limit) ∨ x.Wrote t (x.advancePut available t key limit) := by
  obtain ⟨request, phase⟩ := x
  obtain rfl : request = .put key limit := hrequest
  cases phase with
  | validate =>
    refine .inl ?_
    cases available
    · exact quiet_goto (by simp [BudgetCall.Done, BudgetCall.Unread]) nofun nofun nofun holds_fail
    · exact quiet_goto (by simp [BudgetCall.Done, BudgetCall.Unread]) nofun nofun nofun trivial
  | find again =>
    refine .inl ?_
    simp only [BudgetCall.advancePut]
    cases hfind : t.findBudgetForScope key with
    | none => exact quiet_goto (by simp [BudgetCall.Done, BudgetCall.Unread]) nofun nofun nofun trivial
    | some b =>
      obtain ⟨hb, hkey⟩ := findBudgetForScope_eq_some.mp hfind
      refine quiet_goto (by simp [BudgetCall.Done, BudgetCall.Unread]) nofun nofun nofun ⟨t.drawn b hb, fun a ha hid => ?_⟩
      rw [List.inj_on_of_nodup_map t.budgets_pkey ha hb hid, hkey]
  | update id =>
    simp only [BudgetCall.advancePut]
    cases hrows : (t.updateLimit id limit).2 with
    | nil =>
      rw [updateLimit_of_none (updateLimit_eq_nil.mp hrows)]
      exact .inl (quiet_goto (by simp [BudgetCall.Done, BudgetCall.Unread]) nofun nofun nofun holds_fail)
    | cons c rest =>
      have hsome : ∃ b ∈ t.rows, b.budgetId = id := by
        by_contra hnone
        rw [updateLimit_eq_nil.mpr fun b hb hid => hnone ⟨b, hb, hid⟩] at hrows
        cases hrows
      obtain ⟨b, hb, hid⟩ := hsome
      refine .inr ⟨nofun, .inl rfl, rfl, evolves_updateLimit t id limit, trivial, ?_⟩
      rintro _ _ ⟨⟩
      rw [← hholds.2 b hb hid]
      exact limitOf_updateLimit hb hid
  | insert again =>
    simp only [BudgetCall.advancePut]
    cases hinsert : t.insertBudget available key limit with
    | ok r =>
      refine .inr ⟨nofun, .inl rfl, rfl, evolves_insertBudget hinsert, trivial, ?_⟩
      rintro _ _ ⟨⟩
      exact limitOf_insertBudget hinsert
    | error e =>
      refine .inl ?_
      cases e with
      | check => exact quiet_goto (by simp [BudgetCall.Done, BudgetCall.Unread]) nofun nofun nofun holds_fail
      | unique =>
        cases again
        · exact quiet_goto (by simp [BudgetCall.Done, BudgetCall.Unread]) nofun nofun nofun trivial
        · exact quiet_goto (by simp [BudgetCall.Done, BudgetCall.Unread]) nofun nofun nofun holds_fail
  | view =>
    cases available
    · exact .inl ⟨.answered (.error .balances), rfl, iff_of_true (.inr (.inr rfl)) (.inl rfl), trivial⟩
    · exact .inl ⟨.answered (.ok ()), rfl, iff_of_true (.inr (.inl rfl)) (.inl rfl), trivial⟩
  | delete | answered a => exact .inl (quiet_self hholds)

theorem advance_cases (available : Bool) (hholds : x.Holds t) :
    x.Quiet t (x.advance available t) ∨ x.Wrote t (x.advance available t) := by
  obtain ⟨request, phase⟩ := x
  cases request with
  | put key limit => exact advancePut_cases hholds rfl
  | delete orgId id =>
    simp only [BudgetCall.advance]
    cases phase with
    | delete =>
      simp only [BudgetCall.advanceDelete]
      cases hdeleted : (t.deleteBudget orgId id).2 with
      | true =>
        exact .inr ⟨nofun, .inr (.inl rfl), rfl, evolves_deleteBudget t orgId id, trivial, nofun⟩
      | false =>
        rw [deleteBudget_of_false hdeleted]
        exact .inl (quiet_goto (by simp [BudgetCall.Done, BudgetCall.Unread]) nofun nofun nofun holds_fail)
    | _ => exact .inl (quiet_self hholds)

/-- A request fails at the rereading only. -/
theorem not_unread_advance {available : Bool} (hx : ¬x.Unread) (hread : x.phase = .view → available = true) :
    ¬(x.advance available t).2.Unread := by
  obtain ⟨request, phase⟩ := x
  cases request with
  | delete orgId id =>
    simp only [BudgetCall.advance]
    cases phase with
    | delete =>
      simp only [BudgetCall.advanceDelete]
      split <;> nofun
    | _ => exact hx
  | put key limit =>
    simp only [BudgetCall.advance]
    cases phase with
    | insert again =>
      simp only [BudgetCall.advancePut]
      split
      · nofun
      · cases again <;> nofun
      · nofun
    | view =>
      obtain rfl := hread rfl
      nofun
    | delete | answered a => exact hx
    | _ =>
      simp only [BudgetCall.advancePut]
      split <;> nofun

theorem not_crowded {p : BudgetPhase} (hrow : p ≠ .answered (.error .noRow)) (hlost : p ≠ .answered (.error .lostTwice)) :
    ¬(x.goto p).Crowded := by
  rintro (h | h)
  · exact hrow h
  · exact hlost h

/-- **A PUT's call goes wrong** exactly if other requests have disturbed it. -/
theorem not_crowded_advancePut_iff (hrequest : x.request = .put key limit) :
    ¬(x.advancePut available t key limit).2.Crowded ↔ ¬x.Crowded ∧ x.Undisturbed t := by
  obtain ⟨request, phase⟩ := x
  obtain rfl : request = .put key limit := hrequest
  have hopen : ∀ {p}, p ≠ .answered (.error .noRow) → p ≠ .answered (.error .lostTwice) →
      ¬BudgetCall.Crowded ⟨.put key limit, p⟩ := not_crowded (x := ⟨.put key limit, .view⟩)
  cases phase with
  | find again =>
    simp only [BudgetCall.advancePut]
    cases t.findBudgetForScope key <;> exact iff_of_true (not_crowded nofun nofun) ⟨hopen nofun nofun, trivial⟩
  | update id =>
    simp only [BudgetCall.advancePut]
    cases hrows : (t.updateLimit id limit).2 with
    | nil =>
      refine iff_of_false (not_not.mpr (.inl rfl)) ?_
      rintro ⟨-, b, hb, hid⟩
      exact updateLimit_eq_nil.mp hrows b hb hid
    | cons c rest =>
      refine iff_of_true (not_crowded nofun nofun) ⟨hopen nofun nofun, ?_⟩
      by_contra hnone
      rw [updateLimit_eq_nil.mpr fun b hb hid => hnone ⟨b, hb, hid⟩] at hrows
      cases hrows
  | insert again =>
    have hfree : t.insertBudget available key limit ≠ .error .unique →
        BudgetCall.Undisturbed t ⟨.put key limit, .insert again⟩ := by
      rw [ne_eq, insertBudget_eq_unique, not_not]
      cases again
      · exact fun _ => trivial
      · exact id
    simp only [BudgetCall.advancePut]
    cases hinsert : t.insertBudget available key limit with
    | ok r => exact iff_of_true (not_crowded nofun nofun) ⟨hopen nofun nofun, hfree (by rw [hinsert]; nofun)⟩
    | error e =>
      cases e with
      | check => exact iff_of_true (not_crowded nofun nofun) ⟨hopen nofun nofun, hfree (by rw [hinsert]; nofun)⟩
      | unique =>
        cases again
        · exact iff_of_true (not_crowded nofun nofun) ⟨hopen nofun nofun, trivial⟩
        · refine iff_of_false (not_not.mpr (.inr rfl)) ?_
          rintro ⟨-, hnone⟩
          exact insertBudget_eq_unique.mp hinsert hnone
  | delete | answered a => exact (and_iff_left trivial).symm
  | _ =>
    refine iff_of_true ?_ ⟨hopen nofun nofun, trivial⟩
    cases available <;> exact not_crowded nofun nofun

theorem not_crowded_advance_iff : ¬(x.advance available t).2.Crowded ↔ ¬x.Crowded ∧ x.Undisturbed t := by
  obtain ⟨request, phase⟩ := x
  cases request with
  | put key limit => exact not_crowded_advancePut_iff rfl
  | delete orgId id =>
    simp only [BudgetCall.advance]
    cases phase with
    | delete =>
      simp only [BudgetCall.advanceDelete]
      refine iff_of_true ?_ ⟨not_crowded (x := ⟨.delete orgId id, .view⟩) nofun nofun, trivial⟩
      split <;> exact not_crowded nofun nofun
    | _ => exact (and_iff_left trivial).symm

end advance

/-! ### Runs -/

section runs
variable {w : BudgetPool} {k : ℕ}

/-- Every request's id is one of its scope. -/
def BudgetsHeld : BudgetPool → Prop := Pool.Holds (fun _ => True) fun t _ x => x.Holds t

theorem BudgetsHeld.step (h : BudgetsHeld w) (step : BudgetWriteStep) : BudgetsHeld (budgetStep w step) := by
  cases step with
  | env e => exact e.elim
  | spawn r => exact h.spawned (by cases r <;> trivial)
  | advance k i =>
    refine Pool.Holds.advanced h fun x hx => ⟨trivial, ?_⟩
    rcases advance_cases i (h.2 k x hx) with ⟨p, heq, -, hholds⟩ | hwrote
    · rw [heq]
      exact ⟨hholds, fun j y _ hy => h.2 j y hy⟩
    · exact ⟨hwrote.holds, fun j y _ hy => (h.2 j y hy).evolves hwrote.evolves⟩

/-- A PUT that rereads the balances gets them. -/
def Rereads (w : BudgetPool) : BudgetWriteStep → Prop
  | .advance k available => ∀ x, w.procs[k]? = some x → x.phase = .view → available = true
  | .spawn _ | .env _ => True

/-- No request has failed at the rereading. -/
def BudgetsRead : BudgetPool → Prop := Pool.Holds (fun _ => True) fun _ _ x => ¬x.Unread

theorem BudgetsRead.step {step : BudgetWriteStep} (hmeets : Rereads w step) (h : BudgetsRead w) :
    BudgetsRead (budgetStep w step) := by
  cases step with
  | env e => exact e.elim
  | spawn r => exact h.spawned (by cases r <;> nofun)
  | advance k i =>
    refine Pool.Holds.advanced h fun x hx => ⟨trivial, ?_, fun j y _ hy => h.2 j y hy⟩
    exact not_unread_advance (h.2 k x hx) (hmeets x hx)

/-- Request `k` has done what it was sent for. -/
def DoneAt (k : ℕ) (w : BudgetPool) : Prop := ∃ x, w.procs[k]? = some x ∧ x.Done

theorem procs_step {x : BudgetCall} (step : BudgetWriteStep) (hx : w.procs[k]? = some x) :
    (budgetStep w step).procs[k]? = some x ∨
      ∃ i, step = .advance k i ∧ (budgetStep w step).procs[k]? = some (x.advance i w.shared).2 ∧
        (budgetStep w step).shared = (x.advance i w.shared).1 := by
  have hlt : k < w.procs.length := (List.getElem?_eq_some_iff.mp hx).1
  cases step with
  | env e => exact e.elim
  | spawn r => exact .inl ((List.getElem?_append_left hlt).trans hx)
  | advance j i =>
    rw [budgetStep]
    cases hy : w.procs[j]? with
    | none =>
      rw [poolStep_advance_none hy]
      exact .inl hx
    | some y =>
      rw [poolStep_advance hy]
      by_cases hjk : j = k
      · subst hjk
        obtain rfl := Option.some.inj (hx.symm.trans hy)
        exact .inr ⟨i, rfl, List.getElem?_set_self hlt, rfl⟩
      · exact .inl ((List.getElem?_set_ne hjk).trans hx)

theorem DoneAt.step (h : BudgetsHeld w) (hdone : DoneAt k w) (step : BudgetWriteStep) :
    DoneAt k (budgetStep w step) := by
  obtain ⟨x, hx, hxdone⟩ := hdone
  rcases procs_step step hx with hsame | ⟨i, -, hnext, -⟩
  · exact ⟨x, hsame, hxdone⟩
  · refine ⟨_, hnext, ?_⟩
    rcases advance_cases i (h.2 k x hx) with ⟨p, heq, hiff, -⟩ | hwrote
    · rw [heq]
      exact hiff.mpr hxdone
    · exact hwrote.done

theorem DoneAt.run (h : BudgetsHeld w) (hdone : DoneAt k w) (steps : List BudgetWriteStep) :
    DoneAt k (run budgetStep w steps) :=
  (run_invariant_of_forall (I := fun w => BudgetsHeld w ∧ DoneAt k w)
    (fun _ step h => ⟨h.1.step step, DoneAt.step h.1 h.2 step⟩) steps w ⟨h, hdone⟩).2

/-- Request `k` is `r`. -/
def RequestAt (k : ℕ) (r : BudgetRequest) (w : BudgetPool) : Prop := ∃ x, w.procs[k]? = some x ∧ x.request = r

theorem RequestAt.step {r : BudgetRequest} (h : BudgetsHeld w) (hr : RequestAt k r w) (step : BudgetWriteStep) :
    RequestAt k r (budgetStep w step) := by
  obtain ⟨x, hx, hxr⟩ := hr
  rcases procs_step step hx with hsame | ⟨i, -, hnext, -⟩
  · exact ⟨x, hsame, hxr⟩
  · refine ⟨_, hnext, ?_⟩
    rcases advance_cases i (h.2 k x hx) with ⟨p, heq, -⟩ | hwrote
    · rw [heq]
      exact hxr
    · rw [hwrote.request, hxr]

theorem RequestAt.run {r : BudgetRequest} (h : BudgetsHeld w) (hr : RequestAt k r w) (steps : List BudgetWriteStep) :
    RequestAt k r (run budgetStep w steps) :=
  (run_invariant_of_forall (I := fun w => BudgetsHeld w ∧ RequestAt k r w)
    (fun _ step h => ⟨h.1.step step, RequestAt.step h.1 h.2 step⟩) steps w ⟨h, hr⟩).2

/-- The step in which a request becomes done is a call of its own, and a PUT's sets the limit. -/
theorem becomes_done (h : BudgetsHeld w) (hnot : ¬DoneAt k w) {step : BudgetWriteStep}
    (hdone : DoneAt k (budgetStep w step)) : ∃ i r, step = .advance k i ∧
      RequestAt k r (budgetStep w step) ∧
      ∀ key limit, r = .put key limit → (budgetStep w step).shared.limitOf key = some limit := by
  cases hx : w.procs[k]? with
  | some x =>
    rcases procs_step step hx with hsame | ⟨i, rfl, hnext, hshared⟩
    · obtain ⟨y, hy, hydone⟩ := hdone
      obtain rfl := Option.some.inj (hsame.symm.trans hy)
      exact absurd ⟨x, hx, hydone⟩ hnot
    · rcases advance_cases i (h.2 k x hx) with ⟨p, heq, hiff, -⟩ | hwrote
      · obtain ⟨y, hy, hydone⟩ := hdone
        obtain rfl := Option.some.inj (hnext.symm.trans hy)
        rw [heq] at hydone
        exact absurd ⟨x, hx, hiff.mp hydone⟩ hnot
      · refine ⟨i, x.request, rfl, ⟨_, hnext, hwrote.request⟩, fun key limit hr => ?_⟩
        rw [hshared]
        exact hwrote.limit key limit hr
  | none =>
    -- the request is not there, so the step must have started it
    obtain ⟨y, hy, hydone⟩ := hdone
    cases step with
    | env e => exact e.elim
    | advance j i =>
      rw [budgetStep] at hy
      cases hz : w.procs[j]? with
      | none =>
        rw [poolStep_advance_none hz, hx] at hy
        cases hy
      | some z =>
        rw [poolStep_advance hz] at hy
        rcases getElem?_set_cases hy with ⟨rfl, -⟩ | ⟨-, hy⟩
        · rw [hx] at hz
          cases hz
        · rw [hx] at hy
          cases hy
    | spawn r =>
      rcases getElem?_append_cases hy with ⟨-, rfl⟩ | hy
      · cases r <;> rcases hydone with hydone | hydone | hydone <;> cases hydone
      · rw [hx] at hy
        cases hy

/-- A step of request `k` that changes the table does what the request was sent for. -/
theorem doneAt_of_changed (h : BudgetsHeld w) {i : Bool}
    (hchanged : (budgetStep w (.advance k i)).shared ≠ w.shared) : DoneAt k (budgetStep w (.advance k i)) := by
  cases hx : w.procs[k]? with
  | none =>
    rw [budgetStep, poolStep_advance_none hx] at hchanged
    exact absurd rfl hchanged
  | some x =>
    have hlt : k < w.procs.length := (List.getElem?_eq_some_iff.mp hx).1
    rw [budgetStep, poolStep_advance hx] at hchanged ⊢
    refine ⟨_, List.getElem?_set_self hlt, ?_⟩
    rcases advance_cases i (h.2 k x hx) with ⟨p, heq, -⟩ | hwrote
    · rw [heq] at hchanged
      exact absurd rfl hchanged
    · exact hwrote.done

/-- A PUT that is done has set its limit in one of its calls. -/
theorem exists_written {key : BudgetKey} {limit : ℕ} : ∀ (steps : List BudgetWriteStep) {w : BudgetPool}, BudgetsHeld w →
    ¬DoneAt k w → ∀ {x : BudgetCall}, (run budgetStep w steps).procs[k]? = some x → x.Done →
    x.request = .put key limit → ∃ before i after, steps = before ++ .advance k i :: after ∧
      (run budgetStep w (before ++ [.advance k i])).shared.limitOf key = some limit
  | [], w, _, hnot, x, hx, hdone, _ => absurd ⟨x, hx, hdone⟩ hnot
  | step :: steps, w, h, hnot, x, hx, hdone, hrequest => by
    by_cases hstep : DoneAt k (budgetStep w step)
    · obtain ⟨i, r, rfl, hr, hlimit⟩ := becomes_done h hnot hstep
      obtain ⟨y, hy, hyr⟩ := hr.run (h.step _) steps
      obtain rfl := Option.some.inj (hx.symm.trans hy)
      exact ⟨[], i, steps, rfl, hlimit key limit (hyr.symm.trans hrequest)⟩
    · obtain ⟨before, i, after, hsteps, hlimit⟩ := exists_written steps (h.step step) hstep hx hdone hrequest
      exact ⟨step :: before, i, after, by rw [hsteps]; rfl, hlimit⟩

/-- Nobody has disturbed the request that goes on. -/
def Undisturbed (w : BudgetPool) : BudgetWriteStep → Prop
  | .advance k _ => ∀ x, w.procs[k]? = some x → x.Undisturbed w.shared
  | .spawn _ | .env _ => True

theorem crowded_step_iff (step : BudgetWriteStep) :
    (∀ x ∈ (budgetStep w step).procs, ¬x.Crowded) ↔ (∀ x ∈ w.procs, ¬x.Crowded) ∧ Undisturbed w step := by
  cases step with
  | env e => exact e.elim
  | spawn r =>
    refine Iff.trans ?_ (and_iff_left trivial).symm
    have hnew : ¬(BudgetCall.begin r).Crowded := by cases r <;> rintro (h | h) <;> cases h
    simp only [budgetStep, poolStep, List.mem_append, List.mem_singleton]
    exact ⟨fun h x hx => h x (.inl hx), fun h x hx => hx.elim (h x) fun hx => hx ▸ hnew⟩
  | advance k i =>
    rw [budgetStep]
    cases hx : w.procs[k]? with
    | none =>
      rw [poolStep_advance_none hx]
      refine (and_iff_left fun x hx' => ?_).symm
      rw [hx] at hx'
      cases hx'
    | some x =>
      rw [poolStep_advance hx, forall_mem_set_iff hx not_crowded_advance_iff]
      refine and_congr_right fun _ => ⟨fun h y hy => ?_, fun h => h x hx⟩
      obtain rfl := Option.some.inj (hx.symm.trans hy)
      exact h

end runs

theorem budgetsHeld_start (t : BudgetRows) : BudgetsHeld ⟨t, []⟩ := ⟨trivial, nofun⟩

/-! ### Whole runs -/

/-- **Setting a budget.**  In every run a scope has one row at most, and a PUT that succeeds has set its limit in one of
its calls; a request that fails has changed nothing if the balances can be reread behind every write; and a PUT fails for
the requests beside it exactly if one of its calls is disturbed by them. -/
theorem budget_writes_atomic (t : BudgetRows) (steps : List BudgetWriteStep) :
    let w := run budgetStep ⟨t, []⟩ steps
    (∀ a ∈ w.shared.rows, ∀ b ∈ w.shared.rows, a.key = b.key → a = b) ∧
    (∀ k x key limit, w.procs[k]? = some x → x.request = .put key limit → x.phase = .answered (.ok ()) →
      ∃ before i after, steps = before ++ .advance k i :: after ∧
        (run budgetStep ⟨t, []⟩ (before ++ [.advance k i])).shared.limitOf key = some limit) ∧
    (StepsMeet budgetStep Rereads ⟨t, []⟩ steps →
      ∀ k x e, w.procs[k]? = some x → x.phase = .answered (.error e) → ∀ before i after,
      steps = before ++ .advance k i :: after →
      (run budgetStep ⟨t, []⟩ (before ++ [.advance k i])).shared = (run budgetStep ⟨t, []⟩ before).shared) ∧
    ((∀ x ∈ w.procs, ¬x.Crowded) ↔ StepsMeet budgetStep Undisturbed ⟨t, []⟩ steps) := by
  refine ⟨fun a ha b hb => one_row ha hb, fun k x key limit hx hrequest hphase => ?_, ?_, ?_⟩
  · refine exists_written steps (budgetsHeld_start t) ?_ hx (.inr (.inl hphase)) hrequest
    rintro ⟨y, hy, -⟩
    cases hy
  · rintro hreads k x e hx hphase before i after rfl
    by_contra hchanged
    have hread : BudgetsRead (run budgetStep ⟨t, []⟩ (before ++ .advance k i :: after)) :=
      run_invariant (fun _ _ hmeets h => h.step hmeets) _ _ ⟨trivial, nofun⟩ hreads
    have hnot := hread.2 k x hx
    have hbefore : BudgetsHeld (run budgetStep ⟨t, []⟩ before) :=
      run_invariant_of_forall (fun _ step h => h.step step) before _ (budgetsHeld_start t)
    rw [run_append] at hchanged
    have hdone := (doneAt_of_changed hbefore hchanged).run (hbefore.step _) after
    rw [run_append, run_cons] at hx
    obtain ⟨y, hy, hydone⟩ := hdone
    obtain rfl := Option.some.inj (hx.symm.trans hy)
    rcases hydone with h | h | h
    · rw [hphase] at h
      cases h
    · rw [hphase] at h
      cases h
    · exact hnot h
  · have hiff := run_iff_stepsMeet (I := fun w : BudgetPool => ∀ x ∈ w.procs, ¬x.Crowded)
      (fun _ step => crowded_step_iff step) steps ⟨t, []⟩
    exact hiff.trans (and_iff_right nofun)

/-! ### A DELETE between a lookup and its update -/

def teamKey : BudgetKey := ⟨1, .recurring, .team⟩

/-- The organization's budget of 100 micro-USD. -/
def oneBudget : BudgetRows where
  rows := [⟨0, teamKey, 100⟩]
  next := 1
  budgets_pkey := List.nodup_singleton _
  scope_uniq := List.nodup_singleton _
  drawn := by decide

/-- A PUT of 200 finds the row, which a DELETE then removes. -/
def overtakenPut : List BudgetWriteStep :=
  [.spawn (.put teamKey 200), .spawn (.delete 1 0), .advance 0 true, .advance 0 true, .advance 1 true, .advance 0 true]

theorem delete_fails_put : (run budgetStep ⟨oneBudget, []⟩ overtakenPut).procs =
    [⟨.put teamKey 200, .answered (.error .noRow)⟩, ⟨.delete 1 0, .answered (.ok ())⟩] := by
  decide

/-- A PUT of 200 for a month without balances writes the limit and answers an error. -/
example :
    let w := run budgetStep ⟨oneBudget, []⟩ [.spawn (.put ⟨1, .pinned 0, .team⟩ 200), .advance 0 true, .advance 0 true,
      .advance 0 true, .advance 0 false]
    w.procs = [⟨.put ⟨1, .pinned 0, .team⟩ 200, .answered (.error .balances)⟩] ∧
      w.shared.limitOf ⟨1, .pinned 0, .team⟩ = some 200 := by
  decide

/-- Beside a PUT, a DELETE of a budget that is not there fails and changes nothing. -/
theorem budget_writes_atomic_served :
    let steps : List BudgetWriteStep := [.spawn (.put teamKey 200), .spawn (.delete 1 7), .advance 0 true, .advance 0 true,
      .advance 0 true, .advance 1 true, .advance 0 true]
    (run budgetStep ⟨oneBudget, []⟩ [.spawn (.put teamKey 200), .spawn (.delete 1 7), .advance 0 true, .advance 0 true,
      .advance 0 true, .advance 1 true]).shared = (run budgetStep ⟨oneBudget, []⟩ (steps.take 5)).shared := by
  intro steps
  have hreads : StepsMeet budgetStep Rereads ⟨oneBudget, []⟩ steps := by
    refine ⟨trivial, trivial, ?_, ?_, ?_, ?_, ?_, trivial⟩ <;> exact fun _ _ _ => rfl
  exact (budget_writes_atomic oneBudget steps).2.2.1 hreads 1 ⟨.delete 1 7, .answered (.error (.notFound 7))⟩ _
    (by rfl) rfl (steps.take 5) true (steps.drop 6) rfl

end Experiential.Gateway
