import Experiential.Gateway.Database
import Experiential.Lib.Fence

/-! # Exclusive ownership of a replay operation

One row of `gateway_replay_operations` stands for a keyed operation in flight or completed.
`replayClaim` grants the operation to its caller, under a token, when there is no live row;
`replayPublish` stores the response of the owner, and `replayAbandon` gives the operation up. All
three recognise the owner by its token alone. The `_eq_ok` lemmas are their whole effect.

Each operation of the store is a fenced slot (`slotOf`): a claimed row is held under its token, a
published one is done. `replayStep_slot` says that every call refines the slot: it grants only
its own token, and drops a published row only when it is past its retention. The three parts of
`replay_ownership_exclusive` are then facts about slots. -/

namespace Experiential.Replay

open Gateway

/-! ### Rows -/

/-- The primary key: a caller operation within a tenant, an identity, an alias revision and a
surface. -/
structure ReplayOperation where
  organizationId : String
  identityId : String
  aliasRevisionId : String
  apiSurface : ApiSurface
  callerOperationSha256 : String
deriving DecidableEq

/-- The response columns. `headers` is a document of arrays of texts. -/
structure StoredResponse where
  status : Int
  mediaType : String
  headers : List (List String)
  body : List UInt8
deriving DecidableEq

/-- The checks of the response columns. -/
def StoredResponse.Check (r : StoredResponse) : Prop :=
  100 ≤ r.status ∧ r.status ≤ 599 ∧ 1 ≤ r.mediaType.length ∧ r.mediaType.length ≤ 256 ∧
    r.body.length ≤ 4194304

instance : DecidablePred StoredResponse.Check := fun _ => inferInstanceAs (Decidable (_ ∧ _ ∧ _ ∧ _ ∧ _))

/-- A row has its response and its retention exactly when it is published. -/
inductive ReplayState where
  | claimed
  | published (publishedAt expiresAt : Int) (response : StoredResponse)
deriving DecidableEq

structure ReplayRow where
  operation : ReplayOperation
  canonicalRequestSha256 : String
  ownerToken : Nat
  state : ReplayState
  claimedAt : Int
  leaseExpiresAt : Int
deriving DecidableEq

/-- The response of a published row. -/
def ReplayRow.response? (r : ReplayRow) : Option StoredResponse :=
  match r.state with
  | .claimed => none
  | .published _ _ response => some response

def ReplayRow.Check (r : ReplayRow) : Prop := ∀ response ∈ r.response?, response.Check

instance : DecidablePred ReplayRow.Check := fun r =>
  inferInstanceAs (Decidable (∀ response ∈ r.response?, response.Check))

abbrev ReplayRows := Table ReplayRow.operation ReplayRow.Check

/-- Published, and past its retention. -/
def ReplayRow.expired (r : ReplayRow) (now : Int) : Bool :=
  match r.state with
  | .claimed => false
  | .published _ expiresAt _ => decide (expiresAt ≤ now)

/-- Claimed, and past its lease. -/
def ReplayRow.lapsed (r : ReplayRow) (now : Int) : Bool :=
  decide (r.state = .claimed) && decide (r.leaseExpiresAt ≤ now)

/-- The row of an operation that the token owns, unpublished. -/
def ReplayRow.owned (r : ReplayRow) (operation : ReplayOperation) (ownerToken : Nat) : Bool :=
  decide (r.operation = operation) && decide (r.ownerToken = ownerToken) && decide (r.state = .claimed)

/-! ### Claiming -/

/-- The parameters of `gateway_replay_claim`. -/
structure ClaimArgs where
  operation : ReplayOperation
  canonicalRequestSha256 : String
  ownerToken : Nat
  leaseSeconds : Option Int
deriving DecidableEq

/-- The clock readings of one claim. -/
structure ClaimClock where
  prune : Int
  leaseCheck : Int
  claimedAt : Int
  leaseFrom : Int
deriving DecidableEq

def ClaimClock.at (t : Int) : ClaimClock := ⟨t, t, t, t⟩

inductive ClaimKind where
  | owner
  | join
  | replay (response : StoredResponse)
  | conflict
deriving DecidableEq

/-- The row of a new owner. -/
def ClaimArgs.row (p : ClaimArgs) (leaseSeconds : Int) (c : ClaimClock) : ReplayRow where
  operation := p.operation
  canonicalRequestSha256 := p.canonicalRequestSha256
  ownerToken := p.ownerToken
  state := .claimed
  claimedAt := c.claimedAt
  leaseExpiresAt := c.leaseFrom + leaseSeconds * usPerSecond

/-- The row after a takeover. -/
def ClaimArgs.takeOver (p : ClaimArgs) (leaseSeconds : Int) (c : ClaimClock) (r : ReplayRow) : ReplayRow :=
  { r with
    canonicalRequestSha256 := p.canonicalRequestSha256
    ownerToken := p.ownerToken
    claimedAt := c.claimedAt
    leaseExpiresAt := c.leaseFrom + leaseSeconds * usPerSecond }

/-- What a live row answers a claim with. -/
def ReplayRow.answer (r : ReplayRow) (canonicalRequestSha256 : String) : ClaimKind :=
  if r.canonicalRequestSha256 ≠ canonicalRequestSha256 then .conflict
  else match r.state with
    | .published _ _ response => .replay response
    | .claimed => .join

/-- `gateway_replay_claim`. -/
def replayClaim (rows : ReplayRows) (p : ClaimArgs) (c : ClaimClock) : Raises (ReplayRows × ClaimKind) :=
  let notPositive := raised .c22023 "gateway replay lease must be positive"
  do
    let leaseSeconds ← require p.leaseSeconds notPositive
    ensure (0 < leaseSeconds) notPositive
    let live := rows.delete (·.expired c.prune)
    match live.find? p.operation with
    | none => do
        let rows' ← write (live.insert (p.row leaseSeconds c))
        return (rows', .owner)
    | some r =>
        if r.lapsed c.leaseCheck then do
          let rows' ← write (live.update (fun x => decide (x.operation = p.operation))
            (p.takeOver leaseSeconds c) (fun _ => rfl))
          return (rows', .owner)
        else return (live, r.answer p.canonicalRequestSha256)

/-- The operation was granted to the claim: there was no live row, or one whose lease had lapsed. -/
structure Granted (rows : ReplayRows) (p : ClaimArgs) (c : ClaimClock) (rows' : ReplayRows) : Prop where
  free : ∀ r, (rows.delete (·.expired c.prune)).find? p.operation = some r → r.lapsed c.leaseCheck = true
  find? : ∃ row : ReplayRow, row.canonicalRequestSha256 = p.canonicalRequestSha256 ∧
    row.ownerToken = p.ownerToken ∧ row.state = .claimed ∧ ∀ operation, rows'.find? operation =
      if p.operation = operation then some row else (rows.delete (·.expired c.prune)).find? operation

/-- **A claim prunes, and then grants the operation or answers from its live row.** -/
theorem replayClaim_eq_ok {rows rows' : ReplayRows} {p : ClaimArgs} {c : ClaimClock} {k : ClaimKind}
    (h : replayClaim rows p c = .ok (rows', k)) :
    k = .owner ∧ Granted rows p c rows' ∨
    rows' = rows.delete (·.expired c.prune) ∧ ∃ r, rows'.find? p.operation = some r ∧
      r.lapsed c.leaseCheck = false ∧ k = r.answer p.canonicalRequestSha256 := by
  simp only [replayClaim, bind_eq_ok, require_eq_ok, ensure_eq_ok] at h
  obtain ⟨leaseSeconds, -, _, -, h⟩ := h
  cases hr : (rows.delete (·.expired c.prune)).find? p.operation with
  | none =>
      simp only [hr, bind_eq_ok, write_eq_ok, pure_eq_ok, Prod.mk.injEq] at h
      obtain ⟨t, ht, rfl, rfl⟩ := h
      refine .inl ⟨rfl, fun r hr' => ?_, p.row leaseSeconds c, rfl, rfl, rfl, ?_⟩
      · rw [hr] at hr'
        cases hr'
      · exact fun operation => Table.find?_insert ht operation
  | some r =>
      simp only [hr] at h
      by_cases hl : r.lapsed c.leaseCheck = true
      · simp only [if_pos hl, bind_eq_ok, write_eq_ok, pure_eq_ok, Prod.mk.injEq] at h
        obtain ⟨t, ht, rfl, rfl⟩ := h
        refine .inl ⟨rfl, fun r' hr' => ?_, p.takeOver leaseSeconds c r, rfl, rfl, ?_, ?_⟩
        · rw [hr] at hr'
          cases hr'
          exact hl
        · simp only [ReplayRow.lapsed, Bool.and_eq_true, decide_eq_true_eq] at hl
          exact hl.1
        · intro operation
          rw [Table.find?_update ht]
          split_ifs with hop
          · rw [← hop, hr, Option.map_some, if_pos (by simpa using (Table.find?_eq_some.mp hr).2)]
          · cases hf : (rows.delete (·.expired c.prune)).find? operation with
            | none => rfl
            | some x =>
                have hne : x.operation ≠ p.operation := fun he =>
                  hop (he.symm.trans (Table.find?_eq_some.mp hf).2)
                simp [hne]
      · simp only [if_neg hl, pure_eq_ok, Prod.mk.injEq] at h
        obtain ⟨rfl, rfl⟩ := h
        exact .inr ⟨rfl, r, hr, by simpa using hl, rfl⟩

/-! ### Publishing and abandoning -/

/-- The parameters of `gateway_replay_publish`; the adapter always passes a whole response. -/
structure PublishArgs where
  operation : ReplayOperation
  ownerToken : Nat
  response : StoredResponse
  ttlSeconds : Option Int
deriving DecidableEq

/-- The clock readings of one publication. -/
structure PublishClock where
  publishedAt : Int
  retainFrom : Int
deriving DecidableEq

def PublishClock.at (t : Int) : PublishClock := ⟨t, t⟩

/-- The row with the response published. -/
def PublishArgs.publish (p : PublishArgs) (ttlSeconds : Int) (c : PublishClock) (r : ReplayRow) :
    ReplayRow :=
  { r with state := .published c.publishedAt (c.retainFrom + ttlSeconds * usPerSecond) p.response }

/-- `gateway_replay_publish`; the result says whether a row was published. -/
def replayPublish (rows : ReplayRows) (p : PublishArgs) (c : PublishClock) : Raises (ReplayRows × Bool) :=
  let notPositive := raised .c22023 "gateway replay retention must be positive"
  do
    let ttlSeconds ← require p.ttlSeconds notPositive
    ensure (0 < ttlSeconds) notPositive
    let rows' ← write (rows.update (·.owned p.operation p.ownerToken) (p.publish ttlSeconds c) (fun _ => rfl))
    return (rows', decide ((rows.rows.filter (·.owned p.operation p.ownerToken)).length = 1))

/-- `gateway_replay_abandon`. -/
def replayAbandon (rows : ReplayRows) (operation : ReplayOperation) (ownerToken : Nat) : ReplayRows :=
  rows.delete (·.owned operation ownerToken)

/-- The token owns the operation, unpublished. -/
def Owns (rows : ReplayRows) (operation : ReplayOperation) (ownerToken : Nat) (r : ReplayRow) : Prop :=
  rows.find? operation = some r ∧ r.ownerToken = ownerToken ∧ r.state = .claimed

variable {operation : ReplayOperation} {rows : ReplayRows} {r : ReplayRow}

theorem owned_iff {ownerToken : Nat} :
    r ∈ rows ∧ r.owned operation ownerToken = true ↔ Owns rows operation ownerToken r := by
  simp only [Owns, Table.find?_eq_some, ReplayRow.owned, Bool.and_eq_true, decide_eq_true_eq, and_assoc]

/-- The rows of an owned operation, filtered, are one row. -/
theorem filter_owned {ownerToken : Nat}
    (h : Owns rows operation ownerToken r) : rows.rows.filter (·.owned operation ownerToken) = [r] := by
  have hnodup : (rows.rows.filter (·.owned operation ownerToken)).Nodup :=
    (List.Nodup.of_map _ rows.keyed).filter _
  refine List.perm_singleton.mp ((List.perm_ext_iff_of_nodup hnodup (List.nodup_singleton r)).mpr ?_)
  intro x
  rw [List.mem_filter, List.mem_singleton]
  constructor
  · intro hx
    exact Option.some.inj ((owned_iff.mp hx).1.symm.trans h.1)
  · rintro rfl
    exact owned_iff.mpr h

/-- **A publication publishes the row its token owns, or changes nothing.** -/
theorem replayPublish_eq_ok {rows rows' : ReplayRows} {p : PublishArgs} {c : PublishClock} {b : Bool}
    (h : replayPublish rows p c = .ok (rows', b)) :
    (b = true ∧ ∃ r ttlSeconds, Owns rows p.operation p.ownerToken r ∧ ∀ operation,
      rows'.find? operation =
        if p.operation = operation then some (p.publish ttlSeconds c r) else rows.find? operation) ∨
    b = false ∧ rows' = rows ∧ ∀ r, ¬ Owns rows p.operation p.ownerToken r := by
  simp only [replayPublish, bind_eq_ok, require_eq_ok, ensure_eq_ok, write_eq_ok, pure_eq_ok,
    Prod.mk.injEq] at h
  obtain ⟨ttlSeconds, -, _, -, t, ht, rfl, rfl⟩ := h
  by_cases hown : ∃ r, Owns rows p.operation p.ownerToken r
  · obtain ⟨r, hr⟩ := hown
    refine .inl ⟨by simp [filter_owned hr], r, ttlSeconds, hr, fun operation => ?_⟩
    rw [Table.find?_update ht]
    split_ifs with hop
    · rw [← hop, hr.1, Option.map_some, if_pos (owned_iff.mpr hr).2]
    · cases hf : rows.find? operation with
      | none => rfl
      | some x =>
          have hne : x.operation ≠ p.operation := fun he =>
            hop (he.symm.trans (Table.find?_eq_some.mp hf).2)
          simp [ReplayRow.owned, hne]
  · have hnone : ∀ r ∈ rows, r.owned p.operation p.ownerToken = false := fun r hr =>
      Bool.eq_false_iff.mpr fun ho => hown ⟨r, owned_iff.mp ⟨hr, ho⟩⟩
    refine .inr ⟨?_, Table.update_eq_self ht hnone, fun r hr => hown ⟨r, hr⟩⟩
    rw [List.filter_eq_nil_iff.mpr fun r hr => by simp [hnone r hr]]
    rfl

theorem replayAbandon_of_not_owns {ownerToken : Nat}
    (h : ∀ r, ¬ Owns rows operation ownerToken r) : replayAbandon rows operation ownerToken = rows :=
  Table.delete_eq_self fun r hr => Bool.eq_false_iff.mpr fun ho => h r (owned_iff.mp ⟨hr, ho⟩)

theorem replayAbandon_find? (rows : ReplayRows) (operation : ReplayOperation) (ownerToken : Nat)
    (k : ReplayOperation) : (replayAbandon rows operation ownerToken).find? k =
      (rows.find? k).filter (fun r => !r.owned operation ownerToken) := Table.find?_delete rows _ k

theorem replayAbandon_find?_of_owns {ownerToken : Nat} (h : Owns rows operation ownerToken r) :
    (replayAbandon rows operation ownerToken).find? operation = none := by
  rw [replayAbandon_find?, h.1]
  simp [(owned_iff.mpr h).2]

/-! ### Calls -/

/-- One call of a replay function. -/
inductive ReplayCall where
  | claim (p : ClaimArgs) (c : ClaimClock)
  | publish (p : PublishArgs) (c : PublishClock)
  | abandon (operation : ReplayOperation) (ownerToken : Nat)
deriving DecidableEq

/-- The token a claim carries. -/
def ReplayCall.claimToken : ReplayCall → Option Nat
  | .claim p _ => some p.ownerToken
  | _ => none

/-- When a claim reads the clock to prune. -/
def ReplayCall.prunedAt : ReplayCall → Option Int
  | .claim _ c => some c.prune
  | _ => none

/-- Run one call. -/
def replayExecute (rows : ReplayRows) : ReplayCall → Raises ReplayRows
  | .claim p c => do
      let (rows', _) ← replayClaim rows p c
      return rows'
  | .publish p c => do
      let (rows', _) ← replayPublish rows p c
      return rows'
  | .abandon operation ownerToken => return replayAbandon rows operation ownerToken

/-- The store driven by calls. -/
def replayStep : ReplayRows → ReplayCall → ReplayRows := orStay replayExecute

/-- No two claims carry one token: each draws a fresh one. -/
def FreshTokens (calls : List ReplayCall) : Prop := (calls.filterMap ReplayCall.claimToken).Nodup

instance : DecidablePred FreshTokens := fun calls =>
  inferInstanceAs (Decidable (calls.filterMap ReplayCall.claimToken).Nodup)

/-! ### The store refines a slot for each operation -/

/-- A row as a slot; the result of a published row is the row itself. -/
def ReplayRow.slot (r : ReplayRow) : Slot Nat ReplayRow :=
  match r.state with
  | .claimed => .held r.ownerToken
  | .published _ _ _ => .done r.ownerToken r

/-- The slot of an operation. -/
def slotOf (rows : ReplayRows) (operation : ReplayOperation) : Slot Nat ReplayRow :=
  match rows.find? operation with
  | none => .free
  | some r => r.slot

theorem slotOf_congr {rows rows' : ReplayRows}
    (h : rows'.find? operation = rows.find? operation) : slotOf rows' operation = slotOf rows operation := by
  rw [slotOf, slotOf, h]

theorem slot_claimed (h : r.state = .claimed) : r.slot = .held r.ownerToken := by
  simp [ReplayRow.slot, h]

theorem slot_published {t e : Int} {s : StoredResponse} (h : r.state = .published t e s) :
    r.slot = .done r.ownerToken r := by
  simp [ReplayRow.slot, h]

theorem slotOf_some (h : rows.find? operation = some r) : slotOf rows operation = r.slot := by
  rw [slotOf, h]

theorem slotOf_none (h : rows.find? operation = none) : slotOf rows operation = .free := by
  rw [slotOf, h]

theorem held_iff {t : Nat} : (slotOf rows operation).Held t ↔ ∃ r, Owns rows operation t r := by
  constructor
  · intro h
    cases hr : rows.find? operation with
    | none =>
        rw [slotOf_none hr] at h
        cases h
    | some r =>
        rw [slotOf_some hr] at h
        cases hs : r.state with
        | claimed =>
            rw [slot_claimed hs] at h
            cases h
            exact ⟨r, hr, rfl, hs⟩
        | published a e s =>
            rw [slot_published hs] at h
            cases h
  · rintro ⟨r, hr, rfl, hs⟩
    rw [slotOf_some hr, slot_claimed hs]
    rfl

/-- What a call may do to the slot of an operation. -/
structure SlotTrace (rows : ReplayRows) (call : ReplayCall) (operation : ReplayOperation)
    (ops : List (SlotOp Nat ReplayRow)) : Prop where
  granted : ∀ t, .grant t ∈ ops → call.claimToken = some t
  expired : .expire ∈ ops → ∃ now r, call.prunedAt = some now ∧ rows.find? operation = some r ∧
    r.expired now = true

theorem SlotTrace.nil (rows : ReplayRows) (call : ReplayCall) (operation : ReplayOperation) :
    SlotTrace rows call operation [] := ⟨by simp, by simp⟩

/-- Pruning leaves a slot alone, or drops an expired result. -/
theorem prune_slot (rows : ReplayRows) (p : ClaimArgs) (c : ClaimClock) (operation : ReplayOperation) :
    ∃ ops, SlotTrace rows (.claim p c) operation ops ∧
      slotOf (rows.delete (·.expired c.prune)) operation = run Slot.apply (slotOf rows operation) ops := by
  cases hr : rows.find? operation with
  | none =>
      refine ⟨[], .nil _ _ _, ?_⟩
      rw [slotOf_none hr, slotOf_none (by rw [Table.find?_delete, hr, Option.filter_none]), run_nil]
  | some r =>
      cases he : r.expired c.prune with
      | false =>
          refine ⟨[], .nil _ _ _, slotOf_congr ?_⟩
          rw [Table.find?_delete, hr]
          simp [he]
      | true =>
          refine ⟨[.expire], ⟨by simp, fun _ => ⟨c.prune, r, rfl, hr, he⟩⟩, ?_⟩
          rw [slotOf_none (by rw [Table.find?_delete, hr]; simp [he]), slotOf_some hr]
          cases hs : r.state with
          | claimed => simp [ReplayRow.expired, hs] at he
          | published a e s =>
              rw [slot_published hs]
              rfl

theorem claim_slot {rows rows' : ReplayRows} {p : ClaimArgs} {c : ClaimClock} {k : ClaimKind}
    (h : replayClaim rows p c = .ok (rows', k)) (operation : ReplayOperation) :
    ∃ ops, SlotTrace rows (.claim p c) operation ops ∧
      slotOf rows' operation = run Slot.apply (slotOf rows operation) ops := by
  obtain ⟨ops, htrace, hprune⟩ := prune_slot rows p c operation
  rcases replayClaim_eq_ok h with ⟨-, hg⟩ | ⟨rfl, -⟩
  · obtain ⟨row, -, htoken, hstate, hfind⟩ := hg.find?
    by_cases hop : p.operation = operation
    · refine ⟨ops ++ [.grant p.ownerToken], ⟨fun t ht => ?_, fun hexp => ?_⟩, ?_⟩
      · rcases List.mem_append.mp ht with ht | ht
        · exact htrace.granted t ht
        · cases List.mem_singleton.mp ht
          rfl
      · exact htrace.expired (by simpa using hexp)
      · rw [run_append, ← hprune, run_cons, run_nil,
          slotOf_some ((hfind operation).trans (if_pos hop)), slot_claimed hstate, htoken]
        cases hr : (rows.delete (·.expired c.prune)).find? operation with
        | none =>
            rw [slotOf_none hr]
            rfl
        | some r =>
            have hl := hg.free r (hop ▸ hr)
            simp only [ReplayRow.lapsed, Bool.and_eq_true, decide_eq_true_eq] at hl
            rw [slotOf_some hr, slot_claimed hl.1]
            rfl
    · exact ⟨ops, htrace, by rw [slotOf_congr ((hfind operation).trans (if_neg hop)), hprune]⟩
  · exact ⟨ops, htrace, hprune⟩

theorem publish_slot {rows rows' : ReplayRows} {p : PublishArgs} {c : PublishClock} {b : Bool}
    (h : replayPublish rows p c = .ok (rows', b)) (operation : ReplayOperation) :
    ∃ ops, SlotTrace rows (.publish p c) operation ops ∧
      slotOf rows' operation = run Slot.apply (slotOf rows operation) ops := by
  rcases replayPublish_eq_ok h with ⟨-, r, ttlSeconds, ⟨hr, htoken, hstate⟩, hfind⟩ | ⟨-, rfl, -⟩
  · by_cases hop : p.operation = operation
    · refine ⟨[.publish p.ownerToken (p.publish ttlSeconds c r)], ⟨by simp, by simp⟩, ?_⟩
      rw [slotOf_some ((hfind operation).trans (if_pos hop)), slotOf_some (hop ▸ hr), slot_claimed hstate,
        slot_published rfl, ← htoken, run_cons, run_nil, Slot.apply, if_pos rfl]
      rfl
    · exact ⟨[], .nil _ _ _, slotOf_congr ((hfind operation).trans (if_neg hop))⟩
  · exact ⟨[], .nil _ _ _, rfl⟩

theorem abandon_slot (rows : ReplayRows) (abandoned : ReplayOperation) (t : Nat)
    (operation : ReplayOperation) : ∃ ops, SlotTrace rows (.abandon abandoned t) operation ops ∧
      slotOf (replayAbandon rows abandoned t) operation = run Slot.apply (slotOf rows operation) ops := by
  by_cases hown : ∃ r, Owns rows abandoned t r
  · obtain ⟨r, hr⟩ := hown
    by_cases hop : abandoned = operation
    · subst hop
      refine ⟨[.release t], ⟨by simp, by simp⟩, ?_⟩
      rw [slotOf_none (replayAbandon_find?_of_owns hr), slotOf_some hr.1, slot_claimed hr.2.2, hr.2.1]
      simp [Slot.apply]
    · refine ⟨[], .nil _ _ _, slotOf_congr ?_⟩
      rw [replayAbandon_find?]
      cases hf : rows.find? operation with
      | none => rfl
      | some x =>
          have hne : x.operation ≠ abandoned := fun he => hop (he.symm.trans (Table.find?_eq_some.mp hf).2)
          simp [ReplayRow.owned, hne]
  · exact ⟨[], .nil _ _ _, by rw [replayAbandon_of_not_owns (not_exists.mp hown), run_nil]⟩

/-- **Every call is a run of the slot of every operation.** -/
theorem replayStep_slot (rows : ReplayRows) (call : ReplayCall) (operation : ReplayOperation) :
    ∃ ops, SlotTrace rows call operation ops ∧
      slotOf (replayStep rows call) operation = run Slot.apply (slotOf rows operation) ops := by
  refine orStay_preserves (f := replayExecute) (I := fun rows' => ∃ ops, SlotTrace rows call operation ops ∧
    slotOf rows' operation = run Slot.apply (slotOf rows operation) ops) ?_ ⟨[], .nil _ _ _, rfl⟩
  intro rows' h _
  cases call with
  | claim p c =>
      simp only [replayExecute, bind_eq_ok, pure_eq_ok] at h
      obtain ⟨⟨rows₁, k⟩, hk, rfl⟩ := h
      exact claim_slot hk operation
  | publish p c =>
      simp only [replayExecute, bind_eq_ok, pure_eq_ok] at h
      obtain ⟨⟨rows₁, b⟩, hb, rfl⟩ := h
      exact publish_slot hb operation
  | abandon abandoned t =>
      simp only [replayExecute, pure_eq_ok] at h
      rw [← h]
      exact abandon_slot rows abandoned t operation

/-! ### Tokens -/

/-- A token that does not hold an operation, and is not granted again, never holds it. -/
theorem not_held_run {calls : List ReplayCall} {t : Nat}
    (h : ¬ (slotOf rows operation).Held t) (hfresh : t ∉ calls.filterMap ReplayCall.claimToken) :
    ¬ (slotOf (run replayStep rows calls) operation).Held t := by
  refine run_invariant (I := fun rows => ¬ (slotOf rows operation).Held t) ?_ calls rows h
    (stepsMeet_of_forall (C := fun call => call.claimToken ≠ some t) rows fun call hcall htoken =>
      hfresh (List.mem_filterMap.mpr ⟨call, hcall, htoken⟩))
  intro rows' call hne hrows'
  obtain ⟨ops, htrace, hslot⟩ := replayStep_slot rows' call operation
  rw [hslot]
  exact Slot.not_held_run ops _ hrows' fun hgrant => hne (htrace.granted t hgrant)

/-- A token in a slot was there before, or a claim carried it meanwhile. -/
theorem token_run {t : Nat} : ∀ (calls : List ReplayCall) (rows : ReplayRows),
    (slotOf (run replayStep rows calls) operation).token? = some t →
    (slotOf rows operation).token? = some t ∨ t ∈ calls.filterMap ReplayCall.claimToken
  | [], _, h => .inl h
  | call :: calls, rows, h => by
      rcases token_run calls (replayStep rows call) h with h | h
      · obtain ⟨ops, htrace, hslot⟩ := replayStep_slot rows call operation
        rw [hslot] at h
        rcases Slot.token?_run ops _ h with h | h
        · exact .inl h
        · exact .inr (List.mem_filterMap.mpr ⟨call, List.mem_cons_self, htrace.granted t h⟩)
      · obtain ⟨c, hc, htoken⟩ := List.mem_filterMap.mp h
        exact .inr (List.mem_filterMap.mpr ⟨c, List.mem_cons_of_mem _ hc, htoken⟩)

/-! ### Who can publish -/

/-- Some publication under the token would succeed. -/
def CanPublish (rows : ReplayRows) (operation : ReplayOperation) (t : Nat) : Prop :=
  ∃ p c rows', p.operation = operation ∧ p.ownerToken = t ∧ replayPublish rows p c = .ok (rows', true)

theorem held_of_publish {rows rows' : ReplayRows} {p : PublishArgs} {c : PublishClock}
    (h : replayPublish rows p c = .ok (rows', true)) : (slotOf rows p.operation).Held p.ownerToken := by
  rcases replayPublish_eq_ok h with ⟨-, r, _, hown, -⟩ | ⟨hb, -⟩
  · exact held_iff.mpr ⟨r, hown⟩
  · cases hb

theorem CanPublish.held {t : Nat} (h : CanPublish rows operation t) : (slotOf rows operation).Held t := by
  obtain ⟨p, c, rows', rfl, rfl, h⟩ := h
  exact held_of_publish h

/-- A token that does not hold the operation publishes nothing and abandons nothing. -/
theorem not_held_noop {t : Nat} (h : ¬ (slotOf rows operation).Held t) :
    (∀ p c, p.operation = operation → p.ownerToken = t → replayStep rows (.publish p c) = rows) ∧
      replayStep rows (.abandon operation t) = rows := by
  constructor
  · rintro p c rfl rfl
    refine orStay_preserves (f := replayExecute) (I := fun rows' => rows' = rows) ?_ rfl
    intro rows' hexec _
    simp only [replayExecute, bind_eq_ok, pure_eq_ok] at hexec
    obtain ⟨⟨rows₁, b⟩, hb, rfl⟩ := hexec
    rcases replayPublish_eq_ok hb with ⟨-, r, _, hown, -⟩ | ⟨-, hsame, -⟩
    · exact absurd (held_iff.mpr ⟨r, hown⟩) h
    · exact hsame
  · exact replayAbandon_of_not_owns fun r hown => h (held_iff.mpr ⟨r, hown⟩)

/-! ### Published rows -/

/-- A published row stays as it is through calls that prune before its retention ends. -/
theorem published_run {calls : List ReplayCall} {t e : Int} {s : StoredResponse} (hr : rows.find? operation = some r)
    (hs : r.state = .published t e s)
    (hlive : ∀ call ∈ calls, ∀ now, call.prunedAt = some now → now < e) :
    (run replayStep rows calls).find? operation = some r := by
  refine run_invariant (I := fun rows => rows.find? operation = some r) ?_ calls rows hr
    (stepsMeet_of_forall (C := fun call => ∀ now, call.prunedAt = some now → now < e) rows hlive)
  intro rows' call hbefore hrows'
  obtain ⟨ops, htrace, hslot⟩ := replayStep_slot rows' call operation
  rw [slotOf_some hrows', slot_published hs, Slot.done_run ops] at hslot
  · -- A slot that is done with the row `r` is the slot of `r`.
    cases hf : (replayStep rows' call).find? operation with
    | none =>
        rw [slotOf_none hf] at hslot
        cases hslot
    | some q =>
        rw [slotOf_some hf] at hslot
        cases hq : q.state with
        | claimed =>
            rw [slot_claimed hq] at hslot
            cases hslot
        | published t' e' s' =>
            rw [slot_published hq] at hslot
            rw [(Slot.done.inj hslot).2]
  · intro hexp
    obtain ⟨now, q, hnow, hq, hexpired⟩ := htrace.expired hexp
    cases hrows'.symm.trans hq
    simp only [ReplayRow.expired, hs, decide_eq_true_eq] at hexpired
    have := hbefore now hnow
    omega

/-! ### Superseded tokens -/

/-- The call takes the operation from the token that holds it: another claim takes it over, or its
owner abandons or publishes it. -/
inductive Supersedes (rows : ReplayRows) (operation : ReplayOperation) (t : Nat) : ReplayCall → Prop
  | takeover (p : ClaimArgs) (c : ClaimClock) (rows' : ReplayRows) (hheld : (slotOf rows operation).Held t)
      (hop : p.operation = operation) (h : replayClaim rows p c = .ok (rows', .owner)) :
      Supersedes rows operation t (.claim p c)
  | abandon (hheld : (slotOf rows operation).Held t) : Supersedes rows operation t (.abandon operation t)
  | publish (p : PublishArgs) (c : PublishClock) (rows' : ReplayRows) (hop : p.operation = operation)
      (htoken : p.ownerToken = t) (h : replayPublish rows p c = .ok (rows', true)) :
      Supersedes rows operation t (.publish p c)

theorem Supersedes.held {t : Nat} {call : ReplayCall}
    (h : Supersedes rows operation t call) : (slotOf rows operation).Held t := by
  cases h with
  | takeover p c rows' hheld hop h => exact hheld
  | abandon hheld => exact hheld
  | publish p c rows' hop htoken h => exact hop ▸ htoken ▸ held_of_publish h

theorem Supersedes.not_held {t : Nat} {call : ReplayCall}
    (h : Supersedes rows operation t call) (hfresh : call.claimToken ≠ some t) :
    ¬ (slotOf (replayStep rows call) operation).Held t := by
  cases h with
  | takeover p c rows' hheld hop h =>
      have hstep : replayStep rows (.claim p c) = rows' := orStay_of_ok (by simp [replayExecute, h])
      rcases replayClaim_eq_ok h with ⟨-, hg⟩ | ⟨-, r, -, -, hk⟩
      · obtain ⟨row, -, htoken, hstate, hfind⟩ := hg.find?
        rw [hstep, slotOf_some ((hfind operation).trans (if_pos hop)), slot_claimed hstate, htoken]
        exact fun hh => hfresh (congrArg some (Slot.held_unique rfl hh))
      · -- A live row never answers `owner`.
        unfold ReplayRow.answer at hk
        split_ifs at hk
        split at hk <;> cases hk
  | abandon hheld =>
      obtain ⟨r, hr⟩ := held_iff.mp hheld
      have hstep : replayStep rows (.abandon operation t) = replayAbandon rows operation t := rfl
      rw [hstep, slotOf_none (replayAbandon_find?_of_owns hr)]
      rintro ⟨⟩
  | publish p c rows' hop htoken h =>
      have hstep : replayStep rows (.publish p c) = rows' := orStay_of_ok (by simp [replayExecute, h])
      rcases replayPublish_eq_ok h with ⟨-, r, ttlSeconds, -, hfind⟩ | ⟨hb, -⟩
      · rw [hstep, slotOf_some ((hfind operation).trans (if_pos hop)), slot_published rfl]
        rintro ⟨⟩
      · cases hb

/-! ### The run -/

/-- **Replay ownership is exclusive.**  In every run of claims with fresh tokens, publications and
abandonments: at most one token can publish an operation; a published row is unchanged until it
expires; a publication or an abandonment under a superseded token changes nothing. -/
theorem replay_ownership_exclusive (calls : List ReplayCall) (hfresh : FreshTokens calls) :
    (∀ operation t t', CanPublish (run replayStep .empty calls) operation t →
      CanPublish (run replayStep .empty calls) operation t' → t = t') ∧
    (∀ pre post, calls = pre ++ post → ∀ operation r t e s,
      (run replayStep .empty pre).find? operation = some r → r.state = .published t e s →
      (∀ call ∈ post, ∀ now, call.prunedAt = some now → now < e) →
      (run replayStep .empty calls).find? operation = some r) ∧
    (∀ pre call post, calls = pre ++ call :: post → ∀ operation t,
      Supersedes (run replayStep .empty pre) operation t call →
      ¬ CanPublish (run replayStep .empty calls) operation t ∧
      (∀ p c, p.operation = operation → p.ownerToken = t →
        replayStep (run replayStep .empty calls) (.publish p c) = run replayStep .empty calls) ∧
      replayStep (run replayStep .empty calls) (.abandon operation t) = run replayStep .empty calls) := by
  refine ⟨?_, ?_, ?_⟩
  · intro operation t t' h h'
    exact Slot.held_unique h.held h'.held
  · rintro pre post rfl operation r t e s hr hs hlive
    rw [run_append]
    exact published_run hr hs hlive
  · rintro pre call post rfl operation t hsup
    simp only [FreshTokens, List.filterMap_append, List.nodup_append] at hfresh
    obtain ⟨-, -, hdisjoint⟩ := hfresh
    -- The token was granted by an earlier claim, so no later one carries it.
    have hpre : t ∈ pre.filterMap ReplayCall.claimToken :=
      (token_run pre .empty (Slot.token?_of_held hsup.held)).resolve_left fun h => by cases h
    have hnot : ∀ c ∈ call :: post, c.claimToken ≠ some t := fun c hc htoken =>
      hdisjoint t hpre t (List.mem_filterMap.mpr ⟨c, hc, htoken⟩) rfl
    have hlost : ¬ (slotOf (run replayStep .empty (pre ++ call :: post)) operation).Held t := by
      rw [run_append, run_cons]
      refine not_held_run (hsup.not_held (hnot call List.mem_cons_self)) fun hmem => ?_
      obtain ⟨c, hc, htoken⟩ := List.mem_filterMap.mp hmem
      exact hnot c (List.mem_cons_of_mem _ hc) htoken
    exact ⟨fun hcan => hlost hcan.held, not_held_noop hlost⟩

def sampleOperation : ReplayOperation := ⟨"org", "identity", "revision", .responses, "operation"⟩

/-- A claim of the sample operation for five minutes. -/
def sampleClaim (body : String) (ownerToken : Nat) (t : Int) : ReplayCall :=
  .claim ⟨sampleOperation, body, ownerToken, some 300⟩ (.at t)

def sampleResponse : StoredResponse := ⟨200, "application/json", [["x-request-id", "r1"]], [123, 125]⟩

/-- The first owner vanishes, the second takes over after its lease and publishes. -/
def takeoverRun : List ReplayCall :=
  [sampleClaim "body" 1 0, sampleClaim "body" 2 400000000,
    .publish ⟨sampleOperation, 2, sampleResponse, some 86400⟩ (.at 500000000)]

theorem replay_ownership_exclusive_sample :
    ¬ CanPublish (run replayStep .empty takeoverRun) sampleOperation 1 ∧
    replayStep (run replayStep .empty takeoverRun) (.abandon sampleOperation 1)
      = run replayStep .empty takeoverRun :=
  have htaken : Supersedes (run replayStep .empty (takeoverRun.take 1)) sampleOperation 1
      (sampleClaim "body" 2 400000000) := .takeover _ _ _ (by rfl) (by rfl) (by rfl)
  have hrun := (replay_ownership_exclusive takeoverRun (by decide)).2.2 (takeoverRun.take 1) _
    (takeoverRun.drop 2) (by rfl) sampleOperation 1 htaken
  ⟨hrun.1, hrun.2.2⟩

end Experiential.Replay
