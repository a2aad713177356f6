import Experiential.Telemetry.Worker

/-! # Erasure of a deleted ingest

A ClickHouse delete removes the rows that are there when it runs. So the rows of an ingest are gone
for good when they are stored only while the ingest exists, or while its row in the deletion outbox
still has its ClickHouse delete to come (`Erasable`). `Tracked` is the invariant: wherever there are
stored rows the ingest is erasable. Every event is a sequence of the elementary changes `Change`,
which keep it; a projection that inserts after the delete of its ingest is the one event that does
not, and `late_insert_survives` is a run with it. -/

namespace Experiential.Telemetry

open Gateway

variable {Content Payload : Type}

/-- There are rows of the ingest in ClickHouse. -/
def World.Stores (w : World Content Payload) (id : Nat) : Prop := ∃ r ∈ w.stored, r.ingestId = id

/-- The ingest is gone, with its outbox row, and no worker is on it. -/
structure World.Settled (w : World Content Payload) (id : Nat) : Prop where
  deleted : w.db.ingests.find? id = none
  acknowledged : w.db.deletions.find? id = none
  projections : ∀ a ∈ w.projecting, a.claim.ingestId ≠ id
  erasures : ∀ a ∈ w.erasing, a.claim.ingestId ≠ id

/-- What is stored of the ingest now will be erased: the ingest is there, or its outbox row is, and
nobody who has run the ClickHouse delete can acknowledge that row. -/
def World.Erasable (w : World Content Payload) (id : Nat) : Prop :=
  (w.db.ingests.find? id).isSome = true ∨ ∃ d, w.db.deletions.find? id = some d ∧
    ∀ a ∈ w.erasing, a.claim.ingestId = id → a.stage = .erased →
      d.state.claimToken ≠ some a.claim.claimToken

/-- A batch is stored only while its ingest is erasable. -/
def StoresErasable (w : World Content Payload) : WorldEvent Content → Prop
  | .project token _ (.insert o) => ∀ a rows batch batches,
      w.projecting.find? (fun a => decide (a.claim.claimToken = token)) = some a →
      a.stage = .inserting rows (batch :: batches) → o.happened = true → w.Erasable a.claim.ingestId
  | _ => True

/-! ### What a call keeps of an ingest -/

variable {id : Nat} {call : QueueCall} {v v' : View}

/-- What no call changes of a receipt. -/
structure Keeps (i i' : TraceIngest) : Prop where
  orgId : i'.orgId = i.orgId
  worldModelId : i'.worldModelId = i.worldModelId
  projected : i.traceProjectionStatus ≠ none → i'.traceProjectionStatus ≠ none
  accepted : i'.status = .running ∨ i'.status = .done →
    i.status = .running ∨ i.status = .done ∨ i'.traceProjectionStatus ≠ none

theorem Keeps.refl (i : TraceIngest) : Keeps i i := ⟨rfl, rfl, id, fun h => h.imp_right .inl⟩

theorem Moves.ingest_of (h : Moves id call v v') {i' : TraceIngest} (hi' : v'.ingest = some i') :
    (∃ p now, call = .create p now ∧ p.ingestId = id ∧ i' = p.row now) ∨
    ∃ i, v.ingest = some i ∧ Keeps i i' := by
  cases h with
  | stay => exact .inr ⟨i', hi', .refl i'⟩
  | create p now v hid =>
      cases hi'
      exact .inl ⟨p, now, rfl, hid, rfl⟩
  | complete p now v i path q hid hi =>
      cases hi'
      exact .inr ⟨i, hi, rfl, rfl, by simp [CompleteArgs.complete], by simp [CompleteArgs.complete]⟩
  | accept now v i j hi =>
      cases hi'
      exact .inr ⟨i, hi, rfl, rfl, by simp [TraceIngest.accepted], by simp [TraceIngest.accepted]⟩
  | reaccept | backfill => exact .inr ⟨i', hi', .refl i'⟩
  | claim p now v i q _ _ _ hi =>
      cases hi'
      exact .inr ⟨i, hi, rfl, rfl, by simp [TraceIngest.projecting], by simp [TraceIngest.projecting]⟩
  | ack token rows now v i q hi =>
      cases hi'
      exact .inr ⟨i, hi, rfl, rfl, by simp [TraceIngest.acked], by simp [TraceIngest.acked]⟩
  | nack token _ _ now v i q _ error hi =>
      cases hi'
      exact .inr ⟨i, hi, rfl, rfl, by simp [TraceIngest.nacked], by simp [TraceIngest.nacked]⟩
  | record token p now v i q hi =>
      cases hi'
      exact .inr ⟨i, hi, rfl, rfl, fun h => h, fun h => h.imp_right .inl⟩
  | fail token _ _ now v i q error message hi =>
      cases hi'
      exact .inr ⟨i, hi, rfl, rfl, by simp [TraceIngest.failed], by simp [TraceIngest.failed]⟩
  | claimAbandoned _ _ _ now age v i hi =>
      cases hi'
      exact .inr ⟨i, hi, rfl, rfl, fun h => h, by simp [TraceIngest.abandon]⟩
  | dropPaths now v i hi =>
      cases hi'
      exact .inr ⟨i, hi, rfl, rfl, fun h => h, fun h => h.imp_right .inl⟩
  | remove => cases hi'
  | _ => exact .inr ⟨i', hi', .refl i'⟩

/-- A job is there because it was, or is a new one of a telemetry ingest that is accepted. -/
theorem Moves.job_of (h : Moves id call v v') (hq : v'.job.isSome = true) :
    v.job.isSome = true ∨ ∃ i', v'.ingest = some i' ∧ i'.worldModelId = none ∧
      (i'.status = .running ∨ i'.status = .done) := by
  cases h with
  | stay | create => exact .inl hq
  | complete p now v i path q hid hi hc =>
      simp only [TraceIngest.completable, Bool.and_eq_true, decide_eq_true_eq] at hc
      exact .inr ⟨_, rfl, hc.1.1, .inr rfl⟩
  | accept now v i j hi hnull => exact .inr ⟨_, rfl, hnull, .inl rfl⟩
  | reaccept now v i q hi hnull hp hawaits =>
      refine .inr ⟨i, hi, hnull, ?_⟩
      unfold TraceIngest.awaitsProjection at hawaits
      simp only [hp, false_or, Bool.or_eq_true, decide_eq_true_eq] at hawaits
      exact hawaits.imp_right And.left
  | backfill _ _ _ v i q hi hnull hs => exact .inr ⟨i, hi, hnull, .inr hs⟩
  | claim p now v i q _ _ _ hi hold => exact .inl (by rw [hold]; rfl)
  | ack => cases hq
  | nack token _ _ now v i q _ error hi hold => exact .inl (by rw [hold]; rfl)
  | record => exact .inl hq
  | fail => cases hq
  | claimAbandoned | dropPaths => exact .inl hq
  | remove => cases hq
  | _ => exact .inl hq

/-- The ingest and its outbox row belong to the organization. -/
def View.Owned (v : View) (orgId : Nat) : Prop :=
  (∀ i, v.ingest = some i → i.orgId = orgId) ∧ ∀ d, v.deletion = some d → d.orgId = orgId

theorem Moves.owned {orgId : Nat} (h : Moves id call v v') (hv : v.Owned orgId)
    (hcreate : ∀ p now, call = .create p now → p.ingestId = id → p.orgId = orgId) : v'.Owned orgId := by
  refine ⟨fun i' hi' => ?_, fun d' hd' => ?_⟩
  · cases h.ingest_of hi' with
    | inl hnew =>
        obtain ⟨p, now, hcall, hid, rfl⟩ := hnew
        exact hcreate p now hcall hid
    | inr hold =>
        obtain ⟨i, hi, hkeeps⟩ := hold
        exact hkeeps.orgId.trans (hv.1 i hi)
  · cases h with
    | remove call v i d _ hi hd =>
        obtain rfl : d = some d' := hd'
        cases hd with
        | inl hd => exact hv.2 d' hd.symm
        | inr hd =>
            obtain ⟨q, -, -, horg, hq⟩ := hd
            cases hq
            exact horg.trans (hv.1 i hi)
    | claimDeletion p now v q q' _ token _ hq _ horg | nackDeletion token _ _ now v q q' hq _ horg =>
        cases hd'
        exact horg.trans (hv.2 q hq)
    | ackDeletion => cases hd'
    | _ => exact hv.2 d' hd'

/-- An ingest is deleted before its outbox row is there. -/
def View.Exclusive (v : View) : Prop := v.deletion ≠ none → v.ingest = none

theorem Moves.exclusive (h : Moves id call v v') (hv : v.Exclusive)
    (hcreate : ∀ p now, call = .create p now → p.ingestId = id → v.deletion = none) : v'.Exclusive := by
  intro hd'
  cases h with
  | create p now v hid => exact absurd (hcreate p now rfl hid) hd'
  | remove => rfl
  | claimDeletion p now v q q' _ _ _ hq | nackDeletion token _ _ now v q q' hq => exact hv (by rw [hq]; simp)
  | ackDeletion => exact absurd rfl hd'
  | stay => exact hv hd'
  | complete p now v i _ _ _ hi | accept now v i _ hi | reaccept now v i _ hi | backfill _ _ _ v i _ hi
  | claim p now v i _ _ _ _ hi | ack token rows now v i _ hi | nack token _ _ now v i _ _ _ hi
  | record token p now v i _ hi | fail token _ _ now v i _ _ _ hi | claimAbandoned _ _ _ now _ v i hi
  | dropPaths now v i hi => exact absurd (hv hd') (by rw [hi]; simp)

/-- `World.Erasable`, for the tokens `E` under which the delete has been run. -/
def View.Erasable (v : View) (E : Nat → Prop) : Prop :=
  v.ingest.isSome = true ∨ ∃ d, v.deletion = some d ∧ ∀ t, E t → d.state.claimToken ≠ some t

theorem Moves.erasable {E : Nat → Prop} (h : Moves id call v v') (hex : v.Exclusive)
    (hprojected : ∀ i, v.ingest = some i → i.worldModelId = none ∧ i.traceProjectionStatus ≠ none)
    (hack : ∀ token, call ≠ .ackDeletion id token)
    (hfresh : ∀ p now, call = .claimDeletion p now → ∀ t ∈ p.tokens, ¬ E t) (hv : v.Erasable E) :
    v'.Erasable E := by
  cases h with
  | stay => exact hv
  | remove call v i d _ hi hd hd' =>
      have hnone : v.deletion = none := by
        by_contra hsome
        rw [hex hsome] at hi
        cases hi
      obtain ⟨hnull, hstatus⟩ := hprojected i hi
      cases hd with
      | inl hd => exact absurd (hd.trans hnone) (hd' hnull hstatus)
      | inr hd =>
          obtain ⟨q, -, hpending, -, rfl⟩ := hd
          refine .inr ⟨q, rfl, fun t _ => ?_⟩
          rw [hpending]
          simp [QueueState.claimToken]
  | claimDeletion p now v q q' _ token _ hq htoken _ hstate =>
      cases hv with
      | inl hi => exact .inl hi
      | inr hd =>
          refine .inr ⟨q', rfl, fun t ht => ?_⟩
          rw [hstate]
          rintro ⟨⟩
          exact hfresh p now rfl token htoken ht
  | nackDeletion token _ _ now v q q' hq _ _ hpending =>
      cases hv with
      | inl hi => exact .inl hi
      | inr hd =>
          refine .inr ⟨q', rfl, fun t _ => ?_⟩
          rw [hpending]
          simp [QueueState.claimToken]
  | ackDeletion token => exact absurd rfl (hack token)
  | reaccept now v i _ hi | backfill _ _ _ v i _ hi => exact .inl (by simp [hi])
  | _ => exact .inl rfl

/-- An acknowledgement under a token that has run the delete takes away only what is erased. -/
theorem Moves.erasable_ack {E : Nat → Prop} {k token : Nat} (h : Moves id (.ackDeletion k token) v v')
    (ht : k = id → E token) (hv : v.Erasable E) : v'.Erasable E := by
  cases h with
  | stay => exact hv
  | remove _ v i d hremoves =>
      rcases hremoves with ⟨now, he, -⟩ | ⟨now, he⟩
      · cases he
      · cases he
  | ackDeletion _ v q hq htoken =>
      cases hv with
      | inl hi => exact .inl hi
      | inr hd =>
          obtain ⟨d, hd, hnot⟩ := hd
          obtain rfl : d = q := Option.some.inj (hd.symm.trans hq)
          exact absurd htoken (hnot token (ht rfl))

/-! ### The elementary changes -/

/-- A call that keeps what is tracked: a drawn id or token is not in use, and no deletion is
acknowledged. -/
def World.Allows (w : World Content Payload) : QueueCall → Prop
  | .create p _ => w.known p.ingestId = false
  | .claimDeletion p _ => ∀ a ∈ w.erasing, a.claim.claimToken ∉ p.tokens
  | .ackDeletion _ _ => False
  | _ => True

/-- One elementary change of the system. -/
inductive Change : World Content Payload → World Content Payload → Prop where
  | call (w : World Content Payload) (c : QueueCall) : w.Allows c → Change w { w with db := queueStep w.db c }
  | acknowledge (w : World Content Payload) (a : ErasureActor) : a ∈ w.erasing → a.stage = .erased →
      Change w { w with db := queueStep w.db (.ackDeletion a.claim.ingestId a.claim.claimToken) }
  | project (w : World Content Payload) (l : List (ProjectionActor Content Payload)) :
      (∀ a ∈ l, ∃ b ∈ w.projecting, b.claim = a.claim) → Change w { w with projecting := l }
  | spawn (w : World Content Payload) (l : List (ProjectionActor Content Payload)) :
      (∀ a ∈ l, ∃ i q, w.db.ingests.find? a.claim.ingestId = some i ∧ i.orgId = a.claim.orgId ∧
        w.db.projections.find? a.claim.ingestId = some q) →
      Change w { w with projecting := l ++ w.projecting }
  | store (w : World Content Payload) (a : ProjectionActor Content Payload) (batch : List Payload) :
      a ∈ w.projecting → w.Erasable a.claim.ingestId →
      Change w { w with stored := w.stored ++ batch.map a.claim.row }
  | erase (w : World Content Payload) (p : TraceRow Payload → Bool) :
      Change w { w with stored := w.stored.filter p }
  | proceed (w : World Content Payload) (l : List ErasureActor) :
      (∀ a ∈ l, ∃ b ∈ w.erasing, b.claim = a.claim ∧ (a.stage = .erased → b.stage = .erased ∨
        ∀ r ∈ w.stored, ¬ (r.orgId = a.claim.orgId ∧ r.ingestId = a.claim.ingestId))) →
      Change w { w with erasing := l }
  | spawnErasure (w : World Content Payload) (l : List ErasureActor) :
      (∀ a ∈ l, a.stage = .claimed ∧ ∃ d, w.db.deletions.find? a.claim.ingestId = some d ∧
        d.orgId = a.claim.orgId) → Change w { w with erasing := l ++ w.erasing }

/-! ### The invariant -/

/-- Everything about the ingest is of one organization. -/
structure World.OfOrg (w : World Content Payload) (id orgId : Nat) : Prop where
  rows : (w.db.view id).Owned orgId
  projecting : ∀ a ∈ w.projecting, a.claim.ingestId = id → a.claim.orgId = orgId
  erasing : ∀ a ∈ w.erasing, a.claim.ingestId = id → a.claim.orgId = orgId
  stored : ∀ r ∈ w.stored, r.ingestId = id → r.orgId = orgId

/-- A projection of the ingest has begun. -/
def World.Begun (w : World Content Payload) (id : Nat) : Prop :=
  (w.db.projections.find? id).isSome = true ∨ (∃ a ∈ w.projecting, a.claim.ingestId = id) ∨ w.Stores id

/-- What is stored of an ingest can be erased. -/
structure World.Tracked (w : World Content Payload) (id : Nat) : Prop where
  org : ∃ orgId, w.OfOrg id orgId
  exclusive : (w.db.view id).Exclusive
  accepted : ∀ i, w.db.ingests.find? id = some i → i.status = .running ∨ i.status = .done →
    i.traceProjectionStatus ≠ none
  projected : w.Begun id → ∀ i, w.db.ingests.find? id = some i →
    i.worldModelId = none ∧ i.traceProjectionStatus ≠ none
  kept : w.Stores id → w.Erasable id

/-- The tokens of the actors that have run the delete. -/
def World.Erased (w : World Content Payload) (id token : Nat) : Prop :=
  ∃ a ∈ w.erasing, a.claim.ingestId = id ∧ a.stage = .erased ∧ a.claim.claimToken = token

variable {w : World Content Payload}

theorem erasable_iff : w.Erasable id ↔ (w.db.view id).Erasable (w.Erased id) := by
  unfold World.Erasable View.Erasable World.Erased
  refine or_congr Iff.rfl (exists_congr fun d => and_congr Iff.rfl ?_)
  constructor
  · rintro h t ⟨a, ha, hid, hstage, rfl⟩
    exact h a ha hid hstage
  · intro h a ha hid hstage
    exact h _ ⟨a, ha, hid, hstage, rfl⟩

/-- Nothing refers to an unknown ingest. -/
structure World.Fresh (w : World Content Payload) (id : Nat) : Prop where
  ingest : w.db.ingests.find? id = none
  deletion : w.db.deletions.find? id = none
  stored : ¬ w.Stores id
  projecting : ∀ a ∈ w.projecting, a.claim.ingestId ≠ id
  erasing : ∀ a ∈ w.erasing, a.claim.ingestId ≠ id

theorem fresh_of_known (h : w.known id = false) : w.Fresh id := by
  unfold World.known at h
  simp only [Bool.or_eq_false_iff, List.any_eq_false, decide_eq_true_eq, Option.isSome_eq_false_iff,
    Option.isNone_iff_eq_none] at h
  obtain ⟨⟨⟨⟨hi, hd⟩, hs⟩, hp⟩, he⟩ := h
  exact ⟨hi, hd, fun hstores => by obtain ⟨r, hr, hid⟩ := hstores; exact hs r hr hid, hp, he⟩

theorem Fresh.view (h : w.Fresh id) : w.db.view id = ⟨none, none, none⟩ := by
  rw [TraceDb.view, h.ingest, h.deletion, w.db.job_none_of_ingest_none h.ingest]

theorem accepted_call {c : QueueCall} (h : w.Tracked id) {i' : TraceIngest}
    (hi' : (queueStep w.db c).ingests.find? id = some i') (hs : i'.status = .running ∨ i'.status = .done) :
    i'.traceProjectionStatus ≠ none := by
  cases (queueStep_moves w.db c id).ingest_of hi' with
  | inl hnew =>
      obtain ⟨p, now, -, -, rfl⟩ := hnew
      simp [CreateArgs.row] at hs
  | inr hold =>
      obtain ⟨i, hi, hkeeps⟩ := hold
      rcases hkeeps.accepted hs with hs | hs | hs
      · exact hkeeps.projected (h.accepted i hi (.inl hs))
      · exact hkeeps.projected (h.accepted i hi (.inr hs))
      · exact hs

theorem projected_call {c : QueueCall} (h : w.Tracked id)
    (hfresh : ∀ p now, c = .create p now → p.ingestId = id → w.Fresh id)
    (hbegun : World.Begun { w with db := queueStep w.db c } id) {i' : TraceIngest}
    (hi' : (queueStep w.db c).ingests.find? id = some i') :
    i'.worldModelId = none ∧ i'.traceProjectionStatus ≠ none := by
  have hmoves := queueStep_moves w.db c id
  -- A job is an old one, or a new one of an accepted ingest.
  have hjob : w.Begun id ∨ i'.worldModelId = none ∧ (i'.status = .running ∨ i'.status = .done) := by
    rcases hbegun with hq | ha | hs
    · cases hmoves.job_of hq with
      | inl hq => exact .inl (.inl hq)
      | inr hnew =>
          obtain ⟨j, hj, hnull, hs⟩ := hnew
          obtain rfl : j = i' := Option.some.inj (hj.symm.trans hi')
          exact .inr ⟨hnull, hs⟩
    · exact .inl (.inr (.inl ha))
    · exact .inl (.inr (.inr hs))
  cases hjob with
  | inr hnew => exact ⟨hnew.1, accepted_call h hi' hnew.2⟩
  | inl hbegun =>
      cases hmoves.ingest_of hi' with
      | inl hnew =>
          obtain ⟨p, now, hc, hid, -⟩ := hnew
          have hf := hfresh p now hc hid
          rcases hbegun with hq | ⟨a, ha, hid⟩ | hs
          · rw [w.db.job_none_of_ingest_none hf.ingest] at hq
            cases hq
          · exact absurd hid (hf.projecting a ha)
          · exact absurd hs hf.stored
      | inr hold =>
          obtain ⟨i, hi, hkeeps⟩ := hold
          obtain ⟨hnull, hstatus⟩ := h.projected hbegun i hi
          exact ⟨hkeeps.worldModelId.trans hnull, hkeeps.projected hstatus⟩

theorem erasable_call {c : QueueCall} (h : w.Tracked id) (hc : w.Allows c)
    (hstores : w.Stores id) : World.Erasable { w with db := queueStep w.db c } id := by
  have hview := erasable_iff.mp (h.kept hstores)
  refine erasable_iff.mpr ((queueStep_moves w.db c id).erasable h.exclusive ?_ ?_ ?_ hview)
  · exact h.projected (.inr (.inr hstores))
  · rintro token rfl
    exact hc
  · rintro p now rfl t ht ⟨a, ha, -, -, rfl⟩
    exact hc a ha ht

theorem tracked_call {c : QueueCall} (h : w.Tracked id) (hc : w.Allows c) :
    World.Tracked { w with db := queueStep w.db c } id := by
  have hmoves := queueStep_moves w.db c id
  have hfresh : ∀ p now, c = .create p now → p.ingestId = id → w.Fresh id := by
    rintro p now rfl rfl
    exact fresh_of_known hc
  refine ⟨?_, ?_, fun i hi => accepted_call h hi, fun hb i hi => projected_call h hfresh hb hi,
    fun hs => erasable_call h hc hs⟩
  · by_cases hcreate : ∃ p now, c = .create p now ∧ p.ingestId = id
    · obtain ⟨p, now, rfl, hid⟩ := hcreate
      have hf := hfresh p now rfl hid
      refine ⟨p.orgId, ?_, fun a ha he => absurd he (hf.projecting a ha),
        fun a ha he => absurd he (hf.erasing a ha), fun r hr he => absurd ⟨r, hr, he⟩ hf.stored⟩
      refine hmoves.owned ?_ fun p' now' he _ => by cases he; rfl
      rw [Fresh.view hf]
      exact ⟨fun i hi => (by cases hi), fun d hd => (by cases hd)⟩
    · obtain ⟨orgId, horg⟩ := h.org
      exact ⟨orgId, hmoves.owned horg.rows fun p now he hid => absurd ⟨p, now, he, hid⟩ hcreate,
        horg.projecting, horg.erasing, horg.stored⟩
  · exact hmoves.exclusive h.exclusive fun p now he hid => (hfresh p now he hid).deletion

/-- After a delete nothing of its ingest is stored, and its acknowledgement takes nothing away. -/
theorem tracked_acknowledge {a : ErasureActor} (h : w.Tracked id) (ha : a ∈ w.erasing) (hstage : a.stage = .erased) :
    World.Tracked { w with db := queueStep w.db (.ackDeletion a.claim.ingestId a.claim.claimToken) } id := by
  have hmoves := queueStep_moves w.db (.ackDeletion a.claim.ingestId a.claim.claimToken) id
  have hnocreate : ∀ p now, QueueCall.ackDeletion a.claim.ingestId a.claim.claimToken ≠ .create p now :=
    fun p now he => by cases he
  refine ⟨?_, ?_, fun i hi => accepted_call h hi, fun hb i hi => projected_call h ?_ hb hi, fun hs => ?_⟩
  · obtain ⟨orgId, horg⟩ := h.org
    exact ⟨orgId, hmoves.owned horg.rows fun p now he => absurd he (hnocreate p now),
      horg.projecting, horg.erasing, horg.stored⟩
  · exact hmoves.exclusive h.exclusive fun p now he => absurd he (hnocreate p now)
  · exact fun p now he => absurd he (hnocreate p now)
  · refine erasable_iff.mpr (hmoves.erasable_ack (fun hid => ?_) (erasable_iff.mp (h.kept hs)))
    exact ⟨a, ha, hid, hstage, rfl⟩

/-- A change of the actors and of the stored rows that leaves the database alone. -/
theorem tracked_actors {w w' : World Content Payload} (h : w.Tracked id) (hdb : w'.db = w.db)
    (hbegun : w'.Begun id → ∀ i, w.db.ingests.find? id = some i → w.Begun id)
    (horg : ∀ orgId, w.OfOrg id orgId → w'.OfOrg id orgId) (hkept : w'.Stores id → w'.Erasable id) :
    w'.Tracked id := by
  refine ⟨?_, ?_, ?_, ?_, hkept⟩
  · obtain ⟨orgId, ho⟩ := h.org
    exact ⟨orgId, horg orgId ho⟩
  · rw [hdb]
    exact h.exclusive
  · rw [hdb]
    exact h.accepted
  · rw [hdb]
    intro hb i hi
    exact h.projected (hbegun hb i hi) i hi

/-- Every projecting actor has the claim of an old one, or is of an ingest with a job. -/
theorem tracked_projecting {l : List (ProjectionActor Content Payload)}
    (h : w.Tracked id) (hl : ∀ a ∈ l, (∃ b ∈ w.projecting, b.claim = a.claim) ∨
      ∃ i q, w.db.ingests.find? a.claim.ingestId = some i ∧ i.orgId = a.claim.orgId ∧
        w.db.projections.find? a.claim.ingestId = some q) :
    World.Tracked { w with projecting := l } id := by
  refine tracked_actors h rfl ?_ (fun orgId ho => ⟨ho.rows, fun a ha hid => ?_, ho.erasing, ho.stored⟩) h.kept
  · rintro (hq | ⟨a, ha, hid⟩ | hs) _ _
    · exact .inl hq
    · rcases hl a ha with ⟨b, hb, he⟩ | ⟨i, q, -, -, hq⟩
      · exact .inr (.inl ⟨b, hb, he ▸ hid⟩)
      · rw [hid] at hq
        exact .inl (by rw [hq]; rfl)
    · exact .inr (.inr hs)
  · rcases hl a ha with ⟨b, hb, he⟩ | ⟨i, q, hi, horg, -⟩
    · rw [← he]
      exact ho.projecting b hb (he ▸ hid)
    · rw [hid] at hi
      exact horg.symm.trans (ho.rows.1 i hi)

/-- Every stored row is an old one, or a projecting actor's whose ingest is erasable. -/
theorem tracked_stored {l : List (TraceRow Payload)} (h : w.Tracked id)
    (hl : ∀ r ∈ l, r ∈ w.stored ∨ w.Erasable r.ingestId ∧
      ∃ a ∈ w.projecting, r.orgId = a.claim.orgId ∧ r.ingestId = a.claim.ingestId) :
    World.Tracked { w with stored := l } id := by
  refine tracked_actors h rfl ?_ (fun orgId ho => ⟨ho.rows, ho.projecting, ho.erasing, fun r hr hid => ?_⟩) ?_
  · rintro (hq | ha | ⟨r, hr, hid⟩) _ _
    · exact .inl hq
    · exact .inr (.inl ha)
    · rcases hl r hr with hr | ⟨-, a, ha, -, hsame⟩
      · exact .inr (.inr ⟨r, hr, hid⟩)
      · exact .inr (.inl ⟨a, ha, hsame.symm.trans hid⟩)
  · rcases hl r hr with hr | ⟨-, a, ha, horg, hsame⟩
    · exact ho.stored r hr hid
    · exact horg.trans (ho.projecting a ha (hsame.symm.trans hid))
  · rintro ⟨r, hr, rfl⟩
    rcases hl r hr with hr | ⟨hera, -⟩
    · exact h.kept ⟨r, hr, rfl⟩
    · exact hera

/-- Every erasing actor has the claim of an old one, or has just claimed a job; it has run the delete only when the
old one had, or nothing of its ingest is stored. -/
theorem tracked_erasing {l : List ErasureActor} (h : w.Tracked id)
    (hl : ∀ a ∈ l, (∃ b ∈ w.erasing, b.claim = a.claim ∧ (a.stage = .erased → b.stage = .erased ∨
        ∀ r ∈ w.stored, ¬ (r.orgId = a.claim.orgId ∧ r.ingestId = a.claim.ingestId))) ∨
      a.stage = .claimed ∧ ∃ d, w.db.deletions.find? a.claim.ingestId = some d ∧ d.orgId = a.claim.orgId) :
    World.Tracked { w with erasing := l } id := by
  refine tracked_actors h rfl (fun hb _ _ => hb)
    (fun orgId ho => ⟨ho.rows, ho.projecting, fun a ha hid => ?_, ho.stored⟩) (fun hs => ?_)
  · rcases hl a ha with ⟨b, hb, he, -⟩ | ⟨-, d, hd, horg⟩
    · rw [← he]
      exact ho.erasing b hb (he ▸ hid)
    · rw [hid] at hd
      exact horg.symm.trans (ho.rows.2 d hd)
  cases h.kept hs with
  | inl hi => exact .inl hi
  | inr hd =>
      obtain ⟨d, hd, hnot⟩ := hd
      refine .inr ⟨d, hd, fun a ha hid hstage => ?_⟩
      rcases hl a ha with ⟨b, hb, he, herased⟩ | ⟨hclaimed, -⟩
      · rw [← he]
        refine hnot b hb (he ▸ hid) ((herased hstage).resolve_right fun hnone => ?_)
        -- The rows of the ingest are of its organization, so they are gone.
        obtain ⟨orgId, ho⟩ := h.org
        obtain ⟨r, hr, hrid⟩ := hs
        refine absurd ⟨?_, hrid.trans hid.symm⟩ (hnone r hr)
        rw [ho.stored r hr hrid, ← he]
        exact (ho.erasing b hb (he ▸ hid)).symm
      · rw [hclaimed] at hstage
        cases hstage

theorem Change.tracked {w w' : World Content Payload} (h : Change w w') (hw : w.Tracked id) : w'.Tracked id := by
  cases h with
  | call c hc => exact tracked_call hw hc
  | acknowledge a ha hstage => exact tracked_acknowledge hw ha hstage
  | project l hl => exact tracked_projecting hw fun a ha => .inl (hl a ha)
  | spawn l hl =>
      refine tracked_projecting hw fun a ha => ?_
      cases List.mem_append.mp ha with
      | inl ha => exact .inr (hl a ha)
      | inr ha => exact .inl ⟨a, ha, rfl⟩
  | store a batch ha hera =>
      refine tracked_stored hw fun r hr => ?_
      cases List.mem_append.mp hr with
      | inl hr => exact .inl hr
      | inr hr =>
          obtain ⟨payload, -, rfl⟩ := List.mem_map.mp hr
          exact .inr ⟨hera, a, ha, rfl, rfl⟩
  | erase p => exact tracked_stored hw fun r hr => .inl (List.mem_of_mem_filter hr)
  | proceed l hl => exact tracked_erasing hw fun a ha => .inl (hl a ha)
  | spawnErasure l hl =>
      refine tracked_erasing hw fun a ha => ?_
      cases List.mem_append.mp ha with
      | inl ha => exact .inr (hl a ha)
      | inr ha => exact .inl ⟨a, ha, rfl, .inl⟩

/-! ### Every event is a sequence of changes -/

open Relation (ReflTransGen)

theorem tracked_of_changes {w w' : World Content Payload} (h : ReflTransGen Change w w') (hw : w.Tracked id) :
    w'.Tracked id := by
  induction h with
  | refl => exact hw
  | tail _ hc ih => exact hc.tracked ih

theorem changes_call (w : World Content Payload) (o : Outcome) {c : QueueCall} (hc : w.Allows c) :
    ReflTransGen Change w (w.call o c).1 := by
  unfold World.call
  cases o with
  | lost => exact .refl
  | unanswered | answered => exact .single (.call w c hc)

theorem change_goOn (w : World Content Payload) (c : ProjectionClaim) (stage : ProjectionStage Content Payload) :
    Change w (w.goOn c stage) := by
  refine .project w _ fun a ha => ?_
  obtain ⟨b, hb, rfl⟩ := List.mem_map.mp ha
  refine ⟨b, hb, ?_⟩
  split_ifs with he
  · exact he
  · rfl

theorem change_finish (w : World Content Payload) (c : ProjectionClaim) : Change w (w.finish c) :=
  .project w _ fun a ha => ⟨a, List.mem_of_mem_filter ha, rfl⟩

/-- An actor goes on to a stage; it has run the delete only when nothing is left of its ingest. -/
theorem change_goOnErasing (w : World Content Payload) (c : DeletionClaim) (stage : ErasureStage)
    (h : stage = .erased → ∀ r ∈ w.stored, ¬ (r.orgId = c.orgId ∧ r.ingestId = c.ingestId)) :
    Change w (w.goOnErasing c stage) := by
  refine .proceed w _ fun a ha => ?_
  obtain ⟨b, hb, rfl⟩ := List.mem_map.mp ha
  refine ⟨b, hb, ?_⟩
  split_ifs with he
  · exact ⟨he, fun hstage => .inr (h hstage)⟩
  · exact ⟨rfl, .inl⟩

theorem change_finishErasing (w : World Content Payload) (c : DeletionClaim) : Change w (w.finishErasing c) :=
  .proceed w _ fun a ha => ⟨a, List.mem_of_mem_filter ha, rfl, .inl⟩

variable {P : Pipeline Content Payload}

theorem projectionStep_changes {a : ProjectionActor Content Payload}
    (ha : a ∈ w.projecting) (retrySeconds : Int) (input : ProjectionInput Content)
    (hstore : ∀ o rows batch batches, input = .insert o → a.stage = .inserting rows (batch :: batches) →
      o.happened = true → w.Erasable a.claim.ingestId) :
    ReflTransGen Change w (projectionStep P w a retrySeconds input) := by
  have hgo (w' : World Content Payload) (stage : ProjectionStage Content Payload)
      (h : ReflTransGen Change w w') : ReflTransGen Change w (w'.goOn a.claim stage) :=
    h.tail (change_goOn w' a.claim stage)
  have hend (w' : World Content Payload) (h : ReflTransGen Change w w') :
      ReflTransGen Change w (w'.finish a.claim) := h.tail (change_finish w' a.claim)
  have hcall (o : Outcome) (c : QueueCall) (hc : w.Allows c) : ReflTransGen Change w (w.call o c).1 :=
    changes_call w o hc
  unfold projectionStep
  dsimp only
  split
  · -- download
    split
    · exact hgo w _ .refl
    · split
      · exact hgo w _ .refl
      · exact hgo w _ .refl
  · -- verify
    split
    · split
      · exact hgo w _ .refl
      · exact hgo w _ .refl
    · exact hgo w _ .refl
    · exact hgo w _ .refl
  · -- record
    rename_i content verified o now _
    have h := hcall o (.record a.claim.ingestId a.claim.claimToken
      ⟨verified.sha256, verified.byteSize, verified.traceCount⟩ now) trivial
    split
    · rename_i w' _ he
      exact hgo w' _ (by rw [he] at h; exact h)
    · rename_i w' _ he
      exact hgo w' _ (by rw [he] at h; exact h)
  · -- normalize
    split
    · exact hgo w _ .refl
    · exact hgo w _ .refl
  · -- insert
    rename_i rows batch batches o hstage
    have h : ReflTransGen Change w
        (if o.happened then { w with stored := w.stored ++ batch.map a.claim.row } else w) := by
      split
      · rename_i hhappened
        exact .single (.store w a batch ha (hstore o rows batch batches rfl hstage hhappened))
      · exact .refl
    split
    · exact hgo _ _ h
    · exact hgo _ _ h
  · -- count
    split
    · split
      · exact hgo w _ .refl
      · exact hgo w _ .refl
    · exact hgo w _ .refl
  · -- ack
    rename_i rows o now _
    have h := hcall o (.ack a.claim.ingestId a.claim.claimToken rows now) trivial
    split
    · rename_i w' he
      exact hend w' (by rw [he] at h; exact h)
    · rename_i w' _ _ he
      exact hgo w' _ (by rw [he] at h; exact h)
    · rename_i w' _ he
      exact hgo w' _ (by rw [he] at h; exact h)
  · -- nack
    exact hend _ (hcall _ _ trivial)
  · -- fail
    rename_i code message o removed now _
    have h := hcall o (.fail a.claim.ingestId a.claim.claimToken (some code) (some message) now) trivial
    split
    · rename_i w' he
      have hw' : ReflTransGen Change w w' := by rw [he] at h; exact h
      split
      · exact hgo w' _ hw'
      · exact hend w' hw'
    · rename_i w' _ _ he
      exact hend w' (by rw [he] at h; exact h)
  · -- clear
    exact hend _ (hcall _ _ trivial)
  · exact hend w .refl
  · exact .refl

theorem erasureStep_changes {a : ErasureActor} (ha : a ∈ w.erasing)
    (retrySeconds : Int) (input : ErasureInput) : ReflTransGen Change w (erasureStep w a retrySeconds input) := by
  unfold erasureStep
  dsimp only
  split
  · -- erase
    rename_i o hstage
    cases o with
    | lost error => exact .single (change_goOnErasing w a.claim _ (by simp))
    | unanswered error => exact (ReflTransGen.single (.erase w _)).tail (change_goOnErasing _ a.claim _ (by simp))
    | answered =>
        refine (ReflTransGen.single (.erase w _)).tail (change_goOnErasing _ a.claim _ fun _ r hr hrow => ?_)
        have hnot := (List.mem_filter.mp hr).2
        simp [hrow.1, hrow.2] at hnot
  · -- ack
    rename_i o hstage
    have h : ReflTransGen Change w (w.call o (.ackDeletion a.claim.ingestId a.claim.claimToken)).1 := by
      unfold World.call
      cases o with
      | lost => exact .refl
      | unanswered | answered => exact .single (.acknowledge w a ha hstage)
    split
    · rename_i w' he
      rw [he] at h
      exact h.tail (change_finishErasing w' a.claim)
    · rename_i w' _ _ he
      rw [he] at h
      exact h.tail (change_goOnErasing w' a.claim _ (by simp))
    · rename_i w' error he
      rw [he] at h
      exact h.tail (change_goOnErasing w' a.claim _ (by simp))
  · -- nack
    exact (changes_call w _ (c := .nackDeletion _ _ _ _ _) trivial).tail (change_finishErasing _ a.claim)
  · exact .single (change_finishErasing w a.claim)
  · exact .refl

/-- The actors of an answered claim are of rows that are there. -/
theorem spawn_changes (w : World Content Payload) (o : Outcome) (c : QueueCall) :
    ReflTransGen Change (w.call o c).1 ((w.call o c).1.spawn (w.call o c).2) := by
  -- An answer is the reply of a call that was carried out.
  have hanswer (reply : Reply) (he : (w.call o c).2 = .ok reply) :
      ∃ db', queueExecute w.db c = .ok (db', reply) ∧ (w.call o c).1.db = db' := by
    cases o with
    | lost | unanswered => cases he
    | answered =>
        simp only [World.call, Outcome.answer] at he
        split at he
        · rename_i r hr
          cases he
          exact ⟨r.1, hr, queueStep_of_ok hr⟩
        · cases he
  unfold World.spawn
  split
  · rename_i claims he
    obtain ⟨db', hx, hdb⟩ := hanswer _ he
    obtain ⟨p, now, rfl, hclaim⟩ := queueExecute_claims hx
    refine .single (.spawn _ _ fun a ha => ?_)
    obtain ⟨d, hd, rfl⟩ := List.mem_map.mp ha
    obtain ⟨i, q, hi, horg, hq, -⟩ := rows_of_mem_claims hclaim hd
    rw [hdb]
    exact ⟨i, q, hi, horg, hq⟩
  · rename_i claims he
    obtain ⟨db', hx, hdb⟩ := hanswer _ he
    obtain ⟨p, now, rfl, hclaim⟩ := queueExecute_deletions hx
    refine .single (.spawnErasure _ _ fun a ha => ?_)
    obtain ⟨d, hd, rfl⟩ := List.mem_map.mp ha
    rw [hdb]
    exact ⟨rfl, deletion_of_mem_claims hclaim hd⟩
  · exact .refl

theorem worldStep_changes {e : WorldEvent Content} (h : StoresErasable w e) :
    ReflTransGen Change w (worldStep P w e) := by
  unfold worldStep
  cases e with
  | service c =>
      dsimp only
      split
      · rename_i hc
        rw [Bool.and_eq_true] at hc
        refine .single (.call w c ?_)
        cases c with
        | create p now => simpa [World.drawsFresh, World.Allows] using hc.2
        | claimDeletion | ackDeletion => simp [QueueCall.isService] at hc
        | _ => trivial
      · exact .refl
  | claim p o now =>
      dsimp only
      split
      · exact .refl
      · exact (changes_call w o (c := .claim p now) trivial).trans (spawn_changes w o _)
  | project token retrySeconds input =>
      dsimp only
      split
      · rename_i a ha
        refine projectionStep_changes (List.mem_of_find?_eq_some ha) retrySeconds input ?_
        rintro o rows batch batches rfl hstage hhappened
        exact h a rows batch batches ha hstage hhappened
      · exact .refl
  | claimDeletion p o now =>
      dsimp only
      split
      · exact .refl
      · rename_i hfresh
        refine (changes_call w o ?_).trans (spawn_changes w o _)
        intro a ha ht
        exact hfresh (List.any_eq_true.mpr ⟨a, ha, by simpa using ht⟩)
  | erase token retrySeconds input =>
      dsimp only
      split
      · rename_i a ha
        exact erasureStep_changes (List.mem_of_find?_eq_some ha) retrySeconds input
      · exact .refl

/-! ### The run -/

theorem tracked_run {es : List (WorldEvent Content)} (h : StepsMeet (worldStep P) StoresErasable .empty es) :
    (run (worldStep P) .empty es).Tracked id := by
  refine run_invariant (C := StoresErasable) (I := fun w => w.Tracked id)
    (fun w e hC hw => tracked_of_changes (worldStep_changes hC) hw) es .empty ?_ h
  have hnone : ¬ World.Stores (.empty : World Content Payload) id := fun hs => by
    obtain ⟨r, hr, -⟩ := hs
    cases hr
  refine ⟨⟨0, ⟨?_, ?_⟩, ?_, ?_, ?_⟩, fun _ => rfl, fun i hi => (by cases hi), fun _ i hi => (by cases hi),
    fun hs => absurd hs hnone⟩
  · intro i hi
    cases hi
  · intro d hd
    cases hd
  · intro a ha
    cases ha
  · intro a ha
    cases ha
  · intro r hr
    cases hr

/-- **Erasure is complete when nothing is stored behind a delete.**  In every run in which each batch is
stored while its ingest is erasable: once an ingest is gone, its outbox row is gone and no worker is on
it, ClickHouse holds no row of it. -/
theorem erasure_complete (P : Pipeline Content Payload) (es : List (WorldEvent Content))
    (h : StepsMeet (worldStep P) StoresErasable .empty es) (id : Nat)
    (hsettled : (run (worldStep P) .empty es).Settled id) : ¬ (run (worldStep P) .empty es).Stores id := by
  intro hs
  cases (tracked_run h).kept hs with
  | inl hi =>
      rw [hsettled.deleted] at hi
      cases hi
  | inr hd =>
      obtain ⟨d, hd, -⟩ := hd
      rw [hsettled.acknowledged] at hd
      cases hd

/-- Every object holds one row. -/
def samplePipeline : Pipeline Unit Unit where
  verify _ _ := .ok ⟨"", 1, 1⟩
  normalize _ _ _ := .ok [()]
  batches rows := [rows]

def sampleClaim (workerId : String) (token : Nat) : ClaimArgs := ⟨some workerId, some 1, some 300, [], [token]⟩

/-- An ingest whose projection is about to insert its batch. -/
def aboutToInsert : List (WorldEvent Unit) :=
  [.service (.create ⟨1, 7, none, "", some "orgs/7/a"⟩ 0),
    .service (.complete ⟨1, "orgs/7/a", 1, 2,
      "0123456789abcdef0123456789abcdef0123456789abcdef0123456789abcdef", 1⟩ 1),
    .claim (sampleClaim "worker-1" 11) .answered 2, .project 11 10 (.download (.ok (some ()))),
    .project 11 10 .verify, .project 11 10 .normalize]

/-- The batch is inserted and acknowledged. -/
def insertAndAck : List (WorldEvent Unit) :=
  [.project 11 10 (.insert .answered), .project 11 10 (.count (.ok 1)), .project 11 10 (.ack .answered 3)]

/-- Another worker erases the deleted ingest. -/
def eraseAndAck : List (WorldEvent Unit) :=
  [.service (.delete 1 4), .claimDeletion (sampleClaim "worker-2" 12) .answered 5,
    .erase 12 10 (.erase .answered), .erase 12 10 (.ack .answered)]

set_option maxRecDepth 4000 in
theorem erasure_complete_sample :
    ¬ (run (worldStep samplePipeline) .empty (aboutToInsert ++ insertAndAck ++ eraseAndAck)).Stores 1 := by
  refine erasure_complete samplePipeline _ ?_ 1 ⟨rfl, rfl, ?_, ?_⟩
  · refine ⟨trivial, trivial, trivial, trivial, trivial, trivial, ?_, trivial, trivial, trivial, trivial,
      trivial, trivial, trivial⟩
    intro a rows batch batches ha _ _
    cases ha
    exact .inl rfl
  · intro a ha
    cases ha
  · intro a ha
    cases ha

set_option maxRecDepth 4000 in
/-- A projection claimed before the deletion inserts after the ClickHouse delete was acknowledged; its own
acknowledgement is refused, but its rows stay. -/
theorem late_insert_survives : ¬ ∀ (es : List (WorldEvent Unit)) (id : Nat),
    (run (worldStep samplePipeline) .empty es).Settled id →
    ¬ (run (worldStep samplePipeline) .empty es).Stores id := by
  intro h
  refine h (aboutToInsert ++ eraseAndAck ++ insertAndAck ++ [.project 11 10 (.nack .answered 6)]) 1
    ⟨rfl, rfl, fun a ha => ?_, fun a ha => ?_⟩ ⟨_, List.mem_cons_self, rfl⟩
  · cases ha
  · cases ha

end Experiential.Telemetry
