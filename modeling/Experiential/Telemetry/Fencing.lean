import Experiential.Telemetry.Calls

/-! # Fencing of the projection queue

A claim of a projection job is fenced by its token: `not_holds_refused` says that the functions for
the holder refuse any other token, and `holds_of_step` that a token comes to hold a job only by the
claim that returned it. With the invariant that an ingest with a job is running or done
(`JobAccepted`), `projection_queue_fenced` reads off which call marks an ingest done. -/

namespace Experiential.Telemetry

open Gateway

/-- The token holds the job of the ingest. -/
def Holds (db : TraceDb) (id token : Nat) : Prop :=
  ∃ q, db.projections.find? id = some q ∧ q.state.claimToken = some token

/-- The call acts on the job of the ingest under this token. -/
def QueueCall.Presents (call : QueueCall) (id token : Nat) : Prop :=
  match call with
  | .ack i t _ _ => i = id ∧ t = token
  | .nack i t _ _ _ => i = id ∧ t = token
  | .record i t _ _ => i = id ∧ t = token
  | .fail i t _ _ _ => i = id ∧ t = token
  | _ => False

/-- The call reports failure and changes nothing. -/
def Refused (db : TraceDb) (call : QueueCall) : Prop :=
  queueStep db call = db ∧
    ((∃ e, queueExecute db call = .error e) ∨ queueExecute db call = .ok (db, .flag false))

/-- Some call under this token changes the database. -/
def CanChange (db : TraceDb) (id token : Nat) : Prop :=
  ∃ call : QueueCall, call.Presents id token ∧ queueStep db call ≠ db

/-- The call returned the job of the ingest under this token. -/
def Grants (db : TraceDb) (call : QueueCall) (id token : Nat) : Prop :=
  ∃ db' claims, queueExecute db call = .ok (db', .claims claims) ∧
    ∃ c ∈ claims, c.ingestId = id ∧ c.claimToken = token

/-- The last claim of the ingest in a run returned this token. -/
def LatestClaim (calls : List QueueCall) (id token : Nat) : Prop :=
  ∃ pre call post, calls = pre ++ call :: post ∧ Grants (run queueStep .empty pre) call id token ∧
    ∀ mid call' rest, post = mid ++ call' :: rest →
      ∀ token', ¬ Grants (run queueStep .empty (pre ++ call :: mid)) call' id token'

/-- The projection of the ingest is done. -/
def Projected (db : TraceDb) (id : Nat) : Prop :=
  ∃ i, db.ingests.find? id = some i ∧ i.traceProjectionStatus = some .done

/-- The ingest is marked done. -/
def MarkedDone (db : TraceDb) (id : Nat) : Prop :=
  ∃ i, db.ingests.find? id = some i ∧ i.status = .done

/-! ### Tokens -/

variable {db : TraceDb} {call : QueueCall} {id token : Nat}

theorem heldJob_eq_none (h : ¬ Holds db id token) : db.heldJob id token = none := by
  cases hq : db.heldJob id token with
  | none => rfl
  | some q => exact absurd ⟨q, heldJob_eq_some hq⟩ h

theorem refused_of_flag (h : queueExecute db call = .ok (db, .flag false)) : Refused db call :=
  ⟨queueStep_of_ok h, .inr h⟩

theorem refused_of_error {e : GatewayError} (h : queueExecute db call = .error e) : Refused db call := by
  refine ⟨?_, .inl ⟨e, h⟩⟩
  simp only [queueStep, orStay, h, Except.map]

/-- **A call under a token that does not hold the job is refused.** -/
theorem not_holds_refused (hcall : call.Presents id token) (h : ¬ Holds db id token) : Refused db call := by
  have hnone := heldJob_eq_none h
  cases call <;> simp only [QueueCall.Presents] at hcall
  case ack i t rows now =>
    obtain ⟨rfl, rfl⟩ := hcall
    by_cases hrows : 0 ≤ rows
    · exact refused_of_flag (by simp [queueExecute, ackProjection, ensure, hrows, hnone, bind, pure,
        Except.bind, Except.pure])
    · exact refused_of_error (by simp [queueExecute, ackProjection, ensure, hrows, bind, Except.bind]; rfl)
  case nack i t retry code now =>
    obtain ⟨rfl, rfl⟩ := hcall
    exact refused_of_flag (by simp [queueExecute, nackProjection, hnone, bind, pure, Except.bind, Except.pure])
  case fail i t code message now =>
    obtain ⟨rfl, rfl⟩ := hcall
    exact refused_of_flag (by simp [queueExecute, failIngest, hnone, bind, pure, Except.bind, Except.pure])
  case record i t p now =>
    obtain ⟨rfl, rfl⟩ := hcall
    cases hx : queueExecute db (.record i t p now) with
    | error e => exact refused_of_error hx
    | ok r =>
        simp only [queueExecute, recordObject, bind_eq_ok, require_eq_ok, hnone] at hx
        obtain ⟨_, ⟨_, -, _, h, -⟩, -⟩ := hx
        cases h

theorem holds_of_canChange (h : CanChange db id token) : Holds db id token := by
  obtain ⟨call, hcall, hne⟩ := h
  by_contra hnot
  exact hne (not_holds_refused hcall hnot).1

theorem holds_unique {token' : Nat} (h : Holds db id token) (h' : Holds db id token') : token = token' := by
  obtain ⟨q, hq, ht⟩ := h
  obtain ⟨q', hq', ht'⟩ := h'
  obtain rfl : q = q' := Option.some.inj (hq.symm.trans hq')
  exact Option.some.inj (ht.symm.trans ht')

/-- A claim leaves the jobs it returned held under the tokens it returned. -/
theorem holds_of_grants (h : Grants db call id token) : Holds (queueStep db call) id token := by
  obtain ⟨db', claims, hx, c, hc, rfl, rfl⟩ := h
  rw [queueStep_of_ok hx]
  obtain ⟨p, now, rfl, hclaim⟩ := queueExecute_claims hx
  obtain ⟨-, q, -, -, hq, htoken⟩ := rows_of_mem_claims hclaim hc
  exact ⟨q, hq, htoken⟩

/-- The token of a job stays, or the job is claimed. -/
theorem Moves.claimToken {v v' : View} {q' : ProjectionJob} (h : Moves id call v v') (hq : v'.job = some q')
    (ht : q'.state.claimToken = some token) :
    (∃ q, v.job = some q ∧ q.state.claimToken = some token) ∨ ∃ p now, call = .claim p now := by
  have hpending {q : ProjectionJob} (hs : q.state = .pending) (he : some q = some q') : False := by
    obtain rfl := Option.some.inj he
    rw [hs] at ht
    cases ht
  cases h with
  | stay | create => exact .inl ⟨q', hq, ht⟩
  | complete _ _ _ _ _ _ _ _ _ hs => exact (hpending hs hq).elim
  | accept _ _ _ _ _ _ _ hj =>
      cases hj with
      | inl hj => exact .inl ⟨q', hj.symm.trans hq, ht⟩
      | inr hj =>
          obtain ⟨q, -, hs, hj⟩ := hj
          exact (hpending hs (hj.symm.trans hq)).elim
  | reaccept _ _ _ _ _ _ _ _ _ hs | backfill _ _ _ _ _ _ _ _ _ _ hs => exact (hpending hs hq).elim
  | claim p now => exact .inr ⟨p, now, rfl⟩
  | ack => cases hq
  | nack _ _ _ _ _ _ _ _ _ _ _ _ hs => exact (hpending hs hq).elim
  | record => exact .inl ⟨q', hq, ht⟩
  | fail => cases hq
  | claimAbandoned | dropPaths => exact .inl ⟨q', hq, ht⟩
  | remove => cases hq
  | _ => exact .inl ⟨q', hq, ht⟩

/-- **A token holds a job because it did, or because this call returned it.** -/
theorem holds_of_step (h : Holds (queueStep db call) id token) : Holds db id token ∨ Grants db call id token := by
  obtain ⟨q', hq', htoken⟩ := h
  cases (queueStep_moves db call id).claimToken hq' htoken with
  | inl h => exact .inl h
  | inr h =>
      obtain ⟨p, now, rfl⟩ := h
      cases queueStep_cases db (.claim p now) with
      | inr h =>
          rw [h.2] at hq'
          exact .inl ⟨q', hq', htoken⟩
      | inl h =>
          obtain ⟨reply, hx⟩ := h
          simp only [queueExecute, bind_eq_ok, pure_eq_ok, Prod.mk.injEq] at hx
          obtain ⟨r, hr, hdb, rfl⟩ := hx
          obtain ⟨workerId, claimedUntil, hnone, hsome, -⟩ := claimProjection_view hr
          cases ht : tokenOf (db.pickProjections p now) id with
          | none =>
              have hsame : (queueStep db (.claim p now)).view id = db.view id := hdb ▸ hnone id ht
              exact .inl ⟨q', (congrArg View.job hsame).symm.trans hq', htoken⟩
          | some drawnToken =>
              have hgrants : Grants db (.claim p now) id drawnToken := by
                refine ⟨r.1, r.2, ?_, mem_claims_of_token hr ht⟩
                simp only [queueExecute, hr, bind, Except.bind]
                rfl
              obtain rfl := holds_unique (holds_of_grants hgrants) ⟨q', hq', htoken⟩
              exact .inr hgrants

/-- A held job was granted by the latest claim of its ingest. -/
theorem latestClaim_of_holds {calls : List QueueCall} (h : Holds (run queueStep .empty calls) id token) :
    LatestClaim calls id token := by
  induction calls using List.reverseRecOn with
  | nil =>
      obtain ⟨q, hq, -⟩ := h
      exact absurd (Table.find?_eq_some.mp hq).1 (Table.not_mem_empty q)
  | append_singleton calls call ih =>
      rw [run_append] at h
      by_cases hgrants : ∃ token', Grants (run queueStep .empty calls) call id token'
      · obtain ⟨token', hgrants⟩ := hgrants
        obtain rfl := holds_unique (holds_of_grants hgrants) h
        refine ⟨calls, call, [], rfl, hgrants, fun mid call' rest he => ?_⟩
        cases mid <;> cases he
      · have hheld := (holds_of_step h).resolve_right fun hg => hgrants ⟨token, hg⟩
        obtain ⟨pre, call₀, post, rfl, hg, hlast⟩ := ih hheld
        refine ⟨pre, call₀, post ++ [call], by simp, hg, fun mid call' rest he token' hg' => ?_⟩
        cases rest using List.reverseRecOn with
        | nil =>
            obtain ⟨rfl, he⟩ := List.append_inj' he rfl
            obtain rfl : call = call' := by simpa using he
            exact hgrants ⟨token', hg'⟩
        | append_singleton rest last =>
            have he' : post ++ [call] = (mid ++ call' :: rest) ++ [last] := by simpa using he
            obtain ⟨he', -⟩ := List.append_inj' he' rfl
            exact hlast mid call' rest he' token' hg'

/-! ### Marks -/

/-- An ingest with a job is accepted: running, or done. -/
def JobAccepted (v : View) : Prop :=
  ∀ i q, v.ingest = some i → v.job = some q → i.status = .running ∨ i.status = .done

theorem Moves.jobAccepted {v v' : View} (h : Moves id call v v') (hv : JobAccepted v) : JobAccepted v' := by
  intro i' q' hi' hq'
  cases h with
  | stay => exact hv i' q' hi' hq'
  | create p now v hid hi hq =>
      rw [show v.job = some q' from hq'] at hq
      cases hq
  | complete =>
      cases hi'
      exact .inr rfl
  | accept =>
      cases hi'
      exact .inl rfl
  | reaccept now v i q hi _ hp hawaits _ _ =>
      obtain rfl : i = i' := Option.some.inj (hi.symm.trans hi')
      unfold TraceIngest.awaitsProjection at hawaits
      simp only [hp, false_or, Bool.or_eq_true, decide_eq_true_eq] at hawaits
      exact hawaits.imp_right And.left
  | backfill _ _ _ v i q hi _ hs _ _ =>
      obtain rfl : i = i' := Option.some.inj (hi.symm.trans hi')
      exact .inr hs
  | claim p now v i q _ _ _ hi hq _ =>
      cases hi'
      exact hv i q hi hq
  | ack => cases hq'
  | nack token _ _ now v i q _ error hi hq _ _ | record token p now v i q hi hq _ =>
      cases hi'
      exact hv i q hi hq
  | fail => cases hq'
  | claimAbandoned _ _ _ now age v i hi habandoned =>
      have hstatus := hv i q' hi hq'
      unfold TraceIngest.abandonedBy at habandoned
      cases hstatus with
      | inl hs | inr hs => simp [hs] at habandoned
  | dropPaths now v i hi hs =>
      cases hi'
      exact hv i q' hi hq'
  | remove => cases hq'
  | _ => exact hv i' q' hi' hq'

theorem jobAccepted_run (calls : List QueueCall) : JobAccepted ((run queueStep .empty calls).view id) := by
  refine run_invariant_of_forall (I := fun db => JobAccepted (db.view id))
    (fun db call h => (queueStep_moves db call id).jobAccepted h) calls .empty ?_
  intro i q hi hq
  exact absurd (Table.find?_eq_some.mp hi).1 (Table.not_mem_empty i)

/-- Only an acknowledgement under the token of the job makes a projection done. -/
theorem Moves.projected {v v' : View} {i' : TraceIngest} (h : Moves id call v v') (hi' : v'.ingest = some i')
    (hdone : i'.traceProjectionStatus = some .done)
    (hnot : ∀ i, v.ingest = some i → i.traceProjectionStatus ≠ some .done) :
    ∃ token projectedRows now q, call = .ack id token projectedRows now ∧ v.job = some q ∧
      q.state.claimToken = some token := by
  cases h with
  | ack token projectedRows now v i q hi hq htoken => exact ⟨token, projectedRows, now, q, rfl, hq, htoken⟩
  | stay | reaccept | backfill | claimDeletion | ackDeletion | nackDeletion => exact absurd hdone (hnot i' hi')
  | record token p now v i q hi | claimAbandoned _ _ _ now age v i hi | dropPaths now v i hi =>
      cases hi'
      exact absurd hdone (hnot i hi)
  | remove => cases hi'
  | _ => cases hi'; cases hdone

/-- An ingest is marked done by an acknowledgement under the token of its job, or by its completion
before it has a job. -/
theorem Moves.markedDone {v v' : View} {i' : TraceIngest} (h : Moves id call v v') (hv : JobAccepted v)
    (hi' : v'.ingest = some i') (hdone : i'.status = .done)
    (hnot : ∀ i, v.ingest = some i → i.status ≠ .done) :
    (∃ token projectedRows now q, call = .ack id token projectedRows now ∧ v.job = some q ∧
      q.state.claimToken = some token) ∨
    ∃ p now, call = .complete p now ∧ p.ingestId = id ∧ v.job = none := by
  cases h with
  | ack token projectedRows now v i q hi hq htoken =>
      exact .inl ⟨token, projectedRows, now, q, rfl, hq, htoken⟩
  | complete p now v i path q hid hi hc _ =>
      refine .inr ⟨p, now, rfl, hid, ?_⟩
      cases hq : v.job with
      | none => rfl
      | some q =>
          simp only [TraceIngest.completable, Bool.and_eq_true, decide_eq_true_eq] at hc
          have hs := hv i q hi hq
          rw [hc.2.resolve_right (hnot i hi)] at hs
          simp at hs
  | stay | reaccept | backfill | claimDeletion | ackDeletion | nackDeletion => exact absurd hdone (hnot i' hi')
  | record token p now v i q hi | dropPaths now v i hi | claim p now v i q _ _ _ hi
  | nack token _ _ now v i q _ error hi =>
      cases hi'
      exact absurd hdone (hnot i hi)
  | remove => cases hi'
  | _ => cases hi'; cases hdone

/-! ### The run -/

/-- **The projection queue is fenced.**  After every run of calls, at most one token can change a job;
a call under another token is refused; a projection becomes done only by the acknowledgement of the
latest claim, and an ingest is marked done by that, or by the completion that first enqueues it. -/
theorem projection_queue_fenced (calls : List QueueCall) (id : Nat) :
    (∀ token token', CanChange (run queueStep .empty calls) id token →
      CanChange (run queueStep .empty calls) id token' → token = token') ∧
    (∀ (call : QueueCall) token, call.Presents id token → ¬ Holds (run queueStep .empty calls) id token →
      Refused (run queueStep .empty calls) call) ∧
    (∀ token, Holds (run queueStep .empty calls) id token → LatestClaim calls id token) ∧
    (∀ call, ¬ Projected (run queueStep .empty calls) id →
      Projected (queueStep (run queueStep .empty calls) call) id →
      ∃ token projectedRows now, call = .ack id token projectedRows now ∧ LatestClaim calls id token) ∧
    (∀ call, ¬ MarkedDone (run queueStep .empty calls) id →
      MarkedDone (queueStep (run queueStep .empty calls) call) id →
      (∃ token projectedRows now, call = .ack id token projectedRows now ∧ LatestClaim calls id token) ∨
      ∃ p now, call = .complete p now ∧ p.ingestId = id ∧
        (run queueStep .empty calls).projections.find? id = none) := by
  refine ⟨?_, ?_, ?_, ?_, ?_⟩
  · intro token token' h h'
    exact holds_unique (holds_of_canChange h) (holds_of_canChange h')
  · intro call token hcall hnot
    exact not_holds_refused hcall hnot
  · intro token h
    exact latestClaim_of_holds h
  · intro call hnot hdone
    obtain ⟨i', hi', hdone⟩ := hdone
    obtain ⟨token, projectedRows, now, q, rfl, hq, htoken⟩ :=
      (queueStep_moves _ call id).projected hi' hdone fun i hi hi' => hnot ⟨i, hi, hi'⟩
    exact ⟨token, projectedRows, now, rfl, latestClaim_of_holds ⟨q, hq, htoken⟩⟩
  · intro call hnot hdone
    obtain ⟨i', hi', hdone⟩ := hdone
    cases (queueStep_moves _ call id).markedDone (jobAccepted_run calls) hi' hdone
        fun i hi hi' => hnot ⟨i, hi, hi'⟩ with
    | inl h =>
        obtain ⟨token, projectedRows, now, q, rfl, hq, htoken⟩ := h
        exact .inl ⟨token, projectedRows, now, rfl, latestClaim_of_holds ⟨q, hq, htoken⟩⟩
    | inr h => exact .inr h

/-- An upload reserved and completed by the service that stored it. -/
def sampleIngest : CreateArgs := ⟨1, 7, none, "", some "orgs/7/a"⟩

def sampleCompletion : CompleteArgs :=
  ⟨1, "orgs/7/a", 3, 120, "0123456789abcdef0123456789abcdef0123456789abcdef0123456789abcdef", 1⟩

/-- A completion marks its ingest done with the projection still to come. -/
theorem completion_marks_done : ¬ ∀ (calls : List QueueCall) (id : Nat) (call : QueueCall),
    ¬ MarkedDone (run queueStep .empty calls) id →
    MarkedDone (queueStep (run queueStep .empty calls) call) id →
    ∃ token projectedRows now, call = .ack id token projectedRows now := by
  intro h
  have hdone : ((queueStep (run queueStep .empty [.create sampleIngest 0])
      (.complete sampleCompletion 10)).ingests.find? 1).map (·.status) = some .done := by decide +kernel
  obtain ⟨token, projectedRows, now, he⟩ := h [.create sampleIngest 0] 1 (.complete sampleCompletion 10)
    (by rintro ⟨i, hi, hs⟩; cases hi; cases hs) (Option.map_eq_some_iff.mp hdone)
  cases he

end Experiential.Telemetry
