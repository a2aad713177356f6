import Experiential.Admin.Operators

/-! # Operators and their keys

The operator check of a request and its writes are calls apart. `operators_survive`: while every
deletion of an operator and every ban is still made by an unbanned operator, one remains. Two
operators who pass the check and then revoke each other leave none (`no_operator_left`).

`superadmin_keys_die`: while every key is minted for an unbanned operator whom no revocation is about
to delete, every live key belongs to an unbanned operator, and a key that is dead with its owner's
authority stays dead. A ban that lands between a grant's ban check and its mint leaves a live key
behind, and the unban makes it work (`banned_operator_keeps_key`). -/

namespace Experiential.Admin

open Identity

/-! ### An operator remains -/

/-- Some operator is not banned. -/
def AdminDb.HasOperator (db : AdminDb) : Prop := ∃ u, db.IsOperator u ∧ ¬ db.IsBanned u

/-- The next call takes a user's authority away. -/
def OperatorPhase.removes : OperatorPhase → Bool
  | .deleteRow => true
  | .recordBan _ => true
  | _ => false

/-- A deletion of an operator or a ban that is carried out is made by an unbanned operator. -/
def StillOperator (w : Pool AdminDb OperatorCall) : OperatorStep → Prop
  | .advance k i => i.carried = true → ∀ x ∈ w.procs[k]?, x.phase.removes = true →
      w.shared.IsOperator x.actor ∧ ¬ w.shared.IsBanned x.actor
  | _ => True

instance (w : Pool AdminDb OperatorCall) (step : OperatorStep) : Decidable (StillOperator w step) := by
  unfold StillOperator
  split <;> infer_instance

/-- Past its own check, a revocation or a ban is about somebody else. -/
def OperatorCall.Apart (x : OperatorCall) : Prop :=
  match x.phase with
  | .account => ∀ reason, x.request = .ban reason → x.actor ≠ x.userId
  | .grantLookup | .revokeKeys | .deleteRow | .recordBan _ => x.actor ≠ x.userId
  | _ => True

section apart
variable {e : Surroundings} {db : AdminDb} {x : OperatorCall}

theorem OperatorCall.apart_authorized : x.authorized.Apart := by
  unfold authorized
  cases hr : x.request with
  | grant => simp [Apart, goto, hr]
  | revoke =>
      simp only
      split
      · trivial
      · assumption
  | ban reason =>
      cases reason with
      | none =>
          simp only
          split <;> trivial
      | some reason =>
          simp only
          split
          · trivial
          · intro _ _
            assumption
  | unban => simp [Apart, goto, hr]

theorem OperatorCall.apart_succeed (h : x.Apart) : (x.succeed e db).2.Apart := by
  unfold succeed
  cases hp : x.phase with
  | authorize =>
      simp only
      split
      · exact apart_authorized
      · trivial
  | account =>
      simp only
      split
      · trivial
      · simp only [Apart, hp] at h
        unfold found
        split
        · trivial
        · next reason hr => exact h _ hr
        · trivial
        · simpa only [Apart, hp] using h
        · simpa only [Apart, hp] using h
  | banLookup email | grantRow email =>
      simp only
      split <;> trivial
  | grantAudit email =>
      simp only [granted]
      split <;> trivial
  | mint email =>
      simp only
      split <;> trivial
  | grantLookup =>
      simp only [Apart, hp] at h
      simp only
      split
      · exact h
      · trivial
  | revokeKeys =>
      simp only [Apart, hp] at h
      exact h
  | answered answer => simp only [Apart, hp]
  | _ => trivial

theorem OperatorCall.apart_fail (error : String) : (x.fail error).Apart := by
  unfold fail
  cases hp : x.phase with
  | grantAudit email =>
      simp only [granted]
      split <;> trivial
  | answered answer => simp only [Apart, hp]
  | _ => trivial

theorem OperatorCall.apart_advance {i : OperatorOutcome} (h : x.Apart) : (x.advance i db).2.Apart := by
  cases i with
  | succeeds e => exact apart_succeed h
  | fails e applied error => exact apart_fail error

/-- A call keeps an unbanned operator, if the acting user is one when it takes authority away. -/
theorem AdminDb.HasOperator.succeed (h : db.HasOperator) (hapart : x.Apart)
    (hacts : x.phase.removes = true → db.IsOperator x.actor ∧ ¬ db.IsBanned x.actor) :
    (x.succeed e db).1.HasOperator := by
  unfold OperatorCall.succeed
  cases hp : x.phase with
  | account =>
      simp only
      split <;> exact h
  | grantRow email =>
      simp only
      split
      · exact h
      · obtain ⟨u, hu, hbanned⟩ := h
        refine ⟨u, ?_, hbanned⟩
        simp only [IsOperator, List.map_append]
        exact List.mem_append_left _ hu
  | mint email =>
      simp only
      split <;> exact h
  | deleteRow =>
      simp only [OperatorCall.Apart, hp] at hapart
      obtain ⟨hop, hbanned⟩ := hacts (by rw [hp]; rfl)
      refine ⟨x.actor, ?_, hbanned⟩
      obtain ⟨a, ha, hid⟩ := List.mem_map.mp hop
      exact List.mem_map.mpr ⟨a, List.mem_filter.mpr ⟨ha, by simpa [hid] using hapart⟩, hid⟩
  | recordBan reason =>
      simp only [OperatorCall.Apart, hp] at hapart
      obtain ⟨hop, hbanned⟩ := hacts (by rw [hp]; rfl)
      refine ⟨x.actor, hop, ?_⟩
      rw [recordUserBan_isBanned]
      rintro (heq | hin)
      · exact hapart heq
      · exact hbanned hin
  | clearBan =>
      obtain ⟨u, hu, hbanned⟩ := h
      refine ⟨u, hu, ?_⟩
      rw [clearUserBan_isBanned]
      exact fun hin => hbanned hin.2
  | _ => exact h

end apart

theorem operatorStep_hasOperator {w : Pool AdminDb OperatorCall} {step : OperatorStep}
    (hstep : StillOperator w step) (h : w.Holds AdminDb.HasOperator fun _ _ x => x.Apart) :
    (operatorStep w step).Holds AdminDb.HasOperator fun _ _ x => x.Apart := by
  cases step with
  | spawn r => exact h.spawned trivial
  | advance k i =>
      refine h.advanced ?_
      intro x hx
      have hapart := h.2 k x hx
      refine ⟨?_, OperatorCall.apart_advance hapart, fun j y _ hy => h.2 j y hy⟩
      cases i with
      | succeeds e => exact h.1.succeed hapart (hstep rfl x hx)
      | fails e applied error =>
          cases applied with
          | false => exact h.1
          | true => exact h.1.succeed hapart (hstep rfl x hx)
  | env e => exact nomatch e

/-- **An unbanned operator remains** in every run in which whoever deletes an operator or bans a user
is one. -/
theorem operators_survive (db : AdminDb) (h : db.HasOperator) (steps : List OperatorStep)
    (hsteps : StepsMeet operatorStep StillOperator (operatorStart db) steps) :
    (run operatorStep (operatorStart db) steps).shared.HasOperator := by
  have hstart : (operatorStart db).Holds AdminDb.HasOperator fun _ _ x => x.Apart :=
    ⟨h, fun k x hx => by simp [operatorStart] at hx⟩
  exact (run_invariant (fun _ _ => operatorStep_hasOperator) steps _ hstart hsteps).1

/-- Two operators. -/
def twoOperators : AdminDb where
  accounts := [⟨"ann", some "ann@example.com", none⟩, ⟨"bob", some "bob@example.com", none⟩]
  platformAdmins := [⟨"ann", none⟩, ⟨"bob", none⟩]
  userBans := []
  superadminKeys := []
  apiKeys := []
  members := []
  organizations := []
  orgBans := []
  invitations := []

def operatorCalls (k n : ℕ) : List OperatorStep :=
  List.replicate n (.advance k (.succeeds ⟨0, "1970-01-01", "key"⟩))

/-- One revokes the other and is done. -/
def singleRevocation : List OperatorStep := .spawn ⟨.revoke, "ann", "bob"⟩ :: operatorCalls 0 5

/-- Both pass the check before either deletion. -/
def mutualRevocation : List OperatorStep :=
  [.spawn ⟨.revoke, "ann", "bob"⟩, .spawn ⟨.revoke, "bob", "ann"⟩] ++ operatorCalls 0 1 ++
    operatorCalls 1 1 ++ operatorCalls 0 4 ++ operatorCalls 1 4

theorem operators_survive_sample :
    (run operatorStep (operatorStart twoOperators) singleRevocation).shared.HasOperator :=
  operators_survive twoOperators ⟨"ann", by decide, by decide⟩ singleRevocation (by decide)

theorem no_operator_left :
    twoOperators.HasOperator ∧
      OperatorsIdle (run operatorStep (operatorStart twoOperators) mutualRevocation) ∧
      ¬ (run operatorStep (operatorStart twoOperators) mutualRevocation).shared.HasOperator := by
  have hidle : (run operatorStep (operatorStart twoOperators) mutualRevocation).procs =
      [⟨.revoke, "ann", "bob", .answered .noContent⟩, ⟨.revoke, "bob", "ann", .answered .noContent⟩] := by
    decide
  have hnone : (run operatorStep (operatorStart twoOperators) mutualRevocation).shared.platformAdmins =
      [] := by decide
  refine ⟨⟨"ann", by decide, by decide⟩, ?_, ?_⟩
  · intro x hx
    rw [hidle] at hx
    rcases List.mem_cons.mp hx with rfl | hx
    · exact ⟨_, rfl⟩
    · rw [List.mem_singleton.mp hx]
      exact ⟨_, rfl⟩
  · rintro ⟨u, hu, -⟩
    rw [AdminDb.IsOperator, hnone] at hu
    cases hu

/-! ### Keys die with the authority -/

/-- The key's owner is an unbanned operator. -/
def AdminDb.Authorized (db : AdminDb) (userId : String) : Prop :=
  db.IsOperator userId ∧ ¬ db.IsBanned userId

instance (db : AdminDb) (userId : String) : Decidable (db.Authorized userId) :=
  inferInstanceAs (Decidable (_ ∧ _))

/-- Every live superadmin key belongs to an unbanned operator, and key ids are distinct. -/
structure AdminDb.KeysSound (db : AdminDb) : Prop where
  authorized : ∀ k ∈ db.superadminKeys, k.revokedAt = none → db.Authorized k.userId
  ids : (db.superadminKeys.map (·.id)).Nodup

/-- A key is minted for an unbanned operator, and no revocation is about to delete that operator. -/
def MintsAuthorized (w : Pool AdminDb OperatorCall) : OperatorStep → Prop
  | .advance k i => i.carried = true → ∀ x ∈ w.procs[k]?,
      match x.phase with
      | .mint _ => w.shared.Authorized x.userId ∧ ∀ y ∈ w.procs, y.phase = .deleteRow → y.userId ≠ x.userId
      | _ => True
  | _ => True

instance (w : Pool AdminDb OperatorCall) (step : OperatorStep) : Decidable (MintsAuthorized w step) := by
  unfold MintsAuthorized
  split
  · have : ∀ x : OperatorCall, Decidable (match x.phase with
        | .mint _ => w.shared.Authorized x.userId ∧
            ∀ y ∈ w.procs, y.phase = .deleteRow → y.userId ≠ x.userId
        | _ => True) := fun x => by
      split <;> infer_instance
    infer_instance
  · infer_instance

/-- Between the two halves of a revocation the user has no live key. -/
def OperatorCall.Quiet (db : AdminDb) (x : OperatorCall) : Prop :=
  x.phase = .deleteRow → ∀ k ∈ db.superadminKeys, k.userId = x.userId → k.revokedAt.isSome

/-- What a call does to the keys: a live key was live before, or is one that was minted for an
authorized user; a dead key stays. -/
structure KeysStepped (db : AdminDb) (minted : Option String) (db' : AdminDb) : Prop where
  live : ∀ k ∈ db'.superadminKeys, k.revokedAt = none →
    k ∈ db.superadminKeys ∨ minted = some k.userId
  dead : ∀ k ∈ db.superadminKeys, k.revokedAt.isSome = true → k ∈ db'.superadminKeys
  ids : (db.superadminKeys.map (·.id)).Nodup → (db'.superadminKeys.map (·.id)).Nodup

theorem KeysStepped.of_eq {db db' : AdminDb} {minted : Option String}
    (h : db'.superadminKeys = db.superadminKeys) : KeysStepped db minted db' :=
  ⟨fun _ hk _ => .inl (h ▸ hk), fun _ hk _ => h.symm ▸ hk, fun hn => h.symm ▸ hn⟩

theorem KeysStepped.of_revoke {db db' : AdminDb} {minted : Option String} {now : Int} {userId : String}
    (h : db'.superadminKeys = AdminDb.revokeSuperadminKeys now userId db.superadminKeys) :
    KeysStepped db minted db' := by
  refine ⟨?_, ?_, ?_⟩
  · intro k hk hlive
    rw [h] at hk
    rcases AdminDb.mem_revokeSuperadminKeys hk with ⟨hmem, -⟩ | ⟨-, hdead⟩
    · exact .inl hmem
    · rw [hlive] at hdead
      cases hdead
  · intro k hk hdead
    rw [h]
    exact AdminDb.mem_revokeSuperadminKeys_of_revoked hk hdead
  · intro hn
    rw [h, AdminDb.revokeSuperadminKeys_ids]
    exact hn

/-- The user a call mints a key for. -/
def OperatorCall.mintsFor (x : OperatorCall) : Option String :=
  match x.phase with
  | .mint _ => some x.userId
  | _ => none

section keys
variable {e : Surroundings} {db : AdminDb} {x : OperatorCall}

theorem OperatorCall.keysStepped_succeed (e : Surroundings) (db : AdminDb) (x : OperatorCall) :
    KeysStepped db x.mintsFor (x.succeed e db).1 := by
  unfold succeed
  cases hp : x.phase with
  | account | grantRow email =>
      simp only
      split <;> exact .of_eq rfl
  | mint email =>
      simp only
      split
      · exact .of_eq rfl
      · next hfresh =>
        refine ⟨?_, fun k hk _ => List.mem_append_left _ hk, ?_⟩
        · intro k hk _
          rcases List.mem_append.mp hk with hk | hk
          · exact .inl hk
          · rw [List.mem_singleton.mp hk]
            exact .inr (by rw [mintsFor, hp])
        · intro hn
          rw [List.map_append, List.nodup_append]
          refine ⟨hn, by simp, ?_⟩
          intro a ha b hb heq
          rw [List.map_singleton, List.mem_singleton] at hb
          rw [heq, hb] at ha
          exact hfresh ha
  | revokeKeys | recordBan reason => exact .of_revoke rfl
  | _ => exact .of_eq rfl

/-- A call keeps the keys sound, if it mints only for an authorized user and deletes only an operator
without a live key. -/
theorem AdminDb.KeysSound.succeed (h : db.KeysSound) (hquiet : x.Quiet db)
    (hmint : ∀ userId, x.mintsFor = some userId → db.Authorized userId) :
    (x.succeed e db).1.KeysSound := by
  have hkeys := OperatorCall.keysStepped_succeed e db x
  refine ⟨?_, hkeys.ids h.ids⟩
  intro k hk hlive
  have hauth : db.Authorized k.userId := by
    rcases hkeys.live k hk hlive with hmem | hnew
    · exact h.authorized k hmem hlive
    · exact hmint _ hnew
  -- the owner keeps the row and stays unbanned through every call that leaves the key alive
  revert hk
  unfold OperatorCall.succeed
  cases hp : x.phase with
  | account =>
      simp only
      split <;> exact fun _ => hauth
  | grantRow email =>
      simp only
      split
      · exact fun _ => hauth
      · intro _
        refine ⟨?_, hauth.2⟩
        simp only [IsOperator, List.map_append]
        exact List.mem_append_left _ hauth.1
  | mint email =>
      simp only
      split <;> exact fun _ => hauth
  | deleteRow =>
      intro hk
      refine ⟨?_, hauth.2⟩
      obtain ⟨a, ha, hid⟩ := List.mem_map.mp hauth.1
      refine List.mem_map.mpr ⟨a, List.mem_filter.mpr ⟨ha, ?_⟩, hid⟩
      simp only [decide_eq_true_eq]
      intro heq
      have hdead := hquiet hp k hk (hid.symm.trans heq)
      rw [hlive] at hdead
      cases hdead
  | recordBan reason =>
      intro hk
      refine ⟨hauth.1, ?_⟩
      rw [recordUserBan_isBanned]
      rintro (heq | hin)
      · rcases mem_revokeSuperadminKeys hk with ⟨-, hdead⟩ | ⟨-, hdead⟩
        · rw [hlive] at hdead
          cases hdead heq
        · rw [hlive] at hdead
          cases hdead
      · exact hauth.2 hin
  | clearBan =>
      intro _
      refine ⟨hauth.1, ?_⟩
      rw [clearUserBan_isBanned]
      exact fun hin => hauth.2 hin.2
  | _ => exact fun _ => hauth

/-- A request that is about to delete the row has just revoked the keys. -/
theorem OperatorCall.quiet_succeed : (x.succeed e db).2.Quiet (x.succeed e db).1 := by
  intro hnext
  revert hnext
  unfold succeed
  cases hp : x.phase with
  | authorize =>
      simp only
      split
      · unfold authorized
        split <;> try split
        all_goals simp [goto, refuse]
      · simp [goto, refuse]
  | account =>
      simp only
      split
      · simp [goto, refuse]
      · unfold found
        split <;> simp [goto, hp]
  | banLookup email =>
      simp only
      split <;> simp [goto, refuse]
  | grantRow email =>
      simp only
      split <;> simp [goto]
  | grantAudit email =>
      simp only [granted]
      split <;> simp [goto]
  | mint email =>
      simp only
      split <;> simp [goto]
  | grantLookup =>
      simp only
      split <;> simp [goto, refuse]
  | revokeKeys =>
      intro _ k hk hu
      rcases AdminDb.mem_revokeSuperadminKeys hk with ⟨-, hdead⟩ | ⟨-, hdead⟩
      · exact hdead hu
      · exact hdead
  | answered answer => simp [hp]
  | _ => simp [goto]

theorem OperatorCall.fail_phase (error : String) : (x.fail error).phase ≠ .deleteRow := by
  unfold fail
  cases hp : x.phase with
  | grantAudit email =>
      simp only [granted]
      split <;> simp [goto]
  | answered answer => simp [hp]
  | _ => simp [goto, refuse]

/-- Another request's call leaves a quiet user quiet, unless it mints for them. -/
theorem OperatorCall.Quiet.other {db' : AdminDb} {minted : Option String} {y : OperatorCall}
    (h : y.Quiet db) (hkeys : KeysStepped db minted db')
    (hmint : ∀ userId, minted = some userId → y.phase = .deleteRow → y.userId ≠ userId) : y.Quiet db' := by
  intro hp k hk hu
  cases hrev : k.revokedAt with
  | some t => rfl
  | none =>
      rcases hkeys.live k hk hrev with hmem | hnew
      · rw [← hrev]
        exact h hp k hmem hu
      · exact absurd hu.symm (hmint _ hnew hp)

end keys

theorem operatorStep_keysSound {w : Pool AdminDb OperatorCall} {step : OperatorStep}
    (hstep : MintsAuthorized w step) (h : w.Holds AdminDb.KeysSound fun db _ x => x.Quiet db) :
    (operatorStep w step).Holds AdminDb.KeysSound fun db _ x => x.Quiet db := by
  cases step with
  | spawn r => exact h.spawned (by simp [OperatorCall.Quiet, OperatorSession.begin])
  | advance k i =>
      refine h.advanced ?_
      intro x hx
      have hcarried : ∀ e, i.carried = true → (x.succeed e w.shared).1.KeysSound ∧
          ∀ j y, j ≠ k → w.procs[j]? = some y → y.Quiet (x.succeed e w.shared).1 := by
        intro e hc
        have hx' := hstep hc x hx
        refine ⟨h.1.succeed (h.2 k x hx) ?_, ?_⟩
        · intro userId hm
          unfold OperatorCall.mintsFor at hm
          split at hm
          · next hp =>
            simp only [hp] at hx'
            cases hm
            exact hx'.1
          · cases hm
        · intro j y _ hy
          refine (h.2 j y hy).other (OperatorCall.keysStepped_succeed e w.shared x) ?_
          intro userId hm hdel
          unfold OperatorCall.mintsFor at hm
          split at hm
          · next hp =>
            simp only [hp] at hx'
            cases hm
            exact hx'.2 y (List.mem_of_getElem? hy) hdel
          · cases hm
      cases i with
      | succeeds e => exact ⟨(hcarried e rfl).1, OperatorCall.quiet_succeed, (hcarried e rfl).2⟩
      | fails e applied error =>
          cases applied with
          | false => exact ⟨h.1, fun hp => absurd hp (OperatorCall.fail_phase error), fun j y _ hy => h.2 j y hy⟩
          | true => exact ⟨(hcarried e rfl).1, fun hp => absurd hp (OperatorCall.fail_phase error),
              (hcarried e rfl).2⟩
  | env e => exact nomatch e

theorem operatorStep_dead {w : Pool AdminDb OperatorCall} {step : OperatorStep} {k : SuperadminKey}
    (hk : k ∈ w.shared.superadminKeys) (hdead : k.revokedAt.isSome = true) :
    k ∈ (operatorStep w step).shared.superadminKeys := by
  cases step with
  | spawn r => exact hk
  | advance j i =>
      cases hx : w.procs[j]? with
      | none =>
          rw [operatorStep, poolStep_advance_none hx]
          exact hk
      | some x =>
          rw [operatorStep, poolStep_advance hx]
          cases i with
          | succeeds e => exact (OperatorCall.keysStepped_succeed e w.shared x).dead k hk hdead
          | fails e applied error =>
              cases applied with
              | false => exact hk
              | true => exact (OperatorCall.keysStepped_succeed e w.shared x).dead k hk hdead
  | env e => exact nomatch e

/-- **Keys die with their authority** in every run that mints only for unbanned operators whom no
revocation is about to delete: every live key belongs to an unbanned operator, and the keys of a user
who is none stay dead whatever follows. -/
theorem superadmin_keys_die (db : AdminDb) (h : db.KeysSound) (steps later : List OperatorStep)
    (hsteps : StepsMeet operatorStep MintsAuthorized (operatorStart db) (steps ++ later)) :
    (∀ k ∈ (run operatorStep (operatorStart db) steps).shared.superadminKeys, k.revokedAt = none →
      (run operatorStep (operatorStart db) steps).shared.Authorized k.userId) ∧
    ∀ k ∈ (run operatorStep (operatorStart db) steps).shared.superadminKeys,
      ¬ (run operatorStep (operatorStart db) steps).shared.Authorized k.userId →
      ∀ k' ∈ (run operatorStep (operatorStart db) (steps ++ later)).shared.superadminKeys,
        k'.id = k.id → k'.revokedAt.isSome = true := by
  have hstart : (operatorStart db).Holds AdminDb.KeysSound fun db _ x => x.Quiet db :=
    ⟨h, fun k x hx => by simp [operatorStart] at hx⟩
  have hmid := run_invariant (fun _ _ => operatorStep_keysSound) steps _ hstart
    (stepsMeet_append.mp hsteps).1
  have hend := run_invariant (fun _ _ => operatorStep_keysSound) (steps ++ later) _ hstart hsteps
  refine ⟨hmid.1.authorized, ?_⟩
  intro k hk hnot k' hk' hid
  have hdead : k.revokedAt.isSome = true := by
    cases hrev : k.revokedAt with
    | some t => rfl
    | none => exact absurd (hmid.1.authorized k hk hrev) hnot
  have hstays : k ∈ (run operatorStep (operatorStart db) (steps ++ later)).shared.superadminKeys := by
    rw [run_append]
    exact run_invariant_of_forall (I := fun w : Pool AdminDb OperatorCall => k ∈ w.shared.superadminKeys)
      (fun _ _ hmem => operatorStep_dead hmem hdead) later _ hk
  rw [List.inj_on_of_nodup_map hend.1.ids hk' hstays hid]
  exact hdead

/-- One operator, and an account that is about to become one. -/
def newOperator : AdminDb :=
  { twoOperators with platformAdmins := [⟨"ann", none⟩] }

/-- A grant, and a revocation after it. -/
def grantThenRevoke : List OperatorStep :=
  [.spawn ⟨.grant, "ann", "bob"⟩] ++ operatorCalls 0 6 ++ [.spawn ⟨.revoke, "ann", "bob"⟩] ++ operatorCalls 1 5

/-- The ban lands after the grant's ban check. -/
def banDuringGrant : List OperatorStep :=
  [.spawn ⟨.grant, "ann", "bob"⟩] ++ operatorCalls 0 3 ++
    [.spawn ⟨.ban (some ⟨"fraud", by decide, by decide⟩), "ann", "bob"⟩] ++ operatorCalls 1 3 ++
    operatorCalls 0 3

theorem superadmin_keys_die_sample :
    ¬ (run operatorStep (operatorStart newOperator) grantThenRevoke).shared.Authorized "bob" ∧
      ∀ k ∈ (run operatorStep (operatorStart newOperator) grantThenRevoke).shared.superadminKeys,
        k.revokedAt.isSome = true := by
  have h := (superadmin_keys_die newOperator ⟨by decide, by decide⟩ grantThenRevoke [] (by decide)).2
  rw [List.append_nil] at h
  have hnot : ¬ (run operatorStep (operatorStart newOperator) grantThenRevoke).shared.Authorized "bob" := by
    decide
  refine ⟨hnot, fun k hk => ?_⟩
  have huser : ∀ k ∈ (run operatorStep (operatorStart newOperator) grantThenRevoke).shared.superadminKeys,
      k.userId = "bob" := by decide
  exact h k hk (huser k hk ▸ hnot) k hk rfl

/-- The banned user's key is live when every request is done, and authenticates after the unban. -/
theorem banned_operator_keeps_key :
    newOperator.KeysSound ∧
      (run operatorStep (operatorStart newOperator) banDuringGrant).procs.all
        (fun x => x.phase matches .answered _) = true ∧
      (∃ k ∈ (run operatorStep (operatorStart newOperator) banDuringGrant).shared.superadminKeys,
        k.userId = "bob" ∧ k.revokedAt = none) ∧
      (run operatorStep (operatorStart newOperator) banDuringGrant).shared.IsBanned "bob" ∧
      ∃ k ∈ (run operatorStep (operatorStart newOperator)
          (banDuringGrant ++ [.spawn ⟨.unban, "ann", "bob"⟩] ++ operatorCalls 2 3)).shared.superadminKeys,
        k.userId = "bob" ∧ k.revokedAt = none ∧
          (run operatorStep (operatorStart newOperator)
            (banDuringGrant ++ [.spawn ⟨.unban, "ann", "bob"⟩] ++ operatorCalls 2 3)).shared.Authorized "bob" :=
  ⟨⟨by decide, by decide⟩, by decide, by decide, by decide, by decide⟩

end Experiential.Admin
