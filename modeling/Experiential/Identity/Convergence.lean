import Experiential.Identity.Offboarding

/-! # Offboarding converges

The sweep removes the membership first and revokes the keys two calls later, and every entry
point asks for the membership first. A request that fails between the two leaves live keys
behind that no retry finds: it is answered with a 404 (`stranded_key`). And the keys are listed without
a range, so of more than `maxRows` live keys the rest is left. `offboarding_converges`: in every
run in which no request fails there, none looks for the membership while another one is there, and
no list is cut off, a request that is answered as successful, or with a 404 after a sweep has
removed the member, leaves no live key of the user. -/

namespace Experiential.Identity

/-- The membership is gone, the keys are not revoked yet. -/
def OffboardingPhase.sweeping : OffboardingPhase → Bool
  | .listing _ => true
  | .revoking _ _ => true
  | _ => false

/-- The next call looks for the member. -/
def OffboardingPhase.looking : OffboardingPhase → Bool
  | .roster => true
  | .membership => true
  | _ => false

/-- The request is about the user in the organization. -/
def Offboarding.Of (x : Offboarding) (org user : String) : Prop := x.orgId = org ∧ x.userId = user

/-- The list that the request reads next is not longer than an answer may be. -/
def Offboarding.ReadsAll (x : Offboarding) (db : Directory) : Prop :=
  match x.phase with
  | .roster => (db.members.filter fun m => decide (m.orgId = x.orgId)).length ≤ maxRows
  | .listing _ => (db.liveKeys x.orgId x.userId).length ≤ maxRows
  | _ => True

/-- No request fails between the removal of a membership and the revocation of the keys, none looks
for a member whose keys another one is about to revoke, and no list is cut off. -/
def NotStranded (w : Pool SweepState Offboarding) : OffboardingStep → Prop
  | .advance k .fails => ∀ x ∈ w.procs[k]?, x.phase.sweeping = false
  | .advance k (.succeeds _) => ∀ x ∈ w.procs[k]?, x.ReadsAll w.shared.db ∧
      (x.phase.looking = true → ∀ y ∈ w.procs, y.Of x.orgId x.userId → y.phase.sweeping = false)
  | _ => True

instance (x : Offboarding) (org user : String) : Decidable (x.Of org user) := by
  unfold Offboarding.Of
  infer_instance

instance (x : Offboarding) (db : Directory) : Decidable (x.ReadsAll db) := by
  unfold Offboarding.ReadsAll
  split <;> infer_instance

instance (w : Pool SweepState Offboarding) (step : OffboardingStep) : Decidable (NotStranded w step) := by
  unfold NotStranded
  split <;> infer_instance

/-- Every request for the user in the organization has the policy to revoke. -/
def RevokesKeys (org user : String) : OffboardingStep → Prop
  | .spawn r => r.orgId = org → r.userId = user → r.keyPolicy = .revoke
  | _ => True

/-- A sweep has removed the user from the organization. -/
def SweepState.Removed (s : SweepState) (org user : String) : Prop := (org, user) ∈ s.removed

/-- What an answer promises. -/
def OffboardingAnswer.Converged (org user : String) (s : SweepState) : OffboardingAnswer → Prop
  | .error status _ => status = 404 →
      ¬ s.db.IsMember org user ∧ (s.Removed org user → s.db.NoLiveKey org user)
  | _ => s.Removed org user ∧ s.db.NoLiveKey org user

/-- What a request has established. -/
def OffboardingPhase.Ok (org user : String) (s : SweepState) : OffboardingPhase → Prop
  | .roster => True
  | .membership => True
  | .admins _ => s.db.IsMember org user ∨ s.Removed org user
  | .removal _ => s.db.IsMember org user ∨ s.Removed org user
  | .listing _ => s.Removed org user
  | .revoking _ keyIds => s.Removed org user ∧ ∀ k ∈ s.db.liveKeys org user, k.id ∈ keyIds
  | .provenance _ _ => s.Removed org user ∧ s.db.NoLiveKey org user
  | .remaining _ _ _ => s.Removed org user ∧ s.db.NoLiveKey org user
  | .audit _ => s.Removed org user ∧ s.db.NoLiveKey org user
  | .scimAudit _ => s.Removed org user ∧ s.db.NoLiveKey org user
  | .answered answer => answer.Converged org user s

/-! ### What a step does to a user -/

/-- A removed member stays one, nobody becomes a member, and only members get keys. -/
structure Evolves (org user : String) (s s' : SweepState) : Prop where
  removed : s.Removed org user → s'.Removed org user
  absent : ¬ s.db.IsMember org user → ¬ s'.db.IsMember org user
  member : s.db.IsMember org user → s'.db.IsMember org user ∨ s'.Removed org user
  swept : s'.Removed org user → s.Removed org user ∨ s.db.IsMember org user
  gone : s'.Removed org user → s.Removed org user ∨ ¬ s'.db.IsMember org user
  keys : ¬ s.db.IsMember org user → ∀ k ∈ s'.db.liveKeys org user, k ∈ s.db.liveKeys org user

section evolution
variable {org user : String} {s s' : SweepState}

theorem Evolves.of_same (hremoved : s'.removed = s.removed) (hmembers : s'.db.members = s.db.members)
    (hkeys : ¬ s.db.IsMember org user → ∀ k ∈ s'.db.liveKeys org user, k ∈ s.db.liveKeys org user) :
    Evolves org user s s' := by
  have hmember : s'.db.IsMember org user ↔ s.db.IsMember org user := by
    unfold Directory.IsMember
    rw [hmembers]
  have hr : s'.Removed org user ↔ s.Removed org user := by
    unfold SweepState.Removed
    rw [hremoved]
  exact ⟨hr.mpr, fun h h' => h (hmember.mp h'), fun h => .inl (hmember.mpr h), fun h => .inl (hr.mp h),
    fun h => .inl (hr.mp h), hkeys⟩

theorem Evolves.refl (org user : String) (s : SweepState) : Evolves org user s s :=
  .of_same rfl rfl fun _ _ hk => hk

theorem Evolves.noLiveKey (h : Evolves org user s s') (hnot : ¬ s.db.IsMember org user)
    (hnone : s.db.NoLiveKey org user) : s'.db.NoLiveKey org user := by
  rw [Directory.noLiveKey_iff] at hnone ⊢
  rw [List.eq_nil_iff_forall_not_mem]
  intro k hk
  have hmem := h.keys hnot k hk
  rw [hnone] at hmem
  exact List.not_mem_nil hmem

/-- What a request has established, the others' steps leave. -/
theorem OffboardingPhase.Ok.evolves {phase : OffboardingPhase} (hok : phase.Ok org user s)
    (h : Evolves org user s s') (habsent : s.Removed org user → ¬ s.db.IsMember org user) :
    phase.Ok org user s' := by
  have hfound : s.db.IsMember org user ∨ s.Removed org user →
      s'.db.IsMember org user ∨ s'.Removed org user := by
    rintro (hm | hr)
    · exact h.member hm
    · exact .inr (h.removed hr)
  have hdone : s.Removed org user ∧ s.db.NoLiveKey org user →
      s'.Removed org user ∧ s'.db.NoLiveKey org user := by
    rintro ⟨hr, hnone⟩
    exact ⟨h.removed hr, h.noLiveKey (habsent hr) hnone⟩
  cases phase with
  | roster | membership => trivial
  | admins role | removal role => exact hfound hok
  | listing role => exact h.removed hok
  | revoking role keyIds =>
      exact ⟨h.removed hok.1, fun k hk => hok.2 k (h.keys (habsent hok.1) k hk)⟩
  | answered answer =>
      cases answer with
      | error status detail =>
          intro hstatus
          obtain ⟨hnot, hnone⟩ := hok hstatus
          refine ⟨h.absent hnot, ?_⟩
          intro hr
          rcases h.swept hr with hr | hm
          · exact h.noLiveKey hnot (hnone hr)
          · exact absurd hm hnot
      | _ => exact hdone hok
  | _ => exact hdone hok

theorem isMember_removeMembership {db : Directory} {o u : String} :
    (removeMembership db o u).IsMember org user ↔ db.IsMember org user ∧ ¬ (org = o ∧ user = u) := by
  unfold removeMembership Directory.IsMember
  constructor
  · rintro ⟨m, hm, rfl, rfl⟩
    obtain ⟨hmem, hkept⟩ := List.mem_filter.mp hm
    refine ⟨⟨m, hmem, rfl, rfl⟩, ?_⟩
    rintro ⟨horg, huser⟩
    simp [horg, huser] at hkept
  · rintro ⟨⟨m, hm, rfl, rfl⟩, hne⟩
    refine ⟨m, List.mem_filter.mpr ⟨hm, ?_⟩, rfl, rfl⟩
    by_contra hkept
    simp only [Bool.not_eq_true', Bool.and_eq_false_iff, decide_eq_false_iff_not, not_or, not_not] at hkept
    exact hne hkept

theorem mem_liveKeys_revokeKeys {db : Directory} {now : Int} {keyIds : List String}
    {revokedBy : Option String} {k : ApiKey}
    (hk : k ∈ (revokeKeys now db keyIds revokedBy).liveKeys org user) :
    k ∈ db.liveKeys org user ∧ k.id ∉ keyIds := by
  obtain ⟨hmem, horg, huser, hlive⟩ := Directory.mem_liveKeys.mp hk
  obtain ⟨old, hold, rfl⟩ := List.mem_map.mp hmem
  by_cases hid : old.id ∈ keyIds
  · rw [if_pos hid] at hlive
    cases hlive
  · rw [if_neg hid] at horg huser hlive ⊢
    exact ⟨Directory.mem_liveKeys.mpr ⟨hold, horg, huser, hlive⟩, hid⟩

theorem removal_evolves (o u : String) :
    Evolves org user s
      { db := removeMembership s.db o u
        removed := if (s.db.membership o u).isSome then (o, u) :: s.removed else s.removed } := by
  have hremoved : ∀ p, p ∈ s.removed →
      p ∈ (if (s.db.membership o u).isSome then (o, u) :: s.removed else s.removed) := by
    intro p hp
    split_ifs
    · exact List.mem_cons_of_mem _ hp
    · exact hp
  have hnew : ∀ p, p ∈ (if (s.db.membership o u).isSome then (o, u) :: s.removed else s.removed) →
      p ∈ s.removed ∨ p = (o, u) ∧ (s.db.membership o u).isSome := by
    intro p hp
    split_ifs at hp with hsome
    · rcases List.mem_cons.mp hp with rfl | hp
      · exact .inr ⟨rfl, hsome⟩
      · exact .inl hp
    · exact .inl hp
  refine ⟨hremoved _, ?_, ?_, ?_, ?_, fun _ k hk => hk⟩
  · intro hnot hm
    exact hnot (isMember_removeMembership.mp hm).1
  · intro hm
    by_cases hsame : org = o ∧ user = u
    · right
      obtain ⟨rfl, rfl⟩ := hsame
      have hsome : (s.db.membership org user).isSome := by
        by_contra hnone
        exact Directory.membership_eq_none.mp (Option.not_isSome_iff_eq_none.mp hnone) hm
      unfold SweepState.Removed
      simp only [if_pos hsome]
      exact List.mem_cons_self
    · exact .inl (isMember_removeMembership.mpr ⟨hm, hsame⟩)
  · intro hr
    rcases hnew _ hr with hr | ⟨heq, hsome⟩
    · exact .inl hr
    · cases heq
      obtain ⟨m, hm⟩ := Option.isSome_iff_exists.mp hsome
      exact .inr (Directory.isMember_of_membership hm)
  · intro hr
    rcases hnew _ hr with hr | ⟨heq, -⟩
    · exact .inl hr
    · cases heq
      exact .inr fun hm => (isMember_removeMembership.mp hm).2 ⟨rfl, rfl⟩

theorem advance_evolves (i : CallOutcome) (x : Offboarding) :
    Evolves org user s (Offboarding.advance i s x).1 := by
  cases i with
  | fails => exact .refl _ _ _
  | succeeds now =>
      show Evolves org user s (x.succeed now s).1
      unfold Offboarding.succeed
      cases x.phase with
      | admins role =>
          simp only
          split_ifs <;> exact .refl _ _ _
      | removal role => exact removal_evolves x.orgId x.userId
      | revoking role keyIds => exact .of_same rfl rfl fun _ k hk => (mem_liveKeys_revokeKeys hk).1
      | provenance role revoked | remaining role revoked owned => exact .refl _ _ _
      | audit report | scimAudit report => exact .of_same rfl rfl fun _ _ hk => hk
      | answered answer => exact .refl _ _ _
      | _ =>
          simp only
          split <;> exact .refl _ _ _

theorem keyCreation_evolves (c : KeyCreation) : Evolves org user s (c.apply s) := by
  unfold KeyCreation.apply
  split_ifs with hcreated
  · refine .of_same rfl rfl ?_
    intro hnot k hk
    obtain ⟨hmem, horg, huser, hlive⟩ := Directory.mem_liveKeys.mp hk
    rcases List.mem_append.mp hmem with hold | hnew
    · exact Directory.mem_liveKeys.mpr ⟨hold, horg, huser, hlive⟩
    · obtain rfl := List.mem_singleton.mp hnew
      obtain ⟨m, hm⟩ := Option.isSome_iff_exists.mp hcreated.1
      have hmember := Directory.isMember_of_membership hm
      simp only at horg huser
      rw [horg, huser] at hmember
      exact absurd hmember hnot
  · exact .refl _ _ _

end evolution

/-! ### A request's own step -/

section own
variable {org user : String} {s : SweepState} {x : Offboarding}

theorem swept_ok {report : DeprovisionReport}
    (h : s.Removed org user ∧ s.db.NoLiveKey org user) : (x.swept report).phase.Ok org user s := by
  unfold Offboarding.swept Offboarding.finish
  cases x.entry with
  | _ => exact h

theorem finish_converged {report : DeprovisionReport}
    (h : s.Removed org user ∧ s.db.NoLiveKey org user) : (x.finish report).Converged org user s := by
  unfold Offboarding.finish
  cases x.entry with
  | _ => exact h

/-- A roster that is not cut off shows every member. -/
theorem not_isMember_of_rosterMember (horgs : (s.db.members.filter fun m => decide (m.orgId = org)).length ≤ maxRows)
    (h : rosterMember s.db org user = none) : ¬ s.db.IsMember org user := by
  unfold rosterMember at h
  rw [Option.map_eq_none_iff, List.take_of_length_le horgs, List.find?_eq_none] at h
  rintro ⟨m, hm, horg, huser⟩
  exact h m (List.mem_filter.mpr ⟨hm, decide_eq_true horg⟩) (decide_eq_true huser)

/-- **A call that succeeds.** It establishes what its phase says, given that its list is not cut off
and that a 404 is not answered while somebody else's revocation is due. -/
theorem succeed_ok (now : Int) (hof : x.Of org user) (hrevoke : x.keyPolicy = .revoke)
    (hreads : x.ReadsAll s.db)
    (hlooks : x.phase.looking = true → s.Removed org user → s.db.NoLiveKey org user)
    (hok : x.phase.Ok org user s) :
    (x.succeed now s).2.phase.Ok org user (x.succeed now s).1 := by
  obtain ⟨rfl, rfl⟩ := hof
  have hnotfound : ∀ detail, x.phase.looking = true → ¬ s.db.IsMember x.orgId x.userId →
      (OffboardingAnswer.error 404 detail).Converged x.orgId x.userId s :=
    fun detail hlook hnot _ => ⟨hnot, hlooks hlook⟩
  unfold Offboarding.succeed
  cases hphase : x.phase with
  | roster =>
      simp only
      have hlook : x.phase.looking = true := by rw [hphase]; rfl
      cases hfound : rosterMember s.db x.orgId x.userId with
      | some row => trivial
      | none =>
          unfold Offboarding.ReadsAll at hreads
          rw [hphase] at hreads
          exact hnotfound "" hlook (not_isMember_of_rosterMember hreads hfound)
  | membership =>
      simp only
      have hlook : x.phase.looking = true := by rw [hphase]; rfl
      cases hfound : s.db.membership x.orgId x.userId with
      | none =>
          rw [Directory.membership_eq_none] at hfound
          exact hnotfound "" hlook hfound
      | some m =>
          have hmember := Directory.isMember_of_membership hfound
          simp only
          split_ifs
          · exact .inl hmember
          · exact .inl hmember
  | admins role =>
      rw [hphase] at hok
      simp only
      split_ifs
      · nofun
      · exact hok
  | removal role =>
      rw [hphase] at hok
      simp only [hrevoke]
      -- the member is removed now, or was removed before
      rcases hok with hm | hr
      · have hsome : (s.db.membership x.orgId x.userId).isSome := by
          by_contra hnone
          exact Directory.membership_eq_none.mp (Option.not_isSome_iff_eq_none.mp hnone) hm
        show (x.orgId, x.userId) ∈ _
        simp only [if_pos hsome]
        exact List.mem_cons_self
      · exact (removal_evolves x.orgId x.userId).removed hr
  | listing role =>
      unfold Offboarding.ReadsAll at hreads
      rw [hphase] at hok hreads
      simp only [List.take_of_length_le hreads]
      cases hkeys : (s.db.liveKeys x.orgId x.userId).map (·.id) with
      | nil => exact ⟨hok, Directory.noLiveKey_iff.mpr (List.map_eq_nil_iff.mp hkeys)⟩
      | cons id ids =>
          refine ⟨hok, ?_⟩
          intro k hk
          rw [← hkeys]
          exact List.mem_map_of_mem hk
  | revoking role keyIds =>
      rw [hphase] at hok
      refine ⟨hok.1, ?_⟩
      rw [Directory.noLiveKey_iff, List.eq_nil_iff_forall_not_mem]
      intro k hk
      obtain ⟨hlive, hid⟩ := mem_liveKeys_revokeKeys hk
      exact hid (hok.2 k hlive)
  | audit report =>
      rw [hphase] at hok
      exact swept_ok hok
  | scimAudit report =>
      rw [hphase] at hok
      exact finish_converged hok
  | answered answer =>
      rw [hphase] at hok
      simp only [hphase]
      exact hok
  | _ =>
      rw [hphase] at hok
      exact hok

theorem fail_ok (hok : x.phase.Ok org user s) : x.fail.phase.Ok org user s := by
  have hfailed : (x.to (.answered (.error 500 ""))).phase.Ok org user s := by
    intro hstatus
    cases hstatus
  unfold Offboarding.fail
  cases hphase : x.phase with
  | audit report =>
      rw [hphase] at hok
      exact swept_ok hok
  | scimAudit report =>
      rw [hphase] at hok
      exact finish_converged hok
  | answered answer =>
      rw [hphase] at hok
      simp only [hphase]
      exact hok
  | _ => exact hfailed

theorem advance_request (i : CallOutcome) :
    (Offboarding.advance i s x).2.toOffboardingRequest = x.toOffboardingRequest := by
  have hswept : ∀ report, (x.swept report).toOffboardingRequest = x.toOffboardingRequest := by
    intro report
    unfold Offboarding.swept
    cases x.entry <;> rfl
  cases i with
  | fails =>
      show x.fail.toOffboardingRequest = _
      unfold Offboarding.fail
      cases x.phase with
      | audit report => exact hswept report
      | _ => rfl
  | succeeds now =>
      show (x.succeed now s).2.toOffboardingRequest = _
      unfold Offboarding.succeed
      cases x.phase with
      | roster | membership =>
          simp only
          split <;> rfl
      | admins role =>
          simp only
          split_ifs <;> rfl
      | removal role => rfl
      | listing role =>
          simp only
          split <;> rfl
      | audit report => exact hswept report
      | scimAudit report | answered answer => rfl
      | _ => rfl

end own

/-! ### The invariant -/

/-- Of every request for the user: its policy, and what its phase says. -/
def SweepOk (org user : String) (s : SweepState) (_ : ℕ) (x : Offboarding) : Prop :=
  x.Of org user → x.keyPolicy = .revoke ∧ x.phase.Ok org user s

/-- A removed member has no live key, or somebody is about to revoke them. -/
def Due (org user : String) (w : Pool SweepState Offboarding) : Prop :=
  w.shared.Removed org user → w.shared.db.NoLiveKey org user ∨
    ∃ (k : ℕ) (x : Offboarding), w.procs[k]? = some x ∧ x.Of org user ∧ x.phase.sweeping = true

/-- A user who was removed is no member, and a request that owes a sweep is there. -/
structure SweepInv (org user : String) (w : Pool SweepState Offboarding) : Prop where
  holds : w.Holds (fun s => s.Removed org user → ¬ s.db.IsMember org user) (SweepOk org user)
  due : Due org user w

section runs
variable {org user : String} {w : Pool SweepState Offboarding}

theorem offboardingStart_inv (db : Directory) : SweepInv org user (offboardingStart db) := by
  refine ⟨⟨?_, ?_⟩, ?_⟩
  · nofun
  · intro k x hx
    simp [offboardingStart] at hx
  · intro hr
    exact absurd hr List.not_mem_nil

theorem absent_evolves {s s' : SweepState} (h : Evolves org user s s')
    (habsent : s.Removed org user → ¬ s.db.IsMember org user) :
    s'.Removed org user → ¬ s'.db.IsMember org user := by
  intro hr
  rcases h.gone hr with hr | hnot
  · exact h.absent (habsent hr)
  · exact hnot

theorem spawn_inv (h : SweepInv org user w) {r : OffboardingRequest}
    (hpolicy : RevokesKeys org user (.spawn r)) : SweepInv org user (offboardingStep w (.spawn r)) := by
  refine ⟨h.holds.spawned ?_, ?_⟩
  · intro hof
    refine ⟨hpolicy hof.1 hof.2, ?_⟩
    unfold OffboardingRequest.begin
    cases r.entry <;> trivial
  · intro hr
    rcases h.due hr with hnone | ⟨k, x, hx, hof, hsweeping⟩
    · exact .inl hnone
    · have hlt := (List.getElem?_eq_some_iff.mp hx).1
      refine .inr ⟨k, x, ?_, hof, hsweeping⟩
      show (w.procs ++ [r.begin])[k]? = some x
      rw [List.getElem?_append_left hlt]
      exact hx

theorem env_inv (h : SweepInv org user w) (c : KeyCreation) :
    SweepInv org user (offboardingStep w (.env c)) := by
  have hevolves : Evolves org user w.shared (c.apply w.shared) := keyCreation_evolves c
  have hsame : (c.apply w.shared).removed = w.shared.removed := by
    unfold KeyCreation.apply
    split_ifs <;> rfl
  refine ⟨⟨absent_evolves hevolves h.holds.1, ?_⟩, ?_⟩
  · intro k x hx hof
    obtain ⟨hpolicy, hok⟩ := h.holds.2 k x hx hof
    exact ⟨hpolicy, hok.evolves hevolves h.holds.1⟩
  · intro hr
    have hr : w.shared.Removed org user := by
      unfold SweepState.Removed
      rw [← hsame]
      exact hr
    rcases h.due hr with hnone | hdue
    · exact .inl (hevolves.noLiveKey (h.holds.1 hr) hnone)
    · exact .inr hdue

theorem succeed_removed (now : Int) (s : SweepState) (x : Offboarding) :
    (x.succeed now s).1.removed = s.removed ∨ ∃ role, x.phase = .removal role := by
  unfold Offboarding.succeed
  cases x.phase with
  | removal role => exact .inr ⟨role, rfl⟩
  | roster | membership =>
      left
      simp only
      split <;> rfl
  | admins role =>
      left
      simp only
      split_ifs <;> rfl
  | listing role =>
      left
      simp only
      split <;> rfl
  | _ => exact .inl rfl

/-- A request that has removed the member is about to revoke the keys. -/
theorem succeed_sweeping_of_removed {now : Int} {s : SweepState} {x : Offboarding}
    (hpolicy : x.Of org user → x.keyPolicy = .revoke) (hr : (x.succeed now s).1.Removed org user) :
    s.Removed org user ∨ x.Of org user ∧ (x.succeed now s).2.phase.sweeping = true := by
  rcases succeed_removed now s x with hsame | ⟨role, hphase⟩
  · left
    unfold SweepState.Removed at hr ⊢
    rw [← hsame]
    exact hr
  · unfold Offboarding.succeed at hr ⊢
    rw [hphase] at hr ⊢
    unfold SweepState.Removed at hr ⊢
    simp only at hr ⊢
    split_ifs at hr
    · rcases List.mem_cons.mp hr with heq | hr
      · cases heq
        rw [hpolicy ⟨rfl, rfl⟩]
        exact .inr ⟨⟨rfl, rfl⟩, rfl⟩
      · exact .inl hr
    · exact .inl hr

/-- The revocation that a request owes is done, or still owed, after its next call. -/
theorem succeed_of_sweeping {now : Int} {s : SweepState} {x : Offboarding}
    (hsweeping : x.phase.sweeping = true)
    (hok : (x.succeed now s).2.phase.Ok org user (x.succeed now s).1) :
    (x.succeed now s).1.db.NoLiveKey org user ∨ (x.succeed now s).2.phase.sweeping = true := by
  unfold Offboarding.succeed at hok ⊢
  cases hphase : x.phase with
  | listing role =>
      rw [hphase] at hok
      simp only at hok ⊢
      cases hkeys : ((s.db.liveKeys x.orgId x.userId).take maxRows).map (·.id) with
      | nil =>
          rw [hkeys] at hok
          exact .inl hok.2
      | cons id ids => exact .inr rfl
  | revoking role keyIds =>
      rw [hphase] at hok
      exact .inl hok.2
  | _ => rw [hphase] at hsweeping; cases hsweeping

theorem advance_inv (h : SweepInv org user w) {k : ℕ} {i : CallOutcome}
    (hC : NotStranded w (.advance k i)) : SweepInv org user (offboardingStep w (.advance k i)) := by
  have hown : ∀ x, w.procs[k]? = some x → x.Of org user →
      (Offboarding.advance i w.shared x).2.phase.Ok org user (Offboarding.advance i w.shared x).1 := by
    intro x hx hof
    obtain ⟨hpolicy, hok⟩ := h.holds.2 k x hx hof
    cases i with
    | fails => exact fail_ok hok
    | succeeds now =>
        obtain ⟨hreads, hlooks⟩ := hC x hx
        refine succeed_ok now hof hpolicy hreads ?_ hok
        intro hlooking hr
        rcases h.due hr with hnone | ⟨j, y, hy, hyof, hsweeping⟩
        · exact hnone
        · rw [hlooks hlooking y (List.mem_of_getElem? hy) (by rw [hof.1, hof.2]; exact hyof)] at hsweeping
          cases hsweeping
  refine ⟨h.holds.advanced ?_, ?_⟩
  · intro x hx
    have hevolves : Evolves org user w.shared (Offboarding.advance i w.shared x).1 := advance_evolves i x
    refine ⟨absent_evolves hevolves h.holds.1, ?_, ?_⟩
    · intro hof'
      have hsame := advance_request (s := w.shared) (x := x) i
      have hof : x.Of org user := by
        unfold Offboarding.Of at hof' ⊢
        rw [hsame] at hof'
        exact hof'
      refine ⟨?_, hown x hx hof⟩
      rw [hsame]
      exact (h.holds.2 k x hx hof).1
    · intro j y hne hy hof
      obtain ⟨hpolicy, hok⟩ := h.holds.2 j y hy hof
      exact ⟨hpolicy, hok.evolves hevolves h.holds.1⟩
  · cases hx : w.procs[k]? with
    | none =>
        unfold offboardingStep
        rw [poolStep_advance_none hx]
        exact h.due
    | some x =>
        unfold offboardingStep
        rw [poolStep_advance hx]
        have hlt := (List.getElem?_eq_some_iff.mp hx).1
        have hevolves : Evolves org user w.shared (Offboarding.advance i w.shared x).1 := advance_evolves i x
        have hkept : x.Of org user → (Offboarding.advance i w.shared x).2.Of org user := by
          intro hof
          unfold Offboarding.Of
          rw [advance_request]
          exact hof
        have hself : x.Of org user → (Offboarding.advance i w.shared x).2.phase.sweeping = true →
            ∃ (j : ℕ) (y : Offboarding),
              (w.procs.set k (Offboarding.advance i w.shared x).2)[j]? = some y ∧ y.Of org user ∧
                y.phase.sweeping = true := by
          intro hof hsweeping
          refine ⟨k, _, ?_, hkept hof, hsweeping⟩
          rw [List.getElem?_set_self hlt]
        intro hr
        cases i with
        | fails =>
            rcases h.due hr with hnone | ⟨j, y, hy, hof, hsweeping⟩
            · exact .inl hnone
            · by_cases hjk : j = k
              · -- the request that owes the revocation does not fail
                subst hjk
                rw [hx] at hy
                cases hy
                rw [hC x hx] at hsweeping
                cases hsweeping
              · refine .inr ⟨j, y, ?_, hof, hsweeping⟩
                rw [List.getElem?_set_ne (Ne.symm hjk)]
                exact hy
        | succeeds now =>
            rcases succeed_sweeping_of_removed (fun hof => (h.holds.2 k x hx hof).1) hr with hr | ⟨hof, hsweeping⟩
            · rcases h.due hr with hnone | ⟨j, y, hy, hof, hsweeping⟩
              · exact .inl (hevolves.noLiveKey (h.holds.1 hr) hnone)
              · by_cases hjk : j = k
                · subst hjk
                  rw [hx] at hy
                  cases hy
                  rcases succeed_of_sweeping hsweeping (hown x hx hof) with hnone | hsweeping'
                  · exact .inl hnone
                  · exact .inr (hself hof hsweeping')
                · refine .inr ⟨j, y, ?_, hof, hsweeping⟩
                  rw [List.getElem?_set_ne (Ne.symm hjk)]
                  exact hy
            · exact .inr (hself hof hsweeping)

/-- **Offboarding converges.** -/
theorem offboarding_converges (db : Directory) {steps : List OffboardingStep}
    (hpolicy : ∀ step ∈ steps, RevokesKeys org user step)
    (hsteps : StepsMeet offboardingStep NotStranded (offboardingStart db) steps) {k : ℕ}
    {x : Offboarding} (hx : (run offboardingStep (offboardingStart db) steps).procs[k]? = some x)
    (hof : x.Of org user) {answer : OffboardingAnswer} (hanswer : x.phase = .answered answer)
    (hfinal : ∀ status detail, answer = .error status detail →
      status = 404 ∧ (run offboardingStep (offboardingStart db) steps).shared.Removed org user) :
    (run offboardingStep (offboardingStart db) steps).shared.db.NoLiveKey org user := by
  have hinv : SweepInv org user (run offboardingStep (offboardingStart db) steps) := by
    refine run_invariant ?_ steps _ (offboardingStart_inv db) (hsteps.and_forall hpolicy)
    intro w step hC h
    cases step with
    | spawn r => exact spawn_inv h hC.2
    | advance j i => exact advance_inv h hC.1
    | env c => exact env_inv h c
  obtain ⟨-, hok⟩ := hinv.holds.2 k x hx hof
  rw [hanswer] at hok
  cases answer with
  | error status detail =>
      obtain ⟨hstatus, hr⟩ := hfinal status detail rfl
      exact (hok hstatus).2 hr
  | _ => exact hok.2

end runs

/-! ### A key left behind -/

section stranded

/-- One member with one key. -/
def sampleDirectory : Directory where
  users := [⟨"user", "user@example.com"⟩]
  members := [⟨"org", "user", .user⟩]
  keys := [⟨"key", "org", "user", none, none⟩]
  provenance := []
  audit := []

def sampleRequest : OffboardingRequest := ⟨.direct none, "org", "user", .revoke⟩

/-- The seven calls of a sweep. -/
def sweptSteps : List OffboardingStep :=
  .spawn sampleRequest :: List.replicate 7 (.advance 0 (.succeeds 0))

/-- The sweep fails at the listing of the keys, and is retried. -/
def strandedSteps : List OffboardingStep :=
  [.spawn sampleRequest, .advance 0 (.succeeds 0), .advance 0 (.succeeds 0), .advance 0 .fails,
    .spawn sampleRequest, .advance 1 (.succeeds 0)]

theorem offboarding_converges_sample :
    (run offboardingStep (offboardingStart sampleDirectory) sweptSteps).shared.db.NoLiveKey "org" "user" := by
  have hpolicy : ∀ step ∈ sweptSteps, RevokesKeys "org" "user" step := by
    intro step hstep
    rcases List.mem_cons.mp hstep with rfl | hstep
    · exact fun _ _ => rfl
    · rw [List.eq_of_mem_replicate hstep]
      trivial
  have hsteps : StepsMeet offboardingStep NotStranded (offboardingStart sampleDirectory) sweptSteps := by
    decide
  have hx : (run offboardingStep (offboardingStart sampleDirectory) sweptSteps).procs[0]? =
      some ((sampleRequest.begin).to (.answered (.report
        (sampleRequest.begin.report .user ["key"] false 0)))) := by decide
  exact offboarding_converges sampleDirectory hpolicy hsteps hx ⟨rfl, rfl⟩ rfl
    (fun status detail h => by cases h)

/-- The retry is answered with a 404, and the key lives on. -/
theorem stranded_key :
    (∃ x, (run offboardingStep (offboardingStart sampleDirectory) strandedSteps).procs[1]? = some x ∧
      x.phase = .answered (.error 404 "User user is not a member of organization org")) ∧
    (run offboardingStep (offboardingStart sampleDirectory) strandedSteps).shared.Removed "org" "user" ∧
    ¬ (run offboardingStep (offboardingStart sampleDirectory) strandedSteps).shared.db.NoLiveKey "org" "user" := by
  refine ⟨⟨_, rfl, by decide⟩, List.mem_singleton_self _, ?_⟩
  intro h
  have hrevoked := h ⟨"key", "org", "user", none, none⟩ (by decide) rfl rfl
  cases hrevoked

end stranded

end Experiential.Identity
