import Experiential.Spend.Steps

/-! # The credentials that survive the first unlock

`unlockFounderSpend` takes the oldest admin of today for the founder. `FounderStands` says that this is
right: the founder of a locked organization has its oldest membership and is an admin. Every request
keeps that but an accepted demotion or removal of the founder, and after one of those the admin who is
next in line unlocks an organization of somebody else.

The tear-down evicts every member but the oldest admin and revokes the keys of those it evicts, through
their memberships. `unlocks_cleanly_iff` says what that needs of the organization before: the founder
leads its admins, and every live key was made by somebody who is still there. -/

namespace Experiential.Spend

open Identity (OrgRole AuthUser)

variable {s : SpendState} {r : SpendRequest} {orgId userId : String}

/-- Whoever `unlockFounderSpend` is called for, the organizations that it unlocks are theirs. -/
def OnlyFoundersUnlock (s : SpendState) : Prop :=
  ∀ (now : Int) (o u : String), s.db.Locked o → ¬ (s.db.unlockFounderSpend now u).Locked o → (o, u) ∈ s.founders

/-- The request takes an admin's seat: an accepted demotion or removal. -/
def TakesSeat (s : SpendState) (r : SpendRequest) (orgId userId : String) : Prop :=
  s.db.isLastOrgAdmin orgId userId = false ∧ match r.call with
    | .setRole actor o u role => o = orgId ∧ u = userId ∧ role = some .user ∧ s.Manages actor orgId
    | .removeMember actor o u => o = orgId ∧ u = userId ∧ s.Manages actor orgId
    | _ => False

instance : Decidable (TakesSeat s r orgId userId) := by
  unfold TakesSeat
  refine @instDecidableAnd _ _ _ ?_
  split <;> infer_instance

/-- The founder of an organization that is still locked stays an admin of it. -/
def FounderKept (s : SpendState) (r : SpendRequest) : Prop :=
  ∀ f ∈ s.founders, s.db.Locked f.1 → ¬ TakesSeat s r f.1 f.2

instance : Decidable (FounderKept s r) :=
  inferInstanceAs (Decidable (∀ f ∈ s.founders, s.db.Locked f.1 → ¬ TakesSeat s r f.1 f.2))

/-! ### The founder's seat -/

/-- The founder of every locked organization is an admin of it, and nobody belongs to it for longer. -/
def FounderStands (s : SpendState) : Prop :=
  ∀ o, s.db.Locked o → ∃ m ∈ s.db.members, m.orgId = o ∧ m.role = .admin ∧ (o, m.userId) ∈ s.founders ∧
    ∀ a ∈ s.db.members, a.orgId = o → m.createdAt ≤ a.createdAt

theorem unlockFounderSpend_locked {db : SpendDb} {now : Int} (h : db.Locked orgId) :
    ¬ (db.unlockFounderSpend now userId).Locked orgId ↔ db.IsFoundingAdmin orgId userId := by
  unfold SpendDb.unlockFounderSpend
  rw [SpendDb.unlock_locked, not_and, not_not, SpendDb.mem_unlocks]
  constructor
  · intro hmem
    obtain ⟨o, -, rfl, -, hp⟩ := hmem h
    exact of_decide_eq_true hp
  · intro hfirst _
    obtain ⟨o, ho, rfl, hnone⟩ := h
    exact ⟨o, ho, rfl, hnone, decide_eq_true hfirst⟩

theorem FounderStands.onlyFoundersUnlock (hs : Dated s) (h : FounderStands s) : OnlyFoundersUnlock s := by
  intro now o u hlocked hunlocks
  obtain ⟨a, ha, hao, rfl, harole, hleast⟩ := (unlockFounderSpend_locked hlocked).mp hunlocks
  obtain ⟨m, hm, hmo, hmrole, hfounder, holdest⟩ := h o hlocked
  have hat : m.createdAt = a.createdAt := le_antisymm (holdest a ha hao) (hleast m hm hmo hmrole)
  rw [← hs.apart m hm a ha (hmo.trans hao.symm) hat]
  exact hfounder

theorem locked_orgExists {db : SpendDb} (h : db.Locked orgId) : db.OrgExists orgId := by
  obtain ⟨o, ho, hid, -⟩ := h
  exact ⟨o, ho, hid⟩

theorem locked_congr {db db' : SpendDb} (h : db'.organizations = db.organizations) :
    db'.Locked orgId ↔ db.Locked orgId := by
  unfold SpendDb.Locked
  rw [h]

theorem FounderStands.step (hkept : Kept s) (hdated : Dated s) (hs : FounderStands s) (hr : Forward s r)
    (hfounder : FounderKept s r) : FounderStands (spendStep s r) := by
  intro o ho
  cases spendStep_cases s r with
  | same orgs members founders _ =>
      rw [members, founders]
      exact hs o ((locked_congr orgs).mp ho)
  | founded o₁ u fresh orgs members founders _ =>
      rw [members, founders]
      by_cases heq : o = o₁
      · subst heq
        refine ⟨⟨o, u, .admin, r.now⟩, List.mem_append_right _ (List.mem_singleton_self _), rfl, rfl,
          List.mem_append_right _ (List.mem_singleton_self _), fun a ha hao => ?_⟩
        rcases List.mem_append.mp ha with ha | ha
        · exact absurd (hao ▸ hkept.rooted a ha) fresh
        · rw [List.mem_singleton.mp ha]
      · obtain ⟨q, hq, hid, hnone⟩ := ho
        rw [orgs, List.mem_append, List.mem_singleton] at hq
        rcases hq with hq | rfl
        · obtain ⟨m, hm, hmo, hrole, hmf, hold⟩ := hs o ⟨q, hq, hid, hnone⟩
          refine ⟨m, List.mem_append_left _ hm, hmo, hrole, List.mem_append_left _ hmf, fun a ha hao => ?_⟩
          rcases List.mem_append.mp ha with ha | ha
          · exact hold a ha hao
          · rw [List.mem_singleton.mp ha] at hao
            exact absurd hao.symm heq
        · exact absurd hid.symm heq
  | joined o₁ u role _ _ orgs members founders _ =>
      rw [members, founders]
      obtain ⟨m, hm, hmo, hrole, hmf, hold⟩ := hs o ((locked_congr orgs).mp ho)
      refine ⟨m, List.mem_append_left _ hm, hmo, hrole, hmf, fun a ha hao => ?_⟩
      rcases List.mem_append.mp ha with ha | ha
      · exact hold a ha hao
      · have hpast := hdated.past m hm
        unfold Forward at hr
        rw [List.mem_singleton.mp ha]
        show m.createdAt ≤ r.now
        omega
  | roleSet actor o₁ u role call manages last _ orgs members founders _ =>
      have hlocked := (locked_congr orgs).mp ho
      obtain ⟨m, hm, hmo, hrole, hmf, hold⟩ := hs o hlocked
      rw [members, founders]
      refine ⟨setRoleRow o₁ u role m, List.mem_map_of_mem hm, setRoleRow_orgId.trans hmo, ?_,
        setRoleRow_userId.symm ▸ hmf, fun a ha hao => ?_⟩
      · rw [setRoleRow_role]
        split
        · rename_i hrow
          obtain ⟨rfl, rfl⟩ := hrow
          cases role with
          | admin => rfl
          | user =>
              -- the founder would be demoted
              subst hmo
              refine absurd ⟨last.resolve_left (by decide), ?_⟩ (hfounder _ hmf hlocked)
              rw [call]
              exact ⟨rfl, rfl, rfl, manages⟩
        · exact hrole
      · obtain ⟨a₀, ha₀, rfl⟩ := List.mem_map.mp ha
        rw [setRoleRow_createdAt, setRoleRow_createdAt]
        exact hold a₀ ha₀ (setRoleRow_orgId.symm.trans hao)
  | removed actor o₁ u call manages last _ orgs members founders _ =>
      have hlocked := (locked_congr orgs).mp ho
      obtain ⟨m, hm, hmo, hrole, hmf, hold⟩ := hs o hlocked
      rw [members, founders]
      refine ⟨m, mem_removed.mpr ⟨hm, ?_⟩, hmo, hrole, hmf, fun a ha hao => hold a (mem_removed.mp ha).1 hao⟩
      rintro rfl rfl
      subst hmo
      refine hfounder _ hmf hlocked ⟨last, ?_⟩
      rw [call]
      exact ⟨rfl, rfl, manages⟩
  | unlocked p db founders call =>
      rw [db] at ho ⊢
      rw [founders]
      obtain ⟨hlocked, hnot⟩ := SpendDb.unlock_locked.mp ho
      obtain ⟨m, hm, hmo, hrole, hmf, hold⟩ := hs o hlocked
      refine ⟨m, SpendDb.mem_unlock_members.mpr ⟨hm, fun hmem => absurd (hmo ▸ hmem) hnot⟩, hmo, hrole, hmf,
        fun a ha hao => hold a (SpendDb.unlock_members_sublist.subset ha) hao⟩
  | proved u call _ db founders _ =>
      rw [db] at ho ⊢
      rw [founders]
      exact hs o ho

/-! ### Without the founder's seat -/

/-- After an accepted demotion or removal the user is no admin; the organizations stay as they are. -/
theorem TakesSeat.step (h : TakesSeat s r orgId userId) (hadmin : s.db.IsOrgAdmin orgId userId) :
    ¬ (spendStep s r).db.IsOrgAdmin orgId userId ∧ (spendStep s r).db.organizations = s.db.organizations ∧
      (spendStep s r).founders = s.founders := by
  obtain ⟨hlast, h⟩ := h
  split at h
  · rename_i actor o u role hcall
    obtain ⟨rfl, rfl, rfl, hmanages⟩ := h
    rw [spendStep_setRole hcall hmanages (.inr hlast) hadmin.isMember]
    refine ⟨?_, rfl, rfl⟩
    rintro ⟨m, hm, hmo, hmu, hrole⟩
    obtain ⟨m₀, -, rfl⟩ := List.mem_map.mp hm
    rw [setRoleRow_orgId] at hmo
    rw [setRoleRow_userId] at hmu
    rw [setRoleRow_role, if_pos ⟨hmo, hmu⟩] at hrole
    cases hrole
  · rename_i actor o u hcall
    obtain ⟨rfl, rfl, hmanages⟩ := h
    rw [spendStep_removeMember hcall hmanages hlast hadmin.isMember]
    refine ⟨?_, rfl, rfl⟩
    rintro ⟨m, hm, hmo, hmu, -⟩
    exact (mem_removed.mp hm).2 hmo hmu
  · exact absurd h id

theorem Kept.exists_foundingAdmin (hs : Kept s) (ho : s.db.OrgExists orgId) : ∃ u, s.db.IsFoundingAdmin orgId u := by
  obtain ⟨u, m, hm, hmo, -, hrole⟩ := hs.administered orgId ho
  cases hfirst : s.db.earliestAdmin orgId with
  | none =>
      have hmem : m ∈ s.db.admins orgId := SpendDb.mem_admins.mpr ⟨hm, hmo, hrole⟩
      rw [SpendDb.earliestAdmin_eq_none hfirst] at hmem
      cases hmem
  | some e => exact ⟨e.userId, SpendDb.earliestAdmin_isFoundingAdmin hfirst⟩

theorem isOrgAdmin_of_isFoundingAdmin {db : SpendDb} (h : db.IsFoundingAdmin orgId userId) :
    db.IsOrgAdmin orgId userId := by
  obtain ⟨m, hm, hmo, hmu, hrole, -⟩ := h
  exact ⟨m, hm, hmo, hmu, hrole⟩

theorem OnlyFoundersUnlock.founderKept (hkept : Kept s) (hs : FounderStands s)
    (h : OnlyFoundersUnlock (spendStep s r)) : FounderKept s r := by
  rintro ⟨o, u⟩ hf hlocked htakes
  obtain ⟨m, hm, hmo, hrole, hmf, -⟩ := hs o hlocked
  have hmu : u = m.userId := congrArg Prod.snd (hkept.unique _ hf _ hmf rfl)
  obtain ⟨hnot, horgs, hfounders⟩ := htakes.step ⟨m, hm, hmo, hmu.symm, hrole⟩
  have hlocked' : (spendStep s r).db.Locked o := (locked_congr horgs).mpr hlocked
  -- whoever is the oldest admin now unlocks the organization, and is not the founder
  obtain ⟨v, hv⟩ := (spendStep_kept hkept).exists_foundingAdmin (locked_orgExists hlocked')
  have hvf := h 0 o v hlocked' ((unlockFounderSpend_locked hlocked').mpr hv)
  rw [hfounders] at hvf
  have huv : u = v := congrArg Prod.snd (hkept.unique _ hf _ hvf rfl)
  exact hnot (huv ▸ isOrgAdmin_of_isFoundingAdmin hv)

/-! ### Runs -/

variable {operators : List String} {signupsEnabled : Bool} {requirement : SpendUnlockRequirement}
  {seedAdminEmail demoSeedEmail : Option String}

theorem start_kept : Kept (.start operators signupsEnabled requirement seedAdminEmail demoSeedEmail) := by
  refine ⟨List.nodup_nil, fun m hm => ?_, fun f hf => ?_, fun f hf => ?_, ?_⟩
  · cases hm
  · cases hf
  · cases hf
  · rintro o ⟨q, hq, -⟩
    cases hq

theorem start_dated : Dated (.start operators signupsEnabled requirement seedAdminEmail demoSeedEmail) := by
  refine ⟨fun m hm => ?_, fun m hm => ?_⟩
  · cases hm
  · cases hm

/-- **Only the founder unlocks.**  When every request begins later than those before it, nobody can unlock
the spend of an organization that they did not found, in any state of the run, exactly if no request of
the run takes the founder's seat in an organization that is still locked. -/
theorem founders_unlock_iff (operators : List String) (signupsEnabled : Bool) (requirement : SpendUnlockRequirement)
    (seedAdminEmail demoSeedEmail : Option String) (requests : List SpendRequest)
    (hclock : StepsMeet spendStep Forward
      (.start operators signupsEnabled requirement seedAdminEmail demoSeedEmail) requests) :
    (∀ js, js <+: requests → OnlyFoundersUnlock
      (run spendStep (.start operators signupsEnabled requirement seedAdminEmail demoSeedEmail) js)) ↔
    StepsMeet spendStep FounderKept
      (.start operators signupsEnabled requirement seedAdminEmail demoSeedEmail) requests := by
  refine always_iff_stepsMeet (fun s => Kept s ∧ Dated s ∧ FounderStands s) ?_ ?_ ?_ requests _ ?_ hclock
  · rintro s ⟨-, hdated, hstands⟩
    exact hstands.onlyFoundersUnlock hdated
  · rintro s r hr ⟨hkept, hdated, hstands⟩ hfounder
    exact ⟨spendStep_kept hkept, spendStep_dated hdated hr, hstands.step hkept hdated hr hfounder⟩
  · rintro s r - ⟨hkept, -, hstands⟩ h
    exact h.founderKept hkept hstands
  · refine ⟨start_kept, start_dated, ?_⟩
    rintro o ⟨q, hq, -⟩
    cases hq

/-- Ann founds `acme` and adds Bob as an admin. -/
def coAdmin : List SpendRequest :=
  [⟨1, "acme", .signUp ⟨"ann", "ann@acme.com"⟩ none false⟩,
   ⟨2, "bobco", .signUp ⟨"bob", "bob@bob.com"⟩ none false⟩,
   ⟨3, "-", .addMember "ann" "acme" "bob@bob.com" .admin⟩]

theorem founders_unlock_sample :
    OnlyFoundersUnlock (run spendStep (.start [] true .email none none) coAdmin) :=
  (founders_unlock_iff [] true .email none none coAdmin (by decide)).mpr (by decide) coAdmin (List.prefix_refl _)

/-- Bob demotes Ann, proves his own inbox, and unlocks the organization that Ann founded. -/
theorem demoted_founder_replaced :
    let s := run spendStep (.start [] true .email none none)
      (coAdmin ++ [⟨4, "-", .setRole "bob" "acme" "ann" (some .user)⟩])
    s.db.Locked "acme" ∧ ¬ (spendStep s ⟨5, "-", .proveInbox "bob"⟩).db.Locked "acme" ∧
      ("acme", "ann") ∈ s.founders ∧ ("acme", "bob") ∉ s.founders := by decide

variable {s' : SpendState}

/-- Only the founder is a member, and only the founder's keys are live. -/
def Clean (s : SpendState) (orgId : String) : Prop :=
  (∃ m ∈ s.db.members, m.orgId = orgId) ∧
    (∀ m ∈ s.db.members, m.orgId = orgId → (orgId, m.userId) ∈ s.founders) ∧
      ∀ k ∈ s.db.keys, k.orgId = orgId → k.revokedAt = none → ∃ u ∈ k.createdBy, (orgId, u) ∈ s.founders

/-- Every organization that the step unlocks is clean afterwards. -/
def UnlocksCleanly (s : SpendState) (r : SpendRequest) : Prop :=
  ∀ o, s.db.Locked o → ¬ (spendStep s r).db.Locked o → Clean (spendStep s r) o

/-- The request unlocks the organization. -/
def Unlocking (s : SpendState) (r : SpendRequest) (orgId : String) : Prop :=
  s.db.Locked orgId ∧ match r.call with
    | .proveInbox u => s.db.spendUnlockRequirement = .email ∧ s.db.IsFoundingAdmin orgId u
    | .saveCard o => s.db.spendUnlockRequirement = .card ∧ o = orgId
    | _ => False

/-- The founder is an admin, and of the admins the first. -/
def FounderLeads (s : SpendState) (orgId : String) : Prop :=
  ∃ m ∈ s.db.admins orgId, (orgId, m.userId) ∈ s.founders ∧ ∀ a ∈ s.db.admins orgId, SpendDb.joinedBefore m a

/-- Every live key has a creator on record, the founder or somebody who still belongs to the organization. -/
def KeysTraced (s : SpendState) (orgId : String) : Prop :=
  ∀ k ∈ s.db.keys, k.orgId = orgId → k.revokedAt = none →
    ∃ u ∈ k.createdBy, (orgId, u) ∈ s.founders ∨ s.db.IsMember orgId u

/-- An organization with a seed or demo admin is left alone. -/
def InOrder (s : SpendState) (orgId : String) : Prop :=
  (s.db.Seeded orgId → Clean s orgId) ∧ (¬ s.db.Seeded orgId → FounderLeads s orgId ∧ KeysTraced s orgId)

/-! ### One unlock -/

theorem joinedBefore_antisymm {m m' : Member} (h : SpendDb.joinedBefore m m') (h' : SpendDb.joinedBefore m' m) :
    m.userId = m'.userId := by
  unfold SpendDb.joinedBefore at h h'
  rcases h with h | ⟨h, hu⟩ <;> rcases h' with h' | ⟨h', hu'⟩
  · omega
  · omega
  · omega
  · exact le_antisymm hu hu'

/-- Who leads the admins is the one that the tear-down spares. -/
theorem founderLeads_iff {e : Member} (he : s.db.earliestAdmin orgId = some e) :
    FounderLeads s orgId ↔ (orgId, e.userId) ∈ s.founders := by
  obtain ⟨hmem, hfirst⟩ := SpendDb.earliestAdmin_first he
  constructor
  · rintro ⟨m, hm, hfounder, hleads⟩
    rw [← joinedBefore_antisymm (hleads e hmem) (hfirst m hm)]
    exact hfounder
  · intro hfounder
    exact ⟨e, hmem, hfounder, hfirst⟩

section unlock
variable {p : Organization → Bool}

theorem unlock_clean_of_seeded (hdb : s'.db = s.db.unlock r.now p) (hfounders : s'.founders = s.founders)
    (hseed : s.db.Seeded orgId) : Clean s' orgId ↔ Clean s orgId := by
  have hmembers : ∀ m : Member, m.orgId = orgId → (m ∈ s'.db.members ↔ m ∈ s.db.members) := by
    rintro m rfl
    rw [hdb, SpendDb.mem_unlock_members]
    exact and_iff_left fun _ _ _ => .inl hseed
  have hkeys : ∀ k : ApiKey, k.orgId = orgId → (k ∈ s'.db.keys ∧ k.revokedAt = none ↔ k ∈ s.db.keys ∧ k.revokedAt = none) := by
    rintro k rfl
    rw [hdb, SpendDb.mem_unlock_live]
    exact and_iff_left fun hand => hand.2.1 hseed
  unfold Clean
  rw [hfounders]
  refine and_congr ?_ (and_congr ?_ ?_)
  · exact exists_congr fun m => and_congr_left fun ho => hmembers m ho
  · refine forall_congr' fun m => ?_
    constructor
    · exact fun h hm ho => h ((hmembers m ho).mpr hm) ho
    · exact fun h hm ho => h ((hmembers m ho).mp hm) ho
  · refine forall_congr' fun k => ?_
    constructor
    · intro h hk ho hlive
      exact h ((hkeys k ho).mpr ⟨hk, hlive⟩).1 ho hlive
    · intro h hk ho hlive
      exact h ((hkeys k ho).mp ⟨hk, hlive⟩).1 ho hlive

/-- Of an organization that is torn down the oldest admin is left, and the keys that no evicted member made. -/
theorem unlock_clean_of_tornDown (hdb : s'.db = s.db.unlock r.now p)
    (hfounders : s'.founders = s.founders) (hmem : orgId ∈ s.db.unlocks p) (hseed : ¬ s.db.Seeded orgId) {e : Member}
    (he : s.db.earliestAdmin orgId = some e) :
    Clean s' orgId ↔ (orgId, e.userId) ∈ s.founders ∧ KeysTraced s orgId := by
  obtain ⟨heMem, heOrg, -⟩ := SpendDb.mem_admins.mp (SpendDb.earliestAdmin_first he).1
  have hmembers : ∀ m : Member, m.orgId = orgId →
      (m ∈ s'.db.members ↔ m ∈ s.db.members ∧ m.userId = e.userId) := by
    rintro m rfl
    rw [hdb, SpendDb.mem_unlock_members]
    refine and_congr_right fun _ => ?_
    unfold SpendDb.Spares
    rw [he]
    simp only [hmem, hseed, Option.mem_some_iff, forall_eq', false_or, true_imp_iff]
  have hkeys : ∀ k : ApiKey, k.orgId = orgId → (k ∈ s'.db.keys ∧ k.revokedAt = none ↔
      (k ∈ s.db.keys ∧ k.revokedAt = none) ∧ ¬ s.db.TornDown orgId e.userId k) := by
    rintro k rfl
    rw [hdb, SpendDb.mem_unlock_live]
    unfold SpendDb.Revokes
    rw [he]
    simp only [hmem, hseed, Option.mem_some_iff, exists_eq_left', true_and, not_false_eq_true]
  constructor
  · rintro ⟨-, hall, hlive⟩
    have hfounder : (orgId, e.userId) ∈ s.founders := by
      rw [← hfounders]
      exact hall e ((hmembers e heOrg).mpr ⟨heMem, rfl⟩) heOrg
    refine ⟨hfounder, fun k hk ho hnone => ?_⟩
    by_cases htorn : s.db.TornDown orgId e.userId k
    · obtain ⟨-, -, m, hm, hmo, -, hby⟩ := htorn
      exact ⟨m.userId, hby, .inr ⟨m, hm, hmo, rfl⟩⟩
    · obtain ⟨u, hu, huf⟩ := hlive k ((hkeys k ho).mpr ⟨⟨hk, hnone⟩, htorn⟩).1 ho hnone
      exact ⟨u, hu, .inl (hfounders ▸ huf)⟩
  · rintro ⟨hfounder, htraced⟩
    refine ⟨⟨e, (hmembers e heOrg).mpr ⟨heMem, rfl⟩, heOrg⟩, fun m hm ho => ?_, fun k hk ho hnone => ?_⟩
    · rw [hfounders, ((hmembers m ho).mp hm).2]
      exact hfounder
    · obtain ⟨⟨hk, -⟩, htorn⟩ := (hkeys k ho).mp ⟨hk, hnone⟩
      rw [hfounders]
      obtain ⟨u, hu, huf | ⟨m, hm, hmo, rfl⟩⟩ := htraced k hk ho hnone
      · exact ⟨u, hu, huf⟩
      · -- a member who made a key that is still live is the founder
        by_cases heq : m.userId = e.userId
        · exact ⟨m.userId, hu, heq ▸ hfounder⟩
        · exact absurd ⟨ho, hnone, m, hm, hmo, heq, hu⟩ htorn

theorem unlock_clean_iff (hkept : Kept s) (hdb : s'.db = s.db.unlock r.now p) (hfounders : s'.founders = s.founders)
    (hmem : orgId ∈ s.db.unlocks p) : Clean s' orgId ↔ InOrder s orgId := by
  by_cases hseed : s.db.Seeded orgId
  · rw [unlock_clean_of_seeded hdb hfounders hseed]
    exact ⟨fun h => ⟨fun _ => h, fun hnot => absurd hseed hnot⟩, fun h => h.1 hseed⟩
  · obtain ⟨o, ho, hid, -⟩ := SpendDb.mem_unlocks.mp hmem
    cases he : s.db.earliestAdmin orgId with
    | none =>
        obtain ⟨u, m, hm, hmo, -, hrole⟩ := hkept.administered orgId ⟨o, ho, hid⟩
        have hadmin : m ∈ s.db.admins orgId := SpendDb.mem_admins.mpr ⟨hm, hmo, hrole⟩
        rw [SpendDb.earliestAdmin_eq_none he] at hadmin
        cases hadmin
    | some e =>
        rw [unlock_clean_of_tornDown hdb hfounders hmem hseed he, ← founderLeads_iff he]
        exact ⟨fun h => ⟨fun hyes => absurd hyes hseed, fun _ => h⟩, fun h => h.2 hseed⟩

end unlock

/-! ### Runs -/

/-- An organization stays locked unless the request is one of the two that unlock. -/
theorem Effect.locked (h : Effect s r s') (hlocked : s.db.Locked orgId) : s'.db.Locked orgId ∨
    ∃ p, s'.db = s.db.unlock r.now p ∧ s'.founders = s.founders ∧
      ((∃ u, r.call = .proveInbox u) ∨ ∃ o, r.call = .saveCard o) := by
  cases h with
  | same orgs _ _ _ => exact .inl ((locked_congr orgs).mpr hlocked)
  | founded o u _ orgs _ _ _ =>
      obtain ⟨q, hq, hid⟩ := hlocked
      exact .inl ⟨q, orgs ▸ List.mem_append_left _ hq, hid⟩
  | joined _ _ _ _ _ orgs _ _ _ | roleSet _ _ _ _ _ _ _ _ orgs _ _ _ | removed _ _ _ _ _ _ _ orgs _ _ _ =>
      exact .inl ((locked_congr orgs).mpr hlocked)
  | unlocked p db founders call =>
      refine .inr ⟨p, db, founders, ?_⟩
      rcases call with ⟨u, hcall, -⟩ | ⟨o, hcall, -⟩
      · exact .inl ⟨u, hcall⟩
      · exact .inr ⟨o, hcall⟩
  | proved _ _ _ db _ _ => exact .inl (db ▸ hlocked)

theorem spendStep_proveInbox {u : String} (hcall : r.call = .proveInbox u) : (spendStep s r).db =
    if s.db.spendUnlockRequirement = .email then s.db.unlockFounderSpend r.now u else s.db := by
  unfold spendStep orStay SpendState.execute
  rw [hcall]
  rfl

theorem spendStep_saveCard {o : String} (hcall : r.call = .saveCard o) : (spendStep s r).db =
    if s.db.spendUnlockRequirement = .card then s.db.unlockOrgSpend r.now o else s.db := by
  unfold spendStep orStay SpendState.execute
  rw [hcall]
  rfl

theorem unlockOrgSpend_locked {db : SpendDb} {now : Int} {o : String} (h : db.Locked orgId) :
    ¬ (db.unlockOrgSpend now o).Locked orgId ↔ o = orgId := by
  unfold SpendDb.unlockOrgSpend
  rw [SpendDb.unlock_locked, not_and, not_not, SpendDb.mem_unlocks]
  constructor
  · intro hmem
    obtain ⟨q, -, rfl, -, hp⟩ := hmem h
    exact (of_decide_eq_true hp).symm
  · rintro rfl _
    obtain ⟨q, hq, hid, hnone⟩ := h
    exact ⟨q, hq, hid, hnone, decide_eq_true hid⟩

theorem unlocking_iff (hlocked : s.db.Locked orgId) : ¬ (spendStep s r).db.Locked orgId ↔ Unlocking s r orgId := by
  unfold Unlocking
  rw [and_iff_right hlocked]
  split
  · rename_i u hcall
    rw [spendStep_proveInbox hcall]
    split
    · rename_i hmode
      rw [unlockFounderSpend_locked hlocked, and_iff_right hmode]
    · rename_i hmode
      exact iff_of_false (not_not.mpr hlocked) fun hand => hmode hand.1
  · rename_i o hcall
    rw [spendStep_saveCard hcall]
    split
    · rename_i hmode
      rw [unlockOrgSpend_locked hlocked, and_iff_right hmode]
    · rename_i hmode
      exact iff_of_false (not_not.mpr hlocked) fun hand => hmode hand.1
  · rename_i hproof hcard
    refine iff_of_false ?_ id
    rw [not_not]
    rcases (spendStep_cases s r).locked hlocked with hstays | ⟨-, -, -, ⟨u, hcall⟩ | ⟨o, hcall⟩⟩
    · exact hstays
    · exact absurd hcall (hproof u)
    · exact absurd hcall (hcard o)

theorem unlocksCleanly_iff (hs : Kept s) : UnlocksCleanly s r ↔ ∀ o, Unlocking s r o → InOrder s o := by
  have hclean : ∀ o, Unlocking s r o → (Clean (spendStep s r) o ↔ InOrder s o) := fun o ho => by
    have hunlocks := (unlocking_iff ho.1).mpr ho
    rcases (spendStep_cases s r).locked ho.1 with hstays | ⟨p, hdb, hfounders, -⟩
    · exact absurd hstays hunlocks
    · rw [hdb] at hunlocks
      exact unlock_clean_iff hs hdb hfounders (SpendDb.mem_unlocks_iff.mpr ⟨ho.1, hunlocks⟩)
  constructor
  · intro h o ho
    exact (hclean o ho).mp (h o ho.1 ((unlocking_iff ho.1).mpr ho))
  · intro h o hlocked hunlocks
    have ho := (unlocking_iff hlocked).mp hunlocks
    exact (hclean o ho).mpr (h o ho)

/-- **Credentials after the first unlock.**  Every unlock of a run leaves the founder as the only member and
the maker of every live key exactly if every unlock finds an organization that is in order. -/
theorem unlocks_cleanly_iff (operators : List String) (signupsEnabled : Bool) (requirement : SpendUnlockRequirement)
    (seedAdminEmail demoSeedEmail : Option String) (requests : List SpendRequest) :
    StepsMeet spendStep UnlocksCleanly
      (.start operators signupsEnabled requirement seedAdminEmail demoSeedEmail) requests ↔
    StepsMeet spendStep (fun s r => ∀ o, Unlocking s r o → InOrder s o)
      (.start operators signupsEnabled requirement seedAdminEmail demoSeedEmail) requests :=
  stepsMeet_congr (fun _ _ => spendStep_kept) (fun _ _ => unlocksCleanly_iff) requests _ start_kept

/-- Bob makes a key and leaves; then Ann proves her inbox. -/
def leaverKey : List SpendRequest :=
  coAdmin ++ [⟨4, "key-1", .mintKey "bob" "acme"⟩, ⟨5, "-", .removeMember "ann" "acme" "bob"⟩]

/-- The key of an admin who left outlives the unlock, and is live in an organization of Ann's alone. -/
theorem leaver_key_survives : ¬ UnlocksCleanly (run spendStep (.start [] true .email none none) leaverKey)
    ⟨6, "-", .proveInbox "ann"⟩ := by
  intro h
  obtain ⟨-, -, hkeys⟩ := h "acme" (by decide) (by decide)
  obtain ⟨u, hu, hfounder⟩ := hkeys ⟨"key-1", "acme", some "bob", none⟩ (by decide) rfl rfl
  cases hu
  exact absurd hfounder (by decide)

end Experiential.Spend
