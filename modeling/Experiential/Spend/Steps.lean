import Experiential.Spend.Unlocks

/-! # What a request does to members and organizations

`execute_effect` says once what an accepted request can do to the organizations, their members and the
history; the rules about whole runs are case analyses on it. `Kept` is what every request keeps,
whenever it runs: one row a member, one founder an organization, and an admin in every one. `Dated`
needs the clock to run forward: then no two members of an organization joined at the same time. -/

namespace Experiential.Spend

open Identity (OrgRole AuthUser)

variable {s s' : SpendState} {r : SpendRequest} {orgId userId : String}

/-! ### Effects -/

/-- The caller of a member route that `requireOrgManager` lets through. -/
def SpendState.Manages (s : SpendState) (actor orgId : String) : Prop :=
  s.db.OrgExists orgId ∧ (s.db.IsOperator actor ∨ s.db.IsOrgAdmin orgId actor)

instance (actor : String) : Decidable (s.Manages actor orgId) :=
  inferInstanceAs (Decidable (s.db.OrgExists orgId ∧ (s.db.IsOperator actor ∨ s.db.IsOrgAdmin orgId actor)))

theorem SpendDb.IsOrgAdmin.isMember {db : SpendDb} (h : db.IsOrgAdmin orgId userId) : db.IsMember orgId userId := by
  obtain ⟨m, hm, ho, hu, -⟩ := h
  exact ⟨m, hm, ho, hu⟩

theorem requireOrgManager_eq_ok {actor : String} : s.requireOrgManager actor orgId = .ok () ↔ s.Manages actor orgId := by
  unfold SpendState.requireOrgManager SpendState.Manages
  simp only [bind_eq_ok, ensure_eq_ok, exists_const]
  constructor
  · rintro ⟨⟨horg, -⟩, hadmin⟩
    exact ⟨horg, hadmin⟩
  · rintro ⟨horg, hadmin⟩
    exact ⟨⟨horg, hadmin.imp id SpendDb.IsOrgAdmin.isMember⟩, hadmin⟩

/-- What `PATCH` of a member writes. -/
def setRoleRow (orgId userId : String) (role : OrgRole) (m : Member) : Member :=
  if m.orgId = orgId ∧ m.userId = userId then { m with role := role } else m

/-- What an accepted request does to the organizations, their members, and the history. -/
inductive Effect (s : SpendState) (r : SpendRequest) (s' : SpendState) : Prop where
  | same (orgs : s'.db.organizations = s.db.organizations) (members : s'.db.members = s.db.members)
      (founders : s'.founders = s.founders) (proofs : s'.proofs = s.proofs)
  | founded (o u : String) (fresh : ¬ s.db.OrgExists o)
      (orgs : s'.db.organizations = s.db.organizations ++ [⟨o, none, none⟩])
      (members : s'.db.members = s.db.members ++ [⟨o, u, .admin, r.now⟩])
      (founders : s'.founders = s.founders ++ [(o, u)]) (proofs : s'.proofs = s.proofs)
  | joined (o u : String) (role : OrgRole) (there : s.db.OrgExists o) (absent : ¬ s.db.IsMember o u)
      (orgs : s'.db.organizations = s.db.organizations)
      (members : s'.db.members = s.db.members ++ [⟨o, u, role, r.now⟩])
      (founders : s'.founders = s.founders) (proofs : s'.proofs = s.proofs)
  | roleSet (actor o u : String) (role : OrgRole) (call : r.call = .setRole actor o u (some role))
      (manages : s.Manages actor o) (last : role = .admin ∨ s.db.isLastOrgAdmin o u = false)
      (member : s.db.IsMember o u) (orgs : s'.db.organizations = s.db.organizations)
      (members : s'.db.members = s.db.members.map (setRoleRow o u role))
      (founders : s'.founders = s.founders) (proofs : s'.proofs = s.proofs)
  | removed (actor o u : String) (call : r.call = .removeMember actor o u) (manages : s.Manages actor o)
      (last : s.db.isLastOrgAdmin o u = false) (member : s.db.IsMember o u) (orgs : s'.db.organizations = s.db.organizations)
      (members : s'.db.members = s.db.members.filter fun m => !(decide (m.orgId = o) && decide (m.userId = u)))
      (founders : s'.founders = s.founders) (proofs : s'.proofs = s.proofs)
  | unlocked (p : Organization → Bool) (db : s'.db = s.db.unlock r.now p) (founders : s'.founders = s.founders)
      (call : (∃ u, r.call = .proveInbox u ∧ s.db.spendUnlockRequirement = .email ∧ s'.proofs = u :: s.proofs ∧
          p = fun o => decide (s.db.IsFoundingAdmin o.id u)) ∨
        ∃ o, r.call = .saveCard o ∧ s.db.spendUnlockRequirement = .card ∧ s'.proofs = s.proofs ∧
          p = fun q => decide (q.id = o))
  | proved (u : String) (call : r.call = .proveInbox u) (requirement : s.db.spendUnlockRequirement ≠ .email)
      (db : s'.db = s.db) (founders : s'.founders = s.founders) (proofs : s'.proofs = u :: s.proofs)

theorem foundOrg_effect {now : Int} {newId : String} (h : s.foundOrg now newId userId = .ok s') :
    newId ∉ s.db.organizations.map (·.id) ∧
      s'.db.organizations = s.db.organizations ++ [⟨newId, none, none⟩] ∧
        s'.db.members = s.db.members ++ [⟨newId, userId, .admin, now⟩] ∧
          s'.founders = s.founders ++ [(newId, userId)] ∧ s'.proofs = s.proofs := by
  unfold SpendState.foundOrg at h
  split at h
  · rename_i hfresh
    cases h
    exact ⟨hfresh, rfl, rfl, rfl, rfl⟩
  · cases h

theorem not_orgExists_iff {db : SpendDb} : ¬ db.OrgExists orgId ↔ orgId ∉ db.organizations.map (·.id) := by
  unfold SpendDb.OrgExists
  simp only [List.mem_map]

theorem signUp_effect {user : AuthUser} {inviteToken : Option String} {provisionedVia : Bool}
    (h : s.signUp r.now r.newId user inviteToken provisionedVia = .ok s') : Effect s r s' := by
  unfold SpendState.signUp SpendState.provisionSignupOrg at h
  simp only [bind_eq_ok, ensure_eq_ok, exists_const] at h
  obtain ⟨-, h⟩ := h
  split at h
  · cases h
    exact .same rfl rfl rfl rfl
  split at h
  · cases h
    exact .same rfl rfl rfl rfl
  split at h
  · rename_i i _
    simp only [bind_eq_ok, pure_eq_ok] at h
    obtain ⟨s₁, hs₁, rfl⟩ := h
    unfold SpendState.applyInvitation at hs₁
    split at hs₁
    · rename_i o _
      simp only [bind_eq_ok, ensure_eq_ok, exists_const, pure_eq_ok] at hs₁
      obtain ⟨hexists, rfl⟩ := hs₁
      split
      · exact .same rfl rfl rfl rfl
      · rename_i habsent
        exact .joined o user.id i.role hexists habsent rfl rfl rfl rfl
    · obtain ⟨hfresh, horgs, hmembers, hfounders, hproofs⟩ := foundOrg_effect hs₁
      exact .founded r.newId user.id (not_orgExists_iff.mpr hfresh) horgs hmembers hfounders hproofs
  · split at h
    · obtain ⟨hfresh, horgs, hmembers, hfounders, hproofs⟩ := foundOrg_effect h
      exact .founded r.newId user.id (not_orgExists_iff.mpr hfresh) horgs hmembers hfounders hproofs
    · cases h
      exact .same rfl rfl rfl rfl

variable {role : OrgRole}

theorem addMember_effect {email actor : String}
    (h : s.addMember r.now r.newId orgId email role actor = .ok s') : Effect s r s' := by
  unfold SpendState.addMember SpendState.addOrInviteMember at h
  simp only [bind_eq_ok, ensure_eq_ok, exists_const] at h
  obtain ⟨-, -, -, h⟩ := h
  split at h
  · rename_i user _
    simp only [bind_eq_ok, ensure_eq_ok, exists_const, pure_eq_ok] at h
    obtain ⟨habsent, hexists, rfl⟩ := h
    exact .joined orgId user.id role hexists habsent rfl rfl rfl rfl
  · unfold SpendState.inviteMember at h
    split at h
    · cases h
      split <;> exact .same rfl rfl rfl rfl
    · simp only [bind_eq_ok, ensure_eq_ok, exists_const, pure_eq_ok] at h
      obtain ⟨-, rfl⟩ := h
      exact .same rfl rfl rfl rfl

theorem insertKey_effect {k : ApiKey} (h : s.insertKey k = .ok s') : Effect s r s' := by
  unfold SpendState.insertKey at h
  simp only [bind_eq_ok, ensure_eq_ok, exists_const, pure_eq_ok] at h
  obtain ⟨-, rfl⟩ := h
  exact .same rfl rfl rfl rfl

theorem execute_effect (h : s.execute r = .ok s') : Effect s r s' := by
  unfold SpendState.execute at h
  split at h
  · exact signUp_effect h
  · exact addMember_effect h
  · rename_i actor o u role hcall
    unfold SpendState.setRole at h
    simp only [bind_eq_ok, ensure_eq_ok, exists_const, require_eq_ok, pure_eq_ok] at h
    obtain ⟨⟨⟩, hmanages, role, rfl, hlast, hmember, rfl⟩ := h
    exact .roleSet actor o u role hcall (requireOrgManager_eq_ok.mp hmanages) hlast hmember rfl rfl rfl rfl
  · rename_i actor o u hcall
    unfold SpendState.removeMember at h
    simp only [bind_eq_ok, ensure_eq_ok, exists_const, pure_eq_ok] at h
    obtain ⟨⟨⟩, hmanages, hlast, hmember, rfl⟩ := h
    exact .removed actor o u hcall (requireOrgManager_eq_ok.mp hmanages) hlast hmember rfl rfl rfl rfl
  · unfold SpendState.mintKey at h
    split at h
    · simp only [bind_eq_ok, ensure_eq_ok, exists_const] at h
      exact insertKey_effect h.2.2
    · simp only [bind_eq_ok, ensure_eq_ok, exists_const] at h
      exact insertKey_effect h.2.2.2
  · unfold SpendState.rotateKey at h
    simp only [bind_eq_ok, ensure_eq_ok, exists_const] at h
    obtain ⟨_, -, -, -, h⟩ := h
    exact insertKey_effect h
  · rename_i u hcall
    cases h
    by_cases hmode : s.db.spendUnlockRequirement = .email
    · exact .unlocked _ (if_pos hmode) rfl (.inl ⟨u, hcall, hmode, rfl, rfl⟩)
    · exact .proved u hcall hmode (if_neg hmode) rfl rfl
  · rename_i o hcall
    cases h
    by_cases hmode : s.db.spendUnlockRequirement = .card
    · exact .unlocked _ (if_pos hmode) rfl (.inr ⟨o, hcall, hmode, rfl, rfl⟩)
    · refine .same ?_ ?_ rfl rfl
      · exact congrArg SpendDb.organizations (if_neg hmode)
      · exact congrArg SpendDb.members (if_neg hmode)
  · cases h
    exact .same rfl rfl rfl rfl

/-- A step leaves everything but the clock, or is what the accepted request does. -/
theorem spendStep_cases (s : SpendState) (r : SpendRequest) : Effect s r (spendStep s r) := by
  unfold spendStep orStay
  split
  · rename_i s' h
    cases execute_effect h with
    | same orgs members founders proofs => exact .same orgs members founders proofs
    | founded o u fresh orgs members founders proofs => exact .founded o u fresh orgs members founders proofs
    | joined o u role there absent orgs members founders proofs =>
        exact .joined o u role there absent orgs members founders proofs
    | roleSet actor o u role call manages last member orgs members founders proofs =>
        exact .roleSet actor o u role call manages last member orgs members founders proofs
    | removed actor o u call manages last member orgs members founders proofs =>
        exact .removed actor o u call manages last member orgs members founders proofs
    | unlocked p db founders call => exact .unlocked p db founders call
    | proved u call requirement db founders proofs => exact .proved u call requirement db founders proofs
  · exact .same rfl rfl rfl rfl

theorem spendStep_setRole {actor : String} (hcall : r.call = .setRole actor orgId userId (some role))
    (hmanages : s.Manages actor orgId) (hlast : role = .admin ∨ s.db.isLastOrgAdmin orgId userId = false)
    (hmember : s.db.IsMember orgId userId) : spendStep s r =
      { s with db := { s.db with members := s.db.members.map (setRoleRow orgId userId role) }, clock := r.now } := by
  have hok : s.execute r =
      .ok { s with db := { s.db with members := s.db.members.map (setRoleRow orgId userId role) } } := by
    unfold SpendState.execute SpendState.setRole
    simp only [hcall, bind_eq_ok, ensure_eq_ok, exists_const, require_eq_ok, pure_eq_ok]
    exact ⟨(), requireOrgManager_eq_ok.mpr hmanages, role, rfl, hlast, hmember, rfl⟩
  unfold spendStep
  rw [orStay_of_ok hok]

theorem spendStep_removeMember {actor : String} (hcall : r.call = .removeMember actor orgId userId)
    (hmanages : s.Manages actor orgId) (hlast : s.db.isLastOrgAdmin orgId userId = false)
    (hmember : s.db.IsMember orgId userId) : spendStep s r =
      { s with db := { s.db with members := s.db.members.filter fun m =>
        !(decide (m.orgId = orgId) && decide (m.userId = userId)) }, clock := r.now } := by
  have hok : s.execute r = .ok { s with db := { s.db with members := s.db.members.filter fun m =>
      !(decide (m.orgId = orgId) && decide (m.userId = userId)) } } := by
    unfold SpendState.execute SpendState.removeMember
    simp only [hcall, bind_eq_ok, ensure_eq_ok, exists_const, pure_eq_ok]
    exact ⟨(), requireOrgManager_eq_ok.mpr hmanages, hlast, hmember, trivial⟩
  unfold spendStep
  rw [orStay_of_ok hok]

variable {m : Member}

@[simp] theorem setRoleRow_orgId : (setRoleRow orgId userId role m).orgId = m.orgId := by
  unfold setRoleRow
  split <;> rfl

@[simp] theorem setRoleRow_userId : (setRoleRow orgId userId role m).userId = m.userId := by
  unfold setRoleRow
  split <;> rfl

@[simp] theorem setRoleRow_createdAt : (setRoleRow orgId userId role m).createdAt = m.createdAt := by
  unfold setRoleRow
  split <;> rfl

theorem setRoleRow_role : (setRoleRow orgId userId role m).role =
    if m.orgId = orgId ∧ m.userId = userId then role else m.role := by
  unfold setRoleRow
  split <;> rfl

theorem mem_setRole {members : List Member} (h : m.orgId ≠ orgId) :
    m ∈ members.map (setRoleRow orgId userId role) ↔ m ∈ members :=
  @mem_map_update Member (fun m => m.orgId = orgId ∧ m.userId = userId) _ (fun m => { m with role := role })
    (fun _ => id) m (fun hrow => h hrow.1) members

theorem mem_removed {members : List Member} :
    (m ∈ members.filter fun m => !(decide (m.orgId = orgId) && decide (m.userId = userId))) ↔
      m ∈ members ∧ (m.orgId = orgId → m.userId ≠ userId) := by
  rw [List.mem_filter, Bool.not_eq_true', Bool.and_eq_false_iff, decide_eq_false_iff_not, decide_eq_false_iff_not]
  tauto

/-! ### What every request keeps -/

theorem unlock_orgExists {db : SpendDb} {now : Int} {p : Organization → Bool} :
    (db.unlock now p).OrgExists orgId ↔ db.OrgExists orgId := by
  have hids : (db.unlock now p).organizations.map (·.id) = db.organizations.map (·.id) := by
    rw [SpendDb.unlock_organizations, map_update_key]
    intro _ _
    rfl
  rw [← not_iff_not, not_orgExists_iff, not_orgExists_iff, hids]

/-- The members and founders are of organizations that are there, and each of these has an admin. -/
structure Kept (s : SpendState) : Prop where
  keyed : (s.db.members.map fun m => (m.orgId, m.userId)).Nodup
  rooted : ∀ m ∈ s.db.members, s.db.OrgExists m.orgId
  founded : ∀ f ∈ s.founders, s.db.OrgExists f.1
  unique : ∀ f ∈ s.founders, ∀ g ∈ s.founders, f.1 = g.1 → f = g
  administered : ∀ o, s.db.OrgExists o → ∃ u, s.db.IsOrgAdmin o u

theorem Kept.member_eq (h : Kept s) {m m' : Member} (hm : m ∈ s.db.members) (hm' : m' ∈ s.db.members)
    (ho : m.orgId = m'.orgId) (hu : m.userId = m'.userId) : m = m' :=
  List.inj_on_of_nodup_map h.keyed hm hm' (Prod.ext ho hu)

/-- An organization whose last admin is not the user has another one. -/
theorem Kept.other_admin (h : Kept s) (ho : s.db.OrgExists orgId) (hlast : s.db.isLastOrgAdmin orgId userId = false) :
    ∃ m ∈ s.db.admins orgId, m.userId ≠ userId := by
  obtain ⟨u, m, hm, hmo, hmu, hrole⟩ := h.administered orgId ho
  have hmem : m ∈ s.db.admins orgId := SpendDb.mem_admins.mpr ⟨hm, hmo, hrole⟩
  by_contra hnone
  push Not at hnone
  refine absurd hlast ?_
  unfold SpendDb.isLastOrgAdmin
  rw [decide_eq_false_iff_not, not_not]
  -- every admin is the user, and rows are keyed, so that there is a single one
  have hall : ∀ a ∈ s.db.admins orgId, a = m := fun a ha => by
    obtain ⟨ha', hao, -⟩ := SpendDb.mem_admins.mp ha
    exact h.member_eq ha' hm (hao.trans hmo.symm) ((hnone a ha).trans (hnone m hmem).symm)
  have hnodup : (s.db.admins orgId).Nodup := (List.Nodup.of_map _ h.keyed).filter _
  have hsingle : s.db.admins orgId = [m] := by
    refine List.perm_singleton.mp ((List.perm_ext_iff_of_nodup hnodup (List.nodup_singleton m)).mpr fun a => ?_)
    rw [List.mem_singleton]
    exact ⟨hall a, fun heq => heq ▸ hmem⟩
  rw [hsingle, List.map_singleton, hnone m hmem]

theorem unlock_administered {db : SpendDb} {now : Int} {p : Organization → Bool}
    (h : ∃ u, db.IsOrgAdmin orgId u) : ∃ u, (db.unlock now p).IsOrgAdmin orgId u := by
  cases hfirst : db.earliestAdmin orgId with
  | none =>
      obtain ⟨u, m, hm, ho, -, hrole⟩ := h
      have hmem : m ∈ db.admins orgId := SpendDb.mem_admins.mpr ⟨hm, ho, hrole⟩
      rw [SpendDb.earliestAdmin_eq_none hfirst] at hmem
      cases hmem
  | some e =>
      obtain ⟨he, heo, hrole⟩ := SpendDb.mem_admins.mp (SpendDb.earliestAdmin_spec hfirst).1
      refine ⟨e.userId, e, SpendDb.mem_unlock_members.mpr ⟨he, fun _ founder hf => ?_⟩, heo, rfl, hrole⟩
      rw [heo, hfirst] at hf
      exact .inr (congrArg Member.userId (Option.some.inj hf))

theorem nodup_append_singleton {α : Type} {l : List α} {a : α} (hl : l.Nodup) (ha : a ∉ l) : (l ++ [a]).Nodup := by
  rw [← List.concat_eq_append]
  exact hl.concat ha

section same
variable {db db' : SpendDb}

theorem orgExists_congr (h : db'.organizations = db.organizations) : db'.OrgExists orgId ↔ db.OrgExists orgId := by
  unfold SpendDb.OrgExists
  rw [h]

theorem orgExists_concat {o : Organization} (h : db'.organizations = db.organizations ++ [o]) :
    db'.OrgExists orgId ↔ db.OrgExists orgId ∨ o.id = orgId := by
  unfold SpendDb.OrgExists
  simp only [h, List.mem_append, List.mem_singleton, or_and_right, exists_or, exists_eq_left]

theorem isOrgAdmin_mono (h : ∀ m ∈ db.members, m.orgId = orgId → m ∈ db'.members) (ha : db.IsOrgAdmin orgId userId) :
    db'.IsOrgAdmin orgId userId := by
  obtain ⟨m, hm, ho, hrest⟩ := ha
  exact ⟨m, h m hm ho, ho, hrest⟩

end same

theorem setRole_administered (hs : Kept s) (ho : s.db.OrgExists orgId)
    (hlast : role = .admin ∨ s.db.isLastOrgAdmin orgId userId = false) :
    ∃ m ∈ s.db.members, m.orgId = orgId ∧ (setRoleRow orgId userId role m).role = .admin := by
  rcases hlast with rfl | hlast
  · obtain ⟨u, m, hm, hmo, -, hrole⟩ := hs.administered orgId ho
    refine ⟨m, hm, hmo, ?_⟩
    rw [setRoleRow_role]
    split
    · rfl
    · exact hrole
  · obtain ⟨m, hm, hne⟩ := hs.other_admin ho hlast
    obtain ⟨hm, hmo, hrole⟩ := SpendDb.mem_admins.mp hm
    refine ⟨m, hm, hmo, ?_⟩
    rw [setRoleRow_role, if_neg fun hand => hne hand.2]
    exact hrole

/-- The organizations and their founders stay: what is left is about the members. -/
theorem Kept.of_members (hs : Kept s) (orgs : s'.db.organizations = s.db.organizations)
    (founders : s'.founders = s.founders) (keyed : (s'.db.members.map fun m => (m.orgId, m.userId)).Nodup)
    (rooted : ∀ m ∈ s'.db.members, s.db.OrgExists m.orgId)
    (administered : ∀ o, s.db.OrgExists o → ∃ u, s'.db.IsOrgAdmin o u) : Kept s' where
  keyed := keyed
  rooted m hm := (orgExists_congr orgs).mpr (rooted m hm)
  founded f hf := (orgExists_congr orgs).mpr (hs.founded f (founders ▸ hf))
  unique := founders ▸ hs.unique
  administered o ho := administered o ((orgExists_congr orgs).mp ho)

theorem Kept.keyed_concat (hs : Kept s) (absent : ¬ s.db.IsMember m.orgId m.userId) :
    ((s.db.members ++ [m]).map fun m => (m.orgId, m.userId)).Nodup := by
  rw [List.map_append, List.map_singleton]
  refine nodup_append_singleton hs.keyed fun hmem => ?_
  obtain ⟨m', hm', heq⟩ := List.mem_map.mp hmem
  exact absent ⟨m', hm', congrArg Prod.fst heq, congrArg Prod.snd heq⟩

theorem Kept.founding (hs : Kept s) {o u : String} {t : Int} (fresh : ¬ s.db.OrgExists o)
    (orgs : s'.db.organizations = s.db.organizations ++ [⟨o, none, none⟩])
    (members : s'.db.members = s.db.members ++ [⟨o, u, .admin, t⟩])
    (founders : s'.founders = s.founders ++ [(o, u)]) : Kept s' where
  keyed := by
    rw [members]
    refine hs.keyed_concat ?_
    rintro ⟨m, hm, ho, -⟩
    exact fresh ((show m.orgId = o from ho) ▸ hs.rooted m hm)
  rooted m hm := by
    rw [members, List.mem_append, List.mem_singleton] at hm
    rw [orgExists_concat orgs]
    rcases hm with hm | rfl
    · exact .inl (hs.rooted m hm)
    · exact .inr rfl
  founded f hf := by
    rw [founders, List.mem_append, List.mem_singleton] at hf
    rw [orgExists_concat orgs]
    rcases hf with hf | rfl
    · exact .inl (hs.founded f hf)
    · exact .inr rfl
  unique f hf g hg heq := by
    rw [founders, List.mem_append, List.mem_singleton] at hf hg
    rcases hf with hf | rfl <;> rcases hg with hg | rfl
    · exact hs.unique f hf g hg heq
    · exact absurd (hs.founded f hf) (heq ▸ fresh)
    · exact absurd (hs.founded g hg) (heq ▸ fresh)
    · rfl
  administered o' ho' := by
    rcases (orgExists_concat orgs).mp ho' with ho' | rfl
    · obtain ⟨u', hu'⟩ := hs.administered o' ho'
      exact ⟨u', isOrgAdmin_mono (fun m hm _ => members ▸ List.mem_append_left _ hm) hu'⟩
    · exact ⟨u, _, members ▸ List.mem_append_right _ (List.mem_singleton_self _), rfl, rfl, rfl⟩

theorem Kept.joining (hs : Kept s) (there : s.db.OrgExists m.orgId)
    (absent : ¬ s.db.IsMember m.orgId m.userId) (orgs : s'.db.organizations = s.db.organizations)
    (members : s'.db.members = s.db.members ++ [m]) (founders : s'.founders = s.founders) : Kept s' := by
  refine hs.of_members orgs founders (members ▸ hs.keyed_concat absent) (fun m' hm' => ?_) fun o ho => ?_
  · rw [members, List.mem_append, List.mem_singleton] at hm'
    rcases hm' with hm' | rfl
    · exact hs.rooted m' hm'
    · exact there
  · obtain ⟨u, hu⟩ := hs.administered o ho
    exact ⟨u, isOrgAdmin_mono (fun m hm _ => members ▸ List.mem_append_left _ hm) hu⟩

theorem Kept.roleSetting (hs : Kept s) {o u : String}
    (last : role = .admin ∨ s.db.isLastOrgAdmin o u = false) (orgs : s'.db.organizations = s.db.organizations)
    (members : s'.db.members = s.db.members.map (setRoleRow o u role)) (founders : s'.founders = s.founders) :
    Kept s' := by
  refine hs.of_members orgs founders ?_ (fun m hm => ?_) fun o' ho => ?_
  · rw [members, List.map_map]
    refine (congrArg List.Nodup (List.map_congr_left fun m _ => ?_)).mpr hs.keyed
    exact Prod.ext setRoleRow_orgId setRoleRow_userId
  · rw [members] at hm
    obtain ⟨m₀, hm₀, rfl⟩ := List.mem_map.mp hm
    rw [setRoleRow_orgId]
    exact hs.rooted m₀ hm₀
  by_cases heq : o' = o
  · subst heq
    obtain ⟨m, hm, hmo, hrole⟩ := setRole_administered hs ho last
    exact ⟨m.userId, setRoleRow o' u role m, members ▸ List.mem_map_of_mem hm, setRoleRow_orgId.trans hmo,
      setRoleRow_userId, hrole⟩
  · obtain ⟨u', hu'⟩ := hs.administered o' ho
    refine ⟨u', isOrgAdmin_mono (fun m hm hmo => members ▸ List.mem_map.mpr ⟨m, hm, ?_⟩) hu'⟩
    exact if_neg fun hand => heq (hmo.symm.trans hand.1)

theorem Kept.removing (hs : Kept s) {o u : String} (last : s.db.isLastOrgAdmin o u = false)
    (orgs : s'.db.organizations = s.db.organizations)
    (members : s'.db.members = s.db.members.filter fun m => !(decide (m.orgId = o) && decide (m.userId = u)))
    (founders : s'.founders = s.founders) : Kept s' := by
  have hmem : ∀ m, m ∈ s'.db.members ↔ m ∈ s.db.members ∧ (m.orgId = o → m.userId ≠ u) := fun m => by
    rw [members, mem_removed]
  refine hs.of_members orgs founders ?_ (fun m hm => hs.rooted m ((hmem m).mp hm).1) fun o' ho => ?_
  · rw [members]
    exact hs.keyed.sublist (List.filter_sublist.map _)
  by_cases heq : o' = o
  · subst heq
    obtain ⟨m, hm, hne⟩ := hs.other_admin ho last
    obtain ⟨hm, hmo, hrole⟩ := SpendDb.mem_admins.mp hm
    exact ⟨m.userId, m, (hmem m).mpr ⟨hm, fun _ => hne⟩, hmo, rfl, hrole⟩
  · obtain ⟨u', hu'⟩ := hs.administered o' ho
    exact ⟨u', isOrgAdmin_mono (fun m hm hmo => (hmem m).mpr ⟨hm, fun h => absurd (hmo.symm.trans h) heq⟩) hu'⟩

theorem Kept.unlocking (hs : Kept s) {now : Int} {p : Organization → Bool} (db : s'.db = s.db.unlock now p)
    (founders : s'.founders = s.founders) : Kept s' where
  keyed := db ▸ hs.keyed.sublist (SpendDb.unlock_members_sublist.map _)
  rooted m hm := by
    rw [db] at hm ⊢
    exact unlock_orgExists.mpr (hs.rooted m (SpendDb.unlock_members_sublist.subset hm))
  founded f hf := by
    rw [founders] at hf
    rw [db]
    exact unlock_orgExists.mpr (hs.founded f hf)
  unique := founders ▸ hs.unique
  administered o ho := by
    rw [db] at ho ⊢
    exact unlock_administered (hs.administered o (unlock_orgExists.mp ho))

theorem Effect.kept (h : Effect s r s') (hs : Kept s) : Kept s' := by
  have hsame : s'.db.organizations = s.db.organizations → s'.db.members = s.db.members →
      s'.founders = s.founders → Kept s' := by
    intro orgs members founders
    refine hs.of_members orgs founders (members ▸ hs.keyed) (members ▸ hs.rooted) fun o ho => ?_
    obtain ⟨u, hu⟩ := hs.administered o ho
    exact ⟨u, isOrgAdmin_mono (fun m hm _ => members ▸ hm) hu⟩
  cases h with
  | same orgs members founders _ => exact hsame orgs members founders
  | founded o u fresh orgs members founders _ => exact hs.founding fresh orgs members founders
  | joined o u role there absent orgs members founders _ => exact hs.joining there absent orgs members founders
  | roleSet _ o u role _ _ last _ orgs members founders _ => exact hs.roleSetting last orgs members founders
  | removed _ o u _ _ last _ orgs members founders _ => exact hs.removing last orgs members founders
  | unlocked p db founders _ => exact hs.unlocking db founders
  | proved u _ _ db founders _ => exact hsame (congrArg _ db) (congrArg _ db) founders

theorem spendStep_kept (hs : Kept s) : Kept (spendStep s r) := (spendStep_cases s r).kept hs

/-! ### A clock that runs forward -/

/-- The request's transaction begins after those before it. -/
def Forward (s : SpendState) (r : SpendRequest) : Prop := s.clock < r.now

instance : Decidable (Forward s r) := inferInstanceAs (Decidable (s.clock < r.now))

/-- No two members of an organization have one date, and none is of the future. -/
structure Dated (s : SpendState) : Prop where
  past : ∀ m ∈ s.db.members, m.createdAt ≤ s.clock
  apart : ∀ m ∈ s.db.members, ∀ m' ∈ s.db.members, m.orgId = m'.orgId → m.createdAt = m'.createdAt → m = m'

/-- Every row after a step has the organization, user and date of one before it, or is new. -/
theorem Effect.member_origin (h : Effect s r s') :
    (∃ f : Member → Member, (∀ m, (f m).orgId = m.orgId ∧ (f m).userId = m.userId ∧ (f m).createdAt = m.createdAt) ∧
      ∀ m ∈ s'.db.members, ∃ m₀ ∈ s.db.members, f m₀ = m) ∨
    ∃ m₁, m₁.createdAt = r.now ∧ s'.db.members = s.db.members ++ [m₁] := by
  cases h with
  | same _ members _ _ => exact .inl ⟨id, fun _ => ⟨rfl, rfl, rfl⟩, fun m hm => ⟨m, members ▸ hm, rfl⟩⟩
  | founded _ _ _ _ members _ _ | joined _ _ _ _ _ _ members _ _ => exact .inr ⟨_, rfl, members⟩
  | roleSet _ o u role _ _ _ _ _ members _ _ =>
      refine .inl ⟨setRoleRow o u role, fun _ => ⟨setRoleRow_orgId, setRoleRow_userId, setRoleRow_createdAt⟩, ?_⟩
      intro m hm
      rw [members] at hm
      exact List.mem_map.mp hm
  | removed _ o u _ _ _ _ _ members _ _ =>
      refine .inl ⟨id, fun _ => ⟨rfl, rfl, rfl⟩, fun m hm => ⟨m, ?_, rfl⟩⟩
      rw [members] at hm
      exact (mem_removed.mp hm).1
  | unlocked _ db _ _ =>
      refine .inl ⟨id, fun _ => ⟨rfl, rfl, rfl⟩, fun m hm => ⟨m, ?_, rfl⟩⟩
      rw [db] at hm
      exact SpendDb.unlock_members_sublist.subset hm
  | proved _ _ _ db _ _ => exact .inl ⟨id, fun _ => ⟨rfl, rfl, rfl⟩, fun m hm => ⟨m, db ▸ hm, rfl⟩⟩

theorem spendStep_dated (hs : Dated s) (hr : Forward s r) : Dated (spendStep s r) := by
  have hclock : (spendStep s r).clock = r.now := rfl
  unfold Forward at hr
  rcases (spendStep_cases s r).member_origin with ⟨f, hf, horigin⟩ | ⟨m₁, hnow, hmembers⟩
  · constructor
    · intro m hm
      obtain ⟨m₀, hm₀, rfl⟩ := horigin m hm
      have := hs.past m₀ hm₀
      rw [hclock, (hf m₀).2.2]
      omega
    · intro m hm m' hm' ho hat
      obtain ⟨m₀, hm₀, rfl⟩ := horigin m hm
      obtain ⟨m₀', hm₀', rfl⟩ := horigin m' hm'
      rw [(hf m₀).1, (hf m₀').1] at ho
      rw [(hf m₀).2.2, (hf m₀').2.2] at hat
      rw [hs.apart m₀ hm₀ m₀' hm₀' ho hat]
  · constructor
    · intro m hm
      rw [hmembers, List.mem_append, List.mem_singleton] at hm
      rw [hclock]
      rcases hm with hm | rfl
      · have := hs.past m hm
        omega
      · omega
    · intro m hm m' hm' ho hat
      rw [hmembers, List.mem_append, List.mem_singleton] at hm hm'
      rcases hm with hm | rfl <;> rcases hm' with hm' | rfl
      · exact hs.apart m hm m' hm' ho hat
      · have := hs.past m hm
        omega
      · have := hs.past m' hm'
        omega
      · rfl

end Experiential.Spend
