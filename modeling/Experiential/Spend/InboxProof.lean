import Experiential.Spend.Credentials

/-! # Inbox proofs read off the unlock state

`authUserVerification` takes the oldest admin of an unlocked organization for somebody who has proved
their inbox. `ProofsBacked` says that they have. A card unlock, and a role change or a removal in an
organization that is unlocked already, put somebody else into that place. -/

namespace Experiential.Spend

open Identity (OrgRole AuthUser)

variable {s s' : SpendState} {r : SpendRequest} {orgId userId : String} {P : Member → Bool}

/-- Whoever `authUserVerification` reports as proven has proved their inbox. -/
def ProofsBacked (s : SpendState) : Prop := ∀ u, s.db.InboxProven u → u ∈ s.proofs

/-- Of the organization's members with `P` the oldest has proved their inbox. -/
def LeadersProved (s : SpendState) (orgId : String) (P : Member → Bool) : Prop :=
  ∀ m ∈ s.db.members, m.orgId = orgId → P m = true →
    (∀ a ∈ s.db.members, a.orgId = orgId → P a = true → m.createdAt ≤ a.createdAt) → m.userId ∈ s.proofs

instance : Decidable (LeadersProved s orgId P) :=
  inferInstanceAs (Decidable (∀ m ∈ s.db.members, m.orgId = orgId → P m = true →
    (∀ a ∈ s.db.members, a.orgId = orgId → P a = true → m.createdAt ≤ a.createdAt) → m.userId ∈ s.proofs))

/-- The members that are admins once the user has the role. -/
def adminOnceSet (userId : String) (role : OrgRole) (m : Member) : Bool :=
  decide ((if m.userId = userId then role else m.role) = .admin)

/-- The admins but for the user. -/
def adminBut (userId : String) (m : Member) : Bool := decide (m.role = .admin) && decide (m.userId ≠ userId)

/-- A card unlocks only what an admin with a proven inbox leads, and an accepted role change or removal in
an unlocked organization leaves such an admin in the lead. -/
def SuccessorProved (s : SpendState) (r : SpendRequest) : Prop :=
  match r.call with
  | .saveCard o => s.db.spendUnlockRequirement = .card → s.db.Locked o →
      LeadersProved s o fun m => decide (m.role = .admin)
  | .setRole actor o u (some role) => s.db.Unlocked o → s.Manages actor o →
      (role = .admin ∨ s.db.isLastOrgAdmin o u = false) → s.db.IsMember o u → LeadersProved s o (adminOnceSet u role)
  | .removeMember actor o u => s.db.Unlocked o → s.Manages actor o → s.db.isLastOrgAdmin o u = false →
      s.db.IsMember o u → LeadersProved s o (adminBut u)
  | _ => True

instance : Decidable (SuccessorProved s r) :=
  match r with
  | ⟨_, _, .saveCard o⟩ => inferInstanceAs (Decidable (s.db.spendUnlockRequirement = .card → s.db.Locked o →
      LeadersProved s o fun m => decide (m.role = .admin)))
  | ⟨_, _, .setRole actor o u (some role)⟩ => inferInstanceAs (Decidable (s.db.Unlocked o → s.Manages actor o →
      (role = .admin ∨ s.db.isLastOrgAdmin o u = false) → s.db.IsMember o u → LeadersProved s o (adminOnceSet u role)))
  | ⟨_, _, .removeMember actor o u⟩ => inferInstanceAs (Decidable (s.db.Unlocked o → s.Manages actor o →
      s.db.isLastOrgAdmin o u = false → s.db.IsMember o u → LeadersProved s o (adminBut u)))
  | ⟨_, _, .setRole _ _ _ none⟩ | ⟨_, _, .signUp _ _ _⟩ | ⟨_, _, .addMember _ _ _ _⟩ | ⟨_, _, .mintKey _ _⟩ |
    ⟨_, _, .rotateKey _ _⟩ | ⟨_, _, .proveInbox _⟩ | ⟨_, _, .setRequirement _⟩ => .isTrue trivial

theorem proofsBacked_iff :
    ProofsBacked s ↔ ∀ o, s.db.Unlocked o → LeadersProved s o fun m => decide (m.role = .admin) := by
  constructor
  · rintro h _ ⟨q, hq, rfl, hunlocked⟩ m hm hmo hrole hlead
    refine h m.userId ⟨q, hq, hunlocked, m, hm, hmo, rfl, of_decide_eq_true hrole, fun a ha hao harole => ?_⟩
    exact hlead a ha hao (decide_eq_true harole)
  · rintro h u ⟨q, hq, hunlocked, m, hm, hmo, rfl, hrole, hlead⟩
    exact h q.id ⟨q, hq, rfl, hunlocked⟩ m hm hmo (decide_eq_true hrole) fun a ha hao harole =>
      hlead a ha hao (of_decide_eq_true harole)

theorem LeadersProved.congr (hmembers : ∀ m, m.orgId = orgId → (m ∈ s'.db.members ↔ m ∈ s.db.members))
    (hproofs : s.proofs ⊆ s'.proofs) (h : LeadersProved s orgId P) : LeadersProved s' orgId P := by
  intro m hm ho hP hlead
  refine hproofs (h m ((hmembers m ho).mp hm) ho hP fun a ha hao haP => ?_)
  exact hlead a ((hmembers a hao).mpr ha) hao haP

theorem unlocked_congr {db db' : SpendDb} (h : db'.organizations = db.organizations) :
    db'.Unlocked orgId ↔ db.Unlocked orgId := by
  unfold SpendDb.Unlocked
  rw [h]

/-! ### One request -/

theorem leadersProved_setRole {role : OrgRole} (hmembers : s'.db.members = s.db.members.map (setRoleRow orgId userId role))
    (hproofs : s'.proofs = s.proofs) :
    LeadersProved s' orgId (fun m => decide (m.role = .admin)) ↔ LeadersProved s orgId (adminOnceSet userId role) := by
  have hrole : ∀ m : Member, m.orgId = orgId →
      decide ((setRoleRow orgId userId role m).role = .admin) = adminOnceSet userId role m := by
    rintro m rfl
    unfold adminOnceSet
    rw [setRoleRow_role]
    simp only [true_and]
  unfold LeadersProved
  rw [hmembers, hproofs]
  simp only [List.forall_mem_map, setRoleRow_orgId, setRoleRow_userId, setRoleRow_createdAt]
  refine forall₃_congr fun m _ ho => ?_
  rw [hrole m ho]
  refine imp_congr Iff.rfl (imp_congr (forall₃_congr fun a _ hao => ?_) Iff.rfl)
  rw [hrole a hao]

theorem leadersProved_remove (hmembers : s'.db.members = s.db.members.filter fun m =>
      !(decide (m.orgId = orgId) && decide (m.userId = userId))) (hproofs : s'.proofs = s.proofs) :
    LeadersProved s' orgId (fun m => decide (m.role = .admin)) ↔ LeadersProved s orgId (adminBut userId) := by
  have hmem : ∀ m : Member, m.orgId = orgId → ((m ∈ s'.db.members ∧ decide (m.role = .admin) = true) ↔
      m ∈ s.db.members ∧ adminBut userId m = true) := by
    intro m ho
    unfold adminBut
    rw [hmembers, mem_removed, Bool.and_eq_true, decide_eq_true_eq, decide_eq_true_eq]
    tauto
  unfold LeadersProved
  rw [hproofs]
  constructor
  · intro h m hm ho hP hlead
    obtain ⟨hm', hrole⟩ := (hmem m ho).mpr ⟨hm, hP⟩
    refine h m hm' ho hrole fun a ha hao harole => ?_
    obtain ⟨ha', haP⟩ := (hmem a hao).mp ⟨ha, harole⟩
    exact hlead a ha' hao haP
  · intro h m hm ho hrole hlead
    obtain ⟨hm', hP⟩ := (hmem m ho).mp ⟨hm, hrole⟩
    refine h m hm' ho hP fun a ha hao haP => ?_
    obtain ⟨ha', harole⟩ := (hmem a hao).mpr ⟨ha, haP⟩
    exact hlead a ha' hao harole

/-- The oldest admin of an organization is a single row, which an unlock spares. -/
theorem Dated.lead_eq (hs : Dated s) {e m : Member} (he : s.db.earliestAdmin orgId = some e)
    (hm : m ∈ s.db.admins orgId) (hlead : ∀ a ∈ s.db.admins orgId, m.createdAt ≤ a.createdAt) : m = e := by
  obtain ⟨heMem, hfirst⟩ := SpendDb.earliestAdmin_spec he
  obtain ⟨hmMem, hmo, -⟩ := SpendDb.mem_admins.mp hm
  obtain ⟨heMem', heo, -⟩ := SpendDb.mem_admins.mp heMem
  exact hs.apart m hmMem e heMem' (hmo.trans heo.symm) (le_antisymm (hlead e heMem) (hfirst m hm))

section unlock
variable {p : Organization → Bool}

/-- An update that unlocks leaves an organization that is none of its own as it is. -/
theorem unlock_members_of_notMem (hdb : s'.db = s.db.unlock r.now p) (hnot : orgId ∉ s.db.unlocks p) (m : Member)
    (ho : m.orgId = orgId) : m ∈ s'.db.members ↔ m ∈ s.db.members := by
  rw [hdb, SpendDb.mem_unlock_members, ho]
  exact and_iff_left fun hmem => absurd hmem hnot

/-- Who leads the admins after an organization is torn down led them before. -/
theorem unlock_lead (hkept : Kept s) (hdated : Dated s) (ho : s.db.OrgExists orgId) {m : Member} :
    (m ∈ (s.db.unlock r.now p).admins orgId ∧ ∀ a ∈ (s.db.unlock r.now p).admins orgId, m.createdAt ≤ a.createdAt) ↔
      m ∈ s.db.admins orgId ∧ ∀ a ∈ s.db.admins orgId, m.createdAt ≤ a.createdAt := by
  have hsub : ∀ a, a ∈ (s.db.unlock r.now p).admins orgId → a ∈ s.db.admins orgId := fun a ha => by
    obtain ⟨ha, hao, hrole⟩ := SpendDb.mem_admins.mp ha
    exact SpendDb.mem_admins.mpr ⟨SpendDb.unlock_members_sublist.subset ha, hao, hrole⟩
  cases he : s.db.earliestAdmin orgId with
  | none =>
      obtain ⟨u, a, ha, hao, -, hrole⟩ := hkept.administered orgId ho
      have hmem : a ∈ s.db.admins orgId := SpendDb.mem_admins.mpr ⟨ha, hao, hrole⟩
      rw [SpendDb.earliestAdmin_eq_none he] at hmem
      cases hmem
  | some e =>
      obtain ⟨heMem, hfirst⟩ := SpendDb.earliestAdmin_spec he
      obtain ⟨heMem', heo, herole⟩ := SpendDb.mem_admins.mp heMem
      have hspared : e ∈ (s.db.unlock r.now p).admins orgId := by
        refine SpendDb.mem_admins.mpr ⟨SpendDb.mem_unlock_members.mpr ⟨heMem', fun _ founder hf => ?_⟩, heo, herole⟩
        rw [heo, he] at hf
        exact .inr (congrArg Member.userId (Option.some.inj hf))
      constructor
      · rintro ⟨hm, hlead⟩
        exact ⟨hsub m hm, fun a ha => (hlead e hspared).trans (hfirst a ha)⟩
      · rintro ⟨hm, hlead⟩
        rw [hdated.lead_eq he hm hlead]
        exact ⟨hspared, fun a ha => hfirst a (hsub a ha)⟩

end unlock

theorem leadersProved_iff : LeadersProved s orgId (fun m => decide (m.role = .admin)) ↔
    ∀ m ∈ s.db.admins orgId, (∀ a ∈ s.db.admins orgId, m.createdAt ≤ a.createdAt) → m.userId ∈ s.proofs := by
  unfold LeadersProved
  constructor
  · intro h m hm hlead
    obtain ⟨hm, ho, hrole⟩ := SpendDb.mem_admins.mp hm
    exact h m hm ho (decide_eq_true hrole) fun a ha hao harole =>
      hlead a (SpendDb.mem_admins.mpr ⟨ha, hao, of_decide_eq_true harole⟩)
  · intro h m hm ho hrole hlead
    refine h m (SpendDb.mem_admins.mpr ⟨hm, ho, of_decide_eq_true hrole⟩) fun a ha => ?_
    obtain ⟨ha, hao, harole⟩ := SpendDb.mem_admins.mp ha
    exact hlead a ha hao (decide_eq_true harole)

theorem unlocked_not_locked {db : SpendDb} (h : db.Unlocked orgId) : ¬ db.Locked orgId := by
  rintro ⟨q, hq, hid, hnone⟩
  obtain ⟨q', hq', hid', hsome⟩ := h
  obtain rfl : q' = q := List.inj_on_of_nodup_map db.orgsKeyed hq' hq (hid'.trans hid.symm)
  rw [hnone] at hsome
  cases hsome

theorem orgExists_iff {db : SpendDb} : db.OrgExists orgId ↔ db.Locked orgId ∨ db.Unlocked orgId := by
  constructor
  · rintro ⟨q, hq, hid⟩
    cases hat : q.spendUnlockedAt with
    | none => exact .inl ⟨q, hq, hid, hat⟩
    | some t => exact .inr ⟨q, hq, hid, by rw [hat]; rfl⟩
  · rintro (⟨q, hq, hid, -⟩ | ⟨q, hq, hid, -⟩)
    · exact ⟨q, hq, hid⟩
    · exact ⟨q, hq, hid⟩

theorem ProofsBacked.step (hkept : Kept s) (hdated : Dated s) (hs : ProofsBacked s) (hr : Forward s r)
    (hsuccessor : SuccessorProved s r) : ProofsBacked (spendStep s r) := by
  rw [proofsBacked_iff] at hs ⊢
  intro o ho
  cases spendStep_cases s r with
  | same orgs members _ proofs =>
      exact (hs o ((unlocked_congr orgs).mp ho)).congr (fun m _ => by rw [members]) (by rw [proofs]; exact fun _ => id)
  | founded o₁ u fresh orgs members _ proofs =>
      obtain ⟨q, hq, hid, hsome⟩ := ho
      rw [orgs, List.mem_append, List.mem_singleton] at hq
      rcases hq with hq | rfl
      · refine (hs o ⟨q, hq, hid, hsome⟩).congr (fun m hm => ?_) (by rw [proofs]; exact fun _ => id)
        rw [members, List.mem_append, List.mem_singleton]
        refine or_iff_left ?_
        rintro rfl
        exact fresh ⟨q, hq, hid.trans hm.symm⟩
      · cases hsome
  | joined o₁ u role _ _ orgs members _ proofs =>
      have hunlocked := (unlocked_congr orgs).mp ho
      obtain ⟨v, b, hb, hbo, -, hbrole⟩ := hkept.administered o (orgExists_iff.mpr (.inr hunlocked))
      intro m hm hmo hrole hlead
      rw [members, List.mem_append, List.mem_singleton] at hm
      rw [members] at hlead
      rw [proofs]
      rcases hm with hm | rfl
      · exact hs o hunlocked m hm hmo hrole fun a ha => hlead a (List.mem_append_left _ ha)
      · -- who joins now is not the oldest
        have hlater := hlead b (List.mem_append_left _ hb) hbo (decide_eq_true hbrole)
        have hpast := hdated.past b hb
        unfold Forward at hr
        exact absurd (hr.trans_le hlater) (not_lt.mpr hpast)
  | roleSet actor o₁ u role call manages last member orgs members _ proofs =>
      have hunlocked := (unlocked_congr orgs).mp ho
      by_cases heq : o = o₁
      · subst heq
        refine (leadersProved_setRole members proofs).mpr ?_
        unfold SuccessorProved at hsuccessor
        rw [call] at hsuccessor
        exact hsuccessor hunlocked manages last member
      · refine (hs o hunlocked).congr (fun m hm => ?_) (by rw [proofs]; exact fun _ => id)
        rw [members]
        exact mem_setRole (hm ▸ heq)
  | removed actor o₁ u call manages last member orgs members _ proofs =>
      have hunlocked := (unlocked_congr orgs).mp ho
      by_cases heq : o = o₁
      · subst heq
        refine (leadersProved_remove members proofs).mpr ?_
        unfold SuccessorProved at hsuccessor
        rw [call] at hsuccessor
        exact hsuccessor hunlocked manages last member
      · refine (hs o hunlocked).congr (fun m hm => ?_) (by rw [proofs]; exact fun _ => id)
        rw [members, mem_removed]
        exact and_iff_left fun hrow => absurd (hm.symm.trans hrow) heq
  | unlocked p db _ call =>
      by_cases hmem : o ∈ s.db.unlocks p
      · rw [leadersProved_iff, db]
        intro m hm' hlead'
        obtain ⟨q, hq, hid, hnone, hp⟩ := SpendDb.mem_unlocks.mp hmem
        obtain ⟨hm, hlead⟩ := (unlock_lead hkept hdated ⟨q, hq, hid⟩).mp ⟨hm', hlead'⟩
        rcases call with ⟨u, hcall, -, hproofs, rfl⟩ | ⟨o₁, hcall, hmode, hproofs, rfl⟩
        · -- the user who has just proved their inbox has the oldest seat, too
          obtain ⟨a, ha, hao, hau, harole, hfirst⟩ := of_decide_eq_true hp
          have hadmin : a ∈ s.db.admins o := SpendDb.mem_admins.mpr ⟨ha, hao.trans hid, harole⟩
          obtain ⟨hmMem, hmo, hmrole⟩ := SpendDb.mem_admins.mp hm
          have hat := le_antisymm (hlead a hadmin) (hfirst m hmMem (hmo.trans hid.symm) hmrole)
          rw [hproofs, hdated.apart m hmMem a ha (hmo.trans (hao.trans hid).symm) hat, hau]
          exact List.mem_cons_self
        · unfold SuccessorProved at hsuccessor
          rw [hcall] at hsuccessor
          obtain rfl : q.id = o₁ := of_decide_eq_true hp
          subst hid
          rw [hproofs]
          exact leadersProved_iff.mp (hsuccessor hmode ⟨q, hq, rfl, hnone⟩) m hm hlead
      · have hunlocked : s.db.Unlocked o := by
          rw [db] at ho
          have hexists := unlock_orgExists.mp (orgExists_iff.mpr (.inr ho))
          refine (orgExists_iff.mp hexists).resolve_left fun hlocked => ?_
          exact unlocked_not_locked ho (SpendDb.unlock_locked.mpr ⟨hlocked, hmem⟩)
        refine (hs o hunlocked).congr (unlock_members_of_notMem db hmem) ?_
        rcases call with ⟨u, -, -, hproofs, -⟩ | ⟨o₁, -, -, hproofs, -⟩
        · rw [hproofs]
          exact List.subset_cons_self _ _
        · rw [hproofs]
          exact fun _ => id
  | proved u _ _ db _ proofs =>
      rw [db] at ho
      exact (hs o ho).congr (fun m _ => by rw [db]) (by rw [proofs]; exact List.subset_cons_self _ _)

theorem ProofsBacked.successorProved (hkept : Kept s) (hdated : Dated s) (h : ProofsBacked (spendStep s r)) :
    SuccessorProved s r := by
  rw [proofsBacked_iff] at h
  unfold SuccessorProved
  split
  · rename_i o hcall
    intro hmode hlocked
    have hdb : (spendStep s r).db = s.db.unlockOrgSpend r.now o := by
      rw [spendStep_saveCard hcall, if_pos hmode]
    have hproofs : (spendStep s r).proofs = s.proofs := by
      unfold spendStep orStay SpendState.execute
      rw [hcall]
      rfl
    have hunlocked : (spendStep s r).db.Unlocked o := by
      rw [hdb]
      have hexists : (s.db.unlockOrgSpend r.now o).OrgExists o := unlock_orgExists.mpr (locked_orgExists hlocked)
      exact (orgExists_iff.mp hexists).resolve_left ((unlockOrgSpend_locked hlocked).mpr rfl)
    have hlead := leadersProved_iff.mp (h o hunlocked)
    rw [hdb, hproofs] at hlead
    refine leadersProved_iff.mpr fun m hm hfirst => ?_
    obtain ⟨hm', hfirst'⟩ := (unlock_lead hkept hdated (locked_orgExists hlocked)).mpr ⟨hm, hfirst⟩
    exact hlead m hm' hfirst'
  · rename_i actor o u role hcall
    intro hunlocked hmanages hlast hmember
    have hstep := spendStep_setRole hcall hmanages hlast hmember
    have hmembers : (spendStep s r).db.members = s.db.members.map (setRoleRow o u role) := by rw [hstep]
    have hproofs : (spendStep s r).proofs = s.proofs := by rw [hstep]
    refine (leadersProved_setRole hmembers hproofs).mp (h o ?_)
    rw [hstep]
    exact hunlocked
  · rename_i actor o u hcall
    intro hunlocked hmanages hlast hmember
    have hstep := spendStep_removeMember hcall hmanages hlast hmember
    have hmembers : (spendStep s r).db.members = s.db.members.filter fun m =>
        !(decide (m.orgId = o) && decide (m.userId = u)) := by rw [hstep]
    have hproofs : (spendStep s r).proofs = s.proofs := by rw [hstep]
    refine (leadersProved_remove hmembers hproofs).mp (h o ?_)
    rw [hstep]
    exact hunlocked
  · trivial

/-! ### Runs -/

/-- **Inbox proofs.**  When every request begins later than those before it, everybody whom
`authUserVerification` ever reports as proven has proved their inbox before, exactly if no card unlocks an
organization led by somebody who has not, and no role change or removal in an unlocked one leaves such an
admin in the lead. -/
theorem proofs_backed_iff (operators : List String) (signupsEnabled : Bool) (requirement : SpendUnlockRequirement)
    (seedAdminEmail demoSeedEmail : Option String) (requests : List SpendRequest)
    (hclock : StepsMeet spendStep Forward
      (.start operators signupsEnabled requirement seedAdminEmail demoSeedEmail) requests) :
    (∀ js, js <+: requests → ProofsBacked
      (run spendStep (.start operators signupsEnabled requirement seedAdminEmail demoSeedEmail) js)) ↔
    StepsMeet spendStep SuccessorProved
      (.start operators signupsEnabled requirement seedAdminEmail demoSeedEmail) requests := by
  refine always_iff_stepsMeet (fun s => Kept s ∧ Dated s ∧ ProofsBacked s) ?_ ?_ ?_ requests _ ?_ hclock
  · rintro s ⟨-, -, hbacked⟩
    exact hbacked
  · rintro s r hr ⟨hkept, hdated, hbacked⟩ hsuccessor
    exact ⟨spendStep_kept hkept, spendStep_dated hdated hr, hbacked.step hkept hdated hr hsuccessor⟩
  · rintro s r - ⟨hkept, hdated, -⟩ h
    exact h.successorProved hkept hdated
  · refine ⟨start_kept, start_dated, ?_⟩
    rintro u ⟨q, hq, -⟩
    cases hq

theorem proofs_backed_sample : ProofsBacked (run spendStep (.start [] true .email none none)
    (coAdmin ++ [⟨4, "-", .proveInbox "ann"⟩])) :=
  (proofs_backed_iff [] true .email none none _ (by decide)).mpr (by decide) _ (List.prefix_refl _)

/-- Ann saves a card and is taken to have proved an inbox that she never opened; or Ann proves hers, adds
Bob as an admin and leaves the lead to him, who has proved nothing. -/
theorem inbox_proof_unearned :
    (let s := run spendStep (.start [] true .card none none)
      [⟨1, "acme", .signUp ⟨"ann", "ann@acme.com"⟩ none false⟩, ⟨2, "-", .saveCard "acme"⟩]
     s.db.authUserVerification "ann" = some ("ann@acme.com", true) ∧ s.proofs = []) ∧
    (let s := run spendStep (.start [] true .email none none)
      [⟨1, "acme", .signUp ⟨"ann", "ann@acme.com"⟩ none false⟩, ⟨2, "-", .proveInbox "ann"⟩,
       ⟨3, "bobco", .signUp ⟨"bob", "bob@bob.com"⟩ none false⟩, ⟨4, "-", .addMember "ann" "acme" "bob@bob.com" .admin⟩,
       ⟨5, "-", .setRole "ann" "acme" "ann" (some .user)⟩]
     s.db.authUserVerification "bob" = some ("bob@bob.com", true) ∧ "bob" ∉ s.proofs) := by decide

end Experiential.Spend
