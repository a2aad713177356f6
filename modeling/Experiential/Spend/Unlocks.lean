import Experiential.Spend.Calls

/-! # What a first unlock leaves

`unlock` sets the organizations it is given and then runs the tear-down for each of them. The
tear-down of one organization touches no row of another, so that `mem_unlock_members` and
`unlock_keys` can say row by row what is left in terms of the tables before. -/

namespace Experiential.Spend

open Identity (OrgRole AuthUser)

namespace SpendDb
variable {db : SpendDb} {now : Int} {orgId org userId : String}

/-! ### The earliest admin -/

instance : Std.Total joinedBefore := ⟨fun m m' => by
  unfold joinedBefore
  rcases lt_trichotomy m.createdAt m'.createdAt with h | h | h
  · exact .inl (.inl h)
  · rcases le_total m.userId m'.userId with hu | hu
    · exact .inl (.inr ⟨h, hu⟩)
    · exact .inr (.inr ⟨h.symm, hu⟩)
  · exact .inr (.inl h)⟩

instance : IsTrans Member joinedBefore := ⟨fun a b c => by
  unfold joinedBefore
  rintro (hab | ⟨hab, huab⟩) (hbc | ⟨hbc, hubc⟩)
  · exact .inl (hab.trans hbc)
  · exact .inl (hbc ▸ hab)
  · exact .inl (hab ▸ hbc)
  · exact .inr ⟨hab.trans hbc, huab.trans hubc⟩⟩

theorem mem_admins {m : Member} : m ∈ db.admins orgId ↔ m ∈ db.members ∧ m.orgId = orgId ∧ m.role = .admin := by
  unfold admins
  rw [List.mem_filter, Bool.and_eq_true, decide_eq_true_eq, decide_eq_true_eq]

/-- The earliest admin is an admin, and comes first in the order. -/
theorem earliestAdmin_first {m : Member} (h : db.earliestAdmin orgId = some m) :
    m ∈ db.admins orgId ∧ ∀ a ∈ db.admins orgId, joinedBefore m a := by
  unfold earliestAdmin at h
  have hmem : m ∈ (db.admins orgId).insertionSort joinedBefore := List.mem_of_head? h
  refine ⟨(List.mem_insertionSort _).mp hmem, ?_⟩
  intro a ha
  have hsorted := List.pairwise_insertionSort joinedBefore (db.admins orgId)
  have ha' : a ∈ (db.admins orgId).insertionSort joinedBefore := (List.mem_insertionSort _).mpr ha
  obtain ⟨rest, hrest⟩ := List.head?_eq_some_iff.mp h
  rw [hrest] at hsorted ha'
  rcases List.mem_cons.mp ha' with rfl | ha'
  · exact .inr ⟨rfl, le_refl _⟩
  · exact (List.pairwise_cons.mp hsorted).1 a ha'

theorem earliestAdmin_spec {m : Member} (h : db.earliestAdmin orgId = some m) :
    m ∈ db.admins orgId ∧ ∀ a ∈ db.admins orgId, m.createdAt ≤ a.createdAt := by
  obtain ⟨hmem, hfirst⟩ := earliestAdmin_first h
  refine ⟨hmem, fun a ha => ?_⟩
  rcases hfirst a ha with hlt | ⟨heq, -⟩
  · exact hlt.le
  · exact heq.le

theorem earliestAdmin_isFoundingAdmin {m : Member} (h : db.earliestAdmin orgId = some m) :
    db.IsFoundingAdmin orgId m.userId := by
  obtain ⟨hmem, hleast⟩ := earliestAdmin_spec h
  obtain ⟨hm, horg, hrole⟩ := mem_admins.mp hmem
  exact ⟨m, hm, horg, rfl, hrole, fun a ha hao har => hleast a (mem_admins.mpr ⟨ha, hao, har⟩)⟩

theorem earliestAdmin_eq_none (h : db.earliestAdmin orgId = none) : db.admins orgId = [] := by
  unfold earliestAdmin at h
  rw [List.head?_eq_none_iff] at h
  have hperm := List.perm_insertionSort joinedBefore (db.admins orgId)
  rw [h] at hperm
  exact hperm.symm.eq_nil

/-! ### The tear-down of one organization -/

/-- The tear-down of the organization leaves the user's membership. -/
def Spares (db : SpendDb) (orgId userId : String) : Prop :=
  ∀ founder ∈ db.earliestAdmin orgId, db.Seeded orgId ∨ userId = founder.userId

/-- The tear-down of the key's organization revokes it. -/
def Revokes (db : SpendDb) (k : ApiKey) : Prop :=
  ¬ db.Seeded k.orgId ∧ ∃ founder ∈ db.earliestAdmin k.orgId, db.TornDown k.orgId founder.userId k

instance (k : ApiKey) : Decidable (db.Revokes k) :=
  inferInstanceAs (Decidable (¬ db.Seeded k.orgId ∧ ∃ founder ∈ db.earliestAdmin k.orgId,
    db.TornDown k.orgId founder.userId k))

/-- The same members of the organization, and the same answer to who may be torn down. -/
structure SameOrg (orgId : String) (db db' : SpendDb) : Prop where
  admins : db'.admins orgId = db.admins orgId
  members : ∀ m, m.orgId = orgId → (m ∈ db'.members ↔ m ∈ db.members)
  seeded : db'.Seeded orgId ↔ db.Seeded orgId

section same
variable {db' : SpendDb}

theorem SameOrg.earliestAdmin (h : SameOrg orgId db db') : db'.earliestAdmin orgId = db.earliestAdmin orgId := by
  unfold SpendDb.earliestAdmin
  rw [h.admins]

theorem SameOrg.spares (h : SameOrg orgId db db') : db'.Spares orgId userId ↔ db.Spares orgId userId := by
  unfold Spares
  rw [h.earliestAdmin, h.seeded]

theorem SameOrg.tornDown {founder : String} {k : ApiKey} (h : SameOrg orgId db db') :
    db'.TornDown orgId founder k ↔ db.TornDown orgId founder k := by
  unfold TornDown
  constructor
  · rintro ⟨horg, hlive, m, hm, hmo, hne, hby⟩
    exact ⟨horg, hlive, m, (h.members m hmo).mp hm, hmo, hne, hby⟩
  · rintro ⟨horg, hlive, m, hm, hmo, hne, hby⟩
    exact ⟨horg, hlive, m, (h.members m hmo).mpr hm, hmo, hne, hby⟩

theorem SameOrg.revokes {k : ApiKey} (h : SameOrg k.orgId db db') : db'.Revokes k ↔ db.Revokes k := by
  unfold Revokes
  rw [h.earliestAdmin, h.seeded]
  simp only [h.tornDown]

end same

theorem mem_rotate_members {m : Member} : m ∈ (db.rotateCredentialsOnSpendUnlock now org).members ↔
    m ∈ db.members ∧ (m.orgId = org → db.Spares org m.userId) := by
  unfold rotateCredentialsOnSpendUnlock Spares
  split
  · rename_i hseed
    exact (and_iff_left fun _ _ _ => .inl hseed).symm
  · rename_i hseed
    split
    · rename_i hnone
      refine (and_iff_left fun _ founder hf => ?_).symm
      rw [hnone] at hf
      cases hf
    · rename_i founder hfounder
      rw [hfounder]
      simp only [List.mem_filter, Bool.not_eq_true', Bool.and_eq_false_iff, decide_eq_false_iff_not, not_not,
        Option.mem_some_iff, forall_eq', hseed, false_or]
      tauto

theorem rotate_keys : (db.rotateCredentialsOnSpendUnlock now org).keys =
    db.keys.map fun k => if k.orgId = org ∧ db.Revokes k then { k with revokedAt := some now } else k := by
  unfold rotateCredentialsOnSpendUnlock
  symm
  split
  · rename_i hseed
    refine (List.map_congr_left fun k _ => ?_).trans (List.map_id _)
    rw [if_neg]
    · rfl
    · rintro ⟨rfl, hnot, -⟩
      exact hnot hseed
  · rename_i hseed
    split
    · rename_i hnone
      refine (List.map_congr_left fun k _ => ?_).trans (List.map_id _)
      rw [if_neg]
      · rfl
      · rintro ⟨rfl, -, founder, hf, -⟩
        rw [hnone] at hf
        cases hf
    · rename_i founder hfounder
      refine List.map_congr_left fun k _ => if_congr ?_ rfl rfl
      constructor
      · rintro ⟨rfl, -, f, hf, htorn⟩
        rw [hfounder, Option.mem_some_iff] at hf
        exact hf ▸ htorn
      · intro htorn
        obtain rfl := htorn.1
        exact ⟨rfl, hseed, founder, hfounder, htorn⟩

/-- The tear-down of one organization leaves every other as it is. -/
theorem rotate_sameOrg (h : orgId ≠ org) : SameOrg orgId db (db.rotateCredentialsOnSpendUnlock now org) := by
  have hmembers : ∀ m : Member, m.orgId = orgId →
      (m ∈ (db.rotateCredentialsOnSpendUnlock now org).members ↔ m ∈ db.members) := fun m hm =>
    mem_rotate_members.trans (and_iff_left fun heq => absurd (hm.symm.trans heq) h)
  have husers : (db.rotateCredentialsOnSpendUnlock now org).users = db.users ∧
      (db.rotateCredentialsOnSpendUnlock now org).seedAdminEmail = db.seedAdminEmail ∧
        (db.rotateCredentialsOnSpendUnlock now org).demoSeedEmail = db.demoSeedEmail := by
    unfold rotateCredentialsOnSpendUnlock
    split
    · exact ⟨rfl, rfl, rfl⟩
    · split <;> exact ⟨rfl, rfl, rfl⟩
  refine ⟨?_, hmembers, ?_⟩
  · unfold rotateCredentialsOnSpendUnlock
    split
    · rfl
    · split
      · rfl
      · unfold admins
        rw [List.filter_filter]
        refine List.filter_congr fun m _ => ?_
        by_cases horg : m.orgId = orgId
        · simp [horg, h]
        · simp [horg]
  · unfold Seeded
    rw [husers.1, husers.2.1, husers.2.2]
    constructor
    · rintro ⟨m, hm, hmo, hrest⟩
      exact ⟨m, (hmembers m hmo).mp hm, hmo, hrest⟩
    · rintro ⟨m, hm, hmo, hrest⟩
      exact ⟨m, (hmembers m hmo).mpr hm, hmo, hrest⟩

@[simp] theorem rotate_organizations :
    (db.rotateCredentialsOnSpendUnlock now org).organizations = db.organizations := by
  unfold rotateCredentialsOnSpendUnlock
  split
  · rfl
  · split <;> rfl

theorem rotate_members_sublist : (db.rotateCredentialsOnSpendUnlock now org).members.Sublist db.members := by
  unfold rotateCredentialsOnSpendUnlock
  split
  · exact List.Sublist.refl _
  · split
    · exact List.Sublist.refl _
    · exact List.filter_sublist

/-! ### The tear-downs of an update -/

/-- The trigger, once for every row the update changed. -/
def tearDowns (db : SpendDb) (now : Int) (orgIds : List String) : SpendDb :=
  orgIds.foldl (fun d orgId => d.rotateCredentialsOnSpendUnlock now orgId) db

theorem tearDowns_organizations : ∀ (orgIds : List String) (db : SpendDb),
    (db.tearDowns now orgIds).organizations = db.organizations
  | [], _ => rfl
  | _ :: os, _ => (tearDowns_organizations os _).trans rotate_organizations

theorem tearDowns_members_sublist : ∀ (orgIds : List String) (db : SpendDb),
    (db.tearDowns now orgIds).members.Sublist db.members
  | [], _ => List.Sublist.refl _
  | _ :: os, _ => (tearDowns_members_sublist os _).trans rotate_members_sublist

theorem mem_tearDowns_members {m : Member} : ∀ {orgIds : List String} (db : SpendDb), orgIds.Nodup →
    (m ∈ (db.tearDowns now orgIds).members ↔ m ∈ db.members ∧ (m.orgId ∈ orgIds → db.Spares m.orgId m.userId))
  | [], db, _ => by simp [tearDowns]
  | o :: os, db, h => by
      rw [List.nodup_cons] at h
      have ih := mem_tearDowns_members (m := m) (db.rotateCredentialsOnSpendUnlock now o) h.2
      change m ∈ ((db.rotateCredentialsOnSpendUnlock now o).tearDowns now os).members ↔ _
      rw [ih, mem_rotate_members, List.mem_cons]
      by_cases hos : m.orgId ∈ os
      · have hne : m.orgId ≠ o := fun heq => h.1 (heq ▸ hos)
        simp only [hne, hos, false_imp_iff, and_true, true_imp_iff, false_or, (rotate_sameOrg hne).spares]
      · simp only [hos, false_imp_iff, and_true, or_false]
        constructor
        · rintro ⟨hm, hspares⟩
          exact ⟨hm, fun heq => heq ▸ hspares heq⟩
        · rintro ⟨hm, hspares⟩
          exact ⟨hm, fun heq => heq ▸ hspares heq⟩

theorem tearDowns_keys : ∀ {orgIds : List String} (db : SpendDb), orgIds.Nodup →
    (db.tearDowns now orgIds).keys =
      db.keys.map fun k => if k.orgId ∈ orgIds ∧ db.Revokes k then { k with revokedAt := some now } else k
  | [], db, _ => by simp [tearDowns]
  | o :: os, db, h => by
      rw [List.nodup_cons] at h
      change ((db.rotateCredentialsOnSpendUnlock now o).tearDowns now os).keys = _
      rw [tearDowns_keys _ h.2, rotate_keys, List.map_map]
      refine List.map_congr_left fun k _ => ?_
      rw [Function.comp_apply]
      by_cases hk : k.orgId = o
      · have hos : k.orgId ∉ os := fun hmem => h.1 (hk ▸ hmem)
        by_cases hrev : db.Revokes k
        · rw [if_pos (And.intro hk hrev), if_pos (And.intro (List.mem_cons.mpr (.inl hk)) hrev)]
          exact if_neg fun hand => hos hand.1
        · rw [if_neg fun hand : k.orgId = o ∧ _ => hrev hand.2, if_neg fun hand : k.orgId ∈ os ∧ _ => hos hand.1,
            if_neg fun hand : k.orgId ∈ o :: os ∧ _ => hrev hand.2]
      · rw [if_neg fun hand : k.orgId = o ∧ _ => hk hand.1]
        simp only [(rotate_sameOrg hk).revokes, List.mem_cons, hk, false_or]

/-! ### The update -/

section unlock
variable {p : Organization → Bool}

/-- The organizations that an update unlocks. -/
def unlocks (db : SpendDb) (p : Organization → Bool) : List String :=
  (db.organizations.filter fun o => o.spendUnlockedAt.isNone && p o).map (·.id)

theorem unlocks_nodup : (db.unlocks p).Nodup := db.orgsKeyed.sublist (List.filter_sublist.map _)

theorem mem_unlocks : orgId ∈ db.unlocks p ↔
    ∃ o ∈ db.organizations, o.id = orgId ∧ o.spendUnlockedAt = none ∧ p o = true := by
  unfold unlocks
  simp only [List.mem_map, List.mem_filter, Bool.and_eq_true, Option.isNone_iff_eq_none]
  constructor
  · rintro ⟨o, ⟨ho, hnone, hp⟩, rfl⟩
    exact ⟨o, ho, rfl, hnone, hp⟩
  · rintro ⟨o, ho, rfl, hnone, hp⟩
    exact ⟨o, ⟨ho, hnone, hp⟩, rfl⟩

theorem unlock_organizations : (db.unlock now p).organizations = db.organizations.map fun o =>
    if o.spendUnlockedAt.isNone && p o then { o with spendUnlockedAt := some now } else o :=
  tearDowns_organizations _ _

theorem unlock_members_sublist : (db.unlock now p).members.Sublist db.members := tearDowns_members_sublist _ _

theorem mem_unlock_members {m : Member} : m ∈ (db.unlock now p).members ↔
    m ∈ db.members ∧ (m.orgId ∈ db.unlocks p → db.Spares m.orgId m.userId) :=
  mem_tearDowns_members (db.setSpendUnlocked now p) unlocks_nodup

theorem unlock_keys : (db.unlock now p).keys =
    db.keys.map fun k => if k.orgId ∈ db.unlocks p ∧ db.Revokes k then { k with revokedAt := some now } else k :=
  tearDowns_keys (db.setSpendUnlocked now p) unlocks_nodup

theorem mem_unlock_live {k : ApiKey} : k ∈ (db.unlock now p).keys ∧ k.revokedAt = none ↔
    (k ∈ db.keys ∧ k.revokedAt = none) ∧ ¬ (k.orgId ∈ db.unlocks p ∧ db.Revokes k) := by
  rw [unlock_keys]
  constructor
  · rintro ⟨hk, hlive⟩
    obtain ⟨q, hq, rfl⟩ := List.mem_map.mp hk
    split at hlive
    · cases hlive
    · rename_i hnot
      rw [if_neg hnot]
      exact ⟨⟨hq, hlive⟩, hnot⟩
  · rintro ⟨⟨hk, hlive⟩, hnot⟩
    exact ⟨List.mem_map.mpr ⟨k, hk, if_neg hnot⟩, hlive⟩

theorem unlock_locked : (db.unlock now p).Locked orgId ↔ db.Locked orgId ∧ orgId ∉ db.unlocks p := by
  unfold Locked
  rw [unlock_organizations, mem_unlocks]
  constructor
  · rintro ⟨o, ho, hid, hnone⟩
    obtain ⟨q, hq, rfl⟩ := List.mem_map.mp ho
    split at hnone
    · cases hnone
    · rename_i hcond
      rw [if_neg hcond] at hid
      refine ⟨⟨q, hq, hid, hnone⟩, ?_⟩
      rintro ⟨q', hq', hid', hnone', hp⟩
      obtain rfl : q' = q := List.inj_on_of_nodup_map db.orgsKeyed hq' hq (hid'.trans hid.symm)
      exact hcond (by simp [hnone', hp])
  · rintro ⟨⟨q, hq, hid, hnone⟩, hnot⟩
    refine ⟨q, List.mem_map.mpr ⟨q, hq, if_neg ?_⟩, hid, hnone⟩
    intro hcond
    rw [Bool.and_eq_true] at hcond
    exact hnot ⟨q, hq, hid, hnone, hcond.2⟩

/-- The organizations that an update unlocks are those that it finds locked and leaves unlocked. -/
theorem mem_unlocks_iff : orgId ∈ db.unlocks p ↔ db.Locked orgId ∧ ¬ (db.unlock now p).Locked orgId := by
  rw [unlock_locked]
  constructor
  · intro h
    obtain ⟨o, ho, hid, hnone, -⟩ := mem_unlocks.mp h
    exact ⟨⟨o, ho, hid, hnone⟩, fun hand => hand.2 h⟩
  · rintro ⟨hlocked, hnot⟩
    by_contra hmem
    exact hnot ⟨hlocked, hmem⟩

end unlock

end SpendDb

end Experiential.Spend
