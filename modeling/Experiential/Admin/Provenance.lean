import Experiential.Admin.BanTransactions

/-! # Whom an unban frees

A user has one ban row, whatever the reasons they are banned for. `bans_restore_exactly`: while an
individual ban is only issued to a user whom no organization ban holds, and nobody joins a banned
organization, the row is there exactly when the account is locked, an individual ban outlives every
organization unban, and an organization unban frees the users it had banned except those whom another
banned organization of theirs covers. An individual ban of a swept user keeps the organization's
mark on the row, and the organization's unban lifts it (`individual_ban_lifted`). -/

namespace Experiential.Admin

open Identity

namespace AdminDb

/-! ### What every ban row satisfies -/

/-- The rows and the locked accounts agree, each user has one row, and no operator was swept. -/
structure BansSound (db : AdminDb) : Prop where
  locked : ∀ a ∈ db.accounts, db.IsBanned a.id ↔ a.bannedUntil.isSome = true
  unique : (db.userBans.map (·.userId)).Nodup
  swept : ∀ b ∈ db.userBans, b.bannedViaOrgId.isSome = true → ¬ db.IsOperator b.userId

section rows
variable {db : AdminDb} {now : Int} {orgId userId viaOrgId u : String} {bannedBy : Option String}
  {reason : BanReason} {pick : ℕ}

theorem BansSound.recordUserBan (h : db.BansSound) :
    (db.recordUserBan now userId bannedBy reason).BansSound := by
  refine ⟨?_, ?_, ?_⟩
  · intro a' ha'
    rw [recordUserBan_isBanned]
    obtain ⟨a, ha, rfl⟩ := List.mem_map.mp ha'
    split
    · next heq => exact iff_of_true (.inl heq) rfl
    · next hne =>
      rw [← h.locked a ha]
      exact or_iff_right hne
  · rw [AdminDb.recordUserBan, upsertUserBan_users]
    split
    · exact h.unique
    · next hnew => exact List.nodup_append.mpr ⟨h.unique, by simp, by
        intro a ha b hb heq
        rw [heq, List.mem_singleton.mp hb] at ha
        exact hnew ha⟩
  · intro b hb hvia
    simp only [AdminDb.recordUserBan, upsertUserBan] at hb
    split at hb
    · obtain ⟨c, hc, rfl⟩ := List.mem_map.mp hb
      by_cases hu : c.userId = userId
      · rw [if_pos hu] at hvia ⊢
        exact h.swept c hc hvia
      · rw [if_neg hu] at hvia ⊢
        exact h.swept c hc hvia
    · rcases List.mem_append.mp hb with hb | hb
      · exact h.swept b hb hvia
      · rw [List.mem_singleton.mp hb] at hvia
        cases hvia

theorem BansSound.clearUserBan (h : db.BansSound) : (db.clearUserBan userId).BansSound := by
  refine ⟨?_, ?_, ?_⟩
  · intro a' ha'
    rw [clearUserBan_isBanned]
    obtain ⟨a, ha, rfl⟩ := List.mem_map.mp ha'
    split
    · next heq => exact iff_of_false (fun hb => hb.1 heq) (by simp)
    · next hne =>
      rw [← h.locked a ha]
      exact and_iff_right hne
  · exact h.unique.sublist (List.filter_sublist.map _)
  · intro b hb
    exact h.swept b (List.mem_filter.mp hb).1

theorem BansSound.setBannedVia (h : db.BansSound) (hop : ¬ db.IsOperator userId) :
    (db.setBannedVia userId viaOrgId).BansSound := by
  refine ⟨?_, ?_, ?_⟩
  · intro a ha
    rw [setBannedVia_isBanned]
    exact h.locked a ha
  · rw [setBannedVia_users]
    exact h.unique
  · intro b hb hvia
    obtain ⟨c, hc, rfl⟩ := List.mem_map.mp hb
    by_cases hu : c.userId = userId
    · rw [if_pos hu]
      exact fun hc => hop (hu ▸ hc)
    · rw [if_neg hu] at hvia ⊢
      exact h.swept c hc hvia

/-- The tables that a ban or an unban reads beside the ban rows. -/
structure SameRoster (db db' : AdminDb) : Prop where
  members : db'.members = db.members
  organizations : db'.organizations = db.organizations
  platformAdmins : db'.platformAdmins = db.platformAdmins

theorem SameRoster.refl (db : AdminDb) : SameRoster db db := ⟨rfl, rfl, rfl⟩

theorem SameRoster.trans {db₁ db₂ : AdminDb} (h : SameRoster db db₁) (h' : SameRoster db₁ db₂) :
    SameRoster db db₂ :=
  ⟨h'.members.trans h.members, h'.organizations.trans h.organizations,
    h'.platformAdmins.trans h.platformAdmins⟩

theorem SameRoster.bannedOrgsOf {db' : AdminDb} (h : SameRoster db db') (u : String) :
    db'.bannedOrgsOf u = db.bannedOrgsOf u := by
  rw [AdminDb.bannedOrgsOf, AdminDb.bannedOrgsOf, h.members, h.organizations]

theorem SameRoster.isOperator {db' : AdminDb} (h : SameRoster db db') :
    db'.IsOperator u ↔ db.IsOperator u := by rw [IsOperator, IsOperator, h.platformAdmins]

theorem SameRoster.orgBanned {db' : AdminDb} (h : SameRoster db db') :
    db'.OrgBanned u ↔ db.OrgBanned u := by rw [OrgBanned, OrgBanned, h.organizations]

/-! ### The two loops -/

/-- The loop of an organization unban over the users `us`. -/
structure Released (db : AdminDb) (us : List String) (db' : AdminDb) : Prop where
  roster : SameRoster db db'
  banned : ∀ u, db'.IsBanned u ↔ db.IsBanned u ∧ (u ∈ us → db.bannedOrgsOf u ≠ [])
  others : ∀ b : UserBan, b.userId ∉ us → (b ∈ db'.userBans ↔ b ∈ db.userBans)
  adopted : ∀ b ∈ db'.userBans, b.userId ∈ us → ∃ o ∈ db.bannedOrgsOf b.userId, b.bannedViaOrgId = some o

theorem Released.nil (db : AdminDb) : Released db [] db :=
  ⟨.refl db, fun u => by simp, fun _ _ => Iff.rfl, fun _ _ hu => nomatch hu⟩

theorem Released.cons {us : List String} {db₁ db₂ : AdminDb} (h : Released db [u] db₁)
    (h' : Released db₁ us db₂) : Released db (u :: us) db₂ := by
  refine ⟨h.roster.trans h'.roster, ?_, ?_, ?_⟩
  · intro v
    rw [h'.banned, h.banned, h.roster.bannedOrgsOf, List.mem_singleton, List.mem_cons]
    constructor
    · rintro ⟨⟨hb, hu⟩, hus⟩
      exact ⟨hb, fun hv => hv.elim hu hus⟩
    · rintro ⟨hb, hv⟩
      exact ⟨⟨hb, fun hu => hv (.inl hu)⟩, fun hus => hv (.inr hus)⟩
  · intro b hb
    rw [List.mem_cons, not_or] at hb
    rw [h'.others b hb.2, h.others b (by simpa using hb.1)]
  · intro b hb hv
    by_cases hus : b.userId ∈ us
    · obtain ⟨o, ho, hvia⟩ := h'.adopted b hb hus
      rw [h.roster.bannedOrgsOf] at ho
      exact ⟨o, ho, hvia⟩
    · rw [h'.others b hus] at hb
      exact h.adopted b hb (List.mem_singleton.mpr ((List.mem_cons.mp hv).resolve_right hus))

theorem released_one (db : AdminDb) (u : String) (pick : ℕ) : Released db [u] (db.releaseSwept u pick) := by
  rcases releaseSwept_cases db u pick with ⟨o, ho, heq⟩ | ⟨hnone, heq⟩
  · rw [heq]
    refine ⟨⟨rfl, rfl, rfl⟩, ?_, ?_, ?_⟩
    · intro v
      rw [setBannedVia_isBanned]
      refine (and_iff_left ?_).symm
      intro hv
      rw [List.mem_singleton.mp hv]
      exact List.ne_nil_of_mem ho
    · intro b hb
      rw [List.mem_singleton] at hb
      exact mem_map_update (p := fun c : UserBan => c.userId = u) (by exact fun _ hu => hu) hb
    · intro b hb hv
      obtain ⟨c, hc, rfl⟩ := List.mem_map.mp hb
      by_cases hu : c.userId = u
      · rw [if_pos hu]
        exact ⟨o, hu ▸ ho, rfl⟩
      · rw [if_neg hu] at hv
        exact absurd (List.mem_singleton.mp hv) hu
  · rw [heq]
    refine ⟨⟨rfl, rfl, rfl⟩, ?_, ?_, ?_⟩
    · intro v
      rw [clearUserBan_isBanned, List.mem_singleton, and_comm]
      refine and_congr_right fun _ => ?_
      constructor
      · exact fun hne heq => absurd heq hne
      · intro h hv
        exact h hv (hv ▸ hnone)
    · intro b hb
      simp only [clearUserBan, List.mem_filter, decide_eq_true_eq]
      exact and_iff_left (by simpa using hb)
    · intro b hb hv
      simp only [clearUserBan, List.mem_filter, decide_eq_true_eq] at hb
      exact absurd (List.mem_singleton.mp hv) hb.2

theorem released_all (pick : String → ℕ) : ∀ (us : List String) (db : AdminDb),
    Released db us (us.foldl (fun db u => db.releaseSwept u (pick u)) db)
  | [], db => .nil db
  | u :: us, db => (released_one db u (pick u)).cons (released_all pick us _)

theorem BansSound.releaseSwept (h : db.BansSound) (hop : ¬ db.IsOperator u) :
    (db.releaseSwept u pick).BansSound := by
  rcases releaseSwept_cases db u pick with ⟨o, -, heq⟩ | ⟨-, heq⟩
  · rw [heq]
    exact h.setBannedVia hop
  · rw [heq]
    exact h.clearUserBan

theorem BansSound.released (pick : String → ℕ) : ∀ (us : List String) (db : AdminDb), db.BansSound →
    (∀ u ∈ us, ¬ db.IsOperator u) → (us.foldl (fun db u => db.releaseSwept u (pick u)) db).BansSound
  | [], _, h, _ => h
  | u :: us, db, h, hop => by
      refine BansSound.released pick us _ (h.releaseSwept (hop u List.mem_cons_self)) ?_
      intro v hv
      rw [(released_one db u (pick u)).roster.isOperator]
      exact hop v (List.mem_cons_of_mem _ hv)

/-- The loop of an organization ban touches only the rows of the users `us`. -/
structure Swept (db : AdminDb) (us : List String) (db' : AdminDb) : Prop where
  roster : SameRoster db db'
  others : ∀ b : UserBan, b.userId ∉ us → (b ∈ db'.userBans ↔ b ∈ db.userBans)

theorem swept_one (db : AdminDb) (u : String) :
    Swept db [u] (db.sweepMember now orgId u bannedBy reason) := by
  refine ⟨⟨rfl, rfl, rfl⟩, ?_⟩
  intro b hb
  rw [List.mem_singleton] at hb
  have hupsert : b ∈ upsertUserBan now u bannedBy (sweepReason reason) db.userBans ↔ b ∈ db.userBans := by
    unfold upsertUserBan
    split
    · exact mem_map_update (p := fun c : UserBan => c.userId = u) (by exact fun _ hu => hu) hb
    · rw [List.mem_append, List.mem_singleton]
      refine or_iff_left ?_
      rintro rfl
      exact hb rfl
  rw [← hupsert]
  exact mem_map_update (p := fun c : UserBan => c.userId = u) (by exact fun _ hu => hu) hb

theorem swept_all : ∀ (us : List String) (db : AdminDb),
    Swept db us (us.foldl (fun db u => db.sweepMember now orgId u bannedBy reason) db)
  | [], db => ⟨.refl db, fun _ _ => Iff.rfl⟩
  | u :: us, db => by
      have h : Swept db [u] (db.sweepMember now orgId u bannedBy reason) := swept_one db u
      have h' := swept_all us (db.sweepMember now orgId u bannedBy reason)
      refine ⟨h.roster.trans h'.roster, ?_⟩
      intro b hb
      rw [List.mem_cons, not_or] at hb
      rw [List.foldl_cons, h'.others b hb.2, h.others b (by simpa using hb.1)]

theorem BansSound.swept_all : ∀ (us : List String) (db : AdminDb), db.BansSound →
    (∀ u ∈ us, ¬ db.IsOperator u) →
    (us.foldl (fun db u => db.sweepMember now orgId u bannedBy reason) db).BansSound
  | [], _, h, _ => h
  | u :: us, _, h, hop =>
      BansSound.swept_all us _ (h.recordUserBan.setBannedVia (hop u List.mem_cons_self))
        fun v hv => hop v (List.mem_cons_of_mem _ hv)

/-! ### The two calls -/

theorem SameRoster.recordOrgBan (db : AdminDb) (now : Int) (orgId : String) (bannedBy : Option String)
    (reason : BanReason) :
    (db.recordOrgBan now orgId bannedBy reason).members = db.members ∧
      (db.recordOrgBan now orgId bannedBy reason).platformAdmins = db.platformAdmins := by
  unfold AdminDb.recordOrgBan
  split
  · exact ⟨(swept_all _ _).roster.members, (swept_all _ _).roster.platformAdmins⟩
  · exact ⟨rfl, rfl⟩

theorem recordOrgBan_orgBanned {o : String} :
    (db.recordOrgBan now orgId bannedBy reason).OrgBanned o ↔
      (o = orgId ∧ db.OrgExists orgId) ∨ db.OrgBanned o := by
  unfold AdminDb.recordOrgBan
  split
  · next horg =>
    rw [(swept_all _ _).roster.orgBanned]
    have hset : ((db.upsertOrgBan now orgId bannedBy reason).setBannedAt orgId (some now)).OrgBanned o ↔ _ :=
      setBannedAt_orgBanned
    refine Iff.trans hset ?_
    by_cases ho : o = orgId
    · rw [if_pos ho]
      exact iff_of_true ⟨horg, rfl⟩ (.inl ⟨ho, horg⟩)
    · rw [if_neg ho]
      exact (or_iff_right fun h => ho h.1).symm
  · next horg => exact (or_iff_right fun h => horg h.2).symm

theorem BansSound.recordOrgBan (h : db.BansSound) : (db.recordOrgBan now orgId bannedBy reason).BansSound := by
  unfold AdminDb.recordOrgBan
  split
  · refine BansSound.swept_all _ _ ⟨h.locked, h.unique, h.swept⟩ ?_
    intro u hu
    obtain ⟨m, hm, rfl⟩ := List.mem_map.mp hu
    have hm := (List.mem_filter.mp hm).2
    simp only [Bool.and_eq_true, Bool.not_eq_true', decide_eq_false_iff_not] at hm
    exact hm.2
  · exact h

theorem mem_recordOrgBan {b : UserBan} (hb : b ∈ db.userBans) :
    b ∈ (db.recordOrgBan now orgId bannedBy reason).userBans := by
  unfold AdminDb.recordOrgBan
  split
  · refine ((swept_all _ _).others b ?_).mpr hb
    intro hu
    obtain ⟨m, hm, hid⟩ := List.mem_map.mp hu
    have hm := (List.mem_filter.mp hm).2
    simp only [Bool.and_eq_true, Bool.not_eq_true', decide_eq_false_iff_not] at hm
    refine hm.1.2 ?_
    rw [hid]
    exact List.mem_map.mpr ⟨b, hb, rfl⟩
  · exact hb

/-- What `clear_org_ban` starts its loop with. -/
def lifted (db : AdminDb) (orgId : String) : AdminDb := (db.deleteOrgBan orgId).setBannedAt orgId none

theorem clearOrgBan_eq (db : AdminDb) (orgId : String) (pick : String → ℕ) :
    db.clearOrgBan orgId pick =
      (db.sweptVia orgId).foldl (fun db userId => db.releaseSwept userId (pick userId)) (db.lifted orgId) := rfl

theorem released_clearOrgBan (db : AdminDb) (orgId : String) (pick : String → ℕ) :
    Released (db.lifted orgId) (db.sweptVia orgId) (db.clearOrgBan orgId pick) := by
  rw [clearOrgBan_eq]
  exact released_all pick _ _

theorem lifted_orgBanned {o : String} : (db.lifted orgId).OrgBanned o ↔ o ≠ orgId ∧ db.OrgBanned o := by
  refine Iff.trans setBannedAt_orgBanned ?_
  by_cases ho : o = orgId
  · rw [if_pos ho]
    exact iff_of_false (fun h => nomatch h.2) fun h => h.1 ho
  · rw [if_neg ho]
    exact (and_iff_right ho).symm

theorem mem_sweptVia : u ∈ db.sweptVia orgId ↔ ∃ b ∈ db.userBans, b.bannedViaOrgId = some orgId ∧ b.userId = u := by
  unfold sweptVia
  simp only [List.mem_map, List.mem_filter, decide_eq_true_eq, and_assoc]

theorem BansSound.clearOrgBan {pick : String → ℕ} (h : db.BansSound) : (db.clearOrgBan orgId pick).BansSound := by
  rw [clearOrgBan_eq]
  refine BansSound.released pick _ _ ⟨h.locked, h.unique, h.swept⟩ ?_
  intro u hu
  obtain ⟨b, hb, hvia, rfl⟩ := mem_sweptVia.mp hu
  exact h.swept b hb (by rw [hvia]; rfl)

/-- The row of a user whom no organization ban holds stays. -/
theorem mem_clearOrgBan {pick : String → ℕ} (h : db.BansSound) {b : UserBan} (hb : b ∈ db.userBans)
    (hvia : b.bannedViaOrgId = none) : b ∈ (db.clearOrgBan orgId pick).userBans := by
  refine ((released_clearOrgBan db orgId pick).others b ?_).mpr hb
  intro hu
  obtain ⟨c, hc, hcvia, hid⟩ := mem_sweptVia.mp hu
  have heq : c = b := List.inj_on_of_nodup_map h.unique hc hb hid
  rw [heq, hvia] at hcvia
  cases hcvia

end rows

end AdminDb

/-! ### Histories -/

/-- The calls, each atomic. -/
inductive BanCall where
  | banUser (now : Int) (userId : String) (bannedBy : Option String) (reason : BanReason)
  | unbanUser (userId : String)
  | banOrg (now : Int) (orgId : String) (bannedBy : Option String) (reason : BanReason)
  | unbanOrg (orgId : String) (pick : String → ℕ)
  | addMember (m : OrganizationMember)
  | removeMember (orgId userId : String)

/-- The tables, and beside them what was asked for: the users with an individual ban that was not
individually lifted, and whom each ban of an organization in force found there. -/
structure BanHistory where
  db : AdminDb
  individual : List String
  covered : List (String × String)

/-- The members whom a ban of the organization is about. -/
def AdminDb.coverage (db : AdminDb) (orgId : String) : List (String × String) :=
  (db.members.filter fun m => decide (m.orgId = orgId) && !decide (db.IsOperator m.userId)).map fun m =>
    (orgId, m.userId)

def banStep (s : BanHistory) : BanCall → BanHistory
  | .banUser now userId bannedBy reason =>
      { s with db := s.db.recordUserBan now userId bannedBy reason, individual := userId :: s.individual }
  | .unbanUser userId =>
      { s with db := s.db.clearUserBan userId, individual := s.individual.filter fun u => decide (u ≠ userId) }
  | .banOrg now orgId bannedBy reason =>
      { s with
        db := s.db.recordOrgBan now orgId bannedBy reason
        covered := s.covered ++ if s.db.OrgExists orgId then s.db.coverage orgId else [] }
  | .unbanOrg orgId pick =>
      { s with db := s.db.clearOrgBan orgId pick, covered := s.covered.filter fun c => decide (c.1 ≠ orgId) }
  | .addMember m =>
      -- the foreign key and the primary key
      if s.db.OrgExists m.orgId ∧ ¬ s.db.Belongs m.orgId m.userId then
        { s with db := { s.db with members := s.db.members ++ [m] } }
      else s
  | .removeMember orgId userId =>
      { s with db := { s.db with members := s.db.members.filter fun m =>
          !(decide (m.orgId = orgId) && decide (m.userId = userId)) } }

/-- Nobody is banned. -/
structure AdminDb.NoBans (db : AdminDb) : Prop where
  users : db.userBans = []
  accounts : ∀ a ∈ db.accounts, a.bannedUntil = none
  organizations : ∀ o ∈ db.organizations, o.bannedAt = none

def banHistory (db : AdminDb) : BanHistory := ⟨db, [], []⟩

/-- An individual ban is issued to a user whom no organization ban holds; nobody joins a banned
organization. -/
def ReasonsApart (s : BanHistory) : BanCall → Prop
  | .banUser _ userId _ _ => ∀ b ∈ s.db.userBans, b.userId = userId → b.bannedViaOrgId = none
  | .addMember m => ¬ s.db.OrgBanned m.orgId
  | _ => True

instance (s : BanHistory) (call : BanCall) : Decidable (ReasonsApart s call) := by
  unfold ReasonsApart
  split <;> infer_instance

/-- A banned organization of the user's had covered them. -/
def BanHistory.CoveredBy (s : BanHistory) (orgId userId : String) : Prop :=
  s.db.OrgBanned orgId ∧ s.db.Belongs orgId userId ∧ (orgId, userId) ∈ s.covered

/-- The recorded bans are those of the tables. -/
structure BanHistory.Sound (s : BanHistory) : Prop where
  rows : s.db.BansSound
  individual : ∀ u ∈ s.individual, ∃ b ∈ s.db.userBans, b.userId = u ∧ b.bannedViaOrgId = none
  covered : ∀ o u, s.db.OrgBanned o → s.db.Belongs o u → ¬ s.db.IsOperator u → (o, u) ∈ s.covered

theorem sound_banHistory {db : AdminDb} (h : db.NoBans) : (banHistory db).Sound := by
  refine ⟨⟨?_, ?_, ?_⟩, ?_, ?_⟩
  · intro a ha
    simp only [banHistory] at ha ⊢
    rw [h.accounts a ha, AdminDb.IsBanned, h.users]
    simp
  · simp only [banHistory]
    rw [h.users]
    exact List.nodup_nil
  · intro b hb
    simp only [banHistory] at hb
    rw [h.users] at hb
    cases hb
  · nofun
  · rintro o u ⟨r, hr, -, hb⟩
    rw [h.organizations r hr] at hb
    cases hb

/-- An individual ban of a user whom no organization ban holds leaves them such a row. -/
theorem exists_row_recordUserBan {db : AdminDb} {now : Int} {userId u : String} {bannedBy : Option String}
    {reason : BanReason} (hown : ∀ b ∈ db.userBans, b.userId = userId → b.bannedViaOrgId = none)
    (hu : u = userId ∨ ∃ b ∈ db.userBans, b.userId = u ∧ b.bannedViaOrgId = none) :
    ∃ b ∈ (db.recordUserBan now userId bannedBy reason).userBans, b.userId = u ∧ b.bannedViaOrgId = none := by
  simp only [AdminDb.recordUserBan, AdminDb.upsertUserBan]
  split
  · next hin =>
    have hrow : ∃ b ∈ db.userBans, b.userId = u ∧ b.bannedViaOrgId = none := by
      rcases hu with rfl | hu
      · obtain ⟨b, hb, hid⟩ := List.mem_map.mp hin
        exact ⟨b, hb, hid, hown b hb hid⟩
      · exact hu
    obtain ⟨b, hb, hid, hvia⟩ := hrow
    refine ⟨_, List.mem_map_of_mem hb, ?_, ?_⟩
    · split <;> exact hid
    · split <;> exact hvia
  · rcases hu with rfl | ⟨b, hb, hid, hvia⟩
    · exact ⟨_, List.mem_append_right _ (List.mem_singleton.mpr rfl), rfl, rfl⟩
    · exact ⟨b, List.mem_append_left _ hb, hid, hvia⟩

theorem sound_banStep {s : BanHistory} {call : BanCall} (hcall : ReasonsApart s call) (h : s.Sound) :
    (banStep s call).Sound := by
  cases call with
  | banUser now userId bannedBy reason =>
      refine ⟨h.rows.recordUserBan, ?_, h.covered⟩
      intro u hu
      exact exists_row_recordUserBan hcall ((List.mem_cons.mp hu).imp_right (h.individual u))
  | unbanUser userId =>
      refine ⟨h.rows.clearUserBan, ?_, h.covered⟩
      intro u hu
      simp only [banStep, List.mem_filter, decide_eq_true_eq] at hu
      obtain ⟨b, hb, hid, hvia⟩ := h.individual u hu.1
      exact ⟨b, List.mem_filter.mpr ⟨hb, by simpa [hid] using hu.2⟩, hid, hvia⟩
  | banOrg now orgId bannedBy reason =>
      refine ⟨h.rows.recordOrgBan, ?_, ?_⟩
      · intro u hu
        obtain ⟨b, hb, hid, hvia⟩ := h.individual u hu
        exact ⟨b, AdminDb.mem_recordOrgBan hb, hid, hvia⟩
      · intro o u ho hm hop
        have hsame := AdminDb.SameRoster.recordOrgBan s.db now orgId bannedBy reason
        simp only [banStep, AdminDb.Belongs, hsame.1] at hm
        simp only [banStep, AdminDb.IsOperator, hsame.2] at hop
        refine List.mem_append.mpr ?_
        rcases AdminDb.recordOrgBan_orgBanned.mp ho with ⟨rfl, horg⟩ | ho
        · right
          rw [if_pos horg]
          obtain ⟨m, hmem, hid, rfl⟩ := hm
          refine List.mem_map.mpr ⟨m, List.mem_filter.mpr ⟨hmem, ?_⟩, rfl⟩
          rw [Bool.and_eq_true, Bool.not_eq_true', decide_eq_true_iff, decide_eq_false_iff_not]
          exact ⟨hid, hop⟩
        · exact .inl (h.covered o u ho hm hop)
  | unbanOrg orgId pick =>
      have hroster := (AdminDb.released_clearOrgBan s.db orgId pick).roster
      refine ⟨h.rows.clearOrgBan, ?_, ?_⟩
      · intro u hu
        obtain ⟨b, hb, hid, hvia⟩ := h.individual u hu
        exact ⟨b, AdminDb.mem_clearOrgBan h.rows hb hvia, hid, hvia⟩
      · intro o u ho hm hop
        obtain ⟨hne, ho⟩ := AdminDb.lifted_orgBanned.mp (hroster.orgBanned.mp ho)
        simp only [banStep, AdminDb.Belongs, hroster.members] at hm
        refine List.mem_filter.mpr ⟨h.covered o u ho hm ?_, by simpa using hne⟩
        exact fun h => hop (hroster.isOperator.mpr h)
  | addMember m =>
      simp only [banStep]
      split
      · refine ⟨⟨h.rows.locked, h.rows.unique, h.rows.swept⟩, h.individual, ?_⟩
        rintro o u ho ⟨m', hm', hid, hu⟩ hop
        rcases List.mem_append.mp hm' with hm' | hm'
        · exact h.covered o u ho ⟨m', hm', hid, hu⟩ hop
        · rw [List.mem_singleton.mp hm'] at hid
          exact absurd ho (hid ▸ hcall)
      · exact h
  | removeMember orgId userId =>
      refine ⟨⟨h.rows.locked, h.rows.unique, h.rows.swept⟩, h.individual, ?_⟩
      rintro o u ho ⟨m, hm, hid, hu⟩ hop
      exact h.covered o u ho ⟨m, (List.mem_filter.mp hm).1, hid, hu⟩ hop

/-- An organization unban frees whom it should. -/
structure FreesExactly (s : BanHistory) (orgId : String) (pick : String → ℕ) : Prop where
  /-- No row names the organization. -/
  unnamed : ∀ b ∈ (banStep s (.unbanOrg orgId pick)).db.userBans, b.bannedViaOrgId ≠ some orgId
  /-- Whom another banned organization of theirs had covered stays banned. -/
  kept : ∀ o u, s.db.IsBanned u → (banStep s (.unbanOrg orgId pick)).CoveredBy o u →
    (banStep s (.unbanOrg orgId pick)).db.IsBanned u
  /-- Whoever else it had banned is free. -/
  freed : ∀ b ∈ s.db.userBans, b.bannedViaOrgId = some orgId →
    (∀ o, ¬ (banStep s (.unbanOrg orgId pick)).CoveredBy o b.userId) →
    ¬ (banStep s (.unbanOrg orgId pick)).db.IsBanned b.userId

theorem BanHistory.Sound.freesExactly {s : BanHistory} (h : s.Sound) (orgId : String) (pick : String → ℕ) :
    FreesExactly s orgId pick := by
  have hrel := AdminDb.released_clearOrgBan s.db orgId pick
  have hapart : ReasonsApart s (.unbanOrg orgId pick) := trivial
  have hafter : (banStep s (.unbanOrg orgId pick)).Sound := sound_banStep hapart h
  refine ⟨?_, ?_, ?_⟩
  · intro b hb hvia
    by_cases hu : b.userId ∈ s.db.sweptVia orgId
    · obtain ⟨o, ho, hvia'⟩ := hrel.adopted b hb hu
      have heq : o = orgId := Option.some.inj (hvia'.symm.trans hvia)
      exact (AdminDb.lifted_orgBanned.mp (AdminDb.mem_bannedOrgsOf.mp ho).2).1 heq
    · rw [banStep, hrel.others b hu] at hb
      exact hu (AdminDb.mem_sweptVia.mpr ⟨b, hb, hvia, rfl⟩)
  · rintro o u hb ⟨hbanned, hm, -⟩
    refine (hrel.banned u).mpr ⟨hb, fun _ => List.ne_nil_of_mem (a := o) ?_⟩
    rw [← hrel.roster.bannedOrgsOf]
    exact AdminDb.mem_bannedOrgsOf.mpr ⟨hm, hbanned⟩
  · intro b hb hvia hnone hban
    obtain ⟨o, ho⟩ := List.exists_mem_of_ne_nil _
      (((hrel.banned b.userId).mp hban).2 (AdminDb.mem_sweptVia.mpr ⟨b, hb, hvia, rfl⟩))
    rw [← hrel.roster.bannedOrgsOf] at ho
    obtain ⟨hm, hbanned⟩ := AdminDb.mem_bannedOrgsOf.mp ho
    have hop : ¬ (banStep s (.unbanOrg orgId pick)).db.IsOperator b.userId := fun hop =>
      h.rows.swept b hb (by rw [hvia]; rfl) (hrel.roster.isOperator.mp hop)
    exact hnone o ⟨hbanned, hm, hafter.covered o b.userId hbanned hm hop⟩

/-- **Unbanning frees exactly those it should** in every history in which individual bans are only
issued to users whom no organization ban holds and nobody joins a banned organization. -/
theorem bans_restore_exactly (db : AdminDb) (h : db.NoBans) (calls : List BanCall)
    (hcalls : StepsMeet banStep ReasonsApart (banHistory db) calls) :
    (∀ a ∈ (run banStep (banHistory db) calls).db.accounts,
      (run banStep (banHistory db) calls).db.IsBanned a.id ↔ a.bannedUntil.isSome = true) ∧
    (∀ u ∈ (run banStep (banHistory db) calls).individual, (run banStep (banHistory db) calls).db.IsBanned u) ∧
    ∀ orgId pick, FreesExactly (run banStep (banHistory db) calls) orgId pick := by
  have hsound := run_invariant (fun _ _ => sound_banStep) calls _ (sound_banHistory h) hcalls
  refine ⟨hsound.rows.locked, ?_, fun orgId pick => hsound.freesExactly orgId pick⟩
  intro u hu
  obtain ⟨b, hb, hid, -⟩ := hsound.individual u hu
  exact List.mem_map.mpr ⟨b, hb, hid⟩

/-- One member of two organizations, and nobody banned. -/
def oneMember : AdminDb where
  accounts := [⟨"ann", some "ann@example.com", none⟩]
  platformAdmins := []
  userBans := []
  superadminKeys := []
  apiKeys := []
  members := [⟨"a", "ann", .user⟩, ⟨"b", "ann", .user⟩]
  organizations := [⟨"a", none⟩, ⟨"b", none⟩]
  orgBans := []
  invitations := []

def spam : BanReason := ⟨"spam", by decide, by decide⟩

/-- Both organizations are banned, and the first unban lets the other ban adopt the member. -/
def twoOrgBans : List BanCall :=
  [.banOrg 0 "a" none spam, .banOrg 1 "b" none spam, .unbanOrg "a" fun _ => 0]

/-- The individual ban arrives second. -/
def banAfterSweep : List BanCall :=
  [.banOrg 0 "a" none spam, .banUser 1 "ann" none spam, .unbanOrg "a" fun _ => 0]

theorem bans_restore_exactly_sample :
    FreesExactly (run banStep (banHistory oneMember) twoOrgBans) "b" fun _ => 0 :=
  (bans_restore_exactly oneMember ⟨rfl, by decide, by decide⟩ twoOrgBans (by decide)).2.2 "b" fun _ => 0

theorem individual_ban_lifted :
    oneMember.NoBans ∧ "ann" ∈ (run banStep (banHistory oneMember) banAfterSweep).individual ∧
      ¬ (run banStep (banHistory oneMember) banAfterSweep).db.IsBanned "ann" :=
  ⟨⟨rfl, by decide, by decide⟩, by decide, by decide⟩

end Experiential.Admin
