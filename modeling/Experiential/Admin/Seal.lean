import Experiential.Admin.Sealing
import Experiential.Admin.TenantCalls

/-! # The seal of a banned organization

`banned_stays_sealed`: a banned organization has no live key, no pending invitation and no free member,
in every run whose inserts and whose unbans find the organization unbanned and every ban of it in
progress not yet past what they add. The ban checks of the operations do not give that: a ban that
lands between the check and the insert leaves a leak (`ban_overtakes_every_operation`). -/

namespace Experiential.Admin

open Identity

/-! ### What the calls of an operation open -/

/-- The user is there already, banned, or an operator. -/
def AdminDb.Spares (db : AdminDb) (orgId : String) : Leak → Prop
  | .member u => db.Belongs orgId u ∨ db.IsBanned u ∨ db.IsOperator u
  | _ => False

instance (db : AdminDb) (orgId : String) : (l : Leak) → Decidable (db.Spares orgId l)
  | .member u => inferInstanceAs (Decidable (db.Belongs orgId u ∨ db.IsBanned u ∨ db.IsOperator u))
  | .key _ | .invitation _ => inferInstanceAs (Decidable False)

/-- The key, invitation or membership that the next call inserts, and the organization it is for. -/
def TenantCall.opens (e : Surroundings) (s : Tenant) : TenantCall → Option (String × Leak)
  | .mint x => match x.phase with
      | .insert => some (x.orgId, .key e.newId)
      | _ => none
  | .rotate x => match x.phase with
      | .insert key => some (key.orgId, .key e.newId)
      | _ => none
  | .invite x => match x.phase with
      | .addMember userId => some (x.orgId, .member userId)
      | .insert _ =>
          if ∃ i ∈ s.db.invitations, AdminDb.Occupies x.orgId x.email i then none
          else some (x.orgId, .invitation e.newId)
      | _ => none
  | .approve x => match x.phase with
      | .decide => (s.joinRequest x.requestId).bind fun q =>
          if q.status = .pending then some (q.orgId, .member q.userId) else none
      | _ => none

/-- What a call is carried out with, if it is. -/
def OperatorOutcome.effect : OperatorOutcome → Option Surroundings
  | .succeeds e => some e
  | .fails e applied _ => if applied then some e else none

/-- Whatever the step opens or frees, the organization allows it. -/
def SealMeets (orgId : String) (w : Pool Tenant TenantCall) : TenantStep → Prop
  | .spawn _ => True
  | .advance k i => ∀ x ∈ w.procs[k]?, ∀ e ∈ i.effect, ∀ p ∈ x.opens e w.shared, p.1 = orgId →
      w.shared.db.Spares orgId p.2 ∨ w.shared.store.Allows orgId p.2
  | .env e => CommitsRightly orgId w.shared.store e

instance (orgId : String) (s : BanStore) (e : BanEvent) : Decidable (CommitsRightly orgId s e) := by
  unfold CommitsRightly
  split <;> infer_instance

instance (orgId : String) (w : Pool Tenant TenantCall) (step : TenantStep) : Decidable (SealMeets orgId w step) := by
  unfold SealMeets
  split <;> infer_instance

/-- From `s` to `s'` at most the given leak opens, and only if its user is not spared. -/
structure Tenant.Opens (orgId : String) (p : Option (String × Leak)) (s s' : Tenant) : Prop where
  txns : s'.store.txns = s.store.txns
  organizations : s'.db.organizations = s.db.organizations
  leaks : ∀ l, s'.db.Leaks orgId l → s.db.Leaks orgId l ∨ p = some (orgId, l) ∧ ¬ s.db.Spares orgId l

namespace AdminDb
variable {db : AdminDb} {orgId : String} {l : Leak}

theorem leaks_insertKey {k : ApiKey} (h : (db.insertKey k).Leaks orgId l) :
    db.Leaks orgId l ∨ k.orgId = orgId ∧ l = .key k.id := by
  cases l with
  | key id =>
      obtain ⟨q, hq, rfl, horg, hlive⟩ := h
      rcases List.mem_append.mp hq with hq | hq
      · exact .inl ⟨q, hq, rfl, horg, hlive⟩
      · obtain rfl := List.mem_singleton.mp hq
        exact .inr ⟨horg, rfl⟩
  | _ => exact .inl h

theorem leaks_revokeOneKey {id revokedBy : String} {now : Int}
    (h : (db.revokeOneKey id now revokedBy).Leaks orgId l) : db.Leaks orgId l := by
  cases l with
  | key _ =>
      obtain ⟨q, hq, rfl, horg, hlive⟩ := h
      obtain ⟨k, hk, rfl⟩ := List.mem_map.mp hq
      split at horg
      · rename_i hid
        rw [if_pos hid] at hlive
        cases hlive
      · rename_i hid
        rw [if_neg hid] at hlive ⊢
        exact ⟨k, hk, rfl, horg, hlive⟩
  | _ => exact h

theorem leaks_insertMember {m : OrganizationMember} (h : (db.insertMember m).Leaks orgId l) :
    db.Leaks orgId l ∨ m.orgId = orgId ∧ l = .member m.userId ∧ ¬ db.Spares orgId l := by
  cases l with
  | member u =>
      obtain ⟨⟨q, hq, horg, rfl⟩, hban, hop⟩ := h
      by_cases hbel : db.Belongs orgId q.userId
      · exact .inl ⟨hbel, hban, hop⟩
      · rcases List.mem_append.mp hq with hq | hq
        · exact absurd ⟨q, hq, horg, rfl⟩ hbel
        · obtain rfl := List.mem_singleton.mp hq
          refine .inr ⟨horg, rfl, ?_⟩
          rintro (hu | hu | hu)
          · exact hbel hu
          · exact hban hu
          · exact hop hu
  | _ => exact .inl h

theorem leaks_deleteExpired {org email : String} {now : Int} (h : (db.deleteExpired org email now).Leaks orgId l) :
    db.Leaks orgId l := by
  cases l with
  | invitation id =>
      obtain ⟨i, hi, hrest⟩ := h
      exact ⟨i, (List.mem_filter.mp hi).1, hrest⟩
  | _ => exact h

theorem leaks_insertInvitation {i : OrgInvitation} (h : (db.insertInvitation i).Leaks orgId l) :
    db.Leaks orgId l ∨ i.orgId = orgId ∧ l = .invitation i.id := by
  cases l with
  | invitation id =>
      obtain ⟨q, hq, rfl, horg, hrest⟩ := h
      rcases List.mem_append.mp hq with hq | hq
      · exact .inl ⟨q, hq, rfl, horg, hrest⟩
      · obtain rfl := List.mem_singleton.mp hq
        exact .inr ⟨horg, rfl⟩
  | _ => exact .inl h

theorem leaks_setInvitationRole {id : String} {role : OrgRole} (h : (db.setInvitationRole id role).Leaks orgId l) :
    db.Leaks orgId l := by
  cases l with
  | invitation _ =>
      obtain ⟨_, hq, hleak⟩ := h
      obtain ⟨i, hi, rfl⟩ := List.mem_map.mp hq
      split at hleak
      all_goals exact ⟨i, hi, hleak⟩
  | _ => exact h

end AdminDb

section
variable {orgId : String} {p : Option (String × Leak)} {s s' : Tenant} {e : Surroundings}

namespace Tenant

theorem Opens.refl (s : Tenant) : Opens orgId p s s := ⟨rfl, rfl, fun _ h => .inl h⟩

theorem opens_commit {db' : AdminDb} (horgs : db'.organizations = s.db.organizations)
    (hleaks : ∀ l, db'.Leaks orgId l → s.db.Leaks orgId l ∨ p = some (orgId, l) ∧ ¬ s.db.Spares orgId l) :
    Opens orgId p s (s.commit db') := ⟨rfl, horgs, hleaks⟩

theorem opens_insertKey (k : ApiKey) : Opens orgId (some (k.orgId, .key k.id)) s (s.commit (s.db.insertKey k)) := by
  refine opens_commit rfl fun l hl => (AdminDb.leaks_insertKey hl).imp id ?_
  rintro ⟨rfl, rfl⟩
  exact ⟨rfl, id⟩

theorem opens_insertMember (m : OrganizationMember) :
    Opens orgId (some (m.orgId, .member m.userId)) s (s.commit (s.db.insertMember m)) := by
  refine opens_commit rfl fun l hl => (AdminDb.leaks_insertMember hl).imp id ?_
  rintro ⟨rfl, rfl, hspares⟩
  exact ⟨rfl, hspares⟩

theorem opens_insertInvitation (i : OrgInvitation) :
    Opens orgId (some (i.orgId, .invitation i.id)) s (s.commit (s.db.insertInvitation i)) := by
  refine opens_commit rfl fun l hl => (AdminDb.leaks_insertInvitation hl).imp id ?_
  rintro ⟨rfl, rfl⟩
  exact ⟨rfl, id⟩

end Tenant

theorem KeyMint.succeed_opens (x : KeyMint) :
    Tenant.Opens orgId ((TenantCall.mint x).opens e s) s (x.succeed e s).1 := by
  obtain ⟨actor, org, phase⟩ := x
  unfold KeyMint.succeed TenantCall.opens
  cases phase with
  | insert =>
      dsimp only
      split
      · exact Tenant.opens_insertKey ⟨e.newId, org, actor, none, none⟩
      · exact .refl s
  | _ => exact .refl s

theorem KeyRotation.succeed_opens (x : KeyRotation) :
    Tenant.Opens orgId ((TenantCall.rotate x).opens e s) s (x.succeed e s).1 := by
  obtain ⟨actor, keyId, phase⟩ := x
  unfold KeyRotation.succeed TenantCall.opens
  cases phase with
  | key platformAdmin =>
      dsimp only
      split
      all_goals exact .refl s
  | insert key =>
      dsimp only
      split
      · exact Tenant.opens_insertKey ⟨e.newId, key.orgId, actor, none, none⟩
      · exact .refl s
  | compensate replacement error =>
      dsimp only
      split
      · exact .refl s
      · exact Tenant.opens_commit rfl fun l hl => .inl (AdminDb.leaks_revokeOneKey hl)
  | _ => exact .refl s

theorem MemberInvite.succeed_opens (x : MemberInvite) :
    Tenant.Opens orgId ((TenantCall.invite x).opens e s) s (x.succeed e s).1 := by
  obtain ⟨org, email, role, phase⟩ := x
  unfold MemberInvite.succeed TenantCall.opens
  cases phase with
  | addMember userId =>
      dsimp only
      split
      · exact .refl s
      · split
        · exact Tenant.opens_insertMember ⟨org, userId, role⟩
        · exact .refl s
  | cleanup =>
      dsimp only
      split
      · exact .refl s
      · exact Tenant.opens_commit rfl fun l hl => .inl (AdminDb.leaks_deleteExpired hl)
  | insert now =>
      dsimp only
      by_cases hlocked : ∃ i ∈ s.db.invitations, AdminDb.Occupies org email i ∧ s.Locked (.invitation i.id)
      · rw [if_pos hlocked]
        exact .refl s
      · rw [if_neg hlocked]
        by_cases hocc : ∃ i ∈ s.db.invitations, AdminDb.Occupies org email i
        · rw [if_pos hocc, if_pos hocc]
          exact .refl s
        · rw [if_neg hocc, if_neg hocc]
          split
          · exact Tenant.opens_insertInvitation ⟨e.newId, org, email, role, none, none, e.now + invitationTtl⟩
          · exact .refl s
  | setRole id =>
      dsimp only
      split
      · exact .refl s
      · split
        · exact Tenant.opens_commit rfl fun l hl => .inl (AdminDb.leaks_setInvitationRole hl)
        · exact .refl s
  | _ => exact .refl s

theorem Tenant.opens_approve (q : JoinRequest) : Opens orgId (some (q.orgId, .member q.userId)) s (s.approve q) := by
  unfold Tenant.approve
  by_cases hbel : s.db.Belongs q.orgId q.userId
  · simp only [if_pos hbel]
    exact ⟨rfl, rfl, fun _ h => .inl h⟩
  · simp only [if_neg hbel]
    have hinsert : Opens orgId _ s _ := opens_insertMember ⟨q.orgId, q.userId, .user⟩
    exact ⟨rfl, rfl, hinsert.leaks⟩

theorem JoinApproval.succeed_opens (x : JoinApproval) :
    Tenant.Opens orgId ((TenantCall.approve x).opens e s) s (x.succeed s).1 := by
  obtain ⟨actor, org, requestId, phase⟩ := x
  unfold JoinApproval.succeed TenantCall.opens
  cases phase with
  | decide =>
      dsimp only
      cases s.joinRequest requestId with
      | none => exact .refl s
      | some q =>
          dsimp only
          cases hstatus : q.status with
          | pending =>
              rw [Option.bind_some, if_pos hstatus]
              exact Tenant.opens_approve q
          | _ => exact .refl s
  | _ => exact .refl s

theorem TenantCall.succeed_opens (x : TenantCall) : Tenant.Opens orgId (x.opens e s) s (x.succeed e s).1 := by
  cases x with
  | mint x | rotate x | invite x | approve x => exact x.succeed_opens

/-! ### Every run -/

/-- A call keeps the tables and the bans in progress as they are, or is carried out. -/
theorem TenantCall.advance_effect (i : OperatorOutcome) (s : Tenant) (x : TenantCall) :
    (x.advance i s).1 = s ∨ ∃ e ∈ i.effect, (x.advance i s).1 = (x.succeed e s).1 := by
  cases i with
  | succeeds e => exact .inr ⟨e, rfl, rfl⟩
  | fails e applied error =>
      cases applied with
      | false => exact .inl rfl
      | true => exact .inr ⟨e, rfl, rfl⟩

theorem Tenant.Opens.sealHolds (h : Tenant.Opens orgId p s s') (hs : s.store.SealHolds orgId)
    (hmeets : ∀ q ∈ p, q.1 = orgId → s.db.Spares orgId q.2 ∨ s.store.Allows orgId q.2) :
    BanStore.SealHolds orgId s'.store := by
  have hchanged := hs.changed h.organizations fun l hl => (h.leaks l hl).imp id fun ⟨hp, hspares⟩ =>
    (hmeets (orgId, l) hp rfl).resolve_left hspares
  have hstore : s'.store = ⟨s'.db, s.store.txns⟩ := by
    rw [← h.txns]
  rw [hstore]
  exact hchanged

theorem tenantStep_seals (w : Pool Tenant TenantCall) (step : TenantStep) (hmeets : SealMeets orgId w step)
    (h : w.shared.store.SealHolds orgId) : BanStore.SealHolds orgId (tenantStep orgId w step).shared.store := by
  cases step with
  | spawn r => exact h
  | env e => exact banEvent_holds h e hmeets
  | advance k i =>
      unfold tenantStep
      cases hx : w.procs[k]? with
      | none =>
          rw [poolStep_advance_none hx]
          exact h
      | some x =>
          rw [poolStep_advance hx]
          rcases x.advance_effect i w.shared with hsame | ⟨e, he, heffect⟩
          · rw [hsame]
            exact h
          · rw [heffect]
            exact x.succeed_opens.sealHolds h (hmeets x hx e he)

/-- In a run from tables where no ban is in progress, when whatever is opened or freed is allowed, a banned
organization is sealed in every state. -/
theorem banned_stays_sealed (orgId : String) (db : AdminDb) (joinRequests : List JoinRequest)
    (steps : List TenantStep) (hdb : db.OrgBanned orgId → db.Sealed orgId)
    (hmeets : StepsMeet (tenantStep orgId) (SealMeets orgId) (tenantStart db joinRequests) steps) :
    (run (tenantStep orgId) (tenantStart db joinRequests) steps).shared.db.OrgBanned orgId →
      (run (tenantStep orgId) (tenantStart db joinRequests) steps).shared.db.Sealed orgId := by
  have hstart : BanStore.SealHolds orgId (tenantStart db joinRequests).shared.store :=
    ⟨hdb, fun t ht => absurd ht List.not_mem_nil, .nil⟩
  exact (run_invariant (I := fun w => BanStore.SealHolds orgId w.shared.store)
    (fun w step => tenantStep_seals w step) steps _ hstart hmeets).db

end

/-! ### One organization -/

/-- `alice` is the admin of `acme`, and the user of its one key. -/
def acme : AdminDb where
  accounts := [⟨"alice", some "alice@acme.dev", none⟩, ⟨"bob", some "bob@acme.dev", none⟩]
  platformAdmins := [⟨"root", none⟩]
  userBans := []
  superadminKeys := []
  apiKeys := [⟨"key-1", "acme", "alice", none, none⟩]
  members := [⟨"acme", "alice", .admin⟩]
  organizations := [⟨"acme", none⟩]
  orgBans := []
  invitations := []

def abuse : BanReason := ⟨"abuse", by decide, by decide⟩

def call (k : ℕ) (newId : String) : TenantStep := .advance k (.succeeds ⟨0, "", newId⟩)

def banEvents (now : Int) (sweep : ℕ) : List TenantStep :=
  .env (.start (.record ⟨now, some "root", abuse⟩)) :: List.replicate (6 + 5 * sweep) (.env (.advance 0 0))

/-- A mint that ends before the ban, and one that the ban refuses. -/
def banBetweenMints : List TenantStep :=
  [.spawn (.mint "alice" "acme"), .spawn (.mint "root" "acme")] ++ List.replicate 7 (call 0 "key-2") ++
    banEvents 5 1 ++ List.replicate 3 (call 1 "key-3")

theorem banned_stays_sealed_sample :
    (run (tenantStep "acme") (tenantStart acme []) banBetweenMints).shared.db.OrgBanned "acme" ∧
      (run (tenantStep "acme") (tenantStart acme []) banBetweenMints).shared.db.Sealed "acme" :=
  ⟨by decide +kernel, banned_stays_sealed "acme" acme [] banBetweenMints (fun h => absurd h (by decide))
    (by decide +kernel) (by decide +kernel)⟩

def TenantCall.isAnswered : TenantCall → Bool
  | .mint x => match x.phase with | .answered _ => true | _ => false
  | .rotate x => match x.phase with | .answered _ => true | _ => false
  | .invite x => match x.phase with | .answered _ => true | _ => false
  | .approve x => match x.phase with | .answered _ => true | _ => false

/-- No operation, ban or unban is in progress. -/
def TenantIdle (w : Pool Tenant TenantCall) : Prop :=
  w.shared.store.txns.length = 0 ∧ ∀ x ∈ w.procs, x.isAnswered = true

instance (w : Pool Tenant TenantCall) : Decidable (TenantIdle w) :=
  inferInstanceAs (Decidable (w.shared.store.txns.length = 0 ∧ ∀ x ∈ w.procs, x.isAnswered = true))

instance (db : AdminDb) (orgId : String) : (l : Leak) → Decidable (db.Leaks orgId l)
  | .key id => inferInstanceAs (Decidable (∃ k ∈ db.apiKeys, k.id = id ∧ k.orgId = orgId ∧ k.revokedAt = none))
  | .invitation id => inferInstanceAs (Decidable
      (∃ i ∈ db.invitations, i.id = id ∧ i.orgId = orgId ∧ i.acceptedAt = none ∧ i.revokedAt = none))
  | .member u => inferInstanceAs (Decidable (db.Belongs orgId u ∧ ¬ db.IsBanned u ∧ ¬ db.IsOperator u))

/-- A whole ban between two calls of an operation. -/
def overtakenByBan (r : TenantRequest) (before after : ℕ) : List TenantStep :=
  .spawn r :: List.replicate before (call 0 "new") ++ banEvents 5 1 ++ List.replicate after (call 0 "new")

def joinRequestOfBob : List JoinRequest := [⟨"join-1", "acme", "bob", .pending⟩]

/-- A ban that lands after some calls of the operation leaves the leak in the banned organization. -/
def LeavesLeak (r : TenantRequest) (before after : ℕ) (l : Leak) : Prop :=
  TenantIdle (run (tenantStep "acme") (tenantStart acme joinRequestOfBob) (overtakenByBan r before after)) ∧
    (run (tenantStep "acme") (tenantStart acme joinRequestOfBob)
      (overtakenByBan r before after)).shared.db.OrgBanned "acme" ∧
    (run (tenantStep "acme") (tenantStart acme joinRequestOfBob)
      (overtakenByBan r before after)).shared.db.Leaks "acme" l

instance (r : TenantRequest) (before after : ℕ) (l : Leak) : Decidable (LeavesLeak r before after l) := by
  unfold LeavesLeak
  infer_instance

theorem ban_overtakes_every_operation :
    LeavesLeak (.mint "root" "acme") 3 3 (.key "new") ∧
      LeavesLeak (.rotate "root" "key-1") 2 3 (.key "new") ∧
      LeavesLeak (.invite "acme" "bob@acme.dev" .user) 2 1 (.member "bob") ∧
      LeavesLeak (.invite "acme" "eve@acme.dev" .user) 4 1 (.invitation "new") ∧
      LeavesLeak (.approve "root" "acme" "join-1") 3 1 (.member "bob") := by
  decide +kernel

end Experiential.Admin
