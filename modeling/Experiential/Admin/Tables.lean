import Experiential.Identity.Directory
import Experiential.Lib.Table

/-! # Operators, bans and what they seal

The tables that platform operators write. A user has at most one `user_bans` row, which names the
organization ban that swept them, if one did; the lockout itself is the account's `banned_until`.
`recordUserBan` and `clearUserBan` write both together, and a ban revokes the user's keys of both
kinds. -/

namespace Experiential.Admin

open Identity

/-- A reason as the check constraint admits it. -/
structure BanReason where
  text : String
  nonempty : 0 < text.length
  short : text.length ≤ 500
deriving DecidableEq

/-- One `auth.users` row. -/
structure Account where
  id : String
  email : Option String
  bannedUntil : Option Int
deriving DecidableEq

structure PlatformAdmin where
  userId : String
  grantedBy : Option String
deriving DecidableEq

structure UserBan where
  userId : String
  reason : BanReason
  bannedBy : Option String
  bannedAt : Int
  /-- The organization ban that swept the user; none for an individual ban. -/
  bannedViaOrgId : Option String
deriving DecidableEq

/-- One `platform_admin_keys` row. -/
structure SuperadminKey where
  id : String
  userId : String
  ownerEmail : String
  name : String
  revokedAt : Option Int
deriving DecidableEq

structure Organization where
  id : String
  bannedAt : Option Int
deriving DecidableEq

structure OrgBan where
  orgId : String
  reason : BanReason
  bannedBy : Option String
  bannedAt : Int
deriving DecidableEq

structure OrgInvitation where
  id : String
  orgId : String
  email : String
  role : OrgRole
  acceptedAt : Option Int
  revokedAt : Option Int
  expiresAt : Int
deriving DecidableEq

structure AdminDb where
  accounts : List Account
  platformAdmins : List PlatformAdmin
  userBans : List UserBan
  superadminKeys : List SuperadminKey
  apiKeys : List ApiKey
  members : List OrganizationMember
  organizations : List Organization
  orgBans : List OrgBan
  invitations : List OrgInvitation

namespace AdminDb
variable (db : AdminDb)

def IsOperator (userId : String) : Prop := userId ∈ db.platformAdmins.map (·.userId)

def IsBanned (userId : String) : Prop := userId ∈ db.userBans.map (·.userId)

instance (userId : String) : Decidable (db.IsOperator userId) :=
  inferInstanceAs (Decidable (userId ∈ db.platformAdmins.map (·.userId)))

instance (userId : String) : Decidable (db.IsBanned userId) :=
  inferInstanceAs (Decidable (userId ∈ db.userBans.map (·.userId)))

/-- 876000 hours. -/
def banHorizon : Int := 876000 * 3600 * 1000000

section ban
variable (now : Int) (userId : String)

/-- A live key is revoked now. -/
def revoke (revokedAt : Option Int) : Option Int :=
  match revokedAt with
  | some t => some t
  | none => some now

def revokeApiKeys (p : ApiKey → Bool) (keys : List ApiKey) : List ApiKey :=
  keys.map fun k => if p k then { k with revokedAt := revoke now k.revokedAt } else k

def revokeSuperadminKeys (keys : List SuperadminKey) : List SuperadminKey :=
  keys.map fun k => if k.userId = userId then { k with revokedAt := revoke now k.revokedAt } else k

/-- The row of an individual ban; on conflict `banned_via_org_id` stays as it is. -/
def upsertUserBan (bannedBy : Option String) (reason : BanReason) (bans : List UserBan) : List UserBan :=
  if userId ∈ bans.map (·.userId) then
    bans.map fun b =>
      if b.userId = userId then { b with reason := reason, bannedBy := bannedBy, bannedAt := now } else b
  else bans ++ [⟨userId, reason, bannedBy, now, none⟩]

def lockAccounts (accounts : List Account) : List Account :=
  accounts.map fun a => if a.id = userId then { a with bannedUntil := some (now + banHorizon) } else a

/-- `record_user_ban` -/
def recordUserBan (bannedBy : Option String) (reason : BanReason) : AdminDb :=
  { db with
    userBans := upsertUserBan now userId bannedBy reason db.userBans
    apiKeys := revokeApiKeys now (fun k => decide (k.createdBy = userId)) db.apiKeys
    superadminKeys := revokeSuperadminKeys now userId db.superadminKeys
    accounts := lockAccounts now userId db.accounts }

/-- `clear_user_ban` -/
def clearUserBan : AdminDb :=
  { db with
    userBans := db.userBans.filter fun b => decide (b.userId ≠ userId)
    accounts := db.accounts.map fun a => if a.id = userId then { a with bannedUntil := none } else a }

end ban

/-! ### What a ban writes -/

section lemmas
variable {db} {now : Int} {userId : String} {bannedBy : Option String} {reason : BanReason}

@[simp] theorem revoke_isSome (t : Option Int) : (revoke now t).isSome = true := by
  cases t <;> rfl

theorem revoke_of_isSome {t : Option Int} (h : t.isSome = true) : revoke now t = t := by
  cases t with
  | none => cases h
  | some t => rfl

theorem upsertUserBan_users (bans : List UserBan) :
    (upsertUserBan now userId bannedBy reason bans).map (·.userId) =
      if userId ∈ bans.map (·.userId) then bans.map (·.userId) else bans.map (·.userId) ++ [userId] := by
  unfold upsertUserBan
  split
  · rw [map_update_key]
    intro _ _
    rfl
  · rw [List.map_append, List.map_singleton]

/-- Exactly the user is banned besides those who were. -/
@[simp] theorem recordUserBan_isBanned {u : String} :
    (db.recordUserBan now userId bannedBy reason).IsBanned u ↔ u = userId ∨ db.IsBanned u := by
  unfold IsBanned recordUserBan
  simp only [upsertUserBan_users]
  split
  · constructor
    · exact .inr
    · rintro (rfl | h)
      · assumption
      · exact h
  · rw [List.mem_append, List.mem_singleton, or_comm]

@[simp] theorem clearUserBan_isBanned {u : String} :
    (db.clearUserBan userId).IsBanned u ↔ u ≠ userId ∧ db.IsBanned u := by
  unfold IsBanned clearUserBan
  simp only [List.mem_map, List.mem_filter, decide_eq_true_eq]
  constructor
  · rintro ⟨b, ⟨hb, hne⟩, rfl⟩
    exact ⟨hne, b, hb, rfl⟩
  · rintro ⟨hne, b, hb, rfl⟩
    exact ⟨b, ⟨hb, hne⟩, rfl⟩

/-- A key after a revocation of the user's is the key before it, or the user's and revoked. -/
theorem mem_revokeSuperadminKeys {keys : List SuperadminKey} {k : SuperadminKey}
    (h : k ∈ revokeSuperadminKeys now userId keys) :
    k ∈ keys ∧ (k.userId = userId → k.revokedAt.isSome) ∨ k.userId = userId ∧ k.revokedAt.isSome := by
  unfold revokeSuperadminKeys at h
  obtain ⟨q, hq, rfl⟩ := List.mem_map.mp h
  split
  · exact .inr ⟨by assumption, revoke_isSome _⟩
  · exact .inl ⟨hq, fun hu => absurd hu (by assumption)⟩

theorem mem_revokeSuperadminKeys_of_revoked {keys : List SuperadminKey} {k : SuperadminKey}
    (h : k ∈ keys) (hk : k.revokedAt.isSome = true) : k ∈ revokeSuperadminKeys now userId keys := by
  refine List.mem_map.mpr ⟨k, h, ?_⟩
  rw [revoke_of_isSome hk, ite_self]

theorem revokeSuperadminKeys_ids (keys : List SuperadminKey) :
    (revokeSuperadminKeys now userId keys).map (·.id) = keys.map (·.id) := by
  rw [revokeSuperadminKeys, map_update_key]
  intro _ _
  rfl

end lemmas

end AdminDb

end Experiential.Admin
