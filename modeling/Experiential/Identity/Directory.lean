import Mathlib.Data.List.Basic

/-! # Members, accounts and keys

The tables that provisioning and offboarding work on. Membership is many-to-many; an account
has at most one provenance row, which names the organization whose provisioning created it; a
key belongs to one organization and names the user who created it. -/

namespace Experiential.Identity

inductive OrgRole where
  | admin
  | user
deriving DecidableEq

/-- One `organization_members` row. -/
structure OrganizationMember where
  orgId : String
  userId : String
  role : OrgRole
deriving DecidableEq

/-- One `auth.users` row; addresses are lower-case. -/
structure AuthUser where
  id : String
  email : String
deriving DecidableEq

/-- One `account_provenance` row, written by the SCIM path. -/
structure AccountProvenance where
  userId : String
  provisionedByOrgId : String
deriving DecidableEq

/-- One `api_keys` row. -/
structure ApiKey where
  id : String
  orgId : String
  createdBy : String
  revokedAt : Option Int
  revokedBy : Option String
deriving DecidableEq

inductive KeyPolicy where
  | revoke
  | keep
deriving DecidableEq

/-- Exactly what one sweep did and did not do. -/
structure DeprovisionReport where
  orgId : String
  userId : String
  keyPolicy : KeyPolicy
  membershipRemoved : Bool
  removedRole : OrgRole
  keysRevoked : List String
  identityOwnedByOrg : Bool
  remainingMemberships : Nat
  globalCleanupDue : Bool
  sessionsExpired : Bool
  pending : List String
deriving DecidableEq

/-- The audit events of provisioning and offboarding, with what they record. -/
inductive AuditEvent where
  | membersDeprovision (before : OrgRole) (after : DeprovisionReport)
  | scimUserDeprovision (after : DeprovisionReport)
  | scimUserProvision (orgId userId email : String) (role : OrgRole) (createdAccount : Bool)
deriving DecidableEq

structure Directory where
  users : List AuthUser
  members : List OrganizationMember
  keys : List ApiKey
  provenance : List AccountProvenance
  audit : List AuditEvent

namespace Directory
variable (db : Directory)

/-- `find_one_by_columns` on `organization_members`. -/
def membership (orgId userId : String) : Option OrganizationMember :=
  db.members.find? fun m => decide (m.orgId = orgId) && decide (m.userId = userId)

/-- `find_one_by_columns` on `account_provenance`. -/
def provenanceOf (userId : String) : Option AccountProvenance :=
  db.provenance.find? fun p => decide (p.userId = userId)

/-- The organization's live keys that the user created. -/
def liveKeys (orgId userId : String) : List ApiKey :=
  db.keys.filter fun k => decide (k.orgId = orgId) && decide (k.createdBy = userId) && k.revokedAt.isNone

/-- Is the user a member of the organization? -/
def IsMember (orgId userId : String) : Prop := ∃ m ∈ db.members, m.orgId = orgId ∧ m.userId = userId

/-- No live key of the organization was created by the user. -/
def NoLiveKey (orgId userId : String) : Prop :=
  ∀ k ∈ db.keys, k.orgId = orgId → k.createdBy = userId → k.revokedAt.isSome

variable {db} {orgId userId : String}

theorem membership_eq_none : db.membership orgId userId = none ↔ ¬ db.IsMember orgId userId := by
  unfold membership IsMember
  rw [List.find?_eq_none]
  constructor
  · rintro h ⟨m, hm, horg, huser⟩
    exact h m hm (by simp [horg, huser])
  · intro h m hm hmatch
    simp only [Bool.and_eq_true, decide_eq_true_eq] at hmatch
    exact h ⟨m, hm, hmatch⟩

theorem isMember_of_membership {m : OrganizationMember} (h : db.membership orgId userId = some m) :
    db.IsMember orgId userId := by
  by_contra hnot
  rw [← membership_eq_none] at hnot
  rw [hnot] at h
  cases h

theorem mem_liveKeys {k : ApiKey} : k ∈ db.liveKeys orgId userId ↔
    k ∈ db.keys ∧ k.orgId = orgId ∧ k.createdBy = userId ∧ k.revokedAt = none := by
  unfold liveKeys
  simp [List.mem_filter, and_assoc]

theorem noLiveKey_iff : db.NoLiveKey orgId userId ↔ db.liveKeys orgId userId = [] := by
  rw [List.eq_nil_iff_forall_not_mem]
  constructor
  · intro h k hk
    obtain ⟨hmem, horg, huser, hlive⟩ := mem_liveKeys.mp hk
    have hrevoked := h k hmem horg huser
    rw [hlive] at hrevoked
    cases hrevoked
  · intro h k hmem horg huser
    by_contra hlive
    exact h k (mem_liveKeys.mpr ⟨hmem, horg, huser, Option.not_isSome_iff_eq_none.mp hlive⟩)

end Directory

end Experiential.Identity
