import Mathlib.Data.String.Basic
import Experiential.Identity.Directory
import Experiential.Lib.Table
import Experiential.Lib.Checked
import Experiential.Lib.Run

/-! # Signups, members, keys and unlocks

An organization is created spend-locked; `spendUnlockedAt` is set once. Who founded it is not stored:
`unlockFounderSpend` takes the admin whose membership is the oldest, and so do the tear-down that the
first unlock sets off and `authUserVerification`. `unlockOrgSpend` sets the unlock of one organization
whoever its admins are.

The requests that found an organization, change who belongs to it, mint its keys and unlock its spend,
one at a time and in any order. Beside the tables the state keeps what the code does not: who founded
which organization, and whose inbox has been proven. -/

namespace Experiential.Spend

open Identity (OrgRole AuthUser)

/-! ### Tables -/

structure Organization where
  id : String
  spendUnlockedAt : Option Int
  bannedAt : Option Int
deriving DecidableEq

/-- One `organization_members` row; `createdAt` is when the transaction that inserted it began. -/
structure Member where
  orgId : String
  userId : String
  role : OrgRole
  createdAt : Int
deriving DecidableEq

structure ApiKey where
  id : String
  orgId : String
  createdBy : Option String
  revokedAt : Option Int
deriving DecidableEq

/-- One `org_invitations` row; without an organization it is for founding one. -/
structure Invitation where
  token : String
  orgId : Option String
  email : String
  role : OrgRole
  acceptedAt : Option Int
  revokedAt : Option Int
  expiresAt : Int
deriving DecidableEq

inductive SpendUnlockRequirement where
  | email
  | card
deriving DecidableEq

structure SpendDb where
  users : List AuthUser
  organizations : List Organization
  orgsKeyed : (organizations.map (·.id)).Nodup
  members : List Member
  keys : List ApiKey
  invitations : List Invitation
  /-- The users with a `platform_admins` row. -/
  operators : List String
  signupsEnabled : Bool
  spendUnlockRequirement : SpendUnlockRequirement
  /-- `explabs.seed_admin_email` and `explabs.demo_seed_email`, where the session sets them. -/
  seedAdminEmail : Option String
  demoSeedEmail : Option String

namespace SpendDb
variable (db : SpendDb)

/-! ### Who administers an organization -/

def IsOperator (userId : String) : Prop := userId ∈ db.operators

def OrgExists (orgId : String) : Prop := ∃ o ∈ db.organizations, o.id = orgId

/-- The organization is spend-locked. -/
def Locked (orgId : String) : Prop := ∃ o ∈ db.organizations, o.id = orgId ∧ o.spendUnlockedAt = none

def Unlocked (orgId : String) : Prop := ∃ o ∈ db.organizations, o.id = orgId ∧ o.spendUnlockedAt.isSome

def IsMember (orgId userId : String) : Prop := ∃ m ∈ db.members, m.orgId = orgId ∧ m.userId = userId

def IsOrgAdmin (orgId userId : String) : Prop :=
  ∃ m ∈ db.members, m.orgId = orgId ∧ m.userId = userId ∧ m.role = .admin

/-- The user has an admin membership whose `created_at` is the least one of the organization's admins. -/
def IsFoundingAdmin (orgId userId : String) : Prop :=
  ∃ m ∈ db.members, m.orgId = orgId ∧ m.userId = userId ∧ m.role = .admin ∧
    ∀ a ∈ db.members, a.orgId = orgId → a.role = .admin → m.createdAt ≤ a.createdAt

section decidable
variable (orgId userId : String)

instance : Decidable (db.IsOperator userId) := inferInstanceAs (Decidable (userId ∈ db.operators))

instance : Decidable (db.OrgExists orgId) := inferInstanceAs (Decidable (∃ o ∈ db.organizations, o.id = orgId))

instance : Decidable (db.Locked orgId) :=
  inferInstanceAs (Decidable (∃ o ∈ db.organizations, o.id = orgId ∧ o.spendUnlockedAt = none))

instance : Decidable (db.Unlocked orgId) :=
  inferInstanceAs (Decidable (∃ o ∈ db.organizations, o.id = orgId ∧ o.spendUnlockedAt.isSome))

instance : Decidable (db.IsMember orgId userId) :=
  inferInstanceAs (Decidable (∃ m ∈ db.members, m.orgId = orgId ∧ m.userId = userId))

instance : Decidable (db.IsOrgAdmin orgId userId) :=
  inferInstanceAs (Decidable (∃ m ∈ db.members, m.orgId = orgId ∧ m.userId = userId ∧ m.role = .admin))

instance : Decidable (db.IsFoundingAdmin orgId userId) :=
  inferInstanceAs (Decidable (∃ m ∈ db.members, m.orgId = orgId ∧ m.userId = userId ∧ m.role = .admin ∧
    ∀ a ∈ db.members, a.orgId = orgId → a.role = .admin → m.createdAt ≤ a.createdAt))

end decidable

/-- `order by created_at, user_id` -/
def joinedBefore (m m' : Member) : Prop :=
  m.createdAt < m'.createdAt ∨ m.createdAt = m'.createdAt ∧ m.userId ≤ m'.userId

instance : DecidableRel joinedBefore := fun m m' =>
  inferInstanceAs (Decidable (m.createdAt < m'.createdAt ∨ m.createdAt = m'.createdAt ∧ m.userId ≤ m'.userId))

def admins (orgId : String) : List Member :=
  db.members.filter fun m => decide (m.orgId = orgId) && decide (m.role = .admin)

/-- `v_founder` of the tear-down. -/
def earliestAdmin (orgId : String) : Option Member := ((db.admins orgId).insertionSort joinedBefore).head?

/-- `isLastOrgAdmin` -/
def isLastOrgAdmin (orgId userId : String) : Bool := decide ((db.admins orgId).map (·.userId) = [userId])

/-! ### The first unlock -/

/-- An admin of the organization is a seed or demo account. -/
def Seeded (orgId : String) : Prop :=
  ∃ m ∈ db.members, m.orgId = orgId ∧ m.role = .admin ∧
    ∃ u ∈ db.users, u.id = m.userId ∧ (some u.email = db.seedAdminEmail ∨ some u.email = db.demoSeedEmail)

instance (orgId : String) : Decidable (db.Seeded orgId) :=
  inferInstanceAs (Decidable (∃ m ∈ db.members, m.orgId = orgId ∧ m.role = .admin ∧
    ∃ u ∈ db.users, u.id = m.userId ∧ (some u.email = db.seedAdminEmail ∨ some u.email = db.demoSeedEmail)))

/-- A live key of the organization that somebody other than the founder created, who is a member. -/
def TornDown (orgId founder : String) (k : ApiKey) : Prop :=
  k.orgId = orgId ∧ k.revokedAt = none ∧
    ∃ m ∈ db.members, m.orgId = orgId ∧ m.userId ≠ founder ∧ k.createdBy = some m.userId

instance (orgId founder : String) (k : ApiKey) : Decidable (db.TornDown orgId founder k) :=
  inferInstanceAs (Decidable (k.orgId = orgId ∧ k.revokedAt = none ∧
    ∃ m ∈ db.members, m.orgId = orgId ∧ m.userId ≠ founder ∧ k.createdBy = some m.userId))

/-- `rotate_credentials_on_spend_unlock` for an organization that has just been unlocked. Without an
admin there is no founder, and no row differs from none. -/
def rotateCredentialsOnSpendUnlock (now : Int) (orgId : String) : SpendDb :=
  if db.Seeded orgId then db
  else match db.earliestAdmin orgId with
    | none => db
    | some founder => { db with
        keys := db.keys.map fun k =>
          if db.TornDown orgId founder.userId k then { k with revokedAt := some now } else k
        members := db.members.filter fun m => !(decide (m.orgId = orgId) && decide (m.userId ≠ founder.userId)) }

/-- The rows that an `update` unlocks. -/
def setSpendUnlocked (now : Int) (p : Organization → Bool) : SpendDb :=
  { db with
    organizations := db.organizations.map fun o =>
      if o.spendUnlockedAt.isNone && p o then { o with spendUnlockedAt := some now } else o
    orgsKeyed := by
      rw [map_update_key]
      · exact db.orgsKeyed
      · intro _ _
        rfl }

/-- The update, and the trigger for every row that it changed. -/
def unlock (now : Int) (p : Organization → Bool) : SpendDb :=
  ((db.organizations.filter fun o => o.spendUnlockedAt.isNone && p o).map (·.id)).foldl
    (fun d orgId => d.rotateCredentialsOnSpendUnlock now orgId) (db.setSpendUnlocked now p)

/-- `unlock_founder_spend` -/
def unlockFounderSpend (now : Int) (userId : String) : SpendDb :=
  db.unlock now fun o => decide (db.IsFoundingAdmin o.id userId)

/-- `unlock_org_spend` -/
def unlockOrgSpend (now : Int) (orgId : String) : SpendDb := db.unlock now fun o => decide (o.id = orgId)

/-- `inbox_proven` of `auth_user_verification`. -/
def InboxProven (userId : String) : Prop :=
  ∃ o ∈ db.organizations, o.spendUnlockedAt.isSome ∧ db.IsFoundingAdmin o.id userId

instance (userId : String) : Decidable (db.InboxProven userId) :=
  inferInstanceAs (Decidable (∃ o ∈ db.organizations, o.spendUnlockedAt.isSome ∧ db.IsFoundingAdmin o.id userId))

/-- `auth_user_verification` for a caller that may read it. -/
def authUserVerification (userId : String) : Option (String × Bool) :=
  (db.users.find? fun u => decide (u.id = userId)).map fun u => (u.email, decide (db.InboxProven userId))

end SpendDb

/-- The tables, and the history that no table holds. -/
structure SpendState where
  db : SpendDb
  /-- Organizations with the user whose signup created them. -/
  founders : List (String × String)
  /-- The users who have proved control of their inbox. -/
  proofs : List String
  /-- When the last request's transaction began. -/
  clock : Int

/-- An HTTP status and an error text. -/
abbrev Refusal := ℕ × String

/-! ### Signups -/

namespace SpendState
variable (s : SpendState) (now : Int) (newId : String)

/-- A new organization with its first admin, where the id is new. -/
def createOrg (userId : String) (h : newId ∉ s.db.organizations.map (·.id)) : SpendState :=
  { s with
    db := { s.db with
      organizations := s.db.organizations ++ [⟨newId, none, none⟩]
      orgsKeyed := by
        rw [List.map_append, List.map_singleton, List.nodup_append]
        refine ⟨s.db.orgsKeyed, List.nodup_singleton _, ?_⟩
        intro a ha b hb hab
        rw [List.mem_singleton] at hb
        rw [hab, hb] at ha
        exact h ha
      members := s.db.members ++ [⟨newId, userId, .admin, now⟩] }
    founders := s.founders ++ [(newId, userId)] }

def foundOrg (userId : String) : Except Refusal SpendState :=
  if h : newId ∉ s.db.organizations.map (·.id) then .ok (s.createOrg now newId userId h)
  else .error (500, "duplicate key value violates unique constraint")

def insertMember (m : Member) : SpendState := { s with db := { s.db with members := s.db.members ++ [m] } }

def acceptInvitation (token : String) : SpendState :=
  { s with db := { s.db with invitations := s.db.invitations.map fun i =>
      if i.token = token then { i with acceptedAt := some now } else i } }

/-- The invitation that a signup's token names; tokens are unique. -/
def liveInvitation (token : String) : Option Invitation :=
  s.db.invitations.find? fun i =>
    decide (i.token = token) && i.acceptedAt.isNone && i.revokedAt.isNone && decide (now < i.expiresAt)

/-- What the invitation provides: a seat in its organization, or an organization of its own. -/
def applyInvitation (i : Invitation) (userId : String) : Except Refusal SpendState :=
  match i.orgId with
  | some orgId => do
      ensure (s.db.OrgExists orgId) (500, "insert or update violates foreign key constraint")
      return if s.db.IsMember orgId userId then s else s.insertMember ⟨orgId, userId, i.role, now⟩
  | none => s.foundOrg now newId userId

/-- `provision_signup_org` -/
def provisionSignupOrg (user : AuthUser) (inviteToken : Option String) (provisionedVia : Bool) :
    Except Refusal SpendState :=
  if s.db.seedAdminEmail = some user.email then .ok s
  else if provisionedVia then .ok s
  else match inviteToken.bind (s.liveInvitation now) with
    | some i => do
        let s ← s.applyInvitation now newId i user.id
        return s.acceptInvitation now i.token
    | none => if s.db.signupsEnabled then s.foundOrg now newId user.id else .ok s

/-- The insert into `auth.users`, and its trigger. -/
def signUp (user : AuthUser) (inviteToken : Option String) (provisionedVia : Bool) : Except Refusal SpendState := do
  ensure (user.id ∉ s.db.users.map (·.id) ∧ user.email ∉ s.db.users.map (·.email))
    (422, "A user with this email address has already been registered")
  { s with db := { s.db with users := s.db.users ++ [user] } }.provisionSignupOrg now newId user inviteToken
    provisionedVia

/-! ### Members -/

/-- `requireOrgManager`; the organizations of others are unknown to a user. -/
def requireOrgManager (actor orgId : String) : Except Refusal Unit := do
  ensure (s.db.OrgExists orgId ∧ (s.db.IsOperator actor ∨ s.db.IsMember orgId actor))
    (404, s!"Organization not found: {orgId}")
  ensure (s.db.IsOperator actor ∨ s.db.IsOrgAdmin orgId actor) (404, "Not found")

/-- `PATCH` of a member; `none` is a role that is not one of `INVITE_ROLES`. -/
def setRole (actor orgId userId : String) (role : Option OrgRole) : Except Refusal SpendState := do
  s.requireOrgManager actor orgId
  let role ← require role (400, "role must be one of: admin, user.")
  ensure (role = .admin ∨ s.db.isLastOrgAdmin orgId userId = false) (409, "The organization needs at least one admin.")
  ensure (s.db.IsMember orgId userId) (404, "Membership not found.")
  return { s with db := { s.db with members := s.db.members.map fun m =>
    if m.orgId = orgId ∧ m.userId = userId then { m with role := role } else m } }

/-- `DELETE` of a member. -/
def removeMember (actor orgId userId : String) : Except Refusal SpendState := do
  s.requireOrgManager actor orgId
  ensure (s.db.isLastOrgAdmin orgId userId = false) (409, "The organization needs at least one admin.")
  ensure (s.db.IsMember orgId userId) (404, "Membership not found.")
  return { s with db := { s.db with members := s.db.members.filter fun m =>
    !(decide (m.orgId = orgId) && decide (m.userId = userId)) } }

/-- 14 days, the default of `expires_at`. -/
def invitationTtl : Int := 14 * 24 * 3600 * 1000000

section invitations
variable (orgId email : String) (role : OrgRole)

/-- `loadPendingInvite` -/
def pendingInvite : Option Invitation :=
  s.db.invitations.find? fun i => decide (i.orgId = some orgId) && decide (i.email = email) && i.acceptedAt.isNone &&
    i.revokedAt.isNone && decide (now < i.expiresAt)

/-- An expired invitation is deleted to free its slot. -/
def cleanupInvites : SpendState :=
  { s with db := { s.db with invitations := s.db.invitations.filter fun i =>
      !(decide (i.orgId = some orgId) && decide (i.email = email) && i.acceptedAt.isNone &&
        decide (i.expiresAt ≤ now)) } }

def setInviteRole (token : String) : SpendState :=
  { s with db := { s.db with invitations := s.db.invitations.map fun i =>
      if i.token = token then { i with role := role } else i } }

/-- The invitation of somebody without an account: a pending one takes the role just selected. -/
def inviteMember : Except Refusal SpendState :=
  match s.pendingInvite now orgId email with
  | some i => .ok (if i.role ≠ role then s.setInviteRole role i.token else s)
  | none => do
      ensure (newId ∉ s.db.invitations.map (·.token)) (500, "duplicate key value violates unique constraint")
      return { s with db := { s.db with
        invitations := s.db.invitations ++ [⟨newId, some orgId, email, role, none, none, now + invitationTtl⟩] } }

/-- `addOrInviteMember` -/
def addOrInviteMember : Except Refusal SpendState := do
  ensure (¬ ∃ o ∈ s.db.organizations, o.id = orgId ∧ o.bannedAt.isSome)
    (403, "This organization is banned. Members cannot be added or invited.")
  match s.db.users.find? fun u => decide (u.email = email) with
  | some user => do
      ensure (¬ s.db.IsMember orgId user.id) (409, "That account is already a member of the organization.")
      ensure (s.db.OrgExists orgId) (500, "insert or update violates foreign key constraint")
      return s.insertMember ⟨orgId, user.id, role, now⟩
  | none => (s.cleanupInvites now orgId email).inviteMember now newId orgId email role

/-- `POST` of a member. -/
def addMember (actor : String) : Except Refusal SpendState := do
  s.requireOrgManager actor orgId
  s.addOrInviteMember now newId orgId email role

end invitations

/-! ### Keys -/

def insertKey (k : ApiKey) : Except Refusal SpendState := do
  ensure (k.id ∉ s.db.keys.map (·.id)) (500, "duplicate key value violates unique constraint")
  return { s with db := { s.db with keys := s.db.keys ++ [k] } }

/-- `POST /api/keys` -/
def mintKey (actor orgId : String) : Except Refusal SpendState := do
  if s.db.IsOperator actor then ensure (s.db.OrgExists orgId) (404, "Organization not found.")
  else do
    ensure (s.db.IsMember orgId actor) (404, "Organization not found.")
    ensure (s.db.IsOrgAdmin orgId actor) (403, "Only organization admins can manage API keys.")
  ensure (¬ ∃ o ∈ s.db.organizations, o.id = orgId ∧ o.bannedAt.isSome)
    (403, "This organization is banned. New API keys cannot be created.")
  s.insertKey ⟨newId, orgId, some actor, none⟩

/-- `POST /api/keys/{keyId}/rotate`; another organization's key is invisible to the caller. -/
def rotateKey (actor keyId : String) : Except Refusal SpendState := do
  let oldKey ← require (s.db.keys.find? fun k => decide (k.id = keyId) &&
    (decide (s.db.IsOperator actor) || decide (s.db.IsMember k.orgId actor))) (404, s!"API key not found: {keyId}")
  ensure (s.db.IsOperator actor ∨ s.db.IsOrgAdmin oldKey.orgId actor)
    (403, "Only organization admins can manage API keys.")
  ensure (oldKey.revokedAt = none) (409, "API key is already revoked; mint a new key instead of rotating.")
  s.insertKey ⟨newId, oldKey.orgId, some actor, none⟩

/-! ### Unlocks -/

/-- `unlockSpendOnInboxProof`: the user has just proved control of their inbox. -/
def proveInbox (userId : String) : SpendState :=
  { s with
    db := if s.db.spendUnlockRequirement = .email then s.db.unlockFounderSpend now userId else s.db
    proofs := userId :: s.proofs }

/-- `unlockSpendOnCardSaved` -/
def saveCard (orgId : String) : SpendState :=
  { s with db := if s.db.spendUnlockRequirement = .card then s.db.unlockOrgSpend now orgId else s.db }

end SpendState

/-! ### Runs -/

inductive SpendCall where
  | signUp (user : AuthUser) (inviteToken : Option String) (provisionedVia : Bool)
  | addMember (actor orgId email : String) (role : OrgRole)
  | setRole (actor orgId userId : String) (role : Option OrgRole)
  | removeMember (actor orgId userId : String)
  | mintKey (actor orgId : String)
  | rotateKey (actor keyId : String)
  | proveInbox (userId : String)
  | saveCard (orgId : String)
  | setRequirement (requirement : SpendUnlockRequirement)
deriving DecidableEq

/-- A request, when its transaction begins, and the id that it draws. -/
structure SpendRequest where
  now : Int
  newId : String
  call : SpendCall
deriving DecidableEq

namespace SpendState

def execute (s : SpendState) (r : SpendRequest) : Except Refusal SpendState :=
  match r.call with
  | .signUp user inviteToken provisionedVia => s.signUp r.now r.newId user inviteToken provisionedVia
  | .addMember actor orgId email role => s.addMember r.now r.newId orgId email role actor
  | .setRole actor orgId userId role => s.setRole actor orgId userId role
  | .removeMember actor orgId userId => s.removeMember actor orgId userId
  | .mintKey actor orgId => s.mintKey r.newId actor orgId
  | .rotateKey actor keyId => s.rotateKey r.newId actor keyId
  | .proveInbox userId => .ok (s.proveInbox r.now userId)
  | .saveCard orgId => .ok (s.saveCard r.now orgId)
  | .setRequirement requirement => .ok { s with db := { s.db with spendUnlockRequirement := requirement } }

end SpendState

/-- A refused request changes nothing. -/
def spendStep (s : SpendState) (r : SpendRequest) : SpendState :=
  { orStay SpendState.execute s r with clock := r.now }

/-- No organization yet. -/
def SpendState.start (operators : List String) (signupsEnabled : Bool) (requirement : SpendUnlockRequirement)
    (seedAdminEmail demoSeedEmail : Option String) : SpendState where
  db := ⟨[], [], List.nodup_nil, [], [], [], operators, signupsEnabled, requirement, seedAdminEmail, demoSeedEmail⟩
  founders := []
  proofs := []
  clock := 0

end Experiential.Spend
