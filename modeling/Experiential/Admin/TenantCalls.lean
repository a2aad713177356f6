import Experiential.Admin.BanTransactions
import Experiential.Admin.Operators

/-! # Keys, members and invitations of an organization

Key mints, key rotations, member adds and invitations, and the approval of join requests, call by call.
Three of them read the organization's ban in one call and insert in a later one; a rotation reads only
that the key it replaces is live. Each call is a transaction of its own, and a write waits for a row
that a ban in progress has written. -/

namespace Experiential.Admin

open Identity

/-! ### The tables -/

inductive JoinRequestStatus where
  | pending
  | approved
  | denied
deriving DecidableEq

def JoinRequestStatus.text : JoinRequestStatus → String
  | .pending => "pending"
  | .approved => "approved"
  | .denied => "denied"

/-- One `org_join_requests` row. -/
structure JoinRequest where
  id : String
  orgId : String
  userId : String
  status : JoinRequestStatus
deriving DecidableEq

structure Tenant where
  store : BanStore
  joinRequests : List JoinRequest

namespace Tenant
variable (s : Tenant)

abbrev db : AdminDb := s.store.db

/-- A transaction in progress has written the row. -/
def Locked (row : BanRow) : Prop := ∃ t ∈ s.store.txns, ∃ w ∈ t.writes, w.row = row

instance (row : BanRow) : Decidable (s.Locked row) :=
  inferInstanceAs (Decidable (∃ t ∈ s.store.txns, ∃ w ∈ t.writes, w.row = row))

/-- A statement outside the transactions. -/
def commit (db : AdminDb) : Tenant := { s with store := { s.store with db := db } }

end Tenant

namespace AdminDb
variable (db : AdminDb)

def IsOrgAdmin (orgId userId : String) : Prop :=
  ∃ m ∈ db.members, m.orgId = orgId ∧ m.userId = userId ∧ m.role = .admin

instance (orgId userId : String) : Decidable (db.IsOrgAdmin orgId userId) :=
  inferInstanceAs (Decidable (∃ m ∈ db.members, m.orgId = orgId ∧ m.userId = userId ∧ m.role = .admin))

/-- The foreign key and the primary key of `api_keys`. -/
def AdmitsKey (orgId id : String) : Prop := db.OrgExists orgId ∧ id ∉ db.apiKeys.map (·.id)

instance (orgId id : String) : Decidable (db.AdmitsKey orgId id) :=
  inferInstanceAs (Decidable (db.OrgExists orgId ∧ id ∉ db.apiKeys.map (·.id)))

def insertKey (k : ApiKey) : AdminDb := { db with apiKeys := db.apiKeys ++ [k] }

def revokeOneKey (id : String) (now : Int) (by_ : String) : AdminDb :=
  { db with apiKeys := db.apiKeys.map fun k =>
      if k.id = id then { k with revokedAt := some now, revokedBy := some by_ } else k }

def insertMember (m : OrganizationMember) : AdminDb := { db with members := db.members ++ [m] }

section invitations
variable (orgId email : String)

/-- The rows of the pending slot, which the unique index keeps to one. -/
def Occupies (i : OrgInvitation) : Prop :=
  i.orgId = orgId ∧ i.email = email ∧ i.acceptedAt = none ∧ i.revokedAt = none

instance (i : OrgInvitation) : Decidable (Occupies orgId email i) :=
  inferInstanceAs (Decidable (i.orgId = orgId ∧ i.email = email ∧ i.acceptedAt = none ∧ i.revokedAt = none))

/-- `loadPendingInvite` -/
def pendingInvite (now : Int) : Option OrgInvitation :=
  db.invitations.find? fun i => decide (Occupies orgId email i) && decide (now < i.expiresAt)

/-- An expired invitation, accepted ones apart. -/
def Expired (now : Int) (i : OrgInvitation) : Prop :=
  i.orgId = orgId ∧ i.email = email ∧ i.acceptedAt = none ∧ i.expiresAt ≤ now

instance (now : Int) (i : OrgInvitation) : Decidable (Expired orgId email now i) :=
  inferInstanceAs (Decidable (i.orgId = orgId ∧ i.email = email ∧ i.acceptedAt = none ∧ i.expiresAt ≤ now))

def deleteExpired (now : Int) : AdminDb :=
  { db with invitations := db.invitations.filter fun i => !decide (Expired orgId email now i) }

def insertInvitation (i : OrgInvitation) : AdminDb := { db with invitations := db.invitations ++ [i] }

def setInvitationRole (id : String) (role : OrgRole) : AdminDb :=
  { db with invitations := db.invitations.map fun i => if i.id = id then { i with role := role } else i }

end invitations

end AdminDb

inductive TenantAnswer where
  | apiKey (id : String)
  | membership (m : OrganizationMember)
  | invited (status : Nat) (invitationId : String) (role : OrgRole)
  | decision (requestId : String)
  | error (status : Nat) (message : String)
deriving DecidableEq

/-! ### Key mints -/

inductive MintPhase where
  | platformAdmin
  | organization
  | membership
  | role
  | ban
  | identity
  | insert
  | audit (keyId : String)
  | answered (answer : TenantAnswer)
deriving DecidableEq

structure KeyMint where
  actor : String
  orgId : String
  phase : MintPhase
deriving DecidableEq

namespace KeyMint

section calls
variable (e : Surroundings) (s : Tenant) (x : KeyMint)

def goto (phase : MintPhase) : KeyMint := { x with phase := phase }

def refuse (status : Nat) (message : String) : KeyMint := x.goto (.answered (.error status message))

def succeed : Tenant × KeyMint :=
  match x.phase with
  | .platformAdmin => (s, x.goto (if s.db.IsOperator x.actor then .organization else .membership))
  | .organization =>
      (s, if s.db.OrgExists x.orgId then x.goto .ban else x.refuse 404 "Organization not found.")
  | .membership =>
      (s, if s.db.Belongs x.orgId x.actor then x.goto .role else x.refuse 404 "Organization not found.")
  | .role =>
      (s, if s.db.IsOrgAdmin x.orgId x.actor then x.goto .ban
        else x.refuse 403 "Only organization admins can manage API keys.")
  | .ban =>
      (s, if s.db.OrgBanned x.orgId then
        x.refuse 403 "This organization is banned. New API keys cannot be created."
      else x.goto .identity)
  | .identity => (s, x.goto .insert)
  | .insert =>
      if s.db.AdmitsKey x.orgId e.newId then
        (s.commit (s.db.insertKey ⟨e.newId, x.orgId, x.actor, none, none⟩), x.goto (.audit e.newId))
      else (s, x.refuse 500 "")
  | .audit keyId => (s, x.goto (.answered (.apiKey keyId)))
  | .answered _ => (s, x)

def fail (error : String) : KeyMint :=
  match x.phase with
  | .audit keyId => x.goto (.answered (.apiKey keyId))
  | .answered _ => x
  | _ => x.refuse 500 error

end calls

end KeyMint

/-! ### Key rotations -/

inductive RotationPhase where
  | platformAdmin
  | key (platformAdmin : Bool)
  | role (key : ApiKey)
  | insert (key : ApiKey)
  | expire (replacement : String)
  | compensate (replacement error : String)
  | audit (replacement : String)
  | answered (answer : TenantAnswer)
deriving DecidableEq

structure KeyRotation where
  actor : String
  keyId : String
  phase : RotationPhase
deriving DecidableEq

namespace KeyRotation

section calls
variable (e : Surroundings) (s : Tenant) (x : KeyRotation)

def goto (phase : RotationPhase) : KeyRotation := { x with phase := phase }

def refuse (status : Nat) (message : String) : KeyRotation := x.goto (.answered (.error status message))

/-- The caller may rotate the key. -/
def admitted (key : ApiKey) : KeyRotation :=
  if key.revokedAt.isSome then x.refuse 409 "API key is already revoked; mint a new key instead of rotating."
  else x.goto (.insert key)

def succeed : Tenant × KeyRotation :=
  match x.phase with
  | .platformAdmin => (s, x.goto (.key (decide (s.db.IsOperator x.actor))))
  | .key platformAdmin =>
      -- another organization's key is invisible to the caller
      match s.db.apiKeys.find? fun k => decide (k.id = x.keyId) &&
          (platformAdmin || decide (s.db.Belongs k.orgId x.actor)) with
      | none => (s, x.refuse 404 s!"API key not found: {x.keyId}")
      | some key => (s, if platformAdmin then x.admitted key else x.goto (.role key))
  | .role key =>
      (s, if s.db.IsOrgAdmin key.orgId x.actor then x.admitted key
        else x.refuse 403 "Only organization admins can manage API keys.")
  | .insert key =>
      if s.db.AdmitsKey key.orgId e.newId then
        (s.commit (s.db.insertKey ⟨e.newId, key.orgId, x.actor, none, none⟩), x.goto (.expire e.newId))
      else (s, x.refuse 500 "Could not mint the replacement key.")
  | .expire replacement => (s, if s.Locked (.apiKey x.keyId) then x else x.goto (.audit replacement))
  | .compensate replacement error =>
      if s.Locked (.apiKey replacement) then (s, x)
      else (s.commit (s.db.revokeOneKey replacement e.now x.actor), x.refuse 500 error)
  | .audit replacement => (s, x.goto (.answered (.apiKey replacement)))
  | .answered _ => (s, x)

/-- A failure after the mint revokes the fresh key; a failing compensation is logged. -/
def fail (error : String) : KeyRotation :=
  match x.phase with
  | .expire replacement => x.goto (.compensate replacement error)
  | .compensate _ expireError => x.refuse 500 expireError
  | .audit replacement => x.goto (.answered (.apiKey replacement))
  | .answered _ => x
  | _ => x.refuse 500 error

end calls

end KeyRotation

/-! ### Members and invitations -/

inductive InvitePhase where
  | ban
  | lookup
  | addMember (userId : String)
  | cleanup
  | load
  | insert (now : Int)
  | reload (now : Int)
  | setRole (invitationId : String)
  | answered (answer : TenantAnswer)
deriving DecidableEq

/-- `addOrInviteMember` -/
structure MemberInvite where
  orgId : String
  email : String
  role : OrgRole
  phase : InvitePhase
deriving DecidableEq

namespace MemberInvite

section calls
variable (e : Surroundings) (s : Tenant) (x : MemberInvite)

def goto (phase : InvitePhase) : MemberInvite := { x with phase := phase }

def refuse (status : Nat) (message : String) : MemberInvite := x.goto (.answered (.error status message))

/-- A pending invitation that was there before takes the role just selected. -/
def recovered (i : OrgInvitation) : MemberInvite :=
  if i.role ≠ x.role then x.goto (.setRole i.id) else x.goto (.answered (.invited 200 i.id i.role))

/-- 14 days, the default of `expires_at`. -/
def invitationTtl : Int := 14 * 24 * 3600 * 1000000

def succeed : Tenant × MemberInvite :=
  match x.phase with
  | .ban =>
      (s, if s.db.OrgBanned x.orgId then
        x.refuse 403 "This organization is banned. Members cannot be added or invited."
      else x.goto .lookup)
  | .lookup =>
      (s, match s.db.accounts.find? fun a => decide (a.email = some x.email) with
        | some a => x.goto (.addMember a.id)
        | none => x.goto .cleanup)
  | .addMember userId =>
      if s.db.Belongs x.orgId userId then
        (s, x.refuse 409 "That account is already a member of the organization.")
      else if s.db.OrgExists x.orgId then
        (s.commit (s.db.insertMember ⟨x.orgId, userId, x.role⟩),
          x.goto (.answered (.membership ⟨x.orgId, userId, x.role⟩)))
      else (s, x.refuse 500 "")
  | .cleanup =>
      if ∃ i ∈ s.db.invitations, AdminDb.Expired x.orgId x.email e.now i ∧ s.Locked (.invitation i.id) then (s, x)
      else (s.commit (s.db.deleteExpired x.orgId x.email e.now), x.goto .load)
  | .load =>
      (s, match s.db.pendingInvite x.orgId x.email e.now with
        | some i => x.recovered i
        | none => x.goto (.insert e.now))
  | .insert now =>
      -- a slot that a ban is about to free is waited for, and one that stays is recovered
      if ∃ i ∈ s.db.invitations, AdminDb.Occupies x.orgId x.email i ∧ s.Locked (.invitation i.id) then (s, x)
      else if ∃ i ∈ s.db.invitations, AdminDb.Occupies x.orgId x.email i then (s, x.goto (.reload now))
      else if s.db.OrgExists x.orgId ∧ e.newId ∉ s.db.invitations.map (·.id) then
        (s.commit (s.db.insertInvitation
            ⟨e.newId, x.orgId, x.email, x.role, none, none, e.now + invitationTtl⟩),
          x.goto (.answered (.invited 201 e.newId x.role)))
      else (s, x.refuse 500 "")
  | .reload now =>
      (s, match s.db.pendingInvite x.orgId x.email now with
        | some i => x.recovered i
        | none => x.refuse 409 "The pending invite could not be recovered. Revoke it before retrying.")
  | .setRole id =>
      if s.Locked (.invitation id) then (s, x)
      else if id ∈ s.db.invitations.map (·.id) then
        (s.commit (s.db.setInvitationRole id x.role), x.goto (.answered (.invited 200 id x.role)))
      else (s, x.refuse 500 "")
  | .answered _ => (s, x)

def fail (error : String) : MemberInvite :=
  match x.phase with
  | .answered _ => x
  | _ => x.refuse 500 error

end calls

end MemberInvite

/-! ### Join requests -/

inductive ApprovalPhase where
  | platformAdmin
  | organization (platformAdmin : Bool)
  | role (banned : Bool)
  | request (banned : Bool)
  | decide
  | answered (answer : TenantAnswer)
deriving DecidableEq

structure JoinApproval where
  actor : String
  orgId : String
  requestId : String
  phase : ApprovalPhase
deriving DecidableEq

namespace Tenant
variable (s : Tenant)

def joinRequest (id : String) : Option JoinRequest := s.joinRequests.find? fun q => decide (q.id = id)

/-- `approve_org_join_request` of a request that is pending. -/
def approve (q : JoinRequest) : Tenant :=
  { s with
    joinRequests := s.joinRequests.map fun r => if r.id = q.id then { r with status := .approved } else r
    store := { s.store with
      db := if s.db.Belongs q.orgId q.userId then s.db else s.db.insertMember ⟨q.orgId, q.userId, .user⟩ } }

end Tenant

namespace JoinApproval

section calls
variable (s : Tenant) (x : JoinApproval)

def goto (phase : ApprovalPhase) : JoinApproval := { x with phase := phase }

def refuse (status : Nat) (message : String) : JoinApproval := x.goto (.answered (.error status message))

def alreadyDecided (status : JoinRequestStatus) : JoinApproval :=
  x.refuse 409 s!"Join request already {status.text}."

def succeed : Tenant × JoinApproval :=
  match x.phase with
  | .platformAdmin => (s, x.goto (.organization (decide (s.db.IsOperator x.actor))))
  | .organization platformAdmin =>
      (s, if s.db.OrgExists x.orgId then
        if platformAdmin then x.goto (.request (decide (s.db.OrgBanned x.orgId)))
        else x.goto (.role (decide (s.db.OrgBanned x.orgId)))
      else x.refuse 404 s!"Organization not found: {x.orgId}")
  | .role banned =>
      (s, if s.db.IsOrgAdmin x.orgId x.actor then x.goto (.request banned)
        else if s.db.Belongs x.orgId x.actor then x.refuse 403 "Role 'user' does not permit this action"
        else x.refuse 404 s!"Organization not found: {x.orgId}")
  | .request banned =>
      (s, match s.joinRequest x.requestId with
        | none => x.refuse 404 s!"Join request not found: {x.requestId}"
        | some q =>
            if q.orgId ≠ x.orgId then x.refuse 404 s!"Join request not found: {x.requestId}"
            else if q.status ≠ .pending then x.alreadyDecided q.status
            else if banned then x.refuse 409 "This organization is banned; join requests cannot be approved."
            else x.goto .decide)
  | .decide =>
      match s.joinRequest x.requestId with
      | none => (s, x.refuse 500 s!"join request vanished during approval: {x.requestId}")
      | some q =>
          match q.status with
          | .pending => (s.approve q, x.goto (.answered (.decision q.id)))
          | .approved => (s, x.goto (.answered (.decision q.id)))
          | .denied => (s, x.alreadyDecided .denied)
  | .answered _ => (s, x)

def fail (error : String) : JoinApproval :=
  match x.phase with
  | .answered _ => x
  | _ => x.refuse 500 error

end calls

end JoinApproval

/-! ### Side by side with the bans -/

inductive TenantRequest where
  | mint (actor orgId : String)
  | rotate (actor keyId : String)
  | invite (orgId email : String) (role : OrgRole)
  | approve (actor orgId requestId : String)
deriving DecidableEq

inductive TenantCall where
  | mint (x : KeyMint)
  | rotate (x : KeyRotation)
  | invite (x : MemberInvite)
  | approve (x : JoinApproval)
deriving DecidableEq

def TenantRequest.begin : TenantRequest → TenantCall
  | .mint actor orgId => .mint ⟨actor, orgId, .platformAdmin⟩
  | .rotate actor keyId => .rotate ⟨actor, keyId, .platformAdmin⟩
  | .invite orgId email role => .invite ⟨orgId, email, role, .ban⟩
  | .approve actor orgId requestId => .approve ⟨actor, orgId, requestId, .platformAdmin⟩

namespace TenantCall

def succeed (e : Surroundings) (s : Tenant) : TenantCall → Tenant × TenantCall
  | .mint x => ((x.succeed e s).1, .mint (x.succeed e s).2)
  | .rotate x => ((x.succeed e s).1, .rotate (x.succeed e s).2)
  | .invite x => ((x.succeed e s).1, .invite (x.succeed e s).2)
  | .approve x => ((x.succeed s).1, .approve (x.succeed s).2)

def fail (error : String) : TenantCall → TenantCall
  | .mint x => .mint (x.fail error)
  | .rotate x => .rotate (x.fail error)
  | .invite x => .invite (x.fail error)
  | .approve x => .approve (x.fail error)

def advance (i : OperatorOutcome) (s : Tenant) (x : TenantCall) : Tenant × TenantCall :=
  match i with
  | .succeeds e => x.succeed e s
  | .fails e applied error => (if applied then (x.succeed e s).1 else s, x.fail error)

end TenantCall

abbrev TenantStep := PoolStep TenantRequest OperatorOutcome BanEvent

/-- One call of an operation, or one event of a ban or an unban of the organization. -/
def tenantStep (orgId : String) : Pool Tenant TenantCall → TenantStep → Pool Tenant TenantCall :=
  poolStep TenantRequest.begin TenantCall.advance fun e s => { s with store := (banSystem orgId).step s.store e }

/-- No operation, ban or unban is in progress. -/
def tenantStart (db : AdminDb) (joinRequests : List JoinRequest) : Pool Tenant TenantCall :=
  ⟨⟨⟨db, []⟩, joinRequests⟩, []⟩

end Experiential.Admin
