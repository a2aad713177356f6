import Experiential.Lib.Pool
import Experiential.Identity.Directory

/-! # The deprovisioning sweep

`deprovision_user_from_org` and the SCIM routes over it, call by call. A request is where it
is in its sequence of database calls; the next call succeeds or fails, and a failure ends the
request, except for the audit event, whose failure is logged and ignored. Any number of
requests run side by side, and members create keys between any two calls. -/

namespace Experiential.Identity

/-- Who acts, as far as the sweep reads it. -/
structure RequestActor where
  userId : String
  apiKeyOrgId : Option String
deriving DecidableEq

/-- `_scim_actor`. -/
def scimActor (orgId : String) : RequestActor := ⟨"scim:" ++ orgId, some orgId⟩

/-- One row of `org_members_with_emails`. -/
structure RosterRow where
  userId : String
  email : Option String
  role : OrgRole
deriving DecidableEq

/-- The SCIM `User` of an answer. -/
structure UserResource where
  userId : String
  userName : String
  role : OrgRole
  active : Bool
deriving DecidableEq

inductive OffboardingEntry where
  | direct (actor : Option RequestActor)
  | put
  | patch
  | delete
deriving DecidableEq

inductive OffboardingAnswer where
  | report (r : DeprovisionReport)
  | resource (u : UserResource)
  | noContent
  | error (status : Nat) (detail : String)
deriving DecidableEq

/-- The next call of a request, with what it has read so far. -/
inductive OffboardingPhase where
  | roster
  | membership
  | admins (role : OrgRole)
  | removal (role : OrgRole)
  | listing (role : OrgRole)
  | revoking (role : OrgRole) (keyIds : List String)
  | provenance (role : OrgRole) (revoked : List String)
  | remaining (role : OrgRole) (revoked : List String) (owned : Bool)
  | audit (report : DeprovisionReport)
  | scimAudit (report : DeprovisionReport)
  | answered (answer : OffboardingAnswer)
deriving DecidableEq

structure OffboardingRequest where
  entry : OffboardingEntry
  orgId : String
  userId : String
  keyPolicy : KeyPolicy
deriving DecidableEq

structure Offboarding extends OffboardingRequest where
  /-- The member the SCIM route found. -/
  rosterRow : Option RosterRow
  phase : OffboardingPhase
deriving DecidableEq

namespace OffboardingRequest

/-- Every route starts with the roster; the sweep itself with the membership. -/
def begin (r : OffboardingRequest) : Offboarding where
  toOffboardingRequest := r
  rosterRow := none
  phase := match r.entry with
    | .direct _ => .membership
    | _ => .roster

def actor (r : OffboardingRequest) : Option RequestActor :=
  match r.entry with
  | .direct actor => actor
  | _ => some (scimActor r.orgId)

/-- The human who is named as the revoker. -/
def revokedBy (r : OffboardingRequest) : Option String :=
  r.actor.bind fun actor => if actor.apiKeyOrgId.isNone then some actor.userId else none

end OffboardingRequest

/-- `_PENDING_GLOBAL_ACTIONS`. -/
def pendingGlobalActions : List String := ["gotrue_session_expiry", "user_connections_revocation"]

/-- The tables, and the memberships that a sweep has removed. -/
structure SweepState where
  db : Directory
  removed : List (String × String)

section calls
variable (now : Int) (s : SweepState) (x : Offboarding)

def Offboarding.to (phase : OffboardingPhase) : Offboarding := { x with phase := phase }

/-- `max_rows`: no answer of the API has more rows. -/
def maxRows : ℕ := 1000

/-- `_roster_member`: the roster is read without a range, and cut off behind its oldest rows. -/
def rosterMember (db : Directory) (orgId userId : String) : Option RosterRow :=
  (((db.members.filter fun m => decide (m.orgId = orgId)).take maxRows).find? fun m =>
    decide (m.userId = userId)).map fun m =>
    ⟨m.userId, (db.users.find? fun u => decide (u.id = m.userId)).map (·.email), m.role⟩

/-- `_is_last_admin`. -/
def isLastAdmin (db : Directory) (orgId userId : String) : Bool :=
  decide ((db.members.filter fun m => decide (m.orgId = orgId) && decide (m.role = .admin)).map (·.userId) =
    [userId])

/-- The `delete` of the membership. -/
def removeMembership (db : Directory) (orgId userId : String) : Directory :=
  { db with members := db.members.filter fun m => !(decide (m.orgId = orgId) && decide (m.userId = userId)) }

/-- The `update` of the keys. -/
def revokeKeys (db : Directory) (keyIds : List String) (revokedBy : Option String) : Directory :=
  { db with
    keys := db.keys.map fun k =>
      if k.id ∈ keyIds then { k with revokedAt := some now, revokedBy := revokedBy } else k }

/-- The report of a sweep that has counted the memberships left. -/
def Offboarding.report (role : OrgRole) (revoked : List String) (owned : Bool) (remaining : Nat) :
    DeprovisionReport where
  orgId := x.orgId
  userId := x.userId
  keyPolicy := x.keyPolicy
  membershipRemoved := true
  removedRole := role
  keysRevoked := revoked
  identityOwnedByOrg := owned
  remainingMemberships := remaining
  globalCleanupDue := owned || remaining == 0
  sessionsExpired := false
  pending := if owned || remaining == 0 then pendingGlobalActions else []

/-- What the route answers once the sweep has returned its report. -/
def Offboarding.finish (report : DeprovisionReport) : OffboardingAnswer :=
  match x.entry with
  | .direct _ => .report report
  | .delete => .noContent
  | _ => .resource {
      userId := x.userId
      userName := (x.rosterRow.bind (·.email)).getD ""
      role := (x.rosterRow.map (·.role)).getD report.removedRole
      active := false }

/-- After the sweep's own audit event. -/
def Offboarding.swept (report : DeprovisionReport) : Offboarding :=
  match x.entry with
  | .direct _ => x.to (.answered (x.finish report))
  | _ => x.to (.scimAudit report)

/-- The request's next call succeeds. -/
def Offboarding.succeed : SweepState × Offboarding :=
  match x.phase with
  | .roster =>
      match rosterMember s.db x.orgId x.userId with
      | none => (s, x.to (.answered (.error 404 s!"User not found: {x.userId}")))
      | some row => (s, { x with rosterRow := some row, phase := .membership })
  | .membership =>
      match s.db.membership x.orgId x.userId with
      | none => (s, x.to (.answered (.error 404
          s!"User {x.userId} is not a member of organization {x.orgId}")))
      | some m => (s, x.to (if m.role = .admin then .admins m.role else .removal m.role))
  | .admins role =>
      if isLastAdmin s.db x.orgId x.userId then
        (s, x.to (.answered (.error 409 "The organization needs at least one admin.")))
      else (s, x.to (.removal role))
  | .removal role =>
      ({ db := removeMembership s.db x.orgId x.userId
         removed := if (s.db.membership x.orgId x.userId).isSome then (x.orgId, x.userId) :: s.removed
          else s.removed },
        x.to (match x.keyPolicy with
          | .revoke => .listing role
          | .keep => .provenance role []))
  | .listing role =>
      -- the listing has no range either
      match ((s.db.liveKeys x.orgId x.userId).take maxRows).map (·.id) with
      | [] => (s, x.to (.provenance role []))
      | keyIds => (s, x.to (.revoking role keyIds))
  | .revoking role keyIds =>
      ({ s with db := revokeKeys now s.db keyIds x.revokedBy }, x.to (.provenance role keyIds))
  | .provenance role revoked =>
      let owned := (s.db.provenanceOf x.userId).any fun p => decide (p.provisionedByOrgId = x.orgId)
      (s, x.to (.remaining role revoked owned))
  | .remaining role revoked owned =>
      let remaining := (s.db.members.filter fun m => decide (m.userId = x.userId)).length
      (s, x.to (.audit (x.report role revoked owned remaining)))
  | .audit report =>
      ({ s with db.audit := s.db.audit ++ [.membersDeprovision report.removedRole report] },
        x.swept report)
  | .scimAudit report =>
      ({ s with db.audit := s.db.audit ++ [.scimUserDeprovision report] },
        x.to (.answered (x.finish report)))
  | .answered _ => (s, x)

/-- The request's next call fails: the request ends, unless the call was an audit event. -/
def Offboarding.fail : Offboarding :=
  match x.phase with
  | .audit report => x.swept report
  | .scimAudit report => x.to (.answered (x.finish report))
  | .answered _ => x
  | _ => x.to (.answered (.error 500 ""))

end calls

/-- The outcome of a call. -/
inductive CallOutcome where
  | succeeds (now : Int)
  | fails
deriving DecidableEq

def Offboarding.advance (i : CallOutcome) (s : SweepState) (x : Offboarding) : SweepState × Offboarding :=
  match i with
  | .succeeds now => x.succeed now s
  | .fails => (s, x.fail)

/-- A user creates a key of the organization. -/
structure KeyCreation where
  id : String
  orgId : String
  userId : String
deriving DecidableEq

/-- Only a member creates keys; the id is the database's, and new. -/
def KeyCreation.apply (c : KeyCreation) (s : SweepState) : SweepState :=
  if (s.db.membership c.orgId c.userId).isSome ∧ c.id ∉ s.db.keys.map (·.id) then
    { s with db.keys := s.db.keys ++ [⟨c.id, c.orgId, c.userId, none, none⟩] }
  else s

abbrev OffboardingStep := PoolStep OffboardingRequest CallOutcome KeyCreation

def offboardingStep : Pool SweepState Offboarding → OffboardingStep → Pool SweepState Offboarding :=
  poolStep OffboardingRequest.begin Offboarding.advance KeyCreation.apply

/-- No request has been made. -/
def offboardingStart (db : Directory) : Pool SweepState Offboarding := ⟨⟨db, []⟩, []⟩

end Experiential.Identity
