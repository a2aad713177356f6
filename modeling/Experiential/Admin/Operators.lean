import Experiential.Lib.Pool
import Experiential.Admin.Tables

/-! # Site-admin grants, revocations and user bans

The routes of platform operators, call by call. Each request first reads `platform_admins` for its
own user, and makes its other calls later; any number of requests run side by side. A call may fail,
before or after it was carried out, and then the request ends, except that the failure of an audit
event is logged and that of a mint is reported. -/

namespace Experiential.Admin

open Identity

/-! ### The routes -/

/-- One call of the site-admin or the user-ban route; `none` is an unusable reason. -/
inductive OperatorRequest where
  | grant
  | revoke
  | ban (reason : Option BanReason)
  | unban
deriving DecidableEq

inductive OperatorAnswer where
  /-- The grant stands; the minted key, or why there is none. -/
  | siteAdmin (userId : String) (keyName mintError : Option String)
  | banned (userId : String)
  | noContent
  | error (status : Nat) (message : String)
deriving DecidableEq

/-- The next call of a request, with what it has read so far. -/
inductive OperatorPhase where
  | authorize
  | account
  | banLookup (email : Option String)
  | grantRow (email : Option String)
  | grantAudit (email : Option String)
  | mint (email : String)
  | grantLookup
  | revokeKeys
  | deleteRow
  | revokeAudit
  | recordBan (reason : BanReason)
  | clearBan
  | answered (answer : OperatorAnswer)
deriving DecidableEq

structure OperatorCall where
  request : OperatorRequest
  /-- The session's user. -/
  actor : String
  /-- The user the request is about. -/
  userId : String
  phase : OperatorPhase
deriving DecidableEq

/-- What a call finds besides the tables: the clock, the date, the id of a new row. -/
structure Surroundings where
  now : Int
  today : String
  newId : String
deriving DecidableEq

namespace OperatorCall

section calls
variable (e : Surroundings) (db : AdminDb) (x : OperatorCall)

def goto (phase : OperatorPhase) : OperatorCall := { x with phase := phase }

def refuse (status : Nat) (message : String) : OperatorCall := x.goto (.answered (.error status message))

/-- The first call after the operator check. -/
def authorized : OperatorCall :=
  match x.request with
  | .grant => x.goto .account
  | .revoke =>
      if x.actor = x.userId then x.refuse 409 "You cannot revoke your own site-admin access."
      else x.goto .grantLookup
  | .ban none => if x.actor = x.userId then x.refuse 409 "You cannot ban your own account."
      else x.refuse 400 "A ban reason is required (at most 500 characters)."
  | .ban (some _) => if x.actor = x.userId then x.refuse 409 "You cannot ban your own account."
      else x.goto .account
  | .unban => x.goto .account

/-- The first call after the account was found. -/
def found (email : Option String) : OperatorCall :=
  match x.request with
  | .grant => x.goto (.banLookup email)
  | .ban (some reason) => x.goto (.recordBan reason)
  | .unban => x.goto .clearBan
  | .ban none | .revoke => x

/-- After the audit event of a grant. -/
def granted (email : Option String) : OperatorCall :=
  match email with
  | none => x.goto (.answered (.siteAdmin x.userId none
      (some "The account has no email, so no superadmin key was minted.")))
  | some email => x.goto (.mint email)

/-- The request's next call is carried out. -/
def succeed : AdminDb × OperatorCall :=
  match x.phase with
  | .authorize => (db, if db.IsOperator x.actor then x.authorized else x.refuse 404 "Not found")
  | .account =>
      match db.accounts.find? fun a => decide (a.id = x.userId) with
      | none => (db, x.refuse 404 s!"User not found: {x.userId}")
      | some a => (db, x.found a.email)
  | .banLookup email =>
      (db, if db.IsBanned x.userId then
        x.refuse 409 "This account is banned. Unban it before granting experiential-admin status."
      else x.goto (.grantRow email))
  | .grantRow email =>
      -- on conflict nothing is written, and no key is minted
      if db.IsOperator x.userId then (db, x.goto (.answered (.siteAdmin x.userId none none)))
      else ({ db with platformAdmins := db.platformAdmins ++ [⟨x.userId, some x.actor⟩] },
        x.goto (.grantAudit email))
  | .grantAudit email => (db, x.granted email)
  | .mint email =>
      if e.newId ∈ db.superadminKeys.map (·.id) then
        (db, x.goto (.answered (.siteAdmin x.userId none (some "duplicate key"))))
      else ({ db with superadminKeys :=
            db.superadminKeys ++ [⟨e.newId, x.userId, email, "granted " ++ e.today, none⟩] },
        x.goto (.answered (.siteAdmin x.userId (some ("granted " ++ e.today)) none)))
  | .grantLookup =>
      (db, if db.IsOperator x.userId then x.goto .revokeKeys
        else x.refuse 404 "That account is not a site admin.")
  | .revokeKeys =>
      ({ db with superadminKeys := AdminDb.revokeSuperadminKeys e.now x.userId db.superadminKeys },
        x.goto .deleteRow)
  | .deleteRow =>
      ({ db with platformAdmins := db.platformAdmins.filter fun a => decide (a.userId ≠ x.userId) },
        x.goto .revokeAudit)
  | .revokeAudit => (db, x.goto (.answered .noContent))
  | .recordBan reason =>
      (db.recordUserBan e.now x.userId (some x.actor) reason, x.goto (.answered (.banned x.userId)))
  | .clearBan => (db.clearUserBan x.userId, x.goto (.answered .noContent))
  | .answered _ => (db, x)

end calls

/-- The request's next call fails. -/
def fail (error : String) (x : OperatorCall) : OperatorCall :=
  match x.phase with
  | .account => x.refuse 404 s!"User not found: {x.userId}"
  | .grantAudit email => x.granted email
  | .mint _ => x.goto (.answered (.siteAdmin x.userId none
      (some s!"The grant succeeded but no key was minted ({error}). Revoke and re-grant to mint one.")))
  | .revokeKeys => x.refuse 500 s!"Nothing was revoked ({error}). The account is still an admin; retry."
  | .deleteRow => x.refuse 500 s!"The keys were revoked but the admin row remains ({error}). Retry."
  | .revokeAudit => x.goto (.answered .noContent)
  | .answered _ => x
  | _ => x.refuse 500 error

end OperatorCall

/-- A call is carried out and answered, or fails, perhaps after it was carried out. -/
inductive OperatorOutcome where
  | succeeds (e : Surroundings)
  | fails (e : Surroundings) (applied : Bool) (error : String)
deriving DecidableEq

def OperatorCall.advance (i : OperatorOutcome) (db : AdminDb) (x : OperatorCall) : AdminDb × OperatorCall :=
  match i with
  | .succeeds e => x.succeed e db
  | .fails e applied error => (if applied then (x.succeed e db).1 else db, x.fail error)

/-- The call is carried out. -/
def OperatorOutcome.carried : OperatorOutcome → Bool
  | .succeeds _ => true
  | .fails _ applied _ => applied

/-- A session of `actor` sends a request about a user. -/
structure OperatorSession where
  request : OperatorRequest
  actor : String
  userId : String
deriving DecidableEq

def OperatorSession.begin (r : OperatorSession) : OperatorCall :=
  ⟨r.request, r.actor, r.userId, .authorize⟩

abbrev OperatorStep := PoolStep OperatorSession OperatorOutcome Empty

def operatorStep : Pool AdminDb OperatorCall → OperatorStep → Pool AdminDb OperatorCall :=
  poolStep OperatorSession.begin OperatorCall.advance fun e _ => nomatch e

def operatorStart (db : AdminDb) : Pool AdminDb OperatorCall := ⟨db, []⟩

/-- No request is in progress. -/
def OperatorsIdle (w : Pool AdminDb OperatorCall) : Prop := ∀ x ∈ w.procs, ∃ answer, x.phase = .answered answer

end Experiential.Admin
