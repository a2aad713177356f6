import Experiential.Lib.Checked
import Experiential.Lib.Json
import Experiential.Lib.PyUnicode
import Experiential.Identity.Offboarding

/-! # SCIM users

The handlers of `/scim/v2/Users`, one request at a time, for an authenticated token of a licensed organization. They
run on the client of the deployment, a pool of wrappers over `supabase.Client` with the service-role key. Two things
about it decide what they answer: an account that is missing is created through the attribute `auth`, which a wrapper
has not; and the members are read by a function that asks for the user of the caller, whom a service-role key does not
name. `getSupabaseClient` is that client; the handlers are written for any. -/

namespace Experiential.Identity

open Py

/-! ### The client -/

/-- `auth.admin.create_user`: the account as the service stores it, or nothing. -/
structure GoTrueAdmin where
  createUser : PyStr → List AuthUser → Option AuthUser

/-- The keys of a project. -/
inductive ProjectKey where
  | anon
  | serviceRole
deriving DecidableEq

/-- The user that a key names (`sub`): a project key names a role only. -/
def ProjectKey.sub : ProjectKey → Option String
  | .anon | .serviceRole => none

/-- `supabase.Client` -/
structure SupabaseClient where
  key : ProjectKey
  admin : GoTrueAdmin

/-- What a handler finds of its client: the attribute `auth`, and the user in whose name `rpc` calls. -/
structure ClientAttributes where
  auth : Option GoTrueAdmin
  sub : Option String

/-- `_RetryingSupabaseClient`: `storage`, `table` and `rpc` of the client inside. -/
def retryingClient (inner : SupabaseClient) : ClientAttributes := ⟨none, inner.key.sub⟩

/-- `_PooledSupabaseClient`: `storage`, `table` and `rpc` of the next client; all have one key. -/
def pooledClient (inners : List ClientAttributes) : ClientAttributes := ⟨none, inners.head?.bind (·.sub)⟩

/-- `_CLIENT_POOL_SIZE` -/
def clientPoolSize : ℕ := 8

/-- `get_supabase_client` -/
def getSupabaseClient (createClient : ProjectKey → SupabaseClient) (serviceRole : Bool) : ClientAttributes :=
  let key := if serviceRole then .serviceRole else .anon
  pooledClient (List.replicate clientPoolSize (retryingClient { createClient key with key := key }))

/-- The tables, and who is an admin of the platform. -/
structure ScimDb extends Directory where
  platformAdmins : List String

/-! ### Requests -/

/-- The SCIM `User` of an answer. -/
structure ScimUser where
  id : String
  userName : PyStr
  role : OrgRole
  active : Bool
deriving DecidableEq

inductive ScimAnswer where
  | user (status : ℕ) (u : ScimUser)
  | list (total : ℕ) (startIndex : ℤ) (resources : List ScimUser)
  | noContent
  | error (status : ℕ) (detail : PyStr) (scimType : Option String)
deriving DecidableEq

def ScimAnswer.Succeeded : ScimAnswer → Prop
  | .error _ _ _ => False
  | _ => True

/-- The organization of the token, with its standing policy. -/
structure ScimContext where
  orgId : String
  keyPolicy : KeyPolicy
deriving DecidableEq

inductive ScimRequest (F : Type) where
  | list (filter : Option PyStr) (startIndex count : ℤ)
  | get (userId : String)
  | create (body : Entries F)
  | replace (userId : String) (body : Entries F)
  | patch (userId : String) (body : Entries F)
  | delete (userId : String)

/-- What the handlers run on: the interpreter, its `lower` and the one of Postgres, and the addresses that the auth
service accepts. -/
structure ScimServer (F : Type) where
  rt : Runtime F
  lower : PyStr → PyStr
  sqlLower : PyStr → PyStr
  accepts : PyStr → Bool

/-- `User not found` -/
def userNotFound (userId : String) : ScimAnswer := .error 404 (text "User not found: " ++ text userId) none

/-! ### `_USERNAME_EQ_FILTER` -/

/-- The small letter of a capital one. -/
def asciiLower (c : CodePoint) : CodePoint := if c.between 'A' 'Z' then .ofNat (c.toNat + 32) else c

/-- A letter of a pattern that ignores case; the long s is an s. -/
def matchesLetter (p : Char) (c : CodePoint) : Bool :=
  asciiLower c = asciiLower (.scalar p) || (decide (p = 's') && decide (c.toNat = 0x17F))

def matchWord : List Char → PyStr → Option PyStr
  | [], s => some s
  | p :: word, c :: s => if matchesLetter p c then matchWord word s else none
  | _ :: _, [] => none

/-- `\s+` -/
def matchSpaces : PyStr → Option PyStr
  | c :: s => if c.isSpace then some (s.dropWhile CodePoint.isSpace) else none
  | [] => none

def quote : CodePoint := .scalar '"'

/-- `"([^"]*)"\s*$` -/
def matchQuoted : PyStr → Option PyStr
  | c :: s =>
      if c = quote ∧ quote ∈ s ∧ ((s.dropWhile fun x => decide (x ≠ quote)).drop 1).all CodePoint.isSpace then
        some (s.takeWhile fun x => decide (x ≠ quote))
      else none
  | [] => none

def userNameFilter (s : PyStr) : Option PyStr := do
  let s ← matchWord ['u', 's', 'e', 'r', 'N', 'a', 'm', 'e'] (s.dropWhile CodePoint.isSpace)
  let s ← matchSpaces s
  let s ← matchWord ['e', 'q'] s
  let s ← matchSpaces s
  matchQuoted s

namespace ScimServer

variable {F : Type} (d : ScimServer F)

/-! ### Bodies -/

/-- `_as_bool` of the attribute `active` -/
def asBool (value : Json F) : Except ScimAnswer Bool :=
  match value with
  | .bool b => .ok b
  | .str s =>
      if d.lower s = text "true" then .ok true
      else if d.lower s = text "false" then .ok false
      else .error (.error 400 (text "active must be a boolean") (some "invalidValue"))
  | _ => .error (.error 400 (text "active must be a boolean") (some "invalidValue"))

/-- `str(body.get("userName") or "").strip().lower()` -/
def userNameOf (body : Entries F) : PyStr :=
  d.lower (Str.strip ((((Entries.get? body (text "userName")).getD .null).orElse d.rt (.str [])).toStr d.rt))

/-- `body.get("active", True)`, read as a boolean. -/
def bodyActive (body : Entries F) : Except ScimAnswer Bool :=
  d.asBool ((Entries.get? body (text "active")).getD (.bool true))

/-- Does an entry of `roles` ask for the admin role? -/
def asksAdmin (entry : Json F) : Bool :=
  match entry with
  | .dict entries =>
      decide (d.lower (((Entries.get? entries (text "value")).getD (.str [])).toStr d.rt) = text "admin")
  | _ => false

/-- `_requested_role` -/
def requestedRole (body : Entries F) : OrgRole :=
  match Entries.get? body (text "roles") with
  | some (.list roles) => if roles.any d.asksAdmin then .admin else .user
  | _ => .user

/-- What an operation of a patch sets `active` to. -/
def setting (operation : Json F) : Option (Json F) :=
  match operation with
  | .dict op =>
      if d.lower (((Entries.get? op (text "op")).getD (.str [])).toStr d.rt) = text "replace" then
        let path := d.lower (Str.strip ((((Entries.get? op (text "path")).getD (.str [])).orElse d.rt (.str [])).toStr d.rt))
        let value := (Entries.get? op (text "value")).getD .null
        if path = text "active" then some value
        else
          match value with
          | .dict entries => if path = [] then Entries.get? entries (text "active") else none
          | _ => none
      else none
  | _ => none

/-- One round of the loop of `_patch_sets_active`. -/
def patchOperation (active : Option Bool) (operation : Json F) : Except ScimAnswer (Option Bool) :=
  match d.setting operation with
  | some value => (d.asBool value).map some
  | none => .ok active

/-- `_patch_sets_active` -/
def patchSetsActive (body : Entries F) : Except ScimAnswer (Option Bool) :=
  match Entries.get? body (text "Operations") with
  | some (.list operations) => operations.foldlM d.patchOperation none
  | _ => .error (.error 400 (text "PatchOp requires an Operations list") (some "invalidValue"))

/-! ### Database calls -/

section calls
variable (client : ClientAttributes) (db : ScimDb) (orgId userId : String)

/-- The caller check of `org_members_with_emails`: a member of the organization, or a platform admin. -/
def rosterAdmits : Bool :=
  client.sub.any fun sub => (db.membership orgId sub).isSome || decide (sub ∈ db.platformAdmins)

/-- The row of a member, with the address of its account. -/
def rosterRow (m : OrganizationMember) : RosterRow :=
  ⟨m.userId, (db.users.find? fun u => decide (u.id = m.userId)).map (·.email), m.role⟩

/-- The function raises, and the exception leaves the handler. -/
def rosterFails : ScimAnswer := .error 500 (text "organization membership required") none

/-- `_org_roster`: the members in the order in which they joined, as far as one answer goes. -/
def orgRoster : Except ScimAnswer (List RosterRow) :=
  if rosterAdmits client db orgId then
    .ok (((db.members.filter fun m => decide (m.orgId = orgId)).take maxRows).map (rosterRow db))
  else .error rosterFails

/-- `_roster_member`, and the 404 of its callers. -/
def rosterMember : Except ScimAnswer RosterRow := do
  let roster ← orgRoster client db orgId
  require (roster.find? fun row => decide (row.userId = userId)) (userNotFound userId)

/-- `admin_user_id_for_email`: the account of an address, letter case aside. -/
def userIdForEmail (email : PyStr) : Option String :=
  (db.users.find? fun u => decide (d.sqlLower (text u.email) = d.sqlLower email)).map (·.id)

/-- `deprovision_user_from_org`, but for its report. -/
def deprovisionUserFromOrg (now : ℤ) (keyPolicy : KeyPolicy) : Except ScimAnswer ScimDb :=
  match db.membership orgId userId with
  | none =>
      .error (.error 404 (text "User " ++ text userId ++ text " is not a member of organization " ++ text orgId) none)
  | some m =>
      if m.role = .admin ∧ isLastAdmin db.toDirectory orgId userId then
        .error (.error 409 (text "The organization needs at least one admin.") none)
      else
        let left := removeMembership db.toDirectory orgId userId
        .ok { db with
          members := left.members
          keys := match keyPolicy with
            | .revoke => (revokeKeys now left ((left.liveKeys orgId userId).map (·.id)) none).keys
            | .keep => left.keys }

end calls

/-! ### Handlers -/

section handlers
variable (client : ClientAttributes) (now : ℤ) (ctx : ScimContext) (db : ScimDb) (userId : String)

/-- `_user_resource` -/
def resource (row : RosterRow) (active : Bool) : ScimUser := ⟨row.userId, (row.email.map text).getD [], row.role, active⟩

/-- A page of at most 200 rows. -/
def page (roster : List RosterRow) (startIndex count : ℤ) : ScimAnswer :=
  .list roster.length (max startIndex 1)
    (((roster.drop (max startIndex 1 - 1).toNat).take (max (min count 200) 0).toNat).map (resource · true))

/-- `list_users`; an account without address has the one that `str` makes of `None`. -/
def listUsers (filter : Option PyStr) (startIndex count : ℤ) : ScimAnswer :=
  match orgRoster client db ctx.orgId with
  | .error e => e
  | .ok roster =>
    match filter with
    | none => page roster startIndex count
    | some filter =>
      match userNameFilter filter with
      | none => .error 400 (text "Only the filter userName eq \"value\" is supported") (some "invalidFilter")
      | some wanted =>
          page (roster.filter fun row => decide (d.lower ((row.email.map text).getD (text "None")) = d.lower wanted))
            startIndex count

/-- `get_user` -/
def getUser : ScimAnswer :=
  match rosterMember client db ctx.orgId userId with
  | .error e => e
  | .ok row => .user 200 (resource row true)

/-- `create_user` -/
def createUser (body : Entries F) : ScimAnswer × ScimDb :=
  let email := d.userNameOf body
  let role := d.requestedRole body
  if email = [] then (.error 400 (text "userName (the email) is required") (some "invalidValue"), db)
  else
    match d.bodyActive body with
    | .error e => (e, db)
    | .ok false => (.error 400 (text "cannot provision a user with active=false") (some "invalidValue"), db)
    | .ok true =>
      match d.userIdForEmail db email with
      | some userId =>
          if (db.membership ctx.orgId userId).isSome then
            (.error 409 (text "User " ++ email ++ text " is already provisioned in this organization") (some "uniqueness"), db)
          else (.user 201 ⟨userId, email, role, true⟩, { db with members := db.members ++ [⟨ctx.orgId, userId, role⟩] })
      | none =>
        match client.auth with
        | none => (.error 502 (text "GoTrue admin API is unavailable on this deployment") none, db)
        | some admin =>
          match admin.createUser email db.users with
          | none => (.error 502 (text "GoTrue did not return the created user for " ++ email) none, db)
          | some u =>
            (.user 201 ⟨u.id, email, role, true⟩, { db with
              users := u :: db.users
              provenance := db.provenance ++ [⟨u.id, ctx.orgId⟩]
              members := db.members ++ [⟨ctx.orgId, u.id, role⟩] })

/-- `_deactivate`, with the answer behind it. -/
def deactivate (answer : ScimAnswer) : ScimAnswer × ScimDb :=
  match deprovisionUserFromOrg db ctx.orgId userId now ctx.keyPolicy with
  | .error e => (e, db)
  | .ok db' => (answer, db')

/-- `replace_user` -/
def replaceUser (body : Entries F) : ScimAnswer × ScimDb :=
  match rosterMember client db ctx.orgId userId with
  | .error e => (e, db)
  | .ok row =>
    match d.bodyActive body with
    | .error e => (e, db)
    | .ok true => (.user 200 (resource row true), db)
    | .ok false => deactivate now ctx db userId (.user 200 (resource row false))

/-- `patch_user` -/
def patchUser (body : Entries F) : ScimAnswer × ScimDb :=
  match rosterMember client db ctx.orgId userId with
  | .error e => (e, db)
  | .ok row =>
    match d.patchSetsActive body with
    | .error e => (e, db)
    | .ok (some false) => deactivate now ctx db userId (.user 200 (resource row false))
    | .ok _ => (.user 200 (resource row true), db)

/-- `delete_user` -/
def deleteUser : ScimAnswer × ScimDb :=
  match rosterMember client db ctx.orgId userId with
  | .error e => (e, db)
  | .ok _ => deactivate now ctx db userId .noContent

/-- The handler of a request. -/
def serve (request : ScimRequest F) : ScimAnswer × ScimDb :=
  match request with
  | .list filter startIndex count => (d.listUsers client ctx db filter startIndex count, db)
  | .get userId => (getUser client ctx db userId, db)
  | .create body => d.createUser client ctx db body
  | .replace userId body => d.replaceUser client now ctx db userId body
  | .patch userId body => d.patchUser client now ctx db userId body
  | .delete userId => deleteUser client now ctx db userId

/-- Requests of any organizations, one after the other. -/
def serveAll (requests : List (ℤ × ScimContext × ScimRequest F)) : ScimDb :=
  requests.foldl (fun db r => (d.serve client r.1 r.2.1 db r.2.2).2) db

end handlers

end ScimServer

end Experiential.Identity
