import Experiential.Identity.ScimUsers

/-! # The cycle of a SCIM user

A user is to be created, read while requests of any organizations on any users go on, deactivated, and created again
(`LifecycleHolds`). With the client of a deployment both ends of the cycle are open: a creation succeeds exactly for an
address that has an account (`created_iff`), and every request but a creation is answered 500 and writes nothing
(`serve_of_not_create`). So the cycle goes round in no state and for no request: `scim_lifecycle_never`. -/

namespace Experiential.Identity

open Py

namespace ScimServer

variable {F : Type} (d : ScimServer F)

/-! ### The cycle -/

section lifecycle
variable (client : ClientAttributes) (ctx : ScimContext)

/-- A create request for an accepted address that no member of the organization has. -/
structure NewUser (db : ScimDb) (orgId : String) where
  body : Entries F
  active : d.bodyActive body = .ok true
  accepted : d.accepts (d.userNameOf body) = true
  named : d.userNameOf body ≠ []
  unquoted : quote ∉ d.userNameOf body
  new : ∀ m ∈ db.members, m.orgId = orgId → ∀ u ∈ db.users, u.id = m.userId →
    d.sqlLower (text u.email) ≠ d.sqlLower (d.userNameOf body)

/-- Does the request set a user's `active` to false? -/
def Deactivates (userId : String) : ScimRequest F → Prop
  | .replace id body => id = userId ∧ d.bodyActive body = .ok false
  | .patch id body => id = userId ∧ d.patchSetsActive body = .ok (some false)
  | .delete id => id = userId
  | _ => False

/-- The `userName` filter with an address. -/
def filterOf (address : PyStr) : PyStr := text "userName eq " ++ quote :: address ++ [quote]

/-- The letters of an address, some of them in another case. -/
def LetterCase (email address : PyStr) : Prop := address.map asciiLower = email.map asciiLower

/-- A read of the id and the filter return the member. -/
def Reports (db : ScimDb) (userId : String) (email : PyStr) (role : OrgRole) : Prop :=
  ∃ name, LetterCase email name ∧ getUser client ctx db userId = .user 200 ⟨userId, name, role, true⟩ ∧
    ∀ address, LetterCase email address →
      d.listUsers client ctx db (some (filterOf address)) 1 100 = .list 1 1 [⟨userId, name, role, true⟩]

/-- Both report that there is no such member. -/
def ReportsAbsent (db : ScimDb) (userId : String) (email : PyStr) : Prop :=
  getUser client ctx db userId = userNotFound userId ∧
    ∀ address, LetterCase email address →
      d.listUsers client ctx db (some (filterOf address)) 1 100 = .list 0 1 []

/-- The cycle of a user: created, reported through every run that leaves it active, absent when it is deactivated, and
created again. -/
def LifecycleHolds {db : ScimDb} (user : d.NewUser db ctx.orgId) : Prop :=
  ∃ userId created, d.createUser client ctx db user.body =
      (.user 201 ⟨userId, d.userNameOf user.body, d.requestedRole user.body, true⟩, created) ∧
    ∀ requests : List (ℤ × ScimContext × ScimRequest F),
      (∀ r ∈ requests, r.2.1.orgId = ctx.orgId → ¬d.Deactivates userId r.2.2) →
      let db' := d.serveAll client created requests
      d.Reports client ctx db' userId (d.userNameOf user.body) (d.requestedRole user.body) ∧
      ∀ now keyPolicy request answer db'', d.Deactivates userId request →
        d.serve client now ⟨ctx.orgId, keyPolicy⟩ db' request = (answer, db'') → answer.Succeeded →
        d.ReportsAbsent client ctx db'' userId (d.userNameOf user.body) ∧
          ∃ again, (d.createUser client ctx db'' user.body).1 = .user 201 again

end lifecycle

/-! ### A client without a user and without `auth` -/

section client
variable {d} {client : ClientAttributes} {ctx : ScimContext} {db : ScimDb}

theorem orgRoster_eq (hsub : client.sub = none) (orgId : String) : orgRoster client db orgId = .error rosterFails := by
  unfold orgRoster rosterAdmits
  rw [hsub]
  rfl

theorem rosterMember_eq (hsub : client.sub = none) (orgId userId : String) :
    rosterMember client db orgId userId = .error rosterFails := by
  unfold rosterMember
  rw [orgRoster_eq hsub]
  rfl

theorem getUser_eq (hsub : client.sub = none) (userId : String) : getUser client ctx db userId = rosterFails := by
  unfold getUser
  rw [rosterMember_eq hsub]

/-- **Every request but a creation** reads the roster first: it fails, and writes nothing. -/
theorem serve_of_not_create (hsub : client.sub = none) (now : ℤ) {request : ScimRequest F}
    (h : ∀ body, request ≠ .create body) : d.serve client now ctx db request = (rosterFails, db) := by
  unfold serve
  cases request with
  | list filter startIndex count =>
      unfold listUsers
      simp only [orgRoster_eq hsub]
  | get userId => simp only [getUser_eq hsub]
  | create body => exact absurd rfl (h body)
  | replace userId body =>
      unfold replaceUser
      simp only [rosterMember_eq hsub]
  | patch userId body =>
      unfold patchUser
      simp only [rosterMember_eq hsub]
  | delete userId =>
      unfold deleteUser
      simp only [rosterMember_eq hsub]

theorem NewUser.membership_eq (user : d.NewUser db ctx.orgId) {userId : String}
    (h : d.userIdForEmail db (d.userNameOf user.body) = some userId) : db.membership ctx.orgId userId = none := by
  obtain ⟨u, hfind, rfl⟩ := Option.map_eq_some_iff.mp h
  have hsame : d.sqlLower (text u.email) = d.sqlLower (d.userNameOf user.body) := by
    simpa using List.find?_some hfind
  rw [Directory.membership_eq_none]
  rintro ⟨m, hm, horg, hid⟩
  exact user.new m hm horg u (List.mem_of_find?_eq_some hfind) hid.symm hsame

/-- **A creation** succeeds exactly for an address that has an account. -/
theorem created_iff (hauth : client.auth = none) (user : d.NewUser db ctx.orgId) :
    (∃ u, (d.createUser client ctx db user.body).1 = .user 201 u) ↔
      ∃ u ∈ db.users, d.sqlLower (text u.email) = d.sqlLower (d.userNameOf user.body) := by
  unfold createUser
  simp only [if_neg user.named, user.active]
  cases hlookup : d.userIdForEmail db (d.userNameOf user.body) with
  | none =>
      have hnone : ∀ u ∈ db.users, d.sqlLower (text u.email) ≠ d.sqlLower (d.userNameOf user.body) := by
        simpa [userIdForEmail] using hlookup
      simp only [hauth]
      exact iff_of_false nofun fun ⟨u, hu, hsame⟩ => hnone u hu hsame
  | some userId =>
      obtain ⟨u, hfind, -⟩ := Option.map_eq_some_iff.mp hlookup
      simp only [user.membership_eq hlookup]
      exact iff_of_true ⟨_, rfl⟩ ⟨u, List.mem_of_find?_eq_some hfind, by simpa using List.find?_some hfind⟩

end client

/-! ### The client of a deployment -/

variable {d}

theorem getSupabaseClient_sub (createClient : ProjectKey → SupabaseClient) (serviceRole : Bool) :
    (getSupabaseClient createClient serviceRole).sub = none := by
  cases serviceRole <;> rfl

/-- **The SCIM lifecycle** goes round in no state and for no request: a user that has been created is not reported. -/
theorem scim_lifecycle_never (createClient : ProjectKey → SupabaseClient) {ctx : ScimContext} {db : ScimDb}
    (user : d.NewUser db ctx.orgId) : ¬d.LifecycleHolds (getSupabaseClient createClient true) ctx user := by
  rintro ⟨userId, created, -, hcycle⟩
  obtain ⟨⟨name, -, hread, -⟩, -⟩ := hcycle [] nofun
  rw [getUser_eq (getSupabaseClient_sub createClient true)] at hread
  cases hread

end ScimServer

/-! ### An account that is missing, and one that exists -/

/-- A server with addresses of ASCII characters. -/
def scimServer : ScimServer Unit where
  rt := .plain
  lower s := s.map asciiLower
  sqlLower s := s.map asciiLower
  accepts s := s.all (fun c => decide (c.toNat < 128)) && decide (.scalar '@' ∈ s)

/-- The accounts of a deployment without members. -/
def scimStart (users : List AuthUser) : ScimDb where
  users := users
  members := []
  keys := []
  provenance := []
  audit := []
  platformAdmins := []

def adaBody : Entries Unit := [(text "userName", .str (text "Ada@example.com"))]

theorem adaBody_userName : scimServer.userNameOf adaBody = text "ada@example.com" := by decide +kernel

def ada (users : List AuthUser) : scimServer.NewUser (scimStart users) "org" where
  body := adaBody
  active := rfl
  accepted := by
    rw [adaBody_userName]
    decide +kernel
  named := by
    rw [adaBody_userName]
    decide +kernel
  unquoted := by
    rw [adaBody_userName]
    decide +kernel
  new := nofun

/-- An auth service that creates one account. -/
def oneAccount (key : ProjectKey) : SupabaseClient :=
  ⟨key, ⟨fun _ users => if users = [] then some ⟨"u1", "ada@example.com"⟩ else none⟩⟩

/-- The client of the deployment. -/
def scimClient : ClientAttributes := getSupabaseClient oneAccount true

/-- Without an account the creation is answered 502; with one it is answered 201, and the read of the id 500. -/
theorem ada_is_not_reported :
    ((scimServer.createUser scimClient ⟨"org", .revoke⟩ (scimStart []) adaBody).1 =
        .error 502 (text "GoTrue admin API is unavailable on this deployment") none ∧
      ¬scimServer.LifecycleHolds scimClient ⟨"org", .revoke⟩ (ada [])) ∧
    (∃ db, scimServer.createUser scimClient ⟨"org", .revoke⟩ (scimStart [⟨"u1", "ada@example.com"⟩]) adaBody =
        (.user 201 ⟨"u1", text "ada@example.com", .user, true⟩, db) ∧
      ScimServer.getUser scimClient ⟨"org", .revoke⟩ db "u1" =
        .error 500 (text "organization membership required") none ∧
      ¬scimServer.LifecycleHolds scimClient ⟨"org", .revoke⟩ (ada [⟨"u1", "ada@example.com"⟩])) := by
  have hnever (users : List AuthUser) : ¬scimServer.LifecycleHolds scimClient ⟨"org", .revoke⟩ (ada users) := by
    rintro ⟨userId, created, -, hcycle⟩
    obtain ⟨⟨name, -, hread, -⟩, -⟩ := hcycle [] nofun
    cases hread
  have hcreated : (scimServer.createUser scimClient ⟨"org", .revoke⟩ (scimStart [⟨"u1", "ada@example.com"⟩])
      adaBody).1 = .user 201 ⟨"u1", text "ada@example.com", .user, true⟩ := by
    decide +kernel
  exact ⟨⟨by decide +kernel, hnever _⟩, _, Prod.ext hcreated rfl, rfl, hnever _⟩

end Experiential.Identity
