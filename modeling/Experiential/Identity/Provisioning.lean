import Experiential.Lib.Pool
import Experiential.Identity.Directory

/-! # SCIM provisioning

`create_user`, call by call, for one request of one organization that is retried any number of
times. The provenance row is written exactly by the request that created the account, in the
call after the creation; an account that is already there is linked, and gains no owner.
`provisioning_records_ownership`: in every run in which no request fails between the two calls,
and none looks the account up while another one is between them, a request that is answered 201
has made the user a member with the role it asked for, and the account's provenance names the
organization exactly when one of the requests created it. A request that fails between the two
leaves an account that its retry links (`ownership_lost`). -/

namespace Experiential.Identity

structure ProvisionRequest where
  orgId : String
  /-- `userName`, stripped and in lower case. -/
  email : String
  active : Bool
  role : OrgRole
deriving DecidableEq

inductive ProvisionAnswer where
  | created (userId email : String) (role : OrgRole)
  | error (status : Nat) (detail : String)
deriving DecidableEq

/-- The next call of a request. -/
inductive ProvisionPhase where
  | lookup
  | membership (userId : String)
  | create
  | provenance (userId : String)
  | insert (userId : String) (createdAccount : Bool)
  | audit (userId : String) (createdAccount : Bool)
  | answered (answer : ProvisionAnswer)
deriving DecidableEq

/-- The tables, and the accounts that the requests have created. -/
structure ProvisionState where
  db : Directory
  created : List String

/-- A call succeeds, the service giving a new account the id, or fails. -/
inductive ProvisionOutcome where
  | succeeds (newId : String)
  | fails
deriving DecidableEq

namespace ProvisionRequest
variable (r : ProvisionRequest)

/-- The checks of the body. -/
def begin : ProvisionPhase :=
  if r.email = "" then .answered (.error 400 "userName (the email) is required")
  else if r.active = false then .answered (.error 400 "cannot provision a user with active=false")
  else .lookup

def failed : ProvisionPhase := .answered (.error 500 "")

/-- The id is no account's, and nothing refers to it. -/
def Fresh (db : Directory) (id : String) : Prop :=
  id ∉ db.users.map (·.id) ∧ id ∉ db.provenance.map (·.userId) ∧ id ∉ db.members.map (·.userId)

instance (db : Directory) (id : String) : Decidable (Fresh db id) := by
  unfold Fresh
  infer_instance

/-- The next call of a request succeeds; a constraint may still refuse what it inserts. -/
def succeed (newId : String) (s : ProvisionState) (phase : ProvisionPhase) : ProvisionState × ProvisionPhase :=
  match phase with
  | .lookup =>
      match s.db.users.find? fun u => decide (u.email = r.email) with
      | some u => (s, .membership u.id)
      | none => (s, .create)
  | .membership userId =>
      match s.db.membership r.orgId userId with
      | some _ => (s, .answered (.error 409 s!"User {r.email} is already provisioned in this organization"))
      | none => (s, .insert userId false)
  | .create =>
      if r.email ∉ s.db.users.map (·.email) ∧ Fresh s.db newId then
        ({ s with db.users := s.db.users ++ [⟨newId, r.email⟩], created := newId :: s.created },
          .provenance newId)
      else (s, failed)
  | .provenance userId =>
      if userId ∉ s.db.provenance.map (·.userId) then
        ({ s with db.provenance := s.db.provenance ++ [⟨userId, r.orgId⟩] }, .insert userId true)
      else (s, failed)
  | .insert userId createdAccount =>
      match s.db.membership r.orgId userId with
      | some _ => (s, failed)
      | none =>
          ({ s with db.members := s.db.members ++ [⟨r.orgId, userId, r.role⟩] },
            .audit userId createdAccount)
  | .audit userId createdAccount =>
      ({ s with db.audit := s.db.audit ++
          [.scimUserProvision r.orgId userId r.email r.role createdAccount] },
        .answered (.created userId r.email r.role))
  | .answered answer => (s, .answered answer)

/-- The next call fails: only the audit event's failure is ignored. -/
def fail (phase : ProvisionPhase) : ProvisionPhase :=
  match phase with
  | .audit userId _ => .answered (.created userId r.email r.role)
  | .answered answer => .answered answer
  | _ => failed

def advance (i : ProvisionOutcome) (s : ProvisionState) (phase : ProvisionPhase) :
    ProvisionState × ProvisionPhase :=
  match i with
  | .succeeds newId => r.succeed newId s phase
  | .fails => (s, r.fail phase)

end ProvisionRequest

/-- A retry starts, or a request makes its next call; nothing else moves. -/
abbrev ProvisionStep := PoolStep Unit ProvisionOutcome Empty

def provisionStep (r : ProvisionRequest) :
    Pool ProvisionState ProvisionPhase → ProvisionStep → Pool ProvisionState ProvisionPhase :=
  poolStep (fun _ => r.begin) r.advance fun e _ => nomatch e

def provisionStart (db : Directory) : Pool ProvisionState ProvisionPhase := ⟨⟨db, []⟩, []⟩

/-- The account is created, its provenance is not written yet. -/
def ProvisionPhase.owing : ProvisionPhase → Bool
  | .provenance _ => true
  | _ => false

/-- No request fails between the creation of the account and its provenance, and none looks the
account up while another one is between them. -/
def NotOrphaned (w : Pool ProvisionState ProvisionPhase) : ProvisionStep → Prop
  | .advance k .fails => ∀ x ∈ w.procs[k]?, x.owing = false
  | .advance k (.succeeds _) => ∀ x ∈ w.procs[k]?, x = .lookup → ∀ y ∈ w.procs, y.owing = false
  | _ => True

instance (w : Pool ProvisionState ProvisionPhase) (step : ProvisionStep) : Decidable (NotOrphaned w step) := by
  unfold NotOrphaned
  split <;> infer_instance

/-! ### The invariant -/

section invariant
variable (r : ProvisionRequest) (db : Directory)

/-- The account's provenance names the organization. -/
def Directory.Owned (d : Directory) (org userId : String) : Prop :=
  ∃ p ∈ d.provenance, p.userId = userId ∧ p.provisionedByOrgId = org

/-- The account has the address, and is owned if one of the requests created it. -/
def Found (s : ProvisionState) (userId : String) : Prop :=
  (∃ u ∈ s.db.users, u.id = userId ∧ u.email = r.email) ∧
    (userId ∈ s.created → s.db.Owned r.orgId userId)

/-- The account is a member with the role. -/
def Placed (s : ProvisionState) (userId : String) : Prop :=
  ∃ m ∈ s.db.members, m.orgId = r.orgId ∧ m.userId = userId ∧ m.role = r.role

/-- What a request has established. -/
def ProvisionPhase.Ok (s : ProvisionState) (_ : ℕ) : ProvisionPhase → Prop
  | .lookup => True
  | .membership userId => Found r s userId
  | .create => True
  | .provenance userId => (∃ u ∈ s.db.users, u.id = userId ∧ u.email = r.email) ∧ userId ∈ s.created
  | .insert userId _ => Found r s userId
  | .audit userId _ => Found r s userId ∧ Placed r s userId
  | .answered (.created userId _ _) => Found r s userId ∧ Placed r s userId
  | .answered (.error _ _) => True

/-- Accounts and provenance rows were there at the start, or are the requests'. -/
structure ProvisionState.Ok (s : ProvisionState) : Prop where
  users : ∀ u ∈ s.db.users, u ∈ db.users ∨ u.id ∈ s.created
  provenance : ∀ p ∈ s.db.provenance, p ∈ db.provenance ∨
    p.userId ∈ s.created ∧ p.provisionedByOrgId = r.orgId
  start : ∀ p ∈ db.provenance, p ∈ s.db.provenance ∧ p.userId ∉ s.created

/-- An account the requests created is owned, or the request that created it is about to write it. -/
def Owing (w : Pool ProvisionState ProvisionPhase) : Prop :=
  ∀ userId ∈ w.shared.created, w.shared.db.Owned r.orgId userId ∨
    ∃ k : ℕ, w.procs[k]? = some (.provenance userId)

/-- Every account that was created has its provenance, or a request is about to write it. -/
structure ProvisionInv (w : Pool ProvisionState ProvisionPhase) : Prop where
  holds : w.Holds (ProvisionState.Ok r db) (ProvisionPhase.Ok r)
  owing : Owing r w

end invariant

/-- Tables grow. -/
structure Grows (r : ProvisionRequest) (s s' : ProvisionState) : Prop where
  users : ∀ u ∈ s.db.users, u ∈ s'.db.users
  provenance : ∀ p ∈ s.db.provenance, p ∈ s'.db.provenance
  members : ∀ m ∈ s.db.members, m ∈ s'.db.members
  created : ∀ id ∈ s.created, id ∈ s'.created
  fresh : ∀ id ∈ s'.created, id ∈ s.created ∨ id ∉ s.db.users.map (·.id)

section growth
variable {r : ProvisionRequest} {db : Directory} {s s' : ProvisionState}

theorem Grows.refl (r : ProvisionRequest) (s : ProvisionState) : Grows r s s :=
  ⟨fun _ h => h, fun _ h => h, fun _ h => h, fun _ h => h, fun _ h => .inl h⟩

variable {userId : String}

theorem Grows.owned (h : Grows r s s') (ho : s.db.Owned r.orgId userId) : s'.db.Owned r.orgId userId := by
  obtain ⟨p, hp, hsame⟩ := ho
  exact ⟨p, h.provenance p hp, hsame⟩

theorem Grows.found (h : Grows r s s') (hf : Found r s userId) : Found r s' userId := by
  obtain ⟨⟨u, hu, hid, hemail⟩, howned⟩ := hf
  refine ⟨⟨u, h.users u hu, hid, hemail⟩, ?_⟩
  intro hcreated
  rcases h.fresh userId hcreated with hold | hnew
  · exact h.owned (howned hold)
  · exact absurd (List.mem_map.mpr ⟨u, hu, hid⟩) hnew

theorem Grows.placed (h : Grows r s s') (hp : Placed r s userId) : Placed r s' userId := by
  obtain ⟨m, hm, hsame⟩ := hp
  exact ⟨m, h.members m hm, hsame⟩

/-- What a request has established, the others' steps leave. -/
theorem ProvisionPhase.Ok.grows {k : ℕ} {x : ProvisionPhase} (hok : x.Ok r s k) (h : Grows r s s') :
    x.Ok r s' k := by
  cases x with
  | lookup => trivial
  | membership userId => exact h.found hok
  | create => trivial
  | provenance userId =>
      obtain ⟨⟨u, hu, hsame⟩, hcreated⟩ := hok
      exact ⟨⟨u, h.users u hu, hsame⟩, h.created _ hcreated⟩
  | insert userId createdAccount => exact h.found hok
  | audit userId createdAccount => exact ⟨h.found hok.1, h.placed hok.2⟩
  | answered answer =>
      cases answer with
      | created userId email role => exact ⟨h.found hok.1, h.placed hok.2⟩
      | error status detail => trivial

/-! ### Steps -/

/-- What a call that succeeds does. -/
structure Stepped (r : ProvisionRequest) (db : Directory) (s : ProvisionState)
    (out : ProvisionState × ProvisionPhase) : Prop where
  grows : Grows r s out.1
  state : out.1.Ok r db
  phase : ∀ k, out.2.Ok r out.1 k
  created : ∀ id ∈ out.1.created, id ∈ s.created ∨ out.2 = .provenance id

theorem Stepped.of_same (h : s.Ok r db) {x : ProvisionPhase} (hok : ∀ k, x.Ok r s k) :
    Stepped r db s (s, x) :=
  ⟨.refl r s, h, hok, fun _ hid => .inl hid⟩

theorem create_stepped (h : s.Ok r db) {newId : String} (hfresh : ProvisionRequest.Fresh s.db newId) :
    Stepped r db s ({ s with
      db.users := s.db.users ++ [⟨newId, r.email⟩], created := newId :: s.created }, .provenance newId) := by
  refine ⟨⟨?_, fun _ hp => hp, fun _ hm => hm, fun _ hid => List.mem_cons_of_mem _ hid, ?_⟩, ⟨?_, ?_, ?_⟩, ?_, ?_⟩
  · intro u hu
    exact List.mem_append_left _ hu
  · intro id hid
    rcases List.mem_cons.mp hid with rfl | hid
    · exact .inr hfresh.1
    · exact .inl hid
  · intro u hu
    rcases List.mem_append.mp hu with hu | hu
    · rcases h.users u hu with hstart | hcreated
      · exact .inl hstart
      · exact .inr (List.mem_cons_of_mem _ hcreated)
    · rw [List.mem_singleton.mp hu]
      exact .inr List.mem_cons_self
  · intro p hp
    rcases h.provenance p hp with hstart | ⟨hcreated, horg⟩
    · exact .inl hstart
    · exact .inr ⟨List.mem_cons_of_mem _ hcreated, horg⟩
  · intro p hp
    obtain ⟨hmem, hnot⟩ := h.start p hp
    refine ⟨hmem, ?_⟩
    intro hin
    rcases List.mem_cons.mp hin with heq | hin
    · exact hfresh.2.1 (List.mem_map.mpr ⟨p, hmem, heq⟩)
    · exact hnot hin
  · intro k
    exact ⟨⟨_, List.mem_append_right _ (List.mem_singleton_self _), rfl, rfl⟩, List.mem_cons_self⟩
  · intro id hid
    rcases List.mem_cons.mp hid with rfl | hid
    · exact .inr rfl
    · exact .inl hid

theorem provenance_stepped (h : s.Ok r db) (hok : ∀ k, (ProvisionPhase.provenance userId).Ok r s k) :
    Stepped r db s ({ s with db.provenance := s.db.provenance ++ [⟨userId, r.orgId⟩] },
      .insert userId true) := by
  obtain ⟨huser, hcreated⟩ := hok 0
  refine ⟨⟨fun _ hu => hu, fun p hp => List.mem_append_left _ hp, fun _ hm => hm, fun _ hid => hid,
    fun _ hid => .inl hid⟩, ⟨h.users, ?_, ?_⟩, ?_, fun _ hid => .inl hid⟩
  · intro p hp
    rcases List.mem_append.mp hp with hp | hp
    · exact h.provenance p hp
    · rw [List.mem_singleton.mp hp]
      exact .inr ⟨hcreated, rfl⟩
  · intro p hp
    obtain ⟨hmem, hnot⟩ := h.start p hp
    exact ⟨List.mem_append_left _ hmem, hnot⟩
  · intro k
    exact ⟨huser, fun _ => ⟨_, List.mem_append_right _ (List.mem_singleton_self _), rfl, rfl⟩⟩

theorem insert_stepped (h : s.Ok r db) {createdAccount : Bool} (hf : Found r s userId) :
    Stepped r db s ({ s with db.members := s.db.members ++ [⟨r.orgId, userId, r.role⟩] },
      .audit userId createdAccount) := by
  refine ⟨⟨fun _ hu => hu, fun _ hp => hp, fun m hm => List.mem_append_left _ hm, fun _ hid => hid,
    fun _ hid => .inl hid⟩, ⟨h.users, h.provenance, h.start⟩, ?_, fun _ hid => .inl hid⟩
  intro k
  exact ⟨hf, _, List.mem_append_right _ (List.mem_singleton_self _), rfl, rfl, rfl⟩

/-- **A call that succeeds**, when no account the requests created is without an owner at a lookup. -/
theorem succeed_stepped (newId : String) (h : s.Ok r db) {x : ProvisionPhase} (hok : ∀ k, x.Ok r s k)
    (hlookup : x = .lookup → ∀ id ∈ s.created, s.db.Owned r.orgId id) :
    Stepped r db s (r.succeed newId s x) := by
  have hfailed : Stepped r db s (s, ProvisionRequest.failed) := .of_same h fun _ => trivial
  unfold ProvisionRequest.succeed
  cases x with
  | lookup =>
      simp only
      cases hfind : s.db.users.find? fun u => decide (u.email = r.email) with
      | none => exact .of_same h fun _ => trivial
      | some u =>
          have hmem := List.mem_of_find?_eq_some hfind
          have hemail : u.email = r.email := by simpa using List.find?_some hfind
          exact .of_same h fun _ => ⟨⟨u, hmem, rfl, hemail⟩, hlookup rfl u.id⟩
  | membership userId =>
      simp only
      split
      · exact .of_same h fun _ => trivial
      · exact .of_same h hok
  | create =>
      simp only
      split_ifs with hnew
      · exact create_stepped h hnew.2
      · exact hfailed
  | provenance userId =>
      simp only
      split_ifs
      · exact hfailed
      · exact provenance_stepped h hok
  | insert userId createdAccount =>
      simp only
      split
      · exact hfailed
      · exact insert_stepped h (hok 0)
  | audit userId createdAccount =>
      exact ⟨⟨fun _ hu => hu, fun _ hp => hp, fun _ hm => hm, fun _ hid => hid, fun _ hid => .inl hid⟩,
        ⟨h.users, h.provenance, h.start⟩, fun k => hok k, fun _ hid => .inl hid⟩
  | answered answer => exact .of_same h hok

/-- A provenance row that is owed is there after the call that owes it. -/
theorem succeed_provenance (newId : String) (h : s.Ok r db) (hcreated : userId ∈ s.created) :
    (r.succeed newId s (.provenance userId)).1.db.Owned r.orgId userId := by
  unfold ProvisionRequest.succeed
  simp only
  split_ifs with hold
  · -- the row that stands in the way is the organization's own
    obtain ⟨p, hp, hid⟩ := List.mem_map.mp hold
    rcases h.provenance p hp with hstart | ⟨-, horg⟩
    · exact absurd (by rw [hid]; exact hcreated) (h.start p hstart).2
    · exact ⟨p, hp, hid, horg⟩
  · exact ⟨_, List.mem_append_right _ (List.mem_singleton_self _), rfl, rfl⟩

theorem ProvisionRequest.fail_ok {k : ℕ} {x : ProvisionPhase} (hok : x.Ok r s k) : (r.fail x).Ok r s k := by
  unfold ProvisionRequest.fail
  cases x with
  | audit userId createdAccount => exact hok
  | answered answer => exact hok
  | _ => trivial

end growth

/-! ### Runs -/

section runs
variable {r : ProvisionRequest} {db : Directory} {w : Pool ProvisionState ProvisionPhase}

theorem provisionStart_inv : ProvisionInv r db (provisionStart db) := by
  refine ⟨⟨⟨fun u hu => .inl hu, fun p hp => .inl hp, fun p hp => ⟨hp, List.not_mem_nil⟩⟩, ?_⟩, ?_⟩
  · intro k x hx
    simp [provisionStart] at hx
  · intro id hid
    exact absurd hid List.not_mem_nil

theorem begin_ok (s : ProvisionState) (k : ℕ) : r.begin.Ok r s k := by
  unfold ProvisionRequest.begin
  split_ifs <;> trivial

theorem ProvisionInv.spawn (h : ProvisionInv r db w) : ProvisionInv r db (provisionStep r w (.spawn ())) := by
  refine ⟨h.holds.spawned (begin_ok _ _), ?_⟩
  intro id hid
  rcases h.owing id hid with howned | ⟨k, hk⟩
  · exact .inl howned
  · refine .inr ⟨k, ?_⟩
    show (w.procs ++ [r.begin])[k]? = _
    rw [List.getElem?_append_left (List.getElem?_eq_some_iff.mp hk).1]
    exact hk

/-- Nothing is owed when no request is between the two calls. -/
theorem ProvisionInv.owned (h : ProvisionInv r db w) (hnone : ∀ y ∈ w.procs, y.owing = false) :
    ∀ id ∈ w.shared.created, w.shared.db.Owned r.orgId id := by
  intro id hid
  rcases h.owing id hid with howned | ⟨k, hk⟩
  · exact howned
  · have howing := hnone _ (List.mem_of_getElem? hk)
    cases howing

theorem ProvisionInv.advance (h : ProvisionInv r db w) {k : ℕ} {i : ProvisionOutcome}
    (hC : NotOrphaned w (.advance k i)) : ProvisionInv r db (provisionStep r w (.advance k i)) := by
  cases hx : w.procs[k]? with
  | none =>
      unfold provisionStep
      rw [poolStep_advance_none hx]
      exact h
  | some x =>
      have hok : ∀ j, x.Ok r w.shared j := fun j => h.holds.2 k x hx
      have hlt := (List.getElem?_eq_some_iff.mp hx).1
      cases i with
      | fails =>
          refine ⟨h.holds.advanced ?_, ?_⟩
          · intro y hy
            exact ⟨h.holds.1, ProvisionRequest.fail_ok (h.holds.2 k y hy), fun j z _ hz => h.holds.2 j z hz⟩
          · unfold provisionStep
            rw [poolStep_advance hx]
            intro id hid
            rcases h.owing id hid with howned | ⟨j, hj⟩
            · exact .inl howned
            · by_cases hjk : j = k
              · -- the request that owes the row does not fail
                subst hjk
                have howing := hC _ hj
                cases howing
              · refine .inr ⟨j, ?_⟩
                rw [List.getElem?_set_ne (Ne.symm hjk)]
                exact hj
      | succeeds newId =>
          have hstepped : Stepped r db w.shared (r.succeed newId w.shared x) :=
            succeed_stepped newId h.holds.1 hok fun hlookup => h.owned (hC x hx hlookup)
          refine ⟨h.holds.advanced ?_, ?_⟩
          · intro y hy
            rw [hx] at hy
            cases hy
            exact ⟨hstepped.state, hstepped.phase k, fun j z _ hz => (h.holds.2 j z hz).grows hstepped.grows⟩
          · unfold provisionStep
            rw [poolStep_advance hx]
            intro id hid
            rcases hstepped.created id hid with hold | hnew
            · rcases h.owing id hold with howned | ⟨j, hj⟩
              · exact .inl (hstepped.grows.owned howned)
              · by_cases hjk : j = k
                · subst hjk
                  rw [hx] at hj
                  cases hj
                  exact .inl (succeed_provenance newId h.holds.1 hold)
                · refine .inr ⟨j, ?_⟩
                  rw [List.getElem?_set_ne (Ne.symm hjk)]
                  exact hj
            · refine .inr ⟨k, ?_⟩
              rw [List.getElem?_set_self hlt]
              exact congrArg some hnew

/-- **Provisioning records ownership and membership.** -/
theorem provisioning_records_ownership {steps : List ProvisionStep}
    (hunowned : ∀ u ∈ db.users, u.email = r.email → ¬ db.Owned r.orgId u.id)
    (hsteps : StepsMeet (provisionStep r) NotOrphaned (provisionStart db) steps) {k : ℕ}
    {userId email : String} {role : OrgRole}
    (hx : (run (provisionStep r) (provisionStart db) steps).procs[k]? =
      some (.answered (.created userId email role))) :
    (∃ m ∈ (run (provisionStep r) (provisionStart db) steps).shared.db.members,
      m.orgId = r.orgId ∧ m.userId = userId ∧ m.role = r.role) ∧
    ((run (provisionStep r) (provisionStart db) steps).shared.db.Owned r.orgId userId ↔
      userId ∈ (run (provisionStep r) (provisionStart db) steps).shared.created) := by
  have hinv : ProvisionInv r db (run (provisionStep r) (provisionStart db) steps) := by
    refine run_invariant ?_ steps _ provisionStart_inv hsteps
    intro w step hC h
    cases step with
    | spawn _ => exact h.spawn
    | advance j i => exact h.advance hC
    | env e => exact nomatch e
  generalize run (provisionStep r) (provisionStart db) steps = w at *
  obtain ⟨⟨⟨u, hu, rfl, hemail⟩, howned⟩, hplaced⟩ := hinv.holds.2 k _ hx
  refine ⟨hplaced, ?_, howned⟩
  rintro ⟨p, hp, hid, horg⟩
  rcases hinv.holds.1.provenance p hp with hstart | ⟨hcreated, -⟩
  · rcases hinv.holds.1.users u hu with hold | hcreated
    · exact absurd ⟨p, hstart, hid, horg⟩ (hunowned u hold hemail)
    · exact hcreated
  · rw [← hid]
    exact hcreated

end runs

/-! ### Ownership lost -/

section lost

def emptyDirectory : Directory := ⟨[], [], [], [], []⟩

def newcomer : ProvisionRequest := ⟨"org", "new@example.com", true, .user⟩

/-- A request fails at the membership, behind the provenance; its retry finds the account. -/
def retriedSteps : List ProvisionStep :=
  .spawn () :: List.replicate 3 (.advance 0 (.succeeds "new")) ++ [.advance 0 .fails, .spawn ()] ++
    List.replicate 4 (.advance 1 (.succeeds "other"))

/-- The provenance fails, and the retry links the account. -/
def lostSteps : List ProvisionStep :=
  [.spawn (), .advance 0 (.succeeds ""), .advance 0 (.succeeds "new"), .advance 0 .fails, .spawn ()] ++
    List.replicate 4 (.advance 1 (.succeeds ""))

theorem provisioning_records_ownership_sample :
    (∃ m ∈ (run (provisionStep newcomer) (provisionStart emptyDirectory) retriedSteps).shared.db.members,
      m.orgId = "org" ∧ m.userId = "new" ∧ m.role = .user) ∧
    ((run (provisionStep newcomer) (provisionStart emptyDirectory) retriedSteps).shared.db.Owned
        "org" "new" ↔
      "new" ∈ (run (provisionStep newcomer) (provisionStart emptyDirectory) retriedSteps).shared.created) := by
  have hsteps : StepsMeet (provisionStep newcomer) NotOrphaned (provisionStart emptyDirectory)
      retriedSteps := by decide
  have hx : (run (provisionStep newcomer) (provisionStart emptyDirectory) retriedSteps).procs[1]? =
      some (.answered (.created "new" "new@example.com" .user)) := by decide
  exact provisioning_records_ownership (fun u hu => absurd hu List.not_mem_nil) hsteps hx

/-- A request has created the account, its retry is answered 201, and no row names the
organization. -/
theorem ownership_lost :
    (run (provisionStep newcomer) (provisionStart emptyDirectory) lostSteps).procs[1]? =
      some (.answered (.created "new" "new@example.com" .user)) ∧
    "new" ∈ (run (provisionStep newcomer) (provisionStart emptyDirectory) lostSteps).shared.created ∧
    ¬ (run (provisionStep newcomer) (provisionStart emptyDirectory) lostSteps).shared.db.Owned "org" "new" := by
  refine ⟨by decide, by decide, ?_⟩
  rintro ⟨p, hp, -⟩
  have hnone : (run (provisionStep newcomer) (provisionStart emptyDirectory) lostSteps).shared.db.provenance =
      [] := by decide
  rw [hnone] at hp
  exact List.not_mem_nil hp

end lost

end Experiential.Identity
