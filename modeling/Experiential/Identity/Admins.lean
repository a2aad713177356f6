import Experiential.Identity.Offboarding
import Experiential.Lib.Table

/-! # An organization keeps an admin

The member routes and the deprovisioning sweep read the admins of the organization in one call and
write in a later one. A request that has passed its check has seen an admin other than the member it
demotes or removes, and that admin stays one unless a request about another member writes in between.
`admins_remain`: in every run without such a write the organization has an admin. Two admins who
demote each other both pass the check (`no_admin_left`). -/

namespace Experiential.Identity

/-! ### The member routes -/

inductive MemberRequestKind where
  /-- `PATCH`; `none` is a role that is not one of `INVITE_ROLES`. -/
  | setRole (role : Option OrgRole)
  /-- `DELETE` -/
  | remove
deriving DecidableEq

structure MemberRequest where
  kind : MemberRequestKind
  orgId : String
  userId : String
  /-- The session's user, and whether they have a `platform_admins` row. -/
  actor : String
  platformAdmin : Bool
deriving DecidableEq

inductive MemberAnswer where
  | membership (m : OrganizationMember)
  | noContent
  | error (status : Nat) (message : String)
deriving DecidableEq

/-- The next call of a request. -/
inductive MemberPhase where
  | organization
  | manager
  | lastAdmin
  | write
  | audit (answer : MemberAnswer)
  | answered (answer : MemberAnswer)
deriving DecidableEq

structure MemberEdit extends MemberRequest where
  phase : MemberPhase
deriving DecidableEq

def MemberRequest.begin (r : MemberRequest) : MemberEdit := ⟨r, .organization⟩

/-- The `update` of the role. -/
def setMemberRole (db : Directory) (orgId userId : String) (role : OrgRole) : Directory :=
  { db with members := db.members.map fun m =>
      if m.orgId = orgId ∧ m.userId = userId then { m with role := role } else m }

namespace MemberEdit

section calls
variable (s : SweepState) (x : MemberEdit)

def goto (phase : MemberPhase) : MemberEdit := { x with phase := phase }

def refuse (status : Nat) (message : String) : MemberEdit := x.goto (.answered (.error status message))

/-- The first call after `requireOrgManager`. -/
def managed : MemberEdit :=
  match x.kind with
  | .setRole none => x.refuse 400 "role must be one of: admin, user."
  | .setRole (some .admin) => x.goto .write
  | .setRole (some .user) => x.goto .lastAdmin
  | .remove => x.goto .lastAdmin

/-- The request's next call succeeds. -/
def succeed : SweepState × MemberEdit :=
  match x.phase with
  | .organization =>
      (s, if x.platformAdmin || (s.db.membership x.orgId x.actor).isSome then x.goto .manager
        else x.refuse 404 ("Organization not found: " ++ x.orgId))
  | .manager =>
      (s, if x.platformAdmin || (s.db.membership x.orgId x.actor).any fun m => decide (m.role = .admin) then
          x.managed
        else x.refuse 404 "Not found")
  | .lastAdmin =>
      (s, if isLastAdmin s.db x.orgId x.userId then x.refuse 409 "The organization needs at least one admin."
        else x.goto .write)
  | .write =>
      match x.kind with
      | .setRole none => (s, x)
      | .setRole (some role) =>
          ({ s with db := setMemberRole s.db x.orgId x.userId role },
            if (s.db.membership x.orgId x.userId).isSome then x.goto (.audit (.membership ⟨x.orgId, x.userId, role⟩))
            else x.refuse 404 "Membership not found.")
      | .remove =>
          ({ s with db := removeMembership s.db x.orgId x.userId },
            if (s.db.membership x.orgId x.userId).isSome then x.goto (.audit .noContent)
            else x.refuse 404 "Membership not found.")
  | .audit answer => (s, x.goto (.answered answer))
  | .answered _ => (s, x)

/-- The request's next call fails: the request ends, unless the call was the audit event. -/
def fail : MemberEdit :=
  match x.phase with
  | .audit answer => x.goto (.answered answer)
  | .answered _ => x
  | _ => x.refuse 500 ""

end calls

def advance (i : CallOutcome) (s : SweepState) (x : MemberEdit) : SweepState × MemberEdit :=
  match i with
  | .succeeds _ => x.succeed s
  | .fails => (s, x.fail)

end MemberEdit

/-! ### Member routes, sweeps and additions side by side -/

inductive RosterRequest where
  | edit (r : MemberRequest)
  | sweep (r : OffboardingRequest)
deriving DecidableEq

inductive RosterCall where
  | edit (x : MemberEdit)
  | sweep (x : Offboarding)
deriving DecidableEq

def RosterRequest.begin : RosterRequest → RosterCall
  | .edit r => .edit r.begin
  | .sweep r => .sweep r.begin

def RosterCall.advance (i : CallOutcome) (s : SweepState) : RosterCall → SweepState × RosterCall
  | .edit x => ((x.advance i s).1, .edit (x.advance i s).2)
  | .sweep x => ((x.advance i s).1, .sweep (x.advance i s).2)

/-- A membership is inserted; the primary key refuses a second one. -/
def addMembership (m : OrganizationMember) (s : SweepState) : SweepState :=
  if (s.db.membership m.orgId m.userId).isSome then s
  else { s with db := { s.db with members := s.db.members ++ [m] } }

abbrev RosterStep := PoolStep RosterRequest CallOutcome OrganizationMember

def rosterStep : Pool SweepState RosterCall → RosterStep → Pool SweepState RosterCall :=
  poolStep RosterRequest.begin RosterCall.advance addMembership

def rosterStart (db : Directory) : Pool SweepState RosterCall := ⟨⟨db, []⟩, []⟩

/-! ### An admin remains -/

/-- The membership that a request's next call demotes or removes. -/
def RosterCall.dropsAdmin : RosterCall → Option (String × String)
  | .edit x => match x.phase, x.kind with
    | .write, .setRole (some .user) => some (x.orgId, x.userId)
    | .write, .remove => some (x.orgId, x.userId)
    | _, _ => none
  | .sweep x => match x.phase with
    | .removal _ => some (x.orgId, x.userId)
    | _ => none

namespace Directory
variable {db : Directory} {orgId org userId : String}

def HasAdmin (db : Directory) (orgId : String) : Prop := ∃ m ∈ db.members, m.orgId = orgId ∧ m.role = .admin

instance (db : Directory) (orgId : String) : Decidable (db.HasAdmin orgId) :=
  inferInstanceAs (Decidable (∃ m ∈ db.members, m.orgId = orgId ∧ m.role = .admin))

def IsAdmin (db : Directory) (orgId userId : String) : Prop :=
  ∃ m ∈ db.members, m.orgId = orgId ∧ m.userId = userId ∧ m.role = .admin

instance (db : Directory) (orgId userId : String) : Decidable (db.IsAdmin orgId userId) :=
  inferInstanceAs (Decidable (∃ m ∈ db.members, m.orgId = orgId ∧ m.userId = userId ∧ m.role = .admin))

/-- Somebody else is an admin. -/
def OtherAdmin (db : Directory) (orgId userId : String) : Prop :=
  ∃ m ∈ db.members, m.orgId = orgId ∧ m.role = .admin ∧ m.userId ≠ userId

/-- The primary key of `organization_members`. -/
def MembersKeyed (db : Directory) : Prop := (db.members.map fun m => (m.orgId, m.userId)).Nodup

instance (db : Directory) : Decidable db.MembersKeyed :=
  inferInstanceAs (Decidable (db.members.map fun m => (m.orgId, m.userId)).Nodup)

theorem other_admin (hkeyed : db.MembersKeyed) (h : db.HasAdmin orgId) (hlast : isLastAdmin db orgId userId = false) :
    db.OtherAdmin orgId userId := by
  by_contra hnone
  unfold OtherAdmin at hnone
  push Not at hnone
  unfold isLastAdmin at hlast
  rw [decide_eq_false_iff_not] at hlast
  -- every admin row is the user's, and the key leaves one
  obtain ⟨m, hm, horg, hrole⟩ := h
  have hall : ∀ a ∈ db.members.filter (fun m => decide (m.orgId = orgId) && decide (m.role = .admin)), a = m := by
    intro a ha
    simp only [List.mem_filter, Bool.and_eq_true, decide_eq_true_eq] at ha
    refine List.inj_on_of_nodup_map hkeyed ha.1 hm ?_
    rw [hnone a ha.1 ha.2.1 ha.2.2, hnone m hm horg hrole, ha.2.1, horg]
  have hmem : m ∈ db.members.filter (fun m => decide (m.orgId = orgId) && decide (m.role = .admin)) := by
    simpa using ⟨hm, horg, hrole⟩
  have hnodup := (List.Nodup.of_map _ hkeyed).filter fun m => decide (m.orgId = orgId) && decide (m.role = .admin)
  have hone : db.members.filter (fun m => decide (m.orgId = orgId) && decide (m.role = .admin)) = [m] := by
    have := List.eq_replicate_of_mem hall
    rw [this] at hnodup hmem ⊢
    have hlen := List.nodup_replicate.mp hnodup
    have hpos : (db.members.filter fun m => decide (m.orgId = orgId) && decide (m.role = .admin)).length ≠ 0 :=
      (List.mem_replicate.mp hmem).1
    have hlen : (db.members.filter fun m => decide (m.orgId = orgId) && decide (m.role = .admin)).length = 1 := by
      omega
    rw [hlen, List.replicate_one]
  rw [hone, List.map_singleton, hnone m hm horg hrole] at hlast
  exact hlast rfl

theorem MembersKeyed.setMemberRole (h : db.MembersKeyed) {role : OrgRole} :
    (setMemberRole db org userId role).MembersKeyed := by
  unfold MembersKeyed at h ⊢
  rw [Identity.setMemberRole, map_update_key]
  · exact h
  · intro _ _
    rfl

theorem MembersKeyed.removeMembership (h : db.MembersKeyed) : (removeMembership db org userId).MembersKeyed :=
  h.sublist (List.filter_sublist.map _)

theorem other_admin_of_membership (hkeyed : db.MembersKeyed) (h : db.HasAdmin orgId) {m : OrganizationMember}
    (hm : db.membership orgId userId = some m) (hrole : m.role ≠ .admin) : db.OtherAdmin orgId userId := by
  obtain ⟨a, ha, horg, hadmin⟩ := h
  refine ⟨a, ha, horg, hadmin, fun huser => hrole ?_⟩
  have hmatch := List.find?_some hm
  simp only [Bool.and_eq_true, decide_eq_true_eq] at hmatch
  have hkey : (m.orgId, m.userId) = (a.orgId, a.userId) := by rw [hmatch.1, hmatch.2, horg, huser]
  rw [List.inj_on_of_nodup_map hkeyed (List.mem_of_find?_eq_some hm) ha hkey]
  exact hadmin

/-- Every admin stays one, but for one membership. -/
def KeepsAdmins (dropped : Option (String × String)) (db db' : Directory) : Prop :=
  ∀ m ∈ db.members, m.role = .admin → (∀ t ∈ dropped, (m.orgId, m.userId) ≠ t) → db'.IsAdmin m.orgId m.userId

theorem KeepsAdmins.of_members {db' : Directory} (h : db'.members = db.members) {dropped : Option (String × String)} :
    KeepsAdmins dropped db db' :=
  fun m hm hadmin _ => ⟨m, h ▸ hm, rfl, rfl, hadmin⟩

theorem keepsAdmins_setMemberRole (role : OrgRole) :
    KeepsAdmins (if role = .admin then none else some (org, userId)) db (setMemberRole db org userId role) := by
  intro m hm hadmin hkept
  refine ⟨_, List.mem_map_of_mem hm, ?_, ?_, ?_⟩
  · split <;> rfl
  · split <;> rfl
  · split_ifs with hsame
    · by_contra hrole
      refine hkept (org, userId) ?_ (by rw [hsame.1, hsame.2])
      rw [if_neg hrole]
      rfl
    · exact hadmin

theorem keepsAdmins_removeMembership : KeepsAdmins (some (org, userId)) db (removeMembership db org userId) := by
  intro m hm hadmin hkept
  refine ⟨m, List.mem_filter.mpr ⟨hm, ?_⟩, rfl, rfl, hadmin⟩
  rw [Bool.not_eq_true', Bool.and_eq_false_iff, decide_eq_false_iff_not, decide_eq_false_iff_not]
  by_contra hsame
  push Not at hsame
  exact hkept _ rfl (by rw [hsame.1, hsame.2])

/-- Another admin is left, unless the membership dropped is an admin's and not the user's. -/
theorem OtherAdmin.kept {db' : Directory} {dropped : Option (String × String)} (h : db.OtherAdmin orgId userId)
    (hkeeps : KeepsAdmins dropped db db') (hdropped : ∀ t ∈ dropped, t.1 = orgId → db.IsAdmin orgId t.2 → t.2 = userId) :
    db'.OtherAdmin orgId userId := by
  obtain ⟨m, hm, rfl, hadmin, hne⟩ := h
  have hstays : ∀ t ∈ dropped, (m.orgId, m.userId) ≠ t := by
    rintro t ht rfl
    exact hne (hdropped _ ht rfl ⟨m, hm, rfl, rfl, hadmin⟩)
  obtain ⟨m', hm', horg, huser, hadmin'⟩ := hkeeps m hm hadmin hstays
  exact ⟨m', hm', horg, hadmin', huser ▸ hne⟩

theorem OtherAdmin.hasAdmin (h : db.OtherAdmin orgId userId) : db.HasAdmin orgId := by
  obtain ⟨m, hm, horg, hadmin, -⟩ := h
  exact ⟨m, hm, horg, hadmin⟩

end Directory

/-- No admin is demoted or removed while a request about another member of the organization is between its
check and its write. -/
def NotOvertaken (w : Pool SweepState RosterCall) : RosterStep → Prop
  | .advance k (.succeeds _) => ∀ x ∈ w.procs[k]?, ∀ t ∈ x.dropsAdmin, w.shared.db.IsAdmin t.1 t.2 →
      ∀ y ∈ w.procs, ∀ u ∈ y.dropsAdmin, u.1 = t.1 → t.2 = u.2
  | _ => True

instance (w : Pool SweepState RosterCall) (step : RosterStep) : Decidable (NotOvertaken w step) := by
  unfold NotOvertaken
  split <;> infer_instance

/-- What the roster keeps: its key, and an admin of the organization. -/
def RosterKept (orgId : String) (s : SweepState) : Prop := s.db.MembersKeyed ∧ s.db.HasAdmin orgId

/-- A request that has passed its check leaves an admin. -/
def RosterCall.Checked (orgId : String) (s : SweepState) (_ : ℕ) (x : RosterCall) : Prop :=
  ∀ t ∈ x.dropsAdmin, t.1 = orgId → s.db.OtherAdmin orgId t.2

section step
variable {orgId : String} {s : SweepState}

theorem checked_of_none {k : ℕ} {x : RosterCall} (h : x.dropsAdmin = none) : x.Checked orgId s k := by
  intro t ht
  rw [h] at ht
  cases ht

/-- Behind the check, the request is about its member. -/
theorem checked_of_other {k : ℕ} {x : RosterCall} {org user : String} (hx : ∀ t ∈ x.dropsAdmin, t = (org, user))
    (h : org = orgId → s.db.OtherAdmin orgId user) : x.Checked orgId s k := by
  intro t ht horg
  obtain rfl := hx t ht
  exact h horg

section edit
variable {x : MemberEdit}

theorem drops_edit {t : String × String} (h : t ∈ (RosterCall.edit x).dropsAdmin) : t = (x.orgId, x.userId) := by
  unfold RosterCall.dropsAdmin at h
  dsimp only at h
  split at h
  · exact (Option.some.inj h).symm
  · exact (Option.some.inj h).symm
  · cases h

theorem drops_edit_of_ne {phase : MemberPhase} (h : phase ≠ .write) : (RosterCall.edit (x.goto phase)).dropsAdmin = none := by
  cases phase with
  | write => exact absurd rfl h
  | _ => rfl

/-- Only a promotion goes to its write without the check. -/
theorem drops_managed : (RosterCall.edit x.managed).dropsAdmin = none := by
  unfold MemberEdit.managed
  rcases hk : x.kind with (_ | _ | _) | _
  · rfl
  · simp [RosterCall.dropsAdmin, MemberEdit.goto, hk]
  · rfl
  · rfl

theorem MemberEdit.succeed_kept (h : s.db.MembersKeyed) : (x.succeed s).1.db.MembersKeyed ∧
    Directory.KeepsAdmins (RosterCall.edit x).dropsAdmin s.db (x.succeed s).1.db := by
  unfold MemberEdit.succeed
  cases hp : x.phase with
  | write =>
      rcases hk : x.kind with (_ | role) | _
      · exact ⟨h, .of_members rfl⟩
      · refine ⟨h.setMemberRole, ?_⟩
        have hkeeps : Directory.KeepsAdmins _ s.db (setMemberRole s.db x.orgId x.userId role) :=
          Directory.keepsAdmins_setMemberRole role
        cases role <;> simpa [RosterCall.dropsAdmin, hp, hk] using hkeeps
      · refine ⟨h.removeMembership, ?_⟩
        simpa [RosterCall.dropsAdmin, hp, hk] using Directory.keepsAdmins_removeMembership
  | _ => exact ⟨h, .of_members rfl⟩

theorem MemberEdit.succeed_checked (h : RosterKept orgId s) (k : ℕ) :
    (RosterCall.edit (x.succeed s).2).Checked orgId (x.succeed s).1 k := by
  unfold MemberEdit.succeed
  cases hp : x.phase with
  | organization =>
      dsimp only
      split <;> exact checked_of_none (drops_edit_of_ne nofun)
  | manager =>
      dsimp only
      split
      · exact checked_of_none drops_managed
      · exact checked_of_none (drops_edit_of_ne nofun)
  | lastAdmin =>
      dsimp only
      split
      · exact checked_of_none (drops_edit_of_ne nofun)
      · next hlast =>
        refine checked_of_other (fun t ht => drops_edit ht) fun horg => ?_
        subst horg
        exact Directory.other_admin h.1 h.2 (Bool.eq_false_of_not_eq_true hlast)
  | write =>
      rcases hk : x.kind with (_ | role) | _
      · refine checked_of_none ?_
        simp [RosterCall.dropsAdmin, hk]
      · dsimp only
        split <;> exact checked_of_none (drops_edit_of_ne nofun)
      · dsimp only
        split <;> exact checked_of_none (drops_edit_of_ne nofun)
  | audit answer => exact checked_of_none (drops_edit_of_ne nofun)
  | answered answer =>
      refine checked_of_none ?_
      simp [RosterCall.dropsAdmin, hp]

theorem MemberEdit.fail_checked (k : ℕ) : (RosterCall.edit x.fail).Checked orgId s k := by
  unfold MemberEdit.fail
  cases hp : x.phase with
  | answered answer =>
      refine checked_of_none ?_
      simp [RosterCall.dropsAdmin, hp]
  | _ => exact checked_of_none (drops_edit_of_ne nofun)

end edit

section sweep
variable {x : Offboarding}

theorem drops_sweep_of_ne {phase : OffboardingPhase} (h : ∀ role, phase ≠ .removal role) :
    (RosterCall.sweep (x.to phase)).dropsAdmin = none := by
  cases phase with
  | removal role => exact absurd rfl (h role)
  | _ => rfl

theorem drops_swept (report : DeprovisionReport) : (RosterCall.sweep (x.swept report)).dropsAdmin = none := by
  unfold Offboarding.swept
  split <;> rfl

theorem Offboarding.succeed_kept (h : s.db.MembersKeyed) (now : Int) : (x.succeed now s).1.db.MembersKeyed ∧
    Directory.KeepsAdmins (RosterCall.sweep x).dropsAdmin s.db (x.succeed now s).1.db := by
  unfold Offboarding.succeed
  cases hp : x.phase with
  | roster | membership | admins role =>
      dsimp only
      split <;> exact ⟨h, .of_members rfl⟩
  | removal role =>
      refine ⟨h.removeMembership, ?_⟩
      simpa [RosterCall.dropsAdmin, hp] using Directory.keepsAdmins_removeMembership
  | listing role =>
      dsimp only
      split <;> exact ⟨h, .of_members rfl⟩
  | _ => exact ⟨h, .of_members rfl⟩

theorem Offboarding.succeed_checked (h : RosterKept orgId s) (now : Int) (k : ℕ) :
    (RosterCall.sweep (x.succeed now s).2).Checked orgId (x.succeed now s).1 k := by
  have hremoval : ∀ {role : OrgRole}, ∀ t ∈ (RosterCall.sweep (x.to (.removal role))).dropsAdmin,
      t = (x.orgId, x.userId) := fun t ht => (Option.some.inj ht).symm
  unfold Offboarding.succeed
  cases hp : x.phase with
  | roster =>
      dsimp only
      split
      · exact checked_of_none (drops_sweep_of_ne fun _ => nofun)
      · exact checked_of_none rfl
  | membership =>
      dsimp only
      split
      · exact checked_of_none (drops_sweep_of_ne fun _ => nofun)
      · next m hm =>
        dsimp only
        split
        · exact checked_of_none (drops_sweep_of_ne fun _ => nofun)
        · next hrole =>
          -- who is not an admin leaves the one there is
          refine checked_of_other hremoval fun horg => ?_
          subst horg
          exact Directory.other_admin_of_membership h.1 h.2 hm hrole
  | admins role =>
      dsimp only
      split
      · exact checked_of_none (drops_sweep_of_ne fun _ => nofun)
      · next hlast =>
        refine checked_of_other hremoval fun horg => ?_
        subst horg
        exact Directory.other_admin h.1 h.2 (Bool.eq_false_of_not_eq_true hlast)
  | removal role =>
      refine checked_of_none (drops_sweep_of_ne fun _ => ?_)
      cases x.keyPolicy <;> nofun
  | listing role =>
      dsimp only
      split <;> exact checked_of_none (drops_sweep_of_ne fun _ => nofun)
  | audit report => exact checked_of_none (drops_swept report)
  | answered answer =>
      refine checked_of_none ?_
      simp [RosterCall.dropsAdmin, hp]
  | _ => exact checked_of_none (drops_sweep_of_ne fun _ => nofun)

theorem Offboarding.fail_checked (k : ℕ) : (RosterCall.sweep x.fail).Checked orgId s k := by
  unfold Offboarding.fail
  cases hp : x.phase with
  | audit report => exact checked_of_none (drops_swept report)
  | answered answer =>
      refine checked_of_none ?_
      simp [RosterCall.dropsAdmin, hp]
  | _ => exact checked_of_none (drops_sweep_of_ne fun _ => nofun)

end sweep

theorem RosterKept.addMembership (h : RosterKept orgId s) (m : OrganizationMember) :
    RosterKept orgId (addMembership m s) ∧ Directory.KeepsAdmins none s.db (Identity.addMembership m s).db := by
  unfold Identity.addMembership
  split
  · exact ⟨h, .of_members rfl⟩
  · next hnew =>
    refine ⟨⟨?_, ?_⟩, fun a ha hadmin _ => ⟨a, List.mem_append_left _ ha, rfl, rfl, hadmin⟩⟩
    · unfold Directory.MembersKeyed
      rw [List.map_append, List.nodup_append]
      refine ⟨h.1, by simp, ?_⟩
      intro a ha b hb heq
      rw [List.map_singleton, List.mem_singleton] at hb
      rw [heq, hb] at ha
      obtain ⟨m', hm', hkey⟩ := List.mem_map.mp ha
      rw [Option.not_isSome_iff_eq_none, Directory.membership_eq_none] at hnew
      exact hnew ⟨m', hm', congrArg Prod.fst hkey, congrArg Prod.snd hkey⟩
    · obtain ⟨a, ha, horg, hadmin⟩ := h.2
      exact ⟨a, List.mem_append_left _ ha, horg, hadmin⟩

/-- **A call that succeeds**, of either kind. -/
theorem RosterCall.succeed_spec (h : RosterKept orgId s) (now : Int) (k : ℕ) (x : RosterCall) :
    (x.advance (.succeeds now) s).1.db.MembersKeyed ∧
      Directory.KeepsAdmins x.dropsAdmin s.db (x.advance (.succeeds now) s).1.db ∧
      (x.advance (.succeeds now) s).2.Checked orgId (x.advance (.succeeds now) s).1 k := by
  cases x with
  | edit x => exact ⟨(x.succeed_kept h.1).1, (x.succeed_kept h.1).2, x.succeed_checked h k⟩
  | sweep x => exact ⟨(x.succeed_kept h.1 now).1, (x.succeed_kept h.1 now).2, x.succeed_checked h now k⟩

theorem rosterStep_kept {w : Pool SweepState RosterCall} {step : RosterStep} (hstep : NotOvertaken w step)
    (h : w.Holds (RosterKept orgId) (RosterCall.Checked orgId)) :
    (rosterStep w step).Holds (RosterKept orgId) (RosterCall.Checked orgId) := by
  cases step with
  | spawn r =>
      refine h.spawned (checked_of_none ?_)
      cases r with
      | edit r => rfl
      | sweep r =>
          unfold RosterCall.dropsAdmin RosterRequest.begin OffboardingRequest.begin
          cases h : r.entry <;> simp [h]
  | advance k i =>
      refine h.advanced ?_
      intro x hx
      cases i with
      | fails =>
          cases x with
          | edit x | sweep x => exact ⟨h.1, x.fail_checked k, fun j y _ hy => h.2 j y hy⟩
      | succeeds now =>
          obtain ⟨hkeyed, hkeeps, hchecked⟩ := RosterCall.succeed_spec h.1 now k x
          refine ⟨⟨hkeyed, ?_⟩, hchecked, ?_⟩
          · -- the admin that the request's check has seen is left, or the one there was
            by_cases hdrops : ∃ t ∈ x.dropsAdmin, t.1 = orgId
            · obtain ⟨t, ht, horg⟩ := hdrops
              refine ((h.2 k x hx t ht horg).kept hkeeps fun t' ht' _ _ => ?_).hasAdmin
              rw [Option.some.inj (ht.symm.trans ht')]
            · obtain ⟨m, hm, rfl, hadmin⟩ := h.1.2
              obtain ⟨m', hm', horg', -, hadmin'⟩ := hkeeps m hm hadmin fun t ht heq => hdrops ⟨t, ht, heq ▸ rfl⟩
              exact ⟨m', hm', horg', hadmin'⟩
          · intro j y _ hy u hu horg
            refine (h.2 j y hy u hu horg).kept hkeeps fun t ht htorg hadmin => ?_
            exact hstep x hx t ht (htorg ▸ hadmin) y (List.mem_of_getElem? hy) u hu (horg.trans htorg.symm)
  | env m =>
      obtain ⟨hkept, hkeeps⟩ := h.1.addMembership m
      exact ⟨hkept, fun j y hy u hu horg => (h.2 j y hy u hu horg).kept hkeeps nofun⟩

end step

/-- **An organization keeps an admin** in every run in which no admin is demoted or removed while a request about
another member of the organization is between its check and its write. -/
theorem admins_remain (db : Directory) (hkeyed : db.MembersKeyed) (orgId : String) (h : db.HasAdmin orgId)
    (steps : List RosterStep) (hsteps : StepsMeet rosterStep NotOvertaken (rosterStart db) steps) :
    (run rosterStep (rosterStart db) steps).shared.db.HasAdmin orgId := by
  have hstart : (rosterStart db).Holds (RosterKept orgId) (RosterCall.Checked orgId) :=
    ⟨⟨hkeyed, h⟩, fun k x hx => by simp [rosterStart] at hx⟩
  exact (run_invariant (fun _ _ => rosterStep_kept) steps _ hstart hsteps).1.2

/-- Two admins and another member. -/
def twoAdmins : Directory where
  users := []
  members := [⟨"org", "ann", .admin⟩, ⟨"org", "bob", .admin⟩, ⟨"org", "cat", .user⟩]
  keys := []
  provenance := []
  audit := []

def rosterCalls (k n : ℕ) : List RosterStep := List.replicate n (.advance k (.succeeds 0))

/-- One admin demotes the other, while the member is removed; the sweep of the last admin is refused. -/
def demoteThenSweep : List RosterStep :=
  [.spawn (.edit ⟨.setRole (some .user), "org", "bob", "ann", false⟩),
    .spawn (.edit ⟨.remove, "org", "cat", "bob", false⟩)] ++
    rosterCalls 1 3 ++ rosterCalls 0 3 ++ rosterCalls 1 2 ++ rosterCalls 0 2 ++
    .spawn (.sweep ⟨.direct none, "org", "ann", .keep⟩) :: rosterCalls 2 3

/-- Both demotions pass the last-admin check before either is written. -/
def mutualDemotion : List RosterStep :=
  [.spawn (.edit ⟨.setRole (some .user), "org", "bob", "ann", false⟩),
    .spawn (.edit ⟨.setRole (some .user), "org", "ann", "bob", false⟩)] ++
    rosterCalls 0 3 ++ rosterCalls 1 3 ++ rosterCalls 0 2 ++ rosterCalls 1 2

theorem admins_remain_sample :
    (run rosterStep (rosterStart twoAdmins) demoteThenSweep).shared.db.members =
      [⟨"org", "ann", .admin⟩, ⟨"org", "bob", .user⟩] ∧
    (run rosterStep (rosterStart twoAdmins) demoteThenSweep).shared.db.HasAdmin "org" :=
  ⟨by decide, admins_remain twoAdmins (by decide) "org" (by decide) demoteThenSweep (by decide +kernel)⟩

theorem no_admin_left :
    twoAdmins.HasAdmin "org" ∧
      (∃ m ∈ (run rosterStep (rosterStart twoAdmins) mutualDemotion).shared.db.members, m.orgId = "org") ∧
      ¬ (run rosterStep (rosterStart twoAdmins) mutualDemotion).shared.db.HasAdmin "org" :=
  ⟨by decide, by decide, by decide⟩

end Experiential.Identity
