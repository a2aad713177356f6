import Experiential.Admin.Tables
import Experiential.Lib.ReadCommitted

/-! # The bans of an organization as transactions

`record_org_ban` bans every member who is neither banned nor an operator, through the user ban, and
marks the rows it made. `clear_org_ban` lifts the rows with its mark, except that another banned
organization of the user adopts them. Each statement of the two is a definition of its own.

`record_org_ban` and `clear_org_ban`, statement by statement, with the row versions that each writes.
A leak is a live key, a pending invitation or a free member of the organization. A ban closes every
leak it finds, with the statements it has yet to run or with its writes (`Sealing`); an unban writes
neither keys nor invitations, and opens leaks only by the user bans it lifts (`Lifting`). -/

namespace Experiential.Admin.AdminDb

open Identity

/-- `left('Organization banned: ' || reason, 500)` -/
def sweepReason (reason : BanReason) : BanReason where
  text := String.ofList (("Organization banned: ".toList ++ reason.text.toList).take 500)
  nonempty := by
    rw [String.length_ofList, List.length_take, List.length_append]
    have : "Organization banned: ".toList.length = 21 := by decide
    omega
  short := by
    rw [String.length_ofList]
    exact List.length_take_le _ _

section statements
variable (db : AdminDb) (now : Int) (orgId userId : String)

def OrgExists : Prop := orgId ∈ db.organizations.map (·.id)

instance : Decidable (db.OrgExists orgId) := inferInstanceAs (Decidable (orgId ∈ db.organizations.map (·.id)))

/-- `organizations.banned_at` is set. -/
def OrgBanned : Prop := ∃ o ∈ db.organizations, o.id = orgId ∧ o.bannedAt.isSome = true

instance : Decidable (db.OrgBanned orgId) :=
  inferInstanceAs (Decidable (∃ o ∈ db.organizations, o.id = orgId ∧ o.bannedAt.isSome = true))

def Belongs : Prop := ∃ m ∈ db.members, m.orgId = orgId ∧ m.userId = userId

instance : Decidable (db.Belongs orgId userId) :=
  inferInstanceAs (Decidable (∃ m ∈ db.members, m.orgId = orgId ∧ m.userId = userId))

def upsertOrgBan (bannedBy : Option String) (reason : BanReason) : AdminDb :=
  { db with orgBans :=
      if orgId ∈ db.orgBans.map (·.orgId) then
        db.orgBans.map fun b =>
          if b.orgId = orgId then { b with reason := reason, bannedBy := bannedBy, bannedAt := now } else b
      else db.orgBans ++ [⟨orgId, reason, bannedBy, now⟩] }

def deleteOrgBan : AdminDb := { db with orgBans := db.orgBans.filter fun b => decide (b.orgId ≠ orgId) }

def setBannedAt (bannedAt : Option Int) : AdminDb :=
  { db with organizations :=
      db.organizations.map fun o => if o.id = orgId then { o with bannedAt := bannedAt } else o }

def revokeOrgKeys : AdminDb :=
  { db with apiKeys := revokeApiKeys now (fun k => decide (k.orgId = orgId)) db.apiKeys }

def revokeOrgInvitations : AdminDb :=
  { db with invitations := db.invitations.map fun i =>
      if i.orgId = orgId ∧ i.acceptedAt = none then { i with revokedAt := revoke now i.revokedAt } else i }

/-- The members whom an organization ban sweeps. -/
def membersToSweep : List String :=
  (db.members.filter fun m =>
    decide (m.orgId = orgId) && !decide (db.IsBanned m.userId) && !decide (db.IsOperator m.userId)).map (·.userId)

def setBannedVia (viaOrgId : String) : AdminDb :=
  { db with userBans :=
      db.userBans.map fun b => if b.userId = userId then { b with bannedViaOrgId := some viaOrgId } else b }

/-- One pass of the ban's loop. -/
def sweepMember (bannedBy : Option String) (reason : BanReason) : AdminDb :=
  (db.recordUserBan now userId bannedBy (sweepReason reason)).setBannedVia userId orgId

/-- `record_org_ban`; the foreign key refuses an organization that is not there. -/
def recordOrgBan (bannedBy : Option String) (reason : BanReason) : AdminDb :=
  if db.OrgExists orgId then
    let sealed := (((db.upsertOrgBan now orgId bannedBy reason).setBannedAt orgId (some now)).revokeOrgKeys now
      orgId).revokeOrgInvitations now orgId
    (sealed.membersToSweep orgId).foldl (fun db userId => db.sweepMember now orgId userId bannedBy reason) sealed
  else db

/-- The users whose ban an organization ban made. -/
def sweptVia : List String :=
  (db.userBans.filter fun b => decide (b.bannedViaOrgId = some orgId)).map (·.userId)

/-- The banned organizations a user belongs to. -/
def bannedOrgsOf : List String :=
  (db.members.filter fun m => decide (m.userId = userId)).flatMap fun m =>
    (db.organizations.filter fun o => decide (o.id = m.orgId) && o.bannedAt.isSome).map (·.id)

/-- One pass of the unban's loop; `pick` is the row that `limit 1` happens to return. -/
def releaseSwept (pick : ℕ) : AdminDb :=
  match (db.bannedOrgsOf userId)[pick % (db.bannedOrgsOf userId).length]? with
  | some adopting => db.setBannedVia userId adopting
  | none => db.clearUserBan userId

/-- `clear_org_ban` -/
def clearOrgBan (pick : String → ℕ) : AdminDb :=
  let lifted := (db.deleteOrgBan orgId).setBannedAt orgId none
  (lifted.sweptVia orgId).foldl (fun db userId => db.releaseSwept userId (pick userId)) lifted

end statements

/-! ### What the statements leave alone -/

section lemmas
variable {db : AdminDb} {now : Int} {orgId userId u : String} {bannedBy : Option String} {reason : BanReason}
  {pick : ℕ}

theorem setBannedVia_users (viaOrgId : String) :
    (db.setBannedVia userId viaOrgId).userBans.map (·.userId) = db.userBans.map (·.userId) := by
  rw [setBannedVia, map_update_key]
  intro _ _
  rfl

@[simp] theorem setBannedVia_isBanned {viaOrgId : String} :
    (db.setBannedVia userId viaOrgId).IsBanned u ↔ db.IsBanned u := by
  unfold IsBanned
  rw [setBannedVia_users]

@[simp] theorem setBannedAt_orgBanned {bannedAt : Option Int} {o : String} :
    (db.setBannedAt orgId bannedAt).OrgBanned o ↔
      if o = orgId then db.OrgExists orgId ∧ bannedAt.isSome = true else db.OrgBanned o := by
  unfold OrgBanned OrgExists setBannedAt
  simp only [List.mem_map]
  constructor
  · rintro ⟨_, ⟨r, hr, rfl⟩, hid, hb⟩
    by_cases horg : r.id = orgId
    · rw [if_pos horg] at hid hb
      have ho : o = orgId := hid.symm.trans horg
      rw [if_pos ho]
      exact ⟨⟨r, hr, horg⟩, hb⟩
    · rw [if_neg horg] at hid hb
      have ho : o ≠ orgId := fun ho => horg (hid.trans ho)
      rw [if_neg ho]
      exact ⟨r, hr, hid, hb⟩
  · intro h
    by_cases ho : o = orgId
    · rw [if_pos ho] at h
      obtain ⟨⟨r, hr, hid⟩, hb⟩ := h
      refine ⟨_, ⟨r, hr, rfl⟩, ?_, ?_⟩
      · rw [if_pos hid]
        exact hid.trans ho.symm
      · rw [if_pos hid]
        exact hb
    · rw [if_neg ho] at h
      obtain ⟨r, hr, hid, hb⟩ := h
      have horg : r.id ≠ orgId := fun horg => ho (hid.symm.trans horg)
      refine ⟨_, ⟨r, hr, rfl⟩, ?_, ?_⟩
      · rw [if_neg horg]
        exact hid
      · rw [if_neg horg]
        exact hb

theorem mem_bannedOrgsOf {o : String} :
    o ∈ db.bannedOrgsOf userId ↔ db.Belongs o userId ∧ db.OrgBanned o := by
  unfold bannedOrgsOf OrgBanned Belongs
  simp only [List.mem_flatMap, List.mem_filter, List.mem_map, decide_eq_true_eq, Bool.and_eq_true]
  constructor
  · rintro ⟨m, ⟨hm, hu⟩, r, ⟨hr, hid, hb⟩, rfl⟩
    exact ⟨⟨m, hm, hid.symm, hu⟩, r, hr, rfl, hb⟩
  · rintro ⟨⟨m, hm, hid, hu⟩, r, hr, rfl, hb⟩
    exact ⟨m, ⟨hm, hu⟩, r, ⟨hr, hid.symm, hb⟩, rfl⟩

/-- The adopting organization is one of the user's banned ones; there is none when they have none. -/
theorem releaseSwept_cases (db : AdminDb) (userId : String) (pick : ℕ) :
    (∃ o ∈ db.bannedOrgsOf userId, db.releaseSwept userId pick = db.setBannedVia userId o) ∨
      db.bannedOrgsOf userId = [] ∧ db.releaseSwept userId pick = db.clearUserBan userId := by
  unfold releaseSwept
  cases hpick : (db.bannedOrgsOf userId)[pick % (db.bannedOrgsOf userId).length]? with
  | some o => exact .inl ⟨o, List.mem_of_getElem? hpick, rfl⟩
  | none =>
      refine .inr ⟨?_, rfl⟩
      rw [List.getElem?_eq_none_iff] at hpick
      by_contra hne
      have hpos := List.length_pos_iff.mpr hne
      exact absurd (Nat.mod_lt pick hpos) (Nat.not_lt.mpr hpick)

end lemmas

end Experiential.Admin.AdminDb

namespace Experiential.Admin

open Identity

/-! ### The statements -/

/-- What a ban is called with, and its `now()`. -/
structure OrgBanRequest where
  now : Int
  bannedBy : Option String
  reason : BanReason

inductive OrgBanCall where
  | record (r : OrgBanRequest)
  | clear

def OrgBanCall.bans : OrgBanCall → Bool
  | .record _ => true
  | .clear => false

/-- A row version that a statement writes. -/
inductive RowWrite where
  | orgBan (ban : OrgBan)
  | dropOrgBan (orgId : String)
  | bannedAt (orgId : String) (bannedAt : Option Int)
  | revokeKey (id : String) (revokedAt : Int)
  | revokeInvitation (id : String) (revokedAt : Int)
  | revokeSuperadminKey (id : String) (revokedAt : Int)
  | userBan (ban : UserBan)
  | dropUserBan (userId : String)
  | bannedUntil (userId : String) (bannedUntil : Option Int)
deriving DecidableEq

inductive BanRow where
  | orgBan (orgId : String)
  | organization (id : String)
  | apiKey (id : String)
  | invitation (id : String)
  | superadminKey (id : String)
  | userBan (userId : String)
  | account (id : String)
deriving DecidableEq

def RowWrite.row : RowWrite → BanRow
  | .orgBan b => .orgBan b.orgId
  | .dropOrgBan o => .orgBan o
  | .bannedAt o _ => .organization o
  | .revokeKey id _ => .apiKey id
  | .revokeInvitation id _ => .invitation id
  | .revokeSuperadminKey id _ => .superadminKey id
  | .userBan b => .userBan b.userId
  | .dropUserBan u => .userBan u
  | .bannedUntil u _ => .account u

inductive BanStatement where
  | upsertOrgBan (r : OrgBanRequest)
  | setBannedAt (now : Int)
  | revokeKeys (now : Int)
  | revokeInvitations (now : Int)
  /-- The loop's query: each member it returns is swept by the five statements that follow. -/
  | selectMembers (r : OrgBanRequest)
  | upsertUserBan (r : OrgBanRequest) (userId : String)
  | revokeUserKeys (now : Int) (userId : String)
  | revokeSuperadminKeys (now : Int) (userId : String)
  | lockAccount (now : Int) (userId : String)
  | setBannedVia (userId : String)
  | deleteOrgBan
  | clearBannedAt
  /-- The loop's query: each user it returns is looked up. -/
  | selectSwept
  /-- The banned organization, if any, that adopts the user. -/
  | lookupAdopting (userId : String)
  | adopt (userId adoptingOrgId : String)
  | deleteUserBan (userId : String)
  | unlockAccount (userId : String)

namespace AdminDb

def putOrgBan (ban : OrgBan) (bans : List OrgBan) : List OrgBan :=
  if ban.orgId ∈ bans.map (·.orgId) then bans.map fun b => if b.orgId = ban.orgId then ban else b else bans ++ [ban]

def putUserBan (ban : UserBan) (bans : List UserBan) : List UserBan :=
  if ban.userId ∈ bans.map (·.userId) then bans.map fun b => if b.userId = ban.userId then ban else b else bans ++ [ban]

def write (db : AdminDb) : RowWrite → AdminDb
  | .orgBan b => { db with orgBans := putOrgBan b db.orgBans }
  | .dropOrgBan o => db.deleteOrgBan o
  | .bannedAt o t => db.setBannedAt o t
  | .revokeKey id t => { db with apiKeys := revokeApiKeys t (fun k => decide (k.id = id)) db.apiKeys }
  | .revokeInvitation id t => { db with invitations := db.invitations.map fun i =>
      if i.id = id then { i with revokedAt := revoke t i.revokedAt } else i }
  | .revokeSuperadminKey id t => { db with superadminKeys := db.superadminKeys.map fun k =>
      if k.id = id then { k with revokedAt := revoke t k.revokedAt } else k }
  | .userBan b => { db with userBans := putUserBan b db.userBans }
  | .dropUserBan u => { db with userBans := db.userBans.filter fun b => decide (b.userId ≠ u) }
  | .bannedUntil u t => { db with accounts := db.accounts.map fun a =>
      if a.id = u then { a with bannedUntil := t } else a }

section statements
variable (orgId : String) (db : AdminDb)

def liveKeys (p : ApiKey → Bool) : List ApiKey := db.apiKeys.filter fun k => p k && k.revokedAt.isNone

def userBanOf (userId : String) : Option UserBan := db.userBans.find? fun b => decide (b.userId = userId)

/-- What the statements of the two functions do: the writes, and the statements that follow. -/
def runStatement (pick : ℕ) : BanStatement → Option (List RowWrite × List BanStatement)
  | .upsertOrgBan r =>
      -- the foreign key refuses an organization that is not there
      if db.OrgExists orgId then some ([.orgBan ⟨orgId, r.reason, r.bannedBy, r.now⟩], []) else none
  | .setBannedAt now => some (if db.OrgExists orgId then [.bannedAt orgId (some now)] else [], [])
  | .revokeKeys now => some ((db.liveKeys fun k => decide (k.orgId = orgId)).map fun k => .revokeKey k.id now, [])
  | .revokeInvitations now =>
      some ((db.invitations.filter fun i =>
        decide (i.orgId = orgId) && i.acceptedAt.isNone && i.revokedAt.isNone).map fun i => .revokeInvitation i.id now, [])
  | .selectMembers r =>
      some ([], (db.membersToSweep orgId).flatMap fun u => [.upsertUserBan r u, .revokeUserKeys r.now u,
        .revokeSuperadminKeys r.now u, .lockAccount r.now u, .setBannedVia u])
  | .upsertUserBan r u =>
      some ([.userBan ⟨u, sweepReason r.reason, r.bannedBy, r.now, (db.userBanOf u).bind (·.bannedViaOrgId)⟩], [])
  | .revokeUserKeys now u => some ((db.liveKeys fun k => decide (k.createdBy = u)).map fun k => .revokeKey k.id now, [])
  | .revokeSuperadminKeys now u =>
      some ((db.superadminKeys.filter fun k => decide (k.userId = u) && k.revokedAt.isNone).map fun k =>
        .revokeSuperadminKey k.id now, [])
  | .lockAccount now u =>
      some (if u ∈ db.accounts.map (·.id) then [.bannedUntil u (some (now + banHorizon))] else [], [])
  | .setBannedVia u => some ((db.userBanOf u).toList.map fun b => .userBan { b with bannedViaOrgId := some orgId }, [])
  | .deleteOrgBan => some (if orgId ∈ db.orgBans.map (·.orgId) then [.dropOrgBan orgId] else [], [])
  | .clearBannedAt => some (if db.OrgBanned orgId then [.bannedAt orgId none] else [], [])
  | .selectSwept => some ([], (db.sweptVia orgId).map .lookupAdopting)
  | .lookupAdopting u =>
      -- `pick` is the row that `limit 1` happens to return
      match (db.bannedOrgsOf u)[pick % (db.bannedOrgsOf u).length]? with
      | some adopting => some ([], [.adopt u adopting])
      | none => some ([], [.deleteUserBan u, .unlockAccount u])
  | .adopt u adopting =>
      some ((db.userBanOf u).toList.map fun b => .userBan { b with bannedViaOrgId := some adopting }, [])
  | .deleteUserBan u => some (if db.IsBanned u then [.dropUserBan u] else [], [])
  | .unlockAccount u =>
      some (if ∃ a ∈ db.accounts, a.id = u ∧ a.bannedUntil.isSome then [.bannedUntil u none] else [], [])

end statements

end AdminDb

def recordOrgBanStatements (r : OrgBanRequest) : List BanStatement :=
  [.upsertOrgBan r, .setBannedAt r.now, .revokeKeys r.now, .revokeInvitations r.now, .selectMembers r]

def clearOrgBanStatements : List BanStatement := [.deleteOrgBan, .clearBannedAt, .selectSwept]

def OrgBanCall.statements : OrgBanCall → List BanStatement
  | .record r => recordOrgBanStatements r
  | .clear => clearOrgBanStatements

abbrev BanTxn := Txn OrgBanCall BanStatement RowWrite

abbrev BanStore := TxnStore AdminDb OrgBanCall BanStatement RowWrite

abbrev BanEvent := TxnEvent OrgBanCall ℕ

/-- The bans and unbans of one organization. -/
def banSystem (orgId : String) : TxnSystem AdminDb OrgBanCall BanStatement RowWrite BanRow ℕ where
  program := OrgBanCall.statements
  exec pick db stmt := db.runStatement orgId pick stmt
  apply := AdminDb.write
  row := RowWrite.row

/-! ### Leaks -/

/-- A live key, a pending invitation, or a member who is neither banned nor an operator. -/
inductive Leak where
  | key (id : String)
  | invitation (id : String)
  | member (userId : String)

def AdminDb.Leaks (db : AdminDb) (orgId : String) : Leak → Prop
  | .key id => ∃ k ∈ db.apiKeys, k.id = id ∧ k.orgId = orgId ∧ k.revokedAt = none
  | .invitation id => ∃ i ∈ db.invitations, i.id = id ∧ i.orgId = orgId ∧ i.acceptedAt = none ∧ i.revokedAt = none
  | .member u => db.Belongs orgId u ∧ ¬ db.IsBanned u ∧ ¬ db.IsOperator u

/-- The organization has no live key, no pending invitation, and no member but banned ones and operators. -/
structure AdminDb.Sealed (db : AdminDb) (orgId : String) : Prop where
  keys : ∀ k ∈ db.apiKeys, k.orgId = orgId → k.revokedAt ≠ none
  invitations : ∀ i ∈ db.invitations, i.orgId = orgId → i.acceptedAt = none → i.revokedAt ≠ none
  members : ∀ m ∈ db.members, m.orgId = orgId → db.IsBanned m.userId ∨ db.IsOperator m.userId

theorem AdminDb.sealed_iff {db : AdminDb} {orgId : String} : db.Sealed orgId ↔ ∀ l, ¬ db.Leaks orgId l := by
  constructor
  · rintro ⟨hkeys, hinv, hmem⟩ l
    cases l with
    | key id =>
        rintro ⟨k, hk, -, horg, hlive⟩
        exact hkeys k hk horg hlive
    | invitation id =>
        rintro ⟨i, hi, -, horg, hacc, hlive⟩
        exact hinv i hi horg hacc hlive
    | member u =>
        rintro ⟨⟨m, hm, horg, rfl⟩, hban, hop⟩
        exact (hmem m hm horg).elim hban hop
  · intro h
    refine ⟨fun k hk horg hlive => h (.key k.id) ⟨k, hk, rfl, horg, hlive⟩, fun i hi horg hacc hlive =>
      h (.invitation i.id) ⟨i, hi, rfl, horg, hacc, hlive⟩, fun m hm horg => ?_⟩
    by_contra hnot
    rw [not_or] at hnot
    exact h (.member m.userId) ⟨⟨m, hm, horg, rfl⟩, hnot⟩

/-- The write takes the leak away. -/
def RowWrite.Closes : RowWrite → Leak → Prop
  | .revokeKey k _, .key id => k = id
  | .revokeInvitation i _, .invitation id => i = id
  | .userBan b, .member u => b.userId = u
  | _, _ => False

/-- The statement finds the leak, if it is there, and takes it away. -/
def BanStatement.Closes : BanStatement → Leak → Prop
  | .revokeKeys _, .key _ => True
  | .revokeInvitations _, .invitation _ => True
  | .selectMembers _, .member _ => True
  | .upsertUserBan _ v, .member u => v = u
  | _, _ => False

instance (w : RowWrite) (l : Leak) : Decidable (w.Closes l) := by
  unfold RowWrite.Closes
  split <;> infer_instance

instance (s : BanStatement) (l : Leak) : Decidable (s.Closes l) := by
  unfold BanStatement.Closes
  split <;> infer_instance

/-- The transaction takes the leak away before it commits. -/
def BanTxn.Closing (t : BanTxn) (l : Leak) : Prop := (∃ s ∈ t.todo, s.Closes l) ∨ ∃ w ∈ t.writes, w.Closes l

instance (t : BanTxn) (l : Leak) : Decidable (t.Closing l) :=
  inferInstanceAs (Decidable ((∃ s ∈ t.todo, s.Closes l) ∨ ∃ w ∈ t.writes, w.Closes l))

namespace AdminDb
variable {db : AdminDb} {orgId : String} {l : Leak} {w : RowWrite} {t : BanTxn} {u o : String}

theorem revoke_ne_none {now : Int} (t : Option Int) : revoke now t ≠ none := by
  cases t <;> exact Option.some_ne_none _

theorem putUserBan_users (b : UserBan) (bans : List UserBan) :
    u ∈ (putUserBan b bans).map (·.userId) ↔ b.userId = u ∨ u ∈ bans.map (·.userId) := by
  unfold putUserBan
  split
  · rename_i hb
    rw [map_update_key fun r hr => Eq.symm hr]
    constructor
    · exact .inr
    · rintro (rfl | hu)
      · exact hb
      · exact hu
  · rw [List.map_append, List.mem_append, List.map_singleton, List.mem_singleton, or_comm, eq_comm]

@[simp] theorem write_members (db : AdminDb) (w : RowWrite) : (db.write w).members = db.members := by
  cases w <;> rfl

@[simp] theorem write_platformAdmins (db : AdminDb) (w : RowWrite) :
    (db.write w).platformAdmins = db.platformAdmins := by
  cases w <;> rfl

theorem write_orgExists : (db.write w).OrgExists o ↔ db.OrgExists o := by
  cases w with
  | bannedAt p t =>
      unfold OrgExists write setBannedAt
      rw [map_update_key]
      intro _ _
      rfl
  | _ => exact Iff.rfl

theorem write_orgBanned_of_ne (hw : ∀ t, w ≠ .bannedAt o t) : (db.write w).OrgBanned o ↔ db.OrgBanned o := by
  cases w with
  | bannedAt p t =>
      have hne : o ≠ p := fun hop => hw t (by rw [hop])
      unfold write
      rw [setBannedAt_orgBanned, if_neg hne]
  | _ => exact Iff.rfl

/-- A write closes a leak or leaves it as it is, but for the lifting of a user ban. -/
theorem leaks_write (h : (db.write w).Leaks orgId l) :
    (∃ u, w = .dropUserBan u ∧ l = .member u) ∨ db.Leaks orgId l ∧ ¬ w.Closes l := by
  cases l with
  | key id =>
      refine .inr ?_
      cases w with
      | revokeKey k t =>
          obtain ⟨_, hmem, hid, horg, hlive⟩ := h
          obtain ⟨q, hq, rfl⟩ := List.mem_map.mp hmem
          by_cases hqk : q.id = k
          · rw [if_pos (decide_eq_true hqk)] at hlive
            exact absurd hlive (revoke_ne_none _)
          · rw [if_neg (by simpa using hqk)] at hid horg hlive
            exact ⟨⟨q, hq, hid, horg, hlive⟩, fun hk => hqk (hid.trans (Eq.symm hk))⟩
      | _ => exact ⟨h, fun hw => hw⟩
  | invitation id =>
      refine .inr ?_
      cases w with
      | revokeInvitation k t =>
          obtain ⟨_, hmem, hid, horg, hacc, hlive⟩ := h
          obtain ⟨q, hq, rfl⟩ := List.mem_map.mp hmem
          by_cases hqk : q.id = k
          · rw [if_pos hqk] at hlive
            exact absurd hlive (revoke_ne_none _)
          · rw [if_neg hqk] at hid horg hacc hlive
            exact ⟨⟨q, hq, hid, horg, hacc, hlive⟩, fun hk => hqk (hid.trans (Eq.symm hk))⟩
      | _ => exact ⟨h, fun hw => hw⟩
  | member u =>
      cases w with
      | userBan b =>
          obtain ⟨hbel, hban, hop⟩ := h
          have hnot := mt (putUserBan_users b db.userBans).mpr hban
          exact .inr ⟨⟨hbel, fun hu => hnot (.inr hu), hop⟩, fun hb => hnot (.inl hb)⟩
      | dropUserBan v =>
          by_cases hvu : v = u
          · exact .inl ⟨v, rfl, by rw [hvu]⟩
          · obtain ⟨hbel, hban, hop⟩ := h
            refine .inr ⟨⟨hbel, fun hu => hban ?_, hop⟩, fun hw => hw⟩
            obtain ⟨b, hb, rfl⟩ := List.mem_map.mp hu
            exact List.mem_map.mpr ⟨b, List.mem_filter.mpr ⟨hb, decide_eq_true (Ne.symm hvu)⟩, rfl⟩
      | _ => exact .inr ⟨h, fun hw => hw⟩

theorem Leaks.write (h : db.Leaks orgId l) : (db.write w).Leaks orgId l ∨ w.Closes l := by
  cases l with
  | key id =>
      cases w with
      | revokeKey k t =>
          obtain ⟨q, hq, rfl, horg, hlive⟩ := h
          by_cases hqk : q.id = k
          · exact .inr (Eq.symm hqk)
          · refine .inl ⟨q, List.mem_map.mpr ⟨q, hq, ?_⟩, rfl, horg, hlive⟩
            rw [if_neg (by simpa using hqk)]
      | _ => exact .inl h
  | invitation id =>
      cases w with
      | revokeInvitation k t =>
          obtain ⟨q, hq, rfl, horg, hlive⟩ := h
          by_cases hqk : q.id = k
          · exact .inr (Eq.symm hqk)
          · exact .inl ⟨q, List.mem_map.mpr ⟨q, hq, if_neg hqk⟩, rfl, horg, hlive⟩
      | _ => exact .inl h
  | member u =>
      cases w with
      | userBan b =>
          obtain ⟨hbel, hban, hop⟩ := h
          by_cases hbu : b.userId = u
          · exact .inr hbu
          · refine .inl ⟨hbel, fun hu => ?_, hop⟩
            rcases (putUserBan_users b db.userBans).mp hu with hb | hu
            · exact hbu hb
            · exact hban hu
      | dropUserBan v =>
          obtain ⟨hbel, hban, hop⟩ := h
          refine .inl ⟨hbel, fun hu => hban ?_, hop⟩
          obtain ⟨b, hb, rfl⟩ := List.mem_map.mp hu
          exact List.mem_map.mpr ⟨b, (List.mem_filter.mp hb).1, rfl⟩
      | _ => exact .inl h

end AdminDb

end Experiential.Admin
