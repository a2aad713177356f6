import Experiential.Admin.BanTransactions

/-! # What a ban in progress closes

`Sealing`: a ban transaction closes every leak of the organization that is committed while it is
under way, and `Lifting`: an unban does not mark the organization. Each statement keeps them, and so
does every commit, as long as an unban that frees a member has lifted the mark itself or finds the
organization unmarked (`banEvent_holds`). -/

namespace Experiential.Admin

open Identity

/-- The marks and the lifted user bans that a statement writes. -/
def BanStatement.Writes : BanStatement → RowWrite → Prop
  | .setBannedAt now, .bannedAt _ t => t = some now
  | .clearBannedAt, .bannedAt _ t => t = none
  | .deleteUserBan u, .dropUserBan v => v = u
  | _, .bannedAt _ _ => False
  | _, .dropUserBan _ => False
  | _, _ => True

/-- The statements of the pass over one member. -/
def BanStatement.Sweeps : BanStatement → Prop
  | .upsertUserBan _ _ | .revokeUserKeys _ _ | .revokeSuperadminKeys _ _ | .lockAccount _ _ | .setBannedVia _ => True
  | _ => False

/-- The statements of an unban. -/
def BanStatement.Lifts : BanStatement → Prop
  | .deleteOrgBan | .clearBannedAt | .selectSwept | .lookupAdopting _ | .adopt _ _ | .deleteUserBan _
  | .unlockAccount _ => True
  | _ => False

namespace AdminDb
variable {db : AdminDb} {orgId u o : String} {l : Leak} {t : BanTxn} {r : OrgBanRequest} {pick : ℕ}
  {stmt : BanStatement} {ws : List RowWrite} {more rest : List BanStatement}

/-! ### What a transaction sees -/

theorem foldl_write_members : ∀ (ws : List RowWrite) (db : AdminDb), (ws.foldl write db).members = db.members
  | [], _ => rfl
  | w :: ws, db => by rw [List.foldl_cons, foldl_write_members ws, write_members]

theorem foldl_write_platformAdmins : ∀ (ws : List RowWrite) (db : AdminDb),
    (ws.foldl write db).platformAdmins = db.platformAdmins
  | [], _ => rfl
  | w :: ws, db => by rw [List.foldl_cons, foldl_write_platformAdmins ws, write_platformAdmins]

theorem foldl_write_orgExists : ∀ {ws : List RowWrite} {db : AdminDb},
    (ws.foldl write db).OrgExists o ↔ db.OrgExists o
  | [], _ => Iff.rfl
  | w :: ws, db => by rw [List.foldl_cons, foldl_write_orgExists, write_orgExists]

theorem foldl_write_belongs {ws : List RowWrite} : (ws.foldl write db).Belongs o u ↔ db.Belongs o u := by
  unfold Belongs
  rw [foldl_write_members]

theorem foldl_write_isOperator {ws : List RowWrite} : (ws.foldl write db).IsOperator u ↔ db.IsOperator u := by
  unfold IsOperator
  rw [foldl_write_platformAdmins]

theorem foldl_leaks : ∀ (ws : List RowWrite) (db : AdminDb), (ws.foldl write db).Leaks orgId l →
    (∃ u, .dropUserBan u ∈ ws ∧ l = .member u) ∨ db.Leaks orgId l ∧ ∀ w ∈ ws, ¬ w.Closes l
  | [], _, h => .inr ⟨h, fun _ hw => absurd hw List.not_mem_nil⟩
  | w :: ws, db, h => by
      rcases foldl_leaks ws (db.write w) h with ⟨u, hu, rfl⟩ | ⟨hleak, hws⟩
      · exact .inl ⟨u, List.mem_cons_of_mem _ hu, rfl⟩
      · rcases leaks_write hleak with ⟨u, rfl, rfl⟩ | ⟨hleak, hw⟩
        · exact .inl ⟨u, List.mem_cons_self, rfl⟩
        · exact .inr ⟨hleak, List.forall_mem_cons.mpr ⟨hw, hws⟩⟩

theorem Leaks.foldl : ∀ (ws : List RowWrite) {db : AdminDb}, db.Leaks orgId l →
    (ws.foldl AdminDb.write db).Leaks orgId l ∨ ∃ w ∈ ws, w.Closes l
  | [], _, h => .inl h
  | w :: ws, db, h => by
      rcases h.write (w := w) with h | hw
      · rcases Leaks.foldl ws h with h | ⟨v, hv, hl⟩
        · exact .inl h
        · exact .inr ⟨v, List.mem_cons_of_mem _ hv, hl⟩
      · exact .inr ⟨w, List.mem_cons_self, hw⟩

/-- Without a mark among the writes, only a marked organization is marked, and not a lifted one. -/
theorem foldl_orgBanned : ∀ (ws : List RowWrite) (db : AdminDb), (∀ v, .bannedAt orgId (some v) ∉ ws) →
    (ws.foldl write db).OrgBanned orgId → db.OrgBanned orgId ∧ .bannedAt orgId none ∉ ws
  | [], _, _, h => ⟨h, List.not_mem_nil⟩
  | w :: ws, db, hno, h => by
      obtain ⟨hw, hnone⟩ := foldl_orgBanned ws (db.write w) (fun v hv => hno v (List.mem_cons_of_mem _ hv)) h
      by_cases hmark : ∃ t, w = .bannedAt orgId t
      · obtain ⟨t, rfl⟩ := hmark
        unfold write at hw
        rw [setBannedAt_orgBanned, if_pos rfl] at hw
        obtain ⟨v, rfl⟩ := Option.isSome_iff_exists.mp hw.2
        exact absurd List.mem_cons_self (hno v)
      · rw [write_orgBanned_of_ne fun t ht => hmark ⟨t, ht⟩] at hw
        refine ⟨hw, fun hmem => ?_⟩
        rcases List.mem_cons.mp hmem with rfl | hmem
        · exact hmark ⟨none, rfl⟩
        · exact hnone hmem

/-! ### What one statement does -/

/-- A statement that closes a leak of what it sees writes so, or expands to a statement that does. -/
theorem runStatement_closes (hrun : db.runStatement orgId pick stmt = some (ws, more)) (hclose : stmt.Closes l)
    (hleak : db.Leaks orgId l) : (∃ w ∈ ws, w.Closes l) ∨ ∃ s ∈ more, s.Closes l := by
  cases stmt with
  | revokeKeys now =>
      cases l with
      | key id =>
          obtain ⟨k, hk, rfl, horg, hlive⟩ := hleak
          cases hrun
          refine .inl ⟨_, List.mem_map.mpr ⟨k, List.mem_filter.mpr ⟨hk, ?_⟩, rfl⟩, rfl⟩
          simp [horg, hlive]
      | _ => cases hclose
  | revokeInvitations now =>
      cases l with
      | invitation id =>
          obtain ⟨i, hi, rfl, horg, hacc, hlive⟩ := hleak
          cases hrun
          refine .inl ⟨_, List.mem_map.mpr ⟨i, List.mem_filter.mpr ⟨hi, ?_⟩, rfl⟩, rfl⟩
          simp [horg, hacc, hlive]
      | _ => cases hclose
  | selectMembers r =>
      cases l with
      | member u =>
          obtain ⟨⟨m, hm, horg, rfl⟩, hban, hop⟩ := hleak
          cases hrun
          refine .inr ⟨.upsertUserBan r m.userId, List.mem_flatMap.mpr ⟨m.userId, ?_, List.mem_cons_self⟩, rfl⟩
          refine List.mem_map.mpr ⟨m, List.mem_filter.mpr ⟨hm, ?_⟩, rfl⟩
          simp [horg, hban, hop]
      | _ => cases hclose
  | upsertUserBan r v =>
      cases l with
      | member u =>
          cases hrun
          exact .inl ⟨_, List.mem_singleton_self _, hclose⟩
      | _ => cases hclose
  | _ => cases l <;> cases hclose

theorem runStatement_writes (hrun : db.runStatement orgId pick stmt = some (ws, more)) {w : RowWrite} (hw : w ∈ ws) :
    stmt.Writes w := by
  cases stmt
  case upsertOrgBan =>
    simp only [runStatement] at hrun
    split at hrun <;> cases hrun
    rw [List.mem_singleton.mp hw]
    trivial
  case lookupAdopting =>
    simp only [runStatement] at hrun
    split at hrun <;> cases hrun <;> cases hw
  case setBannedAt | lockAccount | deleteOrgBan | clearBannedAt | deleteUserBan | unlockAccount =>
    cases hrun
    split at hw
    · rw [List.mem_singleton.mp hw]
      first | rfl | trivial
    · cases hw
  case revokeKeys | revokeInvitations | revokeUserKeys | revokeSuperadminKeys | setBannedVia | adopt =>
    cases hrun
    obtain ⟨_, _, rfl⟩ := List.mem_map.mp hw
    trivial
  case selectMembers | selectSwept =>
    cases hrun
    cases hw
  case upsertUserBan =>
    cases hrun
    rw [List.mem_singleton.mp hw]
    trivial

/-- The query of a ban expands to passes over members, and a statement of an unban to statements of an
unban. -/
theorem runStatement_more (hrun : db.runStatement orgId pick stmt = some (ws, more)) {s : BanStatement}
    (hs : s ∈ more) : (∃ r, stmt = .selectMembers r) ∧ s.Sweeps ∨ stmt.Lifts ∧ s.Lifts := by
  cases stmt
  case selectMembers r =>
    cases hrun
    refine .inl ⟨⟨r, rfl⟩, ?_⟩
    obtain ⟨u, _, hs⟩ := List.mem_flatMap.mp hs
    simp only [List.mem_cons, List.not_mem_nil, or_false] at hs
    rcases hs with rfl | rfl | rfl | rfl | rfl
    all_goals trivial
  case selectSwept =>
    cases hrun
    obtain ⟨_, _, rfl⟩ := List.mem_map.mp hs
    exact .inr ⟨trivial, trivial⟩
  case lookupAdopting =>
    simp only [runStatement] at hrun
    split at hrun <;> cases hrun
    · rw [List.mem_singleton.mp hs]
      exact .inr ⟨trivial, trivial⟩
    · simp only [List.mem_cons, List.not_mem_nil, or_false] at hs
      rcases hs with rfl | rfl
      all_goals exact .inr ⟨trivial, trivial⟩
  case upsertOrgBan =>
    simp only [runStatement] at hrun
    split at hrun <;> cases hrun
    cases hs
  all_goals
    cases hrun
    cases hs

end AdminDb

/-! ### The transactions -/

/-- The statements that a ban has yet to run: a rest of its program, or of the passes over the members. -/
def SealingShape (r : OrgBanRequest) (todo : List BanStatement) : Prop :=
  todo <:+ recordOrgBanStatements r ∨ ∀ s ∈ todo, s.Sweeps

/-- What a ban in progress has done, and what it is still to do. -/
structure Sealing (orgId : String) (db : AdminDb) (r : OrgBanRequest) (t : BanTxn) : Prop where
  shape : SealingShape r t.todo
  /-- Past its first statement the organization is there. -/
  found : .upsertOrgBan r ∈ t.todo ∨ db.OrgExists orgId
  marks : .setBannedAt r.now ∈ t.todo ∨ .bannedAt orgId (some r.now) ∈ t.writes
  keeps : ∀ u, .dropUserBan u ∉ t.writes
  closes : ∀ l, db.Leaks orgId l → t.Closing l

/-- An unban in progress only lifts. -/
structure Lifting (orgId : String) (t : BanTxn) : Prop where
  lifts : ∀ s ∈ t.todo, s.Lifts
  unmarked : ∀ v, .bannedAt orgId (some v) ∉ t.writes

/-- What holds of each transaction. -/
def TxnInvariant (orgId : String) (db : AdminDb) (t : BanTxn) : Prop :=
  match t.call with
  | .record r => Sealing orgId db r t
  | .clear => Lifting orgId t

section
variable {db : AdminDb} {orgId u o : String} {l : Leak} {t : BanTxn} {r : OrgBanRequest} {pick : ℕ}
  {stmt : BanStatement} {ws : List RowWrite} {more rest : List BanStatement}

/-- Where a ban is: at one of the five statements of its program, or in the passes over the members. -/
theorem SealingShape.head (h : SealingShape r (stmt :: rest)) :
    stmt = .upsertOrgBan r ∧
        rest = [.setBannedAt r.now, .revokeKeys r.now, .revokeInvitations r.now, .selectMembers r] ∨
      stmt = .setBannedAt r.now ∧ rest = [.revokeKeys r.now, .revokeInvitations r.now, .selectMembers r] ∨
      stmt = .revokeKeys r.now ∧ rest = [.revokeInvitations r.now, .selectMembers r] ∨
      stmt = .revokeInvitations r.now ∧ rest = [.selectMembers r] ∨
      stmt = .selectMembers r ∧ rest = [] ∨
      stmt.Sweeps ∧ ∀ s ∈ rest, s.Sweeps := by
  rcases h with h | h
  · simp only [recordOrgBanStatements, List.suffix_cons_iff, List.suffix_nil, List.cons.injEq, reduceCtorEq,
      or_false] at h
    rcases h with h | h | h | h | h
    · exact .inl h
    · exact .inr (.inl h)
    · exact .inr (.inr (.inl h))
    · exact .inr (.inr (.inr (.inl h)))
    · exact .inr (.inr (.inr (.inr (.inl h))))
  · exact .inr (.inr (.inr (.inr (.inr ⟨h stmt List.mem_cons_self, fun s hs => h s (List.mem_cons_of_mem _ hs)⟩))))

theorem Sweeps.not_lifts (h : stmt.Sweeps) : ¬ stmt.Lifts := by
  cases stmt <;> first | exact id | cases h

theorem SealingShape.not_lifts (h : SealingShape r (stmt :: rest)) : ¬ stmt.Lifts := by
  rcases h.head with ⟨rfl, -⟩ | ⟨rfl, -⟩ | ⟨rfl, -⟩ | ⟨rfl, -⟩ | ⟨rfl, -⟩ | ⟨hs, -⟩
  case inr.inr.inr.inr.inr => exact Sweeps.not_lifts hs
  all_goals exact id

/-- Only the query over the members expands to anything. -/
theorem SealingShape.more_nil (h : SealingShape r (stmt :: rest)) (hstmt : ∀ q, stmt ≠ .selectMembers q)
    (hrun : db.runStatement orgId pick stmt = some (ws, more)) : more = [] := by
  refine List.eq_nil_iff_forall_not_mem.mpr fun s hs => ?_
  rcases AdminDb.runStatement_more hrun hs with ⟨⟨q, hq⟩, -⟩ | ⟨hl, -⟩
  · exact hstmt q hq
  · exact h.not_lifts hl

theorem SealingShape.next (h : SealingShape r (stmt :: rest))
    (hrun : db.runStatement orgId pick stmt = some (ws, more)) : SealingShape r (more ++ rest) := by
  by_cases hstmt : ∃ q, stmt = .selectMembers q
  · -- the query was the last statement of the program
    obtain ⟨q, rfl⟩ := hstmt
    have hrest : q = r ∧ rest = [] := by simpa [BanStatement.Sweeps] using h.head
    rw [hrest.2, List.append_nil]
    refine .inr fun s hs => ?_
    rcases AdminDb.runStatement_more hrun hs with ⟨-, hsweep⟩ | ⟨hl, -⟩
    · exact hsweep
    · cases hl
  · have hnil := h.more_nil (fun q hq => hstmt ⟨q, hq⟩) hrun
    rw [hnil, List.nil_append]
    rcases h with h | h
    · exact .inl ((List.suffix_cons _ _).trans h)
    · exact .inr fun s hs => h s (List.mem_cons_of_mem _ hs)

/-- Nothing of the organization is swept before its mark is written. -/
theorem Sealing.closing_of_setBannedAt (h : Sealing orgId db r t) (hmark : .setBannedAt r.now ∈ t.todo) (l : Leak) :
    t.Closing l := by
  have hrest : [.revokeKeys r.now, .revokeInvitations r.now, .selectMembers r] ⊆ t.todo := by
    rcases h.shape with hs | hs
    · simp only [recordOrgBanStatements, List.suffix_cons_iff, List.suffix_nil] at hs
      rcases hs with hs | hs | hs | hs | hs | hs <;> rw [hs] at hmark ⊢ <;> simp at hmark ⊢
    · exact absurd (hs _ hmark) id
  refine .inl ?_
  cases l with
  | key id => exact ⟨_, hrest (.head _), trivial⟩
  | invitation id => exact ⟨_, hrest (.tail _ (.head _)), trivial⟩
  | member u => exact ⟨_, hrest (.tail _ (.tail _ (.head _))), trivial⟩

/-- A statement closes its leaks itself or hands them to the statements it expands to. -/
theorem BanTxn.Closing.ran (h : t.Closing l) (htodo : t.todo = stmt :: rest) (hleak : db.Leaks orgId l)
    (hrun : ((banSystem orgId).view db t).runStatement orgId pick stmt = some (ws, more)) :
    BanTxn.Closing (TxnSystem.ran t ws more rest) l := by
  rcases h with ⟨s, hs, hl⟩ | ⟨w, hw, hl⟩
  · rw [htodo] at hs
    rcases List.mem_cons.mp hs with rfl | hs
    · rcases hleak.foldl t.writes with hleak | ⟨w, hw, hl⟩
      · rcases AdminDb.runStatement_closes hrun hl hleak with ⟨w, hw, hl⟩ | ⟨s, hs, hl⟩
        · exact .inr ⟨w, List.mem_append_right _ hw, hl⟩
        · exact .inl ⟨s, List.mem_append_left _ hs, hl⟩
      · exact .inr ⟨w, List.mem_append_left _ hw, hl⟩
    · exact .inl ⟨s, List.mem_append_right _ hs, hl⟩
  · exact .inr ⟨w, List.mem_append_left _ hw, hl⟩

theorem Sealing.ran (h : Sealing orgId db r t) (htodo : t.todo = stmt :: rest)
    (hrun : ((banSystem orgId).view db t).runStatement orgId pick stmt = some (ws, more)) :
    Sealing orgId db r (TxnSystem.ran t ws more rest) := by
  have hshape : SealingShape r (stmt :: rest) := htodo ▸ h.shape
  refine ⟨hshape.next hrun, ?_, ?_, ?_, fun l hl => (h.closes l hl).ran htodo hl hrun⟩
  · -- the insert found the organization
    by_cases hins : stmt = .upsertOrgBan r
    · subst hins
      simp only [AdminDb.runStatement] at hrun
      split at hrun
      · rename_i hex
        exact .inr (AdminDb.foldl_write_orgExists.mp hex)
      · cases hrun
    · refine h.found.imp (fun hmem => ?_) id
      rw [htodo] at hmem
      exact List.mem_append_right _ ((List.mem_cons.mp hmem).resolve_left (Ne.symm hins))
  · by_cases hmark : stmt = .setBannedAt r.now
    · subst hmark
      -- the insert is behind
      have hfirst : .upsertOrgBan r ∉ t.todo := by
        have hhead := hshape.head
        simp only [reduceCtorEq, false_and, true_and, false_or, BanStatement.Sweeps, or_false] at hhead
        rw [htodo, hhead]
        simp
      have hex : ((banSystem orgId).view db t).OrgExists orgId :=
        AdminDb.foldl_write_orgExists.mpr (h.found.resolve_left hfirst)
      simp only [AdminDb.runStatement, if_pos hex] at hrun
      cases hrun
      exact .inr (List.mem_append_right _ (List.mem_singleton_self _))
    · refine h.marks.imp (fun hmem => ?_) fun hw => List.mem_append_left _ hw
      rw [htodo] at hmem
      exact List.mem_append_right _ ((List.mem_cons.mp hmem).resolve_left (Ne.symm hmark))
  · intro u hmem
    rcases List.mem_append.mp hmem with hmem | hmem
    · exact h.keeps u hmem
    · have hw := AdminDb.runStatement_writes hrun hmem
      cases stmt with
      | deleteUserBan v => exact hshape.not_lifts trivial
      | _ => cases hw

theorem Lifting.ran (h : Lifting orgId t) (htodo : t.todo = stmt :: rest)
    (hrun : db.runStatement orgId pick stmt = some (ws, more)) : Lifting orgId (TxnSystem.ran t ws more rest) := by
  have hstmt : stmt.Lifts := h.lifts stmt (htodo ▸ List.mem_cons_self)
  refine ⟨fun s hs => ?_, fun v hmem => ?_⟩
  · rcases List.mem_append.mp hs with hs | hs
    · rcases AdminDb.runStatement_more hrun hs with ⟨⟨q, rfl⟩, -⟩ | ⟨-, hl⟩
      · cases hstmt
      · exact hl
    · exact h.lifts s (htodo ▸ List.mem_cons_of_mem _ hs)
  · rcases List.mem_append.mp hmem with hmem | hmem
    · exact h.unmarked v hmem
    · have hw := AdminDb.runStatement_writes hrun hmem
      cases stmt with
      | setBannedAt now => cases hstmt
      | _ => cases hw

/-- A change of the tables that leaves the organization where it is and opens no leak but such as the ban
closes. -/
theorem Sealing.changed (h : Sealing orgId db r t) {db' : AdminDb} (hex : db.OrgExists orgId → db'.OrgExists orgId)
    (hleaks : ∀ l, db'.Leaks orgId l → db.Leaks orgId l ∨ t.Closing l) : Sealing orgId db' r t where
  shape := h.shape
  found := h.found.imp id hex
  marks := h.marks
  keeps := h.keeps
  closes l hl := (hleaks l hl).elim (h.closes l) id

end

/-! ### The store -/

/-- The user whose ban the write lifts. -/
def RowWrite.frees : RowWrite → Option String
  | .dropUserBan u => some u
  | _ => none

/-- The organization is not marked, and every ban of it in progress closes the leak. -/
def BanStore.Allows (s : BanStore) (orgId : String) (l : Leak) : Prop :=
  ¬ s.db.OrgBanned orgId ∧ ∀ t ∈ s.txns, t.call.bans = true → BanTxn.Closing t l

instance (s : BanStore) (orgId : String) (l : Leak) : Decidable (s.Allows orgId l) :=
  inferInstanceAs (Decidable (¬ s.db.OrgBanned orgId ∧ ∀ t ∈ s.txns, t.call.bans = true → BanTxn.Closing t l))

/-- Whoever the transaction frees is no member or an operator, unless it has lifted the mark itself, or the
organization allows it. -/
def FreesRightly (orgId : String) (s : BanStore) (t : BanTxn) : Prop :=
  ∀ w ∈ t.writes, ∀ u ∈ w.frees, s.db.Belongs orgId u → s.db.IsOperator u ∨ .bannedAt orgId none ∈ t.writes ∨
    s.Allows orgId (.member u)

instance (orgId : String) (s : BanStore) (t : BanTxn) : Decidable (FreesRightly orgId s t) := by
  unfold FreesRightly
  infer_instance

/-- Every transaction that commits frees rightly. -/
def CommitsRightly (orgId : String) (s : BanStore) : BanEvent → Prop
  | .advance k _ => ∀ t ∈ s.txns[k]?, t.todo = [] → FreesRightly orgId s t
  | _ => True

abbrev BanStore.SealHolds (orgId : String) : BanStore → Prop :=
  (banSystem orgId).Holds (fun db => db.OrgBanned orgId → db.Sealed orgId) (TxnInvariant orgId)

section
variable {orgId u o : String} {s : BanStore} {db db' : AdminDb} {t : BanTxn} {r : OrgBanRequest} {l : Leak}

theorem txnInvariant_record (hcall : t.call = .record r) : TxnInvariant orgId db t ↔ Sealing orgId db r t := by
  unfold TxnInvariant
  rw [hcall]

theorem txnInvariant_clear (hcall : t.call = .clear) : TxnInvariant orgId db t ↔ Lifting orgId t := by
  unfold TxnInvariant
  rw [hcall]

/-- A change of the tables that opens no leak but such as the transaction closes, if it is a ban. -/
theorem TxnInvariant.changed (h : TxnInvariant orgId db t) (hex : db.OrgExists orgId → db'.OrgExists orgId)
    (hleaks : ∀ l, db'.Leaks orgId l → db.Leaks orgId l ∨ (t.call.bans = true → t.Closing l)) :
    TxnInvariant orgId db' t := by
  cases hcall : t.call with
  | record r =>
      rw [txnInvariant_record hcall] at h ⊢
      exact h.changed hex fun l hl => (hleaks l hl).imp id fun hc => hc (by rw [hcall]; rfl)
  | clear =>
      rw [txnInvariant_clear hcall] at h ⊢
      exact h

theorem begin_invariant (call : OrgBanCall) : TxnInvariant orgId db ((banSystem orgId).begin call) := by
  cases call with
  | record r =>
      refine ⟨.inl (List.suffix_refl _), .inl (.head _), .inl (.tail _ (.head _)), fun u hu => ?_, fun l _ => .inl ?_⟩
      · cases hu
      · cases l with
        | key id => exact ⟨.revokeKeys r.now, .tail _ (.tail _ (.head _)), trivial⟩
        | invitation id => exact ⟨.revokeInvitations r.now, .tail _ (.tail _ (.tail _ (.head _))), trivial⟩
        | member u => exact ⟨.selectMembers r, .tail _ (.tail _ (.tail _ (.tail _ (.head _)))), trivial⟩
  | clear =>
      refine ⟨?_, fun v hv => by cases hv⟩
      intro q hq
      simp only [TxnSystem.begin, banSystem, OrgBanCall.statements, clearOrgBanStatements, List.mem_cons,
        List.not_mem_nil, or_false] at hq
      rcases hq with rfl | rfl | rfl
      all_goals trivial

theorem Sealing.commits (h : Sealing orgId db r t) (htodo : t.todo = []) :
    ((banSystem orgId).view db t).Sealed orgId := by
  refine AdminDb.sealed_iff.mpr fun l hl => ?_
  rcases AdminDb.foldl_leaks t.writes db hl with ⟨u, hu, -⟩ | ⟨hleak, hopen⟩
  · exact h.keeps u hu
  · rcases h.closes l hleak with ⟨q, hq, -⟩ | ⟨w, hw, hclose⟩
    · rw [htodo] at hq
      cases hq
    · exact hopen w hw hclose

/-- Whoever a transaction frees becomes a leak only if the transaction has lifted the mark, or the organization
allows it. -/
theorem FreesRightly.opens (h : FreesRightly orgId s t) (hl : ((banSystem orgId).view s.db t).Leaks orgId l) :
    s.db.Leaks orgId l ∨ .bannedAt orgId none ∈ t.writes ∨ s.Allows orgId l := by
  rcases AdminDb.foldl_leaks t.writes s.db hl with ⟨u, hu, rfl⟩ | ⟨hleak, -⟩
  · obtain ⟨hbel, -, hop⟩ := hl
    have hbel' : s.db.Belongs orgId u := AdminDb.foldl_write_belongs.mp hbel
    have hop' : ¬ s.db.IsOperator u := fun hu => hop (AdminDb.foldl_write_isOperator.mpr hu)
    exact .inr ((h _ hu u rfl hbel').resolve_left hop')
  · exact .inl hleak

/-- Bans that exclude an unban which has lifted the mark have not begun to sweep. -/
theorem Sealing.closing_of_lifted {v : BanTxn} (h : Sealing orgId db r v) (hapart : (banSystem orgId).Apart t v)
    (hlifted : .bannedAt orgId none ∈ t.writes) (l : Leak) : v.Closing l := by
  refine h.closing_of_setBannedAt (h.marks.resolve_right fun hmark => ?_) l
  exact hapart _ hlifted _ hmark rfl

theorem banEvent_holds (h : s.SealHolds orgId) (e : BanEvent) (hmeets : CommitsRightly orgId s e) :
    BanStore.SealHolds orgId ((banSystem orgId).step s e) := by
  refine TxnSystem.step_holds h e (fun call => begin_invariant call) ?_ ?_
  · intro t _ pick stmt rest ws more ht htodo hrun
    cases hcall : t.call with
    | record r =>
        rw [txnInvariant_record hcall] at ht
        exact (txnInvariant_record (t := TxnSystem.ran t ws more rest) hcall).mpr (ht.ran htodo hrun)
    | clear =>
        rw [txnInvariant_clear hcall] at ht
        exact (txnInvariant_clear (t := TxnSystem.ran t ws more rest) hcall).mpr (ht.ran htodo hrun)
  · intro k pick t he ht htodo hinv
    have hex : s.db.OrgExists orgId → ((banSystem orgId).view s.db t).OrgExists orgId :=
      AdminDb.foldl_write_orgExists.mpr
    cases hcall : t.call with
    | record r =>
        have hsealed := ((txnInvariant_record hcall).mp hinv).commits htodo
        refine ⟨fun _ => hsealed, fun v _ hv _ => hv.changed hex fun l hl => ?_⟩
        exact absurd hl (AdminDb.sealed_iff.mp hsealed l)
    | clear =>
        subst he
        have hlift := (txnInvariant_clear hcall).mp hinv
        have hfrees : FreesRightly orgId s t := hmeets t ht htodo
        constructor
        · intro hbanned
          obtain ⟨hbefore, hnotlifted⟩ := AdminDb.foldl_orgBanned t.writes s.db hlift.unmarked hbanned
          refine AdminDb.sealed_iff.mpr fun l hl => ?_
          rcases hfrees.opens hl with hleak | hlifted | hallows
          · exact AdminDb.sealed_iff.mp (h.db hbefore) l hleak
          · exact hnotlifted hlifted
          · exact hallows.1 hbefore
        · intro v hmem hv hapart
          refine hv.changed hex fun l hl => ?_
          rcases hfrees.opens hl with hleak | hlifted | hallows
          · exact .inl hleak
          · refine .inr fun hbans => ?_
            cases hvcall : v.call with
            | record q => exact ((txnInvariant_record hvcall).mp hv).closing_of_lifted hapart hlifted l
            | clear =>
                rw [hvcall] at hbans
                cases hbans
          · exact .inr (hallows.2 v hmem)

/-- Another writer's single statement: it may open what the organization allows. -/
theorem BanStore.SealHolds.changed (h : s.SealHolds orgId) (horgs : db'.organizations = s.db.organizations)
    (hleaks : ∀ l, db'.Leaks orgId l → s.db.Leaks orgId l ∨ s.Allows orgId l) :
    BanStore.SealHolds orgId { s with db := db' } := by
  have hbanned : db'.OrgBanned orgId → s.db.OrgBanned orgId := by
    unfold AdminDb.OrgBanned
    rw [horgs]
    exact id
  have hex : s.db.OrgExists orgId → db'.OrgExists orgId := by
    unfold AdminDb.OrgExists
    rw [horgs]
    exact id
  refine TxnSystem.Holds.changed h ?_ ?_
  · intro hb
    refine AdminDb.sealed_iff.mpr fun l hl => ?_
    rcases hleaks l hl with hleak | hallows
    · exact AdminDb.sealed_iff.mp (h.db (hbanned hb)) l hleak
    · exact hallows.1 (hbanned hb)
  · intro t ht hinv
    exact hinv.changed hex fun l hl => (hleaks l hl).imp id fun ha => ha.2 t ht

end

end Experiential.Admin
