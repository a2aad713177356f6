import Experiential.Lib.ReadCommitted

/-! # Team rosters as transactions

The writes to `organization_members`, `organization_teams` and `organization_team_members`, statement by
statement. A trigger reads the membership of the organization before a team member is inserted, and the
foreign key's check locks the team after it. Another trigger takes a member who leaves the organization
off its teams, and the deletion of a team cascades to its roster. A move of a membership is an update, and
no trigger runs for it. -/

namespace Experiential.Teams

/-- The three tables. `teams` gives the organization of each team, and `issued` the identifiers that were
ever drawn for one. -/
structure TeamsDb where
  members : List (String × String)
  teams : String → Option String
  roster : List (String × String)
  issued : List String

/-- A row version that a statement writes; `shareTeam` is the lock of the foreign key's check. -/
inductive TeamsWrite where
  | putMember (orgId userId : String)
  | dropMember (orgId userId : String)
  | putTeam (teamId orgId : String)
  | dropTeam (teamId : String)
  | shareTeam (teamId : String)
  | putTeamMember (teamId userId : String)
  | dropTeamMember (teamId userId : String)
deriving DecidableEq

inductive TeamsRow where
  | member (orgId userId : String)
  | team (teamId : String)
  | teamMember (teamId userId : String)
deriving DecidableEq

namespace TeamsWrite

def row : TeamsWrite → TeamsRow
  | putMember o u => .member o u
  | dropMember o u => .member o u
  | putTeam t _ => .team t
  | dropTeam t => .team t
  | shareTeam t => .team t
  | putTeamMember t u => .teamMember t u
  | dropTeamMember t u => .teamMember t u

def shares : TeamsWrite → Bool
  | shareTeam _ => true
  | _ => false

/-- Writes of one row exclude each other, unless both only share it. -/
def Conflicts (w v : TeamsWrite) : Prop := w.row = v.row ∧ ¬ (w.shares = true ∧ v.shares = true)

instance : DecidableRel Conflicts := fun w v =>
  inferInstanceAs (Decidable (w.row = v.row ∧ ¬ (w.shares = true ∧ v.shares = true)))

end TeamsWrite

def TeamsDb.apply (db : TeamsDb) : TeamsWrite → TeamsDb
  | .putMember o u => { db with members := db.members.insert (o, u) }
  | .dropMember o u => { db with members := db.members.filter (· ≠ (o, u)) }
  | .putTeam t o => { db with teams := Function.update db.teams t (some o), issued := t :: db.issued }
  | .dropTeam t => { db with teams := Function.update db.teams t none }
  | .shareTeam _ => db
  | .putTeamMember t u => { db with roster := db.roster.insert (t, u) }
  | .dropTeamMember t u => { db with roster := db.roster.filter (· ≠ (t, u)) }

inductive TeamsStatement where
  /-- `organization_team_member_org_check`, before the insert. -/
  | checkMember (teamId userId : String)
  | insertTeamMember (teamId userId : String)
  /-- The foreign key's check, after the insert. -/
  | checkTeam (teamId : String)
  | deleteTeamMember (teamId userId : String)
  | insertMember (orgId userId : String)
  | deleteMember (orgId userId : String)
  /-- `organization_member_delete_team_cascade`. -/
  | cascadeMember (orgId userId : String)
  | updateMember (orgId userId : String) (targetOrgId : Option String)
  | insertTeam (teamId orgId : String)
  | deleteTeam (teamId : String)
  /-- The rows of a roster, for the foreign key's cascade and for the route's own deletion of them. -/
  | deleteRoster (teamId : String)
deriving DecidableEq

inductive TeamsCall where
  | addTeamMember (teamId userId : String)
  | removeTeamMember (teamId userId : String)
  | addMember (orgId userId : String)
  | removeMember (orgId userId : String)
  | moveMember (orgId userId : String) (targetOrgId : Option String)
  | createTeam (teamId orgId : String)
  | clearTeam (teamId : String)
  | deleteTeam (teamId : String)

def TeamsCall.program : TeamsCall → List TeamsStatement
  | addTeamMember t u => [.checkMember t u, .insertTeamMember t u, .checkTeam t]
  | removeTeamMember t u => [.deleteTeamMember t u]
  | addMember o u => [.insertMember o u]
  | removeMember o u => [.deleteMember o u]
  | moveMember o u target => [.updateMember o u target]
  | createTeam t o => [.insertTeam t o]
  | clearTeam t => [.deleteRoster t]
  | deleteTeam t => [.deleteTeam t]

namespace TeamsStatement

/-- What a statement does on the database that it sees: its writes, and the statements of the triggers it
fires; none when it raises. -/
def exec (db : TeamsDb) : TeamsStatement → Option (List TeamsWrite × List TeamsStatement)
  | checkMember t u => if ∃ o ∈ db.teams t, (o, u) ∈ db.members then some ([], []) else none
  | insertTeamMember t u => if (t, u) ∈ db.roster then none else some ([.putTeamMember t u], [])
  | checkTeam t => if (db.teams t).isSome then some ([.shareTeam t], []) else none
  | deleteTeamMember t u => some (if (t, u) ∈ db.roster then [.dropTeamMember t u] else [], [])
  | insertMember o u => if (o, u) ∈ db.members then none else some ([.putMember o u], [])
  | deleteMember o u =>
      if (o, u) ∈ db.members then some ([.dropMember o u], [.cascadeMember o u]) else some ([], [])
  | cascadeMember o u =>
      some ([], (db.roster.filter fun r => db.teams r.1 = some o ∧ r.2 = u).map fun r => .deleteTeamMember r.1 r.2)
  | updateMember o u target =>
      if (o, u) ∉ db.members then some ([], [])
      else if target.getD o = o then some ([.putMember o u], [])
      else if (target.getD o, u) ∈ db.members then none
      else some ([.dropMember o u, .putMember (target.getD o) u], [])
  | insertTeam t o => if t ∈ db.issued then none else some ([.putTeam t o], [])
  | deleteTeam t => if (db.teams t).isSome then some ([.dropTeam t], [.deleteRoster t]) else some ([], [])
  | deleteRoster t => some ([], (db.roster.filter fun r => r.1 = t).map fun r => .deleteTeamMember r.1 r.2)

end TeamsStatement

/-- The statements that a transaction may run, with the locks that they take. -/
def teams : LockSystem TeamsDb TeamsCall TeamsStatement TeamsWrite Unit where
  program := TeamsCall.program
  exec _ := TeamsStatement.exec
  apply := TeamsDb.apply
  conflicts := TeamsWrite.Conflicts
  symm _ _ := fun ⟨hrow, hshare⟩ => ⟨hrow.symm, fun h => hshare h.symm⟩

instance : DecidableRel teams.conflicts := inferInstanceAs (DecidableRel TeamsWrite.Conflicts)

abbrev TeamsTxn := Txn TeamsCall TeamsStatement TeamsWrite

abbrev TeamsStore := TxnStore TeamsDb TeamsCall TeamsStatement TeamsWrite

/-! ### What the writes of a transaction do -/

section view
variable {db : TeamsDb} {t : TeamsTxn} {teamId orgId : String} {r : String × String}

/-- A property that no write of the transaction takes away. -/
theorem view_keeps {Q : TeamsDb → Prop} (h : Q db) (hw : ∀ w ∈ t.writes, ∀ db, Q db → Q (db.apply w)) :
    Q (teams.view db t) :=
  List.foldlRecOn t.writes TeamsDb.apply h fun db hdb w hmem => hw w hmem db hdb

theorem mem_view_members (h : r ∈ db.members) (hdrop : .dropMember r.1 r.2 ∉ t.writes) :
    r ∈ (teams.view db t).members := by
  refine view_keeps (Q := fun db => r ∈ db.members) h ?_
  intro w hw db h
  cases w with
  | putMember o u => exact List.mem_insert_of_mem h
  | dropMember o u =>
      refine List.mem_filter.mpr ⟨h, decide_eq_true ?_⟩
      rintro rfl
      exact hdrop hw
  | _ => exact h

theorem teams_of_view (h : (teams.view db t).teams teamId = some orgId) :
    db.teams teamId = some orgId ∨ .putTeam teamId orgId ∈ t.writes := by
  have hkeeps : ∀ o, (teams.view db t).teams teamId = some o →
      db.teams teamId = some o ∨ .putTeam teamId o ∈ t.writes := by
    refine view_keeps (Q := fun db' => ∀ o, db'.teams teamId = some o →
      db.teams teamId = some o ∨ .putTeam teamId o ∈ t.writes) (fun _ => .inl) ?_
    intro w hw db' ih o ho
    cases w with
    | putTeam t' o' =>
        by_cases heq : teamId = t'
        · subst heq
          simp only [TeamsDb.apply, Function.update_self, Option.some.injEq] at ho
          exact .inr (ho ▸ hw)
        · simp only [TeamsDb.apply, Function.update_of_ne heq] at ho
          exact ih o ho
    | dropTeam t' =>
        by_cases heq : teamId = t'
        · simp [TeamsDb.apply, heq] at ho
        · simp only [TeamsDb.apply, Function.update_of_ne heq] at ho
          exact ih o ho
    | _ => exact ih o ho
  exact hkeeps orgId h

theorem view_teams (h : db.teams teamId = some orgId) (hdrop : .dropTeam teamId ∉ t.writes)
    (hput : ∀ o, .putTeam teamId o ∉ t.writes) : (teams.view db t).teams teamId = some orgId := by
  refine view_keeps (Q := fun db => db.teams teamId = some orgId) h ?_
  intro w hw db h
  cases w with
  | putTeam t' o' =>
      have hne : teamId ≠ t' := fun heq => hput o' (heq ▸ hw)
      simp only [TeamsDb.apply, Function.update_of_ne hne]
      exact h
  | dropTeam t' =>
      have hne : teamId ≠ t' := fun heq => hdrop (heq ▸ hw)
      simp only [TeamsDb.apply, Function.update_of_ne hne]
      exact h
  | _ => exact h

theorem roster_of_view (h : r ∈ (teams.view db t).roster) :
    r ∈ db.roster ∨ .putTeamMember r.1 r.2 ∈ t.writes := by
  have hkeeps : ∀ r, r ∈ (teams.view db t).roster → r ∈ db.roster ∨ .putTeamMember r.1 r.2 ∈ t.writes := by
    refine view_keeps (Q := fun db' => ∀ r, r ∈ db'.roster →
      r ∈ db.roster ∨ .putTeamMember r.1 r.2 ∈ t.writes) (fun _ => .inl) ?_
    intro w hw db' ih r hr
    cases w with
    | putTeamMember t' u' =>
        rcases List.mem_insert_iff.mp hr with rfl | hr
        · exact .inr hw
        · exact ih r hr
    | dropTeamMember t' u' => exact ih r (List.mem_of_mem_filter hr)
    | _ => exact ih r hr
  exact hkeeps r h

theorem mem_view_roster (h : r ∈ db.roster) (hdrop : .dropTeamMember r.1 r.2 ∉ t.writes) :
    r ∈ (teams.view db t).roster := by
  refine view_keeps (Q := fun db => r ∈ db.roster) h ?_
  intro w hw db h
  cases w with
  | putTeamMember t' u' => exact List.mem_insert_of_mem h
  | dropTeamMember t' u' =>
      refine List.mem_filter.mpr ⟨h, decide_eq_true ?_⟩
      rintro rfl
      exact hdrop hw
  | _ => exact h

/-- A transaction that adds nobody to a roster leaves nobody there whom it deletes. -/
theorem not_mem_view_roster (hput : ∀ t' u', .putTeamMember t' u' ∉ t.writes)
    (hdrop : .dropTeamMember r.1 r.2 ∈ t.writes) : r ∉ (teams.view db t).roster := by
  obtain ⟨ws, vs, hws⟩ := List.append_of_mem hdrop
  unfold LockSystem.view
  rw [hws, List.foldl_append, List.foldl_cons]
  refine List.foldlRecOn vs TeamsDb.apply (motive := fun db => r ∉ db.roster) ?_ ?_
  · exact fun h => absurd rfl (of_decide_eq_true (List.mem_filter.mp h).2)
  · intro db h w hw
    cases w with
    | putTeamMember t' u' =>
        refine absurd ?_ (hput t' u')
        rw [hws]
        exact List.mem_append_right _ (List.mem_cons_of_mem _ hw)
    | dropTeamMember t' u' => exact fun hr => h (List.mem_of_mem_filter hr)
    | _ => exact h

theorem mem_view_issued (h : teamId ∈ db.issued) : teamId ∈ (teams.view db t).issued := by
  refine view_keeps (Q := fun db => teamId ∈ db.issued) h ?_
  intro w _ db h
  cases w with
  | putTeam t' o' => exact List.mem_cons_of_mem _ h
  | _ => exact h

theorem issued_of_view (h : teamId ∈ (teams.view db t).issued) :
    teamId ∈ db.issued ∨ ∃ o, .putTeam teamId o ∈ t.writes := by
  have hkeeps : ∀ t', t' ∈ (teams.view db t).issued → t' ∈ db.issued ∨ ∃ o, .putTeam t' o ∈ t.writes := by
    refine view_keeps (Q := fun db' => ∀ t', t' ∈ db'.issued →
      t' ∈ db.issued ∨ ∃ o, .putTeam t' o ∈ t.writes) (fun _ => .inl) ?_
    intro w hw db' ih t' ht'
    cases w with
    | putTeam t'' o =>
        rcases List.mem_cons.mp ht' with rfl | ht'
        · exact .inr ⟨o, hw⟩
        · exact ih t' ht'
    | _ => exact ih t' ht'
  exact hkeeps teamId h

theorem view_issued (h : ∀ teamId o, db.teams teamId = some o → teamId ∈ db.issued) :
    ∀ teamId o, (teams.view db t).teams teamId = some o → teamId ∈ (teams.view db t).issued := by
  refine view_keeps (Q := fun db => ∀ teamId o, db.teams teamId = some o → teamId ∈ db.issued) h ?_
  intro w _ db h teamId o hteam
  cases w with
  | putTeam t' o' =>
      by_cases heq : teamId = t'
      · exact heq ▸ List.mem_cons_self
      · simp only [TeamsDb.apply, Function.update_of_ne heq] at hteam
        exact List.mem_cons_of_mem _ (h teamId o hteam)
  | dropTeam t' =>
      by_cases heq : teamId = t'
      · simp [TeamsDb.apply, heq] at hteam
      · simp only [TeamsDb.apply, Function.update_of_ne heq] at hteam
        exact h teamId o hteam
  | _ => exact h teamId o hteam

end view

end Experiential.Teams
