import Experiential.Teams.Transactions

/-! # Team rosters stay inside the organization

A transaction that adds a team member has read the membership (`Checked`) and relies on it until it
commits. A transaction that takes a membership or a team away still has to take the rows of the rosters
that rested on it, or has done so (`Closing`). The two do not wait for each other, so what keeps them
apart is the order of their statements: `InTurn` says which order that is, and `rosters_stay_inside` that
it is enough. -/

namespace Experiential.Teams

/-- Every row of a roster names a team, and a member of the team's organization. -/
def RostersBacked (db : TeamsDb) : Prop := ∀ r ∈ db.roster, ∃ o ∈ db.teams r.1, (o, r.2) ∈ db.members

instance (db : TeamsDb) : Decidable (RostersBacked db) :=
  inferInstanceAs (Decidable (∀ r ∈ db.roster, ∃ o ∈ db.teams r.1, (o, r.2) ∈ db.members))

/-- The rosters are backed, and every team was issued. -/
structure Sound (db : TeamsDb) : Prop where
  backed : RostersBacked db
  issued : ∀ teamId o, db.teams teamId = some o → teamId ∈ db.issued

/-- The transaction adds the user to a team of the organization, and has checked the membership. -/
def Adding (db : TeamsDb) (t : TeamsTxn) (orgId userId : String) : Prop :=
  match t.call with
  | .addTeamMember teamId u => u = userId ∧ db.teams teamId = some orgId ∧ .checkMember teamId u ∉ t.todo
  | _ => False

instance (db : TeamsDb) (t : TeamsTxn) (orgId userId : String) : Decidable (Adding db t orgId userId) :=
  match h : t.call with
  | .addTeamMember teamId u => decidable_of_iff
      (u = userId ∧ db.teams teamId = some orgId ∧ .checkMember teamId u ∉ t.todo) (by simp [Adding, h])
  | .removeTeamMember .. | .addMember .. | .removeMember .. | .moveMember .. | .createTeam .. | .clearTeam ..
  | .deleteTeam .. => isFalse (by simp [Adding, h])

/-- The statement takes the member to another organization. -/
def Moves (db : TeamsDb) (others : List TeamsTxn) (orgId userId : String) (target : Option String) : Prop :=
  target.getD orgId ≠ orgId ∧ (orgId, userId) ∈ db.members ∧ (target.getD orgId, userId) ∉ db.members ∧
    teams.Free [.dropMember orgId userId, .putMember (target.getD orgId) userId] others

instance (db : TeamsDb) (others : List TeamsTxn) (orgId userId : String) (target : Option String) :
    Decidable (Moves db others orgId userId target) :=
  inferInstanceAs (Decidable (_ ∧ _ ∧ _ ∧ _))

/-- No check of a membership that another transaction has taken away and followed up, no follow-up while
another transaction rests on the check, and no move of a member who is on a team or being added to one. -/
def StatementInTurn (db : TeamsDb) (others : List TeamsTxn) : TeamsStatement → Prop
  | .checkMember teamId u => ∀ o ∈ db.teams teamId, ∀ t ∈ others,
      .dropMember o u ∈ t.writes → .cascadeMember o u ∈ t.todo
  | .cascadeMember o u => ∀ t ∈ others, ¬ Adding db t o u
  | .updateMember o u target => Moves db others o u target →
      (∀ r ∈ db.roster, db.teams r.1 = some o → r.2 ≠ u) ∧ ∀ t ∈ others, ¬ Adding db t o u
  | _ => True

instance (db : TeamsDb) (others : List TeamsTxn) : (stmt : TeamsStatement) → Decidable (StatementInTurn db others stmt)
  | .checkMember teamId u => inferInstanceAs (Decidable (∀ o ∈ db.teams teamId, ∀ t ∈ others,
      .dropMember o u ∈ t.writes → .cascadeMember o u ∈ t.todo))
  | .cascadeMember o u => inferInstanceAs (Decidable (∀ t ∈ others, ¬ Adding db t o u))
  | .updateMember o u target => inferInstanceAs (Decidable (Moves db others o u target →
      (∀ r ∈ db.roster, db.teams r.1 = some o → r.2 ≠ u) ∧ ∀ t ∈ others, ¬ Adding db t o u))
  | .insertTeamMember .. | .checkTeam .. | .deleteTeamMember .. | .insertMember .. | .deleteMember ..
  | .insertTeam .. | .deleteTeam .. | .deleteRoster .. => isTrue trivial

/-- The statement that is next in the transaction of the event. -/
def nextStatement (s : TeamsStore) : TxnEvent TeamsCall Unit → Option TeamsStatement
  | .advance k _ => s.txns[k]?.bind fun t => t.todo.head?
  | _ => none

def othersOf (s : TeamsStore) : TxnEvent TeamsCall Unit → List TeamsTxn
  | .advance k _ => s.txns.eraseIdx k
  | _ => []

def InTurn (s : TeamsStore) (e : TxnEvent TeamsCall Unit) : Prop :=
  ∀ stmt ∈ nextStatement s e, StatementInTurn s.db (othersOf s e) stmt

instance (s : TeamsStore) (e : TxnEvent TeamsCall Unit) : Decidable (InTurn s e) :=
  inferInstanceAs (Decidable (∀ stmt ∈ nextStatement s e, StatementInTurn s.db (othersOf s e) stmt))

/-! ### What a transaction rests on -/

/-- The team was there, and if it still is, the user belongs to its organization. -/
structure Checked (db : TeamsDb) (teamId userId : String) : Prop where
  issued : teamId ∈ db.issued
  member : ∀ o, db.teams teamId = some o → (o, userId) ∈ db.members

/-- The statements that follow up a deletion. -/
def FollowsUp : TeamsStatement → Prop
  | .cascadeMember .. | .deleteTeamMember .. | .deleteRoster .. => True
  | _ => False

/-- The writes take away what the row of a roster rests on. -/
def Dooms (db : TeamsDb) (ws : List TeamsWrite) (r : String × String) : Prop :=
  .dropTeam r.1 ∈ ws ∨ ∃ o, db.teams r.1 = some o ∧ .dropMember o r.2 ∈ ws

/-- The transaction deletes the row, or will. -/
def Covers (db : TeamsDb) (t : TeamsTxn) (r : String × String) : Prop :=
  .dropTeamMember r.1 r.2 ∈ t.writes ∨ .deleteTeamMember r.1 r.2 ∈ t.todo ∨ .deleteRoster r.1 ∈ t.todo ∨
    ∃ o, db.teams r.1 = some o ∧ .cascadeMember o r.2 ∈ t.todo

/-- A transaction still deletes the roster rows that its writes doom. -/
structure Closing (db : TeamsDb) (t : TeamsTxn) : Prop where
  todo : ∀ stmt ∈ t.todo, FollowsUp stmt
  fresh : ∀ teamId o, .putTeam teamId o ∈ t.writes → teamId ∉ db.issued
  noMember : ∀ teamId u, .putTeamMember teamId u ∉ t.writes
  oneKind : ∀ o u, .cascadeMember o u ∈ t.todo → ∀ teamId, .dropTeam teamId ∉ t.writes
  covered : ∀ r ∈ db.roster, Dooms db t.writes r → Covers db t r

/-- Where a transaction that adds a team member is after its check. -/
inductive AddPhase (db : TeamsDb) (teamId userId : String) : List TeamsStatement → List TeamsWrite → Prop
  | checked : AddPhase db teamId userId [.insertTeamMember teamId userId, .checkTeam teamId] []
  | inserted : AddPhase db teamId userId [.checkTeam teamId] [.putTeamMember teamId userId]
  | shared {o : String} (h : db.teams teamId = some o) :
      AddPhase db teamId userId [] [.putTeamMember teamId userId, .shareTeam teamId]

inductive Phase (db : TeamsDb) (t : TeamsTxn) : Prop
  | begun (h : t = teams.begin t.call)
  | adding {teamId userId : String} (hcall : t.call = .addTeamMember teamId userId)
      (hchecked : Checked db teamId userId) (h : AddPhase db teamId userId t.todo t.writes)
  | closing (hcall : ∀ teamId userId, t.call ≠ .addTeamMember teamId userId) (h : Closing db t)

/-- A membership that one transaction rests on and the other takes away has not been followed up yet. -/
def Clear (db : TeamsDb) (t u : TeamsTxn) : Prop :=
  ∀ o userId, Adding db t o userId → .dropMember o userId ∈ u.writes → .cascadeMember o userId ∈ u.todo

/-- Two transactions that can run at once. -/
structure Together (db : TeamsDb) (t u : TeamsTxn) : Prop where
  apart : teams.Apart t u
  clear : Clear db t u
  clear' : Clear db u t

theorem Together.symm {db : TeamsDb} {t u : TeamsTxn} (h : Together db t u) : Together db u t :=
  ⟨h.apart.symm, h.clear', h.clear⟩

section
variable {db : TeamsDb} {t u : TeamsTxn} {teamId userId orgId : String} {r : String × String}

theorem Adding.call (h : Adding db t orgId userId) :
    ∃ teamId, t.call = .addTeamMember teamId userId ∧ db.teams teamId = some orgId ∧
      .checkMember teamId userId ∉ t.todo := by
  unfold Adding at h
  split at h
  · rename_i teamId u hcall
    obtain ⟨rfl, hteam, htodo⟩ := h
    exact ⟨teamId, hcall, hteam, htodo⟩
  · exact h.elim

theorem adding_iff (hcall : t.call = .addTeamMember teamId userId) {o u : String} :
    Adding db t o u ↔ userId = u ∧ db.teams teamId = some o ∧ .checkMember teamId userId ∉ t.todo := by
  simp only [Adding, hcall]

theorem not_adding (hcall : ∀ teamId userId, t.call ≠ .addTeamMember teamId userId) : ¬ Adding db t orgId userId := by
  intro h
  obtain ⟨teamId, h, -⟩ := h.call
  exact hcall _ _ h

theorem Phase.checked {db' : TeamsDb} (h : Phase db t) (hadding : Adding db' t orgId userId) :
    ∃ teamId, t.call = .addTeamMember teamId userId ∧ db'.teams teamId = some orgId ∧
      .checkMember teamId userId ∉ t.todo ∧ Checked db teamId userId := by
  obtain ⟨teamId, hcall, hteam, htodo⟩ := hadding.call
  cases h with
  | begun hbegun =>
      rw [hbegun, hcall] at htodo
      exact absurd List.mem_cons_self htodo
  | adding hcall' hchecked =>
      obtain ⟨rfl, rfl⟩ : _ ∧ _ := by simpa using hcall.symm.trans hcall'
      exact ⟨teamId, hcall, hteam, htodo, hchecked⟩
  | closing hcall' => exact absurd hcall (hcall' _ _)

theorem Phase.fresh (h : Phase db t) (hput : .putTeam teamId orgId ∈ t.writes) : teamId ∉ db.issued := by
  cases h with
  | begun hbegun =>
      rw [hbegun] at hput
      cases hput
  | adding _ _ hphase =>
      generalize t.todo = todo, t.writes = ws at hphase hput
      cases hphase <;> simp at hput
  | closing _ hclosing => exact hclosing.fresh teamId orgId hput

theorem Phase.teams_of_view (h : Phase db t) (hissued : teamId ∈ db.issued)
    (hteam : (teams.view db t).teams teamId = some orgId) : db.teams teamId = some orgId := by
  rcases Teams.teams_of_view hteam with hteam | hput
  · exact hteam
  · exact absurd hissued (h.fresh hput)

/-! ### Statements -/

variable {stmt : TeamsStatement} {ws : List TeamsWrite} {more rest : List TeamsStatement} {others : List TeamsTxn}

/-- The next statement leaves a row covered, unless it is what covers it. -/
theorem Covers.ran (h : Covers db t r) (htodo : t.todo = stmt :: rest) :
    Covers db (TxnSystem.ran t ws more rest) r ∨ stmt = .deleteTeamMember r.1 r.2 ∨ stmt = .deleteRoster r.1 ∨
      ∃ o, db.teams r.1 = some o ∧ stmt = .cascadeMember o r.2 := by
  unfold Covers at h ⊢
  rw [htodo] at h
  simp only [TxnSystem.ran, List.mem_append, List.mem_cons] at h ⊢
  rcases h with h | (h | h) | (h | h) | ⟨o, ho, h | h⟩
  · exact .inl (.inl (.inl h))
  · exact .inr (.inl h.symm)
  · exact .inl (.inr (.inl (.inr h)))
  · exact .inr (.inr (.inl h.symm))
  · exact .inl (.inr (.inr (.inl (.inr h))))
  · exact .inr (.inr (.inr ⟨o, ho, h.symm⟩))
  · exact .inl (.inr (.inr (.inr ⟨o, ho, .inr h⟩)))

/-- A statement that only deletes rows of rosters, or finds some to delete. -/
theorem Closing.next (h : Closing db t) (htodo : t.todo = stmt :: rest)
    (hws : ∀ w ∈ ws, ∃ teamId u, w = .dropTeamMember teamId u)
    (hmore : ∀ s ∈ more, ∃ teamId u, s = .deleteTeamMember teamId u)
    (hcovers : ∀ r ∈ db.roster, Covers db t r → Covers db (TxnSystem.ran t ws more rest) r) :
    Closing db (TxnSystem.ran t ws more rest) := by
  have hold : ∀ w ∈ t.writes ++ ws, (∃ teamId u, w = .dropTeamMember teamId u) ∨ w ∈ t.writes := by
    intro w hw
    rcases List.mem_append.mp hw with hw | hw
    · exact .inr hw
    · exact .inl (hws w hw)
  have hrest : ∀ s ∈ rest, s ∈ t.todo := fun s hs => htodo ▸ List.mem_cons_of_mem _ hs
  refine ⟨?_, ?_, ?_, ?_, ?_⟩
  · intro s hs
    rcases List.mem_append.mp hs with hs | hs
    · obtain ⟨teamId, u, rfl⟩ := hmore s hs
      trivial
    · exact h.todo s (hrest s hs)
  · intro teamId o hput
    exact h.fresh teamId o ((hold _ hput).resolve_left (by simp))
  · intro teamId u hput
    exact h.noMember teamId u ((hold _ hput).resolve_left (by simp))
  · intro o u hcascade teamId hdrop
    refine h.oneKind o u (hrest _ ?_) teamId ((hold _ hdrop).resolve_left (by simp))
    rcases List.mem_append.mp hcascade with hcascade | hcascade
    · obtain ⟨teamId, u, hs⟩ := hmore _ hcascade
      cases hs
    · exact hcascade
  · intro r hr hdooms
    refine hcovers r hr (h.covered r hr ?_)
    rcases hdooms with hdrop | ⟨o, ho, hdrop⟩
    · exact .inl ((hold _ hdrop).resolve_left (by simp))
    · exact .inr ⟨o, ho, (hold _ hdrop).resolve_left (by simp)⟩

/-- A transaction that follows up its deletion goes on doing so. -/
theorem Closing.ran (hsound : Sound db) (h : Closing db t) (htodo : t.todo = stmt :: rest)
    (hexec : stmt.exec (teams.view db t) = some (ws, more)) :
    Closing db (TxnSystem.ran t ws more rest) ∧ ∀ w ∈ ws, ∃ teamId u, w = .dropTeamMember teamId u := by
  have hfollows : FollowsUp stmt := h.todo stmt (htodo ▸ List.mem_cons_self)
  -- a row is still there, or deleted already
  have hthere : ∀ r ∈ db.roster, r ∈ (teams.view db t).roster ∨ .dropTeamMember r.1 r.2 ∈ t.writes := fun r hr =>
    (Classical.em (.dropTeamMember r.1 r.2 ∈ t.writes)).elim .inr fun hdrop => .inl (mem_view_roster hr hdrop)
  have hdropped : ∀ r : String × String, .dropTeamMember r.1 r.2 ∈ t.writes →
      Covers db (TxnSystem.ran t ws more rest) r := fun r hdrop => .inl (List.mem_append_left _ hdrop)
  cases stmt with
  | deleteTeamMember teamId u =>
      simp only [TeamsStatement.exec, Option.some.injEq, Prod.mk.injEq] at hexec
      obtain ⟨hws, rfl⟩ := hexec
      have hdrops : ∀ w ∈ ws, ∃ teamId u, w = .dropTeamMember teamId u := by
        intro w hw
        rw [← hws] at hw
        split at hw
        · exact ⟨teamId, u, List.mem_singleton.mp hw⟩
        · cases hw
      refine ⟨h.next htodo hdrops (by simp) ?_, hdrops⟩
      intro r hr hcovers
      rcases hcovers.ran htodo with hcovers | heq | heq | ⟨o, -, heq⟩
      · exact hcovers
      · obtain ⟨rfl, rfl⟩ : teamId = r.1 ∧ u = r.2 := by simpa using heq
        rcases hthere r hr with hmem | hdrop
        · rw [if_pos hmem] at hws
          exact .inl (List.mem_append_right _ (hws ▸ List.mem_singleton_self _))
        · exact hdropped r hdrop
      · cases heq
      · cases heq
  | deleteRoster teamId =>
      simp only [TeamsStatement.exec, Option.some.injEq, Prod.mk.injEq] at hexec
      obtain ⟨rfl, hmore⟩ := hexec
      refine ⟨h.next htodo (by simp) ?_ ?_, by simp⟩
      · intro s hs
        rw [← hmore] at hs
        obtain ⟨r, -, rfl⟩ := List.mem_map.mp hs
        exact ⟨r.1, r.2, rfl⟩
      · intro r hr hcovers
        rcases hcovers.ran htodo with hcovers | heq | heq | ⟨o, -, heq⟩
        · exact hcovers
        · cases heq
        · obtain rfl : teamId = r.1 := by simpa using heq
          rcases hthere r hr with hmem | hdrop
          · refine .inr (.inl (List.mem_append_left _ ?_))
            rw [← hmore]
            exact List.mem_map.mpr ⟨r, List.mem_filter.mpr ⟨hmem, decide_eq_true rfl⟩, rfl⟩
          · exact hdropped r hdrop
        · cases heq
  | cascadeMember o u =>
      simp only [TeamsStatement.exec, Option.some.injEq, Prod.mk.injEq] at hexec
      obtain ⟨rfl, hmore⟩ := hexec
      refine ⟨h.next htodo (by simp) ?_ ?_, by simp⟩
      · intro s hs
        rw [← hmore] at hs
        obtain ⟨r, -, rfl⟩ := List.mem_map.mp hs
        exact ⟨r.1, r.2, rfl⟩
      · intro r hr hcovers
        rcases hcovers.ran htodo with hcovers | heq | heq | ⟨o', hteam, heq⟩
        · exact hcovers
        · cases heq
        · cases heq
        · obtain ⟨rfl, rfl⟩ : o = o' ∧ u = r.2 := by simpa using heq
          rcases hthere r hr with hmem | hdrop
          · -- the team is still seen, as the transaction writes no teams
            have hview : (teams.view db t).teams r.1 = some o := by
              apply view_teams hteam
              · exact h.oneKind o r.2 (htodo ▸ List.mem_cons_self) r.1
              · exact fun o' hput => h.fresh r.1 o' hput (hsound.issued r.1 o hteam)
            refine .inr (.inl (List.mem_append_left _ ?_))
            rw [← hmore]
            exact List.mem_map.mpr ⟨r, List.mem_filter.mpr ⟨hmem, decide_eq_true ⟨hview, rfl⟩⟩, rfl⟩
          · exact hdropped r hdrop
  | _ => exact hfollows.elim

/-- Writes on which no row of a roster rests. -/
def Idle : TeamsWrite → Prop
  | .putMember .. | .dropTeamMember .. => True
  | _ => False

/-- What the only statement of a call takes away is covered, and nothing of it is being relied on without a follow-up
to come. -/
structure Opens (db : TeamsDb) (others : List TeamsTxn) (call : TeamsCall) (ws : List TeamsWrite)
    (more : List TeamsStatement) : Prop where
  closing : Closing db ⟨call, more, ws⟩
  clear : ∀ v ∈ others, ∀ o userId, Adding db v o userId → .dropMember o userId ∈ ws → .cascadeMember o userId ∈ more

theorem idle_opens {call : TeamsCall} (hws : ∀ w ∈ ws, Idle w) (hmore : ∀ s ∈ more, FollowsUp s) :
    Opens db others call ws more where
  closing := by
    refine ⟨hmore, ?_, ?_, ?_, ?_⟩
    · exact fun _ _ hput => (hws _ hput).elim
    · exact fun _ _ hput => (hws _ hput).elim
    · exact fun _ _ _ _ hdrop => (hws _ hdrop).elim
    · rintro r - (hdrop | ⟨o, -, hdrop⟩)
      · exact (hws _ hdrop).elim
      · exact (hws _ hdrop).elim
  clear _ _ _ _ _ hdrop := (hws _ hdrop).elim

theorem deleteMember_opens {o u : String} (hexec : TeamsStatement.exec db (.deleteMember o u) = some (ws, more)) :
    Opens db others (.removeMember o u) ws more := by
  simp only [TeamsStatement.exec] at hexec
  split at hexec
  · cases hexec
    refine ⟨⟨by simp [FollowsUp], by simp, by simp, by simp, ?_⟩, by simp⟩
    rintro r - (hdrop | ⟨o', hteam, hdrop⟩)
    · simp at hdrop
    · obtain ⟨rfl, hu⟩ : o' = o ∧ r.2 = u := by simpa using hdrop
      exact .inr (.inr (.inr ⟨o', hteam, by simp [hu]⟩))
  · cases hexec
    exact idle_opens (by simp [Idle]) (by simp)

theorem updateMember_opens {o u : String} {target : Option String}
    (hexec : TeamsStatement.exec db (.updateMember o u target) = some (ws, more)) (hfree : teams.Free ws others)
    (hturn : StatementInTurn db others (.updateMember o u target)) :
    Opens db others (.moveMember o u target) ws more := by
  simp only [TeamsStatement.exec] at hexec
  split at hexec
  · cases hexec
    exact idle_opens (by simp [Idle]) (by simp)
  rename_i hmem
  split at hexec
  · cases hexec
    exact idle_opens (by simp [Idle]) (by simp)
  rename_i hne
  split at hexec
  · cases hexec
  rename_i hfresh
  cases hexec
  -- nobody rests on a membership that is moved
  obtain ⟨hroster, hadding⟩ := hturn ⟨hne, not_not.mp hmem, hfresh, hfree⟩
  refine ⟨⟨by simp, by simp, by simp, by simp, ?_⟩, ?_⟩
  · rintro r hr (hdrop | ⟨o', hteam, hdrop⟩)
    · simp at hdrop
    · obtain ⟨rfl, hu⟩ : o' = o ∧ r.2 = u := by simpa using hdrop
      exact absurd hu (hroster r hr hteam)
  · intro v hv o' u' h hdrop
    obtain ⟨rfl, rfl⟩ : o' = o ∧ u' = u := by simpa using hdrop
    exact absurd h (hadding v hv)

theorem insertTeam_opens {o : String} (hexec : TeamsStatement.exec db (.insertTeam teamId o) = some (ws, more)) :
    Opens db others (.createTeam teamId o) ws more := by
  simp only [TeamsStatement.exec] at hexec
  split at hexec
  · cases hexec
  rename_i hfresh
  cases hexec
  refine ⟨⟨by simp, ?_, by simp, by simp, by simp [Dooms]⟩, by simp⟩
  intro teamId' o' hput
  obtain ⟨rfl, -⟩ : teamId' = teamId ∧ o' = o := by simpa using hput
  exact hfresh

theorem deleteTeam_opens (hexec : TeamsStatement.exec db (.deleteTeam teamId) = some (ws, more)) :
    Opens db others (.deleteTeam teamId) ws more := by
  simp only [TeamsStatement.exec] at hexec
  split at hexec
  · cases hexec
    refine ⟨⟨by simp [FollowsUp], by simp, by simp, by simp, ?_⟩, by simp⟩
    rintro r - (hdrop | ⟨o', -, hdrop⟩)
    · obtain rfl : r.1 = teamId := by simpa using hdrop
      exact .inr (.inr (.inl (by simp)))
    · simp at hdrop
  · cases hexec
    exact idle_opens (by simp [Idle]) (by simp)

/-- The first statement of a transaction that adds nobody to a roster is its only one. -/
theorem first_opens {call : TeamsCall} (hcall : ∀ teamId userId, call ≠ .addTeamMember teamId userId)
    (htodo : call.program = stmt :: rest) (hexec : stmt.exec db = some (ws, more))
    (hfree : teams.Free ws others) (hturn : StatementInTurn db others stmt) :
    rest = [] ∧ Opens db others call ws more := by
  cases call with
  | addTeamMember teamId u => exact absurd rfl (hcall teamId u)
  | removeTeamMember teamId u =>
      cases htodo
      simp only [TeamsStatement.exec, Option.some.injEq, Prod.mk.injEq] at hexec
      obtain ⟨rfl, rfl⟩ := hexec
      refine ⟨rfl, idle_opens ?_ (by simp)⟩
      split <;> simp [Idle]
  | addMember o u =>
      cases htodo
      simp only [TeamsStatement.exec] at hexec
      split at hexec
      · cases hexec
      · cases hexec
        exact ⟨rfl, idle_opens (by simp [Idle]) (by simp)⟩
  | removeMember o u =>
      cases htodo
      exact ⟨rfl, deleteMember_opens hexec⟩
  | moveMember o u target =>
      cases htodo
      exact ⟨rfl, updateMember_opens hexec hfree hturn⟩
  | createTeam teamId o =>
      cases htodo
      exact ⟨rfl, insertTeam_opens hexec⟩
  | clearTeam teamId =>
      cases htodo
      simp only [TeamsStatement.exec, Option.some.injEq, Prod.mk.injEq] at hexec
      obtain ⟨rfl, rfl⟩ := hexec
      refine ⟨rfl, idle_opens (by simp) ?_⟩
      intro s hs
      obtain ⟨r, -, rfl⟩ := List.mem_map.mp hs
      trivial
  | deleteTeam teamId =>
      cases htodo
      exact ⟨rfl, deleteTeam_opens hexec⟩

theorem Together.ran (h : Together db t u) (hfree : teams.Free ws others) (hu : u ∈ others)
    (hclear : Clear db (TxnSystem.ran t ws more rest) u) (hclear' : Clear db u (TxnSystem.ran t ws more rest)) :
    Together db (TxnSystem.ran t ws more rest) u :=
  ⟨h.apart.ran hfree hu, hclear, hclear'⟩

/-- After its check, a transaction goes on to add the team member. -/
theorem AddPhase.ran (h : AddPhase db teamId userId t.todo t.writes) (htodo : t.todo = stmt :: rest)
    (hexec : stmt.exec (teams.view db t) = some (ws, more)) :
    AddPhase db teamId userId (more ++ rest) (t.writes ++ ws) ∧ (∀ o u, .dropMember o u ∉ t.writes ++ ws) ∧
      .checkMember teamId userId ∉ t.todo := by
  have hview : ∀ o, (teams.view db t).teams teamId = some o →
      db.teams teamId = some o ∨ .putTeam teamId o ∈ t.writes := fun _ => teams_of_view
  generalize teams.view db t = db' at hexec hview
  generalize t.todo = todo, t.writes = written at h htodo hview
  cases h with
  | checked =>
      obtain ⟨rfl, rfl⟩ : _ ∧ _ := by simpa using htodo
      simp only [TeamsStatement.exec] at hexec
      split at hexec
      · cases hexec
      · obtain ⟨rfl, rfl⟩ : _ ∧ _ := by simpa using hexec
        exact ⟨.inserted, by simp, by simp⟩
  | inserted =>
      obtain ⟨rfl, rfl⟩ : _ ∧ _ := by simpa using htodo
      simp only [TeamsStatement.exec] at hexec
      split at hexec
      · rename_i hteam
        obtain ⟨o, ho⟩ := Option.isSome_iff_exists.mp hteam
        obtain ⟨rfl, rfl⟩ : _ ∧ _ := by simpa using hexec
        exact ⟨.shared ((hview o ho).resolve_right (by simp)), by simp, by simp⟩
      · cases hexec
  | shared => cases htodo

theorem Phase.ran (hsound : Sound db) (h : Phase db t) (htodo : t.todo = stmt :: rest)
    (hexec : stmt.exec (teams.view db t) = some (ws, more)) (hfree : teams.Free ws others)
    (hturn : StatementInTurn db others stmt) :
    Phase db (TxnSystem.ran t ws more rest) ∧
      ∀ u ∈ others, Together db t u → Together db (TxnSystem.ran t ws more rest) u := by
  cases h with
  | begun hbegun =>
      obtain ⟨call, todo, writes⟩ := t
      obtain ⟨rfl, rfl⟩ : todo = call.program ∧ writes = [] := by simpa [LockSystem.begin, teams] using hbegun
      have hexec : stmt.exec db = some (ws, more) := hexec
      by_cases hadd : ∃ teamId userId, call = .addTeamMember teamId userId
      · -- the check
        obtain ⟨teamId, userId, rfl⟩ := hadd
        obtain ⟨rfl, rfl⟩ : _ ∧ _ := by simpa [TeamsCall.program] using htodo
        simp only [TeamsStatement.exec] at hexec
        split at hexec
        · rename_i hmember
          obtain ⟨o, ho, hmember⟩ := hmember
          obtain ⟨rfl, rfl⟩ : _ ∧ _ := by simpa using hexec
          refine ⟨.adding rfl ⟨hsound.issued _ _ ho, ?_⟩ .checked, ?_⟩
          · intro o' ho'
            obtain rfl : o = o' := Option.some.inj (ho.symm.trans ho')
            exact hmember
          · intro u hu hold
            refine hold.ran hfree hu ?_ (by simp [Clear, TxnSystem.ran])
            intro o' userId' hadding
            obtain ⟨rfl, hteam, -⟩ := (adding_iff rfl).mp hadding
            exact hturn o' hteam u hu
        · cases hexec
      · have hcall : ∀ teamId userId, call ≠ .addTeamMember teamId userId :=
          fun teamId userId heq => hadd ⟨teamId, userId, heq⟩
        obtain ⟨rfl, hclosing, hclear⟩ := first_opens hcall htodo hexec hfree hturn
        rw [← List.append_nil more] at hclosing hclear
        refine ⟨.closing hcall hclosing, fun u hu hold => hold.ran hfree hu ?_ ?_⟩
        · exact fun o userId hadding => absurd hadding (not_adding hcall)
        · exact hclear u hu
  | adding hcall hchecked hphase =>
      obtain ⟨hnext, hdrop, hcheck⟩ := hphase.ran htodo hexec
      refine ⟨.adding hcall hchecked hnext, fun u hu hold => hold.ran hfree hu ?_ ?_⟩
      · intro o userId' hadding
        obtain ⟨rfl, hteam, -⟩ := (adding_iff (t := TxnSystem.ran t ws more rest) hcall).mp hadding
        exact hold.clear o _ ((adding_iff hcall).mpr ⟨rfl, hteam, hcheck⟩)
      · exact fun o userId' _ hmem => absurd hmem (hdrop o userId')
  | closing hcall hclosing =>
      obtain ⟨hnext, hdrops⟩ := hclosing.ran hsound htodo hexec
      refine ⟨.closing hcall hnext, fun u hu hold => hold.ran hfree hu ?_ ?_⟩
      · exact fun o userId hadding => absurd hadding (not_adding hcall)
      · intro o userId hadding hdrop
        rcases List.mem_append.mp hdrop with hdrop | hdrop
        · have hcascade := hold.clear' o userId hadding hdrop
          rw [htodo] at hcascade
          rcases List.mem_cons.mp hcascade with heq | hcascade
          · -- nobody is being added behind the cascade
            rw [← heq] at hturn
            exact absurd hadding (hturn u hu)
          · exact List.mem_append_right _ hcascade
        · obtain ⟨_, _, heq⟩ := hdrops _ hdrop
          cases heq

/-! ### Commits -/

theorem Checked.commit (h : Checked db teamId userId) (ht : Phase db t)
    (hkept : ∀ o, db.teams teamId = some o → .dropMember o userId ∉ t.writes) :
    Checked (teams.view db t) teamId userId := by
  refine ⟨mem_view_issued h.issued, ?_⟩
  intro o ho
  have hteam : db.teams teamId = some o := ht.teams_of_view h.issued ho
  exact mem_view_members (h.member o hteam) (hkept o hteam)

theorem Phase.done (h : Phase db t) (htodo : t.todo = []) :
    (∃ teamId userId o, t.writes = [.putTeamMember teamId userId, .shareTeam teamId] ∧
      db.teams teamId = some o ∧ Adding db t o userId ∧ Checked db teamId userId) ∨ Closing db t := by
  cases h with
  | begun hbegun =>
      rw [hbegun] at htodo
      generalize t.call = call at htodo
      cases call <;> cases htodo
  | @adding teamId userId hcall hchecked hphase =>
      have hadding : ∀ o, db.teams teamId = some o → Adding db t o userId := fun o hteam =>
        (adding_iff hcall).mpr ⟨rfl, hteam, by simp [htodo]⟩
      generalize t.todo = todo, t.writes = ws at hphase htodo
      cases hphase with
      | checked | inserted => cases htodo
      | shared hteam => exact .inl ⟨_, _, _, rfl, hteam, hadding _ hteam, hchecked⟩
  | closing hcall hclosing => exact .inr hclosing

theorem not_covers (htodo : t.todo = []) (h : .dropTeamMember r.1 r.2 ∉ t.writes) : ¬ Covers db t r := by
  unfold Covers
  simp [htodo, h]

theorem Sound.commit (h : Sound db) (ht : Phase db t) (htodo : t.todo = []) : Sound (teams.view db t) := by
  refine ⟨?_, ?_⟩
  · intro r hr
    rcases ht.done htodo with ⟨teamId, userId, o, hwrites, hteam, -, hchecked⟩ | hclosing
    · -- one row more, of a team that is locked
      have hteams : ∀ teamId o, db.teams teamId = some o → (teams.view db t).teams teamId = some o :=
        fun _ _ h => view_teams h (by simp [hwrites]) (by simp [hwrites])
      have hmembers : ∀ r ∈ db.members, r ∈ (teams.view db t).members :=
        fun _ h => mem_view_members h (by simp [hwrites])
      rcases roster_of_view hr with hr | hput
      · obtain ⟨o', ho', hmember⟩ := h.backed r hr
        exact ⟨o', hteams _ _ ho', hmembers _ hmember⟩
      · obtain ⟨hid, hu⟩ : r.1 = teamId ∧ r.2 = userId := by simpa [hwrites] using hput
        exact ⟨o, hid ▸ hteams _ _ hteam, hmembers _ (hu ▸ hchecked.member o hteam)⟩
    · have hold : r ∈ db.roster := (roster_of_view hr).resolve_right (hclosing.noMember _ _)
      have hdrop : .dropTeamMember r.1 r.2 ∉ t.writes := fun hmem =>
        not_mem_view_roster hclosing.noMember hmem hr
      have hdooms : ¬ Dooms db t.writes r := fun hdooms =>
        not_covers htodo hdrop (hclosing.covered r hold hdooms)
      obtain ⟨o, hteam, hmember⟩ := h.backed r hold
      refine ⟨o, view_teams hteam (fun hmem => hdooms (.inl hmem)) ?_,
        mem_view_members hmember fun hmem => hdooms (.inr ⟨o, hteam, hmem⟩)⟩
      exact fun o' hput => hclosing.fresh r.1 o' hput (h.issued r.1 o hteam)
  · exact view_issued h.issued

/-- A row that both transactions know of, or that the commit has added, stays covered. -/
theorem Closing.commit (h : Closing db u) (hsound : Sound db) (ht : Phase db t) (htodo : t.todo = [])
    (htogether : Together db t u) : Closing (teams.view db t) u := by
  refine ⟨h.todo, ?_, h.noMember, h.oneKind, ?_⟩
  · intro teamId o hput hissued
    rcases issued_of_view hissued with hissued | ⟨o', hput'⟩
    · exact h.fresh teamId o hput hissued
    · -- two transactions do not write one team
      exact htogether.apart _ hput' _ hput ⟨rfl, by simp [TeamsWrite.shares]⟩
  · intro r hr hdooms
    obtain ⟨o, ho, -⟩ := (hsound.commit ht htodo).backed r hr
    have hsame : ∀ o', (teams.view db t).teams r.1 = some o' → o' = o := fun o' h =>
      Option.some.inj (h.symm.trans ho)
    rcases roster_of_view hr with hr | hput
    · obtain ⟨o', hteam, -⟩ := hsound.backed r hr
      have hteam : db.teams r.1 = some o := ht.teams_of_view (hsound.issued _ _ hteam) ho
      have hold : Dooms db u.writes r :=
        hdooms.imp_right fun ⟨o', ho', hdrop⟩ => ⟨o, hteam, hsame o' ho' ▸ hdrop⟩
      rcases h.covered r hr hold with hc | hc | hc | ⟨o', ho', hc⟩
      · exact .inl hc
      · exact .inr (.inl hc)
      · exact .inr (.inr (.inl hc))
      · obtain rfl : o = o' := Option.some.inj (hteam.symm.trans ho')
        exact .inr (.inr (.inr ⟨o, ho, hc⟩))
    · rcases ht.done htodo with ⟨teamId, userId, o', hwrites, hteam, hadding, hchecked⟩ | hclosing
      · obtain ⟨hid, hu⟩ : r.1 = teamId ∧ r.2 = userId := by simpa [hwrites] using hput
        rcases hdooms with hdrop | ⟨o'', ho'', hdrop⟩
        · -- the added row's team is locked
          refine absurd ⟨rfl, by simp [TeamsWrite.shares]⟩ (htogether.apart (.shareTeam r.1) ?_ _ hdrop)
          simp [hwrites, hid]
        · -- the follow-up to the deletion is still to come
          obtain rfl := hsame o'' ho''
          obtain rfl : o' = o'' := by
            refine Option.some.inj (hteam.symm.trans (ht.teams_of_view hchecked.issued ?_))
            exact hid ▸ ho''
          rw [hu] at hdrop
          exact .inr (.inr (.inr ⟨o', ho, hu ▸ htogether.clear o' userId hadding hdrop⟩))
      · exact absurd hput (hclosing.noMember _ _)

theorem Phase.commit (hu : Phase db u) (hsound : Sound db) (ht : Phase db t) (htodo : t.todo = [])
    (htogether : Together db t u) : Phase (teams.view db t) u := by
  cases hu with
  | begun h => exact .begun h
  | @adding teamId userId hcall hchecked hphase =>
      refine .adding hcall (hchecked.commit ht ?_) ?_
      · intro o hteam hdrop
        -- a follow-up to come, in a transaction that is done
        have hcascade := htogether.clear' o userId ((adding_iff hcall).mpr ⟨rfl, hteam, ?_⟩) hdrop
        · rw [htodo] at hcascade
          cases hcascade
        · generalize u.todo = todo, u.writes = ws at hphase
          cases hphase <;> simp
      · have hapart := htogether.apart
        unfold LockSystem.Apart at hapart
        generalize u.todo = todo, u.writes = ws at hphase hapart
        cases hphase with
        | checked => exact .checked
        | inserted => exact .inserted
        | shared hteam =>
            refine .shared (view_teams hteam ?_ fun o hput => ht.fresh hput hchecked.issued)
            exact fun hdrop => hapart _ hdrop (.shareTeam teamId) (by simp) ⟨rfl, by simp [TeamsWrite.shares]⟩
  | closing hcall hclosing => exact .closing hcall (hclosing.commit hsound ht htodo htogether)

theorem Clear.commit {v : TeamsTxn} (h : Clear db u v) (hu : Phase db u) (ht : Phase db t) :
    Clear (teams.view db t) u v := by
  intro o userId hadding
  obtain ⟨teamId, hcall, hteam, hcheck, hchecked⟩ := hu.checked hadding
  exact h o userId ((adding_iff hcall).mpr ⟨rfl, ht.teams_of_view hchecked.issued hteam, hcheck⟩)

/-! ### Runs -/

theorem step_together {s : TeamsStore} {e : TxnEvent TeamsCall Unit} (hturn : InTurn s e)
    (h : LockSystem.Holds Sound Phase Together s) : LockSystem.Holds Sound Phase Together (teams.step s e) := by
  apply LockSystem.step_holds (R := Together) (fun _ _ _ => Together.symm) h e
  · -- a new transaction has done nothing
    intro call _
    refine ⟨.begun rfl, fun u _ => ⟨by simp [LockSystem.Apart, LockSystem.begin], ?_, ?_⟩⟩
    · nofun
    · intro o userId hadding
      obtain ⟨teamId, hcall, -, hcheck⟩ := hadding.call
      refine absurd ?_ hcheck
      have hcall : call = .addTeamMember teamId userId := hcall
      rw [hcall]
      exact List.mem_cons_self
  · rintro k choice t stmt rest ws more rfl ht htodo hexec hfree hphase
    have hnext : stmt ∈ nextStatement s (.advance k choice) := by simp [nextStatement, ht, htodo]
    obtain ⟨hran, htogether⟩ := hphase.ran h.db htodo hexec hfree (hturn stmt hnext)
    exact ⟨hran, fun u hu _ => htogether u hu⟩
  · intro k choice t _ _ htodo ht
    refine ⟨h.db.commit ht htodo, fun u _ hu hold => hu.commit h.db ht htodo hold, ?_⟩
    intro u _ v _ hu hv huv
    exact ⟨huv.apart, huv.clear.commit hu ht, huv.clear'.commit hv ht⟩

/-- **Rosters stay inside the organization** in every run whose statements come in turn. -/
theorem rosters_stay_inside (db : TeamsDb) (hdb : Sound db) (events : List (TxnEvent TeamsCall Unit))
    (hturn : StepsMeet teams.step InTurn ⟨db, []⟩ events) : RostersBacked (run teams.step ⟨db, []⟩ events).db := by
  have hrun : LockSystem.Holds Sound Phase Together (run teams.step ⟨db, []⟩ events) := by
    refine run_invariant (C := InTurn) (fun s e he hs => step_together he hs) events _ ?_ hturn
    exact ⟨hdb, by simp, List.Pairwise.nil⟩
  exact hrun.db.backed

/-- Ann and Bob are members of `acme`, Bob of its team `red` as well. -/
def acmeTeams : TeamsDb where
  members := [("acme", "ann"), ("acme", "bob")]
  teams := fun t => if t = "red" then some "acme" else none
  roster := [("red", "bob")]
  issued := ["red"]

theorem acmeTeams_sound : Sound acmeTeams := by
  refine ⟨by decide, ?_⟩
  intro teamId o h
  simp only [acmeTeams] at h ⊢
  split at h
  · rename_i heq
    exact heq ▸ List.mem_singleton_self _
  · cases h

def steps (k n : ℕ) : List (TxnEvent TeamsCall Unit) := List.replicate n (.advance k ())

/-- Ann joins the team while Bob leaves the organization. -/
theorem rosters_stay_inside_sample : RostersBacked (run teams.step ⟨acmeTeams, []⟩
    ([.start (.addTeamMember "red" "ann"), .start (.removeMember "acme" "bob")] ++ steps 0 2 ++ steps 1 3 ++
      steps 0 2 ++ steps 0 1)).db :=
  rosters_stay_inside acmeTeams acmeTeams_sound _ (by decide)

/-- Bob is moved to another organization and stays on the team; or Ann is checked, leaves the organization,
and is added to the team after that. -/
theorem rosters_left_behind :
    (let s := run teams.step ⟨acmeTeams, []⟩ ([.start (.moveMember "acme" "bob" (some "blue"))] ++ steps 0 2)
     s.txns.length = 0 ∧ ¬ RostersBacked s.db) ∧
    (let s := run teams.step ⟨acmeTeams, []⟩ ([.start (.addTeamMember "red" "ann"),
        .start (.removeMember "acme" "ann")] ++ steps 0 1 ++ steps 1 3 ++ steps 0 3)
     s.txns.length = 0 ∧ ¬ RostersBacked s.db) := by decide

end

end Experiential.Teams
