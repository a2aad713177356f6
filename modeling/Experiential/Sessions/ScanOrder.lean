import Mathlib.Algebra.Group.Prod
import Mathlib.Data.List.Pairwise
import Experiential.Sessions.Attribution

/-! # The order of the scans

The turns the sessions own are the datable turns, each once, and the sums of the sessions are sums over them. Where
the copies of a message agree and no two sessions that share one tie, the order of the scans does not matter.

Where the copies of a message agree, a session has the same turns whichever of its files is read first. Where no two
sessions that share a turn start together with equally many turns, it owns the same turns too. -/

namespace Experiential.Sessions

open Py Usage OrderedDict

variable {F : Type} {env : RollupEnv} {scans scans' group : List (SessionFileScan F)} {session session' : SessionKey}
  {p q : Prepared F} {k : TurnKey}

/-! ### Claims -/

theorem rank_total : Std.Total fun p q : Prepared F => p.rank ≤ q.rank := ⟨fun p q => le_total p.rank q.rank⟩

theorem rank_trans : IsTrans (Prepared F) fun p q => p.rank ≤ q.rank := ⟨fun _ _ _ => le_trans⟩

theorem earliest_le (h : p.rank ≤ q.rank) : p.earliest ≤ q.earliest := (Prod.Lex.toLex_le_toLex'.mp h).1

variable (env) in
/-- The sessions in the order in which they claim. -/
def inOrder (scans : List (SessionFileScan F)) : List (Prepared F) :=
  (preparedOf env scans).insertionSort fun p q => p.rank ≤ q.rank

variable (env) in
def claimed (scans : List (SessionFileScan F)) : List (Prepared F × List (TurnKey × DatedTurn)) :=
  claimAll (fun p => p.dated.entries) (inOrder env scans) []

theorem claimTurns_eq (h : InRange env scans) : claimTurns env scans = .ok (claimed env scans) := by
  unfold claimTurns
  rw [prepareAll_eq h]
  rfl

theorem mem_inOrder : p ∈ inOrder env scans ↔ ∃ session, IsSession env scans session p := by
  rw [inOrder, List.mem_insertionSort, mem_preparedOf]

theorem sorted_inOrder : (inOrder env scans).Pairwise fun p q => p.rank ≤ q.rank :=
  have := rank_total (F := F)
  have := rank_trans (F := F)
  List.pairwise_insertionSort _ _

theorem nodup_inOrder : ((inOrder env scans).map Prepared.sessionKey).Nodup :=
  (((List.perm_insertionSort _ _).map _).nodup_iff).mpr nodup_preparedOf

theorem IsSession.unique (hp : IsSession env scans session p) (hq : IsSession env scans session q) : p = q :=
  Option.some.inj (hp.symm.trans hq)

variable {c c' : Prepared F × List (TurnKey × DatedTurn)}

theorem exists_session (hc : c ∈ claimed env scans) : ∃ session, IsSession env scans session c.1 := by
  have hmem : c.1 ∈ (claimed env scans).map (·.1) := List.mem_map_of_mem hc
  rw [claimed, map_fst_claimAll] at hmem
  exact mem_inOrder.mp hmem

variable {e : TurnKey × DatedTurn}

theorem claims_subset (hc : c ∈ claimed env scans) (he : e ∈ c.2) : e ∈ c.1.dated.entries := by
  obtain ⟨before, after, -, hclaims⟩ := claimAll_cases hc
  rw [hclaims] at he
  exact List.mem_of_mem_filter he

theorem nodup_claimed : ((claimed env scans).flatMap fun c => c.2.map (·.1)).Nodup := by
  apply nodup_claimAll
  intro p hp
  obtain ⟨session, hsession⟩ := mem_inOrder.mp hp
  exact hsession.nodup

theorem claims_datable (hc : c ∈ claimed env scans) (he : e ∈ c.2) :
    ∃ scan ∈ scans, some scan.session = c.1.sessionKey ∧ e ∈ datable env scan := by
  obtain ⟨session, hsession⟩ := exists_session hc
  obtain ⟨scan, hscan, rfl, hdated⟩ := hsession.exists_scan (claims_subset hc he)
  exact ⟨scan, hscan, hsession.session_eq.symm, hdated⟩

theorem exists_claimed (h : Contains env scans session k) : ∃ c ∈ claimed env scans, k ∈ c.2.map (·.1) := by
  obtain ⟨p, hp⟩ := exists_isSession h
  exact exists_claimAll (mem_inOrder.mpr ⟨session, hp⟩) (hp.contains_iff.mp h) List.not_mem_nil

theorem claimed_unique (hc : c ∈ claimed env scans) (hc' : c' ∈ claimed env scans) (hk : k ∈ c.2.map (·.1))
    (hk' : k ∈ c'.2.map (·.1)) : c' = c := by
  by_contra hne
  have : Std.Symm (Function.onFun List.Disjoint fun c : Prepared F × List (TurnKey × DatedTurn) => c.2.map (·.1)) :=
    ⟨fun _ _ h => h.symm⟩
  have hnodup : ((claimed env scans).flatMap fun c => c.2.map (·.1)).Nodup := nodup_claimed
  have hdisjoint := (List.nodup_flatMap.mp hnodup).2
  exact hdisjoint.forall hc' hc hne hk' hk

/-- The session that counts a turn starts no later than any that contains it. -/
theorem claimed_earliest (hc : c ∈ claimed env scans) (hk : k ∈ c.2.map (·.1)) {t : ℤ}
    (hcontains : Contains env scans session k) (hstart : sessionStart env scans session = some t) :
    c.1.earliest ≤ t := by
  obtain ⟨p, hp⟩ := exists_isSession hcontains
  obtain rfl : p.earliest = t := Option.some.inj (hp.start.symm.trans hstart)
  rcases claimAll_first sorted_inOrder hc hk (mem_inOrder.mpr ⟨session, hp⟩) (hp.contains_iff.mp hcontains) with rfl | hrank
  · exact le_rfl
  · exact earliest_le hrank

/-! ### Sums -/

/-- The counts of a turn: fresh input, cached input, output, and the reasoning within it. -/
def TurnUsage.tokens (turn : TurnUsage) : ℕ × ℕ × ℕ × ℕ :=
  (turn.inputTokens, turn.cachedTokens, turn.outputTokens, turn.reasoningTokens)

namespace AgentSession

variable (s : AgentSession F)

def tokens : ℕ × ℕ × ℕ × ℕ := (s.inputTokens, s.cachedTokens, s.outputTokens, s.reasoningTokens)

/-- The sums of a session under its name. -/
def totals : SessionKey × ℕ × (ℕ × ℕ × ℕ × ℕ) × ℕ :=
  ((s.source, s.sessionId), s.requestCount, s.tokens, s.estimatedCostMicroUsd)

end AgentSession

variable (env) in
/-- What a turn costs, where it has a price. -/
def RollupEnv.cost (turn : TurnUsage) : ℕ := ((env.priced turn).toOption.map (·.costMicroUsd)).getD 0

variable (env) in
/-- What the turns a session owns add up to. -/
def claimTotals (c : Prepared F × List (TurnKey × DatedTurn)) : Option SessionKey × ℕ × (ℕ × ℕ × ℕ × ℕ) × ℕ :=
  (c.1.sessionKey, c.2.length, (c.2.map fun e => e.2.2.tokens).sum, (c.2.map fun e => env.cost e.2.2).sum)

theorem sum_tokens (turns : List TurnUsage) : (turns.map TurnUsage.tokens).sum =
    ((turns.map (·.inputTokens)).sum, (turns.map (·.cachedTokens)).sum, (turns.map (·.outputTokens)).sum,
      (turns.map (·.reasoningTokens)).sum) := by
  induction turns with
  | nil => rfl
  | cons turn turns ih =>
    simp only [List.map_cons, List.sum_cons, ih]
    rfl

theorem planWindowView_ok (h : InRange env group) : ∃ window, planWindowView env group = .ok window := by
  obtain ⟨window, hwindow, -⟩ := foldlM_total (I := fun _ => True) (f := planWindowStep env) group none
    (fun scan hscan latest _ => by
      unfold planWindowStep
      cases hobservation : scan.limitObservation with
      | none => exact ⟨latest, rfl, trivial⟩
      | some observation =>
        dsimp only
        cases hprimary : observation.primary with
        | none => exact ⟨latest, rfl, trivial⟩
        | some primary =>
          obtain ⟨hobserved, hepoch⟩ := (h scan hscan).2.1 observation hobservation primary hprimary
          dsimp only
          rw [parseTimestamp_eq hobserved]
          have hresets : ∃ resets, resetsAt primary = .ok resets := by
            unfold resetsAt
            cases hreset : primary.resetsAtEpoch with
            | none => exact ⟨none, rfl⟩
            | some epoch =>
              refine ⟨some (epoch * 1000000), ?_⟩
              change some <$> fromtimestamp epoch = _
              rw [fromtimestamp]
              exact congrArg (some <$> ·) (if_pos (hepoch epoch hreset))
          obtain ⟨resets, hresets⟩ := hresets
          cases occurredAt env observation.observedAt with
          | none => exact ⟨latest, rfl, trivial⟩
          | some observedAt =>
            cases latest with
            | none => exact ⟨some ⟨primary.usedPercent, primary.windowMinutes, resets, observedAt⟩, by simp [hresets], trivial⟩
            | some last =>
              refine ⟨if last.observedAt < observedAt then
                some ⟨primary.usedPercent, primary.windowMinutes, resets, observedAt⟩ else some last, ?_, trivial⟩
              simp [hresets]) trivial
  exact ⟨window, hwindow⟩

/-- The prices of turns that have one add up to their costs. -/
theorem priced_ok {turns : List TurnUsage} (h : ∀ turn ∈ turns, (env.priced turn).isOk) :
    ∃ costs, turns.mapM env.priced = .ok costs ∧ (costs.map (·.costMicroUsd)).sum = (turns.map env.cost).sum := by
  have hcost : ∀ turn ∈ turns, ∃ price, env.priced turn = .ok price ∧ price.costMicroUsd = env.cost turn := by
    intro turn hturn
    have hok := h turn hturn
    unfold RollupEnv.cost
    cases hprice : env.priced turn with
    | ok price => exact ⟨price, rfl, rfl⟩
    | error e =>
      rw [hprice] at hok
      cases hok
  obtain ⟨costs, hcosts⟩ := exists_mapM_eq_ok fun turn hturn => (hcost turn hturn).imp fun _ hp => hp.1
  refine ⟨costs, hcosts, congrArg List.sum ?_⟩
  have hall : List.Forall₂ (· = ·) (costs.map (·.costMicroUsd)) (turns.map env.cost) := by
    rw [List.forall₂_map_left_iff, List.forall₂_map_right_iff]
    refine forall₂_of_mapM hcosts fun turn hturn price hprice => ?_
    obtain ⟨price', hprice', heq⟩ := hcost turn hturn
    obtain rfl : price' = price := Except.ok.inj (hprice'.symm.trans hprice)
    exact heq
  rwa [List.forall₂_eq_eq_eq] at hall

theorem fold_ok (h : InRange env group) (hgroup : group ≠ []) {owned : List DatedTurn} (howned : owned ≠ [])
    (hpriced : ∀ e ∈ owned, (env.priced e.2).isOk) :
    ∃ s, fold env group owned = .ok s ∧ (group.head?.map SessionFileScan.session) = some (s.source, s.sessionId) ∧
      s.requestCount = owned.length ∧ s.tokens = (owned.map fun e => e.2.tokens).sum ∧
      s.estimatedCostMicroUsd = (owned.map fun e => env.cost e.2).sum := by
  obtain ⟨first, rest, rfl⟩ := List.exists_cons_of_ne_nil hgroup
  obtain ⟨window, hwindow⟩ := planWindowView_ok h
  set dated := owned.insertionSort fun a b => a.1 ≤ b.1 with hdated
  have hperm : dated.Perm owned := List.perm_insertionSort _ _
  have hne : dated ≠ [] := fun hnil => howned (List.nil_perm.mp (hnil ▸ hperm))
  have hhead : dated.head? = some (dated.head hne) := List.head?_eq_some_head hne
  have hlast : dated.getLast? = some (dated.getLast hne) := List.getLast?_eq_some_getLast hne
  have hprices : ∀ turn ∈ dated.map (·.2), (env.priced turn).isOk := by
    intro turn hturn
    obtain ⟨e, he, rfl⟩ := List.mem_map.mp hturn
    exact hpriced e (hperm.mem_iff.mp he)
  obtain ⟨costs, hcosts, hsum⟩ := priced_ok hprices
  unfold fold
  dsimp only
  rw [← hdated, hhead, hlast, hcosts]
  simp only [hwindow]
  refine ⟨_, rfl, rfl, hperm.length_eq, ?_, ?_⟩
  · have htokens := sum_tokens (dated.map (·.2))
    rw [List.map_map] at htokens
    have hsum := (hperm.map fun e : DatedTurn => e.2.tokens).sum_eq
    exact htokens.symm.trans hsum
  · refine hsum.trans ?_
    rw [List.map_map]
    exact (hperm.map _).sum_eq

/-- The sessions returned, in the order in which they claimed. -/
theorem buildSessions_eq (h : InRange env scans) : ∃ sessions folded, buildSessions env scans = .ok sessions ∧
    sessions.Perm folded ∧
    folded.map (fun s => (some s.totals.1, s.totals.2)) =
      ((claimed env scans).filter fun c => !c.2.isEmpty).map (claimTotals env) := by
  have hfold : ∀ c ∈ (claimed env scans).filter fun c => !c.2.isEmpty,
      ∃ s, fold env c.1.group (c.2.map (·.2)) = .ok s ∧ (some s.totals.1, s.totals.2) = claimTotals env c := by
    intro c hc
    obtain ⟨hc, howned⟩ := List.mem_filter.mp hc
    obtain ⟨session, hsession⟩ := exists_session hc
    have hrange : InRange env c.1.group := by
      rw [hsession.group_eq]
      exact fun scan hscan => h scan (mem_sessionScans.mp hscan).1
    have hgroup : c.1.group ≠ [] := by
      intro hnil
      have hkey := hsession.session_eq
      simp [Prepared.sessionKey, hnil] at hkey
    have hne : c.2.map (·.2) ≠ [] := by simpa using howned
    have hpriced : ∀ e ∈ c.2.map (·.2), (env.priced e.2).isOk := by
      intro e he
      obtain ⟨e, howned, rfl⟩ := List.mem_map.mp he
      obtain ⟨scan, hscan, -, hdated⟩ := claims_datable hc howned
      obtain ⟨turn, hturn, hat⟩ := List.mem_filterMap.mp hdated
      obtain ⟨at_, hdate, rfl⟩ := Option.map_eq_some_iff.mp hat
      exact (h scan hscan).2.2 turn hturn (hdate ▸ rfl)
    obtain ⟨s, hs, hkey, hcount, htokens, hcost⟩ := fold_ok hrange hgroup hne hpriced
    refine ⟨s, hs, ?_⟩
    rw [List.length_map] at hcount
    rw [List.map_map] at htokens hcost
    unfold claimTotals AgentSession.totals
    rw [hcount, htokens, hcost, Prepared.sessionKey, hkey]
    rfl
  obtain ⟨folded, hfolded⟩ := exists_mapM_eq_ok fun c hc => (hfold c hc).imp fun _ hs => hs.1
  refine ⟨_, folded, ?_, List.perm_insertionSort (fun s t => t.endedAt ≤ s.endedAt) folded, ?_⟩
  · unfold buildSessions
    rw [claimTurns_eq h, bind_eq_ok]
    exact ⟨_, rfl, bind_eq_ok.mpr ⟨folded, hfolded, rfl⟩⟩
  · have hall : List.Forall₂ (· = ·) (folded.map fun s => (some s.totals.1, s.totals.2))
        (((claimed env scans).filter fun c => !c.2.isEmpty).map (claimTotals env)) := by
      rw [List.forall₂_map_left_iff, List.forall₂_map_right_iff]
      refine forall₂_of_mapM hfolded fun c hc s hs => ?_
      obtain ⟨s', hs', htotals⟩ := hfold c hc
      obtain rfl : s' = s := Except.ok.inj (hs'.symm.trans hs)
      exact htotals
    rwa [List.forall₂_eq_eq_eq] at hall

/-! ### The rollouts of Codex -/

variable (env) in
/-- Every rollout has a name of its own, and an event of it names one turn. -/
def CodexNamed (scans : List (SessionFileScan F)) : Prop :=
  ((scans.filter fun scan => decide (scan.source = .codex)).map (·.fileStem)).Nodup ∧
    ∀ scan ∈ scans, scan.source = .codex → ((datable env scan).map fun e => e.2.2.eventId).Nodup

variable (env) in
def codexDatable (scans : List (SessionFileScan F)) : List (TurnKey × DatedTurn) :=
  allDatable env (scans.filter fun scan => decide (scan.source = .codex))

theorem key_of_datable {scan : SessionFileScan F} (h : e ∈ datable env scan) : e.1 = turnKey scan e.2.2 := by
  obtain ⟨turn, -, hturn⟩ := List.mem_filterMap.mp h
  obtain ⟨at_, -, rfl⟩ := Option.map_eq_some_iff.mp hturn
  rfl

theorem source_of_key {scan : SessionFileScan F} {turn : TurnUsage} :
    (turnKey scan turn).1 = text ImportSource.codex.value ↔ scan.source = .codex := by
  unfold turnKey
  cases scan.source with
  | codex => simp
  | claudeCode =>
    have hne : text ImportSource.claudeCode.value ≠ text ImportSource.codex.value := by decide
    simp [hne]

theorem mem_codexDatable : e ∈ codexDatable env scans ↔
    e.1.1 = text ImportSource.codex.value ∧ ∃ scan ∈ scans, e ∈ datable env scan := by
  rw [codexDatable, allDatable, List.mem_flatMap]
  constructor
  · rintro ⟨scan, hscan, he⟩
    rw [List.mem_filter, decide_eq_true_eq] at hscan
    exact ⟨key_of_datable he ▸ source_of_key.mpr hscan.2, scan, hscan.1, he⟩
  · rintro ⟨hkey, scan, hscan, he⟩
    have hsource := source_of_key.mp (key_of_datable he ▸ hkey)
    exact ⟨scan, List.mem_filter.mpr ⟨hscan, decide_eq_true hsource⟩, he⟩

theorem nodup_codexDatable (h : CodexNamed env scans) : ((codexDatable env scans).map (·.1)).Nodup := by
  unfold codexDatable allDatable
  rw [List.map_flatMap, List.nodup_flatMap]
  have hkey : ∀ scan : SessionFileScan F, scan.source = .codex → ∀ e ∈ datable env scan,
      e.1 = (text ImportSource.codex.value, scan.fileStem, e.2.2.eventId) := by
    intro scan hsource e he
    rw [key_of_datable he, turnKey, hsource]
  constructor
  · intro scan hscan
    rw [List.mem_filter, decide_eq_true_eq] at hscan
    have hevents := h.2 scan hscan.1 hscan.2
    unfold List.Nodup at hevents ⊢
    rw [List.pairwise_map] at hevents ⊢
    refine hevents.imp_of_mem fun {e e'} he he' hne hsame => hne ?_
    rw [hkey scan hscan.2 e he, hkey scan hscan.2 e' he'] at hsame
    exact (Prod.mk.inj (Prod.mk.inj hsame).2).2
  · have hstems := h.1
    unfold List.Nodup at hstems
    rw [List.pairwise_map] at hstems
    refine hstems.imp_of_mem fun {scan scan'} hscan hscan' hne k hk hk' => hne ?_
    rw [List.mem_filter, decide_eq_true_eq] at hscan hscan'
    obtain ⟨e, he, rfl⟩ := List.mem_map.mp hk
    obtain ⟨e', he', hsame⟩ := List.mem_map.mp hk'
    rw [hkey scan hscan.2 e he, hkey scan' hscan'.2 e' he'] at hsame
    exact (Prod.mk.inj (Prod.mk.inj hsame).2).1.symm

/-- Every turn of the rollouts that can be dated is counted, once. -/
theorem codex_counted (h : CodexNamed env scans) :
    (((claimed env scans).flatMap (·.2)).filter fun e => decide (e.1.1 = text ImportSource.codex.value)).Perm
      (codexDatable env scans) := by
  have hnodup : (((claimed env scans).flatMap (·.2)).map (·.1)).Nodup := by
    rw [List.map_flatMap]
    exact nodup_claimed
  rw [List.perm_ext_iff_of_nodup ((List.Nodup.of_map _ hnodup).filter _) (List.Nodup.of_map _ (nodup_codexDatable h))]
  intro e
  rw [List.mem_filter, decide_eq_true_eq, List.mem_flatMap]
  constructor
  · rintro ⟨⟨c, hc, he⟩, hkey⟩
    obtain ⟨scan, hscan, -, hdated⟩ := claims_datable hc he
    exact mem_codexDatable.mpr ⟨hkey, scan, hscan, hdated⟩
  · intro he
    obtain ⟨hkey, scan, hscan, hdated⟩ := mem_codexDatable.mp he
    have hcontains : Contains env scans scan.session e.1 := ⟨scan, hscan, rfl, List.mem_map_of_mem hdated⟩
    obtain ⟨c, hc, hclaimed⟩ := exists_claimed hcontains
    obtain ⟨e', he', hsame⟩ := List.mem_map.mp hclaimed
    obtain ⟨scan', hscan', -, hdated'⟩ := claims_datable hc he'
    have hmem' : e' ∈ codexDatable env scans := mem_codexDatable.mpr ⟨hsame ▸ hkey, scan', hscan', hdated'⟩
    obtain rfl := List.inj_on_of_nodup_map (nodup_codexDatable h) hmem' he hsame
    exact ⟨⟨c, hc, he'⟩, hkey⟩

/-- The sums of all sessions are the sums over what they own. -/
theorem sum_claims (l : List (Prepared F × List (TurnKey × DatedTurn))) :
    ((l.filter fun c => !c.2.isEmpty).map fun c => (c.2.map fun e => e.2.2.tokens).sum).sum =
      ((l.flatMap (·.2)).map fun e => e.2.2.tokens).sum := by
  induction l with
  | nil => rfl
  | cons c l ih =>
    rw [List.flatMap_cons, List.map_append, List.sum_append, ← ih, List.filter_cons]
    cases hc : c.2 with
    | nil => simp
    | cons e rest => simp [hc]

/-! ### Agreement and ties -/

variable (env) in
/-- The copies of a message of Claude that can be dated are equal. -/
def MessagesAgree (scans : List (SessionFileScan F)) : Prop :=
  Agree (allDatable env (scans.filter fun scan => decide (scan.source = .claudeCode)))

variable (env) in
/-- Two sessions that share a turn start at different times or have differently many turns. -/
def NoTies (scans : List (SessionFileScan F)) : Prop :=
  ∀ session session' k, Contains env scans session k → Contains env scans session' k →
    sessionStart env scans session = sessionStart env scans session' →
    (sessionTurns env scans session).length = (sessionTurns env scans session').length → session = session'

theorem agree_of_messages (hnamed : CodexNamed env scans) (h : MessagesAgree env scans) : Agree (allDatable env scans) := by
  intro e he e' he' hsame
  obtain ⟨scan, hscan, hdated⟩ := List.mem_flatMap.mp he
  obtain ⟨scan', hscan', hdated'⟩ := List.mem_flatMap.mp he'
  by_cases hkey : e.1.1 = text ImportSource.codex.value
  · have hmem : e ∈ codexDatable env scans := mem_codexDatable.mpr ⟨hkey, scan, hscan, hdated⟩
    have hmem' : e' ∈ codexDatable env scans := mem_codexDatable.mpr ⟨hsame ▸ hkey, scan', hscan', hdated'⟩
    exact List.inj_on_of_nodup_map (nodup_codexDatable hnamed) hmem hmem' hsame
  · have hclaude : ∀ {scan : SessionFileScan F} {e : TurnKey × DatedTurn}, e ∈ datable env scan →
        e.1.1 ≠ text ImportSource.codex.value → scan.source = .claudeCode := by
      intro scan e he hne
      cases hsource : scan.source with
      | claudeCode => rfl
      | codex => exact absurd (key_of_datable he ▸ source_of_key.mpr hsource) hne
    have hsource := hclaude hdated hkey
    have hsource' := hclaude hdated' (hsame ▸ hkey)
    exact h e (List.mem_flatMap.mpr ⟨scan, List.mem_filter.mpr ⟨hscan, decide_eq_true hsource⟩, hdated⟩) e'
      (List.mem_flatMap.mpr ⟨scan', List.mem_filter.mpr ⟨hscan', decide_eq_true hsource'⟩, hdated'⟩) hsame

/-! ### Two orders of the same scans -/

section reordered
variable (hperm : scans'.Perm scans) (hagree : Agree (allDatable env scans))

include hperm in
theorem contains_perm : Contains env scans' session k ↔ Contains env scans session k := by
  unfold Contains
  simp only [hperm.mem_iff]

include hperm hagree in
theorem sessionTurns_perm : (sessionTurns env scans' session).Perm (sessionTurns env scans session) := by
  apply keepFirst_perm
  · intro e he e' he'
    have hsub : ∀ e ∈ allDatable env (scans.filter fun scan => decide (scan.session = session)), e ∈ allDatable env scans := by
      intro e he
      obtain ⟨scan, hscan, hdated⟩ := List.mem_flatMap.mp he
      exact List.mem_flatMap.mpr ⟨scan, List.mem_of_mem_filter hscan, hdated⟩
    exact hagree e (hsub e he) e' (hsub e' he')
  · exact (hperm.filter _).flatMap_right _

include hperm hagree in
theorem sessionStart_perm : sessionStart env scans' session = sessionStart env scans session := by
  have hturns : (sessionTurns env scans' session).Perm (sessionTurns env scans session) := sessionTurns_perm hperm hagree
  have htimes := hturns.map (·.2.1)
  apply Option.ext
  intro t
  unfold sessionStart
  rw [List.min?_eq_some_iff, List.min?_eq_some_iff]
  simp only [htimes.mem_iff]

include hperm hagree in
theorem NoTies.perm (h : NoTies env scans) : NoTies env scans' := by
  intro session session' k hk hk' hstart hsize
  rw [contains_perm hperm] at hk hk'
  rw [sessionStart_perm hperm hagree, sessionStart_perm hperm hagree] at hstart
  rw [(sessionTurns_perm hperm hagree).length_eq, (sessionTurns_perm hperm hagree).length_eq] at hsize
  exact h session session' k hk hk' hstart hsize

include hperm hagree in
/-- A session is prepared with the same turns and the same rank. -/
theorem IsSession.reordered (hp : IsSession env scans session p) : ∃ p', IsSession env scans' session p' ∧
    p'.rank = p.rank ∧ p'.dated.entries.Perm p.dated.entries := by
  obtain ⟨e, he⟩ := List.exists_mem_of_ne_nil _ hp.ne_nil
  have hcontains : Contains env scans session e.1 := hp.contains_iff.mpr (List.mem_map_of_mem he)
  obtain ⟨p', hp'⟩ := exists_isSession ((contains_perm hperm).mpr hcontains)
  have hstart : p'.earliest = p.earliest := by
    have hsame : sessionStart env scans' session = sessionStart env scans session := sessionStart_perm hperm hagree
    rw [hp'.start, hp.start] at hsame
    exact Option.some.inj hsame
  have hturns : (sessionTurns env scans' session).Perm (sessionTurns env scans session) := sessionTurns_perm hperm hagree
  refine ⟨p', hp', ?_, ?_⟩
  · rw [Prepared.rank, Prepared.rank, hstart, hp'.size, hp.size, hturns.length_eq]
  · rw [hp'.entries, hp.entries]
    exact hturns

end reordered

/-! ### What a session owns -/

variable (env) in
/-- No session that has the turn ranks before this one. -/
def Owns (scans : List (SessionFileScan F)) (p : Prepared F) (k : TurnKey) : Prop :=
  ∀ q ∈ inOrder env scans, k ∈ q.dated.entries.map (·.1) → p.rank ≤ q.rank

instance (scans : List (SessionFileScan F)) (p : Prepared F) (k : TurnKey) : Decidable (Owns env scans p k) :=
  inferInstanceAs (Decidable (∀ q ∈ inOrder env scans, k ∈ q.dated.entries.map (·.1) → p.rank ≤ q.rank))

theorem claimed_eq_map (hties : NoTies env scans) : claimed env scans = (inOrder env scans).map fun p =>
    (p, p.dated.entries.filter fun e => decide (Owns env scans p e.1)) := by
  have hnodup : (inOrder env scans).Nodup := List.Nodup.of_map _ nodup_inOrder
  have hranks : ∀ p ∈ inOrder env scans, ∀ q ∈ inOrder env scans, ∀ k ∈ p.dated.entries.map (·.1),
      k ∈ q.dated.entries.map (·.1) → p.rank = q.rank → p = q := by
    intro p hp q hq k hk hk' hrank
    obtain ⟨session, hsession⟩ := mem_inOrder.mp hp
    obtain ⟨session', hsession'⟩ := mem_inOrder.mp hq
    have hpair : (p.earliest, p.size) = (q.earliest, q.size) := toLex.injective hrank
    obtain ⟨hstart, hsize⟩ := Prod.mk.inj hpair
    have hstarts : sessionStart env scans session = sessionStart env scans session' := by
      rw [hsession.start, hsession'.start, hstart]
    rw [hsession.size, hsession'.size] at hsize
    obtain rfl := hties session session' k (hsession.contains_iff.mpr hk) (hsession'.contains_iff.mpr hk') hstarts hsize
    exact hsession.unique hsession'
  refine (claimAll_eq_map Prepared.rank sorted_inOrder hnodup hranks).trans (List.map_congr_left fun p _ => ?_)
  exact congrArg (p, ·) (List.filter_congr fun e _ => decide_eq_decide.mpr Iff.rfl)

/-- A session of one order owns in another order what it owns in this one. -/
theorem claimTotals_reordered (hperm : scans'.Perm scans) (hagree : Agree (allDatable env scans))
    (hties : NoTies env scans) {c : Prepared F × List (TurnKey × DatedTurn)} (hc : c ∈ claimed env scans) :
    ∃ c' ∈ claimed env scans', c'.2.Perm c.2 ∧ claimTotals env c' = claimTotals env c := by
  have hagree' : Agree (allDatable env scans') := by
    have hall : (allDatable env scans').Perm (allDatable env scans) := hperm.flatMap_right _
    exact fun e he e' he' => hagree e (hall.mem_iff.mp he) e' (hall.mem_iff.mp he')
  rw [claimed_eq_map hties] at hc
  obtain ⟨p, hp, rfl⟩ := List.mem_map.mp hc
  obtain ⟨session, hsession⟩ := mem_inOrder.mp hp
  obtain ⟨p', hsession', hrank, hentries⟩ := hsession.reordered hperm hagree
  have howns : ∀ k, Owns env scans' p' k ↔ Owns env scans p k := by
    intro k
    constructor
    · intro h q hq hk
      obtain ⟨t, ht⟩ := mem_inOrder.mp hq
      obtain ⟨q', ht', hrank', hentries'⟩ := ht.reordered hperm hagree
      rw [← hrank, ← hrank']
      exact h q' (mem_inOrder.mpr ⟨t, ht'⟩) ((hentries'.map _).mem_iff.mpr hk)
    · intro h q hq hk
      obtain ⟨t, ht⟩ := mem_inOrder.mp hq
      obtain ⟨q', ht', hrank', hentries'⟩ := ht.reordered hperm.symm hagree'
      rw [hrank, ← hrank']
      exact h q' (mem_inOrder.mpr ⟨t, ht'⟩) ((hentries'.map _).mem_iff.mpr hk)
  have howned : (p'.dated.entries.filter fun e => decide (Owns env scans' p' e.1)).Perm
      (p.dated.entries.filter fun e => decide (Owns env scans p e.1)) := by
    simp only [howns]
    exact hentries.filter _
  have hc' : (p', p'.dated.entries.filter fun e => decide (Owns env scans' p' e.1)) ∈ claimed env scans' := by
    rw [claimed_eq_map (hties.perm hperm hagree)]
    exact List.mem_map.mpr ⟨p', mem_inOrder.mpr ⟨session, hsession'⟩, rfl⟩
  refine ⟨_, hc', howned, ?_⟩
  have htokens := (howned.map fun e => e.2.2.tokens).sum_eq
  have hcost := (howned.map fun e => env.cost e.2.2).sum_eq
  unfold claimTotals
  dsimp only
  rw [hsession.session_eq, hsession'.session_eq, howned.length_eq, hcost]
  exact congrArg (fun t => (some session, _, t, _)) htokens

/-- The sums of the sessions do not depend on the order of the scans. -/
theorem claimTotals_perm (hperm : scans'.Perm scans) (hagree : Agree (allDatable env scans)) (hties : NoTies env scans) :
    (((claimed env scans').filter fun c => !c.2.isEmpty).map (claimTotals env)).Perm
      (((claimed env scans).filter fun c => !c.2.isEmpty).map (claimTotals env)) := by
  have hagree' : Agree (allDatable env scans') := by
    have hall : (allDatable env scans').Perm (allDatable env scans) := hperm.flatMap_right _
    exact fun e he e' he' => hagree e (hall.mem_iff.mp he) e' (hall.mem_iff.mp he')
  have hnodup : ∀ scans : List (SessionFileScan F),
      (((claimed env scans).filter fun c => !c.2.isEmpty).map (claimTotals env)).Nodup := by
    intro scans
    apply List.Nodup.of_map (·.1)
    rw [List.map_map]
    have hkeys : ((claimed env scans).map fun c => c.1.sessionKey).Nodup := by
      have hmap : (claimed env scans).map (fun c => c.1.sessionKey) =
          ((claimed env scans).map (·.1)).map Prepared.sessionKey := by rw [List.map_map]; rfl
      rw [hmap, claimed, map_fst_claimAll]
      exact nodup_inOrder
    exact (List.filter_sublist.map fun c : Prepared F × List (TurnKey × DatedTurn) => c.1.sessionKey).nodup hkeys
  have hsub : ∀ {scans scans' : List (SessionFileScan F)}, scans'.Perm scans → Agree (allDatable env scans) →
      NoTies env scans → ∀ t ∈ ((claimed env scans).filter fun c => !c.2.isEmpty).map (claimTotals env),
        t ∈ ((claimed env scans').filter fun c => !c.2.isEmpty).map (claimTotals env) := by
    intro scans scans' hperm hagree hties t ht
    obtain ⟨c, hc, rfl⟩ := List.mem_map.mp ht
    obtain ⟨hc, howned⟩ := List.mem_filter.mp hc
    obtain ⟨c', hc', hturns, htotals⟩ := claimTotals_reordered hperm hagree hties hc
    rw [← htotals]
    refine List.mem_map_of_mem (List.mem_filter.mpr ⟨hc', ?_⟩)
    rw [List.isEmpty_eq_false_iff.mpr]
    · rfl
    · intro hnil
      rw [hnil, List.nil_perm] at hturns
      simp [hturns] at howned
  rw [List.perm_ext_iff_of_nodup (hnodup scans') (hnodup scans)]
  intro t
  exact ⟨hsub hperm.symm hagree' (hties.perm hperm hagree) t, hsub hperm hagree hties t⟩

/-! ### Once each -/

/-- The identity of a message of Claude. -/
def messageKey (m : PyStr) : TurnKey := (text ImportSource.claudeCode.value, [], m)

/-- **Every call is counted once.**  The sessions returned sum up the turns that they own. A message of Claude of
which a copy can be dated is owned by exactly one session, which contains it and starts no later than any other that
does; the turns of Codex that can be dated are owned exactly once. Where copies agree and there are no ties, the sums
of the sessions do not depend on the order of the scans. -/
theorem sessions_count_once (env : RollupEnv) (scans : List (SessionFileScan F)) (hrange : InRange env scans)
    (hnamed : CodexNamed env scans) :
    ∃ claimed sessions, claimTurns env scans = .ok claimed ∧ buildSessions env scans = .ok sessions ∧
      (∃ folded, sessions.Perm folded ∧ folded.map (fun s => (some s.totals.1, s.totals.2)) =
        (claimed.filter fun c => !c.2.isEmpty).map (claimTotals env)) ∧
      (claimed.flatMap fun c => c.2.map (·.1)).Nodup ∧
      (∀ c ∈ claimed, ∀ e ∈ c.2, ∃ scan ∈ scans, some scan.session = c.1.sessionKey ∧ e ∈ datable env scan) ∧
      (∀ m, (∃ session, Contains env scans session (messageKey m)) →
        ∃ c ∈ claimed, messageKey m ∈ c.2.map (·.1) ∧ (∀ c' ∈ claimed, messageKey m ∈ c'.2.map (·.1) → c' = c) ∧
          ∃ owner start, c.1.sessionKey = some owner ∧ Contains env scans owner (messageKey m) ∧
            sessionStart env scans owner = some start ∧
            ∀ session t, Contains env scans session (messageKey m) → sessionStart env scans session = some t → start ≤ t) ∧
      ((claimed.flatMap (·.2)).filter fun e => decide (e.1.1 = text ImportSource.codex.value)).Perm
        (codexDatable env scans) ∧
      (sessions.map (·.tokens)).sum = ((claimed.flatMap (·.2)).map fun e => e.2.2.tokens).sum ∧
      ∀ scans', scans'.Perm scans → MessagesAgree env scans → NoTies env scans →
        ∃ sessions', buildSessions env scans' = .ok sessions' ∧
          (sessions'.map (·.totals)).Perm (sessions.map (·.totals)) := by
  obtain ⟨sessions, folded, hbuild, hfolded, htotals⟩ := buildSessions_eq hrange
  refine ⟨claimed env scans, sessions, claimTurns_eq hrange, hbuild, ⟨folded, hfolded, htotals⟩, nodup_claimed,
    fun c hc e he => claims_datable hc he, ?_, codex_counted hnamed, ?_, ?_⟩
  · rintro m ⟨session, hm⟩
    obtain ⟨c, hc, hk⟩ := exists_claimed hm
    obtain ⟨owner, howner⟩ := exists_session hc
    have hcontains : Contains env scans owner (messageKey m) := by
      obtain ⟨e, he, hkey⟩ := List.mem_map.mp hk
      exact howner.contains_iff.mpr (hkey ▸ List.mem_map_of_mem (claims_subset hc he))
    exact ⟨c, hc, hk, fun c' hc' hk' => claimed_unique hc hc' hk hk', owner, c.1.earliest, howner.session_eq, hcontains,
      howner.start, fun session t hs ht => claimed_earliest hc hk hs ht⟩
  · have hsum := (hfolded.map (·.tokens)).sum_eq
    have hcolumn := congrArg (List.map fun t => t.2.2.1) htotals
    rw [List.map_map, List.map_map] at hcolumn
    rw [← sum_claims]
    exact hsum.trans (congrArg List.sum hcolumn)
  · intro scans' hperm hagree hties
    have hrange' : InRange env scans' := fun scan hscan => hrange scan (hperm.mem_iff.mp hscan)
    obtain ⟨sessions', folded', hbuild', hfolded', htotals'⟩ := buildSessions_eq hrange'
    have hsame := claimTotals_perm hperm (agree_of_messages hnamed hagree) hties
    rw [← htotals, ← htotals'] at hsame
    have hinj : Function.Injective fun t : SessionKey × ℕ × (ℕ × ℕ × ℕ × ℕ) × ℕ => (some t.1, t.2) := by
      rintro ⟨k, t⟩ ⟨k', t'⟩ heq
      simpa using heq
    have hnames : ∀ l : List (AgentSession F), l.map (fun s => (some s.totals.1, s.totals.2)) =
        (l.map (·.totals)).map fun t => (some t.1, t.2) := by
      intro l
      rw [List.map_map]
      rfl
    rw [hnames, hnames, List.map_perm_map_iff hinj] at hsame
    exact ⟨sessions', hbuild', ((hfolded'.map _).trans hsame).trans (hfolded.map _).symm⟩

/-! ### Forks -/

/-- A reader of the timestamps below, and a catalog with one model, for which there are no floats from 10 ^ 400 on. -/
def sampleEnv : RollupEnv where
  fromisoformat value :=
    if value = text "2026-08-01T10:00:00+00:00" then some ⟨1785578400000000, some 0⟩
    else if value = text "2026-08-01T11:00:00+00:00" then some ⟨1785582000000000, some 0⟩
    else if value = text "0001-01-01T00:00:00+01:00" then some ⟨-62135596800000000, some 3600000000⟩
    else none
  priceUsage model _ _ output :=
    if model = text "listed" ∧ 10 ^ 200 * 10 ^ 200 ≤ output then .error .overflow else .ok ⟨none, none, false, 0⟩

def sampleTurn (source : ImportSource) (eventId timestamp : String) (output : ℕ) : TurnUsage :=
  ⟨source, text eventId, text "local", 0, 0, output, 0, text timestamp⟩

def sampleScan (source : ImportSource) (name : String) (turns : List TurnUsage) : SessionFileScan ℚ :=
  ⟨source, text name, text name, none, none, turns, none, []⟩

/-- A transcript and a fork of it, a rollout, and a turn that cannot be dated. -/
def sampleScans : List (SessionFileScan ℚ) :=
  [sampleScan .claudeCode "a" [sampleTurn .claudeCode "m1" "2026-08-01T10:00:00+00:00" 5,
      sampleTurn .claudeCode "m0" "yesterday" 7],
    sampleScan .claudeCode "b" [sampleTurn .claudeCode "m1" "2026-08-01T10:00:00+00:00" 5,
      sampleTurn .claudeCode "m2" "2026-08-01T11:00:00+00:00" 3],
    sampleScan .codex "r" [sampleTurn .codex "r:0" "2026-08-01T10:00:00+00:00" 2,
      sampleTurn .codex "r:1" "2026-08-01T10:00:00+00:00" 2]]

theorem sessions_count_once_forked : ∃ claimed sessions sessions', claimTurns sampleEnv sampleScans = .ok claimed ∧
    buildSessions sampleEnv sampleScans = .ok sessions ∧
    (sessions.map (·.tokens)).sum = ((claimed.flatMap (·.2)).map fun e => e.2.2.tokens).sum ∧
    buildSessions sampleEnv sampleScans.reverse = .ok sessions' ∧
    (sessions'.map (·.totals)).Perm (sessions.map (·.totals)) := by
  have hrange : InRange sampleEnv sampleScans := by
    unfold InRange Datetime.InRange
    decide +kernel
  have hnamed : CodexNamed sampleEnv sampleScans := by
    unfold CodexNamed
    decide
  have hagree : MessagesAgree sampleEnv sampleScans := by
    unfold MessagesAgree Agree
    decide
  have hties : NoTies sampleEnv sampleScans := by
    -- The fork has one turn more than the transcript.
    have hscans : ∀ scan ∈ sampleScans, ∀ scan' ∈ sampleScans, scan.session = scan'.session ∨
        (sessionTurns sampleEnv sampleScans scan.session).length ≠
          (sessionTurns sampleEnv sampleScans scan'.session).length ∨
        ∀ k ∈ (datable sampleEnv scan).map (·.1), k ∉ (datable sampleEnv scan').map (·.1) := by decide
    rintro _ _ k ⟨scan, hscan, rfl, hk⟩ ⟨scan', hscan', rfl, hk'⟩ - hsize
    rcases hscans scan hscan scan' hscan' with h | h | h
    · exact h
    · exact absurd hsize h
    · exact absurd hk' (h k hk)
  obtain ⟨claimed, sessions, hclaimed, hsessions, -, -, -, -, -, hsum, hreordered⟩ :=
    sessions_count_once sampleEnv sampleScans hrange hnamed
  obtain ⟨sessions', hsessions', hperm⟩ := hreordered sampleScans.reverse (List.reverse_perm _) hagree hties
  exact ⟨claimed, sessions, sessions', hclaimed, hsessions, hsum, hsessions', hperm⟩

/-- The transcripts of two sessions that hold the same message and nothing else. -/
def twin (name : String) : SessionFileScan ℚ :=
  sampleScan .claudeCode name [sampleTurn .claudeCode "m1" "2026-08-01T10:00:00+00:00" 5]

/-- A rollout two calls of which have one turn id. -/
def sharedTurn : SessionFileScan ℚ :=
  sampleScan .codex "r" [sampleTurn .codex "t1" "2026-08-01T10:00:00+00:00" 2,
    sampleTurn .codex "t1" "2026-08-01T11:00:00+00:00" 3]

/-- A transcript whose timestamp is before the first instant in UTC. -/
def beforeTime : SessionFileScan ℚ :=
  sampleScan .claudeCode "a" [sampleTurn .claudeCode "m1" "0001-01-01T00:00:00+01:00" 5]

/-- A turn of a model of the catalog with more tokens than a float holds. -/
def hugeTurn : SessionFileScan ℚ :=
  sampleScan .claudeCode "a"
    [⟨.claudeCode, text "m1", text "listed", 0, 0, 10 ^ 200 * 10 ^ 200, 0, text "2026-08-01T10:00:00+00:00"⟩]

/-- Between twins the order of the scans decides; a turn id counts once in a rollout however many calls have it; and a
timestamp that UTC cannot hold raises, as a price that no float holds does. -/
theorem twins_depend_on_order :
    MessagesAgree sampleEnv [twin "a", twin "b"] ∧
    (buildSessions sampleEnv [twin "a", twin "b"]).toOption.map (·.map (·.totals)) =
      some [((.claudeCode, text "a"), 1, (0, 0, 5, 0), 0)] ∧
    (buildSessions sampleEnv [twin "b", twin "a"]).toOption.map (·.map (·.totals)) =
      some [((.claudeCode, text "b"), 1, (0, 0, 5, 0), 0)] ∧
    (buildSessions sampleEnv [sharedTurn]).toOption.map (·.map (·.totals)) =
      some [((.codex, text "r"), 1, (0, 0, 2, 0), 0)] ∧
    buildSessions sampleEnv [beforeTime] = .error .overflow ∧
    buildSessions sampleEnv [hugeTurn] = .error .overflow := by
  refine ⟨?_, rfl, rfl, rfl, rfl, rfl⟩
  unfold MessagesAgree Agree
  decide

end Experiential.Sessions
