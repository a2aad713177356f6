import Mathlib.Data.Prod.Lex
import Mathlib.Data.List.MinMax
import Experiential.Lib.FirstClaim
import Experiential.Sessions.Logs

/-! # Who is counted for a turn

The scans of the log files are folded into one summary for every session. A forked transcript repeats the turns of
another one under their ids: a turn is attributed to the session that starts first.

Every turn that can be dated is counted once. A message that several sessions contain is counted in one that starts
first; sessions that start together and have equally many turns are told apart by nothing but the order of the scans,
so that the sums of a session depend on that order exactly through such ties. -/

namespace Experiential.Sessions

open Py Usage OrderedDict

/-- A `datetime`: microseconds on its own clock, and how far that is ahead of UTC. -/
structure Datetime where
  wall : ℤ
  utcoffset : Option ℤ
deriving DecidableEq

/-- The first and the last instant of a `datetime`, in microseconds since the epoch. -/
def minInstant : ℤ := -62135596800000000

def maxInstant : ℤ := 253402300799999999

/-- `value.astimezone(UTC)`, a naive value being read as UTC. -/
def Datetime.astimezone (value : Datetime) : Except PyError ℤ :=
  let instant := value.wall - value.utcoffset.getD 0
  if minInstant ≤ instant ∧ instant ≤ maxInstant then .ok instant else .error .overflow

/-- `datetime.fromtimestamp(epoch, tz=UTC)` -/
def fromtimestamp (epoch : ℤ) : Except PyError ℤ :=
  if minInstant ≤ epoch * 1000000 ∧ epoch * 1000000 ≤ maxInstant then .ok (epoch * 1000000) else .error .value

/-- What is outside of the rollup: the reader of timestamps, `none` where it raises `ValueError`, and the catalog's
prices. A count that no float holds raises where the catalog has the model. -/
structure RollupEnv where
  fromisoformat : PyStr → Option Datetime
  priceUsage : PyStr → ℕ → ℕ → ℕ → Except PyError PricedUsage

/-- The price of a turn. -/
def RollupEnv.priced (env : RollupEnv) (turn : TurnUsage) : Except PyError PricedUsage :=
  env.priceUsage turn.model turn.inputTokens turn.cachedTokens turn.outputTokens

structure PlanWindow (F : Type) where
  usedPercent : Option F
  windowMinutes : Option ℤ
  resetsAt : Option ℤ
  observedAt : ℤ
deriving DecidableEq

/-- The summary of one session. -/
structure AgentSession (F : Type) where
  source : ImportSource
  sessionId : PyStr
  projectDir : Option PyStr
  gitBranch : Option PyStr
  models : List PyStr
  requestCount : ℕ
  inputTokens : ℕ
  cachedTokens : ℕ
  outputTokens : ℕ
  reasoningTokens : ℕ
  estimatedCostMicroUsd : ℕ
  startedAt : ℤ
  endedAt : ℤ
  planWindow : Option (PlanWindow F)
deriving DecidableEq

abbrev TurnKey := PyStr × PyStr × PyStr

/-- A turn with the time it occurred at. -/
abbrev DatedTurn := ℤ × TurnUsage

section
variable {F : Type} (env : RollupEnv)

/-- `_parse_timestamp` -/
def parseTimestamp (value : PyStr) : Except PyError (Option ℤ) :=
  match env.fromisoformat value with
  | none => .ok none
  | some parsed => some <$> parsed.astimezone

/-- `_resets_at` -/
def resetsAt (state : WindowState F) : Except PyError (Option ℤ) :=
  match state.resetsAtEpoch with
  | none => .ok none
  | some epoch => some <$> fromtimestamp epoch

/-- One scan of `_plan_window_view`. -/
def planWindowStep (latest : Option (PlanWindow F)) (scan : SessionFileScan F) :
    Except PyError (Option (PlanWindow F)) :=
  match scan.limitObservation with
  | none => .ok latest
  | some observation =>
    match observation.primary with
    | none => .ok latest
    | some primary => do
      let some observedAt ← parseTimestamp env observation.observedAt | return latest
      let view : PlanWindow F := ⟨primary.usedPercent, primary.windowMinutes, ← resetsAt primary, observedAt⟩
      match latest with
      | none => return some view
      | some last => return if last.observedAt < observedAt then some view else some last

/-- `_plan_window_view` -/
def planWindowView (scans : List (SessionFileScan F)) : Except PyError (Option (PlanWindow F)) :=
  scans.foldlM (planWindowStep env) none

/-- `_turn_key` -/
def turnKey (scan : SessionFileScan F) (turn : TurnUsage) : TurnKey :=
  match scan.source with
  | .claudeCode => (text scan.source.value, [], turn.eventId)
  | .codex => (text scan.source.value, scan.fileStem, turn.eventId)

/-- One turn of `_dated_turns`. -/
def dateTurn (scan : SessionFileScan F) (dated : OrderedDict TurnKey DatedTurn) (turn : TurnUsage) :
    Except PyError (OrderedDict TurnKey DatedTurn) :=
  let key := turnKey scan turn
  if (dated.get? key).isSome then .ok dated
  else do
    match ← parseTimestamp env turn.timestamp with
    | some occurredAt => return dated.set key (occurredAt, turn)
    | none => return dated

/-- `_dated_turns` -/
def datedTurns (scans : List (SessionFileScan F)) : Except PyError (OrderedDict TurnKey DatedTurn) :=
  scans.foldlM (fun dated scan => scan.turns.foldlM (dateTurn env scan) dated) empty

/-- `next((v for v in values if v), None)` -/
def firstTruthy (values : List (Option PyStr)) : Option PyStr :=
  (values.find? fun v => !(v.getD []).isEmpty).join

/-- `_fold` -/
def fold (scans : List (SessionFileScan F)) (owned : List DatedTurn) : Except PyError (AgentSession F) := do
  let dated := owned.insertionSort fun a b => a.1 ≤ b.1
  let turns := dated.map (·.2)
  let models := turns.foldl (fun models turn => if turn.model ∈ models then models else models ++ [turn.model]) []
  let costs ← turns.mapM env.priced
  let first :: _ := scans | throw .index
  let some started := dated.head? | throw .index
  let some ended := dated.getLast? | throw .index
  return {
    source := first.source
    sessionId := first.sessionId
    projectDir := firstTruthy (scans.map (·.projectDir))
    gitBranch := firstTruthy (scans.map (·.gitBranch))
    models := models
    requestCount := dated.length
    inputTokens := (turns.map (·.inputTokens)).sum
    cachedTokens := (turns.map (·.cachedTokens)).sum
    outputTokens := (turns.map (·.outputTokens)).sum
    reasoningTokens := (turns.map (·.reasoningTokens)).sum
    estimatedCostMicroUsd := (costs.map (·.costMicroUsd)).sum
    startedAt := started.1
    endedAt := ended.1
    planWindow := ← planWindowView env scans }

/-! ### Sessions -/

abbrev SessionKey := ImportSource × PyStr

def SessionFileScan.session (scan : SessionFileScan F) : SessionKey := (scan.source, scan.sessionId)

/-- A session that has a dated turn: when it starts, how many turns it has, its scans and its turns. -/
structure Prepared (F : Type) where
  earliest : ℤ
  size : ℕ
  group : List (SessionFileScan F)
  dated : OrderedDict TurnKey DatedTurn

def prepare (group : List (SessionFileScan F)) : Except PyError (Option (Prepared F)) := do
  let dated ← datedTurns env group
  return (dated.entries.map (·.2.1)).min?.map fun earliest => ⟨earliest, dated.entries.length, group, dated⟩

/-- The scans that have turns, by their session. -/
def groupScans (scans : List (SessionFileScan F)) : OrderedDict SessionKey (List (SessionFileScan F)) :=
  listBy SessionFileScan.session (scans.filter fun scan => !scan.turns.isEmpty) empty

/-- The order in which sessions claim their turns. -/
def Prepared.rank (p : Prepared F) : Lex (ℤ × ℕ) := toLex (p.earliest, p.size)

def prepareAll (scans : List (SessionFileScan F)) : Except PyError (List (Prepared F)) := do
  let prepared ← ((groupScans scans).entries.map (·.2)).mapM (prepare env)
  return prepared.reduceOption.insertionSort fun p q => p.rank ≤ q.rank

/-- The sessions with the turns each of them owns. -/
def claimTurns (scans : List (SessionFileScan F)) : Except PyError (List (Prepared F × List (TurnKey × DatedTurn))) := do
  let prepared ← prepareAll env scans
  return claimAll (fun p => p.dated.entries) prepared []

/-- `build_sessions` -/
def buildSessions (scans : List (SessionFileScan F)) : Except PyError (List (AgentSession F)) := do
  let claimed ← claimTurns env scans
  let sessions ← (claimed.filter fun c => !c.2.isEmpty).mapM fun c => fold env c.1.group (c.2.map (·.2))
  return sessions.insertionSort fun s t => t.endedAt ≤ s.endedAt

end

variable {F : Type} (env : RollupEnv)

/-! ### What can be dated -/

/-- The instant is one that a `datetime` in UTC can hold. -/
def Datetime.InRange (d : Datetime) : Prop :=
  minInstant ≤ d.wall - d.utcoffset.getD 0 ∧ d.wall - d.utcoffset.getD 0 ≤ maxInstant

/-- When it was, of a timestamp that can be read. -/
def occurredAt (value : PyStr) : Option ℤ := (env.fromisoformat value).map fun d => d.wall - d.utcoffset.getD 0

/-- No timestamp and no reset of a plan window leaves the range of `datetime`, and no price of a turn that can be dated
that of a float. -/
def InRange (scans : List (SessionFileScan F)) : Prop :=
  ∀ scan ∈ scans, (∀ turn ∈ scan.turns, ∀ d ∈ env.fromisoformat turn.timestamp, d.InRange) ∧
    (∀ observation ∈ scan.limitObservation, ∀ window ∈ observation.primary,
      (∀ d ∈ env.fromisoformat observation.observedAt, d.InRange) ∧
      ∀ epoch ∈ window.resetsAtEpoch, minInstant ≤ epoch * 1000000 ∧ epoch * 1000000 ≤ maxInstant) ∧
    ∀ turn ∈ scan.turns, (occurredAt env turn.timestamp).isSome → (env.priced turn).isOk

/-- The turns of a scan that can be dated, under their identities. -/
def datable (scan : SessionFileScan F) : List (TurnKey × DatedTurn) :=
  scan.turns.filterMap fun turn => (occurredAt env turn.timestamp).map fun at_ => (turnKey scan turn, at_, turn)

def allDatable (scans : List (SessionFileScan F)) : List (TurnKey × DatedTurn) := scans.flatMap (datable env)

/-- The distinct turns of a session, each with its first copy that can be dated. -/
def sessionTurns (scans : List (SessionFileScan F)) (session : SessionKey) : List (TurnKey × DatedTurn) :=
  (keepFirst (allDatable env (scans.filter fun scan => decide (scan.session = session))) empty).entries

def sessionStart (scans : List (SessionFileScan F)) (session : SessionKey) : Option ℤ :=
  ((sessionTurns env scans session).map (·.2.1)).min?

variable {env} {scans scans' group : List (SessionFileScan F)} {session session' : SessionKey}

theorem parseTimestamp_eq {value : PyStr} (h : ∀ d ∈ env.fromisoformat value, d.InRange) :
    parseTimestamp env value = .ok (occurredAt env value) := by
  unfold parseTimestamp occurredAt
  cases hread : env.fromisoformat value with
  | none => rfl
  | some d =>
    have hd : d.InRange := h d hread
    change some <$> d.astimezone = _
    rw [Datetime.astimezone]
    exact congrArg (some <$> ·) (if_pos hd)

theorem foldlM_dateTurn (scan : SessionFileScan F) : ∀ (turns : List TurnUsage) (dated : OrderedDict TurnKey DatedTurn),
    (∀ turn ∈ turns, ∀ d ∈ env.fromisoformat turn.timestamp, d.InRange) →
    turns.foldlM (dateTurn env scan) dated = .ok (keepFirst (turns.filterMap fun turn =>
      (occurredAt env turn.timestamp).map fun at_ => (turnKey scan turn, at_, turn)) dated)
  | [], _, _ => rfl
  | turn :: turns, dated, h => by
      have hstep : dateTurn env scan dated turn = .ok (keepFirst
          ((occurredAt env turn.timestamp).map fun at_ => (turnKey scan turn, at_, turn)).toList dated) := by
        unfold dateTurn
        rw [parseTimestamp_eq (h turn List.mem_cons_self)]
        by_cases hkey : (dated.get? (turnKey scan turn)).isSome
        · rw [if_pos hkey]
          cases occurredAt env turn.timestamp <;> simp [keepFirst, hkey]
        · rw [if_neg hkey]
          cases occurredAt env turn.timestamp with
          | none => rfl
          | some at_ =>
            simp only [Option.map_some, Option.toList_some, keepFirst, List.foldl_cons, List.foldl_nil]
            rw [if_neg hkey]
            rfl
      rw [List.foldlM_cons, hstep]
      change turns.foldlM (dateTurn env scan) _ = _
      rw [foldlM_dateTurn scan turns _ fun t ht => h t (List.mem_cons_of_mem turn ht)]
      unfold keepFirst
      rw [← List.foldl_append, List.filterMap_cons]
      cases occurredAt env turn.timestamp <;> rfl

theorem datedTurns_eq (h : InRange env scans) : datedTurns env scans = .ok (keepFirst (allDatable env scans) empty) := by
  have hrun : ∀ (scans : List (SessionFileScan F)) (dated : OrderedDict TurnKey DatedTurn), InRange env scans →
      scans.foldlM (fun dated scan => scan.turns.foldlM (dateTurn env scan) dated) dated =
        .ok (keepFirst (allDatable env scans) dated) := by
    intro scans
    induction scans with
    | nil => exact fun _ _ => rfl
    | cons scan scans ih =>
      intro dated h
      rw [List.foldlM_cons, foldlM_dateTurn scan scan.turns dated (h scan List.mem_cons_self).1]
      change scans.foldlM _ _ = _
      rw [ih _ fun s hs => h s (List.mem_cons_of_mem scan hs)]
      unfold keepFirst allDatable
      rw [← List.foldl_append, List.flatMap_cons]
      rfl
  exact hrun scans empty h

/-! ### Sessions before they claim -/

variable (env) in
/-- A session, prepared where no instant is out of range. -/
def prepareOf (group : List (SessionFileScan F)) : Option (Prepared F) :=
  let dated := keepFirst (allDatable env group) empty
  (dated.entries.map (·.2.1)).min?.map fun earliest => ⟨earliest, dated.entries.length, group, dated⟩

theorem prepare_eq (h : InRange env group) : prepare env group = .ok (prepareOf env group) := by
  unfold prepare
  rw [datedTurns_eq h]
  rfl

/-- The scans of a session that have turns. -/
def sessionScans (scans : List (SessionFileScan F)) (session : SessionKey) : List (SessionFileScan F) :=
  (scans.filter fun scan => !scan.turns.isEmpty).filter fun scan => decide (scan.session = session)

theorem mem_sessionScans {scan : SessionFileScan F} :
    scan ∈ sessionScans scans session ↔ scan ∈ scans ∧ scan.turns ≠ [] ∧ scan.session = session := by
  rw [sessionScans, List.mem_filter, List.mem_filter, and_assoc]
  simp

theorem allDatable_sessionScans : allDatable env (sessionScans scans session) =
    allDatable env (scans.filter fun scan => decide (scan.session = session)) := by
  unfold sessionScans allDatable
  rw [List.filter_filter]
  induction scans with
  | nil => rfl
  | cons scan scans ih =>
    rw [List.filter_cons, List.filter_cons]
    by_cases hsession : scan.session = session
    · by_cases hturns : scan.turns = []
      · have hnone : datable env scan = [] := by simp [datable, hturns]
        simp [hsession, hturns, hnone, ih]
      · simp [hsession, hturns, ih]
    · simp [hsession, ih]

variable (env) in
/-- The prepared sessions in the order of their first scans. -/
def preparedOf (scans : List (SessionFileScan F)) : List (Prepared F) :=
  (groupScans scans).keys.filterMap fun session => prepareOf env (sessionScans scans session)

theorem prepareAll_eq (h : InRange env scans) :
    prepareAll env scans = .ok ((preparedOf env scans).insertionSort fun p q => p.rank ≤ q.rank) := by
  have hgroups : (groupScans scans).entries.map (·.2) = (groupScans scans).keys.map (sessionScans scans) :=
    values_listBy _
  have hprepared : ((groupScans scans).entries.map (·.2)).mapM (prepare env) =
      .ok (((groupScans scans).keys.map (sessionScans scans)).map (prepareOf env)) := by
    rw [hgroups, mapM_eq_ok, List.forall₂_map_right_iff, List.forall₂_same]
    intro group hgroup
    obtain ⟨session, -, rfl⟩ := List.mem_map.mp hgroup
    exact prepare_eq fun scan hscan => h scan (mem_sessionScans.mp hscan).1
  unfold prepareAll
  rw [hprepared]
  have hreduce (l : List (Option (Prepared F))) : l.reduceOption = l.filterMap id := rfl
  change Except.ok _ = _
  rw [hreduce, List.map_map, List.filterMap_map]
  rfl

variable (env) in
/-- What the rollup takes for a session. -/
def IsSession (scans : List (SessionFileScan F)) (session : SessionKey) (p : Prepared F) : Prop :=
  prepareOf env (sessionScans scans session) = some p

variable (env) in
/-- A file of the session has a copy of the turn that can be dated. -/
def Contains (scans : List (SessionFileScan F)) (session : SessionKey) (k : TurnKey) : Prop :=
  ∃ scan ∈ scans, scan.session = session ∧ k ∈ (datable env scan).map (·.1)

/-- The session of the scans. -/
def Prepared.sessionKey (p : Prepared F) : Option SessionKey := p.group.head?.map SessionFileScan.session

variable {p q : Prepared F} {k : TurnKey}

namespace IsSession

variable (h : IsSession env scans session p)

include h in
theorem eq : ∃ t, sessionStart env scans session = some t ∧
    p = ⟨t, (sessionTurns env scans session).length, sessionScans scans session,
      keepFirst (allDatable env (sessionScans scans session)) empty⟩ := by
  obtain ⟨t, ht, hp⟩ := Option.map_eq_some_iff.mp h
  unfold sessionStart sessionTurns
  rw [← allDatable_sessionScans]
  exact ⟨t, ht, hp.symm⟩

include h in
theorem start : sessionStart env scans session = some p.earliest := by
  obtain ⟨t, ht, rfl⟩ := h.eq
  exact ht

include h in
theorem size : p.size = (sessionTurns env scans session).length := by
  obtain ⟨t, -, rfl⟩ := h.eq
  rfl

include h in
theorem group_eq : p.group = sessionScans scans session := by
  obtain ⟨t, -, rfl⟩ := h.eq
  rfl

include h in
theorem entries : p.dated.entries = sessionTurns env scans session := by
  obtain ⟨t, -, rfl⟩ := h.eq
  unfold sessionTurns
  rw [← allDatable_sessionScans]

include h in
theorem nodup : p.dated.keys.Nodup := by
  obtain ⟨t, -, rfl⟩ := h.eq
  exact nodup_keepFirst nodup_keys_empty

include h in
theorem exists_scan {e : TurnKey × DatedTurn} (he : e ∈ p.dated.entries) :
    ∃ scan ∈ scans, scan.session = session ∧ e ∈ datable env scan := by
  rw [h.entries] at he
  obtain ⟨scan, hscan, hdated⟩ := List.mem_flatMap.mp (mem_of_mem_keepFirst he)
  rw [List.mem_filter, decide_eq_true_eq] at hscan
  exact ⟨scan, hscan.1, hscan.2, hdated⟩

include h in
theorem contains_iff : Contains env scans session k ↔ k ∈ p.dated.entries.map (·.1) := by
  rw [h.entries]
  change _ ↔ k ∈ (keepFirst _ empty).keys
  rw [mem_keys_keepFirst, List.mem_map]
  constructor
  · rintro ⟨scan, hscan, hsession, hk⟩
    obtain ⟨e, he, rfl⟩ := List.mem_map.mp hk
    have hmem : scan ∈ scans.filter fun scan => decide (scan.session = session) :=
      List.mem_filter.mpr ⟨hscan, decide_eq_true hsession⟩
    exact ⟨e, List.mem_flatMap.mpr ⟨scan, hmem, he⟩, rfl⟩
  · rintro ⟨e, he, rfl⟩
    obtain ⟨scan, hscan, hdated⟩ := List.mem_flatMap.mp he
    rw [List.mem_filter, decide_eq_true_eq] at hscan
    exact ⟨scan, hscan.1, hscan.2, List.mem_map_of_mem hdated⟩

include h in
theorem ne_nil : p.dated.entries ≠ [] := by
  obtain ⟨t, ht, -⟩ := h.eq
  rw [h.entries]
  intro hnil
  simp [sessionStart, hnil] at ht

include h in
theorem session_eq : p.sessionKey = some session := by
  obtain ⟨e, he⟩ := List.exists_mem_of_ne_nil _ h.ne_nil
  obtain ⟨scan, hscan, hsession, hdated⟩ := h.exists_scan he
  have hturns : scan.turns ≠ [] := by
    rintro hnil
    simp [datable, hnil] at hdated
  have hmem : scan ∈ p.group := h.group_eq ▸ mem_sessionScans.mpr ⟨hscan, hturns, hsession⟩
  obtain ⟨first, rest, hgroup⟩ := List.exists_cons_of_ne_nil (List.ne_nil_of_mem hmem)
  have hfirst : first ∈ sessionScans scans session := by
    rw [← h.group_eq, hgroup]
    exact List.mem_cons_self
  rw [Prepared.sessionKey, hgroup, List.head?_cons, Option.map_some, (mem_sessionScans.mp hfirst).2.2]

end IsSession

/-- A session with a turn that can be dated is prepared. -/
theorem exists_isSession (h : Contains env scans session k) : ∃ p, IsSession env scans session p := by
  obtain ⟨scan, hscan, hsession, hk⟩ := h
  have hmem : scan ∈ scans.filter fun scan => decide (scan.session = session) :=
    List.mem_filter.mpr ⟨hscan, decide_eq_true hsession⟩
  have hkey : k ∈ (keepFirst (allDatable env (sessionScans scans session)) empty).keys := by
    rw [allDatable_sessionScans, mem_keys_keepFirst]
    obtain ⟨e, he, rfl⟩ := List.mem_map.mp hk
    exact List.mem_map_of_mem (List.mem_flatMap.mpr ⟨scan, hmem, he⟩)
  cases hmin : ((keepFirst (allDatable env (sessionScans scans session)) empty).entries.map (·.2.1)).min? with
  | some t => exact ⟨_, Option.map_eq_some_iff.mpr ⟨t, hmin, rfl⟩⟩
  | none =>
    rw [List.min?_eq_none_iff, List.map_eq_nil_iff] at hmin
    rw [keys, hmin] at hkey
    cases hkey

theorem mem_preparedOf : p ∈ preparedOf env scans ↔ ∃ session, IsSession env scans session p := by
  rw [preparedOf, List.mem_filterMap]
  constructor
  · rintro ⟨session, -, hp⟩
    exact ⟨session, hp⟩
  · rintro ⟨session, hp⟩
    refine ⟨session, ?_, hp⟩
    obtain ⟨e, he⟩ := List.exists_mem_of_ne_nil _ (IsSession.ne_nil hp)
    obtain ⟨scan, hscan, hsession, hdated⟩ := IsSession.exists_scan hp he
    have hturns : scan.turns ≠ [] := by
      rintro hnil
      simp [datable, hnil] at hdated
    rw [groupScans, mem_keys_listBy]
    exact .inr ⟨scan, List.mem_filter.mpr ⟨hscan, by simpa using hturns⟩, hsession⟩

theorem nodup_preparedOf : ((preparedOf env scans).map Prepared.sessionKey).Nodup := by
  unfold List.Nodup preparedOf
  rw [List.pairwise_map, List.pairwise_filterMap]
  have hnodup : (groupScans scans).keys.Nodup := nodup_listBy _
  refine hnodup.imp fun {session session'} hne p hp q hq hsame => hne ?_
  rw [IsSession.session_eq hp, IsSession.session_eq hq] at hsame
  exact Option.some.inj hsame

end Experiential.Sessions
