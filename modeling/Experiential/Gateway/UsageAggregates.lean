import Experiential.Lib.Joined
import Experiential.Lib.PyUnicode
import Experiential.Lib.Run
import Experiential.Lib.TimedCache
import Experiential.Usage.Insights

/-! # Cached usage aggregates

The three window aggregates of the usage routes are kept for ten seconds under a text that joins the arguments of the
call. An absent filter is written as a word there, and a filter may hold the separator: calls with other arguments may
meet under one text (`cacheKey_eq_iff`), and one is then served the rows of the other. -/

namespace Experiential.Gateway

open Py
open Usage (GatewayLane)

/-! ### Calls -/

/-- A call of the store with its arguments. -/
inductive UsageQuery where
  | timeseries (orgId after : PyStr) (bucketSeconds : ℕ) (aliasName apiKeyId : Option PyStr) (lane : Option GatewayLane)
  | byKey (orgId after : PyStr)
  | byPrompt (orgId after : PyStr)
deriving DecidableEq

/-- An optional text in an f-string. -/
def orNone (s : Option PyStr) : PyStr := s.getD (text "None")

/-- `lane.value` -/
def laneValue : GatewayLane → PyStr
  | .platformFunded => text "platform_funded"
  | .passThrough => text "pass_through"

/-- The parts of the key that `usage_timeseries`, `usage_by_key` and `usage_by_prompt` join. -/
def cacheParts : UsageQuery → List PyStr
  | .timeseries orgId after bucketSeconds aliasName apiKeyId lane =>
    [text "ts", orgId, after, text (toString bucketSeconds), orNone aliasName, orNone apiKeyId, orNone (lane.map laneValue)]
  | .byKey orgId after => [text "bykey", orgId, after]
  | .byPrompt orgId after => [text "byprompt", orgId, after]

def cacheKey (query : UsageQuery) : PyStr := Str.join ':' (cacheParts query)

/-! ### Calls under one key -/

/-- What the routes pass on: the id of an organization holds no colon, and a time in ISO format with its offset holds
three. -/
def Admitted : UsageQuery → Prop
  | .timeseries orgId after _ _ _ _ => .scalar ':' ∉ orgId ∧ after.count (.scalar ':') = 3
  | .byKey orgId after => .scalar ':' ∉ orgId ∧ after.count (.scalar ':') = 3
  | .byPrompt orgId after => .scalar ':' ∉ orgId ∧ after.count (.scalar ':') = 3

/-- The calls are the same up to what is absent, and where the model ends and the key id begins. -/
def SameKey : UsageQuery → UsageQuery → Prop
  | .timeseries orgId after bucketSeconds aliasName apiKeyId lane,
    .timeseries orgId' after' bucketSeconds' aliasName' apiKeyId' lane' =>
      orgId = orgId' ∧ after = after' ∧ bucketSeconds = bucketSeconds' ∧ lane = lane' ∧
        Str.join ':' [orNone aliasName, orNone apiKeyId] = Str.join ':' [orNone aliasName', orNone apiKeyId']
  | .byKey orgId after, .byKey orgId' after' => orgId = orgId' ∧ after = after'
  | .byPrompt orgId after, .byPrompt orgId' after' => orgId = orgId' ∧ after = after'
  | _, _ => False

theorem colon_not_mem_decimal (n : ℕ) : .scalar ':' ∉ text (toString n) := by
  intro h
  rw [text_eq] at h
  obtain ⟨c, hc, heq⟩ := List.mem_map.mp h
  obtain rfl := CodePoint.scalar.inj heq
  exact not_mem_decimal (by decide) n hc

theorem colon_not_mem_lane (lane : Option GatewayLane) : .scalar ':' ∉ orNone (lane.map laneValue) := by
  cases lane with
  | none => decide
  | some lane => cases lane <;> decide

theorem lane_injective {lane lane' : Option GatewayLane} (h : orNone (lane.map laneValue) = orNone (lane'.map laneValue)) :
    lane = lane' := by
  cases lane with
  | none => cases lane' with
    | none => rfl
    | some lane' => cases lane' <;> exact absurd h (by decide)
  | some lane => cases lane' with
    | none => cases lane <;> exact absurd h (by decide)
    | some lane' => cases lane <;> cases lane' <;> first | rfl | exact absurd h (by decide)

/-- Texts without the separator are told from what follows. -/
theorem splitOn_append_inj {s s' : PyStr} {rest rest' : List PyStr} (h : .scalar ':' ∉ s) (h' : .scalar ':' ∉ s') :
    s.splitOn (.scalar ':') ++ rest = s'.splitOn (.scalar ':') ++ rest' ↔ s = s' ∧ rest = rest' :=
  append_splitOn_inj (by rw [List.count_eq_zero.mpr h, List.count_eq_zero.mpr h'])

theorem name_append_inj {name name' : String} {rest rest' : List PyStr} (h : .scalar ':' ∉ text name)
    (h' : .scalar ':' ∉ text name') :
    (text name).splitOn (.scalar ':') ++ rest = (text name').splitOn (.scalar ':') ++ rest' ↔ name = name' ∧ rest = rest' := by
  rw [splitOn_append_inj h h']
  exact and_congr_left' ⟨text_injective, congrArg text⟩

theorem flatMap_ne_of_name {name name' : String} {parts parts' : List PyStr} (h : .scalar ':' ∉ text name)
    (h' : .scalar ':' ∉ text name') (hne : name ≠ name') : (text name :: parts).flatMap (·.splitOn (.scalar ':')) ≠
      (text name' :: parts').flatMap (·.splitOn (.scalar ':')) := by
  rw [List.flatMap_cons, List.flatMap_cons]
  exact fun heq => hne ((name_append_inj h h').mp heq).1

theorem window_append_inj {orgId after orgId' after' : PyStr} {rest rest' : List PyStr}
    (h : .scalar ':' ∉ orgId ∧ after.count (.scalar ':') = 3) (h' : .scalar ':' ∉ orgId' ∧ after'.count (.scalar ':') = 3) :
    orgId.splitOn (.scalar ':') ++ (after.splitOn (.scalar ':') ++ rest) =
      orgId'.splitOn (.scalar ':') ++ (after'.splitOn (.scalar ':') ++ rest') ↔ orgId = orgId' ∧ after = after' ∧ rest = rest' := by
  rw [splitOn_append_inj h.1 h'.1, append_splitOn_inj (h.2.trans h'.2.symm)]

/-- Calls have one key exactly when they differ in nothing but the word for an absent filter, and the colon between the
filters. -/
theorem cacheKey_eq_iff {p q : UsageQuery} (hp : Admitted p) (hq : Admitted q) : cacheKey p = cacheKey q ↔ SameKey p q := by
  have hjoin : ∀ {parts parts' : List PyStr}, parts ≠ [] → parts' ≠ [] → (Str.join ':' parts = Str.join ':' parts' ↔
      parts.flatMap (·.splitOn (.scalar ':')) = parts'.flatMap (·.splitOn (.scalar ':'))) := intercalate_eq_iff
  have hparts : ∀ query, cacheParts query ≠ [] := by
    intro query
    cases query <;> exact List.cons_ne_nil _ _
  unfold cacheKey
  rw [hjoin (hparts p) (hparts q)]
  cases p with
  | timeseries orgId after bucketSeconds aliasName apiKeyId lane =>
    cases q with
    | timeseries orgId' after' bucketSeconds' aliasName' apiKeyId' lane' =>
      have hbucket : text (toString bucketSeconds) = text (toString bucketSeconds') ↔ bucketSeconds = bucketSeconds' :=
        ⟨fun h => decimal_injective (text_injective h), fun h => by rw [h]⟩
      have hlane : orNone (lane.map laneValue) = orNone (lane'.map laneValue) ↔ lane = lane' :=
        ⟨lane_injective, fun h => by rw [h]⟩
      simp only [cacheParts, SameKey, List.flatMap_cons, List.flatMap_nil]
      rw [name_append_inj (by decide) (by decide), window_append_inj hp hq,
        splitOn_append_inj (colon_not_mem_decimal _) (colon_not_mem_decimal _), hbucket, List.append_nil, List.append_nil,
        splitOn_of_not_mem (colon_not_mem_lane lane), splitOn_of_not_mem (colon_not_mem_lane lane'), ← List.append_assoc,
        ← List.append_assoc, List.append_singleton_inj, hlane, hjoin (List.cons_ne_nil _ _) (List.cons_ne_nil _ _)]
      simp only [List.flatMap_cons, List.flatMap_nil, List.append_nil, true_and]
      tauto
    | byKey orgId' after' | byPrompt orgId' after' =>
        exact iff_of_false (flatMap_ne_of_name (by decide) (by decide) (by decide)) id
  | byKey orgId after =>
    cases q with
    | timeseries orgId' after' bucketSeconds' aliasName' apiKeyId' lane' => exact iff_of_false (flatMap_ne_of_name (by decide) (by decide) (by decide)) id
    | byKey orgId' after' =>
      simp only [cacheParts, SameKey, List.flatMap_cons, List.flatMap_nil]
      rw [name_append_inj (by decide) (by decide), window_append_inj hp hq]
      simp only [true_and, and_true]
    | byPrompt orgId' after' => exact iff_of_false (flatMap_ne_of_name (by decide) (by decide) (by decide)) id
  | byPrompt orgId after =>
    cases q with
    | timeseries orgId' after' bucketSeconds' aliasName' apiKeyId' lane' | byKey orgId' after' =>
        exact iff_of_false (flatMap_ne_of_name (by decide) (by decide) (by decide)) id
    | byPrompt orgId' after' =>
      simp only [cacheParts, SameKey, List.flatMap_cons, List.flatMap_nil]
      rw [name_append_inj (by decide) (by decide), window_append_inj hp hq]
      simp only [true_and, and_true]

/-- Filters that the key tells apart: no model is named like the word for an absent filter, and no key id is, or holds a
colon. -/
def Plain : UsageQuery → Prop
  | .timeseries _ _ _ aliasName apiKeyId _ =>
    aliasName ≠ some (text "None") ∧ apiKeyId ≠ some (text "None") ∧ ∀ id, apiKeyId = some id → .scalar ':' ∉ id
  | _ => True

theorem orNone_inj {s s' : Option PyStr} (h : s ≠ some (text "None")) (h' : s' ≠ some (text "None"))
    (heq : orNone s = orNone s') : s = s' := by
  cases s with
  | none => cases s' with
    | none => rfl
    | some t' => exact (h' (congrArg some heq.symm)).elim
  | some t => cases s' with
    | none => exact (h (congrArg some heq)).elim
    | some t' => exact congrArg some heq

theorem colon_not_mem_orNone {s : Option PyStr} (h : ∀ t, s = some t → .scalar ':' ∉ t) : .scalar ':' ∉ orNone s := by
  cases s with
  | none => decide
  | some t => exact h t rfl

theorem SameKey.eq {p q : UsageQuery} (h : SameKey p q) (hp : Plain p) (hq : Plain q) : p = q := by
  cases p with
  | timeseries orgId after bucketSeconds aliasName apiKeyId lane =>
    cases q with
    | timeseries orgId' after' bucketSeconds' aliasName' apiKeyId' lane' =>
      obtain ⟨rfl, rfl, rfl, rfl, hjoined⟩ := h
      obtain ⟨halias, hid, hplain⟩ := hp
      obtain ⟨halias', hid', hplain'⟩ := hq
      have hparts := (intercalate_eq_iff (List.cons_ne_nil _ _) (List.cons_ne_nil _ _)).mp hjoined
      simp only [List.flatMap_cons, List.flatMap_nil, List.append_nil] at hparts
      rw [splitOn_of_not_mem (colon_not_mem_orNone hplain), splitOn_of_not_mem (colon_not_mem_orNone hplain'),
        List.append_singleton_inj] at hparts
      rw [orNone_inj halias halias' (splitOn_injective hparts.1), orNone_inj hid hid' hparts.2]
    | byKey orgId' after' | byPrompt orgId' after' => exact h.elim
  | byKey orgId after =>
    cases q with
    | byKey orgId' after' => rw [h.1, h.2]
    | timeseries orgId' after' bucketSeconds' aliasName' apiKeyId' lane' | byPrompt orgId' after' => exact h.elim
  | byPrompt orgId after =>
    cases q with
    | byPrompt orgId' after' => rw [h.1, h.2]
    | timeseries orgId' after' bucketSeconds' aliasName' apiKeyId' lane' | byKey orgId' after' => exact h.elim

variable {R : Type}

/-- Where a call stands, with the rows of the database or of the cache. -/
inductive UsagePhase (R : Type) where
  | begun
  | missed
  | fetched (rows : R)
  | loaded (rows : R)
  | served (rows : R)
  | failed
deriving DecidableEq

/-- A call, with the reading of the clock with which it began. -/
structure UsageCall (R : Type) where
  query : UsageQuery
  startedAt : ℤ
  phase : UsagePhase R
deriving DecidableEq

/-- A process: the clock, the cache that its threads share, and the calls. -/
structure UsageReader (R : Type) where
  now : ℤ
  cache : TimedCache PyStr R
  calls : List (UsageCall R)

/-- The steps of a call; the database answers with rows or not at all. -/
inductive UsageAction (R : Type) where
  | get
  | fetch (result : Option R)
  | put

inductive UsageReaderEvent (R : Type) where
  | tick (elapsed : ℕ)
  | start (query : UsageQuery)
  | call (i : ℕ) (action : UsageAction R)

namespace UsageReader

def initial (ttl : ℤ) (maxEntries : ℕ) (now : ℤ) : UsageReader R := ⟨now, ⟨ttl, maxEntries, ∅⟩, []⟩

variable (s : UsageReader R)

def setPhase (i : ℕ) (call : UsageCall R) (phase : UsagePhase R) : UsageReader R :=
  { s with calls := s.calls.set i { call with phase := phase } }

/-- The next step of a call. -/
def advance (i : ℕ) (call : UsageCall R) : UsageAction R → UsageReader R
  | .get =>
    match call.phase with
    | .begun =>
      match s.cache.get (cacheKey call.query) call.startedAt with
      | (some rows, cache) => { s.setPhase i call (.served rows) with cache := cache }
      | (none, cache) => { s.setPhase i call .missed with cache := cache }
    | _ => s
  | .fetch result =>
    match call.phase, result with
    | .missed, some rows => s.setPhase i call (.fetched rows)
    | .missed, none => s.setPhase i call .failed
    | _, _ => s
  | .put =>
    match call.phase with
    | .fetched rows =>
      { s.setPhase i call (.loaded rows) with cache := s.cache.put (cacheKey call.query) rows call.startedAt }
    | _ => s

/-- Time passes, a query starts, or a call goes on. -/
def step : UsageReaderEvent R → UsageReader R
  | .tick elapsed => { s with now := s.now + elapsed }
  | .start query => { s with calls := s.calls ++ [⟨query, s.now, .begun⟩] }
  | .call i action =>
    match s.calls[i]? with
    | some call => s.advance i call action
    | none => s

end UsageReader

/-! ### What is promised -/

namespace UsageCall

/-- The database answered the call with these rows. -/
def Answered (call : UsageCall R) (rows : R) : Prop := call.phase = .fetched rows ∨ call.phase = .loaded rows

/-- The call returned these rows. -/
def Returned (call : UsageCall R) (rows : R) : Prop := call.phase = .loaded rows ∨ call.phase = .served rows

end UsageCall

namespace UsageReader

variable (s : UsageReader R)

/-- What a call returned the database answered to one with the same arguments, which began less than the TTL before. -/
def Transparent : Prop :=
  ∀ call ∈ s.calls, ∀ rows, call.Returned rows →
    ∃ source ∈ s.calls, source.query = call.query ∧ source.Answered rows ∧ call.startedAt < source.startedAt + s.cache.ttl

/-- A call that reads the cache shares its key with no call of other arguments that was stored, unless that began at least
a TTL before. -/
def ReadsOwn : UsageReaderEvent R → Prop
  | .call i .get => ∀ call, s.calls[i]? = some call → ∀ other ∈ s.calls, (∃ rows, other.phase = .loaded rows) →
      cacheKey other.query = cacheKey call.query → other.query ≠ call.query → other.startedAt + s.cache.ttl ≤ call.startedAt
  | _ => True

/-- Every entry was stored by a call of its key, and expires a TTL behind the beginning of that call. -/
def Kept : Prop :=
  Dict.All (fun key e => ∃ source ∈ s.calls, cacheKey source.query = key ∧ source.phase = .loaded e.1 ∧
    e.2 = source.startedAt + s.cache.ttl) s.cache.entries

/-! ### One step of a call -/

/-- The phase that a call goes to without writing into the cache. -/
inductive Moves (s : UsageReader R) (call : UsageCall R) : UsagePhase R → Prop
  | hit {rows : R} (h : call.phase = .begun) (hget : (s.cache.get (cacheKey call.query) call.startedAt).1 = some rows) :
      Moves s call (.served rows)
  | miss (h : call.phase = .begun) : Moves s call .missed
  | fetch {rows : R} (h : call.phase = .missed) : Moves s call (.fetched rows)
  | fail (h : call.phase = .missed) : Moves s call .failed

variable {s} {call : UsageCall R}

theorem Moves.ne_loaded {phase : UsagePhase R} (h : Moves s call phase) (rows : R) : call.phase ≠ .loaded rows := by
  intro hloaded
  cases h <;> simp_all

/-- What a step of a call does: nothing, a change of phase, which may forget an expired entry, or a write. -/
theorem advance_cases (s : UsageReader R) (i : ℕ) (call : UsageCall R) (action : UsageAction R) :
    s.advance i call action = s ∨
      (∃ phase cache, Moves s call phase ∧ (cache = s.cache ∨
          action = .get ∧ cache = (s.cache.get (cacheKey call.query) call.startedAt).2) ∧
        (∀ rows, phase = .served rows → action = .get) ∧
        s.advance i call action = { s.setPhase i call phase with cache := cache }) ∨
      ∃ rows, call.phase = .fetched rows ∧ s.advance i call action =
        { s.setPhase i call (.loaded rows) with cache := s.cache.put (cacheKey call.query) rows call.startedAt } := by
  obtain ⟨query, startedAt, phase⟩ := call
  cases action with
  | get =>
    cases phase with
    | begun =>
      cases hget : s.cache.get (cacheKey query) startedAt with
      | mk found cache =>
        cases found with
        | none =>
          refine .inr (.inl ⟨.missed, cache, .miss rfl, .inr ⟨rfl, rfl⟩, nofun, ?_⟩)
          simp only [advance, hget]
        | some rows =>
          refine .inr (.inl ⟨.served rows, cache, .hit rfl (by rw [hget]), .inr ⟨rfl, rfl⟩, fun _ _ => rfl, ?_⟩)
          simp only [advance, hget]
    | _ => exact .inl rfl
  | fetch result =>
    cases phase with
    | missed =>
      cases result with
      | none => exact .inr (.inl ⟨.failed, s.cache, .fail rfl, .inl rfl, nofun, rfl⟩)
      | some rows => exact .inr (.inl ⟨.fetched rows, s.cache, .fetch rfl, .inl rfl, nofun, rfl⟩)
    | _ => exact .inl rfl
  | put =>
    cases phase with
    | fetched rows => exact .inr (.inr ⟨rows, rfl, rfl⟩)
    | _ => exact .inl rfl

theorem mem_setPhase {i : ℕ} {c : UsageCall R} {phase : UsagePhase R} (h : c ∈ (s.setPhase i call phase).calls) :
    c ∈ s.calls ∨ c = { call with phase := phase } := List.mem_or_eq_of_mem_set h

/-- A call whose rows were stored is not changed by a step of another. -/
theorem loaded_mem_setPhase {i : ℕ} {c : UsageCall R} {phase : UsagePhase R} {rows : R} (hi : s.calls[i]? = some call)
    (hnew : ∀ rows, call.phase ≠ .loaded rows) (hc : c ∈ s.calls) (hloaded : c.phase = .loaded rows) :
    c ∈ (s.setPhase i call phase).calls := by
  rcases mem_set_of_mem (b := { call with phase := phase }) hi hc with hc | ⟨rfl, -⟩
  · exact hc
  · exact (hnew rows hloaded).elim

/-! ### Runs -/

/-- What is kept in a run. -/
structure Sound (s : UsageReader R) : Prop where
  kept : s.Kept
  served : ∀ call ∈ s.calls, ∀ rows, call.phase = .served rows → ∃ source ∈ s.calls, source.query = call.query ∧
    source.phase = .loaded rows ∧ call.startedAt < source.startedAt + s.cache.ttl

/-- A call that the cache answers is answered from one with its arguments. -/
theorem Sound.hit (h : Sound s) {i : ℕ} (hi : s.calls[i]? = some call) (hown : s.ReadsOwn (.call i .get)) {rows : R}
    (hget : (s.cache.get (cacheKey call.query) call.startedAt).1 = some rows) :
    ∃ source ∈ s.calls, source.query = call.query ∧ source.phase = .loaded rows ∧
      call.startedAt < source.startedAt + s.cache.ttl := by
  obtain ⟨expires, hlookup, hlive⟩ := TimedCache.get_eq_some.mp hget
  obtain ⟨source, hsource, hkey, hloaded, hexpires⟩ := h.kept _ _ hlookup
  have hyoung : call.startedAt < source.startedAt + s.cache.ttl := hexpires ▸ hlive
  refine ⟨source, hsource, ?_, hloaded, hyoung⟩
  by_contra hother
  have hold := hown call hi source hsource ⟨rows, hloaded⟩ hkey hother
  omega

/-- Stored calls stay, so that entries and answers keep their sources. -/
theorem Sound.setPhase (h : Sound s) {i : ℕ} (hi : s.calls[i]? = some call) (hnew : ∀ rows, call.phase ≠ .loaded rows)
    {phase : UsagePhase R} {cache : TimedCache PyStr R} (httl : cache.ttl = s.cache.ttl)
    (hkept : Dict.All (fun key e => ∃ source ∈ (s.setPhase i call phase).calls, cacheKey source.query = key ∧
      source.phase = .loaded e.1 ∧ e.2 = source.startedAt + s.cache.ttl) cache.entries)
    (hserved : ∀ rows, phase = .served rows → ∃ source ∈ s.calls, source.query = call.query ∧
      source.phase = .loaded rows ∧ call.startedAt < source.startedAt + s.cache.ttl) :
    Sound { s.setPhase i call phase with cache := cache } := by
  refine ⟨?_, fun c hc rows hphase => ?_⟩
  · unfold Kept
    simp only [httl]
    exact hkept
  · have hsource : ∃ source ∈ s.calls, source.query = c.query ∧ source.phase = .loaded rows ∧
        c.startedAt < source.startedAt + s.cache.ttl := by
      rcases mem_setPhase hc with hc | rfl
      · exact h.served c hc rows hphase
      · exact hserved rows hphase
    obtain ⟨source, hmem, hquery, hloaded, hyoung⟩ := hsource
    refine ⟨source, loaded_mem_setPhase hi hnew hmem hloaded, hquery, hloaded, ?_⟩
    simp only [httl]
    exact hyoung

theorem Sound.step (h : Sound s) {e : UsageReaderEvent R} (hown : s.ReadsOwn e) : Sound (s.step e) := by
  cases e with
  | tick elapsed => exact ⟨h.kept, h.served⟩
  | start query =>
    refine ⟨?_, fun c hc rows hphase => ?_⟩
    · refine Dict.All.mono h.kept fun key e he => ?_
      obtain ⟨source, hmem, hrest⟩ := he
      exact ⟨source, List.mem_append_left _ hmem, hrest⟩
    · rcases List.mem_append.mp hc with hc | hc
      · obtain ⟨source, hmem, hrest⟩ := h.served c hc rows hphase
        exact ⟨source, List.mem_append_left _ hmem, hrest⟩
      · rw [List.mem_singleton.mp hc] at hphase
        cases hphase
  | call i action =>
    simp only [UsageReader.step]
    cases hi : s.calls[i]? with
    | none => exact h
    | some call =>
      have hkept : ∀ {phase}, (∀ rows, call.phase ≠ .loaded rows) → Dict.All (fun key e =>
          ∃ source ∈ (s.setPhase i call phase).calls, cacheKey source.query = key ∧
            source.phase = .loaded e.1 ∧ e.2 = source.startedAt + s.cache.ttl) s.cache.entries := by
        intro phase hnew
        refine Dict.All.mono h.kept fun key e he => ?_
        obtain ⟨source, hmem, hkey, hloaded, hexpires⟩ := he
        exact ⟨source, loaded_mem_setPhase hi hnew hmem hloaded, hkey, hloaded, hexpires⟩
      obtain hsame | ⟨phase, cache, hmoves, hcache, hget, hnext⟩ | ⟨rows, hphase, hnext⟩ := advance_cases s i call action
      · simp only [hsame]
        exact h
      · simp only [hnext]
        have hserved : ∀ rows, phase = .served rows → ∃ source ∈ s.calls, source.query = call.query ∧
            source.phase = .loaded rows ∧ call.startedAt < source.startedAt + s.cache.ttl := by
          rintro rows rfl
          obtain rfl := hget rows rfl
          cases hmoves with
          | hit _ hfound => exact h.hit hi hown hfound
        rcases hcache with rfl | ⟨-, rfl⟩
        · exact h.setPhase hi hmoves.ne_loaded rfl (hkept hmoves.ne_loaded) hserved
        · exact h.setPhase hi hmoves.ne_loaded TimedCache.get_ttl (TimedCache.all_get (hkept hmoves.ne_loaded)) hserved
      · simp only [hnext]
        have hnew : ∀ rows, call.phase ≠ .loaded rows := fun r hr => by
          rw [hphase] at hr
          cases hr
        refine h.setPhase hi hnew rfl (TimedCache.all_put (hkept hnew) ?_) nofun
        exact ⟨_, List.mem_set (List.getElem?_eq_some_iff.mp hi).1 _, rfl, rfl, rfl⟩

theorem Sound.transparent (httl : 0 < s.cache.ttl) (h : Sound s) : s.Transparent := by
  rintro call hcall rows (hloaded | hserved)
  · exact ⟨call, hcall, rfl, .inr hloaded, by omega⟩
  · obtain ⟨source, hmem, hquery, hloaded, hyoung⟩ := h.served call hcall rows hserved
    exact ⟨source, hmem, hquery, .inr hloaded, hyoung⟩

theorem ttl_step (s : UsageReader R) (e : UsageReaderEvent R) : (s.step e).cache.ttl = s.cache.ttl := by
  cases e with
  | tick elapsed | start query => rfl
  | call i action =>
    simp only [UsageReader.step]
    cases s.calls[i]? with
    | none => rfl
    | some call =>
      obtain hsame | ⟨phase, cache, -, hcache, -, hnext⟩ | ⟨rows, -, hnext⟩ := advance_cases s i call action
      · simp only [hsame]
      · simp only [hnext]
        rcases hcache with rfl | ⟨-, rfl⟩
        · rfl
        · exact TimedCache.get_ttl
      · simp only [hnext]
        rfl

/-- The cache keeps its bound. -/
def Bounded (maxEntries : ℕ) (s : UsageReader R) : Prop :=
  s.cache.maxEntries = maxEntries ∧ s.cache.entries.entries.length ≤ maxEntries

theorem Bounded.step {maxEntries : ℕ} (hmax : 0 < maxEntries) (h : Bounded maxEntries s) (e : UsageReaderEvent R) :
    Bounded maxEntries (s.step e) := by
  cases e with
  | tick elapsed | start query => exact h
  | call i action =>
    simp only [UsageReader.step]
    cases s.calls[i]? with
    | none => exact h
    | some call =>
      obtain ⟨hlimit, hlength⟩ := h
      obtain hsame | ⟨phase, cache, -, hcache, -, hnext⟩ | ⟨rows, -, hnext⟩ := advance_cases s i call action
      · simp only [hsame]
        exact ⟨hlimit, hlength⟩
      · simp only [hnext]
        rcases hcache with rfl | ⟨-, rfl⟩
        · exact ⟨hlimit, hlength⟩
        · exact ⟨TimedCache.get_maxEntries.trans hlimit, Nat.le_trans TimedCache.length_get_le hlength⟩
      · simp only [hnext]
        refine ⟨hlimit, ?_⟩
        have hput := TimedCache.length_put_le (k := cacheKey call.query) (hlimit ▸ hmax) rows call.startedAt
        exact Nat.le_trans hput (Nat.le_of_eq hlimit)

variable {ttl : ℤ} {maxEntries : ℕ}

theorem sound_initial (now : ℤ) : Sound (initial ttl maxEntries now : UsageReader R) := ⟨Dict.all_empty, nofun⟩

/-- A run keeps the bound on the entries. When no call reads the cache while one of its key with other arguments, stored
less than the TTL before, may be found there, all that is returned is what the database answered to the same call. -/
theorem aggregates_transparent (httl : 0 < ttl) (hmax : 0 < maxEntries) (now : ℤ) (events : List (UsageReaderEvent R)) :
    (StepsMeet step ReadsOwn (initial ttl maxEntries now) events → (run step (initial ttl maxEntries now) events).Transparent) ∧
      (run step (initial ttl maxEntries now) events).cache.entries.entries.length ≤ maxEntries := by
  have hbounded := run_invariant_of_forall (I := Bounded maxEntries) (fun s e h => h.step hmax e) events
    (initial ttl maxEntries now) ⟨rfl, Nat.zero_le _⟩
  refine ⟨fun hown => ?_, hbounded.2⟩
  have hrunTtl := run_invariant_of_forall (I := fun s : UsageReader R => s.cache.ttl = ttl)
    (fun s e h => (ttl_step s e).trans h) events (initial ttl maxEntries now) rfl
  have hsound := run_invariant (I := Sound) (fun s e he h => h.step he) events (initial ttl maxEntries now) (sound_initial now) hown
  refine hsound.transparent ?_
  rw [hrunTtl]
  exact httl

/-- An organization's usage of a day, of all models or of one. -/
def usageOf (aliasName : Option PyStr) : UsageQuery :=
  .timeseries (text "4c5bd4a1-95a7-4c59-9d0f-1c1d6a8a4b8e") (text "2026-08-01T00:00:00+00:00") 3600 aliasName none none

theorem admitted_usageOf (aliasName : Option PyStr) : Admitted (usageOf aliasName) := by
  refine ⟨?_, ?_⟩ <;> decide +kernel

/-- The usage of all models is loaded, and then that of a model named "None" is asked for. -/
def clashing : List (UsageReaderEvent ℕ) :=
  [.start (usageOf none), .call 0 .get, .call 0 (.fetch (some 1)), .call 0 .put,
    .start (usageOf (some (text "None"))), .call 1 .get]

/-- The call for the model is served the rows of all. -/
theorem other_filter_served : (∀ query, .start query ∈ clashing → Admitted query) ∧
    ¬ (run step (initial 10 2048 0) clashing).Transparent := by
  have hcalls : (run step (initial 10 2048 0) clashing).calls =
      [⟨usageOf none, 0, .loaded 1⟩, ⟨usageOf (some (text "None")), 0, .served 1⟩] := by decide +kernel
  refine ⟨fun query h => ?_, fun h => ?_⟩
  · simp only [clashing, List.mem_cons, UsageReaderEvent.start.injEq, reduceCtorEq, false_or, or_false, List.not_mem_nil] at h
    rcases h with rfl | rfl <;> exact admitted_usageOf _
  · unfold Transparent at h
    rw [hcalls] at h
    obtain ⟨source, hsource, hquery, hanswered, -⟩ := h ⟨usageOf (some (text "None")), 0, .served 1⟩ (by simp) 1 (.inr rfl)
    rcases List.mem_cons.mp hsource with rfl | hsource
    · exact absurd hquery (by decide +kernel)
    · rw [List.mem_singleton.mp hsource] at hanswered
      rcases hanswered with hphase | hphase <;> cases hphase

/-- The usage of all models is asked for twice. -/
def again : List (UsageReaderEvent ℕ) :=
  [.start (usageOf none), .call 0 .get, .call 0 (.fetch (some 1)), .call 0 .put, .start (usageOf none), .call 1 .get]

/-- The second call is served from the cache. -/
theorem aggregates_transparent_again : (run step (initial 10 2048 0) again).Transparent ∧
    (run step (initial 10 2048 0) again).calls = [⟨usageOf none, 0, .loaded 1⟩, ⟨usageOf none, 0, .served 1⟩] := by
  have howned : ∀ (s : UsageReader ℕ) i, (∀ call ∈ s.calls, call.query = usageOf none) → s.ReadsOwn (.call i .get) := by
    intro s i h call hcall other hother _ _ hne
    exact (hne ((h other hother).trans (h call (List.mem_of_getElem? hcall)).symm)).elim
  refine ⟨(aggregates_transparent (by decide) (by decide) 0 again).1 ?_, by decide +kernel⟩
  refine ⟨trivial, howned _ 0 ?_, trivial, trivial, trivial, howned _ 1 ?_, trivial⟩ <;> decide +kernel

theorem query_step {P : UsageQuery → Prop} {e : UsageReaderEvent R} (h : ∀ call ∈ s.calls, P call.query)
    (he : ∀ query, e = .start query → P query) : ∀ call ∈ (s.step e).calls, P call.query := by
  cases e with
  | tick elapsed => exact h
  | start query =>
    intro c hc
    rcases List.mem_append.mp hc with hc | hc
    · exact h c hc
    · rw [List.mem_singleton.mp hc]
      exact he query rfl
  | call i action =>
    simp only [UsageReader.step]
    cases hi : s.calls[i]? with
    | none => exact h
    | some call =>
      have hset : ∀ {phase} c, c ∈ (s.setPhase i call phase).calls → P c.query := by
        intro phase c hc
        rcases mem_setPhase hc with hc | rfl
        · exact h c hc
        · exact h call (List.mem_of_getElem? hi)
      obtain hsame | ⟨phase, cache, -, -, -, hnext⟩ | ⟨rows, -, hnext⟩ := advance_cases s i call action
      · simp only [hsame]
        exact h
      · simp only [hnext]
        exact hset
      · simp only [hnext]
        exact hset

theorem readsOwn_of_plain (h : ∀ call ∈ s.calls, Admitted call.query ∧ Plain call.query) (e : UsageReaderEvent R) : s.ReadsOwn e := by
  cases e with
  | tick elapsed | start query => exact trivial
  | call i action =>
    cases action with
    | fetch result | put => exact trivial
    | get =>
      intro call hcall other hother _ hkey hne
      obtain ⟨hadmitted, hplain⟩ := h call (List.mem_of_getElem? hcall)
      obtain ⟨hadmitted', hplain'⟩ := h other hother
      exact (hne (((cacheKey_eq_iff hadmitted' hadmitted).mp hkey).eq hplain' hplain)).elim

/-- As long as no model is named like the word for an absent filter, and no key id holds a colon, the cache cannot be
noticed. -/
theorem transparent_of_plain (httl : 0 < ttl) (now : ℤ) {events : List (UsageReaderEvent R)}
    (h : ∀ query, .start query ∈ events → Admitted query ∧ Plain query) :
    (run step (initial ttl maxEntries now) events).Transparent := by
  let I : UsageReader R → Prop := fun s =>
    Sound s ∧ s.cache.ttl = ttl ∧ ∀ call ∈ s.calls, Admitted call.query ∧ Plain call.query
  have hstep : ∀ s e, (∀ query, e = .start query → Admitted query ∧ Plain query) → I s → I (s.step e) := by
    rintro s e he ⟨hsound, hs, hqueries⟩
    exact ⟨hsound.step (readsOwn_of_plain hqueries e), (ttl_step s e).trans hs, query_step hqueries he⟩
  have hevents : StepsMeet step (fun _ e => ∀ query, e = .start query → Admitted query ∧ Plain query)
      (initial ttl maxEntries now) events := stepsMeet_of_forall _ fun e he query hquery => h query (hquery ▸ he)
  obtain ⟨hsound, hrunTtl, -⟩ := run_invariant (I := I) hstep events _ ⟨sound_initial now, rfl, nofun⟩ hevents
  refine hsound.transparent ?_
  rw [hrunTtl]
  exact httl

theorem transparent_of_plain_again : (run step (initial 10 2048 0) again).Transparent := by
  refine transparent_of_plain (by decide) 0 fun query h => ?_
  obtain rfl : query = usageOf none := by simpa [again] using h
  exact ⟨admitted_usageOf none, by decide, by decide, fun id hid => by cases hid⟩

end UsageReader

end Experiential.Gateway
