import Experiential.Lib.OrderedDict
import Experiential.Lib.Run

/-! # The read cache

`TTLCache` keeps what a loader read for a fixed time after it was stored. The loader runs outside of the lock, and the
time begins when the value is stored: what was written meanwhile is not in the value. `staleness_bounded` says that a
call is served nothing older than the TTL as long as no load is stored behind a write that it has not seen. -/

namespace Experiential.Control

variable {κ α : Type} [DecidableEq κ]

/-- `_Entry` -/
structure CacheEntry (α : Type) where
  value : α
  expiresAt : ℕ

section cache

variable (ttlSeconds maxEntries : ℕ) (entries : OrderedDict κ (CacheEntry α)) (key : κ)

/-- The value that `get_or_load` finds under the lock. -/
def liveValue (now : ℕ) : Option α :=
  (entries.get? key).bind fun entry => if now < entry.expiresAt then some entry.value else none

/-- `_evict` -/
def evictEntries (now : ℕ) : OrderedDict κ (CacheEntry α) :=
  (entries.filter fun entry => decide (now < entry.expiresAt)).evict maxEntries

/-- What `get_or_load` does with a value under the lock; the clock is read again to evict. -/
def storeValue (value : α) (now evictedAt : ℕ) : OrderedDict κ (CacheEntry α) :=
  evictEntries maxEntries (entries.moveToEnd key ⟨value, now + ttlSeconds⟩) evictedAt

end cache

/-! ### Calls -/

/-- What a load returned: how many writes of the source it had seen, and what it made of them. -/
structure Loaded (α : Type) where
  seen : ℕ
  payload : α

/-- Where a call of `get_or_load` stands. -/
inductive LoadPhase (α : Type) where
  | begun
  | clocked (now : ℕ)
  | loading
  | read (seen : ℕ)
  | accepted (value : Loaded α)
  | returned (value : Loaded α)
  | raised

structure LoadCall (κ α : Type) where
  key : κ
  shouldStore : α → Bool
  startedAt : ℕ
  phase : LoadPhase α

/-- The steps of a call. -/
inductive LoadAction (α : Type) where
  | readClock
  | lookup
  | loaderReads
  | loaderReturns (payload : α)
  | loaderRaises
  | store (elapsed : ℕ)

/-- A process: the clock, the cache, the times at which the writes of each key committed, and the calls. -/
structure CacheProcess (κ α : Type) where
  now : ℕ
  entries : OrderedDict κ (CacheEntry (Loaded α))
  writes : κ → List ℕ
  calls : List (LoadCall κ α)

/-- One step of the clock, of a writer or of a call. -/
inductive CacheEvent (κ α : Type) where
  | tick (elapsed : ℕ)
  | write (key : κ)
  | start (key : κ) (shouldStore : α → Bool)
  | call (i : ℕ) (action : LoadAction α)

namespace CacheProcess

variable (ttlSeconds maxEntries : ℕ) (s : CacheProcess κ α)

def initial (now : ℕ) : CacheProcess κ α := ⟨now, .empty, fun _ => [], []⟩

def setPhase (i : ℕ) (call : LoadCall κ α) (phase : LoadPhase α) : CacheProcess κ α :=
  { s with calls := s.calls.set i { call with phase := phase } }

/-- The next step of a call. -/
def advance (i : ℕ) (call : LoadCall κ α) : LoadAction α → CacheProcess κ α
  | .readClock =>
    match call.phase with
    | .begun => s.setPhase i call (.clocked s.now)
    | _ => s
  | .lookup =>
    match call.phase with
    | .clocked now =>
      match liveValue s.entries call.key now with
      | some value => s.setPhase i call (.returned value)
      | none => s.setPhase i call .loading
    | _ => s
  | .loaderReads =>
    match call.phase with
    | .loading => s.setPhase i call (.read (s.writes call.key).length)
    | _ => s
  | .loaderReturns payload =>
    match call.phase with
    | .read seen =>
      if call.shouldStore payload then s.setPhase i call (.accepted ⟨seen, payload⟩)
      else s.setPhase i call (.returned ⟨seen, payload⟩)
    | _ => s
  | .loaderRaises =>
    match call.phase with
    | .loading | .read _ => s.setPhase i call .raised
    | _ => s
  | .store elapsed =>
    match call.phase with
    | .accepted value =>
      { s.setPhase i call (.returned value) with
        now := s.now + elapsed
        entries := storeValue ttlSeconds maxEntries s.entries call.key value s.now (s.now + elapsed) }
    | _ => s

def step : CacheEvent κ α → CacheProcess κ α
  | .tick elapsed => { s with now := s.now + elapsed }
  | .write key => { s with writes := fun k => if k = key then s.writes k ++ [s.now] else s.writes k }
  | .start key shouldStore => { s with calls := s.calls ++ [⟨key, shouldStore, s.now, .begun⟩] }
  | .call i action =>
    match s.calls[i]? with
    | some call => s.advance ttlSeconds maxEntries i call action
    | none => s

/-! ### What is promised -/

/-- A call that started a TTL behind a write, or later, is not answered with a value older than the write. -/
def Current : Prop :=
  ∀ call ∈ s.calls, ∀ value, call.phase = .returned value →
    ∀ n committedAt, (s.writes call.key)[n]? = some committedAt → committedAt + ttlSeconds ≤ call.startedAt → n < value.seen

/-- Each entry is what a load returned that was not declined. -/
def Stored : Prop :=
  ∀ e ∈ s.entries.entries, ∃ call ∈ s.calls, call.key = e.1 ∧ call.phase = .returned e.2.value ∧
    call.shouldStore e.2.value.payload = true

/-- A value is stored when the load has seen all writes that committed before. -/
def StoresCurrent : CacheEvent κ α → Prop
  | .call i (.store _) => ∀ call value, s.calls[i]? = some call → call.phase = .accepted value →
      ∀ n committedAt, (s.writes call.key)[n]? = some committedAt → value.seen ≤ n → s.now ≤ committedAt
  | _ => True

/-- A value holds the writes of a key that committed more than a TTL before the limit, and no later write is one. -/
structure SeesBefore (key : κ) (limit seen : ℕ) : Prop where
  reached : limit ≤ s.now + ttlSeconds
  holds : ∀ n committedAt, (s.writes key)[n]? = some committedAt → committedAt + ttlSeconds < limit → n < seen

/-- What a call knows in each phase. -/
def Knows (key : κ) (startedAt : ℕ) : LoadPhase α → Prop
  | .clocked now => startedAt ≤ now
  | .read seen => s.SeesBefore ttlSeconds key (startedAt + 1) seen
  | .accepted value => s.SeesBefore ttlSeconds key (startedAt + 1) value.seen
  | .returned value => s.SeesBefore ttlSeconds key (startedAt + 1) value.seen
  | _ => True

/-- What calls and entries hold was current within the time to live. -/
structure Sound : Prop where
  started : ∀ call ∈ s.calls, call.startedAt ≤ s.now
  knows : ∀ call ∈ s.calls, s.Knows ttlSeconds call.key call.startedAt call.phase
  entries : ∀ e ∈ s.entries.entries, s.SeesBefore ttlSeconds e.1 e.2.expiresAt e.2.value.seen

/-- Time has passed, and writes have been added. -/
structure Later (s s' : CacheProcess κ α) : Prop where
  now : s.now ≤ s'.now
  writes : ∀ key, ∃ added, s'.writes key = s.writes key ++ added ∧ ∀ committedAt ∈ added, s.now ≤ committedAt

variable {ttlSeconds maxEntries s} {s' : CacheProcess κ α}

omit [DecidableEq κ] in
theorem Later.of_writes (hnow : s.now ≤ s'.now) (h : s'.writes = s.writes) : Later s s' :=
  ⟨hnow, fun key => ⟨[], by rw [h, List.append_nil], nofun⟩⟩

omit [DecidableEq κ] in
theorem SeesBefore.later {key : κ} {limit seen : ℕ} (h : s.SeesBefore ttlSeconds key limit seen) (hlater : Later s s') :
    s'.SeesBefore ttlSeconds key limit seen := by
  obtain ⟨hreached, hholds⟩ := h
  have hnow := hlater.now
  refine ⟨by omega, fun n committedAt hn hbefore => ?_⟩
  obtain ⟨added, hwrites, hadded⟩ := hlater.writes key
  rw [hwrites] at hn
  rcases Nat.lt_or_ge n (s.writes key).length with hlt | hge
  · rw [List.getElem?_append_left hlt] at hn
    exact hholds n committedAt hn hbefore
  · rw [List.getElem?_append_right hge] at hn
    have hle := hadded committedAt (List.mem_of_getElem? hn)
    omega

variable {phase : LoadPhase α}

omit [DecidableEq κ] in
theorem Knows.later {key : κ} {startedAt : ℕ} (h : s.Knows ttlSeconds key startedAt phase)
    (hlater : Later s s') : s'.Knows ttlSeconds key startedAt phase := by
  cases phase with
  | begun => trivial
  | clocked now => exact h
  | loading | raised => trivial
  | _ => exact SeesBefore.later h hlater

theorem later_write (key : κ) :
    Later s { s with writes := fun k => if k = key then s.writes k ++ [s.now] else s.writes k } := by
  refine ⟨Nat.le_refl _, fun k => ?_⟩
  by_cases hk : k = key
  · exact ⟨[s.now], if_pos hk, fun t ht => Nat.le_of_eq (List.mem_singleton.mp ht).symm⟩
  · exact ⟨[], by simp [hk], nofun⟩

/-! ### One step of a call -/

/-- The phase that a call goes to without storing. -/
inductive Moves (s : CacheProcess κ α) (call : LoadCall κ α) : LoadPhase α → Prop
  | clock (h : call.phase = .begun) : Moves s call (.clocked s.now)
  | hit {now : ℕ} {value : Loaded α} (h : call.phase = .clocked now) (hlive : liveValue s.entries call.key now = some value) :
      Moves s call (.returned value)
  | miss {now : ℕ} (h : call.phase = .clocked now) : Moves s call .loading
  | read (h : call.phase = .loading) : Moves s call (.read (s.writes call.key).length)
  | accept {seen : ℕ} {payload : α} (h : call.phase = .read seen) (hstore : call.shouldStore payload = true) :
      Moves s call (.accepted ⟨seen, payload⟩)
  | decline {seen : ℕ} {payload : α} (h : call.phase = .read seen) : Moves s call (.returned ⟨seen, payload⟩)
  | raise (h : call.phase = .loading ∨ ∃ seen, call.phase = .read seen) : Moves s call .raised

variable {call : LoadCall κ α}

omit [DecidableEq κ] in
theorem Moves.ne_returned [DecidableEq κ] (h : Moves s call phase)
    (value : Loaded α) : call.phase ≠ .returned value := by
  intro hreturned
  cases h <;> simp_all

/-- The state behind a store. -/
def stored (ttlSeconds maxEntries : ℕ) (s : CacheProcess κ α) (i : ℕ) (call : LoadCall κ α) (value : Loaded α) (elapsed : ℕ) :
    CacheProcess κ α :=
  { s.setPhase i call (.returned value) with
    now := s.now + elapsed
    entries := storeValue ttlSeconds maxEntries s.entries call.key value s.now (s.now + elapsed) }

/-- What a step of a call does: nothing, a change of phase, or a store. -/
theorem advance_cases (ttlSeconds maxEntries : ℕ) (s : CacheProcess κ α) (i : ℕ) (call : LoadCall κ α) (action : LoadAction α) :
    s.advance ttlSeconds maxEntries i call action = s ∨
      (∃ phase, Moves s call phase ∧ s.advance ttlSeconds maxEntries i call action = s.setPhase i call phase) ∨
      ∃ value elapsed, action = .store elapsed ∧ call.phase = .accepted value ∧
        s.advance ttlSeconds maxEntries i call action = stored ttlSeconds maxEntries s i call value elapsed := by
  obtain ⟨key, shouldStore, startedAt, phase⟩ := call
  cases action with
  | readClock =>
    cases phase with
    | begun => exact .inr (.inl ⟨_, .clock rfl, rfl⟩)
    | _ => exact .inl rfl
  | lookup =>
    cases phase with
    | clocked now =>
      cases hlive : liveValue s.entries key now with
      | none => exact .inr (.inl ⟨_, .miss rfl, by simp only [advance, hlive]⟩)
      | some value => exact .inr (.inl ⟨_, .hit rfl hlive, by simp only [advance, hlive]⟩)
    | _ => exact .inl rfl
  | loaderReads =>
    cases phase with
    | loading => exact .inr (.inl ⟨_, .read rfl, rfl⟩)
    | _ => exact .inl rfl
  | loaderReturns payload =>
    cases phase with
    | read seen =>
      cases hstore : shouldStore payload with
      | true => exact .inr (.inl ⟨_, .accept rfl hstore, by simp only [advance, hstore, if_true]⟩)
      | false => exact .inr (.inl ⟨.returned ⟨seen, payload⟩, .decline rfl, by simp [advance, hstore]⟩)
    | _ => exact .inl rfl
  | loaderRaises =>
    cases phase with
    | loading => exact .inr (.inl ⟨_, .raise (.inl rfl), rfl⟩)
    | read seen => exact .inr (.inl ⟨_, .raise (.inr ⟨seen, rfl⟩), rfl⟩)
    | _ => exact .inl rfl
  | store elapsed =>
    cases phase with
    | accepted value => exact .inr (.inr ⟨value, elapsed, rfl, rfl, rfl⟩)
    | _ => exact .inl rfl

theorem liveValue_eq_some {entries : OrderedDict κ (CacheEntry α)} {key : κ} {now : ℕ} {value : α}
    (h : liveValue entries key now = some value) : ∃ expiresAt, (key, ⟨value, expiresAt⟩) ∈ entries.entries ∧ now < expiresAt := by
  obtain ⟨⟨v, expiresAt⟩, hentry, hlive⟩ := Option.bind_eq_some_iff.mp h
  split_ifs at hlive with hnow
  obtain rfl := Option.some.inj hlive
  exact ⟨expiresAt, OrderedDict.mem_of_get?_eq_some hentry, hnow⟩

theorem mem_storeValue {entries : OrderedDict κ (CacheEntry α)} {key : κ} {value : α} {now evictedAt : ℕ}
    {e : κ × CacheEntry α} (h : e ∈ (storeValue ttlSeconds maxEntries entries key value now evictedAt).entries) :
    e ∈ entries.entries ∨ e = (key, ⟨value, now + ttlSeconds⟩) := by
  have hmem := (List.mem_filter.mp (OrderedDict.mem_of_mem_evict h)).1
  rcases OrderedDict.mem_moveToEnd.mp hmem with ⟨hold, -⟩ | hnew
  · exact .inl hold
  · exact .inr hnew

omit [DecidableEq κ] in
theorem mem_setPhase {i : ℕ} {call c : LoadCall κ α} (h : c ∈ (s.setPhase i call phase).calls) :
    c ∈ s.calls ∨ c = { call with phase := phase } := List.mem_or_eq_of_mem_set h

/-! ### Staleness -/

omit [DecidableEq κ] in
theorem Sound.later (h : Sound ttlSeconds s) (hlater : Later s s') (hentries : s'.entries = s.entries)
    (hcalls : ∀ call ∈ s'.calls, call ∈ s.calls ∨
      call.startedAt ≤ s'.now ∧ s'.Knows ttlSeconds call.key call.startedAt call.phase) : Sound ttlSeconds s' := by
  refine ⟨fun call hcall => ?_, fun call hcall => ?_, fun e he => ?_⟩
  · rcases hcalls call hcall with hcall | ⟨hstarted, -⟩
    · exact Nat.le_trans (h.started call hcall) hlater.now
    · exact hstarted
  · rcases hcalls call hcall with hcall | ⟨-, hknows⟩
    · exact (h.knows call hcall).later hlater
    · exact hknows
  · rw [hentries] at he
    exact (h.entries e he).later hlater

omit [DecidableEq κ] in
theorem Sound.setPhase (h : Sound ttlSeconds s) {i : ℕ} (hcall : call ∈ s.calls)
    (hknows : s.Knows ttlSeconds call.key call.startedAt phase) : Sound ttlSeconds (s.setPhase i call phase) := by
  have hlater : Later s (s.setPhase i call phase) := .of_writes (Nat.le_refl _) rfl
  refine h.later hlater rfl fun c hc => ?_
  rcases mem_setPhase hc with hc | rfl
  · exact .inl hc
  · exact .inr ⟨h.started call hcall, hknows.later hlater⟩

theorem Sound.moves (httl : 0 < ttlSeconds) (h : Sound ttlSeconds s) (hcall : call ∈ s.calls)
    (hmoves : Moves s call phase) : s.Knows ttlSeconds call.key call.startedAt phase := by
  have hstarted := h.started call hcall
  have hknows := h.knows call hcall
  cases hmoves with
  | clock => exact hstarted
  | @hit now value hphase hlive =>
    rw [hphase] at hknows
    have hclock : call.startedAt ≤ now := hknows
    obtain ⟨expiresAt, hentry, hnow⟩ := liveValue_eq_some hlive
    have hholds : ∀ n committedAt, (s.writes call.key)[n]? = some committedAt → committedAt + ttlSeconds < expiresAt →
        n < value.seen := (h.entries _ hentry).holds
    exact ⟨by omega, fun n committedAt hn hbefore => hholds n committedAt hn (by omega)⟩
  | miss => trivial
  | read => exact ⟨by omega, fun n committedAt hn _ => (List.getElem?_eq_some_iff.mp hn).1⟩
  | accept hphase | decline hphase =>
    rw [hphase] at hknows
    exact hknows
  | raise => trivial

theorem Sound.stored (h : Sound ttlSeconds s) {i elapsed : ℕ} (hcall : call ∈ s.calls)
    {value : Loaded α} (hphase : call.phase = .accepted value)
    (hcurrent : ∀ n committedAt, (s.writes call.key)[n]? = some committedAt → value.seen ≤ n → s.now ≤ committedAt) :
    Sound ttlSeconds (stored ttlSeconds maxEntries s i call value elapsed) := by
  have hknows := h.knows call hcall
  rw [hphase] at hknows
  have hset : Sound ttlSeconds (s.setPhase i call (.returned value)) := h.setPhase hcall hknows
  have hlater : Later s (CacheProcess.stored ttlSeconds maxEntries s i call value elapsed) :=
    .of_writes (Nat.le_add_right _ _) rfl
  refine ⟨fun c hc => Nat.le_trans (hset.started c hc) (Nat.le_add_right _ _), fun c hc => (hset.knows c hc).later ?_, ?_⟩
  · exact .of_writes (Nat.le_add_right _ _) rfl
  · intro e he
    rcases mem_storeValue he with he | rfl
    · exact (h.entries e he).later hlater
    · refine SeesBefore.later (s := s) ⟨Nat.le_refl _, fun n committedAt hn hbefore => ?_⟩ hlater
      by_contra hunseen
      have hle := hcurrent n committedAt hn (Nat.not_lt.mp hunseen)
      dsimp only at hbefore
      omega

theorem Sound.step (httl : 0 < ttlSeconds) (h : Sound ttlSeconds s) {e : CacheEvent κ α} (hstores : s.StoresCurrent e) :
    Sound ttlSeconds (s.step ttlSeconds maxEntries e) := by
  cases e with
  | tick elapsed => exact h.later (.of_writes (Nat.le_add_right _ _) rfl) rfl fun c hc => .inl hc
  | write key => exact h.later (later_write key) rfl fun c hc => .inl hc
  | start key shouldStore =>
    refine h.later (.of_writes (Nat.le_refl _) rfl) rfl fun c hc => ?_
    rcases List.mem_append.mp hc with hc | hc
    · exact .inl hc
    · rw [List.mem_singleton.mp hc]
      exact .inr ⟨Nat.le_refl _, trivial⟩
  | call i action =>
    simp only [CacheProcess.step]
    cases hi : s.calls[i]? with
    | none => exact h
    | some call =>
      have hcall : call ∈ s.calls := List.mem_of_getElem? hi
      obtain hsame | ⟨phase, hmoves, hnext⟩ | ⟨value, elapsed, rfl, hphase, hnext⟩ :=
        advance_cases ttlSeconds maxEntries s i call action
      · simp only [hsame]
        exact h
      · simp only [hnext]
        exact h.setPhase hcall (h.moves httl hcall hmoves)
      · simp only [hnext]
        exact h.stored hcall hphase (hstores call value hi hphase)

omit [DecidableEq κ] in
theorem Sound.current (h : Sound ttlSeconds s) : s.Current ttlSeconds := by
  intro call hcall value hphase n committedAt hn hstarted
  have hknows := h.knows call hcall
  rw [hphase] at hknows
  exact SeesBefore.holds hknows n committedAt hn (by omega)

/-! ### Bound and provenance -/

theorem length_storeValue_le (entries : OrderedDict κ (CacheEntry α)) (key : κ) (value : α) (now evictedAt : ℕ) :
    (storeValue ttlSeconds maxEntries entries key value now evictedAt).entries.length ≤ maxEntries :=
  OrderedDict.length_evict_le _ _

theorem length_step (h : s.entries.entries.length ≤ maxEntries) (e : CacheEvent κ α) :
    (s.step ttlSeconds maxEntries e).entries.entries.length ≤ maxEntries := by
  cases e with
  | call i action =>
    simp only [CacheProcess.step]
    cases s.calls[i]? with
    | none => exact h
    | some call =>
      obtain hsame | ⟨phase, -, hnext⟩ | ⟨value, elapsed, -, -, hnext⟩ := advance_cases ttlSeconds maxEntries s i call action
      · simp only [hsame]
        exact h
      · simp only [hnext]
        exact h
      · simp only [hnext]
        exact length_storeValue_le _ _ _ _ _
  | _ => exact h

/-- What is stored was accepted. -/
structure Accepts (s : CacheProcess κ α) : Prop where
  accepted : ∀ call ∈ s.calls, ∀ value, call.phase = .accepted value → call.shouldStore value.payload = true
  stored : s.Stored

omit [DecidableEq κ] in
/-- A call that returned is not changed by a step of another. -/
theorem mem_calls_setPhase {i : ℕ} {call c : LoadCall κ α} (hi : s.calls[i]? = some call)
    (hc : c ∈ s.calls) (hne : c ≠ call) : c ∈ (s.setPhase i call phase).calls := by
  rcases mem_set_of_mem (b := { call with phase := phase }) hi hc with hc | ⟨heq, -⟩
  · exact hc
  · exact (hne heq).elim

theorem Accepts.setPhase (h : Accepts s) {i : ℕ} (hi : s.calls[i]? = some call)
    (hmoves : Moves s call phase) : Accepts (s.setPhase i call phase) := by
  have hcall : call ∈ s.calls := List.mem_of_getElem? hi
  refine ⟨fun c hc value hphase => ?_, fun e he => ?_⟩
  · rcases mem_setPhase hc with hc | rfl
    · exact h.accepted c hc value hphase
    · cases hmoves with
      | accept hread hstore =>
        cases hphase
        exact hstore
      | _ => cases hphase
  · obtain ⟨c, hc, hkey, hreturned, hstore⟩ := h.stored e he
    refine ⟨c, mem_calls_setPhase hi hc ?_, hkey, hreturned, hstore⟩
    rintro rfl
    exact hmoves.ne_returned _ hreturned

theorem Accepts.store (h : Accepts s) {i elapsed : ℕ} (hi : s.calls[i]? = some call)
    {value : Loaded α} (hphase : call.phase = .accepted value) :
    Accepts (CacheProcess.stored ttlSeconds maxEntries s i call value elapsed) := by
  have hcall : call ∈ s.calls := List.mem_of_getElem? hi
  refine ⟨fun c hc v hv => ?_, fun e he => ?_⟩
  · rcases mem_setPhase (s := s) hc with hc | rfl
    · exact h.accepted c hc v hv
    · cases hv
  · rcases mem_storeValue he with he | rfl
    · obtain ⟨c, hc, hkey, hreturned, hstore⟩ := h.stored e he
      refine ⟨c, mem_calls_setPhase hi hc ?_, hkey, hreturned, hstore⟩
      rintro rfl
      rw [hphase] at hreturned
      cases hreturned
    · refine ⟨_, List.mem_set (List.getElem?_eq_some_iff.mp hi).1 _, rfl, rfl, h.accepted call hcall value hphase⟩

theorem Accepts.step (h : Accepts s) (e : CacheEvent κ α) : Accepts (s.step ttlSeconds maxEntries e) := by
  cases e with
  | tick elapsed | write key => exact ⟨h.accepted, h.stored⟩
  | start key shouldStore =>
    refine ⟨fun c hc value hphase => ?_, fun e he => ?_⟩
    · rcases List.mem_append.mp hc with hc | hc
      · exact h.accepted c hc value hphase
      · rw [List.mem_singleton.mp hc] at hphase
        cases hphase
    · obtain ⟨c, hc, hstored⟩ := h.stored e he
      exact ⟨c, List.mem_append_left _ hc, hstored⟩
  | call i action =>
    simp only [CacheProcess.step]
    cases hi : s.calls[i]? with
    | none => exact h
    | some call =>
      obtain hsame | ⟨phase, hmoves, hnext⟩ | ⟨value, elapsed, -, hphase, hnext⟩ :=
        advance_cases ttlSeconds maxEntries s i call action
      · simp only [hsame]
        exact h
      · simp only [hnext]
        exact h.setPhase hi hmoves
      · simp only [hnext]
        exact h.store hi hphase

end CacheProcess

/-- **Staleness**: in every run in which a value is stored only when its load has seen the writes that committed before, a
call that starts a TTL behind a write is not answered with an older value. In every run the cache is bounded, and holds
only values that were accepted. -/
theorem staleness_bounded (ttlSeconds maxEntries : ℕ) (httl : 0 < ttlSeconds) (now : ℕ) (events : List (CacheEvent κ α)) :
    (StepsMeet (CacheProcess.step ttlSeconds maxEntries) CacheProcess.StoresCurrent (.initial now) events →
      (run (CacheProcess.step ttlSeconds maxEntries) (.initial now) events).Current ttlSeconds) ∧
    (run (CacheProcess.step ttlSeconds maxEntries) (.initial now) events).entries.entries.length ≤ maxEntries ∧
    (run (CacheProcess.step ttlSeconds maxEntries) (.initial now) events).Stored := by
  refine ⟨fun hstores => ?_, ?_, ?_⟩
  · have hsound : CacheProcess.Sound ttlSeconds (run (CacheProcess.step ttlSeconds maxEntries) (.initial now) events) :=
      run_invariant (I := CacheProcess.Sound ttlSeconds) (fun _ _ hC hs => hs.step httl hC) events _
        ⟨nofun, nofun, nofun⟩ hstores
    exact hsound.current
  · exact run_invariant_of_forall (I := fun s : CacheProcess κ α => s.entries.entries.length ≤ maxEntries)
      (fun _ e hs => CacheProcess.length_step hs e) events _ (Nat.zero_le _)
  · have haccepts : CacheProcess.Accepts (run (CacheProcess.step ttlSeconds maxEntries) (.initial now) events) :=
      run_invariant_of_forall (I := CacheProcess.Accepts) (fun _ e hs => hs.step e) events _ ⟨nofun, nofun⟩
    exact haccepts.stored

/-- A load that reads, is overtaken by a write and is stored nine seconds behind it, and a call ten seconds behind the
write. -/
def slowLoad : List (CacheEvent ℕ ℕ) :=
  [.start 0 fun _ => true, .call 0 .readClock, .call 0 .lookup, .call 0 .loaderReads, .tick 1, .write 0, .tick 9,
    .call 0 (.loaderReturns 7), .call 0 (.store 0), .tick 1, .start 0 fun _ => true, .call 1 .readClock, .call 1 .lookup]

/-- It is answered with what was read before the write. -/
theorem served_stale :
    let s := run (CacheProcess.step 10 1) (.initial 0) slowLoad
    s.writes 0 = [1] ∧ s.calls.map (fun c => (c.startedAt, c.phase)) =
      [(0, .returned ⟨0, 7⟩), (11, .returned ⟨0, 7⟩)] ∧ ¬ s.Current 10 := by
  have hcalls : (run (CacheProcess.step 10 1) (.initial 0) slowLoad).calls =
      [⟨0, fun _ => true, 0, .returned ⟨0, 7⟩⟩, ⟨0, fun _ => true, 11, .returned ⟨0, 7⟩⟩] := by rfl
  have hwrites : (run (CacheProcess.step 10 1) (.initial 0) slowLoad).writes 0 = [1] := by rfl
  refine ⟨hwrites, by rw [hcalls]; rfl, fun hcurrent => ?_⟩
  have hmem : (⟨0, fun _ => true, 11, .returned ⟨0, 7⟩⟩ : LoadCall ℕ ℕ) ∈
      (run (CacheProcess.step 10 1) (.initial 0) slowLoad).calls := by
    rw [hcalls]
    exact List.mem_cons_of_mem _ List.mem_cons_self
  have hlt := hcurrent _ hmem ⟨0, 7⟩ rfl 0 1 (by rw [hwrites]; rfl) (by decide)
  exact absurd hlt (by decide)

/-- A load that is stored before the write, and a call behind it. -/
theorem staleness_bounded_reload :
    let s := run (CacheProcess.step 10 1) (.initial 0)
      [.start 0 fun _ => true, .call 0 .readClock, .call 0 .lookup, .call 0 .loaderReads, .call 0 (.loaderReturns 7),
        .call 0 (.store 0), .tick 1, .write 0, .tick 10, .start 0 fun _ => true, .call 1 .readClock, .call 1 .lookup,
        .call 1 .loaderReads, .call 1 (.loaderReturns 8), .call 1 (.store 0)]
    s.calls.map (fun c => (c.startedAt, c.phase)) = [(0, .returned ⟨0, 7⟩), (11, .returned ⟨1, 8⟩)] ∧ s.Current 10 := by
  refine ⟨rfl, (staleness_bounded 10 1 (by decide) 0 _).1 ⟨trivial, trivial, trivial, trivial, trivial, ?_, trivial, trivial,
    trivial, trivial, trivial, trivial, trivial, trivial, ?_, trivial⟩⟩
  · nofun
  · intro call value hi hphase n committedAt hn hseen
    obtain rfl : (⟨0, fun _ => true, 11, .accepted ⟨1, 8⟩⟩ : LoadCall ℕ ℕ) = call := Option.some.inj hi
    obtain rfl : (⟨1, 8⟩ : Loaded ℕ) = value := LoadPhase.accepted.inj hphase
    have hlt := (List.getElem?_eq_some_iff.mp hn).1
    have hlen : n < 1 := hlt
    have hle : 1 ≤ n := hseen
    omega

end Experiential.Control
