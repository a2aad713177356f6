import Experiential.Lib.Run
import Mathlib.Data.Int.Notation
import Mathlib.Data.List.Nodup

/-! # Executors and the accounting latch

Every catalog generation has an executor of its own, and an executor that loses a terminal accounting write latches
unhealthy. `RefreshingGatewayExecutor` retires the executor of the generation before, probes retired ones for a window,
and carries a latch it finds into a flag of its own. Threads take its lock one at a time; between two of their steps
anything else may happen. `Ok` is what the object and its executors keep, and `kept_advance` that a thread's step keeps
it. -/

namespace Experiential.Gateway

/-- The request timeout and `retired_probe_seconds`, which must exceed it. -/
structure ProbeWindow where
  requestTimeout : ℤ
  retiredProbe : ℤ
  nonneg : 0 ≤ requestTimeout
  exceeds : requestTimeout < retiredProbe

/-! ### State -/

/-- `RefreshingGatewayExecutor`, with the clock, the catalog source and the executors it has composed. Executors and
catalog states are numbered. -/
structure RefreshingExecutor where
  clock : ℤ
  catalogState : ℕ
  unhealthy : Bool
  /-- `_current_state` and `_current`. -/
  current : Option (ℕ × ℕ)
  retired : List (ℕ × ℤ)
  /-- The thread that holds the lock. -/
  lock : Option ℕ
  composed : ℕ
  /-- The executors that have lost a write. -/
  latched : List ℕ
  /-- The streams that have not settled, with their executor and their start. -/
  streams : List (ℕ × ℤ)

/-- Where a thread is. `late`: an executor had latched when the check read the clock; the code does not know it. -/
inductive ExecutorCall where
  | idle
  /-- `start` -/
  | readState
  | generation (state : ℕ)
  | startStream (executor : ℕ)
  /-- `accounting_healthy` -/
  | readClock
  | acquire (late : Bool) (now : ℤ)
  | probe (late : Bool) (now : ℤ) (todo kept : List (ℕ × ℤ))
  | readFlag (late : Bool)
  | probeCurrent (late : Bool) (executor : ℕ)
  | answered (late healthy : Bool)
  /-- `mark_accounting_unhealthy` -/
  | mark
  | done
deriving DecidableEq

structure ExecutorThreads where
  shared : RefreshingExecutor
  calls : ℕ → ExecutorCall

inductive ExecutorStep where
  | start (k : ℕ)
  | accountingHealthy (k : ℕ)
  | markAccountingUnhealthy (k : ℕ)
  | advance (k : ℕ)
  | swap (state : ℕ)
  | pass (d : ℕ)
  /-- A stream loses a terminal write, and its executor latches. -/
  | lose (stream : ℕ)
  | settle (stream : ℕ)
deriving DecidableEq

/-! ### Calls -/

namespace RefreshingExecutor

/-- A worker that has composed nothing. -/
def fresh (clock : ℤ) (catalogState : ℕ) : RefreshingExecutor := ⟨clock, catalogState, false, none, [], none, 0, [], []⟩

/-- `_generation`, with the lock taken: the executor of a catalog state. -/
def generation (s : RefreshingExecutor) (state : ℕ) : RefreshingExecutor × ℕ :=
  match s.current with
  | none => ({ s with current := some (state, s.composed), composed := s.composed + 1 }, s.composed)
  | some (state', executor) =>
      if state' = state then (s, executor)
      else
        ({ s with
            current := some (state, s.composed)
            composed := s.composed + 1
            retired := s.retired ++ [(executor, s.clock)] }, s.composed)

/-- What a probe keeps of a retired executor that is healthy. -/
def keeps (window : ProbeWindow) (now : ℤ) (p : ℕ × ℤ) : Bool := decide (now - p.2 < window.retiredProbe)

/-- The next step of a thread; one that waits for the lock stays where it is. -/
def advance (window : ProbeWindow) (k : ℕ) (s : RefreshingExecutor) : ExecutorCall → RefreshingExecutor × ExecutorCall
  | .readState => (s, .generation s.catalogState)
  | .generation state =>
      if s.lock = none then ((s.generation state).1, .startStream (s.generation state).2) else (s, .generation state)
  | .startStream executor => ({ s with streams := s.streams ++ [(executor, s.clock)] }, .done)
  | .readClock => (s, .acquire (decide (s.latched ≠ [])) s.clock)
  | .acquire late now =>
      if s.lock = none then ({ s with lock := some k }, .probe late now s.retired []) else (s, .acquire late now)
  | .probe late now (p :: todo) kept =>
      if p.1 ∈ s.latched then ({ s with unhealthy := true }, .probe late now todo kept)
      else (s, .probe late now todo (if keeps window now p then kept ++ [p] else kept))
  | .probe late _ [] kept => ({ s with retired := kept, lock := none }, .readFlag late)
  | .readFlag late =>
      if s.lock = none then
        if s.unhealthy then (s, .answered late false)
        else match s.current with
          | none => (s, .answered late true)
          | some (_, executor) => (s, .probeCurrent late executor)
      else (s, .readFlag late)
  | .probeCurrent late executor => (s, .answered late (decide (executor ∉ s.latched)))
  | .mark => if s.lock = none then ({ s with unhealthy := true }, .done) else (s, .mark)
  | .idle => (s, .idle)
  | .answered late healthy => (s, .answered late healthy)
  | .done => (s, .done)

end RefreshingExecutor

namespace ExecutorThreads

def fresh (clock : ℤ) (catalogState : ℕ) : ExecutorThreads := ⟨.fresh clock catalogState, fun _ => .idle⟩

/-- A thread that is idle makes a call. -/
def begin (w : ExecutorThreads) (k : ℕ) (x : ExecutorCall) : ExecutorThreads :=
  if w.calls k = .idle then { w with calls := Function.update w.calls k x } else w

end ExecutorThreads

def executorStep (window : ProbeWindow) (w : ExecutorThreads) : ExecutorStep → ExecutorThreads
  | .start k => w.begin k .readState
  | .accountingHealthy k => w.begin k .readClock
  | .markAccountingUnhealthy k => w.begin k .mark
  | .advance k =>
      ⟨(w.shared.advance window k (w.calls k)).1, Function.update w.calls k (w.shared.advance window k (w.calls k)).2⟩
  | .swap state => { w with shared := { w.shared with catalogState := state } }
  | .pass d => { w with shared := { w.shared with clock := w.shared.clock + d } }
  | .lose j =>
      match w.shared.streams[j]? with
      | none => w
      | some stream => { w with shared := { w.shared with latched := stream.1 :: w.shared.latched } }
  | .settle j => { w with shared := { w.shared with streams := w.shared.streams.eraseIdx j } }

/-! ### What is assumed of a run, and when it keeps watch -/

namespace RefreshingExecutor

/-- Has the executor of the current generation latched? -/
def CurrentLatched (s : RefreshingExecutor) : Prop := ∃ c ∈ s.current, c.2 ∈ s.latched

/-- A stream that starts now on the executor settles while the executor is still probed. -/
def Watched (window : ProbeWindow) (s : RefreshingExecutor) (executor : ℕ) (start : ℤ) : Prop :=
  (∃ c ∈ s.current, c.2 = executor) ∨
    ∃ p ∈ s.retired, p.1 = executor ∧ start + window.requestTimeout < p.2 + window.retiredProbe

/-- A dispatch of the catalog state retires the current executor. -/
def Retires (s : RefreshingExecutor) (state : ℕ) : Prop := ∃ c ∈ s.current, c.1 ≠ state

end RefreshingExecutor

/-- Every stream settles within the request timeout after its start. -/
def SettlesInTime (window : ProbeWindow) (w : ExecutorThreads) : ExecutorStep → Prop
  | .pass d => ∀ stream ∈ w.shared.streams, w.shared.clock + d ≤ stream.2 + window.requestTimeout
  | _ => True

/-- A latched executor is not retired while a check that started after the latch stands between its sweep and its look
at the current executor; and a dispatch starts its stream before its executor is too old. -/
def KeepsWatch (window : ProbeWindow) (w : ExecutorThreads) : ExecutorStep → Prop
  | .advance k =>
      match w.calls k with
      | .generation state => w.shared.lock = none → w.shared.unhealthy = false → w.shared.CurrentLatched →
          w.shared.Retires state → ∀ j, w.calls j ≠ .readFlag true
      | .startStream executor => w.shared.unhealthy = false → w.shared.Watched window executor w.shared.clock
      | _ => True
  | _ => True

/-! ### The invariant -/

namespace RefreshingExecutor

/-- What the sweep has not looked at yet, keeps, has found latched, or may forget. -/
def Covered (window : ProbeWindow) (s : RefreshingExecutor) (todo kept : List (ℕ × ℤ)) : Prop :=
  ∀ p ∈ s.retired, s.unhealthy = true ∨ p ∈ todo ∨ p ∈ kept ∨ (p.2 + window.retiredProbe ≤ s.clock ∧ p.1 ∉ s.latched)

/-- Where a thread is, the worker is as it must be; a check that is late cannot answer that all is well. -/
def CallOk (window : ProbeWindow) (s : RefreshingExecutor) (k : ℕ) : ExecutorCall → Prop
  | .acquire late now => now ≤ s.clock ∧ (late = true → s.latched ≠ [])
  | .probe late now todo kept => s.lock = some k ∧ now ≤ s.clock ∧ (kept ++ todo).Sublist s.retired ∧
      s.Covered window todo kept ∧
      (late = true → s.unhealthy = true ∨ s.CurrentLatched ∨ ∃ p ∈ todo, p.1 ∈ s.latched)
  | .readFlag late => late = true → s.unhealthy = true ∨ s.CurrentLatched
  | .probeCurrent late executor => late = true → executor ∈ s.latched
  | .answered late healthy => late = true → healthy = false
  | _ => True

/-- What the object and its executors keep: a latch is carried by the flag or by an executor that is still probed, and
so is every stream that may still latch one. -/
structure Ok (window : ProbeWindow) (s : RefreshingExecutor) : Prop where
  retired_lt : ∀ p ∈ s.retired, p.1 < s.composed
  retired_nodup : (s.retired.map Prod.fst).Nodup
  current_lt : ∀ c ∈ s.current, c.2 < s.composed ∧ ∀ p ∈ s.retired, p.1 ≠ c.2
  streams : ∀ q ∈ s.streams, q.2 ≤ s.clock ∧ s.clock ≤ q.2 + window.requestTimeout
  carried : s.unhealthy = true ∨ ∀ e ∈ s.latched, (∃ c ∈ s.current, c.2 = e) ∨ ∃ p ∈ s.retired, p.1 = e
  watched : s.unhealthy = true ∨ ∀ q ∈ s.streams, s.Watched window q.1 q.2

theorem Ok.fresh (window : ProbeWindow) (clock : ℤ) (state : ℕ) : Ok window (.fresh clock state) where
  retired_lt := nofun
  retired_nodup := List.nodup_nil
  current_lt := nofun
  streams := nofun
  carried := .inr nofun
  watched := .inr nofun

section calls
variable {window : ProbeWindow} {s s' : RefreshingExecutor} {k : ℕ} {x : ExecutorCall}

/-- Steps that leave the executors and the lock alone; an executor that is too old does not latch. -/
structure Later (window : ProbeWindow) (s s' : RefreshingExecutor) : Prop where
  clock : s.clock ≤ s'.clock
  unhealthy : s.unhealthy = true → s'.unhealthy = true
  current : s'.current = s.current
  retired : s'.retired = s.retired
  lock : s'.lock = s.lock
  latched : ∀ e ∈ s.latched, e ∈ s'.latched
  old : s'.unhealthy = true ∨ ∀ p ∈ s.retired, p.2 + window.retiredProbe ≤ s.clock → p.1 ∈ s'.latched → p.1 ∈ s.latched

theorem CurrentLatched.later (h : s.CurrentLatched) (hs : Later window s s') : s'.CurrentLatched := by
  obtain ⟨c, hc, hlatched⟩ := h
  exact ⟨c, hs.current ▸ hc, hs.latched _ hlatched⟩

theorem CallOk.later (h : s.CallOk window k x) (hs : Later window s s') : s'.CallOk window k x := by
  cases x with
  | acquire late now =>
    refine ⟨Int.le_trans h.1 hs.clock, fun hlate hnil => h.2 hlate (List.eq_nil_iff_forall_not_mem.mpr fun e he => ?_)⟩
    have hmem := hs.latched e he
    rw [hnil] at hmem
    cases hmem
  | probe late now todo kept =>
    obtain ⟨hlock, hnow, hsub, hcovered, hlate⟩ := h
    refine ⟨hs.lock.trans hlock, Int.le_trans hnow hs.clock, hs.retired ▸ hsub, fun p hp => ?_, fun hl => ?_⟩
    · rw [hs.retired] at hp
      rcases hcovered p hp with hu | htodo | hkept | ⟨hage, hclean⟩
      · exact .inl (hs.unhealthy hu)
      · exact .inr (.inl htodo)
      · exact .inr (.inr (.inl hkept))
      · rcases hs.old with hu | hold
        · exact .inl hu
        · exact .inr (.inr (.inr ⟨Int.le_trans hage hs.clock, fun hmem => hclean (hold p hp hage hmem)⟩))
    · rcases hlate hl with hu | hcurrent | ⟨p, hp, hlatched⟩
      · exact .inl (hs.unhealthy hu)
      · exact .inr (.inl (hcurrent.later hs))
      · exact .inr (.inr ⟨p, hp, hs.latched _ hlatched⟩)
  | readFlag late => exact fun hl => (h hl).imp hs.unhealthy fun hcurrent => hcurrent.later hs
  | probeCurrent late executor => exact fun hl => hs.latched _ (h hl)
  | answered late healthy => exact h
  | _ => trivial

/-- Steps that change the executors under the lock: no other thread is sweeping, and the flag and the latch of the
current executor stay. -/
theorem CallOk.locked (h : s.CallOk window k x) (hlock : s.lock ≠ some k) (hclock : s'.clock = s.clock)
    (hlatched : s'.latched = s.latched)
    (hflag : ∀ late, x = .readFlag late → late = true → s.unhealthy = true ∨ s.CurrentLatched →
      s'.unhealthy = true ∨ s'.CurrentLatched) : s'.CallOk window k x := by
  cases x with
  | acquire late now => exact ⟨hclock ▸ h.1, hlatched ▸ h.2⟩
  | probe late now todo kept => exact absurd h.1 hlock
  | readFlag late => exact fun hl => hflag late rfl hl (h hl)
  | probeCurrent late executor => exact fun hl => hlatched ▸ h hl
  | answered late healthy => exact h
  | _ => trivial

/-! ### One step of a thread -/

/-- A thread's step keeps what holds of the object, of the thread and of every other one. -/
def Kept (window : ProbeWindow) (s : RefreshingExecutor) (k : ℕ) (next : RefreshingExecutor × ExecutorCall)
    (others : ExecutorCall → Prop) : Prop :=
  Ok window next.1 ∧ next.1.CallOk window k next.2 ∧
    ∀ j y, j ≠ k → others y → s.CallOk window j y → next.1.CallOk window j y

variable {others : ExecutorCall → Prop}

theorem kept_self (hok : Ok window s) (hx : s.CallOk window k x) :
    Kept window s k (s, x) others := ⟨hok, hx, fun _ _ _ _ h => h⟩

theorem kept_later (hs : Later window s s') (hok : Ok window s')
    (hx : s'.CallOk window k x) : Kept window s k (s', x) others := ⟨hok, hx, fun _ _ _ _ h => h.later hs⟩

theorem Ok.compose (hok : Ok window s) (state : ℕ) (hnone : s.current = none) :
    Ok window { s with current := some (state, s.composed), composed := s.composed + 1 } where
  retired_lt p hp := Nat.lt_succ_of_lt (hok.retired_lt p hp)
  retired_nodup := hok.retired_nodup
  current_lt := by
    rintro _ ⟨⟩
    exact ⟨Nat.lt_succ_self _, fun p hp => Nat.ne_of_lt (hok.retired_lt p hp)⟩
  streams := hok.streams
  carried := hok.carried.imp_right fun h e he => .inr ((h e he).resolve_left fun ⟨c, hc, _⟩ => by simp [hnone] at hc)
  watched := hok.watched.imp_right fun h q hq => .inr ((h q hq).resolve_left fun ⟨c, hc, _⟩ => by simp [hnone] at hc)

/-- The current executor retires: a stream that it has began before, and settles within the window. -/
theorem Ok.retire (hok : Ok window s) (state state' executor : ℕ) (hcurrent : s.current = some (state', executor)) :
    Ok window { s with
      current := some (state, s.composed)
      composed := s.composed + 1
      retired := s.retired ++ [(executor, s.clock)] } where
  retired_lt p hp := by
    rcases List.mem_append.mp hp with hp | hp
    · exact Nat.lt_succ_of_lt (hok.retired_lt p hp)
    · rw [List.mem_singleton.mp hp]
      exact Nat.lt_succ_of_lt (hok.current_lt _ hcurrent).1
  retired_nodup := by
    rw [List.map_append, List.nodup_append]
    refine ⟨hok.retired_nodup, List.nodup_singleton _, ?_⟩
    rintro a ha b hb rfl
    obtain ⟨p, hp, hpa⟩ := List.mem_map.mp ha
    rw [List.map_singleton, List.mem_singleton] at hb
    exact (hok.current_lt _ hcurrent).2 p hp (hpa.trans hb)
  current_lt := by
    rintro _ ⟨⟩
    refine ⟨Nat.lt_succ_self _, fun p hp => ?_⟩
    rcases List.mem_append.mp hp with hp | hp
    · exact Nat.ne_of_lt (hok.retired_lt p hp)
    · rw [List.mem_singleton.mp hp]
      exact Nat.ne_of_lt (hok.current_lt _ hcurrent).1
  streams := hok.streams
  carried := hok.carried.imp_right fun h e he => by
    rcases h e he with ⟨c, hc, hce⟩ | ⟨p, hp, hpe⟩
    · rw [hcurrent] at hc
      cases hc
      exact .inr ⟨_, List.mem_append_right _ (List.mem_singleton_self _), hce⟩
    · exact .inr ⟨p, List.mem_append_left _ hp, hpe⟩
  watched := hok.watched.imp_right fun h q hq => by
    rcases h q hq with ⟨c, hc, hcq⟩ | ⟨p, hp, hpq⟩
    · rw [hcurrent] at hc
      cases hc
      refine .inr ⟨_, List.mem_append_right _ (List.mem_singleton_self _), hcq, ?_⟩
      have hstart := (hok.streams q hq).1
      have hexceeds := window.exceeds
      dsimp only
      omega
    · exact .inr ⟨p, List.mem_append_left _ hp, hpq⟩

theorem kept_generation (hok : Ok window s) (state : ℕ) (hlock : s.lock = none) :
    Kept window s k ((s.generation state).1, .startStream (s.generation state).2) fun y =>
      s.unhealthy = false → s.CurrentLatched → s.Retires state → y ≠ .readFlag true := by
  have hfree : ∀ j, s.lock ≠ some j := fun j h => by rw [hlock] at h; cases h
  unfold generation
  cases hcurrent : s.current with
  | none =>
    refine ⟨hok.compose state hcurrent, trivial, fun j y _ _ hy => hy.locked (hfree j) rfl rfl ?_⟩
    rintro late - - (hu | ⟨c, hc, -⟩)
    · exact .inl hu
    · rw [hcurrent] at hc
      cases hc
  | some c =>
    obtain ⟨state', executor⟩ := c
    dsimp only
    split
    · exact kept_self hok trivial
    · rename_i hne
      refine ⟨hok.retire state state' executor hcurrent, trivial, fun j y _ hothers hy =>
        hy.locked (hfree j) rfl rfl ?_⟩
      rintro late rfl rfl hflag
      cases hu : s.unhealthy with
      | true => exact .inl rfl
      | false =>
        have hlatched := hflag.resolve_left (by simp [hu])
        exact absurd rfl (hothers hu hlatched ⟨_, hcurrent, hne⟩)

theorem kept_startStream (hok : Ok window s) {executor : ℕ}
    (hwatched : s.unhealthy = false → s.Watched window executor s.clock) :
    Kept window s k ({ s with streams := s.streams ++ [(executor, s.clock)] }, .done) others := by
  have hlater : Later window s { s with streams := s.streams ++ [(executor, s.clock)] } :=
    ⟨Int.le_refl _, id, rfl, rfl, rfl, fun _ h => h, .inr fun _ _ _ h => h⟩
  refine kept_later hlater ?_ trivial
  refine ⟨hok.retired_lt, hok.retired_nodup, hok.current_lt, fun q hq => ?_, hok.carried, ?_⟩
  · rcases List.mem_append.mp hq with hq | hq
    · exact hok.streams q hq
    · rw [List.mem_singleton.mp hq]
      have hnonneg := window.nonneg
      dsimp only
      omega
  · cases hu : s.unhealthy with
    | true => exact .inl rfl
    | false =>
      refine .inr fun q hq => ?_
      rcases List.mem_append.mp hq with hq | hq
      · exact hok.watched.resolve_left (by simp [hu]) q hq
      · rw [List.mem_singleton.mp hq]
        exact hwatched hu

/-- **A check begins its sweep**: a latch from before is where the sweep will look, or on the current executor. -/
theorem kept_acquire (hok : Ok window s) {late : Bool} {now : ℤ} (hlock : s.lock = none)
    (hx : s.CallOk window k (.acquire late now)) :
    Kept window s k ({ s with lock := some k }, .probe late now s.retired []) others := by
  refine ⟨⟨hok.retired_lt, hok.retired_nodup, hok.current_lt, hok.streams, hok.carried, hok.watched⟩, ?_, ?_⟩
  · refine ⟨rfl, hx.1, .refl _, fun p hp => .inr (.inl hp), fun hl => ?_⟩
    obtain ⟨e, he⟩ := List.exists_mem_of_ne_nil _ (hx.2 hl)
    refine hok.carried.imp_right fun h => ?_
    rcases h e he with ⟨c, hc, rfl⟩ | ⟨p, hp, rfl⟩
    · exact .inl ⟨c, hc, he⟩
    · exact .inr ⟨p, hp, he⟩
  · intro j y _ _ hy
    exact hy.locked (by rw [hlock]; simp) rfl rfl fun _ _ _ h => h

theorem kept_probe (hok : Ok window s) {late : Bool} {now : ℤ} {p : ℕ × ℤ} {todo kept : List (ℕ × ℤ)}
    (hx : s.CallOk window k (.probe late now (p :: todo) kept)) :
    Kept window s k (s.advance window k (.probe late now (p :: todo) kept)) others := by
  obtain ⟨hlock, hnow, hsub, hcovered, hlate⟩ := hx
  have hdrop : (kept ++ todo).Sublist s.retired := (List.Sublist.append_left (List.sublist_cons_self p todo) kept).trans hsub
  rw [advance]
  split
  · refine kept_later ⟨Int.le_refl _, fun _ => rfl, rfl, rfl, rfl, fun _ h => h, .inl rfl⟩ ?_ ?_
    · exact ⟨hok.retired_lt, hok.retired_nodup, hok.current_lt, hok.streams, .inl rfl, .inl rfl⟩
    · exact ⟨hlock, hnow, hdrop, fun _ _ => .inl rfl, fun _ => .inl rfl⟩
  · rename_i hclean
    have hlate' : late = true → s.unhealthy = true ∨ s.CurrentLatched ∨ ∃ q ∈ todo, q.1 ∈ s.latched := fun hl => by
      refine (hlate hl).imp_right (Or.imp_right ?_)
      rintro ⟨q, hq, hlatched⟩
      rcases List.mem_cons.mp hq with rfl | hq
      · exact absurd hlatched hclean
      · exact ⟨q, hq, hlatched⟩
    refine kept_self hok ?_
    cases hkeeps : keeps window now p with
    | true =>
      refine ⟨hlock, hnow, by simpa using hsub, fun q hq => ?_, hlate'⟩
      rcases hcovered q hq with hu | htodo | hkept | hold
      · exact .inl hu
      · rcases List.mem_cons.mp htodo with rfl | htodo
        · exact .inr (.inr (.inl (by simp)))
        · exact .inr (.inl htodo)
      · exact .inr (.inr (.inl (by simp [hkept])))
      · exact .inr (.inr (.inr hold))
    | false =>
      refine ⟨hlock, hnow, hdrop, fun q hq => ?_, hlate'⟩
      rcases hcovered q hq with hu | htodo | hkept | hold
      · exact .inl hu
      · rcases List.mem_cons.mp htodo with rfl | htodo
        · have hage := of_decide_eq_false hkeeps
          exact .inr (.inr (.inr ⟨by omega, hclean⟩))
        · exact .inr (.inl htodo)
      · exact .inr (.inr (.inl hkept))
      · exact .inr (.inr (.inr hold))

/-- **A check ends its sweep**: what it forgets has not latched, and no stream can make it. -/
theorem kept_swept (hok : Ok window s) {late : Bool} {now : ℤ} {kept : List (ℕ × ℤ)}
    (hx : s.CallOk window k (.probe late now [] kept)) :
    Kept window s k ({ s with retired := kept, lock := none }, .readFlag late) others := by
  obtain ⟨hlock, hnow, hsub, hcovered, hlate⟩ := hx
  rw [List.append_nil] at hsub
  refine ⟨⟨fun p hp => hok.retired_lt p (hsub.subset hp), hok.retired_nodup.sublist (hsub.map _), fun c hc =>
    ⟨(hok.current_lt c hc).1, fun p hp => (hok.current_lt c hc).2 p (hsub.subset hp)⟩, hok.streams, ?_, ?_⟩, ?_, ?_⟩
  · cases hu : s.unhealthy with
    | true => exact .inl rfl
    | false =>
      refine .inr fun e he => (hok.carried.resolve_left (by simp [hu]) e he).imp_right ?_
      rintro ⟨p, hp, rfl⟩
      rcases hcovered p hp with h | h | h | h
      · rw [hu] at h
        cases h
      · cases h
      · exact ⟨p, h, rfl⟩
      · exact absurd he h.2
  · cases hu : s.unhealthy with
    | true => exact .inl rfl
    | false =>
      refine .inr fun q hq => (hok.watched.resolve_left (by simp [hu]) q hq).imp_right ?_
      rintro ⟨p, hp, hpq, hage⟩
      rcases hcovered p hp with h | h | h | h
      · rw [hu] at h
        cases h
      · cases h
      · exact ⟨p, h, hpq, hage⟩
      · have hsettles := (hok.streams q hq).2
        have hold := h.1
        omega
  · refine fun hl => (hlate hl).imp_right fun h => h.resolve_right ?_
    rintro ⟨p, hp, -⟩
    cases hp
  · intro j y hne _ hy
    refine hy.locked (fun h => hne ?_) rfl rfl fun _ _ _ h => h
    rw [hlock] at h
    exact (Option.some.inj h).symm

theorem kept_advance (hok : Ok window s) (hx : s.CallOk window k x)
    (hstart : ∀ executor, x = .startStream executor → s.unhealthy = false → s.Watched window executor s.clock) :
    Kept window s k (s.advance window k x) fun y => ∀ state, x = .generation state → s.lock = none →
      s.unhealthy = false → s.CurrentLatched → s.Retires state → y ≠ .readFlag true := by
  cases x with
  | answered late healthy => exact kept_self hok hx
  | generation state =>
    rw [advance]
    split
    · rename_i hlock
      obtain ⟨h1, h2, h3⟩ := kept_generation (k := k) hok state hlock
      exact ⟨h1, h2, fun j y hne hothers => h3 j y hne (hothers state rfl hlock)⟩
    · exact kept_self hok trivial
  | startStream executor => exact kept_startStream hok (hstart executor rfl)
  | readClock => exact kept_self hok ⟨Int.le_refl _, of_decide_eq_true⟩
  | acquire late now =>
    rw [advance]
    split
    · rename_i hlock
      exact kept_acquire hok hlock hx
    · exact kept_self hok hx
  | probe late now todo kept =>
    cases todo with
    | nil => exact kept_swept hok hx
    | cons p todo => exact kept_probe hok hx
  | readFlag late =>
    rw [advance]
    split
    · split
      · exact kept_self hok fun _ => rfl
      · rename_i hflag
        cases hcurrent : s.current with
        | none =>
          refine kept_self hok fun hl => ?_
          rcases hx hl with hu | ⟨c, hc, -⟩
          · exact absurd hu hflag
          · rw [hcurrent] at hc
            cases hc
        | some c =>
          refine kept_self hok fun hl => ?_
          obtain ⟨d, hd, hlatched⟩ := (hx hl).resolve_left hflag
          rw [hcurrent] at hd
          cases hd
          exact hlatched
    · exact kept_self hok hx
  | probeCurrent late executor => exact kept_self hok fun hl => by simpa using hx hl
  | mark =>
    rw [advance]
    split
    · refine kept_later ⟨Int.le_refl _, fun _ => rfl, rfl, rfl, rfl, fun _ h => h, .inl rfl⟩ ?_ trivial
      exact ⟨hok.retired_lt, hok.retired_nodup, hok.current_lt, hok.streams, .inl rfl, .inl rfl⟩
    · exact kept_self hok trivial
  | _ => exact kept_self hok trivial

end calls

end RefreshingExecutor

end Experiential.Gateway
