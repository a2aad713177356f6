import Experiential.Gateway.ExecutorHealth

/-! # No lost write is forgotten

Runs of the threads around `RefreshingGatewayExecutor`, with catalog swaps, time, streams that lose a write and streams
that settle. `lost_write_never_forgotten` says when a check that starts after a latch answers that the worker is
unhealthy; `swap_hides_latch` is a run in which a dispatch retires the latched executor in the middle of the check. -/

namespace Experiential.Gateway

/-! ### Runs -/

open RefreshingExecutor

section runs
variable {window : ProbeWindow} {w : ExecutorThreads} {k : ℕ}

/-- The worker and every call are as they must be. -/
structure ThreadsOk (window : ProbeWindow) (w : ExecutorThreads) : Prop where
  shared : Ok window w.shared
  calls : ∀ k, w.shared.CallOk window k (w.calls k)

theorem ThreadsOk.fresh (window : ProbeWindow) (clock : ℤ) (state : ℕ) : ThreadsOk window (.fresh clock state) :=
  ⟨.fresh window clock state, fun _ => trivial⟩

theorem ThreadsOk.begin (h : ThreadsOk window w) {x : ExecutorCall} (hx : w.shared.CallOk window k x) :
    ThreadsOk window (w.begin k x) := by
  unfold ExecutorThreads.begin
  split
  · refine ⟨h.shared, fun j => ?_⟩
    dsimp only
    by_cases hjk : j = k
    · subst hjk
      rw [Function.update_self]
      exact hx
    · rw [Function.update_of_ne hjk]
      exact h.calls j
  · exact h

theorem ThreadsOk.later (h : ThreadsOk window w) {s : RefreshingExecutor} (hs : Later window w.shared s)
    (hok : Ok window s) : ThreadsOk window { w with shared := s } := ⟨hok, fun k => (h.calls k).later hs⟩

/-- A stream that is still watched cannot be that of an executor which is too old. -/
theorem Watched.young (hok : Ok window w.shared) {q p : ℕ × ℤ} (hq : q ∈ w.shared.streams)
    (hwatched : w.shared.Watched window q.1 q.2) (hp : p ∈ w.shared.retired) (hpq : p.1 = q.1) :
    w.shared.clock < p.2 + window.retiredProbe := by
  rcases hwatched with ⟨c, hc, hcq⟩ | ⟨r, hr, hrq, hage⟩
  · exact absurd (hpq.trans hcq.symm) ((hok.current_lt c hc).2 p hp)
  · have hsame : p = r := List.inj_on_of_nodup_map hok.retired_nodup hp hr (hpq.trans hrq.symm)
    have hsettles := (hok.streams q hq).2
    subst hsame
    omega

theorem ThreadsOk.step (h : ThreadsOk window w) (step : ExecutorStep) (hsettles : SettlesInTime window w step)
    (hwatch : KeepsWatch window w step) : ThreadsOk window (executorStep window w step) := by
  cases step with
  | advance k =>
    have hstart : ∀ executor, w.calls k = .startStream executor → w.shared.unhealthy = false →
        w.shared.Watched window executor w.shared.clock := fun executor hx hu => by
      simp only [KeepsWatch, hx] at hwatch
      exact hwatch hu
    obtain ⟨hshared, hown, hothers⟩ := kept_advance h.shared (h.calls k) hstart
    refine ⟨hshared, fun j => ?_⟩
    dsimp only [executorStep]
    by_cases hjk : j = k
    · subst hjk
      rw [Function.update_self]
      exact hown
    · rw [Function.update_of_ne hjk]
      refine hothers j _ hjk (fun state hx hlock hu hlatched hretires => ?_) (h.calls j)
      simp only [KeepsWatch, hx] at hwatch
      exact hwatch hlock hu hlatched hretires j
  | swap state =>
    refine h.later ⟨Int.le_refl _, id, rfl, rfl, rfl, fun _ he => he, .inr fun _ _ _ he => he⟩ ?_
    exact ⟨h.shared.retired_lt, h.shared.retired_nodup, h.shared.current_lt, h.shared.streams, h.shared.carried,
      h.shared.watched⟩
  | pass d =>
    refine h.later ⟨by dsimp only; omega, id, rfl, rfl, rfl, fun _ he => he, .inr fun _ _ _ he => he⟩ ?_
    refine ⟨h.shared.retired_lt, h.shared.retired_nodup, h.shared.current_lt, fun q hq => ?_, h.shared.carried,
      h.shared.watched⟩
    have hstart := (h.shared.streams q hq).1
    exact ⟨by dsimp only; omega, hsettles q hq⟩
  | lose j =>
    rw [executorStep]
    split
    · exact h
    · rename_i stream hstream
      have hmem : stream ∈ w.shared.streams := List.mem_of_getElem? hstream
      refine h.later ⟨Int.le_refl _, id, rfl, rfl, rfl, fun _ he => List.mem_cons_of_mem _ he, ?_⟩ ?_
      · refine h.shared.watched.imp_right fun hwatched p hp hage he => ?_
        rcases List.mem_cons.mp he with heq | he
        · have hyoung := Watched.young h.shared hmem (hwatched stream hmem) hp heq
          omega
        · exact he
      · refine ⟨h.shared.retired_lt, h.shared.retired_nodup, h.shared.current_lt, h.shared.streams, ?_,
          h.shared.watched⟩
        cases hu : w.shared.unhealthy with
        | true => exact .inl rfl
        | false =>
          refine .inr fun e he => ?_
          rcases List.mem_cons.mp he with rfl | he
          · refine (h.shared.watched.resolve_left (by simp [hu]) stream hmem).imp_right ?_
            rintro ⟨p, hp, hpe, -⟩
            exact ⟨p, hp, hpe⟩
          · exact h.shared.carried.resolve_left (by simp [hu]) e he
  | settle j =>
    refine h.later ⟨Int.le_refl _, id, rfl, rfl, rfl, fun _ he => he, .inr fun _ _ _ he => he⟩ ?_
    exact ⟨h.shared.retired_lt, h.shared.retired_nodup, h.shared.current_lt,
      fun q hq => h.shared.streams q (List.mem_of_mem_eraseIdx hq), h.shared.carried,
      h.shared.watched.imp_right fun hwatched q hq => hwatched q (List.mem_of_mem_eraseIdx hq)⟩
  | _ => exact h.begin trivial

theorem ThreadsOk.run (steps : List ExecutorStep) (h : ThreadsOk window w)
    (hsettles : StepsMeet (executorStep window) (SettlesInTime window) w steps)
    (hwatch : StepsMeet (executorStep window) (KeepsWatch window) w steps) :
    ThreadsOk window (run (executorStep window) w steps) :=
  run_invariant (fun _ step hstep h => h.step step hstep.1 hstep.2) steps w h (stepsMeet_and.mpr ⟨hsettles, hwatch⟩)

/-! ### Checks that start after a latch -/

@[simp] theorem shared_begin (k : ℕ) (x : ExecutorCall) : (w.begin k x).shared = w.shared := by
  unfold ExecutorThreads.begin
  split <;> rfl

@[simp] theorem latched_generation (s : RefreshingExecutor) (state : ℕ) : (s.generation state).1.latched = s.latched := by
  unfold generation
  cases s.current with
  | none => rfl
  | some c =>
    dsimp only
    split <;> rfl

@[simp] theorem unhealthy_generation (s : RefreshingExecutor) (state : ℕ) :
    (s.generation state).1.unhealthy = s.unhealthy := by
  unfold generation
  cases s.current with
  | none => rfl
  | some c =>
    dsimp only
    split <;> rfl

theorem latched_advance (window : ProbeWindow) (k : ℕ) (s : RefreshingExecutor) (x : ExecutorCall) : (s.advance window k x).1.latched = s.latched := by
  cases x with
  | probe late now todo kept =>
    cases todo with
    | nil => rfl
    | cons p todo =>
      rw [advance]
      split <;> rfl
  | readFlag late =>
    rw [advance]
    split
    · split
      · rfl
      · split <;> rfl
    · rfl
  | _ =>
    rw [advance]
    try (split <;> simp)

theorem latched_step (step : ExecutorStep) : w.shared.latched ⊆ (executorStep window w step).shared.latched := by
  cases step with
  | lose j =>
    rw [executorStep]
    split
    · exact List.Subset.refl _
    · exact List.subset_cons_self _ _
  | advance k => exact (latched_advance window k w.shared (w.calls k)).symm ▸ List.Subset.refl _
  | _ => simp [executorStep]

/-- A thread is moved by its own steps only, once it has made a call. -/
theorem calls_step (window : ProbeWindow) (step : ExecutorStep) (hk : w.calls k ≠ .idle) :
    (executorStep window w step).calls k = w.calls k ∨
      (executorStep window w step).calls k = (w.shared.advance window k (w.calls k)).2 := by
  have hbegin : ∀ j x, (w.begin j x).calls k = w.calls k := fun j x => by
    unfold ExecutorThreads.begin
    split
    · rename_i hidle
      have hne : k ≠ j := fun h => hk (h ▸ hidle)
      dsimp only
      rw [Function.update_of_ne hne]
    · rfl
  cases step with
  | start j | accountingHealthy j | markAccountingUnhealthy j => exact .inl (hbegin j _)
  | advance j =>
    dsimp only [executorStep]
    by_cases hkj : k = j
    · subst hkj
      exact .inr (Function.update_self ..)
    · exact .inl (Function.update_of_ne hkj ..)
  | lose j =>
    rw [executorStep]
    split <;> exact .inl rfl
  | _ => exact .inl rfl

/-- A check is under way that began when an executor had latched. -/
def LateCheck : ExecutorCall → Prop
  | .readClock => True
  | .acquire late _ | .probe late _ _ _ | .readFlag late | .probeCurrent late _ | .answered late _ => late = true
  | _ => False

theorem LateCheck.advance {s : RefreshingExecutor} {x : ExecutorCall} (hx : LateCheck x) (hlatched : s.latched ≠ []) :
    LateCheck (s.advance window k x).2 := by
  cases x with
  | readClock => exact decide_eq_true hlatched
  | acquire late now =>
    rw [RefreshingExecutor.advance]
    split <;> exact hx
  | probe late now todo kept =>
    cases todo with
    | nil => exact hx
    | cons p todo =>
      rw [RefreshingExecutor.advance]
      split <;> exact hx
  | readFlag late =>
    rw [RefreshingExecutor.advance]
    split
    · split
      · exact hx
      · split <;> exact hx
    · exact hx
  | probeCurrent late executor | answered late healthy => exact hx
  | _ => exact hx.elim

/-- Once it has begun behind a latch, a check stays late. -/
theorem lateCheck_run (window : ProbeWindow) (steps : List ExecutorStep) (hlatched : w.shared.latched ≠ []) (hlate : LateCheck (w.calls k)) :
    LateCheck ((run (executorStep window) w steps).calls k) := by
  refine (run_invariant_of_forall
    (I := fun w : ExecutorThreads => w.shared.latched ≠ [] ∧ LateCheck (w.calls k)) ?_ steps w ⟨hlatched, hlate⟩).2
  rintro w step ⟨hlatched, hlate⟩
  obtain ⟨e, he⟩ := List.exists_mem_of_ne_nil _ hlatched
  refine ⟨List.ne_nil_of_mem (latched_step step he), ?_⟩
  rcases calls_step window step (fun h => by rw [h] at hlate; exact hlate) with heq | heq
  · rw [heq]
    exact hlate
  · rw [heq]
    exact hlate.advance hlatched

/-! ### Workers without a lost write -/

/-- The flag and the answers have a reason. -/
def Founded (w : ExecutorThreads) : Prop :=
  (w.shared.unhealthy = true → w.shared.latched ≠ []) ∧
    ∀ k, w.calls k ≠ .mark ∧ ∀ late, w.calls k = .answered late false → w.shared.latched ≠ []

/-- `mark_accounting_unhealthy` is not called. -/
def Unmarked : ExecutorStep → Prop
  | .markAccountingUnhealthy _ => False
  | _ => True

theorem Founded.advance (window : ProbeWindow) (h : Founded w) (k : ℕ) :
    ((w.shared.advance window k (w.calls k)).1.unhealthy = true → w.shared.latched ≠ []) ∧
      (w.shared.advance window k (w.calls k)).2 ≠ .mark ∧
      ∀ late, (w.shared.advance window k (w.calls k)).2 = .answered late false → w.shared.latched ≠ [] := by
  have hk := h.2 k
  cases hx : w.calls k with
  | mark => exact absurd hx hk.1
  | generation state =>
    rw [RefreshingExecutor.advance]
    split
    · exact ⟨by rw [unhealthy_generation]; exact h.1, by simp, by simp⟩
    · exact ⟨h.1, by simp, by simp⟩
  | acquire late now =>
    rw [RefreshingExecutor.advance]
    split <;> exact ⟨h.1, by simp, by simp⟩
  | probe late now todo kept =>
    cases todo with
    | nil => exact ⟨h.1, by simp [RefreshingExecutor.advance], by simp [RefreshingExecutor.advance]⟩
    | cons p todo =>
      rw [RefreshingExecutor.advance]
      split
      · rename_i hmem
        exact ⟨fun _ => List.ne_nil_of_mem hmem, by simp, by simp⟩
      · exact ⟨h.1, by simp, by simp⟩
  | readFlag late =>
    rw [RefreshingExecutor.advance]
    split
    · split
      · rename_i hu
        exact ⟨h.1, by simp, fun _ _ => h.1 hu⟩
      · split <;> exact ⟨h.1, by simp, by simp⟩
    · exact ⟨h.1, by simp, by simp⟩
  | probeCurrent late executor =>
    refine ⟨h.1, by simp [RefreshingExecutor.advance], fun late' heq => ?_⟩
    simp only [RefreshingExecutor.advance, ExecutorCall.answered.injEq, decide_eq_false_iff_not, not_not] at heq
    exact List.ne_nil_of_mem heq.2
  | answered late healthy =>
    refine ⟨h.1, by simp [RefreshingExecutor.advance], fun late' heq => hk.2 late ?_⟩
    cases heq
    exact hx
  | _ => exact ⟨h.1, by simp [RefreshingExecutor.advance], by simp [RefreshingExecutor.advance]⟩

theorem Founded.begin (h : Founded w) (k : ℕ) {x : ExecutorCall} (hmark : x ≠ .mark)
    (hanswer : ∀ late, x ≠ .answered late false) : Founded (w.begin k x) := by
  unfold ExecutorThreads.begin
  split
  · refine ⟨h.1, fun j => ?_⟩
    dsimp only
    by_cases hjk : j = k
    · subst hjk
      rw [Function.update_self]
      exact ⟨hmark, fun late heq => absurd heq (hanswer late)⟩
    · rw [Function.update_of_ne hjk]
      exact h.2 j
  · exact h

theorem Founded.step (h : Founded w) (step : ExecutorStep) (hstep : Unmarked step) :
    Founded (executorStep window w step) := by
  cases step with
  | start k | accountingHealthy k => exact h.begin k nofun nofun
  | markAccountingUnhealthy k => exact hstep.elim
  | advance k =>
    obtain ⟨hflag, hmark, hanswer⟩ := Founded.advance window h k
    have hsame := latched_advance window k w.shared (w.calls k)
    refine ⟨fun hu => ?_, fun j => ?_⟩
    · dsimp only [executorStep] at hu ⊢
      rw [hsame]
      exact hflag hu
    · dsimp only [executorStep]
      rw [hsame]
      by_cases hjk : j = k
      · subst hjk
        rw [Function.update_self]
        exact ⟨hmark, hanswer⟩
      · rw [Function.update_of_ne hjk]
        exact h.2 j
  | lose j =>
    rw [executorStep]
    split
    · exact h
    · exact ⟨fun _ => List.cons_ne_nil _ _, fun k => ⟨(h.2 k).1, fun _ _ => List.cons_ne_nil _ _⟩⟩
  | _ => exact h

end runs

/-- **A lost write is not forgotten.**  A worker whose executors have not latched, and which was not marked, always
answers that it is healthy. In a run that keeps watch, a check that starts once an executor has latched answers that it
is not. -/
theorem lost_write_never_forgotten (window : ProbeWindow) (clock : ℤ) (state : ℕ) (steps : List ExecutorStep)
    (hsettles : StepsMeet (executorStep window) (SettlesInTime window) (.fresh clock state) steps) :
    let worker := run (executorStep window) (.fresh clock state)
    ((∀ step ∈ steps, Unmarked step) → (worker steps).shared.latched = [] → ∀ k late healthy,
      (worker steps).calls k = .answered late healthy → healthy = true) ∧
    (StepsMeet (executorStep window) (KeepsWatch window) (.fresh clock state) steps →
      ∀ before k after late healthy, steps = before ++ .accountingHealthy k :: after →
        (worker before).calls k = .idle → (worker before).shared.latched ≠ [] →
        (worker steps).calls k = .answered late healthy → healthy = false) := by
  refine ⟨fun hunmarked hnone k late healthy hx => ?_, fun hwatch before k after late healthy hsteps hidle hlatched hx => ?_⟩
  · have hfounded : Founded (run (executorStep window) (.fresh clock state) steps) := by
      refine run_invariant (C := fun _ => Unmarked) (fun _ step hstep h => h.step step hstep) steps _ ⟨nofun, ?_⟩
        (stepsMeet_of_forall _ hunmarked)
      exact fun k => ⟨nofun, nofun⟩
    cases healthy with
    | true => rfl
    | false => exact absurd hnone ((hfounded.2 k).2 late hx)
  · have hok := (ThreadsOk.fresh window clock state).run steps hsettles hwatch
    have hcall := hok.calls k
    rw [hx] at hcall
    refine hcall ?_
    subst hsteps
    rw [run_append, run_cons] at hx
    have hcheck : (executorStep window (run (executorStep window) (.fresh clock state) before)
        (.accountingHealthy k)).calls k = .readClock := by
      rw [executorStep, ExecutorThreads.begin, if_pos hidle]
      exact Function.update_self ..
    have hlate := lateCheck_run (k := k) window after
      (w := executorStep window (run (executorStep window) (.fresh clock state) before) (.accountingHealthy k))
      (by rw [executorStep, shared_begin]; exact hlatched) (by rw [hcheck]; exact trivial)
    rw [hx] at hlate
    exact hlate

/-! ### A swap during a check -/

def twoMinutes : ProbeWindow := ⟨120, 180, by decide, by decide⟩

/-- Thread `k` makes its next `n` steps. -/
def steps (k n : ℕ) : List ExecutorStep := List.replicate n (.advance k)

/-- A dispatch after a swap retires the executor of a stream, which then loses its write. -/
def retiredThenLatched : List ExecutorStep :=
  (.start 0 :: steps 0 3) ++ (.swap 1 :: .start 2 :: steps 2 3) ++ [.pass 60, .lose 0]

/-- A check that starts then is not disturbed. -/
theorem lost_write_never_forgotten_once :
    (run (executorStep twoMinutes) (.fresh 0 0) (retiredThenLatched ++ .accountingHealthy 1 :: steps 1 5)).calls 1 =
        .answered true false ∧
      ∀ healthy, (run (executorStep twoMinutes) (.fresh 0 0)
          (retiredThenLatched ++ .accountingHealthy 1 :: steps 1 5)).calls 1 =
        .answered true healthy → healthy = false := by
  have hsettles : StepsMeet (executorStep twoMinutes) (SettlesInTime twoMinutes) (.fresh 0 0)
      (retiredThenLatched ++ .accountingHealthy 1 :: steps 1 5) :=
    ⟨trivial, trivial, trivial, trivial, trivial, trivial, trivial, trivial, trivial,
      (by decide : ∀ stream ∈ [((0 : ℕ), (0 : ℤ)), (1, 0)], 0 + 60 ≤ stream.2 + 120), trivial, trivial, trivial, trivial,
      trivial, trivial, trivial, trivial⟩
  refine ⟨by decide, fun healthy hx => ?_⟩
  refine (lost_write_never_forgotten twoMinutes 0 0 _ hsettles).2 ?_ retiredThenLatched 1 (steps 1 5) true healthy rfl rfl
    (by decide) hx
  refine ⟨trivial, trivial, fun _ _ hlatched => ?_, fun _ => .inl ⟨(0, 0), rfl, rfl⟩, trivial, trivial, trivial,
    fun _ _ hlatched => ?_, fun _ => .inl ⟨(1, 1), rfl, rfl⟩, trivial, trivial, trivial, trivial, trivial, trivial, trivial,
    trivial, trivial⟩
  · obtain ⟨c, hc, -⟩ := hlatched
    cases hc
  · obtain ⟨c, -, hc⟩ := hlatched
    cases hc

/-- The executor of the first generation loses a write; a check then starts and sweeps. -/
def latchedThenChecked : List ExecutorStep :=
  (.start 0 :: steps 0 3) ++ [.lose 0, .accountingHealthy 1] ++ steps 1 3

/-- A dispatch of the next generation retires the executor between the sweep and the look at the current one. -/
def swappedDuringCheck : List ExecutorStep :=
  latchedThenChecked ++ [.swap 1, .start 2] ++ steps 2 2 ++ steps 1 2

theorem swap_hides_latch :
    (run (executorStep twoMinutes) (.fresh 0 0) swappedDuringCheck).shared.latched = [0] ∧
      (run (executorStep twoMinutes) (.fresh 0 0) swappedDuringCheck).calls 1 = .answered true true := by
  decide

end Experiential.Gateway
