import Experiential.Lib.Run
import Mathlib.Logic.Relation

/-! # Row locks and deadlock

Transactions that lock rows of type `ρ` one after another and hold them until they end. A lock
has one of PostgreSQL's four row modes. `transactionStep` runs any number of transactions in any
interleaving: a transaction takes its next lock when no other one holds a conflicting lock on
the row, and waits otherwise. `Deadlocked` is a cycle of transactions each waiting for a row the
next one holds.

`not_deadlocked` is the order argument: when every waiting transaction holds rows of lower levels
only, there is no cycle. Rows of one level may be taken in any order by the holder of one given
mutex. `run_not_deadlocked` brings it to runs: transactions of ascending locks never wait out of
order, so only the others have to be looked at. -/

namespace Experiential

/-- The row lock modes, weakest first. -/
inductive LockMode where
  | keyShare
  | share
  | noKeyUpdate
  | update
deriving DecidableEq

def LockMode.strength : LockMode → ℕ
  | .keyShare => 1
  | .share => 2
  | .noKeyUpdate => 3
  | .update => 4

theorem LockMode.keyShare_le (m : LockMode) : keyShare.strength ≤ m.strength := by
  cases m <;> decide

structure Lock (ρ : Type) where
  row : ρ
  mode : LockMode
deriving DecidableEq

/-- A transaction: who runs it, the locks it holds, the locks it will still take, in order, and
whether it has found the first of them taken. -/
structure Transaction (κ ρ : Type) where
  owner : κ
  held : List (Lock ρ)
  todo : List (Lock ρ)
  waiting : Bool

/-- What can happen to the transactions. -/
inductive TransactionEvent (κ ρ : Type) where
  /-- A transaction begins. -/
  | start (owner : κ) (todo : List (Lock ρ))
  /-- A transaction begins that does nothing unless it gets its first lock at once. -/
  | tryStart (owner : κ) (first : Lock ρ) (todo : List (Lock ρ))
  /-- The transaction `i` takes its next lock, or finds it taken. -/
  | advance (i : ℕ)
  /-- The transaction `i` commits or is rolled back. -/
  | finish (i : ℕ)

variable {κ ρ : Type}

namespace Lock

/-- A lock of one transaction that keeps another from taking `l`: the two modes conflict. -/
def Blocks (h l : Lock ρ) : Prop := h.row = l.row ∧ 5 ≤ h.mode.strength + l.mode.strength

/-- A lock of a transaction that already gives it `l`. -/
def Covers (h l : Lock ρ) : Prop := h.row = l.row ∧ l.mode.strength ≤ h.mode.strength

instance [DecidableEq ρ] (h l : Lock ρ) : Decidable (h.Blocks l) := inferInstanceAs (Decidable (_ ∧ _))

instance [DecidableEq ρ] (h l : Lock ρ) : Decidable (h.Covers l) := inferInstanceAs (Decidable (_ ∧ _))

theorem Blocks.symm {h l : Lock ρ} (hb : h.Blocks l) : l.Blocks h :=
  ⟨hb.1.symm, Nat.add_comm _ _ ▸ hb.2⟩

theorem Blocks.of_covers {h l g : Lock ρ} (hb : g.Blocks l) (hc : h.Covers l) : g.Blocks h := by
  refine ⟨hb.1.trans hc.1.symm, ?_⟩
  have h1 := hb.2
  have h2 := hc.2
  omega

theorem blocks_update (r : ρ) : Blocks (⟨r, .update⟩ : Lock ρ) ⟨r, .update⟩ :=
  ⟨rfl, by simp [LockMode.strength]⟩

end Lock

/-- Does a lock of the list already give `l`? -/
def Owned (held : List (Lock ρ)) (l : Lock ρ) : Prop := ∃ h ∈ held, h.Covers l

/-- No transaction but `i` holds a lock that keeps it from taking `l`. -/
def Free (s : List (Transaction κ ρ)) (i : ℕ) (l : Lock ρ) : Prop :=
  ∀ t ∈ s.eraseIdx i, ∀ h ∈ t.held, ¬ h.Blocks l

instance [DecidableEq ρ] (held : List (Lock ρ)) (l : Lock ρ) : Decidable (Owned held l) :=
  inferInstanceAs (Decidable (∃ h ∈ held, h.Covers l))

instance [DecidableEq ρ] (s : List (Transaction κ ρ)) (i : ℕ) (l : Lock ρ) : Decidable (Free s i l) :=
  inferInstanceAs (Decidable (∀ t ∈ s.eraseIdx i, ∀ h ∈ t.held, ¬ h.Blocks l))

section step
variable [DecidableEq ρ]

/-- The transaction after trying for its next lock. -/
def Transaction.advance (s : List (Transaction κ ρ)) (i : ℕ) (t : Transaction κ ρ) : Transaction κ ρ :=
  match t.todo with
  | [] => t
  | l :: rest =>
      if Owned t.held l ∨ Free s i l then { t with held := l :: t.held, todo := rest, waiting := false }
      else { t with waiting := true }

/-- The transactions after an event. A transaction that ended holds nothing and does nothing. -/
def transactionStep (s : List (Transaction κ ρ)) : TransactionEvent κ ρ → List (Transaction κ ρ)
  | .start owner todo => s ++ [⟨owner, [], todo, false⟩]
  | .tryStart owner first todo =>
      if Free s s.length first then s ++ [⟨owner, [first], todo, false⟩] else s ++ [⟨owner, [], [], false⟩]
  | .advance i =>
      match s[i]? with
      | none => s
      | some t => s.set i (t.advance s i)
  | .finish i =>
      match s[i]? with
      | none => s
      | some t => s.set i ⟨t.owner, [], [], false⟩

end step

/-- `i` waits for a row that `j` holds. -/
def WaitsFor (s : List (Transaction κ ρ)) (i j : ℕ) : Prop :=
  i ≠ j ∧ ∃ t ∈ s[i]?, ∃ u ∈ s[j]?, t.waiting = true ∧ ∃ l ∈ t.todo.head?, ∃ h ∈ u.held, h.Blocks l

instance [DecidableEq ρ] (s : List (Transaction κ ρ)) (i j : ℕ) : Decidable (WaitsFor s i j) := by
  unfold WaitsFor
  infer_instance

/-- A cycle of transactions, each waiting for a row the next one holds. -/
def Deadlocked (s : List (Transaction κ ρ)) : Prop := ∃ i, Relation.TransGen (WaitsFor s) i i

theorem deadlocked_of_pair {s : List (Transaction κ ρ)} {i j : ℕ} (hij : WaitsFor s i j)
    (hji : WaitsFor s j i) : Deadlocked s := ⟨i, .head hij (.single hji)⟩

/-! ### Mutual exclusion -/

/-- No two transactions hold conflicting locks. -/
def Exclusive (s : List (Transaction κ ρ)) : Prop :=
  ∀ (i j : ℕ) (t u : Transaction κ ρ), i ≠ j → s[i]? = some t → s[j]? = some u →
    ∀ h ∈ t.held, ∀ l ∈ u.held, ¬ h.Blocks l

theorem Free.not_blocks {s : List (Transaction κ ρ)} {i j : ℕ} {l : Lock ρ} (h : Free s i l)
    (hij : j ≠ i) {u : Transaction κ ρ} (hu : s[j]? = some u) {g : Lock ρ} (hg : g ∈ u.held) :
    ¬ g.Blocks l := by
  refine h u ?_ g hg
  rw [List.mem_eraseIdx_iff_getElem?]
  exact ⟨j, hij, hu⟩

/-- One transaction may be replaced by one whose locks conflict with no other's. -/
theorem Exclusive.set {s : List (Transaction κ ρ)} (hs : Exclusive s) {i : ℕ} {t' : Transaction κ ρ}
    (h : ∀ (j : ℕ) (u : Transaction κ ρ), j ≠ i → s[j]? = some u →
      ∀ g ∈ u.held, ∀ l ∈ t'.held, ¬ g.Blocks l) : Exclusive (s.set i t') := by
  intro j k t u hjk ht hu g hg l hl
  rcases getElem?_set_cases ht with ⟨rfl, rfl⟩ | ⟨hj, ht'⟩
  · rcases getElem?_set_cases hu with ⟨rfl, -⟩ | ⟨hk, hu'⟩
    · exact absurd rfl hjk
    · exact fun hb => h k u hk hu' l hl g hg hb.symm
  · rcases getElem?_set_cases hu with ⟨rfl, rfl⟩ | ⟨hk, hu'⟩
    · exact h j t hj ht' g hg l hl
    · exact hs j k t u hjk ht' hu' g hg l hl

theorem Exclusive.concat {s : List (Transaction κ ρ)} (hs : Exclusive s) {t' : Transaction κ ρ}
    (h : ∀ (j : ℕ) (u : Transaction κ ρ), s[j]? = some u → ∀ g ∈ u.held, ∀ l ∈ t'.held, ¬ g.Blocks l) :
    Exclusive (s ++ [t']) := by
  intro j k t u hjk ht hu g hg l hl
  rcases getElem?_append_cases ht with ⟨rfl, rfl⟩ | ht'
  · rcases getElem?_append_cases hu with ⟨rfl, -⟩ | hu'
    · exact absurd rfl hjk
    · exact fun hb => h k u hu' l hl g hg hb.symm
  · rcases getElem?_append_cases hu with ⟨rfl, rfl⟩ | hu'
    · exact h j t ht' g hg l hl
    · exact hs j k t u hjk ht' hu' g hg l hl

section exclusive
variable [DecidableEq ρ] {s : List (Transaction κ ρ)}

/-- What a transaction holds after trying for its next lock conflicts with no other's locks. -/
theorem Exclusive.advance (hs : Exclusive s) {i : ℕ} {t : Transaction κ ρ} (ht : s[i]? = some t) :
    Exclusive (s.set i (t.advance s i)) := by
  refine hs.set fun j u hj hu g hg l hl => ?_
  have hold : ∀ l ∈ t.held, ¬ g.Blocks l := fun l hl => hs j i u t hj hu ht g hg l hl
  unfold Transaction.advance at hl
  cases htodo : t.todo with
  | nil =>
      rw [htodo] at hl
      exact hold l hl
  | cons m rest =>
      simp only [htodo] at hl
      split_ifs at hl with hgot
      · rcases List.mem_cons.mp hl with rfl | hl
        · rcases hgot with ⟨h, hh, hc⟩ | hfree
          · exact fun hb => hold h hh (hb.of_covers hc)
          · exact hfree.not_blocks hj hu hg
        · exact hold l hl
      · exact hold l hl

theorem Exclusive.step (hs : Exclusive s) (event : TransactionEvent κ ρ) : Exclusive (transactionStep s event) := by
  cases event with
  | start owner todo => exact hs.concat fun _ _ _ _ _ l hl => absurd hl List.not_mem_nil
  | tryStart owner first todo =>
      simp only [transactionStep]
      split_ifs with hfree
      · refine hs.concat fun j u hu g hg l hl => ?_
        obtain rfl := List.mem_singleton.mp hl
        have hlt : j < s.length := (List.getElem?_eq_some_iff.mp hu).1
        exact hfree.not_blocks (by omega) hu hg
      · exact hs.concat fun _ _ _ _ _ l hl => absurd hl List.not_mem_nil
  | advance i =>
      cases ht : s[i]? with
      | none =>
          simp only [transactionStep, ht]
          exact hs
      | some t =>
          simp only [transactionStep, ht]
          exact hs.advance ht
  | finish i =>
      cases ht : s[i]? with
      | none =>
          simp only [transactionStep, ht]
          exact hs
      | some t =>
          simp only [transactionStep, ht]
          exact hs.set fun _ _ _ _ _ _ l hl => absurd hl List.not_mem_nil

end exclusive

/-! ### The order of levels -/

section order
variable (level : ρ → ℕ) (mutex : ρ)

/-- Everything held is of a lower level than `l`, or of the same level with the mutex held. -/
def InOrder (held : List (Lock ρ)) (l : Lock ρ) : Prop :=
  ∀ h ∈ held, level h.row < level l.row ∨ level h.row = level l.row ∧ ⟨mutex, .update⟩ ∈ held

instance [DecidableEq ρ] (held : List (Lock ρ)) (l : Lock ρ) : Decidable (InOrder level mutex held l) :=
  inferInstanceAs (Decidable (∀ h ∈ held, level h.row < level l.row ∨
    level h.row = level l.row ∧ ⟨mutex, .update⟩ ∈ held))

/-- Every transaction that waits holds locks of lower levels only. -/
def OrderedWaits (s : List (Transaction κ ρ)) : Prop :=
  ∀ t ∈ s, t.waiting = true → ∀ l ∈ t.todo.head?, InOrder level mutex t.held l

/-- The level of the row a transaction takes next. -/
def wanted (s : List (Transaction κ ρ)) (i : ℕ) : ℕ :=
  ((s[i]?.bind (·.todo.head?)).map (fun l => level l.row)).getD 0

variable {level mutex}

/-- A waiting transaction wants a row of a higher level than the one another waits for it to
release, or of the same level and then it has the mutex. -/
theorem WaitsFor.wanted_lt {s : List (Transaction κ ρ)} (ho : OrderedWaits level mutex s) {i j k : ℕ}
    (h : WaitsFor s i j) (hj : WaitsFor s j k) : wanted level s i < wanted level s j ∨
      wanted level s i = wanted level s j ∧ ∃ u, s[j]? = some u ∧ ⟨mutex, .update⟩ ∈ u.held := by
  obtain ⟨-, t, ht, u, hu, -, l, hl, g, hg, hb⟩ := h
  obtain ⟨-, u', hu', -, -, hwait, m, hm, -⟩ := hj
  obtain rfl : u' = u := Option.some.inj (hu'.symm.trans hu)
  have hi : wanted level s i = level g.row := by
    rw [Option.mem_def] at ht hl
    simp [wanted, ht, hl, hb.1]
  have hk : wanted level s j = level m.row := by
    rw [Option.mem_def] at hu hm
    simp [wanted, hu, hm]
  rw [hi, hk]
  rcases ho u' (List.mem_of_getElem? hu) hwait m hm g hg with hlt | ⟨heq, hmutex⟩
  · exact .inl hlt
  · exact .inr ⟨heq, u', hu, hmutex⟩

/-- Along a chain of waiting transactions the wanted level never falls. -/
theorem wanted_le_of_transGen {s : List (Transaction κ ρ)} (ho : OrderedWaits level mutex s) {i j : ℕ}
    (h : Relation.TransGen (WaitsFor s) i j) {k : ℕ} (hj : WaitsFor s j k) :
    wanted level s i ≤ wanted level s j := by
  induction h generalizing k with
  | single hij =>
      rcases hij.wanted_lt ho hj with hlt | ⟨heq, -⟩
      · omega
      · omega
  | tail _ hab ih =>
      have hle := ih hab
      rcases hab.wanted_lt ho hj with hlt | ⟨heq, -⟩
      · omega
      · omega

theorem exists_waitsFor {s : List (Transaction κ ρ)} {i j : ℕ} (h : Relation.TransGen (WaitsFor s) i j) :
    ∃ k, WaitsFor s i k ∧ (k = j ∨ Relation.TransGen (WaitsFor s) k j) := by
  obtain ⟨k, hik, hkj⟩ := Relation.TransGen.head'_iff.mp h
  refine ⟨k, hik, ?_⟩
  rcases Relation.reflTransGen_iff_eq_or_transGen.mp hkj with rfl | hkj
  · exact .inl rfl
  · exact .inr hkj

/-- The member of a cycle that comes after `i` has the mutex. -/
theorem mutex_of_cycle {s : List (Transaction κ ρ)} (ho : OrderedWaits level mutex s) {i j : ℕ}
    (hij : WaitsFor s i j) (hji : Relation.TransGen (WaitsFor s) j i) :
    ∃ u, s[j]? = some u ∧ ⟨mutex, .update⟩ ∈ u.held := by
  obtain ⟨k, hjk, -⟩ := exists_waitsFor hji
  have hle := wanted_le_of_transGen ho hji hij
  rcases hij.wanted_lt ho hjk with hlt | ⟨-, hmutex⟩
  · omega
  · exact hmutex

/-- **Order rule**: transactions that wait in order are never deadlocked. -/
theorem not_deadlocked {s : List (Transaction κ ρ)} (hx : Exclusive s)
    (ho : OrderedWaits level mutex s) : ¬ Deadlocked s := by
  rintro ⟨i, hcycle⟩
  obtain ⟨j, hij, hji⟩ := exists_waitsFor hcycle
  rcases hji with rfl | hji
  · exact hij.1 rfl
  · -- `j` comes after `i`, and the one after `j` is not `j`: both have the mutex
    obtain ⟨u, hu, hmutex⟩ := mutex_of_cycle ho hij hji
    obtain ⟨k, hjk, hki⟩ := exists_waitsFor hji
    have hkj : Relation.TransGen (WaitsFor s) k j := by
      rcases hki with rfl | hki
      · exact .single hij
      · exact hki.tail hij
    obtain ⟨v, hv, hmutex'⟩ := mutex_of_cycle ho hjk hkj
    exact hx j k u v hjk.1 hu hv _ hmutex _ hmutex' (Lock.blocks_update mutex)

end order

/-! ### Ascending transactions -/

section ascending
variable (level : ρ → ℕ) (mutex : ρ)

/-- Every lock still to be taken is held already, or of a higher level than all before it. -/
def Ascending : List (Lock ρ) → List (Lock ρ) → Prop
  | _, [] => True
  | held, l :: rest =>
      (Owned held l ∨ ∀ h ∈ held, level h.row < level l.row) ∧ Ascending (l :: held) rest

variable {level} in
theorem Ascending.append : ∀ {xs ys held : List (Lock ρ)}, Ascending level held xs →
    Ascending level (xs.reverse ++ held) ys → Ascending level held (xs ++ ys)
  | [], _, _, _, h => h
  | x :: xs, ys, held, hx, h => by
      refine ⟨hx.1, hx.2.append ?_⟩
      rwa [List.reverse_cons, List.append_assoc] at h

/-- A transaction of a kind that leaves the order is stopped by a row only in order. -/
def StopsInOrder (leaves : κ → Prop) (s : List (Transaction κ ρ)) : TransactionEvent κ ρ → Prop
  | .advance i => ∀ t ∈ s[i]?, leaves t.owner → ∀ l ∈ t.todo.head?,
      Owned t.held l ∨ Free s i l ∨ InOrder level mutex t.held l
  | _ => True

instance [DecidableEq ρ] (leaves : κ → Prop) [DecidablePred leaves] (s : List (Transaction κ ρ))
    (event : TransactionEvent κ ρ) : Decidable (StopsInOrder level mutex leaves s event) := by
  unfold StopsInOrder
  split <;> infer_instance

/-- The locks of a beginning transaction of a kind that keeps the order are ascending. -/
def StartsAscending (leaves : κ → Prop) : TransactionEvent κ ρ → Prop
  | .start owner todo => leaves owner ∨ Ascending level [] todo
  | .tryStart owner first todo => leaves owner ∨ Ascending level [first] todo
  | _ => True

/-- The invariant: waits are in order, and what keeps the order is ascending. -/
structure LockInv (leaves : κ → Prop) (s : List (Transaction κ ρ)) : Prop where
  exclusive : Exclusive s
  waits : OrderedWaits level mutex s
  ascending : ∀ t ∈ s, leaves t.owner ∨ Ascending level t.held t.todo

variable {level mutex}

theorem LockInv.nil {leaves : κ → Prop} : LockInv level mutex leaves [] :=
  ⟨fun _ _ _ _ _ ht => by simp at ht, fun _ ht => absurd ht List.not_mem_nil,
    fun _ ht => absurd ht List.not_mem_nil⟩

variable {leaves : κ → Prop} {s : List (Transaction κ ρ)}

theorem LockInv.concat (hs : LockInv level mutex leaves s) {t : Transaction κ ρ}
    (hx : Exclusive (s ++ [t])) (hwaiting : t.waiting = false)
    (hasc : leaves t.owner ∨ Ascending level t.held t.todo) : LockInv level mutex leaves (s ++ [t]) := by
  refine ⟨hx, fun u hu hw => ?_, fun u hu => ?_⟩
  · rcases List.mem_append.mp hu with hu | hu
    · exact hs.waits u hu hw
    · obtain rfl := List.mem_singleton.mp hu
      rw [hwaiting] at hw
      cases hw
  · rcases List.mem_append.mp hu with hu | hu
    · exact hs.ascending u hu
    · obtain rfl := List.mem_singleton.mp hu
      exact hasc

theorem LockInv.set (hs : LockInv level mutex leaves s) {i : ℕ} {t : Transaction κ ρ}
    (hx : Exclusive (s.set i t))
    (hwaits : t.waiting = true → ∀ l ∈ t.todo.head?, InOrder level mutex t.held l)
    (hasc : leaves t.owner ∨ Ascending level t.held t.todo) : LockInv level mutex leaves (s.set i t) := by
  refine ⟨hx, fun u hu => ?_, fun u hu => ?_⟩
  · rcases List.mem_or_eq_of_mem_set hu with hu | rfl
    · exact hs.waits u hu
    · exact hwaits
  · rcases List.mem_or_eq_of_mem_set hu with hu | rfl
    · exact hs.ascending u hu
    · exact hasc

variable [DecidableEq ρ]

/-- What trying for the next lock makes of a transaction that is stopped in order only. -/
theorem LockInv.advanced (hs : LockInv level mutex leaves s) {i : ℕ} {t : Transaction κ ρ}
    (ht : s[i]? = some t) (h : leaves t.owner → ∀ l ∈ t.todo.head?,
      Owned t.held l ∨ Free s i l ∨ InOrder level mutex t.held l) :
    ((t.advance s i).waiting = true → ∀ l ∈ (t.advance s i).todo.head?,
      InOrder level mutex (t.advance s i).held l) ∧
    (leaves (t.advance s i).owner ∨ Ascending level (t.advance s i).held (t.advance s i).todo) := by
  have hmem := List.mem_of_getElem? ht
  have hasc := hs.ascending t hmem
  unfold Transaction.advance
  cases htodo : t.todo with
  | nil =>
      refine ⟨fun _ l hl => ?_, hasc⟩
      rw [htodo] at hl
      cases hl
  | cons l rest =>
      rw [htodo] at hasc h
      simp only
      split_ifs with hgot
      · refine ⟨fun hw => ?_, hasc.imp_right fun ha => ha.2⟩
        cases hw
      · refine ⟨fun _ m hm => ?_, ?_⟩
        · simp only [List.head?_cons, Option.mem_some_iff] at hm
          subst hm
          rcases hasc with hleaves | ⟨hcov | hlt, -⟩
          · rcases h hleaves l rfl with hcov | hfree | hord
            · exact absurd (.inl hcov) hgot
            · exact absurd (.inr hfree) hgot
            · exact hord
          · exact absurd (.inl hcov) hgot
          · exact fun g hg => .inl (hlt g hg)
        · exact hasc

/-- **One event keeps the order**, if it stops only in order what does not ascend. -/
theorem LockInv.step (hs : LockInv level mutex leaves s) {event : TransactionEvent κ ρ}
    (hstart : StartsAscending level leaves event) (hstop : StopsInOrder level mutex leaves s event) :
    LockInv level mutex leaves (transactionStep s event) := by
  have hx := hs.exclusive.step event
  cases event with
  | start owner todo => exact hs.concat hx rfl hstart
  | tryStart owner first todo =>
      simp only [transactionStep] at hx ⊢
      split_ifs at hx ⊢ with hfree
      · exact hs.concat hx rfl hstart
      · exact hs.concat hx rfl (.inr trivial)
  | advance i =>
      cases ht : s[i]? with
      | none =>
          simp only [transactionStep, ht]
          exact hs
      | some t =>
          simp only [transactionStep, ht] at hx ⊢
          obtain ⟨hwaits, hasc⟩ := hs.advanced ht (hstop t ht)
          exact hs.set hx hwaits hasc
  | finish i =>
      cases ht : s[i]? with
      | none =>
          simp only [transactionStep, ht]
          exact hs
      | some t =>
          simp only [transactionStep, ht] at hx ⊢
          exact hs.set hx (fun hw => by cases hw) (.inr trivial)

/-- **Run rule**: no run is ever deadlocked in which every transaction begins with ascending locks
or is only stopped in order. -/
theorem run_not_deadlocked (events : List (TransactionEvent κ ρ))
    (h : StepsMeet transactionStep (fun s event => StopsInOrder level mutex leaves s event ∧
      StartsAscending level leaves event) [] events) : ¬ Deadlocked (run transactionStep [] events) := by
  have hinv := run_invariant (I := LockInv level mutex leaves)
    (fun s event hC hs => LockInv.step hs hC.2 hC.1) events [] LockInv.nil h
  exact not_deadlocked hinv.exclusive hinv.waits

end ascending

end Experiential
