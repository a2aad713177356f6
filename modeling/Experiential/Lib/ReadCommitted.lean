import Experiential.Lib.Run

/-! # Transactions under READ COMMITTED

Transactions run their statements one at a time, in any order among each other. A statement sees
what is committed when it runs and what its own transaction has written, and waits for a row that
another transaction has written. The writes of a transaction reach the database when it commits; an
aborted one leaves nothing. `TxnSystem.step_holds`: an invariant of the database and of each
transaction is kept by every step when statements keep it for their own transaction and commits for
all the others.

In a `LockSystem` the same transactions lock rows in several strengths. What a statement waits for is a
relation here: two writes may share a row, as two readers that lock it do, or exclude each other. A lock
is a write that changes nothing.

`LockSystem.step_holds`: the same, with an invariant of each two open transactions beside these. -/

namespace Experiential

/-- A transaction: what it was called for, its statements still to run, and its writes, the last one
last. -/
structure Txn (κ τ ω : Type) where
  call : κ
  todo : List τ
  writes : List ω

structure TxnStore (σ κ τ ω : Type) where
  db : σ
  txns : List (Txn κ τ ω)

/-- The transactions that may run: their statements, and what each of these does. -/
structure TxnSystem (σ κ τ ω ρ ι : Type) where
  program : κ → List τ
  /-- The writes of a statement and the statements it expands to; none when it raises. -/
  exec : ι → σ → τ → Option (List ω × List τ)
  apply : σ → ω → σ
  row : ω → ρ

inductive TxnEvent (κ ι : Type) where
  | start (call : κ)
  | advance (k : ℕ) (choice : ι)
  | abort (k : ℕ)

namespace TxnSystem
variable {σ κ τ ω ρ ι : Type} (sys : TxnSystem σ κ τ ω ρ ι)

def begin (call : κ) : Txn κ τ ω := ⟨call, sys.program call, []⟩

/-- What a transaction sees, and what its commit makes of the database. -/
def view (db : σ) (t : Txn κ τ ω) : σ := t.writes.foldl sys.apply db

/-- A transaction after one of its statements. -/
def ran (t : Txn κ τ ω) (ws : List ω) (more rest : List τ) : Txn κ τ ω :=
  { t with todo := more ++ rest, writes := t.writes ++ ws }

/-- The rows of the writes are written by none of the transactions. -/
def Free (ws : List ω) (txns : List (Txn κ τ ω)) : Prop :=
  ∀ w ∈ ws, ∀ t ∈ txns, ∀ v ∈ t.writes, sys.row v ≠ sys.row w

instance [DecidableEq ρ] (ws : List ω) (txns : List (Txn κ τ ω)) : Decidable (sys.Free ws txns) :=
  inferInstanceAs (Decidable (∀ w ∈ ws, ∀ t ∈ txns, ∀ v ∈ t.writes, sys.row v ≠ sys.row w))

def step [DecidableEq ρ] (s : TxnStore σ κ τ ω) : TxnEvent κ ι → TxnStore σ κ τ ω
  | .start call => { s with txns := s.txns ++ [sys.begin call] }
  | .abort k => { s with txns := s.txns.eraseIdx k }
  | .advance k choice =>
      match s.txns[k]? with
      | none => s
      | some t =>
          match t.todo with
          | [] => ⟨sys.view s.db t, s.txns.eraseIdx k⟩
          | stmt :: rest =>
              match sys.exec choice (sys.view s.db t) stmt with
              | none => { s with txns := s.txns.eraseIdx k }
              | some (ws, more) =>
                  if sys.Free ws (s.txns.eraseIdx k) then { s with txns := s.txns.set k (ran t ws more rest) }
                  else s

/-- The transactions that write a row in common are one. -/
def Apart (t u : Txn κ τ ω) : Prop := ∀ w ∈ t.writes, ∀ v ∈ u.writes, sys.row w ≠ sys.row v

theorem Apart.symm {sys : TxnSystem σ κ τ ω ρ ι} {t u : Txn κ τ ω} (h : sys.Apart t u) : sys.Apart u t :=
  fun v hv w hw hrow => h w hw v hv hrow.symm

/-- An invariant of the database, and one of the database and each transaction, of transactions that
exclude each other. -/
structure Holds (I : σ → Prop) (P : σ → Txn κ τ ω → Prop) (s : TxnStore σ κ τ ω) : Prop where
  db : I s.db
  each : ∀ t ∈ s.txns, P s.db t
  apart : s.txns.Pairwise sys.Apart

/-! ### Replacing and removing an entry -/

theorem pairwise_set {α : Type} {R : α → α → Prop} (hsymm : ∀ x y, R x y → R y x) {l : List α} {k : ℕ} {x : α}
    (h : l.Pairwise R) (hx : ∀ y ∈ l.eraseIdx k, R x y) : (l.set k x).Pairwise R := by
  rw [List.pairwise_iff_getElem] at h ⊢
  have hother : ∀ j (hj : j < l.length), j ≠ k → R x l[j] := fun j hj hne =>
    hx _ (List.mem_eraseIdx_iff_getElem?.mpr ⟨j, hne, List.getElem?_eq_getElem hj⟩)
  intro i j hi hj hij
  rw [List.length_set] at hi hj
  rw [List.getElem_set, List.getElem_set]
  split <;> split
  · omega
  · exact hother j hj (by omega)
  · exact hsymm _ _ (hother i hi (by omega))
  · exact h i j hi hj hij

theorem pairwise_eraseIdx {α : Type} {R : α → α → Prop} (hsymm : ∀ x y, R x y → R y x) {l : List α} {k : ℕ} {x : α}
    (h : l.Pairwise R) (hx : l[k]? = some x) {y : α} (hy : y ∈ l.eraseIdx k) : R x y := by
  obtain ⟨j, hne, hj⟩ := List.mem_eraseIdx_iff_getElem?.mp hy
  obtain ⟨hk, rfl⟩ := List.getElem?_eq_some_iff.mp hx
  obtain ⟨hlt, rfl⟩ := List.getElem?_eq_some_iff.mp hj
  rw [List.pairwise_iff_getElem] at h
  rcases Nat.lt_or_gt_of_ne hne with hjk | hkj
  · exact hsymm _ _ (h j k hlt hk hjk)
  · exact h k j hk hlt hkj

/-! ### One step -/

section
variable {sys} {I : σ → Prop} {P : σ → Txn κ τ ω → Prop} {s : TxnStore σ κ τ ω}

theorem Holds.removed (h : sys.Holds I P s) (k : ℕ) : sys.Holds I P { s with txns := s.txns.eraseIdx k } where
  db := h.db
  each t ht := h.each t (List.mem_of_mem_eraseIdx ht)
  apart := h.apart.sublist (List.eraseIdx_sublist _ _)

/-- Another writer changes the database in one step. -/
theorem Holds.changed (h : sys.Holds I P s) {db' : σ} (hdb : I db') (heach : ∀ t ∈ s.txns, P s.db t → P db' t) :
    sys.Holds I P { s with db := db' } where
  db := hdb
  each t ht := heach t ht (h.each t ht)
  apart := h.apart

variable [DecidableEq ρ]

theorem step_holds (h : sys.Holds I P s) (e : TxnEvent κ ι) (hstart : ∀ call, P s.db (sys.begin call))
    (hexec : ∀ t ∈ s.txns, ∀ choice stmt rest ws more, P s.db t → t.todo = stmt :: rest →
      sys.exec choice (sys.view s.db t) stmt = some (ws, more) → P s.db (ran t ws more rest))
    (hcommit : ∀ k choice t, e = .advance k choice → s.txns[k]? = some t → t.todo = [] → P s.db t →
      I (sys.view s.db t) ∧ ∀ u ∈ s.txns, P s.db u → sys.Apart t u → P (sys.view s.db t) u) :
    sys.Holds I P (sys.step s e) := by
  cases e with
  | start call =>
      refine ⟨h.db, ?_, ?_⟩
      · intro t ht
        rcases List.mem_append.mp ht with ht | ht
        · exact h.each t ht
        · rw [List.mem_singleton] at ht
          rw [ht]
          exact hstart call
      · refine List.pairwise_append.mpr ⟨h.apart, List.pairwise_singleton _ _, ?_⟩
        intro t _ u hu w _ v hv
        rw [List.mem_singleton] at hu
        rw [hu] at hv
        cases hv
  | abort k => exact h.removed k
  | advance k choice =>
      simp only [step]
      split
      · exact h
      · rename_i t ht
        have hmem : t ∈ s.txns := List.mem_of_getElem? ht
        split
        · -- the transaction commits
          rename_i htodo
          obtain ⟨hI, hothers⟩ := hcommit k choice t rfl ht htodo (h.each t hmem)
          refine ⟨hI, ?_, (h.removed k).apart⟩
          intro u hu
          have hmemu := List.mem_of_mem_eraseIdx hu
          exact hothers u hmemu (h.each u hmemu) (pairwise_eraseIdx (fun _ _ => Apart.symm) h.apart ht hu)
        · rename_i stmt rest htodo
          split
          · exact h.removed k
          · rename_i ws more hws
            split
            · -- the statement runs
              rename_i hfree
              refine ⟨h.db, ?_, ?_⟩
              · intro u hu
                rcases List.mem_or_eq_of_mem_set hu with hu | rfl
                · exact h.each u hu
                · exact hexec t hmem choice stmt rest ws more (h.each t hmem) htodo hws
              · refine pairwise_set (fun _ _ => Apart.symm) h.apart ?_
                intro u hu w hw v hv
                rcases List.mem_append.mp hw with hw | hw
                · exact pairwise_eraseIdx (fun _ _ => Apart.symm) h.apart ht hu w hw v hv
                · exact (hfree w hw u hu v hv).symm
            · exact h

end

end TxnSystem

/-- The transactions that may run: their statements, what each of these does, and whose writes exclude
each other. -/
structure LockSystem (σ κ τ ω ι : Type) where
  program : κ → List τ
  /-- The writes of a statement and the statements it expands to; none when it raises. -/
  exec : ι → σ → τ → Option (List ω × List τ)
  apply : σ → ω → σ
  conflicts : ω → ω → Prop
  symm : ∀ w v, conflicts w v → conflicts v w

namespace LockSystem
variable {σ κ τ ω ι : Type} (sys : LockSystem σ κ τ ω ι)

def begin (call : κ) : Txn κ τ ω := ⟨call, sys.program call, []⟩

/-- What a transaction sees, and what its commit makes of the database. -/
def view (db : σ) (t : Txn κ τ ω) : σ := t.writes.foldl sys.apply db

/-- None of the transactions holds what the writes need. -/
def Free (ws : List ω) (txns : List (Txn κ τ ω)) : Prop :=
  ∀ w ∈ ws, ∀ t ∈ txns, ∀ v ∈ t.writes, ¬ sys.conflicts w v

instance [DecidableRel sys.conflicts] (ws : List ω) (txns : List (Txn κ τ ω)) : Decidable (sys.Free ws txns) :=
  inferInstanceAs (Decidable (∀ w ∈ ws, ∀ t ∈ txns, ∀ v ∈ t.writes, ¬ sys.conflicts w v))

/-- A statement that cannot get its locks waits: the step changes nothing. -/
def step [DecidableRel sys.conflicts] (s : TxnStore σ κ τ ω) : TxnEvent κ ι → TxnStore σ κ τ ω
  | .start call => { s with txns := s.txns ++ [sys.begin call] }
  | .abort k => { s with txns := s.txns.eraseIdx k }
  | .advance k choice =>
      match s.txns[k]? with
      | none => s
      | some t =>
          match t.todo with
          | [] => ⟨sys.view s.db t, s.txns.eraseIdx k⟩
          | stmt :: rest =>
              match sys.exec choice (sys.view s.db t) stmt with
              | none => { s with txns := s.txns.eraseIdx k }
              | some (ws, more) =>
                  if sys.Free ws (s.txns.eraseIdx k) then
                    { s with txns := s.txns.set k (TxnSystem.ran t ws more rest) }
                  else s

/-- Neither transaction holds what the other has written. -/
def Apart (t u : Txn κ τ ω) : Prop := ∀ w ∈ t.writes, ∀ v ∈ u.writes, ¬ sys.conflicts w v

theorem Apart.symm {sys : LockSystem σ κ τ ω ι} {t u : Txn κ τ ω} (h : sys.Apart t u) : sys.Apart u t :=
  fun v hv w hw hconf => h w hw v hv (sys.symm v w hconf)

/-- An invariant of the database, one of the database and each transaction, and one of each two. -/
structure Holds (I : σ → Prop) (P : σ → Txn κ τ ω → Prop) (R : σ → Txn κ τ ω → Txn κ τ ω → Prop)
    (s : TxnStore σ κ τ ω) : Prop where
  db : I s.db
  each : ∀ t ∈ s.txns, P s.db t
  pairs : s.txns.Pairwise (R s.db)

section
variable {sys} {I : σ → Prop} {P : σ → Txn κ τ ω → Prop} {R : σ → Txn κ τ ω → Txn κ τ ω → Prop}
  {s : TxnStore σ κ τ ω}

theorem Holds.removed (h : Holds I P R s) (k : ℕ) : Holds I P R { s with txns := s.txns.eraseIdx k } where
  db := h.db
  each t ht := h.each t (List.mem_of_mem_eraseIdx ht)
  pairs := h.pairs.sublist (List.eraseIdx_sublist _ _)

/-- A statement that gets its locks leaves the transactions apart. -/
theorem Apart.ran {t u : Txn κ τ ω} {ws : List ω} {more rest : List τ} {txns : List (Txn κ τ ω)}
    (h : sys.Apart t u) (hfree : sys.Free ws txns) (hu : u ∈ txns) : sys.Apart (TxnSystem.ran t ws more rest) u := by
  intro w hw v hv
  rcases List.mem_append.mp hw with hw | hw
  · exact h w hw v hv
  · exact hfree w hw u hu v hv

variable [DecidableRel sys.conflicts]

theorem step_holds (hsymm : ∀ db t u, R db t u → R db u t) (h : Holds I P R s) (e : TxnEvent κ ι)
    (hstart : ∀ call, e = .start call → P s.db (sys.begin call) ∧ ∀ u ∈ s.txns, R s.db u (sys.begin call))
    (hexec : ∀ k choice t stmt rest ws more, e = .advance k choice → s.txns[k]? = some t → t.todo = stmt :: rest →
      sys.exec choice (sys.view s.db t) stmt = some (ws, more) → sys.Free ws (s.txns.eraseIdx k) → P s.db t →
      P s.db (TxnSystem.ran t ws more rest) ∧
        ∀ u ∈ s.txns.eraseIdx k, P s.db u → R s.db t u → R s.db (TxnSystem.ran t ws more rest) u)
    (hcommit : ∀ k choice t, e = .advance k choice → s.txns[k]? = some t → t.todo = [] → P s.db t →
      I (sys.view s.db t) ∧ (∀ u ∈ s.txns.eraseIdx k, P s.db u → R s.db t u → P (sys.view s.db t) u) ∧
        ∀ u ∈ s.txns.eraseIdx k, ∀ v ∈ s.txns.eraseIdx k, P s.db u → P s.db v → R s.db u v → R (sys.view s.db t) u v) :
    Holds I P R (sys.step s e) := by
  cases e with
  | start call =>
      obtain ⟨hnew, hothers⟩ := hstart call rfl
      refine ⟨h.db, ?_, ?_⟩
      · intro t ht
        rcases List.mem_append.mp ht with ht | ht
        · exact h.each t ht
        · rw [List.mem_singleton.mp ht]
          exact hnew
      · refine List.pairwise_append.mpr ⟨h.pairs, List.pairwise_singleton _ _, ?_⟩
        intro t ht u hu
        rw [List.mem_singleton.mp hu]
        exact hothers t ht
  | abort k => exact h.removed k
  | advance k choice =>
      simp only [step]
      split
      · exact h
      · rename_i t ht
        have hmem : t ∈ s.txns := List.mem_of_getElem? ht
        have hpair : ∀ u ∈ s.txns.eraseIdx k, R s.db t u := fun u hu =>
          TxnSystem.pairwise_eraseIdx (hsymm s.db) h.pairs ht hu
        split
        · -- the transaction commits
          rename_i htodo
          obtain ⟨hI, hothers, hpairs⟩ := hcommit k choice t rfl ht htodo (h.each t hmem)
          have heach : ∀ u ∈ s.txns.eraseIdx k, P s.db u := fun u hu => h.each u (List.mem_of_mem_eraseIdx hu)
          refine ⟨hI, fun u hu => hothers u hu (heach u hu) (hpair u hu), ?_⟩
          refine (h.removed k).pairs.imp_of_mem ?_
          exact fun hu hv huv => hpairs _ hu _ hv (heach _ hu) (heach _ hv) huv
        · rename_i stmt rest htodo
          split
          · exact h.removed k
          · rename_i ws more hws
            split
            · -- the statement runs
              rename_i hfree
              obtain ⟨hP, hR⟩ := hexec k choice t stmt rest ws more rfl ht htodo hws hfree (h.each t hmem)
              refine ⟨h.db, ?_, ?_⟩
              · intro u hu
                rcases List.mem_or_eq_of_mem_set hu with hu | rfl
                · exact h.each u hu
                · exact hP
              · refine TxnSystem.pairwise_set (hsymm s.db) h.pairs fun u hu => ?_
                exact hR u hu (h.each u (List.mem_of_mem_eraseIdx hu)) (hpair u hu)
            · exact h

end

end LockSystem

end Experiential
