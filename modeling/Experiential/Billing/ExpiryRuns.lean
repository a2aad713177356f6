import Experiential.Billing.System

/-! # Grants expire once

A world is the billing tables, the clock, and the grants the passes have looked at with what was unspent of
each at its first pass. `pass_grant` follows one grant through the loop, `expiry_step` is the step lemma and
`grant_expiry_once` the run. A pass that finds something unspent of a grant and a balance of zero or less
writes no row, and forgets the grant: `late_pass_takes_topup` is a later pass that takes the top-up. -/

namespace Experiential.Billing

open Gateway

/-! ### The loop -/

/-- What is unspent of the grants of organization `j` in a list. -/
def Db.unspentOf (db : Db) (j : Nat) (gs : List CreditLedgerRow) : Int :=
  ((gs.filter (fun g => decide (g.orgId = j))).map db.unspent).sum

theorem unspent_nonneg (db : Db) (g : CreditLedgerRow) : 0 ≤ db.unspent g := by
  unfold Db.unspent
  cases db.organizations.find? g.orgId with
  | none => exact Int.le_refl 0
  | some o => exact Int.le_max_left _ _

theorem unspentOf_cons (db : Db) (j : Nat) (g : CreditLedgerRow) (gs : List CreditLedgerRow) :
    db.unspentOf j (g :: gs) = (if g.orgId = j then db.unspent g else 0) + db.unspentOf j gs := by
  unfold Db.unspentOf
  rw [List.filter_cons]
  by_cases hj : g.orgId = j
  · simp [hj]
  · simp [hj]

/-- What some turns of the loop leave as it was. -/
structure TurnsKeep (db db' : Db) (gs : List CreditLedgerRow) : Prop where
  removals : ∀ i, (∀ g ∈ gs, g.id ≠ i) → db'.removals i = db.removals i
  unspent : ∀ g, db'.unspent g = db.unspent g
  balance : ∀ j, db.balance j - db.unspentOf j gs ≤ db'.balance j
  nonneg : ∀ j, 0 ≤ db.balance j → 0 ≤ db'.balance j
  rows : ∀ r ∈ db.ledger.rows, r ∈ db'.ledger.rows

theorem TurnsKeep.refl (db : Db) (gs : List CreditLedgerRow) : TurnsKeep db db gs := by
  refine ⟨fun _ _ => rfl, fun _ => rfl, fun j => ?_, fun _ h => h, fun _ h => h⟩
  have hnonneg : 0 ≤ db.unspentOf j gs := by
    apply List.sum_nonneg
    intro x hx
    obtain ⟨g, -, rfl⟩ := List.mem_map.mp hx
    exact unspent_nonneg db g
  omega

variable {g : CreditLedgerRow}

theorem turnsKeep_one {acc acc' : Db × Int} {now : Int} (h : clawBack now acc g = .ok acc') :
    TurnsKeep acc.1 acc'.1 [g] := by
  cases clawBack_eq_ok h with
  | inl hstay =>
      rw [hstay.1]
      exact .refl acc.1 [g]
  | inr hcredit =>
      obtain ⟨amount, hpos, hunspent, hbalance, hinsert⟩ := hcredit
      have hcredit := insertCredit_eq_ok hinsert
      refine ⟨fun i hi => ?_, hcredit.unspent, fun j => ?_, fun j hj => ?_, hcredit.mem⟩
      · rw [hcredit.removals, if_neg]
        rintro ⟨-, hi'⟩
        exact hi g List.mem_cons_self (grantExpiryRef_injective (Option.some.inj hi'))
      · rw [hcredit.balance, unspentOf_cons]
        have hnil : acc.1.unspentOf j [] = 0 := rfl
        show _ ≤ acc.1.balance j + if j = g.orgId then -amount else 0
        by_cases hj : j = g.orgId
        · rw [if_pos hj, if_pos hj.symm]
          omega
        · rw [if_neg hj, if_neg (Ne.symm hj)]
          omega
      · rw [hcredit.balance]
        show 0 ≤ acc.1.balance j + if j = g.orgId then -amount else 0
        split_ifs with hj
        · rw [hj]
          omega
        · omega

theorem turnsKeep {now : Int} : ∀ (gs : List CreditLedgerRow) {acc acc' : Db × Int},
    gs.foldlM (clawBack now) acc = .ok acc' → TurnsKeep acc.1 acc'.1 gs
  | [], acc, acc', h => by
      simp only [List.foldlM_nil, pure_eq_ok] at h
      exact h ▸ .refl acc.1 []
  | g :: gs, acc, acc', h => by
      simp only [List.foldlM_cons, bind_eq_ok] at h
      obtain ⟨acc₁, hturn, hrest⟩ := h
      have hone := turnsKeep_one hturn
      have hall := turnsKeep gs hrest
      have hsame : ∀ j, acc₁.1.unspentOf j gs = acc.1.unspentOf j gs := by
        intro j
        unfold Db.unspentOf
        rw [List.map_congr_left fun g _ => hone.unspent g]
      refine ⟨fun i hi => ?_, fun g => (hall.unspent g).trans (hone.unspent g), fun j => ?_,
        fun j hj => hall.nonneg j (hone.nonneg j hj), fun r hr => hall.rows r (hone.rows r hr)⟩
      · rw [hall.removals i fun g hg => hi g (List.mem_cons_of_mem _ hg),
          hone.removals i fun g' hg => hi g' (List.mem_singleton.mp hg ▸ List.mem_cons_self)]
      · have h1 := hone.balance j
        have h2 := hall.balance j
        have hnil : acc.1.unspentOf j [] = 0 := rfl
        rw [unspentOf_cons] at h1 ⊢
        rw [hsame] at h2
        omega

/-- A grant that is settled: nothing of it is unspent, or one clawback of at most `u` is there. -/
def Db.Settled (db : Db) (g : CreditLedgerRow) (u : Int) : Prop :=
  db.removals g.id = [] ∧ db.unspent g = 0 ∨ ∃ r, db.removals g.id = [r] ∧ 0 < -r.amount ∧ -r.amount ≤ u

/-- The loop settles a grant when the balance covers what is unspent of those before it. -/
theorem pass_grant {db : Db} {acc : Db × Int} {now : Int} {before after : List CreditLedgerRow}
    (h : (before ++ g :: after).foldlM (clawBack now) (db, 0) = .ok acc)
    (hids : ((before ++ g :: after).map CreditLedgerRow.id).Nodup) (hnone : db.removals g.id = [])
    (hcovered : db.unspent g = 0 ∨ db.unspentOf g.orgId before < db.balance g.orgId) :
    acc.1.Settled g (db.unspent g) := by
  rw [List.foldlM_append] at h
  simp only [List.foldlM_cons, bind_eq_ok] at h
  obtain ⟨acc₁, hbefore, acc₂, hturn, hafter⟩ := h
  rw [List.map_append, List.map_cons, List.nodup_append] at hids
  have hb := turnsKeep before hbefore
  have ha := turnsKeep after hafter
  have hnone₁ : acc₁.1.removals g.id = [] := by
    rw [hb.removals g.id fun g' hg' => hids.2.2 _ (List.mem_map_of_mem hg') _ List.mem_cons_self, hnone]
  have hafter_ne : ∀ g' ∈ after, g'.id ≠ g.id := by
    intro g' hg' he
    exact (List.nodup_cons.mp hids.2.1).1 (he ▸ List.mem_map_of_mem hg')
  have hunspent : acc₁.1.unspent g = db.unspent g := hb.unspent g
  have hbalance : db.balance g.orgId - db.unspentOf g.orgId before ≤ acc₁.1.balance g.orgId := hb.balance g.orgId
  unfold Db.Settled
  rw [ha.removals g.id hafter_ne, ha.unspent g]
  cases clawBack_eq_ok hturn with
  | inl hstay =>
      obtain ⟨hsame, hwhy⟩ := hstay
      rw [hsame]
      have hzero : acc₁.1.unspent g = 0 := by
        rcases hwhy with hzero | hneg | hrow
        · exact hzero
        · rw [hunspent]
          cases hcovered with
          | inl hzero => exact hzero
          | inr hpos => omega
        · exact absurd hnone₁ hrow
      exact .inl ⟨hnone₁, hzero⟩
  | inr hcredit =>
      obtain ⟨amount, hpos, hle, -, hinsert⟩ := hcredit
      have hcredit := insertCredit_eq_ok hinsert
      refine .inr ⟨acc₁.1.ledger.newRow (clawbackCredit g amount) now, ?_, ?_⟩
      · rw [hcredit.removals, if_pos ⟨rfl, rfl⟩, hnone₁]
      · show 0 < - -amount ∧ - -amount ≤ db.unspent g
        omega

/-! ### Worlds -/

structure ExpiryWorld where
  db : Db
  now : Int
  met : List (CreditLedgerRow × Int)

inductive ExpiryStep where
  | advance (duration : Nat)
  | call (c : BillingCall)

namespace ExpiryWorld

/-- A pass has looked at the grant. -/
def Met (w : ExpiryWorld) (g : CreditLedgerRow) : Prop := ∃ u, (g, u) ∈ w.met

instance (w : ExpiryWorld) : DecidablePred w.Met := fun g =>
  decidable_of_iff (g ∈ w.met.map Prod.fst) (by simp [Met])

/-- The grants the next pass looks at for the first time, with what is unspent of them. -/
def firstMet (w : ExpiryWorld) (scan : ScanOrder) : List (CreditLedgerRow × Int) :=
  ((w.db.dueGrants scan w.now).filter (fun g => decide (¬ w.Met g))).map (fun g => (g, w.db.unspent g))

/-- No grant has been taken back from. -/
def Fresh (w : ExpiryWorld) : Prop := w.met = [] ∧ ∀ i, w.db.removals i = []

end ExpiryWorld

/-- The grants met after a call. -/
def metAfter (w : ExpiryWorld) : BillingCall → List (CreditLedgerRow × Int)
  | .expire scan => w.firstMet scan ++ w.met
  | _ => w.met

def expiryStep (w : ExpiryWorld) : ExpiryStep → ExpiryWorld
  | .advance duration => { w with now := w.now + duration }
  | .call c =>
      match execute w.db w.now c with
      | .ok db => { w with
          db := db
          met := metAfter w c }
      | .error _ => w

/-- When a pass looks at a grant for the first time, nothing of it is unspent or the balance exceeds what is
unspent of the grants before it; and a correction of the spend gives none back to a grant that a pass has
found fully spent. -/
def FirstPassCovered (w : ExpiryWorld) : ExpiryStep → Prop
  | .call (.expire scan) => ∀ before g after, w.db.dueGrants scan w.now = before ++ g :: after → ¬ w.Met g →
      w.db.unspent g = 0 ∨ w.db.unspentOf g.orgId before < w.db.balance g.orgId
  | .call (.spend orgId delta) => ∀ g, w.Met g → w.db.removals g.id = [] → g.orgId = orgId →
      g.amount - (w.db.billable orgId + delta - g.billableSpendAtGrant.getD 0) ≤ 0
  | _ => True

/-- A pass that looks at one grant, of an organization with a balance. -/
theorem covered_of_length {w : ExpiryWorld} {scan : ScanOrder} (hlen : (w.db.dueGrants scan w.now).length ≤ 1)
    (hpos : ∀ g ∈ w.db.dueGrants scan w.now, 0 < w.db.balance g.orgId) :
    FirstPassCovered w (.call (.expire scan)) := by
  intro before g after hsplit _
  rw [hsplit] at hlen hpos
  have hnil : before = [] := by
    apply List.eq_nil_of_length_eq_zero
    rw [List.length_append, List.length_cons] at hlen
    omega
  subst hnil
  exact .inr (hpos g List.mem_cons_self)

/-- What the runs keep: every grant met is settled, and no other has a clawback. -/
structure Exact (w : ExpiryWorld) : Prop where
  mem : ∀ p ∈ w.met, p.1 ∈ w.db.ledger.rows
  nonneg : ∀ p ∈ w.met, 0 ≤ p.2
  settled : ∀ p ∈ w.met, w.db.Settled p.1 p.2
  unmet : ∀ i, (∀ p ∈ w.met, p.1.id ≠ i) → w.db.removals i = []

theorem Settled.same {db db' : Db} {u : Int} (h : db.Settled g u)
    (hr : db'.removals g.id = db.removals g.id) (hu : db.unspent g = 0 → db'.unspent g = 0) : db'.Settled g u := by
  unfold Db.Settled
  rw [hr]
  cases h with
  | inl h => exact .inl ⟨h.1, hu h.2⟩
  | inr h => exact .inr h

/-- A call that is not a pass leaves the clawbacks, and keeps fully spent grants fully spent. -/
theorem execute_keeps {w : ExpiryWorld} {c : BillingCall} {db' : Db} (h : execute w.db w.now c = .ok db')
    (hc : ∀ scan, c ≠ .expire scan) (hcovered : FirstPassCovered w (.call c)) :
    (∀ i, db'.removals i = w.db.removals i) ∧ (∀ r ∈ w.db.ledger.rows, r ∈ db'.ledger.rows) ∧
      ∀ g, w.Met g → w.db.removals g.id = [] → w.db.unspent g = 0 → db'.unspent g = 0 := by
  have hsame : SameGrants w.db db' → (∀ i, db'.removals i = w.db.removals i) ∧
      (∀ r ∈ w.db.ledger.rows, r ∈ db'.ledger.rows) ∧
      ∀ g, w.Met g → w.db.removals g.id = [] → w.db.unspent g = 0 → db'.unspent g = 0 :=
    fun hs => ⟨hs.removals, hs.rows, fun g _ _ hzero => (hs.unspent g).trans hzero⟩
  cases c with
  | credit c => exact hsame ((insertCredit_eq_ok h).sameGrants fun i hi => c.not_launch hi.1)
  | spend orgId delta =>
      obtain ⟨hremovals, hledger, hunspent⟩ := applyOrgSpendDelta_eq_ok h
      refine ⟨hremovals, fun r hr => hledger ▸ hr, fun g hmet hnone hzero => ?_⟩
      rw [hunspent]
      cases ho : w.db.organizations.find? g.orgId with
      | none => rfl
      | some o =>
          have hspent : unspent o g = 0 := by simpa [Db.unspent, ho, coalesce] using hzero
          split_ifs with hg
          · have hcover := hcovered g hmet hnone hg
            have hbillable : w.db.billable orgId = o.billableSpend := by simp [Db.billable, ← hg, ho, coalesce]
            rw [hbillable] at hcover
            show max 0 (g.amount - (o.billableSpend + delta - g.billableSpendAtGrant.getD 0)) = 0
            omega
          · exact hspent
  | launch orgId amount expiresAt createdBy =>
      simp only [execute, bind_eq_ok, pure_eq_ok] at h
      obtain ⟨r, hr, rfl⟩ := h
      exact hsame (launch_sameGrants hr)
  | expire scan => exact absurd rfl (hc scan)
  | saveSettings s =>
      simp only [execute, saveSettings, bind_eq_ok, pure_eq_ok] at h
      obtain ⟨o, -, settings, -, rfl⟩ := h
      exact hsame (.of_eq rfl rfl)
  | rechargeSucceeded orgId intent amount createdBy =>
      simp only [execute, bind_eq_ok, pure_eq_ok] at h
      obtain ⟨r, hr, rfl⟩ := h
      exact hsame (recordSuccess_sameGrants hr)
  | rechargeFailed orgId intent message =>
      obtain ⟨horg, hledger, -⟩ := recordFailure_eq_ok h
      exact hsame (.of_eq horg hledger)

/-! ### A pass -/

theorem mem_dueGrants {db : Db} {scan : ScanOrder} {now : Int} :
    g ∈ db.dueGrants scan now ↔ g ∈ db.ledger.rows ∧ db.expired now g = true := by
  unfold Db.dueGrants
  rw [(scan.perm _).mem_iff, List.mem_filter]

theorem dueGrants_nodup (db : Db) (scan : ScanOrder) (now : Int) :
    ((db.dueGrants scan now).map CreditLedgerRow.id).Nodup := by
  unfold Db.dueGrants
  rw [((scan.perm _).map _).nodup_iff]
  exact db.ledger.keyed.sublist (List.filter_sublist.map _)

theorem removals_of_due {db : Db} {scan : ScanOrder} {now : Int}
    (h : g ∈ db.dueGrants scan now) : db.removals g.id = [] := by
  have hexpired := (mem_dueGrants.mp h).2
  simp only [Db.expired, Bool.and_eq_true, List.isEmpty_iff] at hexpired
  exact hexpired.2

section pass
variable {w : ExpiryWorld} {scan : ScanOrder} {r : Db × Int}

theorem pass_keeps (h : processExpiringGrants w.db scan w.now = .ok r) :
    TurnsKeep w.db r.1 (w.db.dueGrants scan w.now) := turnsKeep _ h

theorem pass_settles (h : processExpiringGrants w.db scan w.now = .ok r) (hg : g ∈ w.db.dueGrants scan w.now)
    (hcovered : ∀ before after, w.db.dueGrants scan w.now = before ++ g :: after →
      w.db.unspent g = 0 ∨ w.db.unspentOf g.orgId before < w.db.balance g.orgId) :
    r.1.Settled g (w.db.unspent g) := by
  obtain ⟨before, after, hsplit⟩ := List.append_of_mem hg
  have hids := dueGrants_nodup w.db scan w.now
  rw [hsplit] at hids
  unfold processExpiringGrants at h
  rw [hsplit] at h
  exact pass_grant h hids (removals_of_due hg) (hcovered before after hsplit)

/-- **A pass takes nothing more from a grant that has been met.** -/
theorem pass_met (h : processExpiringGrants w.db scan w.now = .ok r) (hw : Exact w)
    {p : CreditLedgerRow × Int} (hp : p ∈ w.met) : r.1.removals p.1.id = w.db.removals p.1.id := by
  by_cases hdue : p.1 ∈ w.db.dueGrants scan w.now
  · have hnone := removals_of_due hdue
    have hzero : w.db.unspent p.1 = 0 := by
      cases hw.settled p hp with
      | inl hs => exact hs.2
      | inr hs =>
          obtain ⟨row, hrow, -⟩ := hs
          rw [hrow] at hnone
          cases hnone
    rw [hnone]
    cases pass_settles h hdue fun _ _ _ => .inl hzero with
    | inl hs => exact hs.1
    | inr hs =>
        obtain ⟨row, -, hpos, hle⟩ := hs
        omega
  · refine (pass_keeps h).removals _ fun g hg he => hdue ?_
    rwa [← w.db.ledger.eq_of_key_eq (mem_dueGrants.mp hg).1 (hw.mem p hp) he]

theorem mem_firstMet {p : CreditLedgerRow × Int} (h : p ∈ w.firstMet scan) :
    p.1 ∈ w.db.dueGrants scan w.now ∧ ¬ w.Met p.1 ∧ p.2 = w.db.unspent p.1 := by
  obtain ⟨g, hg, rfl⟩ := List.mem_map.mp h
  obtain ⟨hdue, hmet⟩ := List.mem_filter.mp hg
  exact ⟨hdue, of_decide_eq_true hmet, rfl⟩

theorem pass_exact (h : processExpiringGrants w.db scan w.now = .ok r) (hw : Exact w)
    (hcovered : FirstPassCovered w (.call (.expire scan))) :
    Exact { w with
      db := r.1
      met := w.firstMet scan ++ w.met } := by
  have hkeeps := pass_keeps h
  refine ⟨fun p hp => ?_, fun p hp => ?_, fun p hp => ?_, fun i hi => ?_⟩
  · cases List.mem_append.mp hp with
    | inl hp => exact hkeeps.rows _ (mem_dueGrants.mp (mem_firstMet hp).1).1
    | inr hp => exact hkeeps.rows _ (hw.mem p hp)
  · cases List.mem_append.mp hp with
    | inl hp =>
        rw [(mem_firstMet hp).2.2]
        exact unspent_nonneg _ _
    | inr hp => exact hw.nonneg p hp
  · cases List.mem_append.mp hp with
    | inl hp =>
        obtain ⟨hdue, hnew, hu⟩ := mem_firstMet hp
        rw [hu]
        exact pass_settles h hdue fun before after hsplit => hcovered before p.1 after hsplit hnew
    | inr hp =>
        exact Settled.same (hw.settled p hp) (pass_met h hw hp) fun hzero => (hkeeps.unspent _).trans hzero
  · have hold : ∀ p ∈ w.met, p.1.id ≠ i := fun p hp => hi p (List.mem_append_right _ hp)
    rw [← hw.unmet i hold]
    refine hkeeps.removals i fun g hg he => ?_
    by_cases hmet : w.Met g
    · obtain ⟨u, hu⟩ := hmet
      exact hold _ hu he
    · refine hi (g, w.db.unspent g) (List.mem_append_left _ ?_) he
      exact List.mem_map_of_mem (f := fun g => (g, w.db.unspent g))
        (List.mem_filter.mpr ⟨hg, decide_eq_true hmet⟩)

end pass

/-! ### The run -/

/-- **Step lemma.**  A step keeps the world exact, and the clawbacks of the grants met before it. -/
theorem expiry_step {w : ExpiryWorld} {s : ExpiryStep} (hcovered : FirstPassCovered w s) (hw : Exact w) :
    Exact (expiryStep w s) ∧
      ∀ p ∈ w.met, p ∈ (expiryStep w s).met ∧ (expiryStep w s).db.removals p.1.id = w.db.removals p.1.id := by
  cases s with
  | advance duration => exact ⟨⟨hw.mem, hw.nonneg, hw.settled, hw.unmet⟩, fun p hp => ⟨hp, rfl⟩⟩
  | call c =>
      cases hr : execute w.db w.now c with
      | error e =>
          have hstay : expiryStep w (.call c) = w := by simp only [expiryStep, hr]
          rw [hstay]
          exact ⟨hw, fun p hp => ⟨hp, rfl⟩⟩
      | ok db' =>
          have hstep : expiryStep w (.call c) = { w with
              db := db'
              met := metAfter w c } := by simp only [expiryStep, hr]
          rw [hstep]
          by_cases hc : ∃ scan, c = .expire scan
          · obtain ⟨scan, rfl⟩ := hc
            simp only [execute, bind_eq_ok, pure_eq_ok] at hr
            obtain ⟨r, hr, rfl⟩ := hr
            exact ⟨pass_exact hr hw hcovered, fun p hp => ⟨List.mem_append_right _ hp, pass_met hr hw hp⟩⟩
          · have hc' : ∀ scan, c ≠ .expire scan := fun scan he => hc ⟨scan, he⟩
            have hmet : metAfter w c = w.met := by
              cases c with
              | expire scan => exact absurd rfl (hc' scan)
              | _ => rfl
            obtain ⟨hremovals, hrows, hzero⟩ := execute_keeps hr hc' hcovered
            rw [hmet]
            refine ⟨⟨fun p hp => hrows _ (hw.mem p hp), hw.nonneg, fun p hp => ?_, fun i hi => ?_⟩,
              fun p hp => ⟨hp, hremovals _⟩⟩
            · unfold Db.Settled
              rw [hremovals]
              cases hw.settled p hp with
              | inl hs => exact .inl ⟨hs.1, hzero p.1 ⟨p.2, hp⟩ hs.1 hs.2⟩
              | inr hs => exact .inr hs
            · rw [hremovals]
              exact hw.unmet i hi

/-- What the passes have taken back of grant `i`. -/
def Db.removed (db : Db) (i : Nat) : Int := -((db.removals i).map (·.amount)).sum

/-- **Grants expire once and never take paid credit.**  In every run in which each pass that looks at a grant
for the first time finds nothing of it unspent or a balance that exceeds what is unspent of the grants
before it: the passes take back at most what was unspent of a grant at its first pass, with one row,
nothing before that pass and nothing more after it; and no pass makes a balance negative. -/
theorem grant_expiry_once (w : ExpiryWorld) (steps : List ExpiryStep) (hfresh : w.Fresh)
    (h : StepsMeet expiryStep FirstPassCovered w steps) :
    (∀ p ∈ (run expiryStep w steps).met, (run expiryStep w steps).db.removed p.1.id ≤ p.2) ∧
    (∀ i, ((run expiryStep w steps).db.removals i).length ≤ 1) ∧
    (∀ i, (∀ p ∈ (run expiryStep w steps).met, p.1.id ≠ i) → (run expiryStep w steps).db.removals i = []) ∧
    (∀ pre post, steps = pre ++ post → ∀ p ∈ (run expiryStep w pre).met,
      p ∈ (run expiryStep w steps).met ∧
        (run expiryStep w steps).db.removals p.1.id = (run expiryStep w pre).db.removals p.1.id) ∧
    ∀ pre scan post, steps = pre ++ .call (.expire scan) :: post → ∀ i,
      0 ≤ (run expiryStep w pre).db.balance i →
        0 ≤ (run expiryStep w (pre ++ [.call (.expire scan)])).db.balance i := by
  have hstart : Exact w := by
    refine ⟨fun p hp => ?_, fun p hp => ?_, fun p hp => ?_, fun i _ => hfresh.2 i⟩
    · rw [hfresh.1] at hp
      cases hp
    · rw [hfresh.1] at hp
      cases hp
    · rw [hfresh.1] at hp
      cases hp
  have hexact : ∀ steps, StepsMeet expiryStep FirstPassCovered w steps → Exact (run expiryStep w steps) :=
    fun steps hC => run_invariant (I := Exact) (fun _ _ hc hw => (expiry_step hc hw).1) steps w hstart hC
  refine ⟨fun p hp => ?_, fun i => CreditLedger.length_withRef _ _ _, (hexact steps h).unmet, ?_, ?_⟩
  · have hw := hexact steps h
    unfold Db.removed
    cases hw.settled p hp with
    | inl hs =>
        rw [hs.1]
        simpa using hw.nonneg p hp
    | inr hs =>
        obtain ⟨r, hr, -, hle⟩ := hs
        rw [hr]
        simpa using hle
  · rintro pre post rfl p hp
    rw [stepsMeet_append] at h
    rw [run_append]
    have hinv := run_invariant
      (I := fun w' => Exact w' ∧ p ∈ w'.met ∧ w'.db.removals p.1.id = (run expiryStep w pre).db.removals p.1.id)
      (fun w' s hc hI => by
        obtain ⟨hw', hp', hsame⟩ := hI
        obtain ⟨hnext, hkeep⟩ := expiry_step hc hw'
        exact ⟨hnext, (hkeep p hp').1, (hkeep p hp').2.trans hsame⟩)
      post _ ⟨hexact pre h.1, hp, rfl⟩ h.2
    exact hinv.2
  · rintro pre scan post rfl i hi
    rw [run_append, run_cons, run_nil]
    generalize run expiryStep w pre = w' at hi ⊢
    cases hr : execute w'.db w'.now (.expire scan) with
    | error e =>
        have hstay : expiryStep w' (.call (.expire scan)) = w' := by simp only [expiryStep, hr]
        rwa [hstay]
    | ok db' =>
        have hstep : (expiryStep w' (.call (.expire scan))).db = db' := by simp only [expiryStep, hr]
        rw [hstep]
        simp only [execute, bind_eq_ok, pure_eq_ok] at hr
        obtain ⟨r, hr, rfl⟩ := hr
        exact (pass_keeps hr).nonneg i hi

/-- Organization 1 owes `owed`, and nothing else has happened. -/
def owingWorld (owed : Nat) (h : owed < 10 ^ 14) : ExpiryWorld :=
  ⟨⟨⟨[⟨1, 0, owed, none, none, 0⟩], by simp, by
      intro o ho
      rw [List.mem_singleton.mp ho]
      show (-10 ^ 14 : Int) < 0 ∧ (0 : Int) < 10 ^ 14 ∧ -10 ^ 14 < (owed : Int) ∧ (owed : Int) < 10 ^ 14 ∧ (0 : Int) ≤ 0
      omega⟩, [], .empty, .empty, .empty⟩, 0, []⟩

/-- A grant of 10 USD to organization 1, which has spent `spent`, that expires at instant 10. -/
def expiringGrant (spent : Nat) : PlainCredit :=
  ⟨⟨1, .grant, 10000000, none, .admin, none, none, some 10, some spent⟩, by simp⟩

/-- A top-up of 50 USD. -/
def paidTopup : PlainCredit :=
  ⟨⟨1, .topup, 50000000, some "Credit top-up", .stripe, some "cs_1", none, none, none⟩, by decide⟩

/-- The order of the table. -/
def tableOrder : ScanOrder := ⟨id, fun _ => .refl _⟩

/-- A grant, and the pass after its expiry. -/
def grantAndPass (spent : Nat) : List ExpiryStep :=
  [.call (.credit (expiringGrant spent)), .advance 20, .call (.expire tableOrder)]

/-- A top-up and another pass. -/
def topupAndPass : List ExpiryStep := [.call (.credit paidTopup), .call (.expire tableOrder)]

theorem grant_expiry_once_sample :
    (run expiryStep (owingWorld 0 (by decide)) (grantAndPass 0 ++ topupAndPass)).db.removals 1 =
      (run expiryStep (owingWorld 0 (by decide)) (grantAndPass 0)).db.removals 1 := by
  have hcovered : StepsMeet expiryStep FirstPassCovered (owingWorld 0 (by decide))
      (grantAndPass 0 ++ topupAndPass) :=
    ⟨trivial, trivial, covered_of_length (by decide) (by decide), trivial,
      covered_of_length (by decide) (by decide), trivial⟩
  exact ((grant_expiry_once (owingWorld 0 (by decide)) _ ⟨rfl, fun _ => rfl⟩ hcovered).2.2.2.1 (grantAndPass 0)
    topupAndPass rfl _ List.mem_cons_self).2

/-- The first pass finds 10 USD unspent and a balance below zero; after a top-up the next pass takes the 10
USD out of it. -/
theorem late_pass_takes_topup : ¬ ∀ (w : ExpiryWorld) (pre post : List ExpiryStep), w.Fresh →
    ∀ p ∈ (run expiryStep w pre).met,
      (run expiryStep w (pre ++ post)).db.removals p.1.id = (run expiryStep w pre).db.removals p.1.id := by
  intro h
  have hsame := h (owingWorld 20000000 (by decide)) (grantAndPass 20000000) topupAndPass ⟨rfl, fun _ => rfl⟩
    _ List.mem_cons_self
  revert hsame
  decide

end Experiential.Billing
