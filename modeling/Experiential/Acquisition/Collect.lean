import Experiential.Acquisition.Connectors

/-! # A bounded pull of a remote source

`collect` asks for the records that are still wanted, page after page, and keeps the first record of
every canonical text. The connectors turn the wanted number into the page's size, so the last page of
a pull that is no multiple of the page size is counted in smaller pages than those before it and starts
too early. `pull_exact_iff`: the pull returns the distinct records among the first `maxRecords` exactly
when nothing new stands between where that page ends and `maxRecords`, and everything fits. -/

namespace Experiential.Acquisition

/-- `_MAX_REMOTE_PAGES` -/
def maxRemotePages : ℕ := 100

/-- What `_collect` has between two pages. -/
structure Collection (ρ : Type) where
  records : List ρ
  seenRecords : List String
  seenCursors : List String
  cursor : Option String
  fetched : ℕ
  canonicalByteSize : ℕ

def Collection.empty {ρ : Type} : Collection ρ := ⟨[], [], [], none, 0, 0⟩

section code
variable {ρ : Type} (canonical : ρ → Option String)
  (fetchPage : Option String → ℕ → Except AcquisitionErrorCode (ConnectorBatch ρ)) (maxRecords : ℕ)

/-- One record of a batch. -/
def keepRecord (c : Collection ρ) (record : ρ) : Except AcquisitionErrorCode (Collection ρ) := do
  let identity ← require (canonical record) .invalidSourceResponse
  if identity ∈ c.seenRecords then return c
  else do
    let size := c.canonicalByteSize + (identity.utf8ByteSize + 1)
    ensure (size ≤ maxTraceObjectBytes) .objectTooLarge
    return { c with
      canonicalByteSize := size
      seenRecords := identity :: c.seenRecords
      records := c.records ++ [record] }

/-- The loop of `_collect`, for a number of pages. -/
def collectPages : ℕ → Collection ρ → Except AcquisitionErrorCode (Collection ρ)
  | 0, c => .ok c
  | n + 1, c =>
      if maxRecords ≤ c.fetched then .ok c
      else do
        let remaining := maxRecords - c.fetched
        let batch ← fetchPage c.cursor remaining
        ensure (batch.records.length ≤ remaining ∧ ¬ (batch.records.isEmpty ∧ batch.nextCursor.isSome))
          .invalidSourceResponse
        let c ← batch.records.foldlM (keepRecord canonical) { c with fetched := c.fetched + batch.records.length }
        match batch.nextCursor with
        | none => return c
        | some next =>
            if maxRecords ≤ c.fetched then return c
            else do
              ensure (c.cursor ≠ some next ∧ next ∉ c.seenCursors) .invalidSourceResponse
              collectPages n { c with seenCursors := next :: c.seenCursors, cursor := some next }

/-- `_collect` -/
def collect : Except AcquisitionErrorCode (List ρ) := do
  let c ← collectPages canonical fetchPage maxRecords maxRemotePages .empty
  return c.records

end code

/-! ### Keeping records -/

section keep
variable {ρ : Type} {canonical : ρ → Option String} {raw : List ρ} {c : Collection ρ}

/-- The distinct records can be stored. -/
def Kept (canonical : ρ → Option String) (raw : List ρ) : Prop :=
  (∀ r ∈ raw, (canonical r).isSome) ∧ linesBytes canonical (firsts canonical [] raw) ≤ maxTraceObjectBytes

instance (canonical : ρ → Option String) (raw : List ρ) : Decidable (Kept canonical raw) :=
  inferInstanceAs (Decidable ((∀ r ∈ raw, (canonical r).isSome) ∧
    linesBytes canonical (firsts canonical [] raw) ≤ maxTraceObjectBytes))

theorem Kept.of_append {l : List ρ} (h : Kept canonical (raw ++ l)) : Kept canonical raw := by
  obtain ⟨hsome, hbytes⟩ := h
  rw [firsts_append, linesBytes_append] at hbytes
  exact ⟨fun r hr => hsome r (List.mem_append_left _ hr), by omega⟩

/-- What the loop has after the records `raw`. -/
structure Collected (canonical : ρ → Option String) (raw : List ρ) (c : Collection ρ) : Prop where
  records : c.records = firsts canonical [] raw
  seen : ∀ t, t ∈ c.seenRecords ↔ some t ∈ raw.map canonical
  size : c.canonicalByteSize = linesBytes canonical (firsts canonical [] raw)
  kept : Kept canonical raw

theorem Collected.empty : Collected canonical [] (.empty : Collection ρ) where
  records := rfl
  seen := by simp [Collection.empty]
  size := rfl
  kept := ⟨by simp, Nat.zero_le _⟩

/-- What one record does: nothing when its text was seen, and else it is kept. -/
theorem Collected.record (h : Collected canonical raw c) (r : ρ) :
    (∀ c', keepRecord canonical c r = .ok c' → Collected canonical (raw ++ [r]) c' ∧
      c'.fetched = c.fetched ∧ c'.cursor = c.cursor ∧ c'.seenCursors = c.seenCursors) ∧
      (Kept canonical (raw ++ [r]) → ∃ c', keepRecord canonical c r = .ok c') := by
  unfold keepRecord
  cases htext : canonical r with
  | none =>
      refine ⟨fun c' hc' => by simp [require] at hc', fun hkept => ?_⟩
      have hsome := hkept.1 r (by simp)
      rw [htext] at hsome
      cases hsome
  | some text =>
      have hsomes : ∀ s ∈ raw ++ [r], (canonical s).isSome := by
        intro s hs
        rcases List.mem_append.mp hs with hs | hs
        · exact h.kept.1 s hs
        · rw [List.mem_singleton.mp hs, htext]
          rfl
      simp only [require, bind_eq_ok, Except.ok.injEq, exists_eq_left']
      by_cases hseen : text ∈ c.seenRecords
      · have hold : ∀ s ∈ [r], canonical s ∈ raw.map canonical := by
          intro s hs
          rw [List.mem_singleton.mp hs, htext]
          exact (h.seen text).mp hseen
        have hfirsts : firsts canonical [] (raw ++ [r]) = firsts canonical [] raw := firsts_append_eq_iff.mpr hold
        simp only [if_pos hseen, pure_eq_ok]
        refine ⟨?_, fun _ => ⟨c, rfl⟩⟩
        rintro c' rfl
        refine ⟨⟨hfirsts ▸ h.records, ?_, hfirsts ▸ h.size, hsomes, hfirsts ▸ h.kept.2⟩, rfl, rfl, rfl⟩
        intro t
        rw [h.seen, List.map_append, List.mem_append]
        constructor
        · exact .inl
        · rintro (ht | ht)
          · exact ht
          · rw [List.map_singleton, List.mem_singleton] at ht
            exact ht ▸ hold r (by simp)
      · have hnew : canonical r ∉ raw.map canonical := by
          rw [htext]
          exact fun hmem => hseen ((h.seen text).mpr hmem)
        have hfirsts : firsts canonical [] (raw ++ [r]) = firsts canonical [] raw ++ [r] := by
          rw [firsts_append, List.append_nil, firsts_cons_of_not_mem hnew]
          rfl
        have hline : linesBytes canonical [r] = text.utf8ByteSize + 1 := by
          unfold linesBytes
          simp only [List.map_singleton, List.sum_singleton, htext, Option.elim_some]
        have hlines : linesBytes canonical (firsts canonical [] (raw ++ [r])) =
            c.canonicalByteSize + (text.utf8ByteSize + 1) := by
          rw [hfirsts, linesBytes_append, hline, h.size]
        simp only [if_neg hseen, bind_eq_ok, ensure_eq_ok, pure_eq_ok]
        constructor
        · rintro c' ⟨_, hfit, rfl⟩
          refine ⟨⟨?_, ?_, hlines.symm, hsomes, hlines ▸ hfit⟩, rfl, rfl, rfl⟩
          · rw [hfirsts, ← h.records]
          · intro t
            rw [List.mem_cons, h.seen, List.map_append, List.mem_append, List.map_singleton, List.mem_singleton, htext,
              Option.some.injEq]
            exact or_comm
        · exact fun hkept => ⟨_, (), hlines ▸ hkept.2, rfl⟩

theorem Collected.counted (h : Collected canonical raw c) (n : ℕ) :
    Collected canonical raw { c with fetched := n } := ⟨h.records, h.seen, h.size, h.kept⟩

theorem Collected.batch : ∀ (l : List ρ) {raw : List ρ} {c : Collection ρ}, Collected canonical raw c →
    (∀ c', l.foldlM (keepRecord canonical) c = .ok c' → Collected canonical (raw ++ l) c' ∧
      c'.fetched = c.fetched ∧ c'.cursor = c.cursor ∧ c'.seenCursors = c.seenCursors) ∧
      (Kept canonical (raw ++ l) → ∃ c', l.foldlM (keepRecord canonical) c = .ok c')
  | [], raw, c, h => by
      refine ⟨fun c' hc' => ?_, fun _ => ⟨c, rfl⟩⟩
      cases hc'
      rw [List.append_nil]
      exact ⟨h, rfl, rfl, rfl⟩
  | r :: l, raw, c, h => by
      have happ : raw ++ r :: l = raw ++ [r] ++ l := by simp
      simp only [List.foldlM_cons, bind_eq_ok, happ]
      constructor
      · rintro c' ⟨c₁, hone, hall⟩
        obtain ⟨h₁, hf₁, hc₁, hs₁⟩ := (h.record r).1 c₁ hone
        obtain ⟨h', hf', hc', hs'⟩ := (Collected.batch l h₁).1 c' hall
        exact ⟨h', hf'.trans hf₁, hc'.trans hc₁, hs'.trans hs₁⟩
      · intro hkept
        obtain ⟨c₁, hone⟩ := (h.record r).2 hkept.of_append
        obtain ⟨c', hall⟩ := (Collected.batch l ((h.record r).1 c₁ hone).1).2 hkept
        exact ⟨c', c₁, hone, hall⟩

end keep

/-! ### The pages of a pull -/

section requests
variable {ρ : Type} (l : List ρ) (pageSize maxRecords : ℕ)

/-- The size asked for with page `j`. -/
def requestSize (j : ℕ) : ℕ := min (maxRecords - j * pageSize) pageSize

/-- The pages that a pull fetches from page `j` on, `n` at most. -/
def requests : ℕ → ℕ → List ℕ
  | 0, _ => []
  | n + 1, j =>
      if maxRecords ≤ j * pageSize then []
      else j :: if (page l j (requestSize pageSize maxRecords j)).length = requestSize pageSize maxRecords j then
        requests n (j + 1) else []

/-- The records of the pages. -/
def pagesOf (js : List ℕ) : List ρ := js.flatMap fun j => page l j (requestSize pageSize maxRecords j)

end requests

section pages
variable {ρ : Type} {canonical : ρ → Option String} {l : List ρ}
  {fetchPage : Option String → ℕ → Except AcquisitionErrorCode (ConnectorBatch ρ)}
  {start pageSize maxRecords : ℕ} {Fits : ℕ → ℕ → Prop}

/-- The loop is about to ask for page `j`. -/
structure AtPage (canonical : ρ → Option String) (start pageSize j : ℕ) (raw : List ρ) (c : Collection ρ) : Prop where
  collected : Collected canonical raw c
  fetched : c.fetched = j * pageSize
  cursor : positiveCursor c.cursor start = .ok (start + j)
  current : ∀ t, c.cursor = some t → t = toString (start + j)
  cursors : ∀ t ∈ c.seenCursors, ∃ i ≤ j, t = toString (start + i)

theorem positiveCursor_toString (j : ℕ) : positiveCursor (some (toString (start + j))) start = .ok (start + j) := by
  have hdigits : ∀ c ∈ (toString (start + j)).toList, c.isDigit = true := fun c hc =>
    by_contra fun h => not_mem_decimal (Bool.not_eq_true _ ▸ h) _ hc
  have hstrip : Py.Str.stripText (toString (start + j)) = toString (start + j) :=
    Py.Str.stripText_eq_self fun c hc => by
      have hc := hdigits c hc
      rw [Char.isDigit, Bool.and_eq_true, decide_eq_true_eq, decide_eq_true_eq] at hc
      exact decide_eq_false fun h => by
        have hlow : 48 ≤ c.toNat := hc.1
        have hhigh : c.toNat ≤ 57 := hc.2
        simp only [Py.CodePoint.ofNat_toNat_scalar] at h
        omega
  have hint : intOf (toString (start + j)) = some (start + j : ℕ) := by
    unfold intOf
    simp only [hstrip]
    split
    · next h => exact absurd (hdigits '-' (h ▸ List.mem_cons_self)) (by decide)
    · next h => exact absurd (hdigits '+' (h ▸ List.mem_cons_self)) (by decide)
    · exact congrArg (Option.map _) (Nat.toNat?_repr (start + j))
  unfold positiveCursor
  simp only [hint]
  exact if_neg (by omega)

/-- One page: it is fetched if it fits, its records are kept, and the loop goes on after a full page
when more are wanted. -/
theorem collectPages_page (hserves : Serves fetchPage start pageSize l Fits) (hpos : 0 < pageSize) {n j size : ℕ}
    {raw : List ρ} {c c' : Collection ρ} (h : AtPage canonical start pageSize j raw c)
    (hwanted : ¬ maxRecords ≤ j * pageSize) (hsize : requestSize pageSize maxRecords j = size) :
    collectPages canonical fetchPage maxRecords (n + 1) c = .ok c' ↔
      Fits j size ∧ ∃ c₁, (page l j size).foldlM (keepRecord canonical)
          { c with fetched := c.fetched + (page l j size).length } = .ok c₁ ∧
        (if (page l j size).length = size ∧ ¬ maxRecords ≤ c₁.fetched then
          collectPages canonical fetchPage maxRecords n
            { c₁ with seenCursors := toString (start + j + 1) :: c₁.seenCursors
                      cursor := some (toString (start + j + 1)) }
        else .ok c₁) = .ok c' := by
  have hmin : min (maxRecords - c.fetched) pageSize = size := by
    rw [h.fetched]
    exact hsize
  have hle : (page l j size).length ≤ maxRecords - c.fetched :=
    (length_page_le l j size).trans (hmin ▸ Nat.min_le_left _ _)
  have hsome : 0 < size := by
    rw [← hsize, requestSize]
    omega
  have hcode : ¬ maxRecords ≤ c.fetched := h.fetched ▸ hwanted
  have hfetch := hserves c.cursor j (maxRecords - c.fetched) h.cursor
  rw [hmin] at hfetch
  have hframe : ∀ c₁, (page l j size).foldlM (keepRecord canonical)
      { c with fetched := c.fetched + (page l j size).length } = .ok c₁ →
        c₁.cursor = c.cursor ∧ c₁.seenCursors = c.seenCursors := fun c₁ hc₁ =>
    ((Collected.batch _ (h.collected.counted _)).1 c₁ hc₁).2.2
  -- the next cursor is a number that has not been
  have hfresh : ∀ i ≤ j, toString (start + j + 1) ≠ toString (start + i) := fun i hi heq => by
    have := decimal_injective heq
    omega
  rw [collectPages, if_neg hcode]
  simp only [bind_eq_ok, hfetch, ensure_eq_ok]
  by_cases hfull : (page l j size).length = size
  · simp only [hfull, if_true, true_and]
    have hne : (page l j size).isEmpty = false := by
      rw [List.isEmpty_eq_false_iff, ← List.length_pos_iff, hfull]
      exact hsome
    constructor
    · rintro ⟨_, ⟨hfits, rfl⟩, _, -, c₁, hc₁, hrest⟩
      refine ⟨hfits, c₁, by simpa only [hfull] using hc₁, ?_⟩
      simp only at hrest
      split at hrest
      · rename_i hmore
        rw [if_neg (not_not.mpr hmore)]
        exact hrest
      · rename_i hmore
        rw [if_pos hmore]
        simp only [bind_eq_ok, ensure_eq_ok] at hrest
        obtain ⟨_, -, hrest⟩ := hrest
        exact hrest
    · rintro ⟨hfits, c₁, hc₁, hrest⟩
      refine ⟨_, ⟨hfits, rfl⟩, (), ⟨hfull ▸ hle, by simp [hne]⟩, c₁, by simpa only [hfull] using hc₁, ?_⟩
      simp only
      split
      · rename_i hmore
        rw [if_neg (not_not.mpr hmore)] at hrest
        exact hrest
      · rename_i hmore
        rw [if_pos hmore] at hrest
        simp only [bind_eq_ok, ensure_eq_ok]
        obtain ⟨hcursor, hcursors⟩ := hframe c₁ (by simpa only [hfull] using hc₁)
        refine ⟨(), ⟨?_, ?_⟩, hrest⟩
        · rw [hcursor]
          exact fun hcur => hfresh j (Nat.le_refl j) (h.current _ hcur)
        · rw [hcursors]
          intro hmem
          obtain ⟨i, hi, heq⟩ := h.cursors _ hmem
          exact hfresh i hi heq
  · simp only [hfull, if_false, false_and]
    constructor
    · rintro ⟨_, ⟨hfits, rfl⟩, _, -, c₁, hc₁, hrest⟩
      exact ⟨hfits, c₁, hc₁, hrest⟩
    · rintro ⟨hfits, c₁, hc₁, hrest⟩
      exact ⟨_, ⟨hfits, rfl⟩, (), ⟨hle, by simp⟩, c₁, hc₁, hrest⟩

theorem AtPage.next {j size : ℕ} {raw : List ρ} {c c₁ : Collection ρ} (h : AtPage canonical start pageSize j raw c)
    (hsize : requestSize pageSize maxRecords j = size) (hfull : (page l j size).length = size)
    (hc₁ : (page l j size).foldlM (keepRecord canonical)
      { c with fetched := c.fetched + (page l j size).length } = .ok c₁) (hmore : ¬ maxRecords ≤ c₁.fetched) :
    AtPage canonical start pageSize (j + 1) (raw ++ page l j size)
      { c₁ with seenCursors := toString (start + j + 1) :: c₁.seenCursors
                cursor := some (toString (start + j + 1)) } := by
  obtain ⟨hcollected, hfetched, -, hcursors⟩ := (Collected.batch _ (h.collected.counted _)).1 c₁ hc₁
  simp only [hfull, h.fetched] at hfetched hcursors
  have hps : size = pageSize := by
    unfold requestSize at hsize
    omega
  refine ⟨⟨hcollected.records, hcollected.seen, hcollected.size, hcollected.kept⟩, ?_, ?_, ?_, ?_⟩
  · rw [hfetched, hps, Nat.add_one_mul]
  · exact positiveCursor_toString (j + 1)
  · intro t ht
    exact (Option.some.inj ht).symm
  · intro t ht
    rcases List.mem_cons.mp ht with rfl | ht
    · exact ⟨j + 1, Nat.le_refl _, rfl⟩
    · rw [hcursors] at ht
      obtain ⟨i, hi, heq⟩ := h.cursors t ht
      exact ⟨i, Nat.le_succ_of_le hi, heq⟩

/-- What the loop comes to from page `j` on: it returns exactly when the pages fit and their distinct
records can be stored, and returns these. -/
def Pulls (canonical : ρ → Option String) (Fits : ℕ → ℕ → Prop) (size : ℕ → ℕ) (l raw : List ρ) (js : List ℕ)
    (result : Except AcquisitionErrorCode (Collection ρ)) : Prop :=
  (∀ c', result = .ok c' → (∀ i ∈ js, Fits i (size i)) ∧ Kept canonical (raw ++ js.flatMap fun i => page l i (size i)) ∧
    c'.records = firsts canonical [] (raw ++ js.flatMap fun i => page l i (size i))) ∧
  ((∀ i ∈ js, Fits i (size i)) → Kept canonical (raw ++ js.flatMap fun i => page l i (size i)) → ∃ c', result = .ok c')

theorem Pulls.stop {size : ℕ → ℕ} {raw : List ρ} {c : Collection ρ} (h : Collected canonical raw c) :
    Pulls canonical Fits size l raw [] (.ok c) := by
  unfold Pulls
  simp only [List.flatMap_nil, List.append_nil, Except.ok.injEq]
  refine ⟨?_, fun _ _ => ⟨c, rfl⟩⟩
  rintro c' rfl
  exact ⟨by simp, h.kept, h.records⟩

theorem Pulls.fetched {size : ℕ → ℕ} {j : ℕ} {js : List ℕ} {raw : List ρ} {c : Collection ρ}
    {result : Except AcquisitionErrorCode (Collection ρ)}
    {rest : Collection ρ → Except AcquisitionErrorCode (Collection ρ)} (h : Collected canonical raw c)
    (hone : ∀ c', result = .ok c' ↔ Fits j (size j) ∧
      ∃ c₁, (page l j (size j)).foldlM (keepRecord canonical) c = .ok c₁ ∧ rest c₁ = .ok c')
    (hrest : ∀ c₁, (page l j (size j)).foldlM (keepRecord canonical) c = .ok c₁ →
      Collected canonical (raw ++ page l j (size j)) c₁ →
        Pulls canonical Fits size l (raw ++ page l j (size j)) js (rest c₁)) :
    Pulls canonical Fits size l raw (j :: js) result := by
  have hbatch := Collected.batch (page l j (size j)) h
  unfold Pulls
  simp only [List.flatMap_cons, ← List.append_assoc, List.forall_mem_cons]
  constructor
  · intro c' hc'
    obtain ⟨hfits, c₁, hc₁, hc'⟩ := (hone c').mp hc'
    obtain ⟨hall, hkept, hrecords⟩ := (hrest c₁ hc₁ (hbatch.1 c₁ hc₁).1).1 c' hc'
    exact ⟨⟨hfits, hall⟩, hkept, hrecords⟩
  · rintro ⟨hfits, hall⟩ hkept
    obtain ⟨c₁, hc₁⟩ := hbatch.2 hkept.of_append
    obtain ⟨c', hc'⟩ := (hrest c₁ hc₁ (hbatch.1 c₁ hc₁).1).2 hall hkept
    exact ⟨c', (hone c').mpr ⟨hfits, c₁, hc₁, hc'⟩⟩

theorem collectPages_pulls (hserves : Serves fetchPage start pageSize l Fits) (hpos : 0 < pageSize) :
    ∀ (n j : ℕ) (raw : List ρ) (c : Collection ρ), AtPage canonical start pageSize j raw c →
      Pulls canonical Fits (requestSize pageSize maxRecords) l raw (requests l pageSize maxRecords n j)
        (collectPages canonical fetchPage maxRecords n c)
  | 0, j, raw, c, h => .stop h.collected
  | n + 1, j, raw, c, h => by
      by_cases hdone : maxRecords ≤ j * pageSize
      · rw [collectPages, requests, if_pos hdone, if_pos (h.fetched ▸ hdone)]
        exact .stop h.collected
      · rw [requests, if_neg hdone]
        refine Pulls.fetched (h.collected.counted _)
          (fun _ => collectPages_page (n := n) hserves hpos h hdone rfl) ?_
        intro c₁ hc₁ hcollected
        have hfetched : c₁.fetched = c.fetched + (page l j (requestSize pageSize maxRecords j)).length :=
          ((Collected.batch _ (h.collected.counted _)).1 c₁ hc₁).2.1
        by_cases hfull : (page l j (requestSize pageSize maxRecords j)).length =
            requestSize pageSize maxRecords j
        · rw [if_pos hfull]
          by_cases hmore : maxRecords ≤ c₁.fetched
          · -- the pull has what it wanted
            have hstop : requests l pageSize maxRecords n (j + 1) = [] := by
              rw [hfetched, hfull, h.fetched] at hmore
              have hle : requestSize pageSize maxRecords j ≤ pageSize := Nat.min_le_right _ _
              cases n with
              | zero => rfl
              | succ n =>
                  rw [requests, if_pos]
                  rw [Nat.add_one_mul]
                  omega
            rw [hstop, if_neg fun hand => hand.2 hmore]
            exact .stop hcollected
          · rw [if_pos ⟨hfull, hmore⟩]
            exact collectPages_pulls hserves hpos n (j + 1) _ _ (h.next rfl hfull hc₁ hmore)
        · rw [if_neg hfull, if_neg fun hand => hfull hand.1]
          exact .stop hcollected

theorem Pulls.collected {js : List ℕ} {size : ℕ → ℕ}
    (h : Pulls canonical Fits size l [] js (collectPages canonical fetchPage maxRecords maxRemotePages .empty))
    {rs : List ρ} : collect canonical fetchPage maxRecords = .ok rs ↔
      ((∀ i ∈ js, Fits i (size i)) ∧ Kept canonical (js.flatMap fun i => page l i (size i))) ∧
        rs = firsts canonical [] (js.flatMap fun i => page l i (size i)) := by
  unfold Acquisition.collect
  simp only [bind_eq_ok, pure_eq_ok]
  constructor
  · rintro ⟨c, hc, rfl⟩
    obtain ⟨hfits, hkept, hrecords⟩ := h.1 c hc
    exact ⟨⟨hfits, hkept⟩, hrecords⟩
  · rintro ⟨⟨hfits, hkept⟩, rfl⟩
    obtain ⟨c, hc⟩ := h.2 hfits hkept
    exact ⟨c, hc, (h.1 c hc).2.2⟩

end pages

/-! ### How far a pull reaches -/

/-- The end of the part of the source whose records a pull has seen: full pages, and then a last page
of the records still wanted, which is counted in pages of that size. -/
def reach (pageSize maxRecords : ℕ) : ℕ :=
  if maxRemotePages * pageSize < maxRecords then maxRemotePages * pageSize
  else max (maxRecords / pageSize * pageSize) ((maxRecords / pageSize + 1) * (maxRecords % pageSize))

section reach
variable {ρ : Type} {canonical : ρ → Option String} {l : List ρ} {pageSize maxRecords : ℕ}

theorem reach_le : reach pageSize maxRecords ≤ maxRecords := by
  unfold reach
  split
  · omega
  · have hdiv : maxRecords / pageSize * pageSize + maxRecords % pageSize = maxRecords := Nat.div_add_mod' _ _
    have hle : maxRecords / pageSize * (maxRecords % pageSize) ≤ maxRecords / pageSize * pageSize := by
      rcases Nat.eq_zero_or_pos pageSize with rfl | hpos
      · simp
      · exact Nat.mul_le_mul_left _ (Nat.mod_lt _ hpos).le
    rw [Nat.add_one_mul]
    omega

theorem requestSize_full {j : ℕ} (h : (j + 1) * pageSize ≤ maxRecords) : requestSize pageSize maxRecords j = pageSize := by
  rw [Nat.add_one_mul] at h
  unfold requestSize
  omega

theorem requestSize_last {j : ℕ} (h : maxRecords ≤ (j + 1) * pageSize) :
    requestSize pageSize maxRecords j = maxRecords - j * pageSize := by
  rw [Nat.add_one_mul] at h
  unfold requestSize
  omega

/-- The pages that are asked for: those that begin before `maxRecords` and not after the source's end. -/
theorem mem_requests (hpos : 0 < pageSize) {i : ℕ} : ∀ {n j : ℕ}, i ∈ requests l pageSize maxRecords n j ↔
    j ≤ i ∧ i < j + n ∧ i * pageSize < maxRecords ∧ (i = j ∨ i * pageSize ≤ l.length)
  | 0, j => by
      simp only [requests, List.not_mem_nil, false_iff]
      omega
  | n + 1, j => by
      have hmono : ∀ k ≤ i, k * pageSize ≤ i * pageSize := fun k hk => Nat.mul_le_mul_right pageSize hk
      by_cases hdone : maxRecords ≤ j * pageSize
      · rw [requests, if_pos hdone]
        simp only [List.not_mem_nil, false_iff]
        rintro ⟨hji, -, hlt, -⟩
        have hle := hmono j hji
        omega
      · have hsize : 0 < requestSize pageSize maxRecords j := by
          unfold requestSize
          omega
        rw [requests, if_neg hdone, List.mem_cons]
        by_cases hij : i = j
        · subst hij
          simp only [true_or, true_iff, le_refl, true_and, and_true]
          omega
        · simp only [hij, false_or]
          -- a page after `j` is asked for when page `j` was a full one
          have hfull : j ≤ i → i * pageSize < maxRecords → requestSize pageSize maxRecords j = pageSize := by
            intro hji hlt
            have hle := hmono (j + 1) (by omega)
            exact requestSize_full (by omega)
          split
          · rename_i hpage
            rw [length_page_eq_iff hsize] at hpage
            rw [mem_requests hpos]
            constructor
            · rintro ⟨hji, hin, hlt, hlen⟩
              refine ⟨by omega, by omega, hlt, ?_⟩
              rcases hlen with rfl | hlen
              · rw [hfull (by omega) hlt] at hpage
                exact hpage
              · exact hlen
            · rintro ⟨hji, hin, hlt, hlen⟩
              exact ⟨by omega, by omega, hlt, .inr hlen⟩
          · rename_i hpage
            rw [length_page_eq_iff hsize] at hpage
            simp only [List.not_mem_nil, false_iff]
            rintro ⟨hji, -, hlt, hlen⟩
            rw [hfull hji hlt] at hpage
            have hle := hmono (j + 1) (by omega)
            omega

theorem requests_done {n j : ℕ} (h : maxRecords ≤ j * pageSize) : requests l pageSize maxRecords n j = [] := by
  cases n with
  | zero => rfl
  | succ n => rw [requests, if_pos h]

theorem reach_full {j : ℕ} (hpos : 0 < pageSize) (h : j = maxRemotePages ∧ j * pageSize < maxRecords ∨
    j ≤ maxRemotePages ∧ maxRecords = j * pageSize) : reach pageSize maxRecords = j * pageSize := by
  unfold reach
  rcases h with ⟨rfl, hlt⟩ | ⟨hj, rfl⟩
  · exact if_pos hlt
  · have hle : j * pageSize ≤ maxRemotePages * pageSize := Nat.mul_le_mul_right _ hj
    rw [if_neg (by omega), Nat.mul_div_cancel _ hpos, Nat.mul_mod_left, Nat.mul_zero, Nat.max_zero]

theorem reach_last {j : ℕ} (hj : j < maxRemotePages) (hlt : j * pageSize < maxRecords)
    (hle : maxRecords < (j + 1) * pageSize) :
    reach pageSize maxRecords = max (j * pageSize) ((j + 1) * (maxRecords - j * pageSize)) := by
  have hpages : (j + 1) * pageSize ≤ maxRemotePages * pageSize := Nat.mul_le_mul_right _ hj
  have hdiv : maxRecords / pageSize = j := Nat.div_eq_of_lt_le (by omega) hle
  have hmod : maxRecords % pageSize = maxRecords - j * pageSize := by
    have := Nat.div_add_mod' maxRecords pageSize
    rw [hdiv] at this
    omega
  unfold reach
  rw [if_neg (by omega), hdiv, hmod]

theorem le_reach {j : ℕ} (hj : j ≤ maxRemotePages) (h : j * pageSize ≤ maxRecords) :
    j * pageSize ≤ reach pageSize maxRecords := by
  unfold reach
  split
  · exact Nat.mul_le_mul_right _ hj
  · rcases Nat.eq_zero_or_pos pageSize with rfl | hpos
    · simp
    · refine le_trans ?_ (Nat.le_max_left _ _)
      exact Nat.mul_le_mul_right _ ((Nat.le_div_iff_mul_le hpos).mpr h)

/-- **What a pull has seen**: the first occurrences in its pages are those of an initial segment. -/
theorem firsts_requests (hpos : 0 < pageSize) : ∀ {n j : ℕ}, j + n = maxRemotePages → j * pageSize ≤ maxRecords →
    firsts canonical [] (l.take (j * pageSize) ++ pagesOf l pageSize maxRecords (requests l pageSize maxRecords n j)) =
      firsts canonical [] (l.take (reach pageSize maxRecords))
  | 0, j, hn, hj => by
      rw [requests, pagesOf, List.flatMap_nil, List.append_nil, reach_full hpos]
      omega
  | n + 1, j, hn, hj => by
      by_cases hdone : maxRecords ≤ j * pageSize
      · rw [requests_done hdone, pagesOf, List.flatMap_nil, List.append_nil, reach_full (j := j) hpos (.inr ⟨by omega, by omega⟩)]
      · rw [requests, if_neg hdone]
        by_cases hfull : (j + 1) * pageSize ≤ maxRecords
        · -- a page of the connector's size
          rw [requestSize_full hfull]
          split
          · have hpages : ∀ js, pagesOf l pageSize maxRecords (j :: js) =
                page l j pageSize ++ pagesOf l pageSize maxRecords js := by
              intro js
              rw [pagesOf, List.flatMap_cons, requestSize_full hfull]
              rfl
            rw [hpages, ← List.append_assoc, take_append_page, firsts_requests hpos (by omega) hfull]
          · rename_i hpage
            rw [length_page_eq_iff hpos] at hpage
            have hreach : (j + 1) * pageSize ≤ reach pageSize maxRecords := le_reach (by omega) hfull
            rw [pagesOf, List.flatMap_singleton, requestSize_full hfull, take_append_page,
              List.take_of_length_le (by omega), List.take_of_length_le (by omega)]
        · -- the last page
          have hrest : ∀ c : Prop, [Decidable c] →
              (if c then requests l pageSize maxRecords n (j + 1) else []) = [] := by
            intro c _
            rw [requests_done (by omega), ite_self]
          rw [hrest, pagesOf, List.flatMap_singleton, requestSize_last (by omega),
            firsts_take_page l (by rw [Nat.add_one_mul] at hfull; omega), reach_last (j := j) (by omega) (by omega) (by omega)]

theorem Kept.congr {l m : List ρ} (h : firsts canonical [] l = firsts canonical [] m) :
    Kept canonical l ↔ Kept canonical m := by
  have hkeys : ∀ k, k ∈ l.map canonical ↔ k ∈ m.map canonical := by
    intro k
    have hl := mem_map_firsts canonical (k := k) (l := l) (s := [])
    have hm := mem_map_firsts canonical (k := k) (l := m) (s := [])
    simp only [List.not_mem_nil, or_false] at hl hm
    rw [← hl, ← hm, h]
  have hsome : ∀ n : List ρ, (∀ r ∈ n, (canonical r).isSome) ↔ ∀ k ∈ n.map canonical, k.isSome :=
    fun n => (List.forall_mem_map (P := fun k : Option String => k.isSome = true)).symm
  unfold Kept
  rw [h, hsome l, hsome m]
  simp only [hkeys]

end reach

/-! ### What a pull returns -/

/-- Every page that the pull asks for is within the limits, and so are the distinct records it sees. -/
structure PullFits {ρ : Type} (canonical : ρ → Option String) (s : RemoteSource ρ) (pageSize maxRecords : ℕ) : Prop where
  pages : ∀ j < maxRemotePages, j * pageSize < maxRecords → j * pageSize ≤ s.records.length →
    s.PageFits canonical j (requestSize pageSize maxRecords j)
  kept : Kept canonical (s.records.take (reach pageSize maxRecords))

/-- Behind the end of what the pull sees, the wanted records repeat earlier ones. -/
def NothingNewBehind {ρ : Type} (canonical : ρ → Option String) (l : List ρ) (pageSize maxRecords : ℕ) : Prop :=
  ∀ r ∈ (l.take maxRecords).drop (reach pageSize maxRecords),
    canonical r ∈ (l.take (reach pageSize maxRecords)).map canonical

instance {ρ : Type} (canonical : ρ → Option String) (l : List ρ) (pageSize maxRecords : ℕ) :
    Decidable (NothingNewBehind canonical l pageSize maxRecords) :=
  inferInstanceAs (Decidable (∀ r ∈ (l.take maxRecords).drop (reach pageSize maxRecords),
    canonical r ∈ (l.take (reach pageSize maxRecords)).map canonical))

section exact
variable {ρ : Type} {canonical : ρ → Option String} {s : RemoteSource ρ} {pageSize maxRecords : ℕ}

theorem collect_eq_ok (hpos : 0 < pageSize) {rs : List ρ} :
    collect canonical (s.fetchPage canonical pageSize) maxRecords = .ok rs ↔
      PullFits canonical s pageSize maxRecords ∧
        rs = firsts canonical [] (s.records.take (reach pageSize maxRecords)) := by
  have hstart : AtPage canonical s.start pageSize 0 [] (.empty : Collection ρ) := by
    refine ⟨.empty, ?_, rfl, ?_, ?_⟩
    · rw [Nat.zero_mul]
      rfl
    · nofun
    · nofun
  have hserves : Serves (s.fetchPage canonical pageSize) s.start pageSize s.records (s.PageFits canonical) :=
    RemoteSource.serves s pageSize
  have hpulls : Pulls canonical (s.PageFits canonical) (requestSize pageSize maxRecords) s.records []
      (requests s.records pageSize maxRecords maxRemotePages 0)
      (collectPages canonical (s.fetchPage canonical pageSize) maxRecords maxRemotePages .empty) :=
    collectPages_pulls hserves hpos maxRemotePages 0 [] .empty hstart
  have hfirsts : firsts canonical [] (s.records.take (0 * pageSize) ++
      pagesOf s.records pageSize maxRecords (requests s.records pageSize maxRecords maxRemotePages 0)) =
        firsts canonical [] (s.records.take (reach pageSize maxRecords)) :=
    firsts_requests hpos (Nat.zero_add _) (by omega)
  rw [Nat.zero_mul, List.take_zero, List.nil_append] at hfirsts
  rw [hpulls.collected]
  change ((_ ∧ Kept canonical (pagesOf _ _ _ _)) ∧ rs = firsts canonical [] (pagesOf _ _ _ _)) ↔ _
  rw [hfirsts, Kept.congr hfirsts]
  constructor
  · rintro ⟨⟨hfits, hkept⟩, hrs⟩
    refine ⟨⟨?_, hkept⟩, hrs⟩
    intro j hj hlt hlen
    exact hfits j ((mem_requests hpos).mpr ⟨Nat.zero_le _, by omega, hlt, .inr hlen⟩)
  · rintro ⟨⟨hfits, hkept⟩, hrs⟩
    refine ⟨⟨?_, hkept⟩, hrs⟩
    intro j hj
    obtain ⟨-, hn, hlt, hlen⟩ := (mem_requests hpos).mp hj
    refine hfits j (by omega) hlt ?_
    rcases hlen with rfl | hlen
    · omega
    · exact hlen

theorem nothingNewBehind_iff {l : List ρ} : NothingNewBehind canonical l pageSize maxRecords ↔
    firsts canonical [] (l.take (reach pageSize maxRecords)) = firsts canonical [] (l.take maxRecords) := by
  have hsplit : l.take maxRecords =
      l.take (reach pageSize maxRecords) ++ (l.take maxRecords).drop (reach pageSize maxRecords) := by
    conv_lhs => rw [← List.take_append_drop (reach pageSize maxRecords) (l.take maxRecords)]
    rw [List.take_take, Nat.min_eq_left reach_le]
  unfold NothingNewBehind
  rw [eq_comm, ← firsts_append_eq_iff, ← hsplit]

/-- **A pull is exact** when everything it asks for fits and nothing new stands behind what it sees. -/
theorem pull_exact_iff (canonical : ρ → Option String) (s : RemoteSource ρ) (pageSize maxRecords : ℕ)
    (hpos : 0 < pageSize) :
    collect canonical (s.fetchPage canonical pageSize) maxRecords =
        .ok (firsts canonical [] (s.records.take maxRecords)) ↔
      PullFits canonical s pageSize maxRecords ∧ NothingNewBehind canonical s.records pageSize maxRecords := by
  rw [collect_eq_ok hpos, nothingNewBehind_iff, eq_comm (a := firsts canonical [] (s.records.take maxRecords))]

end exact

/-! ### Runs -/

/-- Three spans; the last one repeats the first. -/
def repeatingSource : RemoteSource ℕ := .mastra ⟨[1, 2, 1], fun _ _ => 0⟩

def plainText (n : ℕ) : Option String := if n = 1 then some "[]" else some "{}"

theorem pull_exact_iff_sample :
    collect plainText (repeatingSource.fetchPage plainText 2) 3 = .ok [1, 2] := by
  have hexact := (pull_exact_iff plainText repeatingSource 2 3 (by decide)).mpr
    ⟨⟨by decide, by decide⟩, by decide⟩
  exact hexact

def numberText (n : ℕ) : Option String := some (toString n)

/-- Traces that are their number. -/
def numberedTraces (n : ℕ) : List (String × ℕ) := (List.range n).map fun i => (toString i, i)

/-- 51 traces. -/
def numberedSource : LangfuseSource ℕ where
  traces := numberedTraces 51
  keyed := by decide
  named := by decide
  listLength _ _ := 0
  traceLength _ := 0

/-- 51 traces are wanted and there. The second page is number 2 of pages of one trace: the pull fetches
the second trace again and never the last. -/
theorem last_trace_skipped :
    collect numberText ((RemoteSource.langfuse numberedSource).fetchPage numberText
        (RemoteSource.langfuse numberedSource).connectorPageSize) 51 = .ok (List.range 50) ∧
      firsts numberText [] ((RemoteSource.langfuse numberedSource).records.take 51) = List.range 51 := by
  have hfirsts : ∀ n, firsts numberText [] (List.range n) = List.range n := fun n =>
    firsts_of_nodup (List.nodup_range.map fun _ _ h => decimal_injective (Option.some.inj h)) fun _ _ => by simp
  have hrecords : (RemoteSource.langfuse numberedSource).records = List.range 51 := by decide
  constructor
  · have hreach : reach (RemoteSource.langfuse numberedSource).connectorPageSize 51 = 50 := by decide
    refine (collect_eq_ok (by decide)).mpr ⟨⟨?_, by decide⟩, ?_⟩
    · -- two pages begin before the 51st trace
      intro j _ hlt _
      change j * 50 < 51 at hlt
      have hj : j = 0 ∨ j = 1 := by omega
      rcases hj with rfl | rfl
      · decide
      · decide
    · rw [hrecords, hreach, List.take_range, hfirsts]
      rfl
  · rw [hrecords, List.take_range, hfirsts]
    rfl

end Experiential.Acquisition
