import Experiential.Acquisition.Collect

/-! # From a pull to a stored object

What a connector answers may depend on anything: a pull sees one outcome for each of its calls. `PulledFrom` says
which records a pull takes from a sequence of outcomes, repeats included; it keeps their first occurrences
(`collect_eq_ok_iff`). The bytes it counts are those `canonical_jsonl` writes (`canonicalJsonl_of_collected`), so
that the size is settled before anything is stored. -/

namespace Experiential.Acquisition

/-! ### Calls of a connector -/

section calls
variable {ρ : Type}

def nextOf (outcome : Except AcquisitionErrorCode (ConnectorBatch ρ)) : Option String :=
  match outcome with
  | .ok batch => batch.nextCursor
  | .error _ => none

variable (outcomes : ℕ → Except AcquisitionErrorCode (ConnectorBatch ρ))

/-- The number of the call that comes with a cursor: the one behind the outcome that named it first. -/
def callOf : Option String → ℕ
  | none => 0
  | some t => ((List.range maxRemotePages).find? fun i => decide (nextOf (outcomes i) = some t)).elim 0 (· + 1)

/-- The connector whose calls have these outcomes. -/
def answering (cursor : Option String) (_limit : ℕ) : Except AcquisitionErrorCode (ConnectorBatch ρ) :=
  outcomes (callOf outcomes cursor)

/-- The records a pull takes from call `i` on, when so many were pulled before and these cursors were followed. -/
inductive PulledFrom (maxRecords : ℕ) : ℕ → ℕ → List String → List ρ → Prop
  | full {i fetched cursors} (h : i = maxRemotePages ∨ maxRecords ≤ fetched) : PulledFrom maxRecords i fetched cursors []
  | last {i fetched cursors batch} (hcall : i < maxRemotePages ∧ fetched < maxRecords) (hanswer : outcomes i = .ok batch)
      (hfits : fetched + batch.records.length ≤ maxRecords) (hsome : batch.records = [] → batch.nextCursor = none)
      (hend : batch.nextCursor = none ∨ fetched + batch.records.length = maxRecords) :
      PulledFrom maxRecords i fetched cursors batch.records
  | more {i fetched cursors batch next records} (hcall : i < maxRemotePages ∧ fetched < maxRecords)
      (hanswer : outcomes i = .ok batch) (hfits : fetched + batch.records.length < maxRecords)
      (hsome : batch.records ≠ []) (hnext : batch.nextCursor = some next) (hnew : next ∉ cursors)
      (hrest : PulledFrom maxRecords (i + 1) (fetched + batch.records.length) (next :: cursors) records) :
      PulledFrom maxRecords i fetched cursors (batch.records ++ records)

/-- Call `i` is next. -/
structure AtCall (i : ℕ) (c : Collection ρ) : Prop where
  call : callOf outcomes c.cursor = i
  cursor : ∀ t, c.cursor = some t → t ∈ c.seenCursors
  cursors : ∀ t, t ∈ c.seenCursors ↔ ∃ j < i, nextOf (outcomes j) = some t

end calls

section pull
variable {ρ : Type} {canonical : ρ → Option String} {outcomes : ℕ → Except AcquisitionErrorCode (ConnectorBatch ρ)}
  {maxRecords : ℕ}

theorem callOf_next {i : ℕ} {t : String} (hi : i < maxRemotePages) (hnext : nextOf (outcomes i) = some t)
    (hnew : ∀ j < i, nextOf (outcomes j) ≠ some t) : callOf outcomes (some t) = i + 1 := by
  have hfind : (List.range maxRemotePages).find? (fun j => decide (nextOf (outcomes j) = some t)) = some i := by
    rw [List.find?_range_eq_some]
    refine ⟨by simpa using hnext, List.mem_range.mpr hi, fun j hj => ?_⟩
    simpa using hnew j hj
  rw [callOf, hfind]
  rfl

theorem AtCall.empty : AtCall outcomes 0 (.empty : Collection ρ) where
  call := rfl
  cursor := nofun
  cursors t := by simp [Collection.empty]

theorem AtCall.next {i : ℕ} {c : Collection ρ} {batch : ConnectorBatch ρ} {next : String} (h : AtCall outcomes i c)
    (hi : i < maxRemotePages) (hanswer : outcomes i = .ok batch) (hnext : batch.nextCursor = some next)
    (hnew : next ∉ c.seenCursors) {c₁ : Collection ρ} (hcursors : c₁.seenCursors = c.seenCursors) :
    AtCall outcomes (i + 1) { c₁ with seenCursors := next :: c₁.seenCursors, cursor := some next } := by
  have hhere : nextOf (outcomes i) = some next := by rw [hanswer]; exact hnext
  refine ⟨callOf_next hi hhere fun j hj heq => hnew ((h.cursors next).mpr ⟨j, hj, heq⟩), fun t ht => ?_, fun t => ?_⟩
  · cases ht
    exact List.mem_cons_self
  · rw [List.mem_cons, hcursors, h.cursors]
    constructor
    · rintro (rfl | ⟨j, hj, heq⟩)
      · exact ⟨i, Nat.lt_succ_self i, hhere⟩
      · exact ⟨j, Nat.lt_succ_of_lt hj, heq⟩
    · rintro ⟨j, hj, heq⟩
      rcases Nat.lt_succ_iff_lt_or_eq.mp hj with hj | rfl
      · exact .inr ⟨j, hj, heq⟩
      · exact .inl (Option.some.inj (heq.symm.trans hhere))

/-- A pull that ends has taken its records from the outcomes. -/
theorem pulledFrom_of_collect {n : ℕ} : ∀ {i : ℕ} {raw : List ρ} {c c' : Collection ρ}, i + n = maxRemotePages →
    AtCall outcomes i c → Collected canonical raw c →
    collectPages canonical (answering outcomes) maxRecords n c = .ok c' →
    ∃ rs, PulledFrom outcomes maxRecords i c.fetched c.seenCursors rs ∧ Collected canonical (raw ++ rs) c' := by
  induction n with
  | zero =>
    intro i raw c c' hn hat hcollected hok
    cases hok
    exact ⟨[], .full (.inl hn), by rwa [List.append_nil]⟩
  | succ n ih =>
    intro i raw c c' hn hat hcollected hok
    rw [collectPages] at hok
    split at hok
    · rename_i hfull
      cases hok
      exact ⟨[], .full (.inr hfull), by rwa [List.append_nil]⟩
    · rename_i hwanted
      obtain ⟨batch, hanswer, hok⟩ := bind_eq_ok.mp hok
      obtain ⟨_, hensure, hok⟩ := bind_eq_ok.mp hok
      obtain ⟨hle, hnonempty⟩ := ensure_eq_ok.mp hensure
      obtain ⟨c₁, hkeep, hok⟩ := bind_eq_ok.mp hok
      rw [answering, hat.call] at hanswer
      obtain ⟨hcollected₁, hfetched₁, hcursor₁, hcursors₁⟩ :=
        (Collected.batch batch.records (hcollected.counted _)).1 c₁ hkeep
      have hfetched₁ : c₁.fetched = c.fetched + batch.records.length := hfetched₁
      have hcursors₁ : c₁.seenCursors = c.seenCursors := hcursors₁
      have hsome : batch.records = [] → batch.nextCursor = none := by
        intro hempty
        simpa [hempty] using hnonempty
      cases hnext : batch.nextCursor with
      | none =>
        rw [hnext] at hok
        cases hok
        exact ⟨batch.records, .last ⟨by omega, by omega⟩ hanswer (by omega) hsome (.inl hnext), hcollected₁⟩
      | some next =>
        rw [hnext] at hok
        dsimp only at hok
        split at hok
        · rename_i hdone
          cases hok
          exact ⟨batch.records, .last ⟨by omega, by omega⟩ hanswer (by omega) hsome (.inr (by omega)), hcollected₁⟩
        · rename_i hmore
          obtain ⟨_, hensure, hok⟩ := bind_eq_ok.mp hok
          obtain ⟨-, hnew⟩ := ensure_eq_ok.mp hensure
          rw [hcursors₁] at hnew
          have hat' := hat.next (by omega) hanswer hnext hnew hcursors₁
          obtain ⟨rs, hrest, hfinal⟩ := ih (by omega) hat'
            ⟨hcollected₁.records, hcollected₁.seen, hcollected₁.size, hcollected₁.kept⟩ hok
          refine ⟨batch.records ++ rs, .more ⟨by omega, by omega⟩ hanswer (by omega) (fun hempty => ?_) hnext hnew ?_, ?_⟩
          · rw [hsome hempty] at hnext
            cases hnext
          · rw [hfetched₁, hcursors₁] at hrest
            exact hrest
          · rw [← List.append_assoc]
            exact hfinal

theorem collectPages_call {n i : ℕ} {c : Collection ρ} {batch : ConnectorBatch ρ} (hat : AtCall outcomes i c)
    (hwanted : c.fetched < maxRecords) (hanswer : outcomes i = .ok batch)
    (hfits : c.fetched + batch.records.length ≤ maxRecords) (hsome : batch.records = [] → batch.nextCursor = none) :
    collectPages canonical (answering outcomes) maxRecords (n + 1) c =
      (batch.records.foldlM (keepRecord canonical) { c with fetched := c.fetched + batch.records.length } >>= fun c =>
        match batch.nextCursor with
        | none => .ok c
        | some next =>
            if maxRecords ≤ c.fetched then .ok c
            else do
              ensure (c.cursor ≠ some next ∧ next ∉ c.seenCursors) .invalidSourceResponse
              collectPages canonical (answering outcomes) maxRecords n
                { c with seenCursors := next :: c.seenCursors, cursor := some next }) := by
  have hpage : batch.records.length ≤ maxRecords - c.fetched ∧ ¬(batch.records.isEmpty ∧ batch.nextCursor.isSome) := by
    refine ⟨by omega, fun ⟨hempty, hnext⟩ => ?_⟩
    rw [hsome (List.isEmpty_iff.mp hempty)] at hnext
    cases hnext
  have hensure : (ensure (batch.records.length ≤ maxRecords - c.fetched ∧
      ¬(batch.records.isEmpty ∧ batch.nextCursor.isSome)) .invalidSourceResponse :
        Except AcquisitionErrorCode Unit) = .ok () := ensure_eq_ok.mpr hpage
  rw [collectPages, if_neg (by omega)]
  simp only [answering, hat.call, hanswer]
  change (ensure _ _ >>= fun _ => _) = _
  rw [hensure]
  rfl

/-- What can be kept of the records that are pulled is collected. -/
theorem PulledFrom.collected {i fetched : ℕ} {cursors : List String} {rs : List ρ}
    (h : PulledFrom outcomes maxRecords i fetched cursors rs) : ∀ {n : ℕ} {raw : List ρ} {c : Collection ρ},
    i + n = maxRemotePages → AtCall outcomes i c → c.fetched = fetched → c.seenCursors = cursors →
    Collected canonical raw c → Kept canonical (raw ++ rs) →
    ∃ c', collectPages canonical (answering outcomes) maxRecords n c = .ok c' ∧ Collected canonical (raw ++ rs) c' := by
  induction h with
  | full hend =>
    rintro n raw c hn - rfl - hcollected -
    refine ⟨c, ?_, by rwa [List.append_nil]⟩
    cases n with
    | zero => rfl
    | succ n => rw [collectPages, if_pos (hend.resolve_left (by omega))]
  | @last i fetched cursors batch hcall hanswer hfits hsome hend =>
    rintro n raw c hn hat rfl - hcollected hkept
    obtain ⟨n, rfl⟩ : ∃ m, n = m + 1 := ⟨n - 1, by omega⟩
    have hbatch := Collected.batch batch.records (hcollected.counted (c.fetched + batch.records.length))
    obtain ⟨c₁, hkeep⟩ := hbatch.2 hkept
    obtain ⟨hcollected₁, hfetched₁, -⟩ := hbatch.1 c₁ hkeep
    refine ⟨c₁, ?_, hcollected₁⟩
    rw [collectPages_call hat hcall.2 hanswer hfits hsome, hkeep]
    have hfetched₁ : c₁.fetched = c.fetched + batch.records.length := hfetched₁
    cases hnext : batch.nextCursor with
    | none => rfl
    | some next =>
      have hdone : c.fetched + batch.records.length = maxRecords := hend.resolve_left (by rw [hnext]; exact Option.some_ne_none next)
      exact if_pos (by omega)
  | @more i fetched cursors batch next records hcall hanswer hfits hsome hnext hnew hrest ih =>
    rintro n raw c hn hat rfl rfl hcollected hkept
    obtain ⟨n, rfl⟩ : ∃ m, n = m + 1 := ⟨n - 1, by omega⟩
    rw [← List.append_assoc] at hkept
    have hbatch := Collected.batch batch.records (hcollected.counted (c.fetched + batch.records.length))
    obtain ⟨c₁, hkeep⟩ := hbatch.2 hkept.of_append
    obtain ⟨hcollected₁, hfetched₁, hcursor₁, hcursors₁⟩ := hbatch.1 c₁ hkeep
    have hfetched₁ : c₁.fetched = c.fetched + batch.records.length := hfetched₁
    have hcursor₁ : c₁.cursor = c.cursor := hcursor₁
    have hcursors₁ : c₁.seenCursors = c.seenCursors := hcursors₁
    obtain ⟨c', hok, hfinal⟩ := ih (n := n) (by omega) (hat.next (by omega) hanswer hnext hnew hcursors₁) hfetched₁
      (by rw [hcursors₁]) ⟨hcollected₁.records, hcollected₁.seen, hcollected₁.size, hcollected₁.kept⟩ hkept
    refine ⟨c', ?_, by rwa [← List.append_assoc]⟩
    have hfresh : (ensure (c₁.cursor ≠ some next ∧ next ∉ c₁.seenCursors) .invalidSourceResponse :
        Except AcquisitionErrorCode Unit) = .ok () := by
      rw [ensure_eq_ok, hcursor₁, hcursors₁]
      exact ⟨fun hcursor => hnew (hat.cursor next hcursor), hnew⟩
    rw [collectPages_call hat hcall.2 hanswer (by omega) fun hempty => absurd hempty hsome, hkeep, hnext]
    change (if maxRecords ≤ c₁.fetched then _ else _) = _
    rw [if_neg (by omega), hfresh]
    exact hok

theorem PulledFrom.length_le {i fetched : ℕ} {cursors : List String} {rs : List ρ}
    (h : PulledFrom outcomes maxRecords i fetched cursors rs) (hfetched : fetched ≤ maxRecords) :
    fetched + rs.length ≤ maxRecords := by
  induction h with
  | full => simpa using hfetched
  | last _ _ hfits => exact hfits
  | more _ _ hfits _ _ _ _ ih =>
    have := ih (by omega)
    rw [List.length_append]
    omega

/-! ### Refusals for size -/

theorem keepRecord_raises {c : Collection ρ} {r : ρ} (h : (canonical r).isSome) :
    RaisesOnly (· = AcquisitionErrorCode.objectTooLarge) (keepRecord canonical c r) := by
  obtain ⟨text, htext⟩ := Option.isSome_iff_exists.mp h
  unfold keepRecord
  rw [htext]
  refine RaisesOnly.bind (.ok text) fun identity _ => ?_
  split
  · exact .ok c
  · exact RaisesOnly.bind (.ensure fun _ => rfl) fun _ _ => .ok _

theorem foldlM_raises : ∀ {l : List ρ} {c : Collection ρ}, (∀ r ∈ l, (canonical r).isSome) →
    RaisesOnly (· = AcquisitionErrorCode.objectTooLarge) (l.foldlM (keepRecord canonical) c)
  | [], c, _ => .ok c
  | r :: l, c, h => by
      rw [List.foldlM_cons]
      exact RaisesOnly.bind (keepRecord_raises (h r List.mem_cons_self)) fun c' _ =>
        foldlM_raises fun q hq => h q (List.mem_cons_of_mem r hq)

theorem Collected.batch_tooLarge {raw l : List ρ} {c : Collection ρ} (h : Collected canonical raw c)
    (hsome : ∀ r ∈ l, (canonical r).isSome) (hlarge : ¬Kept canonical (raw ++ l)) :
    l.foldlM (keepRecord canonical) c = .error .objectTooLarge := by
  cases hfold : l.foldlM (keepRecord canonical) c with
  | ok c' => exact absurd ((Collected.batch l h).1 c' hfold).1.kept hlarge
  | error e => rw [foldlM_raises hsome e hfold]

theorem PulledFrom.refused {i fetched : ℕ} {cursors : List String} {rs : List ρ}
    (h : PulledFrom outcomes maxRecords i fetched cursors rs) : ∀ {n : ℕ} {raw : List ρ} {c : Collection ρ},
    i + n = maxRemotePages → AtCall outcomes i c → c.fetched = fetched → c.seenCursors = cursors →
    Collected canonical raw c → (∀ r ∈ rs, (canonical r).isSome) → ¬Kept canonical (raw ++ rs) →
    collectPages canonical (answering outcomes) maxRecords n c = .error .objectTooLarge := by
  induction h with
  | full hend =>
    rintro n raw c - - - - hcollected - hlarge
    rw [List.append_nil] at hlarge
    exact absurd hcollected.kept hlarge
  | @last i fetched cursors batch hcall hanswer hfits hsome hend =>
    rintro n raw c hn hat rfl - hcollected hsomes hlarge
    obtain ⟨n, rfl⟩ : ∃ m, n = m + 1 := ⟨n - 1, by omega⟩
    rw [collectPages_call hat hcall.2 hanswer hfits hsome, (hcollected.counted _).batch_tooLarge hsomes hlarge]
    rfl
  | @more i fetched cursors batch next records hcall hanswer hfits hsome hnext hnew hrest ih =>
    rintro n raw c hn hat rfl rfl hcollected hsomes hlarge
    obtain ⟨n, rfl⟩ : ∃ m, n = m + 1 := ⟨n - 1, by omega⟩
    rw [← List.append_assoc] at hlarge
    rw [collectPages_call hat hcall.2 hanswer (by omega) fun hempty => absurd hempty hsome]
    have hcounted := hcollected.counted (c.fetched + batch.records.length)
    by_cases hkept : Kept canonical (raw ++ batch.records)
    · obtain ⟨c₁, hkeep⟩ := (Collected.batch batch.records hcounted).2 hkept
      obtain ⟨hcollected₁, hfetched₁, hcursor₁, hcursors₁⟩ := (Collected.batch batch.records hcounted).1 c₁ hkeep
      have hfetched₁ : c₁.fetched = c.fetched + batch.records.length := hfetched₁
      have hcursor₁ : c₁.cursor = c.cursor := hcursor₁
      have hcursors₁ : c₁.seenCursors = c.seenCursors := hcursors₁
      have hfresh : (ensure (c₁.cursor ≠ some next ∧ next ∉ c₁.seenCursors) .invalidSourceResponse :
          Except AcquisitionErrorCode Unit) = .ok () := by
        rw [ensure_eq_ok, hcursor₁, hcursors₁]
        exact ⟨fun hcursor => hnew (hat.cursor next hcursor), hnew⟩
      rw [hkeep, hnext]
      change (if maxRecords ≤ c₁.fetched then _ else _) = _
      rw [if_neg (by omega), hfresh]
      exact ih (by omega) (hat.next (by omega) hanswer hnext hnew hcursors₁) hfetched₁ (by rw [hcursors₁])
        ⟨hcollected₁.records, hcollected₁.seen, hcollected₁.size, hcollected₁.kept⟩
        (fun r hr => hsomes r (List.mem_append_right _ hr)) hlarge
    · rw [hcounted.batch_tooLarge (fun r hr => hsomes r (List.mem_append_left _ hr)) hkept]
      rfl

end pull

/-! ### Landing -/

inductive TraceUploadValidationError where
  | noRecords
  | nonFinite
  | tooLarge
deriving DecidableEq

inductive StoredSizeError where
  | objectTooLarge
  | sizeMismatch
deriving DecidableEq

section landing
variable {ρ : Type} (canonical : ρ → Option String)

/-- `canonical_jsonl` -/
def canonicalJsonl (records : List ρ) : Except TraceUploadValidationError ByteArray := do
  ensure (records ≠ []) .noRecords
  let lines ← records.mapM fun record => require (canonical record) .nonFinite
  let content := ("\n".intercalate lines ++ "\n").toUTF8
  ensure (content.size ≤ maxTraceObjectBytes) .tooLarge
  return content

/-- The size checks of `verify_stored_trace_object`. -/
def checkStoredSize (content : ByteArray) (expectedByteSize : ℕ) : Except StoredSizeError Unit := do
  ensure (content.size ≤ maxTraceObjectBytes) .objectTooLarge
  ensure (content.size = expectedByteSize) .sizeMismatch

/-- What `_land` stores. -/
structure LandedTrace where
  content : ByteArray
  traceCount : ℕ
  byteSize : ℕ

inductive IngestError where
  | connector (code : AcquisitionErrorCode)
  | upload (error : TraceUploadValidationError)
deriving DecidableEq

/-- `ingest_remote`, up to what is stored. -/
def ingestRemote (fetchPage : Option String → ℕ → Except AcquisitionErrorCode (ConnectorBatch ρ)) (maxRecords : ℕ) :
    Except IngestError LandedTrace := do
  let records ← (collect canonical fetchPage maxRecords).mapError .connector
  let content ← (canonicalJsonl canonical records).mapError .upload
  return ⟨content, records.length, content.size⟩

theorem utf8ByteSize_lines : ∀ {lines : List String}, lines ≠ [] →
    ("\n".intercalate lines ++ "\n").utf8ByteSize = (lines.map fun text => text.utf8ByteSize + 1).sum
  | [], h => absurd rfl h
  | [text], _ => by
      rw [String.intercalate_singleton, String.utf8ByteSize_append]
      rfl
  | text :: next :: lines, _ => by
      have ih := utf8ByteSize_lines (List.cons_ne_nil next lines)
      have hline : "\n".utf8ByteSize = 1 := rfl
      rw [String.intercalate_cons_cons, String.append_assoc, String.utf8ByteSize_append, String.utf8ByteSize_append, ih,
        hline]
      simp only [List.map_cons, List.sum_cons]

variable {canonical}

/-- The bytes that are written are those that were counted. -/
theorem canonicalJsonl_eq_ok {records : List ρ} (hne : records ≠ []) (hstorable : Storable canonical records) :
    ∃ content, canonicalJsonl canonical records = .ok content ∧ content.size = linesBytes canonical records := by
  obtain ⟨hsome, hbytes⟩ := hstorable
  obtain ⟨lines, hlines⟩ := exists_mapM_eq_ok (f := fun record => require (canonical record)
      TraceUploadValidationError.nonFinite) (l := records) fun r hr => by
    obtain ⟨text, htext⟩ := Option.isSome_iff_exists.mp (hsome r hr)
    exact ⟨text, by rw [htext]; rfl⟩
  have hsizes : lines.map (fun text => text.utf8ByteSize + 1) =
      records.map fun r => (canonical r).elim 0 fun text => text.utf8ByteSize + 1 := by
    refine map_of_mapM (fun r text htext => ?_) hlines
    rw [require_eq_ok.mp htext]
    rfl
  have hnonempty : lines ≠ [] := by
    rintro rfl
    rw [List.map_nil, eq_comm, List.map_eq_nil_iff] at hsizes
    exact hne hsizes
  have hsize : ("\n".intercalate lines ++ "\n").toUTF8.size = linesBytes canonical records := by
    rw [linesBytes, ← hsizes]
    exact utf8ByteSize_lines hnonempty
  refine ⟨_, ?_, hsize⟩
  unfold canonicalJsonl
  simp only [bind_eq_ok, ensure_eq_ok, pure_eq_ok]
  exact ⟨(), hne, lines, hlines, (), hsize ▸ hbytes, rfl⟩

theorem Collected.storable {raw : List ρ} {c : Collection ρ} (h : Collected canonical raw c) :
    Storable canonical c.records := by
  rw [h.records]
  exact ⟨fun r hr => h.kept.1 r ((firsts_sublist canonical raw []).subset hr), h.kept.2⟩

end landing

/-- A pull ends after at most a hundred calls and `maxRecords` records. It keeps the first occurrences of what it
pulled; what it counted are the bytes of the object that is stored, and what does not fit is refused before. -/
theorem collect_bounded {ρ : Type} (canonical : ρ → Option String)
    (outcomes : ℕ → Except AcquisitionErrorCode (ConnectorBatch ρ)) (maxRecords : ℕ) :
    (∀ rs, collect canonical (answering outcomes) maxRecords = .ok rs ↔
      ∃ raw, PulledFrom outcomes maxRecords 0 0 [] raw ∧ Kept canonical raw ∧ rs = firsts canonical [] raw) ∧
    (∀ raw, PulledFrom outcomes maxRecords 0 0 [] raw → raw.length ≤ maxRecords ∧
      ((∀ r ∈ raw, (canonical r).isSome) → ¬Kept canonical raw →
        ingestRemote canonical (answering outcomes) maxRecords = .error (.connector .objectTooLarge))) ∧
    ∀ c, collectPages canonical (answering outcomes) maxRecords maxRemotePages .empty = .ok c → c.records ≠ [] →
      ∃ content, canonicalJsonl canonical c.records = .ok content ∧ content.size = c.canonicalByteSize ∧
        ingestRemote canonical (answering outcomes) maxRecords = .ok ⟨content, c.records.length, c.canonicalByteSize⟩ ∧
        checkStoredSize content c.canonicalByteSize = .ok () := by
  refine ⟨fun rs => ⟨fun hok => ?_, ?_⟩, fun raw hpulled => ⟨?_, fun hsome hlarge => ?_⟩, fun c hok hne => ?_⟩
  · obtain ⟨c, hpages, hrs⟩ := bind_eq_ok.mp hok
    obtain ⟨raw, hpulled, hcollected⟩ :=
      pulledFrom_of_collect (Nat.zero_add _) AtCall.empty Collected.empty hpages
    rw [List.nil_append] at hcollected
    cases hrs
    exact ⟨raw, hpulled, hcollected.kept, hcollected.records⟩
  · rintro ⟨raw, hpulled, hkept, rfl⟩
    obtain ⟨c, hpages, hcollected⟩ :=
      hpulled.collected (Nat.zero_add _) AtCall.empty rfl rfl Collected.empty hkept
    rw [List.nil_append] at hcollected
    rw [collect, hpages, ← hcollected.records]
    rfl
  · simpa using hpulled.length_le (Nat.zero_le _)
  · have hpages := hpulled.refused (Nat.zero_add _) AtCall.empty rfl rfl Collected.empty hsome
      hlarge
    rw [ingestRemote, collect, hpages]
    rfl
  · obtain ⟨raw, -, hcollected⟩ :=
      pulledFrom_of_collect (Nat.zero_add _) AtCall.empty Collected.empty hok
    obtain ⟨content, hcontent, hsize⟩ := canonicalJsonl_eq_ok hne hcollected.storable
    have hcount : content.size = c.canonicalByteSize := by rw [hsize, hcollected.size, hcollected.records]
    refine ⟨content, hcontent, hcount, ?_, ?_⟩
    · rw [ingestRemote, collect, hok]
      change ((canonicalJsonl canonical c.records).mapError IngestError.upload >>= fun _ => _) = _
      rw [hcontent, ← hcount]
      rfl
    · unfold checkStoredSize
      simp only [bind_eq_ok, ensure_eq_ok]
      exact ⟨(), by rw [hsize]; exact hcollected.storable.2, hcount⟩

/-- The first record twice, and then the second. -/
def repeatedPages : ℕ → Except AcquisitionErrorCode (ConnectorBatch ℕ)
  | 0 => .ok ⟨[1], some "b"⟩
  | 1 => .ok ⟨[1], some "c"⟩
  | _ => .ok ⟨[2], none⟩

/-- Two distinct records are there; with `max_records` 2 one is returned. -/
theorem repeats_count : collect numberText (answering repeatedPages) 2 = .ok [1] ∧
    (firsts numberText [] [1, 1, 2]).take 2 = [1, 2] := by
  decide +kernel

end Experiential.Acquisition
