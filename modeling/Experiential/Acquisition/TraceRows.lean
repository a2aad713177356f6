import Experiential.Lib.JsonReading
import Experiential.Lib.JsonWriting
import Mathlib.Algebra.GroupWithZero.Nat

/-! # Normalized trace rows and their batches

A normalized trace row is written as one line of JSON, and the lines are sent in requests of a bounded size. The
batches lose nothing (`batching_holds_iff`); a row whose line cannot be written at all stops them too, however small
it is. -/

namespace Experiential.Acquisition

open Py

/-! ### Rows -/

structure NormalizedTraceRow where
  orgId : PyStr
  ingestId : PyStr
  projectionVersion : ℤ
  projectionAttempt : ℤ
  recordIndex : ℕ
  eventId : PyStr
  sourceKind : PyStr
  transportKind : PyStr
  sourceLabel : PyStr
  eventType : PyStr
  traceId : PyStr
  spanId : PyStr
  parentSpanId : Option PyStr
  name : PyStr
  spanKind : PyStr
  status : PyStr
  startedAtNs : Option ℤ
  durationNs : Option ℤ
  model : Option PyStr
  inputTokens : ℤ
  outputTokens : ℤ
  attributesJson : PyStr
  payloadJson : PyStr
  payloadSha256 : PyStr
  objectSha256 : PyStr
  receivedAt : PyStr
deriving DecidableEq

/-- `int.__repr__`, which refuses an integer of too many digits. -/
def intRepr (n : ℤ) : Except PyError PyStr :=
  if (Nat.toDigits 10 n.natAbs).length ≤ intMaxStrDigits then .ok (intText n) else .error .value

/-- A field of a row. -/
inductive RowValue where
  | str (s : Option PyStr)
  | int (n : Option ℤ)

/-- A field as `json.dumps` writes it. -/
def RowValue.dumps : RowValue → Except PyError PyStr
  | .str (some s) => .ok (quote s)
  | .int (some n) => intRepr n
  | .str none | .int none => .ok (text "null")

namespace NormalizedTraceRow

variable (row : NormalizedTraceRow)

/-- `self.model_dump(mode="json")` -/
def modelDump : List (String × RowValue) :=
  [("org_id", .str row.orgId), ("ingest_id", .str row.ingestId), ("projection_version", .int row.projectionVersion),
    ("projection_attempt", .int row.projectionAttempt), ("record_index", .int (row.recordIndex : ℤ)),
    ("event_id", .str row.eventId), ("source_kind", .str row.sourceKind), ("transport_kind", .str row.transportKind),
    ("source_label", .str row.sourceLabel), ("event_type", .str row.eventType), ("trace_id", .str row.traceId),
    ("span_id", .str row.spanId), ("parent_span_id", .str row.parentSpanId), ("name", .str row.name),
    ("span_kind", .str row.spanKind), ("status", .str row.status), ("started_at_ns", .int row.startedAtNs),
    ("duration_ns", .int row.durationNs), ("model", .str row.model), ("input_tokens", .int row.inputTokens),
    ("output_tokens", .int row.outputTokens), ("attributes_json", .str row.attributesJson),
    ("payload_json", .str row.payloadJson), ("payload_sha256", .str row.payloadSha256),
    ("object_sha256", .str row.objectSha256), ("received_at", .str row.receivedAt)]

def jsonEachRow : Except PyError PyStr := do
  let members ← row.modelDump.mapM fun (name, value) => do
    let written ← value.dumps
    return quote (text name) ++ (text ":" ++ written)
  return .scalar '\x7b' :: ((text ",").intercalate members ++ [.scalar '\x7d'])

/-- `len(row.json_each_row().encode()) + 1` -/
def rowBytes : Except PyError ℕ := do
  let line ← row.jsonEachRow
  let encoded ← encode line
  return encoded.length + 1

end NormalizedTraceRow

/-! ### Batches -/

/-- What `_batches` raises. -/
inductive BatchError where
  | rowTooLarge
  | python (e : PyError)
deriving DecidableEq

/-- What `_batches` holds between two rows. -/
structure Batching where
  batches : List (List NormalizedTraceRow)
  current : List NormalizedTraceRow
  currentBytes : ℕ

/-- The body of the loop of `_batches`. -/
def addRow (targetBytes : ℕ) (b : Batching) (row : NormalizedTraceRow) : Except BatchError Batching :=
  match row.rowBytes with
  | .error e => .error (.python e)
  | .ok rowBytes =>
    if targetBytes < rowBytes then .error .rowTooLarge
    else if !b.current.isEmpty && targetBytes < b.currentBytes + rowBytes then
      .ok ⟨b.batches ++ [b.current], [row], rowBytes⟩
    else .ok ⟨b.batches, b.current ++ [row], b.currentBytes + rowBytes⟩

def Batching.finish (b : Batching) : List (List NormalizedTraceRow) :=
  if b.current.isEmpty then b.batches else b.batches ++ [b.current]

/-- `_batches` -/
def batches (rows : List NormalizedTraceRow) (targetBytes : ℕ) : Except BatchError (List (List NormalizedTraceRow)) := do
  let b ← rows.foldlM (addRow targetBytes) ⟨[], [], 0⟩
  return b.finish

/-- The content that `insert` sends for a batch. -/
def requestBody (batch : List NormalizedTraceRow) : Except PyError Bytes := do
  let lines ← batch.mapM fun row => row.jsonEachRow
  encode ([.scalar '\n'].intercalate lines ++ [.scalar '\n'])

/-! ### What is promised -/

/-- The row alone exceeds the target. -/
def Exceeds (targetBytes : ℕ) (row : NormalizedTraceRow) : Prop := ∃ n, row.rowBytes = .ok n ∧ targetBytes < n

/-- The row can be written and encoded. -/
def Encodes (row : NormalizedTraceRow) : Prop := ∃ n, row.rowBytes = .ok n

/-- A batch is not empty and its request is within the target. -/
def Bounded (targetBytes : ℕ) (batch : List NormalizedTraceRow) : Prop :=
  batch ≠ [] ∧ ∃ body, requestBody batch = .ok body ∧ body.length ≤ targetBytes

/-- What the batches of a list of rows are, and when there are none. -/
structure BatchingHolds (rows : List NormalizedTraceRow) (targetBytes : ℕ) : Prop where
  kept : ∀ result, batches rows targetBytes = .ok result → result.flatten = rows ∧ ∀ batch ∈ result, Bounded targetBytes batch
  raises : (∃ e, batches rows targetBytes = .error e) ↔ ∃ row ∈ rows, Exceeds targetBytes row

/-! ### Requests -/

/-- Lines that are sent together take the octets of each and of its line feed. -/
theorem encode_lines : ∀ {lines : List PyStr} {sizes : List ℕ}, lines ≠ [] →
    List.Forall₂ (fun line n => ∃ encoded, encode line = .ok encoded ∧ n = encoded.length + 1) lines sizes →
    ∃ body, encode ([.scalar '\n'].intercalate lines ++ [.scalar '\n']) = .ok body ∧ body.length = sizes.sum
  | [], _, hne, _ => absurd rfl hne
  | [line], [n], _, h => by
      obtain ⟨⟨encoded, hencoded, rfl⟩, -⟩ := List.forall₂_cons.mp h
      refine ⟨encoded ++ [0x0A], ?_, by simp⟩
      rw [List.intercalate_singleton]
      exact encode_append hencoded rfl
  | line :: next :: lines, n :: m :: sizes, _, h => by
      obtain ⟨⟨encoded, hencoded, rfl⟩, hrest⟩ := List.forall₂_cons.mp h
      obtain ⟨body, hbody, hlength⟩ := encode_lines (List.cons_ne_nil next lines) hrest
      refine ⟨encoded ++ ([0x0A] ++ body), ?_, ?_⟩
      · rw [List.intercalate_cons_cons, List.append_assoc, List.append_assoc]
        exact encode_append hencoded (encode_append rfl hbody)
      · rw [List.length_append, List.length_append, hlength, List.sum_cons (a := encoded.length + 1), List.length_singleton]
        omega

/-- The sizes of the rows of a batch. -/
def Sized (batch : List NormalizedTraceRow) (sizes : List ℕ) : Prop :=
  List.Forall₂ (fun row n => row.rowBytes = .ok n) batch sizes

theorem requestBody_of_sized {batch : List NormalizedTraceRow} {sizes : List ℕ} (hne : batch ≠ []) (h : Sized batch sizes) :
    ∃ body, requestBody batch = .ok body ∧ body.length = sizes.sum := by
  have hlines : ∃ lines, batch.mapM (fun row => row.jsonEachRow) = .ok lines ∧
      List.Forall₂ (fun line n => ∃ encoded, encode line = .ok encoded ∧ n = encoded.length + 1) lines sizes := by
    clear hne
    induction h with
    | nil => exact ⟨[], rfl, .nil⟩
    | cons hrow _ ih =>
      obtain ⟨line, hline, encoded, hencoded, hn⟩ := by
        simpa only [NormalizedTraceRow.rowBytes, bind_eq_ok, pure_eq_ok] using hrow
      obtain ⟨lines, hlines, hsizes⟩ := ih
      refine ⟨line :: lines, ?_, .cons ⟨encoded, hencoded, hn.symm⟩ hsizes⟩
      simp only [List.mapM_cons, bind_eq_ok, pure_eq_ok]
      exact ⟨line, hline, lines, hlines, rfl⟩
  obtain ⟨lines, hmap, hsizes⟩ := hlines
  have hlines : lines ≠ [] := by
    rintro rfl
    cases hsizes
    cases h
    exact hne rfl
  obtain ⟨body, hbody, hlength⟩ := encode_lines hlines hsizes
  refine ⟨body, ?_, hlength⟩
  unfold requestBody
  rw [hmap]
  exact hbody

/-! ### The loop -/

variable {targetBytes : ℕ}

/-- The row can be written and does not exceed the target. -/
def RowFits (targetBytes : ℕ) (row : NormalizedTraceRow) : Prop := ∃ n, row.rowBytes = .ok n ∧ n ≤ targetBytes

/-- A row that fits is added to the current batch, or begins the next when there is no room for it. -/
theorem addRow_of_fits {b : Batching} {row : NormalizedTraceRow} {n : ℕ} (hrow : row.rowBytes = .ok n) (hn : n ≤ targetBytes) :
    b.current ≠ [] ∧ addRow targetBytes b row = .ok ⟨b.batches ++ [b.current], [row], n⟩ ∨
      (b.current = [] ∨ b.currentBytes + n ≤ targetBytes) ∧
        addRow targetBytes b row = .ok ⟨b.batches, b.current ++ [row], b.currentBytes + n⟩ := by
  unfold addRow
  rw [hrow]
  dsimp only
  rw [if_neg (Nat.not_lt.mpr hn)]
  split_ifs with hfull
  · simp only [Bool.and_eq_true, Bool.not_eq_true', List.isEmpty_eq_false_iff] at hfull
    exact .inl ⟨hfull.1, rfl⟩
  · simp only [Bool.and_eq_true, Bool.not_eq_true', List.isEmpty_eq_false_iff, decide_eq_true_eq, not_and_or, not_not] at hfull
    exact .inr ⟨hfull.imp_right Nat.not_lt.mp, rfl⟩

theorem fits_of_addRow {b b' : Batching} {row : NormalizedTraceRow} (h : addRow targetBytes b row = .ok b') :
    RowFits targetBytes row := by
  unfold addRow at h
  cases hrow : row.rowBytes with
  | error e =>
    rw [hrow] at h
    cases h
  | ok n =>
    rw [hrow] at h
    dsimp only at h
    split at h
    · cases h
    · next hn => exact ⟨n, hrow, Nat.not_lt.mp hn⟩

/-- What holds of the batches between two rows. -/
structure Packed (targetBytes : ℕ) (done : List NormalizedTraceRow) (b : Batching) : Prop where
  kept : b.batches.flatten ++ b.current = done
  bounded : ∀ batch ∈ b.batches, Bounded targetBytes batch
  sized : ∃ sizes, Sized b.current sizes ∧ sizes.sum = b.currentBytes
  fits : b.currentBytes ≤ targetBytes

theorem Packed.bounded_current {done : List NormalizedTraceRow} {b : Batching} (h : Packed targetBytes done b)
    (hne : b.current ≠ []) : Bounded targetBytes b.current := by
  obtain ⟨sizes, hsized, hsum⟩ := h.sized
  obtain ⟨body, hbody, hlength⟩ := requestBody_of_sized hne hsized
  exact ⟨hne, body, hbody, by rw [hlength, hsum]; exact h.fits⟩

theorem Packed.addRow {done : List NormalizedTraceRow} {b b' : Batching} {row : NormalizedTraceRow}
    (h : Packed targetBytes done b) (hadd : addRow targetBytes b row = .ok b') : Packed targetBytes (done ++ [row]) b' := by
  obtain ⟨n, hrow, hn⟩ := fits_of_addRow hadd
  obtain ⟨hne, hnext⟩ | ⟨hroom, hnext⟩ := addRow_of_fits (b := b) hrow hn
  · cases hadd.symm.trans hnext
    refine ⟨?_, ?_, ⟨[n], .cons hrow .nil, by simp⟩, hn⟩
    · simp [← h.kept]
    · intro batch hbatch
      rcases List.mem_append.mp hbatch with hbatch | hbatch
      · exact h.bounded batch hbatch
      · rw [List.mem_singleton.mp hbatch]
        exact h.bounded_current hne
  · cases hadd.symm.trans hnext
    obtain ⟨sizes, hsized, hsum⟩ := h.sized
    refine ⟨?_, h.bounded, ⟨sizes ++ [n], ?_, by simp [hsum]⟩, ?_⟩
    · simp [← h.kept]
    · exact List.rel_append hsized (.cons hrow .nil)
    · rcases hroom with hempty | hroom
      · rw [hempty] at hsized
        cases hsized
        simp only [List.sum_nil] at hsum
        change b.currentBytes + n ≤ targetBytes
        omega
      · exact hroom

theorem Packed.finish {done : List NormalizedTraceRow} {b : Batching} (h : Packed targetBytes done b) :
    b.finish.flatten = done ∧ ∀ batch ∈ b.finish, Bounded targetBytes batch := by
  unfold Batching.finish
  by_cases hcurrent : b.current = []
  · have hkept := h.kept
    rw [hcurrent, List.append_nil] at hkept
    simp only [hcurrent, List.isEmpty_nil, if_true]
    exact ⟨hkept, h.bounded⟩
  · simp only [List.isEmpty_iff, hcurrent, if_false]
    refine ⟨by simp [← h.kept], fun batch hbatch => ?_⟩
    rcases List.mem_append.mp hbatch with hbatch | hbatch
    · exact h.bounded batch hbatch
    · rw [List.mem_singleton.mp hbatch]
      exact h.bounded_current hcurrent

theorem kept_of_batches {rows : List NormalizedTraceRow} {result : List (List NormalizedTraceRow)}
    (h : batches rows targetBytes = .ok result) : result.flatten = rows ∧ ∀ batch ∈ result, Bounded targetBytes batch := by
  simp only [batches, bind_eq_ok, pure_eq_ok] at h
  obtain ⟨b, hloop, rfl⟩ := h
  have hpacked : ∃ done, done ++ [] = rows ∧ Packed targetBytes done b := by
    refine foldlM_rec (I := fun b rest => ∃ done, done ++ rest = rows ∧ Packed targetBytes done b) ?_ rows _ hloop ?_
    · rintro b row rest b' hadd ⟨done, rfl, hb⟩
      exact ⟨done ++ [row], by simp, hb.addRow hadd⟩
    · exact ⟨[], rfl, rfl, List.forall_mem_nil _, ⟨[], .nil, rfl⟩, Nat.zero_le _⟩
  obtain ⟨done, rfl, hb⟩ := hpacked
  rw [List.append_nil]
  exact hb.finish

theorem fits_of_loop : ∀ {rows : List NormalizedTraceRow} {b b' : Batching}, rows.foldlM (addRow targetBytes) b = .ok b' →
    ∀ row ∈ rows, RowFits targetBytes row
  | [], _, _, _ => List.forall_mem_nil _
  | row :: rows, b, b', h => by
      rw [List.foldlM_cons, bind_eq_ok] at h
      obtain ⟨b₁, hrow, hrows⟩ := h
      exact List.forall_mem_cons.mpr ⟨fits_of_addRow hrow, fits_of_loop hrows⟩

theorem batches_isOk_iff {rows : List NormalizedTraceRow} :
    (∃ result, batches rows targetBytes = .ok result) ↔ ∀ row ∈ rows, RowFits targetBytes row := by
  constructor
  · rintro ⟨result, h⟩
    simp only [batches, bind_eq_ok] at h
    obtain ⟨b, hloop, -⟩ := h
    exact fits_of_loop hloop
  · intro h
    have htotal := foldlM_total (I := fun _ => True) (f := addRow targetBytes) rows ⟨[], [], 0⟩ (fun row hrow b _ => by
      obtain ⟨n, hsize, hn⟩ := h row hrow
      obtain ⟨-, hnext⟩ | ⟨-, hnext⟩ := addRow_of_fits (b := b) hsize hn
      · exact ⟨_, hnext, trivial⟩
      · exact ⟨_, hnext, trivial⟩) trivial
    obtain ⟨b, hloop, -⟩ := htotal
    refine ⟨b.finish, ?_⟩
    simp only [batches, bind_eq_ok, pure_eq_ok]
    exact ⟨b, hloop, rfl⟩

theorem not_rowFits_iff {row : NormalizedTraceRow} : ¬ RowFits targetBytes row ↔ ¬ Encodes row ∨ Exceeds targetBytes row := by
  cases hrow : row.rowBytes with
  | error e | ok n => simp [RowFits, Encodes, Exceeds, hrow]

theorem batches_raises_iff {rows : List NormalizedTraceRow} :
    (∃ e, batches rows targetBytes = .error e) ↔ ∃ row ∈ rows, ¬ Encodes row ∨ Exceeds targetBytes row := by
  have hfails : (∃ e, batches rows targetBytes = .error e) ↔ ¬ ∃ result, batches rows targetBytes = .ok result := by
    cases batches rows targetBytes with
    | error e | ok result => simp
  rw [hfails, batches_isOk_iff]
  simp only [not_forall, exists_prop, not_rowFits_iff]

/-- **Batching loses nothing**, and raises for a row that is too large alone, when every row can be written or one is too
large. -/
theorem batching_holds_iff (rows : List NormalizedTraceRow) (targetBytes : ℕ) :
    BatchingHolds rows targetBytes ↔ (∀ row ∈ rows, Encodes row) ∨ ∃ row ∈ rows, Exceeds targetBytes row := by
  constructor
  · rintro ⟨-, hraises⟩
    by_contra hneither
    rw [not_or, not_forall] at hneither
    obtain ⟨⟨row, hunwritten⟩, hsmall⟩ := hneither
    rw [Classical.not_imp] at hunwritten
    exact hsmall (hraises.mp (batches_raises_iff.mpr ⟨row, hunwritten.1, .inl hunwritten.2⟩))
  · intro h
    refine ⟨fun result => kept_of_batches, batches_raises_iff.trans ⟨?_, ?_⟩⟩
    · rintro ⟨row, hrow, hunwritten | hlarge⟩
      · rcases h with hall | hlarge
        · exact (hunwritten (hall row hrow)).elim
        · exact hlarge
      · exact ⟨row, hrow, hlarge⟩
    · rintro ⟨row, hrow, hlarge⟩
      exact ⟨row, hrow, .inr hlarge⟩

/-- A record whose resource has a lone surrogate among its attributes. -/
def surrogateRow : NormalizedTraceRow where
  orgId := text "4c5bd4a1-95a7-4c59-9d0f-1c1d6a8a4b8e"
  ingestId := text "9d2a1c1e-3b7c-4f0a-8a52-0f6a2d2b7c11"
  projectionVersion := 1
  projectionAttempt := 1
  recordIndex := 0
  eventId := text "e0"
  sourceKind := text "otlp"
  transportKind := text "upload"
  sourceLabel := text "prod"
  eventType := text "record"
  traceId := []
  spanId := []
  parentSpanId := none
  name := []
  spanKind := text "unspecified"
  status := text "unset"
  startedAtNs := none
  durationNs := none
  model := none
  inputTokens := 0
  outputTokens := 0
  attributesJson := text "\x7b\"resource.k\":\"" ++ [.surrogate 0] ++ text "\"\x7d"
  payloadJson := text "\x7b\x7d"
  payloadSha256 := text "p0"
  objectSha256 := text "o0"
  receivedAt := text "2026-08-22 20:00:00.000000"

/-- A small row stops the batches of eight megabytes. -/
theorem batching_stopped : ¬ BatchingHolds [surrogateRow] 8388608 := by
  have hrow : surrogateRow.rowBytes = .error .unicodeEncode := by decide +kernel
  rintro ⟨-, hraises⟩
  obtain ⟨row, hmem, n, hsize, -⟩ := hraises.mp (batches_raises_iff.mpr ⟨surrogateRow, List.mem_singleton_self _, .inl (by
    rintro ⟨n, hn⟩
    cases hrow.symm.trans hn)⟩)
  rw [List.mem_singleton.mp hmem] at hsize
  cases hrow.symm.trans hsize

end Experiential.Acquisition
