import Experiential.Acquisition.Normalization
import Experiential.Lib.Joined
import Mathlib.Data.Set.List

/-! # One row per record

Normalization either refuses an object with its own error or returns a row for every record, in order: rows are numbered
from zero, their ids differ, and the same octets give the same ids again. `normalization_holds_iff` says for which objects
another exception leaves it. -/

namespace Experiential.Acquisition

open Py

variable {F M : Type} (env : TraceRuntime F M)

/-! ### What is promised -/

/-- The text that the id of a row of the object is the digest of. -/
def IsEventText (receipt : TraceReceipt) (content : Bytes) (t : String) : Prop :=
  ∃ documents e index payloadJson payloadSha256, decodeDocuments env content = .ok documents ∧
    (iterExtractedRecords env documents)[index]? = some (.ok e) ∧ canonicalJson env (.dict e.1) = .ok payloadJson ∧
    payloadDigest env payloadJson = .ok payloadSha256 ∧ t = eventText receipt.objectSha256 index payloadSha256

/-- No two of these texts have one digest. -/
def NoCollision (receipt : TraceReceipt) (content : Bytes) : Prop :=
  ∀ t t', IsEventText env receipt content t → IsEventText env receipt content t' →
    env.hexdigest (bytes t) = env.hexdigest (bytes t') → t = t'

/-- The rows of the records of an object. -/
structure RowPerRecord (receipt : TraceReceipt) (content : Bytes) (rows : List NormalizedTraceRow) : Prop where
  records : ∃ documents, ∃ extracted : List (Extracted F), decodeDocuments env content = .ok documents ∧
    iterExtractedRecords env documents = extracted.map .ok ∧
    List.Forall₂ (fun e row => normalizeRecord env receipt e.2 e.1 = .ok row) extracted.zipIdx rows
  indices : rows.map (·.recordIndex) = List.range rows.length
  distinct : (rows.map (·.eventId)).Nodup
  stable : ∀ receipt' rows', normalizeTraceObject env receipt' content = .ok rows' →
    rows'.map (·.eventId) = rows.map (·.eventId)

/-- An object is refused with a `TraceNormalizationError`, or its records become rows. -/
def NormalizationHolds (receipt : TraceReceipt) (content : Bytes) : Prop :=
  (∃ message, normalizeTraceObject env receipt content = .error (.normalization message)) ∨
    ∃ rows, normalizeTraceObject env receipt content = .ok rows ∧ RowPerRecord env receipt content rows

/-- The canonical text of an object can be written. -/
def Written (entries : Entries F) : Prop := ∃ t, canonicalJson env (.dict entries) = .ok t

/-- What a row takes of a record can be read: the canonical text has no lone surrogate, the attributes nest within the
interpreter's limit, and neither the numbers nor the start time are texts that pass for one and cannot be converted. -/
def Readable (e : Extracted F) : Prop :=
  ∃ payloadJson attributes startedAtNs, canonicalJson env (.dict e.1) = .ok payloadJson ∧ IsUnicode payloadJson ∧
    attributesWith env e = .ok attributes ∧ startedAt env e.1 = .ok startedAtNs ∧
    (∃ n, durationOf env e.1 startedAtNs = .ok n) ∧ (∃ n, firstNonnegativeInt env attributes inputTokenKeys = .ok n) ∧
    ∃ n, firstNonnegativeInt env attributes outputTokenKeys = .ok n

/-- The record is refused. -/
def Refused (receipt : TraceReceipt) : Except PyError (Extracted F) → Prop
  | .error _ => False
  | .ok e => ¬ Written env e.1 ∨ Readable env e ∧ ∃ attributes, attributesWith env e = .ok attributes ∧
      (¬ Written env attributes ∨ ∃ message, clickhouseDatetime env receipt.receivedAt = .error (.normalization message))

/-- The record can be written and not be read, or the time of the receipt cannot be converted. -/
def Escapes (receipt : TraceReceipt) : Except PyError (Extracted F) → Prop
  | .error _ => True
  | .ok e => Written env e.1 ∧ (¬ Readable env e ∨ ∃ attributes, attributesWith env e = .ok attributes ∧
      Written env attributes ∧ ∃ error, clickhouseDatetime env receipt.receivedAt = .error (.python error))

/-- No record makes another exception, unless an earlier one is refused. -/
def NothingEscapes (receipt : TraceReceipt) (content : Bytes) : Prop :=
  env.hexdigest content = receipt.objectSha256 → ∀ documents, decodeDocuments env content = .ok documents →
    ∀ before item behind, iterExtractedRecords env documents = before ++ item :: behind → Escapes env receipt item →
      ∃ earlier ∈ before, Refused env receipt earlier

/-! ### What may be raised -/

variable {env}

def IsNormalization (e : TraceError) : Prop := ∃ message, e = .normalization message

theorem liftPython_eq_ok {α : Type} {x : Except PyError α} {a : α} : liftPython x = .ok a ↔ x = .ok a := by
  cases x <;> simp [liftPython, Except.mapError]

theorem liftPython_eq_error {α : Type} {x : Except PyError α} {e : TraceError} :
    liftPython x = .error e ↔ ∃ error, x = .error error ∧ e = .python error := by
  cases x <;> simp [liftPython, Except.mapError, eq_comm]

theorem canonicalWithin_raises : ∀ (depth : ℕ) (v : Json F), RaisesOnly IsReadError (canonicalWithin env depth v) := by
  intro depth
  induction depth with
  | zero =>
    intro v
    cases v with
    | bool b => cases b <;> exact RaisesOnly.ok _
    | float x =>
      unfold canonicalWithin
      split_ifs
      · exact RaisesOnly.ok _
      · exact RaisesOnly.error (.inr (.inl rfl))
    | list items | dict entries => exact RaisesOnly.error (.inr (.inr rfl))
    | _ => exact RaisesOnly.ok _
  | succ depth ih =>
    intro v
    cases v with
    | bool b => cases b <;> exact RaisesOnly.ok _
    | float x =>
      unfold canonicalWithin
      split_ifs
      · exact RaisesOnly.ok _
      · exact RaisesOnly.error (.inr (.inl rfl))
    | list items =>
      unfold canonicalWithin
      exact (RaisesOnly.mapM fun v _ => ih v).bind fun _ _ => RaisesOnly.pure _
    | dict entries =>
      unfold canonicalWithin
      refine (RaisesOnly.mapM fun e _ => ?_).bind fun _ _ => RaisesOnly.pure _
      exact (ih e.2).bind fun _ _ => RaisesOnly.pure _
    | _ => exact RaisesOnly.ok _

/-- Both `json.loads` and `json.dumps` raise what is caught here. -/
theorem caught_of_isReadError {e : PyError} (h : IsReadError e) : e = .recursion ∨ e.isValueError := by
  rcases h with rfl | rfl | rfl
  · exact .inr rfl
  · exact .inr rfl
  · exact .inl rfl

theorem canonicalJson_raises (v : Json F) : RaisesOnly IsNormalization (canonicalJson env v) := by
  unfold canonicalJson
  cases h : canonicalWithin env env.rt.recursionLimit v with
  | ok t => exact RaisesOnly.ok t
  | error e =>
    have hcaught : e = .recursion ∨ e = .type ∨ e.isValueError :=
      (caught_of_isReadError (canonicalWithin_raises _ _ e h)).imp_right .inr
    dsimp only
    rw [if_pos hcaught]
    exact RaisesOnly.error ⟨_, rfl⟩

theorem loadsCaught_isOk (env : TraceRuntime F M) (s : PyStr) : ∃ v, loadsCaught env s = .ok v := by
  unfold loadsCaught
  cases h : loads env.rt s with
  | ok v => exact ⟨some v, rfl⟩
  | error e =>
    dsimp only
    rw [if_pos (caught_of_isReadError (loads_raises _ _ e h))]
    exact ⟨none, rfl⟩

theorem decodeDocuments_raises (content : Bytes) : RaisesOnly IsNormalization (decodeDocuments env content) := by
  have hloads : ∀ s, RaisesOnly IsNormalization (liftPython (loadsCaught env s)) := by
    intro s
    obtain ⟨v, hv⟩ := loadsCaught_isOk env s
    rw [liftPython_eq_ok.mpr hv]
    exact RaisesOnly.ok v
  have hline : ∀ line, RaisesOnly IsNormalization (decodeLine env line) := by
    intro line
    unfold decodeLine
    split_ifs
    · exact RaisesOnly.pure _
    · refine (hloads line).bind fun found _ => ?_
      cases found with
      | none => exact RaisesOnly.error ⟨_, rfl⟩
      | some v => exact RaisesOnly.pure _
  unfold decodeDocuments
  cases decodeStrict content with
  | error e => exact RaisesOnly.error ⟨_, rfl⟩
  | ok s =>
    refine (hloads s).bind fun found _ => ?_
    cases found with
    | some decoded => exact RaisesOnly.pure _
    | none => exact (RaisesOnly.mapM fun line _ => hline line).bind fun _ _ => RaisesOnly.pure _

/-! ### One record -/

theorem payloadDigest_isOk {payloadJson : PyStr} : (∃ d, payloadDigest env payloadJson = .ok d) ↔ IsUnicode payloadJson := by
  simp only [payloadDigest, bind_eq_ok, pure_eq_ok]
  constructor
  · rintro ⟨_, b, hb, -⟩
    exact isUnicode_of_encode hb
  · intro h
    obtain ⟨b, hb⟩ := encode_of_isUnicode h
    exact ⟨_, b, hb, rfl⟩

variable {e : Extracted F} {payloadJson : PyStr} {fields : RecordFields F}

theorem attributes_of_readRecord (h : readRecord env e payloadJson = .ok fields) :
    attributesWith env e = .ok fields.attributes := by
  simp only [readRecord, bind_eq_ok, pure_eq_ok] at h
  obtain ⟨_, -, attributes, hattributes, _, -, _, -, _, -, _, -, rfl⟩ := h
  exact hattributes

theorem payloadDigest_of_readRecord (h : readRecord env e payloadJson = .ok fields) :
    payloadDigest env payloadJson = .ok fields.payloadSha256 := by
  simp only [readRecord, bind_eq_ok, pure_eq_ok] at h
  obtain ⟨digest, hdigest, _, -, _, -, _, -, _, -, _, -, rfl⟩ := h
  exact hdigest

theorem readable_iff (hpayload : canonicalJson env (.dict e.1) = .ok payloadJson) :
    Readable env e ↔ ∃ fields, readRecord env e payloadJson = .ok fields := by
  simp only [readRecord, bind_eq_ok, pure_eq_ok]
  constructor
  · rintro ⟨payloadJson', attributes, startedAtNs, hpayload', hunicode, hattributes, hstarted, ⟨d, hd⟩, ⟨i, hi⟩, o, ho⟩
    cases hpayload.symm.trans hpayload'
    obtain ⟨digest, hdigest⟩ := payloadDigest_isOk.mpr hunicode
    exact ⟨_, digest, hdigest, attributes, hattributes, startedAtNs, hstarted, d, hd, i, hi, o, ho, rfl⟩
  · rintro ⟨_, digest, hdigest, attributes, hattributes, startedAtNs, hstarted, d, hd, i, hi, o, ho, -⟩
    exact ⟨payloadJson, attributes, startedAtNs, hpayload, payloadDigest_isOk.mp ⟨digest, hdigest⟩, hattributes, hstarted,
      ⟨d, hd⟩, ⟨i, hi⟩, o, ho⟩

variable {receipt : TraceReceipt}

theorem rowOf_cases (env : TraceRuntime F M) (receipt : TraceReceipt) (item : Except PyError (Extracted F)) (index : ℕ) :
    (Refused env receipt item ∧ ∃ message, rowOf env receipt (item, index) = .error (.normalization message)) ∨
      (Escapes env receipt item ∧ ∃ error, rowOf env receipt (item, index) = .error (.python error)) ∨
      (¬ Refused env receipt item ∧ ¬ Escapes env receipt item ∧ ∃ row, rowOf env receipt (item, index) = .ok row) := by
  cases item with
  | error error => exact .inr (.inl ⟨trivial, error, rfl⟩)
  | ok e =>
    change (Refused env receipt (.ok e) ∧ ∃ message, normalizeRecord env receipt index e = .error (.normalization message)) ∨
      (Escapes env receipt (.ok e) ∧ ∃ error, normalizeRecord env receipt index e = .error (.python error)) ∨
      (¬ Refused env receipt (.ok e) ∧ ¬ Escapes env receipt (.ok e) ∧ ∃ row, normalizeRecord env receipt index e = .ok row)
    cases hpayload : canonicalJson env (.dict e.1) with
    | error error =>
      obtain ⟨message, rfl⟩ := canonicalJson_raises _ error hpayload
      refine .inl ⟨.inl ?_, message, bind_eq_error.mpr (.inl hpayload)⟩
      rintro ⟨t, ht⟩
      cases hpayload.symm.trans ht
    | ok payloadJson =>
      have hreadable := readable_iff hpayload
      cases hfields : readRecord env e payloadJson with
      | error error =>
        refine .inr (.inl ⟨⟨⟨payloadJson, hpayload⟩, .inl fun hread => ?_⟩, error, ?_⟩)
        · obtain ⟨fields, h⟩ := hreadable.mp hread
          cases hfields.symm.trans h
        · exact bind_eq_error.mpr (.inr ⟨_, hpayload, bind_eq_error.mpr (.inl (liftPython_eq_error.mpr ⟨error, hfields, rfl⟩))⟩)
      | ok fields =>
        have hread : Readable env e := hreadable.mpr ⟨fields, hfields⟩
        have hattributes := attributes_of_readRecord hfields
        have hfails : ∀ {error}, (canonicalJson env (.dict fields.attributes) >>= fun attributesJson =>
            clickhouseDatetime env receipt.receivedAt >>= fun receivedAt =>
              pure (recordRow env receipt index e.1 payloadJson fields attributesJson receivedAt)) = .error error →
            normalizeRecord env receipt index e = .error error := fun h =>
          bind_eq_error.mpr (.inr ⟨_, hpayload, bind_eq_error.mpr (.inr ⟨_, liftPython_eq_ok.mpr hfields, h⟩)⟩)
        cases hwritten : canonicalJson env (.dict fields.attributes) with
        | error error =>
          obtain ⟨message, rfl⟩ := canonicalJson_raises _ error hwritten
          refine .inl ⟨.inr ⟨hread, fields.attributes, hattributes, .inl ?_⟩, message, hfails (bind_eq_error.mpr (.inl hwritten))⟩
          rintro ⟨t, ht⟩
          cases hwritten.symm.trans ht
        | ok attributesJson =>
          cases htime : clickhouseDatetime env receipt.receivedAt with
          | error error =>
            have hrow := hfails (bind_eq_error.mpr (.inr ⟨_, hwritten, bind_eq_error.mpr (.inl htime)⟩))
            cases error with
            | normalization message =>
              exact .inl ⟨.inr ⟨hread, fields.attributes, hattributes, .inr ⟨message, htime⟩⟩, message, hrow⟩
            | python error =>
              exact .inr (.inl ⟨⟨⟨payloadJson, hpayload⟩, .inr ⟨fields.attributes, hattributes, ⟨_, hwritten⟩, error, htime⟩⟩,
                error, hrow⟩)
          | ok receivedAt =>
            refine .inr (.inr ⟨?_, ?_, recordRow env receipt index e.1 payloadJson fields attributesJson receivedAt, ?_⟩)
            · rintro (hunwritten | ⟨-, attributes, hattributes', hunwritten | ⟨message, htime'⟩⟩)
              · exact hunwritten ⟨_, hpayload⟩
              · cases hattributes.symm.trans hattributes'
                exact hunwritten ⟨_, hwritten⟩
              · cases htime.symm.trans htime'
            · rintro ⟨-, hunread | ⟨attributes, -, -, error, htime'⟩⟩
              · exact hunread hread
              · cases htime.symm.trans htime'
            exact bind_eq_ok.mpr ⟨_, hpayload, bind_eq_ok.mpr ⟨_, liftPython_eq_ok.mpr hfields,
              bind_eq_ok.mpr ⟨_, hwritten, bind_eq_ok.mpr ⟨_, htime, rfl⟩⟩⟩⟩

variable {item : Except PyError (Extracted F)}

theorem Escapes.not_refused (h : Escapes env receipt item) : ¬ Refused env receipt item := by
  cases item with
  | error error => exact id
  | ok e =>
    rintro (hunwritten | ⟨hread, attributes, hattributes, hrefused⟩)
    · exact hunwritten h.1
    · rcases h.2 with hunread | ⟨attributes', hattributes', hwritten, error, htime⟩
      · exact hunread hread
      · cases hattributes.symm.trans hattributes'
        rcases hrefused with hunwritten | ⟨message, htime'⟩
        · exact hunwritten hwritten
        · cases htime.symm.trans htime'

theorem escapes_iff (index : ℕ) :
    Escapes env receipt item ↔ ∃ error, rowOf env receipt (item, index) = .error (.python error) := by
  obtain ⟨hrefused, message, hrow⟩ | ⟨hescapes, hrow⟩ | ⟨-, hstays, row, hrow⟩ := rowOf_cases env receipt item index
  · refine ⟨fun h => (h.not_refused hrefused).elim, ?_⟩
    rintro ⟨error, herror⟩
    cases hrow.symm.trans herror
  · exact ⟨fun _ => hrow, fun _ => hescapes⟩
  · refine ⟨fun h => (hstays h).elim, ?_⟩
    rintro ⟨error, herror⟩
    cases hrow.symm.trans herror

theorem refused_of_normalization {index : ℕ} {message : String}
    (h : rowOf env receipt (item, index) = .error (.normalization message)) : Refused env receipt item := by
  obtain ⟨hrefused, -⟩ | ⟨-, error, hrow⟩ | ⟨-, -, row, hrow⟩ := rowOf_cases env receipt item index
  · exact hrefused
  · cases hrow.symm.trans h
  · cases hrow.symm.trans h

theorem not_refused_of_ok {index : ℕ} {row : NormalizedTraceRow}
    (h : rowOf env receipt (item, index) = .ok row) : ¬ Refused env receipt item := by
  obtain ⟨-, message, hrow⟩ | ⟨-, error, hrow⟩ | ⟨hnot, -⟩ := rowOf_cases env receipt item index
  · cases hrow.symm.trans h
  · cases hrow.symm.trans h
  · exact hnot

/-! ### Ids -/

theorem eventText_inj {objectSha256 payload payload' : String} {index index' : ℕ}
    (h : eventText objectSha256 index payload = eventText objectSha256 index' payload') : index = index' := by
  have hchars := congrArg String.toList h
  simp only [eventText, String.toList_append, List.append_assoc] at hchars
  have hbehind := List.append_cancel_left (List.append_cancel_left hchars)
  have hsplit := congrArg (List.splitOn ':') hbehind
  have hcolon := not_mem_decimal (c := ':') (by decide)
  rw [show ":".toList = [':'] from rfl, List.singleton_append, List.singleton_append, splitOn_append_cons, splitOn_append_cons,
    splitOn_of_not_mem (hcolon index), splitOn_of_not_mem (hcolon index')] at hsplit
  exact decimal_injective (String.toList_inj.mp (List.cons.inj hsplit).1)

/-- The id that an item gets in an object of this digest. -/
def itemId (env : TraceRuntime F M) (objectSha256 : String) (item : Except PyError (Extracted F) × ℕ) : PyStr :=
  match item.1 with
  | .error _ => []
  | .ok e =>
    match canonicalJson env (.dict e.1) with
    | .error _ => []
    | .ok payloadJson =>
      match payloadDigest env payloadJson with
      | .error _ => []
      | .ok payloadSha256 => text (env.hexdigest (bytes (eventText objectSha256 item.2 payloadSha256)))

theorem rowOf_spec {item : Except PyError (Extracted F) × ℕ} {row : NormalizedTraceRow} (h : rowOf env receipt item = .ok row) :
    row.recordIndex = item.2 ∧ row.eventId = itemId env receipt.objectSha256 item ∧ ∃ e payloadJson payloadSha256,
      item.1 = .ok e ∧ normalizeRecord env receipt item.2 e = .ok row ∧ canonicalJson env (.dict e.1) = .ok payloadJson ∧
      payloadDigest env payloadJson = .ok payloadSha256 ∧
      row.eventId = text (env.hexdigest (bytes (eventText receipt.objectSha256 item.2 payloadSha256))) := by
  obtain ⟨e, he, hrow⟩ := bind_eq_ok.mp h
  have hitem := liftPython_eq_ok.mp he
  have hfields := hrow
  simp only [normalizeRecord, bind_eq_ok, pure_eq_ok, liftPython_eq_ok] at hfields
  obtain ⟨payloadJson, hpayload, fields, hfields, attributesJson, -, receivedAt, -, rfl⟩ := hfields
  have hdigest := payloadDigest_of_readRecord hfields
  refine ⟨rfl, ?_, e, payloadJson, fields.payloadSha256, hitem, hrow, hpayload, hdigest, rfl⟩
  unfold itemId
  rw [hitem]
  dsimp only
  rw [hpayload]
  dsimp only
  rw [hdigest]
  rfl

/-! ### Objects -/

/-- **Rows are returned** exactly when the digest is that of the receipt and every record makes one, at least one. -/
theorem normalize_eq_ok_iff {content : Bytes} {rows : List NormalizedTraceRow} :
    normalizeTraceObject env receipt content = .ok rows ↔ env.hexdigest content = receipt.objectSha256 ∧ rows ≠ [] ∧
      ∃ documents, decodeDocuments env content = .ok documents ∧
        (iterExtractedRecords env documents).zipIdx.mapM (rowOf env receipt) = .ok rows := by
  simp only [normalizeTraceObject, bind_eq_ok, ensure_eq_ok, pure_eq_ok]
  constructor
  · rintro ⟨_, hdigest, documents, hdocuments, rows', hrows, _, hne, rfl⟩
    exact ⟨hdigest, hne, documents, hdocuments, hrows⟩
  · rintro ⟨hdigest, hne, documents, hdocuments, hrows⟩
    exact ⟨(), hdigest, documents, hdocuments, rows, hrows, (), hne, rfl⟩

theorem rowPerRecord_of_normalize {content : Bytes} {rows : List NormalizedTraceRow}
    (hcollision : NoCollision env receipt content) (h : normalizeTraceObject env receipt content = .ok rows) :
    RowPerRecord env receipt content rows := by
  obtain ⟨hdigest, -, documents, hdocuments, hrows⟩ := normalize_eq_ok_iff.mp h
  have hforall := mapM_eq_ok.mp hrows
  have hids : rows.map (·.eventId) = (iterExtractedRecords env documents).zipIdx.map (itemId env receipt.objectSha256) :=
    map_of_mapM (fun item row hrow => (rowOf_spec hrow).2.1) hrows
  have hindices : rows.map (·.recordIndex) = List.range rows.length := by
    have hlength : rows.length = (iterExtractedRecords env documents).length := by
      have h := hforall.length_eq
      rw [List.length_zipIdx] at h
      exact h.symm
    rw [map_of_mapM (fun item row hrow => (rowOf_spec hrow).1) hrows, List.zipIdx_map_snd, hlength, List.range_eq_range']
  have hrow : ∀ row ∈ rows, ∃ t, IsEventText env receipt content t ∧
      row.eventId = text (env.hexdigest (bytes t)) ∧ ∃ payload, t = eventText receipt.objectSha256 row.recordIndex payload := by
    intro row hmem
    obtain ⟨item, hitem, hof⟩ := (mem_of_mapM_eq_ok hrows).mp hmem
    obtain ⟨hindex, -, e, payloadJson, payloadSha256, he, -, hpayload, hdigest, hid⟩ := rowOf_spec hof
    refine ⟨eventText receipt.objectSha256 item.2 payloadSha256, ?_, hid, payloadSha256, by rw [hindex]⟩
    refine ⟨documents, e, item.2, payloadJson, payloadSha256, hdocuments, ?_, hpayload, hdigest, rfl⟩
    rw [← he]
    exact List.mem_zipIdx_iff_getElem?.mp hitem
  refine ⟨?_, hindices, ?_, ?_⟩
  · have hall : ∀ item ∈ iterExtractedRecords env documents, item ∈ Set.range Except.ok := by
      intro item hmem
      obtain ⟨index, hindex⟩ := List.mem_iff_getElem?.mp hmem
      obtain ⟨row, -, hof⟩ := exists_mem_of_forall₂ hforall (item, index) (List.mem_zipIdx_iff_getElem?.mpr hindex)
      obtain ⟨-, -, e, -, -, he, -⟩ := rowOf_spec hof
      exact ⟨e, he.symm⟩
    obtain ⟨extracted, hextracted⟩ : iterExtractedRecords env documents ∈ Set.range (List.map Except.ok) := by
      rw [Set.range_list_map]
      exact hall
    refine ⟨documents, extracted, hdocuments, hextracted.symm, ?_⟩
    rw [← hextracted, List.zipIdx_map, List.forall₂_map_left_iff] at hforall
    refine hforall.imp fun e row hof => ?_
    obtain ⟨-, -, e', -, -, he, hnormalized, -⟩ := rowOf_spec hof
    cases he
    exact hnormalized
  · have hnodup : (rows.map (·.recordIndex)).Nodup := by
      rw [hindices]
      exact List.nodup_range
    refine List.Nodup.map_on (fun row hmem row' hmem' hid => ?_) hnodup.of_map
    obtain ⟨t, ht, heq, payload, hpayload⟩ := hrow row hmem
    obtain ⟨t', ht', heq', payload', hpayload'⟩ := hrow row' hmem'
    have hsame := hcollision t t' ht ht' (text_injective (heq.symm.trans (hid.trans heq')))
    exact List.inj_on_of_nodup_map hnodup hmem hmem' (eventText_inj (hpayload.symm.trans (hsame.trans hpayload')))
  · rintro receipt' rows' h'
    obtain ⟨hdigest', -, documents', hdocuments', hrows'⟩ := normalize_eq_ok_iff.mp h'
    cases hdocuments.symm.trans hdocuments'
    rw [hids, map_of_mapM (fun item row hrow => (rowOf_spec hrow).2.1) hrows', ← hdigest, ← hdigest']

theorem zipIdx_split {α : Type} {l before behind : List (α × ℕ)} {items : List α} {item : α × ℕ} (hl : items.zipIdx = l)
    (h : l = before ++ item :: behind) : items = before.map Prod.fst ++ item.1 :: behind.map Prod.fst := by
  have hfst := congrArg (List.map Prod.fst) (hl.trans h)
  rw [List.zipIdx_map_fst, List.map_append, List.map_cons] at hfst
  exact hfst

theorem row_of_item {items : List (Except PyError (Extracted F))} {rows : List NormalizedTraceRow}
    (h : items.zipIdx.mapM (rowOf env receipt) = .ok rows) (hitem : item ∈ items) :
    ∃ index row, rowOf env receipt (item, index) = .ok row := by
  obtain ⟨index, hindex⟩ := List.mem_iff_getElem?.mp hitem
  obtain ⟨row, -, hrow⟩ := exists_mem_of_forall₂ (mapM_eq_ok.mp h) (item, index) (List.mem_zipIdx_iff_getElem?.mpr hindex)
  exact ⟨index, row, hrow⟩

/-- The first item that makes no row is before every other, when it is refused and the other escapes. -/
theorem first_refused {items before behind before' behind' : List (Except PyError (Extracted F))}
    {item item' : Except PyError (Extracted F)} (hitems : items = before ++ item :: behind)
    (hitems' : items = before' ++ item' :: behind') (hescapes : Escapes env receipt item) (hrefused : Refused env receipt item')
    (hmade : ∀ x ∈ before', x ≠ item) : ∃ earlier ∈ before, Refused env receipt earlier := by
  have hne : item ≠ item' := by
    rintro rfl
    exact hescapes.not_refused hrefused
  rcases List.append_eq_append_iff.mp (hitems.symm.trans hitems') with ⟨rest, hbefore', hrest⟩ | ⟨rest, hbefore, hrest⟩
  · cases rest with
    | nil => exact (hne (List.cons.inj hrest).1).elim
    | cons x rest =>
      have hx : x = item := (List.cons.inj hrest).1.symm
      exact (hmade x (hbefore' ▸ List.mem_append_right before List.mem_cons_self) hx).elim
  · cases rest with
    | nil => exact (hne (List.cons.inj hrest).1.symm).elim
    | cons x rest =>
      have hx : x = item' := (List.cons.inj hrest).1.symm
      refine ⟨x, hbefore ▸ List.mem_append_right _ List.mem_cons_self, ?_⟩
      rw [hx]
      exact hrefused

/-- **One row per record**, in order and under ids of its own, for every object that is not refused, exactly when no record
makes another exception before one is refused. -/
theorem normalization_holds_iff {content : Bytes} (hcollision : NoCollision env receipt content) :
    NormalizationHolds env receipt content ↔ NothingEscapes env receipt content := by
  constructor
  · rintro hholds hdigest documents hdocuments before item behind hitems hescapes
    have hstays : ∀ {index row}, rowOf env receipt (item, index) ≠ .ok row := by
      intro index row hrow
      obtain ⟨error, herror⟩ := (escapes_iff index).mp hescapes
      cases hrow.symm.trans herror
    rcases hholds with ⟨message, hresult⟩ | ⟨rows, hresult, -⟩
    · rcases bind_eq_error.mp hresult with hunlike | ⟨_, -, hresult⟩
      · exact ((ensure_eq_error.mp hunlike).1 hdigest).elim
      rcases bind_eq_error.mp hresult with hundecoded | ⟨documents', hdocuments', hresult⟩
      · cases hundecoded.symm.trans hdocuments
      cases hdocuments.symm.trans hdocuments'
      rcases bind_eq_error.mp hresult with hrows | ⟨rows, hrows, -⟩
      · obtain ⟨before', ⟨item', index⟩, behind', hl, hbefore, hitem⟩ := mapM_eq_error.mp hrows
        exact first_refused hitems (zipIdx_split rfl hl) hescapes (refused_of_normalization hitem) fun x hx => by
          obtain ⟨⟨x, place⟩, hmem, rfl⟩ := List.mem_map.mp hx
          obtain ⟨row, hrow⟩ := hbefore _ hmem
          rintro rfl
          exact hstays hrow
      · obtain ⟨_, _, hrow⟩ := row_of_item hrows (hitems ▸ List.mem_append_right before List.mem_cons_self)
        exact (hstays hrow).elim
    · obtain ⟨-, -, documents', hdocuments', hrows⟩ := normalize_eq_ok_iff.mp hresult
      cases hdocuments.symm.trans hdocuments'
      obtain ⟨_, _, hrow⟩ := row_of_item hrows (hitems ▸ List.mem_append_right before List.mem_cons_self)
      exact (hstays hrow).elim
  · intro hnothing
    cases hresult : normalizeTraceObject env receipt content with
    | ok rows => exact .inr ⟨rows, hresult, rowPerRecord_of_normalize hcollision hresult⟩
    | error error =>
      cases error with
      | normalization message => exact .inl ⟨message, hresult⟩
      | python error =>
        exfalso
        rcases bind_eq_error.mp hresult with hdigest | ⟨_, hdigest, hresult⟩
        · cases (ensure_eq_error.mp hdigest).2
        rcases bind_eq_error.mp hresult with hdocuments | ⟨documents, hdocuments, hresult⟩
        · obtain ⟨message, hmessage⟩ := decodeDocuments_raises content _ hdocuments
          cases hmessage
        rcases bind_eq_error.mp hresult with hrows | ⟨rows, -, hresult⟩
        · obtain ⟨before, ⟨item, index⟩, behind, hl, hbefore, hitem⟩ := mapM_eq_error.mp hrows
          obtain ⟨earlier, hearlier, hrefused⟩ := hnothing (ensure_eq_ok.mp hdigest) documents hdocuments _ item _
            (zipIdx_split rfl hl) ((escapes_iff index).mpr ⟨error, hitem⟩)
          obtain ⟨⟨earlier, place⟩, hmem, rfl⟩ := List.mem_map.mp hearlier
          obtain ⟨row, hrow⟩ := hbefore _ hmem
          exact not_refused_of_ok hrow hrefused
        · rcases bind_eq_error.mp hresult with hempty | ⟨_, -, hpure⟩
          · cases (ensure_eq_error.mp hempty).2
          · cases hpure

/-! ### Two objects -/

def sampleRuntime : Runtime Unit := .plain

/-- The digests of the objects below and of their records. -/
def sampleDigests : List (String × String) :=
  [("\x7b\"a\":\"\\ud800\"\x7d", "89f8ca88ea20e6cd48ed0ab6b731b66377cab0c8fb9a7187ea96ac6813ed24e4"),
    ("\x7b\"trace_id\":\"a\"\x7d\n\x7b\"trace_id\":\"b\"\x7d\n",
      "730f04193786dadcadb5c5b1263872154435c354e47fc4247d13d6dc2ec42fee"),
    ("\x7b\"trace_id\":\"a\"\x7d", "4655c0827bdb993aeadb48698f2a622b2c8244458b52321f32aa4d8d5b92b30a"),
    ("\x7b\"trace_id\":\"b\"\x7d", "562597dbacd51a85b34f85b40c2f82aeb8bf92e2123137bf02e65e1ae84c95e6")]

/-- The digest of a text; those of the two ids, which have their place behind a digest, are told by it. -/
def sampleDigest (b : Bytes) : String :=
  match (b.drop 65).head? with
  | some 0x30 => "e596be7c9bad9eb7067422669514c4a8b1e0af47724418b335be2f87d6fb86df"
  | some 0x31 => "c2cc40077824c28ec49ee3837e78865d62bea339512bc7d69b8c6b9dc9af5fd8"
  | _ => ((sampleDigests.find? fun e => decide (bytes e.1 = b)).map Prod.snd).getD ""

/-- The time at which both were received. -/
def sampleTime : PyStr := text "2026-08-22T20:00:00+00:00"

def sampleEnv : TraceRuntime Unit PyStr where
  otelLimit := 400
  rt := sampleRuntime
  isFinite _ := true
  hexdigest := sampleDigest
  fromisoformat s := if s = sampleTime then .ok s else .error .value
  isNaive _ := false
  timestampNs _ := .ok 1787428800000000000
  utcText _ := .ok (text "2026-08-22 20:00:00.000000")

def sampleReceipt (objectSha256 : String) : TraceReceipt where
  orgId := text "4c5bd4a1-95a7-4c59-9d0f-1c1d6a8a4b8e"
  ingestId := text "9d2a1c1e-3b7c-4f0a-8a52-0f6a2d2b7c11"
  sourceKind := text "otlp"
  transportKind := text "upload"
  sourceLabel := text "prod"
  objectSha256 := objectSha256
  receivedAt := sampleTime
  projectionVersion := 1
  projectionAttempt := 1

/-- A record with a lone surrogate. -/
def surrogateObject : Bytes := bytes "\x7b\"a\":\"\\ud800\"\x7d"

def surrogateReceipt : TraceReceipt := sampleReceipt "89f8ca88ea20e6cd48ed0ab6b731b66377cab0c8fb9a7187ea96ac6813ed24e4"

/-- It is neither refused nor does it become a row. -/
theorem record_without_row : ¬ NormalizationHolds sampleEnv surrogateReceipt surrogateObject := by
  have hresult : normalizeTraceObject sampleEnv surrogateReceipt surrogateObject = .error (.python .unicodeEncode) := by
    decide +kernel
  rintro (⟨message, h⟩ | ⟨rows, h, -⟩) <;> cases hresult.symm.trans h

/-- Two records, each on a line. -/
def twoLines : Bytes := bytes "\x7b\"trace_id\":\"a\"\x7d\n\x7b\"trace_id\":\"b\"\x7d\n"

def twoReceipt : TraceReceipt := sampleReceipt "730f04193786dadcadb5c5b1263872154435c354e47fc4247d13d6dc2ec42fee"

/-- The records of the two lines. -/
def twoRecords : List (Extracted Unit) :=
  [([(text "trace_id", .str (text "a"))], []), ([(text "trace_id", .str (text "b"))], [])]

theorem decodeDocuments_twoLines :
    decodeDocuments sampleEnv twoLines = .ok (twoRecords.map fun e => .dict e.1) := by decide +kernel

theorem iterExtractedRecords_twoLines :
    iterExtractedRecords sampleEnv (twoRecords.map fun e => .dict e.1) = twoRecords.map .ok := rfl

theorem eventText_twoLines {t : String} (h : IsEventText sampleEnv twoReceipt twoLines t) :
    t = eventText twoReceipt.objectSha256 0 "4655c0827bdb993aeadb48698f2a622b2c8244458b52321f32aa4d8d5b92b30a" ∨
      t = eventText twoReceipt.objectSha256 1 "562597dbacd51a85b34f85b40c2f82aeb8bf92e2123137bf02e65e1ae84c95e6" := by
  obtain ⟨documents, e, index, payloadJson, payloadSha256, hdocuments, hitem, hpayload, hdigest, rfl⟩ := h
  cases hdocuments.symm.trans decodeDocuments_twoLines
  rw [iterExtractedRecords_twoLines] at hitem
  have hwritten : ∀ record payload digest, canonicalJson sampleEnv (.dict record) = .ok payload →
      payloadDigest sampleEnv payload = .ok digest → canonicalJson sampleEnv (.dict record) = .ok payloadJson →
      digest = payloadSha256 := by
    intro record payload digest hcanonical hsha hpayload
    cases hcanonical.symm.trans hpayload
    cases hsha.symm.trans hdigest
    rfl
  match index with
  | 0 =>
    obtain rfl : ([(text "trace_id", .str (text "a"))], []) = e := by simpa [twoRecords] using hitem
    rw [← hwritten _ (text "\x7b\"trace_id\":\"a\"\x7d") "4655c0827bdb993aeadb48698f2a622b2c8244458b52321f32aa4d8d5b92b30a"
      (by decide +kernel) (by decide +kernel) hpayload]
    exact .inl rfl
  | 1 =>
    obtain rfl : ([(text "trace_id", .str (text "b"))], []) = e := by simpa [twoRecords] using hitem
    rw [← hwritten _ (text "\x7b\"trace_id\":\"b\"\x7d") "562597dbacd51a85b34f85b40c2f82aeb8bf92e2123137bf02e65e1ae84c95e6"
      (by decide +kernel) (by decide +kernel) hpayload]
    exact .inr rfl
  | index + 2 => simp [twoRecords] at hitem

/-- The two records become rows. -/
theorem two_rows : NormalizationHolds sampleEnv twoReceipt twoLines ∧
    (normalizeTraceObject sampleEnv twoReceipt twoLines).map (·.map (·.recordIndex)) = .ok [0, 1] := by
  refine ⟨(normalization_holds_iff ?_).mpr ?_, by decide +kernel⟩
  · have hids : sampleEnv.hexdigest (bytes (eventText twoReceipt.objectSha256 0
        "4655c0827bdb993aeadb48698f2a622b2c8244458b52321f32aa4d8d5b92b30a")) ≠ sampleEnv.hexdigest (bytes (eventText
          twoReceipt.objectSha256 1 "562597dbacd51a85b34f85b40c2f82aeb8bf92e2123137bf02e65e1ae84c95e6")) := by decide +kernel
    intro t t' ht ht' hsame
    rcases eventText_twoLines ht with rfl | rfl <;> rcases eventText_twoLines ht' with rfl | rfl
    · rfl
    · exact (hids hsame).elim
    · exact (hids hsame.symm).elim
    · rfl
  · rintro - documents hdocuments before item behind hitems hescapes
    cases hdocuments.symm.trans decodeDocuments_twoLines
    have hrows : ∀ item ∈ twoRecords.map Except.ok, ((rowOf sampleEnv twoReceipt (item, 0)).toOption.isSome : Bool) := by
      decide +kernel
    obtain ⟨error, herror⟩ := (escapes_iff 0).mp hescapes
    have hrow := hrows item (iterExtractedRecords_twoLines ▸ hitems ▸ List.mem_append_right before List.mem_cons_self)
    rw [herror] at hrow
    cases hrow

end Experiential.Acquisition
