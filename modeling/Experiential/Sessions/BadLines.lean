import Experiential.Lib.TextLines
import Experiential.Sessions.Logs

/-! # Bad lines of a log

A line of a log that is no record should cost nothing. It costs the whole file where it is no UTF-8, or where it has a
marker and `loads` fails on it with something else than `JSONDecodeError`. Otherwise the scan is that of the records. -/

namespace Experiential.Sessions

open Py Usage

variable {F : Type}

/-! ### Records -/

section records

variable (rt : Runtime F) (markers : List PyStr) (isRecord : Entries F → Bool)

/-- The text of a line that decodes. -/
def lineText (line : Bytes) : PyStr := (decodeStrict line).toOption.getD []

/-- The texts that the reader takes off lines. -/
def rawLines (lines : List Bytes) : List PyStr := lines.flatMap fun line => iterRawLines (lineText line)

/-- The object that a text holds. -/
def objectOf (raw : PyStr) : Option (Entries F) := (parseJsonObject rt raw).toOption.join

def HasMarker (raw : PyStr) : Prop := ∃ marker ∈ markers, marker <:+: raw

/-- The object that the loop sees of a text. -/
def readObject (raw : PyStr) : Option (Entries F) :=
  if markers.any fun marker => decide (marker <:+: raw) then objectOf rt raw else none

/-- A record that the loop sees. -/
def readRecord (raw : PyStr) : Option (Entries F) := (readObject rt markers raw).filter isRecord

/-- The records that the loop sees, with their positions. -/
def records (lines : List Bytes) : List (Entries F × ℕ) :=
  (rawLines lines).zipIdx.filterMap fun raw => (readRecord rt markers isRecord raw.1).map (·, raw.2)

/-- The line decodes to a well-formed record. -/
def wellFormed (line : Bytes) : Bool :=
  match decodeStrict line with
  | .ok decoded => (objectOf rt (Str.strip decoded)).any isRecord
  | .error _ => false

/-- The lines of a file that keeps only the well-formed ones. -/
def kept (lines : List Bytes) : List Bytes := lines.filter (wellFormed rt isRecord)

/-- Nothing stops the reader. -/
structure Readable (lines : List Bytes) : Prop where
  decodes : ∀ line ∈ lines, ∃ decoded, decodeStrict line = .ok decoded
  loads : ∀ raw ∈ rawLines lines, HasMarker markers raw → ∀ e, loads rt raw = .error e → e = .jsonDecode

/-- A line that is no record does not have one between carriage returns either, where the reader divides it. -/
def Whole (lines : List Bytes) : Prop :=
  ∀ line ∈ lines, wellFormed rt isRecord line = false →
    ∀ raw ∈ iterRawLines (lineText line), readRecord rt markers isRecord raw = none

variable {rt markers isRecord}

theorem parseJsonObject_ok_iff {raw : PyStr} :
    (∃ o, parseJsonObject rt raw = .ok o) ↔ ∀ e, Py.loads rt raw = .error e → e = .jsonDecode := by
  unfold parseJsonObject
  cases h : Py.loads rt raw with
  | ok v => cases v <;> simp
  | error e => cases e <;> simp

theorem markedObject_ok_iff {raw : PyStr} : (∃ o, markedObject rt markers raw = .ok o) ↔
    (HasMarker markers raw → ∀ e, Py.loads rt raw = .error e → e = .jsonDecode) := by
  unfold markedObject HasMarker
  by_cases h : ∃ marker ∈ markers, marker <:+: raw
  · rw [if_pos (by simpa using h), parseJsonObject_ok_iff]
    exact ⟨fun hok _ => hok, fun hok => hok h⟩
  · rw [if_neg (by simpa using h)]
    exact ⟨fun _ hm => (h hm).elim, fun _ => ⟨none, rfl⟩⟩

theorem markedObject_eq_readObject {raw : PyStr}
    (h : HasMarker markers raw → ∀ e, Py.loads rt raw = .error e → e = .jsonDecode) :
    markedObject rt markers raw = .ok (readObject rt markers raw) := by
  obtain ⟨o, ho⟩ := markedObject_ok_iff.mpr h
  rw [ho]
  unfold markedObject at ho
  unfold readObject objectOf
  split_ifs at ho ⊢ with hmarker
  · rw [ho]
    rfl
  · exact ho.symm

theorem iterRawLines_join (texts : List PyStr) : iterRawLines (Str.join '\n' texts) = texts.flatMap iterRawLines := by
  by_cases hne : texts = []
  · subst hne
    decide
  · unfold iterRawLines
    rw [splitOnP_join (by decide) hne, List.map_flatMap, List.filter_flatMap]

theorem decode_lines {lines : List Bytes} (h : ∀ line ∈ lines, ∃ decoded, decodeStrict line = .ok decoded) :
    decodeStrict (joinLines lines) = .ok (Str.join '\n' (lines.map lineText)) := by
  have htexts : lines.mapM decodeStrict = .ok (lines.map lineText) := by
    refine mapM_eq_ok.mpr (List.forall₂_map_right_iff.mpr (List.forall₂_same.mpr fun line hline => ?_))
    obtain ⟨decoded, hdecoded⟩ := h line hline
    rw [lineText, hdecoded]
    rfl
  rw [decodeStrict_joinLines, htexts]
  rfl

theorem decodes_of_ok {lines : List Bytes} {decoded : PyStr} (h : decodeStrict (joinLines lines) = .ok decoded) :
    ∀ line ∈ lines, ∃ decoded, decodeStrict line = .ok decoded := by
  rw [decodeStrict_joinLines, bind_eq_ok] at h
  obtain ⟨texts, htexts, -⟩ := h
  exact exists_of_forall₂ (mapM_eq_ok.mp htexts)

theorem rawLines_eq (lines : List Bytes) : iterRawLines (Str.join '\n' (lines.map lineText)) = rawLines lines := by
  rw [iterRawLines_join, rawLines, List.flatMap_map]

theorem Readable.kept {lines : List Bytes} (h : Readable rt markers lines) : Readable rt markers (kept rt isRecord lines) where
  decodes line hline := h.decodes line (List.mem_of_mem_filter hline)
  loads raw hraw := by
    obtain ⟨line, hline, hraw⟩ := List.mem_flatMap.mp hraw
    exact h.loads raw (List.mem_flatMap.mpr ⟨line, List.mem_of_mem_filter hline, hraw⟩)

theorem map_fst_filterMap_zipIdx {α β : Type} (f : α → Option β) : ∀ (l : List α) (i : ℕ),
    ((l.zipIdx i).filterMap fun a => (f a.1).map (·, a.2)).map Prod.fst = l.filterMap f
  | [], _ => rfl
  | a :: l, i => by
      have hrest := map_fst_filterMap_zipIdx f l (i + 1)
      rw [List.zipIdx_cons, List.filterMap_cons, List.filterMap_cons]
      cases f a with
      | none => exact hrest
      | some b => exact congrArg (b :: ·) hrest

theorem map_fst_records (lines : List Bytes) :
    (records rt markers isRecord lines).map Prod.fst = (rawLines lines).filterMap (readRecord rt markers isRecord) :=
  map_fst_filterMap_zipIdx _ _ 0

theorem flatMap_filter_of_nil {α β : Type} {p : α → Bool} {f : α → List β} : ∀ {l : List α},
    (∀ a ∈ l, p a = false → f a = []) → (l.filter p).flatMap f = l.flatMap f
  | [], _ => rfl
  | a :: l, h => by
      obtain ⟨ha, hl⟩ := List.forall_mem_cons.mp h
      cases hp : p a with
      | true => rw [List.filter_cons_of_pos hp, List.flatMap_cons, List.flatMap_cons, flatMap_filter_of_nil hl]
      | false => rw [List.filter_cons_of_neg (by simp [hp]), List.flatMap_cons, ha hp, flatMap_filter_of_nil hl, List.nil_append]

/-- The file that keeps the well-formed lines has the records of the whole one, at other positions. -/
theorem records_kept {lines : List Bytes} (h : Whole rt markers isRecord lines) :
    (records rt markers isRecord (kept rt isRecord lines)).map Prod.fst =
      (records rt markers isRecord lines).map Prod.fst := by
  rw [map_fst_records, map_fst_records, rawLines, rawLines, kept, List.filterMap_flatMap, List.filterMap_flatMap]
  refine flatMap_filter_of_nil fun line hline hbad => ?_
  exact List.filterMap_eq_nil_iff.mpr (h line hline hbad)

end records

/-! ### Codex -/

section codex

variable (env : ScanEnv F) (stem : PyStr)

/-- `apply` takes something from the object. -/
def codexRecord (parsed : Entries F) : Bool :=
  if getStr parsed "type" = some (text "session_meta") then
    (validate env.codexSessionMetaPayload (Entries.get? parsed (text "payload"))).isSome
  else if getStr parsed "type" = some (text "turn_context") then
    (validate env.codexTurnContextPayload (Entries.get? parsed (text "payload"))).isSome
  else if getStr parsed "type" = some (text "event_msg") then
    (getStr parsed "timestamp").isSome &&
      (validate env.codexTokenCountPayload (Entries.get? parsed (text "payload"))).any fun token =>
        decide (token.type = some (text "token_count"))
  else false

/-- The state behind the records of lines. -/
def codexState (lines : List Bytes) : CodexScanState F :=
  ((records env.rt codexLineMarkers (codexRecord env) lines).map Prod.fst).foldl (fun state parsed => state.apply env parsed)
    ⟨stem, none, none, 0, [], none⟩

/-- What is returned of a state. -/
def CodexScanState.result (state : CodexScanState F) : SessionFileScan F where
  source := .codex
  sessionId := state.sessionId
  fileStem := stem
  projectDir := state.projectDir
  gitBranch := none
  turns := state.turns
  limitObservation := state.limitObservation
  apiErrors := []

/-- The scan of the file returns, and that of the file with the well-formed lines alone returns the same. -/
def CodexHolds (lines : List Bytes) : Prop :=
  ∃ scan, scanCodexFile env stem (joinLines lines) = .ok scan ∧
    scanCodexFile env stem (joinLines (kept env.rt (codexRecord env) lines)) = .ok scan

variable {env stem} {lines : List Bytes}

theorem CodexScanState.apply_of_not_record (state : CodexScanState F) {parsed : Entries F}
    (h : codexRecord env parsed = false) : state.apply env parsed = state := by
  unfold codexRecord at h
  unfold CodexScanState.apply
  split_ifs at h ⊢ with session context event
  · rw [CodexScanState.applyMeta, Option.isSome_eq_false_iff.mp h |> Option.isNone_iff_eq_none.mp]
  · rw [CodexScanState.applyContext, Option.isSome_eq_false_iff.mp h |> Option.isNone_iff_eq_none.mp]
  · unfold CodexScanState.applyEvent
    cases htoken : validate env.codexTokenCountPayload (Entries.get? parsed (text "payload")) with
    | none => rfl
    | some token =>
      cases htime : getStr parsed "timestamp" with
      | none => rfl
      | some timestamp =>
        have htype : token.type ≠ some (text "token_count") := by simpa [htoken, htime] using h
        exact if_pos htype
  · rfl

/-- Texts that are no records leave the state as it is. -/
theorem CodexScanState.foldl_read (lines : List Bytes) (state : CodexScanState F) :
    (rawLines lines).foldl (fun state raw => state.read env (readObject env.rt codexLineMarkers raw)) state =
      ((records env.rt codexLineMarkers (codexRecord env) lines).map Prod.fst).foldl
        (fun state parsed => state.apply env parsed) state := by
  rw [map_fst_records, List.foldl_filterMap]
  congr 1
  funext state raw
  unfold readRecord
  cases readObject env.rt codexLineMarkers raw with
  | none => rfl
  | some parsed =>
    rw [Option.filter_some]
    by_cases hrecord : codexRecord env parsed = true
    · rw [if_pos hrecord]
      rfl
    · rw [if_neg hrecord]
      exact state.apply_of_not_record (by simpa using hrecord)

theorem scanCodexFile_eq_ok {scan : SessionFileScan F} : scanCodexFile env stem (joinLines lines) = .ok scan ↔
    Readable env.rt codexLineMarkers lines ∧ (codexState env stem lines).result stem = scan := by
  constructor
  · intro h
    obtain ⟨decoded, hdecoded, h⟩ := bind_eq_ok.mp h
    obtain ⟨state, hstate, hresult⟩ := bind_eq_ok.mp h
    have hlines := decodes_of_ok hdecoded
    obtain rfl := Except.ok.inj ((decode_lines hlines).symm.trans hdecoded)
    rw [rawLines_eq] at hstate
    have hread : Readable env.rt codexLineMarkers lines :=
      ⟨hlines, fun raw hraw => markedObject_ok_iff.mp (forall_of_foldlM_read hstate raw hraw)⟩
    rw [foldlM_read_eq_ok fun raw hraw => markedObject_eq_readObject (hread.loads raw hraw)] at hstate
    rw [CodexScanState.foldl_read] at hstate
    refine ⟨hread, ?_⟩
    rw [codexState, Except.ok.inj hstate]
    exact Except.ok.inj hresult
  · rintro ⟨hread, rfl⟩
    refine bind_eq_ok.mpr ⟨_, decode_lines hread.decodes, bind_eq_ok.mpr ⟨codexState env stem lines, ?_, rfl⟩⟩
    rw [rawLines_eq, foldlM_read_eq_ok fun raw hraw => markedObject_eq_readObject (hread.loads raw hraw),
      CodexScanState.foldl_read]
    rfl

theorem readable_of_codexHolds (h : CodexHolds env stem lines) : Readable env.rt codexLineMarkers lines := by
  obtain ⟨scan, hscan, -⟩ := h
  exact (scanCodexFile_eq_ok.mp hscan).1

theorem codexHolds_of_readable (hread : Readable env.rt codexLineMarkers lines)
    (hwhole : Whole env.rt codexLineMarkers (codexRecord env) lines) : CodexHolds env stem lines := by
  refine ⟨_, scanCodexFile_eq_ok.mpr ⟨hread, rfl⟩, scanCodexFile_eq_ok.mpr ⟨hread.kept, ?_⟩⟩
  rw [codexState, records_kept hwhole]
  rfl

end codex

/-! ### Claude Code -/

section claude

variable (env : ScanEnv F) (name stem : PyStr)

def claudeRecord (parsed : Entries F) : Bool := (assistantLine env parsed).isSome

/-- What the loop does with a record. -/
def ClaudeScanState.take (state : ClaudeScanState) (record : Entries F × ℕ) : ClaudeScanState :=
  state.read env name record.2 (some record.1)

/-- The state behind the records of lines. -/
def claudeState (lines : List Bytes) : ClaudeScanState :=
  (records env.rt claudeAssistantMarkers (claudeRecord env) lines).foldl (fun state record => state.take env name record)
    ⟨stem, none, none, .empty, []⟩

/-- What is returned of a state. -/
def ClaudeScanState.result (state : ClaudeScanState) : SessionFileScan F where
  source := .claudeCode
  sessionId := state.sessionId
  fileStem := stem
  projectDir := state.projectDir
  gitBranch := state.gitBranch
  turns := state.turnsById.entries.map (·.2)
  limitObservation := none
  apiErrors := state.apiErrors

/-- The turn of a record. -/
def recordTurn (record : Entries F × ℕ) : Option TurnUsage :=
  (assistantLine env record.1).bind fun line => claudeTurn line (positionId name record.2)

/-- Each record with its position in the file and in the one of the well-formed lines. -/
def placed (lines : List Bytes) : List ((Entries F × ℕ) × (Entries F × ℕ)) :=
  (records env.rt claudeAssistantMarkers (claudeRecord env) lines).zip
    (records env.rt claudeAssistantMarkers (claudeRecord env) (kept env.rt (claudeRecord env) lines))

/-- Two turns have one id in the file exactly when they have one in that of the well-formed lines: no id of a message is
the position that another turn falls back to in one of the two alone. -/
def SameIds (lines : List Bytes) : Prop :=
  ∀ p ∈ placed env lines, ∀ q ∈ placed env lines,
    ((recordTurn env name p.1).map (·.eventId) = (recordTurn env name q.1).map (·.eventId) ↔
      (recordTurn env name p.2).map (·.eventId) = (recordTurn env name q.2).map (·.eventId))

/-- One turn, up to the id of its position. -/
def SameTurn (t t' : TurnUsage) : Prop :=
  t' = t ∨ ∃ i j, t.eventId = positionId name i ∧ t' = { t with eventId := positionId name j }

/-- The scan of the file returns, and that of the file with the well-formed lines alone returns the same up to the ids of
positions. -/
def ClaudeHolds (lines : List Bytes) : Prop :=
  ∃ scan only, scanClaudeFile env name stem (joinLines lines) = .ok scan ∧
    scanClaudeFile env name stem (joinLines (kept env.rt (claudeRecord env) lines)) = .ok only ∧
    only = { scan with turns := only.turns } ∧ List.Forall₂ (SameTurn name) scan.turns only.turns

variable {env name stem} {lines : List Bytes}

theorem ClaudeScanState.foldl_read (lines : List Bytes) (state : ClaudeScanState) :
    (rawLines lines).zipIdx.foldl
        (fun state raw => state.read env name raw.2 (readObject env.rt claudeAssistantMarkers raw.1)) state =
      (records env.rt claudeAssistantMarkers (claudeRecord env) lines).foldl
        (fun state record => state.take env name record) state := by
  rw [records, List.foldl_filterMap]
  congr 1
  funext state raw
  unfold readRecord
  cases readObject env.rt claudeAssistantMarkers raw.1 with
  | none => rfl
  | some parsed =>
    rw [Option.filter_some]
    by_cases hrecord : claudeRecord env parsed = true
    · rw [if_pos hrecord]
      rfl
    · have hnone : assistantLine env parsed = none := by simpa [claudeRecord] using hrecord
      rw [if_neg hrecord]
      simp only [ClaudeScanState.read, hnone]
      rfl

theorem scanClaudeFile_eq_ok {scan : SessionFileScan F} : scanClaudeFile env name stem (joinLines lines) = .ok scan ↔
    Readable env.rt claudeAssistantMarkers lines ∧ (claudeState env name stem lines).result stem = scan := by
  constructor
  · intro h
    obtain ⟨decoded, hdecoded, h⟩ := bind_eq_ok.mp h
    obtain ⟨state, hstate, hresult⟩ := bind_eq_ok.mp h
    have hlines := decodes_of_ok hdecoded
    obtain rfl := Except.ok.inj ((decode_lines hlines).symm.trans hdecoded)
    rw [rawLines_eq] at hstate
    have hread : Readable env.rt claudeAssistantMarkers lines := by
      refine ⟨hlines, fun raw hraw => markedObject_ok_iff.mp ?_⟩
      obtain ⟨i, hi⟩ := List.getElem?_of_mem hraw
      exact forall_of_foldlM_read hstate (raw, i) (List.mk_mem_zipIdx_iff_getElem?.mpr hi)
    rw [foldlM_read_eq_ok fun raw hraw => markedObject_eq_readObject (hread.loads raw.1 (List.fst_mem_of_mem_zipIdx hraw))]
      at hstate
    rw [ClaudeScanState.foldl_read] at hstate
    refine ⟨hread, ?_⟩
    rw [claudeState, Except.ok.inj hstate]
    exact Except.ok.inj hresult
  · rintro ⟨hread, rfl⟩
    refine bind_eq_ok.mpr ⟨_, decode_lines hread.decodes, bind_eq_ok.mpr ⟨claudeState env name stem lines, ?_, rfl⟩⟩
    rw [rawLines_eq]
    refine (foldlM_read_eq_ok fun raw hraw =>
      markedObject_eq_readObject (hread.loads raw.1 (List.fst_mem_of_mem_zipIdx hraw))) _ |>.trans ?_
    exact congrArg Except.ok (ClaudeScanState.foldl_read lines _)

/-- Whether a line has a turn does not hang on its position. -/
theorem claudeTurn_eq (line : ClaudeAssistantLine) (id : PyStr) :
    claudeTurn line id = (claudeTurn line []).map fun t => { t with eventId := line.ownId.getD id } := by
  unfold claudeTurn
  cases line.message.usage with
  | none => rfl
  | some usage =>
    cases line.message.model with
    | none => rfl
    | some model =>
      cases line.timestamp with
      | none => rfl
      | some timestamp =>
        simp only [Option.bind_eq_bind, Option.bind_some]
        split_ifs <;> rfl

/-- Only the id of a turn says where its line stands. -/
theorem sameTurn_of_claudeTurn {line : ClaudeAssistantLine} {i j : ℕ} {t t' : TurnUsage}
    (h : claudeTurn line (positionId name i) = some t) (h' : claudeTurn line (positionId name j) = some t') :
    SameTurn name t t' := by
  rw [claudeTurn_eq, Option.map_eq_some_iff] at h h'
  obtain ⟨t₀, ht₀, rfl⟩ := h
  obtain ⟨t₁, ht₁, rfl⟩ := h'
  obtain rfl := Option.some.inj (ht₀.symm.trans ht₁)
  cases line.ownId with
  | some id => exact .inl rfl
  | none => exact .inr ⟨i, j, rfl, rfl⟩

theorem ClaudeScanState.take_none {state : ClaudeScanState} {parsed : Entries F} {i : ℕ}
    (h : assistantLine env parsed = none) : state.take env name (parsed, i) = state := by
  simp only [take, read, h]

theorem ClaudeScanState.take_some {state : ClaudeScanState} {parsed : Entries F} {i : ℕ} {line : ClaudeAssistantLine}
    (h : assistantLine env parsed = some line) : state.take env name (parsed, i) = state.apply name line i := by
  simp only [take, read, h]

/-- Entries of the same record. -/
def SameEntry (env : ScanEnv F) (name : PyStr) (lines : List Bytes) (e e' : PyStr × TurnUsage) : Prop :=
  ∃ p ∈ placed env lines, recordTurn env name p.1 = some e.2 ∧ recordTurn env name p.2 = some e'.2 ∧
    e.1 = e.2.eventId ∧ e'.1 = e'.2.eventId

/-- Two states that differ in the ids of positions alone. -/
structure Alike (env : ScanEnv F) (name : PyStr) (lines : List Bytes) (state state' : ClaudeScanState) : Prop where
  rest : state' = { state with turnsById := state'.turnsById }
  turns : List.Forall₂ (SameEntry env name lines) state.turnsById.entries state'.turnsById.entries

theorem placed_same (hwhole : Whole env.rt claudeAssistantMarkers (claudeRecord env) lines) :
    List.Forall₂ (fun r r' => r.1 = r'.1) (records env.rt claudeAssistantMarkers (claudeRecord env) lines)
      (records env.rt claudeAssistantMarkers (claudeRecord env) (kept env.rt (claudeRecord env) lines)) := by
  have heq := records_kept hwhole
  rw [← List.forall₂_eq_eq_eq, List.forall₂_map_left_iff, List.forall₂_map_right_iff] at heq
  exact heq.flip.imp fun _ _ h => h.symm

/-- **Step lemma**: a record does to both states the same. -/
theorem Alike.take (hids : SameIds env name lines) {state state' : ClaudeScanState} (h : Alike env name lines state state')
    {p : (Entries F × ℕ) × (Entries F × ℕ)} (hp : p ∈ placed env lines) (hsame : p.1.1 = p.2.1) :
    Alike env name lines (state.take env name p.1) (state'.take env name p.2) := by
  obtain ⟨⟨parsed, i⟩, ⟨parsed', j⟩⟩ := p
  obtain rfl : parsed = parsed' := hsame
  obtain ⟨hrest, hturns⟩ := h
  cases hline : assistantLine env parsed with
  | none =>
    rw [ClaudeScanState.take_none hline, ClaudeScanState.take_none hline]
    exact ⟨hrest, hturns⟩
  | some line =>
    have hturn : ∀ k, recordTurn env name (parsed, k) = claudeTurn line (positionId name k) := by
      intro k
      rw [recordTurn, hline]
      rfl
    rw [ClaudeScanState.take_some hline, ClaudeScanState.take_some hline]
    refine ⟨by rw [hrest]; rfl, ?_⟩
    simp only [ClaudeScanState.apply]
    cases ht : claudeTurn line [] with
    | none =>
      have hnone : ∀ id, claudeTurn line id = none := fun id => by rw [claudeTurn_eq, ht, Option.map_none]
      rw [hnone, hnone]
      exact hturns
    | some t =>
      have hsome : ∀ id, claudeTurn line id = some { t with eventId := line.ownId.getD id } := fun id => by
        rw [claudeTurn_eq, ht, Option.map_some]
      rw [hsome, hsome]
      refine OrderedDict.forall₂_set hturns ?_
        ⟨_, hp, (hturn i).trans (hsome _), (hturn j).trans (hsome _), rfl, rfl⟩
      rintro e e' ⟨q, hq, he, he', hkey, hkey'⟩
      have hiff := hids q hq _ hp
      rw [he, he', hturn i, hturn j, hsome, hsome] at hiff
      rw [hkey, hkey']
      simpa using hiff

/-- **Run lemma**: the two files end in states that differ in the ids of positions alone. -/
theorem alike_claudeState (hwhole : Whole env.rt claudeAssistantMarkers (claudeRecord env) lines)
    (hids : SameIds env name lines) :
    Alike env name lines (claudeState env name stem lines)
      (claudeState env name stem (kept env.rt (claudeRecord env) lines)) := by
  have hrun : ∀ {rs rs' : List (Entries F × ℕ)}, List.Forall₂ (fun r r' => r.1 = r'.1) rs rs' →
      (∀ p ∈ rs.zip rs', p ∈ placed env lines) → ∀ {state state'}, Alike env name lines state state' →
      Alike env name lines (rs.foldl (fun state record => state.take env name record) state)
        (rs'.foldl (fun state record => state.take env name record) state') := by
    intro rs rs' hrs
    induction hrs with
    | nil => exact fun _ _ _ h => h
    | cons hsame _ ih =>
      intro hplaced state state' h
      obtain ⟨hp, hrest⟩ := List.forall_mem_cons.mp hplaced
      exact ih hrest (h.take hids hp hsame)
  exact hrun (placed_same hwhole) (fun p hp => hp) ⟨rfl, .nil⟩

theorem readable_of_claudeHolds (h : ClaudeHolds env name stem lines) : Readable env.rt claudeAssistantMarkers lines := by
  obtain ⟨scan, only, hscan, -⟩ := h
  exact (scanClaudeFile_eq_ok.mp hscan).1

theorem claudeHolds_of_readable (hread : Readable env.rt claudeAssistantMarkers lines)
    (hwhole : Whole env.rt claudeAssistantMarkers (claudeRecord env) lines) (hids : SameIds env name lines) :
    ClaudeHolds env name stem lines := by
  have halike : Alike env name lines (claudeState env name stem lines) _ := alike_claudeState hwhole hids
  obtain ⟨hrest, hturns⟩ := halike
  refine ⟨_, _, scanClaudeFile_eq_ok.mpr ⟨hread, rfl⟩, scanClaudeFile_eq_ok.mpr ⟨hread.kept, rfl⟩, ?_, ?_⟩
  · rw [hrest]
    rfl
  · refine List.forall₂_map_left_iff.mpr (List.forall₂_map_right_iff.mpr (hturns.imp ?_))
    rintro ⟨k, t⟩ ⟨k', t'⟩ ⟨p, hp, ht, ht', hk, hk'⟩
    obtain ⟨line, hline, ht⟩ := Option.bind_eq_some_iff.mp ht
    obtain ⟨line', hline', ht'⟩ := Option.bind_eq_some_iff.mp ht'
    have hsame : p.1.1 = p.2.1 := (List.forall₂_iff_zip.mp (placed_same hwhole)).2 hp
    rw [hsame] at hline
    obtain rfl := Option.some.inj (hline.symm.trans hline')
    exact sameTurn_of_claudeTurn ht ht'

end claude

/-! ### Files -/

/-- **Bad lines**: a file whose scan is that of its well-formed lines is readable, and a readable one is scanned so where
its lines are whole and its turns keep their ids. -/
theorem bad_lines_cost_nothing_iff (env : ScanEnv F) (name stem : PyStr) (lines : List Bytes) :
    (ClaudeHolds env name stem lines → Readable env.rt claudeAssistantMarkers lines) ∧
      (Whole env.rt claudeAssistantMarkers (claudeRecord env) lines → SameIds env name lines →
        Readable env.rt claudeAssistantMarkers lines → ClaudeHolds env name stem lines) ∧
      (CodexHolds env stem lines → Readable env.rt codexLineMarkers lines) ∧
      (Whole env.rt codexLineMarkers (codexRecord env) lines → Readable env.rt codexLineMarkers lines →
        CodexHolds env stem lines) :=
  ⟨readable_of_claudeHolds, fun hwhole hids hread => claudeHolds_of_readable hread hwhole hids, readable_of_codexHolds,
    fun hwhole hread => codexHolds_of_readable hread hwhole⟩

def logRuntime : Runtime Unit := .plain

/-- Models that accept the lines below. -/
def logEnv : ScanEnv Unit where
  rt := logRuntime
  claudeAssistantLine parsed := (Entries.get? parsed (text "message")).map fun _ =>
    ⟨⟨none, some (text "opus"), some ⟨1, 0, 0, 0, ⟨0⟩⟩⟩, some (text "09:00"), none, none, none, none, false, none⟩
  codexSessionMetaPayload _ := none
  codexTurnContextPayload parsed := (Entries.get? parsed (text "model")).map fun _ => ⟨some (text "gpt")⟩
  codexTokenCountPayload _ := none

def claudeLine : Bytes := bytes ("\x7b\"type\":\"assistant\",\"timestamp\":\"09:00\",\"message\":" ++
  "\x7b\"model\":\"opus\",\"usage\":\x7b\"input_tokens\":1\x7d\x7d\x7d")

def codexLine : Bytes := bytes "\x7b\"type\":\"turn_context\",\"payload\":\x7b\"model\":\"gpt\"\x7d\x7d"

def tornLine : Bytes := bytes "\x7b\"type\":\"assistant\",\"turn_context\""

/-- A line that was torn costs nothing. -/
theorem torn_line_costs_nothing :
    kept logEnv.rt (claudeRecord logEnv) [tornLine, claudeLine, codexLine] = [claudeLine] ∧
      ClaudeHolds logEnv (text "s.jsonl") (text "s") [tornLine, claudeLine, codexLine] ∧
      kept logEnv.rt (codexRecord logEnv) [tornLine, claudeLine, codexLine] = [codexLine] ∧
      CodexHolds logEnv (text "s") [tornLine, claudeLine, codexLine] := by
  have hclaude : Readable logEnv.rt claudeAssistantMarkers [tornLine, claudeLine, codexLine] := by
    have hscan : scanClaudeFile logEnv (text "s.jsonl") (text "s") (joinLines [tornLine, claudeLine, codexLine]) =
        .ok ⟨.claudeCode, text "s", text "s", none, none, [⟨.claudeCode, text "s.jsonl:1", text "opus", 1, 0, 0, 0, text "09:00"⟩],
          none, []⟩ := by decide +kernel
    exact (scanClaudeFile_eq_ok.mp hscan).1
  have hcodex : Readable logEnv.rt codexLineMarkers [tornLine, claudeLine, codexLine] := by
    have hscan : scanCodexFile logEnv (text "s") (joinLines [tornLine, claudeLine, codexLine]) =
        .ok ⟨.codex, text "s", text "s", none, none, [], none, []⟩ := by decide +kernel
    exact (scanCodexFile_eq_ok.mp hscan).1
  obtain ⟨-, claude, -, codex⟩ :=
    bad_lines_cost_nothing_iff logEnv (text "s.jsonl") (text "s") [tornLine, claudeLine, codexLine]
  refine ⟨by decide +kernel, claude ?_ ?_ hclaude, by decide +kernel, codex ?_ hcodex⟩
  · unfold Whole
    decide +kernel
  · unfold SameIds
    decide +kernel
  · unfold Whole
    decide +kernel

/-- An octet that is no UTF-8 costs the whole file. -/
theorem bad_lines_cost_all :
    (scanClaudeFile logEnv (text "s.jsonl") (text "s") (joinLines [claudeLine]) =
        .ok ⟨.claudeCode, text "s", text "s", none, none, [⟨.claudeCode, text "s.jsonl:0", text "opus", 1, 0, 0, 0, text "09:00"⟩],
          none, []⟩ ∧
      kept logEnv.rt (claudeRecord logEnv) [claudeLine, [0xFF]] = [claudeLine] ∧
      scanClaudeFile logEnv (text "s.jsonl") (text "s") (joinLines [claudeLine, [0xFF]]) = .error .unicodeDecode ∧
      ¬ ClaudeHolds logEnv (text "s.jsonl") (text "s") [claudeLine, [0xFF]]) ∧
    kept logEnv.rt (codexRecord logEnv) [codexLine, [0xFF]] = [codexLine] ∧
      scanCodexFile logEnv (text "s") (joinLines [codexLine, [0xFF]]) = .error .unicodeDecode ∧
      ¬ CodexHolds logEnv (text "s") [codexLine, [0xFF]] := by
  have hclaude : scanClaudeFile logEnv (text "s.jsonl") (text "s") (joinLines [claudeLine, [0xFF]]) =
      .error .unicodeDecode := by decide +kernel
  have hcodex : scanCodexFile logEnv (text "s") (joinLines [codexLine, [0xFF]]) = .error .unicodeDecode := by
    decide +kernel
  refine ⟨⟨by decide +kernel, by decide +kernel, hclaude, ?_⟩, by decide +kernel, hcodex, ?_⟩
  · rintro ⟨scan, only, hscan, -⟩
    rw [hclaude] at hscan
    cases hscan
  · rintro ⟨scan, hscan, -⟩
    rw [hcodex] at hscan
    cases hscan

end Experiential.Sessions
