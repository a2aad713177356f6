import Experiential.Lib.Json
import Experiential.Usage.Import
import Experiential.Lib.PyUnicode

/-! # Scanning the logs of coding sessions

What the readers of the logs of Codex and of Claude Code make of a file: its turns with their tokens, the plan limits
last observed and the calls that failed.

A log is text with one JSON document a line. Lines without a marker are skipped unread; a line that is no object, or
that the models do not accept, is passed over. Claude Code writes a message as several lines with one id, of which the
last counts; a rollout of Codex is folded by a state machine. -/

namespace Experiential.Sessions

open Py Usage

/-- The usage of one call. -/
structure TurnUsage where
  source : ImportSource
  eventId : PyStr
  model : PyStr
  inputTokens : ℕ
  cachedTokens : ℕ
  outputTokens : ℕ
  reasoningTokens : ℕ
  timestamp : PyStr
deriving DecidableEq

variable {F : Type}

structure WindowState (F : Type) where
  usedPercent : Option F
  windowMinutes : Option ℤ
  resetsAtEpoch : Option ℤ
deriving DecidableEq

structure CodexLimitObservation (F : Type) where
  limitId : Option PyStr
  planType : Option PyStr
  primary : Option (WindowState F)
  secondary : Option (WindowState F)
  hasCredits : Option Bool
  limitReached : Option PyStr
  spendControlReached : Option Bool
  observedAt : PyStr
deriving DecidableEq

structure ApiErrorEvent where
  kind : PyStr
  timestamp : PyStr
deriving DecidableEq

/-- What is read from one file. -/
structure SessionFileScan (F : Type) where
  source : ImportSource
  sessionId : PyStr
  fileStem : PyStr
  projectDir : Option PyStr
  gitBranch : Option PyStr
  turns : List TurnUsage
  limitObservation : Option (CodexLimitObservation F)
  apiErrors : List ApiErrorEvent
deriving DecidableEq

/-! ### Models of the lines -/

structure ClaudeTokenDetails where
  thinkingTokens : ℕ

structure ClaudeUsage where
  inputTokens : ℕ
  outputTokens : ℕ
  cacheReadInputTokens : ℕ
  cacheCreationInputTokens : ℕ
  outputTokensDetails : ClaudeTokenDetails

structure ClaudeMessage where
  id : Option PyStr
  model : Option PyStr
  usage : Option ClaudeUsage

structure ClaudeAssistantLine where
  message : ClaudeMessage
  timestamp : Option PyStr
  lineUuid : Option PyStr
  sessionId : Option PyStr
  cwd : Option PyStr
  gitBranch : Option PyStr
  isApiError : Bool
  error : Option PyStr

structure CodexSessionMetaPayload where
  id : Option PyStr
  sessionId : Option PyStr
  cwd : Option PyStr

structure CodexTurnContextPayload where
  model : Option PyStr

structure CodexTokenUsage where
  inputTokens : ℕ
  cachedInputTokens : ℕ
  outputTokens : ℕ
  reasoningOutputTokens : ℕ

structure CodexTokenInfo where
  lastTokenUsage : Option CodexTokenUsage

structure CodexRateLimitWindow (F : Type) where
  usedPercent : Option F
  windowMinutes : Option ℤ
  resetsAt : Option ℤ

structure CodexCredits where
  hasCredits : Option Bool
  unlimited : Option Bool

structure CodexRateLimits (F : Type) where
  limitId : Option PyStr
  planType : Option PyStr
  primary : Option (CodexRateLimitWindow F)
  secondary : Option (CodexRateLimitWindow F)
  credits : Option CodexCredits
  rateLimitReachedType : Option PyStr
  spendControlReached : Option Bool

structure CodexTokenCountPayload (F : Type) where
  type : Option PyStr
  info : Option CodexTokenInfo
  rateLimits : Option (CodexRateLimits F)
  turnId : Option PyStr

/-- What is outside of a scan: the interpreter, and what the models accept (`model_validate`, which raises nothing but
`ValidationError`). -/
structure ScanEnv (F : Type) where
  rt : Runtime F
  claudeAssistantLine : Entries F → Option ClaudeAssistantLine
  codexSessionMetaPayload : Entries F → Option CodexSessionMetaPayload
  codexTurnContextPayload : Entries F → Option CodexTurnContextPayload
  codexTokenCountPayload : Entries F → Option (CodexTokenCountPayload F)

/-! ### Lines -/

def claudeAssistantMarkers : List PyStr := [text "\"type\":\"assistant\"", text "\"type\": \"assistant\""]

def codexLineMarkers : List PyStr := [text "\"session_meta\"", text "\"turn_context\"", text "\"token_count\""]

/-- What ends a line of a text; the blank line that this leaves between a return and a feed is dropped with the others. -/
def isLineEnd (c : CodePoint) : Bool := decide (c = .scalar '\n') || decide (c = .scalar '\r')

/-- `_iter_raw_lines`, of what the file holds as text. -/
def iterRawLines (content : PyStr) : List PyStr :=
  ((content.splitOnP isLineEnd).map Str.strip).filter fun stripped => !stripped.isEmpty

/-- `_parse_json_object` -/
def parseJsonObject (rt : Runtime F) (raw : PyStr) : Except PyError (Option (Entries F)) :=
  match loads rt raw with
  | .ok (.dict parsed) => .ok (some parsed)
  | .ok _ => .ok none
  | .error .jsonDecode => .ok none
  | .error e => .error e

/-- The object of a line with a marker. -/
def markedObject (rt : Runtime F) (markers : List PyStr) (raw : PyStr) : Except PyError (Option (Entries F)) :=
  if markers.any fun marker => decide (marker <:+: raw) then parseJsonObject rt raw else .ok none

/-- `_validate` -/
def validate {M : Type} (model : Entries F → Option M) : Option (Json F) → Option M
  | some (.dict payload) => model payload
  | _ => none

/-- `d.get(k)`, where it is a text. -/
def getStr (d : Entries F) (k : String) : Option PyStr :=
  match Entries.get? d (text k) with
  | some (.str s) => some s
  | _ => none

/-- A text that is there and not empty. -/
def truthyStr (s : Option PyStr) : Option PyStr := s.filter fun s => !s.isEmpty

/-! ### Claude Code -/

/-- `line.message.id or line.line_uuid` -/
def ClaudeAssistantLine.ownId (line : ClaudeAssistantLine) : Option PyStr :=
  (truthyStr line.message.id).or (truthyStr line.lineUuid)

/-- `_claude_turn` -/
def claudeTurn (line : ClaudeAssistantLine) (fallbackId : PyStr) : Option TurnUsage := do
  let usage ← line.message.usage
  let model ← line.message.model
  let timestamp ← line.timestamp
  let freshInput := usage.inputTokens + usage.cacheCreationInputTokens
  let cached := usage.cacheReadInputTokens
  if freshInput + cached + usage.outputTokens = 0 then none
  else
    some ⟨.claudeCode, line.ownId.getD fallbackId, model, freshInput, cached, usage.outputTokens,
      usage.outputTokensDetails.thinkingTokens, timestamp⟩

/-- The local variables of `scan_claude_file`. -/
structure ClaudeScanState where
  sessionId : PyStr
  projectDir : Option PyStr
  gitBranch : Option PyStr
  turnsById : OrderedDict PyStr TurnUsage
  apiErrors : List ApiErrorEvent

/-- `f"{path.name}:{index}"` -/
def positionId (name : PyStr) (index : ℕ) : PyStr := name ++ .scalar ':' :: text (toString index)

/-- The error of a failed call. -/
def ClaudeAssistantLine.apiError (line : ClaudeAssistantLine) : Option ApiErrorEvent :=
  if line.isApiError then line.timestamp.map fun timestamp => ⟨(truthyStr line.error).getD (text "unknown"), timestamp⟩
  else none

/-- What the loop does with an assistant line. -/
def ClaudeScanState.apply (name : PyStr) (state : ClaudeScanState) (line : ClaudeAssistantLine) (index : ℕ) :
    ClaudeScanState :=
  { sessionId := line.sessionId.getD state.sessionId
    projectDir := state.projectDir.or line.cwd
    gitBranch := state.gitBranch.or line.gitBranch
    turnsById :=
      match claudeTurn line (positionId name index) with
      | some turn => state.turnsById.set turn.eventId turn
      | none => state.turnsById
    apiErrors := state.apiErrors ++ line.apiError.toList }

/-- The assistant line of an object. -/
def assistantLine (env : ScanEnv F) (parsed : Entries F) : Option ClaudeAssistantLine :=
  if getStr parsed "type" = some (text "assistant") then env.claudeAssistantLine parsed else none

/-- What the loop does with the object of a line. -/
def ClaudeScanState.read (env : ScanEnv F) (name : PyStr) (state : ClaudeScanState) (index : ℕ) :
    Option (Entries F) → ClaudeScanState
  | none => state
  | some parsed =>
    match assistantLine env parsed with
    | none => state
    | some line => state.apply name line index

/-- `scan_claude_file`, of what a readable file holds. The text is decoded as it is read; here it is before the first
line, so that of two errors another may come first. -/
def scanClaudeFile (env : ScanEnv F) (name stem : PyStr) (content : Bytes) : Except PyError (SessionFileScan F) := do
  let decoded ← decodeStrict content
  let state ← (iterRawLines decoded).zipIdx.foldlM
    (fun (state : ClaudeScanState) (raw, index) => do
      return state.read env name index (← markedObject env.rt claudeAssistantMarkers raw))
    ⟨stem, none, none, .empty, []⟩
  return {
    source := .claudeCode
    sessionId := state.sessionId
    fileStem := stem
    projectDir := state.projectDir
    gitBranch := state.gitBranch
    turns := state.turnsById.entries.map (·.2)
    limitObservation := none
    apiErrors := state.apiErrors }

/-! ### Codex -/

/-- `_codex_turn` -/
def codexTurn (token : CodexTokenCountPayload F) (model : Option PyStr) (timestamp fallbackId : PyStr) :
    Option TurnUsage := do
  let model ← model
  let info ← token.info
  let last ← info.lastTokenUsage
  let cached := last.cachedInputTokens
  let freshInput := last.inputTokens - cached
  if freshInput + cached + last.outputTokens = 0 then none
  else
    some ⟨.codex, (truthyStr token.turnId).getD fallbackId, model, freshInput, cached, last.outputTokens,
      last.reasoningOutputTokens, timestamp⟩

/-- `_window_state` -/
def windowState (window : Option (CodexRateLimitWindow F)) : Option (WindowState F) :=
  window.map fun window => ⟨window.usedPercent, window.windowMinutes, window.resetsAt⟩

/-- `_limit_observation` -/
def limitObservation (limits : CodexRateLimits F) (observedAt : PyStr) : CodexLimitObservation F where
  limitId := limits.limitId
  planType := limits.planType
  primary := windowState limits.primary
  secondary := windowState limits.secondary
  hasCredits := limits.credits.bind (·.hasCredits)
  limitReached := limits.rateLimitReachedType
  spendControlReached := limits.spendControlReached
  observedAt := observedAt

/-- `_CodexScanState` -/
structure CodexScanState (F : Type) where
  sessionId : PyStr
  projectDir : Option PyStr
  currentModel : Option PyStr
  turnIndex : ℕ
  turns : List TurnUsage
  limitObservation : Option (CodexLimitObservation F)

namespace CodexScanState

variable (env : ScanEnv F) (state : CodexScanState F)

/-- `_apply_meta` -/
def applyMeta (payload : Option (Json F)) : CodexScanState F :=
  match validate env.codexSessionMetaPayload payload with
  | none => state
  | some m =>
    { state with
      sessionId := ((truthyStr m.sessionId).or (truthyStr m.id)).getD state.sessionId
      projectDir := state.projectDir.or m.cwd }

/-- `_apply_context` -/
def applyContext (payload : Option (Json F)) : CodexScanState F :=
  match validate env.codexTurnContextPayload payload with
  | none => state
  | some context => { state with currentModel := context.model.or state.currentModel }

/-- `_apply_event` -/
def applyEvent (parsed : Entries F) : CodexScanState F :=
  match validate env.codexTokenCountPayload (Entries.get? parsed (text "payload")), getStr parsed "timestamp" with
  | some token, some timestamp =>
    if token.type ≠ some (text "token_count") then state
    else
      let state :=
        match token.rateLimits with
        | some limits => { state with limitObservation := some (Sessions.limitObservation limits timestamp) }
        | none => state
      match codexTurn token state.currentModel timestamp
          (state.sessionId ++ .scalar ':' :: text (toString state.turnIndex)) with
      | some turn => { state with turnIndex := state.turnIndex + 1, turns := state.turns ++ [turn] }
      | none => state
  | _, _ => state

/-- `apply` -/
def apply (parsed : Entries F) : CodexScanState F :=
  if getStr parsed "type" = some (text "session_meta") then state.applyMeta env (Entries.get? parsed (text "payload"))
  else if getStr parsed "type" = some (text "turn_context") then
    state.applyContext env (Entries.get? parsed (text "payload"))
  else if getStr parsed "type" = some (text "event_msg") then state.applyEvent env parsed
  else state

/-- What the loop does with the object of a line. -/
def read : Option (Entries F) → CodexScanState F
  | none => state
  | some parsed => state.apply env parsed

end CodexScanState

/-- `scan_codex_file`, of what a readable file holds. -/
def scanCodexFile (env : ScanEnv F) (stem : PyStr) (content : Bytes) : Except PyError (SessionFileScan F) := do
  let decoded ← decodeStrict content
  let state ← (iterRawLines decoded).foldlM
    (fun (state : CodexScanState F) raw => do
      return state.read env (← markedObject env.rt codexLineMarkers raw))
    ⟨stem, none, none, 0, [], none⟩
  return {
    source := .codex
    sessionId := state.sessionId
    fileStem := stem
    projectDir := state.projectDir
    gitBranch := none
    turns := state.turns
    limitObservation := state.limitObservation
    apiErrors := [] }

end Experiential.Sessions
