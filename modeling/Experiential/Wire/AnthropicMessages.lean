import Experiential.Lib.Framing
import Experiential.Lib.Generator
import Experiential.Lib.Json

/-! # Chat completions as Anthropic messages

A chat completion becomes an Anthropic message, and a stream of chat completion chunks a stream of Anthropic events.
Payloads are decoded JSON, whose fields are looked up as the code does: a value of another type raises. The
identifiers that are minted are those of a supply.

A stream of events arrives in chunks that are cut anywhere: in a blank line, in a character. What is read of it are the
data lines of the frames that a blank line ends, whatever the cuts (`data_of_any_cutting`). -/

namespace Experiential.Wire

open Py

variable {F : Type}

/-! ### Errors -/

inductive AnthropicErrorType where
  | invalidRequestError
  | authenticationError
  | permissionError
  | notFoundError
  | requestTooLarge
  | rateLimitError
  | apiError
  | overloadedError
deriving DecidableEq

def AnthropicErrorType.text : AnthropicErrorType → PyStr
  | .invalidRequestError => Py.text "invalid_request_error"
  | .authenticationError => Py.text "authentication_error"
  | .permissionError => Py.text "permission_error"
  | .notFoundError => Py.text "not_found_error"
  | .requestTooLarge => Py.text "request_too_large"
  | .rateLimitError => Py.text "rate_limit_error"
  | .apiError => Py.text "api_error"
  | .overloadedError => Py.text "overloaded_error"

structure AnthropicProtocolError where
  statusCode : Nat
  errorType : AnthropicErrorType
  message : PyStr
deriving DecidableEq

/-- `json_body` -/
def AnthropicProtocolError.jsonBody (e : AnthropicProtocolError) : Json F :=
  .dict [(text "type", .str (text "error")),
    (text "error", .dict [(text "type", .str e.errorType.text), (text "message", .str e.message)])]

/-- `translate_openai_error` -/
def translateOpenaiError (rt : Runtime F) (statusCode : Nat) (body : Entries F) : AnthropicProtocolError :=
  let detail : Entries F := match body.get? (text "error") with
    | some (.dict detail) => detail
    | _ => []
  let field k := (detail.get? (text k)).getD .null
  let message := ((field "message").orElse rt (.str (text "The gateway returned an error."))).toStr rt
  let message := match field "param" with
    | .str (c :: param) => message ++ text " (param: " ++ (c :: param) ++ text ")"
    | _ => message
  let errorType : AnthropicErrorType :=
    if statusCode = 401 then .authenticationError
    else if statusCode = 403 then .permissionError
    else if statusCode = 404 then .notFoundError
    else if statusCode = 429 then .rateLimitError
    else if statusCode = 503 then .overloadedError
    else match field "type" with
      | .str t => if t = text "invalid_request_error" then .invalidRequestError else .apiError
      | _ => .apiError
  ⟨statusCode, errorType, message⟩

/-! ### Usage and stop reasons -/

structure AnthropicUsage where
  inputTokens : Int
  outputTokens : Int
  cacheReadInputTokens : Option Int
deriving DecidableEq

/-- `int(v.get(k) or 0)` -/
def countAt (rt : Runtime F) (v : Json F) (k : String) : Except PyError Int := do
  let n ← v.get (text k)
  (n.orElse rt (.int 0)).toInt rt

/-- `_usage_from_chat` -/
def usageFromChat (rt : Runtime F) (usage : Json F) : Except PyError AnthropicUsage :=
  if usage.truthy rt then do
    let prompt ← countAt rt usage "prompt_tokens"
    let completion ← countAt rt usage "completion_tokens"
    let details ← usage.get (text "prompt_tokens_details")
    let cached ← match details with
      | .dict entries => countAt rt (.dict entries) "cached_tokens"
      | _ => .ok 0
    return ⟨prompt - cached, completion, if cached ≠ 0 then some cached else none⟩
  else .ok ⟨0, 0, none⟩

def AnthropicUsage.payload (u : AnthropicUsage) : Json F :=
  .dict ([(text "input_tokens", .int u.inputTokens), (text "output_tokens", .int u.outputTokens)] ++
    match u.cacheReadInputTokens with
    | some n => [(text "cache_read_input_tokens", .int n)]
    | none => [])

/-- `_STOP_REASONS.get(reason, "end_turn")`; a list or a dict cannot be looked up. -/
def stopReason : Json F → Except PyError PyStr
  | .str s =>
      .ok (if s = text "stop" then text "end_turn" else if s = text "length" then text "max_tokens"
        else if s = text "tool_calls" then text "tool_use" else text "end_turn")
  | .list _ => .error .type
  | .dict _ => .error .type
  | _ => .ok (text "end_turn")

/-! ### Whole completions -/

inductive ContentBlock (F : Type) where
  | text (text : Json F)
  | toolUse (id name input : Json F)
deriving DecidableEq

structure AnthropicMessage (F : Type) where
  id : PyStr
  model : Json F
  content : List (ContentBlock F)
  stopReason : PyStr
  usage : AnthropicUsage

/-- An error that reaches the caller, or an exception. -/
inductive TranslationError where
  | protocol (e : AnthropicProtocolError)
  | exception (e : PyError)
deriving DecidableEq

def orException {α : Type} (x : Except PyError α) : Except TranslationError α :=
  match x with
  | .ok a => .ok a
  | .error e => .error (.exception e)

theorem orException_eq_ok {α : Type} {x : Except PyError α} {a : α} : orException x = .ok a ↔ x = .ok a := by
  cases x <;> simp [orException]

/-- `_mint_message_id`: the supply and how many were taken from it. -/
def mintMessageId (mint : Nat → List Char) (minted : Nat) : PyStr := (text "msg_") ++ (mint minted).map .scalar

/-- `call.get("id") or _mint_message_id()`: the identifier and how many were minted. -/
def idOrMint (rt : Runtime F) (mint : Nat → List Char) (minted : Nat) (call : Json F) :
    Except PyError (Json F × Nat) := do
  let id ← call.get (text "id")
  return if id.truthy rt then (id, minted) else (.str (mintMessageId mint minted), minted + 1)

/-- `call.get("function") or {}` -/
def functionOf (rt : Runtime F) (call : Json F) : Except PyError (Json F) := do
  return (← call.get (text "function")).orElse rt (.dict [])

/-- The input of a tool use: what is no JSON, or no object, is an empty one. -/
def toolInput (rt : Runtime F) (function : Json F) : Except PyError (Json F) := do
  let arguments ← function.get (text "arguments")
  match (arguments.orElse rt (.str (text "\x7b\x7d"))).loadsValue rt with
  | .ok (.dict entries) => return .dict entries
  | .ok _ => return .dict []
  | .error e => if e.isValueError then return .dict [] else throw e

/-- The tool uses of a message. -/
def toolUses (rt : Runtime F) (mint : Nat → List Char) : Nat → List (Json F) →
    Except PyError (List (ContentBlock F) × Nat)
  | minted, [] => .ok ([], minted)
  | minted, call :: calls => do
      let function ← functionOf rt call
      let input ← toolInput rt function
      let (id, minted) ← idOrMint rt mint minted call
      let name := (← function.get (text "name")).orElse rt (.str [])
      let (rest, minted) ← toolUses rt mint minted calls
      return (.toolUse id name input :: rest, minted)

/-- `translate_chat_completion` -/
def translateChatCompletion (rt : Runtime F) (mint : Nat → List Char) (body : Entries F) :
    Except TranslationError (AnthropicMessage F) := do
  let choices := ((body.get? (text "choices")).getD .null).orElse rt (.list [])
  if !choices.truthy rt then
    throw (.protocol ⟨502, .apiError, text "The gateway returned no completion choice."⟩)
  let choice ← orException choices.first
  let message := (← orException (choice.get (text "message"))).orElse rt (.dict [])
  let refusal ← orException (message.get (text "refusal"))
  if refusal.truthy rt then
    throw (.protocol ⟨502, .apiError, refusal.toStr rt⟩)
  let content ← orException (message.get (text "content"))
  let calls ← orException (message.get (text "tool_calls"))
  let calls ← orException (calls.orElse rt (.list [])).iter
  let (uses, minted) ← orException (toolUses rt mint 0 calls)
  let finishReason ← orException (choice.get (text "finish_reason"))
  let reason ← orException (stopReason finishReason)
  let usage ← orException (usageFromChat rt ((body.get? (text "usage")).getD .null))
  return ⟨mintMessageId mint minted, ((body.get? (text "model")).getD .null).orElse rt (.str []),
    (if content.truthy rt then [.text content] else []) ++ uses, reason, usage⟩

/-! ### Events -/

inductive BlockKind where
  | text
  | tool
deriving DecidableEq

inductive StartedBlock (F : Type) where
  | text
  | toolUse (id name : Json F)

inductive BlockDelta (F : Type) where
  | text (text : Json F)
  | inputJson (partialJson : Json F)

inductive AnthropicEvent (F : Type) where
  | messageStart (id model : PyStr)
  | ping
  | contentBlockStart (index : Nat) (block : StartedBlock F)
  | contentBlockDelta (index : Option Nat) (delta : BlockDelta F)
  | contentBlockStop (index : Nat)
  | messageDelta (stopReason : PyStr) (usage : AnthropicUsage)
  | messageStop
  | error (e : AnthropicProtocolError)

def StartedBlock.payload : StartedBlock F → Json F
  | .text => .dict [(Py.text "type", .str (Py.text "text")), (Py.text "text", .str [])]
  | .toolUse id name => .dict [(Py.text "type", .str (Py.text "tool_use")), (Py.text "id", id), (Py.text "name", name),
      (Py.text "input", .dict [])]

def BlockDelta.payload : BlockDelta F → Json F
  | .text t => .dict [(Py.text "type", .str (Py.text "text_delta")), (Py.text "text", t)]
  | .inputJson t => .dict [(Py.text "type", .str (Py.text "input_json_delta")), (Py.text "partial_json", t)]

/-- `state.open_block` as a number. -/
def indexPayload : Option Nat → Json F
  | some i => .int i
  | none => .null

namespace AnthropicEvent

def name : AnthropicEvent F → PyStr
  | .messageStart _ _ => text "message_start"
  | .ping => text "ping"
  | .contentBlockStart _ _ => text "content_block_start"
  | .contentBlockDelta _ _ => text "content_block_delta"
  | .contentBlockStop _ => text "content_block_stop"
  | .messageDelta _ _ => text "message_delta"
  | .messageStop => text "message_stop"
  | .error _ => text "error"

def payload : AnthropicEvent F → Json F
  | .messageStart id model => .dict [(text "type", .str (text "message_start")), (text "message", .dict [
      (text "id", .str id), (text "type", .str (text "message")), (text "role", .str (text "assistant")),
      (text "model", .str model), (text "content", .list []), (text "stop_reason", .null),
      (text "stop_sequence", .null), (text "usage", (AnthropicUsage.mk 0 0 none).payload)])]
  | .ping => .dict [(text "type", .str (text "ping"))]
  | .contentBlockStart index block => .dict [(text "type", .str (text "content_block_start")),
      (text "index", .int index), (text "content_block", block.payload)]
  | .contentBlockDelta index delta => .dict [(text "type", .str (text "content_block_delta")),
      (text "index", indexPayload index), (text "delta", delta.payload)]
  | .contentBlockStop index => .dict [(text "type", .str (text "content_block_stop")), (text "index", .int index)]
  | .messageDelta stopReason usage => .dict [(text "type", .str (text "message_delta")),
      (text "delta", .dict [(text "stop_reason", .str stopReason), (text "stop_sequence", .null)]),
      (text "usage", usage.payload)]
  | .messageStop => .dict [(text "type", .str (text "message_stop"))]
  | .error e => e.jsonBody

end AnthropicEvent

/-- An event as it is sent. -/
structure Emitted (F : Type) where
  event : AnthropicEvent F
  bytes : Bytes

/-- `_event` -/
def event (rt : Runtime F) (e : AnthropicEvent F) : Except PyError (Emitted F) := do
  let data ← dumps rt .default e.payload
  let encoded ← encode (text "event: " ++ (e.name ++ (text "\ndata: " ++ (data ++ text "\n\n"))))
  return ⟨e, encoded⟩

/-! ### The stream state -/

/-- `_StreamState`; `minted` counts the identifiers taken. -/
structure StreamState (F : Type) where
  model : PyStr
  messageId : PyStr
  nextBlockIndex : Nat
  openBlock : Option Nat
  openKind : Option BlockKind
  openToolFor : Option Int
  finishReason : Json F
  usage : Json F
  minted : Nat

namespace StreamState

def initial (mint : Nat → List Char) (model : PyStr) : StreamState F :=
  ⟨model, mintMessageId mint 0, 0, none, none, none, .null, .null, 1⟩

/-- `message_start` -/
def messageStart (rt : Runtime F) (s : StreamState F) : Except PyError (Emitted F) :=
  event rt (.messageStart s.messageId s.model)

/-- `close_block` -/
def closeBlock (rt : Runtime F) (s : StreamState F) : Except PyError (List (Emitted F) × StreamState F) :=
  match s.openBlock with
  | none => .ok ([], s)
  | some index => do
      let stop ← event rt (.contentBlockStop index)
      return ([stop], { s with openBlock := none, openKind := none, openToolFor := none })

/-- `open_text_block` -/
def openTextBlock (rt : Runtime F) (s : StreamState F) : Except PyError (List (Emitted F) × StreamState F) := do
  let (events, s) ← s.closeBlock rt
  let index := s.nextBlockIndex
  let start ← event rt (.contentBlockStart index .text)
  return (events ++ [start], { s with
    nextBlockIndex := index + 1, openBlock := some index, openKind := some .text, openToolFor := none })

/-- `open_tool_block` -/
def openToolBlock (rt : Runtime F) (mint : Nat → List Char) (s : StreamState F) (openaiIndex : Int) (call : Json F) :
    Except PyError (List (Emitted F) × StreamState F) := do
  let (events, s) ← s.closeBlock rt
  let index := s.nextBlockIndex
  let function ← functionOf rt call
  let (id, minted) ← idOrMint rt mint s.minted call
  let name := (← function.get (text "name")).orElse rt (.str [])
  let start ← event rt (.contentBlockStart index (.toolUse id name))
  return (events ++ [start], { s with
    nextBlockIndex := index + 1
    openBlock := some index
    openKind := some .tool
    openToolFor := some openaiIndex
    minted := minted })

end StreamState

/-! ### Translating a stream -/

/-- A generator of Anthropic events. -/
abbrev EventGen (F α : Type) := Gen PyError (Emitted F) α

/-- `yield _event(..)` -/
def yieldEvent (rt : Runtime F) (e : AnthropicEvent F) : EventGen F Unit := do
  Gen.yield (← Gen.ofExcept (event rt e))

/-- Yield the events of a change of the open block. -/
def yieldChange (x : Except PyError (List (Emitted F) × StreamState F)) : EventGen F (StreamState F) := do
  let (events, s) ← Gen.ofExcept x
  Gen.yieldAll events
  return s

/-- `finale` -/
def finale (rt : Runtime F) (s : StreamState F) : Except PyError (List (Emitted F)) := do
  let (events, s) ← s.closeBlock rt
  let usage ← usageFromChat rt s.usage
  let reason ← stopReason (s.finishReason.orElse rt (.str []))
  let delta ← event rt (.messageDelta reason usage)
  let stop ← event rt .messageStop
  return events ++ [delta, stop]

/-- Have a text block open. -/
def textBlock (rt : Runtime F) (s : StreamState F) : EventGen F (StreamState F) :=
  if s.openKind ≠ some .text then yieldChange (s.openTextBlock rt) else pure s

/-- The text of a delta. -/
def onContent (rt : Runtime F) (s : StreamState F) (content : Json F) : EventGen F (StreamState F) :=
  if content.truthy rt then do
    let s ← textBlock rt s
    yieldEvent rt (.contentBlockDelta s.openBlock (.text content))
    return s
  else pure s

/-- Have the block of a tool call open. -/
def toolBlock (rt : Runtime F) (mint : Nat → List Char) (s : StreamState F) (openaiIndex : Int) (call : Json F) :
    EventGen F (StreamState F) :=
  if s.openKind ≠ some .tool ∨ s.openToolFor ≠ some openaiIndex then
    yieldChange (s.openToolBlock rt mint openaiIndex call)
  else pure s

/-- A piece of the arguments. -/
def yieldArguments (rt : Runtime F) (s : StreamState F) (arguments : Json F) : EventGen F Unit :=
  if arguments.truthy rt then yieldEvent rt (.contentBlockDelta s.openBlock (.inputJson arguments)) else pure ()

/-- One tool call of a delta. -/
def onToolCall (rt : Runtime F) (mint : Nat → List Char) (s : StreamState F) (call : Json F) :
    EventGen F (StreamState F) := do
  let openaiIndex ← Gen.ofExcept (countAt rt call "index")
  let s ← toolBlock rt mint s openaiIndex call
  let function ← Gen.ofExcept (functionOf rt call)
  let arguments ← Gen.ofExcept (function.get (text "arguments"))
  yieldArguments rt s arguments
  return s

def onToolCalls (rt : Runtime F) (mint : Nat → List Char) : StreamState F → List (Json F) → EventGen F (StreamState F)
  | s, [] => pure s
  | s, call :: calls => do
      let s ← onToolCall rt mint s call
      onToolCalls rt mint s calls

/-- The first choice of a chunk. -/
def onChoice (rt : Runtime F) (mint : Nat → List Char) (s : StreamState F) (choice : Json F) :
    EventGen F (StreamState F) := do
  let delta ← Gen.ofExcept (choice.get (text "delta"))
  let delta := delta.orElse rt (.dict [])
  let reason ← Gen.ofExcept (choice.get (text "finish_reason"))
  let s := { s with finishReason := reason.orElse rt s.finishReason }
  let content ← Gen.ofExcept (delta.get (text "content"))
  let s ← onContent rt s content
  let calls ← Gen.ofExcept (delta.get (text "tool_calls"))
  let calls ← Gen.ofExcept (calls.orElse rt (.list [])).iter
  onToolCalls rt mint s calls

/-- A chunk of the completion. -/
def onFrame (rt : Runtime F) (mint : Nat → List Char) (s : StreamState F) (frame : Json F) :
    EventGen F (StreamState F) := do
  let usage ← Gen.ofExcept (frame.get (text "usage"))
  let s := { s with usage := usage.orElse rt s.usage }
  let choices ← Gen.ofExcept (frame.get (text "choices"))
  let choices := choices.orElse rt (.list [])
  if choices.truthy rt then do
    let choice ← Gen.ofExcept choices.first
    onChoice rt mint s choice
  else pure s

/-- The start of the message, unless it was yielded. -/
def yieldStart (rt : Runtime F) (started : Bool) (s : StreamState F) : EventGen F Unit :=
  if started then pure () else do Gen.yield (← Gen.ofExcept (s.messageStart rt))

/-- The start with the ping behind it. -/
def yieldStartPing (rt : Runtime F) (started : Bool) (s : StreamState F) : EventGen F Unit :=
  if started then pure () else do
    yieldStart rt false s
    yieldEvent rt .ping

/-- What ends a stream whose terminal frame was seen, or not. -/
def yieldEnd (rt : Runtime F) (sawDone : Bool) (s : StreamState F) : EventGen F Unit :=
  if sawDone then do Gen.yieldAll (← Gen.ofExcept (finale rt s))
  else yieldEvent rt (.error ⟨502, .apiError, text "The gateway stream ended before completing."⟩)

/-- The end of the upstream, or its terminal frame. -/
def conclude (rt : Runtime F) (started sawDone : Bool) (s : StreamState F) : EventGen F Unit := do
  yieldStart rt started s
  yieldEnd rt sawDone s

/-- The loop of `translate_chat_sse` over the data of the frames. -/
def translateData (rt : Runtime F) (mint : Nat → List Char) : Bool → StreamState F → List (Except PyError PyStr) →
    EventGen F Unit
  | started, s, [] => conclude rt started false s
  | _, _, .error e :: _ => Gen.raise e
  | started, s, .ok data :: rest =>
      if data = text "[DONE]" then conclude rt started true s
      else
        match loads rt data with
        | .error e => if e.isValueError then translateData rt mint started s rest else Gen.raise e
        | .ok (.dict frame) =>
            if text "error" ∈ frame.map Prod.fst then do
              yieldStart rt started s
              yieldEvent rt (.error (translateOpenaiError rt 500 frame))
            else do
              yieldStartPing rt started s
              let s ← onFrame rt mint s (.dict frame)
              translateData rt mint true s rest
        | .ok _ => translateData rt mint started s rest

/-! ### Frames -/

inductive StreamChunk where
  | bytes (b : Bytes)
  | str (s : PyStr)

/-- The data of a frame. -/
def frameData (frame : Bytes) : List (Except PyError PyStr) :=
  (frame.splitOn 10).filterMap fun line =>
    if bytes "data:" <+: line then some (decodeStrict (strip (line.drop 5))) else none

/-- `_iter_sse_data`, with what is left in the buffer. -/
def iterSseData : Bytes → List StreamChunk → List (Except PyError PyStr)
  | _, [] => []
  | buffer, chunk :: chunks =>
      match (match chunk with | .bytes b => .ok b | .str s => encode s : Except PyError Bytes) with
      | .error e => [.error e]
      | .ok b =>
          (cutFrames [10, 10] (buffer ++ b)).1.flatMap frameData ++ iterSseData (cutFrames [10, 10] (buffer ++ b)).2 chunks

/-- `translate_chat_sse` -/
def translateChatSse (rt : Runtime F) (mint : Nat → List Char) (model : PyStr) (chunks : List StreamChunk) :
    EventGen F Unit :=
  translateData rt mint false (.initial mint model) (iterSseData [] chunks)

/-- The bytes of a chunk. -/
def StreamChunk.toBytes : StreamChunk → Except PyError Bytes
  | .bytes b => .ok b
  | .str s => encode s

/-- The chunks are the stream: bytes of it, or texts whose UTF-8 they are. -/
def Cuts (chunks : List StreamChunk) (stream : Bytes) : Prop :=
  ∃ pieces, List.Forall₂ (fun chunk piece => chunk.toBytes = .ok piece) chunks pieces ∧ pieces.flatten = stream

/-- The payloads that a consumer receives, and what is raised behind them. -/
def received : List (Except PyError PyStr) → List PyStr × Option PyError
  | [] => ([], none)
  | .ok payload :: rest => (payload :: (received rest).1, (received rest).2)
  | .error e :: _ => ([], some e)

theorem iterSseData_cons {chunk : StreamChunk} {piece : Bytes} (h : chunk.toBytes = .ok piece) (buffer : Bytes)
    (chunks : List StreamChunk) : iterSseData buffer (chunk :: chunks) =
      (cutFrames [10, 10] (buffer ++ piece)).1.flatMap frameData ++
        iterSseData (cutFrames [10, 10] (buffer ++ piece)).2 chunks := by
  cases chunk with
  | bytes b =>
    obtain rfl : b = piece := Except.ok.inj h
    rfl
  | str s =>
    change encode s = .ok piece at h
    rw [iterSseData]
    simp only [h]

/-- **Run lemma**: a buffer in which no frame ends, and chunks behind it, give the frames of the whole. -/
theorem iterSseData_eq {chunks : List StreamChunk} {pieces : List Bytes}
    (h : List.Forall₂ (fun chunk piece => chunk.toBytes = .ok piece) chunks pieces) {buffer : Bytes}
    (hbuffer : cutFrames [10, 10] buffer = ([], buffer)) :
    iterSseData buffer chunks = (cutFrames [10, 10] (buffer ++ pieces.flatten)).1.flatMap frameData := by
  induction h generalizing buffer with
  | nil => rw [List.flatten_nil, List.append_nil, hbuffer, iterSseData, List.flatMap_nil]
  | @cons chunk piece chunks pieces hchunk _ ih =>
    have hd : ([10, 10] : Bytes) ≠ [] := List.cons_ne_nil _ _
    have hrest : cutFrames [10, 10] (cutFrames [10, 10] (buffer ++ piece)).2 =
        ([], (cutFrames [10, 10] (buffer ++ piece)).2) :=
      cutFrames_of_not_infix ((frames_iff hd).mpr rfl).rest
    rw [iterSseData_cons hchunk, ih hrest, List.flatten_cons, ← List.append_assoc, cutFrames_append hd (buffer ++ piece),
      List.flatMap_append]

/-- **Chunking**: every cutting of a stream gives the data lines of the frames that a blank line ends, and a payload that
does not decode is met behind the same payloads. -/
theorem data_of_any_cutting (stream : Bytes) : ∃ frames rest, Frames [10, 10] stream frames rest ∧
    ∀ chunks, Cuts chunks stream → iterSseData [] chunks = frames.flatMap frameData ∧
      received (iterSseData [] chunks) = received (iterSseData [] [.bytes stream]) := by
  have hd : ([10, 10] : Bytes) ≠ [] := List.cons_ne_nil _ _
  have hdata : ∀ chunks, Cuts chunks stream → iterSseData [] chunks = (cutFrames [10, 10] stream).1.flatMap frameData := by
    rintro chunks ⟨pieces, hpieces, rfl⟩
    exact iterSseData_eq hpieces rfl
  refine ⟨_, _, (frames_iff hd).mpr rfl, fun chunks hcuts => ⟨hdata chunks hcuts, ?_⟩⟩
  rw [hdata chunks hcuts, hdata [.bytes stream] ⟨[stream], .cons rfl .nil, List.append_nil _⟩]

/-- A stream that is cut in a character and in a blank line, and one that is cut as text. -/
theorem data_of_any_cutting_split :
    iterSseData [] [.bytes (bytes "data: " ++ [0xC3]), .bytes [0xA9, 10], .bytes [10, 0x64]] = [.ok (text "é")] ∧
      iterSseData [] [.bytes (bytes "data: "), .str (text "é\n\nd")] = [.ok (text "é")] := by
  have hcuts : Cuts [.bytes (bytes "data: " ++ [0xC3]), .bytes [0xA9, 10], .bytes [10, 0x64]] (bytes "data: é\n\nd") :=
    ⟨[bytes "data: " ++ [0xC3], [0xA9, 10], [10, 0x64]], .cons rfl (.cons rfl (.cons rfl .nil)), by decide⟩
  have htext : Cuts [.bytes (bytes "data: "), .str (text "é\n\nd")] (bytes "data: é\n\nd") :=
    ⟨[bytes "data: ", bytes "é\n\nd"], .cons rfl (.cons (by decide) .nil), by decide⟩
  obtain ⟨frames, rest, hframes, hdata⟩ := data_of_any_cutting (bytes "data: é\n\nd")
  have hcut : cutFrames [10, 10] (bytes "data: é\n\nd") = ([bytes "data: é"], [0x64]) := by decide +kernel
  obtain ⟨rfl, -⟩ := Prod.mk.inj (hcut.symm.trans ((frames_iff (List.cons_ne_nil _ _)).mp hframes))
  rw [(hdata _ hcuts).1, (hdata _ htext).1]
  exact ⟨by decide +kernel, by decide +kernel⟩

end Experiential.Wire
