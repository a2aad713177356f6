import Experiential.Lib.JsonRoundTrip
import Experiential.Lib.Paging
import Experiential.Wire.AnthropicMessages

/-! # Messages requests as chat completions

A messages request becomes the body of a chat completion. A message of blocks becomes one or more chat messages: a
tool result is a message of its own, and the text and the tool calls before it, or before the end, are gathered into
one. What a turn says is kept in the order of its blocks (`request_translation`). -/

namespace Experiential.Wire

open Py

variable {F : Type}

/-! ### Requests -/

inductive Role where
  | user
  | assistant
deriving DecidableEq

def Role.text : Role → PyStr
  | .user => Py.text "user"
  | .assistant => Py.text "assistant"

/-- `str | list[_TextBlock] | None`; a text block is its text. -/
inductive TextContent where
  | none
  | str (s : PyStr)
  | blocks (texts : List PyStr)
deriving DecidableEq

structure ToolUse (F : Type) where
  id : PyStr
  name : PyStr
  input : Entries F

structure ToolResult where
  toolUseId : PyStr
  content : TextContent
deriving DecidableEq

/-- A content block of a request. -/
inductive InputBlock (F : Type) where
  | text (text : PyStr)
  | thinking (thinking : PyStr)
  | redactedThinking (data : PyStr)
  | toolUse (use : ToolUse F)
  | toolResult (result : ToolResult)

inductive InputContent (F : Type) where
  | str (s : PyStr)
  | blocks (blocks : List (InputBlock F))

structure InputMessage (F : Type) where
  role : Role
  content : InputContent F

structure AnthropicTool (F : Type) where
  name : PyStr
  description : Option PyStr
  inputSchema : Entries F

inductive ToolChoiceType where
  | auto
  | any
  | tool
  | none
deriving DecidableEq

structure ToolChoice where
  type : ToolChoiceType
  name : Option PyStr
  disableParallelToolUse : Option Bool
deriving DecidableEq

/-- The fields of a decoded request that the translation reads. -/
structure AnthropicMessagesRequest (F : Type) where
  model : PyStr
  messages : List (InputMessage F)
  maxTokens : Int
  system : TextContent
  temperature : Option F
  stopSequences : Option (List PyStr)
  stream : Bool
  tools : Option (List (AnthropicTool F))
  toolChoice : Option ToolChoice
  userId : Option PyStr

/-! ### Chat completions -/

structure ToolCall where
  id : PyStr
  name : PyStr
  arguments : PyStr
deriving DecidableEq

inductive ChatMessage where
  | system (content : PyStr)
  | turn (role : Role) (content : Option PyStr) (toolCalls : List ToolCall)
  | tool (toolCallId content : PyStr)
deriving DecidableEq

structure FunctionTool (F : Type) where
  name : PyStr
  description : PyStr
  parameters : Entries F

inductive ChatToolChoice where
  | auto
  | none
  | required
  | function (name : PyStr)
deriving DecidableEq

/-- The body that is dispatched; what is `none` is not set. -/
structure ChatCompletionsBody (F : Type) where
  model : PyStr
  messages : List ChatMessage
  maxTokens : Int
  temperature : Option F
  stop : Option (List PyStr)
  /-- With it `stream_options` ask for the usage. -/
  stream : Bool
  tools : Option (List (FunctionTool F))
  toolChoice : Option ChatToolChoice
  parallelToolCalls : Option Bool
  userId : Option PyStr

/-! ### The translation -/

/-- `_invalid_request` -/
def invalidRequest (message : PyStr) : TranslationError := .protocol ⟨400, .invalidRequestError, message⟩

/-- `_system_text` -/
def systemText : TextContent → Option PyStr
  | .none => none
  | .str s => some s
  | .blocks texts => some ((text "\n\n").intercalate texts)

/-- `_stop_list` -/
def stopList (sequences : List PyStr) : Except TranslationError (List PyStr) := do
  let deduped := firsts id [] sequences
  ensure (∀ sequence ∈ deduped, sequence ≠ [])
    (invalidRequest (text "stop_sequences entries must be non-empty strings."))
  return deduped

/-- `_translate_tools` -/
def translateTools (tools : List (AnthropicTool F)) : List (FunctionTool F) :=
  tools.map fun tool => ⟨tool.name, tool.description.getD [], tool.inputSchema⟩

/-- `_tool_result_text` -/
def toolResultText (block : ToolResult) : PyStr :=
  match block.content with
  | .none => []
  | .str s => s
  | .blocks texts => texts.flatten

/-- `_translate_tool_choice` -/
def translateToolChoice (choice : ToolChoice) : Except TranslationError ChatToolChoice :=
  match choice.type with
  | .auto => .ok .auto
  | .none => .ok .none
  | .any => .ok .required
  | .tool =>
    match choice.name with
    | some (c :: name) => .ok (.function (c :: name))
    | _ => .error (invalidRequest (text "tool_choice of type 'tool' requires a name."))

/-- What was written, and what is gathered. -/
structure Draft where
  out : List ChatMessage
  textParts : List PyStr
  toolCalls : List ToolCall

/-- `flush` -/
def Draft.flush (role : Role) (d : Draft) : Draft :=
  let content := if d.textParts = [] then none else some d.textParts.flatten
  if content = none ∧ d.toolCalls = [] then d
  else ⟨d.out ++ [.turn role content d.toolCalls], [], []⟩

/-- What one block does. -/
def translateBlock (rt : Runtime F) (role : Role) (d : Draft) : InputBlock F → Except TranslationError Draft
  | .text t => .ok { d with textParts := d.textParts ++ [t] }
  | .thinking _ => .ok d
  | .redactedThinking _ => .ok d
  | .toolUse use => do
      ensure (role = .assistant) (invalidRequest (text "tool_use blocks are only valid in assistant messages."))
      let arguments ← orException (dumps rt .default (.dict use.input))
      return { d with toolCalls := d.toolCalls ++ [⟨use.id, use.name, arguments⟩] }
  | .toolResult result => do
      ensure (role = .user) (invalidRequest (text "tool_result blocks are only valid in user messages."))
      return { d.flush role with out := (d.flush role).out ++ [.tool result.toolUseId (toolResultText result)] }

/-- `_translate_message` -/
def translateMessage (rt : Runtime F) (message : InputMessage F) : Except TranslationError (List ChatMessage) :=
  match message.content with
  | .str s => do
      ensure (s ≠ []) (invalidRequest (message.role.text ++ text " message content must not be empty."))
      return [.turn message.role (some s) []]
  | .blocks blocks => do
      let d ← blocks.foldlM (translateBlock rt message.role) ⟨[], [], []⟩
      ensure ((d.flush message.role).out ≠ [])
        (invalidRequest (message.role.text ++ text " message must contain text, tool_use, or tool_result content."))
      return (d.flush message.role).out

/-- The system message; an empty prompt is dropped. -/
def systemMessages (system : TextContent) : List ChatMessage :=
  match systemText system with
  | some (c :: s) => [.system (c :: s)]
  | _ => []

/-- `to_chat_completions_body` -/
def toChatCompletionsBody (rt : Runtime F) (request : AnthropicMessagesRequest F) :
    Except TranslationError (ChatCompletionsBody F) := do
  let turns ← request.messages.mapM (translateMessage rt)
  let stop ← (match request.stopSequences with
    | some (s :: sequences) => some <$> stopList (s :: sequences)
    | _ => pure none)
  let toolChoice ← (match request.toolChoice with
    | some choice => some <$> translateToolChoice choice
    | none => pure none)
  return {
    model := request.model
    messages := systemMessages request.system ++ turns.flatten
    maxTokens := request.maxTokens
    temperature := request.temperature
    stop := stop
    stream := request.stream
    tools := match request.tools with
      | some (t :: tools) => some (translateTools (t :: tools))
      | _ => none
    toolChoice := toolChoice
    parallelToolCalls :=
      if (request.toolChoice.bind (·.disableParallelToolUse)) = some true then some false else none
    userId := request.userId }

/-! ### What a turn says -/

/-- A character of text, or a result with its call. -/
inductive Piece where
  | char (c : CodePoint)
  | result (callId text : PyStr)
deriving DecidableEq

/-- Text and results in order; thinking and tool calls are neither. -/
def InputBlock.pieces : InputBlock F → List Piece
  | .text t => t.map .char
  | .toolResult result => [.result result.toolUseId (toolResultText result)]
  | _ => []

def InputBlock.said : InputBlock F → PyStr
  | .text t => t
  | _ => []

def InputBlock.results : InputBlock F → List (PyStr × PyStr)
  | .toolResult result => [(result.toolUseId, toolResultText result)]
  | _ => []

def InputBlock.uses : InputBlock F → List (ToolUse F)
  | .toolUse use => [use]
  | _ => []

def InputBlock.isThinking : InputBlock F → Bool
  | .thinking _ => true
  | .redactedThinking _ => true
  | _ => false

namespace InputContent

def pieces : InputContent F → List Piece
  | .str s => s.map .char
  | .blocks bs => bs.flatMap InputBlock.pieces

def said : InputContent F → PyStr
  | .str s => s
  | .blocks bs => bs.flatMap InputBlock.said

def results : InputContent F → List (PyStr × PyStr)
  | .str _ => []
  | .blocks bs => bs.flatMap InputBlock.results

def uses : InputContent F → List (ToolUse F)
  | .str _ => []
  | .blocks bs => bs.flatMap InputBlock.uses

def withoutThinking : InputContent F → InputContent F
  | .str s => .str s
  | .blocks bs => .blocks (bs.filter fun b => !b.isThinking)

end InputContent

namespace ChatMessage

def pieces : ChatMessage → List Piece
  | .system s => s.map .char
  | .turn _ content _ => (content.getD []).map .char
  | .tool callId content => [.result callId content]

def said : ChatMessage → PyStr
  | .system s => s
  | .turn _ content _ => content.getD []
  | .tool _ _ => []

def results : ChatMessage → List (PyStr × PyStr)
  | .tool callId content => [(callId, content)]
  | _ => []

def calls : ChatMessage → List ToolCall
  | .turn _ _ toolCalls => toolCalls
  | _ => []

end ChatMessage

def ToolResult.message (result : ToolResult) : ChatMessage := .tool result.toolUseId (toolResultText result)

/-- The call of a tool use: its arguments are JSON of its input. -/
structure CallOf (rt : Runtime F) (call : ToolCall) (use : ToolUse F) : Prop where
  id : call.id = use.id
  name : call.name = use.name
  arguments : loads rt call.arguments = .ok (.dict use.input)

/-- The chat messages of a turn say what the turn says, in order. -/
structure Conveys (rt : Runtime F) (m : InputMessage F) (out : List ChatMessage) : Prop where
  said : out.flatMap ChatMessage.said = m.content.said
  results : out.flatMap ChatMessage.results = m.content.results
  pieces : out.flatMap ChatMessage.pieces = m.content.pieces
  calls : List.Forall₂ (CallOf rt) (out.flatMap ChatMessage.calls) m.content.uses
  role : ∀ role content toolCalls, .turn role content toolCalls ∈ out → role = m.role
  thinking : translateMessage rt { m with content := m.content.withoutThinking } = .ok out
  /-- Results that open the turn open its messages. -/
  leading : ∀ (results : List ToolResult) (rest : List (InputBlock F)), m.content = .blocks (results.map .toolResult ++ rest) →
    results.map ToolResult.message <+: out

/-! ### Gathering -/

section draft
variable {rt : Runtime F} {role : Role} {d d' : Draft} {blocks : List (InputBlock F)}

def Draft.pieces (d : Draft) : List Piece := d.out.flatMap ChatMessage.pieces ++ d.textParts.flatten.map .char

def Draft.calls (d : Draft) : List ToolCall := d.out.flatMap ChatMessage.calls ++ d.toolCalls

theorem Draft.flush_out (d : Draft) (role : Role) : (d.flush role).out.flatMap ChatMessage.pieces = d.pieces ∧
    (d.flush role).out.flatMap ChatMessage.calls = d.calls := by
  unfold flush
  dsimp only
  split_ifs with hparts hnone hnone
  · simp [pieces, calls, hparts, hnone]
  · simp [pieces, calls, hparts, ChatMessage.pieces, ChatMessage.calls]
  · cases hnone.1
  · simp [pieces, calls, ChatMessage.pieces, ChatMessage.calls]

theorem Draft.flush_rest (d : Draft) (role : Role) : (d.flush role).textParts = [] ∧ (d.flush role).toolCalls = [] := by
  unfold flush
  dsimp only
  split_ifs with hparts hnone hnone
  · exact ⟨hparts, hnone.2⟩
  · exact ⟨rfl, rfl⟩
  · cases hnone.1
  · exact ⟨rfl, rfl⟩

theorem Draft.prefix_flush (d : Draft) : d.out <+: (d.flush role).out := by
  unfold flush
  dsimp only
  split_ifs
  all_goals first | exact List.prefix_refl _ | exact List.prefix_append _ _

/-- Every turn that was written is of this role. -/
def Draft.OfRole (role : Role) (d : Draft) : Prop :=
  ∀ role' content toolCalls, .turn role' content toolCalls ∈ d.out → role' = role

theorem Draft.OfRole.flush (h : d.OfRole role) : (d.flush role).OfRole role := by
  have happend : ∀ content toolCalls, Draft.OfRole role ⟨d.out ++ [.turn role content toolCalls], [], []⟩ := by
    intro content toolCalls role' content' toolCalls' hmem
    rcases List.mem_append.mp hmem with hmem | hmem
    · exact h _ _ _ hmem
    · cases List.mem_singleton.mp hmem
      rfl
  unfold Draft.flush
  dsimp only
  split_ifs
  all_goals first | exact h | exact happend _ _

/-- What blocks add to a draft. -/
structure Gathered (rt : Runtime F) (role : Role) (d d' : Draft) (blocks : List (InputBlock F)) : Prop where
  pieces : d'.pieces = d.pieces ++ blocks.flatMap InputBlock.pieces
  calls : ∃ new, d'.calls = d.calls ++ new ∧ List.Forall₂ (CallOf rt) new (blocks.flatMap InputBlock.uses)
  out : d.out <+: d'.out
  role : d.OfRole role → d'.OfRole role

theorem Gathered.refl (d : Draft) : Gathered rt role d d [] :=
  ⟨by simp, ⟨[], by simp, .nil⟩, List.prefix_refl _, id⟩

theorem Gathered.skip {b : InputBlock F} (hpieces : b.pieces = []) (huses : b.uses = []) : Gathered rt role d d [b] :=
  ⟨by simp [hpieces], ⟨[], by simp, by simp [huses]⟩, List.prefix_refl _, id⟩

theorem Gathered.append {d'' : Draft} {more : List (InputBlock F)} (h : Gathered rt role d d' blocks)
    (h' : Gathered rt role d' d'' more) : Gathered rt role d d'' (blocks ++ more) := by
  obtain ⟨new, hcalls, hnew⟩ := h.calls
  obtain ⟨new', hcalls', hnew'⟩ := h'.calls
  refine ⟨?_, ⟨new ++ new', ?_, ?_⟩, h.out.trans h'.out, fun hd => h'.role (h.role hd)⟩
  · rw [h'.pieces, h.pieces, List.flatMap_append, List.append_assoc]
  · rw [hcalls', hcalls, List.append_assoc]
  · rw [List.flatMap_append]
    exact List.rel_append hnew hnew'

theorem Gathered.block (hfloats : rt.FloatsReadBack) {b : InputBlock F}
    (hreadable : ∀ use ∈ b.uses, (Json.dict use.input).Readable) (h : translateBlock rt role d b = .ok d') :
    Gathered rt role d d' [b] := by
  cases b with
  | text t =>
    cases h
    refine ⟨?_, ⟨[], ?_, .nil⟩, List.prefix_refl _, id⟩
    · simp [Draft.pieces, InputBlock.pieces]
    · simp [Draft.calls]
  | toolUse use =>
    obtain ⟨_, -, h⟩ := bind_eq_ok.mp h
    obtain ⟨arguments, hdumps, h⟩ := bind_eq_ok.mp h
    cases pure_eq_ok.mp h
    have hloads : loads rt arguments = .ok (.dict use.input) := by
      refine loads_dumps Separators.valid_default hfloats (hreadable use List.mem_cons_self) ?_
      exact orException_eq_ok.mp hdumps
    refine ⟨?_, ⟨[⟨use.id, use.name, arguments⟩], ?_, .cons ⟨rfl, rfl, hloads⟩ .nil⟩, List.prefix_refl _, id⟩
    · simp [Draft.pieces, InputBlock.pieces]
    · simp [Draft.calls]
  | toolResult result =>
    obtain ⟨_, -, h⟩ := bind_eq_ok.mp h
    cases pure_eq_ok.mp h
    obtain ⟨hpieces, hcalls⟩ := d.flush_out role
    obtain ⟨hparts, hnone⟩ := d.flush_rest role
    refine ⟨?_, ⟨[], ?_, .nil⟩, d.prefix_flush.trans (List.prefix_append _ _), fun hd => ?_⟩
    · simp [Draft.pieces, hparts, hpieces, InputBlock.pieces, ChatMessage.pieces]
    · simp [Draft.calls, hnone, hcalls, ChatMessage.calls]
    · intro role' content toolCalls hmem
      rcases List.mem_append.mp hmem with hmem | hmem
      · exact hd.flush _ _ _ hmem
      · cases List.mem_singleton.mp hmem
  | _ =>
    cases h
    exact .skip rfl rfl

theorem Gathered.of_foldlM (hfloats : rt.FloatsReadBack)
    (hreadable : ∀ b ∈ blocks, ∀ use ∈ b.uses, (Json.dict use.input).Readable)
    (h : blocks.foldlM (translateBlock rt role) d = .ok d') : Gathered rt role d d' blocks := by
  induction blocks generalizing d with
  | nil =>
    cases pure_eq_ok.mp h
    exact .refl _
  | cons b blocks ih =>
    rw [List.foldlM_cons] at h
    obtain ⟨d₁, hb, h⟩ := bind_eq_ok.mp h
    obtain ⟨hreadb, hreadable⟩ := List.forall_mem_cons.mp hreadable
    exact (Gathered.block hfloats hreadb hb).append (ih hreadable h)

theorem foldlM_withoutThinking : (blocks.filter fun b => !b.isThinking).foldlM (translateBlock rt role) d =
    blocks.foldlM (translateBlock rt role) d := by
  induction blocks generalizing d with
  | nil => rfl
  | cons b blocks ih =>
    cases b with
    | thinking t | redactedThinking data => exact ih
    | _ => exact bind_congr fun d => ih

/-- Results are written at once while nothing is gathered. -/
theorem foldlM_results (results : List ToolResult) : ∀ {out : List ChatMessage},
    (results.map .toolResult : List (InputBlock F)).foldlM (translateBlock rt role) ⟨out, [], []⟩ = .ok d →
    d.out = out ++ results.map ToolResult.message := by
  induction results with
  | nil =>
    intro out h
    cases pure_eq_ok.mp h
    simp
  | cons result results ih =>
    intro out h
    rw [List.map_cons, List.foldlM_cons] at h
    obtain ⟨d₁, hd₁, h⟩ := bind_eq_ok.mp h
    obtain ⟨_, -, hd₁⟩ := bind_eq_ok.mp hd₁
    cases pure_eq_ok.mp hd₁
    rw [ih h, List.map_cons, List.append_assoc]
    rfl

end draft

/-! ### Turns -/

section turns
variable {rt : Runtime F} {m : InputMessage F} {out : List ChatMessage}

theorem translateMessage_str {role : Role} {s : PyStr} (h : translateMessage rt ⟨role, .str s⟩ = .ok out) :
    out = [.turn role (some s) []] := by
  obtain ⟨_, -, h⟩ := bind_eq_ok.mp h
  exact (pure_eq_ok.mp h).symm

theorem translateMessage_blocks {role : Role} {blocks : List (InputBlock F)}
    (h : translateMessage rt ⟨role, .blocks blocks⟩ = .ok out) : ∃ d : Draft,
    blocks.foldlM (translateBlock rt role) ⟨[], [], []⟩ = .ok d ∧ out = (d.flush role).out := by
  obtain ⟨d, hd, h⟩ := bind_eq_ok.mp h
  obtain ⟨_, -, h⟩ := bind_eq_ok.mp h
  exact ⟨d, hd, (pure_eq_ok.mp h).symm⟩

theorem translateMessage_withoutThinking :
    translateMessage rt { m with content := m.content.withoutThinking } = translateMessage rt m := by
  obtain ⟨role, content⟩ := m
  cases content with
  | str s => rfl
  | blocks bs =>
    simp only [InputContent.withoutThinking, translateMessage]
    rw [foldlM_withoutThinking]

/-- The characters among pieces. -/
def charsOf (pieces : List Piece) : PyStr :=
  pieces.filterMap fun
    | .char c => some c
    | .result _ _ => none

/-- The results among pieces. -/
def resultsOf (pieces : List Piece) : List (PyStr × PyStr) :=
  pieces.filterMap fun
    | .char _ => none
    | .result callId text => some (callId, text)

theorem charsOf_chars (s : PyStr) : charsOf (s.map .char) = s := by
  rw [charsOf, List.filterMap_map]
  exact List.filterMap_some

theorem resultsOf_chars (s : PyStr) : resultsOf (s.map .char) = [] := by
  rw [resultsOf, List.filterMap_map]
  exact List.filterMap_eq_nil_iff.mpr fun _ _ => rfl

theorem read_chatMessages (out : List ChatMessage) : charsOf (out.flatMap ChatMessage.pieces) = out.flatMap ChatMessage.said ∧
    resultsOf (out.flatMap ChatMessage.pieces) = out.flatMap ChatMessage.results := by
  have hone : ∀ c : ChatMessage, charsOf c.pieces = c.said ∧ resultsOf c.pieces = c.results := by
    intro c
    cases c with
    | system s | turn role content toolCalls => exact ⟨charsOf_chars _, resultsOf_chars _⟩
    | tool callId content => exact ⟨rfl, rfl⟩
  refine ⟨?_, ?_⟩
  · rw [charsOf, List.filterMap_flatMap]
    exact List.flatMap_congr fun c _ => (hone c).1
  · rw [resultsOf, List.filterMap_flatMap]
    exact List.flatMap_congr fun c _ => (hone c).2

theorem read_content (content : InputContent F) : charsOf content.pieces = content.said ∧
    resultsOf content.pieces = content.results := by
  have hone : ∀ b : InputBlock F, charsOf b.pieces = b.said ∧ resultsOf b.pieces = b.results := by
    intro b
    cases b with
    | text t => exact ⟨charsOf_chars _, resultsOf_chars _⟩
    | _ => exact ⟨rfl, rfl⟩
  cases content with
  | str s => exact ⟨charsOf_chars _, resultsOf_chars _⟩
  | blocks bs =>
    refine ⟨?_, ?_⟩
    · rw [charsOf, InputContent.pieces, List.filterMap_flatMap]
      exact List.flatMap_congr fun b _ => (hone b).1
    · rw [resultsOf, InputContent.pieces, List.filterMap_flatMap]
      exact List.flatMap_congr fun b _ => (hone b).2

/-- Pieces that agree have the same text and the same results. -/
theorem said_of_pieces (h : out.flatMap ChatMessage.pieces = m.content.pieces) :
    out.flatMap ChatMessage.said = m.content.said ∧ out.flatMap ChatMessage.results = m.content.results := by
  obtain ⟨hsaid, hresults⟩ := read_chatMessages out
  obtain ⟨hsaid', hresults'⟩ := read_content m.content
  rw [← hsaid, ← hresults, h]
  exact ⟨hsaid', hresults'⟩

theorem Conveys.of_translate (hfloats : rt.FloatsReadBack)
    (hreadable : ∀ use ∈ m.content.uses, (Json.dict use.input).Readable) (h : translateMessage rt m = .ok out) :
    Conveys rt m out := by
  have hthinking := translateMessage_withoutThinking.trans h
  obtain ⟨role, content⟩ := m
  cases content with
  | str s =>
    cases translateMessage_str h
    refine ⟨List.append_nil s, rfl, ?_, .nil, fun role' content toolCalls hmem => ?_, hthinking, nofun⟩
    · simp [ChatMessage.pieces, InputContent.pieces]
    · cases List.mem_singleton.mp hmem
      rfl
  | blocks bs =>
    obtain ⟨d, hd, rfl⟩ := translateMessage_blocks h
    have hreadable : ∀ b ∈ bs, ∀ use ∈ b.uses, (Json.dict use.input).Readable := fun b hb use huse =>
      hreadable use (List.mem_flatMap.mpr ⟨b, hb, huse⟩)
    have hgathered := Gathered.of_foldlM hfloats hreadable hd
    obtain ⟨hpieces, hcalls⟩ := d.flush_out role
    have hall : (d.flush role).out.flatMap ChatMessage.pieces = (InputContent.blocks bs).pieces := by
      rw [hpieces, hgathered.pieces]
      rfl
    obtain ⟨hsaid, hresults⟩ := said_of_pieces (m := ⟨role, .blocks bs⟩) hall
    refine ⟨hsaid, hresults, hall, ?_, ?_, hthinking, fun results rest hcontent => ?_⟩
    · obtain ⟨new, hnew, hall⟩ := hgathered.calls
      rw [hcalls, hnew]
      exact hall
    · exact (hgathered.role nofun).flush
    · cases hcontent
      rw [List.foldlM_append] at hd
      obtain ⟨d₁, hresults, hd⟩ := bind_eq_ok.mp hd
      have hfirst : d₁.out = [] ++ results.map ToolResult.message := foldlM_results results hresults
      have hmore := (Gathered.of_foldlM hfloats (fun b hb => hreadable b (List.mem_append_right _ hb)) hd).out
      rw [List.nil_append] at hfirst
      rw [← hfirst]
      exact hmore.trans d.prefix_flush

end turns

/-- The body of an accepted request carries its turns over: text and results in the order of the blocks, the tool calls
with arguments that decode to the inputs, and of thinking nothing. -/
theorem request_translation (rt : Runtime F) (hfloats : rt.FloatsReadBack) (raw : Bytes) (payload : Json F)
    (hpayload : loadsBytes rt raw = .ok payload) (request : AnthropicMessagesRequest F)
    (hinputs : ∀ m ∈ request.messages, ∀ use ∈ m.content.uses, (Json.dict use.input).Within payload)
    (body : ChatCompletionsBody F) (hbody : toChatCompletionsBody rt request = .ok body) :
    ∃ turns, body.messages = systemMessages request.system ++ turns.flatten ∧
      List.Forall₂ (Conveys rt) request.messages turns := by
  obtain ⟨turns, hturns, hbody⟩ := bind_eq_ok.mp hbody
  obtain ⟨stop, -, hbody⟩ := bind_eq_ok.mp hbody
  obtain ⟨toolChoice, -, hbody⟩ := bind_eq_ok.mp hbody
  cases pure_eq_ok.mp hbody
  have hreadable := readable_of_loadsBytes hpayload
  refine ⟨turns, rfl, List.Forall₂.flip ?_⟩
  refine forall₂_of_mapM hturns fun m hm out hout => ?_
  exact Conveys.of_translate hfloats (fun use huse => hreadable.within (hinputs m hm use huse)) hout

/-- Its one float is no number. -/
def nanRuntime : Runtime Unit where
  recursionLimit := 1000
  limit_ge := room_for_payloads
  strOf _ := []
  floatOf _ := ()
  floatText _ := "NaN".toList
  nan := ()
  infinity := ()
  negInfinity := ()
  isZero _ := false
  truncate _ := .error .value
  intOf _ := .error .value
  perMillion _ := ()

def weatherUse : ToolUse Unit := ⟨text "t1", text "weather", [(text "days", .int 3)]⟩

/-- A call, and a turn that says something before it gives the result. -/
def weatherRequest : AnthropicMessagesRequest Unit where
  model := text "m"
  messages := [⟨.assistant, .blocks [.thinking (text "hm"), .toolUse weatherUse]⟩,
    ⟨.user, .blocks [.text (text "Here."), .toolResult ⟨text "t1", .str (text "Sunny")⟩]⟩]
  maxTokens := 10
  system := .none
  temperature := none
  stopSequences := none
  stream := false
  tools := none
  toolChoice := none
  userId := none

/-- The messages it is decoded from. -/
def weatherPayload : Json Unit :=
  .dict [(text "model", .str (text "m")), (text "max_tokens", .int 10), (text "messages", .list [
    .dict [(text "role", .str (text "assistant")), (text "content", .list [
      .dict [(text "type", .str (text "thinking")), (text "thinking", .str (text "hm"))],
      .dict [(text "type", .str (text "tool_use")), (text "id", .str (text "t1")), (text "name", .str (text "weather")),
        (text "input", .dict weatherUse.input)]])],
    .dict [(text "role", .str (text "user")), (text "content", .list [
      .dict [(text "type", .str (text "text")), (text "text", .str (text "Here."))],
      .dict [(text "type", .str (text "tool_result")), (text "tool_use_id", .str (text "t1")),
        (text "content", .str (text "Sunny"))]])]])]

def weatherMessages : List ChatMessage :=
  [.turn .assistant none [⟨text "t1", text "weather", text "\x7b\"days\": 3\x7d"⟩],
    .turn .user (some (text "Here.")) [], .tool (text "t1") (text "Sunny")]

/-- The result does not follow the call directly: the text of its turn stands between. -/
theorem text_before_result :
    (toChatCompletionsBody nanRuntime weatherRequest).map (·.messages) = .ok weatherMessages := by
  rfl

theorem request_translation_weather : ∃ turns : List (List ChatMessage), weatherMessages = [] ++ turns.flatten ∧
    List.Forall₂ (Conveys nanRuntime) weatherRequest.messages turns := by
  have hpayload : ∃ raw, loadsBytes nanRuntime raw = .ok weatherPayload := by
    have hread : ((dumps nanRuntime .default weatherPayload).bind fun t => (encode t).bind (loadsBytes nanRuntime)) =
        .ok weatherPayload := by
      decide +kernel
    obtain ⟨t, -, hread⟩ := bind_eq_ok.mp hread
    obtain ⟨raw, -, hread⟩ := bind_eq_ok.mp hread
    exact ⟨raw, hread⟩
  obtain ⟨raw, hpayload⟩ := hpayload
  have hfloats : nanRuntime.FloatsReadBack := fun _ => .inl (List.mem_cons_self ..)
  have hinputs : ∀ m ∈ weatherRequest.messages, ∀ use ∈ m.content.uses, (Json.dict use.input).Within weatherPayload := by
    intro m hm use huse
    rcases List.mem_cons.mp hm with rfl | hm
    · cases List.mem_singleton.mp huse
      refine .value (.tail _ (.tail _ (.head _))) (.item (.head _) ?_)
      refine .value (.tail _ (.head _)) (.item (.tail _ (.head _)) ?_)
      exact .value (.tail _ (.tail _ (.tail _ (.head _)))) .refl
    · cases List.mem_singleton.mp hm
      cases huse
  have hbody : ∃ body, toChatCompletionsBody nanRuntime weatherRequest = .ok body ∧ body.messages = weatherMessages :=
    ⟨_, rfl, rfl⟩
  obtain ⟨body, hbody, hmessages⟩ := hbody
  rw [← hmessages]
  exact request_translation nanRuntime hfloats raw weatherPayload hpayload weatherRequest hinputs body hbody

end Experiential.Wire
