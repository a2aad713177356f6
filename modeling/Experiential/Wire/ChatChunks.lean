import Experiential.Lib.JsonWriting
import Experiential.Wire.AnthropicMessages

/-! # Chat completion chunks

The data of a frame is the terminal mark, a text that is no JSON, or a chunk whose fields have their types and whose
strings are Unicode texts. On such data the translator does not raise (`translateData_returns`). -/

namespace Experiential.Wire

open Py

variable {F : Type}

/-! ### Fields -/

/-- `d.get(k)` of a dict. -/
def fieldOf (entries : Entries F) (k : String) : Json F := (Entries.get? entries (text k)).getD .null

theorem get_dict (entries : Entries F) (k : String) : (Json.dict entries).get (text k) = .ok (fieldOf entries k) := rfl

/-- A Unicode text, or nothing. -/
inductive IsText : Json F → Prop where
  | null : IsText .null
  | str {s : PyStr} (h : IsUnicode s) : IsText (.str s)

inductive IsCount : Json F → Prop where
  | null : IsCount .null
  | int (n : Int) : IsCount (.int n)

/-- A dict with such entries, or nothing. -/
inductive IsDict (P : Entries F → Prop) : Json F → Prop where
  | null : IsDict P .null
  | dict {entries : Entries F} (h : P entries) : IsDict P (.dict entries)

/-- A list of dicts with such entries, or nothing. -/
inductive IsDicts (P : Entries F → Prop) : Json F → Prop where
  | null : IsDicts P .null
  | list {items : List (Json F)} (h : ∀ v ∈ items, ∃ entries, v = .dict entries ∧ P entries) : IsDicts P (.list items)

/-- The text of a value, empty where there is none. -/
def textOf : Json F → PyStr
  | .str s => s
  | _ => []

def countOf : Json F → Int
  | .int n => n
  | _ => 0

/-- The entries of a dict, none of any other value. -/
def dictOf : Json F → Entries F
  | .dict entries => entries
  | _ => []

/-- The dicts of a list. -/
def dictsOf : Json F → List (Entries F)
  | .list items => items.map dictOf
  | _ => []

/-! ### Chunks -/

structure UsageFields (entries : Entries F) : Prop where
  promptTokens : IsCount (fieldOf entries "prompt_tokens")
  completionTokens : IsCount (fieldOf entries "completion_tokens")
  details : IsDict (fun d => IsCount (fieldOf d "cached_tokens")) (fieldOf entries "prompt_tokens_details")

structure FunctionFields (entries : Entries F) : Prop where
  name : IsText (fieldOf entries "name")
  arguments : IsText (fieldOf entries "arguments")

structure ToolCallFields (entries : Entries F) : Prop where
  index : IsCount (fieldOf entries "index")
  id : IsText (fieldOf entries "id")
  function : IsDict FunctionFields (fieldOf entries "function")

structure DeltaFields (entries : Entries F) : Prop where
  content : IsText (fieldOf entries "content")
  toolCalls : IsDicts ToolCallFields (fieldOf entries "tool_calls")

structure ChoiceFields (entries : Entries F) : Prop where
  delta : IsDict DeltaFields (fieldOf entries "delta")
  finishReason : IsText (fieldOf entries "finish_reason")

structure ChunkFields (entries : Entries F) : Prop where
  usage : IsDict UsageFields (fieldOf entries "usage")
  choices : IsDicts ChoiceFields (fieldOf entries "choices")

/-- The detail of an error. -/
structure ErrorFields (detail : Entries F) : Prop where
  message : IsText (fieldOf detail "message")
  param : ∀ s, fieldOf detail "param" = .str s → IsUnicode s

/-- The data of frames, as far as they are read: nothing is read behind the terminal mark and behind an error. -/
inductive ChatData (rt : Runtime F) : List (Except PyError PyStr) → Prop where
  | none : ChatData rt []
  | done (rest : List (Except PyError PyStr)) : ChatData rt (.ok (text "[DONE]") :: rest)
  | malformed {data : PyStr} {e : PyError} {rest : List (Except PyError PyStr)} (h : loads rt data = .error e)
      (he : e.isValueError = true) (hrest : ChatData rt rest) : ChatData rt (.ok data :: rest)
  | noDict {data : PyStr} {v : Json F} {rest : List (Except PyError PyStr)} (h : loads rt data = .ok v)
      (hv : ∀ entries, v ≠ .dict entries) (hrest : ChatData rt rest) : ChatData rt (.ok data :: rest)
  | failed {data : PyStr} {entries : Entries F} (rest : List (Except PyError PyStr))
      (h : loads rt data = .ok (.dict entries)) (herror : text "error" ∈ entries.map Prod.fst)
      (hdetail : ∀ detail, Entries.get? entries (text "error") = some (.dict detail) → ErrorFields detail) :
      ChatData rt (.ok data :: rest)
  | chunk {data : PyStr} {entries : Entries F} {rest : List (Except PyError PyStr)}
      (h : loads rt data = .ok (.dict entries)) (herror : text "error" ∉ entries.map Prod.fst)
      (hfields : ChunkFields entries) (hrest : ChatData rt rest) : ChatData rt (.ok data :: rest)

/-! ### Events that can be written -/

/-- The strings of an event are Unicode texts. -/
def AnthropicEvent.Unicode : AnthropicEvent F → Prop
  | .messageStart id model => IsUnicode id ∧ IsUnicode model
  | .contentBlockStart _ (.toolUse id name) => IsText id ∧ IsText name
  | .contentBlockDelta _ (.text t) => IsText t
  | .contentBlockDelta _ (.inputJson t) => IsText t
  | .messageDelta reason _ => IsUnicode reason
  | .error e => IsUnicode e.message
  | _ => True

variable {v : Json F}

theorem IsText.writable (h : IsText v) (depth : Nat) : v.Writable depth := by
  cases h with
  | null => cases depth <;> trivial
  | str h => cases depth <;> exact h

theorem usage_writable (u : AnthropicUsage) (depth : Nat) : (u.payload : Json F).Writable (depth + 2) := by
  intro e he
  have hint : ∀ n : Int, (Json.int n : Json F).Writable (depth + 1) := fun _ => trivial
  rcases List.mem_append.mp he with he | he
  · simp only [List.mem_cons, List.not_mem_nil, or_false] at he
    rcases he with rfl | rfl
    · exact ⟨isUnicode_text "input_tokens", hint _⟩
    · exact ⟨isUnicode_text "output_tokens", hint _⟩
  · split at he
    · rw [List.mem_singleton.mp he]
      exact ⟨isUnicode_text "cache_read_input_tokens", hint _⟩
    · cases he

theorem AnthropicEvent.Unicode.writable {e : AnthropicEvent F} (h : e.Unicode) (depth : Nat) :
    e.payload.Writable (depth + 8) := by
  have husage : ∀ u : AnthropicUsage, (u.payload : Json F).Writable (depth + 6) := fun u => usage_writable u (depth + 4)
  have husage' : ∀ u : AnthropicUsage, (u.payload : Json F).Writable (depth + 7) := fun u => usage_writable u (depth + 5)
  cases e with
  | messageStart id model =>
      simp [AnthropicEvent.payload, Json.Writable, isUnicode_text, h.1, h.2, husage]
  | contentBlockStart index block =>
      cases block with
      | text => simp [AnthropicEvent.payload, StartedBlock.payload, Json.Writable, isUnicode_text]
      | toolUse id name =>
          simp [AnthropicEvent.payload, StartedBlock.payload, Json.Writable, isUnicode_text, h.1.writable, h.2.writable]
  | contentBlockDelta index delta =>
      have hindex : (indexPayload index : Json F).Writable (depth + 7) := by
        cases index <;> trivial
      cases delta with
      | text t => simp [AnthropicEvent.payload, BlockDelta.payload, Json.Writable, isUnicode_text, hindex, IsText.writable h]
      | inputJson t =>
          simp [AnthropicEvent.payload, BlockDelta.payload, Json.Writable, isUnicode_text, hindex, IsText.writable h]
  | messageDelta reason usage =>
      have h : IsUnicode reason := h
      simp [AnthropicEvent.payload, Json.Writable, isUnicode_text, h, husage']
  | error e =>
      have h : IsUnicode e.message := h
      have htype : IsUnicode e.errorType.text := by
        cases e.errorType <;> exact isUnicode_text _
      simp [AnthropicEvent.payload, AnthropicProtocolError.jsonBody, Json.Writable, isUnicode_text, h, htype]
  | _ => simp [AnthropicEvent.payload, Json.Writable, isUnicode_text]

theorem event_ok (rt : Runtime F) {e : AnthropicEvent F} (h : e.Unicode) : ∃ m, event rt e = .ok m := by
  have hwritable : e.payload.Writable rt.recursionLimit := by
    obtain ⟨depth, hdepth⟩ := Nat.exists_eq_add_of_le' rt.limit_ge
    rw [hdepth]
    exact h.writable depth
  obtain ⟨data, hdata, hunicode⟩ := dumps_of_writable rt hwritable
  have hname : IsUnicode e.name := by
    cases e <;> exact isUnicode_text _
  have hall : IsUnicode (text "event: " ++ (e.name ++ (text "\ndata: " ++ (data ++ text "\n\n")))) := by
    simp only [isUnicode_append, isUnicode_text, hname, hunicode, and_self]
  obtain ⟨b, hb⟩ := encode_of_isUnicode hall
  refine ⟨⟨e, b⟩, ?_⟩
  simp only [event, bind_eq_ok, pure_eq_ok]
  exact ⟨data, hdata, b, hb, rfl⟩

/-! ### Looking up -/

section lookups
variable (rt : Runtime F) (mint : Nat → List Char) {P : Entries F → Prop}

theorem IsDict.orElse_empty (h : IsDict P v) : v.orElse rt (.dict []) = .dict (dictOf v) := by
  cases h with
  | null => rfl
  | @dict entries h => cases entries <;> rfl

theorem IsDicts.dictsOf_eq {items : List (Json F)} (h : IsDicts P (.list items)) :
    (dictsOf (.list items)).map .dict = items := by
  cases h with
  | list h =>
      rw [dictsOf, List.map_map]
      refine (List.map_congr_left fun v hv => ?_).trans (List.map_id items)
      obtain ⟨entries, rfl, -⟩ := h v hv
      rfl

theorem IsDicts.orElse_empty (h : IsDicts P v) : v.orElse rt (.list []) = .list ((dictsOf v).map .dict) := by
  cases h with
  | null => rfl
  | @list items hitems =>
      rw [IsDicts.dictsOf_eq (.list hitems)]
      cases items <;> rfl

theorem IsDicts.of_mem (h : IsDicts P v) {entries : Entries F} (hentries : entries ∈ dictsOf v) : P entries := by
  cases h with
  | null => exact absurd hentries List.not_mem_nil
  | list h =>
      obtain ⟨v, hv, rfl⟩ := List.mem_map.mp hentries
      obtain ⟨entries, rfl, hP⟩ := h v hv
      exact hP

theorem IsText.truthy_eq (h : IsText v) : v.truthy rt = !(textOf v).isEmpty := by
  cases h <;> rfl

theorem countAt_succeeds {entries : Entries F} {k : String} (h : IsCount (fieldOf entries k)) :
    Succeeds (countAt rt (.dict entries) k) (fun _ => True) := by
  refine .bind (Q := fun v => v = fieldOf entries k) (.ok rfl) ?_
  rintro v rfl
  unfold Json.orElse
  split_ifs with htruthy
  · revert h htruthy
    generalize fieldOf entries k = v
    intro h htruthy
    cases h with
    | null => cases htruthy
    | int n => exact .ok trivial
  · exact .ok trivial

theorem usageFromChat_succeeds {usage : Json F} (h : IsDict UsageFields usage) :
    Succeeds (usageFromChat rt usage) (fun _ => True) := by
  unfold usageFromChat
  split_ifs with htruthy
  · cases h with
    | null => cases htruthy
    | @dict entries h =>
        refine .bind (countAt_succeeds rt h.promptTokens) fun prompt _ => ?_
        refine .bind (countAt_succeeds rt h.completionTokens) fun completion _ => ?_
        refine .bind (Q := fun v => v = fieldOf entries "prompt_tokens_details") (.ok rfl) ?_
        rintro details rfl
        have hdetails := h.details
        revert hdetails
        generalize fieldOf entries "prompt_tokens_details" = details
        intro hdetails
        cases hdetails with
        | null => exact .ok trivial
        | dict hd => exact .bind (countAt_succeeds rt hd) fun cached _ => .ok trivial
  · exact .ok trivial

theorem IsText.stopReason_succeeds (h : IsText v) : Succeeds (stopReason v) IsUnicode := by
  cases h with
  | null => exact .ok (isUnicode_text _)
  | str h =>
      refine .ok ?_
      split_ifs <;> exact isUnicode_text _

theorem IsText.orElse {v w : Json F} (h : IsText v) (hw : IsText w) : IsText (v.orElse rt w) := by
  unfold Json.orElse
  split_ifs
  · exact h
  · exact hw

theorem mintMessageId_isUnicode (minted : Nat) : IsUnicode (mintMessageId mint minted) :=
  isUnicode_append.mpr ⟨isUnicode_text _, isUnicode_scalars _⟩

theorem idOrMint_succeeds {entries : Entries F} (h : IsText (fieldOf entries "id")) (minted : Nat) :
    Succeeds (idOrMint rt mint minted (.dict entries)) (fun r => IsText r.1) := by
  refine .bind (Q := fun v => v = fieldOf entries "id") (.ok rfl) ?_
  rintro v rfl
  refine .ok ?_
  split_ifs
  · exact h
  · exact .str (mintMessageId_isUnicode mint minted)

/-- A function that is missing has no name and no arguments. -/
theorem functionFields_dictOf (h : IsDict FunctionFields v) : FunctionFields (dictOf v) := by
  cases h with
  | null => exact ⟨.null, .null⟩
  | dict h => exact h

theorem deltaFields_dictOf (h : IsDict DeltaFields v) : DeltaFields (dictOf v) := by
  cases h with
  | null => exact ⟨.null, .null⟩
  | dict h => exact h

theorem functionOf_succeeds {entries : Entries F} (h : IsDict FunctionFields (fieldOf entries "function")) :
    Succeeds (functionOf rt (.dict entries)) (fun v => v = .dict (dictOf (fieldOf entries "function"))) :=
  .ok (h.orElse_empty rt)

end lookups

/-! ### The translator does not raise -/

section returns
variable {rt : Runtime F} {mint : Nat → List Char} {s : StreamState F}

/-- The state holds texts and a usage. -/
structure Texts (s : StreamState F) : Prop where
  model : IsUnicode s.model
  messageId : IsUnicode s.messageId
  finishReason : IsText s.finishReason
  usage : IsDict UsageFields s.usage

theorem event_succeeds (rt : Runtime F) {e : AnthropicEvent F} (h : e.Unicode) :
    Succeeds (event rt e) (fun _ => True) := by
  obtain ⟨m, hm⟩ := event_ok rt h
  exact ⟨m, hm, trivial⟩

theorem yieldEvent_returns {e : AnthropicEvent F} {Q : Unit → Prop} (h : e.Unicode) (hQ : Q ()) :
    (yieldEvent rt e).Returns Q :=
  .bind (.ofExcept (event_succeeds rt h)) fun _ _ => .yield hQ

theorem yieldChange_returns {x : Except PyError (List (Emitted F) × StreamState F)} {Q : StreamState F → Prop}
    (h : Succeeds x (fun r => Q r.2)) : (yieldChange x).Returns Q :=
  .bind (.ofExcept h) fun _ hr => .bind (Q := fun _ => True) (.yieldAll trivial) fun _ _ => .pure hr

theorem closeBlock_succeeds (hs : Texts s) : Succeeds (s.closeBlock rt) (fun r => Texts r.2) := by
  unfold StreamState.closeBlock
  split
  · exact .ok hs
  · exact .bind (event_succeeds rt trivial) fun _ _ => .ok ⟨hs.model, hs.messageId, hs.finishReason, hs.usage⟩

theorem openTextBlock_succeeds (hs : Texts s) : Succeeds (s.openTextBlock rt) (fun r => Texts r.2) := by
  refine .bind (closeBlock_succeeds hs) fun r hr => ?_
  exact .bind (event_succeeds rt trivial) fun _ _ => .ok ⟨hr.model, hr.messageId, hr.finishReason, hr.usage⟩

theorem openToolBlock_succeeds (hs : Texts s) {entries : Entries F} (h : ToolCallFields entries) (openaiIndex : Int) :
    Succeeds (s.openToolBlock rt mint openaiIndex (.dict entries)) (fun r => Texts r.2) := by
  refine .bind (closeBlock_succeeds hs) fun r hr => ?_
  have hname : IsText (fieldOf (dictOf (fieldOf entries "function")) "name") := (functionFields_dictOf h.function).name
  refine .bind (functionOf_succeeds rt h.function) ?_
  rintro function rfl
  refine .bind (idOrMint_succeeds rt mint h.id _) fun id hid => ?_
  refine .bind (Q := IsText) (.ok hname) fun name hname => ?_
  have hevent : (AnthropicEvent.contentBlockStart r.2.nextBlockIndex
      (.toolUse id.1 (name.orElse rt (.str [])))).Unicode := ⟨hid, hname.orElse rt (.str isUnicode_nil)⟩
  exact .bind (event_succeeds rt hevent) fun _ _ => .ok ⟨hr.model, hr.messageId, hr.finishReason, hr.usage⟩

theorem onContent_returns (hs : Texts s) {content : Json F} (h : IsText content) :
    (onContent rt s content).Returns Texts := by
  unfold onContent
  split_ifs
  · refine .bind (Q := Texts) ?_ fun s' hs' => ?_
    · unfold textBlock
      split_ifs
      · exact yieldChange_returns (openTextBlock_succeeds hs)
      · exact .pure hs
    · exact .bind (Q := fun _ => True) (yieldEvent_returns h trivial) fun _ _ => .pure hs'
  · exact .pure hs

theorem onToolCall_returns (hs : Texts s) {entries : Entries F} (h : ToolCallFields entries) :
    (onToolCall rt mint s (.dict entries)).Returns Texts := by
  unfold onToolCall
  refine .bind (.ofExcept (countAt_succeeds rt h.index)) fun openaiIndex _ => ?_
  refine .bind (Q := Texts) ?_ fun s' hs' => ?_
  · unfold toolBlock
    split_ifs
    · exact yieldChange_returns (openToolBlock_succeeds hs h openaiIndex)
    · exact .pure hs
  · have harguments := (functionFields_dictOf h.function).arguments
    refine .bind (.ofExcept (functionOf_succeeds rt h.function)) ?_
    rintro function rfl
    refine .bind (Q := IsText) (.ofExcept (.ok harguments)) fun arguments harguments => ?_
    refine .bind (Q := fun _ => True) ?_ fun _ _ => .pure hs'
    unfold yieldArguments
    split_ifs
    · exact yieldEvent_returns harguments trivial
    · exact .pure trivial

theorem onToolCalls_returns : ∀ {calls : List (Entries F)} {s : StreamState F}, Texts s →
    (∀ call ∈ calls, ToolCallFields call) → (onToolCalls rt mint s (calls.map .dict)).Returns Texts
  | [], _, hs, _ => .pure hs
  | call :: _, _, hs, h =>
      .bind (onToolCall_returns hs (h call List.mem_cons_self)) fun _ hs' =>
        onToolCalls_returns hs' fun c hc => h c (List.mem_cons_of_mem _ hc)

theorem onChoice_returns (hs : Texts s) {entries : Entries F} (h : ChoiceFields entries) :
    (onChoice rt mint s (.dict entries)).Returns Texts := by
  unfold onChoice
  refine .bind (Q := fun v => v = fieldOf entries "delta") (.ofExcept (.ok rfl)) ?_
  rintro v rfl
  have hdelta := deltaFields_dictOf h.delta
  simp only [h.delta.orElse_empty]
  refine .bind (Q := fun v => v = fieldOf entries "finish_reason") (.ofExcept (.ok rfl)) ?_
  rintro reason rfl
  refine .bind (Q := IsText) (.ofExcept (.ok hdelta.content)) fun content hcontent => ?_
  have hreason : Texts { s with finishReason := (fieldOf entries "finish_reason").orElse rt s.finishReason } :=
    ⟨hs.model, hs.messageId, h.finishReason.orElse rt hs.finishReason, hs.usage⟩
  refine .bind (onContent_returns hreason hcontent) fun s' hs' => ?_
  refine .bind (Q := IsDicts ToolCallFields) (.ofExcept (.ok hdelta.toolCalls)) fun calls hcalls => ?_
  rw [hcalls.orElse_empty]
  refine .bind (Q := fun cs => cs = (dictsOf calls).map .dict) (.ofExcept (.ok rfl)) ?_
  rintro cs rfl
  exact onToolCalls_returns hs' fun _ hcall => hcalls.of_mem hcall

theorem onFrame_returns (hs : Texts s) {entries : Entries F} (h : ChunkFields entries) :
    (onFrame rt mint s (.dict entries)).Returns Texts := by
  unfold onFrame
  refine .bind (Q := fun v => v = fieldOf entries "usage") (.ofExcept (.ok rfl)) ?_
  rintro usage rfl
  refine .bind (Q := fun v => v = fieldOf entries "choices") (.ofExcept (.ok rfl)) ?_
  rintro choices rfl
  have husage : IsDict UsageFields ((fieldOf entries "usage").orElse rt s.usage) := by
    unfold Json.orElse
    split_ifs
    · exact h.usage
    · exact hs.usage
  have htexts : Texts { s with usage := (fieldOf entries "usage").orElse rt s.usage } :=
    ⟨hs.model, hs.messageId, hs.finishReason, husage⟩
  dsimp only
  rw [h.choices.orElse_empty]
  split_ifs with htruthy
  · cases hchoices : dictsOf (fieldOf entries "choices") with
    | nil =>
        rw [hchoices] at htruthy
        cases htruthy
    | cons choice rest =>
        refine .bind (Q := fun v => v = .dict choice) (.ofExcept (.ok rfl)) ?_
        rintro v rfl
        exact onChoice_returns htexts (h.choices.of_mem (by simp [hchoices]))
  · exact .pure htexts

theorem yieldStart_returns (hs : Texts s) (started : Bool) : (yieldStart rt started s).Returns (fun _ => True) := by
  unfold yieldStart
  split_ifs
  · exact .pure trivial
  · exact yieldEvent_returns (e := .messageStart s.messageId s.model) ⟨hs.messageId, hs.model⟩ trivial

theorem yieldStartPing_returns (hs : Texts s) (started : Bool) :
    (yieldStartPing rt started s).Returns (fun _ => True) := by
  unfold yieldStartPing
  split_ifs
  · exact .pure trivial
  · exact .bind (yieldStart_returns hs false) fun _ _ => yieldEvent_returns trivial trivial

theorem finale_succeeds (hs : Texts s) : Succeeds (finale rt s) (fun _ => True) := by
  refine .bind (closeBlock_succeeds hs) fun r hr => ?_
  refine .bind (usageFromChat_succeeds rt hr.usage) fun usage _ => ?_
  refine .bind (hr.finishReason.orElse rt (.str isUnicode_nil)).stopReason_succeeds fun reason hreason => ?_
  have hdelta : (AnthropicEvent.messageDelta reason usage : AnthropicEvent F).Unicode := hreason
  refine .bind (event_succeeds rt hdelta) fun _ _ => ?_
  exact .bind (event_succeeds rt (e := .messageStop) trivial) fun _ _ => .ok trivial

theorem conclude_returns (hs : Texts s) (started sawDone : Bool) :
    (conclude rt started sawDone s).Returns (fun _ => True) := by
  refine .bind (yieldStart_returns hs started) fun _ _ => ?_
  unfold yieldEnd
  split_ifs
  · exact .bind (.ofExcept (finale_succeeds hs)) fun _ _ => .yieldAll trivial
  · exact yieldEvent_returns (isUnicode_text "The gateway stream ended before completing.") trivial

theorem IsText.toStr_isUnicode {s : PyStr} (h : IsText v) (hs : IsUnicode s) :
    IsUnicode ((v.orElse rt (.str s)).toStr rt) := by
  unfold Json.orElse
  cases h with
  | null => exact hs
  | str h =>
      split_ifs
      · exact h
      · exact hs

theorem paramText_isUnicode {detail : Entries F} (hfields : ErrorFields detail) {m : PyStr} (hm : IsUnicode m) :
    IsUnicode (match fieldOf detail "param" with
      | .str (c :: param) => m ++ text " (param: " ++ (c :: param) ++ text ")"
      | _ => m) := by
  split
  · next c param hparam =>
    simp only [isUnicode_append, isUnicode_text, hm, hfields.param _ hparam, and_self]
  · exact hm

theorem errorFields_body {body : Entries F}
    (h : ∀ detail, Entries.get? body (text "error") = some (.dict detail) → ErrorFields detail) :
    ErrorFields (match body.get? (text "error") with | some (.dict detail) => detail | _ => []) := by
  split
  · next detail hfound => exact h detail hfound
  · exact ⟨.null, fun s hs => by cases hs⟩

theorem translateOpenaiError_isUnicode {body : Entries F}
    (h : ∀ detail, Entries.get? body (text "error") = some (.dict detail) → ErrorFields detail) (statusCode : Nat) :
    IsUnicode (translateOpenaiError rt statusCode body).message :=
  paramText_isUnicode (errorFields_body h) ((errorFields_body h).message.toStr_isUnicode (isUnicode_text _))

/-- **Chat completion data does not make the translator raise.** -/
theorem translateData_returns {items : List (Except PyError PyStr)} (h : ChatData rt items) :
    ∀ {started : Bool} {s : StreamState F}, Texts s →
      (translateData rt mint started s items).Returns (fun _ => True) := by
  induction h with
  | none =>
      intro started s hs
      exact conclude_returns hs started false
  | done rest =>
      intro started s hs
      unfold translateData
      rw [if_pos rfl]
      exact conclude_returns hs started true
  | @malformed data e rest hdata he hrest ih =>
      intro started s hs
      unfold translateData
      split_ifs
      · exact conclude_returns hs started true
      · rw [hdata]
        simp only [he, if_true]
        exact ih hs
  | @noDict data v rest hdata hv hrest ih =>
      intro started s hs
      unfold translateData
      split_ifs
      · exact conclude_returns hs started true
      · rw [hdata]
        split
        · next h => cases h
        · next frame h => exact absurd (Except.ok.inj h) (hv frame)
        · exact ih hs
  | @failed data entries rest hdata herror hdetail =>
      intro started s hs
      unfold translateData
      split_ifs
      · exact conclude_returns hs started true
      · rw [hdata]
        simp only [herror, if_true]
        refine .bind (yieldStart_returns hs started) fun _ _ => ?_
        exact yieldEvent_returns (translateOpenaiError_isUnicode hdetail 500) trivial
  | @chunk data entries rest hdata herror hfields hrest ih =>
      intro started s hs
      unfold translateData
      split_ifs
      · exact conclude_returns hs started true
      · rw [hdata]
        simp only [herror, if_false]
        refine .bind (yieldStartPing_returns hs started) fun _ _ => ?_
        exact .bind (onFrame_returns hs hfields) fun s' hs' => ih hs'

end returns

end Experiential.Wire
