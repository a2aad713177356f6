import Experiential.Wire.StreamFolding
import Experiential.Wire.TranslatedStream

/-! # The two translations

A completion is streamed in parts: its text first, and then its tool calls one after the other, each introduced by a
part with its identifier and its name (`Splits`). What a client folds from the translated stream is then what the
translation of the whole completion says (`translations_agree`). -/

namespace Experiential.Wire

open Py

variable {F : Type}

/-! ### Whole completions -/

def idOf (call : Entries F) : PyStr := textOf (fieldOf call "id")

def nameOf (call : Entries F) : PyStr := textOf (fieldOf (functionEntries call) "name")

def argumentsOf (call : Entries F) : PyStr := textOf (fieldOf (functionEntries call) "arguments")

/-- A tool call with an identifier, whose arguments are the text of an object or missing. -/
structure CallFields (rt : Runtime F) (call : Entries F) : Prop where
  function : IsDict FunctionFields (fieldOf call "function")
  id : IsText (fieldOf call "id")
  given : idOf call ≠ []
  arguments : argumentsOf call = [] ∨ ∃ entries, loads rt (argumentsOf call) = .ok (.dict entries)

structure MessageFields (rt : Runtime F) (message : Entries F) : Prop where
  content : IsText (fieldOf message "content")
  refusal : (fieldOf message "refusal").truthy rt = false
  toolCalls : IsDicts (CallFields rt) (fieldOf message "tool_calls")

/-- The first choice of a completion. -/
def choiceOf (body : Entries F) : Entries F :=
  match fieldOf body "choices" with
  | .list (.dict choice :: _) => choice
  | _ => []

def messageOf (body : Entries F) : Entries F := dictOf (fieldOf (choiceOf body) "message")

def contentOf (body : Entries F) : PyStr := textOf (fieldOf (messageOf body) "content")

def callsOf (body : Entries F) : List (Entries F) := dictsOf (fieldOf (messageOf body) "tool_calls")

/-- A chat completion that is no refusal. -/
structure CompletionFields (rt : Runtime F) (body : Entries F) : Prop where
  choices : ∃ rest, fieldOf body "choices" = .list (.dict (choiceOf body) :: rest)
  message : IsDict (MessageFields rt) (fieldOf (choiceOf body) "message")
  finishReason : IsText (fieldOf (choiceOf body) "finish_reason")
  usage : IsDict UsageFields (fieldOf body "usage")

/-- The input of a tool use. -/
def inputOf (rt : Runtime F) (call : Entries F) : Json F :=
  match loads rt (argumentsOf call) with
  | .ok (.dict entries) => .dict entries
  | _ => .dict []

def toolUseOf (rt : Runtime F) (call : Entries F) : ContentBlock F :=
  .toolUse (.str (idOf call)) (.str (nameOf call)) (inputOf rt call)

def wholeContent (rt : Runtime F) (body : Entries F) : List (ContentBlock F) :=
  (if contentOf body = [] then [] else [.text (.str (contentOf body))]) ++ (callsOf body).map (toolUseOf rt)

section whole
variable {rt : Runtime F} {mint : Nat → List Char} {body : Entries F}

theorem CompletionFields.messageFields (h : CompletionFields rt body) : MessageFields rt (messageOf body) := by
  have hmessage := h.message
  unfold messageOf
  revert hmessage
  generalize fieldOf (choiceOf body) "message" = v
  intro hmessage
  cases hmessage with
  | null => exact ⟨.null, rfl, .null⟩
  | dict h => exact h

theorem loads_nil (rt : Runtime F) : loads rt [] = .error .jsonDecode := by
  simp [loads, decodeDocument, skipWhitespace, scanOnce]
  rfl

theorem loads_emptyObject (rt : Runtime F) : loads rt (text "\x7b\x7d") = .ok (.dict []) := by
  obtain ⟨depth, hdepth⟩ := Nat.exists_eq_add_of_le' rt.limit_ge
  unfold loads decodeDocument
  rw [hdepth]
  rfl

theorem toolInput_of_loads {function v : Json F} {entries : Entries F} (hget : function.get (text "arguments") = .ok v)
    (hloads : (v.orElse rt (.str (text "\x7b\x7d"))).loadsValue rt = .ok (.dict entries)) :
    toolInput rt function = .ok (.dict entries) := by
  simp only [toolInput, bind_eq_ok]
  refine ⟨v, hget, ?_⟩
  rw [hloads]
  rfl

theorem toolInput_eq {call : Entries F} (h : CallFields rt call) :
    toolInput rt (.dict (functionEntries call)) = .ok (inputOf rt call) := by
  have harguments : IsText (fieldOf (functionEntries call) "arguments") := (functionFields_dictOf h.function).arguments
  have hget := get_dict (functionEntries call) "arguments"
  unfold inputOf
  by_cases hnone : argumentsOf call = []
  · have htruthy : (fieldOf (functionEntries call) "arguments").truthy rt = false := by
      rw [harguments.truthy_eq]
      exact congrArg (fun t => !t.isEmpty) hnone
    rw [hnone, loads_nil]
    refine toolInput_of_loads hget ?_
    rw [Json.orElse, htruthy]
    exact loads_emptyObject rt
  · have htruthy : (fieldOf (functionEntries call) "arguments").truthy rt = true := by
      rw [harguments.truthy_eq]
      simpa [argumentsOf] using hnone
    obtain hempty | ⟨entries, hloads⟩ := h.arguments
    · exact absurd hempty hnone
    · rw [hloads]
      refine toolInput_of_loads hget ?_
      rw [Json.orElse, htruthy, harguments.eq_str hnone]
      exact hloads

theorem toolUses_eq (rt : Runtime F) (mint : Nat → List Char) : ∀ {calls : List (Entries F)} (minted : Nat), (∀ call ∈ calls, CallFields rt call) →
    toolUses rt mint minted (calls.map .dict) = .ok (calls.map (toolUseOf rt), minted)
  | [], _, _ => rfl
  | call :: calls, minted, h => by
      have hcall := h call List.mem_cons_self
      obtain ⟨_, hfunction, rfl⟩ := functionOf_succeeds rt hcall.function
      have hname : (fieldOf (dictOf (fieldOf call "function")) "name").orElse rt (.str []) = .str (nameOf call) :=
        (functionFields_dictOf hcall.function).name.orElse_nil
      have hrest := toolUses_eq rt mint minted fun c hc => h c (List.mem_cons_of_mem _ hc)
      simp only [List.map_cons, toolUses, bind_eq_ok, pure_eq_ok]
      refine ⟨_, hfunction, _, toolInput_eq hcall, _, idOrMint_given hcall.id hcall.given minted, _, get_dict _ "name",
        _, hrest, ?_⟩
      rw [hname]
      rfl

theorem translateChatCompletion_eq (mint : Nat → List Char) (h : CompletionFields rt body) :
    ∃ m, translateChatCompletion rt mint body = .ok m ∧ m.content = wholeContent rt body ∧
      stopReason (fieldOf (choiceOf body) "finish_reason") = .ok m.stopReason ∧
      usageFromChat rt (fieldOf body "usage") = .ok m.usage := by
  obtain ⟨rest, hchoices⟩ := h.choices
  obtain ⟨reason, hreason, -⟩ := h.finishReason.stopReason_succeeds
  obtain ⟨usage, husage, -⟩ := usageFromChat_succeeds rt h.usage
  have hmessage := h.messageFields
  have huses := toolUses_eq rt mint 0 fun call hcall => hmessage.toolCalls.of_mem hcall
  refine ⟨⟨mintMessageId mint 0, (fieldOf body "model").orElse rt (.str []), wholeContent rt body, reason, usage⟩, ?_, rfl,
    hreason, husage⟩
  have hfirst : ((Entries.get? body (text "choices")).getD .null).orElse rt (.list []) =
      .list (.dict (choiceOf body) :: rest) := by
    have hfound : (Entries.get? body (text "choices")).getD .null = .list (.dict (choiceOf body) :: rest) := hchoices
    rw [hfound]
    rfl
  have hcontent : (if (fieldOf (messageOf body) "content").truthy rt = true then
      [ContentBlock.text (fieldOf (messageOf body) "content")] else []) =
      if contentOf body = [] then [] else [.text (.str (contentOf body))] := by
    rw [hmessage.content.truthy_eq]
    by_cases hnone : contentOf body = []
    · rw [if_pos hnone, if_neg (by simpa [contentOf] using hnone)]
    · rw [if_neg hnone, if_pos (by simpa [contentOf] using hnone), hmessage.content.eq_str hnone]
      rfl
  unfold translateChatCompletion
  simp only [hfirst]
  rw [if_neg (by simp [Json.truthy])]
  simp only [bind_eq_ok, orException_eq_ok]
  refine ⟨_, rfl, _, get_dict (choiceOf body) "message", fieldOf (messageOf body) "refusal", ?_, ?_⟩
  · rw [h.message.orElse_empty]
    exact get_dict (messageOf body) "refusal"
  · rw [if_neg (by simp [hmessage.refusal]), h.message.orElse_empty]
    simp only [bind_eq_ok, orException_eq_ok, pure_eq_ok]
    refine ⟨_, get_dict (messageOf body) "content", _, get_dict (messageOf body) "tool_calls", (callsOf body).map .dict, ?_,
      _, huses, _, get_dict (choiceOf body) "finish_reason", reason, hreason, usage, husage, ?_⟩
    · rw [hmessage.toolCalls.orElse_empty]
      rfl
    · rw [hcontent]
      rfl

end whole

/-! ### Splitting a completion -/

/-- The pieces of a tool call: the arguments that introduce it, and what follows with whatever identifier and name. -/
structure CallPieces where
  index : Int
  first : PyStr
  rest : List (PyStr × PyStr × PyStr)

namespace CallPieces

def arguments (c : CallPieces) : PyStr := c.first ++ (c.rest.map fun r => r.2.2).flatten

def following (c : CallPieces) : List Part := c.rest.map fun r => .tool c.index r.1 r.2.1 r.2.2

def parts (c : CallPieces) (id name : PyStr) : List Part := .tool c.index id name c.first :: c.following

end CallPieces

def callParts : List (Entries F) → List CallPieces → List Part
  | call :: calls, c :: cs => c.parts (idOf call) (nameOf call) ++ callParts calls cs
  | _, _ => []

/-- The chunks carry the completion: its text, its tool calls in their order under changing indices, and its reason
and its usage as the last that are given. -/
structure Splits (rt : Runtime F) (body : Entries F) (chunks : List (Entries F)) (texts : List PyStr)
    (pieces : List CallPieces) : Prop where
  parts : chunks.flatMap partsOf = texts.map .text ++ callParts (callsOf body) pieces
  content : texts.flatten = contentOf body
  calls : List.Forall₂ (fun call c => CallPieces.arguments c = argumentsOf call) (callsOf body) pieces
  indices : (pieces.map CallPieces.index).IsChain (· ≠ ·)
  finishReason : (lastOf rt .null (chunks.map finishReasonOf)).orElse rt (.str []) =
    (fieldOf (choiceOf body) "finish_reason").orElse rt (.str [])
  usage : (lastOf rt .null (chunks.map (fieldOf · "usage"))).orElse rt .null = (fieldOf body "usage").orElse rt .null

section splits
variable {rt : Runtime F} {b : Blocks F}

theorem assemble_following (c : CallPieces) (id name : Json F) (closed : List (FoldedBlock F)) :
    ∀ (rest : List (PyStr × PyStr × PyStr)) (json : PyStr),
      (rest.map fun r => Part.tool c.index r.1 r.2.1 r.2.2).foldlM Blocks.part
          (⟨closed, some (.tool c.index, .toolUse id name json)⟩ : Blocks F) =
        some ⟨closed, some (.tool c.index, .toolUse id name (json ++ (rest.map fun r => r.2.2).flatten))⟩ := by
  intro rest
  induction rest with
  | nil =>
      intro json
      simp
  | cons r rest ih =>
      intro json
      have hpart : Blocks.part (⟨closed, some (.tool c.index, .toolUse id name json)⟩ : Blocks F)
          (.tool c.index r.1 r.2.1 r.2.2) = some ⟨closed, some (.tool c.index, .toolUse id name (json ++ r.2.2))⟩ := by
        rw [Blocks.part, Blocks.ready_open rfl]
        rfl
      rw [List.map_cons, List.foldlM_cons, hpart]
      simp only [Option.bind_eq_bind, Option.bind_some, ih, List.map_cons, List.flatten_cons, List.append_assoc]

theorem assemble_call (c : CallPieces) {id : PyStr} (hid : id ≠ []) (name : PyStr)
    (hlast : ¬ b.last.map Prod.fst = some (.tool c.index)) :
    (c.parts id name).foldlM Blocks.part b =
      some ⟨b.all, some (.tool c.index, .toolUse (.str id) (.str name) c.arguments)⟩ := by
  have hpart : b.part (.tool c.index id name c.first) =
      some ⟨b.all, some (.tool c.index, .toolUse (.str id) (.str name) c.first)⟩ := by
    have hkind : ¬ b.last.map Prod.fst = some (Part.tool c.index id name c.first).kind := hlast
    unfold Blocks.part Blocks.ready
    rw [if_neg hkind]
    cases id with
    | nil => exact absurd rfl hid
    | cons a id => rfl
  rw [CallPieces.parts, List.foldlM_cons, hpart]
  exact assemble_following c _ _ _ c.rest c.first

/-- The tool calls are put together behind what is there. -/
theorem assemble_calls : ∀ {calls : List (Entries F)} {pieces : List CallPieces} {b : Blocks F},
    List.Forall₂ (fun call c => CallPieces.arguments c = argumentsOf call) calls pieces →
    (∀ call ∈ calls, idOf call ≠ []) → (pieces.map CallPieces.index).IsChain (· ≠ ·) →
    (∀ c ∈ pieces.head?, ¬ b.last.map Prod.fst = some (.tool c.index)) →
    ∃ b', (callParts calls pieces).foldlM Blocks.part b = some b' ∧ b'.all = b.all ++
      calls.map fun call => .toolUse (.str (idOf call)) (.str (nameOf call)) (argumentsOf call) := by
  intro calls pieces b hcalls
  induction hcalls generalizing b with
  | nil =>
      intro _ _ _
      exact ⟨b, rfl, (List.append_nil _).symm⟩
  | @cons call c calls pieces harguments _ ih =>
      intro hids hchain hlast
      have hcall := assemble_call c (hids call List.mem_cons_self) (nameOf call) (hlast c rfl)
      have hnext : ∀ c' ∈ pieces.head?, ¬ (some (PartKind.tool c.index)) = some (.tool c'.index) := by
        intro c' hc' heq
        cases pieces with
        | nil => cases hc'
        | cons c'' rest =>
            cases hc'
            rw [List.map_cons, List.map_cons, List.isChain_cons_cons] at hchain
            exact hchain.1 (PartKind.tool.inj (Option.some.inj heq))
      obtain ⟨b', hrest, hall⟩ := ih (b := ⟨b.all, some (.tool c.index, .toolUse (.str (idOf call)) (.str (nameOf call))
        c.arguments)⟩) (fun c hc => hids c (List.mem_cons_of_mem _ hc)) (List.isChain_of_isChain_cons hchain) hnext
      refine ⟨b', ?_, ?_⟩
      · rw [callParts, List.foldlM_append, hcall]
        exact hrest
      · rw [hall, harguments]
        simp [Blocks.all]

theorem assemble_texts (closed : List (FoldedBlock F)) : ∀ (texts : List PyStr) (t : PyStr),
    (texts.map Part.text).foldlM Blocks.part (⟨closed, some (.text, .text t)⟩ : Blocks F) =
      some ⟨closed, some (.text, .text (t ++ texts.flatten))⟩ := by
  intro texts
  induction texts with
  | nil =>
      intro t
      simp
  | cons u texts ih =>
      intro t
      have hpart : Blocks.part (⟨closed, some (.text, .text t)⟩ : Blocks F) (.text u) =
          some ⟨closed, some (.text, .text (t ++ u))⟩ := by
        rw [Blocks.part, Blocks.ready_open rfl]
        rfl
      rw [List.map_cons, List.foldlM_cons, hpart]
      simp only [Option.bind_eq_bind, Option.bind_some, ih, List.flatten_cons, List.append_assoc]

theorem text_ne_nil {chunk : Entries F} {t : PyStr} (h : .text t ∈ partsOf chunk) : t ≠ [] := by
  cases List.mem_append.mp h with
  | inl h =>
      unfold partsOfContent at h
      split_ifs at h with hempty
      · exact absurd h List.not_mem_nil
      · cases List.mem_singleton.mp h
        exact hempty
  | inr h =>
      obtain ⟨call, -, hcall⟩ := List.mem_map.mp h
      cases hcall

variable {body : Entries F} {chunks : List (Entries F)} {texts : List PyStr} {pieces : List CallPieces}

theorem Splits.texts_ne (h : Splits rt body chunks texts pieces) : ∀ t ∈ texts, t ≠ [] := by
  intro t ht
  have hmem : Part.text t ∈ chunks.flatMap partsOf := by
    rw [h.parts]
    exact List.mem_append_left _ (List.mem_map_of_mem ht)
  obtain ⟨chunk, -, hpart⟩ := List.mem_flatMap.mp hmem
  exact text_ne_nil hpart

/-- The block of the text, and those of the tool calls. -/
def wholeBlocks (body : Entries F) : List (FoldedBlock F) :=
  (if contentOf body = [] then [] else [.text (contentOf body)]) ++
    (callsOf body).map fun call => .toolUse (.str (idOf call)) (.str (nameOf call)) (argumentsOf call)

/-- **The parts of a completion make its blocks.** -/
theorem Splits.assemble (h : Splits rt body chunks texts pieces) (hids : ∀ call ∈ callsOf body, idOf call ≠ []) :
    ∃ b : Blocks F, (chunks.flatMap partsOf).foldlM Blocks.part ⟨[], none⟩ = some b ∧ b.all = wholeBlocks body := by
  have htexts : ∃ b : Blocks F, (texts.map Part.text).foldlM Blocks.part ⟨[], none⟩ = some b ∧
      b.all = (if contentOf body = [] then [] else [.text (contentOf body)]) ∧
      ∀ index, ¬ b.last.map Prod.fst = some (.tool index) := by
    cases texts with
    | nil =>
        refine ⟨⟨[], none⟩, rfl, ?_, fun _ hkind => by cases hkind⟩
        rw [← h.content]
        rfl
    | cons t rest =>
        have hne : contentOf body ≠ [] := by
          rw [← h.content]
          have ht := h.texts_ne t List.mem_cons_self
          simp [ht]
        refine ⟨⟨[], some (.text, .text (t ++ rest.flatten))⟩, ?_, ?_, fun _ hkind => by cases hkind⟩
        · exact assemble_texts [] rest t
        · rw [if_neg hne, ← h.content]
          rfl
  obtain ⟨b₁, hrun₁, hall₁, hkind⟩ := htexts
  obtain ⟨b₂, hrun₂, hall₂⟩ := assemble_calls h.calls hids h.indices fun c _ => hkind c.index
  refine ⟨b₂, ?_, ?_⟩
  · rw [h.parts, List.foldlM_append, hrun₁]
    exact hrun₂
  · rw [hall₂, hall₁, wholeBlocks]

end splits

/-! ### The two translations -/

section agreement
variable {rt : Runtime F} {mint : Nat → List Char} {body : Entries F}

theorem usageFromChat_orElse (rt : Runtime F) (v : Json F) : usageFromChat rt (v.orElse rt .null) = usageFromChat rt v := by
  unfold Json.orElse
  split_ifs with htruthy
  · rfl
  · unfold usageFromChat
    rw [if_neg htruthy]
    rfl

theorem stopReason_orElse (rt : Runtime F) {v : Json F} (h : IsText v) :
    stopReason (v.orElse rt (.str [])) = stopReason v := by
  rw [h.orElse_nil]
  cases h with
  | null => rfl
  | str h => rfl

theorem content_toolUse {call : Entries F} (h : CallFields rt call) :
    (FoldedBlock.toolUse (.str (idOf call)) (.str (nameOf call)) (argumentsOf call)).content rt = some (toolUseOf rt call) := by
  unfold FoldedBlock.content toolUseOf inputOf
  dsimp only
  split_ifs with hnone
  · rw [hnone, loads_nil]
  · obtain hempty | ⟨entries, hloads⟩ := h.arguments
    · exact absurd hempty hnone
    · rw [hloads]

/-- The client reads the inputs as the whole translation does. -/
theorem wholeBlocks_content (h : CompletionFields rt body) :
    (wholeBlocks body).mapM (FoldedBlock.content rt) = some (wholeContent rt body) := by
  have hcalls : ∀ calls : List (Entries F), (∀ call ∈ calls, CallFields rt call) →
      (calls.map fun call => FoldedBlock.toolUse (.str (idOf call)) (.str (nameOf call)) (argumentsOf call)).mapM
        (FoldedBlock.content rt) = some (calls.map (toolUseOf rt)) := by
    intro calls hfields
    induction calls with
    | nil => rfl
    | cons call calls ih =>
        have hcall := content_toolUse (hfields call List.mem_cons_self)
        have hrest := ih fun c hc => hfields c (List.mem_cons_of_mem _ hc)
        rw [List.map_cons, List.mapM_cons, hcall, hrest]
        rfl
  have hfields : ∀ call ∈ callsOf body, CallFields rt call := fun call hcall => h.messageFields.toolCalls.of_mem hcall
  unfold wholeBlocks wholeContent
  split_ifs with hnone
  · exact hcalls _ hfields
  · rw [List.singleton_append, List.mapM_cons, hcalls _ hfields]
    rfl

theorem scanAll_foldEvent : ∀ (ms : List (Emitted F)) (w : Folded F),
    scanAll foldEvent w ms = some ((eventsOf ms).foldl Folded.read w)
  | [], _ => rfl
  | m :: ms, w => scanAll_foldEvent ms (w.read m.event)

theorem follows_initial (mint : Nat → List Char) (model : PyStr) :
    Follows (F := F) (.initial mint model) .empty ⟨[], none⟩ .null .null :=
  ⟨rfl, rfl, rfl, rfl, rfl, rfl, rfl⟩

/-- **Both translations agree** on a completion that is streamed in its parts: the folded stream has the content
blocks, the stop reason and the usage of the message. -/
theorem translations_agree (rt : Runtime F) (mint mint' : Nat → List Char) (model : PyStr) (hmodel : IsUnicode model)
    (body : Entries F) (hbody : CompletionFields rt body) (stream : List StreamChunk) (chunks : List (Entries F))
    (hcarries : Carries rt (iterSseData [] stream) chunks) (texts : List PyStr) (pieces : List CallPieces)
    (hsplits : Splits rt body chunks texts pieces) :
    let g := translateChatSse rt mint' model stream
    let w := foldEvents (eventsOf g.yielded)
    g.result = .ok () ∧ ∃ m, translateChatCompletion rt mint body = .ok m ∧
      w.blocks.mapM (FoldedBlock.content rt) = some m.content ∧ w.stopReason = some m.stopReason ∧
      w.usage = some m.usage := by
  intro g w
  have hreturns : g.Returns (fun _ => True) := translateData_returns hcarries.chatData (texts_initial hmodel)
  obtain ⟨_, hok, -⟩ := hreturns
  obtain ⟨m, hm, hcontent, hreason, husage⟩ := translateChatCompletion_eq mint hbody
  obtain ⟨b, hrun, hall⟩ := hsplits.assemble fun call hcall => (hbody.messageFields.toolCalls.of_mem hcall).given
  have hfolds : Gen.Scans foldEvent .empty g (fun w' _ => Concluded rt w' b
      (lastOf rt .null (chunks.map finishReasonOf)) (lastOf rt .null (chunks.map (fieldOf · "usage")))) :=
    translateData_folds hcarries (follows_initial mint' model) hrun
  obtain ⟨w', hscan, hconcluded⟩ := hfolds
  have hw : w' = w := by
    rw [scanAll_foldEvent] at hscan
    exact (Option.some.inj hscan).symm
  have hend := hconcluded () hok
  rw [hw] at hend
  refine ⟨hok, m, hm, ?_, ?_, ?_⟩
  · rw [hend.blocks, hall, wholeBlocks_content hbody, hcontent]
  · obtain ⟨r, hr, hwr⟩ := hend.stopReason
    rw [hsplits.finishReason, stopReason_orElse rt hbody.finishReason, hreason] at hr
    rw [hwr, ← Except.ok.inj hr]
  · obtain ⟨u, hu, hwu⟩ := hend.usage
    rw [← usageFromChat_orElse, hsplits.usage, usageFromChat_orElse, husage] at hu
    rw [hwu, ← Except.ok.inj hu]

end agreement

/-! ### A stream and an interleaved one -/

def written (chunk : Entries Unit) : PyStr := (dumps plainRuntime .compact (.dict chunk)).toOption.getD []

/-- A frame of the upstream. -/
def sent (chunk : Entries Unit) : StreamChunk := .str (text "data: " ++ written chunk ++ text "\n\n")

def deltaChunk (delta : Entries Unit) : Entries Unit := [(text "choices", .list [.dict [(text "delta", .dict delta)]])]

def textDelta (t : String) : Entries Unit := [(text "content", .str (text t))]

def callDelta (call : Entries Unit) : Entries Unit := [(text "tool_calls", .list [.dict call])]

/-- A call with its arguments, in a message or a delta. -/
def namedCall (arguments : String) : Entries Unit :=
  [(text "id", .str (text "call_1")),
    (text "function", .dict [(text "name", .str (text "run")), (text "arguments", .str (text arguments))])]

def completion (message : Entries Unit) : Entries Unit :=
  [(text "choices", .list [.dict [(text "message", .dict message), (text "finish_reason", .str (text "tool_calls"))]]),
    (text "usage", .dict [(text "prompt_tokens", .int 7), (text "completion_tokens", .int 3)])]

/-- The reason, and the usage behind it. -/
def closingChunks : List (Entries Unit) :=
  [[(text "choices", .list [.dict [(text "finish_reason", .str (text "tool_calls"))]])],
    [(text "choices", .list []),
      (text "usage", .dict [(text "prompt_tokens", .int 7), (text "completion_tokens", .int 3)])]]

/-- Text, and a tool call in two pieces. -/
def callChunks : List (Entries Unit) :=
  [deltaChunk (textDelta "Hi"), deltaChunk (callDelta (namedCall "\x7b\"a\"")),
    deltaChunk (callDelta [(text "function", .dict [(text "arguments", .str (text ": 1\x7d"))])])] ++ closingChunks

def callBody : Entries Unit :=
  completion [(text "content", .str (text "Hi")), (text "tool_calls", .list [.dict (namedCall "\x7b\"a\": 1\x7d")])]

def callStream : List StreamChunk := callChunks.map sent ++ [.str (text "data: [DONE]\n\n")]

theorem deltaChunk_fields {delta : Entries Unit} (h : DeltaFields delta) : ChunkFields (deltaChunk delta) :=
  ⟨.null, .list fun _ hv => ⟨_, List.mem_singleton.mp hv, .dict h, .null⟩⟩

theorem callDelta_fields {call : Entries Unit} (h : ToolCallFields call) : DeltaFields (callDelta call) :=
  ⟨.null, .list fun _ hv => ⟨_, List.mem_singleton.mp hv, h⟩⟩

theorem namedCall_fields (arguments : String) : ToolCallFields (namedCall arguments) :=
  ⟨.null, .str (isUnicode_text _), .dict ⟨.str (isUnicode_text _), .str (isUnicode_text _)⟩⟩

theorem callStream_carries : Carries plainRuntime (iterSseData [] callStream) callChunks := by
  have hitems : iterSseData [] callStream =
      callChunks.map (fun chunk => .ok (written chunk)) ++ [.ok (text "[DONE]")] := by decide +kernel
  have hpiece : ToolCallFields (F := Unit) [(text "function", .dict [(text "arguments", .str (text ": 1\x7d"))])] :=
    ⟨.null, .null, .dict ⟨.null, .str (isUnicode_text _)⟩⟩
  have husage : UsageFields (F := Unit) [(text "prompt_tokens", .int 7), (text "completion_tokens", .int 3)] :=
    ⟨.int 7, .int 3, .null⟩
  rw [hitems]
  refine .chunk (by decide +kernel) (by decide +kernel) (by decide +kernel)
    (deltaChunk_fields ⟨.str (isUnicode_text "Hi"), .null⟩) ?_
  refine .chunk (by decide +kernel) (by decide +kernel) (by decide +kernel)
    (deltaChunk_fields (callDelta_fields (namedCall_fields _))) ?_
  refine .chunk (by decide +kernel) (by decide +kernel) (by decide +kernel)
    (deltaChunk_fields (callDelta_fields hpiece)) ?_
  refine .chunk (by decide +kernel) (by decide +kernel) (by decide +kernel)
    ⟨.null, .list fun _ hv => ⟨_, List.mem_singleton.mp hv, .null, .str (isUnicode_text _)⟩⟩ ?_
  refine .chunk (by decide +kernel) (by decide +kernel) (by decide +kernel)
    ⟨.dict husage, .list fun _ hv => absurd hv List.not_mem_nil⟩ ?_
  exact .done []

theorem callBody_fields : CompletionFields plainRuntime callBody where
  choices := ⟨[], rfl⟩
  message := by
    have hcall : CallFields plainRuntime (namedCall "\x7b\"a\": 1\x7d") :=
      ⟨(namedCall_fields _).function, (namedCall_fields _).id, by decide, .inr ⟨[(text "a", .int 1)], by decide +kernel⟩⟩
    refine .dict ⟨.str (isUnicode_text "Hi"), rfl, .list fun _ hv => ⟨_, List.mem_singleton.mp hv, hcall⟩⟩
  finishReason := .str (isUnicode_text "tool_calls")
  usage := .dict ⟨.int 7, .int 3, .null⟩

theorem translations_agree_call :
    (translateChatSse plainRuntime (fun _ => []) (text "m") callStream).result = .ok () ∧
    ∃ m, translateChatCompletion plainRuntime (fun _ => []) callBody = .ok m ∧
      (foldEvents (eventsOf (translateChatSse plainRuntime (fun _ => []) (text "m") callStream).yielded)).blocks.mapM
        (FoldedBlock.content plainRuntime) = some m.content ∧
      (foldEvents (eventsOf (translateChatSse plainRuntime (fun _ => []) (text "m") callStream).yielded)).stopReason =
        some m.stopReason ∧
      (foldEvents (eventsOf (translateChatSse plainRuntime (fun _ => []) (text "m") callStream).yielded)).usage =
        some m.usage := by
  refine translations_agree plainRuntime (fun _ => []) (fun _ => []) (text "m") (isUnicode_text _) callBody
    callBody_fields callStream callChunks callStream_carries [text "Hi"]
    [⟨0, text "\x7b\"a\"", [([], [], text ": 1\x7d")]⟩] ?_
  refine ⟨by decide +kernel, by decide +kernel, ?_, .singleton _, by decide +kernel, by decide +kernel⟩
  exact .cons (by decide +kernel) .nil

/-- The call before the text. -/
def interleavedStream : List StreamChunk :=
  ([deltaChunk (callDelta (namedCall "\x7b\"a\": 1\x7d")), deltaChunk (textDelta "Hi")] ++ closingChunks).map sent ++
    [.str (text "data: [DONE]\n\n")]

/-- A stream keeps the order of the upstream, where the whole translation puts the text first. -/
theorem interleaved_text_differs :
    (translateChatCompletion plainRuntime (fun _ => []) callBody).map AnthropicMessage.content =
      .ok [.text (.str (text "Hi")),
        .toolUse (.str (text "call_1")) (.str (text "run")) (.dict [(text "a", .int 1)])] ∧
    (translateChatSse plainRuntime (fun _ => []) (text "m") interleavedStream).result = .ok () ∧
    (foldEvents (eventsOf (translateChatSse plainRuntime (fun _ => []) (text "m") interleavedStream).yielded)).blocks.mapM
        (FoldedBlock.content plainRuntime) =
      some [.toolUse (.str (text "call_1")) (.str (text "run")) (.dict [(text "a", .int 1)]), .text (.str (text "Hi"))] := by
  refine ⟨?_, ?_, ?_⟩
  all_goals decide +kernel

end Experiential.Wire
