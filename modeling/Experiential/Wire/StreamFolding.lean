import Experiential.Wire.ChatChunks
import Experiential.Wire.StreamShape

/-! # Folding a stream

A client puts the content blocks of a message together from the deltas. The chunks of the upstream are put together
here in the same way, without events (`Blocks.part`), and the client ends up with the same blocks
(`translateData_folds`). -/

namespace Experiential.Wire

open Py

variable {F : Type}

/-! ### The client -/

/-- A content block as far as it was put together; the input of a tool use is still a text. -/
inductive FoldedBlock (F : Type) where
  | text (t : PyStr)
  | toolUse (id name : Json F) (json : PyStr)

def FoldedBlock.delta : FoldedBlock F → BlockDelta F → FoldedBlock F
  | .text t, .text d => .text (t ++ textOf d)
  | .toolUse id name json, .inputJson d => .toolUse id name (json ++ textOf d)
  | b, _ => b

def StartedBlock.folded : StartedBlock F → FoldedBlock F
  | .text => .text []
  | .toolUse id name => .toolUse id name []

/-- What a client has read. -/
structure Folded (F : Type) where
  blocks : List (FoldedBlock F)
  stopReason : Option PyStr
  usage : Option AnthropicUsage

namespace Folded

def empty : Folded F := ⟨[], none, none⟩

def read (w : Folded F) : AnthropicEvent F → Folded F
  | .contentBlockStart _ block => { w with blocks := w.blocks ++ [block.folded] }
  | .contentBlockDelta (some i) delta => { w with blocks := w.blocks.modify i (fun b => b.delta delta) }
  | .messageDelta reason usage => { w with stopReason := some reason, usage := some usage }
  | _ => w

end Folded

/-- Read all events of a stream. -/
def foldEvents (es : List (AnthropicEvent F)) : Folded F := es.foldl Folded.read .empty

/-- The content block that was put together, where its input is JSON; no text is an empty object. -/
def FoldedBlock.content (rt : Runtime F) : FoldedBlock F → Option (ContentBlock F)
  | .text t => some (.text (.str t))
  | .toolUse id name json =>
      if json = [] then some (.toolUse id name (.dict []))
      else match loads rt json with
        | .ok v => some (.toolUse id name v)
        | .error _ => none

/-! ### The parts of a chunk -/

/-- A piece of text, or of a tool call. -/
inductive Part where
  | text (t : PyStr)
  | tool (index : Int) (id name arguments : PyStr)
deriving DecidableEq

/-- What kind of block takes the part. -/
inductive PartKind where
  | text
  | tool (index : Int)
deriving DecidableEq

def Part.kind : Part → PartKind
  | .text _ => .text
  | .tool index _ _ _ => .tool index

/-- The block that is started for a part. -/
def Part.start : Part → FoldedBlock F
  | .text _ => .text []
  | .tool _ id name _ => .toolUse (.str id) (.str name) []

def FoldedBlock.add : FoldedBlock F → Part → FoldedBlock F
  | .text t, .text u => .text (t ++ u)
  | .toolUse id name json, .tool _ _ _ arguments => .toolUse id name (json ++ arguments)
  | b, _ => b

def functionEntries (call : Entries F) : Entries F := dictOf (fieldOf call "function")

def partOfCall (call : Entries F) : Part :=
  .tool (countOf (fieldOf call "index")) (textOf (fieldOf call "id")) (textOf (fieldOf (functionEntries call) "name"))
    (textOf (fieldOf (functionEntries call) "arguments"))

/-- The text of a delta. -/
def partsOfContent (content : Json F) : List Part := if textOf content = [] then [] else [.text (textOf content)]

def partsOfDelta (delta : Entries F) : List Part :=
  partsOfContent (fieldOf delta "content") ++ (dictsOf (fieldOf delta "tool_calls")).map partOfCall

/-- The first choice of a chunk. -/
def firstChoice (chunk : Entries F) : Entries F := (dictsOf (fieldOf chunk "choices")).headD []

def partsOf (chunk : Entries F) : List Part := partsOfDelta (dictOf (fieldOf (firstChoice chunk) "delta"))

def finishReasonOf (chunk : Entries F) : Json F := fieldOf (firstChoice chunk) "finish_reason"

/-! ### Putting parts together -/

/-- The blocks so far, and the one that is open with its kind. -/
structure Blocks (F : Type) where
  closed : List (FoldedBlock F)
  last : Option (PartKind × FoldedBlock F)

namespace Blocks

def all (b : Blocks F) : List (FoldedBlock F) := b.closed ++ (b.last.map Prod.snd).toList

/-- Have a block open that takes the part; a tool use has an identifier. -/
def ready (b : Blocks F) (p : Part) : Option (Blocks F) :=
  if b.last.map Prod.fst = some p.kind then some b
  else match p with
    | .tool _ [] _ _ => none
    | _ => some ⟨b.all, some (p.kind, p.start)⟩

def add (b : Blocks F) (p : Part) : Blocks F := { b with last := b.last.map fun l => (l.1, l.2.add p) }

def part (b : Blocks F) (p : Part) : Option (Blocks F) := (b.ready p).map fun b => b.add p

end Blocks

/-! ### The client follows the translator -/

def PartKind.blockKind : PartKind → BlockKind
  | .text => .text
  | .tool _ => .tool

def PartKind.tool? : PartKind → Option Int
  | .text => none
  | .tool index => some index

/-- The client has the blocks, and the state has the last of them open. -/
structure Follows (s : StreamState F) (w : Folded F) (b : Blocks F) (reason usage : Json F) : Prop where
  blocks : w.blocks = b.all
  next : s.nextBlockIndex = b.all.length
  openBlock : s.openBlock = b.last.map fun _ => b.closed.length
  openKind : s.openKind = b.last.map fun l => l.1.blockKind
  openToolFor : s.openToolFor = b.last.bind fun l => l.1.tool?
  finishReason : s.finishReason = reason
  usage : s.usage = usage

def foldEvent (w : Folded F) (m : Emitted F) : Option (Folded F) := some (w.read m.event)

section follows
variable {rt : Runtime F} {mint : Nat → List Char} {s s' : StreamState F} {w : Folded F} {b b' : Blocks F}
  {reason usage : Json F} {p : Part}

theorem modify_length {α : Type} (f : α → α) (a : α) : ∀ l : List α, (l ++ [a]).modify l.length f = l ++ [f a]
  | [] => rfl
  | _ :: l => congrArg _ (modify_length f a l)

theorem Follows.sound (h : Follows s w b reason usage) : s.Sound := by
  refine ⟨?_, fun i hi => ?_⟩
  · rw [h.openKind, h.openBlock]
    cases b.last <;> rfl
  · have hopen := h.openBlock
    rw [hi] at hopen
    rw [h.next, Blocks.all]
    cases hlast : b.last with
    | none =>
        rw [hlast] at hopen
        cases hopen
    | some l =>
        rw [hlast] at hopen
        cases hopen
        simp

theorem Follows.kind_text (h : Follows s w b reason usage) :
    s.openKind = some .text ↔ b.last.map Prod.fst = some .text := by
  rw [h.openKind]
  cases b.last with
  | none => simp
  | some l => cases hkind : l.1 <;> simp [PartKind.blockKind, hkind]

theorem Follows.kind_tool (h : Follows s w b reason usage) (index : Int) :
    s.openKind = some .tool ∧ s.openToolFor = some index ↔ b.last.map Prod.fst = some (.tool index) := by
  rw [h.openKind, h.openToolFor]
  cases b.last with
  | none => simp
  | some l => cases hkind : l.1 <;> simp [PartKind.blockKind, PartKind.tool?, hkind]

theorem Follows.opened (h : Follows s w b reason usage) (kind : PartKind)
    (hopened : StreamState.Opened s s' kind.blockKind kind.tool?) (start : FoldedBlock F) :
    Follows s' { w with blocks := w.blocks ++ [start] } ⟨b.all, some (kind, start)⟩ reason usage where
  blocks := by rw [h.blocks]; rfl
  next := by
    have hnext := h.next
    rw [hopened.next]
    simp only [Blocks.all, List.length_append] at hnext ⊢
    simp only [Option.map_some, Option.toList_some, List.length_singleton]
    omega
  openBlock := by rw [hopened.openBlock, h.next]; rfl
  openKind := hopened.openKind
  openToolFor := hopened.openToolFor
  finishReason := hopened.finishReason.trans h.finishReason
  usage := hopened.usage.trans h.usage

theorem Follows.delta (h : Follows s w b reason usage) {delta : BlockDelta F}
    (hsome : (b.last.map Prod.fst).isSome = true) (hadd : ∀ block : FoldedBlock F, block.delta delta = block.add p) :
    Follows s (w.read (.contentBlockDelta s.openBlock delta)) (b.add p) reason usage := by
  obtain ⟨closed, _ | ⟨kind, block⟩⟩ := b
  · cases hsome
  · have hopen : s.openBlock = some closed.length := h.openBlock
    have hblocks : w.blocks = closed ++ [block] := h.blocks
    refine ⟨?_, ?_, h.openBlock, h.openKind, h.openToolFor, h.finishReason, h.usage⟩
    · rw [hopen]
      show w.blocks.modify closed.length _ = closed ++ [block.add p]
      rw [hblocks, modify_length, hadd]
    · rw [h.next]
      simp [Blocks.all, Blocks.add]

theorem Blocks.add_nothing (b : Blocks F) (index : Int) (id name : PyStr) : b.add (.tool index id name []) = b := by
  obtain ⟨closed, _ | ⟨kind, block⟩⟩ := b
  · rfl
  · cases block with
    | text t => rfl
    | toolUse id name json => simp [Blocks.add, FoldedBlock.add]

theorem Blocks.ready_open (h : b.last.map Prod.fst = some p.kind) : b.ready p = some b := if_pos h

/-- Another block is started, unless it is a tool use without an identifier. -/
theorem Blocks.ready_start (hkind : ¬ b.last.map Prod.fst = some p.kind) (h : b.ready p = some b') :
    b' = ⟨b.all, some (p.kind, p.start)⟩ ∧ ∀ index id name arguments, p = .tool index id name arguments → id ≠ [] := by
  unfold ready at h
  rw [if_neg hkind] at h
  split at h
  · cases h
  · next hid =>
    refine ⟨(Option.some.inj h).symm, ?_⟩
    rintro index id name arguments rfl rfl
    exact hid index name arguments rfl

theorem Blocks.ready_kind (h : b.ready p = some b') : b'.last.map Prod.fst = some p.kind := by
  by_cases hkind : b.last.map Prod.fst = some p.kind
  · cases (ready_open hkind).symm.trans h
    exact hkind
  · rw [(ready_start hkind h).1]
    rfl

/-! ### Events -/

theorem yieldEvent_folds (e : AnthropicEvent F) :
    Gen.Scans foldEvent w (yieldEvent rt e) (fun w' _ => w' = w.read e) := by
  refine .bind (Q := fun w' m => w' = w ∧ m.event = e) (.ofExcept fun m hm => ⟨rfl, StreamState.event_eq_ok hm⟩) ?_
  rintro w' m ⟨rfl, hm⟩
  have hread : foldEvent w' m = some (w'.read e) := by rw [foldEvent, hm]
  exact .yield hread rfl

theorem yieldChange_folds {x : Except PyError (List (Emitted F) × StreamState F)} {Q : Folded F → StreamState F → Prop}
    (hx : ∀ ms s', x = .ok (ms, s') → ∃ w', scanAll foldEvent w ms = some w' ∧ Q w' s') :
    Gen.Scans foldEvent w (yieldChange x) Q := by
  refine .bind (Q := fun w' r => w' = w ∧ x = .ok r) (.ofExcept fun r hr => ⟨rfl, hr⟩) ?_
  rintro w' ⟨ms, s'⟩ ⟨rfl, hr⟩
  obtain ⟨w'', hscan, hQ⟩ := hx ms s' hr
  exact .bind (Q := fun v _ => v = w'') (.yieldAll hscan rfl) fun v _ hv => .pure (hv ▸ hQ)

theorem find_folds {α : Type} (x : Except PyError α) :
    Gen.Scans foldEvent w (Gen.ofExcept x : EventGen F α) (fun w' a => w' = w ∧ x = .ok a) :=
  .ofExcept fun _ ha => ⟨rfl, ha⟩

variable {ms : List (Emitted F)}

theorem closeBlock_folds (h : s.closeBlock rt = .ok (ms, s')) : scanAll foldEvent w ms = some w := by
  unfold StreamState.closeBlock at h
  split at h
  · cases h
    rfl
  · simp only [bind_eq_ok, pure_eq_ok, Prod.mk.injEq] at h
    obtain ⟨stop, hstop, rfl, -⟩ := h
    rw [scanAll, foldEvent, StreamState.event_eq_ok hstop]
    rfl

theorem started_folds {closed : StreamState F} (hclose : s.closeBlock rt = .ok (ms, closed))
    {start : Emitted F} {index : Nat} {block : StartedBlock F}
    (hstart : event rt (.contentBlockStart index block) = .ok start) :
    scanAll foldEvent w (ms ++ [start]) = some { w with blocks := w.blocks ++ [block.folded] } := by
  rw [scanAll_append, closeBlock_folds hclose, Option.bind_some, scanAll, foldEvent, StreamState.event_eq_ok hstart]
  rfl

theorem openTextBlock_folds (h : s.openTextBlock rt = .ok (ms, s')) :
    scanAll foldEvent w ms = some { w with blocks := w.blocks ++ [.text []] } := by
  simp only [StreamState.openTextBlock, bind_eq_ok, pure_eq_ok, Prod.mk.injEq] at h
  obtain ⟨⟨stops, closed⟩, hclose, start, hstart, rfl, -⟩ := h
  exact started_folds hclose hstart

theorem IsText.orElse_nil {v : Json F} (h : IsText v) : v.orElse rt (.str []) = .str (textOf v) := by
  cases h with
  | null => rfl
  | @str t ht => cases t <;> rfl

theorem IsText.eq_str {v : Json F} (h : IsText v) (hne : textOf v ≠ []) : v = .str (textOf v) := by
  cases h with
  | null => exact absurd rfl hne
  | str ht => rfl

variable {call : Entries F}

theorem idOrMint_given (h : IsText (fieldOf call "id")) (hid : textOf (fieldOf call "id") ≠ [])
    (minted : Nat) : idOrMint rt mint minted (.dict call) = .ok (.str (textOf (fieldOf call "id")), minted) := by
  have htruthy : (fieldOf call "id").truthy rt = true := by simp [h.truthy_eq, hid]
  have hgiven : idOrMint rt mint minted (.dict call) = .ok (fieldOf call "id", minted) := by
    simp only [idOrMint, get_dict, bind_eq_ok, pure_eq_ok, Except.ok.injEq, exists_eq_left', htruthy, if_true]
  rw [hgiven, ← h.eq_str hid]

theorem functionFields (h : ToolCallFields call) : FunctionFields (functionEntries call) :=
  functionFields_dictOf h.function

theorem openToolBlock_folds {openaiIndex : Int} (hcall : ToolCallFields call)
    (hid : textOf (fieldOf call "id") ≠ []) (h : s.openToolBlock rt mint openaiIndex (.dict call) = .ok (ms, s')) :
    scanAll foldEvent w ms = some { w with blocks := w.blocks ++ [(partOfCall call).start] } := by
  simp only [StreamState.openToolBlock, bind_eq_ok, pure_eq_ok, Prod.mk.injEq] at h
  obtain ⟨⟨stops, closed⟩, hclose, function, hfunction, ⟨id, minted⟩, hmint, name, hname, start, hstart, rfl, -⟩ := h
  obtain ⟨_, hfound, rfl⟩ := functionOf_succeeds rt hcall.function
  cases hfunction.symm.trans hfound
  cases hmint.symm.trans (idOrMint_given hcall.id hid closed.minted)
  cases hname.symm.trans (get_dict (functionEntries call) "name")
  rw [(functionFields hcall).name.orElse_nil] at hstart
  exact started_folds hclose hstart

/-! ### Chunks -/

theorem countAt_eq {entries : Entries F} {k : String} (h : IsCount (fieldOf entries k)) :
    countAt rt (.dict entries) k = .ok (countOf (fieldOf entries k)) := by
  unfold countAt
  rw [get_dict]
  revert h
  generalize fieldOf entries k = v
  intro h
  cases h with
  | null => rfl
  | int n =>
      show ((Json.int n).orElse rt (.int 0)).toInt rt = .ok n
      by_cases hzero : n = 0
      · rw [hzero]
        rfl
      · simp [Json.orElse, Json.truthy, hzero, Json.toInt]

theorem textBlock_folds (h : Follows s w b reason usage) {t : PyStr} (hready : b.ready (.text t) = some b') :
    Gen.Scans foldEvent w (textBlock rt s) (fun w' s' => Follows s' w' b' reason usage) := by
  unfold textBlock
  split_ifs with hkind
  · obtain ⟨rfl, -⟩ := Blocks.ready_start (fun hlast => hkind (h.kind_text.mpr hlast)) hready
    refine yieldChange_folds fun ms s' hopen => ?_
    obtain ⟨-, hopened⟩ := StreamState.openTextBlock_scans h.sound hopen
    exact ⟨_, openTextBlock_folds hopen, h.opened .text hopened _⟩
  · have hlast : b.last.map Prod.fst = some (Part.text t).kind := h.kind_text.mp (not_not.mp hkind)
    cases (Blocks.ready_open hlast).symm.trans hready
    exact .pure h

theorem toolBlock_folds (h : Follows s w b reason usage) (hcall : ToolCallFields call)
    (hready : b.ready (partOfCall call) = some b') :
    Gen.Scans foldEvent w (toolBlock rt mint s (countOf (fieldOf call "index")) (.dict call))
      (fun w' s' => Follows s' w' b' reason usage) := by
  have hkinds := h.kind_tool (countOf (fieldOf call "index"))
  unfold toolBlock
  split_ifs with hother
  · have hkind : ¬ b.last.map Prod.fst = some (partOfCall call).kind := by
      intro hlast
      obtain ⟨hkind, hindex⟩ := hkinds.mpr hlast
      exact hother.elim (fun h => h hkind) (fun h => h hindex)
    obtain ⟨rfl, hid⟩ := Blocks.ready_start hkind hready
    refine yieldChange_folds fun ms s' hopen => ?_
    obtain ⟨-, hopened⟩ := StreamState.openToolBlock_scans h.sound hopen
    exact ⟨_, openToolBlock_folds hcall (hid _ _ _ _ rfl) hopen,
      h.opened (.tool (countOf (fieldOf call "index"))) hopened _⟩
  · obtain ⟨hkind, hindex⟩ := not_or.mp hother
    have hlast : b.last.map Prod.fst = some (partOfCall call).kind :=
      hkinds.mp ⟨not_not.mp hkind, not_not.mp hindex⟩
    cases (Blocks.ready_open hlast).symm.trans hready
    exact .pure h

theorem onContent_folds (h : Follows s w b reason usage) {content : Json F} (htext : IsText content)
    (hparts : (partsOfContent content).foldlM Blocks.part b = some b') :
    Gen.Scans foldEvent w (onContent rt s content) (fun w' s' => Follows s' w' b' reason usage) := by
  unfold onContent
  rw [htext.truthy_eq]
  unfold partsOfContent at hparts
  cases hempty : (textOf content).isEmpty with
  | true =>
      rw [if_pos (List.isEmpty_iff.mp hempty)] at hparts
      cases hparts
      exact .pure h
  | false =>
      rw [if_neg (by simpa using hempty)] at hparts
      simp only [List.foldlM_cons, List.foldlM_nil, Blocks.part, Option.bind_eq_bind, Option.bind_eq_some_iff,
        Option.map_eq_some_iff, Option.pure_def, Option.some.injEq] at hparts
      obtain ⟨_, ⟨ready, hready, rfl⟩, rfl⟩ := hparts
      refine .bind (textBlock_folds h hready) fun w' s' h' => ?_
      have hsome : (ready.last.map Prod.fst).isSome = true := by rw [Blocks.ready_kind hready]; rfl
      refine .bind (yieldEvent_folds _) fun w'' _ hw => .pure ?_
      rw [hw]
      exact h'.delta hsome fun block => by cases block <;> rfl

theorem onToolCall_folds (h : Follows s w b reason usage) (hcall : ToolCallFields call)
    (hpart : b.part (partOfCall call) = some b') :
    Gen.Scans foldEvent w (onToolCall rt mint s (.dict call)) (fun w' s' => Follows s' w' b' reason usage) := by
  obtain ⟨ready, hready, rfl⟩ := Option.map_eq_some_iff.mp hpart
  have hsome : (ready.last.map Prod.fst).isSome = true := by rw [Blocks.ready_kind hready]; rfl
  have harguments := (functionFields hcall).arguments
  unfold onToolCall
  refine .bind (find_folds _) ?_
  rintro w₁ openaiIndex ⟨rfl, hindex⟩
  cases hindex.symm.trans (countAt_eq hcall.index)
  refine .bind (toolBlock_folds h hcall hready) fun w' s' h' => ?_
  refine .bind (find_folds _) ?_
  rintro w₂ function ⟨rfl, hfunction⟩
  obtain ⟨_, hfound, rfl⟩ := functionOf_succeeds rt hcall.function
  cases hfunction.symm.trans hfound
  refine .bind (find_folds _) ?_
  rintro w₃ arguments ⟨rfl, hget⟩
  cases hget.symm.trans (get_dict (functionEntries call) "arguments")
  refine .bind (Q := fun w'' _ => Follows s' w'' (ready.add (partOfCall call)) reason usage) ?_ fun _ _ h'' => .pure h''
  unfold yieldArguments
  rw [harguments.truthy_eq]
  cases hempty : (textOf (fieldOf (functionEntries call) "arguments")).isEmpty with
  | true =>
      have hnothing : ready.add (partOfCall call) = ready := by
        rw [partOfCall, List.isEmpty_iff.mp hempty]
        exact ready.add_nothing _ _ _
      rw [hnothing]
      exact .pure h'
  | false =>
      refine (yieldEvent_folds _).mono fun w'' _ hw => ?_
      rw [hw]
      exact h'.delta hsome fun block => by cases block <;> rfl

theorem onToolCalls_folds : ∀ {calls : List (Entries F)} {s : StreamState F} {w : Folded F} {b : Blocks F},
    Follows s w b reason usage → (∀ call ∈ calls, ToolCallFields call) →
    (calls.map partOfCall).foldlM Blocks.part b = some b' →
    Gen.Scans foldEvent w (onToolCalls rt mint s (calls.map .dict)) (fun w' s' => Follows s' w' b' reason usage)
  | [], _, _, _, h, _, hparts => by
      cases hparts
      exact .pure h
  | call :: calls, _, _, b, h, hcalls, hparts => by
      obtain ⟨b₁, hpart, hrest⟩ := Option.bind_eq_some_iff.mp hparts
      refine .bind (onToolCall_folds h (hcalls call List.mem_cons_self) hpart) fun w' s' h' => ?_
      exact onToolCalls_folds h' (fun c hc => hcalls c (List.mem_cons_of_mem _ hc)) hrest

theorem onChoice_folds (h : Follows s w b reason usage) {choice : Entries F} (hchoice : ChoiceFields choice)
    (hparts : (partsOfDelta (dictOf (fieldOf choice "delta"))).foldlM Blocks.part b = some b') :
    Gen.Scans foldEvent w (onChoice rt mint s (.dict choice))
      (fun w' s' => Follows s' w' b' ((fieldOf choice "finish_reason").orElse rt reason) usage) := by
  have hdelta := deltaFields_dictOf hchoice.delta
  rw [partsOfDelta, List.foldlM_append] at hparts
  obtain ⟨b₁, hcontent, hcalls⟩ := Option.bind_eq_some_iff.mp hparts
  unfold onChoice
  refine .bind (find_folds _) ?_
  rintro w₁ delta ⟨rfl, hfound⟩
  cases hfound.symm.trans (get_dict choice "delta")
  simp only [hchoice.delta.orElse_empty]
  refine .bind (find_folds _) ?_
  rintro w₂ reason' ⟨rfl, hfound⟩
  cases hfound.symm.trans (get_dict choice "finish_reason")
  refine .bind (find_folds _) ?_
  rintro w₃ content ⟨rfl, hfound⟩
  cases hfound.symm.trans (get_dict (dictOf (fieldOf choice "delta")) "content")
  have hreason : Follows { s with finishReason := (fieldOf choice "finish_reason").orElse rt s.finishReason } w₃ b
      ((fieldOf choice "finish_reason").orElse rt reason) usage := by
    rw [h.finishReason]
    exact ⟨h.blocks, h.next, h.openBlock, h.openKind, h.openToolFor, rfl, h.usage⟩
  refine .bind (onContent_folds hreason hdelta.content hcontent) fun w' s' h' => ?_
  refine .bind (find_folds _) ?_
  rintro w₄ calls ⟨rfl, hfound⟩
  cases hfound.symm.trans (get_dict (dictOf (fieldOf choice "delta")) "tool_calls")
  rw [hdelta.toolCalls.orElse_empty]
  refine .bind (find_folds _) ?_
  rintro w₅ calls ⟨rfl, hfound⟩
  cases hfound
  exact onToolCalls_folds h' (fun _ hcall => hdelta.toolCalls.of_mem hcall) hcalls

theorem onFrame_folds (h : Follows s w b reason usage) {chunk : Entries F} (hchunk : ChunkFields chunk)
    (hparts : (partsOf chunk).foldlM Blocks.part b = some b') :
    Gen.Scans foldEvent w (onFrame rt mint s (.dict chunk))
      (fun w' s' => Follows s' w' b' ((finishReasonOf chunk).orElse rt reason) ((fieldOf chunk "usage").orElse rt usage)) := by
  unfold onFrame
  refine .bind (find_folds _) ?_
  rintro w₁ usage' ⟨rfl, hfound⟩
  cases hfound.symm.trans (get_dict chunk "usage")
  refine .bind (find_folds _) ?_
  rintro w₂ choices ⟨rfl, hfound⟩
  cases hfound.symm.trans (get_dict chunk "choices")
  have husage : Follows { s with usage := (fieldOf chunk "usage").orElse rt s.usage } w₂ b reason
      ((fieldOf chunk "usage").orElse rt usage) := by
    rw [h.usage]
    exact ⟨h.blocks, h.next, h.openBlock, h.openKind, h.openToolFor, h.finishReason, rfl⟩
  dsimp only
  rw [hchunk.choices.orElse_empty]
  unfold partsOf at hparts
  unfold finishReasonOf
  unfold firstChoice at hparts ⊢
  cases hchoices : dictsOf (fieldOf chunk "choices") with
  | nil =>
      rw [hchoices] at hparts
      cases hparts
      exact .pure husage
  | cons choice rest =>
      rw [hchoices] at hparts
      refine .bind (find_folds _) ?_
      rintro w₃ v ⟨rfl, hfirst⟩
      cases hfirst
      exact onChoice_folds husage (hchunk.choices.of_mem (by simp [hchoices])) hparts

/-! ### Streams -/

/-- The data carries these chunks, up to the terminal mark. -/
inductive Carries (rt : Runtime F) : List (Except PyError PyStr) → List (Entries F) → Prop where
  | done (rest : List (Except PyError PyStr)) : Carries rt (.ok (text "[DONE]") :: rest) []
  | malformed {data : PyStr} {e : PyError} {rest : List (Except PyError PyStr)} {chunks : List (Entries F)}
      (hdata : data ≠ text "[DONE]") (h : loads rt data = .error e) (he : e.isValueError = true)
      (hrest : Carries rt rest chunks) : Carries rt (.ok data :: rest) chunks
  | noDict {data : PyStr} {v : Json F} {rest : List (Except PyError PyStr)} {chunks : List (Entries F)}
      (hdata : data ≠ text "[DONE]") (h : loads rt data = .ok v) (hv : ∀ entries, v ≠ .dict entries)
      (hrest : Carries rt rest chunks) : Carries rt (.ok data :: rest) chunks
  | chunk {data : PyStr} {chunk : Entries F} {rest : List (Except PyError PyStr)} {chunks : List (Entries F)}
      (hdata : data ≠ text "[DONE]") (h : loads rt data = .ok (.dict chunk))
      (herror : text "error" ∉ chunk.map Prod.fst) (hfields : ChunkFields chunk) (hrest : Carries rt rest chunks) :
      Carries rt (.ok data :: rest) (chunk :: chunks)

theorem Carries.chatData {items : List (Except PyError PyStr)} {chunks : List (Entries F)} (h : Carries rt items chunks) :
    ChatData rt items := by
  induction h with
  | done rest => exact .done rest
  | malformed _ h he _ ih => exact .malformed h he ih
  | noDict _ h hv _ ih => exact .noDict h hv ih
  | chunk _ h herror hfields _ ih => exact .chunk h herror hfields ih

/-- The last value that is given. -/
def lastOf (rt : Runtime F) (v : Json F) (vs : List (Json F)) : Json F := vs.foldl (fun v v' => v'.orElse rt v) v

/-- What a client has at the end: the blocks, and what the translator makes of the reason and the usage. -/
structure Concluded (rt : Runtime F) (w : Folded F) (b : Blocks F) (reason usage : Json F) : Prop where
  blocks : w.blocks = b.all
  stopReason : ∃ r, Wire.stopReason (reason.orElse rt (.str [])) = .ok r ∧ w.stopReason = some r
  usage : ∃ u, usageFromChat rt usage = .ok u ∧ w.usage = some u

theorem yieldStart_folds (h : Follows s w b reason usage) (started : Bool) :
    Gen.Scans foldEvent w (yieldStart rt started s) (fun w' _ => Follows s w' b reason usage) := by
  unfold yieldStart
  split_ifs
  · exact .pure h
  · exact (yieldEvent_folds (.messageStart s.messageId s.model)).mono fun w' _ hw => hw ▸ h

theorem yieldStartPing_folds (h : Follows s w b reason usage) (started : Bool) :
    Gen.Scans foldEvent w (yieldStartPing rt started s) (fun w' _ => Follows s w' b reason usage) := by
  unfold yieldStartPing
  split_ifs
  · exact .pure h
  · refine .bind (yieldStart_folds h false) fun w' _ h' => ?_
    exact (yieldEvent_folds .ping).mono fun w'' _ hw => hw ▸ h'

theorem finale_folds (h : Follows s w b reason usage) (hms : finale rt s = .ok ms) :
    ∃ w', scanAll foldEvent w ms = some w' ∧ Concluded rt w' b reason usage := by
  simp only [finale, bind_eq_ok, pure_eq_ok] at hms
  obtain ⟨⟨stops, closed⟩, hclose, u, husage, r, hreason, delta, hdelta, stop, hstop, rfl⟩ := hms
  have hclosed := (StreamState.closeBlock_scans h.sound hclose).2
  have hfinish : closed.finishReason = reason := by
    rw [hclosed]
    exact h.finishReason
  have hlast : closed.usage = usage := by
    rw [hclosed]
    exact h.usage
  refine ⟨{ w with stopReason := some r, usage := some u }, ?_, h.blocks, ⟨r, hfinish ▸ hreason, rfl⟩,
    ⟨u, hlast ▸ husage, rfl⟩⟩
  rw [scanAll_append, closeBlock_folds hclose, Option.bind_some, scanAll, foldEvent, StreamState.event_eq_ok hdelta,
    Option.bind_some, scanAll, foldEvent, StreamState.event_eq_ok hstop]
  rfl

theorem conclude_folds (h : Follows s w b reason usage) (started : Bool) :
    Gen.Scans foldEvent w (conclude rt started true s) (fun w' _ => Concluded rt w' b reason usage) := by
  refine .bind (yieldStart_folds h started) fun w' _ h' => ?_
  refine .bind (find_folds _) ?_
  rintro w₁ ms ⟨rfl, hms⟩
  obtain ⟨w', hscan, hconcluded⟩ := finale_folds h' hms
  exact .yieldAll hscan hconcluded

/-- **The run.**  A client ends up with the blocks that the parts of the chunks make. -/
theorem translateData_folds {items : List (Except PyError PyStr)} {chunks : List (Entries F)}
    (hcarries : Carries rt items chunks) : ∀ {started : Bool} {s : StreamState F} {w : Folded F} {b : Blocks F}
      {reason usage : Json F}, Follows s w b reason usage → (chunks.flatMap partsOf).foldlM Blocks.part b = some b' →
      Gen.Scans foldEvent w (translateData rt mint started s items) (fun w' _ => Concluded rt w' b'
        (lastOf rt reason (chunks.map finishReasonOf)) (lastOf rt usage (chunks.map (fieldOf · "usage")))) := by
  induction hcarries with
  | done rest =>
      intro started s w b reason usage h hparts
      cases hparts
      unfold translateData
      rw [if_pos rfl]
      exact conclude_folds h started
  | malformed hdata hloads he _ ih =>
      intro started s w b reason usage h hparts
      unfold translateData
      rw [if_neg hdata, hloads]
      simp only [he, if_true]
      exact ih h hparts
  | @noDict data v rest chunks hdata hloads hv _ ih =>
      intro started s w b reason usage h hparts
      unfold translateData
      rw [if_neg hdata, hloads]
      split
      · next h => cases h
      · next frame h => exact absurd (Except.ok.inj h) (hv frame)
      · exact ih h hparts
  | @chunk data chunk rest chunks hdata hloads herror hfields _ ih =>
      intro started s w b reason usage h hparts
      rw [List.flatMap_cons, List.foldlM_append] at hparts
      obtain ⟨b₁, hchunk, hrest⟩ := Option.bind_eq_some_iff.mp hparts
      unfold translateData
      rw [if_neg hdata, hloads]
      simp only [herror, if_false]
      refine .bind (yieldStartPing_folds h started) fun w₁ _ h₁ => ?_
      exact .bind (onFrame_folds h₁ hfields hchunk) fun w₂ s₂ h₂ => ih h₂ hrest

end follows

end Experiential.Wire
