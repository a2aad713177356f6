import Experiential.Wire.ChatChunks
import Experiential.Wire.StreamShape

/-! # Well-formed streams

What a client relies on, said of the events of a stream and its beginnings: it starts once, numbers its blocks from
zero, has one block open at a time, names it in every delta, and ends in one terminal event. What the scanner accepts
is such a stream (`wellFormed_of_read`), so what the translator yields is (`translated_stream`). -/

namespace Experiential.Wire

open Py

variable {F : Type}

namespace AnthropicEvent

def IsStart : AnthropicEvent F → Prop
  | .messageStart _ _ => True
  | _ => False

/-- Behind a terminal event there is nothing. -/
def Terminal : AnthropicEvent F → Prop
  | .messageStop => True
  | .error _ => True
  | _ => False

/-- The blocks that are open behind an event. -/
def track (blocks : List Nat) : AnthropicEvent F → List Nat
  | .contentBlockStart index _ => blocks ++ [index]
  | .contentBlockStop index => blocks.erase index
  | _ => blocks

/-- The block that an event starts. -/
def started? : AnthropicEvent F → Option Nat
  | .contentBlockStart index _ => some index
  | _ => none

end AnthropicEvent

/-- The blocks that were started and not stopped. -/
def openBlocks (es : List (AnthropicEvent F)) : List Nat := es.foldl AnthropicEvent.track []

/-- The blocks that were started, in their order. -/
def startedBlocks (es : List (AnthropicEvent F)) : List Nat := es.filterMap AnthropicEvent.started?

theorem openBlocks_snoc (es : List (AnthropicEvent F)) (e : AnthropicEvent F) :
    openBlocks (es ++ [e]) = e.track (openBlocks es) := by
  rw [openBlocks, List.foldl_append]
  rfl

theorem startedBlocks_snoc (es : List (AnthropicEvent F)) (e : AnthropicEvent F) :
    startedBlocks (es ++ [e]) = startedBlocks es ++ e.started?.toList := by
  cases e <;> simp [startedBlocks, AnthropicEvent.started?]

/-- A beginning of a stream. -/
structure WellBegun (es : List (AnthropicEvent F)) : Prop where
  /-- The start is the first event and the only start. -/
  start : ∀ e rest, es = e :: rest → e.IsStart ∧ ∀ e ∈ rest, ¬ e.IsStart
  indices : startedBlocks es = List.range (startedBlocks es).length
  oneOpen : ∀ p, p <+: es → (openBlocks p).length ≤ 1
  /-- A delta names the block that is open. -/
  deltas : ∀ p index delta, p ++ [.contentBlockDelta index delta] <+: es → ∃ i, index = some i ∧ openBlocks p = [i]
  /-- Where the message is stopped, every block that was started was stopped. -/
  closed : ∀ p, p ++ [.messageStop] <+: es → openBlocks p = []
  /-- Nothing follows a terminal event. -/
  terminal : ∀ p e, p ++ [e] <+: es → ∀ e' ∈ p, ¬ e'.Terminal

/-- A whole stream. -/
structure WellFormed (es : List (AnthropicEvent F)) : Prop extends WellBegun es where
  ends : ∃ p e, es = p ++ [e] ∧ e.Terminal

/-! ### What the scanner read -/

/-- A message that goes on: `n` blocks were started, and these are open. -/
structure Body (es : List (AnthropicEvent F)) (n : Nat) (blocks : List Nat) : Prop where
  start : ∃ e rest, es = e :: rest ∧ e.IsStart ∧ ∀ e ∈ rest, ¬ e.IsStart
  indices : startedBlocks es = List.range n
  openBlocks : openBlocks es = blocks
  live : ∀ e ∈ es, ¬ e.Terminal

/-- What was read where the scanner stands. -/
def StreamShape.Reads (es : List (AnthropicEvent F)) : StreamShape → Prop
  | .fresh => es = []
  | .between n => Body es n []
  | .inside n _ => Body es (n + 1) [n]
  | .closing => ∃ n, Body es n []
  | .finished => ∃ p e n blocks, es = p ++ [e] ∧ Body p n blocks ∧ blocks.length ≤ 1 ∧
      ((e = .messageStop ∧ blocks = []) ∨ ∃ error, e = .error error)

variable {es : List (AnthropicEvent F)} {e : AnthropicEvent F} {n : Nat} {blocks : List Nat} {shape shape' : StreamShape}

theorem Body.snoc (h : Body es n blocks) (hstart : ¬ e.IsStart) (hterminal : ¬ e.Terminal) {m : Nat} {blocks' : List Nat}
    (hm : List.range n ++ e.started?.toList = List.range m) (hblocks : e.track blocks = blocks') :
    Body (es ++ [e]) m blocks' := by
  obtain ⟨e₀, rest, rfl, h₀, hrest⟩ := h.start
  refine ⟨⟨e₀, rest ++ [e], rfl, h₀, ?_⟩, ?_, ?_, ?_⟩
  · intro e' he'
    cases List.mem_append.mp he' with
    | inl he' => exact hrest e' he'
    | inr he' => exact List.mem_singleton.mp he' ▸ hstart
  · rw [startedBlocks_snoc, h.indices, hm]
  · rw [openBlocks_snoc, h.openBlocks, hblocks]
  · intro e' he'
    cases List.mem_append.mp he' with
    | inl he' => exact h.live e' he'
    | inr he' => exact List.mem_singleton.mp he' ▸ hterminal

theorem Body.first (e : AnthropicEvent F) (h : e.IsStart) : Body [e] 0 [] := by
  cases e with
  | messageStart id model =>
      refine ⟨⟨_, [], rfl, trivial, fun _ h => nomatch h⟩, rfl, rfl, fun e' he' => ?_⟩
      rw [List.mem_singleton.mp he']
      exact fun h => h
  | _ => exact h.elim

theorem StreamShape.Reads.step (h : shape.Reads es) (hnext : shape.next e = some shape') : shape'.Reads (es ++ [e]) := by
  cases shape with
  | fresh =>
      obtain rfl : es = [] := h
      cases e with
      | messageStart id model =>
          cases hnext
          exact Body.first _ trivial
      | _ => cases hnext
  | between n =>
      have h : Body es n [] := h
      cases e with
      | ping =>
          cases hnext
          exact h.snoc id id (by simp [AnthropicEvent.started?]) rfl
      | contentBlockStart i block =>
          simp only [next, Option.ite_none_right_eq_some, Option.some.injEq] at hnext
          obtain ⟨rfl, rfl⟩ := hnext
          exact h.snoc id id (by simp [AnthropicEvent.started?, List.range_succ]) rfl
      | messageDelta reason usage =>
          cases hnext
          exact ⟨n, h.snoc id id (by simp [AnthropicEvent.started?]) rfl⟩
      | error error =>
          cases hnext
          exact ⟨es, _, n, [], rfl, h, Nat.zero_le _, .inr ⟨error, rfl⟩⟩
      | _ => cases hnext
  | inside n kind =>
      have h : Body es (n + 1) [n] := h
      cases e with
      | contentBlockDelta i delta =>
          simp only [next, Option.ite_none_right_eq_some, Option.some.injEq] at hnext
          obtain ⟨-, rfl⟩ := hnext
          exact h.snoc id id (by simp [AnthropicEvent.started?]) rfl
      | contentBlockStop i =>
          simp only [next, Option.ite_none_right_eq_some, Option.some.injEq] at hnext
          obtain ⟨rfl, rfl⟩ := hnext
          exact h.snoc id id (by simp [AnthropicEvent.started?]) (by simp [AnthropicEvent.track])
      | error error =>
          cases hnext
          exact ⟨es, _, n + 1, [n], rfl, h, Nat.le_refl 1, .inr ⟨error, rfl⟩⟩
      | _ => cases hnext
  | closing =>
      obtain ⟨n, h⟩ := h
      cases e with
      | messageStop =>
          cases hnext
          exact ⟨es, _, n, [], rfl, h, Nat.zero_le _, .inl ⟨rfl, rfl⟩⟩
      | _ => cases hnext
  | finished => cases hnext

theorem reads_of_scan : ∀ {es : List (AnthropicEvent F)} {shape : StreamShape},
    scanAll StreamShape.next .fresh es = some shape → shape.Reads es := by
  intro es
  induction es using List.reverseRecOn with
  | nil =>
      intro shape h
      cases h
      exact rfl
  | append_singleton es e ih =>
      intro shape h
      rw [scanAll_append, Option.bind_eq_some_iff] at h
      obtain ⟨before, hbefore, hscan⟩ := h
      obtain ⟨after, hnext, hafter⟩ := Option.bind_eq_some_iff.mp hscan
      cases hafter
      exact (ih hbefore).step hnext

/-- The scanner accepts every beginning of what it accepts. -/
theorem scan_of_prefix {p es : List (AnthropicEvent F)} (hp : p <+: es) {shape : StreamShape}
    (h : scanAll StreamShape.next .fresh es = some shape) : ∃ shape, scanAll StreamShape.next .fresh p = some shape := by
  obtain ⟨rest, rfl⟩ := hp
  rw [scanAll_append, Option.bind_eq_some_iff] at h
  exact ⟨h.choose, h.choose_spec.1⟩

/-- The scanner stood somewhere when it read an event. -/
theorem scan_event {p es : List (AnthropicEvent F)} {e : AnthropicEvent F} (hp : p ++ [e] <+: es) {shape : StreamShape}
    (h : scanAll StreamShape.next .fresh es = some shape) :
    ∃ before after : StreamShape, before.Reads p ∧ before.next e = some after := by
  obtain ⟨_, hscan⟩ := scan_of_prefix hp h
  rw [scanAll_append, Option.bind_eq_some_iff] at hscan
  obtain ⟨before, hbefore, hscan⟩ := hscan
  obtain ⟨after, hnext, -⟩ := Option.bind_eq_some_iff.mp hscan
  exact ⟨before, after, reads_of_scan hbefore, hnext⟩

/-! ### The beginnings -/

/-- Whatever was read has a body, perhaps with a terminal event behind it. -/
theorem StreamShape.Reads.body (h : shape.Reads es) :
    es = [] ∨ (∃ n blocks, Body es n blocks ∧ blocks.length ≤ 1) ∨
      ∃ p e n blocks, es = p ++ [e] ∧ Body p n blocks ∧ blocks.length ≤ 1 ∧
        (e = .messageStop ∨ ∃ error, e = .error error) := by
  cases shape with
  | fresh => exact .inl h
  | between n => exact .inr (.inl ⟨n, [], h, Nat.zero_le _⟩)
  | inside n kind => exact .inr (.inl ⟨n + 1, [n], h, Nat.le_refl 1⟩)
  | closing =>
      obtain ⟨n, h⟩ := h
      exact .inr (.inl ⟨n, [], h, Nat.zero_le _⟩)
  | finished =>
      obtain ⟨p, e, n, blocks, hes, hbody, hone, hlast⟩ := h
      exact .inr (.inr ⟨p, e, n, blocks, hes, hbody, hone, hlast.imp And.left id⟩)

/-- An event that ends a stream starts nothing and opens nothing. -/
theorem started_last (blocks : List Nat) (hlast : e = .messageStop ∨ ∃ error, e = .error error) :
    ¬ e.IsStart ∧ e.started? = none ∧ e.track blocks = blocks := by
  obtain rfl | ⟨error, rfl⟩ := hlast
  · exact ⟨fun h => h, rfl, rfl⟩
  · exact ⟨fun h => h, rfl, rfl⟩

theorem StreamShape.Reads.oneOpen (h : shape.Reads es) : (openBlocks es).length ≤ 1 := by
  obtain rfl | ⟨n, blocks, hbody, hone⟩ | ⟨p, e, n, blocks, rfl, hbody, hone, hlast⟩ := h.body
  · exact Nat.zero_le _
  · rw [hbody.openBlocks]
    exact hone
  · rw [openBlocks_snoc, hbody.openBlocks, (started_last blocks hlast).2.2]
    exact hone

theorem StreamShape.Reads.indices (h : shape.Reads es) : ∃ n, startedBlocks es = List.range n := by
  obtain rfl | ⟨n, blocks, hbody, -⟩ | ⟨p, e, n, blocks, rfl, hbody, -, hlast⟩ := h.body
  · exact ⟨0, rfl⟩
  · exact ⟨n, hbody.indices⟩
  · refine ⟨n, ?_⟩
    rw [startedBlocks_snoc, hbody.indices, (started_last blocks hlast).2.1]
    exact List.append_nil _

theorem StreamShape.Reads.start (h : shape.Reads es) (hes : es ≠ []) :
    ∃ e rest, es = e :: rest ∧ e.IsStart ∧ ∀ e ∈ rest, ¬ e.IsStart := by
  obtain rfl | ⟨n, blocks, hbody, -⟩ | ⟨p, e, n, blocks, rfl, hbody, -, hlast⟩ := h.body
  · exact absurd rfl hes
  · exact hbody.start
  · obtain ⟨e₀, rest, rfl, h₀, hrest⟩ := hbody.start
    refine ⟨e₀, rest ++ [e], rfl, h₀, fun e' he' => ?_⟩
    cases List.mem_append.mp he' with
    | inl he' => exact hrest e' he'
    | inr he' => exact List.mem_singleton.mp he' ▸ (started_last blocks hlast).1

/-- The scanner goes on only where no terminal event was read. -/
theorem StreamShape.Reads.live (h : shape.Reads es) (hnext : shape.next e = some shape') : ∀ e ∈ es, ¬ e.Terminal := by
  cases shape with
  | fresh =>
      obtain rfl : es = [] := h
      exact fun _ he => absurd he List.not_mem_nil
  | between n | inside n kind => exact Body.live h
  | closing =>
      obtain ⟨n, h⟩ := h
      exact h.live
  | finished => cases hnext

theorem wellBegun_of_scan (h : scanAll StreamShape.next .fresh es = some shape) : WellBegun es where
  start e rest hes := by
    obtain ⟨e', rest', hes', hstart, hrest⟩ := (reads_of_scan h).start (by simp [hes])
    obtain ⟨rfl, rfl⟩ := List.cons.inj (hes.symm.trans hes')
    exact ⟨hstart, hrest⟩
  indices := by
    obtain ⟨n, hn⟩ := (reads_of_scan h).indices
    rw [hn, List.length_range]
  oneOpen p hp := by
    obtain ⟨shape, hshape⟩ := scan_of_prefix hp h
    exact (reads_of_scan hshape).oneOpen
  deltas p index delta hp := by
    obtain ⟨before, after, hreads, hnext⟩ := scan_event hp h
    cases before with
    | inside n kind =>
        simp only [StreamShape.next, Option.ite_none_right_eq_some] at hnext
        exact ⟨n, hnext.1.1, Body.openBlocks hreads⟩
    | _ => cases hnext
  closed p hp := by
    obtain ⟨before, after, hreads, hnext⟩ := scan_event hp h
    cases before with
    | closing =>
        obtain ⟨n, hbody⟩ := hreads
        exact hbody.openBlocks
    | _ => cases hnext
  terminal p e hp := by
    obtain ⟨before, after, hreads, hnext⟩ := scan_event hp h
    exact hreads.live hnext

/-- **What it accepts to the end is a whole stream.** -/
theorem wellFormed_of_scan (h : scanAll StreamShape.next .fresh es = some .finished) : WellFormed es where
  toWellBegun := wellBegun_of_scan h
  ends := by
    obtain ⟨p, e, n, blocks, hes, -, -, hlast⟩ := reads_of_scan h
    refine ⟨p, e, hes, ?_⟩
    obtain ⟨rfl, -⟩ | ⟨error, rfl⟩ := hlast
    · trivial
    · trivial

/-! ### The translator -/

/-- The events of what was sent. -/
def eventsOf (ms : List (Emitted F)) : List (AnthropicEvent F) := ms.map Emitted.event

theorem scanAll_eventsOf (ms : List (Emitted F)) : ∀ shape : StreamShape,
    scanAll StreamShape.read shape ms = scanAll StreamShape.next shape (eventsOf ms) := by
  induction ms with
  | nil => exact fun _ => rfl
  | cons m ms ih =>
      intro shape
      rw [eventsOf, List.map_cons, scanAll, scanAll]
      congr 1
      funext shape'
      exact ih shape'

theorem texts_initial {mint : Nat → List Char} {model : PyStr} (h : IsUnicode model) :
    Texts (StreamState.initial (F := F) mint model) :=
  ⟨h, mintMessageId_isUnicode mint 0, .null, .null⟩

/-- **Every stream.**  Whatever the upstream sends, what is yielded is the beginning of a stream, and a whole stream
where nothing raised; chat completion data does not make it raise. -/
theorem translated_stream (rt : Runtime F) (mint : Nat → List Char) (model : PyStr) (chunks : List StreamChunk) :
    let g := translateChatSse rt mint model chunks
    WellBegun (eventsOf g.yielded) ∧
    (g.result = .ok () → WellFormed (eventsOf g.yielded)) ∧
    (IsUnicode model → ChatData rt (iterSseData [] chunks) → g.result = .ok ()) := by
  intro g
  obtain ⟨shape, hscan, hresult⟩ := translateChatSse_scans rt mint model chunks
  have hscan : scanAll StreamShape.read .fresh g.yielded = some shape := hscan
  rw [scanAll_eventsOf] at hscan
  refine ⟨wellBegun_of_scan hscan, fun hok => ?_, fun hmodel hdata => ?_⟩
  · obtain rfl : shape = .finished := hresult () hok
    exact wellFormed_of_scan hscan
  · have hreturns : g.Returns (fun _ => True) := translateData_returns hdata (texts_initial hmodel)
    obtain ⟨_, hok, -⟩ := hreturns
    exact hok

/-! ### Three streams -/

def plainRuntime : Runtime Unit := .plain

/-- A word, with the chunks cut inside a frame. -/
def splitStream : List StreamChunk :=
  [.str (text "data: \x7b\"choices\": [\x7b\"delta\": \x7b\"content\": \"Hi\"\x7d\x7d]\x7d\n\nda"),
    .str (text "ta: [DONE]\n\n")]

theorem translated_stream_split :
    WellFormed (eventsOf (translateChatSse plainRuntime (fun _ => []) (text "m") splitStream).yielded) := by
  obtain ⟨-, hwhole, hreturns⟩ := translated_stream plainRuntime (fun _ => []) (text "m") splitStream
  have hitems : iterSseData [] splitStream =
      [.ok (text "\x7b\"choices\": [\x7b\"delta\": \x7b\"content\": \"Hi\"\x7d\x7d]\x7d"), .ok (text "[DONE]")] := by
    decide +kernel
  have hdata : ChatData plainRuntime (iterSseData [] splitStream) := by
    rw [hitems]
    refine .chunk (by decide +kernel : _ = Except.ok (Json.dict [(text "choices",
      .list [.dict [(text "delta", .dict [(text "content", .str (text "Hi"))])]])])) (by decide +kernel) ?_ (.done [])
    exact ⟨.null, .list fun _ hv => ⟨_, List.mem_singleton.mp hv, .dict ⟨.str (isUnicode_text _), .null⟩, .null⟩⟩
  exact hwhole (hreturns (isUnicode_text _) hdata)

/-- Text, and then the upstream fails. -/
def failedUpstream : List StreamChunk :=
  [.str (text "data: \x7b\"choices\": [\x7b\"delta\": \x7b\"content\": \"Hi\"\x7d\x7d]\x7d\n\n"),
    .str (text "data: \x7b\"error\": \x7b\x7d\x7d\n\n")]

/-- Half of a surrogate pair. -/
def halfPair : List StreamChunk :=
  [.str (text "data: \x7b\"choices\": [\x7b\"delta\": \x7b\"content\": \"\\ud83d\"\x7d\x7d]\x7d\n\ndata: [DONE]\n\n")]

/-- An error leaves the block open, and a surrogate that stands alone ends the stream without a terminal event. -/
theorem streams_left_open :
    (eventsOf (translateChatSse plainRuntime (fun _ => []) (text "m") failedUpstream).yielded).map AnthropicEvent.name =
      [text "message_start", text "ping", text "content_block_start", text "content_block_delta", text "error"] ∧
    openBlocks (eventsOf (translateChatSse plainRuntime (fun _ => []) (text "m") failedUpstream).yielded) = [0] ∧
    (translateChatSse plainRuntime (fun _ => []) (text "m") failedUpstream).result = .ok () ∧
    (eventsOf (translateChatSse plainRuntime (fun _ => []) (text "m") halfPair).yielded).map AnthropicEvent.name =
      [text "message_start", text "ping", text "content_block_start"] ∧
    (translateChatSse plainRuntime (fun _ => []) (text "m") halfPair).result = .error .unicodeEncode := by
  refine ⟨?_, ?_, ?_, ?_, ?_⟩
  all_goals decide +kernel

end Experiential.Wire
