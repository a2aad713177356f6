import Experiential.Lib.JsonWriting
import Experiential.Wire.AnthropicMessages

/-! # The shape of a translated stream

A scanner reads the events of a stream: one start, blocks numbered from zero and open one at a time, deltas that name
the open block, and one terminal event. Whatever the upstream sends, the translator yields a beginning that the
scanner accepts, and a whole stream unless it raises (`translated_scans`); chat completion chunks do not make it
raise. -/

namespace Experiential.Wire

open Py

variable {F : Type}

/-! ### The scanner -/

/-- Where a stream stands. -/
inductive StreamShape where
  | fresh
  | between (next : Nat)
  | inside (index : Nat) (kind : BlockKind)
  | closing
  | finished
deriving DecidableEq

def StartedBlock.kind : StartedBlock F → BlockKind
  | .text => .text
  | .toolUse _ _ => .tool

def BlockDelta.kind : BlockDelta F → BlockKind
  | .text _ => .text
  | .inputJson _ => .tool

/-- Only a message that has no block open is stopped; an error ends a stream anywhere. -/
def StreamShape.next : StreamShape → AnthropicEvent F → Option StreamShape
  | .fresh, .messageStart _ _ => some (.between 0)
  | .between n, .ping => some (.between n)
  | .between n, .contentBlockStart i block => if i = n then some (.inside n block.kind) else none
  | .inside n kind, .contentBlockDelta i delta =>
      if i = some n ∧ delta.kind = kind then some (.inside n kind) else none
  | .inside n _, .contentBlockStop i => if i = n then some (.between (n + 1)) else none
  | .between _, .messageDelta _ _ => some .closing
  | .closing, .messageStop => some .finished
  | .between _, .error _ => some .finished
  | .inside _ _, .error _ => some .finished
  | _, _ => none

def StreamShape.read (shape : StreamShape) (m : Emitted F) : Option StreamShape := shape.next m.event

/-! ### The state -/

namespace StreamState

/-- Where the stream of a state stands. -/
def shape (s : StreamState F) : StreamShape :=
  match s.openBlock, s.openKind with
  | some i, some kind => .inside i kind
  | _, _ => .between s.nextBlockIndex

/-- A block that is open has a kind and is the last one. -/
structure Sound (s : StreamState F) : Prop where
  kind : s.openKind.isSome = s.openBlock.isSome
  next : ∀ i, s.openBlock = some i → s.nextBlockIndex = i + 1

variable {rt : Runtime F} {mint : Nat → List Char} {s s' : StreamState F} {ms : List (Emitted F)}

theorem event_eq_ok {e : AnthropicEvent F} {m : Emitted F} (h : event rt e = .ok m) : m.event = e := by
  simp only [event, bind_eq_ok, pure_eq_ok] at h
  obtain ⟨data, -, encoded, -, rfl⟩ := h
  rfl

theorem shape_closed (h : s.openBlock = none) : s.shape = .between s.nextBlockIndex := by
  unfold shape
  rw [h]

theorem shape_open {i : Nat} {kind : BlockKind} (h : s.openBlock = some i) (hk : s.openKind = some kind) :
    s.shape = .inside i kind := by
  unfold shape
  rw [h, hk]

theorem Sound.open_of_kind (h : s.Sound) {kind : BlockKind} (hk : s.openKind = some kind) :
    ∃ i, s.openBlock = some i ∧ s.shape = .inside i kind := by
  have hsome := h.kind
  rw [hk] at hsome
  obtain ⟨i, hi⟩ := Option.isSome_iff_exists.mp hsome.symm
  exact ⟨i, hi, shape_open hi hk⟩

theorem closeBlock_scans (hs : s.Sound) (h : s.closeBlock rt = .ok (ms, s')) :
    scanAll StreamShape.read s.shape ms = some (.between s.nextBlockIndex) ∧
      s' = { s with openBlock := none, openKind := s'.openKind, openToolFor := s'.openToolFor } := by
  unfold closeBlock at h
  split at h
  · next hopen =>
    cases h
    refine ⟨by rw [shape_closed hopen]; rfl, ?_⟩
    rw [← hopen]
  · next i hopen =>
    simp only [bind_eq_ok, pure_eq_ok, Prod.mk.injEq] at h
    obtain ⟨stop, hstop, rfl, rfl⟩ := h
    have hsome := hs.kind
    rw [hopen] at hsome
    obtain ⟨kind, hkind⟩ := Option.isSome_iff_exists.mp hsome
    refine ⟨?_, rfl⟩
    rw [shape_open hopen hkind, scanAll, StreamShape.read, event_eq_ok hstop, StreamShape.next, if_pos rfl, hs.next i hopen]
    rfl

/-- A block was opened behind the last one. -/
structure Opened (s s' : StreamState F) (kind : BlockKind) (openToolFor : Option Int) : Prop where
  openBlock : s'.openBlock = some s.nextBlockIndex
  openKind : s'.openKind = some kind
  openToolFor : s'.openToolFor = openToolFor
  next : s'.nextBlockIndex = s.nextBlockIndex + 1
  finishReason : s'.finishReason = s.finishReason
  usage : s'.usage = s.usage
  model : s'.model = s.model
  messageId : s'.messageId = s.messageId

theorem Opened.sound {kind : BlockKind} {tool : Option Int} (h : Opened s s' kind tool) : s'.Sound := by
  refine ⟨by rw [h.openKind, h.openBlock]; rfl, fun i hi => ?_⟩
  rw [h.openBlock] at hi
  rw [h.next, Option.some.inj hi]

theorem scan_opened {closed : StreamState F} {stops : List (Emitted F)} {start : Emitted F} {block : StartedBlock F}
    {tool : Option Int} (hs : s.Sound) (hclose : s.closeBlock rt = .ok (stops, closed))
    (hstart : event rt (.contentBlockStart closed.nextBlockIndex block) = .ok start)
    (hopened : Opened s s' block.kind tool) :
    scanAll StreamShape.read s.shape (stops ++ [start]) = some s'.shape := by
  obtain ⟨hscan, hclosed⟩ := closeBlock_scans hs hclose
  have hnext : closed.nextBlockIndex = s.nextBlockIndex := by rw [hclosed]
  rw [hnext] at hstart
  rw [scanAll_append, hscan, Option.bind_some, scanAll, StreamShape.read, event_eq_ok hstart, StreamShape.next,
    if_pos rfl, shape_open hopened.openBlock hopened.openKind]
  rfl

theorem openTextBlock_scans (hs : s.Sound) (h : s.openTextBlock rt = .ok (ms, s')) :
    scanAll StreamShape.read s.shape ms = some s'.shape ∧ Opened s s' .text none := by
  simp only [openTextBlock, bind_eq_ok, pure_eq_ok, Prod.mk.injEq] at h
  obtain ⟨⟨stops, closed⟩, hclose, start, hstart, rfl, rfl⟩ := h
  have hclosed := (closeBlock_scans hs hclose).2
  have hopened : Opened s { closed with
      nextBlockIndex := closed.nextBlockIndex + 1, openBlock := some closed.nextBlockIndex, openKind := some .text,
      openToolFor := none } .text none := by
    rw [hclosed]
    exact ⟨rfl, rfl, rfl, rfl, rfl, rfl, rfl, rfl⟩
  exact ⟨scan_opened hs hclose hstart hopened, hopened⟩

theorem openToolBlock_scans {openaiIndex : Int} {call : Json F} (hs : s.Sound)
    (h : s.openToolBlock rt mint openaiIndex call = .ok (ms, s')) :
    scanAll StreamShape.read s.shape ms = some s'.shape ∧ Opened s s' .tool (some openaiIndex) := by
  simp only [openToolBlock, bind_eq_ok, pure_eq_ok, Prod.mk.injEq] at h
  obtain ⟨⟨stops, closed⟩, hclose, function, -, ⟨id, minted⟩, -, name, -, start, hstart, rfl, rfl⟩ := h
  have hclosed := (closeBlock_scans hs hclose).2
  have hopened : Opened s { closed with
      nextBlockIndex := closed.nextBlockIndex + 1
      openBlock := some closed.nextBlockIndex
      openKind := some .tool
      openToolFor := some openaiIndex
      minted := minted } .tool (some openaiIndex) := by
    rw [hclosed]
    exact ⟨rfl, rfl, rfl, rfl, rfl, rfl, rfl, rfl⟩
  exact ⟨scan_opened hs hclose hstart hopened, hopened⟩

end StreamState

/-! ### The generators -/

section scans
variable {rt : Runtime F} {mint : Nat → List Char} {s : StreamState F}

open StreamState

/-- The scanner stands where the state says. -/
def Stands (shape : StreamShape) (s : StreamState F) : Prop := shape = s.shape ∧ s.Sound

theorem yieldEvent_scans {e : AnthropicEvent F} {shape shape' : StreamShape} {Q : StreamShape → Unit → Prop}
    (he : shape.next e = some shape') (h : Q shape' ()) : Gen.Scans StreamShape.read shape (yieldEvent rt e) Q := by
  refine .bind (Q := fun sh m => sh = shape ∧ m.event = e) (.ofExcept fun m hm => ⟨rfl, event_eq_ok hm⟩) ?_
  rintro sh m ⟨rfl, hm⟩
  have hread : sh.read m = some shape' := by
    rw [StreamShape.read, hm]
    exact he
  exact .yield hread h

theorem yieldChange_scans {x : Except PyError (List (Emitted F) × StreamState F)} {shape : StreamShape}
    {Q : StreamShape → StreamState F → Prop}
    (hx : ∀ ms s', x = .ok (ms, s') → ∃ sh, scanAll StreamShape.read shape ms = some sh ∧ Q sh s') :
    Gen.Scans StreamShape.read shape (yieldChange x) Q := by
  refine .bind (Q := fun sh r => sh = shape ∧ x = .ok r) (.ofExcept fun r hr => ⟨rfl, hr⟩) ?_
  rintro sh ⟨ms, s'⟩ ⟨rfl, hr⟩
  obtain ⟨sh', hscan, hQ⟩ := hx ms s' hr
  exact .bind (Q := fun sh'' _ => sh'' = sh') (.yieldAll hscan rfl) fun sh'' _ hsh => .pure (hsh ▸ hQ)

theorem textBlock_scans (hs : s.Sound) :
    Gen.Scans StreamShape.read s.shape (textBlock rt s) (fun sh s' => Stands sh s' ∧ s'.openKind = some .text) := by
  unfold textBlock
  split_ifs with hkind
  · refine yieldChange_scans fun ms s' h => ?_
    obtain ⟨hscan, hopened⟩ := openTextBlock_scans hs h
    exact ⟨_, hscan, ⟨rfl, hopened.sound⟩, hopened.openKind⟩
  · exact .pure ⟨⟨rfl, hs⟩, not_not.mp hkind⟩

theorem toolBlock_scans (hs : s.Sound) (openaiIndex : Int) (call : Json F) :
    Gen.Scans StreamShape.read s.shape (toolBlock rt mint s openaiIndex call)
      (fun sh s' => Stands sh s' ∧ s'.openKind = some .tool) := by
  unfold toolBlock
  split_ifs with hother
  · refine yieldChange_scans fun ms s' h => ?_
    obtain ⟨hscan, hopened⟩ := openToolBlock_scans hs h
    exact ⟨_, hscan, ⟨rfl, hopened.sound⟩, hopened.openKind⟩
  · exact .pure ⟨⟨rfl, hs⟩, not_not.mp fun hkind => hother (.inl hkind)⟩

theorem yieldDelta_scans (hs : s.Sound) {delta : BlockDelta F} (hkind : s.openKind = some delta.kind) :
    Gen.Scans StreamShape.read s.shape (yieldEvent rt (.contentBlockDelta s.openBlock delta)) (fun sh _ => sh = s.shape) := by
  obtain ⟨i, hi, hshape⟩ := hs.open_of_kind hkind
  refine yieldEvent_scans ?_ rfl
  rw [hshape, hi, StreamShape.next, if_pos ⟨rfl, rfl⟩]

theorem lookup_scans {α : Type} (shape : StreamShape) (x : Except PyError α) :
    Gen.Scans StreamShape.read shape (Gen.ofExcept x : EventGen F α) (fun sh _ => sh = shape) :=
  .ofExcept fun _ _ => rfl

theorem onContent_scans (hs : s.Sound) (content : Json F) :
    Gen.Scans StreamShape.read s.shape (onContent rt s content) Stands := by
  unfold onContent
  split_ifs
  · refine .bind (textBlock_scans hs) ?_
    rintro sh s' ⟨⟨rfl, hsound⟩, hkind⟩
    exact .bind (yieldDelta_scans hsound hkind) fun sh _ hsh => .pure ⟨hsh, hsound⟩
  · exact .pure ⟨rfl, hs⟩

theorem onToolCall_scans (hs : s.Sound) (call : Json F) :
    Gen.Scans StreamShape.read s.shape (onToolCall rt mint s call) Stands := by
  unfold onToolCall
  refine .bind (lookup_scans _ _) ?_
  rintro sh openaiIndex rfl
  refine .bind (toolBlock_scans hs openaiIndex call) ?_
  rintro sh s' ⟨⟨rfl, hsound⟩, hkind⟩
  refine .bind (lookup_scans _ _) ?_
  rintro sh function rfl
  refine .bind (lookup_scans _ _) ?_
  rintro sh arguments rfl
  refine .bind (Q := fun sh _ => sh = s'.shape) ?_ fun sh _ hsh => .pure ⟨hsh, hsound⟩
  unfold yieldArguments
  split_ifs
  · exact yieldDelta_scans hsound hkind
  · exact .pure rfl

theorem onToolCalls_scans : ∀ (calls : List (Json F)) {s : StreamState F}, s.Sound →
    Gen.Scans StreamShape.read s.shape (onToolCalls rt mint s calls) Stands
  | [], _, hs => .pure ⟨rfl, hs⟩
  | call :: calls, _, hs => by
      refine .bind (onToolCall_scans hs call) ?_
      rintro sh s' ⟨rfl, hs'⟩
      exact onToolCalls_scans calls hs'

theorem onChoice_scans (hs : s.Sound) (choice : Json F) :
    Gen.Scans StreamShape.read s.shape (onChoice rt mint s choice) Stands := by
  unfold onChoice
  refine .bind (lookup_scans _ _) ?_
  rintro sh delta rfl
  refine .bind (lookup_scans _ _) ?_
  rintro sh reason rfl
  refine .bind (lookup_scans _ _) ?_
  rintro sh content rfl
  have hreason : { s with finishReason := reason.orElse rt s.finishReason }.Sound := ⟨hs.kind, hs.next⟩
  refine .bind (onContent_scans hreason content) ?_
  rintro sh s' ⟨rfl, hs'⟩
  refine .bind (lookup_scans _ _) ?_
  rintro sh calls rfl
  refine .bind (lookup_scans _ _) ?_
  rintro sh calls rfl
  exact onToolCalls_scans calls hs'

theorem onFrame_scans (hs : s.Sound) (frame : Json F) :
    Gen.Scans StreamShape.read s.shape (onFrame rt mint s frame) Stands := by
  unfold onFrame
  refine .bind (lookup_scans _ _) ?_
  rintro sh usage rfl
  refine .bind (lookup_scans _ _) ?_
  rintro sh choices rfl
  have husage : { s with usage := usage.orElse rt s.usage }.Sound := ⟨hs.kind, hs.next⟩
  dsimp only
  split_ifs
  · refine .bind (lookup_scans _ _) ?_
    rintro sh choice rfl
    exact onChoice_scans husage choice
  · exact .pure ⟨rfl, husage⟩

theorem finale_scans (hs : s.Sound) {ms : List (Emitted F)} (h : finale rt s = .ok ms) :
    scanAll StreamShape.read s.shape ms = some .finished := by
  simp only [finale, bind_eq_ok, pure_eq_ok] at h
  obtain ⟨⟨stops, closed⟩, hclose, usage, -, reason, -, delta, hdelta, stop, hstop, rfl⟩ := h
  rw [scanAll_append, (closeBlock_scans hs hclose).1, Option.bind_some, scanAll, StreamShape.read, event_eq_ok hdelta,
    StreamShape.next, Option.bind_some, scanAll, StreamShape.read, event_eq_ok hstop]
  rfl

/-- Where the scanner stands before and after the start. -/
structure Standing (started : Bool) (s : StreamState F) (shape : StreamShape) : Prop where
  sound : s.Sound
  shape_eq : shape = if started then s.shape else .fresh
  unstarted : started = false → s.shape = .between 0

theorem yieldStart_scans {started : Bool} {shape : StreamShape} (h : Standing started s shape) :
    Gen.Scans StreamShape.read shape (yieldStart rt started s) (fun sh _ => sh = s.shape) := by
  rw [h.shape_eq]
  cases started with
  | true => exact .pure rfl
  | false =>
      refine yieldEvent_scans (e := .messageStart s.messageId s.model) ?_ rfl
      rw [h.unstarted rfl]
      rfl

theorem yieldStartPing_scans {started : Bool} {shape : StreamShape} (h : Standing started s shape) :
    Gen.Scans StreamShape.read shape (yieldStartPing rt started s) (fun sh _ => sh = s.shape) := by
  unfold yieldStartPing
  split_ifs with hstarted
  · rw [h.shape_eq, if_pos hstarted]
    exact .pure rfl
  · have hfalse : started = false := by simpa using hstarted
    subst hfalse
    refine .bind (yieldStart_scans h) ?_
    rintro sh _ rfl
    refine yieldEvent_scans ?_ rfl
    rw [h.unstarted rfl]
    rfl

theorem shape_error (s : StreamState F) (e : AnthropicProtocolError) :
    s.shape.next (.error e : AnthropicEvent F) = some .finished := by
  unfold StreamState.shape
  split <;> rfl

theorem conclude_scans {started : Bool} {shape : StreamShape} (h : Standing started s shape) (sawDone : Bool) :
    Gen.Scans StreamShape.read shape (conclude rt started sawDone s) (fun sh _ => sh = .finished) := by
  refine .bind (yieldStart_scans h) ?_
  rintro sh _ rfl
  unfold yieldEnd
  split_ifs
  · refine .bind (Q := fun sh ms => sh = s.shape ∧ finale rt s = .ok ms) (.ofExcept fun _ hms => ⟨rfl, hms⟩) ?_
    rintro sh ms ⟨rfl, hms⟩
    exact .yieldAll (finale_scans h.sound hms) rfl
  · exact yieldEvent_scans (shape_error s _) rfl

/-- **Any data.**  What is yielded has the shape of a beginning, and of a stream where nothing raised. -/
theorem translateData_scans : ∀ (items : List (Except PyError PyStr)) {started : Bool} {s : StreamState F}
    {shape : StreamShape}, Standing started s shape →
    Gen.Scans StreamShape.read shape (translateData rt mint started s items) (fun sh _ => sh = .finished)
  | [], _, _, _, h => conclude_scans h false
  | .error e :: _, _, _, _, _ => .raise e
  | .ok data :: rest, started, s, shape, h => by
      unfold translateData
      split_ifs with hdone
      · exact conclude_scans h true
      · split
        · next e _ =>
          split_ifs
          · exact translateData_scans rest h
          · exact .raise e
        · next frame _ =>
          split_ifs with herror
          · refine .bind (yieldStart_scans h) ?_
            rintro sh _ rfl
            exact yieldEvent_scans (shape_error s _) rfl
          · refine .bind (yieldStartPing_scans h) ?_
            rintro sh _ rfl
            refine .bind (onFrame_scans h.sound (.dict frame)) ?_
            rintro sh s' ⟨rfl, hs'⟩
            exact translateData_scans rest ⟨hs', rfl, fun h => nomatch h⟩
        · exact translateData_scans rest h

theorem translateChatSse_scans (rt : Runtime F) (mint : Nat → List Char) (model : PyStr) (chunks : List StreamChunk) :
    Gen.Scans StreamShape.read .fresh (translateChatSse rt mint model chunks) (fun sh _ => sh = .finished) := by
  refine translateData_scans _ ⟨⟨rfl, fun i hi => ?_⟩, rfl, fun _ => rfl⟩
  cases hi

end scans

end Experiential.Wire
