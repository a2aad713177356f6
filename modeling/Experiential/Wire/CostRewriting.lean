import Experiential.Lib.Run
import Experiential.Wire.CostAnnotation

/-! # Rewriting does not see message boundaries

An annotation asks the registry for at most one digest (`Annotates`). The wrapper's buffer is the text behind the
last complete frame, so that what it sends for a body in pieces is the body rewritten frame by frame
(`cost_rewriting`), whatever other responses do to the other records meanwhile. -/

namespace Experiential.Wire

open Py

variable {F : Type}

/-! ### The registry -/

/-- The registries have the same records at the digests of `D`. -/
def Agree (D : PyStr → Prop) (r r' : CostRegistry) : Prop := ∀ d, D d → r.get? d = r'.get? d

theorem Agree.trans {D : PyStr → Prop} {r₁ r₂ r₃ : CostRegistry} (h : Agree D r₁ r₂) (h' : Agree D r₂ r₃) :
    Agree D r₁ r₃ :=
  fun d hd => (h d hd).trans (h' d hd)

theorem get?_pop (r : CostRegistry) (digest d : PyStr) :
    (r.pop digest).2.get? d = if d = digest then none else r.get? d := by
  have hfind : (r.records.filter (fun e => decide (e.1 ≠ digest))).find? (fun e => decide (e.1 = d)) =
      if d = digest then none else r.records.find? (fun e => decide (e.1 = d)) := by
    rw [List.find?_filter]
    split_ifs with hd
    · subst hd
      exact List.find?_eq_none.mpr fun e _ => by simp
    · congr 1
      funext e
      by_cases he : e.1 = d
      · simp [he, hd]
      · simp [he]
  unfold CostRegistry.get?
  show (((r.records.filter _).find? _).map Prod.snd) = _
  rw [hfind]
  split_ifs <;> rfl

theorem pop_of_none {r : CostRegistry} {digest : PyStr} (h : r.get? digest = none) : (r.pop digest).2 = r := by
  have hall : ∀ e ∈ r.records, decide (e.1 ≠ digest) = true := by
    intro e he
    have hnone := List.find?_eq_none.mp (Option.map_eq_none_iff.mp h) e he
    simpa using hnone
  unfold CostRegistry.pop
  rw [List.filter_eq_self.mpr hall]

theorem Agree.pop {D : PyStr → Prop} {r r' : CostRegistry} (h : Agree D r r') (digest : PyStr) :
    Agree D (r.pop digest).2 (r'.pop digest).2 := by
  intro d hd
  rw [get?_pop, get?_pop, h d hd]

/-! ### Annotations -/

/-- The annotation of a text raises, leaves it, or takes one record: `asked` is the digest it looks up. -/
def Annotates (original : Bytes) (asked : Option PyStr)
    (act : CostRegistry → Except PyError (Bytes × CostRegistry)) : Prop :=
  (∃ e, ∀ r, act r = .error e) ∨ (asked = none ∧ ∀ r, act r = .ok (original, r)) ∨
  ∃ (digest : PyStr) (build : SettledCost → Except PyError Bytes), asked = some digest ∧
    ∀ r, act r = match r.get? digest with
      | none => .ok (original, r)
      | some settled => (build settled).map (fun out => (out, (r.pop digest).2))

/-- Both raise the same exception, or both write the same and agree. -/
def Alike (D : PyStr → Prop) : Except PyError (Bytes × CostRegistry) → Except PyError (Bytes × CostRegistry) → Prop
  | .ok (out, r), .ok (out', r') => out = out' ∧ Agree D r r'
  | .error e, .error e' => e = e'
  | _, _ => False

section annotates
variable {D : PyStr → Prop} {original : Bytes} {asked : Option PyStr}
  {act : CostRegistry → Except PyError (Bytes × CostRegistry)} {r r' : CostRegistry}

theorem annotates_payload (rt : Runtime F) (payload : Json F) (original : Bytes) (wrap : Bytes → Bytes) :
    Annotates original ((completionOf payload).map Completion.digest) (fun r =>
      match annotateCompletionPayload rt payload r with
      | (none, r) => .ok (original, r)
      | (some payload, r) => do
          let encoded ← encodeCompact rt payload
          return (wrap encoded, r)) := by
  cases hc : completionOf payload with
  | none =>
      refine .inr (.inl ⟨rfl, fun r => ?_⟩)
      simp only [annotateCompletionPayload, hc]
  | some c =>
      refine .inr (.inr ⟨c.digest, fun settled => (encodeCompact rt (c.annotated rt settled)).map wrap, rfl,
        fun r => ?_⟩)
      have hpop : r.pop c.digest = (r.get? c.digest, (r.pop c.digest).2) := rfl
      simp only [annotateCompletionPayload, hc]
      rw [hpop]
      cases hget : r.get? c.digest with
      | none => simp only [pop_of_none hget]
      | some settled =>
          show (encodeCompact rt (c.annotated rt settled) >>= fun encoded => _) =
            ((encodeCompact rt (c.annotated rt settled)).map wrap).map _
          cases encodeCompact rt (c.annotated rt settled) with
          | error e | ok encoded => rfl

theorem Annotates.agree (h : Annotates original asked act) (hD : ∀ d, asked = some d → D d) (hr : Agree D r r') :
    Alike D (act r) (act r') := by
  obtain ⟨e, he⟩ | ⟨-, hstay⟩ | ⟨digest, build, hasked, hact⟩ := h
  · rw [he, he]
    exact rfl
  · rw [hstay, hstay]
    exact ⟨rfl, hr⟩
  · rw [hact, hact, hr digest (hD digest hasked)]
    cases r'.get? digest with
    | none => exact ⟨rfl, hr⟩
    | some settled =>
        show Alike D ((build settled).map _) ((build settled).map _)
        cases build settled with
        | error e => exact rfl
        | ok out => exact ⟨rfl, hr.pop digest⟩

/-- Without a record there is nothing to annotate. -/
theorem Annotates.unchanged {out : Bytes} (h : Annotates original asked act) (hact : act r = .ok (out, r'))
    (hnone : asked.bind r.get? = none) : out = original ∧ r' = r := by
  obtain ⟨e, he⟩ | ⟨-, hstay⟩ | ⟨digest, build, rfl, htake⟩ := h
  · rw [he] at hact
    cases hact
  · rw [hstay] at hact
    cases hact
    exact ⟨rfl, rfl⟩
  · have hget : r.get? digest = none := hnone
    rw [htake, hget] at hact
    cases hact
    exact ⟨rfl, rfl⟩

end annotates

/-- The digest the annotation of a frame looks up. -/
def asked (rt : Runtime F) (frame : Bytes) : Option PyStr :=
  match dataLine frame with
  | none => none
  | some (lines, index) =>
      match linePayload rt lines index with
      | .error _ => none
      | .ok payload => (completionOf payload).map Completion.digest

theorem rewriteFrame_annotates (rt : Runtime F) (frame : Bytes) :
    Annotates frame (asked rt frame) (rewriteFrame rt frame) := by
  unfold asked rewriteFrame
  cases dataLine frame with
  | none => exact .inr (.inl ⟨rfl, fun _ => rfl⟩)
  | some line =>
      obtain ⟨lines, index⟩ := line
      simp only
      cases linePayload rt lines index with
      | error e =>
          by_cases he : e.isValueError = true
          · exact .inr (.inl ⟨rfl, fun r => if_pos he⟩)
          · exact .inl ⟨e, fun r => if_neg he⟩
      | ok payload =>
          exact annotates_payload rt payload frame fun encoded =>
            [newline].intercalate (lines.set index (bytes "data: " ++ encoded))

/-- The digest the annotation of a JSON body looks up. -/
def askedJson (rt : Runtime F) (body : Bytes) : Option PyStr :=
  match loadsBytes rt body with
  | .error _ => none
  | .ok payload => (completionOf payload).map Completion.digest

theorem rewriteJson_annotates (rt : Runtime F) (body : Bytes) :
    Annotates body (askedJson rt body) (rewriteJson rt body) := by
  unfold askedJson rewriteJson
  cases loadsBytes rt body with
  | error e =>
      by_cases he : e.isValueError = true
      · exact .inr (.inl ⟨rfl, fun r => if_pos he⟩)
      · exact .inl ⟨e, fun r => if_neg he⟩
  | ok payload => exact annotates_payload rt payload body id

/-! ### Frames in order -/

/-- The same text before the same exception, or the same text and agreeing registries. -/
def AlikeFrames (D : PyStr → Prop) (x y : Bytes × Except PyError CostRegistry) : Prop :=
  x.1 = y.1 ∧ match x.2, y.2 with
    | .ok r, .ok r' => Agree D r r'
    | .error e, .error e' => e = e'
    | _, _ => False

theorem rewriteFrames_agree (rt : Runtime F) {D : PyStr → Prop} : ∀ {fs : List Bytes} {r r' : CostRegistry},
    (∀ f ∈ fs, ∀ d, asked rt f = some d → D d) → Agree D r r' →
    AlikeFrames D (rewriteFrames rt fs r) (rewriteFrames rt fs r')
  | [], _, _, _, hr => ⟨rfl, hr⟩
  | f :: fs, r, r', hD, hr => by
      have hframe := (rewriteFrame_annotates rt f).agree (hD f List.mem_cons_self) hr
      unfold rewriteFrames
      cases h : rewriteFrame rt f r with
      | error e =>
          rw [h] at hframe
          cases h' : rewriteFrame rt f r' with
          | error e' =>
              rw [h'] at hframe
              exact ⟨rfl, hframe⟩
          | ok x =>
              rw [h'] at hframe
              exact hframe.elim
      | ok x =>
          obtain ⟨out, r₁⟩ := x
          rw [h] at hframe
          cases h' : rewriteFrame rt f r' with
          | error e' =>
              rw [h'] at hframe
              exact hframe.elim
          | ok y =>
              obtain ⟨out', r₁'⟩ := y
              rw [h'] at hframe
              obtain ⟨rfl, hr₁⟩ : out = out' ∧ Agree D r₁ r₁' := hframe
              obtain ⟨hout, hrest⟩ :=
                rewriteFrames_agree rt (fun g hg => hD g (List.mem_cons_of_mem f hg)) hr₁
              exact ⟨congrArg (fun rest => out ++ (frameEnd ++ rest)) hout, hrest⟩

theorem rewriteFrames_append (rt : Runtime F) : ∀ (fs gs : List Bytes) (r : CostRegistry),
    rewriteFrames rt (fs ++ gs) r = match rewriteFrames rt fs r with
      | (out, .ok r) => (out ++ (rewriteFrames rt gs r).1, (rewriteFrames rt gs r).2)
      | (out, .error e) => (out, .error e)
  | [], gs, r => rfl
  | f :: fs, gs, r => by
      rw [List.cons_append, rewriteFrames, rewriteFrames]
      cases rewriteFrame rt f r with
      | error e => rfl
      | ok x =>
          obtain ⟨out, r₁⟩ := x
          simp only
          rw [rewriteFrames_append rt fs gs r₁]
          obtain ⟨rest, e | r₂⟩ := rewriteFrames rt fs r₁
          · rfl
          · simp only [List.append_assoc]

/-- A body rewritten frame by frame; what follows the last frame stays. -/
def rewriteBody (rt : Runtime F) (body : Bytes) (registry : CostRegistry) : Bytes × Except PyError CostRegistry :=
  match rewriteFrames rt (cutFrames frameEnd body).1 registry with
  | (out, .ok registry) => (out ++ (cutFrames frameEnd body).2, .ok registry)
  | (out, .error e) => (out, .error e)

theorem frameEnd_ne : frameEnd ≠ [] := by decide

theorem rewriteBody_append (rt : Runtime F) (l m : Bytes) (r : CostRegistry) :
    rewriteBody rt (l ++ m) r = match rewriteFrames rt (cutFrames frameEnd l).1 r with
      | (out, .ok r) =>
          (out ++ (rewriteBody rt ((cutFrames frameEnd l).2 ++ m) r).1, (rewriteBody rt ((cutFrames frameEnd l).2 ++ m) r).2)
      | (out, .error e) => (out, .error e) := by
  unfold rewriteBody
  rw [cutFrames_append frameEnd_ne l m]
  simp only [rewriteFrames_append]
  obtain ⟨out, e | r₁⟩ := rewriteFrames rt (cutFrames frameEnd l).1 r
  · rfl
  · simp only
    obtain ⟨out₂, e | r₂⟩ := rewriteFrames rt (cutFrames frameEnd ((cutFrames frameEnd l).2 ++ m)).1 r₁
    · rfl
    · simp only [List.append_assoc]

theorem rewriteFrames_unchanged (rt : Runtime F) {r : CostRegistry} : ∀ {fs : List Bytes} {out : Bytes}
    {r' : CostRegistry}, (∀ f ∈ fs, (asked rt f).bind r.get? = none) →
    rewriteFrames rt fs r = (out, .ok r') → out = joinFrames frameEnd fs
  | [], _, _, _, h => by
      cases h
      rfl
  | f :: fs, out, r', hnone, h => by
      rw [rewriteFrames] at h
      cases hf : rewriteFrame rt f r with
      | error e =>
          rw [hf] at h
          cases h
      | ok x =>
          obtain ⟨out₁, r₁⟩ := x
          obtain ⟨rfl, rfl⟩ := (rewriteFrame_annotates rt f).unchanged hf (hnone f List.mem_cons_self)
          rw [hf] at h
          obtain ⟨hout, hrest⟩ := Prod.mk.inj h
          have hrest : rewriteFrames rt fs r₁ = ((rewriteFrames rt fs r₁).1, .ok r') := Prod.ext rfl hrest
          rw [joinFrames_cons, ← hout,
            rewriteFrames_unchanged rt (fun g hg => hnone g (List.mem_cons_of_mem _ hg)) hrest]

/-! ### The wrapper -/

/-- The messages of a body: chunks with more to come and a last one, while others leave the digests of `D` alone. -/
inductive Delivers (D : PyStr → Prop) : Bytes → List ResponseStep → Prop where
  | last (body : Bytes) : Delivers D body [.message (.body body false)]
  | more {rest : Bytes} {steps : List ResponseStep} (chunk : Bytes) (h : Delivers D rest steps) :
      Delivers D (chunk ++ rest) (.message (.body chunk true) :: steps)
  | elsewhere {body : Bytes} {steps : List ResponseStep} {change : CostRegistry → CostRegistry}
      (hchange : ∀ r, Agree D (change r) r) (h : Delivers D body steps) :
      Delivers D body (.elsewhere change :: steps)

theorem bodyOf_append (ms ms' : List AsgiMessage) : bodyOf (ms ++ ms') = bodyOf ms ++ bodyOf ms' := by
  induction ms with
  | nil => rfl
  | cons m ms ih => cases m <;> simp [bodyOf, ih]

theorem run_raised (rt : Runtime F) {e : PyError} : ∀ (steps : List ResponseStep) (r : Response), r.raised = some e →
    (run (responseStep rt) r steps).raised = some e ∧ (run (responseStep rt) r steps).sent = r.sent
  | [], _, h => ⟨h, rfl⟩
  | .elsewhere change :: steps, r, h => run_raised rt steps { r with registry := change r.registry } h
  | .message m :: steps, r, h => by
      have hstay : responseStep rt r (.message m) = r := by
        simp only [responseStep, h]
      rw [run_cons, hstay]
      exact run_raised rt steps r h

/-- What a response is when it was rewritten: all of the text was sent, or what came before the exception. -/
def Rewritten (D : PyStr → Prop) (before : Bytes) (w : Response) : Bytes × Except PyError CostRegistry → Prop
  | (out, .ok registry) => w.raised = none ∧ bodyOf w.sent = before ++ out ∧ Agree D w.registry registry
  | (out, .error e) => w.raised = some e ∧ ∃ sent, bodyOf w.sent = before ++ sent ∧ sent <+: out

/-- A response in the middle of an event stream. -/
structure Streaming (r : Response) (buffer : Bytes) : Prop where
  raised : r.raised = none
  json : r.rewriter.json = false
  sse : r.rewriter.sse = true
  buffer : r.rewriter.sseBuffer = buffer

theorem streaming_raises {rt : Runtime F} {r : Response} {buffer chunk out : Bytes} {more : Bool} {e : PyError}
    (hr : Streaming r buffer) (h : rewriteFrames rt (cutFrames frameEnd (buffer ++ chunk)).1 r.registry = (out, .error e)) :
    responseStep rt r (.message (.body chunk more)) = { r with raised := some e } := by
  simp only [responseStep, hr.raised, ResponseRewriter.send, hr.json, hr.sse, ResponseRewriter.onSseBody, hr.buffer, h]
  rfl

/-- A message in the middle: the rewritten frames are sent, the rest is kept. -/
theorem streaming_more {rt : Runtime F} {r : Response} {buffer chunk out : Bytes} {registry : CostRegistry}
    (hr : Streaming r buffer)
    (h : rewriteFrames rt (cutFrames frameEnd (buffer ++ chunk)).1 r.registry = (out, .ok registry)) :
    Streaming (responseStep rt r (.message (.body chunk true))) (cutFrames frameEnd (buffer ++ chunk)).2 ∧
      (responseStep rt r (.message (.body chunk true))).registry = registry ∧
      bodyOf (responseStep rt r (.message (.body chunk true))).sent = bodyOf r.sent ++ out := by
  have hstep : responseStep rt r (.message (.body chunk true)) =
      ⟨{ r.rewriter with sseBuffer := (cutFrames frameEnd (buffer ++ chunk)).2 }, registry,
        r.sent ++ (if out = [] then [] else [.body out true]), none⟩ := by
    simp only [responseStep, hr.raised, ResponseRewriter.send, hr.json, hr.sse, ResponseRewriter.onSseBody, hr.buffer, h]
    simp
  rw [hstep]
  refine ⟨⟨rfl, hr.json, hr.sse, rfl⟩, rfl, ?_⟩
  rw [bodyOf_append]
  split_ifs with hout
  · rw [hout]
    rfl
  · simp [bodyOf]

theorem streaming_last {rt : Runtime F} {r : Response} {buffer chunk out : Bytes} {registry : CostRegistry}
    (hr : Streaming r buffer)
    (h : rewriteFrames rt (cutFrames frameEnd (buffer ++ chunk)).1 r.registry = (out, .ok registry)) :
    (responseStep rt r (.message (.body chunk false))).raised = none ∧
      (responseStep rt r (.message (.body chunk false))).registry = registry ∧
      bodyOf (responseStep rt r (.message (.body chunk false))).sent =
        bodyOf r.sent ++ (out ++ (cutFrames frameEnd (buffer ++ chunk)).2) := by
  have hstep : responseStep rt r (.message (.body chunk false)) =
      ⟨{ r.rewriter with sseBuffer := [] }, registry,
        r.sent ++ [.body (out ++ (cutFrames frameEnd (buffer ++ chunk)).2) false], none⟩ := by
    simp only [responseStep, hr.raised, ResponseRewriter.send, hr.json, hr.sse, ResponseRewriter.onSseBody, hr.buffer, h]
    simp
  rw [hstep]
  refine ⟨rfl, rfl, ?_⟩
  rw [bodyOf_append]
  simp [bodyOf]

/-- The digests the frames of a body look up. -/
def askedBy (rt : Runtime F) (body : Bytes) (d : PyStr) : Prop := ∃ f ∈ (cutFrames frameEnd body).1, asked rt f = some d

/-- **The run rule of a stream**: the buffer and what is still to come are rewritten frame by frame. -/
theorem streaming_run (rt : Runtime F) {D : PyStr → Prop} {rest : Bytes} {steps : List ResponseStep}
    (h : Delivers D rest steps) : ∀ (r : Response) (buffer : Bytes) (registry : CostRegistry), Streaming r buffer →
    (∀ d, askedBy rt (buffer ++ rest) d → D d) → Agree D r.registry registry →
    Rewritten D (bodyOf r.sent) (run (responseStep rt) r steps) (rewriteBody rt (buffer ++ rest) registry) := by
  induction h with
  | last body =>
      intro r buffer registry hr hD hagree
      have halike := rewriteFrames_agree rt (fun f hf d hd => hD d ⟨f, hf, hd⟩) hagree
      unfold rewriteBody
      cases hrun : rewriteFrames rt (cutFrames frameEnd (buffer ++ body)).1 r.registry with
      | mk out x =>
        rw [hrun] at halike
        cases href : rewriteFrames rt (cutFrames frameEnd (buffer ++ body)).1 registry with
        | mk out' y =>
          rw [href] at halike
          obtain ⟨rfl, halike⟩ := halike
          cases x with
          | error e =>
              cases y with
              | ok _ => exact halike.elim
              | error e' =>
                  obtain rfl : e = e' := halike
                  rw [run_cons, streaming_raises hr hrun]
                  exact ⟨rfl, [], (List.append_nil _).symm, List.nil_prefix⟩
          | ok r₁ =>
              cases y with
              | error _ => exact halike.elim
              | ok r₁' =>
                  obtain ⟨hraised, hregistry, hsent⟩ := streaming_last hr hrun
                  refine ⟨hraised, hsent, ?_⟩
                  show Agree D (responseStep rt r (.message (.body body false))).registry r₁'
                  rw [hregistry]
                  exact halike
  | more chunk hrest ih =>
      intro r buffer registry hr hD hagree
      rename_i rest steps
      have hbody : buffer ++ (chunk ++ rest) = (buffer ++ chunk) ++ rest := (List.append_assoc _ _ _).symm
      rw [hbody] at hD
      rw [hbody, rewriteBody_append]
      have hfirst : ∀ f ∈ (cutFrames frameEnd (buffer ++ chunk)).1, ∀ d, asked rt f = some d → D d := by
        intro f hf d hd
        refine hD d ⟨f, ?_, hd⟩
        rw [cutFrames_append frameEnd_ne]
        exact List.mem_append_left _ hf
      have halike := rewriteFrames_agree rt hfirst hagree
      cases hrun : rewriteFrames rt (cutFrames frameEnd (buffer ++ chunk)).1 r.registry with
      | mk out x =>
        rw [hrun] at halike
        cases href : rewriteFrames rt (cutFrames frameEnd (buffer ++ chunk)).1 registry with
        | mk out' y =>
          rw [href] at halike
          obtain ⟨rfl, halike⟩ := halike
          cases x with
          | error e =>
              cases y with
              | ok _ => exact halike.elim
              | error e' =>
                  obtain rfl : e = e' := halike
                  rw [run_cons, streaming_raises hr hrun]
                  obtain ⟨hraised, hsent⟩ := run_raised rt steps { r with raised := some e } rfl
                  exact ⟨hraised, [], by rw [hsent, List.append_nil], List.nil_prefix⟩
          | ok r₁ =>
              cases y with
              | error _ => exact halike.elim
              | ok r₁' =>
                  obtain ⟨hstream, hregistry, hsent⟩ := streaming_more hr hrun
                  have hD' : ∀ d, askedBy rt ((cutFrames frameEnd (buffer ++ chunk)).2 ++ rest) d → D d := by
                    rintro d ⟨f, hf, hd⟩
                    refine hD d ⟨f, ?_, hd⟩
                    rw [cutFrames_append frameEnd_ne]
                    exact List.mem_append_right _ hf
                  have hlater := ih _ _ r₁' hstream hD' (hregistry ▸ halike)
                  rw [hsent] at hlater
                  rw [run_cons]
                  simp only
                  revert hlater
                  obtain ⟨later, e | r₂⟩ := rewriteBody rt ((cutFrames frameEnd (buffer ++ chunk)).2 ++ rest) r₁'
                  · rintro ⟨hraised, sent, hsent, hprefix⟩
                    exact ⟨hraised, out ++ sent, by rw [hsent, List.append_assoc],
                      (List.prefix_append_right_inj out).mpr hprefix⟩
                  · rintro ⟨hraised, hsent, hagree⟩
                    exact ⟨hraised, by rw [hsent, List.append_assoc], hagree⟩
  | elsewhere hchange _ ih =>
      intro r buffer registry hr hD hagree
      have hsame : Agree D _ registry := (hchange r.registry).trans hagree
      exact ih _ buffer registry ⟨hr.raised, hr.json, hr.sse, hr.buffer⟩ hD hsame

/-! ### JSON bodies -/

/-- A JSON response whose start message is held back. -/
structure Holding (r : Response) (status : Int) (headers : List (Bytes × Bytes)) (buffer : Bytes) : Prop where
  raised : r.raised = none
  json : r.rewriter.json = true
  status : r.rewriter.startStatus = status
  headers : r.rewriter.startHeaders = headers
  chunks : r.rewriter.jsonChunks.flatten = buffer

/-- What a response is when its body was rewritten at once. -/
def Replaced (status : Int) (headers : List (Bytes × Bytes)) (before : List AsgiMessage) (w : Response) :
    Except PyError (Bytes × CostRegistry) → Prop
  | .ok (newBody, _) => w.raised = none ∧ w.sent =
      before ++ [.start status (headersWithContentLength headers newBody.length), .body newBody false]
  | .error e => w.raised = some e ∧ w.sent = before

variable {headers : List (Bytes × Bytes)}

theorem Replaced.alike {D : PyStr → Prop} {status : Int}
    {before : List AsgiMessage} {w : Response} {x y : Except PyError (Bytes × CostRegistry)}
    (h : Replaced status headers before w x) (halike : Alike D x y) : Replaced status headers before w y := by
  obtain e | ⟨out, r⟩ := x
  · obtain e' | _ := y
    · obtain rfl : e = e' := halike
      exact h
    · exact halike.elim
  · obtain _ | ⟨out', r'⟩ := y
    · exact halike.elim
    · obtain ⟨rfl, -⟩ : out = out' ∧ Agree D r r' := halike
      exact h

/-- The last chunk of a held body is rewritten together with the chunks before it. -/
theorem Holding.last_step {rt : Runtime F} {r : Response} {status : Int}
    {buffer : Bytes} (hr : Holding r status headers buffer) (body : Bytes) :
    responseStep rt r (.message (.body body false)) =
      match rewriteJson rt (buffer ++ body) r.registry with
      | .error e => { r with raised := some e }
      | .ok (newBody, registry) => ⟨{ r.rewriter with jsonChunks := r.rewriter.jsonChunks ++ [body] }, registry,
          r.sent ++ [.start status (headersWithContentLength headers newBody.length), .body newBody false], none⟩ := by
  have hchunks : (r.rewriter.jsonChunks ++ [body]).flatten = buffer ++ body := by
    rw [List.flatten_append, hr.chunks, List.flatten_singleton]
  simp only [responseStep, hr.raised, ResponseRewriter.send, hr.json, if_true, ResponseRewriter.onJsonBody,
    Bool.false_eq_true, if_false, hchunks, hr.status, hr.headers]
  cases rewriteJson rt (buffer ++ body) r.registry with
  | error e | ok x => rfl

/-- **The run rule of a JSON body**: it is rewritten when it is complete. -/
theorem holding_run (rt : Runtime F) {D : PyStr → Prop} {status : Int} {rest : Bytes}
    {steps : List ResponseStep} (h : Delivers D rest steps) : ∀ (r : Response) (buffer : Bytes)
    (registry : CostRegistry), Holding r status headers buffer → (∀ d, askedJson rt (buffer ++ rest) = some d → D d) →
    Agree D r.registry registry →
    Replaced status headers r.sent (run (responseStep rt) r steps) (rewriteJson rt (buffer ++ rest) registry) := by
  induction h with
  | last body =>
      intro r buffer registry hr hD hagree
      have halike := (rewriteJson_annotates rt (buffer ++ body)).agree hD hagree
      refine Replaced.alike ?_ halike
      rw [run_cons, run_nil, hr.last_step]
      cases rewriteJson rt (buffer ++ body) r.registry with
      | error e | ok x => exact ⟨rfl, rfl⟩
  | more chunk hrest ih =>
      intro r buffer registry hr hD hagree
      rename_i rest steps
      rw [← List.append_assoc] at hD ⊢
      have hstep : responseStep rt r (.message (.body chunk true)) =
          { r with rewriter := { r.rewriter with jsonChunks := r.rewriter.jsonChunks ++ [chunk] } } := by
        simp only [responseStep, hr.raised, ResponseRewriter.send, hr.json, if_true, ResponseRewriter.onJsonBody,
          List.append_nil]
      rw [run_cons, hstep]
      refine ih _ (buffer ++ chunk) registry ⟨hr.raised, hr.json, hr.status, hr.headers, ?_⟩ hD hagree
      rw [List.flatten_append, hr.chunks, List.flatten_singleton]
  | elsewhere hchange _ ih =>
      intro r buffer registry hr hD hagree
      have hsame : Agree D _ registry := (hchange r.registry).trans hagree
      exact ih _ buffer registry ⟨hr.raised, hr.json, hr.status, hr.headers, hr.chunks⟩ hD hsame

theorem contentLength_only (headers : List (Bytes × Bytes)) (length : Nat) :
    (headersWithContentLength headers length).filter (fun h => decide (lower h.1 = bytes "content-length")) =
      [(bytes "content-length", decimal length)] := by
  unfold headersWithContentLength
  rw [List.filter_append, List.filter_filter]
  have hnone : headers.filter (fun h => decide (lower h.1 = bytes "content-length") &&
      decide (lower h.1 ≠ bytes "content-length")) = [] := by
    refine List.filter_eq_nil_iff.mpr fun h _ => ?_
    by_cases hname : lower h.1 = bytes "content-length" <;> simp [hname]
  have hself : decide (lower (bytes "content-length") = bytes "content-length") = true := by decide
  rw [hnone, List.nil_append]
  exact List.filter_cons_of_pos hself

/-! ### The whole response -/

/-- The response before its first message. -/
def Response.fresh (registry : CostRegistry) : Response := ⟨.initial, registry, [], none⟩

theorem start_sse (rt : Runtime F) (registry : CostRegistry)
    (h : bytes "text/event-stream" <+: headerValue headers (bytes "content-type")) :
    responseStep rt (.fresh registry) (.message (.start 200 headers)) =
      ⟨{ ResponseRewriter.initial with sse := true }, registry, [.start 200 headers], none⟩ := by
  have hnot : ¬ bytes "application/json" <+: headerValue headers (bytes "content-type") := by
    intro hjson
    cases List.prefix_or_prefix_of_prefix h hjson with
    | inl h | inr h => exact absurd h (by decide)
  simp [responseStep, Response.fresh, ResponseRewriter.send, ResponseRewriter.onStart, hnot, h]

theorem start_json (rt : Runtime F) (registry : CostRegistry)
    (h : bytes "application/json" <+: headerValue headers (bytes "content-type")) :
    responseStep rt (.fresh registry) (.message (.start 200 headers)) =
      ⟨{ ResponseRewriter.initial with json := true, startStatus := 200, startHeaders := headers }, registry, [],
        none⟩ := by
  simp [responseStep, Response.fresh, ResponseRewriter.send, ResponseRewriter.onStart, h]

/-- **Rewriting does not see message boundaries.**  An event stream comes out as its body rewritten frame by frame,
and an exception that ends the rewriting ends the response after a prefix of it; a JSON body comes out rewritten at
once, with its length in the only content-length header. A frame for which there is no record comes out as it is,
and so does a body none of whose frames has one; the frames and the text behind the last one are the body. -/
theorem cost_rewriting (rt : Runtime F) (registry : CostRegistry) (headers : List (Bytes × Bytes)) (body : Bytes)
    (steps : List ResponseStep) :
    (bytes "text/event-stream" <+: headerValue headers (bytes "content-type") →
      Delivers (askedBy rt body) body steps →
      let w := run (responseStep rt) (.fresh registry) (.message (.start 200 headers) :: steps)
      match rewriteBody rt body registry with
      | (out, .ok _) => w.raised = none ∧ bodyOf w.sent = out
      | (out, .error e) => w.raised = some e ∧ bodyOf w.sent <+: out) ∧
    (bytes "application/json" <+: headerValue headers (bytes "content-type") →
      Delivers (fun d => askedJson rt body = some d) body steps →
      let w := run (responseStep rt) (.fresh registry) (.message (.start 200 headers) :: steps)
      match rewriteJson rt body registry with
      | .ok (newBody, _) => w.raised = none ∧ ∃ newHeaders,
          w.sent = [.start 200 newHeaders, .body newBody false] ∧
          newHeaders.filter (fun h => decide (lower h.1 = bytes "content-length")) =
            [(bytes "content-length", decimal newBody.length)]
      | .error e => w.raised = some e ∧ w.sent = []) ∧
    (∀ frame r out r', rewriteFrame rt frame r = .ok (out, r') → (asked rt frame).bind r.get? = none →
      out = frame ∧ r' = r) ∧
    joinFrames frameEnd (cutFrames frameEnd body).1 ++ (cutFrames frameEnd body).2 = body ∧
    (∀ out r', rewriteBody rt body registry = (out, .ok r') →
      (∀ f ∈ (cutFrames frameEnd body).1, (asked rt f).bind registry.get? = none) → out = body) := by
  refine ⟨fun hsse hdelivers => ?_, fun hjson hdelivers => ?_, fun frame r out r' h hnone =>
    (rewriteFrame_annotates rt frame).unchanged h hnone, cutFrames_text frameEnd_ne body, fun out r' h hnone => ?_⟩
  · intro w
    have hw : w = run (responseStep rt) ⟨{ ResponseRewriter.initial with sse := true }, registry,
        [.start 200 headers], none⟩ steps := by
      rw [← start_sse rt registry hsse]
      rfl
    have hrun : Rewritten (askedBy rt body) [] w (rewriteBody rt body registry) := by
      rw [hw]
      exact streaming_run rt hdelivers _ [] registry ⟨rfl, rfl, rfl, rfl⟩ (fun d hd => hd) (fun _ _ => rfl)
    revert hrun
    obtain ⟨out, e | r'⟩ := rewriteBody rt body registry
    · rintro ⟨hraised, sent, hsent, hprefix⟩
      exact ⟨hraised, hsent ▸ hprefix⟩
    · rintro ⟨hraised, hsent, -⟩
      exact ⟨hraised, hsent⟩
  · intro w
    have hw : w = run (responseStep rt) ⟨{ ResponseRewriter.initial with
        json := true, startStatus := 200, startHeaders := headers }, registry, [], none⟩ steps := by
      rw [← start_json rt registry hjson]
      rfl
    have hrun : Replaced 200 headers [] w (rewriteJson rt body registry) := by
      rw [hw]
      exact holding_run rt hdelivers _ [] registry ⟨rfl, rfl, rfl, rfl, rfl⟩ (fun d hd => hd) (fun _ _ => rfl)
    revert hrun
    obtain e | ⟨newBody, r'⟩ := rewriteJson rt body registry
    · exact id
    · rintro ⟨hraised, hsent⟩
      exact ⟨hraised, _, hsent, contentLength_only headers newBody.length⟩
  · unfold rewriteBody at h
    cases hframes : rewriteFrames rt (cutFrames frameEnd body).1 registry with
    | mk out₁ x =>
      rw [hframes] at h
      cases x with
      | error e => cases h
      | ok r₁ =>
          cases h
          rw [rewriteFrames_unchanged rt hnone hframes]
          exact cutFrames_text frameEnd_ne body

/-- A frame in two pieces, and the record of its cost. -/
def splitFrame : Bytes × Bytes := (bytes "data: \x7b\"id\":\"gen_d1\",\"us", bytes "age\":\x7b\x7d\x7d\n\n")

def splitSteps : List ResponseStep := [.message (.body splitFrame.1 true), .elsewhere id, .message (.body splitFrame.2 false)]

def splitResponse : Response :=
  run (responseStep (.plain : Runtime Unit)) (.fresh ⟨8, [(text "d1", ⟨5, text "managed"⟩)]⟩)
    (.message (.start 200 [(bytes "content-type", bytes "text/event-stream")]) :: splitSteps)

theorem cost_rewriting_split : splitResponse.raised = none ∧
    bodyOf splitResponse.sent = bytes "data: \x7b\"id\":\"gen_d1\",\"usage\":\x7b\"cost\":\x7d\x7d\n\n" := by
  have h : ∀ body out r', Delivers (askedBy (.plain : Runtime Unit) body) body splitSteps →
      rewriteBody (.plain : Runtime Unit) body ⟨8, [(text "d1", ⟨5, text "managed"⟩)]⟩ = (out, .ok r') →
      splitResponse.raised = none ∧ bodyOf splitResponse.sent = out := by
    intro body out r' hdelivers hbody
    have h := (cost_rewriting (.plain : Runtime Unit) ⟨8, [(text "d1", ⟨5, text "managed"⟩)]⟩
      [(bytes "content-type", bytes "text/event-stream")] body splitSteps).1 (by decide +kernel) hdelivers
    rw [hbody] at h
    exact h
  exact h (splitFrame.1 ++ splitFrame.2) _ ⟨8, []⟩ (.more _ (.elsewhere (fun _ _ _ => rfl) (.last _))) (by decide +kernel)

end Experiential.Wire
