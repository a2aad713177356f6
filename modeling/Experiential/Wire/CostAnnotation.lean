import Experiential.Lib.Framing
import Experiential.Lib.Json

/-! # The billed cost in a response

A wrapper around a response's `send` puts the settled cost into the usage of a finished completion: a JSON body is
held back whole, an event stream is rewritten frame by frame as its bytes arrive. The registry of settled costs is
shared with every other response. -/

namespace Experiential.Wire

open Py

variable {F : Type}

/-! ### Settled costs -/

structure SettledCost where
  billedMicroUsd : Int
  billingSource : PyStr
deriving DecidableEq

/-- `usage_fields` -/
def SettledCost.usageFields (rt : Runtime F) (settled : SettledCost) : Entries F :=
  if settled.billingSource = text "customer_managed" then
    [(text "cost", .float (rt.floatOf ⟨false, ['0'], ['0'], []⟩))]
  else [(text "cost", .float (rt.perMillion settled.billedMicroUsd))]

/-- The records, oldest first. -/
structure CostRegistry where
  capacity : Nat
  records : List (PyStr × SettledCost)
deriving DecidableEq

namespace CostRegistry

def get? (r : CostRegistry) (digest : PyStr) : Option SettledCost :=
  (r.records.find? (fun e => decide (e.1 = digest))).map Prod.snd

/-- `pop(digest, None)` -/
def pop (r : CostRegistry) (digest : PyStr) : Option SettledCost × CostRegistry :=
  (r.get? digest, { r with records := r.records.filter (fun e => decide (e.1 ≠ digest)) })

end CostRegistry

/-! ### Payloads -/

/-- A completion that can be annotated: the dict of its usage, where that dict stands, and its digest. -/
structure Completion (F : Type) where
  holder : Entries F
  put : Entries F → Json F
  usage : Entries F
  digest : PyStr

/-- `identity.rsplit("_", 1)[-1]` -/
def publicDigest (identity : PyStr) : PyStr := (identity.reverse.takeWhile (fun c => decide (c ≠ .scalar '_'))).reverse

/-- The checks on a dict that carries a usage. -/
def completionAt (holder : Entries F) (put : Entries F → Json F) (usage : Entries F) : Option (Completion F) :=
  match holder.get? (text "id") with
  | some (.str identity) =>
      if .scalar '_' ∈ identity then some ⟨holder, put, usage, publicDigest identity⟩ else none
  | _ => none

/-- The usage stands at the top, or under `response`. -/
def completionOf (payload : Json F) : Option (Completion F) :=
  match payload with
  | .dict entries =>
      match Entries.get? entries (text "usage") with
      | some (.dict usage) => completionAt entries .dict usage
      | _ =>
          match Entries.get? entries (text "response") with
          | some (.dict nested) =>
              match Entries.get? nested (text "usage") with
              | some (.dict usage) =>
                  completionAt nested (fun holder => .dict (Entries.set entries (text "response") (.dict holder))) usage
              | _ => none
          | _ => none
  | _ => none

/-- The payload with the settled cost in its usage. -/
def Completion.annotated (rt : Runtime F) (c : Completion F) (settled : SettledCost) : Json F :=
  c.put (c.holder.set (text "usage")
    (.dict ((settled.usageFields rt).foldl (fun usage e => Entries.set usage e.1 e.2) c.usage)))

/-- `annotate_completion_payload`: the payload where it was modified, and the registry. -/
def annotateCompletionPayload (rt : Runtime F) (payload : Json F) (registry : CostRegistry) :
    Option (Json F) × CostRegistry :=
  match completionOf payload with
  | none => (none, registry)
  | some c =>
      match registry.pop c.digest with
      | (none, registry) => (none, registry)
      | (some settled, registry) => (some (c.annotated rt settled), registry)

/-- `json.dumps(payload, separators=(",", ":"), ensure_ascii=False).encode()` -/
def encodeCompact (rt : Runtime F) (payload : Json F) : Except PyError Bytes := do
  encode (← dumps rt .compact payload)

/-- `rewrite_json` -/
def rewriteJson (rt : Runtime F) (body : Bytes) (registry : CostRegistry) : Except PyError (Bytes × CostRegistry) :=
  match loadsBytes rt body with
  | .error e => if e.isValueError then .ok (body, registry) else .error e
  | .ok payload =>
      match annotateCompletionPayload rt payload registry with
      | (none, registry) => .ok (body, registry)
      | (some payload, registry) => do
          let encoded ← encodeCompact rt payload
          return (encoded, registry)

/-! ### Frames -/

def newline : UInt8 := 10

/-- The lines of a frame that may carry usage, and the index of its only data line. -/
def dataLine (frame : Bytes) : Option (List Bytes × Nat) :=
  if bytes "\"usage\"" <:+: frame then
    let lines := frame.splitOn newline
    match (lines.zipIdx.filter (fun line => decide (bytes "data:" <+: line.1))).map Prod.snd with
    | [index] => some (lines, index)
    | _ => none
  else none

/-- What a data line says. -/
def linePayload (rt : Runtime F) (lines : List Bytes) (index : Nat) : Except PyError (Json F) :=
  loadsBytes rt ((lines.getD index []).drop 5)

/-- `rewrite_frame` -/
def rewriteFrame (rt : Runtime F) (frame : Bytes) (registry : CostRegistry) : Except PyError (Bytes × CostRegistry) :=
  match dataLine frame with
  | none => .ok (frame, registry)
  | some (lines, index) =>
      match linePayload rt lines index with
      | .error e => if e.isValueError then .ok (frame, registry) else .error e
      | .ok payload =>
          match annotateCompletionPayload rt payload registry with
          | (none, registry) => .ok (frame, registry)
          | (some payload, registry) => do
              let encoded ← encodeCompact rt payload
              return ([newline].intercalate (lines.set index (bytes "data: " ++ encoded)), registry)

def frameEnd : Bytes := [newline, newline]

/-- Rewrite frames in order: what was written before an exception, and the registry or the exception. -/
def rewriteFrames (rt : Runtime F) : List Bytes → CostRegistry → Bytes × Except PyError CostRegistry
  | [], registry => ([], .ok registry)
  | frame :: rest, registry =>
      match rewriteFrame rt frame registry with
      | .error e => ([], .error e)
      | .ok (out, registry) =>
          (out ++ (frameEnd ++ (rewriteFrames rt rest registry).1), (rewriteFrames rt rest registry).2)

/-! ### The wrapper -/

inductive AsgiMessage where
  | start (status : Int) (headers : List (Bytes × Bytes))
  | body (body : Bytes) (moreBody : Bool)
  | other (type : PyStr)
deriving DecidableEq

/-- `_header_value` -/
def headerValue (headers : List (Bytes × Bytes)) (name : Bytes) : Bytes :=
  match headers.find? (fun h => decide (lower h.1 = name)) with
  | some h => lower h.2
  | none => []

/-- `str(length).encode()` -/
def decimal (n : Nat) : Bytes := (Nat.toDigits 10 n).flatMap String.utf8EncodeChar

/-- `_headers_with_content_length` -/
def headersWithContentLength (headers : List (Bytes × Bytes)) (length : Nat) : List (Bytes × Bytes) :=
  headers.filter (fun h => decide (lower h.1 ≠ bytes "content-length")) ++ [(bytes "content-length", decimal length)]

/-- `_ResponseRewriter` -/
structure ResponseRewriter where
  startStatus : Int
  startHeaders : List (Bytes × Bytes)
  jsonChunks : List Bytes
  json : Bool
  sse : Bool
  sseBuffer : Bytes

namespace ResponseRewriter

def initial : ResponseRewriter := ⟨200, [], [], false, false, []⟩

/-- `_on_start` -/
def onStart (w : ResponseRewriter) (status : Int) (headers : List (Bytes × Bytes)) :
    List AsgiMessage × ResponseRewriter :=
  let contentType := headerValue headers (bytes "content-type")
  if status = 200 ∧ bytes "application/json" <+: contentType then
    ([], { w with json := true, startStatus := status, startHeaders := headers })
  else if status = 200 ∧ bytes "text/event-stream" <+: contentType then
    ([.start status headers], { w with sse := true })
  else ([.start status headers], w)

/-- `_on_json_body` -/
def onJsonBody (rt : Runtime F) (w : ResponseRewriter) (registry : CostRegistry) (body : Bytes) (moreBody : Bool) :
    Except PyError (List AsgiMessage × ResponseRewriter × CostRegistry) :=
  let w := { w with jsonChunks := w.jsonChunks ++ [body] }
  if moreBody then .ok ([], w, registry)
  else do
    let (newBody, registry) ← rewriteJson rt w.jsonChunks.flatten registry
    return ([.start w.startStatus (headersWithContentLength w.startHeaders newBody.length), .body newBody false], w,
      registry)

/-- `_on_sse_body` -/
def onSseBody (rt : Runtime F) (w : ResponseRewriter) (registry : CostRegistry) (body : Bytes) (moreBody : Bool) :
    Except PyError (List AsgiMessage × ResponseRewriter × CostRegistry) :=
  let (parts, remainder) := cutFrames frameEnd (w.sseBuffer ++ body)
  match rewriteFrames rt parts registry with
  | (_, .error e) => .error e
  | (out, .ok registry) =>
      let out := if moreBody then out else out ++ remainder
      .ok (if out = [] ∧ moreBody = true then [] else [.body out moreBody],
        { w with sseBuffer := if moreBody then remainder else [] }, registry)

/-- `send` -/
def send (rt : Runtime F) (w : ResponseRewriter) (registry : CostRegistry) :
    AsgiMessage → Except PyError (List AsgiMessage × ResponseRewriter × CostRegistry)
  | .start status headers => .ok ((w.onStart status headers).1, (w.onStart status headers).2, registry)
  | .body body moreBody =>
      if w.json then w.onJsonBody rt registry body moreBody
      else if w.sse then w.onSseBody rt registry body moreBody
      else .ok ([.body body moreBody], w, registry)
  | .other type => .ok ([.other type], w, registry)

end ResponseRewriter

/-! ### A response on its way -/

/-- The wrapper of a response, the shared registry, what was sent so far and the exception that ended it. -/
structure Response where
  rewriter : ResponseRewriter
  registry : CostRegistry
  sent : List AsgiMessage
  raised : Option PyError

/-- The application sends a message, or other responses use the registry. -/
inductive ResponseStep where
  | message (m : AsgiMessage)
  | elsewhere (change : CostRegistry → CostRegistry)

def responseStep (rt : Runtime F) (r : Response) : ResponseStep → Response
  | .elsewhere change => { r with registry := change r.registry }
  | .message m =>
      match r.raised with
      | some _ => r
      | none =>
          match r.rewriter.send rt r.registry m with
          | .error e => { r with raised := some e }
          | .ok (messages, rewriter, registry) => ⟨rewriter, registry, r.sent ++ messages, none⟩

/-- The bytes of the body messages. -/
def bodyOf : List AsgiMessage → Bytes
  | [] => []
  | .body body _ :: rest => body ++ bodyOf rest
  | _ :: rest => bodyOf rest

end Experiential.Wire
