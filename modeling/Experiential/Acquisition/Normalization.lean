import Experiential.Acquisition.TraceRows
import Experiential.Lib.PyUnicode
import Mathlib.Data.List.Sort

/-! # Normalization of trace objects

An object is a JSON document or one on every line. Its records are the items of arrays, the spans of OTLP resources,
the children of wrappers, or the documents themselves, and each becomes a row under its place and the digest of its
canonical text. Rows and records correspond (`normalize_eq_ok_iff`), and no two rows have one id. -/

namespace Experiential.Acquisition

open Py

/-- The interpreter with what it brings: digests, and times of day. -/
structure TraceRuntime (F M : Type) where
  rt : Runtime F
  /-- The containers within which functions of Python call each other; the limit of `rt` is that of `json`. -/
  otelLimit : ℕ
  isFinite : F → Bool
  /-- `hashlib.sha256(b).hexdigest()` -/
  hexdigest : Bytes → String
  /-- `datetime.fromisoformat(s)` -/
  fromisoformat : PyStr → Except PyError M
  /-- `moment.tzinfo is None` -/
  isNaive : M → Bool
  /-- `int(moment.timestamp() * 1_000_000_000)` -/
  timestampNs : M → Except PyError ℤ
  /-- `moment.astimezone(UTC).strftime("%Y-%m-%d %H:%M:%S.%f")` -/
  utcText : M → Except PyError PyStr

/-- What normalization raises; a `TraceNormalizationError` carries its message. -/
inductive TraceError where
  | normalization (message : String)
  | python (e : PyError)
deriving DecidableEq

def liftPython {α : Type} (x : Except PyError α) : Except TraceError α := x.mapError .python

variable {F M : Type}

/-! ### Canonical text -/

/-- The order of two keys by their code points. -/
def keyLe : PyStr → PyStr → Bool
  | [], _ => true
  | _ :: _, [] => false
  | c :: s, d :: t => decide (c.toNat < d.toNat) || c.toNat == d.toNat && keyLe s t

/-- `sorted(d.items())` -/
def sortedItems (entries : Entries F) : Entries F := entries.insertionSort fun a b => keyLe a.1 b.1 = true

variable (env : TraceRuntime F M)

/-- `json.dumps` of a value within `depth` containers, with sorted keys and finite numbers. -/
def canonicalWithin : ℕ → Json F → Except PyError PyStr
  | _, .null => .ok (text "null")
  | _, .bool true => .ok (text "true")
  | _, .bool false => .ok (text "false")
  | _, .int n => .ok (intText n)
  | _, .float x => if env.isFinite x then .ok ((env.rt.floatText x).map .scalar) else .error .value
  | _, .str s => .ok (quote s)
  | 0, .list _ => .error .recursion
  | 0, .dict _ => .error .recursion
  | depth + 1, .list items => do
      let ts ← items.mapM (canonicalWithin depth)
      return .scalar '[' :: ((text ",").intercalate ts ++ [.scalar ']'])
  | depth + 1, .dict entries => do
      let ts ← (sortedItems entries).mapM fun e => do
        let t ← canonicalWithin depth e.2
        return quote e.1 ++ (text ":" ++ t)
      return .scalar '\x7b' :: ((text ",").intercalate ts ++ [.scalar '\x7d'])

/-- `_canonical_json` -/
def canonicalJson (v : Json F) : Except TraceError PyStr :=
  match canonicalWithin env env.rt.recursionLimit v with
  | .ok t => .ok t
  | .error e =>
    if e = .recursion ∨ e = .type ∨ e.isValueError then .error (.normalization "trace record contains unsupported JSON")
    else .error (.python e)

/-! ### Documents -/

/-- `json.loads(s)`, where `RecursionError` and `ValueError` are caught. -/
def loadsCaught (s : PyStr) : Except PyError (Option (Json F)) :=
  match loads env.rt s with
  | .ok v => .ok (some v)
  | .error e => if e = .recursion ∨ e.isValueError then .ok none else .error e

/-- A line of a JSONL object; a blank one is none. -/
def decodeLine (line : PyStr) : Except TraceError (Option (Json F)) := do
  if (Str.strip line).isEmpty then return none
  match ← liftPython (loadsCaught env line) with
  | some v => return some v
  | none => throw (.normalization "stored trace object is not valid JSON or JSONL")

/-- `_decode_documents` -/
def decodeDocuments (content : Bytes) : Except TraceError (List (Json F)) :=
  match decodeStrict content with
  | .error _ => .error (.normalization "stored trace object is not UTF-8")
  | .ok text => do
    match ← liftPython (loadsCaught env text) with
    | some decoded => return [decoded]
    | none => return (← (Str.splitlines text).mapM (decodeLine env)).filterMap id

/-! ### Records -/

/-- The keys of the source. -/
def genericWrapperKeys : List PyStr := [text "runs", text "spans", text "traces"]
def otlpScopeKeys : List PyStr := [text "scopeSpans", text "instrumentationLibrarySpans"]
def traceIdKeys : List PyStr := [text "trace_id", text "traceId", text "traceID"]
def spanIdKeys : List PyStr := [text "span_id", text "spanId", text "spanID", text "id"]
def parentIdKeys : List PyStr := [text "parent_span_id", text "parentSpanId", text "parentSpanID", text "parent_id"]
def nameKeys : List PyStr := [text "name", text "operation_name", text "operationName", text "span_name", text "event"]
def startNsKeys : List PyStr := [text "startTimeUnixNano", text "start_time_unix_nano", text "start_time_ns"]
def endNsKeys : List PyStr := [text "endTimeUnixNano", text "end_time_unix_nano", text "end_time_ns"]
def durationNsKeys : List PyStr := [text "duration_ns", text "durationNanos", text "durationNano"]
def modelAttributeKeys : List PyStr :=
  [text "gen_ai.request.model", text "gen_ai.response.model", text "llm.model_name", text "model"]
def inputTokenKeys : List PyStr :=
  [text "gen_ai.usage.input_tokens", text "llm.token_count.prompt", text "input_tokens", text "prompt_tokens"]
def outputTokenKeys : List PyStr :=
  [text "gen_ai.usage.output_tokens", text "llm.token_count.completion", text "output_tokens", text "completion_tokens"]

/-- `_object_record` -/
def objectRecord : Json F → Entries F
  | .dict entries => entries
  | v => [(text "value", v)]

/-- `record.get(key)` -/
def getOr (record : Entries F) (key : String) : Json F := (record.get? (text key)).getD .null

/-- `_is_scalar` -/
def isScalar : Json F → Bool
  | .list _ | .dict _ => false
  | _ => true

/-- `isinstance(v, list)`, with its items. -/
def items? : Json F → Option (List (Json F))
  | .list items => some items
  | _ => none

/-- `isinstance(v, Mapping)` -/
def isMapping : Json F → Bool
  | .dict _ => true
  | _ => false

/-- The keys that `_looks_like_trace_record` looks for. -/
def traceRecordKeys : List PyStr :=
  traceIdKeys ++ spanIdKeys ++ parentIdKeys ++ nameKeys ++ startNsKeys ++ endNsKeys ++ durationNsKeys ++
    [text "attributes", text "status", text "timestamp", text "timestamp_ns"]

/-- `_looks_like_trace_record` -/
def looksLikeTraceRecord (record : Entries F) : Bool := record.any fun e => decide (e.1 ∈ traceRecordKeys)

/-- `d.update(d')` -/
def update (d d' : Entries F) : Entries F := d'.foldl (fun d e => d.set e.1 e.2) d

/-- The entries under keys with a prefix. -/
def prefixed (start : String) (d : Entries F) : Entries F := d.map fun e => (text start ++ e.1, e.2)

/-- The members of a list of key and value, or of an OTLP `kvlistValue`, with their values unwrapped. -/
def flattenItems (unwrap : Json F → Except PyError (Json F)) (items : List (Json F)) : Except PyError (Entries F) :=
  items.foldlM (fun flattened item =>
    match item with
    | .dict itemObject =>
      match Entries.get? itemObject (text "key") with
      | some (.str key) => do
          let value ← unwrap (getOr itemObject "value")
          return flattened.set key value
      | _ => .ok flattened
    | _ => .ok flattened) []

/-- `_otel_value` within `depth` containers, with `_otel_array` and `_otel_key_value_list`. -/
def otelValue : ℕ → Json F → Except PyError (Json F)
  | 0, .dict _ => .error .recursion
  | depth + 1, .dict mapped =>
    match [text "stringValue", text "boolValue", text "intValue", text "doubleValue", text "bytesValue"].findSome?
        (Entries.get? mapped) with
    | some value => .ok value
    | none =>
      match Entries.get? mapped (text "arrayValue"), Entries.get? mapped (text "kvlistValue") with
      | some (.dict arrayValue), _ => do
          let items ← ((items? (getOr arrayValue "values")).getD []).mapM (otelValue depth)
          return .list items
      | _, some (.dict keyValueList) => do
          let flattened ← flattenItems (otelValue depth) ((items? (getOr keyValueList "values")).getD [])
          return .dict flattened
      | _, _ => do
          let entries ← mapped.mapM fun e => do return (e.1, ← otelValue depth e.2)
          return .dict entries
  | _, value => .ok value

/-- `_attributes` -/
def attributes (record : Entries F) : Except PyError (Entries F) :=
  match getOr record "attributes" with
  | .dict entries => entries.mapM fun e => do return (e.1, ← otelValue env.otelLimit e.2)
  | .list items => flattenItems (otelValue env.otelLimit) items
  | _ => .ok []

/-- A record with the context it inherits. -/
abbrev Extracted (F : Type) := Entries F × Entries F

/-- The context of the spans of a resource. -/
def resourceContext (resourceSpan : Entries F) : Except PyError (Entries F) :=
  match getOr resourceSpan "resource" with
  | .dict resource => do
      let flattened ← attributes env resource
      return prefixed "resource." flattened
  | _ => .ok []

/-- The context of the spans of a scope. -/
def scopeContext (inherited scope : Entries F) : Entries F :=
  match (getOr scope "scope").orElse env.rt (getOr scope "instrumentationLibrary") with
  | .dict identity => update inherited (prefixed "scope." (identity.filter fun e => isScalar e.2))
  | _ => inherited

/-- `_iter_otlp_resource_span` -/
def iterOtlpResourceSpan (resourceSpan : Entries F) : Except PyError (List (Extracted F)) := do
  let inherited ← resourceContext env resourceSpan
  let scopes := otlpScopeKeys.flatMap fun key => ((resourceSpan.get? key).bind items?).getD []
  return scopes.flatMap fun scope =>
    ((items? (getOr (objectRecord scope) "spans")).getD []).map fun span =>
      (objectRecord span, scopeContext env inherited (objectRecord scope))

/-- The children of a wrapper with the context of what is beside them. -/
def wrappedRecords? (record : Entries F) : Option (List (Extracted F)) :=
  match genericWrapperKeys.filter fun key => (((record.get? key).bind items?).isSome : Bool) with
  | [wrapperKey] =>
    if looksLikeTraceRecord record then none
    else
      let siblings := record.filter fun e => decide (e.1 ≠ wrapperKey)
      let wrapped := ((record.get? wrapperKey).bind items?).getD []
      if siblings.all (fun e => isScalar e.2) && !wrapped.isEmpty &&
          wrapped.all (fun child => isMapping child && looksLikeTraceRecord (objectRecord child)) then
        some (wrapped.map fun child => (objectRecord child, prefixed "platform.wrapper." siblings))
      else none
  | _ => none

/-- What `_iter_extracted_records` yields of one document, or raises while it does; nothing is taken behind that. -/
def documentRecords (document : Json F) : List (Except PyError (Extracted F)) :=
  match document with
  | .list items => items.map fun item => .ok (objectRecord item, [])
  | document =>
    let record := objectRecord document
    match (record.get? (text "resourceSpans")).bind items? with
    | some resourceSpans => resourceSpans.flatMap fun resourceSpan =>
        match iterOtlpResourceSpan env (objectRecord resourceSpan) with
        | .ok spans => spans.map .ok
        | .error e => [.error e]
    | none => ((wrappedRecords? record).getD [(record, [])]).map .ok

/-- `_iter_extracted_records` -/
def iterExtractedRecords (documents : List (Json F)) : List (Except PyError (Extracted F)) :=
  documents.flatMap (documentRecords env)

/-! ### Fields -/

/-- The first of the keys that gives something, where each may raise. -/
def firstKey {α : Type} (f : PyStr → Except PyError (Option α)) : List PyStr → Except PyError (Option α)
  | [] => .ok none
  | key :: keys => do
    match ← f key with
    | some a => return some a
    | none => firstKey f keys

/-- `_text` -/
def textOf (values : Entries F) (keys : List PyStr) : Option PyStr :=
  keys.findSome? fun key =>
    match values.get? key with
    | some (.str value) => if value.isEmpty then none else some value
    | some (.int value) => some (intText value)
    | _ => none

/-- `_first_text` -/
def firstText (values : Entries F) (keys : List PyStr) : Option PyStr :=
  keys.findSome? fun key =>
    match values.get? key with
    | some (.str value) => if (Str.strip value).isEmpty then none else some (Str.strip value)
    | _ => none

/-- `_first_nonnegative_optional_int` -/
def firstNonnegativeOptionalInt (values : Entries F) : List PyStr → Except PyError (Option ℤ) :=
  firstKey fun key =>
    match values.get? key with
    | some (.int value) => .ok (if 0 ≤ value then some value else none)
    | some (.str value) => if Str.isdigit value then some <$> env.rt.intOf value else .ok none
    | _ => .ok none

/-- `_first_nonnegative_int` -/
def firstNonnegativeInt (values : Entries F) (keys : List PyStr) : Except PyError ℤ := do
  let value ← firstNonnegativeOptionalInt env values keys
  return value.getD 0

/-- The keys of start times in ISO format. -/
def startTimeKeys : List PyStr := [text "start_time", text "startTime", text "started_at", text "timestamp"]

/-- `_timestamp_ns` -/
def startedAt (record : Entries F) : Except PyError (Option ℤ) := do
  match ← firstNonnegativeOptionalInt env record startNsKeys with
  | some direct => return some direct
  | none => firstKey (fun key =>
      match record.get? key with
      | some (.str value) =>
        match env.fromisoformat value with
        | .ok moment => some <$> env.timestampNs moment
        | .error e => if e.isValueError then .ok none else .error e
      | _ => .ok none) startTimeKeys

/-- `_duration_ns` -/
def durationOf (record : Entries F) (startedAtNs : Option ℤ) : Except PyError (Option ℤ) := do
  match ← firstNonnegativeOptionalInt env record durationNsKeys with
  | some direct => return some direct
  | none =>
    let endedAtNs ← firstNonnegativeOptionalInt env record endNsKeys
    match startedAtNs, endedAtNs with
    | some start, some ended =>
      if start ≤ ended then return some (ended - start)
      else return (← firstNonnegativeOptionalInt env record [text "duration_ms", text "latency_ms"]).map (· * 1000000)
    | _, _ => return (← firstNonnegativeOptionalInt env record [text "duration_ms", text "latency_ms"]).map (· * 1000000)

/-- `raw.strip().lower()[:64]` -/
def label (raw : PyStr) : PyStr := (Str.lower (Str.strip raw)).take 64

/-- `_status` -/
def statusOf (record attributes : Entries F) : PyStr :=
  let raw := match getOr record "status" with
    | .dict statusObject => (getOr statusObject "code").orElse env.rt
        ((getOr statusObject "status_code").orElse env.rt (getOr statusObject "message"))
    | raw => raw
  let fallback :=
    if [text "error", text "error.type", text "exception.type"].any (fun key =>
        ((attributes.get? key).getD .null).truthy env.rt) then text "error" else text "unset"
  match raw with
  | .str raw => if (Str.strip raw).isEmpty then fallback else label raw
  | .int raw => intText raw
  | .bool true => text "true"
  | .bool false => text "false"
  | _ => fallback

/-- `_span_kind` -/
def spanKindOf (record : Entries F) : PyStr :=
  match (getOr record "kind").orElse env.rt ((getOr record "span_kind").orElse env.rt (getOr record "role")) with
  | .str raw => label raw
  | .int raw => intText raw
  | .bool true => text "True"
  | .bool false => text "False"
  | _ => text "unspecified"

/-- `_clickhouse_datetime` -/
def clickhouseDatetime (value : PyStr) : Except TraceError PyStr :=
  match env.fromisoformat value with
  | .error e => if e.isValueError then .error (.normalization "trace receipt timestamp is invalid") else .error (.python e)
  | .ok moment =>
    if env.isNaive moment then .error (.normalization "trace receipt timestamp must include a timezone")
    else liftPython (env.utcText moment)

/-! ### Rows -/

/-- What is known of the object besides its octets. -/
structure TraceReceipt where
  orgId : PyStr
  ingestId : PyStr
  sourceKind : PyStr
  transportKind : PyStr
  sourceLabel : PyStr
  objectSha256 : String
  receivedAt : PyStr
  projectionVersion : ℤ
  projectionAttempt : ℤ

/-- `_attributes(record)` with what the record inherits. -/
def attributesWith (e : Extracted F) : Except PyError (Entries F) := do
  let own ← attributes env e.1
  return update own e.2

/-- `hashlib.sha256(payload_json.encode()).hexdigest()` -/
def payloadDigest (payloadJson : PyStr) : Except PyError String := do
  let encoded ← encode payloadJson
  return env.hexdigest encoded

/-- What the id of a row is the digest of. -/
def eventText (objectSha256 : String) (index : ℕ) (payloadSha256 : String) : String :=
  objectSha256 ++ ":" ++ toString index ++ ":" ++ payloadSha256

/-- What is read of a record beside its canonical text. -/
structure RecordFields (F : Type) where
  payloadSha256 : String
  attributes : Entries F
  startedAtNs : Option ℤ
  durationNs : Option ℤ
  inputTokens : ℤ
  outputTokens : ℤ

/-- The fields of a record that may raise. -/
def readRecord (e : Extracted F) (payloadJson : PyStr) : Except PyError (RecordFields F) := do
  let payloadSha256 ← payloadDigest env payloadJson
  let attributes ← attributesWith env e
  let startedAtNs ← startedAt env e.1
  let durationNs ← durationOf env e.1 startedAtNs
  let inputTokens ← firstNonnegativeInt env attributes inputTokenKeys
  let outputTokens ← firstNonnegativeInt env attributes outputTokenKeys
  return ⟨payloadSha256, attributes, startedAtNs, durationNs, inputTokens, outputTokens⟩

/-- The row of a record. -/
def recordRow (receipt : TraceReceipt) (index : ℕ) (record : Entries F) (payloadJson : PyStr) (fields : RecordFields F)
    (attributesJson receivedAt : PyStr) : NormalizedTraceRow :=
  let traceId := ((textOf record traceIdKeys).or (textOf fields.attributes traceIdKeys)).getD []
  let spanId := ((textOf record spanIdKeys).or (textOf fields.attributes spanIdKeys)).getD []
  { orgId := receipt.orgId
    ingestId := receipt.ingestId
    projectionVersion := receipt.projectionVersion
    projectionAttempt := receipt.projectionAttempt
    recordIndex := index
    eventId := text (env.hexdigest (bytes (eventText receipt.objectSha256 index fields.payloadSha256)))
    sourceKind := receipt.sourceKind
    transportKind := receipt.transportKind
    sourceLabel := receipt.sourceLabel
    eventType :=
      if !traceId.isEmpty || !spanId.isEmpty || fields.startedAtNs.isSome then text "span" else text "record"
    traceId := traceId
    spanId := spanId
    parentSpanId := textOf record parentIdKeys
    name := (textOf record nameKeys).getD []
    spanKind := spanKindOf env record
    status := statusOf env record fields.attributes
    startedAtNs := fields.startedAtNs
    durationNs := fields.durationNs
    model := (firstText fields.attributes modelAttributeKeys).or (textOf record [text "model", text "model_name"])
    inputTokens := fields.inputTokens
    outputTokens := fields.outputTokens
    attributesJson := attributesJson
    payloadJson := payloadJson
    payloadSha256 := text fields.payloadSha256
    objectSha256 := text receipt.objectSha256
    receivedAt := receivedAt }

/-- The body of the loop of `normalize_trace_object`. -/
def normalizeRecord (receipt : TraceReceipt) (index : ℕ) (e : Extracted F) : Except TraceError NormalizedTraceRow := do
  let payloadJson ← canonicalJson env (.dict e.1)
  let fields ← liftPython (readRecord env e payloadJson)
  let attributesJson ← canonicalJson env (.dict fields.attributes)
  let receivedAt ← clickhouseDatetime env receipt.receivedAt
  return recordRow env receipt index e.1 payloadJson fields attributesJson receivedAt

/-- What the loop makes of an item of the generator. -/
def rowOf (receipt : TraceReceipt) (item : Except PyError (Extracted F) × ℕ) : Except TraceError NormalizedTraceRow := do
  let e ← liftPython item.1
  normalizeRecord env receipt item.2 e

/-- `normalize_trace_object` -/
def normalizeTraceObject (receipt : TraceReceipt) (content : Bytes) : Except TraceError (List NormalizedTraceRow) := do
  ensure (env.hexdigest content = receipt.objectSha256)
    (.normalization "stored trace object digest does not match its receipt")
  let documents ← decodeDocuments env content
  let rows ← (iterExtractedRecords env documents).zipIdx.mapM (rowOf env receipt)
  ensure (rows ≠ []) (.normalization "stored trace object contains no records")
  return rows

end Experiential.Acquisition
