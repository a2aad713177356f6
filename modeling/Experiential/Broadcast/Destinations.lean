import Mathlib.Data.List.Sort
import Experiential.Lib.PyUnicode

/-! # Destinations

The table of captured prompts, with the functions that write and read it: the capture, the queue
of undelivered rows, the claim and the release of a claim. A claim stamps the rows that are
still undelivered and whose organization consents at that moment, and returns exactly those.

The adapters: what each of them refuses when it is built, and the posts it makes of a batch. The
body of a post is the list of its events, an event the list of its fields under their paths; an
id that is a digest is kept as the text it is a digest of. With `includeContent` off, no field of
any post holds a prompt. -/

namespace Experiential.Broadcast

structure Organization where
  id : String
  capturePromptContent : Bool
deriving DecidableEq

/-- One `gateway_requests` row. -/
structure GatewayRequest where
  requestId : String
  orgId : String
  model : String
deriving DecidableEq

/-- One `gateway_captured_prompts` row. -/
structure CapturedPrompt where
  requestId : String
  orgId : String
  promptSha256 : Option String
  messages : List String
  capturedAt : Int
  exportedAt : Option Int
deriving DecidableEq

/-- One row of the queue. -/
structure CaptureExportRow where
  requestId : String
  orgId : String
  model : String
  promptSha256 : Option String
  messages : List String
  capturedAt : Int
deriving DecidableEq

inductive ConnectionKind where
  | braintrust
  | langfuse
  | langsmith
  | phoenix
  | posthog
  | mastra
  | postgres
deriving DecidableEq

/-- `BroadcastConfig`. -/
structure BroadcastConfig where
  enabled : Bool := false
  privacyMode : Bool := false
  captureToken : Option String := none
deriving DecidableEq

/-- The `broadcast` entry of a connection's configuration. -/
inductive BroadcastEntry where
  | absent
  | malformed
  | object (config : BroadcastConfig)
deriving DecidableEq

/-- A connection's configuration; the host is an `https` one, without spaces around it or slashes
at its end. -/
structure ConnectionConfig where
  host : Option String
  project : Option String
  broadcast : BroadcastEntry
deriving DecidableEq

/-- One `trace_connections` row; its credential is in the vault. -/
structure TraceConnection where
  id : String
  orgId : String
  kind : ConnectionKind
  config : ConnectionConfig
deriving DecidableEq

structure Tables where
  organizations : List Organization
  requests : List GatewayRequest
  captured : List CapturedPrompt
  connections : List TraceConnection
deriving DecidableEq

section functions
variable (db : Tables)

/-- The organization's `capture_prompt_content`. -/
def Tables.consents (orgId : String) : Bool :=
  db.organizations.any fun o => decide (o.id = orgId) && o.capturePromptContent

/-- `gateway_capture_prompt`. -/
def gatewayCapturePrompt (requestId orgId : String) (promptSha256 : Option String) (messages : List String)
    (now : Int) : Tables :=
  if db.consents orgId = false then db
  else if db.requests.any (fun r => decide (r.requestId = requestId) && decide (r.orgId = orgId)) = false then
    db
  else if requestId ∈ db.captured.map (·.requestId) then db
  else
    { db with captured := db.captured ++ [⟨requestId, orgId, promptSha256, messages, now, none⟩] }

/-- The row of the queue of a captured prompt and its request. -/
def CapturedPrompt.exportRow (p : CapturedPrompt) (r : GatewayRequest) : CaptureExportRow :=
  ⟨p.requestId, p.orgId, r.model, p.promptSha256, p.messages, p.capturedAt⟩

/-- The `limit` of `gateway_captured_prompts_to_export`. -/
def exportLimit (inLimit : Option Int) : Nat := (min (max (inLimit.getD 100) 1) 500).toNat

/-- A captured prompt is in the queue. -/
def Tables.queued (excludeOrgs : List String) (p : CapturedPrompt) : Bool :=
  p.exportedAt.isNone && db.consents p.orgId && !decide (p.orgId ∈ excludeOrgs)

/-- The queue, joined with the requests. -/
def Tables.queue (excludeOrgs : List String) : List CaptureExportRow :=
  (db.captured.filter (db.queued excludeOrgs)).filterMap fun p =>
    (db.requests.find? fun r => decide (r.requestId = p.requestId)).map p.exportRow

/-- `gateway_captured_prompts_to_export`: the oldest ones first. -/
def gatewayCapturedPromptsToExport (inLimit : Option Int) (excludeOrgs : List String) : List CaptureExportRow :=
  ((db.queue excludeOrgs).insertionSort fun a b => a.capturedAt ≤ b.capturedAt).take (exportLimit inLimit)

/-- The claim stamps the row. -/
def Tables.claims (requestIds : List String) (p : CapturedPrompt) : Bool :=
  decide (p.requestId ∈ requestIds) && p.exportedAt.isNone && db.consents p.orgId

/-- `gateway_captured_prompts_mark_exported`. -/
def gatewayCapturedPromptsMarkExported (requestIds : List String) (now : Int) : Tables × List String :=
  ({ db with
    captured := db.captured.map fun p =>
      if db.claims requestIds p then { p with exportedAt := some now } else p },
    (db.captured.filter (db.claims requestIds)).map (·.requestId))

/-- `gateway_captured_prompts_unmark_exported`. -/
def gatewayCapturedPromptsUnmarkExported (requestIds : List String) : Tables :=
  { db with
    captured := db.captured.map fun p =>
      if p.requestId ∈ requestIds then { p with exportedAt := none } else p }

/-- `find_connection`. -/
def findConnection (orgId : String) (kind : ConnectionKind) : Option TraceConnection :=
  db.connections.find? fun c => decide (c.orgId = orgId) && decide (c.kind = kind)

end functions

/-- `BroadcastConfig.from_connection_config`: absent or malformed is disabled. -/
def BroadcastConfig.fromConnectionConfig (config : ConnectionConfig) : BroadcastConfig :=
  match config.broadcast with
  | .absent => {}
  | .malformed => {}
  | .object c => c

inductive FieldValue where
  | null
  | text (s : String)
  | number (n : Int)
  | time (t : Int)
  /-- Part of the SHA-256 of a text. -/
  | sha256 (s : String) (start stop : Nat)
  /-- The UUID of a name. -/
  | uuid5 (name : String)
  /-- The row's messages. -/
  | content (row : CaptureExportRow)
deriving DecidableEq

abbrev Event := List (String × FieldValue)

/-- Where a post goes. -/
inductive PostTarget where
  | project (host : String)
  | projectLogs (host projectId : String)
  | traces (url : String)
  | runs (endpoint : String)
  | batch (host : String)
deriving DecidableEq

structure Post where
  target : PostTarget
  body : List Event
deriving DecidableEq

/-- The class of an exception. -/
inductive Raised where
  | httpError
  | runtimeError
  | valueError
  | other (name : String)
deriving DecidableEq

/-- The classes that `run_broadcast` handles. -/
def Raised.handled : Raised → Bool
  | .other _ => false
  | _ => true

section events
variable (includeContent : Bool) (row : CaptureExportRow)

def promptGroup : FieldValue :=
  match row.promptSha256 with
  | none => .null
  | some sha => .text (sha.take 12).toString

/-- `_metadata`. -/
def metadata : Event :=
  [("source", .text "explabs-gateway"), ("request_id", .text row.requestId), ("model", .text row.model),
    ("prompt_group", promptGroup row), ("captured_at", .time row.capturedAt)]

/-- An event's fields under the key that holds it. -/
def Event.under (key : String) (e : Event) : Event := e.map fun f => (key ++ "." ++ f.1, f.2)

/-- `_deterministic_uuid`. -/
def deterministicUuid (kind : String) : FieldValue := .uuid5 s!"explabs-broadcast:{kind}:{row.requestId}"

def contentAt (path : String) : Event := if includeContent then [(path, .content row)] else []

def eventName : String := "explabs-gateway-capture"

def defaultProjectName : String := "explabs-gateway-broadcast"

def braintrustEvent : Event :=
  ("id", .text row.requestId) :: (metadata row).under "metadata" ++ contentAt includeContent row "input"

/-- One span of `_otlp_payload`. -/
def otlpSpan : Event :=
  [("traceId", .sha256 s!"explabs-broadcast:{row.requestId}" 0 32),
    ("spanId", .sha256 s!"explabs-broadcast:{row.requestId}" 32 48), ("name", .text eventName),
    ("kind", .number 1), ("startTimeUnixNano", .time row.capturedAt), ("endTimeUnixNano", .time row.capturedAt),
    ("attributes.openinference.span.kind", .text "LLM"), ("attributes.llm.model_name", .text row.model),
    ("attributes.gen_ai.request.model", .text row.model),
    ("attributes.explabs.request_id", .text row.requestId)] ++
  (if row.promptSha256.isSome then [("attributes.explabs.prompt_group", promptGroup row)] else []) ++
  contentAt includeContent row "attributes.input.value"

def langsmithRun (session : String) : Event :=
  [("id", deterministicUuid row "langsmith"), ("name", .text eventName), ("run_type", .text "llm"),
    ("start_time", .time row.capturedAt), ("end_time", .time row.capturedAt)] ++
  contentAt includeContent row "inputs.messages" ++ (metadata row).under "extra.metadata" ++
  [("session_name", .text session)]

def posthogEvent : Event :=
  [("event", .text "$ai_generation"), ("distinct_id", .text "explabs-gateway"),
    ("uuid", deterministicUuid row "posthog"), ("timestamp", .time row.capturedAt),
    ("properties.$ai_model", .text row.model), ("properties.$ai_provider", .text "explabs-gateway"),
    ("properties.explabs_request_id", .text row.requestId),
    ("properties.explabs_prompt_group", promptGroup row)] ++
  contentAt includeContent row "properties.$ai_input"

end events

/-- `_DEFAULT_HOSTS`. -/
def defaultHost : ConnectionKind → Option String
  | .braintrust => some "https://api.braintrust.dev"
  | .langfuse => some "https://cloud.langfuse.com"
  | .langsmith => some "https://api.smith.langchain.com"
  | .posthog => some "https://us.posthog.com"
  | _ => none

/-- `_host`. -/
def host (config : ConnectionConfig) (kind : ConnectionKind) : Except Raised String :=
  match config.host.or (defaultHost kind) with
  | some h => .ok h
  | none => .error .valueError

/-- `_project`: a blank one is none. -/
def project (config : ConnectionConfig) : String :=
  ((config.project.map Py.Str.stripText).filter (· ≠ "")).getD defaultProjectName

/-- A `public:secret` pair. -/
def isCredentialPair (credential : String) : Bool :=
  let publicKey := credential.toList.takeWhile (· ≠ ':')
  let rest := credential.toList.dropWhile (· ≠ ':')
  !publicKey.isEmpty && decide (1 < rest.length)

/-- `_destination` and the posts of its `deliver`, in order. -/
def deliveryPosts (kind : ConnectionKind) (credential : String) (connectionConfig : ConnectionConfig)
    (config : BroadcastConfig) (rows : List CaptureExportRow) (includeContent : Bool) :
    Except Raised (List Post) := do
  match kind with
  | .braintrust =>
      let h ← host connectionConfig kind
      return [⟨.project h, [[("name", .text (project connectionConfig))]]⟩,
        ⟨.projectLogs h "", rows.map (braintrustEvent includeContent)⟩]
  | .langfuse =>
      if !isCredentialPair credential then throw .valueError
      let h ← host connectionConfig kind
      return [⟨.traces (h ++ "/api/public/otel/v1/traces"), rows.map (otlpSpan includeContent)⟩]
  | .phoenix =>
      let h ← host connectionConfig kind
      return [⟨.traces (h ++ "/v1/traces"), rows.map (otlpSpan includeContent)⟩]
  | .langsmith =>
      let h ← host connectionConfig kind
      return rows.map fun row => ⟨.runs h, [langsmithRun includeContent row (project connectionConfig)]⟩
  | .posthog =>
      if Py.Str.stripText (config.captureToken.getD "") = "" then throw .valueError
      let h ← host connectionConfig kind
      return [⟨.batch h, rows.map (posthogEvent includeContent)⟩]
  | _ => throw .valueError

/-- The answer to a post: `raise_for_status`, but a run that is there already is delivered. -/
def PostTarget.accepts (target : PostTarget) (status : Nat) : Bool :=
  match target with
  | .runs _ => decide (status = 409) || decide (200 ≤ status ∧ status < 300)
  | _ => decide (200 ≤ status ∧ status < 300)

/-- The logs go to the project that the first post has resolved. -/
def Post.withProject (projectId : String) (p : Post) : Post :=
  match p.target with
  | .projectLogs h _ => { p with target := .projectLogs h projectId }
  | _ => p

/-- A post holds a row's prompt. -/
def Post.Holds (p : Post) (row : CaptureExportRow) : Prop := ∃ e ∈ p.body, ∃ f ∈ e, f.2 = .content row

/-! ### What posts hold -/

section adapters
variable {includeContent : Bool} {row row' : CaptureExportRow}

theorem not_content_promptGroup : promptGroup row ≠ .content row' := by
  unfold promptGroup
  split <;> simp

variable {f : String × FieldValue}

theorem not_content_metadata (h : f ∈ metadata row) : f.2 ≠ .content row' := by
  unfold metadata at h
  simp only [List.mem_cons, List.not_mem_nil, or_false] at h
  rcases h with rfl | rfl | rfl | rfl | rfl
  · simp
  · simp
  · simp
  · exact not_content_promptGroup
  · simp

theorem not_content_under {key : String} (h : f ∈ (metadata row).under key) : f.2 ≠ .content row' := by
  obtain ⟨g, hg, rfl⟩ := List.mem_map.mp h
  exact not_content_metadata (f := g) hg

theorem content_contentAt {path : String} (h : f ∈ contentAt includeContent row path)
    (hf : f.2 = .content row') : row = row' ∧ includeContent = true := by
  unfold contentAt at h
  split_ifs at h with hon
  · rw [List.mem_singleton.mp h] at hf
    exact ⟨FieldValue.content.inj hf, hon⟩
  · exact absurd h List.not_mem_nil

theorem braintrustEvent_content (h : f ∈ braintrustEvent includeContent row)
    (hf : f.2 = .content row') : row = row' ∧ includeContent = true := by
  unfold braintrustEvent at h
  simp only [List.mem_cons, List.mem_append] at h
  rcases h with (rfl | h) | h
  · cases hf
  · exact absurd hf (not_content_under h)
  · exact content_contentAt h hf

theorem otlpSpan_content (h : f ∈ otlpSpan includeContent row)
    (hf : f.2 = .content row') : row = row' ∧ includeContent = true := by
  unfold otlpSpan at h
  simp only [List.mem_append, List.mem_cons, List.not_mem_nil, or_false] at h
  rcases h with (h | h) | h
  · rcases h with rfl | rfl | rfl | rfl | rfl | rfl | rfl | rfl | rfl | rfl <;> cases hf
  · split_ifs at h
    · rw [List.mem_singleton.mp h] at hf
      exact absurd hf not_content_promptGroup
    · exact absurd h List.not_mem_nil
  · exact content_contentAt h hf

theorem langsmithRun_content {session : String}
    (h : f ∈ langsmithRun includeContent row session) (hf : f.2 = .content row') :
    row = row' ∧ includeContent = true := by
  unfold langsmithRun at h
  simp only [List.mem_append, List.mem_cons, List.not_mem_nil, or_false] at h
  rcases h with ((h | h) | h) | rfl
  · rcases h with rfl | rfl | rfl | rfl | rfl <;> cases hf
  · exact content_contentAt h hf
  · exact absurd hf (not_content_under h)
  · cases hf

theorem posthogEvent_content (h : f ∈ posthogEvent includeContent row)
    (hf : f.2 = .content row') : row = row' ∧ includeContent = true := by
  unfold posthogEvent at h
  simp only [List.mem_append, List.mem_cons, List.not_mem_nil, or_false] at h
  rcases h with h | h
  · rcases h with rfl | rfl | rfl | rfl | rfl | rfl | rfl | rfl
    all_goals first
      | exact absurd hf not_content_promptGroup
      | cases hf
  · exact content_contentAt h hf

/-- A batch of events holds the prompts of its rows, if content is included. -/
theorem holds_map {target : PostTarget} {event : CaptureExportRow → Event} {rows : List CaptureExportRow}
    (hevent : ∀ row, ∀ f ∈ event row, f.2 = .content row' → row = row' ∧ includeContent = true)
    (h : Post.Holds ⟨target, rows.map event⟩ row') : row' ∈ rows ∧ includeContent = true := by
  obtain ⟨e, he, f, hf, hcontent⟩ := h
  obtain ⟨row, hrow, rfl⟩ := List.mem_map.mp he
  obtain ⟨rfl, hon⟩ := hevent row f hf hcontent
  exact ⟨hrow, hon⟩

/-- **An adapter's posts hold the prompts of its rows, and none without content.** -/
theorem deliveryPosts_holds {kind : ConnectionKind} {credential : String} {connectionConfig : ConnectionConfig}
    {config : BroadcastConfig} {rows : List CaptureExportRow} {posts : List Post} {p : Post}
    (h : deliveryPosts kind credential connectionConfig config rows includeContent = .ok posts)
    (hp : p ∈ posts) (hholds : p.Holds row') : row' ∈ rows ∧ includeContent = true := by
  unfold deliveryPosts at h
  cases hhost : host connectionConfig kind with
  | error e =>
      -- without a host nothing is built
      cases kind <;> simp only [hhost] at h
      case langfuse => split_ifs at h <;> cases h
      case posthog => split_ifs at h <;> cases h
      all_goals cases h
  | ok base =>
      cases kind with
      | braintrust =>
          simp only [hhost] at h
          cases h
          simp only [List.mem_cons, List.not_mem_nil, or_false] at hp
          rcases hp with rfl | rfl
          · obtain ⟨e, he, f, hf, hcontent⟩ := hholds
            rw [List.mem_singleton.mp he] at hf
            rw [List.mem_singleton.mp hf] at hcontent
            cases hcontent
          · exact holds_map (fun _ _ => braintrustEvent_content) hholds
      | langfuse =>
          simp only [hhost] at h
          split_ifs at h
          · cases h
          · cases h
            rw [List.mem_singleton.mp hp] at hholds
            exact holds_map (fun _ _ => otlpSpan_content) hholds
      | phoenix =>
          simp only [hhost] at h
          cases h
          rw [List.mem_singleton.mp hp] at hholds
          exact holds_map (fun _ _ => otlpSpan_content) hholds
      | langsmith =>
          simp only [hhost] at h
          cases h
          obtain ⟨row, hrow, rfl⟩ := List.mem_map.mp hp
          obtain ⟨e, he, f, hf, hcontent⟩ := hholds
          rw [List.mem_singleton.mp he] at hf
          obtain ⟨rfl, hon⟩ := langsmithRun_content hf hcontent
          exact ⟨hrow, hon⟩
      | posthog =>
          simp only [hhost] at h
          split_ifs at h
          · cases h
          · cases h
            rw [List.mem_singleton.mp hp] at hholds
            exact holds_map (fun _ _ => posthogEvent_content) hholds
      | mastra => cases h
      | postgres => cases h

theorem withProject_holds {projectId : String} {p : Post} : (p.withProject projectId).Holds row ↔ p.Holds row := by
  unfold Post.withProject
  split <;> exact Iff.rfl

end adapters

end Experiential.Broadcast
