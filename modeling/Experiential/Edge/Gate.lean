import Mathlib.Data.List.TakeWhile
import Mathlib.Data.Bool.AllAny

/-! # The credential gate

A pattern of the edge is `^/s/../s$` with literal segments and `[^/]+`; as in `re`, the `$` also stands
before a final newline. The gate also reads the
path of the request's re-parsed URL, which ends at the first `?` or `#` and has lost its tabs and line
breaks (`urlPath_eq`).

`_ApiKeyAuthMiddleware` reads the path from the scope; `_api_key_rejection` and the customer-key check
read it again from the request's URL, and the router reads the scope's. `edge_sound_iff`: a request
that reaches a handler without operator credentials is on the allowlist as routed, exactly when its
re-parsed path is not allowed where its own is not, as for `/v1/models?x` as a decoded path
(`unlisted_path_passes`). -/

namespace Experiential.Edge

/-! ### Patterns -/

inductive PathSegment where
  | lit (s : List Char)
  /-- `[^/]+` -/
  | any
deriving DecidableEq

abbrev PathPattern := List PathSegment

/-- `pattern.match(path) is not None` -/
def matchPath : PathPattern → List Char → Bool
  | [], cs => decide (cs = []) || decide (cs = ['\n'])
  | .lit s :: rest, '/' :: cs => s.isPrefixOf cs && matchPath rest (cs.drop s.length)
  | .any :: rest, '/' :: cs =>
      !(cs.takeWhile (fun c => c != '/')).isEmpty && matchPath rest (cs.dropWhile fun c => c != '/')
  | _, _ => false

/-! ### The two allowlists -/

structure RouteRule where
  methods : List String
  pattern : PathPattern
deriving DecidableEq

/-- A literal segment. -/
def seg (s : String) : PathSegment := .lit s.toList

/-- `_CUSTOMER_KEY_ROUTES` without the archived surface. -/
def customerKeyRoutes : List RouteRule := [
  ⟨["GET"], [seg "v1", seg "models"]⟩,
  ⟨["POST"], [seg "v1", seg "chat", seg "completions"]⟩,
  ⟨["GET"], [seg "api", seg "gateway", seg "usage", seg "daily"]⟩,
  ⟨["GET"], [seg "api", seg "gateway", seg "usage", seg "events"]⟩,
  ⟨["POST"], [seg "api", seg "gateway", seg "usage", seg "import"]⟩,
  ⟨["GET"], [seg "api", seg "gateway", seg "keys", .any, seg "limits"]⟩,
  ⟨["GET"], [seg "api", seg "gateway", seg "catalog"]⟩,
  ⟨["GET"], [seg "api", seg "whoami"]⟩,
  ⟨["GET"], [seg "api", seg "keys"]⟩,
  ⟨["POST"], [seg "api", seg "orgs", .any, seg "yc-claim"]⟩,
  ⟨["GET"], [seg "api", seg "orgs", .any, seg "provider-connections"]⟩,
  ⟨["PUT"], [seg "api", seg "orgs", .any, seg "provider-connections", .any]⟩,
  ⟨["POST"], [seg "api", seg "orgs", .any, seg "provider-connections", .any, seg "check"]⟩,
  ⟨["POST"], [seg "api", seg "orgs", .any, seg "provider-connections", .any, seg "spend-refresh"]⟩,
  ⟨["GET", "POST"], [seg "api", seg "models"]⟩,
  ⟨["GET"], [seg "api", seg "models", .any]⟩,
  ⟨["GET", "POST"], [seg "api", seg "models", .any, seg "providers"]⟩,
  ⟨["GET", "PUT"], [seg "api", seg "models", .any, seg "waterfall"]⟩,
  ⟨["POST"], [seg "v1", seg "responses"]⟩,
  ⟨["POST"], [seg "v1", seg "messages"]⟩,
  ⟨["POST"], [seg "v1", seg "messages", seg "count_tokens"]⟩,
  ⟨["POST"], [seg "api", seg "orgs", .any, seg "telemetry", seg "traces", seg "upload"]⟩,
  ⟨["POST"], [seg "api", seg "orgs", .any, seg "telemetry", seg "traces", .any, seg "finalize"]⟩,
  ⟨["POST"], [seg "api", seg "orgs", .any, seg "telemetry", seg "traces", seg "pull"]⟩,
  ⟨["GET"], [seg "api", seg "orgs", .any, seg "telemetry", seg "traces"]⟩,
  ⟨["GET"], [seg "api", seg "orgs", .any, seg "telemetry", seg "traces", .any, seg "spans"]⟩]

/-- `_customer_key_allowed` -/
def customerKeyAllowed (method : String) (path : List Char) : Bool :=
  customerKeyRoutes.any fun r => decide (method ∈ r.methods) && matchPath r.pattern path

/-- `_PUBLIC_GET_ROUTES` -/
def publicGetRoutes : List PathPattern := [
  [seg "api", seg "models"],
  [seg "api", seg "models", .any],
  [seg "api", seg "models", .any, seg "providers"]]

/-- `_public_get_allowed` -/
def publicGetAllowed (method : String) (path : List Char) : Bool :=
  decide (method = "GET") && publicGetRoutes.any fun p => matchPath p path

theorem customerKeyAllowed_of_public {method : String} {path : List Char} (h : publicGetAllowed method path = true) :
    customerKeyAllowed method path = true := by
  simp only [publicGetAllowed, Bool.and_eq_true, decide_eq_true_eq, List.any_eq_true] at h
  obtain ⟨rfl, p, hp, hmatch⟩ := h
  have hrule : ∀ p ∈ publicGetRoutes, ∃ r ∈ customerKeyRoutes, "GET" ∈ r.methods ∧ r.pattern = p := by decide
  obtain ⟨r, hr, hget, rfl⟩ := hrule p hp
  exact List.any_eq_true.mpr ⟨r, hr, by rw [hmatch, decide_eq_true hget]; rfl⟩

/-! ### The re-parsed path -/

/-- What parsing drops. -/
def dropBreaks (cs : List Char) : List Char := cs.filter fun c => !(c == '\t' || c == '\r' || c == '\n')

/-- A query or a fragment starts. -/
def cuts (c : Char) : Bool := c == '?' || c == '#'

/-- The path of parsing `scheme://authority` followed by the path. -/
def urlPath (authority path : List Char) : List Char :=
  ((dropBreaks (authority ++ path)).dropWhile fun c => !(c == '/' || cuts c)).takeWhile fun c => !cuts c

theorem urlPath_eq {authority rest : List Char} (h : ∀ c ∈ authority, c ≠ '/' ∧ cuts c = false) :
    urlPath authority ('/' :: rest) = '/' :: (dropBreaks rest).takeWhile fun c => !cuts c := by
  have hauthority : ∀ c ∈ dropBreaks authority, (!(c == '/' || cuts c)) = true := by
    intro c hc
    obtain ⟨hslash, hcut⟩ := h c (List.mem_filter.mp hc).1
    simp [hslash, hcut]
  have hsplit : dropBreaks (authority ++ '/' :: rest) = dropBreaks authority ++ '/' :: dropBreaks rest := by
    simp [dropBreaks]
  rw [urlPath, hsplit, List.dropWhile_append_of_pos hauthority]
  simp [cuts]

/-- The surface of a path is the surface of its re-parsed form. -/
theorem urlPath_startsWith {authority : List Char} (s rest : List Char) (h : ∀ c ∈ authority, c ≠ '/' ∧ cuts c = false)
    (hs : ∀ c ∈ s, cuts c = false ∧ c ≠ '\t' ∧ c ≠ '\r' ∧ c ≠ '\n') :
    ∃ tail, urlPath authority ('/' :: (s ++ rest)) = '/' :: (s ++ tail) := by
  have hbreaks : dropBreaks (s ++ rest) = s ++ dropBreaks rest := by
    rw [dropBreaks, dropBreaks, List.filter_append]
    congr 1
    refine List.filter_eq_self.mpr ?_
    intro c hc
    obtain ⟨-, htab, hcr, hlf⟩ := hs c hc
    simp [htab, hcr, hlf]
  refine ⟨(dropBreaks rest).takeWhile fun c => !cuts c, ?_⟩
  rw [urlPath_eq h, hbreaks, List.takeWhile_append_of_pos]
  intro c hc
  rw [(hs c hc).1]
  rfl

/-! ### Requests, keys and tables -/

structure HttpRequest where
  method : String
  /-- The decoded path. -/
  path : List Char
  authority : List Char
  headers : List (String × String)
deriving DecidableEq

/-- One `api_keys` row. -/
structure CustomerKey where
  id : String
  keyHash : String
  orgId : String
  revokedAt : Option Int
  expiresAt : Option Int
deriving DecidableEq

/-- One `platform_admin_keys` row. -/
structure PlatformAdminKey where
  id : String
  keyHash : String
  userId : String
  revokedAt : Option Int
deriving DecidableEq

/-- The deployment of the app, and the tables as the request finds them. -/
structure Deployment where
  /-- `EXPLABS_API_KEY`; empty when it is not set. -/
  deploymentKey : String
  projectServingOnly : Bool
  hashApiKey : String → String
  now : Int
  apiKeys : List CustomerKey
  platformAdminKeys : List PlatformAdminKey
  platformAdmins : List String
  userBans : List String

/-- What the gate stamps on the request. -/
structure RequestState where
  deploymentKey : Bool
  superadminUserId : Option String
  apiKeyOrgId : Option String
  apiKeyId : Option String
deriving DecidableEq

def RequestState.blank : RequestState := ⟨false, none, none, none⟩

/-- `request.headers.get`; the server has lowered the names. -/
def header (headers : List (String × String)) (name : String) : Option String :=
  (headers.find? fun h => decide (h.1 = name)).map (·.2)

def actorHeader : String := "x-explabs-actor-id"

/-- `_request_api_key` -/
def requestApiKey (headers : List (String × String)) : Option String :=
  match header headers "authorization" with
  | none => none
  | some authorization =>
      let scheme := authorization.toList.takeWhile fun c => c != ' '
      let credential := (authorization.toList.dropWhile fun c => c != ' ').drop 1
      if scheme.map Char.toLower = "bearer".toList ∧ credential ≠ [] then some (String.ofList credential) else none

/-- `_strip_actor_header` -/
def stripActorHeader (headers : List (String × String)) : List (String × String) :=
  headers.filter fun h => decide (h.1.toList.map Char.toLower ≠ actorHeader.toList)

/-- `str.strip` over the characters of a header. -/
def pyStrip (cs : List Char) : List Char :=
  let space := fun c : Char => decide (9 ≤ c.toNat ∧ c.toNat ≤ 13 ∨ 28 ≤ c.toNat ∧ c.toNat ≤ 32 ∨
    c.toNat = 133 ∨ c.toNat = 160)
  ((cs.dropWhile space).reverse.dropWhile space).reverse

def superadminKeyPrefix : List Char := "xpladmin_".toList

/-- `compare_digest` takes ASCII texts only. -/
def isAscii (s : String) : Bool := s.toList.all fun c => decide (c.toNat < 128)

def onApi (path : List Char) : Bool := "/api/".toList.isPrefixOf path

def onV1 (path : List Char) : Bool := "/v1/".toList.isPrefixOf path

inductive Authenticated where
  | ok (state : RequestState)
  | rejected (status : Nat) (message : String)
  /-- An exception ends the request. -/
  | raised
deriving DecidableEq

inductive Answer where
  | forward (state : RequestState) (headers : List (String × String))
  | rejected (status : Nat) (message : String)
  | raised
deriving DecidableEq

structure RequestActor where
  userId : String
  isPlatformAdmin : Bool
  apiKeyOrgId : Option String
  apiKeyId : Option String
deriving DecidableEq

namespace Deployment
variable (edge : Deployment)

/-- `ApiKeyStore.find_active_by_secret` -/
def findActiveKey (secret : String) : Option CustomerKey :=
  (edge.apiKeys.find? fun k => decide (k.keyHash = edge.hashApiKey secret) && k.revokedAt.isNone).filter fun k =>
    !k.expiresAt.any fun t => decide (t ≤ edge.now)

/-- `PlatformAdminKeyStore.find_active_by_secret` -/
def findActiveAdminKey (secret : String) : Option PlatformAdminKey :=
  edge.platformAdminKeys.find? fun k => decide (k.keyHash = edge.hashApiKey secret) && k.revokedAt.isNone

/-! ### Authentication -/

/-- `_authenticate_superadmin_key` -/
def authenticateSuperadminKey (key : String) : Authenticated :=
  match edge.findActiveAdminKey key with
  | none => .rejected 401 "Unauthorized"
  | some record =>
      if record.userId ∉ edge.platformAdmins then .rejected 401 "Unauthorized"
      else if record.userId ∈ edge.userBans then .rejected 401 "Unauthorized"
      else .ok { RequestState.blank with superadminUserId := some record.userId }

/-- `_authenticate_customer_key` -/
def authenticateCustomerKey (method : String) (path : List Char) (key : String) : Authenticated :=
  if customerKeyAllowed method path then
    match edge.findActiveKey key with
    | none => .rejected 401 "Unauthorized"
    | some record => .ok { RequestState.blank with apiKeyOrgId := some record.orgId, apiKeyId := some record.id }
  else .rejected 401 "Unauthorized"

/-- `_api_key_rejection` -/
def apiKeyRejection (r : HttpRequest) : Authenticated :=
  let path := urlPath r.authority r.path
  if onV1 path && customerKeyAllowed r.method path then .ok .blank
  else if edge.deploymentKey = "" then .rejected 503 "EXPLABS_API_KEY must be set"
  else match requestApiKey r.headers with
    | none => .rejected 401 "Unauthorized"
    | some key =>
        if !isAscii key || !isAscii edge.deploymentKey then .raised
        else if key = edge.deploymentKey then .ok { RequestState.blank with deploymentKey := true }
        else if superadminKeyPrefix.isPrefixOf key.toList then edge.authenticateSuperadminKey key
        else edge.authenticateCustomerKey r.method path key

/-- `_ApiKeyAuthMiddleware.__call__` -/
def gate (r : HttpRequest) : Answer :=
  if !(onApi r.path || onV1 r.path) then .forward .blank r.headers
  else if r.method = "OPTIONS" then .forward .blank r.headers
  else if onV1 r.path && customerKeyAllowed r.method r.path then .forward .blank r.headers
  else match edge.apiKeyRejection r with
    | .ok state => .forward state r.headers
    | .raised => .raised
    | .rejected status message =>
        if !edge.projectServingOnly && (requestApiKey r.headers).isNone && publicGetAllowed r.method r.path then
          .forward .blank (stripActorHeader r.headers)
        else .rejected status message

/-! ### Who acts -/

/-- `get_request_actor`; an error is a status and a message. -/
def requestActor (state : RequestState) (headers : List (String × String)) : Except (Nat × String) RequestActor :=
  match state.superadminUserId, state.apiKeyOrgId with
  | some user, _ => .ok ⟨user, true, none, none⟩
  | none, some org => .ok ⟨"api-key:" ++ org, false, some org, state.apiKeyId⟩
  | none, none =>
      match (header headers actorHeader).map fun v => pyStrip v.toList with
      | none => .error (401, "X-Explabs-Actor-Id header is required")
      | some [] => .error (401, "X-Explabs-Actor-Id header is required")
      | some user => .ok ⟨String.ofList user, decide (String.ofList user ∈ edge.platformAdmins), none, none⟩

/-- `get_optional_actor` -/
def optionalActor (state : RequestState) (headers : List (String × String)) :
    Except (Nat × String) (Option RequestActor) :=
  if state.apiKeyOrgId.isNone && state.superadminUserId.isNone &&
      ((header headers actorHeader).map fun v => pyStrip v.toList).all List.isEmpty then .ok none
  else (edge.requestActor state headers).map some

end Deployment

/-! ### What reaches a handler -/

section sound
variable {edge : Deployment} {r : HttpRequest}

/-- The request carries the deployment key, or a live superadmin key of an unbanned operator. -/
def Privileged (edge : Deployment) (r : HttpRequest) : Prop :=
  ∃ key, requestApiKey r.headers = some key ∧ (edge.deploymentKey ≠ "" ∧ key = edge.deploymentKey ∨
    superadminKeyPrefix.isPrefixOf key.toList = true ∧ ∃ record, edge.findActiveAdminKey key = some record ∧
      record.userId ∈ edge.platformAdmins ∧ record.userId ∉ edge.userBans)

/-- The request presents an active customer key, to a deployment that has its own key. -/
def PresentsKey (edge : Deployment) (r : HttpRequest) : Prop :=
  ∃ key record, requestApiKey r.headers = some key ∧ edge.deploymentKey ≠ "" ∧ isAscii key = true ∧
    isAscii edge.deploymentKey = true ∧ superadminKeyPrefix.isPrefixOf key.toList = false ∧
    edge.findActiveKey key = some record

/-- What the gate promises of a request that gets to a handler of the router, `handles`. -/
def EdgeSound (edge : Deployment) (handles : String → List Char → Bool) (r : HttpRequest) : Prop :=
  ∀ state headers, edge.gate r = .forward state headers → handles r.method r.path = true → ¬ Privileged edge r →
    customerKeyAllowed r.method r.path = true ∧ (onApi r.path = true →
      ∃ key record, requestApiKey r.headers = some key ∧ edge.findActiveKey key = some record ∧
        edge.requestActor state headers = .ok ⟨"api-key:" ++ record.orgId, false, some record.orgId, some record.id⟩) ∨
    publicGetAllowed r.method r.path = true ∧ edge.optionalActor state headers = .ok none

/-- The re-parsed path is not on the allowlist unless the routed one is, where that is all that decides. -/
def ReadsAlike (edge : Deployment) (handles : String → List Char → Bool) (r : HttpRequest) : Prop :=
  handles r.method r.path = true → ¬ Privileged edge r → onV1 r.path = true ∨ PresentsKey edge r →
    customerKeyAllowed r.method (urlPath r.authority r.path) = true → customerKeyAllowed r.method r.path = true

theorem header_stripActorHeader (headers : List (String × String)) :
    header (stripActorHeader headers) actorHeader = none := by
  rw [header, Option.map_eq_none_iff, List.find?_eq_none]
  intro h hh
  simp only [stripActorHeader, List.mem_filter, decide_eq_true_eq] at hh ⊢
  intro heq
  refine hh.2 ?_
  rw [heq]
  decide

theorem optionalActor_public (headers : List (String × String)) :
    edge.optionalActor .blank (stripActorHeader headers) = .ok none := by
  unfold Deployment.optionalActor
  rw [header_stripActorHeader]
  rfl

theorem authenticateSuperadminKey_ok {key : String} {state : RequestState}
    (h : edge.authenticateSuperadminKey key = .ok state) : ∃ record, edge.findActiveAdminKey key = some record ∧
      record.userId ∈ edge.platformAdmins ∧ record.userId ∉ edge.userBans := by
  unfold Deployment.authenticateSuperadminKey at h
  split at h
  · cases h
  · next record hrecord =>
    split at h
    · cases h
    · next hadmin =>
      split at h
      · cases h
      · next hban => exact ⟨record, hrecord, not_not.mp hadmin, hban⟩

theorem authenticateCustomerKey_ok {method key : String} {path : List Char} {state : RequestState}
    (h : edge.authenticateCustomerKey method path key = .ok state) : customerKeyAllowed method path = true ∧
      ∃ record, edge.findActiveKey key = some record ∧
        state = { RequestState.blank with apiKeyOrgId := some record.orgId, apiKeyId := some record.id } := by
  unfold Deployment.authenticateCustomerKey at h
  split at h
  · next hallowed =>
    split at h
    · cases h
    · next record hrecord =>
      cases h
      exact ⟨hallowed, record, hrecord, rfl⟩
  · cases h

theorem apiKeyRejection_ok {state : RequestState} (h : edge.apiKeyRejection r = .ok state) :
    onV1 (urlPath r.authority r.path) = true ∧ customerKeyAllowed r.method (urlPath r.authority r.path) = true ∨
    Privileged edge r ∨
    PresentsKey edge r ∧ customerKeyAllowed r.method (urlPath r.authority r.path) = true ∧
      ∃ key record, requestApiKey r.headers = some key ∧ edge.findActiveKey key = some record ∧
        state = { RequestState.blank with apiKeyOrgId := some record.orgId, apiKeyId := some record.id } := by
  unfold Deployment.apiKeyRejection at h
  simp only at h
  split at h
  · next hv1 => exact .inl (Bool.and_eq_true _ _ ▸ hv1)
  · split at h
    · cases h
    · next hkey =>
      cases hreq : requestApiKey r.headers with
      | none =>
          rw [hreq] at h
          cases h
      | some key =>
          simp only [hreq] at h
          split at h
          · cases h
          · next hascii =>
            rw [Bool.or_eq_true, not_or, Bool.not_eq_true', Bool.not_eq_true', Bool.not_eq_false,
              Bool.not_eq_false] at hascii
            split at h
            · next heq => exact .inr (.inl ⟨key, hreq, .inl ⟨hkey, heq⟩⟩)
            · split at h
              · next hxpladmin => exact .inr (.inl ⟨key, hreq, .inr ⟨hxpladmin, authenticateSuperadminKey_ok h⟩⟩)
              · next hxpladmin =>
                obtain ⟨hallowed, record, hrecord, hstate⟩ := authenticateCustomerKey_ok h
                exact .inr (.inr ⟨⟨key, record, hreq, hkey, hascii.1, hascii.2, Bool.eq_false_iff.mpr hxpladmin, hrecord⟩,
                  hallowed, key, record, rfl, hrecord, hstate⟩)

theorem surface_urlPath (h : ∀ c ∈ r.authority, c ≠ '/' ∧ cuts c = false) :
    (onApi r.path = true → onV1 (urlPath r.authority r.path) = false) ∧
      (onV1 r.path = true → onV1 (urlPath r.authority r.path) = true) := by
  constructor
  · intro hapi
    obtain ⟨rest, hrest⟩ := List.isPrefixOf_iff_prefix.mp hapi
    obtain ⟨tail, htail⟩ := urlPath_startsWith "api/".toList rest h (List.all_iff_forall_prop.mp rfl)
    have hpath : r.path = '/' :: ("api/".toList ++ rest) := hrest.symm
    rw [hpath, htail]
    rfl
  · intro hv1
    obtain ⟨rest, hrest⟩ := List.isPrefixOf_iff_prefix.mp hv1
    obtain ⟨tail, htail⟩ := urlPath_startsWith "v1/".toList rest h (List.all_iff_forall_prop.mp rfl)
    have hpath : r.path = '/' :: ("v1/".toList ++ rest) := hrest.symm
    rw [hpath, htail]
    rfl

theorem not_onApi_of_onV1 {path : List Char} (h : onV1 path = true) : onApi path ≠ true := by
  obtain ⟨rest, rfl⟩ := List.isPrefixOf_iff_prefix.mp h
  exact Bool.false_ne_true

theorem on_surface {path : List Char} (h : onApi path = true ∨ onV1 path = true) :
    (!(onApi path || onV1 path)) = false := by
  rcases h with h | h <;> simp [h]

/-- An allowlisted re-parsed path is let through: on `/v1/` for anybody, on `/api/` for a customer key. -/
theorem gate_of_allowed (hauthority : ∀ c ∈ r.authority, c ≠ '/' ∧ cuts c = false) (hmethod : r.method ≠ "OPTIONS")
    (hsurface : onApi r.path = true ∨ onV1 r.path = true)
    (hallowed : customerKeyAllowed r.method (urlPath r.authority r.path) = true)
    (hunlisted : customerKeyAllowed r.method r.path = false) (hpriv : ¬ Privileged edge r)
    (hlane : onV1 r.path = true ∨ PresentsKey edge r) : ∃ state, edge.gate r = .forward state r.headers := by
  have hauth : ∃ state, edge.apiKeyRejection r = .ok state := by
    unfold Deployment.apiKeyRejection
    by_cases hv1 : onV1 (urlPath r.authority r.path) = true
    · exact ⟨.blank, by simp [hv1, hallowed]⟩
    · have hkey := hlane.resolve_left fun h => hv1 ((surface_urlPath hauthority).2 h)
      obtain ⟨key, record, hreq, hset, hkascii, hdascii, hxpladmin, hrecord⟩ := hkey
      have hne : key ≠ edge.deploymentKey := fun heq => hpriv ⟨key, hreq, .inl ⟨hset, heq⟩⟩
      refine ⟨{ RequestState.blank with apiKeyOrgId := some record.orgId, apiKeyId := some record.id }, ?_⟩
      simp only [Bool.eq_false_iff.mpr hv1, Bool.false_and, Bool.false_eq_true, if_false, if_neg hset, hreq, hkascii, hdascii, Bool.not_true,
        Bool.or_self, if_neg hne, hxpladmin, Deployment.authenticateCustomerKey, hallowed, if_true, hrecord]
  obtain ⟨state, hauth⟩ := hauth
  refine ⟨state, ?_⟩
  unfold Deployment.gate
  rw [on_surface hsurface, hunlisted, hauth]
  simp [hmethod]

/-- **The edge authenticates the request it routes** exactly when the re-parsed path is not on the
allowlist where the routed one is not, and that is what decides. -/
theorem edge_sound_iff (edge : Deployment) (handles : String → List Char → Bool) (r : HttpRequest)
    (hauthority : ∀ c ∈ r.authority, c ≠ '/' ∧ cuts c = false) (hmethod : r.method ≠ "OPTIONS")
    (hsurface : onApi r.path = true ∨ onV1 r.path = true) :
    EdgeSound edge handles r ↔ ReadsAlike edge handles r := by
  constructor
  · intro hsound hhandles hpriv hlane hallowed
    by_contra hunlisted
    rw [Bool.not_eq_true] at hunlisted
    obtain ⟨state, hgate⟩ := gate_of_allowed hauthority hmethod hsurface hallowed hunlisted hpriv hlane
    rcases hsound state r.headers hgate hhandles hpriv with ⟨h, -⟩ | ⟨h, -⟩
    · rw [hunlisted] at h
      cases h
    · rw [customerKeyAllowed_of_public h] at hunlisted
      cases hunlisted
  · intro halike state headers hgate hhandles hpriv
    unfold Deployment.gate at hgate
    rw [on_surface hsurface, if_neg (by simp), if_neg hmethod] at hgate
    split at hgate
    · next hserving =>
      rw [Bool.and_eq_true] at hserving
      exact .inl ⟨hserving.2, fun hapi => absurd hapi (not_onApi_of_onV1 hserving.1)⟩
    · cases hauth : edge.apiKeyRejection r with
      | ok st =>
          rw [hauth] at hgate
          cases hgate
          rcases apiKeyRejection_ok hauth with ⟨hv1, hallowed⟩ | hp | ⟨hkey, hallowed, key, record, hreq, hrecord, rfl⟩
          · rcases hsurface with hapi | honv1
            · rw [(surface_urlPath hauthority).1 hapi] at hv1
              cases hv1
            · exact .inl ⟨halike hhandles hpriv (.inl honv1) hallowed,
                fun hapi => absurd hapi (not_onApi_of_onV1 honv1)⟩
          · exact absurd hp hpriv
          · exact .inl ⟨halike hhandles hpriv (.inr hkey) hallowed, fun _ => ⟨key, record, hreq, hrecord, rfl⟩⟩
      | raised =>
          rw [hauth] at hgate
          cases hgate
      | rejected status message =>
          rw [hauth] at hgate
          simp only at hgate
          split at hgate
          · next hpublic =>
            cases hgate
            rw [Bool.and_eq_true] at hpublic
            exact .inr ⟨hpublic.2, optionalActor_public r.headers⟩
          · cases hgate

end sound

/-- A deployment with one customer key. -/
def sampleEdge : Deployment where
  deploymentKey := "deployment"
  projectServingOnly := false
  hashApiKey := fun s => "sha256:" ++ s
  now := 0
  apiKeys := [⟨"key", "sha256:xpl_1", "org", none, none⟩]
  platformAdminKeys := []
  platformAdmins := []
  userBans := []

/-- The serving router: four routes, and one that answers 404 for every other path under `/v1/`. -/
def servingRouter (method : String) (path : List Char) : Bool :=
  onV1 path && decide (method ∈ ["GET", "POST", "PUT", "PATCH", "DELETE"])

def listKeys : HttpRequest :=
  ⟨"GET", "/api/keys".toList, "localhost:8000".toList, [("authorization", "Bearer xpl_1")]⟩

/-- `GET /v1/models%3Fx` without a credential. -/
def questionMark : HttpRequest := ⟨"GET", "/v1/models?x".toList, "localhost:8000".toList, []⟩

theorem edge_sound_sample : EdgeSound sampleEdge (fun _ _ => true) listKeys :=
  (edge_sound_iff sampleEdge (fun _ _ => true) listKeys (List.all_iff_forall_prop.mp rfl) (by decide)
    (.inl (by decide))).mpr fun _ _ _ h => h

theorem unlisted_path_passes : questionMark.method ≠ "OPTIONS" ∧ onV1 questionMark.path = true ∧
    sampleEdge.gate questionMark = .forward .blank [] ∧ ¬ EdgeSound sampleEdge servingRouter questionMark := by
  have hgate : sampleEdge.gate questionMark = .forward .blank [] := by decide
  refine ⟨by decide, by decide, hgate, fun hsound => ?_⟩
  have hpriv : ¬ Privileged sampleEdge questionMark := by
    rintro ⟨key, hkey, -⟩
    cases hkey
  rcases hsound _ _ hgate (by decide) hpriv with ⟨h, -⟩ | ⟨h, -⟩
  · exact absurd h (by decide)
  · exact absurd h (by decide)

end Experiential.Edge
