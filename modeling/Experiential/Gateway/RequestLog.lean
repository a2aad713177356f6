import Mathlib.Data.Prod.Lex
import Mathlib.Data.String.Basic
import Experiential.Lib.Base64
import Experiential.Lib.Checked
import Experiential.Lib.Paging
import Experiential.Gateway.Schema

/-! # The request log

An organization's usage events, newest first, through two routes. `/usage/requests` pages by the instant
of settlement and the request id and returns its cursor in three fields, the third of which keeps the
window where the first page put it. `/usage/events` pages by day, instant and id and packs them into one
opaque text. Days and instants travel as texts that Postgres writes and reads back and Python checks:
`RowTexts` are these functions, and `RowTexts.Faithful` what is documented about them.

A client that follows the cursors of either route sees every event that its filters want, once and newest
first, whatever the limit, the ids and the ties (`request_log_complete`). Each route is shown to answer
with the page of `Keyset` behind the row that its cursor was minted from; the rest is `Keyset.walksAll`. -/

namespace Experiential.Gateway

abbrev UsageEvents := Table UsageEvent.requestId UsageEvent.Check

/-! ### Texts -/

/-- How days and instants are written and read. -/
structure RowTexts where
  /-- A `date` in a row. -/
  dayText : Int → String
  /-- A `timestamptz` in a row. -/
  instantText : Int → String
  /-- `datetime.isoformat`. -/
  isoformat : Int → String
  /-- What Postgres makes of a text that is to be a `date`. -/
  readDay : String → Option Int
  /-- What it makes of a text that is to be a `timestamptz`. -/
  readInstant : String → Option Int
  /-- `date.fromisoformat` does not raise. -/
  isoDate : String → Bool
  /-- `datetime.fromisoformat` does not raise. -/
  isoDatetime : String → Bool

/-- On days and instants that both can represent, a text that was written is accepted and read back, and
has no bar in it. -/
structure RowTexts.Faithful (t : RowTexts) (days instants : Set Int) : Prop where
  readDay : ∀ d ∈ days, t.readDay (t.dayText d) = some d
  isoDate : ∀ d ∈ days, t.isoDate (t.dayText d) = true
  day_bar : ∀ d ∈ days, '|' ∉ (t.dayText d).toList
  readInstant : ∀ a ∈ instants, t.readInstant (t.instantText a) = some a
  isoDatetime : ∀ a ∈ instants, t.isoDatetime (t.instantText a) = true
  instant_bar : ∀ a ∈ instants, '|' ∉ (t.instantText a).toList
  readIsoformat : ∀ a ∈ instants, t.readInstant (t.isoformat a) = some a
  isoIsoformat : ∀ a ∈ instants, t.isoDatetime (t.isoformat a) = true

/-- Why a page is not returned. -/
inductive LogError where
  /-- `ApiError` with status 400. -/
  | badRequest (message : String)
  /-- The database refuses an argument. -/
  | database
deriving DecidableEq

/-! ### The stored functions -/

def TerminalState.text : TerminalState → String
  | .completed => "completed"
  | .failed => "failed"
  | .cancelled => "cancelled"
  | .incomplete => "incomplete"
  | .expiredBeforeDispatch => "expired_before_dispatch"
  | .unknownAfterCrash => "unknown_after_crash"

/-- `least(greatest(in_limit, 1), 200)`. -/
def rpcCap (limit : Int) : ℕ := (min (max limit 1) 200).toNat

/-- The filters of `list_gateway_usage_events`. -/
structure LogFilter where
  orgId : ℕ
  after : Option Int
  before : Option Int
  aliasName : Option String
  apiKeyId : Option ℕ
  lane : Option Lane
  status : Option String

/-- The `where` clause, the cursor apart. -/
def LogFilter.wants (f : LogFilter) (e : UsageEvent) : Bool :=
  decide (e.orgId = f.orgId) && f.after.all (fun after => decide (after ≤ e.createdAt)) &&
    f.before.all (fun before => decide (e.createdAt < before)) && f.aliasName.all (fun name => e.aliasName == name) &&
    f.apiKeyId.all (fun key => e.apiKeyId == some key) && f.lane.all (fun lane => decide (e.lane = some lane)) &&
    f.status.all fun status => (status == "error" && decide (e.status ≠ .completed)) || e.status.text == status

/-- The filters of `gateway_usage_events_read`. -/
structure DayFilter where
  orgId : ℕ
  apiKeyId : Option ℕ
  fromDay : Option Int
  toDay : Option Int

def DayFilter.wants (f : DayFilter) (e : UsageEvent) : Bool :=
  decide (e.orgId = f.orgId) && f.apiKeyId.all (fun key => e.apiKeyId == some key) &&
    f.fromDay.all (fun day => decide (day ≤ e.day)) && f.toDay.all fun day => decide (e.day ≤ day)

section stored
variable {K : Type} [LinearOrder K] (collate : String → K)

/-- `(created_at, request_id)`. -/
def logKey (e : UsageEvent) : Int ×ₗ K := toLex (e.createdAt, collate e.requestId)

/-- `(day, created_at, request_id)`. -/
def dayKey (e : UsageEvent) : Int ×ₗ Int ×ₗ K := toLex (e.day, toLex (e.createdAt, collate e.requestId))

/-- `list_gateway_usage_events`. -/
def listGatewayUsageEvents (events : UsageEvents) (f : LogFilter) (cursorTs : Option Int) (cursorId : Option String)
    (limit : Int) : List UsageEvent :=
  let bound := cursorTs.bind fun ts => cursorId.map fun id => toLex (ts, collate id)
  (Keyset.listing (logKey collate) f.wants bound events.rows).take (rpcCap limit)

/-- `gateway_usage_events_read`. -/
def gatewayUsageEventsRead (events : UsageEvents) (f : DayFilter) (cursorDay cursorCreated : Option Int)
    (cursorRequest : Option String) (limit : Int) : List UsageEvent :=
  let bound := cursorDay.bind fun day => cursorCreated.bind fun created => cursorRequest.map fun request =>
    toLex (day, toLex (created, collate request))
  (Keyset.listing (dayKey collate) f.wants bound events.rows).take (rpcCap limit)

end stored

/-! ### `/orgs/{org_id}/usage/requests` -/

/-- `_lane_filter_or_400`. -/
def laneFilterOr400 : Option String → Except LogError (Option Lane)
  | none => .ok none
  | some value =>
      if value = "platform" then .ok (some .platformFunded)
      else if value = "byok" then .ok (some .passThrough)
      else .error (.badRequest s!"Unknown lane: {value} (expected platform or byok)")

/-- `_status_or_400`. -/
def statusOr400 (value : Option String) : Except LogError (Option String) :=
  let allowed := ["error", "completed", "failed", "cancelled", "incomplete", "expired_before_dispatch",
    "unknown_after_crash"]
  let text := value.getD ""
  if ∀ status ∈ value, status ∈ allowed then .ok value
  else .error (.badRequest s!"Unknown status: {text} (expected error or one of cancelled, completed, expired_before_dispatch, failed, incomplete, unknown_after_crash)")

/-- `_WINDOWS`, in microseconds. -/
def lookback : String → Option Int
  | "24h" => some 86400000000
  | "7d" => some 604800000000
  | "30d" => some 2592000000000
  | _ => none

/-- `_window`: the lower bound of a window at an instant, floored to the minute. -/
def windowStart (window : Option String) (now : Int) : Except LogError Int :=
  let key := if window.getD "" = "" then "7d" else window.getD ""
  match lookback key with
  | none => .error (.badRequest s!"Unknown window: {key} (expected one of 24h, 30d, 7d)")
  | some back => .ok (now / 60000000 * 60000000 - back)

/-- `_timestamp_or_400`. -/
def RowTexts.timestampOr400 (t : RowTexts) (value name : String) : Except LogError String :=
  if t.isoDatetime value then .ok value
  else .error (.badRequest s!"Invalid {name}: {value} (expected an ISO 8601 timestamp)")

/-- `UsageRequestsCursor`. -/
structure UsageRequestsCursor where
  ts : String
  id : String
  after : String
deriving DecidableEq

/-- The query of a request; the key's uuid has been read. -/
structure UsageRequestsQuery where
  window : Option String
  model : Option String
  apiKeyId : Option ℕ
  lane : Option String
  status : Option String
  cursorTs : Option String
  cursorId : Option String
  cursorAfter : Option String
  limit : Int

/-- A text that is to be an instant, when there is one. -/
def RowTexts.instantArgument (t : RowTexts) : Option String → Except LogError (Option Int)
  | none => .ok none
  | some value => (require (t.readInstant value) .database).map some

section routes
variable (t : RowTexts) {K : Type} [LinearOrder K] (collate : String → K)

/-- The window's lower bound: the cursor's, or the one of now. -/
def UsageRequestsQuery.after (q : UsageRequestsQuery) (now : Int) : Except LogError String :=
  match q.cursorAfter with
  | some after => t.timestampOr400 after "cursor_after"
  | none => (windowStart q.window now).map t.isoformat

/-- `list_usage_requests`, for a member of the organization. -/
def listUsageRequests (now : Int) (orgId : ℕ) (q : UsageRequestsQuery) (events : UsageEvents) :
    Except LogError (List UsageEvent × Option UsageRequestsCursor) := do
  let lane ← laneFilterOr400 q.lane
  let status ← statusOr400 q.status
  ensure (q.cursorTs.isNone = q.cursorId.isNone) (.badRequest "Pass cursor_ts and cursor_id together or not at all")
  let _ ← q.cursorTs.elim (.ok "") (t.timestampOr400 · "cursor_ts")
  let after ← q.after t now
  let effectiveLimit := min (max q.limit 1) 200
  let afterArgument ← t.instantArgument (some after)
  let cursorTs ← t.instantArgument q.cursorTs
  let rows := listGatewayUsageEvents collate events ⟨orgId, afterArgument, none, q.model, q.apiKeyId, lane, status⟩
    cursorTs q.cursorId effectiveLimit
  let nextCursor := if (rows.length : Int) = effectiveLimit then
      rows.getLast?.map fun row => ⟨t.instantText row.createdAt, row.requestId, after⟩
    else none
  return (rows, nextCursor)

/-! ### `/usage/events` -/

/-- The text before the first bar, and the one behind it. -/
def splitBar : List Char → Option (List Char × List Char)
  | [] => none
  | c :: cs => if c = '|' then some ([], cs) else (splitBar cs).map fun parts => (c :: parts.1, parts.2)

/-- `_encode_events_cursor`. -/
def encodeEventsCursor (e : UsageEvent) : String :=
  Base64.encodeText (t.dayText e.day ++ "|" ++ t.instantText e.createdAt ++ "|" ++ e.requestId)

/-- `_decode_events_cursor`. -/
def decodeEventsCursor (value : String) : Except LogError (String × String × String) := do
  let raw ← require (Base64.decodeText value) (.badRequest "Invalid cursor")
  let cut ← require (splitBar raw.toList) (.badRequest "Invalid cursor")
  let cut' ← require (splitBar cut.2) (.badRequest "Invalid cursor")
  ensure (cut'.2 ≠ []) (.badRequest "Invalid cursor")
  ensure (t.isoDate (String.ofList cut.1) = true ∧ t.isoDatetime (String.ofList cut'.1) = true)
    (.badRequest "Invalid cursor")
  return (String.ofList cut.1, String.ofList cut'.1, String.ofList cut'.2)

/-- `_date_or_400`. -/
def RowTexts.dateOr400 (name : String) : Option String → Except LogError (Option String)
  | none => .ok none
  | some value =>
      if t.isoDate value then .ok (some value)
      else .error (.badRequest s!"Invalid {name}: {value} (expected YYYY-MM-DD)")

/-- A text that is to be a day, when there is one. -/
def RowTexts.dayArgument : Option String → Except LogError (Option Int)
  | none => .ok none
  | some value => (require (t.readDay value) .database).map some

structure UsageEventsQuery where
  orgId : ℕ
  apiKeyId : Option ℕ
  fromDay : Option String
  toDay : Option String
  cursor : Option String
  limit : Int

/-- `get_usage_events`, for a member of the organization. -/
def getUsageEvents (q : UsageEventsQuery) (events : UsageEvents) : Except LogError (List UsageEvent × Option String) := do
  let cursor ← q.cursor.elim (.ok none) fun value => (decodeEventsCursor t value).map some
  let cap := min (max q.limit 1) 200
  let fromText ← t.dateOr400 "from" q.fromDay
  let toText ← t.dateOr400 "to" q.toDay
  let fromDay ← t.dayArgument fromText
  let toDay ← t.dayArgument toText
  let cursorDay ← t.dayArgument (cursor.map (·.1))
  let cursorCreated ← t.instantArgument (cursor.map (·.2.1))
  let rows := gatewayUsageEventsRead collate events ⟨q.orgId, q.apiKeyId, fromDay, toDay⟩ cursorDay cursorCreated
    (cursor.map (·.2.2)) cap
  return (rows, if (rows.length : Int) = cap then rows.getLast?.map (encodeEventsCursor t) else none)

end routes

open Keyset

section pages
variable {K : Type} {collate : String → K}

/-! ### Keys and limits -/

theorem nodup_logKey (hcollate : Function.Injective collate) (events : UsageEvents) :
    (events.rows.map (logKey collate)).Nodup := by
  refine List.pairwise_map.mpr ((List.pairwise_map.mp events.keyed).imp fun hne heq => hne ?_)
  exact hcollate (congrArg (fun k => (ofLex k).2) heq)

theorem nodup_dayKey (hcollate : Function.Injective collate) (events : UsageEvents) :
    (events.rows.map (dayKey collate)).Nodup := by
  refine List.pairwise_map.mpr ((List.pairwise_map.mp events.keyed).imp fun hne heq => hne ?_)
  exact hcollate (congrArg (fun k => (ofLex (ofLex k).2).2) heq)

/-- The routes' cap and the stored functions' are one. -/
theorem rpcCap_clamped (limit : Int) : rpcCap (min (max limit 1) 200) = rpcCap limit := by
  unfold rpcCap
  omega

theorem length_eq_cap_iff (limit : Int) (n : ℕ) : (n : Int) = min (max limit 1) 200 ↔ n = rpcCap limit := by
  unfold rpcCap
  omega

theorem rpcCap_pos (limit : Int) : 0 < rpcCap limit := by
  unfold rpcCap
  omega

end pages

/-! ### `/orgs/{org_id}/usage/requests` -/

section requests
variable {t : RowTexts} {days instants : Set Int} {K : Type} [LinearOrder K] {collate : String → K}
  {orgId : ℕ} {q : UsageRequestsQuery} {now : Int} {after : String} {f : LogFilter}

/-- The query with the cursor's fields echoed back. -/
def UsageRequestsQuery.page (q : UsageRequestsQuery) : Option UsageRequestsCursor → UsageRequestsQuery
  | none => { q with cursorTs := none, cursorId := none }
  | some c => { q with cursorTs := some c.ts, cursorId := some c.id, cursorAfter := some c.after }

/-- The window's lower bound and the filters of a query whose parameters the route accepts. -/
def UsageRequestsQuery.filter (t : RowTexts) (orgId : ℕ) (now : Int) (q : UsageRequestsQuery) :
    Except LogError (String × LogFilter) := do
  let lane ← laneFilterOr400 q.lane
  let status ← statusOr400 q.status
  let after ← q.after t now
  let afterArgument ← t.instantArgument (some after)
  return (after, ⟨orgId, afterArgument, none, q.model, q.apiKeyId, lane, status⟩)

theorem filter_eq_ok (h : q.filter t orgId now = .ok (after, f)) :
    laneFilterOr400 q.lane = .ok f.lane ∧ statusOr400 q.status = .ok f.status ∧ q.after t now = .ok after ∧
      t.instantArgument (some after) = .ok f.after ∧
      f = ⟨orgId, f.after, none, q.model, q.apiKeyId, f.lane, f.status⟩ := by
  simp only [UsageRequestsQuery.filter, bind_eq_ok, pure_eq_ok, Prod.mk.injEq] at h
  obtain ⟨lane, hlane, status, hstatus, after', hafter, argument, hargument, rfl, rfl⟩ := h
  exact ⟨hlane, hstatus, hafter, hargument, rfl⟩

theorem requests_first (h : q.filter t orgId now = .ok (after, f)) (events : UsageEvents) :
    listUsageRequests t collate now orgId (q.page none) events =
      .ok (answer (logKey collate) f.wants none events.rows
        (fun e => ⟨t.instantText e.createdAt, e.requestId, after⟩) (rpcCap q.limit)) := by
  obtain ⟨hlane, hstatus, hafter, hargument, hf⟩ := filter_eq_ok h
  unfold listUsageRequests
  simp only [bind_eq_ok, ensure_eq_ok, pure_eq_ok]
  refine ⟨f.lane, hlane, f.status, hstatus, (), rfl, "", rfl, after, hafter, f.after, hargument, none, rfl, ?_⟩
  simp only [UsageRequestsQuery.page, listGatewayUsageEvents, ← hf, rpcCap_clamped, length_eq_cap_iff, answer]
  rfl

theorem requests_next (ht : t.Faithful days instants) (h : q.filter t orgId now = .ok (after, f))
    (hiso : t.isoDatetime after = true) {e : UsageEvent} (he : e.createdAt ∈ instants) (now' : Int)
    (events : UsageEvents) :
    listUsageRequests t collate now' orgId (q.page (some ⟨t.instantText e.createdAt, e.requestId, after⟩)) events =
      .ok (answer (logKey collate) f.wants (some (logKey collate e)) events.rows
        (fun e => ⟨t.instantText e.createdAt, e.requestId, after⟩) (rpcCap q.limit)) := by
  obtain ⟨hlane, hstatus, hafter, hargument, hf⟩ := filter_eq_ok h
  have hts : t.timestampOr400 (t.instantText e.createdAt) "cursor_ts" = .ok (t.instantText e.createdAt) :=
    if_pos (ht.isoDatetime _ he)
  have hfrozen : t.timestampOr400 after "cursor_after" = .ok after := if_pos hiso
  have hread : t.instantArgument (some (t.instantText e.createdAt)) = .ok (some e.createdAt) := by
    rw [RowTexts.instantArgument, ht.readInstant _ he]
    rfl
  unfold listUsageRequests
  simp only [bind_eq_ok, ensure_eq_ok, pure_eq_ok]
  refine ⟨f.lane, hlane, f.status, hstatus, (), rfl, _, hts, after, hfrozen, f.after, hargument, some e.createdAt,
    hread, ?_⟩
  simp only [UsageRequestsQuery.page, listGatewayUsageEvents, ← hf, rpcCap_clamped, length_eq_cap_iff, answer]
  rfl

/-- The text of the lower bound is one that the route accepts back. -/
theorem isoDatetime_after (ht : t.Faithful days instants)
    (hwindow : ∀ bound, windowStart q.window now = .ok bound → bound ∈ instants)
    (h : q.filter t orgId now = .ok (after, f)) : t.isoDatetime after = true := by
  obtain ⟨-, -, hafter, -, -⟩ := filter_eq_ok h
  unfold UsageRequestsQuery.after at hafter
  split at hafter
  · rename_i given hgiven
    unfold RowTexts.timestampOr400 at hafter
    split at hafter
    · rename_i hiso
      cases hafter
      exact hiso
    · cases hafter
  · cases hw : windowStart q.window now with
    | error e =>
      rw [hw] at hafter
      cases hafter
    | ok bound =>
      rw [hw] at hafter
      cases hafter
      exact ht.isoIsoformat bound (hwindow bound hw)

/-- **The first route** shows every event that its filters want. -/
theorem requests_walk (ht : t.Faithful days instants) (hcollate : Function.Injective collate) (now : ℕ → Int)
    (hwindow : ∀ bound, windowStart q.window (now 0) = .ok bound → bound ∈ instants)
    (h : q.filter t orgId (now 0) = .ok (after, f)) (stores : ℕ → UsageEvents)
    (hstores : ∀ j, ∀ e ∈ (stores j).rows, e.createdAt ∈ instants)
    (hinserts : InsertsAbove (fun j c => listUsageRequests t collate (now j) orgId (q.page c) (stores j))
      (logKey collate) f.wants fun j => (stores j).rows) :
    WalksAll (fun j c => listUsageRequests t collate (now j) orgId (q.page c) (stores j)) (logKey collate) f.wants
      (stores 0).rows :=
  walksAll (rpcCap_pos q.limit) (fun j => nodup_logKey hcollate (stores j)) (requests_first h (stores 0))
    (fun j e he => requests_next ht h (isoDatetime_after ht hwindow h) (hstores j e he) (now (j + 1)) (stores (j + 1)))
    hinserts

end requests

/-! ### `/usage/events` -/

section events
variable {t : RowTexts} {days instants : Set Int} {K : Type} [LinearOrder K] {collate : String → K}
  {q : UsageEventsQuery} {f : DayFilter}

theorem splitBar_append : ∀ {cs : List Char}, '|' ∉ cs → ∀ rest, splitBar (cs ++ '|' :: rest) = some (cs, rest)
  | [], _, _ => rfl
  | c :: cs, h, rest => by
      rw [List.mem_cons, not_or] at h
      rw [List.cons_append, splitBar, if_neg (Ne.symm h.1), splitBar_append h.2]
      rfl

/-- **Cursor round trip**: whatever the id, bars included. -/
theorem decode_encodeEventsCursor (ht : t.Faithful days instants) {e : UsageEvent} (hday : e.day ∈ days)
    (hcreated : e.createdAt ∈ instants) (hid : e.requestId ≠ "") :
    decodeEventsCursor t (encodeEventsCursor t e) = .ok (t.dayText e.day, t.instantText e.createdAt, e.requestId) := by
  have hraw : (t.dayText e.day ++ "|" ++ t.instantText e.createdAt ++ "|" ++ e.requestId).toList =
      (t.dayText e.day).toList ++ '|' :: ((t.instantText e.createdAt).toList ++ '|' :: e.requestId.toList) := by
    simp
  have hcut := splitBar_append (ht.day_bar e.day hday)
    ((t.instantText e.createdAt).toList ++ '|' :: e.requestId.toList)
  have hcut' := splitBar_append (ht.instant_bar e.createdAt hcreated) e.requestId.toList
  unfold decodeEventsCursor encodeEventsCursor
  simp only [bind_eq_ok, ensure_eq_ok, require_eq_ok, pure_eq_ok]
  refine ⟨_, Base64.decodeText_encodeText _, _, hraw ▸ hcut, _, hcut', (), ?_, (), ?_, ?_⟩
  · exact fun hnil => hid (String.toList_eq_nil_iff.mp hnil)
  · rw [String.ofList_toList, String.ofList_toList]
    exact ⟨ht.isoDate e.day hday, ht.isoDatetime e.createdAt hcreated⟩
  · simp only [String.ofList_toList]

/-- The query with the cursor echoed back. -/
def UsageEventsQuery.page (q : UsageEventsQuery) (cursor : Option String) : UsageEventsQuery := { q with cursor := cursor }

/-- The filters of a query whose parameters the route accepts. -/
def UsageEventsQuery.filter (t : RowTexts) (q : UsageEventsQuery) : Except LogError DayFilter := do
  let fromText ← t.dateOr400 "from" q.fromDay
  let toText ← t.dateOr400 "to" q.toDay
  let fromDay ← t.dayArgument fromText
  let toDay ← t.dayArgument toText
  return ⟨q.orgId, q.apiKeyId, fromDay, toDay⟩

theorem events_first (h : q.filter t = .ok f) (events : UsageEvents) :
    getUsageEvents t collate (q.page none) events =
      .ok (answer (dayKey collate) f.wants none events.rows (encodeEventsCursor t) (rpcCap q.limit)) := by
  simp only [UsageEventsQuery.filter, bind_eq_ok, pure_eq_ok] at h
  obtain ⟨fromText, hfrom, toText, hto, fromDay, hfromDay, toDay, htoDay, rfl⟩ := h
  unfold getUsageEvents
  simp only [bind_eq_ok, pure_eq_ok]
  refine ⟨none, rfl, fromText, hfrom, toText, hto, fromDay, hfromDay, toDay, htoDay, none, rfl, none, rfl, ?_⟩
  simp only [UsageEventsQuery.page, gatewayUsageEventsRead, rpcCap_clamped, length_eq_cap_iff, answer]
  rfl

theorem events_next (ht : t.Faithful days instants) (h : q.filter t = .ok f) {e : UsageEvent} (hday : e.day ∈ days)
    (hcreated : e.createdAt ∈ instants) (hid : e.requestId ≠ "") (events : UsageEvents) :
    getUsageEvents t collate (q.page (some (encodeEventsCursor t e))) events =
      .ok (answer (dayKey collate) f.wants (some (dayKey collate e)) events.rows (encodeEventsCursor t)
        (rpcCap q.limit)) := by
  simp only [UsageEventsQuery.filter, bind_eq_ok, pure_eq_ok] at h
  obtain ⟨fromText, hfrom, toText, hto, fromDay, hfromDay, toDay, htoDay, rfl⟩ := h
  have hdecode : (decodeEventsCursor t (encodeEventsCursor t e)).map some =
      .ok (some (t.dayText e.day, t.instantText e.createdAt, e.requestId)) := by
    rw [decode_encodeEventsCursor ht hday hcreated hid]
    rfl
  have hreadDay : t.dayArgument (some (t.dayText e.day)) = .ok (some e.day) := by
    rw [RowTexts.dayArgument, ht.readDay _ hday]
    rfl
  have hreadCreated : t.instantArgument (some (t.instantText e.createdAt)) = .ok (some e.createdAt) := by
    rw [RowTexts.instantArgument, ht.readInstant _ hcreated]
    rfl
  -- from here on the cursor is any text that decodes to these parts
  generalize encodeEventsCursor t e = cursor at hdecode ⊢
  unfold getUsageEvents
  simp only [bind_eq_ok, pure_eq_ok]
  refine ⟨some (t.dayText e.day, t.instantText e.createdAt, e.requestId), hdecode, fromText, hfrom, toText, hto,
    fromDay, hfromDay, toDay, htoDay, some e.day, hreadDay, some e.createdAt, hreadCreated, ?_⟩
  simp only [UsageEventsQuery.page, gatewayUsageEventsRead, rpcCap_clamped, length_eq_cap_iff, answer]
  rfl

/-- **The second route** shows every event that its filters want. -/
theorem events_walk (ht : t.Faithful days instants) (hcollate : Function.Injective collate)
    (h : q.filter t = .ok f) (stores : ℕ → UsageEvents)
    (hstores : ∀ j, ∀ e ∈ (stores j).rows, e.day ∈ days ∧ e.createdAt ∈ instants ∧ e.requestId ≠ "")
    (hinserts : InsertsAbove (fun j c => getUsageEvents t collate (q.page c) (stores j)) (dayKey collate) f.wants
      fun j => (stores j).rows) :
    WalksAll (fun j c => getUsageEvents t collate (q.page c) (stores j)) (dayKey collate) f.wants (stores 0).rows :=
  walksAll (rpcCap_pos q.limit) (fun j => nodup_dayKey hcollate (stores j)) (events_first h (stores 0))
    (fun j e he => events_next ht h (hstores j e he).1 (hstores j e he).2.1 (hstores j e he).2.2 (stores (j + 1)))
    hinserts

end events

/-! ### Both routes -/

/-- **Request-log paging is complete**: on either route a client that follows the cursors ends with every event
that its filters want, once and newest first, whatever is inserted above the rows it has seen; and a cursor
decodes to the day, instant and id that it was minted from. -/
theorem request_log_complete {t : RowTexts} {days instants : Set Int} {K : Type} [LinearOrder K]
    (collate : String → K) (ht : t.Faithful days instants) (hcollate : Function.Injective collate) :
    (∀ (orgId : ℕ) (q : UsageRequestsQuery) (now : ℕ → Int) (after : String) (f : LogFilter) (stores : ℕ → UsageEvents),
      q.filter t orgId (now 0) = .ok (after, f) →
      (∀ bound, windowStart q.window (now 0) = .ok bound → bound ∈ instants) →
      (∀ j, ∀ e ∈ (stores j).rows, e.createdAt ∈ instants) →
      InsertsAbove (fun j c => listUsageRequests t collate (now j) orgId (q.page c) (stores j)) (logKey collate) f.wants
        (fun j => (stores j).rows) →
      WalksAll (fun j c => listUsageRequests t collate (now j) orgId (q.page c) (stores j)) (logKey collate) f.wants
        (stores 0).rows) ∧
    (∀ (q : UsageEventsQuery) (f : DayFilter) (stores : ℕ → UsageEvents), q.filter t = .ok f →
      (∀ j, ∀ e ∈ (stores j).rows, e.day ∈ days ∧ e.createdAt ∈ instants ∧ e.requestId ≠ "") →
      InsertsAbove (fun j c => getUsageEvents t collate (q.page c) (stores j)) (dayKey collate) f.wants
        (fun j => (stores j).rows) →
      WalksAll (fun j c => getUsageEvents t collate (q.page c) (stores j)) (dayKey collate) f.wants (stores 0).rows) ∧
    ∀ e : UsageEvent, e.day ∈ days → e.createdAt ∈ instants → e.requestId ≠ "" →
      decodeEventsCursor t (encodeEventsCursor t e) = .ok (t.dayText e.day, t.instantText e.createdAt, e.requestId) :=
  ⟨fun _ _ now _ _ stores h hwindow hstores hinserts => requests_walk ht hcollate now hwindow h stores hstores hinserts,
    fun _ _ stores h hstores hinserts => events_walk ht hcollate h stores hstores hinserts,
    fun _ hday hcreated hid => decode_encodeEventsCursor ht hday hcreated hid⟩

section ties

/-- Eleven o'clock on the last of August, and the day before. -/
def sampleInstant : Int := 1788174000000000
def sampleBound : Int := 1788087600000000

def sampleInstantText (a : Int) : String :=
  if a = sampleInstant then "2026-08-31T11:00:00+00:00" else "2026-08-30T11:00:00+00:00"

def readSampleInstant (s : String) : Option Int :=
  if s = "2026-08-31T11:00:00+00:00" then some sampleInstant
  else if s = "2026-08-30T11:00:00+00:00" then some sampleBound
  else none

def sampleTexts : RowTexts where
  dayText := fun _ => "2026-08-31"
  instantText := sampleInstantText
  isoformat := sampleInstantText
  readDay := fun s => if s = "2026-08-31" then some 20696 else none
  readInstant := readSampleInstant
  isoDate := fun s => s == "2026-08-31"
  isoDatetime := fun s => (readSampleInstant s).isSome

theorem sampleTexts_faithful : sampleTexts.Faithful {20696} {sampleInstant, sampleBound} := by
  constructor
  all_goals
    rintro a ha
    rcases ha with rfl | rfl <;> decide

/-- A finished request of the first organization. -/
def sampleEvent (requestId : String) : UsageEvent where
  requestId := requestId
  orgId := 1
  apiKeyId := none
  userId := none
  aliasName := "model"
  provider := none
  lane := none
  inputTokens := 0
  outputTokens := 0
  cachedInputTokens := 0
  reasoningTokens := 0
  cost := 0
  estimatedCost := 0
  pricingKnown := true
  latencyMs := 0
  status := .failed
  attemptCount := 0
  day := 20696
  toolsUsed := none
  failureClass := none
  errorMessage := none
  generationDurationMs := none
  routingOverheadMs := none
  ttftMs := none
  promptSha256 := none
  conversationSha256 := none
  stablePrefixChars := none
  createdAt := sampleInstant

/-- Three requests of one instant, with bars in their ids. -/
def sampleEvents : UsageEvents := ⟨["a", "a|b", "|"].map sampleEvent, by decide, by decide⟩

def sampleRequests : UsageRequestsQuery := ⟨some "24h", none, none, none, some "error", none, none, none, 1⟩

def sampleFilter : LogFilter := ⟨1, some sampleBound, none, none, none, none, some "error"⟩

/-- A fourth one comes behind the first page. -/
def sampleStores : ℕ → UsageEvents
  | 0 => sampleEvents
  | _ + 1 => ⟨["a", "a|b", "|", "~"].map sampleEvent, by decide, by decide⟩

theorem sampleStores_inserts {C ε κ : Type} [LinearOrder κ] {respond : ℕ → Option C → Except ε (List UsageEvent × Option C)}
    {key : UsageEvent → κ} {p : UsageEvent → Bool} {next : Option C}
    (hfirst : respond 0 none = .ok ([sampleEvent "|"], next)) (hkey : key (sampleEvent "|") < key (sampleEvent "~")) :
    InsertsAbove respond key p fun j => (sampleStores j).rows := by
  rintro (_ | j) c page c' last hasks hanswer hlast
  · cases hasks
    rw [hfirst] at hanswer
    cases hanswer
    cases hlast
    refine ⟨fun e he => ?_, fun e he _ hnew => ?_⟩
    · exact List.map_subset sampleEvent (by decide) he
    · obtain ⟨id, hid, rfl⟩ := List.mem_map.mp he
      obtain rfl : id = "~" := by
        by_contra hne
        refine hnew (List.mem_map_of_mem ?_)
        simpa [hne] using hid
      exact hkey
  · exact ⟨fun _ he => he, fun _ he _ hnew => absurd he hnew⟩

/-- A page a request, on both routes. -/
theorem request_log_complete_ties :
    WalksAll (fun j c => listUsageRequests sampleTexts id sampleInstant 1 (sampleRequests.page c) (sampleStores j))
      (logKey id) sampleFilter.wants sampleEvents.rows ∧
    WalksAll (fun j c => getUsageEvents sampleTexts id (UsageEventsQuery.page ⟨1, none, none, none, none, 1⟩ c) (sampleStores j))
      (dayKey id) (DayFilter.wants ⟨1, none, none, none⟩) sampleEvents.rows ∧
    decodeEventsCursor sampleTexts (encodeEventsCursor sampleTexts (sampleEvent "a|b")) =
      .ok ("2026-08-31", "2026-08-31T11:00:00+00:00", "a|b") := by
  obtain ⟨hrequests, hevents, hcursor⟩ := request_log_complete id sampleTexts_faithful Function.injective_id
  have hrows : ∀ j, ∀ e ∈ (sampleStores j).rows, e.day = 20696 ∧ e.createdAt = sampleInstant ∧ e.requestId ≠ ""
    | 0 => by decide
    | _ + 1 => (by decide : ∀ e ∈ (sampleStores 1).rows, e.day = 20696 ∧ e.createdAt = sampleInstant ∧ e.requestId ≠ "")
  refine ⟨hrequests 1 sampleRequests (fun _ => sampleInstant) "2026-08-30T11:00:00+00:00" sampleFilter
    sampleStores rfl ?_ (fun j e he => .inl (hrows j e he).2.1) (sampleStores_inserts rfl (by decide)),
    hevents ⟨1, none, none, none, none, 1⟩ ⟨1, none, none, none⟩ sampleStores rfl
      (fun j e he => ⟨(hrows j e he).1, .inl (hrows j e he).2.1, (hrows j e he).2.2⟩) (sampleStores_inserts rfl (by decide)),
    hcursor (sampleEvent "a|b") rfl (.inl rfl) (by decide)⟩
  rintro bound hbound
  obtain rfl : sampleBound = bound := Except.ok.inj hbound
  exact .inr rfl

end ties

end Experiential.Gateway
