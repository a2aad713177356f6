import Mathlib
import Experiential.Lib.Checked
import Experiential.Lib.Joined
import Experiential.Lib.Paging
import Experiential.Lib.PyUnicode

/-! # Remote trace sources

A connector turns a cursor and a limit into one request for a page of a remote source. The Langfuse
and Mastra connectors number their pages: the cursor is the page's number, and the page's size is the
limit, cut off at the connector's own page size. Records are JSON documents of which only the
canonical text matters; `canonical` gives it, and nothing for a document that `json.dumps` refuses.
A source that holds its records still during a pull is a `RemoteSource`. -/

namespace Experiential.Acquisition

inductive AcquisitionErrorCode where
  | badCredentials
  | connectionMissing
  | invalidSourceConfig
  | invalidSourceResponse
  | objectTooLarge
  | rateLimited
  | sourceTimeout
  | sourceUnavailable
  | storageFailed
deriving DecidableEq

/-- `MAX_TRACE_OBJECT_BYTES` -/
def maxTraceObjectBytes : ℕ := 50 * 1024 * 1024

/-- `HTTP_PAGE_SIZE` -/
def httpPageSize : ℕ := 100

/-- What a request comes to; the body is none when it is not JSON. -/
inductive HttpOutcome (β : Type) where
  | timeout
  | failed
  | response (status contentLength : ℕ) (body : Option β)

/-- `_json` -/
def json {β : Type} : HttpOutcome β → Except AcquisitionErrorCode β
  | .timeout => .error .sourceTimeout
  | .failed => .error .sourceUnavailable
  | .response status contentLength body =>
      if status = 401 ∨ status = 403 then .error .badCredentials
      else if status = 429 then .error .rateLimited
      else if 400 ≤ status then .error .sourceUnavailable
      else if maxTraceObjectBytes < contentLength then .error .objectTooLarge
      else require body .invalidSourceResponse

structure ConnectorBatch (ρ : Type) where
  records : List ρ
  nextCursor : Option String

/-- `int(text)`, with digits of ASCII. -/
def intOf (text : String) : Option ℤ :=
  let digits := Py.Str.stripText text
  match digits.toList with
  | '-' :: ds => (String.ofList ds).toNat?.map fun n : ℕ => -n
  | '+' :: ds => (String.ofList ds).toNat?.map fun n : ℕ => n
  | _ => digits.toNat?.map fun n : ℕ => n

/-- `_positive_cursor` -/
def positiveCursor (value : Option String) (start : ℕ) : Except AcquisitionErrorCode ℕ :=
  match value with
  | none => .ok start
  | some text =>
      match intOf text with
      | none => .error .invalidSourceConfig
      | some page => if page < start then .error .invalidSourceConfig else .ok page.toNat

variable {ρ : Type} (canonical : ρ → Option String)

/-- `_json_byte_size`, and the line break. -/
def lineBytes (r : ρ) : Except AcquisitionErrorCode ℕ :=
  match canonical r with
  | none => .error .invalidSourceResponse
  | some text => .ok (text.utf8ByteSize + 1)

/-! ### Langfuse -/

structure LangfuseApi (ρ : Type) where
  /-- What the credential, the host and the lower bound raise before the first request. -/
  setup : Except AcquisitionErrorCode Unit
  /-- The rows of one page of the list, none for a row without a text id; none when the payload has
  no list. -/
  traces : (page limit : ℕ) → HttpOutcome (Option (List (Option String)))
  trace : (id : String) → HttpOutcome ρ

/-- One row's complete trace; the pair is the records so far and their size. -/
def langfuseRecord (api : LangfuseApi ρ) (acc : List ρ × ℕ) (row : Option String) :
    Except AcquisitionErrorCode (List ρ × ℕ) := do
  let traceId ← require row .invalidSourceResponse
  ensure (traceId ≠ "") .invalidSourceResponse
  let record ← json (api.trace traceId)
  let bytes ← lineBytes canonical record
  ensure (acc.2 + bytes ≤ maxTraceObjectBytes) .objectTooLarge
  return (acc.1 ++ [record], acc.2 + bytes)

/-- `LangfuseConnector.fetch_page` -/
def langfuseFetchPage (api : LangfuseApi ρ) (pageSize : ℕ) (cursor : Option String) (limit : ℕ) :
    Except AcquisitionErrorCode (ConnectorBatch ρ) := do
  api.setup
  let page ← positiveCursor cursor 1
  let pageLimit := min limit pageSize
  let listed ← json (api.traces page pageLimit)
  let data ← require listed .invalidSourceResponse
  let rows := data.take pageLimit
  let acc ← rows.foldlM (langfuseRecord canonical api) ([], 0)
  return ⟨acc.1, if rows.length = pageLimit then some (toString (page + 1)) else none⟩

/-! ### Mastra -/

structure MastraApi (ρ : Type) where
  /-- What the host and the lower bound raise before the first request. -/
  setup : Except AcquisitionErrorCode Unit
  /-- One page; none when the payload is no list and wraps none. -/
  traces : (page perPage : ℕ) → HttpOutcome (Option (List ρ))

/-- `MastraConnector.fetch_page` -/
def mastraFetchPage (api : MastraApi ρ) (pageSize : ℕ) (cursor : Option String) (limit : ℕ) :
    Except AcquisitionErrorCode (ConnectorBatch ρ) := do
  api.setup
  let page ← positiveCursor cursor 0
  let pageLimit := min limit pageSize
  let payload ← json (api.traces page pageLimit)
  let records ← require payload .invalidSourceResponse
  return ⟨records.take limit, if records.length = pageLimit then some (toString (page + 1)) else none⟩

/-! ### Sources that stay as they are -/

/-- The traces a Langfuse project holds, by id, in the order of its list, and the lengths of the
responses. -/
structure LangfuseSource (ρ : Type) where
  traces : List (String × ρ)
  keyed : (traces.map Prod.fst).Nodup
  named : ∀ t ∈ traces, t.1 ≠ ""
  listLength : (page limit : ℕ) → ℕ
  traceLength : ρ → ℕ

def LangfuseSource.api (s : LangfuseSource ρ) : LangfuseApi ρ where
  setup := .ok ()
  traces number limit :=
    .response 200 (s.listLength number limit) (some ((page s.traces (number - 1) limit).map fun t => some t.1))
  trace id :=
    match s.traces.find? fun t => decide (t.1 = id) with
    | some t => .response 200 (s.traceLength t.2) (some t.2)
    | none => .response 404 0 none

/-- The spans a Mastra server holds, and the lengths of its responses. -/
structure MastraSource (ρ : Type) where
  spans : List ρ
  pageLength : (page perPage : ℕ) → ℕ

def MastraSource.api (s : MastraSource ρ) : MastraApi ρ where
  setup := .ok ()
  traces number perPage := .response 200 (s.pageLength number perPage) (some (page s.spans number perPage))

inductive RemoteSource (ρ : Type) where
  | langfuse (s : LangfuseSource ρ)
  | mastra (s : MastraSource ρ)

namespace RemoteSource

def records : RemoteSource ρ → List ρ
  | .langfuse s => s.traces.map Prod.snd
  | .mastra s => s.spans

/-- The number of the first page. -/
def start : RemoteSource ρ → ℕ
  | .langfuse _ => 1
  | .mastra _ => 0

/-- The page size of the source's connector. -/
def connectorPageSize : RemoteSource ρ → ℕ
  | .langfuse _ => 50
  | .mastra _ => httpPageSize

def fetchPage : RemoteSource ρ → ℕ → Option String → ℕ → Except AcquisitionErrorCode (ConnectorBatch ρ)
  | .langfuse s => langfuseFetchPage canonical s.api
  | .mastra s => mastraFetchPage s.api

end RemoteSource

/-! ### One page -/

section sizes
variable {canonical}

/-- The bytes of the lines of the records. -/
def linesBytes (canonical : ρ → Option String) (l : List ρ) : ℕ :=
  (l.map fun r => (canonical r).elim 0 fun text => text.utf8ByteSize + 1).sum

theorem linesBytes_append (l m : List ρ) :
    linesBytes canonical (l ++ m) = linesBytes canonical l + linesBytes canonical m := by
  unfold linesBytes
  rw [List.map_append, List.sum_append]

/-- Every record has a canonical text, and their lines fit one object. -/
def Storable (canonical : ρ → Option String) (l : List ρ) : Prop :=
  (∀ r ∈ l, (canonical r).isSome) ∧ linesBytes canonical l ≤ maxTraceObjectBytes

instance (l : List ρ) : Decidable (Storable canonical l) :=
  inferInstanceAs (Decidable ((∀ r ∈ l, (canonical r).isSome) ∧ linesBytes canonical l ≤ maxTraceObjectBytes))

theorem lineBytes_eq_ok {r : ρ} {n : ℕ} :
    lineBytes canonical r = .ok n ↔ (canonical r).isSome ∧ n = linesBytes canonical [r] := by
  unfold lineBytes linesBytes
  cases hr : canonical r with
  | none => simp
  | some text =>
      simp only [Except.ok.injEq, Option.isSome_some, true_and, hr, List.map_singleton, Option.elim_some,
        List.sum_singleton]
      exact eq_comm

theorem json_eq_ok {β : Type} {length : ℕ} {body : Option β} {b : β} :
    json (.response 200 length body) = .ok b ↔ length ≤ maxTraceObjectBytes ∧ body = some b := by
  unfold json
  by_cases h : maxTraceObjectBytes < length
  · simp [h]
  · simp [h, Nat.le_of_not_lt h]

end sizes

/-- Page `j` of `n` records, where it begins as a number of the source. -/
def Serves (fetchPage : Option String → ℕ → Except AcquisitionErrorCode (ConnectorBatch ρ)) (start pageSize : ℕ)
    (l : List ρ) (Fits : ℕ → ℕ → Prop) : Prop :=
  ∀ cursor j limit, positiveCursor cursor start = .ok (start + j) → ∀ batch,
    fetchPage cursor limit = .ok batch ↔ Fits j (min limit pageSize) ∧
      batch = ⟨page l j (min limit pageSize),
        if (page l j (min limit pageSize)).length = min limit pageSize then some (toString (start + j + 1)) else none⟩

namespace RemoteSource

/-- The responses of one page are within the limits. -/
def PageFits (canonical : ρ → Option String) : RemoteSource ρ → ℕ → ℕ → Prop
  | .langfuse s, j, n => s.listLength (1 + j) n ≤ maxTraceObjectBytes ∧
      (∀ r ∈ page (s.traces.map Prod.snd) j n, s.traceLength r ≤ maxTraceObjectBytes) ∧
        Storable canonical (page (s.traces.map Prod.snd) j n)
  | .mastra s, j, n => s.pageLength j n ≤ maxTraceObjectBytes

instance (canonical : ρ → Option String) (s : RemoteSource ρ) (j n : ℕ) : Decidable (s.PageFits canonical j n) := by
  cases s <;> (unfold PageFits; infer_instance)

end RemoteSource

section pages
variable {canonical}

theorem LangfuseSource.trace_eq (s : LangfuseSource ρ) {t : String × ρ} (ht : t ∈ s.traces) :
    s.api.trace t.1 = .response 200 (s.traceLength t.2) (some t.2) := by
  have hfind : s.traces.find? (fun u => decide (u.1 = t.1)) = some t := by
    cases hf : s.traces.find? (fun u => decide (u.1 = t.1)) with
    | none => simpa using List.find?_eq_none.mp hf t ht
    | some u =>
        have hkey : u.1 = t.1 := by simpa using List.find?_some hf
        rw [List.inj_on_of_nodup_map s.keyed (List.mem_of_find?_eq_some hf) ht hkey]
  unfold LangfuseSource.api
  simp only [hfind]

theorem langfuseRecord_eq_ok (s : LangfuseSource ρ) {t : String × ρ} (ht : t ∈ s.traces) {acc acc' : List ρ × ℕ} :
    langfuseRecord canonical s.api acc (some t.1) = .ok acc' ↔
      (s.traceLength t.2 ≤ maxTraceObjectBytes ∧ (canonical t.2).isSome ∧
        acc.2 + linesBytes canonical [t.2] ≤ maxTraceObjectBytes) ∧
        acc' = (acc.1 ++ [t.2], acc.2 + linesBytes canonical [t.2]) := by
  unfold langfuseRecord
  simp only [bind_eq_ok, require_eq_ok, ensure_eq_ok, pure_eq_ok, Option.some.injEq, exists_eq_left', s.trace_eq ht,
    json_eq_ok, lineBytes_eq_ok]
  constructor
  · rintro ⟨_, -, _, ⟨hlen, rfl⟩, _, ⟨hsome, rfl⟩, _, hfit, rfl⟩
    exact ⟨⟨hlen, hsome, hfit⟩, rfl⟩
  · rintro ⟨⟨hlen, hsome, hfit⟩, rfl⟩
    exact ⟨(), s.named t ht, t.2, ⟨hlen, rfl⟩, _, ⟨hsome, rfl⟩, (), hfit, rfl⟩

theorem foldlM_langfuseRecord (s : LangfuseSource ρ) : ∀ {l : List (String × ρ)}, (∀ t ∈ l, t ∈ s.traces) →
    ∀ {acc acc' : List ρ × ℕ}, acc.2 ≤ maxTraceObjectBytes →
      ((l.map fun t => some t.1).foldlM (langfuseRecord canonical s.api) acc = .ok acc' ↔
        ((∀ r ∈ l.map Prod.snd, s.traceLength r ≤ maxTraceObjectBytes) ∧ (∀ r ∈ l.map Prod.snd, (canonical r).isSome) ∧
          acc.2 + linesBytes canonical (l.map Prod.snd) ≤ maxTraceObjectBytes) ∧
          acc' = (acc.1 ++ l.map Prod.snd, acc.2 + linesBytes canonical (l.map Prod.snd)))
  | [], _, acc, acc', hacc => by
      simp only [List.map_nil, List.foldlM_nil, pure_eq_ok, List.not_mem_nil, false_imp_iff, implies_true, true_and,
        List.append_nil, linesBytes, List.sum_nil, Nat.add_zero, hacc]
      exact eq_comm
  | t :: l, hl, acc, acc', hacc => by
      have ht : t ∈ s.traces := hl t List.mem_cons_self
      have hrest : ∀ u ∈ l, u ∈ s.traces := fun u hu => hl u (List.mem_cons_of_mem _ hu)
      have hlines : linesBytes canonical ((t :: l).map Prod.snd) =
          linesBytes canonical [t.2] + linesBytes canonical (l.map Prod.snd) :=
        linesBytes_append [t.2] (l.map Prod.snd)
      rw [List.map_cons, List.foldlM_cons, bind_eq_ok]
      constructor
      · rintro ⟨_, hone, hall⟩
        obtain ⟨⟨hlen, hsome, hfit⟩, rfl⟩ := (langfuseRecord_eq_ok s ht).mp hone
        obtain ⟨⟨hlens, hsomes, hfits⟩, rfl⟩ := (foldlM_langfuseRecord s hrest hfit).mp hall
        rw [hlines, List.map_cons, List.forall_mem_cons, List.forall_mem_cons]
        refine ⟨⟨⟨hlen, hlens⟩, ⟨hsome, hsomes⟩, by omega⟩, ?_⟩
        rw [List.append_assoc, List.singleton_append, Nat.add_assoc]
      · rintro ⟨⟨hlens, hsomes, hfits⟩, rfl⟩
        rw [List.map_cons, List.forall_mem_cons] at hlens hsomes
        rw [hlines] at hfits
        refine ⟨_, (langfuseRecord_eq_ok s ht).mpr ⟨⟨hlens.1, hsomes.1, by omega⟩, rfl⟩, ?_⟩
        refine (foldlM_langfuseRecord s hrest (by omega)).mpr ⟨⟨hlens.2, hsomes.2, by omega⟩, ?_⟩
        rw [hlines, List.map_cons, List.append_assoc, List.singleton_append, Nat.add_assoc]

theorem page_map {σ : Type} (f : ρ → σ) (l : List ρ) (j n : ℕ) : page (l.map f) j n = (page l j n).map f := by
  unfold page
  rw [List.map_take, List.map_drop]

theorem take_page (l : List ρ) (j n : ℕ) : (page l j n).take n = page l j n :=
  List.take_of_length_le (length_page_le l j n)

theorem LangfuseSource.fetchPage_eq_ok (s : LangfuseSource ρ) {cursor : Option String} {j limit pageSize n : ℕ}
    (hcursor : positiveCursor cursor 1 = .ok (1 + j)) (hn : min limit pageSize = n) {batch : ConnectorBatch ρ} :
    langfuseFetchPage canonical s.api pageSize cursor limit = .ok batch ↔
      (RemoteSource.langfuse s).PageFits canonical j n ∧
        batch = ⟨page (s.traces.map Prod.snd) j n,
          if (page (s.traces.map Prod.snd) j n).length = n then some (toString (1 + j + 1)) else none⟩ := by
  have hall : ∀ t ∈ page s.traces j n, t ∈ s.traces := (page_sublist _ _ _).subset
  have hlist : s.api.traces (1 + j) n = .response 200 (s.listLength (1 + j) n)
      (some ((page s.traces j n).map fun t => some t.1)) := by
    unfold LangfuseSource.api
    simp only [Nat.add_sub_cancel_left]
  have hsetup : s.api.setup = .ok () := rfl
  have htake : ((page s.traces j n).map fun t => some t.1).take n = (page s.traces j n).map fun t => some t.1 := by
    rw [← List.map_take, take_page]
  unfold langfuseFetchPage
  simp only [hn, hsetup, hcursor, bind_eq_ok, require_eq_ok, pure_eq_ok, Except.ok.injEq, exists_eq_left', hlist,
    json_eq_ok, RemoteSource.PageFits, page_map, List.length_map]
  constructor
  · rintro ⟨_, -, _, ⟨hlen, hlisted⟩, rows, rfl, acc, hacc, rfl⟩
    obtain rfl := Option.some.inj (Option.some.inj hlisted)
    rw [htake] at hacc ⊢
    obtain ⟨⟨hlens, hsomes, hfits⟩, rfl⟩ := (foldlM_langfuseRecord s hall (Nat.zero_le _)).mp hacc
    rw [Nat.zero_add] at hfits
    rw [List.length_map]
    exact ⟨⟨hlen, hlens, hsomes, hfits⟩, rfl⟩
  · rintro ⟨⟨hlen, hlens, hsomes, hfits⟩, rfl⟩
    refine ⟨(), trivial, _, ⟨hlen, rfl⟩, _, rfl,
      ([] ++ (page s.traces j n).map Prod.snd, 0 + linesBytes canonical ((page s.traces j n).map Prod.snd)), ?_, ?_⟩
    · rw [htake, foldlM_langfuseRecord s hall (Nat.zero_le _), Nat.zero_add]
      exact ⟨⟨hlens, hsomes, hfits⟩, rfl⟩
    · rw [htake, List.length_map]
      rfl

theorem MastraSource.fetchPage_eq_ok (s : MastraSource ρ) {cursor : Option String} {j limit pageSize n : ℕ}
    (hcursor : positiveCursor cursor 0 = .ok (0 + j)) (hn : min limit pageSize = n) {batch : ConnectorBatch ρ} :
    mastraFetchPage s.api pageSize cursor limit = .ok batch ↔
      (RemoteSource.mastra s).PageFits canonical j n ∧
        batch = ⟨page s.spans j n,
          if (page s.spans j n).length = n then some (toString (0 + j + 1)) else none⟩ := by
  have hserved : s.api.traces (0 + j) n = .response 200 (s.pageLength j n) (some (some (page s.spans j n))) := by
    unfold MastraSource.api
    rw [Nat.zero_add]
  have hsetup : s.api.setup = .ok () := rfl
  have htake : (page s.spans j n).take limit = page s.spans j n := by
    apply List.take_of_length_le
    have hle := length_page_le s.spans j n
    omega
  unfold mastraFetchPage
  simp only [hn, hsetup, hcursor, bind_eq_ok, require_eq_ok, pure_eq_ok, Except.ok.injEq, exists_eq_left', hserved,
    json_eq_ok, RemoteSource.PageFits]
  constructor
  · rintro ⟨_, -, _, ⟨hlen, hpage⟩, _, rfl, rfl⟩
    obtain rfl := Option.some.inj (Option.some.inj hpage)
    rw [htake]
    exact ⟨hlen, rfl⟩
  · rintro ⟨hlen, rfl⟩
    refine ⟨(), trivial, _, ⟨hlen, rfl⟩, _, rfl, ?_⟩
    rw [htake]

/-- **Pages are served by number**: page `j` is fetched exactly when its responses fit, and is the
source cut into pages of the size asked for. -/
theorem RemoteSource.serves (s : RemoteSource ρ) (pageSize : ℕ) :
    Serves (s.fetchPage canonical pageSize) s.start pageSize s.records (s.PageFits canonical) := by
  intro cursor j limit hcursor batch
  cases s with
  | langfuse s | mastra s => exact s.fetchPage_eq_ok hcursor rfl

end pages

end Experiential.Acquisition
