import Mathlib.Data.Finset.Card
import Experiential.Lib.Checked
import Experiential.Lib.Grouping
import Experiential.Lib.Joined

/-! # Importing historical usage

A batch of per-turn records is written into one table under the hash of what identifies a record: its fields, joined
by bars. A bar inside a field is no longer told from a separator, and an absent turn id no longer from an empty one
(`recordHash_eq_iff`); records are counted once exactly when no two of them are confused so (`counted_once_iff`). -/

namespace Experiential.Usage

open OrderedDict

/-! ### Records -/

inductive ImportSource where
  | codex
  | claudeCode
deriving DecidableEq

def ImportSource.value : ImportSource → String
  | .codex => "codex"
  | .claudeCode => "claude-code"

/-- A record as the body's model accepts it. -/
@[ext] structure ImportUsageRecordInput where
  model : String
  inputTokens : ℕ
  outputTokens : ℕ
  cachedTokens : ℕ
  reasoningTokens : ℕ
  timestamp : String
  source : ImportSource
  eventId : Option String
  model_length : 1 ≤ model.length ∧ model.length ≤ 256
  eventId_length : ∀ e ∈ eventId, e.length ≤ 256
deriving DecidableEq

/-- `_record_hash`, before it is hashed. -/
def ImportUsageRecordInput.identity (record : ImportUsageRecordInput) : String :=
  "|".intercalate
    [record.source.value, record.eventId.getD "", record.model, record.timestamp, toString record.inputTokens,
      toString record.outputTokens, toString record.cachedTokens, toString record.reasoningTokens]

structure PricedUsage where
  aliasName : Option String
  provider : Option String
  matched : Bool
  costMicroUsd : ℕ
deriving DecidableEq

/-- What is outside of importing: the hash, the parser of timestamps (the moment in UTC and its day), the catalog's
prices. -/
structure ImportEnv where
  sha256 : ByteArray → String
  eventTime : String → Option (String × String)
  priceUsage : String → ℕ → ℕ → ℕ → PricedUsage
  /-- The text as a `uuid` of the database, which has one spelling for each. -/
  uuid : String → String

structure ImportedUsageWrite where
  recordHash : String
  source : ImportSource
  rawModel : String
  priced : PricedUsage
  inputTokens : ℕ
  outputTokens : ℕ
  cachedInputTokens : ℕ
  reasoningTokens : ℕ
  occurredAt : String
  day : String
deriving DecidableEq

section
variable (env : ImportEnv)

def recordHash (record : ImportUsageRecordInput) : String := env.sha256 record.identity.toUTF8

inductive ImportError where
  | forbidden
  | noRecords
  | tooManyRecords
  | invalidTimestamp (timestamp : String)
  | database
deriving DecidableEq

/-- A record, priced. -/
def writeOf (record : ImportUsageRecordInput) (at_ : String × String) : ImportedUsageWrite :=
  { recordHash := recordHash env record
    source := record.source
    rawModel := record.model
    priced := env.priceUsage record.model record.inputTokens record.cachedTokens record.outputTokens
    inputTokens := record.inputTokens
    outputTokens := record.outputTokens
    cachedInputTokens := record.cachedTokens
    reasoningTokens := record.reasoningTokens
    occurredAt := at_.1
    day := at_.2 }

def priceRecord (record : ImportUsageRecordInput) : Except ImportError ImportedUsageWrite :=
  match env.eventTime record.timestamp with
  | none => .error (.invalidTimestamp record.timestamp)
  | some eventAt => .ok (writeOf env record eventAt)

/-- `_price_records` -/
def priceRecords (records : List ImportUsageRecordInput) : Except ImportError (List ImportedUsageWrite) :=
  records.mapM (priceRecord env)

end

/-! ### The store -/

structure ImportedUsageRow extends ImportedUsageWrite where
  orgId : String
  batchId : String
  userId : Option String
deriving DecidableEq

/-- `gateway_imported_usage_events`, by its primary key. -/
abbrev ImportedUsageEvents := OrderedDict (String × String) ImportedUsageRow

structure ImportOutcome where
  received : ℕ
  inserted : ℕ
  duplicates : ℕ
deriving DecidableEq

/-- The rows of an organization. -/
def rowsOf (table : ImportedUsageEvents) (orgId : String) : List ImportedUsageRow :=
  (table.entries.filter fun e => decide (e.1.1 = orgId)).map (·.2)

/-- `_all_rows`: pages of an ordered list, until one is not full. -/
def allRows {ρ : Type} (pageSize : ℕ) (hpos : 0 < pageSize) (rows : List ρ) (j : ℕ) : List ρ :=
  if _h : (page rows j pageSize).length < pageSize then page rows j pageSize
  else page rows j pageSize ++ allRows pageSize hpos rows (j + 1)
termination_by rows.length - j * pageSize
decreasing_by
  have hfull : (j + 1) * pageSize ≤ rows.length :=
    (length_page_eq_iff hpos).mp (le_antisymm (length_page_le rows j pageSize) (not_lt.mp _h))
  rw [Nat.add_one_mul] at hfull ⊢
  omega

/-- `_existing_hashes` -/
def existingHashes (table : ImportedUsageEvents) (orgId : String) : List String :=
  allRows 1000 (by decide) (((rowsOf table orgId).map (·.recordHash)).mergeSort fun x y => decide (x ≤ y)) 0

/-- The upsert on `org_id,record_hash`. -/
def upsert (rows : List ImportedUsageRow) (table : ImportedUsageEvents) : ImportedUsageEvents :=
  writeAll (fun row => (row.orgId, row.recordHash)) id rows table

/-- `record_batch` -/
def recordBatch (table : ImportedUsageEvents) (orgId : String) (userId : Option String) (batchId : String)
    (records : List ImportedUsageWrite) : ImportedUsageEvents × ImportOutcome :=
  let existing := existingHashes table orgId
  let (byHash, newCount) := records.foldl
    (fun (byHash, newCount) record =>
      (byHash.set record.recordHash ⟨record, orgId, batchId, userId⟩,
        if record.recordHash ∉ existing ∧ record.recordHash ∉ byHash.keys then newCount + 1 else newCount))
    ((empty : OrderedDict String ImportedUsageRow), 0)
  (upsert (byHash.entries.map (·.2)) table, ⟨records.length, newCount, records.length - newCount⟩)

/-! ### The route -/

structure ImportActor where
  apiKeyOrgId : Option String
  isPlatformAdmin : Bool
  userId : Option String

structure ImportUsageRequest where
  batchId : String
  records : List ImportUsageRecordInput
  orgId : Option String
  batchId_length : 1 ≤ batchId.length ∧ batchId.length ≤ 200

/-- `_resolve_import_org` -/
def resolveImportOrg (actor : ImportActor) (body : ImportUsageRequest) : Except ImportError String :=
  match actor.apiKeyOrgId, actor.isPlatformAdmin, body.orgId with
  | some orgId, _, _ => .ok orgId
  | none, true, some orgId => .ok orgId
  | none, _, _ => .error .forbidden

def maxBatchRecords : ℕ := 10000

/-- A call of `import_usage`; the database may refuse the upsert (an unknown organization, a count beyond `bigint`). -/
structure ImportCall where
  actor : ImportActor
  body : ImportUsageRequest
  refused : Bool

/-- `import_usage`, up to the outcome that is reported. -/
def importUsage (env : ImportEnv) (table : ImportedUsageEvents) (call : ImportCall) :
    Except ImportError (ImportedUsageEvents × ImportOutcome) := do
  let orgId ← (resolveImportOrg call.actor call.body).map env.uuid
  if call.body.records = [] then .error .noRecords
  else if maxBatchRecords < call.body.records.length then .error .tooManyRecords
  else
    let writes ← priceRecords env call.body.records
    if call.refused then .error .database
    else
      let userId := if call.actor.apiKeyOrgId.isSome then none else call.actor.userId
      return recordBatch table orgId userId call.body.batchId writes

/-! ### What a hash identifies -/

/-- What is between the bars of a text. -/
def segments (s : String) : List (List Char) := s.toList.splitOn '|'

def bars (s : String) : ℕ := s.toList.count '|'

/-- Two records that differ in where the bars of the turn id, model and timestamp fall, or in an id that is absent
from one and empty in the other. -/
structure Confused (r s : ImportUsageRecordInput) : Prop where
  source : r.source = s.source
  counts : r.inputTokens = s.inputTokens ∧ r.outputTokens = s.outputTokens ∧ r.cachedTokens = s.cachedTokens ∧
    r.reasoningTokens = s.reasoningTokens
  same : segments (r.eventId.getD "") ++ (segments r.model ++ segments r.timestamp) =
    segments (s.eventId.getD "") ++ (segments s.model ++ segments s.timestamp)
  differ : bars (r.eventId.getD "") ≠ bars (s.eventId.getD "") ∨ bars r.model ≠ bars s.model ∨
    r.eventId = none ∧ s.eventId = some "" ∨ r.eventId = some "" ∧ s.eventId = none

theorem segments_source (source : ImportSource) : segments source.value = [source.value.toList] := by
  cases source <;> exact splitOn_of_not_mem (by decide)

theorem segments_toString (n : ℕ) : segments (toString n) = [(toString n).toList] :=
  splitOn_of_not_mem (not_mem_decimal (by decide) n)

theorem identity_eq_iff {r s : ImportUsageRecordInput} : r.identity = s.identity ↔ r.source = s.source ∧
    (r.inputTokens = s.inputTokens ∧ r.outputTokens = s.outputTokens ∧ r.cachedTokens = s.cachedTokens ∧
      r.reasoningTokens = s.reasoningTokens) ∧
    segments (r.eventId.getD "") ++ (segments r.model ++ segments r.timestamp) =
      segments (s.eventId.getD "") ++ (segments s.model ++ segments s.timestamp) := by
  have hidentity : ∀ q : ImportUsageRecordInput, q.identity.toList.splitOn '|' = [q.source.value.toList] ++
      ((segments (q.eventId.getD "") ++ (segments q.model ++ segments q.timestamp)) ++
        [(toString q.inputTokens).toList, (toString q.outputTokens).toList, (toString q.cachedTokens).toList,
          (toString q.reasoningTokens).toList]) := by
    intro q
    have hsource := segments_source q.source
    have hcount := segments_toString
    unfold segments at hsource hcount ⊢
    rw [ImportUsageRecordInput.identity, String.toList_intercalate, show "|".toList = ['|'] from rfl,
      splitOn_intercalate (by simp)]
    simp only [List.map_cons, List.map_nil, List.flatMap_cons, List.flatMap_nil, hsource, hcount, List.append_assoc,
      List.singleton_append, List.append_nil]
  constructor
  · intro h
    have hsplit := congrArg (fun text : String => text.toList.splitOn '|') h
    simp only [hidentity] at hsplit
    obtain ⟨hsource, hrest⟩ := List.append_inj hsplit rfl
    obtain ⟨hsame, hcounts⟩ := List.append_inj' hrest rfl
    simp only [List.cons.injEq, and_true, String.toList_inj] at hsource hcounts
    obtain ⟨h1, h2, h3, h4⟩ := hcounts
    refine ⟨?_, ⟨decimal_injective h1, decimal_injective h2, decimal_injective h3, decimal_injective h4⟩, hsame⟩
    cases hr : r.source <;> cases hs : s.source <;> simp_all [ImportSource.value]
  · rintro ⟨hsource, ⟨h1, h2, h3, h4⟩, hsame⟩
    apply String.toList_inj.mp
    apply splitOn_injective (c := '|')
    rw [hidentity, hidentity, hsource, h1, h2, h3, h4, hsame]

/-- One hash means one record, or two that are confused. -/
theorem identity_eq_cases {r s : ImportUsageRecordInput} (h : r.identity = s.identity) : r = s ∨ Confused r s := by
  obtain ⟨hsource, hcounts, hsame⟩ := identity_eq_iff.mp h
  by_cases hdiffer : bars (r.eventId.getD "") ≠ bars (s.eventId.getD "") ∨ bars r.model ≠ bars s.model ∨
      r.eventId = none ∧ s.eventId = some "" ∨ r.eventId = some "" ∧ s.eventId = none
  · exact .inr ⟨hsource, hcounts, hsame, hdiffer⟩
  · simp only [not_or, not_ne_iff] at hdiffer
    obtain ⟨hevent, hmodel, habsent, hempty⟩ := hdiffer
    obtain ⟨heid, hrest⟩ := (append_splitOn_inj hevent).mp hsame
    obtain ⟨hmod, htime⟩ := (append_splitOn_inj hmodel).mp hrest
    have hid : r.eventId = s.eventId := by
      have htext := String.toList_inj.mp heid
      cases hr : r.eventId with
      | none =>
        cases hs : s.eventId with
        | none => rfl
        | some e =>
          rw [hr, hs] at htext
          exact absurd ⟨hr, by rw [hs, ← show "" = e from htext]⟩ habsent
      | some d =>
        cases hs : s.eventId with
        | none =>
          rw [hr, hs] at htext
          exact absurd ⟨by rw [hr, show d = "" from htext], hs⟩ hempty
        | some e =>
          rw [hr, hs] at htext
          exact congrArg some htext
    left
    exact ImportUsageRecordInput.ext (String.toList_inj.mp hmod) hcounts.1 hcounts.2.1 hcounts.2.2.1 hcounts.2.2.2
      (String.toList_inj.mp (splitOn_injective htime)) hsource hid

theorem Confused.identity_eq {r s : ImportUsageRecordInput} (h : Confused r s) : r.identity = s.identity :=
  identity_eq_iff.mpr ⟨h.source, h.counts, h.same⟩

theorem Confused.ne {r s : ImportUsageRecordInput} (h : Confused r s) : r ≠ s := by
  rintro rfl
  rcases h.differ with h | h | h | h
  · exact h rfl
  · exact h rfl
  · exact nomatch h.1.symm.trans h.2
  · exact nomatch h.1.symm.trans h.2

section
variable {env : ImportEnv} (hinj : Function.Injective env.sha256)
include hinj

theorem recordHash_eq_iff {r s : ImportUsageRecordInput} : recordHash env r = recordHash env s ↔ r = s ∨ Confused r s := by
  constructor
  · intro h
    exact identity_eq_cases (String.toByteArray_inj.mp (hinj h))
  · rintro (rfl | h)
    · rfl
    · rw [recordHash, recordHash, h.identity_eq]

end

/-! ### One batch -/

theorem allRows_eq {ρ : Type} {pageSize : ℕ} (hpos : 0 < pageSize) (rows : List ρ) (j : ℕ) :
    allRows pageSize hpos rows j = rows.drop (j * pageSize) := by
  induction j using allRows.induct pageSize hpos rows with
  | case1 j hlast =>
    rw [allRows, dif_pos hlast]
    have hshort := mt (length_page_eq_iff hpos).mpr hlast.ne
    rw [Nat.add_one_mul] at hshort
    exact List.take_of_length_le (by rw [List.length_drop]; omega)
  | case2 j hmore ih =>
    rw [allRows, dif_neg hmore, ih, page, Nat.add_one_mul, ← List.drop_drop]
    exact List.take_append_drop pageSize _

theorem allRows_zero {ρ : Type} {pageSize : ℕ} (hpos : 0 < pageSize) (rows : List ρ) :
    allRows pageSize hpos rows 0 = rows := by
  rw [allRows_eq, Nat.zero_mul, List.drop_zero]

/-- A table whose rows stand under their own keys. -/
structure KeyedRows (table : ImportedUsageEvents) : Prop where
  nodup : table.keys.Nodup
  key : ∀ k row, table.get? k = some row → (row.orgId, row.recordHash) = k

theorem mem_rowsOf {table : ImportedUsageEvents} (h : KeyedRows table) {orgId : String} {row : ImportedUsageRow} :
    row ∈ rowsOf table orgId ↔ row.orgId = orgId ∧ table.get? (orgId, row.recordHash) = some row := by
  unfold rowsOf
  simp only [List.mem_map, List.mem_filter, decide_eq_true_eq, mem_entries_iff h.nodup]
  constructor
  · rintro ⟨e, ⟨hget, horg⟩, rfl⟩
    have hkey := h.key _ _ hget
    rw [← hkey] at horg hget
    subst horg
    exact ⟨rfl, hget⟩
  · rintro ⟨rfl, hget⟩
    exact ⟨(_, row), ⟨hget, rfl⟩, rfl⟩

theorem mem_existingHashes {table : ImportedUsageEvents} (h : KeyedRows table) {orgId hash : String} :
    hash ∈ existingHashes table orgId ↔ (orgId, hash) ∈ table.keys := by
  rw [existingHashes, allRows_zero, List.mem_mergeSort, List.mem_map, ← isSome_get?, Option.isSome_iff_exists]
  constructor
  · rintro ⟨row, hrow, rfl⟩
    exact ⟨row, ((mem_rowsOf h).mp hrow).2⟩
  · rintro ⟨row, hget⟩
    have hkey := h.key _ _ hget
    simp only [Prod.mk.injEq] at hkey
    obtain ⟨rfl, rfl⟩ := hkey
    exact ⟨row, (mem_rowsOf h).mpr ⟨rfl, hget⟩, rfl⟩

/-- The loop over a batch: the last row of every hash, and the number of hashes that were nowhere before. -/
theorem batch_foldl (row : ImportedUsageWrite → ImportedUsageRow) (existing : List String) :
    ∀ (records : List ImportedUsageWrite) (d : OrderedDict String ImportedUsageRow) (n : ℕ),
    records.foldl (fun (byHash, newCount) record => (byHash.set record.recordHash (row record),
      if record.recordHash ∉ existing ∧ record.recordHash ∉ byHash.keys then newCount + 1 else newCount)) (d, n) =
    (writeAll (·.recordHash) row records d,
      n + (firsts (·.recordHash) (d.keys ++ existing) records).length)
  | [], _, _ => rfl
  | record :: records, d, n => by
      rw [List.foldl_cons, batch_foldl row existing records]
      refine Prod.ext rfl ?_
      change (if _ then n + 1 else n) + _ = n + _
      rw [keys_set]
      by_cases hkeys : record.recordHash ∈ d.keys
      · rw [if_neg fun h => h.2 hkeys, if_pos hkeys, firsts_cons_of_mem (List.mem_append_left existing hkeys)]
      · by_cases hexisting : record.recordHash ∈ existing
        · have hseen : firsts (·.recordHash) (d.keys ++ [record.recordHash] ++ existing) records =
              firsts (·.recordHash) (d.keys ++ existing) records := by
            apply firsts_congr
            intro k
            simp only [List.mem_append, List.mem_singleton]
            constructor
            · rintro ((hk | rfl) | hk)
              · exact .inl hk
              · exact .inr hexisting
              · exact .inr hk
            · rintro (hk | hk)
              · exact .inl (.inl hk)
              · exact .inr hk
          rw [if_neg fun h => h.1 hexisting, if_neg hkeys, hseen,
            firsts_cons_of_mem (List.mem_append_right d.keys hexisting)]
        · have hseen : firsts (·.recordHash) (d.keys ++ [record.recordHash] ++ existing) records =
              firsts (·.recordHash) (record.recordHash :: (d.keys ++ existing)) records := by
            apply firsts_congr
            intro k
            simp only [List.mem_append, List.mem_cons]
            tauto
          have hnew : record.recordHash ∉ d.keys ++ existing := by
            rw [List.mem_append]
            exact not_or.mpr ⟨hkeys, hexisting⟩
          rw [if_pos ⟨hexisting, hkeys⟩, if_neg hkeys, hseen, firsts_cons_of_not_mem hnew]
          exact Nat.add_right_comm n 1 _

theorem length_firsts_eq_card {ρ κ : Type} [DecidableEq κ] (key : ρ → κ) (l : List ρ) (seen : List κ) :
    (firsts key seen l).length = ((l.map key).toFinset \ seen.toFinset).card := by
  have hkeys : ((firsts key seen l).map key).toFinset = (l.map key).toFinset \ seen.toFinset := by
    ext k
    have hmem := mem_map_firsts key (k := k) (l := l) (s := seen)
    simp only [List.mem_toFinset, Finset.mem_sdiff]
    constructor
    · intro h
      have hnew : k ∉ seen := by
        obtain ⟨r, hr, rfl⟩ := List.mem_map.mp h
        exact not_mem_of_mem_firsts hr
      exact ⟨(hmem.mp (.inl h)).resolve_right hnew, hnew⟩
    · rintro ⟨h, hnew⟩
      exact (hmem.mpr (.inl h)).resolve_right hnew
  rw [← hkeys, List.toFinset_card_of_nodup (nodup_firsts key l seen), List.length_map]

section batch
variable (env : ImportEnv)

/-- The columns of a record. -/
def columns (record : ImportUsageRecordInput) : Option ImportedUsageWrite :=
  (env.eventTime record.timestamp).map (writeOf env record)

/-- The table holds the records imported into each organization, and nothing else. -/
structure Attributed (table : ImportedUsageEvents) (l : String → List ImportUsageRecordInput) : Prop where
  rows : KeyedRows table
  stored : ∀ orgId, ∀ r ∈ l orgId, (orgId, recordHash env r) ∈ table.keys
  source : ∀ k row, table.get? k = some row → ∃ r ∈ l k.1, columns env r = some row.toImportedUsageWrite

variable {env} {table : ImportedUsageEvents} {l : String → List ImportUsageRecordInput} {orgId : String}
  {records : List ImportUsageRecordInput} {writes : List ImportedUsageWrite}

theorem recordHash_of_columns {r : ImportUsageRecordInput} {w : ImportedUsageWrite} (h : columns env r = some w) :
    w.recordHash = recordHash env r := by
  obtain ⟨eventAt, -, rfl⟩ := Option.map_eq_some_iff.mp h
  rfl

theorem columns_of_price {r : ImportUsageRecordInput} {w : ImportedUsageWrite} (hw : priceRecord env r = .ok w) :
    columns env r = some w := by
  unfold columns
  unfold priceRecord at hw
  split at hw
  · cases hw
  · rename_i eventAt htime
    cases hw
    rw [htime]
    rfl

theorem priceRecords_columns (h : priceRecords env records = .ok writes) :
    writes.map some = records.map (columns env) :=
  map_of_mapM (fun _ _ hw => (columns_of_price hw).symm) h

theorem Attributed.mem_keys_iff (h : Attributed env table l) {hash : String} :
    (orgId, hash) ∈ table.keys ↔ hash ∈ (l orgId).map (recordHash env) := by
  constructor
  · intro hmem
    obtain ⟨row, hrow⟩ := Option.isSome_iff_exists.mp (isSome_get?.mpr hmem)
    obtain ⟨r, hr, hcolumns⟩ := h.source _ row hrow
    have hkey := h.rows.key _ _ hrow
    simp only [Prod.mk.injEq] at hkey
    exact List.mem_map.mpr ⟨r, hr, (recordHash_of_columns hcolumns).symm.trans hkey.2⟩
  · intro hmem
    obtain ⟨r, hr, rfl⟩ := List.mem_map.mp hmem
    exact h.stored orgId r hr

/-- The rows a batch writes. -/
def batchRows (orgId : String) (userId : Option String) (batchId : String) (writes : List ImportedUsageWrite) :
    List ImportedUsageRow :=
  (writeAll (·.recordHash) (fun record => (⟨record, orgId, batchId, userId⟩ : ImportedUsageRow)) writes
    empty).entries.map (·.2)

theorem recordBatch_eq (userId : Option String) (batchId : String) :
    recordBatch table orgId userId batchId writes = (upsert (batchRows orgId userId batchId writes) table,
      ⟨writes.length, (firsts (·.recordHash) (existingHashes table orgId) writes).length,
        writes.length - (firsts (·.recordHash) (existingHashes table orgId) writes).length⟩) := by
  have hfold := batch_foldl (fun record => ⟨record, orgId, batchId, userId⟩) (existingHashes table orgId) writes empty 0
  rw [Nat.zero_add] at hfold
  exact congrArg (fun p : OrderedDict String ImportedUsageRow × ℕ => (Usage.upsert (p.1.entries.map (·.2)) table,
    ImportOutcome.mk writes.length p.2 (writes.length - p.2))) hfold

theorem mem_batchRows {userId : Option String} {batchId : String} {row : ImportedUsageRow}
    (h : row ∈ batchRows orgId userId batchId writes) : row.orgId = orgId ∧ row.toImportedUsageWrite ∈ writes := by
  obtain ⟨e, he, rfl⟩ := List.mem_map.mp h
  have hget := (mem_entries_iff (nodup_writeAll writes nodup_keys_empty)).mp he
  rcases get?_writeAll_cases hget with hempty | ⟨w, hw, -, hvalue⟩
  · cases hempty
  · rw [← hvalue]
    exact ⟨rfl, hw⟩

theorem exists_batchRow {userId : Option String} {batchId : String} {w : ImportedUsageWrite} (hw : w ∈ writes) :
    ∃ row ∈ batchRows orgId userId batchId writes, row.recordHash = w.recordHash := by
  have hkey : w.recordHash ∈ (writeAll (·.recordHash)
      (fun record => (⟨record, orgId, batchId, userId⟩ : ImportedUsageRow)) writes empty).keys :=
    (mem_keys_writeAll writes empty).mpr (.inr ⟨w, hw, rfl⟩)
  obtain ⟨row, hrow⟩ := Option.isSome_iff_exists.mp (isSome_get?.mpr hkey)
  refine ⟨row, List.mem_map.mpr ⟨(_, row), (mem_entries_iff (nodup_writeAll writes nodup_keys_empty)).mpr hrow, rfl⟩, ?_⟩
  rcases get?_writeAll_cases hrow with hempty | ⟨q, -, hhash, hvalue⟩
  · cases hempty
  · rw [← hvalue]
    exact hhash

theorem Attributed.upsert (h : Attributed env table l) (hwrites : priceRecords env records = .ok writes)
    (userId : Option String) (batchId : String) : Attributed env (upsert (batchRows orgId userId batchId writes) table)
      (Function.update l orgId (l orgId ++ records)) := by
  have hcolumns := priceRecords_columns hwrites
  have hrecord : ∀ w ∈ writes, ∃ r ∈ records, columns env r = some w := by
    intro w hw
    have hmem : some w ∈ records.map (columns env) := hcolumns ▸ List.mem_map_of_mem hw
    exact List.mem_map.mp hmem
  have hwrite : ∀ r ∈ records, ∃ w ∈ writes, columns env r = some w := by
    intro r hr
    have hmem : columns env r ∈ writes.map some := hcolumns ▸ List.mem_map_of_mem hr
    obtain ⟨w, hw, heq⟩ := List.mem_map.mp hmem
    exact ⟨w, hw, heq.symm⟩
  refine ⟨⟨nodup_writeAll _ h.rows.nodup, fun k row hrow => ?_⟩, fun org r hr => ?_, fun k row hrow => ?_⟩
  · rcases get?_writeAll_cases hrow with hold | ⟨row', -, hkey, rfl⟩
    · exact h.rows.key k row hold
    · exact hkey
  · refine (mem_keys_writeAll _ table).mpr ?_
    by_cases horg : org = orgId
    · subst horg
      rw [Function.update_self, List.mem_append] at hr
      rcases hr with hr | hr
      · exact .inl (h.stored org r hr)
      · obtain ⟨w, hw, hcol⟩ := hwrite r hr
        obtain ⟨row, hrow, hhash⟩ : ∃ row ∈ batchRows org userId batchId writes, row.recordHash = w.recordHash :=
          exists_batchRow hw
        exact .inr ⟨row, hrow, Prod.ext (mem_batchRows hrow).1 (hhash.trans (recordHash_of_columns hcol))⟩
    · rw [Function.update_of_ne horg] at hr
      exact .inl (h.stored org r hr)
  · rcases get?_writeAll_cases hrow with hold | ⟨row', hmem, hkey, rfl⟩
    · obtain ⟨r, hr, hcol⟩ := h.source k row hold
      refine ⟨r, ?_, hcol⟩
      by_cases horg : k.1 = orgId
      · rw [horg, Function.update_self, List.mem_append]
        exact .inl (horg ▸ hr)
      · rw [Function.update_of_ne horg]
        exact hr
    · obtain ⟨horg, hw⟩ := mem_batchRows hmem
      obtain ⟨r, hr, hcol⟩ := hrecord _ hw
      refine ⟨r, ?_, hcol⟩
      rw [← hkey, horg, Function.update_self, List.mem_append]
      exact .inr hr

theorem Attributed.inserted (h : Attributed env table l) (hwrites : priceRecords env records = .ok writes) :
    (firsts (·.recordHash) (existingHashes table orgId) writes).length =
      ((records.map (recordHash env)).toFinset \ ((l orgId).map (recordHash env)).toFinset).card := by
  have hhashes : writes.map (·.recordHash) = records.map (recordHash env) :=
    map_of_mapM (fun _ _ hw => recordHash_of_columns (columns_of_price hw)) hwrites
  have hexisting : (existingHashes table orgId).toFinset = ((l orgId).map (recordHash env)).toFinset := by
    ext hash
    rw [List.mem_toFinset, List.mem_toFinset, mem_existingHashes h.rows, h.mem_keys_iff]
  rw [length_firsts_eq_card, hhashes, hexisting]

end batch

/-! ### Runs -/

/-- An import that succeeded, and what it reported. -/
structure ImportAnswer where
  orgId : String
  records : List ImportUsageRecordInput
  outcome : ImportOutcome

structure ImportRun where
  table : ImportedUsageEvents
  answered : List ImportAnswer

def importStep (env : ImportEnv) (s : ImportRun) (call : ImportCall) : ImportRun :=
  match (resolveImportOrg call.actor call.body).map env.uuid, importUsage env s.table call with
  | .ok orgId, .ok (table, outcome) => ⟨table, s.answered ++ [⟨orgId, call.body.records, outcome⟩]⟩
  | _, _ => s

/-- Calls one after another, from an empty store. -/
def runImports (env : ImportEnv) (calls : List ImportCall) : ImportRun := calls.foldl (importStep env) ⟨empty, []⟩

namespace ImportRun

/-- The records imported into an organization. -/
def imported (s : ImportRun) (orgId : String) : List ImportUsageRecordInput :=
  (s.answered.filter fun answer => decide (answer.orgId = orgId)).flatMap (·.records)

/-- What was reported as inserted, in all. -/
def reported (s : ImportRun) (orgId : String) : ℕ :=
  ((s.answered.filter fun answer => decide (answer.orgId = orgId)).map (·.outcome.inserted)).sum

/-- A row for every distinct record, and as many reported. -/
def CountsOnce (env : ImportEnv) (s : ImportRun) : Prop := ∀ orgId,
  List.Perm ((rowsOf s.table orgId).map fun row => some row.toImportedUsageWrite)
    ((s.imported orgId).dedup.map (columns env)) ∧
  s.reported orgId = (s.imported orgId).dedup.length

/-- What every run keeps. -/
structure Holds (env : ImportEnv) (s : ImportRun) : Prop where
  attributed : Attributed env s.table s.imported
  reported : ∀ orgId, s.reported orgId = ((s.imported orgId).map (recordHash env)).toFinset.card

variable {env : ImportEnv} {s : ImportRun}

theorem Holds.empty : Holds env ⟨.empty, []⟩ where
  attributed := ⟨⟨nodup_keys_empty, nofun⟩, nofun, nofun⟩
  reported _ := rfl

theorem importUsage_eq_ok {table table' : ImportedUsageEvents} {call : ImportCall} {outcome : ImportOutcome}
    {orgId : String} (horg : (resolveImportOrg call.actor call.body).map env.uuid = .ok orgId)
    (h : importUsage env table call = .ok (table', outcome)) :
    ∃ writes, priceRecords env call.body.records = .ok writes ∧
      ∃ userId batchId, recordBatch table orgId userId batchId writes = (table', outcome) := by
  unfold importUsage at h
  rw [horg] at h
  change (if _ then _ else if _ then _ else _) = _ at h
  split at h
  · cases h
  · split at h
    · cases h
    · obtain ⟨writes, hwrites, h⟩ := bind_eq_ok.mp h
      split at h
      · cases h
      · exact ⟨writes, hwrites, _, _, Except.ok.inj h⟩

theorem imported_answer (s : ImportRun) (table : ImportedUsageEvents) (answer : ImportAnswer) :
    (⟨table, s.answered ++ [answer]⟩ : ImportRun).imported =
      Function.update s.imported answer.orgId (s.imported answer.orgId ++ answer.records) := by
  funext orgId
  by_cases h : orgId = answer.orgId
  · subst h
    simp [imported]
  · simp [imported, Function.update_of_ne h, Ne.symm h]

theorem reported_answer (s : ImportRun) (table : ImportedUsageEvents) (answer : ImportAnswer) (orgId : String) :
    (⟨table, s.answered ++ [answer]⟩ : ImportRun).reported orgId =
      s.reported orgId + if answer.orgId = orgId then answer.outcome.inserted else 0 := by
  by_cases h : answer.orgId = orgId
  · simp [reported, h]
  · simp [reported, h]

theorem Holds.step (h : Holds env s) (call : ImportCall) : Holds env (importStep env s call) := by
  unfold importStep
  split
  · rename_i orgId table outcome horg hok
    obtain ⟨writes, hwrites, userId, batchId, hbatch⟩ := importUsage_eq_ok horg hok
    rw [recordBatch_eq, Prod.mk.injEq] at hbatch
    obtain ⟨rfl, rfl⟩ := hbatch
    have hinserted : (firsts (·.recordHash) (existingHashes s.table orgId) writes).length = _ :=
      h.attributed.inserted hwrites
    refine ⟨?_, fun org => ?_⟩
    · rw [imported_answer]
      exact h.attributed.upsert hwrites userId batchId
    · rw [imported_answer, reported_answer, h.reported org]
      by_cases horg' : org = orgId
      · subst horg'
        rw [if_pos rfl, hinserted, Function.update_self, List.map_append, List.toFinset_append, Finset.union_comm,
          ← Finset.card_sdiff_add_card, add_comm]
      · rw [if_neg (Ne.symm horg'), Function.update_of_ne horg', Nat.add_zero]
  · exact h

theorem holds_run (env : ImportEnv) (calls : List ImportCall) : Holds env (runImports env calls) := by
  unfold runImports
  generalize hs : (⟨.empty, []⟩ : ImportRun) = s
  have h : Holds env s := hs ▸ Holds.empty
  clear hs
  induction calls generalizing s with
  | nil => exact h
  | cons call calls ih => exact ih _ (h.step call)

/-- Every imported record has a row; it is its own when hashes differ. -/
theorem Holds.row_of (h : Holds env s) {orgId : String}
    (hinj : ∀ r ∈ s.imported orgId, ∀ q ∈ s.imported orgId, recordHash env r = recordHash env q → r = q)
    {r : ImportUsageRecordInput} (hr : r ∈ s.imported orgId) :
    ∃ row ∈ rowsOf s.table orgId, columns env r = some row.toImportedUsageWrite := by
  obtain ⟨row, hrow⟩ := Option.isSome_iff_exists.mp (isSome_get?.mpr (h.attributed.stored orgId r hr))
  have hkey := h.attributed.rows.key _ _ hrow
  simp only [Prod.mk.injEq] at hkey
  obtain ⟨q, hq, hcolumns⟩ := h.attributed.source _ row hrow
  have hsame : q = r := hinj q hq r hr ((recordHash_of_columns hcolumns).symm.trans hkey.2)
  subst hsame
  exact ⟨row, (mem_rowsOf h.attributed.rows).mpr ⟨hkey.1, by rw [hkey.2]; exact hrow⟩, hcolumns⟩

theorem nodup_rowsOf {table : ImportedUsageEvents} (h : KeyedRows table) (orgId : String) :
    ((rowsOf table orgId).map fun row => some row.toImportedUsageWrite).Nodup := by
  have hrows : (rowsOf table orgId).Nodup := by
    refine List.Nodup.map_on (fun e he f hf hrow => ?_) ((h.nodup.of_map _).filter _)
    have hekey := h.key _ _ ((mem_entries_iff h.nodup).mp (List.mem_of_mem_filter he))
    have hfkey := h.key _ _ ((mem_entries_iff h.nodup).mp (List.mem_of_mem_filter hf))
    exact Prod.ext (by rw [← hekey, ← hfkey, hrow]) hrow
  refine hrows.map_on fun row hrow row' hrow' hwrite => ?_
  have hget := ((mem_rowsOf h).mp hrow).2
  have hget' := ((mem_rowsOf h).mp hrow').2
  rw [Option.some.inj hwrite, hget'] at hget
  exact (Option.some.inj hget).symm

theorem toFinset_hashes (env : ImportEnv) (l : List ImportUsageRecordInput) :
    (l.map (recordHash env)).toFinset = l.toFinset.image (recordHash env) := by
  ext hash
  simp

theorem Holds.countsOnce (h : Holds env s)
    (hinj : ∀ orgId, ∀ r ∈ s.imported orgId, ∀ q ∈ s.imported orgId, recordHash env r = recordHash env q → r = q) :
    s.CountsOnce env := by
  intro orgId
  have hinj := hinj orgId
  constructor
  · rw [List.perm_ext_iff_of_nodup (nodup_rowsOf h.attributed.rows orgId)]
    · intro x
      rw [List.mem_map, List.mem_map]
      simp only [List.mem_dedup]
      constructor
      · rintro ⟨row, hrow, rfl⟩
        obtain ⟨r, hr, hcolumns⟩ := h.attributed.source _ row ((mem_rowsOf h.attributed.rows).mp hrow).2
        exact ⟨r, hr, hcolumns⟩
      · rintro ⟨r, hr, rfl⟩
        obtain ⟨row, hrow, hcolumns⟩ := h.row_of hinj hr
        exact ⟨row, hrow, hcolumns.symm⟩
    · refine (List.nodup_dedup _).map_on fun r hr q hq hcolumns => ?_
      rw [List.mem_dedup] at hr hq
      obtain ⟨row, -, hrow⟩ := h.row_of hinj hr
      exact hinj r hr q hq ((recordHash_of_columns hrow).symm.trans (recordHash_of_columns (hcolumns ▸ hrow)))
  · rw [h.reported, ← List.card_toFinset, toFinset_hashes]
    exact Finset.card_image_of_injOn fun r hr q hq =>
      hinj r (List.mem_toFinset.mp hr) q (List.mem_toFinset.mp hq)

theorem Holds.hash_injective (h : Holds env s) (honce : s.CountsOnce env) {orgId : String} {r q : ImportUsageRecordInput}
    (hr : r ∈ s.imported orgId) (hq : q ∈ s.imported orgId) (hhash : recordHash env r = recordHash env q) : r = q := by
  have hcard := (honce orgId).2
  rw [h.reported, ← List.card_toFinset, toFinset_hashes] at hcard
  exact Finset.card_image_iff.mp hcard (List.mem_toFinset.mpr hr) (List.mem_toFinset.mpr hq) hhash

end ImportRun

/-- Hashes tell records apart that are not confused, and a run counts every record once exactly when none of those it
imports into one organization are. -/
theorem counted_once_iff (env : ImportEnv) (hinj : Function.Injective env.sha256) :
    (∀ r q, (recordHash env r = recordHash env q ↔ r = q) ↔ ¬Confused r q) ∧
    ∀ calls, (runImports env calls).CountsOnce env ↔ ∀ orgId, ∀ r ∈ (runImports env calls).imported orgId,
      ∀ q ∈ (runImports env calls).imported orgId, ¬Confused r q := by
  refine ⟨fun r q => ⟨fun h hconfused => ?_, fun h => ?_⟩, fun calls => ⟨fun h orgId r hr q hq hconfused => ?_, fun h => ?_⟩⟩
  · exact hconfused.ne (h.mp ((recordHash_eq_iff hinj).mpr (.inr hconfused)))
  · rw [recordHash_eq_iff hinj]
    exact or_iff_left h
  · have hhash := (recordHash_eq_iff hinj).mpr (.inr hconfused)
    exact hconfused.ne ((ImportRun.holds_run env calls).hash_injective h hr hq hhash)
  · refine (ImportRun.holds_run env calls).countsOnce fun orgId r hr q hq hhash => ?_
    exact ((recordHash_eq_iff hinj).mp hhash).resolve_right (h orgId r hr q hq)

/-! ### A bar in a turn id -/

/-- The hash that is its input, every timestamp the same moment, no model known. -/
def plainEnv : ImportEnv where
  sha256 b := String.ofList (b.data.toList.map fun u => Char.ofNat u.toNat)
  eventTime _ := some ("2026-01-01T00:00:00+00:00", "2026-01-01")
  priceUsage _ _ _ _ := ⟨none, none, false, 0⟩
  uuid := id

def turn (eventId : String) (model : String) (hmodel : 1 ≤ model.length ∧ model.length ≤ 256)
    (hevent : eventId.length ≤ 256) : ImportUsageRecordInput :=
  ⟨model, 10, 5, 0, 0, "2026-01-01T00:00:00Z", .codex, some eventId, hmodel, fun _ he => Option.some.inj he ▸ hevent⟩

/-- Turn `1|gpt` of model `5`, and turn `1` of model `gpt|5`. -/
def barredTurn : ImportUsageRecordInput := turn "1|gpt" "5" (by decide) (by decide)

def plainTurn : ImportUsageRecordInput := turn "1" "gpt|5" (by decide) (by decide)

def barredCall : ImportCall where
  actor := ⟨some "org", false, none⟩
  body := ⟨"batch", [barredTurn, plainTurn], none, by decide⟩
  refused := false

theorem plainEnv_injective : Function.Injective plainEnv.sha256 := by
  intro b b' h
  have hbyte : Function.Injective fun u : UInt8 => Char.ofNat u.toNat := by
    have hnat : ∀ w : UInt8, (Char.ofNat w.toNat).toNat = w.toNat := by
      intro w
      have hvalid : w.toNat.isValidChar := .inl (lt_trans w.toNat_lt (by decide))
      rw [Char.ofNat, dif_pos hvalid]
      rfl
    intro u v huv
    have htoNat := congrArg Char.toNat huv
    rw [hnat, hnat] at htoNat
    exact UInt8.toNat_inj.mp htoNat
  have hlist := hbyte.list_map (String.ofList_injective h)
  exact ByteArray.ext (Array.toList_inj.mp hlist)

theorem counted_once_barred : (runImports plainEnv [barredCall]).CountsOnce plainEnv ↔
    ∀ orgId, ∀ r ∈ (runImports plainEnv [barredCall]).imported orgId,
      ∀ q ∈ (runImports plainEnv [barredCall]).imported orgId, ¬Confused r q :=
  (counted_once_iff plainEnv plainEnv_injective).2 [barredCall]

/-- They have one identity and one row. -/
theorem barred_turns_merge : Function.Injective plainEnv.sha256 ∧ barredTurn ≠ plainTurn ∧
    (∀ env, recordHash env barredTurn = recordHash env plainTurn) ∧
    ((runImports plainEnv [barredCall]).imported "org").dedup.length = 2 ∧
    (runImports plainEnv [barredCall]).reported "org" = 1 ∧
    (rowsOf (runImports plainEnv [barredCall]).table "org").length = 1 := by
  have hidentity : barredTurn.identity = plainTurn.identity := by decide +kernel
  refine ⟨plainEnv_injective, by decide +kernel, fun env => ?_, by decide +kernel, by decide +kernel, by decide +kernel⟩
  rw [recordHash, recordHash, hidentity]

end Experiential.Usage
