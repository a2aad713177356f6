import Mathlib.Data.List.Dedup
import Experiential.Lib.Grouping
import Experiential.Lib.PyText

/-! # Insights over the usage of an organization

A question groups the usage by model, lane, provider or agent. Cells are running sums, so a grouping keeps the
totals of its rows. Agents are added up by their key's id and then shown under a label, which has to tell them
apart: `LabelsApart` says when it does. -/

namespace Experiential.Usage

open Py OrderedDict

/-! ### Rows and cells -/

inductive GatewayLane where
  | platformFunded
  | passThrough
deriving DecidableEq

inductive GatewayEventStatus where
  | completed
  | failed
  | cancelled
  | incomplete
  | expiredBeforeDispatch
  | unknownAfterCrash
deriving DecidableEq

/-- `_Cell` -/
@[ext] structure Cell where
  requestCount : Int
  errorCount : Int
  inputTokens : Int
  outputTokens : Int
  chargedMicroUsd : Int
  estimatedMicroUsd : Int
deriving DecidableEq

namespace Cell

instance : Zero Cell := ⟨⟨0, 0, 0, 0, 0, 0⟩⟩

instance : Add Cell :=
  ⟨fun x y => ⟨x.requestCount + y.requestCount, x.errorCount + y.errorCount, x.inputTokens + y.inputTokens,
    x.outputTokens + y.outputTokens, x.chargedMicroUsd + y.chargedMicroUsd, x.estimatedMicroUsd + y.estimatedMicroUsd⟩⟩

instance : AddCommMonoid Cell where
  add_assoc x y z := Cell.ext (Int.add_assoc ..) (Int.add_assoc ..) (Int.add_assoc ..) (Int.add_assoc ..)
    (Int.add_assoc ..) (Int.add_assoc ..)
  zero_add x := Cell.ext (Int.zero_add _) (Int.zero_add _) (Int.zero_add _) (Int.zero_add _) (Int.zero_add _)
    (Int.zero_add _)
  add_zero x := Cell.ext (Int.add_zero _) (Int.add_zero _) (Int.add_zero _) (Int.add_zero _) (Int.add_zero _)
    (Int.add_zero _)
  add_comm x y := Cell.ext (Int.add_comm ..) (Int.add_comm ..) (Int.add_comm ..) (Int.add_comm ..)
    (Int.add_comm ..) (Int.add_comm ..)
  nsmul := nsmulRec

end Cell

/-- The counts of a rolled-up row. -/
structure UsageColumns where
  requestCount : Int
  errorCount : Int
  inputTokens : Int
  outputTokens : Int
  costMicroUsd : Int
  estimatedCostMicroUsd : Int
deriving DecidableEq

def UsageColumns.cell (c : UsageColumns) : Cell :=
  ⟨c.requestCount, c.errorCount, c.inputTokens, c.outputTokens, c.costMicroUsd, c.estimatedCostMicroUsd⟩

structure GatewayUsageBucketRow extends UsageColumns where
  aliasName : PyStr
  lane : Option GatewayLane
deriving DecidableEq

structure GatewayKeyModelUsageRow extends UsageColumns where
  apiKeyId : Option PyStr
  keyLabel : Option PyStr
deriving DecidableEq

structure GatewayUsageEventRow where
  provider : Option PyStr
  status : GatewayEventStatus
  inputTokens : Int
  outputTokens : Int
  costMicroUsd : Int
  estimatedCostMicroUsd : Int
deriving DecidableEq

def GatewayUsageEventRow.cell (event : GatewayUsageEventRow) : Cell :=
  ⟨1, if event.status = .completed then 0 else 1, event.inputTokens, event.outputTokens, event.costMicroUsd,
    event.estimatedCostMicroUsd⟩

/-! ### Grouping -/

/-- `s or d`, where `s` may be missing. -/
def orElse : Option PyStr → PyStr → PyStr
  | some (c :: s), _ => c :: s
  | _, d => d

def laneLabel : Option GatewayLane → PyStr
  | some .platformFunded => text "Platform"
  | some .passThrough => text "BYOK"
  | none => text "(undispatched)"

def modelLabel (row : GatewayUsageBucketRow) : PyStr := orElse (some row.aliasName) (text "(unattributed)")

/-- `_bucket_cells` -/
def bucketCells (label : GatewayUsageBucketRow → PyStr) (buckets : List GatewayUsageBucketRow) : OrderedDict PyStr Cell :=
  groupBy label (·.cell) buckets

/-- `_provider_cells` -/
def providerCells (events : List GatewayUsageEventRow) : OrderedDict PyStr Cell :=
  groupBy (fun event => event.provider.getD (text "(undispatched)")) (·.cell) events

def deletedKeyLabel : Option PyStr → PyStr
  | none => text "(deleted key)"
  | some apiKeyId => apiKeyId.take 8 ++ text " (deleted)"

def keyName (row : GatewayKeyModelUsageRow) : PyStr := orElse row.keyLabel (deletedKeyLabel row.apiKeyId)

/-- The name a key has in its last row. -/
def agentLabels (rows : List GatewayKeyModelUsageRow) : OrderedDict (Option PyStr) PyStr :=
  writeAll (·.apiKeyId) keyName rows empty

def nameCount (labels : OrderedDict (Option PyStr) PyStr) (label : PyStr) : ℕ :=
  labels.entries.countP fun e => decide (e.2 = label)

def tag (label keyId : PyStr) : PyStr := label ++ text " (" ++ keyId.take 8 ++ text ")"

/-- What an agent is shown as: a name that several have is tagged with the start of the id. -/
def shownLabel (labels : OrderedDict (Option PyStr) PyStr) (keyId : Option PyStr) : PyStr :=
  let label := (labels.get? keyId).getD []
  match keyId with
  | none => label
  | some i => if 1 < nameCount labels label then tag label i else label

/-- `_agent_cells` -/
def agentCells (rows : List GatewayKeyModelUsageRow) : OrderedDict PyStr Cell :=
  writeAll (fun e : Option PyStr × Cell => shownLabel (agentLabels rows) e.1) (·.2)
    (groupBy (·.apiKeyId) (·.cell) rows).entries empty

inductive InsightDimension where
  | model
  | provider
  | lane
  | agent
  | total
deriving DecidableEq

/-- `_cells_for_dimension` -/
def cellsForDimension (dimension : InsightDimension) (buckets : List GatewayUsageBucketRow)
    (events : List GatewayUsageEventRow) (byKey : List GatewayKeyModelUsageRow) : OrderedDict PyStr Cell :=
  match dimension with
  | .model | .total => bucketCells modelLabel buckets
  | .lane => bucketCells (fun row => laneLabel row.lane) buckets
  | .provider => providerCells events
  | .agent => agentCells byKey

/-- `_total_cell` -/
def totalCell (cells : OrderedDict PyStr Cell) : Cell := cells.entries.foldl (fun total e => total + e.2) 0

theorem totalCell_eq (cells : OrderedDict PyStr Cell) : totalCell cells = cells.total := by
  unfold totalCell total
  rw [List.sum_eq_foldl, List.foldl_map]

/-! ### Agents -/

section agents
variable (rows : List GatewayKeyModelUsageRow)

/-- The keys' ids, each once. -/
def keyIds : List (Option PyStr) := (firsts (·.apiKeyId) [] rows).map (·.apiKeyId)

def nameOf (keyId : Option PyStr) : PyStr :=
  ((rows.reverse.find? fun row => decide (row.apiKeyId = keyId)).map keyName).getD []

/-- Another key has the name too. -/
def SharesName (keyId : Option PyStr) : Prop := ∃ other ∈ keyIds rows, other ≠ keyId ∧ nameOf rows other = nameOf rows keyId

/-- Tags of shared names differ, and no name that is shown as it is looks like one. -/
structure LabelsApart : Prop where
  tags : ∀ i j, some i ∈ keyIds rows → some j ∈ keyIds rows → SharesName rows (some i) → SharesName rows (some j) →
    tag (nameOf rows (some i)) i = tag (nameOf rows (some j)) j → i = j
  names : ∀ keyId j, keyId ∈ keyIds rows → some j ∈ keyIds rows → (keyId = none ∨ ¬SharesName rows keyId) →
    SharesName rows (some j) → nameOf rows keyId ≠ tag (nameOf rows (some j)) j

/-- One series for every key, with what the key used. -/
def OneSeriesEach : Prop := ∃ label : Option PyStr → PyStr, (agentCells rows).entries =
  (keyIds rows).map fun keyId => (label keyId, ((rows.filter fun row => decide (row.apiKeyId = keyId)).map (·.cell)).sum)

variable {rows}

theorem nodup_keyIds : (keyIds rows).Nodup := nodup_firsts _ rows []

theorem get?_agentLabels (keyId : Option PyStr) : ((agentLabels rows).get? keyId).getD [] = nameOf rows keyId := by
  rw [agentLabels, get?_writeAll, nameOf, get?_empty, Option.or_none]

theorem agentLabels_entries : (agentLabels rows).entries = (keyIds rows).map fun keyId => (keyId, nameOf rows keyId) := by
  have hkeys : (agentLabels rows).keys = keyIds rows :=
    keys_foldl_set (fun row : GatewayKeyModelUsageRow => row.apiKeyId) (fun _ row => keyName row) rows empty
  have hnodup : (agentLabels rows).keys.Nodup := hkeys ▸ nodup_keyIds
  rw [entries_eq hnodup [], hkeys]
  simp only [get?_agentLabels]

theorem one_lt_nameCount {keyId : Option PyStr} (hid : keyId ∈ keyIds rows) :
    1 < nameCount (agentLabels rows) (nameOf rows keyId) ↔ SharesName rows keyId := by
  have hperm := List.perm_cons_erase hid
  have hcount : nameCount (agentLabels rows) (nameOf rows keyId) =
      ((keyIds rows).erase keyId).countP (fun other => decide (nameOf rows other = nameOf rows keyId)) + 1 := by
    rw [nameCount, agentLabels_entries, List.countP_map, hperm.countP_eq]
    exact List.countP_cons_of_pos (by simp)
  rw [hcount, Nat.lt_add_left_iff_pos, List.countP_pos_iff]
  simp only [nodup_keyIds.mem_erase_iff, decide_eq_true_eq, SharesName]
  constructor
  · rintro ⟨other, ⟨hne, hmem⟩, hname⟩
    exact ⟨other, hmem, hne, hname⟩
  · rintro ⟨other, hmem, hne, hname⟩
    exact ⟨other, ⟨hne, hmem⟩, hname⟩

theorem shownLabel_some {i : PyStr} (hid : some i ∈ keyIds rows) : SharesName rows (some i) ∧
    shownLabel (agentLabels rows) (some i) = tag (nameOf rows (some i)) i ∨
    ¬SharesName rows (some i) ∧ shownLabel (agentLabels rows) (some i) = nameOf rows (some i) := by
  have hcount := one_lt_nameCount hid
  unfold shownLabel
  simp only [get?_agentLabels]
  by_cases hshared : SharesName rows (some i)
  · exact .inl ⟨hshared, if_pos (hcount.mpr hshared)⟩
  · exact .inr ⟨hshared, if_neg (mt hcount.mp hshared)⟩

theorem shownLabel_none : shownLabel (agentLabels rows) none = nameOf rows none := get?_agentLabels none

theorem shownLabel_cases {keyId : Option PyStr} (hid : keyId ∈ keyIds rows) :
    (∃ i, keyId = some i ∧ SharesName rows keyId ∧ shownLabel (agentLabels rows) keyId = tag (nameOf rows keyId) i) ∨
    (keyId = none ∨ ¬SharesName rows keyId) ∧ shownLabel (agentLabels rows) keyId = nameOf rows keyId := by
  cases keyId with
  | none => exact .inr ⟨.inl rfl, shownLabel_none⟩
  | some i =>
    rcases shownLabel_some hid with ⟨hshared, hlabel⟩ | ⟨hown, hlabel⟩
    · exact .inl ⟨i, rfl, hshared, hlabel⟩
    · exact .inr ⟨.inr hown, hlabel⟩

theorem labelsApart_iff : LabelsApart rows ↔ ((keyIds rows).map (shownLabel (agentLabels rows))).Nodup := by
  rw [List.nodup_map_iff_inj_on nodup_keyIds]
  constructor
  · intro hapart x hx y hy heq
    rcases shownLabel_cases hx with ⟨i, rfl, hi, hxl⟩ | ⟨hxo, hxl⟩
    · rcases shownLabel_cases hy with ⟨j, rfl, hj, hyl⟩ | ⟨hyo, hyl⟩
      · rw [hapart.tags i j hx hy hi hj (by rw [← hxl, heq, hyl])]
      · exact absurd (by rw [← hyl, ← heq, hxl]) (hapart.names y i hy hx hyo hi)
    · rcases shownLabel_cases hy with ⟨j, rfl, hj, hyl⟩ | ⟨hyo, hyl⟩
      · exact absurd (by rw [← hxl, heq, hyl]) (hapart.names x j hx hy hxo hj)
      · -- two names that are shown as they are
        have hname : nameOf rows x = nameOf rows y := by rw [← hxl, heq, hyl]
        by_contra hne
        have hx0 : x = none := hxo.resolve_right fun h => h ⟨y, hy, Ne.symm hne, hname.symm⟩
        have hy0 : y = none := hyo.resolve_right fun h => h ⟨x, hx, hne, hname⟩
        exact hne (hx0.trans hy0.symm)
  · intro hinj
    refine ⟨fun i j hi hj hsi hsj htag => ?_, fun keyId j hid hj hown hsj hname => ?_⟩
    · have hli := (shownLabel_some hi).resolve_right fun h => h.1 hsi
      have hlj := (shownLabel_some hj).resolve_right fun h => h.1 hsj
      exact Option.some.inj (hinj _ hi _ hj (by rw [hli.2, hlj.2, htag]))
    · have hlj := (shownLabel_some hj).resolve_right fun h => h.1 hsj
      rcases shownLabel_cases hid with ⟨i, rfl, hi, -⟩ | ⟨-, hlabel⟩
      · exact hown.elim nofun fun h => h hi
      · have heq := hinj _ hid _ hj (by rw [hlabel, hlj.2, hname])
        subst heq
        exact hown.elim nofun fun h => h hsj

theorem usage_entries : (groupBy (·.apiKeyId) (·.cell) rows : OrderedDict (Option PyStr) Cell).entries =
    (keyIds rows).map fun keyId =>
      (keyId, ((rows.filter fun row => decide (row.apiKeyId = keyId)).map fun row => row.cell).sum) := by
  rw [entries_eq (nodup_groupBy _ _ rows) 0, keys_groupBy]
  simp only [getD_groupBy]
  rfl

theorem agentCells_entries (hapart : LabelsApart rows) : (agentCells rows).entries = (keyIds rows).map fun keyId =>
    (shownLabel (agentLabels rows) keyId,
      ((rows.filter fun row => decide (row.apiKeyId = keyId)).map fun row => row.cell).sum) := by
  rw [agentCells, writeAll_of_nodup, usage_entries, List.map_map]
  · rfl
  · rw [usage_entries, List.map_map]
    exact labelsApart_iff.mp hapart

theorem totalCell_agentCells (hapart : LabelsApart rows) :
    totalCell (agentCells rows) = (rows.map fun row => row.cell).sum := by
  have hsame : (agentCells rows).entries.map (·.2) =
      (groupBy (·.apiKeyId) (·.cell) rows : OrderedDict (Option PyStr) Cell).entries.map (·.2) := by
    rw [agentCells_entries hapart, usage_entries, List.map_map, List.map_map]
    rfl
  rw [totalCell_eq, total, hsame]
  exact total_groupBy (fun row : GatewayKeyModelUsageRow => row.apiKeyId) (fun row => row.cell) rows

theorem length_agentCells_lt (h : ¬LabelsApart rows) : (agentCells rows).entries.length < (keyIds rows).length := by
  have hnodup : ¬((groupBy (·.apiKeyId) (·.cell) rows : OrderedDict (Option PyStr) Cell).entries.map
      fun e => shownLabel (agentLabels rows) e.1).Nodup := by
    rw [usage_entries, List.map_map]
    exact fun hnodup => h (labelsApart_iff.mpr hnodup)
  have hlt : (agentCells rows).entries.length <
      (groupBy (·.apiKeyId) (·.cell) rows : OrderedDict (Option PyStr) Cell).entries.length :=
    length_writeAll _ hnodup
  rw [usage_entries, List.length_map] at hlt
  exact hlt

end agents

/-! ### Conservation -/

theorem totalCell_groupBy {ρ : Type} (key : ρ → PyStr) (value : ρ → Cell) (rows : List ρ) :
    totalCell (groupBy key value rows) = (rows.map value).sum := by
  rw [totalCell_eq, total_groupBy]

/-- Every grouping keeps the totals, the one by agent with a series for every key exactly when the labels tell the
keys apart. -/
theorem insights_conserve_iff (buckets : List GatewayUsageBucketRow) (events : List GatewayUsageEventRow)
    (byKey : List GatewayKeyModelUsageRow) :
    totalCell (cellsForDimension .model buckets events byKey) = (buckets.map fun row => row.cell).sum ∧
    totalCell (cellsForDimension .lane buckets events byKey) = (buckets.map fun row => row.cell).sum ∧
    ((totalCell (cellsForDimension .agent buckets events byKey) = (byKey.map fun row => row.cell).sum ∧
      OneSeriesEach byKey) ↔ LabelsApart byKey) := by
  refine ⟨totalCell_groupBy .., totalCell_groupBy .., fun ⟨_, hseries⟩ => ?_, fun hapart => ⟨?_, ?_⟩⟩
  · by_contra hmerged
    have hlt := length_agentCells_lt hmerged
    obtain ⟨label, heq⟩ := hseries
    rw [heq, List.length_map] at hlt
    exact lt_irrefl _ hlt
  · exact totalCell_agentCells hapart
  · exact ⟨_, agentCells_entries hapart⟩

/-- Two keys named `ci`, and one named like the tag of the first. -/
def namesakes : List GatewayKeyModelUsageRow :=
  [⟨⟨5, 0, 10, 10, 100, 0⟩, text "3f0c9a51-5f2b-4c3e-9a37-5d0e8f1b2c01", text "ci"⟩,
    ⟨⟨7, 0, 10, 10, 200, 0⟩, text "77aa01de-1f5c-4f6e-8d9a-0c4b7e2f3a02", text "ci"⟩,
    ⟨⟨9, 0, 10, 10, 400, 0⟩, text "b81d44f0-94a1-4a2b-b0de-6a7c5d3e4f03", text "ci (3f0c9a51)"⟩]

/-- The first key's series is overwritten. -/
theorem namesakes_merge : totalCell (agentCells namesakes) ≠ (namesakes.map fun row => row.cell).sum ∧
    (agentCells namesakes).entries.length = 2 ∧ (keyIds namesakes).length = 3 := by
  decide +kernel

end Experiential.Usage
