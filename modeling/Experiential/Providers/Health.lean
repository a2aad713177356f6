import Experiential.Providers.Connections

/-! # A rotated key never wears the old key's health

The writers of a connection's details read the row, ask the provider, and write what they read back with
their findings. A check's write is fenced by the last four characters of the key, the others by nothing.
`CallInOrder` says of each write what may not have happened since its reads, and `own_health_iff` that the
details then tell of the credentials stored now, that nothing newer than its reads is overwritten, and that
this is exact. -/

namespace Experiential.Providers

/-- Every check in the detail was made with the credentials. -/
structure StatusDetail.MadeWith (d : StatusDetail) (held : Credentials) : Prop where
  probe : ∀ p ∈ d.probe, p.madeWith = held.key
  spendKey : ∀ p ∈ d.spendKey, held.spendKey = some p.madeWith
  models : ∀ e ∈ d.models.entries, e.2.entry.madeWith = held.key

instance (d : StatusDetail) (held : Credentials) : Decidable (d.MadeWith held) :=
  decidable_of_iff ((∀ p ∈ d.probe, p.madeWith = held.key) ∧ (∀ p ∈ d.spendKey, held.spendKey = some p.madeWith) ∧
      ∀ e ∈ d.models.entries, e.2.entry.madeWith = held.key)
    ⟨fun h => ⟨h.1, h.2.1, h.2.2⟩, fun h => ⟨h.probe, h.spendKey, h.models⟩⟩

/-- The status and its details reflect only checks made with the credentials stored now. -/
structure OwnHealth (db : ConnectionDb) : Prop where
  status : db.row.status ≠ .unchecked → db.row.statusMadeWith = some db.vault.key
  detail : ∀ d ∈ db.row.statusDetail, d.MadeWith db.vault

instance (db : ConnectionDb) : Decidable (OwnHealth db) :=
  decidable_of_iff ((db.row.status ≠ .unchecked → db.row.statusMadeWith = some db.vault.key) ∧
      ∀ d ∈ db.row.statusDetail, d.MadeWith db.vault)
    ⟨fun h => ⟨h.1, h.2⟩, fun h => ⟨h.status, h.detail⟩⟩

/-- The model facts of the row. -/
def ConnectionDb.facts (db : ConnectionDb) : List (Sigma fun _ : String => Committed (Made ModelFact)) :=
  match db.row.statusDetail with
  | none => []
  | some d => d.models.entries

/-- The deployment mappings of the row. -/
def ConnectionDb.mappings (db : ConnectionDb) : List (Sigma fun _ : String => Committed String) :=
  db.row.config.deployments.entries

/-- The facts for the key and the mappings that were committed since the read are still there. -/
structure KeepsSince (readAt : ℕ) (db db' : ConnectionDb) : Prop where
  facts : ∀ e ∈ db.facts, e.2.entry.madeWith = db.vault.key → readAt ≤ e.2.committedAt → e ∈ db'.facts
  mappings : ∀ e ∈ db.mappings, readAt ≤ e.2.committedAt → e ∈ db'.mappings

instance (readAt : ℕ) (db db' : ConnectionDb) : Decidable (KeepsSince readAt db db') :=
  decidable_of_iff ((∀ e ∈ db.facts, e.2.entry.madeWith = db.vault.key ∧ readAt ≤ e.2.committedAt → e ∈ db'.facts) ∧
      ∀ e ∈ db.mappings, readAt ≤ e.2.committedAt → e ∈ db'.mappings)
    ⟨fun h => ⟨fun e he hkey hread => h.1 e he ⟨hkey, hread⟩, h.2⟩, fun h => ⟨fun e he hk => h.facts e he hk.1 hk.2, h.mappings⟩⟩

/-- No writer overwrites a fact or a mapping that is newer than its read of the row. -/
def KeepsNewer (provider : ConnectableProvider) (w : ConnectionPool) : ConnectionStep → Prop
  | .advance k i => ∀ x ∈ w.procs[k]?, ∀ record ∈ x.record?,
      KeepsSince record.readAt w.shared (connectionStep provider w (.advance k i)).shared
  | _ => True

instance (provider : ConnectableProvider) (w : ConnectionPool) (step : ConnectionStep) :
    Decidable (KeepsNewer provider w step) := by
  unfold KeepsNewer
  split <;> infer_instance

/-! ### Writes in order -/

/-- No fact was committed since the read. -/
def NoFactSince (readAt : ℕ) (db : ConnectionDb) : Prop := ∀ e ∈ db.facts, e.2.committedAt < readAt

/-- The copy that a fact goes into tells of no key but the one stored now. -/
def CopyStands (db : ConnectionDb) (record : ProviderConnectionRecord) (model : String) : Prop :=
  ∀ d ∈ record.statusDetail,
    ((d.probe.isSome ∨ ∃ e ∈ d.models.entries, e.1 ≠ model) → record.heldAt.key = db.vault.key) ∧
      (d.spendKey.isSome → record.heldAt.spendKey = db.vault.spendKey)

/-- What may not have happened since the request's reads when it writes. -/
def CallInOrder (db : ConnectionDb) (x : ConnectionCall) : Prop :=
  match x.phase with
  | .setSpendCredential secret => (∃ d ∈ db.row.statusDetail, d.spendKey.isSome) → db.vault.spendKey = some secret
  | .updateConfig record _ _ => ∀ e ∈ db.mappings, e.2.committedAt < record.readAt
  | .recordStatus record probed => db.row.credentialLast4 = record.credentialLast4 →
      probed.key = db.vault.key ∧ (∀ c ∈ probed.spendKey, db.vault.spendKey = some c) ∧
        NoFactSince record.readAt db
  | .recordModelFact record model _ key =>
      key = db.vault.key ∧ CopyStands db record model ∧ NoFactSince record.readAt db
  | _ => True

def WritesInOrder (w : ConnectionPool) : ConnectionStep → Prop
  | .advance k (.succeeds _) => ∀ x ∈ w.procs[k]?, CallInOrder w.shared x
  | _ => True

/-! ### What the row and its copies hold -/

/-- Nothing in the row was committed after now. -/
structure Dated (db : ConnectionDb) : Prop where
  facts : ∀ e ∈ db.facts, e.2.committedAt < db.commits
  mappings : ∀ e ∈ db.mappings, e.2.committedAt < db.commits

/-- A copy of the row as it was when it was read. -/
structure Copied (db : ConnectionDb) (record : ProviderConnectionRecord) : Prop where
  readAt : record.readAt ≤ db.commits
  detail : ∀ d ∈ record.statusDetail, d.MadeWith record.heldAt
  facts : ∀ d ∈ record.statusDetail, ∀ e ∈ d.models.entries, e.2.committedAt < record.readAt
  mappings : ∀ e ∈ record.config.deployments.entries, e.2.committedAt < record.readAt

section
variable {provider : ConnectableProvider} {probes : Probes} {db db' : ConnectionDb} {x : ConnectionCall}
  {record r : ProviderConnectionRecord} {model deployment key : String}

theorem mem_facts {e : Sigma fun _ : String => Committed (Made ModelFact)} :
    e ∈ db.facts ↔ ∃ d ∈ db.row.statusDetail, e ∈ d.models.entries := by
  unfold ConnectionDb.facts
  cases db.row.statusDetail <;> simp

theorem OwnHealth.madeWith (h : OwnHealth db) {e : Sigma fun _ : String => Committed (Made ModelFact)}
    (he : e ∈ db.facts) : e.2.entry.madeWith = db.vault.key := by
  obtain ⟨d, hd, he⟩ := mem_facts.mp he
  exact (h.detail d hd).models e he

theorem Copied.mono (h : Copied db record) (hle : db.commits ≤ db'.commits) : Copied db' record :=
  ⟨h.readAt.trans hle, h.detail, h.facts, h.mappings⟩

theorem copied_find (hown : OwnHealth db) (hdated : Dated db) : Copied db db.find := by
  refine ⟨le_refl db.commits, hown.detail, ?_, hdated.mappings⟩
  intro d hd e he
  exact hdated.facts e (mem_facts.mpr ⟨d, hd, he⟩)

theorem KeepsSince.of_eq {readAt : ℕ} (hfacts : db'.facts = db.facts) (hmappings : db'.mappings = db.mappings) :
    KeepsSince readAt db db' := by
  refine ⟨fun e he _ _ => ?_, fun e he _ => ?_⟩
  · rw [hfacts]
    exact he
  · rw [hmappings]
    exact he

/-! ### The writes -/

theorem mem_commitConfig {settings deployments : Dict String String} {n : ℕ}
    {e : Sigma fun _ : String => Committed String}
    (he : e ∈ (ConnectionDb.commitConfig settings deployments n).deployments.entries) : e.2.committedAt = n := by
  simp only [ConnectionDb.commitConfig, List.mem_map] at he
  obtain ⟨a, -, rfl⟩ := he
  rfl

theorem upsert_own (settings deployments : Dict String String) (secret : String) :
    OwnHealth (db.upsertProviderConnection settings deployments secret) := by
  refine ⟨fun h => absurd rfl h, ?_⟩
  intro d hd
  simp [ConnectionDb.upsertProviderConnection] at hd

theorem upsert_dated (settings deployments : Dict String String) (secret : String) :
    Dated (db.upsertProviderConnection settings deployments secret) := by
  refine ⟨fun e he => ?_, fun e he => ?_⟩
  · obtain ⟨d, hd, -⟩ := mem_facts.mp he
    simp [ConnectionDb.upsertProviderConnection] at hd
  · rw [mem_commitConfig he]
    exact Nat.lt_succ_self _

/-- Storing an admin key keeps the details true when they say nothing of another one. -/
theorem setSpendCredential_own_iff (hown : OwnHealth db) (secret : String) :
    OwnHealth (db.setSpendCredential secret) ↔
      ((∃ d ∈ db.row.statusDetail, d.spendKey.isSome) → db.vault.spendKey = some secret) := by
  constructor
  · rintro h ⟨d, hd, hsome⟩
    obtain ⟨p, hp⟩ := Option.isSome_iff_exists.mp hsome
    have hnew : some secret = some p.madeWith := (h.detail d hd).spendKey p hp
    rw [hnew]
    exact (hown.detail d hd).spendKey p hp
  · intro h
    refine ⟨hown.status, fun d hd => ⟨(hown.detail d hd).probe, ?_, (hown.detail d hd).models⟩⟩
    intro p hp
    have hold := h ⟨d, hd, Option.isSome_iff_exists.mpr ⟨p, hp⟩⟩
    rw [(hown.detail d hd).spendKey p hp] at hold
    exact hold.symm

/-- A configuration written back loses what was mapped since it was read, and nothing else. -/
theorem updateConfig_keeps_iff (hcopied : Copied db record) (hdated : Dated db) :
    KeepsSince record.readAt db (db.updateConfig (ConnectionCall.mapDeployment db record model deployment)) ↔
      ∀ e ∈ db.mappings, e.2.committedAt < record.readAt := by
  constructor
  · intro h e he
    by_contra hlt
    have hin := h.mappings e he (by omega)
    rcases Dict.mem_entries_insert.mp hin with rfl | ⟨-, hold⟩
    · exact absurd (hdated.mappings _ he) (Nat.lt_irrefl _)
    · exact hlt (hcopied.mappings e hold)
  · intro h
    refine ⟨fun e he _ _ => he, fun e he hle => ?_⟩
    have hlt := h e he
    omega

theorem updateConfig_dated (hcopied : Copied db record) (hdated : Dated db) :
    Dated (db.updateConfig (ConnectionCall.mapDeployment db record model deployment)) := by
  refine ⟨fun e he => ?_, fun e he => ?_⟩
  · exact Nat.lt_succ_of_lt (hdated.facts e he)
  · have hread := hcopied.readAt
    rcases Dict.mem_entries_insert.mp he with rfl | ⟨-, hold⟩
    · exact Nat.lt_succ_self _
    · have hlt := hcopied.mappings e hold
      change e.2.committedAt < db.commits + 1
      omega

/-- A check's write is right when it was made with the credentials stored now and nothing was found out
about a model since its read. -/
theorem recordStatus_iff (hown : OwnHealth db) {result : ProbeResult} {probed : Credentials} {last4 : String} {now readAt : ℕ}
    (h : db.recordStatus result (ConnectionCall.checkDetail probes probed) now last4 probed.key = some db') :
    OwnHealth db' ∧ KeepsSince readAt db db' ↔
      probed.key = db.vault.key ∧ (∀ c ∈ probed.spendKey, db.vault.spendKey = some c) ∧ NoFactSince readAt db := by
  unfold ConnectionDb.recordStatus at h
  split at h
  · injection h with h
    subst h
    constructor
    · rintro ⟨hnew, hkeeps⟩
      refine ⟨Option.some.inj (hnew.status result.concluded), ?_, ?_⟩
      · intro c hc
        have hin : (⟨⟨probes.spendKey.1, probes.now, probes.spendKey.2⟩, c⟩ : Made SpendKeyDetail) ∈
            (ConnectionCall.checkDetail probes probed).spendKey := by
          rw [ConnectionCall.checkDetail, Option.mem_def.mp hc]
          rfl
        exact (hnew.detail _ rfl).spendKey _ hin
      · intro e he
        by_contra hlt
        have hin := hkeeps.facts e he (hown.madeWith he) (by omega)
        simp [ConnectionDb.facts, ConnectionCall.checkDetail] at hin
    · rintro ⟨hkey, hspend, hsince⟩
      refine ⟨⟨fun _ => congrArg some hkey, ?_⟩, ⟨fun e he _ hle => ?_, fun e he _ => he⟩⟩
      · rintro d ⟨⟩
        refine ⟨?_, ?_, by simp [ConnectionCall.checkDetail]⟩
        · rintro p ⟨⟩
          exact hkey
        · intro p hp
          obtain ⟨c, hc, rfl⟩ := Option.map_eq_some_iff.mp hp
          exact hspend c hc
      · have hlt := hsince e he
        omega
  · cases h

theorem recordStatus_dated (hdated : Dated db) {result : ProbeResult} {probed : Credentials} {last4 madeWith : String}
    {now : ℕ}
    (h : db.recordStatus result (ConnectionCall.checkDetail probes probed) now last4 madeWith = some db') :
    Dated db' := by
  unfold ConnectionDb.recordStatus at h
  split at h
  · injection h with h
    subst h
    refine ⟨fun e he => ?_, fun e he => Nat.lt_succ_of_lt (hdated.mappings e he)⟩
    simp [ConnectionDb.facts, ConnectionCall.checkDetail] at he
  · cases h

theorem mem_facts_recordModelFact {fact : Made ModelFact} {e : Sigma fun _ : String => Committed (Made ModelFact)} :
    e ∈ (db.recordModelFact record model fact).facts ↔ e = ⟨model, ⟨fact, db.commits⟩⟩ ∨
      e.1 ≠ model ∧ ∃ d ∈ record.statusDetail, e ∈ d.models.entries := by
  rw [mem_facts]
  simp only [ConnectionDb.recordModelFact, Option.mem_def, Option.some.injEq, exists_eq_left']
  rw [Dict.mem_entries_insert]
  cases record.statusDetail <;> simp

theorem recordModelFact_iff (hown : OwnHealth db) (hdated : Dated db) (hcopied : Copied db record)
    {fact : ModelFact} :
    OwnHealth (db.recordModelFact record model ⟨fact, key⟩) ∧
        KeepsSince record.readAt db (db.recordModelFact record model ⟨fact, key⟩) ↔
      key = db.vault.key ∧ CopyStands db record model ∧ NoFactSince record.readAt db := by
  constructor
  · rintro ⟨hnew, hkeeps⟩
    refine ⟨hnew.madeWith (mem_facts_recordModelFact.mpr (.inl rfl)), ?_, ?_⟩
    · intro d hd
      have hold := hcopied.detail d hd
      have hwritten := hnew.detail _ rfl
      rw [Option.mem_def.mp hd] at hwritten
      refine ⟨?_, ?_⟩
      · rintro (hprobe | ⟨e, he, hne⟩)
        · obtain ⟨p, hp⟩ := Option.isSome_iff_exists.mp hprobe
          exact (hold.probe p hp).symm.trans (hwritten.probe p hp)
        · exact (hold.models e he).symm.trans
            (hnew.madeWith (mem_facts_recordModelFact.mpr (.inr ⟨hne, d, hd, he⟩)))
      · intro hspend
        obtain ⟨p, hp⟩ := Option.isSome_iff_exists.mp hspend
        exact (hold.spendKey p hp).trans (hwritten.spendKey p hp).symm
    · intro e he
      by_contra hlt
      rcases mem_facts_recordModelFact.mp (hkeeps.facts e he (hown.madeWith he) (by omega)) with rfl | ⟨-, d, hd, hin⟩
      · exact absurd (hdated.facts _ he) (Nat.lt_irrefl _)
      · exact hlt (hcopied.facts d hd e hin)
  · rintro ⟨hkey, hcopy, hsince⟩
    refine ⟨⟨hown.status, ?_⟩, ⟨fun e he _ hle => ?_, fun e he _ => he⟩⟩
    · rintro d' ⟨⟩
      refine ⟨?_, ?_, ?_⟩
      · intro p hp
        cases hd : record.statusDetail with
        | none => simp [hd] at hp
        | some d =>
            rw [hd] at hp
            exact ((hcopied.detail d hd).probe p hp).trans
              ((hcopy d hd).1 (.inl (Option.isSome_iff_exists.mpr ⟨p, hp⟩)))
      · intro p hp
        cases hd : record.statusDetail with
        | none => simp [hd] at hp
        | some d =>
            rw [hd] at hp
            have hsame := (hcopy d hd).2 (Option.isSome_iff_exists.mpr ⟨p, hp⟩)
            have hheld := (hcopied.detail d hd).spendKey p hp
            rw [hsame] at hheld
            exact hheld
      · intro e he
        have hfact : e ∈ (db.recordModelFact record model ⟨fact, key⟩).facts := mem_facts.mpr ⟨_, rfl, he⟩
        rcases mem_facts_recordModelFact.mp hfact with rfl | ⟨hne, d, hd, hin⟩
        · exact hkey
        · exact ((hcopied.detail d hd).models e hin).trans ((hcopy d hd).1 (.inr ⟨e, hin, hne⟩))
    · have hlt := hsince e he
      omega

theorem recordModelFact_dated (hdated : Dated db) (hcopied : Copied db record) {fact : Made ModelFact} :
    Dated (db.recordModelFact record model fact) := by
  refine ⟨fun e he => ?_, fun e he => Nat.lt_succ_of_lt (hdated.mappings e he)⟩
  have hread := hcopied.readAt
  change e.2.committedAt < db.commits + 1
  rcases mem_facts_recordModelFact.mp he with rfl | ⟨-, d, hd, hin⟩
  · exact Nat.lt_succ_self _
  · have hlt := hcopied.facts d hd e hin
    omega

/-! ### Calls and runs -/

theorem mapped_record? (h : record ∈ (x.mapped r model).record?) : record = r := by
  unfold ConnectionCall.mapped at h
  split at h
  · cases h
  · exact (Option.some.inj h).symm

theorem found_record? (h : record ∈ (x.found r).record?) : record = r := by
  unfold ConnectionCall.found at h
  split at h
  · exact (Option.some.inj h).symm
  · exact (Option.some.inj h).symm
  · split at h
    · cases h
    · split at h
      · exact mapped_record? h
      · split at h
        · cases h
        · exact (Option.some.inj h).symm

theorem begin_record? (r : ConnectionRequest) : (r.begin provider).record? = none := by
  unfold ConnectionRequest.begin ConnectionCall.record?
  cases r with
  | put => dsimp only; split_ifs <;> rfl
  | check => rfl
  | deploymentCheck => dsimp only; split_ifs <;> rfl

theorem fail_record? (h : record ∈ x.fail.record?) : record ∈ x.record? := by
  unfold ConnectionCall.fail at h
  split at h
  · exact h
  · cases h

/-- What a call leaves behind is right. -/
def DoesRight (db : ConnectionDb) (x : ConnectionCall) (db' : ConnectionDb) : Prop :=
  OwnHealth db' ∧ ∀ record ∈ x.record?, KeepsSince record.readAt db db'

theorem doesRight_self (hown : OwnHealth db) : DoesRight db x db :=
  ⟨hown, fun _ _ => KeepsSince.of_eq rfl rfl⟩

theorem doesRight_iff (h : x.record? = some record) :
    DoesRight db x db' ↔ OwnHealth db' ∧ KeepsSince record.readAt db db' := by
  unfold DoesRight
  rw [h]
  simp

/-- A call does right by the connection exactly if it is in order. -/
theorem inOrder_iff (hown : OwnHealth db) (hdated : Dated db) (hcopied : ∀ record ∈ x.record?, Copied db record) :
    DoesRight db x (x.succeed provider probes db).1 ↔ CallInOrder db x := by
  obtain ⟨request, phase⟩ := x
  cases phase with
  | upsert =>
      refine iff_of_true ?_ trivial
      cases request with
      | put settings deployments secret spendSecret =>
          exact ⟨upsert_own settings deployments secret, fun _ hrecord => by cases hrecord⟩
      | check | deploymentCheck => exact doesRight_self hown
  | setSpendCredential secret =>
      refine Iff.trans (and_iff_left ?_) (setSpendCredential_own_iff hown secret)
      intro _ hrecord
      cases hrecord
  | updateConfig record model deployment =>
      rw [doesRight_iff rfl]
      exact Iff.trans (and_iff_right ⟨hown.status, hown.detail⟩) (updateConfig_keeps_iff (hcopied record rfl) hdated)
  | recordStatus record probed =>
      rw [doesRight_iff rfl]
      simp only [ConnectionCall.succeed, CallInOrder]
      cases hwrite : db.recordStatus probes.key (ConnectionCall.checkDetail probes probed) probes.now
          record.credentialLast4 probed.key with
      | none =>
          have hfence : db.row.credentialLast4 ≠ record.credentialLast4 := by
            intro h
            simp [ConnectionDb.recordStatus, h] at hwrite
          exact iff_of_true ⟨hown, KeepsSince.of_eq rfl rfl⟩ fun h => absurd h hfence
      | some db' =>
          have hfence : db.row.credentialLast4 = record.credentialLast4 := by
            by_contra h
            simp [ConnectionDb.recordStatus, h] at hwrite
          rw [forall_prop_of_true hfence]
          exact recordStatus_iff hown hwrite
  | recordModelFact record model deployment key =>
      rw [doesRight_iff rfl]
      exact recordModelFact_iff hown hdated (hcopied record rfl)
  | find | releaseCredential | releaseForDeployment | releaseSpendCredential | findById | answered =>
      exact iff_of_true (doesRight_self hown) trivial

/-- What a call leaves behind is dated, and the request goes on with a copy of it. -/
theorem succeed_copied (hown : OwnHealth db) (hdated : Dated db) (hcopied : ∀ record ∈ x.record?, Copied db record)
    (hright : OwnHealth (x.succeed provider probes db).1) :
    Dated (x.succeed provider probes db).1 ∧ db.commits ≤ (x.succeed provider probes db).1.commits ∧
      ∀ record ∈ (x.succeed provider probes db).2.record?, Copied (x.succeed provider probes db).1 record := by
  obtain ⟨request, phase⟩ := x
  cases phase with
  | upsert =>
      cases request with
      | put settings deployments secret spendSecret =>
          refine ⟨upsert_dated settings deployments secret, Nat.le_succ _, ?_⟩
          intro record hrecord
          cases spendSecret <;> cases hrecord
      | check | deploymentCheck => exact ⟨hdated, le_refl _, hcopied⟩
  | setSpendCredential secret =>
      refine ⟨⟨fun e he => Nat.lt_succ_of_lt (hdated.facts e he), fun e he => Nat.lt_succ_of_lt (hdated.mappings e he)⟩,
        Nat.le_succ _, ?_⟩
      intro record hrecord
      cases hrecord
  | find =>
      refine ⟨hdated, le_refl _, ?_⟩
      intro record hrecord
      rw [found_record? hrecord]
      exact copied_find hown hdated
  | updateConfig record model deployment =>
      have hdated' : Dated (db.updateConfig (ConnectionCall.mapDeployment db record model deployment)) :=
        updateConfig_dated (hcopied record rfl) hdated
      refine ⟨hdated', Nat.le_succ _, ?_⟩
      intro record' hrecord
      rw [mapped_record? hrecord]
      exact copied_find hright hdated'
  | releaseCredential record =>
      refine ⟨hdated, le_refl _, ?_⟩
      intro record' hrecord
      have heq : record' = record := by
        simp only [ConnectionCall.succeed] at hrecord
        split at hrecord <;> exact (Option.some.inj hrecord).symm
      rw [heq]
      exact hcopied record rfl
  | releaseForDeployment record model deployment =>
      refine ⟨hdated, le_refl _, ?_⟩
      rintro record' ⟨⟩
      exact hcopied record rfl
  | releaseSpendCredential record key =>
      refine ⟨hdated, le_refl _, ?_⟩
      intro record' hrecord
      have heq : record' = record := by
        simp only [ConnectionCall.succeed] at hrecord
        split at hrecord
        · cases hrecord
        · exact (Option.some.inj hrecord).symm
      rw [heq]
      exact hcopied record rfl
  | recordStatus record probed =>
      simp only [ConnectionCall.succeed]
      cases hwrite : db.recordStatus probes.key (ConnectionCall.checkDetail probes probed) probes.now
          record.credentialLast4 probed.key with
      | none => exact ⟨hdated, le_refl _, fun _ hrecord => by cases hrecord⟩
      | some db' =>
          refine ⟨recordStatus_dated hdated hwrite, ?_, fun _ hrecord => by cases hrecord⟩
          unfold ConnectionDb.recordStatus at hwrite
          split at hwrite
          · injection hwrite with hwrite
            subst hwrite
            exact Nat.le_succ _
          · cases hwrite
  | recordModelFact record model deployment key =>
      refine ⟨recordModelFact_dated hdated (hcopied record rfl), Nat.le_succ _, ?_⟩
      intro record' hrecord
      cases hrecord
  | findById =>
      refine ⟨hdated, le_refl _, ?_⟩
      intro record hrecord
      cases hrecord
  | answered answer => exact ⟨hdated, le_refl _, hcopied⟩

/-- The row is in its own health and dated, and every request has a copy of it. -/
def Settled (w : ConnectionPool) : Prop :=
  w.Holds (fun db => OwnHealth db ∧ Dated db) fun db _ x => ∀ record ∈ x.record?, Copied db record

theorem settled_connected (settings deployments : Dict String String) (secret : String) :
    Settled (connected settings deployments secret) := by
  refine ⟨⟨⟨fun h => absurd rfl h, ?_⟩, ⟨?_, ?_⟩⟩, ?_⟩
  · intro d hd
    simp [connected] at hd
  · intro e he
    obtain ⟨d, hd, -⟩ := mem_facts.mp he
    simp [connected] at hd
  · intro e he
    rw [mem_commitConfig he]
    exact Nat.zero_lt_one
  · intro k x hx
    simp [connected] at hx

theorem Settled.step {w : ConnectionPool} (h : Settled w) {e : ConnectionStep} (hin : WritesInOrder w e) :
    Settled (connectionStep provider w e) := by
  cases e with
  | spawn request =>
      refine Pool.Holds.spawned h ?_
      intro record hrecord
      rw [begin_record?] at hrecord
      cases hrecord
  | env e => exact e.elim
  | advance k i =>
      refine Pool.Holds.advanced h ?_
      intro x hx
      have hcopied := h.2 k x hx
      cases i with
      | fails =>
          refine ⟨h.1, ?_, fun j y _ hy => h.2 j y hy⟩
          intro record hrecord
          exact hcopied record (fail_record? hrecord)
      | succeeds probes =>
          have hright : DoesRight w.shared x (x.succeed provider probes w.shared).1 :=
            (inOrder_iff h.1.1 h.1.2 hcopied).mpr (hin x hx)
          obtain ⟨hdated, hle, hown⟩ := succeed_copied h.1.1 h.1.2 hcopied hright.1
          refine ⟨⟨hright.1, hdated⟩, hown, ?_⟩
          intro j y _ hy record hrecord
          exact (h.2 j y hy record hrecord).mono hle

/-- A step does right by the connection exactly if its write, if any, is in order. -/
theorem Settled.writesInOrder_iff {w : ConnectionPool} (h : Settled w) (e : ConnectionStep) :
    WritesInOrder w e ↔ OwnHealth (connectionStep provider w e).shared ∧ KeepsNewer provider w e := by
  cases e with
  | spawn request => exact iff_of_true trivial ⟨h.1.1, trivial⟩
  | env e => exact e.elim
  | advance k i =>
      cases hx : w.procs[k]? with
      | none =>
          have hstay : connectionStep provider w (.advance k i) = w := poolStep_advance_none hx
          rw [KeepsNewer, hstay, hx]
          refine iff_of_true ?_ ⟨h.1.1, fun x hx => by cases hx⟩
          cases i with
          | fails => trivial
          | succeeds probes =>
              intro x hx'
              rw [hx] at hx'
              cases hx'
      | some x =>
          have hstep : (connectionStep provider w (.advance k i)).shared = (x.advance provider i w.shared).1 := by
            rw [connectionStep, poolStep_advance hx]
          rw [KeepsNewer, hstep, hx]
          cases i with
          | fails =>
              refine iff_of_true trivial ⟨h.1.1, ?_⟩
              rintro y ⟨⟩ record -
              exact KeepsSince.of_eq rfl rfl
          | succeeds probes =>
              have hcall : DoesRight w.shared x (x.succeed provider probes w.shared).1 ↔ CallInOrder w.shared x :=
                inOrder_iff h.1.1 h.1.2 (h.2 k x hx)
              simp only [WritesInOrder, hx, Option.mem_def, Option.some.injEq, forall_eq']
              exact hcall.symm

end

/-- **Own health.** -/
theorem own_health_iff (provider : ConnectableProvider) (settings deployments : Dict String String) (secret : String)
    (events : List ConnectionStep) :
    ((∀ past, past <+: events → OwnHealth (run (connectionStep provider) (connected settings deployments secret) past).shared) ∧
        StepsMeet (connectionStep provider) (KeepsNewer provider) (connected settings deployments secret) events) ↔
      StepsMeet (connectionStep provider) WritesInOrder (connected settings deployments secret) events := by
  have hstart := settled_connected settings deployments secret
  rw [forall_prefix_iff (I := fun w : ConnectionPool => OwnHealth w.shared) hstart.1.1, ← stepsMeet_and]
  exact (stepsMeet_congr_of (fun _ _ h hin => h.step hin) (fun _ e h => h.writesInOrder_iff e) events _ hstart).symm

/-- The provider accepts the key, and has the deployment. -/
def accepted (now : ℕ) : Probes where
  now := now
  key := ⟨.valid, ⟨some 200, none, none, "The key works.", none⟩, by decide⟩
  spendKey := (.valid, ⟨some 200, none, none, "The admin key works.", none⟩)
  deployment := ⟨⟨some 200, none, none, "The deployment exists.", none⟩, true⟩

def calls (now k n : ℕ) : List ConnectionStep := List.replicate n (.advance k (.succeeds (accepted now)))

/-- A check that released the old key is written after a rotation to a key with the same last four
characters; of two deployment checks side by side, the second drops the first one's fact, or its mapping. -/
theorem old_health_worn :
    ¬ OwnHealth (run (connectionStep .openrouter) (connected ∅ ∅ "sk-or-one-0001")
      ([.spawn .check] ++ calls 1 0 2 ++ [.spawn (.put ∅ ∅ "sk-or-two-0001" none)] ++ calls 2 1 1 ++ calls 3 0 1)).shared ∧
    ¬ StepsMeet (connectionStep .azureOpenai) (KeepsNewer .azureOpenai)
      (connected ∅ (AList.insert "m-1" "d-1" (AList.insert "m-2" "d-2" ∅)) "azure-key-0001")
      ([.spawn (.deploymentCheck "m-1" none), .spawn (.deploymentCheck "m-2" none)] ++ calls 1 0 2 ++ calls 2 1 2 ++
        calls 3 0 1 ++ calls 4 1 1) ∧
    ¬ StepsMeet (connectionStep .azureOpenai) (KeepsNewer .azureOpenai) (connected ∅ ∅ "azure-key-0001")
      ([.spawn (.deploymentCheck "m-1" (some "d-1")), .spawn (.deploymentCheck "m-2" (some "d-2"))] ++ calls 1 0 1 ++
        calls 2 1 1 ++ calls 3 0 1 ++ calls 4 1 1) := by
  refine ⟨?_, ?_, ?_⟩
  · decide +kernel
  · decide +kernel
  · decide +kernel

end Experiential.Providers
