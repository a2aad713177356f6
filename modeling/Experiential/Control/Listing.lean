import Mathlib.Data.String.Basic
import Experiential.Control.Store

/-! # Listing and authorization agree

Both read the same tables, but the listing sorts all names at once and asks for a current revision first,
while `authorize_request` takes one name, checks its syntax, and builds the authority of the request.
Tables that the alias functions wrote leave one effective alias of each name, the same for both
(`mem_effectiveAll`). The syntax of the name and the revision's target are checked on one side only:
`listing_iff` says that the two agree exactly where these checks pass. -/

namespace Experiential.Control

open Catalog (Uuid GatewayAlias artifactIdPattern)

/-- The name is listed for the key. -/
def Listed (db : ControlDb) (now : ℤ) (keyHash name : String) : Prop :=
  ∃ names, grantedAliases db now keyHash = .ok names ∧ name ∈ names

/-- Listing and authorization agree on the name of the request, and on its revision and catalog. -/
structure Agrees (contracts : Contracts) (db : ControlDb) (clock : GatewayClock) (r : AuthorizeArgs) : Prop where
  listed : Listed db clock.now r.keyHash r.aliasName ↔ ∃ snapshot, authorizeRequest contracts db clock r = .ok snapshot
  authority : ∀ snapshot, authorizeRequest contracts db clock r = .ok snapshot →
    ∃ authorities, grantedAliasAuthorities db clock.now r.keyHash = .ok authorities ∧
      ∀ revisionId catalogSha256, (r.aliasName, revisionId, catalogSha256) ∈ authorities ↔
        revisionId = snapshot.aliasRevisionId ∧ catalogSha256 = snapshot.catalogSha256

/-- Where the key may use an alias of the name, the name is an artifact id, and the request path accepts the
alias's current revision. -/
def Conforms (contracts : Contracts) (db : ControlDb) (clock : GatewayClock) (r : AuthorizeArgs) : Prop :=
  match authenticate db clock.now r.keyHash with
  | .error _ => True
  | .ok authority => ∀ identity ∈ authority.identityId, ∀ resolution ∈ db.resolution authority identity r.aliasName,
      (artifactIdPattern r.aliasName = true ∧ r.aliasName.length ≤ 128) ∧
        ∃ target ∈ (aliasTarget contracts resolution.2.target).toOption,
          contracts.snapshot (snapshotOf authority identity r resolution.1 resolution.2 target) = true

instance (contracts : Contracts) (db : ControlDb) (clock : GatewayClock) (r : AuthorizeArgs) :
    Decidable (Conforms contracts db clock r) := by
  unfold Conforms
  split <;> infer_instance

/-! ### One effective alias -/

instance : Std.Total OrgFirst := ⟨fun a b => by
  cases ha : a.2.orgId <;> cases hb : b.2.orgId <;> simp [OrgFirst, ha, hb]⟩

instance : IsTrans _ OrgFirst := ⟨fun a b c hab hbc => by
  unfold OrgFirst at *
  rcases hab with ha | hb
  · exact .inl ha
  · rcases hbc with hb' | hc
    · rw [hb] at hb'
      cases hb'
    · exact .inr hc⟩

instance : Std.Total ByName := ⟨fun a b => by
  rcases lt_trichotomy a.2.aliasName b.2.aliasName with h | h | h
  · exact .inl (.inl h)
  · rcases Std.Total.total (r := OrgFirst) a b with ho | ho
    · exact .inl (.inr ⟨h, ho⟩)
    · exact .inr (.inr ⟨h.symm, ho⟩)
  · exact .inr (.inl h)⟩

instance : IsTrans _ ByName := ⟨fun a b c hab hbc => by
  rcases hab with hab | ⟨hab, ho⟩
  · rcases hbc with hbc | ⟨hbc, -⟩
    · exact .inl (hab.trans hbc)
    · exact .inl (hbc ▸ hab)
  · rcases hbc with hbc | ⟨hbc, ho'⟩
    · exact .inl (hab ▸ hbc)
    · exact .inr ⟨hab.trans hbc, IsTrans.trans _ _ _ ho ho'⟩⟩

section
variable {contracts : Contracts} {db : ControlDb} {clock : GatewayClock} {r : AuthorizeArgs} {org : Uuid}
  {name identity : String} {e : String × GatewayAlias} {authority : KeyAuthority}

theorem mem_visible : e ∈ db.visible org ↔
    db.aliases.lookup e.1 = some e.2 ∧ e.2.active = true ∧ (e.2.orgId = none ∨ e.2.orgId = some org) := by
  have hentry : e ∈ db.aliases.entries.map (fun e => (e.1, e.2)) ↔ db.aliases.lookup e.1 = some e.2 := by
    rw [← Option.mem_def, AList.mem_lookup_iff, List.mem_map]
    constructor
    · rintro ⟨a, ha, rfl⟩
      exact ha
    · exact fun h => ⟨_, h, rfl⟩
  rw [ControlDb.visible, List.mem_filter, hentry, Bool.and_eq_true, decide_eq_true_eq]

theorem visible_unique (h : TablesOk db) {e' : String × GatewayAlias} (he : e ∈ db.visible org)
    (he' : e' ∈ db.visible org) (hname : e.2.aliasName = e'.2.aliasName) (horg : e.2.orgId = e'.2.orgId) : e = e' := by
  have hrow := (mem_visible.mp he).1
  have hrow' := (mem_visible.mp he').1
  have hid := h.unique e.1 e.2 e'.1 e'.2 hrow hrow' hname horg
  rw [hid, hrow'] at hrow
  exact Prod.ext hid (Option.some.inj hrow).symm

/-- The first row of a name: nothing else comes before it. -/
theorem exists_first (h : TablesOk db) (he : e ∈ db.visible org) (hname : e.2.aliasName = name) :
    ∃ a ∈ db.visible org, a.2.aliasName = name ∧
      ∀ b ∈ db.visible org, b.2.aliasName = name → OrgFirst b a → b = a := by
  by_cases hown : ∃ a ∈ db.visible org, a.2.aliasName = name ∧ a.2.orgId = some org
  · obtain ⟨a, ha, hn, ho⟩ := hown
    refine ⟨a, ha, hn, ?_⟩
    intro b hb hbn hfirst
    rcases (mem_visible.mp hb).2.2 with hpublic | howned
    · rcases hfirst with hsome | hnone
      · rw [hpublic] at hsome
        cases hsome
      · rw [ho] at hnone
        cases hnone
    · exact visible_unique h hb ha (hbn.trans hn.symm) (howned.trans ho.symm)
  · -- without a row of the organization, the only one is public
    refine ⟨e, he, hname, ?_⟩
    have hpublic : ∀ b ∈ db.visible org, b.2.aliasName = name → b.2.orgId = none := by
      intro b hb hbn
      rcases (mem_visible.mp hb).2.2 with hpublic | howned
      · exact hpublic
      · exact absurd ⟨b, hb, hbn, howned⟩ hown
    intro b hb hbn _
    exact visible_unique h hb he (hbn.trans hname.symm) ((hpublic b hb hbn).trans (hpublic e he hname).symm)

theorem effective_eq_some (h : TablesOk db) : db.effective name org = some e ↔ e ∈ db.visible org ∧ e.2.aliasName = name ∧
    ∀ b ∈ db.visible org, b.2.aliasName = name → OrgFirst b e → b = e := by
  unfold ControlDb.effective
  constructor
  · intro heff
    have hmem : e ∈ (db.visible org).filter fun e => decide (e.2.aliasName = name) :=
      (List.mem_insertionSort _).mp (List.mem_of_head? heff)
    simp only [List.mem_filter, decide_eq_true_eq] at hmem
    obtain ⟨a, ha, hn, hfirst⟩ := exists_first h hmem.1 hmem.2
    have hhead : (((db.visible org).filter fun e => decide (e.2.aliasName = name)).insertionSort OrgFirst).head? = some a := by
      rw [head?_eq_find?]
      refine find?_insertionSort (List.mem_filter.mpr ⟨ha, decide_eq_true hn⟩) rfl ?_
      intro b hb _ hba
      simp only [List.mem_filter, decide_eq_true_eq] at hb
      exact hfirst b hb.1 hb.2 hba
    obtain rfl := Option.some.inj (heff.symm.trans hhead)
    exact ⟨ha, hn, hfirst⟩
  · rintro ⟨he, hn, hfirst⟩
    rw [head?_eq_find?]
    refine find?_insertionSort (List.mem_filter.mpr ⟨he, decide_eq_true hn⟩) rfl ?_
    intro b hb _ hbe
    simp only [List.mem_filter, decide_eq_true_eq] at hb
    exact hfirst b hb.1 hb.2 hbe

/-- The rows that the listings take are the effective aliases of their names. -/
theorem mem_effectiveAll (h : TablesOk db) : e ∈ db.effectiveAll org ↔ db.effective e.2.aliasName org = some e := by
  have hcurrent : (db.visible org).filter (fun e => e.2.currentRevisionId.isSome) = db.visible org := by
    refine List.filter_eq_self.mpr ?_
    intro b hb
    obtain ⟨hrow, hactive, -⟩ := mem_visible.mp hb
    obtain ⟨revisionId, hr, -⟩ := h.current b.1 b.2 hrow hactive
    rw [hr]
    rfl
  have hbefore : ∀ a b : String × GatewayAlias, b.2.aliasName = a.2.aliasName → (ByName b a ↔ OrgFirst b a) := by
    intro a b hn
    simp [ByName, hn]
  rw [ControlDb.effectiveAll, hcurrent, mem_distinctOn, effective_eq_some h]
  constructor
  · intro hfind
    have hmem : e ∈ db.visible org := (List.mem_insertionSort _).mp (List.mem_of_find?_eq_some hfind)
    obtain ⟨a, ha, hn, hfirst⟩ := exists_first h hmem rfl
    have hfind' : ((db.visible org).insertionSort ByName).find? (fun b => decide (b.2.aliasName = e.2.aliasName)) = some a := by
      refine find?_insertionSort ha (decide_eq_true hn) ?_
      intro b hb hbn hba
      have hbn := of_decide_eq_true hbn
      exact hfirst b hb hbn ((hbefore a b (hbn.trans hn.symm)).mp hba)
    obtain rfl := Option.some.inj (hfind.symm.trans hfind')
    exact ⟨ha, rfl, hfirst⟩
  · rintro ⟨he, -, hfirst⟩
    refine find?_insertionSort he (decide_eq_true rfl) ?_
    intro b hb hbn hbe
    have hbn := of_decide_eq_true hbn
    exact hfirst b hb hbn ((hbefore e b hbn).mp hbe)

/-! ### Both sides -/

theorem mem_granted (h : TablesOk db) : e ∈ db.granted authority ↔ ∃ identity, authority.identityId = some identity ∧
    db.effective e.2.aliasName authority.orgId = some e ∧ db.Usable identity e := by
  unfold ControlDb.granted
  cases authority.identityId with
  | none => simp
  | some identity =>
      rw [List.mem_insertionSort, List.mem_filter, mem_effectiveAll h, decide_eq_true_eq]
      simp

theorem revisionOf_isSome (h : TablesOk db) (he : e ∈ db.visible org) : (db.revisionOf e.2).isSome := by
  obtain ⟨hrow, hactive, -⟩ := mem_visible.mp he
  obtain ⟨revisionId, hcurrent, hsome⟩ := h.current e.1 e.2 hrow hactive
  obtain ⟨revision, hrevision⟩ := Option.isSome_iff_exists.mp hsome
  simp [ControlDb.revisionOf, hcurrent, hrevision]

/-- What an identity may use under a name: the current revision of the effective alias. -/
theorem resolution_eq_some {resolution : String × AliasRevision} :
    db.resolution authority identity name = some resolution ↔
      ∃ e, db.effective name authority.orgId = some e ∧ db.Usable identity e ∧ db.revisionOf e.2 = some resolution := by
  simp only [ControlDb.resolution, Option.bind_eq_bind, Option.bind_eq_some_iff]
  constructor
  · rintro ⟨e, he, revision, hrevision, h⟩
    split_ifs at h with husable
    cases h
    exact ⟨e, he, husable, hrevision⟩
  · rintro ⟨e, he, husable, hrevision⟩
    exact ⟨e, he, resolution, hrevision, by rw [if_pos husable]⟩

theorem listed_iff (h : TablesOk db) {now : ℤ} {keyHash : String} : Listed db now keyHash name ↔
    ∃ authority, authenticate db now keyHash = .ok authority ∧ ∃ identity, authority.identityId = some identity ∧
      ∃ resolution, db.resolution authority identity name = some resolution := by
  simp only [Listed, grantedAliases, bind_eq_ok, pure_eq_ok]
  constructor
  · rintro ⟨-, ⟨authority, hauth, rfl⟩, hname⟩
    obtain ⟨e, he, rfl⟩ := List.mem_map.mp hname
    obtain ⟨identity, hidentity, heff, husable⟩ := (mem_granted h).mp he
    obtain ⟨resolution, hrevision⟩ :=
      Option.isSome_iff_exists.mp (revisionOf_isSome h ((effective_eq_some h).mp heff).1)
    exact ⟨authority, hauth, identity, hidentity, resolution, resolution_eq_some.mpr ⟨e, heff, husable, hrevision⟩⟩
  · rintro ⟨authority, hauth, identity, hidentity, resolution, hresolution⟩
    obtain ⟨e, heff, husable, -⟩ := resolution_eq_some.mp hresolution
    have hname : e.2.aliasName = name := ((effective_eq_some h).mp heff).2.1
    subst hname
    exact ⟨_, ⟨authority, hauth, rfl⟩, List.mem_map.mpr ⟨e, (mem_granted h).mpr ⟨identity, hidentity, heff, husable⟩, rfl⟩⟩

theorem authorized_iff (hlive : clock.monotonic < r.deadlineMonotonic) {snapshot : AuthorizationSnapshot} :
    authorizeRequest contracts db clock r = .ok snapshot ↔
      (artifactIdPattern r.aliasName = true ∧ r.aliasName.length ≤ 128) ∧
        ∃ authority, authenticate db clock.now r.keyHash = .ok authority ∧ ∃ identity, authority.identityId = some identity ∧
          ∃ resolution, db.resolution authority identity r.aliasName = some resolution ∧
            ∃ target, aliasTarget contracts resolution.2.target = .ok target ∧
              contracts.snapshot (snapshotOf authority identity r resolution.1 resolution.2 target) = true ∧
                snapshotOf authority identity r resolution.1 resolution.2 target = snapshot := by
  simp only [authorizeRequest, snapshotFromResolution, bind_eq_ok, ensure_eq_ok, require_eq_ok, pure_eq_ok, exists_and_left,
    exists_const, hlive, true_and]

/-- An authorized name is listed with the revision and the catalog of the authority, and with no other. -/
theorem same_authority (h : TablesOk db) (hlive : clock.monotonic < r.deadlineMonotonic) {snapshot : AuthorizationSnapshot}
    (hsnapshot : authorizeRequest contracts db clock r = .ok snapshot) :
    ∃ authorities, grantedAliasAuthorities db clock.now r.keyHash = .ok authorities ∧
      ∀ revisionId catalogSha256, (r.aliasName, revisionId, catalogSha256) ∈ authorities ↔
        revisionId = snapshot.aliasRevisionId ∧ catalogSha256 = snapshot.catalogSha256 := by
  obtain ⟨-, authority, hauth, identity, hidentity, resolution, hresolution, target, -, -, rfl⟩ :=
    (authorized_iff hlive).mp hsnapshot
  obtain ⟨e, heff, husable, hrevision⟩ := resolution_eq_some.mp hresolution
  have hname : e.2.aliasName = r.aliasName := ((effective_eq_some h).mp heff).2.1
  have hgranted : e ∈ db.granted authority :=
    (mem_granted h).mpr ⟨identity, hidentity, by rw [hname]; exact heff, husable⟩
  refine ⟨(db.granted authority).filterMap fun e =>
    (db.revisionOf e.2).map fun revision => (e.2.aliasName, revision.1, revision.2.catalogSha256), ?_, ?_⟩
  · simp [grantedAliasAuthorities, hauth, bind, Except.bind, pure, Except.pure]
  · intro revisionId catalogSha256
    rw [List.mem_filterMap]
    constructor
    · rintro ⟨e', he', hentry⟩
      obtain ⟨revision, hrevision', heq⟩ := Option.map_eq_some_iff.mp hentry
      simp only [Prod.mk.injEq] at heq
      obtain ⟨hname', rfl, rfl⟩ := heq
      obtain ⟨-, -, heff', -⟩ := (mem_granted h).mp he'
      rw [hname', heff, Option.some.injEq] at heff'
      subst heff'
      obtain rfl := Option.some.inj (hrevision.symm.trans hrevision')
      exact ⟨rfl, rfl⟩
    · rintro ⟨rfl, rfl⟩
      refine ⟨e, hgranted, ?_⟩
      rw [hrevision, Option.map_some, hname]
      rfl

/-- **Listing and authorization.** -/
theorem listing_iff (contracts : Contracts) (calls : List ControlCall) (clock : GatewayClock) (r : AuthorizeArgs)
    (hlive : clock.monotonic < r.deadlineMonotonic) :
    Agrees contracts (run controlStep ControlDb.empty calls) clock r ↔
      Conforms contracts (run controlStep ControlDb.empty calls) clock r := by
  have h := tablesOk_run calls
  generalize run controlStep ControlDb.empty calls = db at h ⊢
  constructor
  · intro hagrees
    unfold Conforms
    cases hauth : authenticate db clock.now r.keyHash with
    | error e => trivial
    | ok authority =>
        intro identity hidentity resolution hresolution
        have hlisted := (listed_iff h).mpr ⟨authority, hauth, identity, hidentity, resolution, hresolution⟩
        obtain ⟨snapshot, hsnapshot⟩ := hagrees.listed.mp hlisted
        obtain ⟨hname, authority', hauth', identity', hidentity', resolution', hresolution', target, htarget, hok, -⟩ :=
          (authorized_iff hlive).mp hsnapshot
        -- the same key, identity and resolution on both sides
        cases hauth.symm.trans hauth'
        cases (Option.mem_def.mp hidentity).symm.trans hidentity'
        cases (Option.mem_def.mp hresolution).symm.trans hresolution'
        exact ⟨hname, target, toOption_eq_some.mpr htarget, hok⟩
  · intro hconforms
    refine ⟨⟨?_, ?_⟩, ?_⟩
    · intro hlisted
      obtain ⟨authority, hauth, identity, hidentity, resolution, hresolution⟩ := (listed_iff h).mp hlisted
      unfold Conforms at hconforms
      rw [hauth] at hconforms
      obtain ⟨hname, target, htarget, hok⟩ := hconforms identity hidentity resolution hresolution
      exact ⟨_, (authorized_iff hlive).mpr ⟨hname, authority, hauth, identity, hidentity, resolution, hresolution, target,
        toOption_eq_some.mp htarget, hok, rfl⟩⟩
    · rintro ⟨snapshot, hsnapshot⟩
      obtain ⟨-, authority, hauth, identity, hidentity, resolution, hresolution, -⟩ := (authorized_iff hlive).mp hsnapshot
      exact (listed_iff h).mpr ⟨authority, hauth, identity, hidentity, resolution, hresolution⟩
    · exact fun snapshot => same_authority h hlive

end

def sampleOrg : Uuid := ⟨"00000000-0000-0000-0000-0000000000a1", by decide⟩

def sampleKey : ApiKey := ⟨⟨"00000000-0000-0000-0000-0000000000b1", by decide⟩, sampleOrg, "hash-1", none, none, some "ann"⟩

/-- A public alias of the name, and a private one of the same name. -/
def sampleCalls (name : String) : List ControlCall :=
  let content (pool : String) : RevisionContent := ⟨⟨AList.insert "kind" (.string "direct") (AList.insert "pool_id" (.string pool) ∅)⟩,
    "sha", "\x7b\x7d", none, false⟩
  [.write [("ann", "own")] [sampleKey] [sampleOrg] ["sha"],
    .activate ⟨"public", name, none, "rev-1", content "pool-1"⟩,
    .activate ⟨"own", name, some sampleOrg, "rev-2", content "pool-2"⟩]

def sampleRequest (name : String) : AuthorizeArgs :=
  ⟨"hash-1", name, 10, none, none, "request-1", "chat_completions", "digest", "operation"⟩

theorem listing_iff_sample : Agrees ⟨fun _ => true, fun _ => true⟩
    (run controlStep ControlDb.empty (sampleCalls "gpt-5")) ⟨0, 0⟩ (sampleRequest "gpt-5") :=
  (listing_iff _ (sampleCalls "gpt-5") ⟨0, 0⟩ (sampleRequest "gpt-5") (by decide)).mpr (by decide +kernel)

/-- The slug of a model may end in a point, and then it is listed and never authorized. -/
theorem listed_never_authorized :
    ¬ ∀ contracts calls clock r, clock.monotonic < r.deadlineMonotonic →
      Agrees contracts (run controlStep ControlDb.empty calls) clock r := by
  intro hall
  have h := (hall ⟨fun _ => true, fun _ => true⟩ (sampleCalls "gpt-5.") ⟨0, 0⟩ (sampleRequest "gpt-5.") (by decide)).listed
  have hlisted : Listed (run controlStep ControlDb.empty (sampleCalls "gpt-5.")) 0 "hash-1" "gpt-5." :=
    ⟨["gpt-5."], by decide +kernel, by decide⟩
  obtain ⟨snapshot, hsnapshot⟩ := h.mp hlisted
  have hrefused : authorizeRequest ⟨fun _ => true, fun _ => true⟩
      (run controlStep ControlDb.empty (sampleCalls "gpt-5.")) ⟨0, 0⟩ (sampleRequest "gpt-5.") =
        .error (.aliasNotGranted aliasNotGrantedMessage) := by decide +kernel
  rw [hrefused] at hsnapshot
  cases hsnapshot

end Experiential.Control
