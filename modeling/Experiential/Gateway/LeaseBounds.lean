import Experiential.Gateway.LeaseShadow

/-! # What the lease shadow admits

Between two grants a lease admits no more than was granted, and the admissions of a key in a minute are bounded by its
limit, as far as its window goes back: a refresh that finds no lease of the key forgets them. Every invariant is about
the records of a run and says what the leases and the windows hold of them (`ShadowOk`). -/

namespace Experiential.Gateway

/-! ### Reading a history -/

/-- What the key's lease admitted since it was granted. -/
def spent (key : LeaseKey) : List LeaseRecord → ℤ
  | [] => 0
  | .admitted k cost _ _ :: h => if k = key then cost + spent key h else spent key h
  | .granted k _ _ :: h => if k = key then 0 else spent key h
  | .forgotten _ :: h => spent key h

/-- The key's last grant, and the budget that remained then. -/
def lastGrant (key : LeaseKey) : List LeaseRecord → Option (ℤ × ℤ)
  | [] => none
  | .granted k amount remaining :: h => if k = key then some (amount, remaining) else lastGrant key h
  | .admitted _ _ _ _ :: h => lastGrant key h
  | .forgotten _ :: h => lastGrant key h

/-- The times of the API key's admissions under a limit, since they were last forgotten. -/
def stamps (apiKeyId : String) : List LeaseRecord → List ℚ
  | [] => []
  | .admitted k _ rpm now :: h =>
      if k.apiKeyId = apiKeyId ∧ rpm.isSome then stamps apiKeyId h ++ [now] else stamps apiKeyId h
  | .granted _ _ _ :: h => stamps apiKeyId h
  | .forgotten a :: h => if a = apiKeyId then [] else stamps apiKeyId h

/-- Those of the last minute. -/
def recent (apiKeyId : String) (now : ℚ) (h : List LeaseRecord) : List ℚ :=
  (stamps apiKeyId h).filter fun t => decide (now - 60 < t)

/-- Every admission under a limit leaves the band below the limit, or is the only one. -/
def RatesKept (c : LeaseShadowConfig) (history : List LeaseRecord) : Prop :=
  ∀ later key cost (rpm : ℤ) now earlier, history = later ++ .admitted key cost (some rpm) now :: earlier →
    ((recent key.apiKeyId now earlier).length + 1 : ℚ) ≤ max 1 (rpm * c.rateHeadroom)

/-- The report adds up. -/
structure Counted (s : ShadowStats) : Prop where
  samples : s.samples = s.verdictCounts.total
  comparable : s.comparable = s.agreements + s.divergenceCount
  nodup : s.verdictCounts.keys.Nodup

/-! ### Counters -/

theorem Counted.zero : Counted .zero := ⟨rfl, rfl, List.nodup_nil⟩

theorem Counted.compare {s : ShadowStats} (h : Counted s) (c : LeaseShadowConfig) (o : Observation) :
    Counted (s.compare c o) := by
  have hcomparable := h.comparable
  unfold ShadowStats.compare
  dsimp only
  split_ifs <;> exact ⟨h.samples, by dsimp only; omega, h.nodup⟩

theorem Counted.observe {s : ShadowStats} (h : Counted s) (c : LeaseShadowConfig) (o : Observation) :
    Counted (s.observe c o) := by
  have hsum : s.samples + 1 = (s.verdictCounts.addAt o.verdict 1).total := by
    rw [OrderedDict.total_addAt h.nodup, h.samples]
  have hnodup : (s.verdictCounts.addAt o.verdict 1).keys.Nodup := OrderedDict.nodup_keys_set h.nodup
  unfold ShadowStats.observe
  dsimp only
  split_ifs
  · exact ⟨hsum, h.comparable, hnodup⟩
  · exact ⟨hsum, h.comparable, hnodup⟩
  · exact ⟨hsum, h.comparable, hnodup⟩
  · refine Counted.compare ?_ c o
    exact ⟨hsum, h.comparable, hnodup⟩

/-! ### Amounts -/

theorem truncated_le (x : ℚ) : (truncated x : ℚ) ≤ max x 0 := by
  unfold truncated
  split_ifs with h
  · exact (Int.floor_le x).trans (le_max_left x 0)
  · have hneg : ⌈x⌉ ≤ 0 := Int.ceil_le.mpr (by push_cast; exact (not_le.mp h).le)
    exact le_trans (by exact_mod_cast hneg) (le_max_right x 0)

theorem grantOf_le (c : LeaseShadowConfig) (remaining : ℤ) :
    grantOf c remaining ≤ max c.leaseCapMicroUsd 0 ∧ (grantOf c remaining : ℚ) ≤ max (c.leaseFraction * remaining) 0 := by
  refine ⟨max_le_max (min_le_left _ _) le_rfl, ?_⟩
  have hle : (min c.leaseCapMicroUsd (truncated (remaining * c.leaseFraction)) : ℤ) ≤
      truncated (remaining * c.leaseFraction) := min_le_right _ _
  have hfraction := truncated_le (remaining * c.leaseFraction)
  rw [grantOf, Int.cast_max, Int.cast_zero, mul_comm c.leaseFraction]
  refine max_le (le_trans ?_ hfraction) (le_max_right _ _)
  exact_mod_cast hle

/-- The amounts of a lease. -/
def Lease.amounts (l : Lease) : ℤ × ℤ × ℤ := (l.grantedMicroUsd, l.consumedMicroUsd, l.remainingAtGrantMicroUsd)

def amountsAt (leases : OrderedDict LeaseKey Lease) (key : LeaseKey) : Option (ℤ × ℤ × ℤ) :=
  (leases.get? key).map Lease.amounts

def windowOf (windows : OrderedDict String (List ℚ)) (a : String) : List ℚ := (windows.get? a).getD []

/-- The windows but for what has left them. -/
structure Pruned (now : ℚ) (windows windows' : OrderedDict String (List ℚ)) : Prop where
  dropped : ∀ a, ∃ old, windowOf windows a = old ++ windowOf windows' a ∧ ∀ t ∈ old, t ≤ now - 60
  none_iff : ∀ a, windows'.get? a = none ↔ windows.get? a = none

theorem Pruned.refl (now : ℚ) (windows : OrderedDict String (List ℚ)) : Pruned now windows windows :=
  ⟨fun _ => ⟨[], rfl, nofun⟩, fun _ => Iff.rfl⟩

section windows
variable {c : LeaseShadowConfig} {windows : OrderedDict String (List ℚ)} {a : String} {rpm : Option ℤ} {now : ℚ}

theorem windowOf_set {b : String} {l : List ℚ} :
    windowOf (windows.set b l) a = if a = b then l else windowOf windows a := by
  rw [windowOf, OrderedDict.get?_set]
  split_ifs <;> rfl

theorem rateLimited_pruned : Pruned now windows (rateLimited c windows a rpm now).2 := by
  unfold rateLimited
  split
  · exact .refl now windows
  · split
    · exact .refl now windows
    · rename_i stamps hstamps
      refine ⟨fun b => ?_, fun b => ?_⟩
      · rw [windowOf_set]
        split_ifs with hb
        · subst hb
          refine ⟨stamps.takeWhile fun t => decide (t ≤ now - 60), ?_, fun t ht => ?_⟩
          · rw [windowOf, hstamps]
            exact (List.takeWhile_append_dropWhile).symm
          · simpa using List.mem_takeWhile_imp ht
        · exact ⟨[], rfl, nofun⟩
      · rw [OrderedDict.get?_set]
        split_ifs with hb
        · subst hb
          simp [hstamps]
        · exact Iff.rfl

/-- A key that is not limited has no window, or room in its band. -/
theorem room_of_rateLimited {r : ℤ} (h : (rateLimited c windows a (some r) now).1 = false) :
    windows.get? a = none ∨
      ((windowOf (rateLimited c windows a (some r) now).2 a).length + 1 : ℚ) ≤ r * c.rateHeadroom := by
  unfold rateLimited at h ⊢
  cases hstamps : windows.get? a with
  | none => exact .inl rfl
  | some stamps =>
    rw [hstamps] at h
    refine .inr ?_
    dsimp only at h ⊢
    rw [windowOf_set, if_pos rfl]
    simpa using h

end windows

/-! ### Decisions -/

section decisions
variable {c : LeaseShadowConfig} {s : LeaseShadow} {key : LeaseKey} {lease : Lease} {cost : ℤ} {now : ℚ}

theorem amountsAt_set {leases : OrderedDict LeaseKey Lease} {k k' : LeaseKey} {l : Lease} :
    amountsAt (leases.set k l) k' = if k' = k then some l.amounts else amountsAt leases k' := by
  rw [amountsAt, OrderedDict.get?_set]
  split_ifs <;> rfl

/-- A call that admits nothing leaves the amounts, and takes from the windows only what has left them. -/
structure Unchanged (now : ℚ) (s s' : LeaseShadow) : Prop where
  amounts : ∀ k, amountsAt s'.leases k = amountsAt s.leases k
  windows : Pruned now s.rpmWindows s'.rpmWindows
  stats : s'.stats = s.stats

theorem Unchanged.refl (now : ℚ) (s : LeaseShadow) : Unchanged now s s := ⟨fun _ => rfl, .refl _ _, rfl⟩

/-- An admission fits its lease and its band, is added to the lease, and is recorded under a limit. -/
structure AdmittedBy (c : LeaseShadowConfig) (now : ℚ) (s s' : LeaseShadow) (key : LeaseKey) (lease : Lease) (cost : ℤ) :
    Prop where
  fits : lease.consumedMicroUsd + cost ≤ lease.grantedMicroUsd
  amounts : ∀ k, amountsAt s'.leases k =
    if k = key then some (lease.grantedMicroUsd, lease.consumedMicroUsd + cost, lease.remainingAtGrantMicroUsd)
    else amountsAt s.leases k
  windows : ∃ windows, Pruned now s.rpmWindows windows ∧
    s'.rpmWindows = recorded windows key.apiKeyId lease.requestsPerMinute now ∧
    ∀ r, lease.requestsPerMinute = some r → s.rpmWindows.get? key.apiKeyId = none ∨
      ((windowOf windows key.apiKeyId).length + 1 : ℚ) ≤ r * c.rateHeadroom
  stats : s'.stats = s.stats

theorem admitAgainst_cases (c : LeaseShadowConfig) (s : LeaseShadow) (key : LeaseKey) (lease : Lease) (cost : ℤ) (now : ℚ) :
    ((admitAgainst c s key lease cost now).1.1 ≠ .admits ∧ Unchanged now s (admitAgainst c s key lease cost now).2) ∨
    (admitAgainst c s key lease cost now).1.1 = .admits ∧
      AdmittedBy c now s (admitAgainst c s key lease cost now).2 key lease cost := by
  have hpruned : Unchanged now s
      { s with rpmWindows := (rateLimited c s.rpmWindows key.apiKeyId lease.requestsPerMinute now).2 } :=
    ⟨fun _ => rfl, rateLimited_pruned, rfl⟩
  unfold admitAgainst
  dsimp only
  split_ifs with hexpired hexcluded hexhausted hfloor hlimited hspent
  · exact .inl ⟨nofun, .refl now s⟩
  · exact .inl ⟨nofun, .refl now s⟩
  · exact .inl ⟨nofun, .refl now s⟩
  · exact .inl ⟨nofun, .refl now s⟩
  · exact .inl ⟨nofun, hpruned⟩
  · exact .inl ⟨nofun, hpruned⟩
  · refine .inr ⟨rfl, not_lt.mp hspent, fun k => amountsAt_set, ?_, rfl⟩
    refine ⟨_, rateLimited_pruned, rfl, fun r hr => ?_⟩
    rw [hr] at hlimited ⊢
    exact room_of_rateLimited (by simpa using hlimited)

theorem decideLease_cases (c : LeaseShadowConfig) (s : LeaseShadow) (key : LeaseKey) (maxCost : Option ℤ) (now : ℚ) :
    ((decideLease c s key maxCost now).1.1 ≠ .admits ∧ Unchanged now s (decideLease c s key maxCost now).2) ∨
    ∃ cost lease, maxCost = some cost ∧ s.leases.get? key = some lease ∧
      (decideLease c s key maxCost now).1.1 = .admits ∧ AdmittedBy c now s (decideLease c s key maxCost now).2 key lease cost := by
  unfold decideLease
  cases maxCost with
  | none => exact .inl ⟨nofun, .refl now s⟩
  | some cost =>
    dsimp only
    cases hlease : s.leases.get? key with
    | none =>
      refine .inl ⟨nofun, ?_⟩
      dsimp only
      split_ifs
      · exact ⟨fun _ => rfl, .refl _ _, rfl⟩
      · exact .refl now s
    | some lease =>
      dsimp only
      have hsame : ∀ k, amountsAt (s.leases.set key { lease with lastUsedMonotonic := now }) k = amountsAt s.leases k := by
        intro k
        rw [amountsAt_set]
        split_ifs with hk
        · rw [hk, amountsAt, hlease]
          rfl
        · rfl
      rcases admitAgainst_cases c { s with leases := s.leases.set key { lease with lastUsedMonotonic := now } } key
        { lease with lastUsedMonotonic := now } cost now with ⟨hverdict, hunchanged⟩ | ⟨hverdict, hadmitted⟩
      · exact .inl ⟨hverdict, fun k => (hunchanged.amounts k).trans (hsame k), hunchanged.windows, hunchanged.stats⟩
      · refine .inr ⟨cost, lease, rfl, rfl, hverdict, hadmitted.fits, fun k => ?_, hadmitted.windows, hadmitted.stats⟩
        rw [hadmitted.amounts k, hsame k]

end decisions

/-! ### Amounts along a history -/

/-- The leases hold what was granted and spent, and no grant is overspent. -/
structure LeasesOk (c : LeaseShadowConfig) (leases : OrderedDict LeaseKey Lease) (h : List LeaseRecord) : Prop where
  held : ∀ key amount consumed remaining, amountsAt leases key = some (amount, consumed, remaining) →
    lastGrant key h = some (amount, remaining) ∧ spent key h = consumed
  grants : ∀ key amount remaining, lastGrant key h = some (amount, remaining) →
    spent key h ≤ amount ∧ amount = grantOf c remaining
  ungranted : ∀ key, lastGrant key h = none → spent key h = 0

section leases
variable {c : LeaseShadowConfig} {leases leases' : OrderedDict LeaseKey Lease} {h : List LeaseRecord}

theorem LeasesOk.of_amounts (hok : LeasesOk c leases h)
    (hsame : ∀ key a, amountsAt leases' key = some a → amountsAt leases key = some a) : LeasesOk c leases' h where
  held key amount consumed remaining hget := hok.held key amount consumed remaining (hsame key _ hget)
  grants := hok.grants
  ungranted := hok.ungranted

theorem LeasesOk.admitted {key : LeaseKey} {lease : Lease} {cost : ℤ} {rpm : Option ℤ} {now : ℚ} (hok : LeasesOk c leases h)
    (hlease : leases.get? key = some lease) (hfits : lease.consumedMicroUsd + cost ≤ lease.grantedMicroUsd)
    (hamounts : ∀ k, amountsAt leases' k =
      if k = key then some (lease.grantedMicroUsd, lease.consumedMicroUsd + cost, lease.remainingAtGrantMicroUsd)
      else amountsAt leases k) :
    LeasesOk c leases' (.admitted key cost rpm now :: h) := by
  have hbefore : amountsAt leases key = some lease.amounts := by rw [amountsAt, hlease]; rfl
  obtain ⟨hgrant, hspent⟩ := hok.held key _ _ _ hbefore
  refine ⟨fun k amount consumed remaining hget => ?_, fun k amount remaining hlast => ?_, fun k hnone => ?_⟩
  · rw [hamounts] at hget
    rw [lastGrant, spent]
    split_ifs at hget with hk
    · subst hk
      cases hget
      rw [if_pos rfl, add_comm]
      exact ⟨hgrant, congrArg (· + cost) hspent⟩
    · rw [if_neg (Ne.symm hk)]
      exact hok.held k amount consumed remaining hget
  · rw [lastGrant] at hlast
    obtain ⟨hle, hamount⟩ := hok.grants k amount remaining hlast
    refine ⟨?_, hamount⟩
    rw [spent]
    split_ifs with hk
    · subst hk
      rw [hgrant] at hlast
      cases hlast
      omega
    · exact hle
  · rw [lastGrant] at hnone
    rw [spent, if_neg, hok.ungranted k hnone]
    rintro rfl
    exact absurd (hgrant.symm.trans hnone) nofun

theorem LeasesOk.granted (hok : LeasesOk c leases h) (grantedAt : ℚ) (e : LeaseKey × LeaseSourceState) :
    LeasesOk c (grantLease c grantedAt leases e) (grantRecord c e :: h) where
  held key amount consumed remaining hget := by
    rw [grantLease, amountsAt_set] at hget
    rw [grantRecord, lastGrant, spent]
    split_ifs at hget with hk
    · subst hk
      cases hget
      exact ⟨if_pos rfl, if_pos rfl⟩
    · rw [if_neg (Ne.symm hk), if_neg (Ne.symm hk)]
      exact hok.held key amount consumed remaining hget
  grants key amount remaining hlast := by
    rw [grantRecord, lastGrant] at hlast
    rw [grantRecord, spent]
    split_ifs at hlast ⊢ with hk
    · cases hlast
      exact ⟨le_max_right _ _, rfl⟩
    · exact hok.grants key amount remaining hlast
  ungranted key hnone := by
    rw [grantRecord, lastGrant] at hnone
    rw [grantRecord, spent]
    split_ifs at hnone ⊢
    exact hok.ungranted key hnone

theorem LeasesOk.granted_all (grantedAt : ℚ) : ∀ {states : List (LeaseKey × LeaseSourceState)}
    {leases : OrderedDict LeaseKey Lease} {h : List LeaseRecord}, LeasesOk c leases h →
    LeasesOk c (states.foldl (grantLease c grantedAt) leases) ((states.map (grantRecord c)).reverse ++ h)
  | [], _, _, hok => hok
  | e :: states, leases, h, hok => by
      rw [List.map_cons, List.reverse_cons, List.append_assoc]
      exact LeasesOk.granted_all grantedAt (hok.granted grantedAt e)

theorem LeasesOk.forgotten (hok : LeasesOk c leases h) : ∀ ks : List String, LeasesOk c leases (ks.map .forgotten ++ h)
  | [] => hok
  | _ :: ks => ⟨(hok.forgotten ks).held, (hok.forgotten ks).grants, (hok.forgotten ks).ungranted⟩

end leases

/-! ### Windows along a history -/

/-- The windows hold the stamps but for those that have left the minute before `t`. -/
structure WindowsOk (windows : OrderedDict String (List ℚ)) (h : List LeaseRecord) (t : ℚ) : Prop where
  held : ∀ a, ∃ old, stamps a h = old ++ windowOf windows a ∧ ∀ x ∈ old, x ≤ t - 60
  unrecorded : ∀ a, windows.get? a = none → stamps a h = []

section windows
variable {c : LeaseShadowConfig} {windows windows' : OrderedDict String (List ℚ)} {h : List LeaseRecord} {t now : ℚ}

theorem WindowsOk.later (hok : WindowsOk windows h t) (hle : t ≤ now) : WindowsOk windows h now := by
  refine ⟨fun a => ?_, hok.unrecorded⟩
  obtain ⟨old, hold, hleft⟩ := hok.held a
  exact ⟨old, hold, fun x hx => (hleft x hx).trans (by linarith)⟩

theorem WindowsOk.pruned (hok : WindowsOk windows h now) (hpruned : Pruned now windows windows') :
    WindowsOk windows' h now := by
  refine ⟨fun a => ?_, fun a hnone => hok.unrecorded a ((hpruned.none_iff a).mp hnone)⟩
  obtain ⟨old, hold, hleft⟩ := hok.held a
  obtain ⟨dropped, hdropped, hleft'⟩ := hpruned.dropped a
  refine ⟨old ++ dropped, ?_, List.forall_mem_append.mpr ⟨hleft, hleft'⟩⟩
  rw [hold, hdropped, List.append_assoc]

/-- An admission under a limit stands last in the window of its API key. -/
theorem WindowsOk.recorded (hok : WindowsOk windows h now) (key : LeaseKey) (cost : ℤ) (rpm : Option ℤ) :
    WindowsOk (recorded windows key.apiKeyId rpm now) (.admitted key cost rpm now :: h) now := by
  rw [Gateway.recorded]
  by_cases hrpm : rpm.isSome
  · rw [if_pos hrpm]
    refine ⟨fun a => ?_, fun a hnone => ?_⟩
    · obtain ⟨old, hold, hleft⟩ := hok.held a
      refine ⟨old, ?_, hleft⟩
      rw [stamps, windowOf_set]
      by_cases ha : key.apiKeyId = a
      · subst ha
        rw [if_pos ⟨rfl, hrpm⟩, if_pos rfl, hold, List.append_assoc]
        rfl
      · rw [if_neg fun hboth => ha hboth.1, if_neg (Ne.symm ha)]
        exact hold
    · rw [OrderedDict.get?_set] at hnone
      split_ifs at hnone with ha
      rw [stamps, if_neg fun hboth => ha hboth.1.symm]
      exact hok.unrecorded a hnone
  · rw [if_neg hrpm]
    refine ⟨fun a => ?_, fun a hnone => ?_⟩
    · rw [stamps, if_neg fun hboth => hrpm hboth.2]
      exact hok.held a
    · rw [stamps, if_neg fun hboth => hrpm hboth.2]
      exact hok.unrecorded a hnone

theorem stamps_granted (a : String) (h : List LeaseRecord) : ∀ states : List (LeaseKey × LeaseSourceState),
    stamps a (states.map (grantRecord c) ++ h) = stamps a h
  | [] => rfl
  | _ :: states => stamps_granted a h states

theorem stamps_forgotten (a : String) (h : List LeaseRecord) : ∀ ks : List String,
    stamps a (ks.map .forgotten ++ h) = if a ∈ ks then [] else stamps a h
  | [] => rfl
  | k :: ks => by
      rw [List.map_cons, List.cons_append, stamps, stamps_forgotten a h ks]
      by_cases hk : k = a
      · rw [if_pos hk, if_pos (hk ▸ List.mem_cons_self)]
      · have hiff : a ∈ k :: ks ↔ a ∈ ks := by simp [Ne.symm hk]
        rw [if_neg hk, if_congr hiff rfl rfl]

/-- The windows of the API keys without a lease are forgotten. -/
theorem WindowsOk.forgotten (hok : WindowsOk windows h t) (live : List String) :
    WindowsOk ⟨windows.entries.filter fun e => decide (e.1 ∈ live)⟩
      ((windows.keys.filter fun k => decide (k ∉ live)).map .forgotten ++ h) t := by
  -- an API key that is neither forgotten nor live has no window
  have hnone : ∀ a, a ∉ windows.keys.filter (fun k => decide (k ∉ live)) → a ∉ live → windows.get? a = none := by
    intro a hkept hdead
    have habsent : a ∉ windows.keys := fun hmem => hkept (List.mem_filter.mpr ⟨hmem, by simpa using hdead⟩)
    rwa [← OrderedDict.isSome_get?, Option.not_isSome_iff_eq_none] at habsent
  refine ⟨fun a => ?_, fun a ha => ?_⟩
  · rw [stamps_forgotten, windowOf, OrderedDict.get?_filter_keys fun k => k ∈ live]
    by_cases hforgotten : a ∈ windows.keys.filter fun k => decide (k ∉ live)
    · have hdead : a ∉ live := by simpa using (List.mem_filter.mp hforgotten).2
      rw [if_pos hforgotten, if_neg hdead]
      exact ⟨[], rfl, nofun⟩
    · rw [if_neg hforgotten]
      by_cases hlive : a ∈ live
      · rw [if_pos hlive]
        exact hok.held a
      · rw [if_neg hlive, hok.unrecorded a (hnone a hforgotten hlive)]
        exact ⟨[], rfl, nofun⟩
  · rw [OrderedDict.get?_filter_keys fun k => k ∈ live] at ha
    rw [stamps_forgotten]
    split_ifs with hforgotten
    · rfl
    · by_cases hlive : a ∈ live
      · rw [if_pos hlive] at ha
        exact hok.unrecorded a ha
      · exact hok.unrecorded a (hnone a hforgotten hlive)

end windows

/-! ### Rates along a history -/

section rates
variable {c : LeaseShadowConfig} {windows : OrderedDict String (List ℚ)} {h : List LeaseRecord} {now : ℚ}

theorem WindowsOk.length_recent_le (hok : WindowsOk windows h now) (a : String) :
    (recent a now h).length ≤ (windowOf windows a).length := by
  obtain ⟨old, hold, hleft⟩ := hok.held a
  have hnone : (old.filter fun x => decide (now - 60 < x)) = [] :=
    List.filter_eq_nil_iff.mpr fun x hx => by simpa using hleft x hx
  rw [recent, hold, List.filter_append, hnone, List.nil_append]
  exact List.length_filter_le _ _

theorem RatesKept.cons {e : LeaseRecord} (hrates : RatesKept c h)
    (he : ∀ key cost (rpm : ℤ) now, e = .admitted key cost (some rpm) now →
      ((recent key.apiKeyId now h).length + 1 : ℚ) ≤ max 1 (rpm * c.rateHeadroom)) : RatesKept c (e :: h) := by
  intro later key cost rpm now earlier hsplit
  cases later with
  | nil =>
    obtain ⟨rfl, rfl⟩ := List.cons.inj hsplit
    exact he key cost rpm now rfl
  | cons e' later => exact hrates later key cost rpm now earlier (List.cons.inj hsplit).2

theorem RatesKept.append (hrates : RatesKept c h) : ∀ {records : List LeaseRecord},
    (∀ e ∈ records, ∀ key cost rpm now, e ≠ .admitted key cost rpm now) → RatesKept c (records ++ h)
  | [], _ => hrates
  | e :: records, hnone => by
      rw [List.forall_mem_cons] at hnone
      have hrest : RatesKept c (records ++ h) := RatesKept.append hrates hnone.2
      exact hrest.cons fun key cost rpm now he => absurd he (hnone.1 key cost (some rpm) now)

end rates

/-! ### The invariant -/

/-- The leases, the windows and the counts are those of the history. -/
structure ShadowOk (c : LeaseShadowConfig) (r : ShadowRun) (t : ℚ) : Prop where
  leases : LeasesOk c r.shadow.leases r.history
  windows : WindowsOk r.shadow.rpmWindows r.history t
  rates : RatesKept c r.history
  stats : Counted r.shadow.stats

section invariant
variable {c : LeaseShadowConfig} {s s' : LeaseShadow} {h : List LeaseRecord} {t now : ℚ}

theorem ShadowOk.new (c : LeaseShadowConfig) (t : ℚ) : ShadowOk c ⟨.new, []⟩ t where
  leases := ⟨nofun, nofun, fun _ _ => rfl⟩
  windows := ⟨fun _ => ⟨[], rfl, nofun⟩, fun _ _ => rfl⟩
  rates := by
    intro later key cost rpm now earlier h
    simp at h
  stats := Counted.zero

theorem ShadowOk.unchanged (hok : ShadowOk c ⟨s, h⟩ now) (hsame : Unchanged now s s') : ShadowOk c ⟨s', h⟩ now where
  leases := hok.leases.of_amounts fun key a ha => by rwa [← hsame.amounts]
  windows := hok.windows.pruned hsame.windows
  rates := hok.rates
  stats := by
    rw [hsame.stats]
    exact hok.stats

theorem ShadowOk.admitted {key : LeaseKey} {lease : Lease} {cost : ℤ} (hok : ShadowOk c ⟨s, h⟩ now)
    (hlease : s.leases.get? key = some lease) (hadmitted : AdmittedBy c now s s' key lease cost) :
    ShadowOk c ⟨s', .admitted key cost lease.requestsPerMinute now :: h⟩ now := by
  obtain ⟨windows, hpruned, hrecorded, hroom⟩ := hadmitted.windows
  have hwindows : WindowsOk windows h now := hok.windows.pruned hpruned
  refine ⟨hok.leases.admitted hlease hadmitted.fits hadmitted.amounts, ?_, hok.rates.cons ?_, ?_⟩
  · dsimp only
    rw [hrecorded]
    exact hwindows.recorded key cost lease.requestsPerMinute
  · rintro key' cost' rpm now' he
    obtain ⟨rfl, rfl, hrpm, rfl⟩ := LeaseRecord.admitted.inj he
    rcases hroom rpm hrpm with hnone | hroom
    · have hempty : recent key.apiKeyId now h = [] := by
        rw [recent, hok.windows.unrecorded _ hnone]
        rfl
      rw [hempty]
      simp
    · have hcast : ((recent key.apiKeyId now h).length : ℚ) ≤ (windowOf windows key.apiKeyId).length := by
        exact_mod_cast hwindows.length_recent_le key.apiKeyId
      exact le_max_of_le_right (by linarith)
  · rw [hadmitted.stats]
    exact hok.stats

/-! ### Steps -/

theorem admissionOf_of_ne {key : LeaseKey} {maxCost : Option ℤ} {verdict : ShadowVerdict} (hne : verdict ≠ .admits) :
    admissionOf s key maxCost now verdict = [] := by
  cases verdict with
  | admits => exact absurd rfl hne
  | deny => rfl
  | syncFallback => rfl

theorem ShadowOk.decide (hok : ShadowOk c ⟨s, h⟩ now) (key : LeaseKey) (maxCost : Option ℤ) :
    ShadowOk c (shadowStep c ⟨s, h⟩ (.decide key maxCost now)) now := by
  rw [shadowStep]
  rcases decideLease_cases c s key maxCost now with ⟨hverdict, hsame⟩ | ⟨cost, lease, rfl, hlease, hverdict, hadmitted⟩
  · rw [admissionOf_of_ne hverdict]
    exact hok.unchanged hsame
  · have hrecord : admissionOf s key (some cost) now (decideLease c s key (some cost) now).1.1 =
        [.admitted key cost lease.requestsPerMinute now] := by
      rw [hverdict]
      simp only [admissionOf, hlease]
    rw [hrecord]
    exact hok.admitted hlease hadmitted

theorem ShadowOk.drop (hok : ShadowOk c ⟨s, h⟩ t) (arrange : List LeaseKey → List LeaseKey) :
    ShadowOk c ⟨dropLeases c arrange s, h⟩ t := by
  refine ⟨hok.leases.of_amounts fun key a ha => ?_, hok.windows, hok.rates, hok.stats⟩
  rw [amountsAt, dropLeases, OrderedDict.get?_filter_keys fun k => k ∈ rankedKeys c arrange s] at ha
  split_ifs at ha
  · exact ha
  · cases ha

theorem ShadowOk.grant (hok : ShadowOk c ⟨s, h⟩ t) (states : List (LeaseKey × LeaseSourceState)) (grantedAt : ℚ) :
    ShadowOk c (shadowStep c ⟨s, h⟩ (.grant states grantedAt)) t := by
  have hleases : LeasesOk c (states.foldl (grantLease c grantedAt) s.leases) ((states.map (grantRecord c)).reverse ++ h) :=
    hok.leases.granted_all grantedAt
  have hwindows : WindowsOk s.rpmWindows ((states.map (grantRecord c)).reverse ++ h) t := by
    have hstamps : ∀ a, stamps a ((states.map (grantRecord c)).reverse ++ h) = stamps a h := by
      intro a
      rw [← List.map_reverse, stamps_granted]
    refine ⟨fun a => ?_, fun a hnone => ?_⟩
    · rw [hstamps]
      exact hok.windows.held a
    · rw [hstamps]
      exact hok.windows.unrecorded a hnone
  refine ⟨hleases.forgotten _, hwindows.forgotten _, (hok.rates.append ?_).append ?_, hok.stats⟩
  · intro e he key cost rpm now
    obtain ⟨state, -, rfl⟩ := List.mem_map.mp (List.mem_reverse.mp he)
    exact nofun
  · intro e he key cost rpm now
    obtain ⟨k, -, rfl⟩ := List.mem_map.mp he
    exact nofun

theorem ShadowOk.step {r : ShadowRun} (hok : ShadowOk c r t) (e : ShadowEvent) (hclock : ∀ now ∈ e.clock, t ≤ now) :
    ShadowOk c (shadowStep c r e) (e.clock.getD t) := by
  obtain ⟨s, h⟩ := r
  have later : ∀ now, t ≤ now → ShadowOk c ⟨s, h⟩ now := fun now hle => { hok with windows := hok.windows.later hle }
  cases e with
  | decide key maxCost now => exact (later now (hclock now rfl)).decide key maxCost
  | observe o => exact { hok with stats := hok.stats.observe c o }
  | drop arrange => exact hok.drop arrange
  | grant states grantedAt => exact (later grantedAt (hclock grantedAt rfl)).grant states grantedAt

theorem ShadowOk.run : ∀ (events : List ShadowEvent) {r : ShadowRun} {t : ℚ}, ShadowOk c r t →
    (t :: events.filterMap ShadowEvent.clock).Pairwise (· ≤ ·) → ∃ t', ShadowOk c (run (shadowStep c) r events) t'
  | [], _, t, hok, _ => ⟨t, hok⟩
  | e :: events, r, t, hok, hclock => by
      rw [run_cons]
      cases he : e.clock with
      | none =>
        rw [List.filterMap_cons_none he] at hclock
        have hstep := hok.step e (by simp [he])
        rw [he] at hstep
        exact ShadowOk.run events hstep hclock
      | some now =>
        rw [List.filterMap_cons_some he, List.pairwise_cons] at hclock
        have hle : t ≤ now := hclock.1 now List.mem_cons_self
        have hstep := hok.step e (by simpa [he] using hle)
        rw [he] at hstep
        exact ShadowOk.run events hstep hclock.2

/-- A clock that does not go back starts somewhere. -/
theorem exists_shadowOk_run (c : LeaseShadowConfig) (events : List ShadowEvent)
    (hclock : (events.filterMap ShadowEvent.clock).Pairwise (· ≤ ·)) :
    ∃ t, ShadowOk c (Experiential.run (shadowStep c) ⟨.new, []⟩ events) t := by
  apply ShadowOk.run events (.new c ((events.filterMap ShadowEvent.clock).headD 0))
  cases htimes : events.filterMap ShadowEvent.clock with
  | nil => exact List.pairwise_singleton _ _
  | cons now times =>
    rw [htimes] at hclock
    refine List.pairwise_cons.mpr ⟨fun later hlater => ?_, hclock⟩
    rcases List.mem_cons.mp hlater with rfl | hlater
    · exact le_rfl
    · exact (List.pairwise_cons.mp hclock).1 later hlater

theorem RatesKept.limit (hrates : RatesKept c h) (hheadroom : c.rateHeadroom ≤ 1) {later earlier : List LeaseRecord}
    {key : LeaseKey} {cost rpm : ℤ} (hsplit : h = later ++ .admitted key cost (some rpm) now :: earlier) (hrpm : 1 ≤ rpm) :
    (recent key.apiKeyId now earlier).length + 1 ≤ rpm := by
  have hone : (1 : ℚ) ≤ rpm := by exact_mod_cast hrpm
  have hband : (rpm : ℚ) * c.rateHeadroom ≤ rpm := mul_le_of_le_one_right (by linarith) hheadroom
  have hle := (hrates later key cost rpm now earlier hsplit).trans (max_le hone hband)
  exact_mod_cast hle

end invariant

/-- **The lease shadow admits within its grants and limits.** -/
theorem lease_shadow_bounded (c : LeaseShadowConfig) (events : List ShadowEvent)
    (hclock : (events.filterMap ShadowEvent.clock).Pairwise (· ≤ ·)) :
    let r := run (shadowStep c) ⟨.new, []⟩ events
    (∀ key lease, r.shadow.leases.get? key = some lease → lease.consumedMicroUsd ≤ lease.grantedMicroUsd) ∧
    (∀ key amount remaining, lastGrant key r.history = some (amount, remaining) →
      spent key r.history ≤ amount ∧ amount ≤ max c.leaseCapMicroUsd 0 ∧
        (amount : ℚ) ≤ max (c.leaseFraction * remaining) 0) ∧
    (∀ key, lastGrant key r.history = none → spent key r.history = 0) ∧
    (∀ later key cost (rpm : ℤ) now earlier, r.history = later ++ .admitted key cost (some rpm) now :: earlier →
      ((recent key.apiKeyId now earlier).length + 1 : ℚ) ≤ max 1 (rpm * c.rateHeadroom) ∧
        (c.rateHeadroom ≤ 1 → 1 ≤ rpm → (recent key.apiKeyId now earlier).length + 1 ≤ rpm)) ∧
    r.shadow.stats.samples = r.shadow.stats.verdictCounts.total ∧
    r.shadow.stats.comparable = r.shadow.stats.agreements + r.shadow.stats.divergenceCount := by
  obtain ⟨t, hok⟩ := exists_shadowOk_run c events hclock
  refine ⟨fun key lease hlease => ?_, fun key amount remaining hlast => ?_, hok.leases.ungranted, ?_, hok.stats.samples,
    hok.stats.comparable⟩
  · have hamounts : amountsAt (run (shadowStep c) ⟨.new, []⟩ events).shadow.leases key = some lease.amounts := by
      rw [amountsAt, hlease]
      rfl
    obtain ⟨hlast, hspent⟩ := hok.leases.held key _ _ _ hamounts
    rw [← hspent]
    exact (hok.leases.grants key _ _ hlast).1
  · obtain ⟨hle, hamount⟩ := hok.leases.grants key amount remaining hlast
    rw [hamount] at hle ⊢
    exact ⟨hle, grantOf_le c remaining⟩
  · intro later key cost rpm now earlier hsplit
    exact ⟨hok.rates later key cost rpm now earlier hsplit, fun hheadroom hrpm => hok.rates.limit hheadroom hsplit hrpm⟩

/-! ### A key that loses its slot -/

/-- Two scopes, each of its own API key. -/
def firstScope : LeaseKey := ⟨"org", "key-1", "fast", "openai", "gpt"⟩

def secondScope : LeaseKey := ⟨"org", "key-2", "fast", "openai", "gpt"⟩

/-- One request a minute, and budget enough. -/
def oneAMinute : LeaseSourceState := ⟨20000000, [], some 1⟩

/-- A refresh, at one time. -/
def refreshed (key : LeaseKey) (now : ℚ) : List ShadowEvent := [.drop id, .grant [(key, oneAMinute)] now]

/-- The first scope is tracked, admits, gives its slot to the second, and is tracked again. -/
def slotRun : List ShadowEvent :=
  .decide firstScope (some 100) 0 :: refreshed firstScope 0 ++
    .decide firstScope (some 100) 1 :: .decide secondScope (some 100) 1 :: refreshed secondScope 1 ++
    .decide firstScope (some 100) 2 :: refreshed firstScope 2 ++ [.decide firstScope (some 100) 3]

def oneSlot : LeaseShadowConfig := { LeaseShadowConfig.default with maxTrackedKeys := 1 }

theorem lease_shadow_bounded_slot :
    (slotRun.filterMap ShadowEvent.clock).Pairwise (· ≤ ·) ∧
    spent firstScope (run (shadowStep oneSlot) ⟨.new, []⟩ slotRun).history = 100 ∧
    lastGrant firstScope (run (shadowStep oneSlot) ⟨.new, []⟩ slotRun).history = some (2000000, 20000000) ∧
    (100 : ℤ) ≤ 2000000 := by
  have hclock : (slotRun.filterMap ShadowEvent.clock).Pairwise (· ≤ ·) := by decide +kernel
  have hspent : spent firstScope (run (shadowStep oneSlot) ⟨.new, []⟩ slotRun).history = 100 := by decide +kernel
  have hlast : lastGrant firstScope (run (shadowStep oneSlot) ⟨.new, []⟩ slotRun).history = some (2000000, 20000000) := by
    decide +kernel
  refine ⟨hclock, hspent, hlast, ?_⟩
  rw [← hspent]
  exact ((lease_shadow_bounded oneSlot slotRun hclock).2.1 firstScope 2000000 20000000 hlast).1

/-- With one slot the first scope admits twice in a minute, though its limit is one request: its window went with its
lease. And nothing is granted to an overdrawn scope, which is above its fraction. -/
theorem slot_forgets_window :
    (slotRun.filterMap ShadowEvent.clock).Pairwise (· ≤ ·) ∧
    (run (shadowStep oneSlot) ⟨.new, []⟩ slotRun).history =
      [.admitted firstScope 100 (some 1) 3, .granted firstScope 2000000 20000000, .forgotten "key-1",
        .granted secondScope 2000000 20000000, .admitted firstScope 100 (some 1) 1,
        .granted firstScope 2000000 20000000] ∧
    grantOf .default (-10) = 0 ∧ ¬((0 : ℤ) : ℚ) ≤ LeaseShadowConfig.default.leaseFraction * (-10) := by
  decide +kernel

end Experiential.Gateway
