import Experiential.Replay.Worker

/-! # Whose response a caller receives

A claim compares bodies, but a joiner then polls the row of its operation without looking at the
body again. When the owner gives the operation up and a claim with another body takes it, the
joiner receives the other body's response: `joiner_served_other_body` is such a run.
`replay_serves_own_body` says that this is the only way: if no owner publishes while a joiner
with another body is still polling, every response comes from an owner with the caller's body. -/

namespace Experiential.Replay

open Gateway

/-- The response of the answer was published by an owner whose claim carried `key`. -/
def Served (w : World) (key : ReplayKey) (a : Answer) : Prop :=
  ∃ pub ∈ w.publications, pub.key = key ∧ pub.response = a.response ∧ a.source = some pub.ownerToken

/-- Every response a caller received was published by an owner with its body. -/
def OwnBody (w : World) : Prop :=
  ∀ c ∈ w.callers, ∀ a, c.answer = some (.ok a) → Served w c.lease.key a

/-! ### Conditions on steps -/

/-- A claim draws a token that no caller has. -/
def FreshToken (w : World) : WorldEvent → Prop
  | .claim _ _ ownerToken _ => ∀ c ∈ w.callers, c.lease.ownerToken ≠ ownerToken
  | _ => True

variable (sizeBytes : CachedResponse → Int)

/-- The completion publishes the caller's response. -/
def Publishes (w : World) (i : Nat) (response : CachedResponse) (c : PublishClock) : Prop :=
  ∃ o, w.callers[i]? = some o ∧
    ∃ rows lease, o.lease.complete sizeBytes w.rows response c = (rows, .ok lease)

/-- An owner publishes only while every joiner still polling its operation has its body. -/
def JoinersAgree (w : World) : WorldEvent → Prop
  | .complete i response c => Publishes sizeBytes w i response c → ∀ o, w.callers[i]? = some o →
      ∀ x ∈ w.callers, x.Waiting → x.lease.key.operation = o.lease.key.operation → x.lease.key = o.lease.key
  | _ => True

/-! ### The invariant -/

/-- The key of the claim a row was granted to. -/
def ReplayRow.key (r : ReplayRow) : ReplayKey := ⟨r.operation, r.canonicalRequestSha256⟩

/-- Every token, row and publication is of one key, and every answer is a body of its own key. -/
structure WorldInv (w : World) : Prop where
  /-- A token stands for one key. -/
  tokens : ∀ c ∈ w.callers, ∀ o ∈ w.callers, c.lease.ownerToken = o.lease.ownerToken →
    c.lease.key = o.lease.key
  owners : ∀ r ∈ w.rows, ∃ o ∈ w.callers, o.lease.ownerToken = r.ownerToken ∧ o.lease.key = r.key
  published : ∀ r ∈ w.rows, ∀ s, r.response? = some s → ∃ pub ∈ w.publications, pub.key = r.key ∧
    pub.ownerToken = r.ownerToken ∧ s = pub.response.stored
  waiting : ∀ c ∈ w.callers, c.Waiting → ∀ r ∈ w.rows, r.operation = c.lease.key.operation →
    r.response? ≠ none → r.key = c.lease.key
  publishers : ∀ pub ∈ w.publications, ∃ o ∈ w.callers, o.lease.ownerToken = pub.ownerToken ∧
    o.lease.key = pub.key
  answers : OwnBody w

theorem response?_claimed {r : ReplayRow} (h : r.state = .claimed) : r.response? = none := by
  simp [ReplayRow.response?, h]

variable {w : World}

/-- What a caller reads from a published row of its own body was published for its key. -/
theorem WorldInv.served (h : WorldInv w) {r : ReplayRow} {s : StoredResponse}
    {cached : CachedResponse} (hr : w.rows.find? r.operation = some r) (hs : r.response? = some s)
    (hcached : cachedResponse s = .ok cached) :
    Served w r.key ⟨cached, tokenOf w.rows r.operation⟩ := by
  obtain ⟨pub, hpub, hkey, htoken, rfl⟩ := h.published r (Table.find?_eq_some.mp hr).1 s hs
  rw [cachedResponse_stored] at hcached
  cases hcached
  exact ⟨pub, hpub, hkey, rfl, by rw [tokenOf, hr, Option.map_some, htoken]⟩

/-! ### What keeps it -/

/-- The rows may lose rows, and gain claimed rows of callers. -/
theorem WorldInv.setRows (h : WorldInv w) {rows : ReplayRows} (hrows : ∀ r ∈ rows, r ∈ w.rows ∨ r.response? = none ∧
      ∃ o ∈ w.callers, o.lease.ownerToken = r.ownerToken ∧ o.lease.key = r.key) :
    WorldInv { w with rows := rows } := by
  refine ⟨h.tokens, fun r hr => ?_, fun r hr s hs => ?_, fun c hc hw r hr hop hne => ?_, h.publishers,
    h.answers⟩
  · rcases hrows r hr with hr | ⟨-, ho⟩
    · exact h.owners r hr
    · exact ho
  · rcases hrows r hr with hr | ⟨hnone, -⟩
    · exact h.published r hr s hs
    · rw [hnone] at hs
      cases hs
  · rcases hrows r hr with hr | ⟨hnone, -⟩
    · exact h.waiting c hc hw r hr hop hne
    · exact absurd hnone hne

theorem WorldInv.abandon (h : WorldInv w) (lease : ReplayLease) :
    WorldInv { w with rows := lease.abandon w.rows } := by
  refine h.setRows fun r hr => .inl ?_
  unfold ReplayLease.abandon at hr
  split_ifs at hr
  · exact (Table.mem_delete.mp hr).1
  · exact hr

theorem WorldInv.addCaller (h : WorldInv w) (new : Caller)
    (hfresh : ∀ c ∈ w.callers, c.lease.ownerToken ≠ new.lease.ownerToken)
    (hwaiting : new.Waiting → ∀ r ∈ w.rows, r.operation = new.lease.key.operation →
      r.response? ≠ none → r.key = new.lease.key)
    (hanswer : ∀ a, new.answer = some (.ok a) → Served w new.lease.key a) :
    WorldInv { w with callers := w.callers ++ [new] } := by
  have hmem : ∀ c ∈ w.callers ++ [new], c ∈ w.callers ∨ c = new := fun c hc =>
    (List.mem_append.mp hc).imp_right List.mem_singleton.mp
  refine ⟨fun c hc o ho heq => ?_, fun r hr => ?_, h.published, fun c hc => ?_, fun pub hpub => ?_,
    fun c hc => ?_⟩
  · rcases hmem c hc with hc' | rfl <;> rcases hmem o ho with ho' | rfl
    · exact h.tokens c hc' o ho' heq
    · exact absurd heq (hfresh c hc')
    · exact absurd heq.symm (hfresh o ho')
    · rfl
  · obtain ⟨o, ho, heq⟩ := h.owners r hr
    exact ⟨o, List.mem_append_left _ ho, heq⟩
  · rcases hmem c hc with hc | rfl
    · exact h.waiting c hc
    · exact hwaiting
  · obtain ⟨o, ho, heq⟩ := h.publishers pub hpub
    exact ⟨o, List.mem_append_left _ ho, heq⟩
  · rcases hmem c hc with hc | rfl
    · exact h.answers c hc
    · exact hanswer

/-- One caller's lease and answer move on; its key and token stay. -/
theorem WorldInv.setCaller (h : WorldInv w) {i : Nat} {c : Caller} (d : Caller)
    (hi : w.callers[i]? = some c) (hkey : d.lease.key = c.lease.key)
    (htoken : d.lease.ownerToken = c.lease.ownerToken) (hwaiting : d.Waiting → c.Waiting)
    (hanswer : ∀ a, d.answer = some (.ok a) → Served w c.lease.key a) :
    WorldInv { w with callers := w.callers.set i d } := by
  have hc : c ∈ w.callers := List.mem_of_getElem? hi
  -- Every caller now has the key and the token of one before.
  have hback : ∀ x ∈ w.callers.set i d, ∃ y ∈ w.callers, x.lease.key = y.lease.key ∧
      x.lease.ownerToken = y.lease.ownerToken ∧ (x.Waiting → y.Waiting) ∧
      ∀ a, x.answer = some (.ok a) → Served w y.lease.key a := by
    intro x hx
    rcases List.mem_or_eq_of_mem_set hx with hx | rfl
    · exact ⟨x, hx, rfl, rfl, id, h.answers x hx⟩
    · exact ⟨c, hc, hkey, htoken, hwaiting, hanswer⟩
  have hforth : ∀ y ∈ w.callers, ∃ x ∈ w.callers.set i d, x.lease.ownerToken = y.lease.ownerToken ∧
      x.lease.key = y.lease.key := by
    intro y hy
    rcases mem_set_of_mem (b := d) hi hy with hy | ⟨rfl, hmem⟩
    · exact ⟨y, hy, rfl, rfl⟩
    · exact ⟨d, hmem, htoken, hkey⟩
  refine ⟨fun x hx y hy heq => ?_, fun r hr => ?_, h.published, fun x hx hw r hr hop hne => ?_,
    fun pub hpub => ?_, fun x hx a ha => ?_⟩
  · obtain ⟨x₀, hx₀, hxk, hxt, -⟩ := hback x hx
    obtain ⟨y₀, hy₀, hyk, hyt, -⟩ := hback y hy
    rw [hxk, hyk]
    exact h.tokens x₀ hx₀ y₀ hy₀ (by rw [← hxt, ← hyt, heq])
  · obtain ⟨o, ho, hot, hok⟩ := h.owners r hr
    obtain ⟨x, hx, hxt, hxk⟩ := hforth o ho
    exact ⟨x, hx, hxt.trans hot, hxk.trans hok⟩
  · obtain ⟨x₀, hx₀, hxk, -, hxw, -⟩ := hback x hx
    rw [hxk] at hop ⊢
    exact h.waiting x₀ hx₀ (hxw hw) r hr hop hne
  · obtain ⟨o, ho, hot, hok⟩ := h.publishers pub hpub
    obtain ⟨x, hx, hxt, hxk⟩ := hforth o ho
    exact ⟨x, hx, hxt.trans hot, hxk.trans hok⟩
  · obtain ⟨x₀, -, hxk, -, -, hserved⟩ := hback x hx
    rw [hxk]
    exact hserved a ha

/-- An owner publishes while every joiner still polling has its body. -/
theorem WorldInv.publish (h : WorldInv w) {o : Caller} (ho : o ∈ w.callers)
    {response : CachedResponse} {rows : ReplayRows} {c : PublishClock}
    (hagree : (∃ r, Owns w.rows o.lease.key.operation o.lease.ownerToken r) →
      ∀ x ∈ w.callers, x.Waiting → x.lease.key.operation = o.lease.key.operation →
        x.lease.key = o.lease.key)
    (hp : replayPublish w.rows (o.lease.publication response) c = .ok (rows, true)) :
    WorldInv { w with
      rows := rows
      publications := ⟨o.lease.key, o.lease.ownerToken, response⟩ :: w.publications } := by
  rcases replayPublish_eq_ok hp with ⟨-, r, ttlSeconds, hown, hfind⟩ | ⟨hb, -⟩
  swap
  · cases hb
  have hagree := hagree ⟨r, hown⟩
  obtain ⟨hr, htoken, -⟩ := hown
  obtain ⟨hmem, hop⟩ := Table.find?_eq_some.mp hr
  -- The row was granted to the publishing caller's own claim.
  have hkey : r.key = o.lease.key := by
    obtain ⟨q, hq, hqt, hqk⟩ := h.owners r hmem
    rw [← hqk]
    exact h.tokens q hq o ho (hqt.trans htoken)
  set new := (o.lease.publication response).publish ttlSeconds c r with hnew
  have hrows : ∀ x ∈ rows, x = new ∨ x ∈ w.rows := by
    intro x hx
    have hx' := (Table.find?_key hx).symm.trans (hfind x.operation)
    split_ifs at hx' with he
    · exact .inl (Option.some.inj hx')
    · exact .inr (Table.find?_eq_some.mp hx'.symm).1
  refine ⟨h.tokens, fun x hx => ?_, fun x hx s hs => ?_, fun x hx hw y hy hyop hne => ?_,
    fun pub hpub => ?_, fun x hx a ha => ?_⟩
  · rcases hrows x hx with rfl | hx
    · exact h.owners r hmem
    · exact h.owners x hx
  · rcases hrows x hx with rfl | hx
    · cases hs
      exact ⟨_, List.mem_cons_self, hkey.symm, htoken.symm, rfl⟩
    · obtain ⟨pub, hpub, hrest⟩ := h.published x hx s hs
      exact ⟨pub, List.mem_cons_of_mem _ hpub, hrest⟩
  · rcases hrows y hy with rfl | hy
    · exact hkey.trans (hagree x hx hw (hyop.symm.trans hop)).symm
    · exact h.waiting x hx hw y hy hyop hne
  · rcases List.mem_cons.mp hpub with rfl | hpub
    · exact ⟨o, ho, rfl, rfl⟩
    · exact h.publishers pub hpub
  · obtain ⟨pub, hpub, hrest⟩ := h.answers x hx a ha
    exact ⟨pub, List.mem_cons_of_mem _ hpub, hrest⟩

/-! ### The steps -/

theorem answer_conflict {r : ReplayRow} {body : String} {k : ClaimKind} (h : k = r.answer body) :
    k = .conflict ∨ r.canonicalRequestSha256 = body ∧ (k = .join ∧ r.response? = none ∨
      ∃ s, k = .replay s ∧ r.response? = some s) := by
  unfold ReplayRow.answer at h
  split_ifs at h with hbody
  · exact .inl h
  · refine .inr ⟨not_not.mp hbody, ?_⟩
    cases hs : r.state with
    | claimed => exact .inl ⟨by simpa [hs] using h, by simp [ReplayRow.response?, hs]⟩
    | published t e s => exact .inr ⟨s, by simpa [hs] using h, by simp [ReplayRow.response?, hs]⟩

theorem WorldInv.claim (h : WorldInv w) (store : ReplayStore) (key : ReplayKey) (t : Nat)
    (c : ClaimClock) (hfresh : ∀ x ∈ w.callers, x.lease.ownerToken ≠ t) :
    WorldInv (worldStep sizeBytes w (.claim store key t c)) := by
  simp only [worldStep, ReplayStore.claim]
  cases hk : replayClaim w.rows (store.claimArgs key t) c with
  | error e => exact h
  | ok result =>
      obtain ⟨rows, k⟩ := result
      have hpruned : WorldInv { w with rows := w.rows.delete (·.expired c.prune) } :=
        h.setRows fun r hr => .inl (Table.mem_delete.mp hr).1
      rcases replayClaim_eq_ok hk with ⟨rfl, hg⟩ | ⟨rfl, r, hr, -, hkind⟩
      · -- The new owner joins first, and its row is then one of a caller's.
        obtain ⟨row, hbody, htoken, hstate, hfind⟩ := hg.find?
        have hnew := hpruned.addCaller ⟨⟨store, key, t, .owner, none⟩, none⟩ hfresh
          (fun hw => by cases hw.1) (fun a ha => by cases ha)
        refine hnew.setRows fun x hx => ?_
        have hx' := (Table.find?_key hx).symm.trans (hfind x.operation)
        split_ifs at hx' with he
        · cases Option.some.inj hx'
          refine .inr ⟨response?_claimed hstate, _, List.mem_append_right _ List.mem_cons_self,
            htoken.symm, ?_⟩
          rw [ReplayRow.key, ← he, hbody]
          rfl
        · exact .inl (Table.find?_eq_some.mp hx'.symm).1
      · obtain ⟨hmem, hop⟩ := Table.find?_eq_some.mp hr
        have honly : ∀ x ∈ w.rows.delete (·.expired c.prune), x.operation = key.operation → x = r :=
          fun x hx hxop => Table.eq_of_key_eq hx hmem (hxop.trans hop.symm)
        rcases answer_conflict hkind with rfl | ⟨hbody, ⟨rfl, hnone⟩ | ⟨s, rfl, hs⟩⟩
        · exact hpruned
        · refine hpruned.addCaller ⟨⟨store, key, t, .join, none⟩, none⟩ hfresh ?_
            (fun a ha => by cases ha)
          intro _ x hx hxop hne
          rw [honly x hx hxop] at hne
          exact absurd hnone hne
        · cases hcached : cachedResponse s with
          | error e =>
              simp only [ReplayStore.lease, hcached]
              exact hpruned
          | ok cached =>
              simp only [ReplayStore.lease, hcached]
              have hkey : r.key = key := by
                rw [ReplayRow.key, hop, hbody]
                rfl
              refine hpruned.addCaller ⟨⟨store, key, t, .replay, some cached⟩,
                some (.ok ⟨cached, tokenOf (w.rows.delete (·.expired c.prune)) key.operation⟩)⟩ hfresh
                (fun hw => by cases hw.1) ?_
              rintro a ⟨⟩
              rw [← hkey]
              exact hpruned.served (r := r) (hop ▸ hr) hs hcached

theorem WorldInv.poll (h : WorldInv w) (i : Nat) (now : Int) : WorldInv (worldStep sizeBytes w (.poll i now)) := by
  simp only [worldStep]
  cases hi : w.callers[i]? with
  | none => exact h
  | some caller =>
      simp only
      split_ifs with hwaiting
      · cases hawait : awaitPublished w.rows caller.lease.key now with
        | none => exact h
        | some result =>
            refine h.setCaller _ hi rfl rfl (fun _ => hwaiting) fun a ha => ?_
            cases result with
            | error e => cases ha
            | ok cached =>
                cases ha
                obtain ⟨r, s, hr, hs, hcached⟩ := awaitPublished_ok hawait
                obtain ⟨hmem, hop⟩ := Table.find?_eq_some.mp hr
                have hkey := h.waiting caller (List.mem_of_getElem? hi) hwaiting r hmem hop
                  (by simp [hs])
                rw [← hkey]
                exact h.served (r := r) (hop ▸ hr) hs hcached
      · exact h

theorem WorldInv.complete (h : WorldInv w) (i : Nat) (response : CachedResponse)
    (c : PublishClock) (hagree : JoinersAgree sizeBytes w (.complete i response c)) :
    WorldInv (worldStep sizeBytes w (.complete i response c)) := by
  simp only [worldStep]
  cases hi : w.callers[i]? with
  | none => exact h
  | some caller =>
      simp only
      rcases complete_cases sizeBytes caller.lease w.rows response c with
        ⟨rows', hp, hkind, heq⟩ | ⟨e, heq | heq⟩
      · rw [heq]
        have hpub := h.publish (List.mem_of_getElem? hi) (fun _ => hagree ⟨caller, hi, _, _, heq⟩ caller hi) hp
        refine hpub.setCaller { caller with lease := { caller.lease with cached := some response } }
          hi rfl rfl id fun a ha => ?_
        exact hpub.answers caller (List.mem_of_getElem? hi) a ha
      · rw [heq]
        exact h
      · rw [heq]
        exact h.abandon caller.lease

theorem WorldInv.step (h : WorldInv w) (event : WorldEvent) (hfresh : FreshToken w event)
    (hagree : JoinersAgree sizeBytes w event) : WorldInv (worldStep sizeBytes w event) := by
  cases event with
  | claim store key t c => exact h.claim sizeBytes store key t c hfresh
  | poll i now => exact h.poll sizeBytes i now
  | complete i response c => exact h.complete sizeBytes i response c hagree
  | abandon i =>
      simp only [worldStep]
      cases hi : w.callers[i]? with
      | none => exact h
      | some caller => exact h.abandon caller.lease

/-! ### The condition is necessary -/

/-- A joiner that is still polling when an owner with another body publishes receives the other
body's response at its next round. -/
theorem foreign_publication_served (h : WorldInv w) {i j : Nat} {o x : Caller}
    (ho : w.callers[i]? = some o) (hx : w.callers[j]? = some x) (hwaiting : x.Waiting)
    (hop : x.lease.key.operation = o.lease.key.operation) (hne : x.lease.key ≠ o.lease.key)
    {response : CachedResponse} {c : PublishClock} {rows : ReplayRows} {lease : ReplayLease}
    (hcomplete : o.lease.complete sizeBytes w.rows response c = (rows, .ok lease)) (now : Int) :
    ¬ OwnBody (worldStep sizeBytes (worldStep sizeBytes w (.complete i response c)) (.poll j now)) := by
  rcases complete_cases sizeBytes o.lease w.rows response c with
    ⟨rows', hp, hkind, heq⟩ | ⟨e, heq | heq⟩
  · rw [hcomplete] at heq
    cases heq
    have hij : i ≠ j := by
      rintro rfl
      cases ho.symm.trans hx
      cases hkind.symm.trans hwaiting.1
    rcases replayPublish_eq_ok hp with ⟨-, r, ttlSeconds, ⟨hr, htoken, -⟩, hfind⟩ | ⟨hb, -⟩
    · have hrow : rows.find? x.lease.key.operation =
          some ((o.lease.publication response).publish ttlSeconds c r) :=
        (hfind _).trans (if_pos hop.symm)
      have hawait : awaitPublished rows x.lease.key now = some (.ok response) := by
        simp only [awaitPublished, readRow, hrow, PublishArgs.publish, ReplayLease.publication,
          cachedResponse_stored]
        rfl
      have hstep : worldStep sizeBytes w (.complete i response c) = { w with
          rows := rows
          callers := w.callers.set i { o with lease := { o.lease with cached := some response } }
          publications := ⟨o.lease.key, o.lease.ownerToken, response⟩ :: w.publications } := by
        simp only [worldStep, ho, hcomplete]
      have hj : (w.callers.set i { o with lease := { o.lease with cached := some response } })[j]?
          = some x := (List.getElem?_set_ne hij).trans hx
      rw [hstep]
      simp only [worldStep, hj, if_pos hwaiting, hawait]
      intro hown
      obtain ⟨pub, hpub, hkey, -, hsource⟩ := hown _
        (List.mem_set (List.getElem?_eq_some_iff.mp hj).1 _) _ rfl
      simp only [tokenOf, hrow, Option.map_some, Option.some.injEq] at hsource
      -- The token of the row is the publishing owner's, and stands for its key only.
      rcases List.mem_cons.mp hpub with rfl | hpub
      · exact hne hkey.symm
      · obtain ⟨q, hq, hqt, hqk⟩ := h.publishers pub hpub
        have hsame := h.tokens q hq o (List.mem_of_getElem? ho)
          (by rw [hqt, ← hsource]; exact htoken)
        exact hne (by rw [← hkey, ← hqk, hsame])
    · cases hb
  · rw [hcomplete] at heq
    cases heq
  · rw [hcomplete] at heq
    cases heq

/-! ### The run -/

/-- **A caller receives no other body's response.**  In every run of callers whose claims draw fresh
tokens, and whose owners publish only while the joiners still polling have their body, every
response a caller received was published by an owner with the caller's body. An owner that then
publishes otherwise breaks this at the next round of some joiner. -/
theorem replay_serves_own_body (events : List WorldEvent)
    (h : StepsMeet (worldStep sizeBytes) (fun w e => FreshToken w e ∧ JoinersAgree sizeBytes w e) .initial events) :
    OwnBody (run (worldStep sizeBytes) .initial events) ∧
    ∀ i response c, ¬ JoinersAgree sizeBytes (run (worldStep sizeBytes) .initial events) (.complete i response c) →
      ∃ j, ∀ now, ¬ OwnBody
        (run (worldStep sizeBytes) .initial (events ++ [.complete i response c, .poll j now])) := by
  have hinv : WorldInv (run (worldStep sizeBytes) .initial events) := by
    refine run_invariant (I := WorldInv) ?_ events .initial ?_ h
    · exact fun w event hmeets hw => hw.step sizeBytes event hmeets.1 hmeets.2
    · exact ⟨by simp [World.initial], fun r hr => absurd hr (Table.not_mem_empty r),
        fun r hr => absurd hr (Table.not_mem_empty r), by simp [World.initial],
        by simp [World.initial], by simp [OwnBody, World.initial]⟩
  refine ⟨hinv.answers, fun i response c hbroken => ?_⟩
  simp only [JoinersAgree, not_forall] at hbroken
  obtain ⟨⟨o, ho, rows, lease, hcomplete⟩, o', ho', x, hx, hwaiting, hop, hne⟩ := hbroken
  cases ho.symm.trans ho'
  obtain ⟨j, hj⟩ := List.getElem?_of_mem hx
  refine ⟨j, fun now => ?_⟩
  rw [run_append]
  exact foreign_publication_served sizeBytes hinv ho hj hwaiting hop hne hcomplete now

/-! ### A small world -/

def sampleStore : ReplayStore := ⟨300, 86400, 4194304, by decide⟩

def sampleKey (body : String) : ReplayKey := ⟨sampleOperation, body⟩

def sampleCached : CachedResponse := ⟨200, "application/json", [("x-request-id", "r1")], [123, 125]⟩

def bodySize (response : CachedResponse) : Int := response.body.length

/-- A joiner waits for the owner and receives its response. -/
def joinedRun : List WorldEvent :=
  [.claim sampleStore (sampleKey "body") 1 (.at 0),
    .claim sampleStore (sampleKey "body") 2 (.at 1),
    .poll 1 2,
    .complete 0 sampleCached (.at 3),
    .poll 1 4]

theorem replay_serves_own_body_sample :
    (run (worldStep bodySize) .initial joinedRun).callers[1]?.bind (·.answer)
      = some (.ok ⟨sampleCached, some 1⟩) ∧
    OwnBody (run (worldStep bodySize) .initial joinedRun) := by
  refine ⟨by rfl, (replay_serves_own_body bodySize joinedRun ⟨⟨?_, trivial⟩, ⟨?_, trivial⟩,
    ⟨trivial, trivial⟩, ⟨trivial, ?_⟩, ⟨trivial, trivial⟩, trivial⟩).1⟩
  · exact fun c hc => by cases hc
  · have htokens : ∀ c ∈ (run (worldStep bodySize) .initial (joinedRun.take 1)).callers,
        c.lease.ownerToken ≠ 2 := by decide
    exact htokens
  · have hkeys : ∀ c ∈ (run (worldStep bodySize) .initial (joinedRun.take 3)).callers,
        c.lease.key = sampleKey "body" := by decide
    intro _ o ho c hc _ _
    rw [hkeys c hc, hkeys o (List.mem_of_getElem? ho)]

/-- The owner abandons the operation, another body takes it and publishes, and the joiner polls. -/
def otherBodyRun : List WorldEvent :=
  [.claim sampleStore (sampleKey "body") 1 (.at 0),
    .claim sampleStore (sampleKey "body") 2 (.at 1),
    .abandon 0,
    .claim sampleStore (sampleKey "other body") 3 (.at 2),
    .complete 2 sampleCached (.at 3),
    .poll 1 4]

theorem joiner_served_other_body : ¬ OwnBody (run (worldStep bodySize) .initial otherBodyRun) := by
  intro h
  have hanswer : ∃ c ∈ (run (worldStep bodySize) .initial otherBodyRun).callers,
      c.lease.key = sampleKey "body" ∧ c.answer = some (.ok ⟨sampleCached, some 3⟩) :=
    ⟨_, List.mem_cons_of_mem _ List.mem_cons_self, by rfl, by rfl⟩
  have hpublished : ∀ pub ∈ (run (worldStep bodySize) .initial otherBodyRun).publications,
      pub.key ≠ sampleKey "body" := by decide
  obtain ⟨c, hc, hkey, ha⟩ := hanswer
  obtain ⟨pub, hpub, hpk, -⟩ := h c hc _ ha
  exact hpublished pub hpub (hpk.trans hkey)

end Experiential.Replay
