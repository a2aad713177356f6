import Experiential.Transport.RetriedWrites

/-! # The outbox of external objects

A wipe stages a cleanup job for the objects of a world model, deletes the row of the model and then removes the
objects; a reaper goes through the jobs that are left. Each may stop anywhere, and every statement goes through the
query proxy. `live_objects_kept`: an object stays as long as its root does. `job_leaves_outbox`: a job leaves the
outbox when all it lists is gone, or by the hand of a wipe that was told there was no row to delete; such a wipe may
have deleted the row itself, if the proxy has sent the delete twice. -/

namespace Experiential.Transport

inductive StorageCleanupResourceType where
  | worldModel
  /-- Only jobs from before the endpoint pivot. -/
  | agent
deriving DecidableEq

/-- The row whose existence gates a job. -/
abbrev CleanupRoot := StorageCleanupResourceType × ℕ

inductive StorageCleanupState where
  | staged
  | pending
deriving DecidableEq

structure StorageCleanupObject where
  bucket : String
  path : String
deriving DecidableEq

inductive External where
  | object (o : StorageCleanupObject)
  | sandbox (id : String)
deriving DecidableEq

structure StorageCleanupJob where
  id : ℕ
  root : CleanupRoot
  state : StorageCleanupState
  objects : List StorageCleanupObject
  sandboxIds : List String
  attemptCount : ℕ
deriving DecidableEq

structure CleanupDb where
  roots : List CleanupRoot
  /-- By `created_at` and `id`. -/
  jobs : List StorageCleanupJob
  nextJob : ℕ
  /-- The objects and sandboxes themselves, outside the database. -/
  stored : List External
deriving DecidableEq

/-! ### Statements -/

def statement {α : Type} (f : CleanupDb → α × CleanupDb) : Statement CleanupDb Empty α := fun _ db => .ok (f db)

/-- A statement through the query proxy; no answer when every connection broke. -/
def send {α : Type} (f : CleanupDb → α × CleanupDb) (net : ℕ → Delivery) (db : CleanupDb) : Option α × CleanupDb :=
  let sent := (statement f).execute net retryAttempts 0 db
  (sent.reply.bind Except.toOption, sent.server)

/-- `_stage_cleanup` -/
def stageCleanup (root : CleanupRoot) (objects : List StorageCleanupObject) (sandboxIds : List String)
    (db : CleanupDb) : StorageCleanupJob × CleanupDb :=
  let job : StorageCleanupJob := ⟨db.nextJob, root, .staged, objects, sandboxIds.eraseDups, 0⟩
  (job, { db with jobs := db.jobs ++ [job], nextJob := db.nextJob + 1 })

def deleteRoot (root : CleanupRoot) (db : CleanupDb) : Bool × CleanupDb :=
  (decide (root ∈ db.roots), { db with roots := db.roots.filter fun r => decide (r ≠ root) })

def resourceExists (root : CleanupRoot) (db : CleanupDb) : Bool × CleanupDb := (decide (root ∈ db.roots), db)

/-- The update of `_mark_pending` and of `_record_failure`, with the row as it is then. -/
def updateJob (id : ℕ) (attempts : Option ℕ) (db : CleanupDb) : Option StorageCleanupJob × CleanupDb :=
  let jobs := db.jobs.map fun r =>
    if r.id = id then { r with state := .pending, attemptCount := attempts.getD r.attemptCount } else r
  (jobs.find? fun r => decide (r.id = id), { db with jobs := jobs })

def deleteJob (id : ℕ) (db : CleanupDb) : Unit × CleanupDb :=
  ((), { db with jobs := db.jobs.filter fun r => decide (r.id ≠ id) })

/-- `_CLEANUP_PAGE_SIZE` -/
def cleanupPageSize : ℕ := 1000

def cleanupPage (offset : ℕ) (db : CleanupDb) : List StorageCleanupJob × CleanupDb :=
  ((db.jobs.drop offset).take cleanupPageSize, db)

/-- What `_remove_objects` and `_remove_sandboxes` remove, one after the other. -/
def StorageCleanupJob.externals (job : StorageCleanupJob) : List External :=
  job.objects.map .object ++ job.sandboxIds.map .sandbox

def CleanupDb.remove (db : CleanupDb) (e : External) : CleanupDb :=
  { db with stored := db.stored.filter fun e' => decide (e' ≠ e) }

/-! ### Wipes and reapers -/

/-- The call a wipe or a reaper makes next. -/
inductive CleanupPhase where
  | stage (root : CleanupRoot) (objects : List StorageCleanupObject) (sandboxIds : List String)
  | deleteRow (root : CleanupRoot) (job : Option StorageCleanupJob)
  | cancel (job : StorageCleanupJob)
  | read (jobs : List StorageCleanupJob)
  | check (job : StorageCleanupJob)
  | markPending (job : StorageCleanupJob)
  | remove (job : StorageCleanupJob) (left : List External)
  | recordFailure (job : StorageCleanupJob)
  | deleteJob (job : StorageCleanupJob)
  | ended
deriving DecidableEq

structure Cleaner where
  phase : CleanupPhase
  /-- The jobs of a reaper's pass that are still to do. -/
  queue : List StorageCleanupJob
deriving DecidableEq

/-- The loop of `drain_storage_cleanup_jobs`, up to the first call for the next job. -/
def Cleaner.next : List StorageCleanupJob → Cleaner
  | [] => ⟨.ended, []⟩
  | job :: queue =>
      match job.state with
      | .staged => ⟨.check job, queue⟩
      | .pending => ⟨.remove job job.externals, queue⟩

/-- The next call of `_delete_world_model` or `drain_storage_cleanup_jobs`. -/
def Cleaner.advance (net : ℕ → Delivery) (db : CleanupDb) (x : Cleaner) : CleanupDb × Cleaner :=
  match x.phase with
  | .stage root objects sandboxIds =>
      if objects = [] ∧ sandboxIds = [] then (db, { x with phase := .deleteRow root none })
      else
        let sent := send (stageCleanup root objects sandboxIds) net db
        (sent.2, { x with phase := match sent.1 with
          | some job => .deleteRow root (some job)
          | none => .ended })
  | .deleteRow root job =>
      let sent := send (deleteRoot root) net db
      (sent.2, { x with phase := match sent.1, job with
        | some true, some job => .markPending job
        | some false, some job => .cancel job
        | _, _ => .ended })
  | .cancel job => ((send (Transport.deleteJob job.id) net db).2, { x with phase := .ended })
  | .read jobs =>
      let sent := send (cleanupPage jobs.length) net db
      (sent.2, match sent.1 with
        | some page =>
            if page.length < cleanupPageSize then .next (jobs ++ page) else { x with phase := .read (jobs ++ page) }
        | none => { x with phase := .ended })
  | .check job =>
      let sent := send (resourceExists job.root) net db
      (sent.2, match sent.1 with
        | some true => .next x.queue
        | some false => { x with phase := .markPending job }
        | none => { x with phase := .ended })
  | .markPending job =>
      let sent := send (updateJob job.id none) net db
      let job := sent.1.join.getD { job with state := .pending }
      (sent.2, { x with phase := .remove job job.externals })
  | .remove job [] => (db, { x with phase := .deleteJob job })
  | .remove job (e :: left) =>
      match net 0 with
      | .answered => (db.remove e, { x with phase := .remove job left })
      | .lostBefore => (db, { x with phase := .recordFailure job })
      | .lostAfter => (db.remove e, { x with phase := .recordFailure job })
  | .recordFailure job =>
      ((send (updateJob job.id (some (job.attemptCount + 1))) net db).2, .next x.queue)
  | .deleteJob job => ((send (Transport.deleteJob job.id) net db).2, .next x.queue)
  | .ended => (db, x)

inductive CleanupStart where
  | wipe (root : CleanupRoot) (objects : List StorageCleanupObject) (sandboxIds : List String)
  | drain

def CleanupStart.cleaner : CleanupStart → Cleaner
  | .wipe root objects sandboxIds => ⟨.stage root objects sandboxIds, []⟩
  | .drain => ⟨.read [], []⟩

abbrev CleanupStep := PoolStep CleanupStart (ℕ → Delivery) Empty

def cleanupStep : Pool CleanupDb Cleaner → CleanupStep → Pool CleanupDb Cleaner :=
  poolStep CleanupStart.cleaner Cleaner.advance fun e _ => e.elim

/-! ### What a call keeps -/

def StorageCleanupJob.content (job : StorageCleanupJob) : ℕ × CleanupRoot × List External :=
  (job.id, job.root, job.externals)

section
variable (owner : External → CleanupRoot)

/-- What a copy of a job says still holds of the tables. -/
structure Knows (db : CleanupDb) (job : StorageCleanupJob) : Prop where
  old : job.id < db.nextJob
  same : ∀ r ∈ db.jobs, r.id = job.id → r.content = job.content
  gone : job.state = .pending → job.root ∉ db.roots
  owned : ∀ e ∈ job.externals, owner e = job.root

def OutboxOk (db : CleanupDb) : Prop := ∀ r ∈ db.jobs, Knows owner db r

/-- What a call does to the tables, whoever makes it; `mine` are the jobs that it may cancel. -/
structure Later (mine : ℕ → Prop) (db db' : CleanupDb) : Prop where
  roots : ∀ r ∈ db'.roots, r ∈ db.roots
  stored : ∀ e ∈ db'.stored, e ∈ db.stored
  stays : ∀ e ∈ db.stored, owner e ∈ db'.roots → e ∈ db'.stored
  next : db.nextJob ≤ db'.nextJob
  rows : ∀ r ∈ db'.jobs, db.nextJob ≤ r.id ∨ ∃ r₀ ∈ db.jobs, r₀.content = r.content
  kept : ∀ r ∈ db.jobs, (∃ r' ∈ db'.jobs, r'.content = r.content) ∨
    r.root ∉ db'.roots ∧ (mine r.id ∨ ∀ e ∈ r.externals, e ∉ db'.stored)

end

section
variable {owner : External → CleanupRoot} {mine : ℕ → Prop} {db db' db'' : CleanupDb} {job r : StorageCleanupJob}

theorem content_id (h : r.content = job.content) : r.id = job.id := congrArg (·.1) h

theorem content_root (h : r.content = job.content) : r.root = job.root := congrArg (·.2.1) h

theorem content_externals (h : r.content = job.content) : r.externals = job.externals := congrArg (·.2.2) h

/-- A call that changes no row of a job, and removes only what has lost its root. -/
theorem Later.of_rows (hroots : ∀ r ∈ db'.roots, r ∈ db.roots) (hstored : ∀ e ∈ db'.stored, e ∈ db.stored)
    (hstays : ∀ e ∈ db.stored, owner e ∈ db'.roots → e ∈ db'.stored) (hnext : db'.nextJob = db.nextJob)
    (hjobs : db'.jobs.map (·.content) = db.jobs.map (·.content)) : Later owner mine db db' := by
  refine ⟨hroots, hstored, hstays, hnext.ge, fun r hr => .inr ?_, fun r hr => .inl ?_⟩
  · exact List.mem_map.mp (hjobs ▸ List.mem_map_of_mem hr)
  · exact List.mem_map.mp (hjobs ▸ List.mem_map_of_mem (f := (·.content)) hr)

theorem Later.refl (db : CleanupDb) : Later owner mine db db :=
  .of_rows (fun _ h => h) (fun _ h => h) (fun _ h _ => h) rfl rfl

theorem Later.trans (h : Later owner mine db db') (h' : Later owner mine db' db'') : Later owner mine db db'' := by
  refine ⟨fun r hr => h.roots r (h'.roots r hr), fun e he => h.stored e (h'.stored e he),
    fun e he hroot => h'.stays e (h.stays e he (h'.roots _ hroot)) hroot, h.next.trans h'.next, fun r hr => ?_,
    fun r hr => ?_⟩
  · obtain hfresh | ⟨r₁, hr₁, heq⟩ := h'.rows r hr
    · exact .inl (h.next.trans hfresh)
    · rw [← heq, ← content_id heq]
      exact h.rows r₁ hr₁
  · obtain ⟨r₁, hr₁, heq⟩ | ⟨hroot, hgone⟩ := h.kept r hr
    · have hkept := h'.kept r₁ hr₁
      rwa [heq, content_id heq, content_root heq, content_externals heq] at hkept
    · exact .inr ⟨fun hlive => hroot (h'.roots _ hlive),
        hgone.imp_right fun hout e he hin => hout e he (h'.stored e hin)⟩

theorem Later.weaken {mine' : ℕ → Prop} (h : Later owner mine db db') (hmine : ∀ n, mine n → mine' n) :
    Later owner mine' db db' :=
  ⟨h.roots, h.stored, h.stays, h.next, h.rows,
    fun r hr => (h.kept r hr).imp_right (And.imp_right (Or.imp_left (hmine _)))⟩

theorem Knows.later (h : Knows owner db job) (hl : Later owner mine db db') : Knows owner db' job := by
  refine ⟨h.old.trans_le hl.next, fun r hr hid => ?_, fun hp hroot => h.gone hp (hl.roots _ hroot), h.owned⟩
  obtain hfresh | ⟨r₀, hr₀, heq⟩ := hl.rows r hr
  · exact absurd (hid ▸ h.old) (Nat.not_lt.mpr hfresh)
  · exact heq ▸ h.same r₀ hr₀ ((content_id heq).trans hid)

/-! ### The statements -/

/-- A statement with what it keeps. -/
abbrev Keeps (owner : External → CleanupRoot) (mine : ℕ → Prop) (db db' : CleanupDb) : Prop :=
  OutboxOk owner db' ∧ Later owner mine db db'

theorem stageCleanup_keeps {root : CleanupRoot} {objects : List StorageCleanupObject} {sandboxIds : List String}
    (howned : ∀ e ∈ objects.map External.object ++ sandboxIds.map .sandbox, owner e = root) (h : OutboxOk owner db) :
    Keeps owner mine db (stageCleanup root objects sandboxIds db).2 := by
  have hmem {r : StorageCleanupJob} (hr : r ∈ (stageCleanup root objects sandboxIds db).2.jobs) :
      r ∈ db.jobs ∨ r = (stageCleanup root objects sandboxIds db).1 := by
    simpa [stageCleanup] using hr
  have hlater : Later owner mine db (stageCleanup root objects sandboxIds db).2 := by
    refine ⟨fun _ h => h, fun _ h => h, fun _ h _ => h, Nat.le_succ _, fun r hr => ?_,
      fun r hr => .inl ⟨r, List.mem_append_left _ hr, rfl⟩⟩
    obtain hr | rfl := hmem hr
    · exact .inr ⟨r, hr, rfl⟩
    · exact .inl le_rfl
  refine ⟨fun r hr => ?_, hlater⟩
  obtain hr | rfl := hmem hr
  · exact (h r hr).later hlater
  · refine ⟨Nat.lt_succ_self _, fun r' hr' hid => ?_, (by cases ·), fun e he => howned e ?_⟩
    · obtain hr' | rfl := hmem hr'
      · exact absurd (h r' hr').old (by rw [hid]; exact lt_irrefl _)
      · rfl
    · simpa [StorageCleanupJob.externals, stageCleanup] using he

theorem deleteRoot_keeps (root : CleanupRoot) (h : OutboxOk owner db) : Keeps owner mine db (deleteRoot root db).2 := by
  have hlater : Later owner mine db (deleteRoot root db).2 :=
    .of_rows (fun r hr => (List.mem_filter.mp hr).1) (fun _ h => h) (fun _ h _ => h) rfl rfl
  exact ⟨fun r hr => (h r hr).later hlater, hlater⟩

theorem updateJob_keeps (attempts : Option ℕ) (hknows : Knows owner db job) (hgone : job.root ∉ db.roots)
    (h : OutboxOk owner db) : Keeps owner mine db (updateJob job.id attempts db).2 := by
  have hcontent : ∀ r : StorageCleanupJob, (if r.id = job.id then
      { r with state := .pending, attemptCount := attempts.getD r.attemptCount } else r).content = r.content := by
    intro r
    split_ifs <;> rfl
  have hlater : Later owner mine db (updateJob job.id attempts db).2 := by
    refine .of_rows (fun _ h => h) (fun _ h => h) (fun _ h _ => h) rfl ?_
    simp only [updateJob, List.map_map]
    exact List.map_congr_left fun r _ => hcontent r
  refine ⟨fun r hr => ?_, hlater⟩
  obtain ⟨r₀, hr₀, rfl⟩ := List.mem_map.mp hr
  have hknown := (h r₀ hr₀).later hlater
  refine ⟨(content_id (hcontent r₀)).trans_lt hknown.old, fun r' hr' hid => ?_, fun hp => ?_, ?_⟩
  · exact (hknown.same r' hr' (hid.trans (content_id (hcontent r₀)))).trans (hcontent r₀).symm
  · rw [content_root (hcontent r₀)]
    by_cases hid : r₀.id = job.id
    · rw [content_root (hknows.same r₀ hr₀ hid)]
      exact hgone
    · rw [if_neg hid] at hp
      exact (h r₀ hr₀).gone hp
  · rw [content_externals (hcontent r₀), content_root (hcontent r₀)]
    exact hknown.owned

theorem deleteJob_keeps (hknows : Knows owner db job) (hgone : job.root ∉ db.roots)
    (hdone : mine job.id ∨ ∀ e ∈ job.externals, e ∉ db.stored) (h : OutboxOk owner db) :
    Keeps owner mine db (deleteJob job.id db).2 := by
  have hmem : ∀ r ∈ (deleteJob job.id db).2.jobs, r ∈ db.jobs := fun r hr => (List.mem_filter.mp hr).1
  have hlater : Later owner mine db (deleteJob job.id db).2 := by
    refine ⟨fun _ h => h, fun _ h => h, fun _ h _ => h, le_rfl, fun r hr => .inr ⟨r, hmem r hr, rfl⟩, fun r hr => ?_⟩
    by_cases hid : r.id = job.id
    · have hsame := hknows.same r hr hid
      rw [hid, content_root hsame, content_externals hsame]
      exact .inr ⟨hgone, hdone⟩
    · exact .inl ⟨r, List.mem_filter.mpr ⟨hr, decide_eq_true hid⟩, rfl⟩
  exact ⟨fun r hr => (h r (hmem r hr)).later hlater, hlater⟩

theorem remove_keeps {e : External} (hgone : owner e ∉ db.roots) (h : OutboxOk owner db) :
    Keeps owner mine db (db.remove e) := by
  have hlater : Later owner mine db (db.remove e) := by
    refine .of_rows (fun _ h => h) (fun e' he' => (List.mem_filter.mp he').1) (fun e' he' hroot => ?_) rfl rfl
    exact List.mem_filter.mpr ⟨he', decide_eq_true fun heq => hgone (heq ▸ hroot)⟩
  exact ⟨fun r hr => (h r hr).later hlater, hlater⟩

/-- Through the proxy a statement runs any number of times; the answer is that to the last of them. -/
theorem send_keeps {α : Type} {f : CleanupDb → α × CleanupDb} (net : ℕ → Delivery) (h : OutboxOk owner db)
    (hf : ∀ s, Keeps owner mine db s → Keeps owner mine s (f s).2) :
    Keeps owner mine db (send f net db).2 ∧
      ∀ a ∈ (send f net db).1, ∃ s, Keeps owner mine db s ∧ f s = (a, (send f net db).2) := by
  have hruns (is : List ℕ) : Keeps owner mine db ((statement f).runs is db) := by
    refine Statement.runs_invariant (fun i s hs => ?_) ⟨h, .refl db⟩
    exact ⟨(hf s hs).1, hs.2.trans (hf s hs).2⟩
  unfold send
  dsimp only
  rw [Statement.execute_eq]
  cases heard net retryAttempts 0 with
  | none => exact ⟨hruns _, fun a ha => by cases ha⟩
  | some j =>
      have hlast := hruns (unheard net retryAttempts 0)
      refine ⟨⟨(hf _ hlast).1, hlast.2.trans (hf _ hlast).2⟩, fun a ha => ⟨_, hlast, ?_⟩⟩
      cases ha
      rfl

end

/-! ### Wipes and reapers keep the outbox -/

section
variable (owner : External → CleanupRoot)

/-- What holds of the tables when a wipe or a reaper is about to make a call. -/
def PhaseOk (db : CleanupDb) : CleanupPhase → Prop
  | .stage root objects sandboxIds => ∀ e ∈ objects.map External.object ++ sandboxIds.map .sandbox, owner e = root
  | .deleteRow root job => ∀ j ∈ job, j.root = root ∧ Knows owner db j
  | .cancel j => Knows owner db j ∧ j.root ∉ db.roots
  | .read jobs => ∀ j ∈ jobs, Knows owner db j
  | .check j => Knows owner db j
  | .markPending j => Knows owner db j ∧ j.root ∉ db.roots
  | .remove j left => Knows owner db j ∧ j.root ∉ db.roots ∧ (∀ e ∈ left, e ∈ j.externals) ∧
      ∀ e ∈ j.externals, e ∈ db.stored → e ∈ left
  | .recordFailure j => Knows owner db j ∧ j.root ∉ db.roots
  | .deleteJob j => Knows owner db j ∧ j.root ∉ db.roots ∧ ∀ e ∈ j.externals, e ∉ db.stored
  | .ended => True

/-- A cleaner has jobs whose objects belong to their roots, and may make its next call. -/
structure CleanerOk (db : CleanupDb) (x : Cleaner) : Prop where
  phase : PhaseOk owner db x.phase
  queue : ∀ j ∈ x.queue, Knows owner db j

end

section
variable {owner : External → CleanupRoot} {mine : ℕ → Prop} {db db' : CleanupDb} {x : Cleaner} {job : StorageCleanupJob}

theorem CleanerOk.later (h : CleanerOk owner db x) (hl : Later owner mine db db') : CleanerOk owner db' x := by
  obtain ⟨phase, queue⟩ := x
  have hroot {root : CleanupRoot} (hgone : root ∉ db.roots) : root ∉ db'.roots := mt (hl.roots root) hgone
  refine ⟨?_, fun j hj => (h.queue j hj).later hl⟩
  have hphase := h.phase
  cases phase with
  | stage => exact hphase
  | deleteRow root job => exact fun j hj => (hphase j hj).imp_right fun hknows => hknows.later hl
  | read => exact fun j hj => (hphase j hj).later hl
  | check => exact Knows.later hphase hl
  | remove j left =>
      obtain ⟨hknows, hgone, hsub, hleft⟩ := hphase
      exact ⟨hknows.later hl, hroot hgone, hsub, fun e he hin => hleft e he (hl.stored e hin)⟩
  | deleteJob j => exact ⟨hphase.1.later hl, hroot hphase.2.1, fun e he hin => hphase.2.2 e he (hl.stored e hin)⟩
  | cancel | markPending | recordFailure => exact ⟨hphase.1.later hl, hroot hphase.2⟩
  | ended => trivial

theorem removing_ok (hknows : Knows owner db job) (hgone : job.root ∉ db.roots) :
    PhaseOk owner db (.remove job job.externals) :=
  ⟨hknows, hgone, fun _ he => he, fun _ he _ => he⟩

theorem next_ok : ∀ {queue : List StorageCleanupJob}, (∀ j ∈ queue, Knows owner db j) → CleanerOk owner db (.next queue)
  | [], _ => ⟨trivial, by simp [Cleaner.next]⟩
  | job :: queue, h => by
      have hjob := h job List.mem_cons_self
      have hqueue := fun j hj => h j (List.mem_cons_of_mem job hj)
      simp only [Cleaner.next]
      cases hstate : job.state with
      | staged => exact ⟨hjob, hqueue⟩
      | pending => exact ⟨removing_ok hjob (hjob.gone hstate), hqueue⟩

theorem CleanerOk.queue_later (hx : CleanerOk owner db x) (hl : Later owner mine db db') :
    ∀ j ∈ x.queue, Knows owner db' j :=
  fun j hj => (hx.queue j hj).later hl

/-- The jobs that the next call may cancel. -/
def Cleaner.Cancels (x : Cleaner) (id : ℕ) : Prop := ∃ job, x.phase = .cancel job ∧ job.id = id

/-- What a call keeps, and that the next one is in order. -/
abbrev Advances (owner : External → CleanupRoot) (mine : ℕ → Prop) (net : ℕ → Delivery) (db : CleanupDb)
    (x : Cleaner) : Prop :=
  Keeps owner mine db (x.advance net db).1 ∧ CleanerOk owner (x.advance net db).1 (x.advance net db).2

section
variable {queue : List StorageCleanupJob} (net : ℕ → Delivery) (hdb : OutboxOk owner db)
include hdb

theorem advance_deleteRow {root : CleanupRoot} {planned : Option StorageCleanupJob}
    (hx : CleanerOk owner db ⟨.deleteRow root planned, queue⟩) :
    Advances owner mine net db ⟨.deleteRow root planned, queue⟩ := by
  obtain ⟨hkeeps, hanswer⟩ := send_keeps net hdb fun s hs => deleteRoot_keeps root hs.1
  refine ⟨hkeeps, ?_, hx.queue_later hkeeps.2⟩
  have hgone : ∀ found ∈ (send (deleteRoot root) net db).1, root ∉ (send (deleteRoot root) net db).2.roots := by
    intro found hfound
    obtain ⟨s, -, hlast⟩ := hanswer found hfound
    have hout : root ∉ (deleteRoot root s).2.roots := fun hin => by simp [deleteRoot] at hin
    rwa [hlast] at hout
  simp only [Cleaner.advance]
  cases planned with
  | none => split <;> trivial
  | some job =>
      obtain ⟨rfl, hknows⟩ := hx.phase job rfl
      cases hsent : (send (deleteRoot job.root) net db).1 with
      | none => trivial
      | some found => cases found <;> exact ⟨hknows.later hkeeps.2, hgone _ hsent⟩

theorem advance_markPending (hx : CleanerOk owner db ⟨.markPending job, queue⟩) :
    Advances owner mine net db ⟨.markPending job, queue⟩ := by
  have hphase := hx.phase
  obtain ⟨hkeeps, hanswer⟩ := send_keeps net hdb fun s hs =>
    updateJob_keeps none (hphase.1.later hs.2) (mt (hs.2.roots _) hphase.2) hs.1
  refine ⟨hkeeps, ?_, hx.queue_later hkeeps.2⟩
  have hknows := hphase.1.later hkeeps.2
  have hgone := mt (hkeeps.2.roots _) hphase.2
  cases hrow : (send (updateJob job.id none) net db).1.join with
  | none =>
      simp only [Cleaner.advance, hrow, Option.getD_none]
      exact removing_ok ⟨hknows.old, hknows.same, fun _ => hgone, hknows.owned⟩ hgone
  | some row =>
      simp only [Cleaner.advance, hrow, Option.getD_some]
      obtain ⟨s, -, hlast⟩ := hanswer (some row) (Option.join_eq_some_iff.mp hrow)
      obtain ⟨hfind, htable⟩ := Prod.mk.inj hlast
      rw [← htable] at hknows hgone ⊢
      have hmem := List.mem_of_find?_eq_some hfind
      have hsame := hknows.same row hmem (by simpa using List.find?_some hfind)
      exact removing_ok ((htable ▸ hkeeps.1) row hmem) (by rwa [content_root hsame])

theorem advance_remove {left : List External} (hx : CleanerOk owner db ⟨.remove job left, queue⟩) :
    Advances owner mine net db ⟨.remove job left, queue⟩ := by
  obtain ⟨hknows, hgone, hsub, hleft⟩ := hx.phase
  cases left with
  | nil => exact ⟨⟨hdb, .refl db⟩, ⟨hknows, hgone, fun e he hin => List.not_mem_nil (hleft e he hin)⟩, hx.queue⟩
  | cons e left =>
      have hkeeps (mine : ℕ → Prop) : Keeps owner mine db (db.remove e) :=
        remove_keeps (by rwa [hknows.owned e (hsub e List.mem_cons_self)]) hdb
      have hlater := (hkeeps fun _ => True).2
      simp only [Advances, Cleaner.advance]
      cases net 0 with
      | answered =>
          refine ⟨hkeeps _, ⟨hknows.later hlater, hgone, fun e' he' => hsub e' (List.mem_cons_of_mem e he'), ?_⟩,
            hx.queue_later hlater⟩
          intro e' he' hin
          obtain ⟨hin, hne⟩ := List.mem_filter.mp hin
          exact (List.mem_cons.mp (hleft e' he' hin)).resolve_left (of_decide_eq_true hne)
      | lostBefore => exact ⟨⟨hdb, .refl db⟩, ⟨hknows, hgone⟩, hx.queue⟩
      | lostAfter => exact ⟨hkeeps _, ⟨hknows.later hlater, hgone⟩, hx.queue_later hlater⟩

end

/-- **A call** of a wipe or a reaper. -/
theorem advance_keeps (net : ℕ → Delivery) (hdb : OutboxOk owner db) (hx : CleanerOk owner db x) :
    Advances owner x.Cancels net db x := by
  obtain ⟨phase, queue⟩ := x
  have hphase := hx.phase
  cases phase with
  | stage root objects sandboxIds =>
      simp only [Advances, Cleaner.advance]
      split_ifs
      · exact ⟨⟨hdb, .refl db⟩, fun j hj => by simp at hj, hx.queue⟩
      · obtain ⟨hkeeps, hanswer⟩ := send_keeps net hdb fun s hs => stageCleanup_keeps hphase hs.1
        refine ⟨hkeeps, ?_, hx.queue_later hkeeps.2⟩
        cases hsent : (send (stageCleanup root objects sandboxIds) net db).1 with
        | none => trivial
        | some job =>
            obtain ⟨s, -, hlast⟩ := hanswer job hsent
            obtain ⟨rfl, hdb'⟩ := Prod.mk.inj hlast
            rintro j ⟨⟩
            exact ⟨rfl, hkeeps.1 _ (hdb' ▸ List.mem_append_right _ List.mem_cons_self)⟩
  | deleteRow root job => exact advance_deleteRow net hdb hx
  | cancel job =>
      have hkeeps : Keeps owner (fun n => job.id = n) db _ := (send_keeps net hdb fun s hs =>
        deleteJob_keeps (hphase.1.later hs.2) (mt (hs.2.roots _) hphase.2) (.inl rfl) hs.1).1
      exact ⟨⟨hkeeps.1, hkeeps.2.weaken fun _ hid => ⟨job, rfl, hid⟩⟩, trivial, hx.queue_later hkeeps.2⟩
  | read jobs =>
      obtain ⟨hkeeps, hanswer⟩ := send_keeps (f := cleanupPage jobs.length) net hdb fun s hs => ⟨hs.1, .refl s⟩
      refine ⟨hkeeps, ?_⟩
      simp only [Cleaner.advance]
      cases hsent : (send (cleanupPage jobs.length) net db).1 with
      | none => exact ⟨trivial, hx.queue_later hkeeps.2⟩
      | some page =>
          obtain ⟨s, -, hlast⟩ := hanswer page hsent
          have hjobs : ∀ j ∈ jobs ++ page, Knows owner (send (cleanupPage jobs.length) net db).2 j := by
            intro j hj
            rcases List.mem_append.mp hj with hj | hj
            · exact (hphase j hj).later hkeeps.2
            · cases hlast
              exact hkeeps.1 j (List.mem_of_mem_drop (List.mem_of_mem_take hj))
          dsimp only
          split_ifs
          · exact next_ok hjobs
          · exact ⟨hjobs, hx.queue_later hkeeps.2⟩
  | check job =>
      obtain ⟨hkeeps, hanswer⟩ := send_keeps (f := resourceExists job.root) net hdb fun s hs => ⟨hs.1, .refl s⟩
      refine ⟨hkeeps, ?_⟩
      simp only [Cleaner.advance]
      cases hsent : (send (resourceExists job.root) net db).1 with
      | none => exact ⟨trivial, hx.queue_later hkeeps.2⟩
      | some found =>
          obtain ⟨s, -, hlast⟩ := hanswer found hsent
          cases found with
          | true => exact next_ok (hx.queue_later hkeeps.2)
          | false =>
              obtain ⟨hout, rfl⟩ := Prod.mk.inj hlast
              exact ⟨⟨Knows.later hphase hkeeps.2, of_decide_eq_false hout⟩, hx.queue_later hkeeps.2⟩
  | markPending job => exact advance_markPending net hdb hx
  | remove job left => exact advance_remove net hdb hx
  | recordFailure job =>
      have hkeeps (mine : ℕ → Prop) : Keeps owner mine db _ := (send_keeps net hdb fun s hs =>
        updateJob_keeps (some (job.attemptCount + 1)) (hphase.1.later hs.2) (mt (hs.2.roots _) hphase.2) hs.1).1
      exact ⟨hkeeps _, next_ok (hx.queue_later (hkeeps (fun _ => True)).2)⟩
  | deleteJob job =>
      have hkeeps (mine : ℕ → Prop) : Keeps owner mine db _ := (send_keeps net hdb fun s hs =>
        deleteJob_keeps (hphase.1.later hs.2) (mt (hs.2.roots _) hphase.2.1)
          (.inr fun e he hin => hphase.2.2 e he (hs.2.stored e hin)) hs.1).1
      exact ⟨hkeeps _, next_ok (hx.queue_later (hkeeps (fun _ => True)).2)⟩
  | ended => exact ⟨⟨hdb, .refl db⟩, trivial, hx.queue⟩

end

/-! ### Runs -/

section
variable (owner : External → CleanupRoot)

/-- A wipe lists what belongs to the model that it deletes. -/
def CleanupStart.ListsOwn : CleanupStart → Prop
  | .wipe root objects sandboxIds => ∀ e ∈ objects.map External.object ++ sandboxIds.map .sandbox, owner e = root
  | .drain => True

def ListOwn (steps : List CleanupStep) : Prop := ∀ start, .spawn start ∈ steps → start.ListsOwn owner

def CleanupOk (w : Pool CleanupDb Cleaner) : Prop := w.Holds (OutboxOk owner) fun db _ x => CleanerOk owner db x

end

section
variable {owner : External → CleanupRoot} {w : Pool CleanupDb Cleaner}

theorem cleanupStep_ok (hw : CleanupOk owner w) (step : CleanupStep)
    (hstep : ∀ start, step = .spawn start → start.ListsOwn owner) :
    CleanupOk owner (cleanupStep w step) ∧ Later owner (fun _ => True) w.shared (cleanupStep w step).shared := by
  cases step with
  | spawn start =>
      refine ⟨hw.spawned ?_, .refl _⟩
      cases start with
      | wipe root objects sandboxIds => exact ⟨hstep _ rfl, by simp [CleanupStart.cleaner]⟩
      | drain => exact ⟨by simp [CleanupStart.cleaner, PhaseOk], by simp [CleanupStart.cleaner]⟩
  | advance k net =>
      refine ⟨hw.advanced fun x hx => ?_, ?_⟩
      · obtain ⟨hkeeps, hok⟩ := advance_keeps net hw.1 (hw.2 k x hx)
        exact ⟨hkeeps.1, hok, fun l y _ hy => (hw.2 l y hy).later hkeeps.2⟩
      · unfold cleanupStep
        cases hk : w.procs[k]? with
        | none =>
            rw [poolStep_advance_none hk]
            exact .refl _
        | some x =>
            rw [poolStep_advance hk]
            exact (advance_keeps net hw.1 (hw.2 k x hk)).1.2.weaken fun _ _ => trivial
  | env e => exact e.elim

theorem cleanupStep_advance {k : ℕ} {x : Cleaner} {net : ℕ → Delivery} (hx : w.procs[k]? = some x) :
    cleanupStep w (.advance k net) = ⟨(x.advance net w.shared).1, w.procs.set k (x.advance net w.shared).2⟩ :=
  poolStep_advance hx

theorem cleanup_run {steps : List CleanupStep} (hsteps : ListOwn owner steps) :
    ∀ {w : Pool CleanupDb Cleaner}, CleanupOk owner w → CleanupOk owner (run cleanupStep w steps) ∧
      Later owner (fun _ => True) w.shared (run cleanupStep w steps).shared := by
  induction steps with
  | nil => exact fun hw => ⟨hw, .refl _⟩
  | cons step steps ih =>
      intro w hw
      obtain ⟨hok, hlater⟩ := cleanupStep_ok hw step fun start h => hsteps start (h ▸ List.mem_cons_self)
      obtain ⟨hok', hlater'⟩ := ih (fun start h => hsteps start (List.mem_cons_of_mem step h)) hok
      exact ⟨hok', hlater.trans hlater'⟩

end

/-- Any rows and objects, and no jobs yet. -/
def emptyOutbox (roots : List CleanupRoot) (stored : List External) : Pool CleanupDb Cleaner :=
  ⟨⟨roots, [], 0, stored⟩, []⟩

theorem emptyOutbox_ok {owner : External → CleanupRoot} (roots : List CleanupRoot) (stored : List External) :
    CleanupOk owner (emptyOutbox roots stored) :=
  ⟨List.forall_mem_nil _, fun k x hx => by cases hx⟩

/-- **Safety.**  Whatever wipes and reapers do, and wherever they stop, an object stays as long as its root does. -/
theorem live_objects_kept (owner : External → CleanupRoot) (roots : List CleanupRoot) (stored : List External)
    (before after : List CleanupStep) (hown : ListOwn owner (before ++ after)) (e : External)
    (he : e ∈ (run cleanupStep (emptyOutbox roots stored) before).shared.stored)
    (hlive : owner e ∈ (run cleanupStep (emptyOutbox roots stored) (before ++ after)).shared.roots) :
    e ∈ (run cleanupStep (emptyOutbox roots stored) (before ++ after)).shared.stored := by
  have hbefore := cleanup_run (fun start hs => hown start (List.mem_append_left after hs)) (emptyOutbox_ok roots stored)
  have hafter := cleanup_run (fun start hs => hown start (List.mem_append_right before hs)) hbefore.1
  rw [run_append] at hlive ⊢
  exact hafter.2.stays e he hlive

/-- **No object is forgotten.**  A call takes a job out of the outbox only when its root is gone, and everything that
it lists is gone or the call is a wipe's cancellation. -/
theorem job_leaves_outbox (owner : External → CleanupRoot) (roots : List CleanupRoot) (stored : List External)
    (steps : List CleanupStep) (hown : ListOwn owner steps) (k : ℕ) (net : ℕ → Delivery) (x : Cleaner)
    (hx : (run cleanupStep (emptyOutbox roots stored) steps).procs[k]? = some x) (r : StorageCleanupJob)
    (hr : r ∈ (run cleanupStep (emptyOutbox roots stored) steps).shared.jobs)
    (hout : ∀ r' ∈ (run cleanupStep (emptyOutbox roots stored) (steps ++ [.advance k net])).shared.jobs, r'.id ≠ r.id) :
    let db := (run cleanupStep (emptyOutbox roots stored) (steps ++ [.advance k net])).shared
    r.root ∉ db.roots ∧ (x.Cancels r.id ∨ ∀ e ∈ r.externals, e ∉ db.stored) := by
  obtain ⟨hok, -⟩ := cleanup_run hown (emptyOutbox_ok roots stored)
  dsimp only
  rw [run_append, run_cons, run_nil, cleanupStep_advance hx] at hout ⊢
  have hkept := (advance_keeps net hok.1 (hok.2 k x hx)).1.2.kept r hr
  refine hkept.resolve_left ?_
  rintro ⟨r', hr', heq⟩
  exact hout r' hr' (content_id heq)

def sampleObject (path : String) : StorageCleanupObject := ⟨"traces", path⟩

def sampleOwner (e : External) : CleanupRoot := (.worldModel, if e = .object (sampleObject "a") then 1 else 2)

/-- The wipe of the second model, to its end. -/
def sampleWipe : List CleanupStep :=
  .spawn (.wipe (.worldModel, 2) [sampleObject "b"] []) :: List.replicate 6 (.advance 0 fun _ => .answered)

theorem sampleWipe_listOwn : ListOwn sampleOwner sampleWipe := by
  intro start hstart
  obtain rfl : start = .wipe (.worldModel, 2) [sampleObject "b"] [] := by simpa [sampleWipe] using hstart
  intro e he
  obtain rfl : e = .object (sampleObject "b") := by simpa using he
  decide

def sampleOutbox : Pool CleanupDb Cleaner :=
  emptyOutbox [(.worldModel, 1), (.worldModel, 2)] [.object (sampleObject "a"), .object (sampleObject "b")]

theorem live_objects_kept_wipe : .object (sampleObject "a") ∈ (run cleanupStep sampleOutbox sampleWipe).shared.stored :=
  live_objects_kept sampleOwner _ _ [] sampleWipe sampleWipe_listOwn (.object (sampleObject "a")) (by decide)
    (by decide)

def sampleJob : StorageCleanupJob := ⟨0, (.worldModel, 2), .pending, [sampleObject "b"], [], 0⟩

theorem job_leaves_outbox_wipe : (.worldModel, 2) ∉ (run cleanupStep sampleOutbox sampleWipe).shared.roots ∧
    .object (sampleObject "b") ∉ (run cleanupStep sampleOutbox sampleWipe).shared.stored := by
  have hstay := job_leaves_outbox sampleOwner [(.worldModel, 1), (.worldModel, 2)]
    [.object (sampleObject "a"), .object (sampleObject "b")] (sampleWipe.take 6)
    (fun start hs => sampleWipe_listOwn start (List.mem_of_mem_take hs)) 0 (fun _ => .answered)
    ⟨.deleteJob sampleJob, []⟩ (by decide) sampleJob (by decide) (by decide)
  refine ⟨hstay.1, hstay.2.resolve_left ?_ _ List.mem_cons_self⟩
  rintro ⟨job, ⟨⟩, -⟩

/-- The proxy sends the delete again, the wipe cancels its job, and the object is listed nowhere. -/
example : (run cleanupStep (emptyOutbox [(.worldModel, 2)] [.object (sampleObject "b")])
    [.spawn (.wipe (.worldModel, 2) [sampleObject "b"] []), .advance 0 fun _ => .answered,
      .advance 0 fun i => if i = 0 then .lostAfter else .answered, .advance 0 fun _ => .answered]).shared =
    ⟨[], [], 1, [.object (sampleObject "b")]⟩ := by decide

end Experiential.Transport
