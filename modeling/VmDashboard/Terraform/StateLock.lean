import VmDashboard.Machine.System
import VmDashboard.Machine.Table
import VmDashboard.Jobs.Row

/-!
# Breaking a terraform state lock

The two ways a lock on one state is broken from the dashboard: the release after a
cancel (`_stream`, `_release_own_lock_sync` of `services/terraform.py`) and the
operator's force-unlock (`force_unlock_job_state` of `api/jobs.py`,
`lock_blocking_jobs`, `_force_unlock_state_sync`), over the terraform processes, the
job rows and the lock as terraform and the backend keep it.
-/

namespace StateLock
open Python (Instant)
open Jobs (Job)
open Machine (System Table)

/-! ### The two guards -/

/-- What `_classify_lock_probe` and `_parse_lock_time` make of the probe's output. -/
inductive Probe
  | unlocked
  | unknown
  | locked (id : ℕ) (who : String) (created : Option Instant)

/-- The ways out of `_release_own_lock_sync`. -/
inductive Verdict
  | noneHeld
  | couldNotRead
  | notOurs (who mine : String)
  | unparseable
  | takenBefore (created startedAt : Instant)
  | release (id : ℕ)
  deriving DecidableEq

def releaseOwnLock (mine : String) (startedAt : Instant) : Probe → Verdict
  | .unlocked => .noneHeld
  | .unknown => .couldNotRead
  | .locked id who created =>
    if who ≠ mine then .notOurs who mine
    else
      match created with
      | none => .unparseable
      | some created =>
        if created < startedAt then .takenBefore created startedAt else .release id

theorem releaseOwnLock_release {mine : String} {startedAt : Instant} {probe : Probe} {id : ℕ}
    (h : releaseOwnLock mine startedAt probe = .release id) :
    ∃ created, probe = .locked id mine (some created) ∧ startedAt ≤ created := by
  match probe with
  | .unlocked | .unknown => cases h
  | .locked id' who created =>
    simp only [releaseOwnLock] at h
    split_ifs at h with hwho
    cases created with
    | none => cases h
    | some created =>
      simp only at h
      split_ifs at h with hbefore
      obtain rfl := Verdict.release.inj h
      obtain rfl := not_ne_iff.mp hwho
      exact ⟨created, rfl, Nat.le_of_not_lt hbefore⟩

/-- Of `jobs`, those that could still hold a lock created at `lockCreated`. -/
def lockBlockingJobs (jobs : List Job) (lockCreated : Option Instant) : List Job :=
  jobs.filter fun job =>
    job.status = .running &&
      match lockCreated, job.startedAt with
      | some created, some started => started ≤ created
      | _, _ => true

def terraformLockBlockers (jobs : Table Job.id) (lockCreated : Option Instant) : List Job :=
  lockBlockingJobs (jobs.rows.filter fun job => job.status = .running) lockCreated

theorem not_running_of_no_blockers {jobs : Table Job.id} {created started : Instant} {job : Job}
    (h : terraformLockBlockers jobs (some created) = []) (hjob : job ∈ jobs.rows)
    (hstarted : job.startedAt = some started) (hle : started ≤ created) : job.status ≠ .running := by
  intro hrunning
  have hmem : job ∈ terraformLockBlockers jobs (some created) := by
    simp [terraformLockBlockers, lockBlockingJobs, hjob, hrunning, hstarted, hle]
  rw [h] at hmem
  cases hmem

/-! ### One state -/

inductive Proc
  | unspawned | running | gone
  deriving DecidableEq

/-- Where `_stream` is. -/
inductive Phase
  | streaming | terminating | releasing
  | breaking (lockId : ℕ)
  | over
  deriving DecidableEq

/-- A terraform run against the state. -/
structure Run where
  id : ℕ
  job : String
  /-- `_self_lock_owner()` where it runs -/
  owner : String
  startedAt : Instant
  proc : Proc
  phase : Phase

structure Lock where
  id : ℕ
  who : String
  created : Instant
  /-- the run whose process took it -/
  holder : ℕ

/-- An operator's force-unlock. -/
inductive Stage
  | shown | checked | reread
  deriving DecidableEq

structure Unlock where
  id : ℕ
  /-- the lock id the operator was shown -/
  lockId : ℕ
  stage : Stage

structure State where
  now : Instant
  nextId : ℕ
  lock : Option Lock
  runs : Table Run.id
  jobs : Table Job.id
  unlocks : Table Unlock.id

inductive Event
  | tick (passed : ℕ)
  -- the job rows
  | claim (job : Job)
  | cancel (job : String)
  | finish (job : String)
  -- `_stream` and its process
  | begin (run : ℕ) (job owner : String)
  | spawn (run : ℕ)
  | take (run : ℕ)
  | free (run : ℕ)
  | exit (run : ℕ)
  | close (run : ℕ)
  -- `on_line` raises `JobCancelled`
  | notice (run : ℕ)
  | waited (run : ℕ)
  | probe (run : ℕ) (answered : Bool)
  | release (run : ℕ)
  -- the operator
  | view (unlock : ℕ)
  | check (unlock : ℕ)
  | reread (unlock : ℕ)
  | forceUnlock (unlock : ℕ)

def State.alive (s : State) (run : ℕ) : Bool :=
  (s.runs.lookup run).any fun run => run.proc = .running

def State.holds (s : State) (run : ℕ) : Bool := s.lock.any fun lock => lock.holder = run

def State.setProc (s : State) (run : ℕ) (proc : Proc) : State :=
  { s with runs := s.runs.modify run (fun r => { r with proc }) fun _ => rfl }

def State.setPhase (s : State) (run : ℕ) (phase : Phase) : State :=
  { s with runs := s.runs.modify run (fun r => { r with phase }) fun _ => rfl }

/-- `terraform force-unlock -force <id>`. -/
def State.breakLock (s : State) (id : ℕ) : State :=
  { s with lock := s.lock.filter fun lock => lock.id ≠ id }

def State.probe (s : State) (answered : Bool) : Probe :=
  if answered then
    match s.lock with
    | none => .unlocked
    | some lock => .locked lock.id lock.who (some lock.created)
  else .unknown

def State.step (s : State) : Event → Option State
  | .tick passed => some { s with now := s.now + passed }
  | .claim job => (s.jobs.insert (Jobs.setRunning s.now job)).map fun jobs => { s with jobs }
  | .cancel job =>
    some { s with jobs := s.jobs.modify job (Jobs.setCancelled s.now) fun row =>
      (Jobs.setCancelled_same s.now row).id }
  | .finish job =>
    if ∀ run ∈ s.runs.rows, run.job = job → run.phase = .over ∧ run.proc = .gone then
      some { s with jobs := s.jobs.modify job (Jobs.setCompleted s.now []) fun _ => rfl }
    else none
  | .begin run job owner => do
    let row ← s.jobs.lookup job
    if row.status = .running ∨ row.status = .cancelled then
      let runs ← s.runs.insert ⟨run, job, owner, s.now, .unspawned, .streaming⟩
      some { s with runs }
    else none
  | .spawn run => do
    let r ← s.runs.lookup run
    if r.proc = .unspawned then some (s.setProc run .running) else none
  | .take run => do
    let r ← s.runs.lookup run
    if r.proc = .running ∧ s.lock.isNone then
      some { s with lock := some ⟨s.nextId, r.owner, s.now, run⟩, nextId := s.nextId + 1 }
    else none
  | .free run => if s.alive run && s.holds run then some { s with lock := none } else none
  | .exit run => if s.alive run then some (s.setProc run .gone) else none
  | .close run => do
    let r ← s.runs.lookup run
    if r.phase = .streaming ∧ r.proc = .gone then some (s.setPhase run .over) else none
  | .notice run => do
    -- a line of a process that is gone may still be in the pipe
    let r ← s.runs.lookup run
    let row ← s.jobs.lookup r.job
    if r.phase = .streaming ∧ r.proc ≠ .unspawned ∧ row.status = .cancelled then
      some (s.setPhase run .terminating)
    else none
  | .waited run => do
    -- both waits are bounded: the process may outlive them
    let r ← s.runs.lookup run
    if r.phase = .terminating then some (s.setPhase run .releasing) else none
  | .probe run answered => do
    let r ← s.runs.lookup run
    if r.phase = .releasing then
      match releaseOwnLock r.owner r.startedAt (s.probe answered) with
      | .release id => some (s.setPhase run (.breaking id))
      | _ => some (s.setPhase run .over)
    else none
  | .release run => do
    let r ← s.runs.lookup run
    match r.phase with
    | .breaking id => some ((s.setPhase run .over).breakLock id)
    | _ => none
  | .view unlock => do
    let lock ← s.lock
    some { s with unlocks := s.unlocks.put ⟨unlock, lock.id, .shown⟩ }
  | .check unlock => do
    let u ← s.unlocks.lookup unlock
    let lock ← s.lock
    if u.stage = .shown ∧ terraformLockBlockers s.jobs (some lock.created) = [] then
      some { s with unlocks := s.unlocks.put { u with stage := .checked } }
    else none
  | .reread unlock => do
    let u ← s.unlocks.lookup unlock
    let lock ← s.lock
    if u.stage = .checked ∧ lock.id = u.lockId then
      some { s with unlocks := s.unlocks.put { u with stage := .reread } }
    else none
  | .forceUnlock unlock => do
    let u ← s.unlocks.lookup unlock
    if u.stage = .reread then
      some ({ s with unlocks := s.unlocks.erase unlock }.breakLock u.lockId)
    else none

theorem probe_locked {s : State} {answered : Bool} {id : ℕ} {who : String} {created : Instant}
    (h : s.probe answered = .locked id who (some created)) :
    ∃ lock, s.lock = some lock ∧ lock.id = id ∧ lock.who = who ∧ created = lock.created := by
  unfold State.probe at h
  split_ifs at h
  split at h
  · cases h
  next lock hlock =>
    cases h
    exact ⟨lock, hlock, rfl, rfl, rfl⟩

def lockSystem : System State Event := ⟨State.step⟩

def State.init (now : Instant) : State := ⟨now, 0, none, .empty, .empty, .empty⟩

/-- The lock that a step breaks. -/
def State.broken (s : State) : Event → Option Lock
  | .release run =>
    match (s.runs.lookup run).map Run.phase with
    | some (.breaking id) => s.lock.filter fun lock => lock.id = id
    | _ => none
  | .forceUnlock unlock =>
    match s.unlocks.lookup unlock with
    | some u => if u.stage = .reread then s.lock.filter fun lock => lock.id = u.lockId else none
    | none => none
  | _ => none

/-- The process that took the lock a step breaks is not running. -/
def HolderGone (s : State) (event : Event) : Prop :=
  ∀ lock ∈ s.broken event, s.alive lock.holder = false

/-- Of the terraform processes of a run's container, none that took the lock since the run's
stamp is running when the run's release reads the lock; and when the operator's check reads it,
a process that holds it belongs to a job whose row is still `running`. -/
def Apart (s : State) : Event → Prop
  | .probe run _ => ∀ r ∈ s.runs.lookup run, ∀ lock ∈ s.lock,
      lock.who = r.owner → r.startedAt ≤ lock.created → s.alive lock.holder = false
  | .check _ => ∀ lock ∈ s.lock, ∀ r ∈ s.runs.lookup lock.holder, ∀ row ∈ s.jobs.lookup r.job,
      r.proc = .running → row.status = .running
  | _ => True

instance (s : State) (event : Event) : Decidable (HolderGone s event) := by
  unfold HolderGone; infer_instance

instance (s : State) (event : Event) : Decidable (Apart s event) := by
  unfold Apart; cases event <;> infer_instance

/-! ### The stamps are in order -/

structure Ledger (s : State) : Prop where
  jobs : ∀ id row, s.jobs.lookup id = some row → ∃ started, row.startedAt = some started ∧
    started ≤ s.now
  runs : ∀ id run, s.runs.lookup id = some run → run.startedAt ≤ s.now ∧
    ∃ row started, s.jobs.lookup run.job = some row ∧ row.startedAt = some started ∧
      started ≤ run.startedAt
  lock : ∀ lock, s.lock = some lock → lock.id < s.nextId ∧
    ∃ run, s.runs.lookup lock.holder = some run ∧ run.proc ≠ .unspawned ∧
      run.startedAt ≤ lock.created
  shown : ∀ id unlock, s.unlocks.lookup id = some unlock → unlock.lockId < s.nextId

theorem Ledger.modify_runs {s : State} (h : Ledger s) (run : ℕ) (f : Run → Run)
    (hf : ∀ r, (f r).id = r.id) (hjob : ∀ r, (f r).job = r.job)
    (hstamp : ∀ r, (f r).startedAt = r.startedAt)
    (hproc : ∀ r, r.proc ≠ .unspawned → (f r).proc ≠ .unspawned) :
    Ledger { s with runs := s.runs.modify run f hf } where
  jobs := h.jobs
  runs id r' hr' := by
    obtain ⟨r, hr, ⟨-, rfl⟩ | ⟨-, rfl⟩⟩ := Table.of_lookup_modify f hf hr'
    · rw [hjob, hstamp]
      exact h.runs id r hr
    · exact h.runs id _ hr
  lock lock hlock := by
    obtain ⟨hid, r, hr, hspawned, hcreated⟩ := h.lock lock hlock
    refine ⟨hid, _, Table.lookup_modify_of_some f hf hr, ?_, ?_⟩
    · split
      · exact hproc r hspawned
      · exact hspawned
    · split
      · rwa [hstamp]
      · exact hcreated
  shown := h.shown

theorem Ledger.setProc {s : State} (h : Ledger s) (run : ℕ) {proc : Proc}
    (hproc : proc ≠ .unspawned) : Ledger (s.setProc run proc) :=
  h.modify_runs run (fun r => { r with proc }) (fun _ => rfl) (fun _ => rfl) (fun _ => rfl)
    fun _ _ => hproc

theorem Ledger.setPhase {s : State} (h : Ledger s) (run : ℕ) (phase : Phase) :
    Ledger (s.setPhase run phase) :=
  h.modify_runs run (fun r => { r with phase }) (fun _ => rfl) (fun _ => rfl) (fun _ => rfl)
    fun _ hproc => hproc

theorem Ledger.breakLock {s : State} (h : Ledger s) (id : ℕ) : Ledger (s.breakLock id) :=
  { h with lock := fun lock hlock => h.lock lock (Option.filter_eq_some_iff.mp hlock).1 }

theorem Ledger.modify_jobs {s : State} (h : Ledger s) (job : String) (f : Job → Job)
    (hf : ∀ row, (f row).id = row.id) (hstarted : ∀ row, (f row).startedAt = row.startedAt) :
    Ledger { s with jobs := s.jobs.modify job f hf } where
  jobs id row' hrow' := by
    obtain ⟨row, hrow, ⟨-, rfl⟩ | ⟨-, rfl⟩⟩ := Table.of_lookup_modify f hf hrow'
    · rw [hstarted]
      exact h.jobs id row hrow
    · exact h.jobs id _ hrow
  runs id run hrun := by
    obtain ⟨hnow, row, started, hrow, hstart, hle⟩ := h.runs id run hrun
    refine ⟨hnow, _, started, Table.lookup_modify_of_some f hf hrow, ?_, hle⟩
    split
    · rwa [hstarted]
    · exact hstart
  lock := h.lock
  shown := h.shown

theorem Ledger.put_unlock {s : State} (h : Ledger s) (unlock : Unlock)
    (hid : unlock.lockId < s.nextId) : Ledger { s with unlocks := s.unlocks.put unlock } := by
  refine { h with shown := fun id u hu => ?_ }
  rw [Table.lookup_put] at hu
  split_ifs at hu
  · obtain rfl := Option.some.inj hu
    exact hid
  · exact h.shown id u hu

theorem setCancelled_startedAt (now : Instant) (job : Job) :
    (Jobs.setCancelled now job).startedAt = job.startedAt := by
  unfold Jobs.setCancelled
  split <;> rfl

theorem ledger_step {s t : State} {event : Event} (h : Ledger s) (hstep : s.step event = some t) :
    Ledger t := by
  cases event with
  | tick passed =>
    obtain rfl := Option.some.inj hstep
    refine ⟨fun id row hrow => ?_, fun id run hrun => ?_, h.lock, h.shown⟩
    · obtain ⟨started, hstarted, hle⟩ := h.jobs id row hrow
      exact ⟨started, hstarted, Nat.le_add_right_of_le hle⟩
    · obtain ⟨hle, hrow⟩ := h.runs id run hrun
      exact ⟨Nat.le_add_right_of_le hle, hrow⟩
  | claim job =>
    obtain ⟨jobs, hjobs, rfl⟩ := Option.map_eq_some_iff.mp hstep
    refine ⟨fun id row hrow => ?_, fun id run hrun => ?_, h.lock, h.shown⟩
    · rw [Table.lookup_insert hjobs] at hrow
      split_ifs at hrow
      · obtain rfl := Option.some.inj hrow
        exact ⟨s.now, rfl, le_rfl⟩
      · exact h.jobs id row hrow
    · obtain ⟨hle, row, started, hrow, hstarted⟩ := h.runs id run hrun
      exact ⟨hle, row, started, Table.lookup_insert_of_some hjobs hrow, hstarted⟩
  | cancel job =>
    obtain rfl := Option.some.inj hstep
    exact h.modify_jobs job _ _ (setCancelled_startedAt s.now)
  | finish job =>
    simp only [State.step, Option.ite_none_right_eq_some, Option.some_inj] at hstep
    obtain ⟨-, rfl⟩ := hstep
    exact h.modify_jobs job _ _ fun _ => rfl
  | begin run job owner =>
    simp only [State.step, Option.bind_eq_bind, Option.bind_eq_some_iff] at hstep
    obtain ⟨row, hrow, hstep⟩ := hstep
    rw [Option.ite_none_right_eq_some] at hstep
    obtain ⟨-, hstep⟩ := hstep
    obtain ⟨runs, hruns, hstep⟩ := Option.bind_eq_some_iff.mp hstep
    obtain rfl := Option.some.inj hstep
    obtain ⟨started, hstarted, hle⟩ := h.jobs job row hrow
    refine ⟨h.jobs, fun id r hr => ?_, fun lock hlock => ?_, h.shown⟩
    · rw [Table.lookup_insert hruns] at hr
      split_ifs at hr
      · obtain rfl := Option.some.inj hr
        exact ⟨le_rfl, row, started, hrow, hstarted, hle⟩
      · exact h.runs id r hr
    · obtain ⟨hid, r, hr, hspawned⟩ := h.lock lock hlock
      exact ⟨hid, r, Table.lookup_insert_of_some hruns hr, hspawned⟩
  | spawn run =>
    simp only [State.step, Option.bind_eq_bind, Option.bind_eq_some_iff,
      Option.ite_none_right_eq_some, Option.some_inj] at hstep
    obtain ⟨r, -, -, rfl⟩ := hstep
    exact h.setProc run (by decide)
  | take run =>
    simp only [State.step, Option.bind_eq_bind, Option.bind_eq_some_iff,
      Option.ite_none_right_eq_some, Option.some_inj] at hstep
    obtain ⟨r, hr, ⟨hproc, -⟩, rfl⟩ := hstep
    refine ⟨h.jobs, h.runs, fun lock hlock => ?_, fun id u hu => ?_⟩
    · obtain rfl := Option.some.inj hlock
      exact ⟨Nat.lt_succ_self _, r, hr, by simp [hproc], (h.runs run r hr).1⟩
    · exact Nat.lt_succ_of_lt (h.shown id u hu)
  | free run =>
    simp only [State.step, Option.ite_none_right_eq_some, Option.some_inj] at hstep
    obtain ⟨-, rfl⟩ := hstep
    exact { h with lock := by simp }
  | exit run =>
    simp only [State.step, Option.ite_none_right_eq_some, Option.some_inj] at hstep
    obtain ⟨-, rfl⟩ := hstep
    exact h.setProc run (by decide)
  | close run | waited run =>
    simp only [State.step, Option.bind_eq_bind, Option.bind_eq_some_iff,
      Option.ite_none_right_eq_some, Option.some_inj] at hstep
    obtain ⟨r, -, -, rfl⟩ := hstep
    exact h.setPhase run _
  | notice run =>
    simp only [State.step, Option.bind_eq_bind, Option.bind_eq_some_iff,
      Option.ite_none_right_eq_some, Option.some_inj] at hstep
    obtain ⟨r, -, row, -, -, rfl⟩ := hstep
    exact h.setPhase run _
  | probe run answered =>
    simp only [State.step, Option.bind_eq_bind, Option.bind_eq_some_iff,
      Option.ite_none_right_eq_some] at hstep
    obtain ⟨r, -, -, hstep⟩ := hstep
    split at hstep <;> obtain rfl := Option.some.inj hstep <;> exact h.setPhase run _
  | release run =>
    simp only [State.step, Option.bind_eq_bind, Option.bind_eq_some_iff] at hstep
    obtain ⟨r, -, hstep⟩ := hstep
    split at hstep
    · obtain rfl := Option.some.inj hstep
      exact (h.setPhase run _).breakLock _
    · cases hstep
  | view unlock =>
    simp only [State.step, Option.bind_eq_bind, Option.bind_eq_some_iff, Option.some_inj] at hstep
    obtain ⟨lock, hlock, rfl⟩ := hstep
    exact h.put_unlock _ (h.lock lock hlock).1
  | check unlock | reread unlock =>
    simp only [State.step, Option.bind_eq_bind, Option.bind_eq_some_iff,
      Option.ite_none_right_eq_some, Option.some_inj] at hstep
    obtain ⟨u, hu, lock, -, -, rfl⟩ := hstep
    exact h.put_unlock { u with stage := _ } (h.shown unlock u hu)
  | forceUnlock unlock =>
    simp only [State.step, Option.bind_eq_bind, Option.bind_eq_some_iff,
      Option.ite_none_right_eq_some, Option.some_inj] at hstep
    obtain ⟨u, -, -, rfl⟩ := hstep
    refine Ledger.breakLock (s := { s with unlocks := s.unlocks.erase unlock })
      { h with shown := fun id u hu => ?_ } u.lockId
    rw [Table.lookup_erase] at hu
    split_ifs at hu
    exact h.shown id u hu

/-! ### A lock cleared for breaking -/

/-- Should the lock still be held under this id, its process is gone. -/
def State.Cleared (s : State) (id : ℕ) : Prop :=
  id < s.nextId ∧ ∀ lock, s.lock = some lock → lock.id = id → s.alive lock.holder = false

/-- A lock keeps its id and its holder, a process that is gone stays gone, and a new lock has a
new id. -/
structure Onward (s t : State) : Prop where
  nextId : s.nextId ≤ t.nextId
  lock : ∀ lock, t.lock = some lock → s.lock = some lock ∨ s.nextId ≤ lock.id
  alive : ∀ lock, s.lock = some lock → s.alive lock.holder = false → t.alive lock.holder = false

theorem State.Cleared.onward {s t : State} {id : ℕ} (h : s.Cleared id) (hst : Onward s t) :
    t.Cleared id := by
  refine ⟨h.1.trans_le hst.nextId, fun lock hlock hid => ?_⟩
  rcases hst.lock lock hlock with hlock | hnew
  · exact hst.alive lock hlock (h.2 lock hlock hid)
  · exact absurd (hid ▸ hnew) (Nat.not_le_of_lt h.1)

@[simp] theorem alive_setPhase (s : State) (run k : ℕ) (phase : Phase) :
    (s.setPhase run phase).alive k = s.alive k := by
  simp only [State.alive, State.setPhase, Table.lookup_modify]
  split <;> cases s.runs.lookup k <;> rfl

theorem alive_exit {s : State} {k : ℕ} (run : ℕ) (h : s.alive k = false) :
    (s.setProc run .gone).alive k = false := by
  simp only [State.alive, State.setProc, Table.lookup_modify] at h ⊢
  split
  · cases s.runs.lookup k <;> rfl
  · exact h

theorem alive_spawn {s : State} {k run : ℕ} (hk : k ≠ run) (h : s.alive k = false) :
    (s.setProc run .running).alive k = false := by
  simpa only [State.alive, State.setProc, Table.lookup_modify, if_neg hk] using h

theorem Onward.same {s t : State} (hid : s.nextId = t.nextId) (hlock : t.lock = s.lock)
    (halive : ∀ k, s.alive k = false → t.alive k = false) : Onward s t :=
  ⟨hid.le, fun _ h => .inl (hlock ▸ h), fun lock _ => halive lock.holder⟩

theorem step_onward {s t : State} {event : Event} (h : Ledger s) (hstep : s.step event = some t) :
    Onward s t := by
  cases event with
  | tick passed | cancel job =>
    obtain rfl := Option.some.inj hstep
    exact .same rfl rfl fun _ => id
  | claim job =>
    obtain ⟨jobs, hjobs, rfl⟩ := Option.map_eq_some_iff.mp hstep
    exact .same rfl rfl fun _ => id
  | finish job =>
    simp only [State.step, Option.ite_none_right_eq_some, Option.some_inj] at hstep
    obtain ⟨-, rfl⟩ := hstep
    exact .same rfl rfl fun _ => id
  | begin run job owner =>
    simp only [State.step, Option.bind_eq_bind, Option.bind_eq_some_iff] at hstep
    obtain ⟨row, hrow, hstep⟩ := hstep
    rw [Option.ite_none_right_eq_some] at hstep
    obtain ⟨-, hstep⟩ := hstep
    obtain ⟨runs, hruns, hstep⟩ := Option.bind_eq_some_iff.mp hstep
    obtain rfl := Option.some.inj hstep
    refine .same rfl rfl fun k hk => ?_
    simp only [State.alive, Table.lookup_insert hruns] at hk ⊢
    split
    · rfl
    · exact hk
  | spawn run =>
    simp only [State.step, Option.bind_eq_bind, Option.bind_eq_some_iff,
      Option.ite_none_right_eq_some, Option.some_inj] at hstep
    obtain ⟨r, hr, hproc, rfl⟩ := hstep
    refine ⟨le_rfl, fun _ => .inl, fun lock hlock => alive_spawn fun hk => ?_⟩
    -- the holder was spawned long ago
    obtain ⟨-, r', hr', hspawned, -⟩ := h.lock lock hlock
    rw [hk, hr] at hr'
    obtain rfl := Option.some.inj hr'
    exact hspawned hproc
  | take run =>
    simp only [State.step, Option.bind_eq_bind, Option.bind_eq_some_iff,
      Option.ite_none_right_eq_some, Option.some_inj] at hstep
    obtain ⟨r, hr, -, rfl⟩ := hstep
    refine ⟨Nat.le_succ _, fun lock hlock => ?_, fun _ _ => id⟩
    obtain rfl := Option.some.inj hlock
    exact .inr le_rfl
  | free run =>
    simp only [State.step, Option.ite_none_right_eq_some, Option.some_inj] at hstep
    obtain ⟨-, rfl⟩ := hstep
    exact ⟨le_rfl, by simp, fun _ _ => id⟩
  | exit run =>
    simp only [State.step, Option.ite_none_right_eq_some, Option.some_inj] at hstep
    obtain ⟨-, rfl⟩ := hstep
    exact .same rfl rfl fun _ => alive_exit run
  | close run | waited run =>
    simp only [State.step, Option.bind_eq_bind, Option.bind_eq_some_iff,
      Option.ite_none_right_eq_some, Option.some_inj] at hstep
    obtain ⟨r, -, -, rfl⟩ := hstep
    exact .same rfl rfl fun k hk => (alive_setPhase s run k _).trans hk
  | notice run =>
    simp only [State.step, Option.bind_eq_bind, Option.bind_eq_some_iff,
      Option.ite_none_right_eq_some, Option.some_inj] at hstep
    obtain ⟨r, -, row, -, -, rfl⟩ := hstep
    exact .same rfl rfl fun k hk => (alive_setPhase s run k _).trans hk
  | probe run answered =>
    simp only [State.step, Option.bind_eq_bind, Option.bind_eq_some_iff,
      Option.ite_none_right_eq_some] at hstep
    obtain ⟨r, -, -, hstep⟩ := hstep
    split at hstep <;> obtain rfl := Option.some.inj hstep <;>
      exact .same rfl rfl fun k hk => (alive_setPhase s run k _).trans hk
  | release run =>
    simp only [State.step, Option.bind_eq_bind, Option.bind_eq_some_iff] at hstep
    obtain ⟨r, -, hstep⟩ := hstep
    split at hstep
    · obtain rfl := Option.some.inj hstep
      refine ⟨le_rfl, fun lock hlock => .inl (Option.filter_eq_some_iff.mp hlock).1,
        fun lock _ hk => ?_⟩
      exact (alive_setPhase s run lock.holder .over).trans hk
    · cases hstep
  | view unlock =>
    simp only [State.step, Option.bind_eq_bind, Option.bind_eq_some_iff, Option.some_inj] at hstep
    obtain ⟨lock, -, rfl⟩ := hstep
    exact .same rfl rfl fun _ => id
  | check unlock | reread unlock =>
    simp only [State.step, Option.bind_eq_bind, Option.bind_eq_some_iff,
      Option.ite_none_right_eq_some, Option.some_inj] at hstep
    obtain ⟨u, -, lock, -, -, rfl⟩ := hstep
    exact .same rfl rfl fun _ => id
  | forceUnlock unlock =>
    simp only [State.step, Option.bind_eq_bind, Option.bind_eq_some_iff,
      Option.ite_none_right_eq_some, Option.some_inj] at hstep
    obtain ⟨u, -, -, rfl⟩ := hstep
    exact ⟨le_rfl, fun lock hlock => .inl (Option.filter_eq_some_iff.mp hlock).1, fun _ _ => id⟩

/-! ### What comes to be broken -/

theorem phase_of_setPhase {s : State} {run id : ℕ} {phase : Phase} {r' : Run}
    (h : (s.setPhase run phase).runs.lookup id = some r') :
    (∃ r, s.runs.lookup id = some r ∧ r.phase = r'.phase) ∨
      id = run ∧ r'.phase = phase ∧ (s.runs.lookup id).isSome := by
  obtain ⟨r, hr, ⟨hid, rfl⟩ | ⟨-, rfl⟩⟩ := Table.of_lookup_modify (fun r : Run => { r with phase }) (fun _ => rfl) h
  · exact .inr ⟨hid, rfl, by simp [hr]⟩
  · exact .inl ⟨_, hr, rfl⟩

theorem phase_of_setProc {s : State} {run id : ℕ} {proc : Proc} {r' : Run}
    (h : (s.setProc run proc).runs.lookup id = some r') :
    ∃ r, s.runs.lookup id = some r ∧ r.phase = r'.phase := by
  obtain ⟨r, hr, ⟨-, rfl⟩ | ⟨-, rfl⟩⟩ := Table.of_lookup_modify (fun r : Run => { r with proc }) (fun _ => rfl) h
  · exact ⟨r, hr, rfl⟩
  · exact ⟨_, hr, rfl⟩

/-- A run comes to break the lock that its release reads. -/
theorem step_breaking {s t : State} {event : Event} {id lockId : ℕ} {r' : Run}
    (hstep : s.step event = some t) (hr' : t.runs.lookup id = some r')
    (hphase : r'.phase = .breaking lockId) :
    (∃ r, s.runs.lookup id = some r ∧ r.phase = .breaking lockId) ∨
      ∃ answered r lock, event = .probe id answered ∧ s.runs.lookup id = some r ∧
        s.lock = some lock ∧ lock.id = lockId ∧ lock.who = r.owner ∧
        r.startedAt ≤ lock.created := by
  cases event with
  | tick passed | cancel job =>
    obtain rfl := Option.some.inj hstep
    exact .inl ⟨r', hr', hphase⟩
  | claim job =>
    obtain ⟨jobs, -, rfl⟩ := Option.map_eq_some_iff.mp hstep
    exact .inl ⟨r', hr', hphase⟩
  | finish job | free run =>
    simp only [State.step, Option.ite_none_right_eq_some, Option.some_inj] at hstep
    obtain ⟨_, rfl⟩ := hstep
    exact .inl ⟨r', hr', hphase⟩
  | begin run job owner =>
    simp only [State.step, Option.bind_eq_bind, Option.bind_eq_some_iff] at hstep
    obtain ⟨row, -, hstep⟩ := hstep
    rw [Option.ite_none_right_eq_some] at hstep
    obtain ⟨_, hstep⟩ := hstep
    obtain ⟨runs, hruns, hstep⟩ := Option.bind_eq_some_iff.mp hstep
    obtain rfl := Option.some.inj hstep
    rw [Table.lookup_insert hruns] at hr'
    split_ifs at hr'
    · obtain rfl := Option.some.inj hr'
      cases hphase
    · exact .inl ⟨r', hr', hphase⟩
  | spawn run =>
    simp only [State.step, Option.bind_eq_bind, Option.bind_eq_some_iff,
      Option.ite_none_right_eq_some, Option.some_inj] at hstep
    obtain ⟨_, _, _, rfl⟩ := hstep
    obtain ⟨r, hr, hsame⟩ := phase_of_setProc hr'
    exact .inl ⟨r, hr, hsame.trans hphase⟩
  | take run =>
    simp only [State.step, Option.bind_eq_bind, Option.bind_eq_some_iff,
      Option.ite_none_right_eq_some, Option.some_inj] at hstep
    obtain ⟨_, _, _, rfl⟩ := hstep
    exact .inl ⟨r', hr', hphase⟩
  | exit run =>
    simp only [State.step, Option.ite_none_right_eq_some, Option.some_inj] at hstep
    obtain ⟨_, rfl⟩ := hstep
    obtain ⟨r, hr, hsame⟩ := phase_of_setProc hr'
    exact .inl ⟨r, hr, hsame.trans hphase⟩
  | close run | waited run =>
    simp only [State.step, Option.bind_eq_bind, Option.bind_eq_some_iff,
      Option.ite_none_right_eq_some, Option.some_inj] at hstep
    obtain ⟨_, _, _, rfl⟩ := hstep
    rcases phase_of_setPhase hr' with ⟨r, hr, hsame⟩ | ⟨-, hnew, -⟩
    · exact .inl ⟨r, hr, hsame.trans hphase⟩
    · cases hnew.symm.trans hphase
  | notice run =>
    simp only [State.step, Option.bind_eq_bind, Option.bind_eq_some_iff,
      Option.ite_none_right_eq_some, Option.some_inj] at hstep
    obtain ⟨_, _, _, _, _, rfl⟩ := hstep
    rcases phase_of_setPhase hr' with ⟨r, hr, hsame⟩ | ⟨-, hnew, -⟩
    · exact .inl ⟨r, hr, hsame.trans hphase⟩
    · cases hnew.symm.trans hphase
  | probe run answered =>
    simp only [State.step, Option.bind_eq_bind, Option.bind_eq_some_iff,
      Option.ite_none_right_eq_some] at hstep
    obtain ⟨r, hr, -, hstep⟩ := hstep
    split at hstep
    next hverdict =>
      obtain rfl := Option.some.inj hstep
      rcases phase_of_setPhase hr' with ⟨r, hr, hsame⟩ | ⟨rfl, hnew, -⟩
      · exact .inl ⟨r, hr, hsame.trans hphase⟩
      obtain rfl := Phase.breaking.inj (hnew.symm.trans hphase)
      obtain ⟨created, hprobe, hcreated⟩ := releaseOwnLock_release hverdict
      obtain ⟨lock, hlock, hid, hwho, rfl⟩ := probe_locked hprobe
      exact .inr ⟨answered, r, lock, rfl, hr, hlock, hid, hwho, hcreated⟩
    · obtain rfl := Option.some.inj hstep
      rcases phase_of_setPhase hr' with ⟨r, hr, hsame⟩ | ⟨-, hnew, -⟩
      · exact .inl ⟨r, hr, hsame.trans hphase⟩
      · cases hnew.symm.trans hphase
  | release run =>
    simp only [State.step, Option.bind_eq_bind, Option.bind_eq_some_iff] at hstep
    obtain ⟨_, _, hstep⟩ := hstep
    split at hstep
    · obtain rfl := Option.some.inj hstep
      rcases phase_of_setPhase hr' with ⟨r, hr, hsame⟩ | ⟨-, hnew, -⟩
      · exact .inl ⟨r, hr, hsame.trans hphase⟩
      · cases hnew.symm.trans hphase
    · cases hstep
  | view unlock =>
    simp only [State.step, Option.bind_eq_bind, Option.bind_eq_some_iff, Option.some_inj] at hstep
    obtain ⟨_, _, rfl⟩ := hstep
    exact .inl ⟨r', hr', hphase⟩
  | check unlock | reread unlock =>
    simp only [State.step, Option.bind_eq_bind, Option.bind_eq_some_iff,
      Option.ite_none_right_eq_some, Option.some_inj] at hstep
    obtain ⟨_, _, _, _, _, rfl⟩ := hstep
    exact .inl ⟨r', hr', hphase⟩
  | forceUnlock unlock =>
    simp only [State.step, Option.bind_eq_bind, Option.bind_eq_some_iff,
      Option.ite_none_right_eq_some, Option.some_inj] at hstep
    obtain ⟨_, _, _, rfl⟩ := hstep
    exact .inl ⟨r', hr', hphase⟩

/-- An operator comes to break the lock shown once the check of the live one has passed. -/
theorem step_forced {s t : State} {event : Event} {id : ℕ} {u' : Unlock}
    (hstep : s.step event = some t) (hu' : t.unlocks.lookup id = some u')
    (hstage : u'.stage ≠ .shown) :
    ∃ u, s.unlocks.lookup id = some u ∧ u.lockId = u'.lockId ∧
      (u.stage ≠ .shown ∨ ∃ lock, event = .check id ∧ s.lock = some lock ∧
        terraformLockBlockers s.jobs (some lock.created) = []) := by
  cases event with
  | tick passed | cancel job =>
    obtain rfl := Option.some.inj hstep
    exact ⟨u', hu', rfl, .inl hstage⟩
  | claim job =>
    obtain ⟨jobs, -, rfl⟩ := Option.map_eq_some_iff.mp hstep
    exact ⟨u', hu', rfl, .inl hstage⟩
  | finish job | free run | exit run =>
    simp only [State.step, Option.ite_none_right_eq_some, Option.some_inj] at hstep
    obtain ⟨_, rfl⟩ := hstep
    exact ⟨u', hu', rfl, .inl hstage⟩
  | begin run job owner =>
    simp only [State.step, Option.bind_eq_bind, Option.bind_eq_some_iff] at hstep
    obtain ⟨row, -, hstep⟩ := hstep
    rw [Option.ite_none_right_eq_some] at hstep
    obtain ⟨runs, -, hstep⟩ := Option.bind_eq_some_iff.mp hstep.2
    obtain rfl := Option.some.inj hstep
    exact ⟨u', hu', rfl, .inl hstage⟩
  | spawn run | take run | close run | waited run =>
    simp only [State.step, Option.bind_eq_bind, Option.bind_eq_some_iff,
      Option.ite_none_right_eq_some, Option.some_inj] at hstep
    obtain ⟨_, _, _, rfl⟩ := hstep
    exact ⟨u', hu', rfl, .inl hstage⟩
  | notice run =>
    simp only [State.step, Option.bind_eq_bind, Option.bind_eq_some_iff,
      Option.ite_none_right_eq_some, Option.some_inj] at hstep
    obtain ⟨_, _, _, _, _, rfl⟩ := hstep
    exact ⟨u', hu', rfl, .inl hstage⟩
  | probe run answered =>
    simp only [State.step, Option.bind_eq_bind, Option.bind_eq_some_iff,
      Option.ite_none_right_eq_some] at hstep
    obtain ⟨_, _, _, hstep⟩ := hstep
    split at hstep <;> obtain rfl := Option.some.inj hstep <;>
      exact ⟨u', hu', rfl, .inl hstage⟩
  | release run =>
    simp only [State.step, Option.bind_eq_bind, Option.bind_eq_some_iff] at hstep
    obtain ⟨_, _, hstep⟩ := hstep
    split at hstep
    · obtain rfl := Option.some.inj hstep
      exact ⟨u', hu', rfl, .inl hstage⟩
    · cases hstep
  | view unlock =>
    simp only [State.step, Option.bind_eq_bind, Option.bind_eq_some_iff, Option.some_inj] at hstep
    obtain ⟨_, _, rfl⟩ := hstep
    rw [Table.lookup_put] at hu'
    split_ifs at hu'
    · obtain rfl := Option.some.inj hu'
      exact absurd rfl hstage
    · exact ⟨u', hu', rfl, .inl hstage⟩
  | check unlock =>
    simp only [State.step, Option.bind_eq_bind, Option.bind_eq_some_iff,
      Option.ite_none_right_eq_some, Option.some_inj] at hstep
    obtain ⟨u, hu, lock, hlock, ⟨_, hnone⟩, rfl⟩ := hstep
    rw [Table.lookup_put] at hu'
    split_ifs at hu' with hid
    · obtain rfl := Option.some.inj hu'
      have hkey := Table.lookup_key hu
      obtain rfl : id = unlock := hid.trans hkey
      exact ⟨u, hu, rfl, .inr ⟨lock, rfl, hlock, hnone⟩⟩
    · exact ⟨u', hu', rfl, .inl hstage⟩
  | reread unlock =>
    simp only [State.step, Option.bind_eq_bind, Option.bind_eq_some_iff,
      Option.ite_none_right_eq_some, Option.some_inj] at hstep
    obtain ⟨u, hu, _, _, ⟨hchecked, _⟩, rfl⟩ := hstep
    rw [Table.lookup_put] at hu'
    split_ifs at hu' with hid
    · obtain rfl := Option.some.inj hu'
      have hkey := Table.lookup_key hu
      obtain rfl : id = unlock := hid.trans hkey
      exact ⟨u, hu, rfl, .inl (by simp [hchecked])⟩
    · exact ⟨u', hu', rfl, .inl hstage⟩
  | forceUnlock unlock =>
    simp only [State.step, Option.bind_eq_bind, Option.bind_eq_some_iff,
      Option.ite_none_right_eq_some, Option.some_inj] at hstep
    obtain ⟨_, _, _, rfl⟩ := hstep
    have hu' : (s.unlocks.erase unlock).lookup id = some u' := hu'
    rw [Table.lookup_erase] at hu'
    split_ifs at hu'
    exact ⟨u', hu', rfl, .inl hstage⟩

/-! ### The runs -/

structure Fair (s : State) : Prop where
  ledger : Ledger s
  released : ∀ id run lockId, s.runs.lookup id = some run → run.phase = .breaking lockId →
    s.Cleared lockId
  forced : ∀ id unlock, s.unlocks.lookup id = some unlock → unlock.stage ≠ .shown →
    s.Cleared unlock.lockId

theorem alive_eq_true {s : State} {k : ℕ} (h : s.alive k = true) :
    ∃ run, s.runs.lookup k = some run ∧ run.proc = .running := by
  simpa [State.alive, Option.any_eq_true] using h

theorem cleared_of_probe {s : State} {id : ℕ} {answered : Bool} {run : Run} {lock : Lock}
    (h : Ledger s) (hapart : Apart s (.probe id answered)) (hrun : s.runs.lookup id = some run)
    (hlock : s.lock = some lock) (hwho : lock.who = run.owner)
    (hcreated : run.startedAt ≤ lock.created) : s.Cleared lock.id := by
  refine ⟨(h.lock lock hlock).1, fun lock' hlock' _ => ?_⟩
  obtain rfl := Option.some.inj (hlock.symm.trans hlock')
  exact hapart run hrun lock hlock hwho hcreated

theorem cleared_of_check {s : State} {id : ℕ} {unlock : Unlock} {lock : Lock} (h : Ledger s)
    (hapart : Apart s (.check id)) (hunlock : s.unlocks.lookup id = some unlock)
    (hlock : s.lock = some lock)
    (hnone : terraformLockBlockers s.jobs (some lock.created) = []) :
    s.Cleared unlock.lockId := by
  refine ⟨h.shown id unlock hunlock, fun lock' hlock' _ => ?_⟩
  obtain rfl := Option.some.inj (hlock.symm.trans hlock')
  by_contra halive
  obtain ⟨run, hrun, hproc⟩ := alive_eq_true (Bool.not_eq_false _ ▸ halive)
  obtain ⟨-, run', hrun', -, hcreated⟩ := h.lock lock hlock
  obtain rfl := Option.some.inj (hrun.symm.trans hrun')
  -- its job started before it took the lock, so the row is a blocker
  obtain ⟨-, row, started, hrow, hstarted, hle⟩ := h.runs _ run hrun
  exact not_running_of_no_blockers hnone (Table.lookup_eq_some.mp hrow).1 hstarted
    (hle.trans hcreated) (hapart lock hlock run hrun row hrow hproc)

theorem holderGone_of_fair {s : State} (h : Fair s) (event : Event) : HolderGone s event := by
  intro lock hbroken
  cases event with
  | release run =>
    simp only [State.broken] at hbroken
    split at hbroken
    next lockId hphase =>
      obtain ⟨r, hr, hphase⟩ := Option.map_eq_some_iff.mp hphase
      obtain ⟨hlock, hid⟩ := Option.filter_eq_some_iff.mp hbroken
      exact (h.released run r lockId hr hphase).2 lock hlock (of_decide_eq_true hid)
    · cases hbroken
  | forceUnlock unlock =>
    simp only [State.broken] at hbroken
    split at hbroken
    next u hu =>
      rw [Option.mem_def, Option.ite_none_right_eq_some] at hbroken
      obtain ⟨hlock, hid⟩ := Option.filter_eq_some_iff.mp hbroken.2
      exact (h.forced unlock u hu (by simp [hbroken.1])).2 lock hlock (of_decide_eq_true hid)
    · cases hbroken
  | tick _ | claim _ | cancel _ | finish _ | begin _ _ _ | spawn _ | take _ | free _ | exit _
  | close _ | notice _ | waited _ | probe _ _ | view _ | check _ | reread _ => cases hbroken

theorem fair_step (s : State) (event : Event) (t : State) (h : Fair s) (hapart : Apart s event)
    (hstep : s.step event = some t) : Fair t ∧ HolderGone s event := by
  have honward := step_onward h.ledger hstep
  refine ⟨⟨ledger_step h.ledger hstep, fun id run lockId hrun hphase => ?_,
    fun id unlock hunlock hstage => ?_⟩, ?_⟩
  · rcases step_breaking hstep hrun hphase with ⟨r, hr, hp⟩ | ⟨answered, r, lock, rfl, hr, hlock,
      rfl, hwho, hcreated⟩
    · exact (h.released id r lockId hr hp).onward honward
    · exact (cleared_of_probe h.ledger hapart hr hlock hwho hcreated).onward honward
  · obtain ⟨u, hu, hid, hs | ⟨lock, rfl, hlock, hnone⟩⟩ := step_forced hstep hunlock hstage
    · exact hid ▸ (h.forced id u hu hs).onward honward
    · exact hid ▸ (cleared_of_check h.ledger hapart hu hlock hnone).onward honward
  · exact holderGone_of_fair h event

theorem fair_init (now : Instant) : Fair (State.init now) where
  ledger := by constructor <;> simp [State.init]
  released := by simp [State.init]
  forced := by simp [State.init]

/-- However runs, cancels and force-unlocks interleave on one state: while runs are apart, a lock
is broken only when the process that took it is gone. -/
theorem breaks_only_dead {now : Instant} {events : List Event}
    (h : lockSystem.Along Apart (.init now) events) :
    lockSystem.Along HolderGone (.init now) events :=
  lockSystem.along_of_along fair_step (fair_init now) h

/- Two jobs whose runs share a container. -/

def job (id : String) : Job :=
  Jobs.createJob id 0 none { jobType := "ec2_provision", createdBy := "ops" }

/-- The first run ends; the second takes the lock while a line of the first is still unread. -/
def overlapped : List Event :=
  [.claim (job "a"), .claim (job "b"), .begin 1 "a" "dashboard@host", .spawn 1, .take 1, .free 1,
    .exit 1, .tick 5, .begin 2 "b" "dashboard@host", .spawn 2, .take 2, .cancel "a", .notice 1,
    .waited 1, .probe 1 true, .release 1]

/-- The cancelled run is killed while it holds the lock. -/
def orphaned : List Event :=
  [.claim (job "a"), .begin 1 "a" "dashboard@host", .spawn 1, .take 1, .cancel "a", .notice 1,
    .exit 1, .waited 1, .probe 1 true, .release 1]

/- An operator's force-unlock between a cancel and the line that notices it breaks a lock in
use as well. -/
example : ¬ lockSystem.Along HolderGone (.init 0)
    [.claim (job "a"), .begin 1 "a" "dashboard@host", .spawn 1, .take 1, .cancel "a", .view 1,
      .check 1, .reread 1, .forceUnlock 1] := by decide +kernel

theorem orphan_is_broken :
    (lockSystem.exec (.init 0) orphaned).map (fun s => s.lock.isNone) = some true ∧
      lockSystem.Along HolderGone (.init 0) orphaned :=
  ⟨by decide +kernel, breaks_only_dead (by decide +kernel)⟩

theorem overlap_breaks_live : ¬ ∀ now events, lockSystem.Along HolderGone (.init now) events := by
  intro h
  have hrun : ¬ lockSystem.Along HolderGone (.init 0) overlapped := by decide +kernel
  exact hrun (h 0 overlapped)

end StateLock
