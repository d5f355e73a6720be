import VmDashboard.Jobs.RetryPolicy
import VmDashboard.Python.Clock
import VmDashboard.Python.Json

/-!
# The job row and the functions that write its status

`Job` is the row of the `jobs` table with the columns the queue reads or writes
(`database/models/jobs.py`). The setters of `services/job_service.py` fetch the
row by id and, when it exists, write it: each is a function on the row, applied
by `Machine.Table.modify`.
-/

namespace Jobs
open Python (Instant Dict)

inductive Status
  | queued | pending | running | completed | failed | cancelled
  deriving DecidableEq, Repr

/-- A row in one of these is picked up by a claim query. -/
def Status.waiting : Status → Bool
  | .queued | .pending => true
  | _ => false

structure Job where
  id : String
  jobType : String
  status : Status
  createdBy : String
  createdAt : Instant
  vmPath : Option String
  workgroup : Option String
  batchId : Option String
  agentId : Option String
  isCheckin : Option Bool
  expiresAt : Option Instant
  attempts : ℕ
  retryAfter : Option Instant
  scheduledFor : Option Instant
  windowEndsAt : Option Instant
  changeWindowId : Option String
  jobScheduleId : Option String
  approvalRequired : Option Bool
  approvedAt : Option Instant
  approvedBy : Option String
  missedWindowAt : Option Instant
  progressPct : ℕ
  startedAt : Option Instant
  completedAt : Option Instant
  updatedAt : Option Instant
  errorMessage : Option String
  metadata : Dict

/- `value or None` on a string. -/
def orNone : Option String → Option String
  | some "" => none
  | value => value

/-! ### Enqueueing -/

def checkinVerbs (jobType : String) : Option (List String) :=
  if jobType = "agent_hypervisor" then some ["inventory_sync"] else none

/- `str(metadata.get("verb") or "") in verbs`: of the values JSON has only a string can
spell a verb. -/
def isCheckin (jobType : String) (metadata : Dict) : Bool :=
  match checkinVerbs jobType, metadata.get? "verb" with
  | some verbs, some (.str verb) => verbs.contains verb
  | _, _ => false

/-- The arguments of `create_job`. An empty metadata dictionary stands for `None`. -/
structure JobRequest where
  jobType : String
  createdBy : String
  vmPath : Option String := none
  workgroup : Option String := none
  metadata : Dict := []
  batchId : Option String := none
  status : Status := .pending
  expiresAt : Option Instant := none
  agentId : Option String := none
  scheduledFor : Option Instant := none
  windowEndsAt : Option Instant := none
  changeWindowId : Option String := none
  jobScheduleId : Option String := none
  approvalRequired : Bool := false

/-- The row `create_job` adds. `id` is the fresh uuid and `defaultExpiry` what
`expiry_policy.default_expiry_for` answers for the request (`none` also when it raises). -/
def createJob (id : String) (now : Instant) (defaultExpiry : Option Instant)
    (request : JobRequest) : Job where
  id
  jobType := request.jobType
  status := if (orNone request.agentId).isSome then .queued else request.status
  createdBy := request.createdBy
  createdAt := now
  vmPath := request.vmPath
  workgroup := request.workgroup
  batchId := orNone request.batchId
  agentId := orNone request.agentId
  isCheckin :=
    if (checkinVerbs request.jobType).isSome then some (isCheckin request.jobType request.metadata)
    else none
  expiresAt := request.expiresAt.or defaultExpiry
  attempts := 0
  retryAfter := none
  scheduledFor := request.scheduledFor
  windowEndsAt := request.windowEndsAt
  changeWindowId := orNone request.changeWindowId
  jobScheduleId := orNone request.jobScheduleId
  -- `bool(approval_required) or None`: where it is `None` the column's default, False, is stored
  approvalRequired := some request.approvalRequired
  approvedAt := none
  approvedBy := none
  missedWindowAt := none
  progressPct := 0
  startedAt := none
  completedAt := none
  updatedAt := none
  errorMessage := none
  metadata := request.metadata

/-! ### The setters -/

def setRunning (now : Instant) (job : Job) : Job :=
  { job with status := .running, startedAt := some now, updatedAt := some now }

def setCompleted (now : Instant) (result : Dict) (job : Job) : Job :=
  { job with
    status := .completed
    progressPct := 100
    completedAt := some now
    updatedAt := some now
    metadata := job.metadata.update result }

/-- `job_retry_enabled` and `job_retry_max_attempts` as the config store answers them. -/
structure RetryConfig where
  enabled : Bool
  limit : RetryPolicy.Limit

/-- The test in front of the requeue branch of `set_failed`. -/
def retries (config : RetryConfig) (error : String) (job : Job) : Bool :=
  config.enabled && RetryPolicy.shouldRetry job.jobType error job.attempts config.limit

def setFailed (config : RetryConfig) (now : Instant) (error : String) (result : Dict)
    (job : Job) : Job :=
  let noted := { job with
    errorMessage := some error
    updatedAt := some now
    metadata := job.metadata.update result }
  if retries config error job then
    -- back to `pending`; `completed_at` is left alone
    { noted with
      attempts := job.attempts + 1
      retryAfter := some (now + Python.seconds (RetryPolicy.backoffSeconds job.attempts))
      status := .pending
      startedAt := none }
  else
    { noted with status := .failed, completedAt := some now }

def setCancelled (now : Instant) (job : Job) : Job :=
  match job.status with
  | .queued | .pending | .running => { job with status := .cancelled, completedAt := some now }
  | _ => job

def setMissedWindow (now : Instant) (reason : String) (job : Job) : Job :=
  match job.status with
  | .queued | .pending =>
    { job with
      status := .cancelled
      missedWindowAt := some now
      completedAt := some now
      errorMessage := some reason }
  | _ => job

/-! ### Rescheduling (`api/jobs.py`) -/

structure HttpError where
  statusCode : ℕ
  detail : String
  deriving DecidableEq, Repr

structure User where
  username : String
  isEffectiveAdmin : Bool

/-- What `change_window_service.resolve` answers: the start, the end and the window's id, or
the text of its `ScheduleError`. -/
abbrev Booking := Except String (Option Instant × Option Instant × Option String)

def Status.text : Status → String
  | .queued => "queued"
  | .pending => "pending"
  | .running => "running"
  | .completed => "completed"
  | .failed => "failed"
  | .cancelled => "cancelled"

def rescheduleJob (user : User) (booking : Booking) (job : Job) : Except HttpError Job :=
  if job.createdBy ≠ user.username ∧ ¬user.isEffectiveAdmin then .error ⟨403, "Access denied"⟩
  else if job.status = .running then .error ⟨409, "this change has already started"⟩
  else if job.status = .completed ∨ job.status = .failed then
    .error ⟨409, "this change is " ++ job.status.text ++ " and cannot be moved"⟩
  else
    match booking with
    | .error reason => .error ⟨400, reason⟩
    | .ok (scheduledFor, windowEndsAt, windowId) =>
      let needsApproval := job.approvalRequired = some true
      .ok { job with
        scheduledFor
        windowEndsAt
        changeWindowId := windowId
        missedWindowAt := none
        completedAt := none
        errorMessage := none
        status :=
          if job.status.waiting then job.status
          else if job.agentId.isSome then .queued else .pending
        approvedAt := if needsApproval then none else job.approvedAt
        approvedBy := if needsApproval then none else job.approvedBy }

/-! ### What the setters do to the columns the queue depends on -/

/-- The columns no setter writes. -/
structure Job.Same (after before : Job) : Prop where
  id : after.id = before.id
  jobType : after.jobType = before.jobType
  agentId : after.agentId = before.agentId

theorem Job.Same.refl (job : Job) : job.Same job := ⟨rfl, rfl, rfl⟩

theorem setRunning_same (now : Instant) (job : Job) : (setRunning now job).Same job :=
  ⟨rfl, rfl, rfl⟩

theorem setRunning_id (now : Instant) (job : Job) : (setRunning now job).id = job.id := rfl

theorem setCompleted_same (now : Instant) (result : Dict) (job : Job) :
    (setCompleted now result job).Same job := ⟨rfl, rfl, rfl⟩

theorem setFailed_same (config : RetryConfig) (now : Instant) (error : String) (result : Dict)
    (job : Job) : (setFailed config now error result job).Same job := by
  unfold setFailed
  split <;> exact ⟨rfl, rfl, rfl⟩

theorem setCancelled_same (now : Instant) (job : Job) : (setCancelled now job).Same job := by
  unfold setCancelled
  split <;> exact ⟨rfl, rfl, rfl⟩

theorem setMissedWindow_same (now : Instant) (reason : String) (job : Job) :
    (setMissedWindow now reason job).Same job := by
  unfold setMissedWindow
  split <;> exact ⟨rfl, rfl, rfl⟩

theorem setFailed_status (config : RetryConfig) (now : Instant) (error : String) (result : Dict)
    (job : Job) : (setFailed config now error result job).status =
      if retries config error job then .pending else .failed := by
  unfold setFailed
  split <;> rfl

theorem setCancelled_waiting (now : Instant) (job : Job) :
    (setCancelled now job).status.waiting = false := by
  unfold setCancelled
  cases h : job.status <;> simp [Status.waiting, h]

theorem setMissedWindow_waiting (now : Instant) (reason : String) (job : Job) :
    (setMissedWindow now reason job).status.waiting = false := by
  unfold setMissedWindow
  cases h : job.status <;> simp [Status.waiting, h]

/-- Of the changes that are moved, only a cancelled one has its status chosen again. -/
theorem rescheduleJob_ok {user : User} {booking : Booking} {job moved : Job}
    (h : rescheduleJob user booking job = .ok moved) :
    moved.Same job ∧
      ((job.status.waiting = true ∧ moved.status = job.status) ∨
        (job.status = .cancelled ∧
          moved.status = if job.agentId.isSome then .queued else .pending)) := by
  unfold rescheduleJob at h
  split at h
  · cases h
  split at h
  · cases h
  next hrunning =>
  split at h
  · cases h
  next hdone =>
  split at h
  · cases h
  obtain rfl := Except.ok.inj h
  refine ⟨⟨rfl, rfl, rfl⟩, ?_⟩
  cases hs : job.status with
  | queued => exact .inl ⟨rfl, by simp [Status.waiting]⟩
  | pending => exact .inl ⟨rfl, by simp [Status.waiting]⟩
  | running => exact absurd hs hrunning
  | completed => exact absurd (.inl hs) hdone
  | failed => exact absurd (.inr hs) hdone
  | cancelled => exact .inr ⟨rfl, by simp [Status.waiting]⟩

end Jobs
