import VmDashboard.Jobs.Row
import VmDashboard.Machine.Table
import VmDashboard.Windows.Recurrence

/-!
# Recurring job schedules

`services/schedule_service.py` and the two phases of the sweep that call it,
`_materialise_due` and `_note_finished` of `services/schedule_sweeper.py`. A
`JobSchedule` is a job row held back: each occurrence of its change window makes
one job of it. A `ScheduleError` is its text.
-/

namespace Schedules
open Machine (Table)
open Python (Instant Dict seconds strip reprText)
open Jobs (Job JobRequest)
open Windows (ChangeWindow TimeLibrary nextOccurrence)

structure JobSchedule where
  id : String
  name : String
  changeWindowId : String
  jobType : String
  workgroup : Option String
  agentId : Option String
  vmPath : Option String
  approvalRequired : Option Bool
  createdBy : Option String
  enabled : Option Bool
  payload : Dict
  lastMaterialisedFor : Option Instant
  lastRunAt : Option Instant
  lastJobId : Option String
  consecutiveFailures : ℕ
  disabledReason : Option String

structure User where
  username : String
  isActive : Option Bool
  deriving DecidableEq

/-! ### The allowlist -/

def ansibleKeys : List String :=
  ["asset", "asset_backend", "target", "cloud", "ansible_user", "extra_vars", "secret_vars",
    "secret_become_source", "secret_ssh_key_source", "managed_account", "managed_become",
    "become_method", "epml_token_var", "description"]

def agentAnsibleKeys : List String :=
  ["run_kind", "transport", "target_host", "target_port", "connection_id", "target_id",
    "target_label", "asset", "asset_backend", "login_user", "extra_vars", "secret_vars",
    "secret_become_source", "secret_ssh_key_source", "managed_account", "managed_become",
    "become_method", "epml_token_var", "pov_environment_id", "pov_vm_id", "join_deploy_job_id",
    "cloud_deploy_job_id", "cloud", "windows_ssh", "description"]

/-- `SCHEDULABLE_PAYLOAD_KEYS.get(job_type)`. -/
def schedulablePayloadKeys : String → Option (List String)
  | "ansible_local" => some ansibleKeys
  | "ansible_cloud_run" =>
    some ["description", "target_kind", "target_id", "cloud", "asset", "asset_backend",
      "extra_vars", "secret_vars"]
  | "agent_ansible" => some agentAnsibleKeys
  | "ec2_power" => some ["action", "instance_id", "region", "deploy_job_id", "unmanaged"]
  | "azure_power" => some ["action", "vm_name", "resource_group", "deploy_job_id", "unmanaged"]
  | "gce_power" => some ["action", "instance_name", "zone", "project_id", "deploy_job_id"]
  | "oci_power" => some ["action", "instance_ocid", "deploy_job_id"]
  | "aws_export_image" => some ["ami_id", "registry_name", "region", "created_by"]
  | "azure_export_image" =>
    some ["image_name", "registry_name", "resource_group", "os_type", "created_by"]
  | "gcp_export_image" => some ["image_name", "registry_name", "project_id", "created_by"]
  | "image_promote_aws" =>
    some ["image_id", "image_name", "image_version", "target_cloud", "target_region"]
  | "image_promote_azure" =>
    some ["image_id", "image_name", "image_version", "target_cloud", "target_region",
      "target_resource_group"]
  | "image_promote_gcp" =>
    some ["image_id", "image_name", "image_version", "target_cloud", "target_region"]
  | "image_promote_oci" =>
    some ["image_id", "image_name", "image_version", "target_cloud", "target_region"]
  | "epml_sync" => some ["description", "backend"]
  | _ => none

def payloadFor (job : Job) : Dict :=
  match schedulablePayloadKeys job.jobType with
  | none => []
  | some allowed => job.metadata.filter fun item => allowed.contains item.1

/-- Why the job may not be repeated. -/
def schedulableReason (job : Option Job) : Option String :=
  match job with
  | none => some "that job does not exist"
  | some job =>
    if schedulablePayloadKeys job.jobType = none then
      some (job.jobType ++ " jobs cannot be scheduled to repeat. Repeating a job re-uses its " ++
        "saved parameters, which is only safe for job types whose parameters are references " ++
        "rather than values.")
    else if (Jobs.orNone job.agentId).isSome ∧ job.metadata = [] then
      some "that job has no saved parameters to repeat"
    else none

/-! ### Creating a schedule -/

def getWindow (windows : Table ChangeWindow.id) (id : String) : Option ChangeWindow :=
  if id = "" then none else windows.lookup id

/-- The row `create_from_job` adds under the fresh id `id`. -/
def createFromJob (lib : TimeLibrary) (windows : Table ChangeWindow.id) (id : String)
    (now : Instant) (job : Job) (name changeWindowId createdBy : String)
    (approvalRequired : Option Bool) : Except String JobSchedule :=
  match schedulableReason (some job) with
  | some refusal => .error refusal
  | none =>
    match getWindow windows changeWindowId with
    | none => .error "pick a change window for this to repeat in"
    | some window =>
      if window.enabled = some false then
        .error ("the change window " ++ reprText window.name ++ " is disabled")
      else do
        -- armed for the occurrence not closed yet: its start, whether or not it has come
        let (start, _) ← nextOccurrence lib window now
        let clean := strip name
        if clean = "" then throw "give this schedule a name so it can be found later"
        else
          pure {
            id
            name := clean
            changeWindowId := window.id
            jobType := job.jobType
            workgroup := job.workgroup
            agentId := job.agentId
            vmPath := job.vmPath
            -- `… or None`: where it is `None` the column's default, False, is stored
            approvalRequired := some (approvalRequired.getD (job.approvalRequired = some true))
            createdBy := some createdBy
            enabled := some true
            payload := payloadFor job
            lastMaterialisedFor := some start
            lastRunAt := none
            lastJobId := none
            consecutiveFailures := 0
            disabledReason := none }

/-! ### The sweep: a job for each occurrence -/

/-- The tables the sweep reads and writes. -/
structure Database where
  windows : Table ChangeWindow.id
  users : Table User.username
  schedules : Table JobSchedule.id
  jobs : List Job

/-- The uuid of the n-th job row and `expiry_policy.default_expiry_for`. -/
structure Services where
  uuid : ℕ → String
  defaultExpiry : JobRequest → Option Instant

/-- Why a schedule's owner can no longer authorise a run. -/
def ownerUnusable (users : Table User.username) (row : JobSchedule) : Option String :=
  let username := strip (row.createdBy.getD "")
  if username = "" ∨ username = "system" then none
  else
    match users.lookup username with
    | none =>
      some ("the user who created this schedule (" ++ username ++ ") no longer exists, so " ++
        "there is no identity to run it as")
    | some user =>
      if user.isActive = some false then
        some ("the user who created this schedule (" ++ username ++ ") is deactivated, so it " ++
          "will not run until an active user takes it over")
      else none

def JobSchedule.disable (reason : String) (row : JobSchedule) : JobSchedule :=
  if row.enabled = some false then row
  else { row with enabled := some false, disabledReason := some reason }

/-- The occurrence a schedule is due for: its window is open and it has made no job of it yet. -/
def JobSchedule.due (lib : TimeLibrary) (windows : Table ChangeWindow.id) (now : Instant)
    (row : JobSchedule) : Option (Instant × Instant) :=
  if row.enabled = some false then none
  else
    match windows.lookup row.changeWindowId with
    | none => none
    | some window =>
      if window.enabled = some false then none
      else
        match nextOccurrence lib window now with
        | .error _ => none
        | .ok (start, close) =>
          if now < start then none
          else if row.lastMaterialisedFor.any (start ≤ ·) then none
          else some (start, close)

def due (lib : TimeLibrary) (db : Database) (now : Instant) :
    List (JobSchedule × Instant × Instant) :=
  db.schedules.rows.filterMap fun row =>
    (row.due lib db.windows now).map fun span => (row, span)

def JobSchedule.request (row : JobSchedule) (start close : Instant) : JobRequest where
  jobType := row.jobType
  createdBy := (Jobs.orNone row.createdBy).getD "system"
  vmPath := row.vmPath
  workgroup := row.workgroup
  metadata := row.payload
  agentId := row.agentId
  scheduledFor := some start
  windowEndsAt := some close
  changeWindowId := some row.changeWindowId
  jobScheduleId := some row.id
  approvalRequired := row.approvalRequired = some true

def JobSchedule.skipped (start : Instant) (reason : String) (row : JobSchedule) : JobSchedule :=
  { row with lastMaterialisedFor := some start }.disable reason

def JobSchedule.ran (start now : Instant) (job : String) (row : JobSchedule) : JobSchedule :=
  { row with lastMaterialisedFor := some start, lastRunAt := some now, lastJobId := some job }

theorem JobSchedule.disable_id (reason : String) (row : JobSchedule) :
    (row.disable reason).id = row.id := by
  unfold disable
  split <;> rfl

theorem JobSchedule.skipped_id (start : Instant) (reason : String) (row : JobSchedule) :
    (row.skipped start reason).id = row.id :=
  ({ row with lastMaterialisedFor := some start } : JobSchedule).disable_id reason

theorem JobSchedule.ran_id (start now : Instant) (job : String) (row : JobSchedule) :
    (row.ran start now job).id = row.id := rfl

/-- The row `create_job` adds for an occurrence. -/
def occurrenceJob (services : Services) (now : Instant) (db : Database) (row : JobSchedule)
    (start close : Instant) : Job :=
  let request := row.request start close
  Jobs.createJob (services.uuid db.jobs.length) now (services.defaultExpiry request) request

/-- The occurrence is stamped whether or not a job is made of it. -/
def materialise (services : Services) (now : Instant) (db : Database) (row : JobSchedule)
    (start close : Instant) : Database :=
  match ownerUnusable db.users row with
  | some gone =>
    { db with
      schedules := db.schedules.modify row.id (JobSchedule.skipped start gone) fun r =>
        r.skipped_id start gone }
  | none =>
    let job := occurrenceJob services now db row start close
    { db with
      schedules := db.schedules.modify row.id (JobSchedule.ran start now job.id) fun r =>
        r.ran_id start now job.id
      jobs := db.jobs ++ [job] }

def materialiseDue (lib : TimeLibrary) (services : Services) (db : Database) (now : Instant) :
    Database :=
  (due lib db now).foldl
    (fun db (row, start, close) => materialise services now db row start close) db

/-! ### The sweep: outcomes of finished occurrences -/

def maxConsecutiveFailures : ℕ := 3

def finishedLookback : ℕ := seconds (3 * 60 * 60)

def JobSchedule.failedRun (job : String) (row : JobSchedule) : JobSchedule :=
  let count := row.consecutiveFailures + 1
  let counted := { row with consecutiveFailures := count }
  if maxConsecutiveFailures ≤ count then
    counted.disable ("disabled automatically after " ++ toString count ++
      " consecutive failed runs — the last was job " ++ job)
  else counted

def JobSchedule.completedRun (row : JobSchedule) : JobSchedule :=
  { row with consecutiveFailures := 0 }

theorem JobSchedule.failedRun_id (job : String) (row : JobSchedule) :
    (row.failedRun job).id = row.id := by
  simp only [failedRun]
  split
  · exact disable_id _ _
  · rfl

def noteResult (schedules : Table JobSchedule.id) (job : Job) : Table JobSchedule.id :=
  match Jobs.orNone job.jobScheduleId with
  | none => schedules
  | some id =>
    match job.status with
    | .completed => schedules.modify id JobSchedule.completedRun fun _ => rfl
    | .failed | .cancelled =>
      schedules.modify id (JobSchedule.failedRun job.id) fun row => row.failedRun_id job.id
    | .queued | .pending | .running => schedules

/-- The filter of the query of `_note_finished`, which has no order. -/
def noteable (now : Instant) (job : Job) : Bool :=
  job.jobScheduleId.isSome &&
    (job.status = .completed || job.status = .failed || job.status = .cancelled) &&
    job.completedAt.any fun done => now ≤ done + finishedLookback

/-- `_note_finished` over the rows its query lists. -/
def noteFinished (schedules : Table JobSchedule.id) (rows : List Job) : Table JobSchedule.id :=
  rows.foldl noteResult schedules

end Schedules
