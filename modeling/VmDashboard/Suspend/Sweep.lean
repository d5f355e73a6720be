import VmDashboard.Jobs.Row
import VmDashboard.Machine.System
import VmDashboard.Machine.Table
import VmDashboard.Suspend.Policy
import VmDashboard.Suspend.Schedule

/-!
# The suspend-schedule sweep

`services/suspend_sweeper.py` and the endpoints of `api/suspend.py`. A deploy job row is the record
of a VM and carries its schedule. `create_job` commits the session, so what a pass stamped before it
enqueues a job is committed with that job, and a failure rolls back what was stamped since.
-/

namespace Suspend
open Machine (Table)
open Python (Instant Json Dict orElse)
open Jobs (Job JobRequest)
open Windows (TimeLibrary)

structure DeployRow where
  job : Job
  schedule : Schedule
  scheduleLastCheckedAt : Option Instant

def DeployRow.id (row : DeployRow) : String := row.job.id

/-- `_POWER_JOB`. -/
def powerJobs : List (String × String) :=
  [("aws", "ec2_power"), ("gcp", "gce_power"), ("azure", "azure_power"), ("oci", "oci_power")]

def powerJob (cloud : String) : String := (powerJobs.lookup cloud).getD ""

def deployTypes : List String := deployTypesFor (powerJobs.map Prod.fst)

def verbOf : Action → String
  | .resume => "start"
  | .suspend => "stop"

/-- `_power_meta`; `azureRg` is what `_azure_rg()` answers. -/
def powerMeta (azureRg : String) (cloud : String) (row : DeployRow) (verb : String) : Dict :=
  let metadata := row.job.metadata
  if cloud = "aws" then
    [("action", .str verb), ("instance_id", field metadata "instance_id"),
      ("region", field metadata "region"), ("deploy_job_id", .str row.id)]
  else if cloud = "oci" then
    [("action", .str verb), ("instance_ocid", field metadata "instance_ocid"),
      ("deploy_job_id", .str row.id)]
  else if cloud = "azure" then
    [("action", .str verb), ("vm_name", field metadata "vm_name"),
      ("resource_group", orElse (field metadata "resource_group") (.str azureRg)),
      ("deploy_job_id", .str row.id)]
  else
    [("action", .str verb), ("instance_name", field metadata "instance_name"),
      ("zone", field metadata "zone"), ("project_id", field metadata "project_id"),
      ("deploy_job_id", .str row.id)]

/-- The power job that a crossing of the row's schedule asks for. -/
def powerRequest (azureRg : String) (row : DeployRow) (action : Action) : JobRequest where
  jobType := powerJob (cloudOf row.job.jobType)
  createdBy := "system"
  workgroup := row.job.workgroup
  metadata := powerMeta azureRg (cloudOf row.job.jobType) row (verbOf action)

/-- A power job with the row it was enqueued for and the boundary that asked for it, which the code
does not keep. -/
structure Enqueued where
  request : JobRequest
  row : String
  crossing : Crossing

structure Db where
  rows : Table DeployRow.id
  jobs : List Enqueued

/-- Deploy job rows that carry a schedule and are still live. -/
def scheduledVms (rows : Table DeployRow.id) : List DeployRow :=
  rows.rows.filter fun row =>
    deployTypes.contains row.job.jobType && row.job.status = .completed &&
      row.schedule.suspendAtLocal.isSome

/-! ### One pass -/

/-- The session of a pass: the rows with its pending stamps, the database as last committed, and the
report. -/
structure Session where
  rows : Table DeployRow.id
  committed : Db
  considered : List String
  acted : List Enqueued
  skipped : List (String × String)

def DeployRow.stamp (now : Instant) (row : DeployRow) : DeployRow :=
  { row with scheduleLastCheckedAt := some now }

theorem stamp_id (now : Instant) (row : DeployRow) : (row.stamp now).id = row.id := rfl

def Session.stamped (session : Session) (now : Instant) (id : String) : Session :=
  { session with rows := session.rows.modify id (DeployRow.stamp now) fun _ => rfl }

/-- `create_job` commits the pending stamps with the job it adds. -/
def Session.createJob (session : Session) (enqueued : Enqueued) : Session :=
  { session with
    committed := ⟨session.rows, session.committed.jobs ++ [enqueued]⟩
    acted := session.acted ++ [enqueued] }

section
variable (lib : TimeLibrary) (azureRg : String) (now : Instant)

/-- The body of the loop of `run`. -/
def sweepRow (row : DeployRow) (session : Session) : Except String Session :=
  if (field row.job.metadata "destroyed").truthy then .ok session
  else
    let session := { session with considered := session.considered ++ [row.id] }
    match schedulable row.job.jobType row.job.metadata with
    | (false, reason) => .ok { session with skipped := session.skipped ++ [(row.id, reason)] }
    | (true, _) => do
      match ← dueCrossing lib row.schedule row.scheduleLastCheckedAt now bothActions with
      | none => pure (session.stamped now row.id)
      | some crossing =>
        pure ((session.stamped now row.id).createJob
          ⟨powerRequest azureRg row crossing.2, row.id, crossing⟩)

/-- The loop, with the error that ends it. -/
def sweepRows : List DeployRow → Session → Session × Option String
  | [], session => (session, none)
  | row :: rows, session =>
    match sweepRow lib azureRg now row session with
    | .error e => (session, some e)
    | .ok session => sweepRows rows session

/-- What a pass leaves: its session, the database, and whether it came to its end. -/
structure Pass where
  session : Session
  db : Db
  ended : Bool

/-- What a pass reaches of the rows it loaded. -/
def reached (cut : Option ℕ) (rows : Table DeployRow.id) : List DeployRow :=
  cut.elim (scheduledVms rows) (scheduledVms rows).take

def opened (db : Db) : Session := ⟨db.rows, db, [], [], []⟩

/-- `run`. A pass that is cut stops in front of the row of that number, or after the last one when
there is none: the process ends, or one of its calls raises. The last commit is then not reached. -/
def run (cut : Option ℕ) (db : Db) : Pass :=
  match sweepRows lib azureRg now (reached cut db.rows) (opened db) with
  | (session, none) =>
    if cut.isSome then ⟨session, session.committed, false⟩
    else ⟨session, { session.committed with rows := session.rows }, true⟩
  | (session, some _) => ⟨session, session.committed, false⟩

end

/-! ### The endpoints -/

/-- What `_pin_azure_address` writes, `none` when it is refused; `pin` is what
`azure_service.pin_private_address` answers, `none` when it raises. -/
def pinned (pin : Option Json) (metadata : Dict) : Option Dict :=
  if ¬(field metadata "resource_group").truthy ∨ ¬(field metadata "nic_name").truthy then none
  else pin.map fun address =>
    (metadata.set "private_ip" address).set "private_ip_static" (.bool true)

def DeployRow.withMetadata (metadata : Dict) (row : DeployRow) : DeployRow :=
  { row with job := { row.job with metadata } }

/-- `set_schedule`: the row it leaves and whether it set the schedule. A refusal leaves what was
pinned before it. -/
def trySetSchedule (lib : TimeLibrary) (request : Request) (pin : Option Json) (row : DeployRow) :
    DeployRow × Bool :=
  if cloudOf row.job.jobType = "" then (row, false)
  else
    match validate lib request with
    | .error _ => (row, false)
    | .ok schedule =>
      let metadata :=
        if needsAddressPin row.job.jobType row.job.metadata then pinned pin row.job.metadata
        else some row.job.metadata
      match metadata with
      | none => (row, false)
      | some metadata =>
        let row := row.withMetadata metadata
        if (schedulable row.job.jobType metadata).1 then
          ({ row with schedule, scheduleLastCheckedAt := none }, true)
        else (row, false)

def setSchedule (lib : TimeLibrary) (request : Request) (pin : Option Json) (row : DeployRow) :
    DeployRow := (trySetSchedule lib request pin row).1

def granted (lib : TimeLibrary) (request : Request) (pin : Option Json) (row : DeployRow) : Bool :=
  (trySetSchedule lib request pin row).2

def clearSchedule (row : DeployRow) : DeployRow :=
  { row with schedule := .none, scheduleLastCheckedAt := none }

theorem clearSchedule_id (row : DeployRow) : (clearSchedule row).id = row.id := rfl

/-- A request is refused, and at most the metadata is written, or the schedule is set. -/
theorem trySetSchedule_cases (lib : TimeLibrary) (request : Request) (pin : Option Json)
    (row : DeployRow) :
    (∃ metadata, trySetSchedule lib request pin row = (row.withMetadata metadata, false)) ∨
      ∃ metadata schedule, trySetSchedule lib request pin row =
        ({ row.withMetadata metadata with schedule, scheduleLastCheckedAt := none }, true) := by
  unfold trySetSchedule
  dsimp only
  split
  · exact .inl ⟨row.job.metadata, rfl⟩
  · split
    · exact .inl ⟨row.job.metadata, rfl⟩
    next schedule _ =>
      split
      · exact .inl ⟨row.job.metadata, rfl⟩
      next metadata _ =>
        split
        · exact .inr ⟨metadata, schedule, rfl⟩
        · exact .inl ⟨metadata, rfl⟩

theorem setSchedule_id (lib : TimeLibrary) (request : Request) (pin : Option Json)
    (row : DeployRow) : (setSchedule lib request pin row).id = row.id := by
  unfold setSchedule
  rcases trySetSchedule_cases lib request pin row with ⟨metadata, h⟩ | ⟨metadata, schedule, h⟩
  · rw [h]
    rfl
  · rw [h]
    rfl

/-! ### Runs -/

/-- A VM as the inventory knows it. -/
def DeployRow.live (row : DeployRow) : Bool :=
  deployTypes.contains row.job.jobType && row.job.status = .completed &&
    !(field row.job.metadata "destroyed").truthy

/-- A live VM with a schedule that it may carry. -/
def DeployRow.watched (row : DeployRow) : Bool :=
  row.live && (schedulable row.job.jobType row.job.metadata).1 && hasSchedule row.schedule

/-- Beside the database until when the passes have answered for a row since its schedule was set: a
pass that stamped it, or one that came to its end while the row was to be watched. -/
structure State where
  db : Db
  clock : Instant
  answered : String → Option Instant

def forget (answered : String → Option Instant) (id : String) : String → Option Instant :=
  fun other => if other = id then none else answered other

/-- Until when a row is answered for after a pass at `now`. -/
def answeredBy (pass : Pass) (now : Instant) (answered : String → Option Instant) (id : String) :
    Option Instant :=
  match pass.db.rows.lookup id with
  | none => answered id
  | some row =>
    if row.scheduleLastCheckedAt = some now ∨ pass.ended ∧ row.watched then some now
    else answered id

/-- A row is written without a schedule; a row changes in its other columns; a row is deleted; the
schedule of a row is set or cleared; a pass, as far as it comes; time passes. The time zones known
may change between two events. -/
inductive Event
  | deploy (row : DeployRow)
  | progress (job : Job)
  | delete (id : String)
  | setSchedule (lib : TimeLibrary) (id : String) (request : Request) (pin : Option Json)
  | clearSchedule (id : String)
  | pass (lib : TimeLibrary) (azureRg : String) (cut : Option ℕ)
  | wait (n : ℕ)

def DeployRow.progressed (job : Job) (row : DeployRow) : DeployRow :=
  { row with job := { job with id := row.job.id } }

theorem progressed_id (job : Job) (row : DeployRow) : (row.progressed job).id = row.id := rfl

def State.step (s : State) : Event → Option State
  | .deploy row =>
    (s.db.rows.insert { row with schedule := .none, scheduleLastCheckedAt := none }).map fun rows =>
      { s with db := { s.db with rows }, answered := forget s.answered row.id }
  | .progress job =>
    some { s with db := { s.db with
      rows := s.db.rows.modify job.id (DeployRow.progressed job) fun _ => rfl } }
  | .delete id => some { s with db := { s.db with rows := s.db.rows.erase id } }
  | .setSchedule lib id request pin =>
    some { s with
      db := { s.db with
        rows := s.db.rows.modify id (setSchedule lib request pin) (setSchedule_id lib request pin) }
      answered :=
        if (s.db.rows.lookup id).any (granted lib request pin) then forget s.answered id
        else s.answered }
  | .clearSchedule id =>
    some { s with
      db := { s.db with rows := s.db.rows.modify id clearSchedule fun _ => rfl }
      answered := forget s.answered id }
  | .pass lib azureRg cut =>
    let pass := run lib azureRg s.clock cut s.db
    some { s with db := pass.db, answered := answeredBy pass s.clock s.answered }
  | .wait n => some { s with clock := s.clock + n }

def system : Machine.System State Event := ⟨State.step⟩

/-- No rows and no jobs. -/
def State.empty (clock : Instant) : State := ⟨⟨Table.empty, []⟩, clock, fun _ => none⟩

end Suspend
