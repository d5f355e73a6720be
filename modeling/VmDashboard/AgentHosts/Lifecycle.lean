import VmDashboard.Machine.System
import VmDashboard.Machine.Table
import Mathlib.Data.Nat.Notation

/-!
# The jobs of a deployed agent host (`services/agent_host_service.py`)

`enqueue`, and `_start`, `_stop`, `_delete` cut where they commit or call the cloud, of
one host's record, its VMs in the cloud and the workers that run its jobs. A worker may
die anywhere; reconciliation fails its job later. The columns of the schedule are in
`AgentHosts.Schedule`.
-/

namespace AgentHosts
open Machine (System Table)

inductive Cloud
  | aws | azure | gcp
  deriving DecidableEq

inductive Action
  | start | stop | delete
  deriving DecidableEq

inductive HostStatus
  | parked | provisioning | starting | running | stopping | error
  deriving DecidableEq

/-- `LIVE_STATUSES`. -/
def HostStatus.live : HostStatus → Bool
  | .starting | .running | .stopping => true
  | _ => false

structure Host where
  name : String
  cloud : Cloud
  status : HostStatus
  hostId : Option String
  zone : Option String
  lastJobId : Option ℕ
  deriving DecidableEq

/-- A VM that carries the host's name. -/
structure Vm where
  id : String
  zone : String
  deriving DecidableEq

/-- `destroy` names this VM: by its tags or the recorded id, by its name, or by its name in the
recorded zone. -/
def Host.names (host : Host) (vm : Vm) : Bool :=
  match host.cloud with
  | .aws | .azure => true
  | .gcp => vm.zone = host.zone.getD ""

inductive JobStatus
  | pending | running | completed | failed
  deriving DecidableEq

/-- Where the worker of a job is. -/
inductive Phase
  | waiting
  -- `_start`
  | preparing | launching
  /-- the VM is up, its identity not yet pinned -/
  | launched (hostId zone : String)
  | cleaning
  /-- about to commit where the VM is -/
  | recording (hostId zone : String)
  | coming
  -- `_stop` and `_delete`
  | draining | destroyed | removing
  | ended
  deriving DecidableEq

structure Job where
  id : ℕ
  action : Action
  status : JobStatus
  phase : Phase

def Job.busy (job : Job) : Bool := job.status = .pending || job.status = .running

structure State where
  host : Option Host
  vms : List Vm
  jobs : Table Job.id

/-- A start, stop or delete of the host is queued or running. -/
def State.busy (s : State) (host : Host) : Bool :=
  (host.lastJobId.bind s.jobs.lookup).any Job.busy

def enqueued (host : Host) (action : Action) (job : ℕ) : Host :=
  { host with
    lastJobId := some job
    status :=
      if action = .start ∧ (host.status = .parked ∨ host.status = .error) then .provisioning
      else host.status }

inductive Event
  | enqueue (job : ℕ) (action : Action)
  /-- a worker takes the job; `active` is the agent's -/
  | claim (job : ℕ) (active : Bool)
  -- each with what the call does; `failed` holds the VMs removed before the error
  | prepare (job : ℕ) (ok : Bool)
  | launch (job : ℕ) (created : Option Vm) (returns : Bool)
  | register (job : ℕ) (ok : Bool)
  | cleanUp (job : ℕ) (failed : Option (List Vm))
  | record (job : ℕ)
  | online (job : ℕ) (ok : Bool)
  | destroy (job : ℕ) (failed : Option (List Vm))
  | park (job : ℕ)
  | remove (job : ℕ)
  | die (job : ℕ)
  | reconcile (job : ℕ)

/-- The VMs a `destroy` leaves. -/
def destroyed (host : Host) (vms : List Vm) : Option (List Vm) → List Vm
  | none => vms.filter fun vm => !host.names vm
  | some removed => vms.filter fun vm => vm ∉ removed

/-- The handler of `run`: the host is left in error by all but a delete. -/
def raised (job : Job) (host : Host) : Host :=
  if job.action = .delete then host else { host with status := .error }

def Job.failed (job : Job) : Job := { job with status := .failed, phase := .ended }

def Job.completed (job : Job) : Job := { job with status := .completed, phase := .ended }

def Job.goes (job : Job) (phase : Phase) : Job := { job with status := .running, phase }

/-- The id and zone that `launch` reports. -/
def reported (host : Host) (vms : List Vm) : Option Vm → Option (String × String)
  | some vm =>
    match host.cloud with
    | .aws => some (vm.id, "")
    | .azure => some (host.name, "")
    | .gcp => some (host.name, vm.zone)
  | none =>
    -- Azure's create is idempotent on the name
    if host.cloud = .azure ∧ vms ≠ [] then some (host.name, "") else none

def State.put (s : State) (host : Host) (vms : List Vm) (job : Job) : State :=
  ⟨some host, vms, s.jobs.put job⟩

def claimed (host : Host) (active : Bool) (job : Job) : Host × Job :=
  match job.action with
  | .start =>
    if !active || host.hostId.isSome then (raised job host, job.failed)
    else ({ host with status := .starting }, job.goes .preparing)
  | .stop => ({ host with status := .stopping }, job.goes .draining)
  | .delete =>
    if host.hostId.isSome || host.status.live then
      ({ host with status := .stopping }, job.goes .draining)
    else (host, job.goes .removing)

def State.step (s : State) : Event → Option State
  | .enqueue id action => do
    let host ← s.host
    if s.busy host then none
    else
      let jobs ← s.jobs.insert ⟨id, action, .pending, .waiting⟩
      some { s with host := some (enqueued host action id), jobs }
  | .claim id active => do
    let job ← s.jobs.lookup id
    if job.status = .pending then
      match s.host with
      | none => some { s with jobs := s.jobs.put job.failed }
      | some host =>
        let (host, job) := claimed host active job
        some (s.put host s.vms job)
    else none
  | .prepare id ok => do
    let host ← s.host
    let job ← s.jobs.lookup id
    if job.phase = .preparing then
      if ok then some (s.put host s.vms (job.goes .launching))
      else some (s.put (raised job host) s.vms job.failed)
    else none
  | .launch id created returns => do
    let host ← s.host
    let job ← s.jobs.lookup id
    if job.phase = .launching then
      let vms := s.vms ++ created.toList
      if returns then do
        let (hostId, zone) ← reported host s.vms created
        some (s.put host vms (job.goes (.launched hostId zone)))
      else some (s.put host vms (job.goes .cleaning))
    else none
  | .register id ok => do
    let host ← s.host
    let job ← s.jobs.lookup id
    match job.phase with
    | .launched hostId zone =>
      if ok then some (s.put host s.vms (job.goes (.recording hostId zone)))
      else some (s.put host s.vms (job.goes .cleaning))
    | _ => none
  | .cleanUp id failed => do
    let host ← s.host
    let job ← s.jobs.lookup id
    if job.phase = .cleaning then
      -- a failed cleanup is logged, and the launch's error raised either way
      some (s.put (raised job host) (destroyed host s.vms failed) job.failed)
    else none
  | .record id => do
    let host ← s.host
    let job ← s.jobs.lookup id
    match job.phase with
    | .recording hostId zone =>
      let host := { host with
        hostId := some (if hostId = "" then host.name else hostId)
        zone := if zone = "" then host.zone else some zone }
      some (s.put host s.vms (job.goes .coming))
    | _ => none
  | .online id ok => do
    let host ← s.host
    let job ← s.jobs.lookup id
    if job.phase = .coming then
      if ok then some (s.put { host with status := .running } s.vms job.completed)
      else some (s.put (raised job host) s.vms job.failed)
    else none
  | .destroy id failed => do
    let host ← s.host
    let job ← s.jobs.lookup id
    if job.phase = .draining then
      let vms := destroyed host s.vms failed
      if failed.isNone then some (s.put host vms (job.goes .destroyed))
      else some (s.put (raised job host) vms job.failed)
    else none
  | .park id => do
    let host ← s.host
    let job ← s.jobs.lookup id
    if job.phase = .destroyed then
      let host := { host with hostId := none, status := .parked }
      if job.action = .delete then some (s.put host s.vms (job.goes .removing))
      else some (s.put host s.vms job.completed)
    else none
  | .remove id => do
    let job ← s.jobs.lookup id
    if job.phase = .removing ∧ s.host.isSome then
      some { s with host := none, jobs := s.jobs.put job.completed }
    else none
  | .die id => do
    -- the row stays `running`
    let job ← s.jobs.lookup id
    if job.status = .running then some { s with jobs := s.jobs.put { job with phase := .ended } }
    else none
  | .reconcile id => do
    let job ← s.jobs.lookup id
    if job.status = .running ∧ job.phase = .ended then
      some { s with jobs := s.jobs.put job.failed }
    else none

def hosting : System State Event := ⟨State.step⟩

/-- The record `deploy` adds: nothing is in the cloud yet. -/
def State.deployed (name : String) (cloud : Cloud) : State :=
  ⟨some ⟨name, cloud, .parked, none, none, none⟩, [], .empty⟩

/-- At most one VM of the host exists, and none once its record is deleted. -/
def OneVm (s : State) : Prop := s.vms.length ≤ 1 ∧ (s.host = none → s.vms = [])

/-- A start of a host with no VM on record finds no VM of it; the destroy that a delete runs names
every VM that exists, with none if the delete runs no destroy. -/
def Action.FindsAll (host : Host) (vms : List Vm) : Action → Prop
  | .start => host.hostId = none → vms = []
  | .stop => True
  | .delete =>
    if host.hostId.isSome || host.status.live then ∀ vm ∈ vms, host.names vm = true else vms = []

/-- Every VM is accounted for when a worker takes a job. -/
def Accounted (s : State) : Event → Prop
  | .claim id _ => ∀ job ∈ s.jobs.lookup id, ∀ host ∈ s.host, job.action.FindsAll host s.vms
  | _ => True

instance : DecidablePred OneVm := fun _ => inferInstanceAs (Decidable (_ ∧ _))

instance (host : Host) (vms : List Vm) (action : Action) : Decidable (action.FindsAll host vms) := by
  cases action <;> unfold Action.FindsAll <;> infer_instance

instance (s : State) (event : Event) : Decidable (Accounted s event) := by
  cases event <;> unfold Accounted <;> infer_instance

end AgentHosts
