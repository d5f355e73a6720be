import VmDashboard.Machine.System
import Mathlib.Data.List.Count
import Mathlib.Logic.Function.Basic

/-!
# Where leased jobs run (`JobSlots` and the main loop of `runners/agent/agent.py`)

The main thread asks for work and starts it; every job of an agent that is not
serial runs on a thread of its own. What another thread can see in between is a
step of its own: the look at `hold`, the request, its answer, the start of the
job, and in a job the calls on the slots.
-/

namespace Slots

inductive Kind
  | ansible
  | other
  | robot
  deriving DecidableEq

def concurrentJobType : String := "agent_ansible"

def robotJobType : String := "agent_ui_robot"

def handlers : List String :=
  ["agent_discover", "agent_hypervisor", "agent_ansible", "agent_gateway", "agent_storage",
    "agent_k8s", "agent_ui_robot"]

def controlJobTypes : List String := ["agent_upgrade", "agent_restart"]

def ansibleMaxConcurrentCeiling : ℕ := 8

/-- What the slots read of `policy.yaml`, as `Policy` checked it. -/
structure Policy where
  jobTypes : List String
  upgrades : Bool
  uiRobotEnabled : Bool
  ansibleMaxConcurrent : ℕ
  slots_pos : 1 ≤ ansibleMaxConcurrent
  slots_le : ansibleMaxConcurrent ≤ ansibleMaxConcurrentCeiling

structure JobSlots where
  ansible : ℕ
  robot : Bool
  draining : Bool := false
  hold : Bool := false
  running : Kind → ℕ := fun _ => 0

namespace JobSlots

def new (ansible : ℕ) (robot : Bool) : JobSlots where
  ansible := max 1 ansible
  robot := robot

def serial (slots : JobSlots) : Bool := slots.ansible = 1 && !slots.robot

def kind (jobType : String) : Kind :=
  if jobType = concurrentJobType then .ansible
  else if jobType = robotJobType then .robot else .other

/-- How many jobs of a kind the agent runs at once. -/
def limit (slots : JobSlots) : Kind → ℕ
  | .ansible => slots.ansible
  | .other => 1
  | .robot => 1

def free (slots : JobSlots) (k : Kind) : Bool := slots.running k < slots.limit k

def wanted (policy : Policy) (slots : JobSlots) : List String :=
  let types := handlers.filter (· ∈ policy.jobTypes) ++
    if policy.upgrades then controlJobTypes else []
  types.filter fun t => slots.free (kind t)

/-- The jobs that `quiesce` waits for. -/
def others (slots : JobSlots) : ℕ :=
  slots.running .ansible + slots.running .robot + (slots.running .other - 1)

def quiet (slots : JobSlots) : Bool := slots.serial || slots.others = 0

def busy (slots : JobSlots) : Bool :=
  slots.running .ansible ≠ 0 || slots.running .other ≠ 0 || slots.running .robot ≠ 0

def bump (slots : JobSlots) (k : Kind) : JobSlots :=
  { slots with running := Function.update slots.running k (slots.running k + 1) }

def drop (slots : JobSlots) (k : Kind) : JobSlots :=
  { slots with running := Function.update slots.running k (slots.running k - 1) }

end JobSlots
open JobSlots (kind)

/-! ### The threads -/

/-- Where a job is: `waiting` inside `quiesce`, `granted` after it answered true, `released` once it
took `hold` down again, `refused` when it answered false; `ended` when the job's function is
over and its slot is not yet given back, `left` after that. -/
inductive Phase
  | working
  | waiting
  | granted
  | released
  | refused
  | ended
  | left
  deriving DecidableEq

structure Job where
  jobType : String
  phase : Phase := .working
  deriving DecidableEq

namespace Job

def kind (job : Job) : Kind := JobSlots.kind job.jobType

def control (job : Job) : Bool := job.jobType ∈ controlJobTypes

/-- Whether the job holds its slot. -/
def present (job : Job) : Bool := job.phase ≠ .left

/-- Whether the job runs. -/
def live (job : Job) : Bool := job.phase ≠ .ended && job.phase ≠ .left

/-- A control job that was promised to be alone and has not ended. -/
def exclusive (job : Job) : Bool := job.phase = .granted || job.phase = .released

end Job

/-- Where the main thread is: `looked` past the check of `hold`, `asking` while the lease request
is in flight, `leased` with a job it has not started, `inline` when a serial agent runs it. -/
inductive Main
  | top
  | looked
  | asking (want : Option (List String))
  | leased (jobType : String)
  | inline
  deriving DecidableEq

structure State where
  slots : JobSlots
  main : Main := .top
  jobs : List Job := []

def start (policy : Policy) : State :=
  { slots := .new policy.ansibleMaxConcurrent policy.uiRobotEnabled }

inductive Event
  | look
  | ask
  | answer (job : Option String)
  | run
  | quiesce (i : ℕ)
  | grant (i : ℕ)
  | giveUp (i : ℕ)
  | release (i : ℕ)
  | finish (i : ℕ)
  | leave (i : ℕ)
  | sigterm
  deriving DecidableEq

namespace State

def move (s : State) (i : ℕ) (job : Job) (phase : Phase) : State :=
  { s with jobs := s.jobs.set i { job with phase := phase } }

def setHold (s : State) (hold : Bool) : State := { s with slots := { s.slots with hold := hold } }

/-- A job's call on the slots, made in one of its phases. -/
def call (s : State) (i : ℕ) (p : Job → Bool) (f : Job → State) : Option State :=
  match s.jobs[i]? with
  | some job => if p job then some (f job) else none
  | none => none

end State

def step (policy : Policy) (s : State) : Event → Option State
  | .look =>
    match s.main with
    | .top =>
      if s.slots.draining then none
      else if s.slots.hold then some s else some { s with main := .looked }
    | _ => none
  | .ask =>
    match s.main with
    | .looked =>
      if s.slots.serial then some { s with main := .asking none }
      else if s.slots.wanted policy = [] ∧ s.slots.busy then some { s with main := .top }
      else some { s with main := .asking (some (s.slots.wanted policy)) }
    | _ => none
  | .answer job =>
    match s.main with
    | .asking _ =>
      match job with
      | some jobType => some { s with main := .leased jobType }
      | none => some { s with main := .top }
    | _ => none
  | .run =>
    match s.main with
    | .leased jobType =>
      if s.slots.serial then some { s with main := .inline, jobs := s.jobs ++ [{ jobType }] }
      else some ⟨s.slots.bump (kind jobType), .top, s.jobs ++ [{ jobType }]⟩
    | _ => none
  | .quiesce i =>
    s.call i (fun job => job.control && policy.upgrades && job.phase = .working) fun job =>
      (s.move i job .waiting).setHold true
  | .grant i =>
    s.call i (fun job => job.phase = .waiting && s.slots.quiet) fun job => s.move i job .granted
  | .giveUp i =>
    s.call i (fun job => job.phase = .waiting && !s.slots.quiet) fun job =>
      (s.move i job .refused).setHold false
  | .release i =>
    s.call i (fun job => job.phase = .granted) fun job => (s.move i job .released).setHold false
  | .finish i =>
    s.call i (fun job => job.live && job.phase ≠ .waiting) fun job => s.move i job .ended
  | .leave i =>
    s.call i (fun job => job.phase = .ended) fun job =>
      if s.slots.serial then { s.move i job .left with main := .top }
      else { s.move i job .left with slots := s.slots.drop job.kind }
  | .sigterm => some { s with slots := { s.slots with draining := true } }

def system (policy : Policy) : Machine.System State Event := ⟨step policy⟩

/-! ### What is promised -/

namespace State

/-- The running jobs of a kind. -/
def live (s : State) (k : Kind) : ℕ := s.jobs.countP fun job => job.live && job.kind = k

/-- The jobs of a kind that hold a slot. -/
def present (s : State) (k : Kind) : ℕ := s.jobs.countP fun job => job.present && job.kind = k

def total (s : State) : ℕ := s.jobs.countP Job.present

end State

/-- No kind has more jobs running than the policy configures. -/
structure Within (policy : Policy) (s : State) : Prop where
  ansible : s.live .ansible ≤ policy.ansibleMaxConcurrent
  robot : s.live .robot ≤ 1
  other : s.live .other ≤ 1

/-- While a control job that was granted the agent has not ended, it is the only one running. -/
def Alone (s : State) : Prop :=
  (∃ job ∈ s.jobs, job.exclusive = true) → s.jobs.countP Job.live ≤ 1

/-- The dashboard leases only kinds the agent asked for. -/
def Asked (s : State) : Event → Prop
  | .answer (some jobType) =>
    match s.main with
    | .asking (some want) => kind jobType ∈ want.map kind
    | _ => True
  | _ => True

/-- No grant while the main thread is between its look at `hold` and the start of a job, and no
look between the release of `hold` and the end of the job that held it. -/
def Clear (s : State) : Event → Prop
  | .grant _ => s.main = .top ∨ s.main = .inline
  | .look => ∀ job ∈ s.jobs, job.phase ≠ .released
  | _ => True

end Slots
