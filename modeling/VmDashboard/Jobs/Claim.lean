import Mathlib.Data.List.MinMax
import VmDashboard.Jobs.Row
import VmDashboard.Machine.Table

/-!
# Claiming and completing jobs

The candidate query and the guarded update that `jobs_worker._claim_one` and
`agent_service.lease_one` share up to their filter, the job types an agent may
lease, and `agent_service.owned_job` and `complete_job`.
-/

namespace Jobs
open Python (Instant Dict)

/-- The time and approval clauses of both claim queries. NULL passes each of them. -/
def claimableNow (now : Instant) (job : Job) : Bool :=
  job.retryAfter.all (· ≤ now) && job.scheduledFor.all (· ≤ now) &&
    (job.approvalRequired ≠ some true || job.approvedAt.isSome)

inductive Claimant
  | worker
  | agent (id : String)
  deriving DecidableEq, Repr

/-- The status clause of the claimant's query, which its guarded update repeats. -/
def Claimant.takes : Claimant → Job → Bool
  | .worker, job => job.status = .pending
  | .agent id, job => job.status = .queued && job.agentId = some id

def claimFilter (claimant : Claimant) (allowed : List String) (now : Instant) (job : Job) : Bool :=
  claimant.takes job && allowed.contains job.jobType && claimableNow now job

/-- `order_by(coalesce(scheduled_for, created_at).asc()).first()`. -/
def oldest (jobs : List Job) : Option Job :=
  jobs.argmin fun job => job.scheduledFor.getD job.createdAt

def claimCandidate (jobs : Machine.Table Job.id) (claimant : Claimant) (allowed : List String)
    (now : Instant) : Option Job :=
  oldest (jobs.rows.filter (claimFilter claimant allowed now))

/-- `UPDATE jobs SET status = 'running', … WHERE id = :id AND status = …`: the table after it
and whether it matched the row. -/
def claimUpdate (jobs : Machine.Table Job.id) (claimant : Claimant) (id : String) (now : Instant) :
    Machine.Table Job.id × Bool :=
  match jobs.lookup id with
  | some job =>
    if claimant.takes job then
      (jobs.modify id (setRunning now) fun row => (setRunning_same now row).id, true)
    else (jobs, false)
  | none => (jobs, false)

theorem claimCandidate_spec {jobs : Machine.Table Job.id} {claimant : Claimant}
    {allowed : List String} {now : Instant} {job : Job}
    (h : claimCandidate jobs claimant allowed now = some job) :
    jobs.lookup job.id = some job ∧ claimFilter claimant allowed now job = true := by
  have hmem := List.argmin_mem (Option.mem_def.mpr h)
  rw [List.mem_filter] at hmem
  exact ⟨Machine.Table.lookup_eq_some.mpr ⟨hmem.1, rfl⟩, hmem.2⟩

/-- The query answers nothing only when no row passes its filter. -/
theorem claimCandidate_eq_none {jobs : Machine.Table Job.id} {claimant : Claimant}
    {allowed : List String} {now : Instant}
    (h : claimCandidate jobs claimant allowed now = none) :
    ∀ job ∈ jobs.rows, claimFilter claimant allowed now job = false := by
  intro job hjob
  have hnil := List.argmin_eq_none.mp h
  have := List.filter_eq_nil_iff.mp hnil job hjob
  exact Bool.eq_false_iff.mpr this

theorem claimant_takes_waiting {claimant : Claimant} {job : Job} (h : claimant.takes job = true) :
    job.status.waiting = true := by
  cases claimant with
  | worker =>
    have hs : job.status = .pending := of_decide_eq_true h
    rw [hs]
    rfl
  | agent id =>
    simp only [Claimant.takes, Bool.and_eq_true, decide_eq_true_eq] at h
    rw [h.1]
    rfl

theorem claimUpdate_matched {jobs after : Machine.Table Job.id} {claimant : Claimant} {id : String}
    {now : Instant} (h : claimUpdate jobs claimant id now = (after, true)) :
    ∃ job, jobs.lookup id = some job ∧ claimant.takes job = true ∧
      after = jobs.modify id (setRunning now) fun job => (setRunning_same now job).id := by
  unfold claimUpdate at h
  split at h
  next job hjob =>
    split at h
    next ht =>
      obtain ⟨rfl, -⟩ := Prod.mk.inj h
      exact ⟨job, hjob, ht, rfl⟩
    next => cases (Prod.mk.inj h).2
  next => cases (Prod.mk.inj h).2

theorem claimUpdate_missed {jobs after : Machine.Table Job.id} {claimant : Claimant} {id : String}
    {now : Instant} (h : claimUpdate jobs claimant id now = (after, false)) : after = jobs := by
  unfold claimUpdate at h
  split at h
  · split at h
    · cases (Prod.mk.inj h).2
    · exact (Prod.mk.inj h).1.symm
  · exact (Prod.mk.inj h).1.symm

/-! ### The types an agent may lease -/

def agentJobTypes : List String :=
  ["agent_discover", "agent_hypervisor", "agent_ansible", "agent_gateway", "agent_storage",
   "agent_k8s", "agent_ui_robot"]

def controlJobTypes : List String := ["agent_upgrade", "agent_restart"]

/-- The columns of a `RemoteAgent` that the lease reads. -/
structure Agent where
  id : String
  paused : Bool
  authMode : Option String
  allowedJobTypesList : List String

def allowedJobTypes (agent : Agent) : List String :=
  if agent.allowedJobTypesList = [] then agentJobTypes
  else agentJobTypes.filter agent.allowedJobTypesList.contains

/-- The types one `lease_one` call asks for. `qualifies` is `k8s_executor_service.qualifies`. -/
def leaseTypes (agent : Agent) (qualifies : Bool) (wantJobTypes : Option (List String)) :
    List String :=
  let granted := allowedJobTypes agent
  let granted := if qualifies then granted else granted.filter (· ≠ "agent_k8s")
  let granted := if agent.authMode = some "spiffe" then granted ++ controlJobTypes else granted
  match wantJobTypes with
  | none => granted
  | some wanted => granted.filter wanted.contains

theorem leaseTypes_subset {agent : Agent} {qualifies : Bool} {wantJobTypes : Option (List String)}
    {jobType : String} (h : jobType ∈ leaseTypes agent qualifies wantJobTypes) :
    jobType ∈ agentJobTypes ++ controlJobTypes := by
  have hgrant : ∀ t ∈ allowedJobTypes agent, t ∈ agentJobTypes := by
    intro t ht
    unfold allowedJobTypes at ht
    split at ht
    · exact ht
    · exact List.mem_of_mem_filter ht
  have hnarrow : ∀ t ∈ (if qualifies then allowedJobTypes agent
      else (allowedJobTypes agent).filter (· ≠ "agent_k8s")), t ∈ agentJobTypes := by
    intro t ht
    split at ht
    · exact hgrant t ht
    · exact hgrant t (List.mem_of_mem_filter ht)
  have hall : jobType ∈ leaseTypes agent qualifies none := by
    cases wantJobTypes with
    | none => exact h
    | some wanted => exact List.mem_of_mem_filter h
  simp only [leaseTypes] at hall
  split at hall
  · rcases List.mem_append.mp hall with hall | hall
    · exact List.mem_append_left _ (hnarrow jobType hall)
    · exact List.mem_append_right _ hall
  · exact List.mem_append_left _ (hnarrow jobType hall)

/-! ### Completion by an agent -/

def maxResultBytes : ℕ := 256 * 1024

def ownedJob (agentId : String) : Option Job → Except String Job
  | none => .error "Job not found for this agent."
  | some job =>
    if job.agentId ≠ some agentId then .error "Job not found for this agent."
    else if job.status ≠ .running ∧ job.status ≠ .cancelled then
      .error ("Job is not leased by this agent (status '" ++ job.status.text ++ "').")
    else .ok job

/-- What an agent posts to finish a job. -/
structure Report where
  status : String
  result : Dict
  error : String

/-- The error `complete_job` hands to `set_failed`; `none` when it calls `set_completed`. -/
def Report.failure (report : Report) : Option String :=
  if report.status = "completed" then
    if (Python.Json.obj report.result).dumps.utf8ByteSize > maxResultBytes then
      some ("Agent result exceeded " ++ toString (maxResultBytes / 1024) ++ " KB and was rejected.")
    else none
  else
    let error := if report.error = "" then "The agent reported a failure." else report.error
    some (String.ofList (error.toList.take 2000))

/-- The row after `complete_job` and the status it returns. -/
def completeJob (config : RetryConfig) (now : Instant) (report : Report) (job : Job) :
    Job × String :=
  if job.status = .cancelled then (job, "cancelled")
  else
    match report.failure with
    | none => (setCompleted now report.result job, "completed")
    | some error => (setFailed config now error [] job, "failed")

theorem completeJob_same (config : RetryConfig) (now : Instant) (report : Report) (job : Job) :
    (completeJob config now report job).1.Same job := by
  unfold completeJob
  split
  · exact .refl job
  · split
    · exact setCompleted_same ..
    · exact setFailed_same ..

/-- A row the operator cancelled is left as it is. -/
theorem completeJob_cancelled {config : RetryConfig} {now : Instant} {report : Report} {job : Job}
    (h : job.status = .cancelled) : completeJob config now report job = (job, "cancelled") :=
  if_pos h

/-- No type an agent can lease is on the list of retryable types. -/
theorem agent_types_not_retryable {jobType : String}
    (h : jobType ∈ agentJobTypes ++ controlJobTypes) : jobType ∉ RetryPolicy.retryableTypes := by
  have hall : ∀ t ∈ agentJobTypes ++ controlJobTypes, t ∉ RetryPolicy.retryableTypes := by decide
  exact hall jobType h

end Jobs
