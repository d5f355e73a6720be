import VmDashboard.Jobs.Queue

/-!
# Laws of one row over whole runs

A cancelled row stays cancelled, and an agent's row waits for that agent only,
exactly as long as certain writes are not made: the setters of the runners do
not look at the status they overwrite, and the retry branch of `set_failed` does
not look at the agent.
-/

namespace Jobs
open Machine
open Python (Instant)

/-! ### Cancelled rows -/

def Cancelled (id : String) (queue : Queue) : Prop :=
  (queue.jobs.lookup id).map Job.status = some .cancelled

instance (id : String) : DecidablePred (Cancelled id) := fun queue =>
  inferInstanceAs (Decidable ((queue.jobs.lookup id).map Job.status = some .cancelled))

/-- The runners' setters, which write the status whatever it was. -/
def Write.unguarded : Write → Bool
  | .running _ | .completed _ _ | .failed _ _ _ _ => true
  | _ => false

def Write.isReschedule : Write → Bool
  | .reschedule _ _ => true
  | _ => false

def Event.reschedules (id : String) : Event → Bool
  | .write target made _ => target = id && made.isReschedule
  | _ => false

/-- No runner writes the status of this row. -/
def NoRunnerWrite (id : String) (_ : Queue) : Event → Prop
  | .write target write _ => target = id → write.unguarded = false
  | _ => True

instance (id : String) (queue : Queue) (event : Event) : Decidable (NoRunnerWrite id queue event) :=
  match event with
  | .write .. => inferInstanceAs (Decidable (_ → _))
  | .create .. | .claimCall .. | .leaseCall .. | .select .. | .take .. => isTrue trivial

theorem noRunnerWrite_of_ne {id : String} {queue : Queue} {event : Event}
    (h : ∀ write finishes, event ≠ .write id write finishes) : NoRunnerWrite id queue event := by
  cases event with
  | write target write finishes =>
    rintro rfl
    exact absurd rfl (h write finishes)
  | _ => trivial

/-- One write to a cancelled row, other than a reschedule. -/
theorem Write.apply_cancelled {write : Write} {job : Job} (hjob : job.status = .cancelled)
    (hres : write.isReschedule = false) :
    (write.apply job).status = .cancelled ↔ write.unguarded = false := by
  cases write with
  | running now => simp [Write.apply, setRunning, Write.unguarded]
  | completed now result => simp [Write.apply, setCompleted, Write.unguarded]
  | failed config now error result =>
    simp only [Write.apply, setFailed_status, Write.unguarded]
    split <;> simp
  | cancelled now => simp [Write.apply, setCancelled, Write.unguarded, hjob]
  | missedWindow now reason => simp [Write.apply, setMissedWindow, Write.unguarded, hjob]
  | reschedule user booking => cases hres
  | complete agentId config now report =>
    simp only [Write.apply, Write.unguarded, iff_true]
    split
    next held h =>
      rw [(ownedJob_ok h).1, completeJob_cancelled hjob, hjob]
    next => exact hjob

theorem step_cancelled {id : String} (queue : Queue) (event : Event) (after : Queue)
    (hres : event.reschedules id = false) (hc : Cancelled id queue)
    (h : queue.step event = some after) : Cancelled id after ↔ NoRunnerWrite id queue event := by
  obtain ⟨job, hjob, hstatus⟩ := Option.map_eq_some_iff.mp hc
  obtain ⟨job', hafter, hcases⟩ := step_row h hjob
  have hrow : Cancelled id after ↔ job'.status = .cancelled := by
    rw [Cancelled, hafter, Option.map_some, Option.some.injEq]
  rw [hrow]
  rcases hcases with ⟨rfl, hne⟩ | ⟨claimant, now, htakes, -, -⟩ | ⟨write, finishes, rfl, rfl⟩
  · exact ⟨fun _ => noRunnerWrite_of_ne hne, fun _ => hstatus⟩
  · have hwait := claimant_takes_waiting htakes
    rw [hstatus] at hwait
    cases hwait
  · have hnot : write.isReschedule = false := by
      simpa only [Event.reschedules, decide_true, Bool.true_and] using hres
    rw [Write.apply_cancelled hstatus hnot]
    exact ⟨fun hw _ => hw, fun hn => hn rfl⟩

/-- A cancelled row that nobody reschedules stays cancelled exactly when no runner writes its
status any more. -/
theorem cancelled_stays_iff {id : String} {queue : Queue} {events : List Event}
    (hc : Cancelled id queue) (hres : ∀ event ∈ events, event.reschedules id = false) :
    queueSystem.Always (Cancelled id) queue events ↔
      queueSystem.Along (NoRunnerWrite id) queue events :=
  queueSystem.always_iff_along step_cancelled hres hc

/- A running job that the operator cancels. -/
def cancelRun : List Event :=
  [.create "j1" 0 none { jobType := "ec2_destroy", createdBy := "ann" },
   .claimCall 1 ["ec2_destroy"], .select 1 10, .take 1 10 1, .write "j1" (.cancelled 20) none]

/- A second cancel, and the agent endpoint refusing a report on a row of no agent. -/
def quietRun : List Event :=
  [.write "j1" (.cancelled 30) none,
   .write "j1" (.complete "agent-1" ⟨true, none⟩ 40 ⟨"failed", [], "Read timed out."⟩) none]

theorem cancelled_stays_quietRun : ∃ queue ∈ queueSystem.exec Queue.empty cancelRun,
    Cancelled "j1" queue ∧ (queueSystem.Always (Cancelled "j1") queue quietRun ↔
      queueSystem.Along (NoRunnerWrite "j1") queue quietRun) := by
  have hrun : ∃ queue ∈ queueSystem.exec Queue.empty cancelRun, Cancelled "j1" queue := by decide
  obtain ⟨queue, hqueue, hc⟩ := hrun
  exact ⟨queue, hqueue, hc, cancelled_stays_iff hc (by decide)⟩

/-- The runner that was cancelled completes its work and the row reads completed. -/
theorem cancelled_completed : ∃ queue ∈ queueSystem.exec Queue.empty cancelRun,
    Cancelled "j1" queue ∧
      (∀ event ∈ [Event.write "j1" (.completed 30 []) (some 1)], event.reschedules "j1" = false) ∧
      ¬queueSystem.Always (Cancelled "j1") queue [.write "j1" (.completed 30 []) (some 1)] := by
  decide

/-! ### Rows of an agent -/

/-- The row is bound to the agent: it is never the worker's, and when it waits the agent's
query answers it for every grant that covers its type. -/
structure BoundTo (agent : String) (job : Job) : Prop where
  agentId : job.agentId = some agent
  notPending : job.status ≠ .pending
  leasable : job.status.waiting = true → job.status = .queued ∧
    ∀ allowed now, allowed.contains job.jobType = true → claimableNow now job = true →
      claimFilter (.agent agent) allowed now job = true

theorem boundTo_iff {agent : String} {job : Job} :
    BoundTo agent job ↔ job.agentId = some agent ∧ job.status ≠ .pending := by
  refine ⟨fun h => ⟨h.agentId, h.notPending⟩, fun ⟨hagent, hpending⟩ => ⟨hagent, hpending, ?_⟩⟩
  intro hwait
  have hqueued : job.status = .queued := by
    cases hs : job.status with
    | queued => rfl
    | pending => exact absurd hs hpending
    | running | completed | failed | cancelled => rw [hs] at hwait; cases hwait
  refine ⟨hqueued, fun allowed now hallowed hnow => ?_⟩
  simp only [claimFilter, Claimant.takes, hqueued, hagent, hallowed, hnow, decide_true,
    Bool.and_self]

/-- The worker's query never answers a row of an agent. -/
theorem BoundTo.not_claimed {agent : String} {job : Job} (h : BoundTo agent job)
    (allowed : List String) (now : Instant) : claimFilter .worker allowed now job = false := by
  have hworker : Claimant.worker.takes job = false := decide_eq_false h.notPending
  simp only [claimFilter, hworker, Bool.false_and]

theorem createJob_boundTo {id agent : String} {now : Instant} {defaultExpiry : Option Instant}
    {request : JobRequest} (h : orNone request.agentId = some agent) :
    BoundTo agent (createJob id now defaultExpiry request) := by
  rw [boundTo_iff]
  refine ⟨h, ?_⟩
  simp only [createJob, h, Option.isSome_some, if_true]
  decide

def RowBoundTo (id agent : String) (queue : Queue) : Prop :=
  ∃ job, queue.jobs.lookup id = some job ∧ BoundTo agent job

/-- No `set_failed` on this row takes the branch that runs the job again. -/
def NoRetry (id : String) (queue : Queue) : Event → Prop
  | .write target write _ =>
    target = id → ∀ job ∈ queue.jobs.lookup id, write.retried job = false
  | _ => True

theorem noRetry_of_ne {id : String} {queue : Queue} {event : Event}
    (h : ∀ write finishes, event ≠ .write id write finishes) : NoRetry id queue event := by
  cases event with
  | write target write finishes =>
    rintro rfl
    exact absurd rfl (h write finishes)
  | _ => trivial

theorem Write.apply_boundTo {write : Write} {agent : String} {job : Job} (h : BoundTo agent job) :
    BoundTo agent (write.apply job) ↔ write.retried job = false := by
  obtain ⟨hagent, hpending⟩ := boundTo_iff.mp h
  rw [boundTo_iff, (write.apply_same job).agentId]
  simp only [hagent, true_and]
  cases write with
  | running now => simp [Write.apply, setRunning, Write.retried]
  | completed now result => simp [Write.apply, setCompleted, Write.retried]
  | failed config now error result =>
    simp only [Write.apply, setFailed_status, Write.retried]
    cases retries config error job <;> simp
  | cancelled now =>
    simp only [Write.apply, Write.retried, iff_true]
    intro hp
    have hw := setCancelled_waiting now job
    rw [hp] at hw
    cases hw
  | missedWindow now reason =>
    simp only [Write.apply, Write.retried, iff_true]
    intro hp
    have hw := setMissedWindow_waiting now reason job
    rw [hp] at hw
    cases hw
  | reschedule user booking =>
    simp only [Write.apply, Write.retried, iff_true]
    split
    next moved hm =>
      rcases (rescheduleJob_ok hm).2 with ⟨-, hs⟩ | ⟨-, hs⟩
      · rw [hs]
        exact hpending
      · simp [hs, hagent]
    next => exact hpending
  | complete agentId config now report =>
    simp only [Write.apply, Write.retried]
    split
    next held hh =>
      obtain ⟨rfl, hown, hrun | hcancel⟩ := ownedJob_ok hh
      · have hlive : ¬held.status = .cancelled := by simp [hrun]
        simp only [completeJob, if_neg hlive]
        cases report.failure with
        | none => simp [setCompleted]
        | some error =>
          simp only [setFailed_status, hown, hrun, decide_true, Bool.true_and, Option.any_some]
          cases retries config error held <;> simp
      · simp [completeJob_cancelled hcancel, hcancel]
    next reason hh =>
      have hnot : ¬(job.agentId = some agentId ∧ job.status = .running) := by
        rintro ⟨ha, hr⟩
        simp [ownedJob, ha, hr] at hh
      have hfalse : (decide (job.agentId = some agentId) && decide (job.status = .running)) = false := by
        rw [← Bool.decide_and]
        exact decide_eq_false hnot
      simp [hfalse, hpending]

theorem step_rowBoundTo {id agent : String} (queue : Queue) (event : Event) (after : Queue)
    (hb : RowBoundTo id agent queue) (h : queue.step event = some after) :
    RowBoundTo id agent after ↔ NoRetry id queue event := by
  obtain ⟨job, hjob, hbound⟩ := hb
  obtain ⟨job', hafter, hcases⟩ := step_row h hjob
  have hrow : RowBoundTo id agent after ↔ BoundTo agent job' := by
    constructor
    · rintro ⟨row, hlookup, hrow⟩
      obtain rfl := Option.some.inj (hafter.symm.trans hlookup)
      exact hrow
    · exact fun hs => ⟨job', hafter, hs⟩
  rw [hrow]
  rcases hcases with ⟨rfl, hne⟩ | ⟨claimant, now, -, rfl, hne⟩ | ⟨write, finishes, rfl, rfl⟩
  · exact ⟨fun _ => noRetry_of_ne hne, fun _ => hbound⟩
  · refine ⟨fun _ => noRetry_of_ne hne, fun _ => ?_⟩
    exact boundTo_iff.mpr ⟨hbound.agentId, by simp [setRunning]⟩
  · rw [Write.apply_boundTo hbound]
    constructor
    · intro hw _ row hlook
      obtain rfl := Option.some.inj (hjob.symm.trans hlook)
      exact hw
    · exact fun hn => hn rfl job hjob

/-- From its creation on, an agent's row waits for that agent only exactly when no
`set_failed` on it takes the retry branch. -/
theorem agent_row_bound_iff {queue created : Queue} {id agent : String} {now : Instant}
    {defaultExpiry : Option Instant} {request : JobRequest} {events : List Event}
    (hagent : orNone request.agentId = some agent)
    (hcreate : queue.step (.create id now defaultExpiry request) = some created) :
    queueSystem.Always (RowBoundTo id agent) created events ↔
      queueSystem.Along (NoRetry id) created events := by
  obtain ⟨jobs, hins, rfl⟩ := Option.map_eq_some_iff.mp hcreate
  have hrow : jobs.lookup id = some (createJob id now defaultExpiry request) := by
    rw [Table.lookup_insert hins]
    exact if_pos rfl
  have hbound : RowBoundTo id agent { queue with jobs } := ⟨_, hrow, createJob_boundTo hagent⟩
  exact queueSystem.always_iff_along (P := fun _ => True)
    (fun s l t _ hI ht => step_rowBoundTo s l t hI ht) (fun _ _ => trivial) hbound

/-- A row of a type agents can lease is never run again by `set_failed`. -/
theorem Write.not_retried_of_agentType {write : Write} {job : Job}
    (h : job.jobType ∈ agentJobTypes ++ controlJobTypes) : write.retried job = false := by
  have hretries : ∀ config error, retries config error job = false := by
    intro config error
    by_cases hr : retries config error job = true
    · rw [retries, Bool.and_eq_true] at hr
      exact absurd (RetryPolicy.shouldRetry_type hr.2) (agent_types_not_retryable h)
    · exact Bool.eq_false_iff.mpr hr
  cases write with
  | failed config now error result => exact hretries config error
  | complete agentId config now report => simp [Write.retried, hretries]
  | _ => rfl

/-- So the rows agents are really given wait for their agent only, in every run. -/
theorem agentTyped_row_bound {queue created : Queue} {id agent : String} {now : Instant}
    {defaultExpiry : Option Instant} {request : JobRequest} (events : List Event)
    (hagent : orNone request.agentId = some agent)
    (htype : request.jobType ∈ agentJobTypes ++ controlJobTypes)
    (hcreate : queue.step (.create id now defaultExpiry request) = some created) :
    queueSystem.Always (RowBoundTo id agent) created events := by
  obtain ⟨jobs, hins, rfl⟩ := Option.map_eq_some_iff.mp hcreate
  have hrow : jobs.lookup id = some (createJob id now defaultExpiry request) := by
    rw [Table.lookup_insert hins]
    exact if_pos rfl
  let kept : Queue → Prop := fun q => ∃ job, q.jobs.lookup id = some job ∧ BoundTo agent job ∧
    job.jobType ∈ agentJobTypes ++ controlJobTypes
  have hstep : ∀ s l t, kept s → queueSystem.step s l = some t → kept t := by
    rintro s l t ⟨job, hjob, hbound, hkind⟩ ht
    obtain ⟨job', hafter, hcases⟩ := step_row ht hjob
    refine ⟨job', hafter, ?_⟩
    rcases hcases with ⟨rfl, -⟩ | ⟨claimant, start, -, rfl, -⟩ | ⟨write, finishes, -, rfl⟩
    · exact ⟨hbound, hkind⟩
    · exact ⟨boundTo_iff.mpr ⟨hbound.agentId, by simp [setRunning]⟩, hkind⟩
    · refine ⟨(Write.apply_boundTo hbound).mpr (Write.not_retried_of_agentType hkind), ?_⟩
      rw [(write.apply_same job).jobType]
      exact hkind
  have hrun := queueSystem.always_of_step hstep events (s := { queue with jobs })
    ⟨_, hrow, createJob_boundTo hagent, htype⟩
  exact queueSystem.always_mono (fun q ⟨job, hjob, hbound, _⟩ => ⟨job, hjob, hbound⟩) hrun

/- An agent's job that is leased and fails for good. -/
def leasedRun : List Event :=
  [.leaseCall 1 ⟨"agent-1", false, none, []⟩ false none, .select 1 10, .take 1 10 1,
   .write "j1" (.complete "agent-1" ⟨true, none⟩ 40 ⟨"failed", [], "Read timed out."⟩) (some 1)]

theorem leasedRun_bound : ∃ queue ∈ Queue.empty.step
      (.create "j1" 0 none
        { jobType := "agent_ansible", createdBy := "ann", agentId := some "agent-1" }),
    queueSystem.Always (RowBoundTo "j1" "agent-1") queue leasedRun ↔
      queueSystem.Along (NoRetry "j1") queue leasedRun := by
  have hrun : (Queue.empty.step (.create "j1" 0 none
      { jobType := "agent_ansible", createdBy := "ann", agentId := some "agent-1" })).isSome = true :=
    by decide
  obtain ⟨queue, hqueue⟩ := Option.isSome_iff_exists.mp hrun
  exact ⟨queue, hqueue, agent_row_bound_iff (by decide) hqueue⟩

/-- A type the retry policy knows, bound to an agent: after a transient failure the row waits for
the local worker. -/
theorem agent_row_pending : ∃ queue ∈ Queue.empty.step
      (.create "j1" 0 none { jobType := "ec2_power", createdBy := "ann", agentId := some "agent-1" }),
    ¬queueSystem.Always (RowBoundTo "j1" "agent-1") queue
      [.write "j1" (.failed ⟨true, none⟩ 20 "Read timed out." []) none] := by
  have hpending : ∃ queue ∈ Queue.empty.step
      (.create "j1" 0 none { jobType := "ec2_power", createdBy := "ann", agentId := some "agent-1" }),
      ∃ after ∈ queueSystem.exec queue
          [.write "j1" (.failed ⟨true, none⟩ 20 "Read timed out." []) none],
        ∃ job ∈ after.jobs.lookup "j1", job.status = .pending := by decide +kernel
  obtain ⟨queue, hqueue, after, hafter, job, hjob, hstatus⟩ := hpending
  refine ⟨queue, hqueue, fun h => ?_⟩
  obtain ⟨row, hrow, hbound⟩ := System.always_exec _ h hafter
  obtain rfl := Option.some.inj (hrow.symm.trans hjob)
  exact hbound.notPending hstatus

end Jobs
