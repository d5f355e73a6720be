import VmDashboard.Jobs.Claim
import VmDashboard.Machine.System

/-!
# The job queue, statement by statement

The state is the job table, the claim calls that are under way (a worker's
`_claim_one` or an agent's `lease_one`, between two of their statements) and the
claims that are live: a claim is live from the guarded update that matched until
its claimant's last write for it. Every row-level write is atomic; any of them
may fall between the candidate query of a call and its guarded update.
-/

namespace Jobs
open Machine (Table)
open Python (Instant Dict)

/-- A call of `_claim_one` or `lease_one` under way: the iterations it has left (`none` for the
unbounded loop of `lease_one`) and the row its last query answered. -/
structure ClaimCall where
  id : ℕ
  claimant : Claimant
  allowed : List String
  left : Option ℕ
  picked : Option String

structure Claim where
  id : ℕ
  job : String
  claimant : Claimant
  deriving DecidableEq

structure Queue where
  jobs : Table Job.id
  calls : Table ClaimCall.id
  live : Table Claim.id

/-- One write to a job row. -/
inductive Write
  | running (now : Instant)
  | completed (now : Instant) (result : Dict)
  | failed (config : RetryConfig) (now : Instant) (error : String) (result : Dict)
  | cancelled (now : Instant)
  | missedWindow (now : Instant) (reason : String)
  | reschedule (user : User) (booking : Booking)
  | complete (agentId : String) (config : RetryConfig) (now : Instant) (report : Report)

/-- The row after the write; a refused reschedule or completion leaves it alone. -/
def Write.apply : Write → Job → Job
  | .running now, job => setRunning now job
  | .completed now result, job => setCompleted now result job
  | .failed config now error result, job => setFailed config now error result job
  | .cancelled now, job => setCancelled now job
  | .missedWindow now reason, job => setMissedWindow now reason job
  | .reschedule user booking, job =>
    match rescheduleJob user booking job with
    | .ok moved => moved
    | .error _ => job
  | .complete agentId config now report, job =>
    match ownedJob agentId (some job) with
    | .ok held => (completeJob config now report held).1
    | .error _ => job

theorem ownedJob_ok {agentId : String} {job held : Job} (h : ownedJob agentId (some job) = .ok held) :
    held = job ∧ job.agentId = some agentId ∧
      (job.status = .running ∨ job.status = .cancelled) := by
  unfold ownedJob at h
  simp only at h
  split at h
  · cases h
  next hagent =>
    split at h
    · cases h
    next hstatus =>
      refine ⟨(Except.ok.inj h).symm, of_not_not hagent, ?_⟩
      by_cases hr : job.status = .running
      · exact .inl hr
      · exact .inr (of_not_not fun hc => hstatus ⟨hr, hc⟩)

theorem Write.apply_same (write : Write) (job : Job) : (write.apply job).Same job := by
  cases write with
  | running now => exact setRunning_same ..
  | completed now result => exact setCompleted_same ..
  | failed config now error result => exact setFailed_same ..
  | cancelled now => exact setCancelled_same ..
  | missedWindow now reason => exact setMissedWindow_same ..
  | reschedule user booking =>
    simp only [Write.apply]
    split
    next moved h => exact (rescheduleJob_ok h).1
    next => exact .refl job
  | complete agentId config now report =>
    simp only [Write.apply]
    split
    next held h =>
      obtain ⟨rfl, -⟩ := ownedJob_ok h
      exact completeJob_same ..
    next => exact .refl job

theorem Write.apply_id (write : Write) (job : Job) : (write.apply job).id = job.id :=
  (write.apply_same job).id

/-- The write fails the row transiently: `set_failed` is called on it and takes the branch that
runs the job again. -/
def Write.retried : Write → Job → Bool
  | .failed config _ error _, job => retries config error job
  | .complete agentId config _ report, job =>
    job.agentId = some agentId && job.status = .running &&
      report.failure.any fun error => retries config error job
  | _, _ => false

/-- The write moves a cancelled row to a new time. -/
def Write.revived : Write → Job → Bool
  | .reschedule user booking, job =>
    job.status = .cancelled && (job.createdBy = user.username || user.isEffectiveAdmin) &&
      booking.isOk
  | _, _ => false

/-- The only writes that leave a row waiting which did not wait are a retry and the revival of
a cancelled row. -/
theorem Write.apply_waiting {write : Write} {job : Job}
    (h : (write.apply job).status.waiting = true) :
    job.status.waiting = true ∨ write.retried job = true ∨ write.revived job = true := by
  cases write with
  | running now => cases h
  | completed now result => cases h
  | failed config now error result =>
    simp only [Write.apply, setFailed_status] at h
    split at h
    next hr => exact .inr (.inl hr)
    next => cases h
  | cancelled now =>
    rw [Write.apply, setCancelled_waiting] at h
    cases h
  | missedWindow now reason =>
    rw [Write.apply, setMissedWindow_waiting] at h
    cases h
  | reschedule user booking =>
    simp only [Write.apply] at h
    split at h
    next moved hm =>
      rcases (rescheduleJob_ok hm).2 with hw | ⟨hc, -⟩
      · exact .inl hw.1
      · refine .inr (.inr ?_)
        unfold rescheduleJob at hm
        split at hm
        · cases hm
        next howner =>
          have hown : job.createdBy = user.username ∨ user.isEffectiveAdmin = true := by
            by_cases hu : job.createdBy = user.username
            · exact .inl hu
            · exact .inr (of_not_not fun ha => howner ⟨hu, ha⟩)
          have hbook : booking.isOk = true := by
            cases booking with
            | error reason => simp [hc] at hm
            | ok booked => rfl
          simp only [Write.revived, Bool.and_eq_true, Bool.or_eq_true, decide_eq_true_eq]
          exact ⟨⟨hc, hown⟩, hbook⟩
    next => exact .inl h
  | complete agentId config now report =>
    simp only [Write.apply] at h
    split at h
    next held hh =>
      obtain ⟨rfl, hagent, hstatus⟩ := ownedJob_ok hh
      rcases hstatus with hrun | hcancel
      · unfold completeJob at h
        rw [if_neg (by simp [hrun])] at h
        cases hf : report.failure with
        | none =>
          simp only [hf] at h
          cases h
        | some error =>
          simp only [hf, setFailed_status] at h
          split at h
          next hr =>
            refine .inr (.inl ?_)
            simp [Write.retried, hagent, hrun, hf, hr]
          next => cases h
      · rw [completeJob_cancelled hcancel, hcancel] at h
        cases h
    next => exact .inl h

inductive Event
  | create (id : String) (now : Instant) (defaultExpiry : Option Instant) (request : JobRequest)
  | claimCall (id : ℕ) (allowed : List String)
  | leaseCall (id : ℕ) (agent : Agent) (qualifies : Bool) (wantJobTypes : Option (List String))
  | select (call : ℕ) (now : Instant)
  | take (call : ℕ) (now : Instant) (claim : ℕ)
  | write (job : String) (write : Write) (finishes : Option ℕ)

/-- `claim` ends with this write to `job`: it must be live and on that job. -/
def Queue.finish (queue : Queue) (job : String) : Option ℕ → Option Queue
  | none => some queue
  | some claim =>
    match queue.live.lookup claim with
    | some c => if c.job = job then some { queue with live := queue.live.erase claim } else none
    | none => none

def ClaimCall.pick (job : String) (call : ClaimCall) : ClaimCall :=
  { call with left := call.left.map (· - 1), picked := some job }

def ClaimCall.lose (call : ClaimCall) : ClaimCall := { call with picked := none }

def Queue.step (queue : Queue) : Event → Option Queue
  | .create id now defaultExpiry request =>
    (queue.jobs.insert (createJob id now defaultExpiry request)).map fun jobs =>
      { queue with jobs }
  | .claimCall id allowed =>
    if allowed = [] then some queue
    else
      (queue.calls.insert ⟨id, .worker, allowed, some 10, none⟩).map fun calls =>
        { queue with calls }
  | .leaseCall id agent qualifies wantJobTypes =>
    let allowed := leaseTypes agent qualifies wantJobTypes
    if agent.paused ∨ allowed = [] then some queue
    else
      (queue.calls.insert ⟨id, .agent agent.id, allowed, none, none⟩).map fun calls =>
        { queue with calls }
  | .select id now =>
    match queue.calls.lookup id with
    | some ⟨_, claimant, allowed, _, none⟩ =>
      match claimCandidate queue.jobs claimant allowed now with
      | none => some { queue with calls := queue.calls.erase id }
      | some job =>
        some { queue with
          calls := queue.calls.modify id (ClaimCall.pick job.id) fun _ => rfl }
    | _ => none
  | .take id now claim =>
    match queue.calls.lookup id with
    | some ⟨_, claimant, _, left, some job⟩ =>
      match claimUpdate queue.jobs claimant job now with
      | (jobs, true) =>
        (queue.live.insert ⟨claim, job, claimant⟩).map fun live =>
          { jobs, live, calls := queue.calls.erase id }
      | (jobs, false) =>
        -- the race is lost: the next candidate, unless this was the last iteration
        let calls :=
          if left = some 0 then queue.calls.erase id
          else queue.calls.modify id ClaimCall.lose fun _ => rfl
        some { queue with jobs, calls }
    | _ => none
  | .write job write finishes =>
    (queue.finish job finishes).map fun queue =>
      { queue with jobs := queue.jobs.modify job write.apply fun row => (write.apply_same row).id }

def Queue.empty : Queue := ⟨.empty, .empty, .empty⟩

def queueSystem : Machine.System Queue Event := ⟨Queue.step⟩

theorem finish_jobs {queue after : Queue} {job : String} {finishes : Option ℕ}
    (h : queue.finish job finishes = some after) : after.jobs = queue.jobs := by
  unfold Queue.finish at h
  split at h
  · rw [← Option.some.inj h]
  · split at h
    · split at h
      · rw [← Option.some.inj h]
      · cases h
    · cases h

/-- What a step can do to the rows and the live claims. -/
inductive Effect (queue : Queue) : Event → Queue → Prop
  | added {id now defaultExpiry request jobs}
      (hins : queue.jobs.insert (createJob id now defaultExpiry request) = some jobs) :
      Effect queue (.create id now defaultExpiry request) { queue with jobs }
  | idle {event after} (hjobs : after.jobs = queue.jobs) (hlive : after.live = queue.live) :
      Effect queue event after
  | taken {call now claim claimant id job after} (hjob : queue.jobs.lookup id = some job)
      (htakes : claimant.takes job = true)
      (hjobs : after.jobs = queue.jobs.modify id (setRunning now) fun row => (setRunning_same now row).id)
      (hlive : queue.live.insert ⟨claim, id, claimant⟩ = some after.live) :
      Effect queue (.take call now claim) after
  | written {id write finishes finished} (hfin : queue.finish id finishes = some finished) :
      Effect queue (.write id write finishes)
        { finished with jobs := queue.jobs.modify id write.apply fun row => (write.apply_same row).id }

theorem step_effect {queue after : Queue} {event : Event} (h : queue.step event = some after) :
    Effect queue event after := by
  cases event with
  | create id now defaultExpiry request =>
    obtain ⟨jobs, hins, rfl⟩ := Option.map_eq_some_iff.mp h
    exact .added hins
  | claimCall call allowed =>
    simp only [Queue.step] at h
    split at h
    · obtain rfl := Option.some.inj h
      exact .idle rfl rfl
    · obtain ⟨calls, -, rfl⟩ := Option.map_eq_some_iff.mp h
      exact .idle rfl rfl
  | leaseCall call agent qualifies wantJobTypes =>
    simp only [Queue.step] at h
    split at h
    · obtain rfl := Option.some.inj h
      exact .idle rfl rfl
    · obtain ⟨calls, -, rfl⟩ := Option.map_eq_some_iff.mp h
      exact .idle rfl rfl
  | select call now =>
    simp only [Queue.step] at h
    split at h
    · split at h
      · obtain rfl := Option.some.inj h
        exact .idle rfl rfl
      · obtain rfl := Option.some.inj h
        exact .idle rfl rfl
    · cases h
  | take call now claim =>
    simp only [Queue.step] at h
    split at h
    next claimant allowed left picked hcall =>
      split at h
      next jobs hupdate =>
        obtain ⟨live, hins, rfl⟩ := Option.map_eq_some_iff.mp h
        obtain ⟨job, hjob, htakes, rfl⟩ := claimUpdate_matched hupdate
        exact .taken hjob htakes rfl hins
      next jobs hupdate =>
        obtain rfl := Option.some.inj h
        exact .idle (claimUpdate_missed hupdate) rfl
    next => cases h
  | write id write finishes =>
    obtain ⟨finished, hfin, rfl⟩ := Option.map_eq_some_iff.mp h
    have hjobs := finish_jobs hfin
    rw [hjobs]
    exact .written hfin

/-- Rows are never deleted, and a step leaves a row as it is, starts it, or applies one write
to it. -/
theorem step_row {queue after : Queue} {event : Event} (h : queue.step event = some after)
    {id : String} {job : Job} (hjob : queue.jobs.lookup id = some job) :
    ∃ job', after.jobs.lookup id = some job' ∧
      ((job' = job ∧ ∀ write finishes, event ≠ .write id write finishes) ∨
        (∃ claimant now, Claimant.takes claimant job = true ∧ job' = setRunning now job ∧
          ∀ write finishes, event ≠ .write id write finishes) ∨
        ∃ write finishes, event = .write id write finishes ∧ job' = write.apply job) := by
  by_cases hw : ∃ write finishes, event = .write id write finishes
  · obtain ⟨write, finishes, rfl⟩ := hw
    obtain ⟨finished, hfin, rfl⟩ := Option.map_eq_some_iff.mp h
    refine ⟨write.apply job, ?_, .inr (.inr ⟨write, finishes, rfl, rfl⟩)⟩
    show (finished.jobs.modify id write.apply fun row => (write.apply_same row).id).lookup id = _
    rw [finish_jobs hfin, Table.lookup_modify_self, hjob, Option.map_some]
  · have hne : ∀ write finishes, event ≠ .write id write finishes :=
      fun write finishes he => hw ⟨write, finishes, he⟩
    cases step_effect h with
    | added hins => exact ⟨job, Table.lookup_insert_of_some hins hjob, .inl ⟨rfl, hne⟩⟩
    | idle hjobs hlive => exact ⟨job, by rw [hjobs, hjob], .inl ⟨rfl, hne⟩⟩
    | @taken _ now _ claimant id' job' _ hjob' htakes hjobs hlive =>
      by_cases hid : id = id'
      · subst hid
        obtain rfl := Option.some.inj (hjob.symm.trans hjob')
        refine ⟨setRunning now job, ?_, .inr (.inl ⟨claimant, now, htakes, rfl, hne⟩)⟩
        rw [hjobs, Table.lookup_modify_self, hjob, Option.map_some]
      · refine ⟨job, ?_, .inl ⟨rfl, hne⟩⟩
        rw [hjobs, Table.lookup_modify_of_ne _ hid, hjob]
    | @written id' write finishes finished hfin =>
      have hid : id ≠ id' := fun he => hne write finishes (he ▸ rfl)
      refine ⟨job, ?_, .inl ⟨rfl, hne⟩⟩
      show (queue.jobs.modify id' write.apply fun row => (write.apply_same row).id).lookup id = _
      rw [Table.lookup_modify_of_ne _ hid, hjob]

end Jobs
