import VmDashboard.Jobs.Queue
import VmDashboard.Machine.Count

/-!
# How often a job is claimed

Every requeue spends an attempt, so the attempts of a row count its claims. The retry switch and
the limit are held fixed.
-/

namespace Jobs
open Machine (Table)
open Python (Instant Dict)

deriving instance DecidableEq for RetryConfig

/-- The step claims the row `id`. -/
def Queue.claims (id : String) (queue : Queue) : Event → Bool
  | .take call now _ =>
    match queue.calls.lookup call with
    | some c => c.picked = some id && (claimUpdate queue.jobs c.claimant id now).2
    | none => false
  | _ => false

/-- The writes of a run: the runner's `set_running`, and the `set_completed` or `set_failed` it
ends in. -/
def Write.ByRun (config : RetryConfig) : Write → Option ℕ → Prop
  | .running _, none => True
  | .completed .., some _ => True
  | .failed read .., some _ => read = config
  | .complete _ read .., some _ => read = config
  | _, _ => False

instance (config : RetryConfig) (write : Write) (finishes : Option ℕ) :
    Decidable (write.ByRun config finishes) := by
  unfold Write.ByRun
  split <;> infer_instance

/-- The row `id` is written by its runs only. -/
def RunsOnly (id : String) (config : RetryConfig) (queue : Queue) : Event → Prop
  | .write job write finishes =>
    job = id → write.ByRun config finishes ∧ ∃ c ∈ queue.live.rows, c.job = id
  | _ => True

instance (id : String) (config : RetryConfig) (queue : Queue) (event : Event) :
    Decidable (RunsOnly id config queue event) :=
  match event with
  | .write .. => inferInstanceAs (Decidable (_ → _ ∧ ∃ c ∈ _, _))
  | .create .. | .claimCall .. | .leaseCall .. | .select .. | .take .. => isTrue trivial

/-! ### What a step does to one row -/

/-- A step as the row `id` and the claims on it see it. -/
inductive Touch (id : String) (queue : Queue) : Event → Queue → Prop
  | created {now defaultExpiry request after} (hfree : queue.jobs.lookup id = none)
      (hrow : after.jobs.lookup id = some (createJob id now defaultExpiry request))
      (hlive : after.live = queue.live) :
      Touch id queue (.create id now defaultExpiry request) after
  | claimed {call now claim claimant job after}
      (hclaims : queue.claims id (.take call now claim) = true)
      (hjob : queue.jobs.lookup id = some job) (htakes : Claimant.takes claimant job = true)
      (hrow : after.jobs.lookup id = some (setRunning now job))
      (hlive : queue.live.insert ⟨claim, id, claimant⟩ = some after.live) :
      Touch id queue (.take call now claim) after
  | written {write finishes finished after} (hfin : queue.finish id finishes = some finished)
      (hrow : after.jobs.lookup id = (queue.jobs.lookup id).map write.apply)
      (hlive : after.live = finished.live) :
      Touch id queue (.write id write finishes) after
  | passed {event after} (hclaims : queue.claims id event = false)
      (hrow : after.jobs.lookup id = queue.jobs.lookup id)
      (hlive : ∀ c, c.job = id → (c ∈ after.live.rows ↔ c ∈ queue.live.rows)) :
      Touch id queue event after

theorem mem_live_insert {live live' : Table Claim.id} {new c : Claim}
    (hins : live.insert new = some live') (hc : c.job ≠ new.job) :
    c ∈ live'.rows ↔ c ∈ live.rows := by
  have hne : c ≠ new := fun h => hc (h ▸ rfl)
  simp [(Table.insert_eq_some hins).2, hne]

theorem mem_live_finish {queue finished : Queue} {job : String} {finishes : Option ℕ} {c : Claim}
    (hfin : queue.finish job finishes = some finished) (hc : c.job ≠ job) :
    c ∈ finished.live.rows ↔ c ∈ queue.live.rows := by
  unfold Queue.finish at hfin
  split at hfin
  · rw [← Option.some.inj hfin]
  next claim =>
    split at hfin
    next ended hended =>
      split at hfin
      next hjob =>
        obtain rfl := Option.some.inj hfin
        have hmem := Table.lookup_eq_some.mp hended
        rw [Table.mem_erase]
        refine and_iff_left_of_imp fun hrow hid => hc ?_
        rw [Table.eq_of_key hrow hmem.1 (hid.trans hmem.2.symm), hjob]
      next => cases hfin
    next => cases hfin

theorem step_touch {queue after : Queue} {event : Event} (h : queue.step event = some after)
    (id : String) : Touch id queue event after := by
  cases event with
  | create id' now defaultExpiry request =>
    obtain ⟨jobs, hins, rfl⟩ := Option.map_eq_some_iff.mp h
    have hlook := Table.lookup_insert hins
    by_cases hid : id = id'
    · subst hid
      refine .created (Table.insert_eq_some hins).1 ?_ rfl
      exact (hlook id).trans (if_pos rfl)
    · refine .passed rfl ?_ fun _ _ => Iff.rfl
      exact (hlook id).trans (if_neg hid)
  | claimCall call allowed =>
    simp only [Queue.step] at h
    split at h
    · obtain rfl := Option.some.inj h
      exact .passed rfl rfl fun _ _ => Iff.rfl
    · obtain ⟨calls, -, rfl⟩ := Option.map_eq_some_iff.mp h
      exact .passed rfl rfl fun _ _ => Iff.rfl
  | leaseCall call agent qualifies wantJobTypes =>
    simp only [Queue.step] at h
    split at h
    · obtain rfl := Option.some.inj h
      exact .passed rfl rfl fun _ _ => Iff.rfl
    · obtain ⟨calls, -, rfl⟩ := Option.map_eq_some_iff.mp h
      exact .passed rfl rfl fun _ _ => Iff.rfl
  | select call now =>
    simp only [Queue.step] at h
    split at h
    · split at h
      · obtain rfl := Option.some.inj h
        exact .passed rfl rfl fun _ _ => Iff.rfl
      · obtain rfl := Option.some.inj h
        exact .passed rfl rfl fun _ _ => Iff.rfl
    · cases h
  | take call now claim =>
    simp only [Queue.step] at h
    split at h
    next claimant allowed left picked hcall =>
      split at h
      next jobs hupdate =>
        obtain ⟨live, hins, rfl⟩ := Option.map_eq_some_iff.mp h
        obtain ⟨job, hjob, htakes, rfl⟩ := claimUpdate_matched hupdate
        by_cases hid : id = picked
        · subst hid
          refine .claimed ?_ hjob htakes ?_ hins
          · simp [Queue.claims, hcall, hupdate]
          · simp [hjob]
        · refine .passed ?_ ?_ fun c hc => mem_live_insert hins fun h => hid (hc.symm.trans h)
          · simp [Queue.claims, hcall, Ne.symm hid]
          · exact Table.lookup_modify_of_ne _ hid (setRunning now) fun row => (setRunning_same now row).id
      next jobs hupdate =>
        obtain rfl := Option.some.inj h
        obtain rfl := claimUpdate_missed hupdate
        refine .passed ?_ rfl fun _ _ => Iff.rfl
        by_cases hid : picked = id
        · subst hid
          simp [Queue.claims, hcall, hupdate]
        · simp [Queue.claims, hcall, hid]
    next => cases h
  | write id' write finishes =>
    obtain ⟨finished, hfin, rfl⟩ := Option.map_eq_some_iff.mp h
    have hjobs := finish_jobs hfin
    by_cases hid : id = id'
    · subst hid
      refine .written hfin ?_ rfl
      simp [hjobs]
    · refine .passed rfl ?_ fun c hc => ?_
      · simp [hjobs, Table.lookup_modify_of_ne _ hid]
      · have hother : c ∈ finished.live.rows ↔ c ∈ queue.live.rows :=
          mem_live_finish hfin fun h => hid (hc.symm.trans h)
        exact hother

/-! ### The account of a row -/

/-- Within its attempts; a type that is not retryable has none. -/
structure Job.Fits (config : RetryConfig) (job : Job) : Prop where
  limit : (job.attempts : ℤ) + 1 ≤ RetryPolicy.maxAttempts config.limit
  type : job.jobType ∉ RetryPolicy.retryableTypes → job.attempts = 0

/-- A row put back by `set_failed` at the instant `updated_at` holds. -/
def Job.BacksOff (job : Job) : Prop :=
  ∃ failedAt, job.updatedAt = some failedAt ∧
    job.retryAfter =
      some (failedAt + Python.seconds (RetryPolicy.backoffSeconds (job.attempts - 1)))

/-- The row `id` after `n` claims. -/
inductive Accounted (id : String) (config : RetryConfig) (n : ℕ) (queue : Queue) : Prop
  | absent (hrow : queue.jobs.lookup id = none) (hlive : ∀ c ∈ queue.live.rows, c.job ≠ id)
      (hn : n = 0)
  | waits {job} (hrow : queue.jobs.lookup id = some job) (hfits : job.Fits config)
      (hlive : ∀ c ∈ queue.live.rows, c.job ≠ id) (hstatus : job.status.waiting = true)
      (hn : n = job.attempts) (hback : n = 0 ∨ job.BacksOff)
  | runs {job} (hrow : queue.jobs.lookup id = some job) (hfits : job.Fits config)
      (hlive : ∀ c ∈ queue.live.rows, ∀ d ∈ queue.live.rows, c.job = id → d.job = id → c = d)
      (hstatus : job.status = .running) (hn : n = job.attempts + 1)
  | ended {job} (hrow : queue.jobs.lookup id = some job) (hfits : job.Fits config)
      (hlive : ∀ c ∈ queue.live.rows, c.job ≠ id) (hstatus : job.status.waiting = false)
      (hn : n = 0 ∨ n = job.attempts + 1 ∧ (job.status = .failed →
        ∃ error, job.errorMessage = some error ∧ retries config error job = false))

variable {id : String} {config : RetryConfig}

theorem accounted_empty : Accounted id config 0 Queue.empty :=
  .absent rfl (by simp [Queue.empty, Table.empty]) rfl

theorem createJob_accounted {queue : Queue} {now : Instant} {defaultExpiry : Option Instant}
    {request : JobRequest}
    (hrow : queue.jobs.lookup id = some (createJob id now defaultExpiry request))
    (hlive : ∀ c ∈ queue.live.rows, c.job ≠ id) : Accounted id config 0 queue := by
  have hfits : (createJob id now defaultExpiry request).Fits config :=
    ⟨(RetryPolicy.maxAttempts_bounds config.limit).1, fun _ => rfl⟩
  cases hwait : (createJob id now defaultExpiry request).status.waiting with
  | true => exact .waits hrow hfits hlive hwait rfl (.inl rfl)
  | false => exact .ended hrow hfits hlive hwait (.inl rfl)

theorem setFailed_accounted {queue : Queue} {job : Job} {now : Instant} {error : String}
    {result : Dict} (hrow : queue.jobs.lookup id = some (setFailed config now error result job))
    (hfits : job.Fits config) (hlive : ∀ c ∈ queue.live.rows, c.job ≠ id) :
    Accounted id config (job.attempts + 1) queue := by
  cases hretry : retries config error job with
  | true =>
    have hshould : RetryPolicy.shouldRetry job.jobType error job.attempts config.limit = true :=
      (Bool.and_eq_true_iff.mp hretry).2
    have htype := RetryPolicy.shouldRetry_type hshould
    simp only [RetryPolicy.shouldRetry, Bool.and_eq_true, decide_eq_true_eq] at hshould
    simp only [setFailed, hretry, if_true] at hrow
    refine .waits hrow ⟨?_, fun h => absurd htype h⟩ hlive rfl rfl (.inr ⟨now, rfl, rfl⟩)
    push_cast
    omega
  | false =>
    simp only [setFailed, hretry, Bool.false_eq_true, if_false] at hrow
    exact .ended hrow ⟨hfits.limit, hfits.type⟩ hlive rfl (.inr ⟨rfl, fun _ => ⟨error, rfl, hretry⟩⟩)

/-- A run that ends leaves no claim behind. -/
theorem finish_only {queue finished : Queue} {claim : ℕ}
    (hone : ∀ c ∈ queue.live.rows, ∀ d ∈ queue.live.rows, c.job = id → d.job = id → c = d)
    (hfin : queue.finish id (some claim) = some finished) :
    ∀ c ∈ finished.live.rows, c.job ≠ id := by
  simp only [Queue.finish] at hfin
  split at hfin
  next ended hended =>
    split at hfin
    next hjob =>
      obtain rfl := Option.some.inj hfin
      obtain ⟨hmem, rfl⟩ := Table.lookup_eq_some.mp hended
      intro c hc hcjob
      rw [Table.mem_erase] at hc
      exact hc.2 (congrArg Claim.id (hone c hc.1 ended hmem hcjob hjob))
    next => cases hfin
  next => cases hfin

theorem completeJob_accounted {queue : Queue} {job : Job} {now : Instant} {report : Report}
    (hrow : queue.jobs.lookup id = some (completeJob config now report job).1)
    (hfits : job.Fits config) (hstatus : job.status = .running)
    (hlive : ∀ c ∈ queue.live.rows, c.job ≠ id) :
    Accounted id config (job.attempts + 1) queue := by
  rw [completeJob, if_neg (by simp [hstatus])] at hrow
  split at hrow
  · exact .ended hrow ⟨hfits.limit, hfits.type⟩ hlive rfl (.inr ⟨rfl, fun h => by cases h⟩)
  · exact setFailed_accounted hrow hfits hlive

theorem written_accounted {queue after finished : Queue} {job : Job} {write : Write}
    {finishes : Option ℕ} (hbyRun : write.ByRun config finishes)
    (hfin : queue.finish id finishes = some finished)
    (hrow : after.jobs.lookup id = some (write.apply job)) (hfits : job.Fits config)
    (hone : ∀ c ∈ queue.live.rows, ∀ d ∈ queue.live.rows, c.job = id → d.job = id → c = d)
    (hstatus : job.status = .running) (hlive : after.live = finished.live) :
    Accounted id config (job.attempts + 1) after := by
  cases finishes with
  | none =>
    obtain rfl := Option.some.inj hfin
    cases write with
    | running now => exact .runs hrow ⟨hfits.limit, hfits.type⟩ (hlive ▸ hone) rfl rfl
    | _ => cases hbyRun
  | some claim =>
    have hnone : ∀ c ∈ after.live.rows, c.job ≠ id := hlive ▸ finish_only hone hfin
    cases write with
    | completed now result =>
      exact .ended hrow ⟨hfits.limit, hfits.type⟩ hnone rfl (.inr ⟨rfl, fun h => by cases h⟩)
    | failed read now error result =>
      obtain rfl : read = config := hbyRun
      exact setFailed_accounted hrow hfits hnone
    | complete agentId read now report =>
      obtain rfl : read = config := hbyRun
      simp only [Write.apply] at hrow
      split at hrow
      next held hheld =>
        obtain ⟨rfl, -⟩ := ownedJob_ok hheld
        exact completeJob_accounted hrow hfits hstatus hnone
      next =>
        refine .ended hrow hfits hnone (by rw [hstatus]; rfl) (.inr ⟨rfl, fun h => ?_⟩)
        rw [hstatus] at h
        cases h
    | _ => cases hbyRun

theorem step_accounted (n : ℕ) (queue : Queue) (event : Event) (after : Queue)
    (hacc : Accounted id config n queue) (hruns : RunsOnly id config queue event)
    (h : queue.step event = some after) :
    Accounted id config (n + if queue.claims id event then 1 else 0) after := by
  cases step_touch h id with
  | created hfree hrow hlive =>
    cases hacc with
    | absent _ hnone hn =>
      subst hn
      exact createJob_accounted hrow (hlive ▸ hnone)
    | waits hjob | runs hjob | ended hjob =>
      rw [hfree] at hjob
      cases hjob
  | @claimed _ _ claim claimant job _ hclaims hjob htakes hrow hlive =>
    rw [if_pos hclaims]
    have hwait := claimant_takes_waiting htakes
    cases hacc with
    | absent hnone =>
      rw [hjob] at hnone
      cases hnone
    | waits hjob' hfits hnone _ hn =>
      obtain rfl := Option.some.inj (hjob.symm.trans hjob')
      refine .runs hrow ⟨hfits.limit, hfits.type⟩ ?_ rfl (by rw [hn]; rfl)
      have hnew : ∀ c ∈ after.live.rows, c.job = id → c = ⟨claim, id, claimant⟩ := by
        intro c hc hcjob
        rw [(Table.insert_eq_some hlive).2, List.mem_append, List.mem_singleton] at hc
        exact hc.resolve_left fun hold => hnone c hold hcjob
      exact fun c hc d hd hcjob hdjob => (hnew c hc hcjob).trans (hnew d hd hdjob).symm
    | runs hjob' _ _ hstatus =>
      obtain rfl := Option.some.inj (hjob.symm.trans hjob')
      rw [hstatus] at hwait
      cases hwait
    | ended hjob' _ _ hstatus =>
      obtain rfl := Option.some.inj (hjob.symm.trans hjob')
      rw [hstatus] at hwait
      cases hwait
  | @written write finishes finished _ hfin hrow hlive =>
    obtain ⟨hbyRun, claim, hclaim, hclaimed⟩ := hruns rfl
    cases hacc with
    | absent _ hnone | waits _ _ hnone | ended _ _ hnone => exact absurd hclaimed (hnone claim hclaim)
    | runs hjob hfits hone hstatus hn =>
      subst hn
      rw [hjob] at hrow
      exact written_accounted hbyRun hfin hrow hfits hone hstatus hlive
  | passed hclaims hrow hlive =>
    rw [if_neg (by simp [hclaims])]
    have hnone : (∀ c ∈ queue.live.rows, c.job ≠ id) → ∀ c ∈ after.live.rows, c.job ≠ id :=
      fun hold c hc hcjob => hold c ((hlive c hcjob).mp hc) hcjob
    cases hacc with
    | absent hrow' hlive' hn => exact .absent (hrow.trans hrow') (hnone hlive') hn
    | waits hrow' hfits hlive' hstatus hn hback =>
      exact .waits (hrow.trans hrow') hfits (hnone hlive') hstatus hn hback
    | runs hrow' hfits hone hstatus hn =>
      refine .runs (hrow.trans hrow') hfits (fun c hc d hd hcjob hdjob => ?_) hstatus hn
      exact hone c ((hlive c hcjob).mp hc) d ((hlive d hdjob).mp hd) hcjob hdjob
    | ended hrow' hfits hlive' hstatus hn =>
      exact .ended (hrow.trans hrow') hfits (hnone hlive') hstatus hn

/-! ### The bound -/

/-- What holds of a row after `n` claims. A requeued row is one that waits and has been claimed. -/
structure Job.WithinRetries (config : RetryConfig) (n : ℕ) (queue : Queue) (job : Job) : Prop where
  bound : (n : ℤ) ≤ RetryPolicy.maxAttempts config.limit
  once : job.jobType ∉ RetryPolicy.retryableTypes → n ≤ 1
  backoff : job.status.waiting = true → n ≠ 0 → ∃ failedAt retryAfter,
    job.updatedAt = some failedAt ∧ job.retryAfter = some retryAfter ∧
    retryAfter = failedAt + Python.seconds (RetryPolicy.backoffSeconds (n - 1)) ∧
    ∀ claimant allowed now, claimCandidate queue.jobs claimant allowed now = some job →
      retryAfter ≤ now
  failed : job.status = .failed → n ≠ 0 → config.enabled = false ∨
    (∃ error, job.errorMessage = some error ∧ RetryPolicy.isTransient error = false) ∨
    job.jobType ∉ RetryPolicy.retryableTypes ∨ RetryPolicy.maxAttempts config.limit ≤ n

theorem claimCandidate_retryAfter {jobs : Table Job.id} {claimant : Claimant} {allowed : List String}
    {now retryAfter : Instant} {job : Job} (h : claimCandidate jobs claimant allowed now = some job)
    (hretry : job.retryAfter = some retryAfter) : retryAfter ≤ now := by
  have hfilter := (claimCandidate_spec h).2
  simp only [claimFilter, claimableNow, hretry, Option.all_some, Bool.and_eq_true,
    decide_eq_true_eq] at hfilter
  exact hfilter.2.1.1

/-- The test of `set_failed` names what kept the row from being run again. -/
theorem retries_false {error : String} {job : Job} (h : retries config error job = false) :
    config.enabled = false ∨ RetryPolicy.isTransient error = false ∨
      job.jobType ∉ RetryPolicy.retryableTypes ∨
      RetryPolicy.maxAttempts config.limit ≤ (job.attempts : ℤ) + 1 := by
  simp only [retries, RetryPolicy.shouldRetry, RetryPolicy.retryableType, Bool.and_eq_false_iff,
    decide_eq_false_iff_not, not_lt, List.contains_eq_mem] at h
  tauto

theorem accounted_withinRetries {n : ℕ} {queue : Queue} {job : Job}
    (hacc : Accounted id config n queue) (hjob : queue.jobs.lookup id = some job) :
    job.WithinRetries config n queue := by
  cases hacc with
  | absent hrow =>
    rw [hjob] at hrow
    cases hrow
  | waits hrow hfits _ hstatus hn hback =>
    obtain rfl := Option.some.inj (hjob.symm.trans hrow)
    have hlimit := hfits.limit
    refine ⟨by omega, fun htype => by have := hfits.type htype; omega, fun _ hclaimed => ?_,
      fun hfailed => ?_⟩
    · obtain ⟨failedAt, hupdated, hretry⟩ := hback.resolve_left hclaimed
      refine ⟨failedAt, _, hupdated, hretry, by rw [hn], fun claimant allowed now hcand => ?_⟩
      exact claimCandidate_retryAfter hcand hretry
    · rw [hfailed] at hstatus
      cases hstatus
  | runs hrow hfits _ hstatus hn =>
    obtain rfl := Option.some.inj (hjob.symm.trans hrow)
    have hlimit := hfits.limit
    refine ⟨by omega, fun htype => by have := hfits.type htype; omega, fun hwait => ?_,
      fun hfailed => ?_⟩
    · rw [hstatus] at hwait
      cases hwait
    · rw [hfailed] at hstatus
      cases hstatus
  | ended hrow hfits _ hstatus hn =>
    obtain rfl := Option.some.inj (hjob.symm.trans hrow)
    have hlimit := hfits.limit
    refine ⟨by omega, fun htype => by have := hfits.type htype; omega, fun hwait => ?_,
      fun hfailed hclaimed => ?_⟩
    · rw [hstatus] at hwait
      cases hwait
    · obtain ⟨hclaims, hwhy⟩ := hn.resolve_left hclaimed
      obtain ⟨error, herror, hretry⟩ := hwhy hfailed
      rcases retries_false hretry with hoff | htransient | htype | hspent
      · exact .inl hoff
      · exact .inr (.inl ⟨error, herror, htransient⟩)
      · exact .inr (.inr (.inl htype))
      · exact .inr (.inr (.inr (by omega)))

/-- However claims, leases and other jobs are interleaved with its runs, a job is claimed within its
limit, waits out each backoff, and fails for one of the reasons the policy gives. -/
theorem claimed_within_retries {events : List Event} {queue : Queue}
    (hexec : queueSystem.exec Queue.empty events = some queue)
    (hruns : queueSystem.Along (RunsOnly id config) Queue.empty events) {job : Job}
    (hjob : queue.jobs.lookup id = some job) :
    job.WithinRetries config (queueSystem.count (Queue.claims id) Queue.empty events) queue := by
  have hnew : Accounted id config 0 Queue.empty := accounted_empty
  have hacc := queueSystem.count_of_along step_accounted hnew hruns hexec
  rw [Nat.zero_add] at hacc
  exact accounted_withinRetries hacc hjob

/- Both runs of a start time out, with two attempts allowed. -/
def spentRun : List Event :=
  [.create "j1" 0 none { jobType := "ec2_power", createdBy := "ann" },
   .claimCall 1 ["ec2_power"], .select 1 10, .take 1 10 1,
   .write "j1" (.failed ⟨true, some (some 2)⟩ 20 "Read timed out." []) (some 1),
   .claimCall 2 ["ec2_power"], .select 2 30000020, .take 2 30000020 2,
   .write "j1" (.running 30000030) none,
   .write "j1" (.failed ⟨true, some (some 2)⟩ 40000000 "Read timed out." []) (some 2)]

theorem spentRun_within_retries : ∃ queue job,
    queueSystem.exec Queue.empty spentRun = some queue ∧ queue.jobs.lookup "j1" = some job ∧
      job.WithinRetries ⟨true, some (some 2)⟩
        (queueSystem.count (Queue.claims "j1") Queue.empty spentRun) queue := by
  have hrun : ((queueSystem.exec Queue.empty spentRun).bind (·.jobs.lookup "j1")).isSome = true ∧
      queueSystem.Along (RunsOnly "j1" ⟨true, some (some 2)⟩) Queue.empty spentRun := by
    decide +kernel
  obtain ⟨job, hjob⟩ := Option.isSome_iff_exists.mp hrun.1
  obtain ⟨queue, hexec, hlook⟩ := Option.bind_eq_some_iff.mp hjob
  exact ⟨queue, job, hexec, hlook, claimed_within_retries hexec hrun.2 hlook⟩

/- Retry is off, and a throttled start fails at its first attempt. -/
def offRun : List Event :=
  [.create "j1" 0 none { jobType := "ec2_power", createdBy := "ann" },
   .claimCall 1 ["ec2_power"], .select 1 10, .take 1 10 1,
   .write "j1" (.failed ⟨false, some (some 3)⟩ 20 "Read timed out." []) (some 1)]

/- Two workers pick one row. The second one's update lands after the first one's run has failed
and the row has been put back. -/
def staleRun : List Event :=
  [.create "j1" 0 none { jobType := "ec2_power", createdBy := "ann" },
   .claimCall 1 ["ec2_power"], .claimCall 2 ["ec2_power"], .select 1 10, .select 2 10, .take 1 10 1,
   .write "j1" (.failed ⟨true, some (some 3)⟩ 20 "Read timed out." []) (some 1)]

theorem retries_unspent_or_early :
    (∃ queue ∈ queueSystem.exec Queue.empty offRun, ∃ job ∈ queue.jobs.lookup "j1",
      job.status = .failed ∧ job.errorMessage = some "Read timed out." ∧
      RetryPolicy.isTransient "Read timed out." = true ∧
      job.jobType ∈ RetryPolicy.retryableTypes ∧
      (queueSystem.count (Queue.claims "j1") Queue.empty offRun : ℤ) <
        RetryPolicy.maxAttempts (some (some 3))) ∧
    ∃ queue ∈ queueSystem.exec Queue.empty staleRun, ∃ job ∈ queue.jobs.lookup "j1",
      job.retryAfter = some 30000020 ∧ queue.claims "j1" (.take 2 30 2) = true := by decide +kernel

end Jobs
