import VmDashboard.AgentHosts.Lifecycle

/-!
# At most one VM of a host, none without its record

Only the job `enqueue` admitted last can be at work, so a job keeps what it found when a
worker took it until it changes it itself.
-/

namespace AgentHosts
open Machine (Table)

def Phase.active : Phase → Bool
  | .waiting | .ended => false
  | _ => true

/-- What a job relies on where its worker is. -/
def Job.Relies (job : Job) (host : Host) (vms : List Vm) : Prop :=
  match job.phase with
  | .preparing | .launching => vms = []
  | .draining => job.action = .delete → ∀ vm ∈ vms, host.names vm = true
  | .destroyed => job.action = .delete → vms = []
  | .removing => vms = []
  | _ => True

structure Orderly (s : State) : Prop where
  one : s.vms.length ≤ 1
  gone : s.host = none → s.vms = []
  last : ∀ id job, s.jobs.lookup id = some job → job.busy = true →
    ∀ host, s.host = some host → host.lastJobId = some id
  active : ∀ id job, s.jobs.lookup id = some job → job.phase.active = true → job.status = .running
  relies : ∀ id job host, s.jobs.lookup id = some job → s.host = some host →
    job.Relies host s.vms

theorem Job.relies_of_idle {job : Job} (h : job.phase.active = false) (host : Host)
    (vms : List Vm) : job.Relies host vms := by
  unfold Job.Relies
  cases hphase : job.phase <;> simp_all [Phase.active]

theorem busy_of_active {s : State} {id : ℕ} {job : Job} (h : Orderly s)
    (hjob : s.jobs.lookup id = some job) (hactive : job.phase.active = true) : job.busy = true := by
  simp [Job.busy, h.active id job hjob hactive]

/-- The job at work writes its own row, and with it the host and the cloud. -/
theorem Orderly.put {s : State} {id : ℕ} {job job' : Job} {host host' : Host} {vms : List Vm}
    (h : Orderly s) (hjob : s.jobs.lookup id = some job) (hhost : s.host = some host)
    (hbusy : job.busy = true) (hid : job'.id = job.id) (hlast : host'.lastJobId = host.lastJobId)
    (hone : vms.length ≤ 1) (hactive : job'.phase.active = true → job'.status = .running)
    (hrelies : job'.Relies host' vms) : Orderly (s.put host' vms job') := by
  have hkey : job'.id = id := hid.trans (Table.lookup_key hjob)
  have hmine : host.lastJobId = some id := h.last id job hjob hbusy host hhost
  have hlookup (k : ℕ) : (s.put host' vms job').jobs.lookup k =
      if k = id then some job' else s.jobs.lookup k := by
    rw [← hkey]
    exact s.jobs.lookup_put job' k
  refine ⟨hone, nofun, fun k j hj hb host₂ hhost₂ => ?_, fun k j hj hact => ?_,
    fun k j host₂ hj hhost₂ => ?_⟩
  · obtain rfl := Option.some.inj hhost₂
    rw [hlookup] at hj
    split_ifs at hj with hk
    · exact hk ▸ hlast.trans hmine
    · exact hlast.trans (h.last k j hj hb host hhost)
  · rw [hlookup] at hj
    split_ifs at hj
    · obtain rfl := Option.some.inj hj
      exact hactive hact
    · exact h.active k j hj hact
  · obtain rfl := Option.some.inj hhost₂
    rw [hlookup] at hj
    split_ifs at hj with hk
    · obtain rfl := Option.some.inj hj
      exact hrelies
    · -- another job is not at work
      refine Job.relies_of_idle ?_ _ _
      by_contra hact
      have hother := busy_of_active h hj (by simpa using hact)
      have hk' := (h.last k j hj hother host hhost).symm.trans hmine
      exact hk (Option.some.inj hk')

theorem destroyed_length (host : Host) (vms : List Vm) (failed : Option (List Vm)) :
    (destroyed host vms failed).length ≤ vms.length := by
  cases failed <;> exact List.length_filter_le _ _

theorem destroyed_named {host : Host} {vms : List Vm} (h : ∀ vm ∈ vms, host.names vm = true) :
    destroyed host vms none = [] :=
  List.filter_eq_nil_iff.mpr fun vm hvm => by simp [h vm hvm]

theorem raised_lastJobId (job : Job) (host : Host) :
    (raised job host).lastJobId = host.lastJobId := by
  unfold raised
  split <;> rfl

theorem claimed_lastJobId (host : Host) (active : Bool) (job : Job) :
    (claimed host active job).1.lastJobId = host.lastJobId := by
  unfold claimed
  split
  · split
    · exact raised_lastJobId job host
    · rfl
  · rfl
  · split <;> rfl

theorem claimed_job (host : Host) (active : Bool) (job : Job) :
    (claimed host active job).2 = job.failed ∨
      ∃ phase, (claimed host active job).2 = job.goes phase := by
  unfold claimed
  split
  · split
    · exact .inl rfl
    · exact .inr ⟨_, rfl⟩
  · exact .inr ⟨_, rfl⟩
  · split <;> exact .inr ⟨_, rfl⟩

/-- A worker takes a job of an accounted state. -/
theorem claimed_relies {s : State} {id : ℕ} {active : Bool} {job : Job} {host : Host}
    (h : Accounted s (.claim id active)) (hjob : s.jobs.lookup id = some job)
    (hhost : s.host = some host) :
    (claimed host active job).2.Relies (claimed host active job).1 s.vms := by
  have haccounted : job.action.FindsAll host s.vms := h job hjob host hhost
  unfold claimed
  cases haction : job.action with
  | start =>
    rw [haction] at haccounted
    simp only
    split_ifs with hrefused
    · trivial
    · simp only [Bool.or_eq_true, not_or, Bool.not_eq_true, Option.isSome_eq_false_iff,
        Option.isNone_iff_eq_none] at hrefused
      exact haccounted hrefused.2
  | stop => exact fun hdelete => absurd (haction.symm.trans hdelete) (by decide)
  | delete =>
    rw [haction] at haccounted
    simp only [Action.FindsAll] at haccounted ⊢
    split_ifs at haccounted ⊢ with hup
    · exact fun _ => haccounted
    · exact haccounted

theorem Orderly.goes {s : State} {id : ℕ} {job : Job} {host host' : Host} {vms : List Vm}
    (h : Orderly s) (hjob : s.jobs.lookup id = some job) (hhost : s.host = some host)
    (hactive : job.phase.active = true) (hlast : host'.lastJobId = host.lastJobId)
    (hone : vms.length ≤ 1) (phase : Phase) (hrelies : (job.goes phase).Relies host' vms) :
    Orderly (s.put host' vms (job.goes phase)) :=
  h.put hjob hhost (busy_of_active h hjob hactive) rfl hlast hone (fun _ => rfl) hrelies

theorem Orderly.ends {s : State} {id : ℕ} {job job' : Job} {host host' : Host} {vms : List Vm}
    (h : Orderly s) (hjob : s.jobs.lookup id = some job) (hhost : s.host = some host)
    (hactive : job.phase.active = true) (hlast : host'.lastJobId = host.lastJobId)
    (hone : vms.length ≤ 1) (hid : job'.id = job.id) (hended : job'.phase = .ended) :
    Orderly (s.put host' vms job') := by
  have hidle : job'.phase.active = false := by rw [hended]; rfl
  refine h.put hjob hhost (busy_of_active h hjob hactive) hid hlast hone (fun hact => ?_)
    (Job.relies_of_idle hidle _ _)
  rw [hidle] at hact
  cases hact

/-- A row that is written without its host: the worker is gone. -/
theorem Orderly.rest {s : State} {id : ℕ} {job : Job} (h : Orderly s)
    (hjob : s.jobs.lookup id = some job) (job' : Job) (hid : job'.id = job.id)
    (hended : job'.phase = .ended)
    (hbusy : job'.busy = true → job.busy = true) :
    Orderly { s with jobs := s.jobs.put job' } := by
  have hkey : job'.id = id := hid.trans (Table.lookup_key hjob)
  have hidle : job'.phase.active = false := by rw [hended]; rfl
  have hlookup (k : ℕ) : (s.jobs.put job').lookup k =
      if k = id then some job' else s.jobs.lookup k := by
    rw [← hkey]
    exact s.jobs.lookup_put job' k
  refine ⟨h.one, h.gone, fun k j hj hb => ?_, fun k j hj hact => ?_, fun k j host hj hhost => ?_⟩
  all_goals
    simp only [hlookup] at hj
    split_ifs at hj with hk
  · obtain rfl := Option.some.inj hj
    exact hk ▸ h.last id job hjob (hbusy hb)
  · exact h.last k j hj hb
  · obtain rfl := Option.some.inj hj
    rw [hidle] at hact
    cases hact
  · exact h.active k j hj hact
  · obtain rfl := Option.some.inj hj
    exact Job.relies_of_idle hidle _ _
  · exact h.relies k j host hj hhost

theorem busy_of_pending {job : Job} (h : job.status = .pending) : job.busy = true := by
  simp [Job.busy, h]

theorem busy_of_running {job : Job} (h : job.status = .running) : job.busy = true := by
  simp [Job.busy, h]

theorem orderly_enqueue {s t : State} {id : ℕ} {action : Action} (h : Orderly s)
    (hstep : s.step (.enqueue id action) = some t) : Orderly t := by
  simp only [State.step, Option.bind_eq_bind, Option.bind_eq_some_iff] at hstep
  obtain ⟨host, hhost, hstep⟩ := hstep
  split_ifs at hstep with hfree
  obtain ⟨jobs, hjobs, hstep⟩ := Option.bind_eq_some_iff.mp hstep
  obtain rfl := Option.some.inj hstep
  have hlookup := Table.lookup_insert hjobs
  -- nothing else is queued or running
  have hquiet : ∀ k j, s.jobs.lookup k = some j → j.busy = false := by
    intro k j hj
    by_contra hb
    have hb : j.busy = true := by simpa using hb
    refine hfree ?_
    rw [State.busy, h.last k j hj hb host hhost, Option.bind_some, hj]
    exact hb
  refine ⟨h.one, nofun, fun k j hj hb host' hhost' => ?_, fun k j hj hact => ?_,
    fun k j host' hj hhost' => ?_⟩
  all_goals
    rw [hlookup] at hj
    split_ifs at hj with hk
  · obtain rfl := Option.some.inj hhost'
    rw [hk]
    rfl
  · rw [hquiet k j hj] at hb
    cases hb
  · obtain rfl := Option.some.inj hj
    cases hact
  · exact h.active k j hj hact
  · obtain rfl := Option.some.inj hj
    trivial
  · refine Job.relies_of_idle ?_ _ _
    by_contra hact
    have hb := busy_of_active h hj (by simpa using hact)
    rw [hquiet k j hj] at hb
    cases hb

theorem orderly_claim {s t : State} {id : ℕ} {active : Bool} (h : Orderly s)
    (haccounted : Accounted s (.claim id active)) (hstep : s.step (.claim id active) = some t) :
    Orderly t := by
  simp only [State.step, Option.bind_eq_bind, Option.bind_eq_some_iff,
    Option.ite_none_right_eq_some] at hstep
  obtain ⟨job, hjob, hpending, hstep⟩ := hstep
  cases hhost : s.host with
  | none =>
    rw [hhost] at hstep
    obtain rfl := Option.some.inj hstep
    have hrest := h.rest hjob job.failed rfl rfl (by simp [Job.busy, Job.failed])
    rwa [hhost] at hrest
  | some host =>
    rw [hhost] at hstep
    obtain rfl := Option.some.inj hstep
    refine h.put hjob hhost (busy_of_pending hpending) ?_ (claimed_lastJobId host active job) h.one
      ?_ (claimed_relies haccounted hjob hhost)
    · rcases claimed_job host active job with hc | ⟨phase, hc⟩ <;> rw [hc] <;> rfl
    · rcases claimed_job host active job with hc | ⟨phase, hc⟩ <;> rw [hc]
      · exact fun hactive => by cases hactive
      · exact fun _ => rfl

theorem orderly_launch {s t : State} {id : ℕ} {created : Option Vm} {returns : Bool}
    (h : Orderly s) (hstep : s.step (.launch id created returns) = some t) : Orderly t := by
  simp only [State.step, Option.bind_eq_bind, Option.bind_eq_some_iff,
    Option.ite_none_right_eq_some] at hstep
  obtain ⟨host, hhost, job, hjob, hphase, hstep⟩ := hstep
  have hactive : job.phase.active = true := by rw [hphase]; rfl
  have hnone : s.vms = [] := by
    have hrelies := h.relies id job host hjob hhost
    rwa [Job.Relies, hphase] at hrelies
  have hone : (s.vms ++ created.toList).length ≤ 1 := by
    rw [hnone, List.nil_append]
    cases created <;> simp
  split_ifs at hstep
  · obtain ⟨⟨hostId, zone⟩, -, hstep⟩ := Option.bind_eq_some_iff.mp hstep
    obtain rfl := Option.some.inj hstep
    exact h.goes hjob hhost hactive rfl hone _ trivial
  · obtain rfl := Option.some.inj hstep
    exact h.goes hjob hhost hactive rfl hone _ trivial

theorem orderly_destroy {s t : State} {id : ℕ} {failed : Option (List Vm)} (h : Orderly s)
    (hstep : s.step (.destroy id failed) = some t) : Orderly t := by
  simp only [State.step, Option.bind_eq_bind, Option.bind_eq_some_iff,
    Option.ite_none_right_eq_some] at hstep
  obtain ⟨host, hhost, job, hjob, hphase, hstep⟩ := hstep
  have hactive : job.phase.active = true := by rw [hphase]; rfl
  have hone := (destroyed_length host s.vms failed).trans h.one
  split_ifs at hstep with hok
  · obtain rfl := Option.some.inj hstep
    refine h.goes hjob hhost hactive rfl hone _ fun hdelete => ?_
    have hrelies := h.relies id job host hjob hhost
    rw [Job.Relies, hphase] at hrelies
    rw [Option.isNone_iff_eq_none.mp hok]
    exact destroyed_named (hrelies hdelete)
  · obtain rfl := Option.some.inj hstep
    exact h.ends hjob hhost hactive (raised_lastJobId job host) hone rfl rfl

theorem orderly_step (s : State) (event : Event) (t : State) (h : Orderly s)
    (haccounted : Accounted s event) (hstep : s.step event = some t) : Orderly t := by
  cases event with
  | enqueue id action => exact orderly_enqueue h hstep
  | claim id active => exact orderly_claim h haccounted hstep
  | prepare id ok =>
    simp only [State.step, Option.bind_eq_bind, Option.bind_eq_some_iff,
      Option.ite_none_right_eq_some] at hstep
    obtain ⟨host, hhost, job, hjob, hphase, hstep⟩ := hstep
    have hactive : job.phase.active = true := by rw [hphase]; rfl
    split_ifs at hstep <;> obtain rfl := Option.some.inj hstep
    · have hrelies := h.relies id job host hjob hhost
      rw [Job.Relies, hphase] at hrelies
      exact h.goes hjob hhost hactive rfl h.one .launching hrelies
    · exact h.ends hjob hhost hactive (raised_lastJobId job host) h.one rfl rfl
  | launch id created returns => exact orderly_launch h hstep
  | register id ok =>
    simp only [State.step, Option.bind_eq_bind, Option.bind_eq_some_iff] at hstep
    obtain ⟨host, hhost, job, hjob, hstep⟩ := hstep
    split at hstep
    next hostId zone hphase =>
      have hactive : job.phase.active = true := by rw [hphase]; rfl
      split_ifs at hstep
      · obtain rfl := Option.some.inj hstep
        exact h.goes hjob hhost hactive rfl h.one (.recording hostId zone) trivial
      · obtain rfl := Option.some.inj hstep
        exact h.goes hjob hhost hactive rfl h.one .cleaning trivial
    · cases hstep
  | cleanUp id failed =>
    simp only [State.step, Option.bind_eq_bind, Option.bind_eq_some_iff,
      Option.ite_none_right_eq_some, Option.some_inj] at hstep
    obtain ⟨host, hhost, job, hjob, hphase, rfl⟩ := hstep
    have hactive : job.phase.active = true := by rw [hphase]; rfl
    exact h.ends hjob hhost hactive (raised_lastJobId job host)
      ((destroyed_length host s.vms failed).trans h.one) rfl rfl
  | record id =>
    simp only [State.step, Option.bind_eq_bind, Option.bind_eq_some_iff] at hstep
    obtain ⟨host, hhost, job, hjob, hstep⟩ := hstep
    split at hstep
    next hostId zone hphase =>
      have hactive : job.phase.active = true := by rw [hphase]; rfl
      obtain rfl := Option.some.inj hstep
      refine h.goes hjob hhost hactive ?_ h.one .coming ?_
      · rfl
      · trivial
    · cases hstep
  | online id ok =>
    simp only [State.step, Option.bind_eq_bind, Option.bind_eq_some_iff,
      Option.ite_none_right_eq_some] at hstep
    obtain ⟨host, hhost, job, hjob, hphase, hstep⟩ := hstep
    have hactive : job.phase.active = true := by rw [hphase]; rfl
    split_ifs at hstep <;> obtain rfl := Option.some.inj hstep
    · exact h.ends hjob hhost hactive rfl h.one rfl rfl
    · exact h.ends hjob hhost hactive (raised_lastJobId job host) h.one rfl rfl
  | destroy id failed => exact orderly_destroy h hstep
  | park id =>
    simp only [State.step, Option.bind_eq_bind, Option.bind_eq_some_iff,
      Option.ite_none_right_eq_some] at hstep
    obtain ⟨host, hhost, job, hjob, hphase, hstep⟩ := hstep
    have hactive : job.phase.active = true := by rw [hphase]; rfl
    split_ifs at hstep with hdelete <;> obtain rfl := Option.some.inj hstep
    · have hrelies := h.relies id job host hjob hhost
      rw [Job.Relies, hphase] at hrelies
      refine h.goes hjob hhost hactive ?_ h.one .removing ?_
      · rfl
      · exact hrelies hdelete
    · exact h.ends hjob hhost hactive rfl h.one rfl rfl
  | remove id =>
    simp only [State.step, Option.bind_eq_bind, Option.bind_eq_some_iff,
      Option.ite_none_right_eq_some, Option.some_inj] at hstep
    obtain ⟨job, hjob, ⟨hphase, hsome⟩, rfl⟩ := hstep
    obtain ⟨host, hhost⟩ := Option.isSome_iff_exists.mp hsome
    have hrelies := h.relies id job host hjob hhost
    rw [Job.Relies, hphase] at hrelies
    have hrest := h.rest hjob job.completed rfl rfl (by simp [Job.busy, Job.completed])
    exact ⟨h.one, fun _ => hrelies, by simp, hrest.active, by simp⟩
  | die id =>
    simp only [State.step, Option.bind_eq_bind, Option.bind_eq_some_iff,
      Option.ite_none_right_eq_some, Option.some_inj] at hstep
    obtain ⟨job, hjob, hrunning, rfl⟩ := hstep
    exact h.rest hjob { job with phase := .ended } rfl rfl fun _ => busy_of_running hrunning
  | reconcile id =>
    simp only [State.step, Option.bind_eq_bind, Option.bind_eq_some_iff,
      Option.ite_none_right_eq_some, Option.some_inj] at hstep
    obtain ⟨job, hjob, -, rfl⟩ := hstep
    exact h.rest hjob job.failed rfl rfl (by simp [Job.busy, Job.failed])

theorem orderly_deployed (name : String) (cloud : Cloud) : Orderly (.deployed name cloud) where
  one := Nat.zero_le 1
  gone _ := rfl
  last := by simp [State.deployed]
  active := by simp [State.deployed]
  relies := by simp [State.deployed]

/-- Whatever calls fail and whichever workers die: in a run whose starts and deletes find every VM
accounted for, the host has at most one VM, and none once its record is deleted. -/
theorem one_vm {name : String} {cloud : Cloud} {events : List Event}
    (h : hosting.Along Accounted (.deployed name cloud) events) :
    hosting.Always OneVm (.deployed name cloud) events :=
  hosting.always_mono (fun _ hI => ⟨hI.one, hI.gone⟩)
    (hosting.always_of_along orderly_step (orderly_deployed name cloud) h)

/- A start whose VM comes up, fails to be registered, and is not removed again. -/

def vm (id : String) : Vm := ⟨id, ""⟩

def leftBehind : List Event :=
  [.enqueue 1 .start, .claim 1 true, .prepare 1 true, .launch 1 (some (vm "i-1")) true,
    .register 1 false, .cleanUp 1 (some [])]

def startedAgain : List Event :=
  leftBehind ++ [.enqueue 2 .start, .claim 2 true, .prepare 2 true,
    .launch 2 (some (vm "i-2")) true]

/- A delete instead leaves the VM without a record. -/
example : ¬hosting.Always OneVm (.deployed "vpc-a" .aws)
    (leftBehind ++ [.enqueue 2 .delete, .claim 2 true, .remove 2]) := by decide +kernel

/-- A stop first removes it. -/
def stoppedBetween : List Event :=
  leftBehind ++ [.enqueue 2 .stop, .claim 2 true, .destroy 2 none, .park 2, .enqueue 3 .start,
    .claim 3 true, .prepare 3 true, .launch 3 (some (vm "i-2")) true, .register 3 true, .record 3,
    .online 3 true, .enqueue 4 .delete, .claim 4 true, .destroy 4 none, .park 4, .remove 4]

theorem one_vm_stoppedBetween : hosting.Always OneVm (.deployed "vpc-a" .aws) stoppedBetween :=
  one_vm (by decide +kernel)

theorem two_vms_startedAgain : ¬∀ name cloud events,
    hosting.Always OneVm (.deployed name cloud) events := by
  intro h
  have hrun : ¬hosting.Always OneVm (.deployed "vpc-a" .aws) startedAgain := by decide +kernel
  exact hrun (h "vpc-a" .aws startedAgain)

end AgentHosts
