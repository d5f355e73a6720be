import VmDashboard.Desktops.Pools

/-!
# Every desktop VM is on a row or in an error

A job carries what its error message will list (`Job.message`) from the call that failed to
the end, so a VM whose row is dropped is told of by one job or another.
-/

namespace Desktops
open Machine (Table)

/-- What the job's error message lists, or would if it failed now. -/
def Job.message (job : Job) : List JobError := job.failure.getD (job.errors.take 3)

def Job.Tells (job : Job) (vm : String) : Prop :=
  job.jobType = .teardown ∧ .terminate vm ∈ job.message

instance (job : Job) (vm : String) : Decidable (job.Tells vm) :=
  inferInstanceAs (Decidable (_ ∧ _))

/-- A job says how it failed only once it has ended, and then with all its errors. -/
structure Job.Sound (job : Job) : Prop where
  opened : job.work ≠ .ended → job.failure = none
  ended : job.work = .ended → job.failure = none → job.errors = []

structure Tracked (s : State) : Prop where
  vms : ∀ vm ∈ s.vms, Recorded s vm ∨ ∃ job ∈ s.jobs.rows, job.Tells vm
  sound : ∀ job ∈ s.jobs.rows, job.Sound

/-- The seat whose VM is being deployed, and the one whose row is to go. -/
def Work.deploys : Work → Option String
  | .deploying seat _ => some seat
  | _ => none

def Work.drops : Work → Option String
  | .dropping seat _ _ => some seat
  | _ => none

/-- What keeps a VM from being lost where it can be. -/
def Kept (s : State) : Event → Prop
  | .deployed id vm => ∀ job ∈ s.jobs.lookup id, ∀ seat ∈ job.work.deploys,
      ∃ row ∈ s.seats.lookup seat, ∀ old ∈ row.vmResourceId, old = vm ∨ old ∉ s.vms
  | .deployFails _ left => ∀ vm ∈ left, vm ∈ s.vms
  | .dropped id _ => ∀ job ∈ s.jobs.lookup id, ∀ seat ∈ job.work.drops,
      ∀ row ∈ s.seats.lookup seat, ∀ vm ∈ row.vmResourceId, vm ∈ s.vms → job.Tells vm
  | .die id left _ => (∀ vm ∈ left, vm ∈ s.vms) ∧
      ∀ job ∈ s.jobs.lookup id, ∀ vm ∈ s.vms, job.Tells vm → Recorded s vm
  | _ => True

theorem noLeak_of_tracked {s : State} (h : Tracked s) (htold : Told s) : NoLeak s := by
  intro vm hvm
  rcases h.vms vm hvm with hrecorded | ⟨job, hjob, hteardown, htells⟩
  · exact .inl hrecorded
  by_cases hended : job.work = .ended
  · cases hfailure : job.failure with
    | none => simp [Job.message, hfailure, (h.sound job hjob).ended hended hfailure] at htells
    | some errors =>
      rw [Job.message, hfailure] at htells
      exact .inr ⟨job, hjob, hteardown, errors, hfailure, htells⟩
  · rw [Job.message, (h.sound job hjob).opened hended] at htells
    exact .inl (htold job hjob hteardown hended vm (List.mem_of_mem_take htells))

/-- A job goes on and its message keeps what it lists; the seats keep their VMs. -/
theorem Tracked.put {s t : State} {id : ℕ} {job : Job} (h : Tracked s)
    (hjob : s.jobs.lookup id = some job) (job' : Job) (hid : job'.id = job.id)
    (hjobs : t.jobs = s.jobs.put job') (hvms : ∀ vm ∈ t.vms, vm ∈ s.vms ∨ Recorded t vm)
    (hseats : ∀ vm ∈ t.vms, Recorded s vm → Recorded t vm ∨ job'.Tells vm)
    (htells : ∀ vm ∈ t.vms, job.Tells vm → job'.Tells vm ∨ Recorded t vm)
    (hsound : job'.Sound) : Tracked t := by
  have hmem := (Table.lookup_eq_some.mp hjob).1
  have hput : ∀ r, r ∈ t.jobs.rows ↔ r = job' ∨ r ∈ s.jobs.rows ∧ r.id ≠ job'.id := by
    intro r
    rw [hjobs]
    exact Table.mem_put
  refine ⟨fun vm hvm => ?_, fun r hr => ?_⟩
  · rcases hvms vm hvm with hold | hrecorded
    · rcases h.vms vm hold with hrecorded | ⟨r, hr, hrtells⟩
      · rcases hseats vm hvm hrecorded with hrec | htell
        · exact .inl hrec
        · exact .inr ⟨job', (hput job').mpr (.inl rfl), htell⟩
      by_cases hkey : r.id = job'.id
      · obtain rfl := Table.eq_of_key hr hmem (hkey.trans hid)
        rcases htells vm hvm hrtells with htell | hrec
        · exact .inr ⟨job', (hput job').mpr (.inl rfl), htell⟩
        · exact .inl hrec
      · exact .inr ⟨r, (hput r).mpr (.inr ⟨hr, hkey⟩), hrtells⟩
    · exact .inl hrecorded
  · rcases (hput r).mp hr with rfl | ⟨hr, -⟩
    · exact hsound
    · exact h.sound r hr

/-- The seats stay as they are, or change in other columns. -/
theorem recorded_modify {s : State} {id : String} (f : Seat → Seat)
    (hf : ∀ r, (f r).id = r.id) (hvm : ∀ r, (f r).vmResourceId = r.vmResourceId) {vm : String}
    (h : Recorded s vm) : ∃ seat ∈ (s.seats.modify id f hf).rows, seat.vmResourceId = some vm := by
  obtain ⟨seat, hseat, hsvm⟩ := h
  refine ⟨if seat.id = id then f seat else seat, List.mem_map_of_mem hseat, ?_⟩
  split
  · rw [hvm, hsvm]
  · exact hsvm

theorem Job.Tells.of_errors {job job' : Job} {vm : String} (h : job.Tells vm)
    (hnone : job.failure = none) (htype : job'.jobType = job.jobType) (hnone' : job'.failure = none)
    (herrors : job.errors <+: job'.errors) : job'.Tells vm := by
  obtain ⟨hteardown, hmem⟩ := h
  refine ⟨htype.trans hteardown, ?_⟩
  rw [Job.message, hnone] at hmem
  rw [Job.message, hnone']
  exact (herrors.take 3).subset hmem

theorem Tracked.opened {s : State} {id : ℕ} {job : Job} (h : Tracked s)
    (hjob : s.jobs.lookup id = some job) (hwork : job.work ≠ .ended) : job.failure = none :=
  (h.sound job (Table.lookup_eq_some.mp hjob).1).opened hwork

theorem Job.Sound.working {job : Job} (hnone : job.failure = none) (hwork : job.work ≠ .ended) :
    job.Sound :=
  ⟨fun _ => hnone, fun hended => absurd hended hwork⟩

theorem Job.Sound.over {job : Job} (hwork : job.work = .ended)
    (hended : job.failure = none → job.errors = []) : job.Sound :=
  ⟨fun hopen => absurd hwork hopen, fun _ => hended⟩

/-- The job goes on with no fewer errors. -/
theorem Tracked.goes {s : State} {id : ℕ} {job : Job} (h : Tracked s)
    (hjob : s.jobs.lookup id = some job) (hwork : job.work ≠ .ended) (job' : Job)
    (hid : job'.id = job.id) (htype : job'.jobType = job.jobType)
    (hnone : job'.failure = job.failure) (herrors : job.errors <+: job'.errors)
    (hwork' : job'.work ≠ .ended) : Tracked (s.put job') := by
  have hopen := h.opened hjob hwork
  refine h.put hjob job' hid rfl (fun vm hvm => .inl hvm) (fun vm _ hrec => .inl hrec)
    (fun vm _ htells => .inl ?_) (.working (hnone.trans hopen) hwork')
  exact htells.of_errors hopen htype (hnone.trans hopen) herrors

/-- The job is over, with no error to tell or with all of them told. -/
theorem Tracked.ends {s : State} {id : ℕ} {job : Job} (h : Tracked s)
    (hjob : s.jobs.lookup id = some job) (job' : Job) (hid : job'.id = job.id)
    (htells : ∀ vm ∈ s.vms, job.Tells vm → job'.Tells vm ∨ Recorded s vm)
    (hsound : job'.Sound) : Tracked (s.put job') :=
  h.put hjob job' hid rfl (fun _ hvm => .inl hvm) (fun _ _ hrec => .inl hrec) htells hsound

theorem mem_withVm {vms : List String} {vm vm' : String} :
    vm' ∈ withVm vms vm ↔ vm' = vm ∨ vm' ∈ vms := by
  unfold withVm
  split
  next h => exact ⟨.inr, fun hor => hor.elim (fun he => he ▸ h) id⟩
  next => exact List.mem_cons

theorem elim_withVm {vms : List String} {left : Option String} (h : ∀ vm ∈ left, vm ∈ vms) :
    left.elim vms (withVm vms) = vms := by
  cases left with
  | none => rfl
  | some vm => exact if_pos (h vm rfl)

/-- A job is queued, and no seat lets go of its VM. -/
theorem Tracked.queued {s t : State} {id : ℕ} {jobType : JobType} {ids : List String}
    (h : Tracked s) (hjobs : s.jobs.insert (newJob id jobType ids) = some t.jobs)
    (hvms : t.vms = s.vms) (hseats : ∀ vm, Recorded s vm → Recorded t vm) : Tracked t := by
  have hrows := (Table.insert_eq_some hjobs).2
  refine ⟨fun vm hvm => ?_, fun r hr => ?_⟩
  · rcases h.vms vm (hvms ▸ hvm) with hrec | ⟨job, hjob, htells⟩
    · exact .inl (hseats vm hrec)
    · refine .inr ⟨job, ?_, htells⟩
      rw [hrows]
      exact List.mem_append_left _ hjob
  · rw [hrows] at hr
    rcases List.mem_append.mp hr with hold | hnew
    · exact h.sound r hold
    · obtain rfl := List.mem_singleton.mp hnew
      exact .working rfl (by simp [newJob])

theorem recorded_mark {s : State} (ids : List String) {vm : String} (h : Recorded s vm) :
    Recorded { s with seats := mark s.seats ids } vm := by
  induction ids generalizing s with
  | nil => exact h
  | cons id ids ih =>
    have hmarked : Recorded { s with seats := s.seats.modify id Seat.deprovisioning fun _ => rfl } vm :=
      recorded_modify Seat.deprovisioning (fun _ => rfl) (fun _ => rfl) h
    exact ih hmarked

theorem recorded_addSeats {s : State} {seats : Table Seat.id} {pool : String}
    {now : Python.Instant} {ids : List String} (hadd : addSeats s.seats pool now ids = some seats)
    {vm : String} (h : Recorded s vm) : Recorded { s with seats } vm := by
  obtain ⟨seat, hseat, hvm⟩ := h
  refine ⟨seat, ?_, hvm⟩
  rw [addSeats_rows hadd]
  exact List.mem_append_left _ hseat

theorem tracked_scale {s t : State} {name : String} {count : ℕ} {ids : List String}
    {now : Python.Instant} {job : ℕ} (h : Tracked s)
    (hstep : s.scale name count ids now job = some t) : Tracked t := by
  unfold State.scale at hstep
  dsimp only at hstep
  split_ifs at hstep
  · simp only [Option.bind_eq_bind, Option.bind_eq_some_iff, Option.some_inj] at hstep
    obtain ⟨seats, hadd, jobs, hjobs, rfl⟩ := hstep
    exact h.queued hjobs rfl fun vm => recorded_addSeats hadd
  · simp only [Option.bind_eq_bind, Option.bind_eq_some_iff, Option.some_inj] at hstep
    obtain ⟨jobs, hjobs, rfl⟩ := hstep
    exact h.queued hjobs rfl fun vm => recorded_mark _
  · obtain rfl := Option.some.inj hstep
    exact h

theorem tracked_load {s : State} {id : ℕ} {job : Job} {seat : String} {todo : List String}
    (h : Tracked s) (hjob : s.jobs.lookup id = some job) (hwork : job.work = .next (seat :: todo)) :
    Tracked (s.load job seat todo) := by
  have hopen : job.work ≠ .ended := by simp [hwork]
  have hgoes : ∀ work, work ≠ .ended → Tracked (s.put (job.at work)) := fun work hwork' =>
    h.goes hjob hopen (job.at work) rfl rfl rfl (List.prefix_refl _) hwork'
  unfold State.load
  split
  · exact hgoes _ nofun
  · exact hgoes _ nofun
  · split
    · exact hgoes _ nofun
    · exact hgoes _ nofun

theorem tracked_deployed {s : State} {id : ℕ} {job : Job} {seat vm : String} {todo : List String}
    (h : Tracked s) (hjob : s.jobs.lookup id = some job) (hwork : job.work = .deploying seat todo)
    (hkept : ∃ row, s.seats.lookup seat = some row ∧
      ∀ old ∈ row.vmResourceId, old = vm ∨ old ∉ s.vms) :
    Tracked (s.deployed job seat vm todo) := by
  obtain ⟨row, hrow, hold⟩ := hkept
  have hnone := h.opened hjob (by simp [hwork])
  simp only [State.deployed, hrow, Option.isSome_some, ↓reduceIte]
  obtain ⟨hrowmem, hrowid⟩ := Table.lookup_eq_some.mp hrow
  have hnew : ∀ r ∈ s.seats.rows, (if r.id = seat then Seat.ran vm r else r) ∈
      (s.seats.modify seat (Seat.ran vm) fun _ => rfl).rows :=
    fun r hr => List.mem_map_of_mem hr
  have hvm : ∃ r ∈ (s.seats.modify seat (Seat.ran vm) fun _ => rfl).rows,
      r.vmResourceId = some vm := by
    refine ⟨_, hnew row hrowmem, ?_⟩
    rw [if_pos hrowid]
    rfl
  refine h.put hjob (job.at (.brokering seat todo)) rfl rfl (fun vm' hvm' => ?_)
    (fun vm' hvm' hrec => .inl ?_) (fun _ _ htells => .inl htells) (.working hnone (by simp [Job.at]))
  · rcases mem_withVm.mp hvm' with rfl | hold'
    · exact .inr hvm
    · exact .inl hold'
  · rcases mem_withVm.mp hvm' with rfl | hin
    · exact hvm
    obtain ⟨r, hr, hrvm⟩ := hrec
    by_cases hkey : r.id = seat
    · -- the VM that the seat had before
      obtain rfl := Table.eq_of_key hr hrowmem (hkey.trans hrowid.symm)
      rcases hold vm' hrvm with rfl | hgone
      · exact hvm
      · exact absurd hin hgone
    · refine ⟨_, hnew r hr, ?_⟩
      rw [if_neg hkey]
      exact hrvm

/-- An exception ends a job that has told all it has to. -/
theorem tracked_raised {s : State} {id : ℕ} {job : Job} (h : Tracked s)
    (hjob : s.jobs.lookup id = some job) (htells : ∀ vm ∈ s.vms, job.Tells vm → Recorded s vm) :
    Tracked (s.put job.raised) :=
  h.ends hjob job.raised rfl (fun vm hvm htell => .inr (htells vm hvm htell)) (.over rfl nofun)

theorem Job.not_tells {job : Job} (h : job.jobType = .provision) (vm : String) :
    ¬job.Tells vm := by
  rintro ⟨hteardown, -⟩
  rw [h] at hteardown
  cases hteardown

theorem tracked_deployFails {s : State} {id : ℕ} {job : Job} {seat : String}
    {left : Option String} {todo : List String} (h : Tracked s)
    (hjob : s.jobs.lookup id = some job) (htype : job.jobType = .provision)
    (hwork : job.work = .deploying seat todo) (hleft : ∀ vm ∈ left, vm ∈ s.vms) : Tracked (s.deployFails job seat left todo) := by
  have hnone := h.opened hjob (by simp [hwork])
  simp only [State.deployFails, elim_withVm hleft]
  split
  · refine h.put hjob { job with work := .next todo, errors := job.errors ++ [.deploy seat] } rfl
      rfl (fun vm hvm => .inl hvm) (fun vm _ hrec => .inl ?_)
      (fun vm _ htell => absurd htell (Job.not_tells htype vm)) (.working hnone (by simp))
    exact recorded_modify Seat.failed (fun _ => rfl) (fun _ => rfl) hrec
  · exact tracked_raised h hjob fun vm _ htell => absurd htell (Job.not_tells htype vm)

theorem tracked_died {s : State} {id : ℕ} {job : Job} (h : Tracked s)
    (hjob : s.jobs.lookup id = some job) (hwork : job.work ≠ .ended)
    (htells : ∀ vm ∈ s.vms, job.Tells vm → Recorded s vm) (again : Bool) :
    Tracked (s.put (Job.died again job)) := by
  have hnone := h.opened hjob hwork
  unfold Job.died
  split
  · exact h.ends hjob { job with work := .queued, errors := [] } rfl
      (fun vm hvm htell => .inr (htells vm hvm htell)) (.working hnone nofun)
  · exact tracked_raised h hjob htells

theorem tracked_terminated {s : State} {id : ℕ} {job : Job} {seat vm : String} {brokered : Bool}
    {todo : List String} (h : Tracked s) (hjob : s.jobs.lookup id = some job)
    (hwork : job.work = .terminating seat vm brokered todo) :
    Tracked { s.put (job.at (.dropping seat brokered todo)) with
      vms := s.vms.filter fun vm' => vm' ≠ vm } := by
  have hnone := h.opened hjob (by simp [hwork])
  exact h.put hjob (job.at (.dropping seat brokered todo)) rfl rfl
    (fun vm' hvm' => .inl (List.mem_of_mem_filter hvm')) (fun _ _ hrec => .inl hrec)
    (fun _ _ htell => .inl htell) (.working hnone nofun)

theorem tracked_dropped {s : State} {id : ℕ} {job : Job} {seat : String} {brokered : Bool}
    {todo : List String} {errors : List JobError} (h : Tracked s)
    (hjob : s.jobs.lookup id = some job) (hwork : job.work = .dropping seat brokered todo)
    (herrors : job.errors <+: errors)
    (hkept : ∀ row ∈ s.seats.lookup seat, ∀ vm ∈ row.vmResourceId, vm ∈ s.vms → job.Tells vm) :
    Tracked { s.put { job with work := .next todo, errors } with
      seats := s.seats.erase seat } := by
  have hnone := h.opened hjob (by simp [hwork])
  have htells : ∀ vm, job.Tells vm → Job.Tells { job with work := .next todo, errors } vm :=
    fun vm htell => htell.of_errors hnone rfl hnone herrors
  refine h.put hjob { job with work := .next todo, errors } rfl rfl (fun vm hvm => .inl hvm)
    (fun vm hvm hrec => ?_) (fun vm _ htell => .inl (htells vm htell)) (.working hnone nofun)
  obtain ⟨row, hrow, hrvm⟩ := hrec
  by_cases hkey : row.id = seat
  · exact .inr (htells vm (hkept row (Table.lookup_eq_some.mpr ⟨hrow, hkey⟩) vm hrvm hvm))
  · exact .inl ⟨row, Table.mem_erase.mpr ⟨hrow, hkey⟩, hrvm⟩

theorem tracked_finished {s : State} {id : ℕ} {job : Job} (h : Tracked s)
    (hjob : s.jobs.lookup id = some job) (hwork : job.work ≠ .ended) :
    Tracked (s.put job.finished) := by
  have hnone := h.opened hjob hwork
  unfold Job.finished
  split
  next hempty =>
    refine h.ends hjob { job with work := .ended } rfl (fun vm _ htell => ?_)
      (.over rfl fun _ => hempty)
    obtain ⟨-, hmem⟩ := htell
    simp [Job.message, hnone, hempty] at hmem
  · refine h.ends hjob job.failed rfl (fun vm _ htell => .inl ?_) (.over rfl nofun)
    obtain ⟨hteardown, hmem⟩ := htell
    rw [Job.message, hnone] at hmem
    exact ⟨hteardown, hmem⟩

theorem tracked_step (s : State) (event : Event) (t : State) (h : Tracked s) (hkept : Kept s event)
    (hstep : s.step event = some t) : Tracked t := by
  cases event with
  | create pool ids now job =>
    simp only [State.step, Option.ite_none_right_eq_some, Option.bind_eq_bind,
      Option.bind_eq_some_iff, Option.some_inj] at hstep
    obtain ⟨-, seats, hadd, jobs, hjobs, rfl⟩ := hstep
    exact h.queued hjobs rfl fun vm => recorded_addSeats hadd
  | scale pool count ids now job => exact tracked_scale h hstep
  | delete pool job =>
    simp only [State.step, Option.ite_none_left_eq_some, Option.bind_eq_bind,
      Option.bind_eq_some_iff, Option.some_inj] at hstep
    obtain ⟨-, jobs, hjobs, rfl⟩ := hstep
    exact h.queued hjobs rfl fun vm => recorded_mark _
  | claim id =>
    simp only [State.step, Option.bind_eq_bind, Option.bind_eq_some_iff,
      Option.ite_none_right_eq_some, Option.some_inj] at hstep
    obtain ⟨job, hjob, hqueued, rfl⟩ := hstep
    exact h.goes hjob (by simp [hqueued]) (job.at (.next job.seatIds)) rfl rfl rfl
      (List.prefix_refl _) (by simp [Job.at])
  | load id =>
    simp only [State.step, Option.bind_eq_bind, Option.bind_eq_some_iff] at hstep
    obtain ⟨job, hjob, hstep⟩ := hstep
    split at hstep
    next seat todo hwork =>
      obtain rfl := Option.some.inj hstep
      exact tracked_load h hjob hwork
    · cases hstep
  | deployed id vm =>
    simp only [State.step, Option.bind_eq_bind, Option.bind_eq_some_iff] at hstep
    obtain ⟨job, hjob, hstep⟩ := hstep
    split at hstep
    next seat todo htype hwork =>
      obtain rfl := Option.some.inj hstep
      exact tracked_deployed h hjob hwork (hkept job hjob seat (by rw [hwork]; rfl))
    · cases hstep
  | deployFails id left =>
    simp only [State.step, Option.bind_eq_bind, Option.bind_eq_some_iff] at hstep
    obtain ⟨job, hjob, hstep⟩ := hstep
    split at hstep
    next seat todo htype hwork =>
      obtain rfl := Option.some.inj hstep
      exact tracked_deployFails h hjob htype hwork hkept
    · cases hstep
  | brokered id ok =>
    simp only [State.step, Option.bind_eq_bind, Option.bind_eq_some_iff] at hstep
    obtain ⟨job, hjob, hstep⟩ := hstep
    split at hstep
    next seat todo htype hwork =>
      obtain rfl := Option.some.inj hstep
      have hnone := h.opened hjob (by simp [hwork])
      exact h.put hjob (job.at (.next todo)) rfl rfl (fun vm hvm => .inl hvm)
        (fun vm _ hrec => .inl (recorded_modify (Seat.registered ok) (fun _ => rfl) (fun _ => rfl)
          hrec)) (fun _ _ htell => .inl htell) (.working hnone (by simp [Job.at]))
    · cases hstep
  | terminated id ok =>
    simp only [State.step, Option.bind_eq_bind, Option.bind_eq_some_iff] at hstep
    obtain ⟨job, hjob, hstep⟩ := hstep
    split at hstep
    next seat vm brokered todo htype hwork =>
      split_ifs at hstep <;> obtain rfl := Option.some.inj hstep
      · exact tracked_terminated h hjob hwork
      · exact h.goes hjob (by simp [hwork]) _ rfl rfl rfl (List.prefix_append _ _) (by simp)
    · cases hstep
  | dropped id praOk =>
    simp only [State.step, Option.bind_eq_bind, Option.bind_eq_some_iff] at hstep
    obtain ⟨job, hjob, hstep⟩ := hstep
    split at hstep
    next seat brokered todo htype hwork =>
      obtain rfl := Option.some.inj hstep
      refine tracked_dropped h hjob hwork ?_ (hkept job hjob seat (by rw [hwork]; rfl))
      split
      · exact List.prefix_append _ _
      · exact List.prefix_refl _
    · cases hstep
  | finish id =>
    simp only [State.step, Option.bind_eq_bind, Option.bind_eq_some_iff,
      Option.ite_none_right_eq_some, Option.some_inj] at hstep
    obtain ⟨job, hjob, hwork, rfl⟩ := hstep
    exact tracked_finished h hjob (by simp [hwork])
  | die id left again =>
    simp only [State.step, Option.bind_eq_bind, Option.bind_eq_some_iff] at hstep
    obtain ⟨job, hjob, hstep⟩ := hstep
    obtain ⟨hleft, htells⟩ := hkept
    split at hstep
    · cases hstep
    · cases hstep
    next seat todo hwork =>
      obtain rfl := Option.some.inj hstep
      have hdied := tracked_died h hjob (by simp [hwork]) (htells job hjob) again
      rw [elim_withVm hleft]
      exact hdied
    next hended _ =>
      obtain rfl := Option.some.inj hstep
      exact tracked_died h hjob hended (htells job hjob) again

/-- In a run in which no VM is lost sight of, every VM that exists is on a seat's row or in the
error of a failed teardown, but for those that a teardown still at work has to tell of. -/
theorem no_desktop_leaked {s : State} (hs : s.Fresh) {events : List Event}
    (h : pools.Along Kept s events) : pools.Always (fun t => Told t → NoLeak t) s events := by
  have htracked : Tracked s := by
    refine ⟨?_, ?_⟩
    · simp [hs.1]
    · simp [hs.2]
  exact pools.always_mono (fun t ht => noLeak_of_tracked ht)
    (pools.always_of_along tracked_step htracked h)

instance (s : State) (event : Event) : Decidable (Kept s event) := by
  cases event <;> unfold Kept <;> infer_instance

def created : List Event := [.create "dev" ["s1", "s2"] 0 1, .claim 1, .load 1]

/-- The pool is deleted while the first seat's VM is on its way. -/
def deletedMeanwhile : List Event :=
  created ++ [.delete "dev" 2, .claim 2, .load 2, .dropped 2 true, .load 2, .dropped 2 true,
    .finish 2, .deployed 1 "us-east-1/i-1"]

theorem desktop_leaked : ¬∀ s : State, s.Fresh → ∀ events, pools.Always NoLeak s events := by
  intro h
  have hrun : ¬pools.Always NoLeak noSeats deletedMeanwhile := by decide +kernel
  exact hrun (h noSeats ⟨rfl, rfl⟩ deletedMeanwhile)

/- A worker that dies between the VM and the commit. -/
example : ¬pools.Always NoLeak noSeats (created ++ [.die 1 (some "us-east-1/i-1") true]) := by
  decide +kernel

/-- A terminate fails, and the failed job names the VM. -/
def shrunk : List Event :=
  created ++ [.deployed 1 "us-east-1/i-1", .brokered 1 true, .load 1, .deployed 1 "us-east-1/i-2",
    .brokered 1 true, .finish 1, .scale "dev" 1 [] 0 2, .claim 2, .load 2, .terminated 2 false,
    .dropped 2 true, .finish 2]

theorem no_desktop_leaked_shrunk : pools.Always (fun t => Told t → NoLeak t) noSeats shrunk :=
  no_desktop_leaked ⟨rfl, rfl⟩ (by decide +kernel)

end Desktops
