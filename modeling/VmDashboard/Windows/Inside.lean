import VmDashboard.Jobs.Queue
import VmDashboard.Windows.Gate

/-!
# A workgroup that is changed only inside its window

The runs of gated requests, reschedules, approvals, sweeper passes and claims
over the job table, at times that do not go back. Every request and reschedule
reads the database and the settings as they are then; what stays is that
workgroup `g` requires the enabled window `W`.
-/

namespace Windows
open Jobs (Job JobRequest User Claimant)
open Machine (System Table)
open Python (Instant minutes seconds strip lower dayLength)

def Site.workgroup? (site : Site) (g : String) : Option Workgroup :=
  match site.workgroups with
  | .ok rows => rows.lookup g
  | .error _ => none

/-- The site has workgroup `g` require the enabled window `W`. -/
def Site.Requires (site : Site) (g : String) (W : ChangeWindow) : Prop :=
  W.enabled ≠ some false ∧ site.windows.lookup W.id = some W ∧
    (site.workgroup? g).any fun row =>
      row.requireChangeWindow = some true && row.changeWindowId = some W.id

instance (site : Site) (g : String) (W : ChangeWindow) : Decidable (site.Requires g W) :=
  inferInstanceAs (Decidable (_ ∧ _ ∧ _))

/-- A gated request for workgroup `g`. -/
def GatedRequest.isFor (request : GatedRequest) (site : Site) (g : String) : Bool :=
  site.gatedActions.contains request.action &&
    request.job.workgroup.any fun name => strip name ≠ "" && lower (strip name) = g

/-- `gated` lists the jobs that admitted gated requests for the workgroup created, `claims` when
each of them was claimed. -/
structure State where
  clock : Instant
  jobs : Table Job.id
  gated : List String
  claims : List (String × Instant)

inductive Event
  | request (site : Site) (resolved enforced created : Instant) (id : String)
      (defaultExpiry : Option Instant) (request : GatedRequest)
  | reschedule (site : Site) (now : Instant) (user : User) (job : String) (form : RunForm)
  | approve (user : User) (allowSelf : Bool) (now : Instant) (job : String)
  | sweep (now : Instant)
  | claim (now : Instant) (claimant : Claimant) (allowed : List String)

/-- The row after the endpoint; a refused approval leaves it alone. -/
def approved (user : User) (allowSelf : Bool) (now : Instant) (row : Job) : Job :=
  match approveChange user allowSelf now row with
  | .ok row' => row'
  | .error _ => row

theorem approved_same (user : User) (allowSelf : Bool) (now : Instant) (row : Job) :
    (approved user allowSelf now row).Same row ∧
      (approved user allowSelf now row).scheduledFor = row.scheduledFor ∧
      (approved user allowSelf now row).windowEndsAt = row.windowEndsAt := by
  unfold approved approveChange
  split
  next row' h =>
    split at h
    · cases h
    split at h
    · obtain rfl := Except.ok.inj h
      exact ⟨.refl row, rfl, rfl⟩
    split at h
    · cases h
    split at h
    · cases h
    obtain rfl := Except.ok.inj h
    exact ⟨⟨rfl, rfl, rfl⟩, rfl, rfl⟩
  next => exact ⟨.refl row, rfl, rfl⟩

theorem approved_id (user : User) (allowSelf : Bool) (now : Instant) (row : Job) :
    (approved user allowSelf now row).id = row.id :=
  (approved_same user allowSelf now row).1.id

def State.step (lib : TimeLibrary) (W : ChangeWindow) (g : String) (s : State) :
    Event → Option State
  | .request site resolved enforced created id defaultExpiry request =>
    if s.clock ≤ resolved ∧ resolved ≤ enforced ∧ enforced ≤ created ∧ site.Requires g W then
      match submit lib site resolved enforced request with
      | .error _ => some { s with clock := created }
      | .ok job =>
        (s.jobs.insert (Jobs.createJob id created defaultExpiry job)).map fun jobs =>
          { s with
            clock := created
            jobs
            gated := if request.isFor site g then id :: s.gated else s.gated }
    else none
  | .reschedule site now user job form =>
    if s.clock ≤ now ∧ site.Requires g W then
      let write := Jobs.Write.reschedule user (resolve lib site now form)
      some { s with
        clock := now
        jobs := s.jobs.modify job write.apply fun row => (write.apply_same row).id }
    else none
  | .approve user allowSelf now job =>
    if s.clock ≤ now then
      some { s with
        clock := now
        jobs := s.jobs.modify job (approved user allowSelf now) fun row =>
          (approved_same user allowSelf now row).1.id }
    else none
  | .sweep now =>
    if s.clock ≤ now then some { s with clock := now, jobs := reapMissed s.jobs now } else none
  | .claim now claimant allowed =>
    if s.clock ≤ now then
      -- the query and its guarded update, at one instant
      match Jobs.claimCandidate s.jobs claimant allowed now with
      | none => some { s with clock := now }
      | some job =>
        let (jobs, matched) := Jobs.claimUpdate s.jobs claimant job.id now
        some { s with
          clock := now
          jobs
          claims := if matched ∧ job.id ∈ s.gated then (job.id, now) :: s.claims else s.claims }
    else none

def calendar (lib : TimeLibrary) (W : ChangeWindow) (g : String) : System State Event :=
  ⟨State.step lib W g⟩

/-- No gated request was admitted yet; the table may hold any rows. -/
def State.Fresh (s : State) : Prop := s.gated = [] ∧ s.claims = []

/-! ### Inside the window -/

/-- `t` is covered by an occurrence, or within the sweeper's grace after the end of one. -/
def Allowed (lib : TimeLibrary) (W : ChangeWindow) (t : Instant) : Prop :=
  (∃ start close, Occurrence lib W start close ∧ start ≤ t ∧ t < close) ∨
    ∃ start close, Occurrence lib W start close ∧ close ≤ t ∧ t ≤ close + missedGrace

/-- The span from `a` to `b` lies in an occurrence. -/
def Inside (lib : TimeLibrary) (W : ChangeWindow) (a b : Instant) : Prop :=
  ∃ start close, Occurrence lib W start close ∧ start ≤ a ∧ b ≤ close

/-- The row carries a span inside the window. -/
def Kept (lib : TimeLibrary) (W : ChangeWindow) (job : Job) : Prop :=
  ∃ a b, job.scheduledFor = some a ∧ job.windowEndsAt = some b ∧ Inside lib W a b

theorem Inside.allowed {lib : TimeLibrary} {W : ChangeWindow} {a b t : Instant}
    (h : Inside lib W a b) (ha : a ≤ t) (hb : t ≤ b + missedGrace) : Allowed lib W t := by
  obtain ⟨start, close, hocc, hstart, hclose⟩ := h
  by_cases hopen : t < close
  · exact .inl ⟨start, close, hocc, hstart.trans ha, hopen⟩
  · exact .inr ⟨start, close, hocc, Nat.le_of_not_lt hopen,
      hb.trans (Nat.add_le_add_right hclose missedGrace)⟩

/-- A booking into `W` by name lies inside it. -/
theorem asks_named_inside {lib : TimeLibrary} {site : Site} {W : ChangeWindow} {now a b : Instant}
    {form : RunForm} (hW : site.windows.lookup W.id = some W)
    (h : form.Asks lib site now (some W.id) a b) : Inside lib W a b := by
  have hsame : ∀ window, site.windows.lookup form.changeWindowId = some window →
      window.id = W.id → window = W := by
    intro window hrow hid
    rw [← Table.lookup_key hrow, hid, hW] at hrow
    exact (Option.some.inj hrow).symm
  generalize hid : some W.id = id at h
  cases h with
  | time => cases hid
  | window _ hrow hnext =>
    obtain rfl := hsame _ hrow (Option.some.inj hid).symm
    exact ⟨a, b, (nextOccurrence_ok hnext).1, le_rfl, le_rfl⟩
  | windowTime _ hrow _ hnext hstart _ =>
    obtain rfl := hsame _ hrow (Option.some.inj hid).symm
    exact ⟨_, b, (nextOccurrence_ok hnext).1, hstart, le_rfl⟩

/-- What the gate lets through for the workgroup is booked into the window, starts inside it, or
comes while it is open. -/
theorem enforce_ok {lib : TimeLibrary} {site : Site} {W : ChangeWindow} {g : String}
    {request : GatedRequest} {now : Instant} {scheduled : Option Scheduled} {gate : Bool}
    (hsite : site.Requires g W) (hfor : request.isFor site g = true)
    (h : enforce lib site request.action request.job.workgroup now scheduled request.approvable
      request.verdict = .ok gate) :
    satisfiesWindow lib W scheduled = true ∨ occurrenceCovering lib W now = true := by
  obtain ⟨-, hW, hrow⟩ := hsite
  obtain ⟨_, h, -⟩ := Machine.bind_eq_ok h
  simp only [GatedRequest.isFor, Bool.and_eq_true, Option.any_eq_true, decide_eq_true_eq,
    ne_eq] at hfor
  obtain ⟨hact, name, hname, hblank, hlower⟩ := hfor
  unfold enforceChangeWindow at h
  rw [if_neg (by simpa using hact), hname] at h
  simp only [if_neg hblank] at h
  unfold Site.workgroup? at hrow
  cases hrows : site.workgroups with
  | error e => simp [hrows] at hrow
  | ok rows =>
    simp only [hrows, Option.any_eq_true, Bool.and_eq_true, decide_eq_true_eq] at hrow
    obtain ⟨row, hlook, hreq, hid⟩ := hrow
    simp only [hrows, hlower, hlook, hreq, ne_eq, not_true_eq_false, if_false] at h
    unfold requireWindow at h
    simp only [hid, Option.bind_some, hW] at h
    split at h
    next hs => exact .inl hs
    next =>
      split at h
      next hc => exact .inr hc
      next => split at h <;> cases h

/-! ### The runs that stay inside -/

/-- The rows `reschedule_job` moves for this user. -/
def Movable (user : User) (job : Job) : Prop :=
  (job.createdBy = user.username ∨ user.isEffectiveAdmin = true) ∧
    (job.status.waiting = true ∨ job.status = .cancelled)

/-- No request runs at once because the window happens to be open; a span that the gate lets
through, and every span a job of the workgroup is moved to, lies in an occurrence; and no claim
takes a row that the sweeper had to reap. -/
def Timely (lib : TimeLibrary) (W : ChangeWindow) (g : String) (s : State) : Event → Prop
  | .request site resolved enforced _ _ _ request =>
    request.isFor site g = true →
      (occurrenceCovering lib W enforced = true → ¬request.form.Immediate) ∧
      ∀ id a b, request.form.Asks lib site resolved id a b →
        occurrenceCovering lib W a = true ∨ occurrenceCovering lib W enforced = true →
          Inside lib W a b
  | .reschedule site now user job form =>
    job ∈ s.gated → (∃ row, s.jobs.lookup job = some row ∧ Movable user row) →
      ¬form.Immediate ∧ ∀ id a b, form.Asks lib site now id a b → Inside lib W a b
  | .claim now claimant allowed =>
    ∀ job, Jobs.claimCandidate s.jobs claimant allowed now = some job → job.id ∈ s.gated →
      isMissed now job = false
  | _ => True

/-- Asking for the window by name is timely. -/
theorem timely_named {lib : TimeLibrary} {site : Site} {W : ChangeWindow} {g : String} (s : State)
    {resolved enforced created : Instant} {id : String} {expiry : Option Instant}
    {request : GatedRequest} (hsite : site.Requires g W)
    (hname : request.form.changeWindowId = W.id) (hid : W.id ≠ "") :
    Timely lib W g s (.request site resolved enforced created id expiry request) := by
  intro _
  refine ⟨fun _ himm => hid (hname.symm.trans himm.2), fun id a b hasks _ => ?_⟩
  have hnamed : id = some W.id := by
    cases hasks with
    | time _ hblank => exact absurd (hname.symm.trans hblank) hid
    | window _ hrow => rw [Table.lookup_key hrow, hname]
    | windowTime _ hrow => rw [Table.lookup_key hrow, hname]
  rw [hnamed] at hasks
  exact asks_named_inside hsite.2.1 hasks

/-- The rows of the workgroup's jobs carry spans inside the window, and their claims so far
were allowed. -/
structure Invariant (lib : TimeLibrary) (W : ChangeWindow) (s : State) : Prop where
  kept : ∀ id ∈ s.gated, ∃ job, s.jobs.lookup id = some job ∧ Kept lib W job
  allowed : ∀ claim ∈ s.claims, Allowed lib W claim.2

/-- Every row is still there, booked as before. -/
def SameTimes (after before : Table Job.id) : Prop :=
  ∀ id job, before.lookup id = some job → ∃ job', after.lookup id = some job' ∧
    job'.scheduledFor = job.scheduledFor ∧ job'.windowEndsAt = job.windowEndsAt

theorem SameTimes.refl (jobs : Table Job.id) : SameTimes jobs jobs :=
  fun _ job h => ⟨job, h, rfl, rfl⟩

theorem SameTimes.trans {a b c : Table Job.id} (hab : SameTimes a b) (hbc : SameTimes b c) :
    SameTimes a c := by
  intro id job hjob
  obtain ⟨job', hjob', hs, he⟩ := hbc id job hjob
  obtain ⟨job'', hjob'', hs', he'⟩ := hab id job' hjob'
  exact ⟨job'', hjob'', hs'.trans hs, he'.trans he⟩

theorem sameTimes_modify (jobs : Table Job.id) (id : String) (f : Job → Job)
    (hf : ∀ row, (f row).id = row.id)
    (htimes : ∀ row, (f row).scheduledFor = row.scheduledFor ∧
      (f row).windowEndsAt = row.windowEndsAt) : SameTimes (jobs.modify id f hf) jobs := by
  intro id' job hjob
  by_cases hid : id' = id
  · subst hid
    exact ⟨f job, by rw [Table.lookup_modify_self, hjob, Option.map_some], htimes job⟩
  · exact ⟨job, by rw [Table.lookup_modify_of_ne _ hid, hjob], rfl, rfl⟩

theorem sameTimes_reapMissed (jobs : Table Job.id) (now : Instant) :
    SameTimes (reapMissed jobs now) jobs := by
  have hmissed : ∀ reason row,
      (Jobs.setMissedWindow now reason row).scheduledFor = row.scheduledFor ∧
        (Jobs.setMissedWindow now reason row).windowEndsAt = row.windowEndsAt := by
    intro reason row
    unfold Jobs.setMissedWindow
    split <;> exact ⟨rfl, rfl⟩
  unfold reapMissed
  generalize dueMissed jobs now = due
  induction due generalizing jobs with
  | nil => exact .refl jobs
  | cons missed due ih =>
    exact (ih (reapOne now jobs missed)).trans
      (sameTimes_modify jobs missed.id _ _ (hmissed _))

theorem sameTimes_claimUpdate (jobs : Table Job.id) (claimant : Claimant) (id : String)
    (now : Instant) : SameTimes (Jobs.claimUpdate jobs claimant id now).1 jobs := by
  unfold Jobs.claimUpdate
  split
  · split
    · exact sameTimes_modify jobs id (Jobs.setRunning now)
        (fun row => (Jobs.setRunning_same now row).id) fun row => ⟨rfl, rfl⟩
    · exact .refl jobs
  · exact .refl jobs

theorem SameTimes.kept {lib : TimeLibrary} {W : ChangeWindow} {after before : Table Job.id}
    (h : SameTimes after before) {id : String}
    (hid : ∃ job, before.lookup id = some job ∧ Kept lib W job) :
    ∃ job, after.lookup id = some job ∧ Kept lib W job := by
  obtain ⟨job, hjob, a, b, ha, hb, hin⟩ := hid
  obtain ⟨job', hjob', hs, he⟩ := h id job hjob
  exact ⟨job', hjob', a, b, hs.trans ha, he.trans hb, hin⟩

/-- What a request for the workgroup puts on its row. -/
theorem submit_kept {lib : TimeLibrary} {site : Site} {W : ChangeWindow} {g : String}
    {resolved enforced created : Instant} {request : GatedRequest} {job : JobRequest}
    {s : State} {id : String} {expiry : Option Instant} (hsite : site.Requires g W)
    (hfor : request.isFor site g = true)
    (htimely : Timely lib W g s (.request site resolved enforced created id expiry request))
    (h : submit lib site resolved enforced request = .ok job) :
    Kept lib W (Jobs.createJob id created expiry job) := by
  obtain ⟨hnow, hspan⟩ := htimely hfor
  unfold submit at h
  split at h
  · cases h
  next scheduled hsched =>
  split at h
  · cases h
  next gate hgate =>
  obtain rfl := Except.ok.inj h
  have hadmit := enforce_ok hsite hfor hgate
  unfold scheduleKwargs at hsched
  split at hsched
  · cases hsched
  next hres =>
    -- an immediate run: the gate is open
    obtain rfl := Except.ok.inj hsched
    rcases resolve_ok hres with ⟨himm, -⟩ | ⟨_, _, _, -, hnone⟩
    · rcases hadmit with hsat | hcover
      · cases hsat
      · exact absurd himm (hnow hcover)
    · cases (Prod.mk.inj hnone).1
  next start close windowId hres =>
    obtain rfl := Except.ok.inj hsched
    rcases resolve_ok hres with ⟨-, hnone⟩ | ⟨wid, a, b, hasks, hbooked⟩
    · cases (Prod.mk.inj hnone).1
    · obtain ⟨hstart, hrest⟩ := Prod.mk.inj hbooked
      obtain ⟨hclose, hwid⟩ := Prod.mk.inj hrest
      obtain rfl := Option.some.inj hstart
      subst hclose hwid
      refine ⟨start, b, rfl, rfl, ?_⟩
      rcases hadmit with hsat | hcover
      · simp only [satisfiesWindow, Bool.or_eq_true, Bool.and_eq_true, decide_eq_true_eq] at hsat
        rcases hsat with ⟨-, hnamed⟩ | hcover
        · rw [hnamed] at hasks
          exact asks_named_inside hsite.2.1 hasks
        · exact hspan _ _ _ hasks (.inl hcover)
      · exact hspan _ _ _ hasks (.inr hcover)

/-- What a move puts on the row. -/
theorem reschedule_kept {lib : TimeLibrary} {site : Site} {W : ChangeWindow} {now : Instant}
    {user : User} {form : RunForm} {row : Job} (hrow : Kept lib W row)
    (htimely : Movable user row →
      ¬form.Immediate ∧ ∀ id a b, form.Asks lib site now id a b → Inside lib W a b) :
    Kept lib W ((Jobs.Write.reschedule user (resolve lib site now form)).apply row) := by
  simp only [Jobs.Write.apply]
  split
  next moved hmoved =>
    have hmovable : Movable user row := by
      refine ⟨?_, ?_⟩
      · by_contra hown
        rw [not_or] at hown
        simp [Jobs.rescheduleJob, hown] at hmoved
      · rcases (Jobs.rescheduleJob_ok hmoved).2 with hw | hc
        · exact .inl hw.1
        · exact .inr hc.1
    obtain ⟨himm, hspan⟩ := htimely hmovable
    cases hres : resolve lib site now form with
    | error reason =>
      unfold Jobs.rescheduleJob at hmoved
      rw [hres] at hmoved
      split at hmoved
      · cases hmoved
      split at hmoved
      · cases hmoved
      split at hmoved <;> cases hmoved
    | ok booked =>
      rcases resolve_ok hres with ⟨hnow, -⟩ | ⟨id, a, b, hasks, rfl⟩
      · exact absurd hnow himm
      · have htimes : moved.scheduledFor = some a ∧ moved.windowEndsAt = some b := by
          unfold Jobs.rescheduleJob at hmoved
          rw [hres] at hmoved
          split at hmoved
          · cases hmoved
          split at hmoved
          · cases hmoved
          split at hmoved
          · cases hmoved
          obtain rfl := Except.ok.inj hmoved
          exact ⟨rfl, rfl⟩
        exact ⟨a, b, htimes.1, htimes.2, hspan id a b hasks⟩
  next => exact hrow

/-- A claim that takes a row carrying a span inside the window falls in the window. -/
theorem claim_allowed {lib : TimeLibrary} {W : ChangeWindow} {jobs : Table Job.id}
    {claimant : Claimant} {allowed : List String} {now : Instant} {job : Job}
    (hcand : Jobs.claimCandidate jobs claimant allowed now = some job) (hkept : Kept lib W job)
    (hmissed : isMissed now job = false) : Allowed lib W now := by
  obtain ⟨a, b, ha, hb, hin⟩ := hkept
  have hfilter := (Jobs.claimCandidate_spec hcand).2
  simp only [Jobs.claimFilter, Jobs.claimableNow, Bool.and_eq_true] at hfilter
  obtain ⟨⟨htakes, -⟩, ⟨-, hsched⟩, -⟩ := hfilter
  have hstart : a ≤ now := by simpa [ha] using hsched
  rw [isMissed, Jobs.claimant_takes_waiting htakes, Bool.true_and, hb, Option.any_some,
    decide_eq_false_iff_not, Nat.not_lt] at hmissed
  exact hin.allowed hstart hmissed

theorem step_invariant {lib : TimeLibrary} {W : ChangeWindow} {g : String} {s t : State}
    {event : Event} (hI : Invariant lib W s) (hG : Timely lib W g s event)
    (h : s.step lib W g event = some t) : Invariant lib W t := by
  cases event with
  | request site resolved enforced created id expiry request =>
    simp only [State.step] at h
    split at h
    next hguard =>
      split at h
      · obtain rfl := Option.some.inj h
        exact ⟨hI.kept, hI.allowed⟩
      next job hsubmit =>
        obtain ⟨jobs, hins, rfl⟩ := Option.map_eq_some_iff.mp h
        refine ⟨fun id' hid' => ?_, hI.allowed⟩
        have hold : ∀ id' ∈ s.gated, ∃ row, jobs.lookup id' = some row ∧ Kept lib W row := by
          intro id' hid'
          obtain ⟨row, hrow, hkept⟩ := hI.kept id' hid'
          exact ⟨row, Table.lookup_insert_of_some hins hrow, hkept⟩
        simp only at hid'
        split at hid'
        next hfor =>
          rcases List.mem_cons.mp hid' with rfl | hid'
          · exact ⟨_, (Table.lookup_insert hins _).trans (if_pos rfl),
              submit_kept hguard.2.2.2 hfor hG hsubmit⟩
          · exact hold id' hid'
        next => exact hold id' hid'
    next => cases h
  | reschedule site now user job form =>
    simp only [State.step] at h
    split at h
    next hguard =>
      obtain rfl := Option.some.inj h
      refine ⟨fun id hid => ?_, hI.allowed⟩
      obtain ⟨row, hrow, hkept⟩ := hI.kept id hid
      by_cases hjob : id = job
      · subst hjob
        refine ⟨_, by rw [Table.lookup_modify_self, hrow, Option.map_some], ?_⟩
        exact reschedule_kept hkept fun hmov => hG hid ⟨row, hrow, hmov⟩
      · exact ⟨row, by rw [Table.lookup_modify_of_ne _ hjob, hrow], hkept⟩
    next => cases h
  | approve user allowSelf now job =>
    simp only [State.step] at h
    split at h
    next =>
      obtain rfl := Option.some.inj h
      have hsame := sameTimes_modify s.jobs job (approved user allowSelf now)
        (fun row => (approved_same user allowSelf now row).1.id)
        fun row => (approved_same user allowSelf now row).2
      exact ⟨fun id hid => hsame.kept (hI.kept id hid), hI.allowed⟩
    next => cases h
  | sweep now =>
    simp only [State.step] at h
    split at h
    next =>
      obtain rfl := Option.some.inj h
      have hsame := sameTimes_reapMissed s.jobs now
      exact ⟨fun id hid => hsame.kept (hI.kept id hid), hI.allowed⟩
    next => cases h
  | claim now claimant allowed =>
    simp only [State.step] at h
    split at h
    next =>
      split at h
      · obtain rfl := Option.some.inj h
        exact ⟨hI.kept, hI.allowed⟩
      next job hcand =>
        obtain rfl := Option.some.inj h
        have hsame := sameTimes_claimUpdate s.jobs claimant job.id now
        refine ⟨fun id hid => hsame.kept (hI.kept id hid), fun claim hclaim => ?_⟩
        simp only at hclaim
        split at hclaim
        next htaken =>
          rcases List.mem_cons.mp hclaim with rfl | hclaim
          · obtain ⟨row, hrow, hkept⟩ := hI.kept job.id htaken.2
            obtain rfl := Option.some.inj ((Jobs.claimCandidate_spec hcand).1.symm.trans hrow)
            exact claim_allowed hcand hkept (hG job hcand htaken.2)
          · exact hI.allowed claim hclaim
        next => exact hI.allowed claim hclaim
    next => cases h

/-- In a run whose steps are all timely, every job of the workgroup is claimed inside the window
or within the sweeper's grace after it. -/
theorem changed_inside_window (lib : TimeLibrary) (W : ChangeWindow) (g : String) {s : State}
    (hs : s.Fresh) {events : List Event}
    (h : (calendar lib W g).Along (Timely lib W g) s events) :
    (calendar lib W g).Always (fun t => ∀ claim ∈ t.claims, Allowed lib W claim.2) s events := by
  have hI : Invariant lib W s := by
    refine ⟨fun id hid => ?_, fun claim hclaim => ?_⟩
    · rw [hs.1] at hid
      cases hid
    · rw [hs.2] at hclaim
      cases hclaim
  have hrun := (calendar lib W g).always_of_along
    (fun s event t hs hG ht => step_invariant hs hG ht) hI h
  exact (calendar lib W g).always_mono (fun t ht => ht.allowed) hrun

/- Saturdays from 02:00 to 06:00 UTC. A change is booked into the window on the Thursday before;
its owner may then leave it there or ask for it at once. -/
def saturdays : ChangeWindow :=
  ⟨"w", "Prod Weekend", "02:00", 240, none, "0000010", some true⟩

def sampleSite : Site where
  windows := ⟨[saturdays], List.nodup_singleton _⟩
  workgroups := .ok ⟨[⟨"prod", some "w", some true⟩], List.nodup_singleton _⟩
  gatedActions := ["aws:ec2:deploy"]
  graceSetting := none
  approvalRequiredDefault := false
  allowSelfApproval := false
  admissionEnabled := false
  enforceApproval := false

def sampleRequest : GatedRequest where
  action := "aws:ec2:deploy"
  form := { changeWindowId := "w" }
  approvable := true
  verdict := .allow
  job := { jobType := "ec2_deploy", createdBy := "ada", workgroup := some "prod" }

def thursday (hour : ℕ) : Instant := 739889 * dayLength + minutes (60 * hour)
def saturday (hour : ℕ) : Instant := 739891 * dayLength + minutes (60 * hour)

def sampleStart : State := ⟨0, .empty, [], []⟩

def booked : Event :=
  .request sampleSite (thursday 9) (thursday 9) (thursday 9) "j" none sampleRequest

def ranEarly : List Event :=
  [booked, .reschedule sampleSite (thursday 10) ⟨"ada", false⟩ "j" {},
   .claim (thursday 11) .worker ["ec2_deploy"]]

theorem saturdays_occurrence {start close : ℕ}
    (h : Occurrence noZones saturdays start close) :
    ∃ day : ℤ, day % 7 = 5 ∧ start = (day * 86400000000 + 7200000000).toNat ∧
      close = start + 14400000000 := by
  obtain ⟨rule, day, hr, hopen, rfl, rfl⟩ := h
  have hrule : saturdays.rule noZones =
      .ok ⟨utc, "0000010".toList, minutes 120, minutes 240⟩ := by rfl
  obtain rfl := Except.ok.inj (hrule.symm.trans hr)
  refine ⟨day, ?_, rfl, rfl⟩
  have hday : "0000010".toList[(day % 7).toNat]? = some '1' := hopen
  have hlt : (day % 7).toNat < 7 := by omega
  have hall : ∀ n < 7, "0000010".toList[n]? = some '1' → n = 5 := by decide +kernel
  have := hall _ hlt hday
  omega

/-- Nothing in the table lets the change run on a Thursday at 11:00. -/
theorem thursday_closed : ¬Allowed noZones saturdays (thursday 11) := by
  have hnow : thursday 11 = 63926449200000000 := by decide +kernel
  have hgrace : missedGrace = 90000000 := by decide +kernel
  have hfar : ∀ start close : ℕ, Occurrence noZones saturdays start close →
      start ≤ 63926449200000000 → close + 90000000 < 63926449200000000 := by
    intro start close hocc hstart
    obtain ⟨day, hday, hs, hc⟩ := saturdays_occurrence hocc
    omega
  unfold Allowed
  rw [hnow, hgrace]
  rintro (⟨start, close, hocc, hstart, hclose⟩ | ⟨start, close, hocc, hclose, hlate⟩)
  · have hend := hfar start close hocc hstart
    exact absurd (Nat.lt_trans hclose (Nat.lt_of_add_right_lt hend)) (Nat.lt_irrefl _)
  · obtain ⟨day, hday, hs, hc⟩ := saturdays_occurrence hocc
    have hstart : start ≤ close := Nat.le.intro hc.symm
    exact absurd (Nat.lt_of_lt_of_le (hfar start close hocc (hstart.trans hclose)) hlate)
      (Nat.lt_irrefl _)

/-- A change booked into the window runs outside it once its owner asks for it to run now. -/
theorem rescheduled_outside :
    ¬∀ (lib : TimeLibrary) (W : ChangeWindow) (g : String) (s : State), s.Fresh →
      ∀ events, (calendar lib W g).Always
        (fun t => ∀ claim ∈ t.claims, Allowed lib W claim.2) s events := by
  intro h
  have hrun := h noZones saturdays "prod" sampleStart ⟨rfl, rfl⟩ ranEarly
  have hclaims : ((calendar noZones saturdays "prod").exec sampleStart ranEarly).map
      State.claims = some [("j", thursday 11)] := by decide +kernel
  obtain ⟨t, ht, hclaims⟩ := Option.map_eq_some_iff.mp hclaims
  have hall := (calendar noZones saturdays "prod").always_exec hrun ht
  exact thursday_closed (hall ("j", thursday 11) (hclaims ▸ List.mem_singleton_self _))

/-- The change that is left where it was booked runs inside the window. -/
theorem changed_on_saturday :
    (calendar noZones saturdays "prod").Always
      (fun t => ∀ claim ∈ t.claims, Allowed noZones saturdays claim.2) sampleStart
      [booked, .sweep (saturday 1), .claim (saturday 3) .worker ["ec2_deploy"]] := by
  refine changed_inside_window noZones saturdays "prod" ⟨rfl, rfl⟩ fun s₁ h₁ => ⟨?_, ?_⟩
  · exact timely_named sampleStart (by decide +kernel) rfl (by decide)
  · refine fun s₂ h₂ => ⟨trivial, fun s₃ h₃ => ⟨fun job hjob _ => ?_, trivial⟩⟩
    have hexec : (calendar noZones saturdays "prod").exec sampleStart
        [booked, .sweep (saturday 1)] = some s₂ := by
      rw [System.exec_cons, Option.mem_def.mp h₁, Option.bind_some, System.exec_cons,
        Option.mem_def.mp h₂]
      rfl
    have hall : ((calendar noZones saturdays "prod").exec sampleStart
        [booked, .sweep (saturday 1)]).all fun s =>
          (Jobs.claimCandidate s.jobs .worker ["ec2_deploy"] (saturday 3)).all fun job =>
            !isMissed (saturday 3) job := by decide +kernel
    rw [hexec, Option.all_some, hjob, Option.all_some] at hall
    simpa using hall

end Windows
