import VmDashboard.Machine.System
import VmDashboard.Machine.Table
import VmDashboard.VmNames.Claims

/-!
# Deployed names are unique

A request runs the check of its names and creates its jobs afterwards, one transaction a job; a
single deploy creates its job with no check. Between any two of these steps the jobs of other
requests are created, run, fail, are cancelled, reconciled or destroyed. A deploy occupies its name
while its VM exists or may still be created; the check sees the jobs by their status.
-/

namespace VmNames
open Machine (Table System)
open Jobs (Job JobRequest RetryConfig Status createJob setRunning setCompleted setFailed setCancelled)
open Python (CaseFolding Dict Instant Json asciiFolding minutes)
open Suspend (field)

/-- How far the runner of a deploy job has come. -/
inductive Runner
  | waiting | started | launched | over
  deriving DecidableEq

/-- A deploy job and the name of its VM while the VM exists. -/
structure Deploy where
  job : DeployJob
  runner : Runner
  vm : Option String

def Deploy.id (d : Deploy) : String := d.job.id

/-- A request whose check has passed, with the names it has yet to create. -/
structure Request where
  id : String
  provider : Provider
  names : List String

structure State where
  deploys : Table Deploy.id
  requests : Table Request.id

def State.start : State := ⟨Table.empty, Table.empty⟩

def State.jobs (s : State) : List DeployJob := s.deploys.rows.map Deploy.job

/-! ### Creating the jobs -/

/-- The metadata field the routes of a provider write the name in. -/
def nameField : Provider → String
  | .azure => "vm_name"
  | _ => "instance_name"

/-- The GCP and OCI routes call `set_cloud_resource_id` with the name. -/
def resourceAtCreation (provider : Provider) (name : String) : Option String :=
  if validatesNames provider then some name else none

def newDeploy (provider : Provider) (name id user : String) (batchId : Option String)
    (now : Instant) (expiry : Option Instant) : Deploy where
  job :=
    { createJob id now expiry {
        jobType := provider.jobType
        createdBy := user
        batchId
        -- a child of a batch is driven by its parent and not claimed
        status := if batchId.isSome then .queued else .pending
        metadata := [(nameField provider, .str name)] } with
      cloudResourceId := resourceAtCreation provider name }
  runner := .waiting
  vm := none

def Request.created (r : Request) : Request := { r with names := r.names.tail }

/-! ### The runs -/

/-- The parent of a batch runs every child, whatever its status; a single job is claimed. -/
def Deploy.startable (d : Deploy) : Bool := d.job.batchId.isSome || d.job.status = .pending

def Deploy.withJob (d : Deploy) (f : Job → Job) : Deploy :=
  { d with job := { d.job with toJob := f d.job.toJob } }

def Deploy.begin (now : Instant) (d : Deploy) : Deploy :=
  { d.withJob (setRunning now) with runner := .started }

/-- The cloud creates the VM, and `set_cloud_resource_id` records the id the runner got for it. -/
def Deploy.launch (resource : Option String) (d : Deploy) : Deploy :=
  { job := { d.job with cloudResourceId := resource.or d.job.cloudResourceId }
    runner := .launched
    vm := some (nameOf d.job.toJob) }

def Deploy.complete (now : Instant) (result : Dict) (d : Deploy) : Deploy :=
  { d.withJob (setCompleted now result) with runner := .over }

/-- A deploy is never retried, so its run is over. -/
def Deploy.fail (config : RetryConfig) (now : Instant) (error : String) (result : Dict)
    (d : Deploy) : Deploy :=
  { d.withJob (setFailed config now error result) with runner := .over }

def Deploy.cancel (now : Instant) (d : Deploy) : Deploy := d.withJob (setCancelled now)

def lastSeen (job : Job) : Instant := (job.updatedAt.or job.startedAt).getD job.createdAt

def interrupted : String := "Interrupted by an app restart (no heartbeat) — re-run if needed."

/-- One row of `reconcile_stale_jobs`. -/
def reconcileJob (now : Instant) (staleAfter : ℕ) (job : Job) : Job :=
  if job.status = .running ∧ lastSeen job ≤ now - minutes staleAfter then
    { job with
      status := .failed
      completedAt := some now
      updatedAt := some now
      errorMessage := some interrupted }
  else job

def Deploy.reconcile (now : Instant) (staleAfter : ℕ) (d : Deploy) : Deploy :=
  d.withJob (reconcileJob now staleAfter)

def Deploy.terminate (d : Deploy) : Deploy := { d with vm := none }

/-- The GCP and OCI runners write the mark through `set_completed`. -/
def markDestroyed (now : Instant) (job : Job) : Job :=
  if job.jobType = Provider.gcp.jobType ∨ job.jobType = Provider.oci.jobType then
    setCompleted now [("destroyed", .bool true)] job
  else { job with metadata := job.metadata.update [("destroyed", .bool true)] }

def Deploy.destroy (now : Instant) (d : Deploy) : Deploy := d.withJob (markDestroyed now)

/-- What a runner reports names the VM as its job does and does not mark it destroyed. -/
def keepsName (result : Dict) (job : Job) : Bool :=
  decide (metadataName { job with metadata := job.metadata.update result } = metadataName job) &&
    decide (field (job.metadata.update result) "destroyed" = field job.metadata "destroyed")

inductive Event
  | check (request : String) (provider : Provider) (form : Form)
  | create (request id user : String) (now : Instant) (expiry : Option Instant)
  | drop (request : String)
  | single (provider : Provider) (name id user : String) (now : Instant) (expiry : Option Instant)
  | start (id : String) (now : Instant)
  | launch (id : String) (resource : Option String)
  | complete (id : String) (now : Instant) (result : Dict)
  | fail (id : String) (config : RetryConfig) (now : Instant) (error : String) (result : Dict)
  | cancel (id : String) (now : Instant)
  | reconcile (now : Instant) (staleAfter : ℕ)
  | terminate (id : String)
  | destroy (id : String) (now : Instant)

/-- `f` on the deploy `id` when it meets the guard. -/
def State.update (s : State) (id : String) (guard : Deploy → Bool) (f : Deploy → Deploy)
    (hf : ∀ d, (f d).id = d.id) : Option State :=
  match s.deploys.lookup id with
  | some d => if guard d then some { s with deploys := s.deploys.modify id f hf } else none
  | none => none

theorem deploy_not_retried {provider : Provider} {job : Job} (h : job.jobType = provider.jobType)
    (config : RetryConfig) (error : String) : Jobs.retries config error job = false := by
  have htypes : ∀ p : Provider, p.jobType ∉ Jobs.RetryPolicy.retryableTypes := by
    rintro ⟨⟩ <;> decide
  cases hretry : Jobs.retries config error job with
  | false => rfl
  | true =>
    have htype := Jobs.RetryPolicy.shouldRetry_type (Bool.and_eq_true_iff.mp hretry).2
    rw [h] at htype
    exact absurd htype (htypes provider)

theorem fail_id (config : RetryConfig) (now : Instant) (error : String) (result : Dict)
    (d : Deploy) : (d.fail config now error result).id = d.id :=
  (Jobs.setFailed_same config now error result d.job.toJob).id

theorem cancel_id (now : Instant) (d : Deploy) : (d.cancel now).id = d.id :=
  (Jobs.setCancelled_same now d.job.toJob).id

theorem reconcile_id (now : Instant) (staleAfter : ℕ) (d : Deploy) :
    (d.reconcile now staleAfter).id = d.id := by
  change (reconcileJob now staleAfter d.job.toJob).id = d.job.id
  unfold reconcileJob
  split <;> rfl

theorem destroy_id (now : Instant) (d : Deploy) : (d.destroy now).id = d.id := by
  change (markDestroyed now d.job.toJob).id = d.job.id
  unfold markDestroyed
  split <;> rfl

section System
variable (F : CaseFolding)

def State.step (s : State) : Event → Option State
  | .check request provider form =>
    -- a count of 1 is a single deploy
    if form.single then none
    else
      match admittedNames F s.jobs provider form with
      | .error _ => some s
      | .ok names => (s.requests.insert ⟨request, provider, names⟩).map fun requests =>
          { s with requests }
  | .create request id user now expiry =>
    match s.requests.lookup request with
    | some ⟨_, provider, name :: _⟩ =>
      (s.deploys.insert (newDeploy provider name id user (some request) now expiry)).map fun deploys =>
        { deploys, requests := s.requests.modify request Request.created fun _ => rfl }
    | _ => none
  | .drop request => some { s with requests := s.requests.erase request }
  | .single provider name id user now expiry =>
    (s.deploys.insert (newDeploy provider name id user none now expiry)).map fun deploys =>
      { s with deploys }
  | .start id now =>
    s.update id (fun d => d.runner = .waiting && d.startable) (Deploy.begin now) fun _ => rfl
  | .launch id resource =>
    s.update id (fun d => d.runner = .started) (Deploy.launch resource) fun _ => rfl
  | .complete id now result =>
    s.update id (fun d => d.runner = .launched && keepsName result d.job.toJob)
      (Deploy.complete now result) fun _ => rfl
  | .fail id config now error result =>
    s.update id (fun d => d.runner ≠ .over && keepsName result d.job.toJob)
      (Deploy.fail config now error result) (fail_id config now error result)
  | .cancel id now => s.update id (fun _ => true) (Deploy.cancel now) (cancel_id now)
  | .reconcile now staleAfter =>
    some { s with
      deploys := s.deploys.map (Deploy.reconcile now staleAfter) (reconcile_id now staleAfter) }
  | .terminate id => s.update id (fun _ => true) Deploy.terminate fun _ => rfl
  | .destroy id now =>
    -- the row is marked once its VM is gone
    s.update id (fun d => d.runner = .over && d.vm.isNone) (Deploy.destroy now) (destroy_id now)

def namesSystem : System State Event := ⟨State.step F⟩

/-- Two VMs that exist have one name up to case. -/
def sameName : Option String → Option String → Bool
  | some a, some b => F.casefold a = F.casefold b
  | _, _ => false

def State.Unique (s : State) : Prop :=
  ∀ d ∈ s.deploys.rows, ∀ d' ∈ s.deploys.rows,
    d.job.jobType = d'.job.jobType → sameName F d.vm d'.vm = true → d.id = d'.id

/-! ### What the check does not see -/

def Deploy.mayLaunch (d : Deploy) : Bool :=
  match d.runner with
  | .waiting => d.startable
  | .started => true
  | _ => false

/-- The VM exists or may still be created. -/
def Deploy.occupies (d : Deploy) : Bool := d.vm.isSome || d.mayLaunch

def Deploy.key (d : Deploy) : String := nameKey F (nameOf d.job.toJob)

/-- No name is blank, asked for by a request that has yet to create its jobs, or occupied by a deploy
that has been failed or cancelled. -/
def State.Free (s : State) (provider : Provider) (names : List String) : Prop :=
  ∀ n ∈ names, nameKey F n ≠ "" ∧
    (∀ r ∈ s.requests.rows, r.provider = provider → ∀ m ∈ r.names, nameKey F m ≠ nameKey F n) ∧
    ∀ d ∈ s.deploys.rows, d.job.jobType = provider.jobType → nameHolding d.job.status = false →
      d.occupies = true → d.key F ≠ nameKey F n

def State.FreeIfAdmitted (s : State) (provider : Provider) : Except Refusal (List String) → Prop
  | .error _ => True
  | .ok names => s.Free F provider names

/-- A request that passes the check asks for names that nothing the check does not see has taken, and
a single deploy for a name that passes the check. -/
def Careful (s : State) : Event → Prop
  | .check _ provider form => s.FreeIfAdmitted F provider (admittedNames F s.jobs provider form)
  | .single provider name _ _ _ _ =>
    s.Free F provider [name] ∧ rejectNameCollisions F s.jobs provider.jobType [name] = .ok ()
  | _ => True

/-! ### The invariant -/

structure Sound (d : Deploy) : Prop where
  named : d.key F ≠ ""
  kept : (field d.job.metadata "destroyed").truthy = false
  vm : ∀ n, d.vm = some n → n = nameOf d.job.toJob

structure Inv (s : State) : Prop where
  sound : ∀ d ∈ s.deploys.rows, d.occupies = true → Sound F d
  distinct : ∀ d ∈ s.deploys.rows, ∀ d' ∈ s.deploys.rows, d.occupies = true → d'.occupies = true →
    d.job.jobType = d'.job.jobType → d.key F = d'.key F → d.id = d'.id
  named : ∀ r ∈ s.requests.rows, ∀ n ∈ r.names, nameKey F n ≠ ""
  nodup : ∀ r ∈ s.requests.rows, (r.names.map (nameKey F)).Nodup
  apart : ∀ r ∈ s.requests.rows, ∀ r' ∈ s.requests.rows, r.provider = r'.provider →
    ∀ n ∈ r.names, ∀ n' ∈ r'.names, nameKey F n = nameKey F n' → r.id = r'.id
  free : ∀ r ∈ s.requests.rows, ∀ d ∈ s.deploys.rows, d.occupies = true →
    d.job.jobType = r.provider.jobType → ∀ n ∈ r.names, nameKey F n ≠ d.key F

end System

/-! ### Steps that take no name -/

variable {F : CaseFolding}

/-- What a deploy that occupies its name was before the step. -/
structure Continues (after before : Deploy) : Prop where
  occupies : before.occupies = true
  jobType : after.job.jobType = before.job.jobType
  name : nameOf after.job.toJob = nameOf before.job.toJob
  destroyed : field after.job.metadata "destroyed" = field before.job.metadata "destroyed"
  vm : ∀ n, after.vm = some n → before.vm = some n ∨ n = nameOf before.job.toJob

structure Within (after before : Deploy) : Prop where
  id : after.id = before.id
  continues : after.occupies = true → Continues after before

theorem Within.refl (d : Deploy) : Within d d :=
  ⟨rfl, fun h => ⟨h, rfl, rfl, rfl, fun _ hn => .inl hn⟩⟩

structure Request.Within (after before : Request) : Prop where
  id : after.id = before.id
  provider : after.provider = before.provider
  names : after.names.Sublist before.names

theorem inv_of_within {s t : State} (hinv : Inv F s)
    (hdeploys : ∀ d' ∈ t.deploys.rows, ∃ d ∈ s.deploys.rows, Within d' d)
    (hrequests : ∀ r' ∈ t.requests.rows, ∃ r ∈ s.requests.rows, r'.Within r) : Inv F t := by
  have hkey {d' d : Deploy} (h : Continues d' d) : d'.key F = d.key F :=
    congrArg (nameKey F) h.name
  constructor
  · intro d' hd' hocc
    obtain ⟨d, hd, hwithin⟩ := hdeploys d' hd'
    have hcont := hwithin.continues hocc
    have hsound := hinv.sound d hd hcont.occupies
    refine ⟨?_, ?_, fun n hn => ?_⟩
    · rw [hkey hcont]
      exact hsound.named
    · rw [hcont.destroyed]
      exact hsound.kept
    · rw [hcont.name]
      rcases hcont.vm n hn with hold | hnew
      · exact hsound.vm n hold
      · exact hnew
  · intro a' ha' b' hb' hocc hocc' htype heq
    obtain ⟨a, ha, ha''⟩ := hdeploys a' ha'
    obtain ⟨b, hb, hb''⟩ := hdeploys b' hb'
    have hcont := ha''.continues hocc
    have hcont' := hb''.continues hocc'
    rw [ha''.id, hb''.id]
    refine hinv.distinct a ha b hb hcont.occupies hcont'.occupies ?_ ?_
    · rw [← hcont.jobType, ← hcont'.jobType, htype]
    · rw [← hkey hcont, ← hkey hcont', heq]
  · intro r' hr' n hn
    obtain ⟨r, hr, hwithin⟩ := hrequests r' hr'
    exact hinv.named r hr n (hwithin.names.mem hn)
  · intro r' hr'
    obtain ⟨r, hr, hwithin⟩ := hrequests r' hr'
    exact (hinv.nodup r hr).sublist (hwithin.names.map _)
  · intro a' ha' b' hb' hprovider n hn n' hn' heq
    obtain ⟨a, ha, hwithin⟩ := hrequests a' ha'
    obtain ⟨b, hb, hwithin'⟩ := hrequests b' hb'
    rw [hwithin.id, hwithin'.id]
    refine hinv.apart a ha b hb ?_ n (hwithin.names.mem hn) n' (hwithin'.names.mem hn') heq
    rw [← hwithin.provider, ← hwithin'.provider, hprovider]
  · intro r' hr' d' hd' hocc htype n hn
    obtain ⟨r, hr, hwithin⟩ := hrequests r' hr'
    obtain ⟨d, hd, hd''⟩ := hdeploys d' hd'
    have hcont := hd''.continues hocc
    rw [hkey hcont]
    refine hinv.free r hr d hd hcont.occupies ?_ n (hwithin.names.mem hn)
    rw [← hcont.jobType, htype, hwithin.provider]

theorem Request.Within.refl (r : Request) : r.Within r := ⟨rfl, rfl, List.Sublist.refl _⟩

theorem inv_update {s t : State} {id : String} {guard : Deploy → Bool} {f : Deploy → Deploy}
    {hf : ∀ d, (f d).id = d.id} (hinv : Inv F s)
    (hwithin : ∀ d, guard d = true → Within (f d) d)
    (h : s.update id guard f hf = some t) : Inv F t := by
  unfold State.update at h
  split at h
  next d hlookup =>
    split at h
    next hguard =>
      obtain rfl := Option.some.inj h
      refine inv_of_within hinv (fun d' hd' => ?_) fun r hr => ⟨r, hr, .refl r⟩
      rcases Table.of_modify_mem hf hd' with ⟨d₀, hd₀, hid, rfl⟩ | ⟨hd', -⟩
      · have hsame : d₀ = d :=
          Table.eq_of_key hd₀ (Table.lookup_eq_some.mp hlookup).1
            (hid.trans (Table.lookup_key hlookup).symm)
        exact ⟨d₀, hd₀, hwithin d₀ (hsame ▸ hguard)⟩
      · exact ⟨d', hd', .refl d'⟩
    next => cases h
  next => cases h

/-! ### One lemma a setter -/

theorem occupies_iff {d : Deploy} :
    d.occupies = true ↔ d.vm.isSome = true ∨ d.mayLaunch = true := Bool.or_eq_true_iff

/-- A setter that writes the status alone lets nothing be launched that could not be before. -/
theorem within_withJob {d : Deploy} {f : Job → Job} (hsame : (f d.job.toJob).Same d.job.toJob)
    (hbatch : (f d.job.toJob).batchId = d.job.batchId)
    (hmeta : (f d.job.toJob).metadata = d.job.metadata)
    (hpending : (f d.job.toJob).status = .pending → d.job.status = .pending) :
    Within (d.withJob f) d := by
  refine ⟨hsame.id, fun hocc => ⟨?_, hsame.jobType, ?_, ?_, fun n hn => .inl hn⟩⟩
  · rcases occupies_iff.mp hocc with hvm | hmay
    · exact occupies_iff.mpr (.inl hvm)
    · refine occupies_iff.mpr (.inr ?_)
      have hrunner : (d.withJob f).runner = d.runner := rfl
      unfold Deploy.mayLaunch at hmay ⊢
      rw [hrunner] at hmay
      cases hphase : d.runner with
      | waiting =>
        rw [hphase] at hmay
        refine Bool.or_eq_true_iff.mpr ?_
        rcases Bool.or_eq_true_iff.mp hmay with hparent | hclaim
        · exact .inl ((congrArg Option.isSome hbatch).symm.trans hparent)
        · exact .inr (decide_eq_true (hpending (of_decide_eq_true hclaim)))
      | started => rfl
      | _ =>
        rw [hphase] at hmay
        cases hmay
  · have hjob : (d.withJob f).job.metadata = d.job.metadata := hmeta
    unfold nameOf metadataName
    rw [hjob]
  · exact congrArg (field · "destroyed") hmeta

theorem cancel_within (now : Instant) (d : Deploy) : Within (d.cancel now) d := by
  refine within_withJob (Jobs.setCancelled_same now _) ?_ ?_ fun hpending => ?_
  · unfold setCancelled
    split <;> rfl
  · unfold setCancelled
    split <;> rfl
  · have hwaiting := Jobs.setCancelled_waiting now d.job.toJob
    rw [hpending] at hwaiting
    cases hwaiting

theorem reconcile_within (now : Instant) (staleAfter : ℕ) (d : Deploy) :
    Within (d.reconcile now staleAfter) d := by
  by_cases hstale : d.job.status = .running ∧ lastSeen d.job.toJob ≤ now - minutes staleAfter
  · have heq : d.reconcile now staleAfter = d.withJob fun job =>
        { job with
          status := .failed
          completedAt := some now
          updatedAt := some now
          errorMessage := some interrupted } := by
      unfold Deploy.reconcile Deploy.withJob reconcileJob
      rw [if_pos hstale]
    rw [heq]
    exact within_withJob ⟨rfl, rfl, rfl⟩ rfl rfl nofun
  · have heq : d.reconcile now staleAfter = d := by
      unfold Deploy.reconcile Deploy.withJob reconcileJob
      rw [if_neg hstale]
    rw [heq]
    exact .refl d

theorem begin_within {now : Instant} {d : Deploy}
    (hguard : (decide (d.runner = .waiting) && d.startable) = true) : Within (d.begin now) d := by
  obtain ⟨hwaiting, hstartable⟩ := Bool.and_eq_true_iff.mp hguard
  refine ⟨rfl, fun _ => ⟨?_, rfl, rfl, rfl, fun n hn => .inl hn⟩⟩
  refine occupies_iff.mpr (.inr ?_)
  unfold Deploy.mayLaunch
  rw [of_decide_eq_true hwaiting]
  exact hstartable

theorem launch_within {resource : Option String} {d : Deploy}
    (hguard : decide (d.runner = .started) = true) : Within (d.launch resource) d := by
  refine ⟨rfl, fun _ => ⟨?_, rfl, rfl, rfl, fun n hn => .inr (Option.some.inj hn).symm⟩⟩
  refine occupies_iff.mpr (.inr ?_)
  unfold Deploy.mayLaunch
  rw [of_decide_eq_true hguard]

/-- A runner that is over leaves the VM it has created, and nothing else. -/
theorem within_over {d after : Deploy} {result : Dict} (hover : after.runner = .over)
    (hvm : after.vm = d.vm) (hsame : after.job.toJob.Same d.job.toJob)
    (hmeta : after.job.metadata = d.job.metadata.update result)
    (hkeeps : keepsName result d.job.toJob = true) : Within after d := by
  obtain ⟨hname, hdestroyed⟩ := Bool.and_eq_true_iff.mp hkeeps
  refine ⟨hsame.id, fun hocc => ⟨?_, hsame.jobType, ?_, ?_, fun n hn => .inl (hvm ▸ hn)⟩⟩
  · rcases occupies_iff.mp hocc with hexists | hmay
    · exact occupies_iff.mpr (.inl (hvm ▸ hexists))
    · unfold Deploy.mayLaunch at hmay
      rw [hover] at hmay
      cases hmay
  · have hjob : metadataName after.job.toJob = metadataName d.job.toJob := by
      rw [← of_decide_eq_true hname]
      unfold metadataName
      rw [hmeta]
    exact congrArg (fun value => value.str?.getD "") hjob
  · rw [hmeta]
    exact of_decide_eq_true hdestroyed

theorem complete_within {now : Instant} {result : Dict} {d : Deploy}
    (hguard : (decide (d.runner = .launched) && keepsName result d.job.toJob) = true) :
    Within (d.complete now result) d :=
  within_over rfl rfl ⟨rfl, rfl, rfl⟩ rfl (Bool.and_eq_true_iff.mp hguard).2

theorem fail_within {config : RetryConfig} {now : Instant} {error : String} {result : Dict}
    {d : Deploy} (hguard : (decide (d.runner ≠ .over) && keepsName result d.job.toJob) = true) :
    Within (d.fail config now error result) d := by
  refine within_over rfl rfl (Jobs.setFailed_same config now error result _) ?_
    (Bool.and_eq_true_iff.mp hguard).2
  change (setFailed config now error result d.job.toJob).metadata = _
  unfold setFailed
  split <;> rfl

theorem terminate_within (d : Deploy) : Within d.terminate d := by
  refine ⟨rfl, fun hocc => ⟨?_, rfl, rfl, rfl, nofun⟩⟩
  rcases occupies_iff.mp hocc with hvm | hmay
  · cases hvm
  · exact occupies_iff.mpr (.inr hmay)

theorem destroy_within {now : Instant} {d : Deploy}
    (hguard : (decide (d.runner = .over) && d.vm.isNone) = true) : Within (d.destroy now) d := by
  obtain ⟨hover, hnone⟩ := Bool.and_eq_true_iff.mp hguard
  refine ⟨destroy_id now d, fun hocc => ?_⟩
  rcases occupies_iff.mp hocc with hvm | hmay
  · have hgone : (d.destroy now).vm = none := Option.isNone_iff_eq_none.mp hnone
    rw [hgone] at hvm
    cases hvm
  · have hrunner : (d.destroy now).runner = .over := of_decide_eq_true hover
    unfold Deploy.mayLaunch at hmay
    rw [hrunner] at hmay
    cases hmay

/-! ### Steps that take a name -/

theorem nameOf_newDeploy (provider : Provider) (name id user : String) (batchId : Option String)
    (now : Instant) (expiry : Option Instant) :
    nameOf (newDeploy provider name id user batchId now expiry).job.toJob = name := by
  by_cases hempty : name = ""
  · subst hempty
    cases provider <;> rfl
  · have hself : Python.orElse (.str name) .null = .str name := if_pos (decide_eq_true hempty)
    cases provider with
    | azure =>
      change (Python.orElse (.str name) .null).str?.getD "" = name
      rw [hself]
      rfl
    | _ =>
      change (Python.orElse (Python.orElse (.str name) .null) .null).str?.getD "" = name
      rw [hself, hself]
      rfl

theorem inv_insert {s : State} {u : Table Deploy.id} {d : Deploy} (hinv : Inv F s)
    (hsound : Sound F d)
    (hnew : ∀ d' ∈ s.deploys.rows, d'.occupies = true → d'.job.jobType = d.job.jobType →
      d'.key F ≠ d.key F)
    (hfree : ∀ r ∈ s.requests.rows, d.job.jobType = r.provider.jobType →
      ∀ n ∈ r.names, nameKey F n ≠ d.key F)
    (h : s.deploys.insert d = some u) : Inv F { s with deploys := u } := by
  have hmem : ∀ d' ∈ u.rows, d' ∈ s.deploys.rows ∨ d' = d := fun d' hd' =>
    (Table.mem_insert h).mp hd'
  constructor
  · intro d' hd' hocc
    rcases hmem d' hd' with hold | rfl
    · exact hinv.sound d' hold hocc
    · exact hsound
  · intro a ha b hb hocc hocc' htype heq
    rcases hmem a ha with hold | rfl
    · rcases hmem b hb with hold' | rfl
      · exact hinv.distinct a hold b hold' hocc hocc' htype heq
      · exact absurd heq (hnew a hold hocc htype)
    · rcases hmem b hb with hold' | rfl
      · exact absurd heq.symm (hnew b hold' hocc' htype.symm)
      · rfl
  · exact hinv.named
  · exact hinv.nodup
  · exact hinv.apart
  · intro r hr d' hd' hocc htype n hn
    rcases hmem d' hd' with hold | rfl
    · exact hinv.free r hr d' hold hocc htype n hn
    · exact hfree r hr htype n hn

theorem sound_newDeploy {provider : Provider} {name id user : String} {batchId : Option String}
    {now : Instant} {expiry : Option Instant} (hname : nameKey F name ≠ "") :
    Sound F (newDeploy provider name id user batchId now expiry) := by
  refine ⟨?_, ?_, nofun⟩
  · unfold Deploy.key
    rwa [nameOf_newDeploy]
  · cases provider <;> rfl

theorem jobType_injective {p q : Provider} (h : p.jobType = q.jobType) : p = q := by
  revert h
  cases p <;> cases q <;> decide

theorem inv_create {s : State} {u : Table Deploy.id} {request id user name : String}
    {provider : Provider} {names : List String} {now : Instant} {expiry : Option Instant}
    (hinv : Inv F s) (hlookup : s.requests.lookup request = some ⟨request, provider, name :: names⟩)
    (h : s.deploys.insert (newDeploy provider name id user (some request) now expiry) = some u) :
    Inv F ⟨u, s.requests.modify request Request.created fun _ => rfl⟩ := by
  obtain ⟨hr, -⟩ := Table.lookup_eq_some.mp hlookup
  have hcreated : ∀ r' ∈ (s.requests.modify request Request.created fun _ => rfl).rows,
      (∃ r ∈ s.requests.rows, r'.Within r) ∧
        (r' = ⟨request, provider, names⟩ ∨ r' ∈ s.requests.rows ∧ r'.id ≠ request) := by
    intro r' hr'
    rcases Table.of_modify_mem _ hr' with ⟨r, hr₀, hid, rfl⟩ | ⟨hr₀, hne⟩
    · have hsame : r = ⟨request, provider, name :: names⟩ := Table.eq_of_key hr₀ hr hid
      exact ⟨⟨r, hr₀, rfl, rfl, List.tail_sublist _⟩, .inl (congrArg Request.created hsame)⟩
    · exact ⟨⟨r', hr₀, .refl r'⟩, .inr ⟨hr₀, hne⟩⟩
  have hmid : Inv F ⟨s.deploys, s.requests.modify request Request.created fun _ => rfl⟩ :=
    inv_of_within hinv (fun d hd => ⟨d, hd, .refl d⟩) fun r' hr' => (hcreated r' hr').1
  have hkey : (newDeploy provider name id user (some request) now expiry).key F = nameKey F name :=
    congrArg (nameKey F) (nameOf_newDeploy ..)
  refine inv_insert hmid (sound_newDeploy (hinv.named _ hr name List.mem_cons_self)) ?_ ?_ h
  · intro d hd hocc htype heq
    rw [hkey] at heq
    exact hinv.free _ hr d hd hocc htype name List.mem_cons_self heq.symm
  · intro r hr' htype n hn heq
    rw [hkey] at heq
    rcases (hcreated r hr').2 with rfl | ⟨hr₀, hne⟩
    · obtain ⟨hhead, -⟩ := List.nodup_cons.mp (hinv.nodup _ hr)
      exact hhead (List.mem_map.mpr ⟨n, hn, heq⟩)
    · exact hne (hinv.apart r hr₀ _ hr (jobType_injective htype).symm n hn name
        List.mem_cons_self heq)

/-- A name that passes the check and is free of what the check does not see is occupied by no deploy. -/
theorem key_ne_of_admitted {s : State} {provider : Provider} {names : List String} (hinv : Inv F s)
    (hfree : s.Free F provider names)
    (hok : rejectNameCollisions F s.jobs provider.jobType names = .ok ()) {d : Deploy}
    (hd : d ∈ s.deploys.rows) (hocc : d.occupies = true) (htype : d.job.jobType = provider.jobType) :
    ∀ n ∈ names, nameKey F n ≠ d.key F := by
  intro n hn
  have hsound := hinv.sound d hd hocc
  cases hholds : nameHolding d.job.status with
  | false => exact ((hfree n hn).2.2 d hd htype hholds hocc).symm
  | true =>
    exact (of_rejectNameCollisions hok).2 d.job (List.mem_map_of_mem hd) htype hholds hsound.kept
      hsound.named n hn

theorem inv_check {s : State} {u : Table Request.id} {request : String} {provider : Provider}
    {names : List String} (hinv : Inv F s) (hfree : s.Free F provider names)
    (hok : rejectNameCollisions F s.jobs provider.jobType names = .ok ())
    (h : s.requests.insert ⟨request, provider, names⟩ = some u) :
    Inv F { s with requests := u } := by
  have hmem : ∀ r ∈ u.rows, r ∈ s.requests.rows ∨ r = ⟨request, provider, names⟩ := fun r hr =>
    (Table.mem_insert h).mp hr
  have hnamed : ∀ n ∈ names, nameKey F n ≠ "" := fun n hn => (hfree n hn).1
  refine ⟨hinv.sound, hinv.distinct, fun r hr n hn => ?_, fun r hr => ?_, ?_, ?_⟩
  · rcases hmem r hr with hold | rfl
    · exact hinv.named r hold n hn
    · exact hnamed n hn
  · rcases hmem r hr with hold | rfl
    · exact hinv.nodup r hold
    · exact (duplicates_eq_nil_iff hnamed).mp (of_rejectNameCollisions hok).1
  · intro a ha b hb hprovider n hn n' hn' heq
    rcases hmem a ha with hold | rfl
    · rcases hmem b hb with hold' | rfl
      · exact hinv.apart a hold b hold' hprovider n hn n' hn' heq
      · exact absurd heq ((hfree n' hn').2.1 a hold hprovider n hn)
    · rcases hmem b hb with hold' | rfl
      · exact absurd heq.symm ((hfree n hn).2.1 b hold' hprovider.symm n' hn')
      · rfl
  · intro r hr d hd hocc htype n hn
    rcases hmem r hr with hold | rfl
    · exact hinv.free r hold d hd hocc htype n hn
    · exact key_ne_of_admitted hinv hfree hok hd hocc htype n hn

theorem inv_single {s : State} {u : Table Deploy.id} {provider : Provider} {name id user : String}
    {now : Instant} {expiry : Option Instant} (hinv : Inv F s) (hfree : s.Free F provider [name])
    (hok : rejectNameCollisions F s.jobs provider.jobType [name] = .ok ())
    (h : s.deploys.insert (newDeploy provider name id user none now expiry) = some u) :
    Inv F { s with deploys := u } := by
  obtain ⟨hname, hasked, -⟩ := hfree name List.mem_cons_self
  have hkey : (newDeploy provider name id user none now expiry).key F = nameKey F name :=
    congrArg (nameKey F) (nameOf_newDeploy ..)
  refine inv_insert hinv (sound_newDeploy hname) (fun d hd hocc htype => ?_)
    (fun r hr htype n hn => ?_) h
  · rw [hkey]
    exact (key_ne_of_admitted hinv hfree hok hd hocc htype name List.mem_cons_self).symm
  · rw [hkey]
    exact hasked r hr (jobType_injective htype).symm n hn

theorem step_inv {s t : State} {event : Event} (hinv : Inv F s) (hcareful : Careful F s event)
    (hstep : s.step F event = some t) : Inv F t := by
  cases event with
  | check request provider form =>
    unfold State.step at hstep
    unfold Careful at hcareful
    simp only at hstep hcareful
    split at hstep
    · cases hstep
    split at hstep
    next =>
      obtain rfl := Option.some.inj hstep
      exact hinv
    next names hadmitted =>
      rw [hadmitted] at hcareful
      obtain ⟨u, hinsert, rfl⟩ := Option.map_eq_some_iff.mp hstep
      obtain ⟨asked, -, hadmitted⟩ := Machine.bind_eq_ok hadmitted
      obtain ⟨⟨⟩, hok, hadmitted⟩ := Machine.bind_eq_ok hadmitted
      obtain rfl := Except.ok.inj hadmitted
      exact inv_check hinv hcareful hok hinsert
  | create request id user now expiry =>
    unfold State.step at hstep
    simp only at hstep
    split at hstep
    next key provider name names hlookup =>
      obtain rfl : key = request := Table.lookup_key hlookup
      obtain ⟨u, hinsert, rfl⟩ := Option.map_eq_some_iff.mp hstep
      exact inv_create hinv hlookup hinsert
    next => cases hstep
  | drop request =>
    obtain rfl := Option.some.inj hstep
    refine inv_of_within hinv (fun d hd => ⟨d, hd, .refl d⟩) fun r hr => ?_
    exact ⟨r, (Table.mem_erase.mp hr).1, .refl r⟩
  | single provider name id user now expiry =>
    obtain ⟨u, hinsert, rfl⟩ := Option.map_eq_some_iff.mp hstep
    exact inv_single hinv hcareful.1 hcareful.2 hinsert
  | start id now => exact inv_update hinv (fun _ hguard => begin_within hguard) hstep
  | launch id resource => exact inv_update hinv (fun _ hguard => launch_within hguard) hstep
  | complete id now result => exact inv_update hinv (fun _ hguard => complete_within hguard) hstep
  | fail id config now error result =>
    exact inv_update hinv (fun _ hguard => fail_within hguard) hstep
  | cancel id now => exact inv_update hinv (fun d _ => cancel_within now d) hstep
  | reconcile now staleAfter =>
    obtain rfl := Option.some.inj hstep
    refine inv_of_within hinv (fun d' hd' => ?_) fun r hr => ⟨r, hr, .refl r⟩
    obtain ⟨d, hd, rfl⟩ := List.mem_map.mp hd'
    exact ⟨d, hd, reconcile_within now staleAfter d⟩
  | terminate id => exact inv_update hinv (fun d _ => terminate_within d) hstep
  | destroy id now => exact inv_update hinv (fun _ hguard => destroy_within hguard) hstep

theorem inv_start : Inv F .start :=
  ⟨List.forall_mem_nil _, List.forall_mem_nil _, List.forall_mem_nil _, List.forall_mem_nil _,
    List.forall_mem_nil _, List.forall_mem_nil _⟩

theorem Inv.unique {s : State} (hinv : Inv F s) : s.Unique F := by
  intro d hd d' hd' htype hsame
  cases hvm : d.vm with
  | none =>
    rw [hvm] at hsame
    cases hsame
  | some a =>
    cases hvm' : d'.vm with
    | none =>
      rw [hvm, hvm'] at hsame
      cases hsame
    | some b =>
      rw [hvm, hvm'] at hsame
      have hocc : d.occupies = true := occupies_iff.mpr (.inl (by rw [hvm]; rfl))
      have hocc' : d'.occupies = true := occupies_iff.mpr (.inl (by rw [hvm']; rfl))
      have hkey := nameKey_of_casefold (of_decide_eq_true hsame)
      rw [(hinv.sound d hd hocc).vm a hvm, (hinv.sound d' hd' hocc').vm b hvm'] at hkey
      exact hinv.distinct d hd d' hd' hocc hocc' htype hkey

/-- In a run whose requests are careful no two VMs that exist have one name up to case. The names of
one counted deploy differ up to case, fit in the provider's limit and are labels on GCP. -/
theorem deployed_names_unique :
    (∀ events, (namesSystem F).Along (Careful F) .start events →
        (namesSystem F).Always (State.Unique F) .start events) ∧
      ∀ (provider : Provider) (base : String) (count : ℤ) (names : List String), 1 < count →
        expand base count provider = .ok names →
          (names.map (nameKey F)).Nodup ∧ (∀ name ∈ names, name.length ≤ nameLimit provider) ∧
            (provider = .gcp → ∀ name ∈ names, isLabel name.toList = true) := by
  refine ⟨fun events h => ?_, fun provider base count names hmany hexpand => ?_⟩
  · exact (namesSystem F).always_mono (fun _ hinv => hinv.unique)
      ((namesSystem F).always_of_along (fun _ _ _ => step_inv) inv_start h)
  · have hseries := expand_eq_ok hexpand hmany
    refine ⟨hseries.keys_nodup, hseries.length_le, ?_⟩
    rintro rfl
    exact hseries.isLabel

/-! ### Concrete runs -/

instance (s : State) : Decidable (s.Unique F) :=
  inferInstanceAs (Decidable (∀ d ∈ s.deploys.rows, ∀ d' ∈ s.deploys.rows, _ → _ → _))

instance (s : State) (provider : Provider) (names : List String) :
    Decidable (s.Free F provider names) :=
  inferInstanceAs (Decidable (∀ n ∈ names, _ ∧ (∀ r ∈ s.requests.rows, _ → ∀ m ∈ r.names, _) ∧
    ∀ d ∈ s.deploys.rows, _ → _ → _ → _))

instance (s : State) (provider : Provider) :
    (admitted : Except Refusal (List String)) → Decidable (s.FreeIfAdmitted F provider admitted)
  | .error _ => isTrue trivial
  | .ok names => inferInstanceAs (Decidable (s.Free F provider names))

instance (s : State) : (event : Event) → Decidable (Careful F s event)
  | .check _ provider form =>
    inferInstanceAs (Decidable (s.FreeIfAdmitted F provider (admittedNames F s.jobs provider form)))
  | .single provider name _ _ _ _ =>
    inferInstanceAs (Decidable (s.Free F provider [name] ∧
      rejectNameCollisions F s.jobs provider.jobType [name] = .ok ()))
  | .create .. | .drop _ | .start .. | .launch .. | .complete .. | .fail .. | .cancel .. | .reconcile ..
  | .terminate _ | .destroy .. => isTrue trivial

/-- A pair is deployed, its first VM destroyed and its name deployed again. -/
def redeployed : List Event :=
  [.check "r1" .aws (.counted "web" 2), .create "r1" "j1" "alice" 0 none,
    .create "r1" "j2" "alice" 0 none, .start "j1" 1, .launch "j1" (some "i-1"),
    .complete "j1" 2 [("instance_id", .str "i-1")], .check "r2" .aws (.typed ["WEB-01"]),
    .terminate "j1", .destroy "j1" 3, .check "r3" .aws (.typed ["Web-01"]),
    .create "r3" "j3" "alice" 4 none, .start "j3" 5, .launch "j3" (some "i-3"), .start "j2" 6,
    .launch "j2" (some "i-2")]

theorem redeployed_unique :
    (namesSystem asciiFolding).Along (Careful asciiFolding) .start redeployed ∧
      (namesSystem asciiFolding).Always (State.Unique asciiFolding) .start redeployed ∧
      ((["web-server-v-01", "web-server-v-02"].map (nameKey asciiFolding)).Nodup ∧
        ∀ name ∈ ["web-server-v-01", "web-server-v-02"], name.length ≤ nameLimit .azure) := by
  have hcareful : (namesSystem asciiFolding).Along (Careful asciiFolding) .start redeployed := by
    decide +kernel
  have hexpand : expand "web-server-vm-cluster" 2 .azure =
      .ok ["web-server-v-01", "web-server-v-02"] := by
    decide +kernel
  obtain ⟨hdistinct, hlimit, -⟩ := deployed_names_unique.2 .azure _ 2 _ (by decide) hexpand
  exact ⟨hcareful, deployed_names_unique.1 redeployed hcareful, hdistinct, hlimit⟩

/-- The runner fails after the instance has been launched, and the name is deployed again. -/
def failedAfterLaunch : List Event :=
  [.check "r1" .aws (.typed ["web-01"]), .create "r1" "j1" "alice" 0 none, .start "j1" 1,
    .launch "j1" (some "i-1"), .fail "j1" ⟨false, none⟩ 2 "the secret store is sealed" [],
    .check "r2" .aws (.typed ["web-01"]), .create "r2" "j2" "bob" 3 none, .start "j2" 4,
    .launch "j2" (some "i-2")]

/-- Both requests are checked before either has created its job. -/
def overlapping : List Event :=
  [.check "r1" .aws (.typed ["web-01"]), .check "r2" .aws (.typed ["web-01"]),
    .create "r1" "j1" "alice" 0 none, .create "r2" "j2" "bob" 0 none, .start "j1" 1,
    .launch "j1" (some "i-1"), .start "j2" 2, .launch "j2" (some "i-2")]

theorem names_repeat :
    ¬(namesSystem asciiFolding).Always (State.Unique asciiFolding) .start failedAfterLaunch ∧
      ¬(namesSystem asciiFolding).Always (State.Unique asciiFolding) .start overlapping := by
  decide +kernel

end VmNames
