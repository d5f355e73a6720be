import VmDashboard.Jobs.Queue

/-!
# Job workers and the singleton types

Any number of `jobs_worker` processes, each with the `running` dictionary of its `_run_loop`. A
process computes the types it has room for from its own dictionary (`_allowed_types`) and claims
among them (`_claim_one`). Its event loop stands still in between.
-/

namespace Jobs.Workers
open Machine (Table)
open Python (Instant Dict)

inductive Tier
  | heavy | medium | light
  deriving DecidableEq

def heavyTypes : List String :=
  ["k8s_provision", "k8s_decommission", "clouddb_provision", "clouddb_decommission",
   "cloudfn_deploy", "cloudfn_update", "cloudfn_decommission", "certca_provision",
   "certca_decommission", "directory_provision", "directory_decommission",
   "clouddb_adapter_pair", "portainer_adapter_pair", "clouddb_dbops_deploy", "packer_aws_build",
   "packer_azure_build", "packer_gcp_build", "packer_oci_build", "ansible_local"]

def mediumTypes : List String :=
  ["k8s_management", "k8s_secret_delivery", "k8s_entitle_agent", "k8s_group_binding",
   "k8s_impersonator_binding", "k8s_entra_federation", "k8s_tunnel", "k8s_api_tunnel",
   "k8s_entitle_register", "k8s_ps_token", "rancher_entitle_register",
   "clouddb_entitle_register", "cloudfn_entitle_register", "entitle_virtual_app",
   "entitle_persona_bundles", "clouddb_ps_register", "cert_ps_register", "workload_k8s_token",
   "spirelab_ps_register", "rancher_node_deploy", "rancher_node_teardown",
   "portainer_node_deploy", "portainer_node_teardown", "portainer_import", "ec2_deploy",
   "ec2_bulk_deploy", "ec2_destroy", "azure_deploy", "azure_bulk_deploy", "azure_destroy",
   "gce_deploy", "gce_bulk_deploy", "gce_destroy", "oci_deploy", "oci_bulk_deploy",
   "oci_destroy", "vm_pra", "ot_cell_deploy", "pov_env_provision", "pov_env_destroy",
   "pov_env_add_vms", "pov_template_build", "pov_env_wireup", "pov_env_jump_group_move",
   "vdesktop_pool_provision", "vdesktop_pool_teardown", "ansible_cloud_run", "windows_arc_join"]

def lightTypes : List String :=
  ["ec2_create_image", "ami_copy", "azure_create_image", "gce_capture_image", "aws_export_image",
   "azure_export_image", "gcp_export_image", "oci_export_image", "image_promote_aws",
   "image_promote_azure", "image_promote_gcp", "image_promote_oci", "gateway_deploy",
   "gateway_teardown", "agent_host_start", "agent_host_stop", "agent_host_delete",
   "route_network_backfill", "epml_sync", "windows_hybrid_check", "expiry_sweep",
   "schedule_sweep", "suspend_sweep", "spend_sweep", "ec2_power", "azure_power", "gce_power",
   "oci_power", "pov_env_power", "spirelab_provision", "spirelab_decommission",
   "spirelab_k8s_link", "spirelab_jwt_bundle", "spirelab_upgrade", "spirelab_federate",
   "spirelab_attr_probe", "workload_cloud_credential", "pov_env_broker", "pov_env_reconcile",
   "pov_env_ready_check", "pov_env_seed"]

def tierTypes : List (Tier × List String) :=
  [(.heavy, heavyTypes), (.medium, mediumTypes), (.light, lightTypes)]

def singletonTypes : List String :=
  ["rancher_node_deploy", "rancher_node_teardown", "portainer_node_deploy",
   "portainer_node_teardown", "portainer_import", "portainer_adapter_pair", "expiry_sweep",
   "suspend_sweep", "spend_sweep", "schedule_sweep", "epml_sync"]

/-- The `(tier, job_type)` an asyncio task is registered under, with the job its name tells. -/
structure Task where
  job : String
  tier : Tier
  jobType : String

structure Limits where
  heavy : ℕ
  medium : ℕ
  light : ℕ
  total : ℕ

def Limits.of (limits : Limits) : Tier → ℕ
  | .heavy => limits.heavy
  | .medium => limits.medium
  | .light => limits.light

def allowedTypes (limits : Limits) (running : List Task) : List String :=
  if limits.total ≤ running.length then []
  else
    let liveTypes := running.map (·.jobType)
    tierTypes.flatMap fun (tier, types) =>
      if (running.filter (·.tier = tier)).length < limits.of tier then
        types.filter fun t => ¬(t ∈ singletonTypes ∧ t ∈ liveTypes)
      else []

/-- `_TIER_OF[job_type]`. -/
def tierOf (jobType : String) : Option Tier :=
  (tierTypes.find? fun (_, types) => jobType ∈ types).map Prod.fst

/-- A call of `_claim_one` under way: the lost races it may still have, and the row its last query
answered. -/
structure Call where
  allowed : List String
  left : ℕ
  picked : Option String

/-- A worker process in `_run_loop`. -/
structure Process where
  id : ℕ
  running : List Task
  call : Option Call

structure Deployment where
  jobs : Table Job.id
  processes : Table Process.id

inductive Event
  | create (id : String) (now : Instant) (defaultExpiry : Option Instant) (request : JobRequest)
  | start (process : ℕ)
  | allow (process : ℕ) (limits : Limits)
  | select (process : ℕ) (now : Instant)
  /-- The guarded update; when it matches, whether the row is read back and its task registered. -/
  | take (process : ℕ) (now : Instant) (registered : Bool)
  /-- A task calls `set_running` for its job. -/
  | begin (process : ℕ) (job : String) (now : Instant)
  | taskDone (process : ℕ) (job : String)
  | crash (process : ℕ)
  /-- Any other write to a row, from anywhere. -/
  | write (job : String) (write : Write)

def Process.ask (allowed : List String) (process : Process) : Process :=
  { process with call := some ⟨allowed, 10, none⟩ }

def Process.pick (job : String) (process : Process) : Process :=
  { process with call := process.call.map fun call => { call with picked := some job } }

def Process.giveUp (process : Process) : Process := { process with call := none }

/-- The race is lost: the next candidate, unless this was the last iteration. -/
def Process.lose (process : Process) : Process :=
  { process with
    call := process.call.bind fun call =>
      if call.left ≤ 1 then none else some { call with left := call.left - 1, picked := none } }

def Process.register (task : Task) (process : Process) : Process :=
  { process with running := process.running ++ [task], call := none }

def Process.pop (job : String) (process : Process) : Process :=
  { process with running := process.running.filter (·.job ≠ job) }

def Deployment.set (d : Deployment) (id : ℕ) (f : Process → Process)
    (hf : ∀ process, (f process).id = process.id) : Deployment :=
  { d with processes := d.processes.modify id f hf }

def Deployment.step (d : Deployment) : Event → Option Deployment
  | .create id now defaultExpiry request =>
    -- no call site enqueues one of these types as running
    if request.status = .running ∧ request.jobType ∈ singletonTypes then none
    else
      (d.jobs.insert (createJob id now defaultExpiry request)).map fun jobs => { d with jobs }
  | .start id => (d.processes.insert ⟨id, [], none⟩).map fun processes => { d with processes }
  | .allow id limits =>
    match d.processes.lookup id with
    | some ⟨_, running, none⟩ =>
      let allowed := allowedTypes limits running
      if allowed = [] then some d else some (d.set id (.ask allowed) fun _ => rfl)
    | _ => none
  | .select id now =>
    match d.processes.lookup id with
    | some ⟨_, _, some ⟨allowed, _, none⟩⟩ =>
      match claimCandidate d.jobs .worker allowed now with
      | none => some (d.set id .giveUp fun _ => rfl)
      | some job => some (d.set id (.pick job.id) fun _ => rfl)
    | _ => none
  | .take id now registered =>
    match d.processes.lookup id with
    | some ⟨_, _, some ⟨_, _, some picked⟩⟩ =>
      match d.jobs.lookup picked with
      | none => some (d.set id .lose fun _ => rfl)
      | some job =>
        match claimUpdate d.jobs .worker picked now with
        | (jobs, true) =>
          match registered, tierOf job.jobType with
          | true, some tier =>
            some ({ d with jobs }.set id (.register ⟨picked, tier, job.jobType⟩) fun _ => rfl)
          -- the read of the claimed row fails: the loop logs it and goes on without it
          | false, _ => some ({ d with jobs }.set id .giveUp fun _ => rfl)
          | true, none => none
        | (jobs, false) => some ({ d with jobs }.set id .lose fun _ => rfl)
    | _ => none
  | .begin id job now =>
    match d.processes.lookup id with
    | some process =>
      if job ∈ process.running.map (·.job) then
        some { d with
          jobs := d.jobs.modify job (setRunning now) (setRunning_id now) }
      else none
    | none => none
  | .taskDone id job =>
    (d.processes.lookup id).map fun _ => d.set id (.pop job) fun _ => rfl
  | .crash id => some { d with processes := d.processes.erase id }
  | .write job write =>
    match write with
    | .running _ => none
    | _ =>
      some { d with jobs := d.jobs.modify job write.apply write.apply_id }

def Deployment.empty : Deployment := ⟨.empty, .empty⟩

def deploymentSystem : Machine.System Deployment Event := ⟨Deployment.step⟩

/-! ### One job of a singleton type at a time -/

/-- A row that says so, or one with a task on it in some process. -/
def Deployment.InFlight (d : Deployment) (row : Job) : Prop :=
  row.status = .running ∨ ∃ process ∈ d.processes.rows, ∃ task ∈ process.running, task.job = row.id

instance (d : Deployment) (row : Job) : Decidable (d.InFlight row) :=
  inferInstanceAs (Decidable (_ ∨ _))

def Alone (d : Deployment) : Prop :=
  ∀ a ∈ d.jobs.rows, ∀ b ∈ d.jobs.rows, a.jobType ∈ singletonTypes → a.jobType = b.jobType →
    d.InFlight a → d.InFlight b → a.id = b.id

instance : DecidablePred Alone := fun d =>
  inferInstanceAs (Decidable (∀ a ∈ d.jobs.rows, ∀ b ∈ d.jobs.rows, _))

/-- The process that is about to update a row, and the row. -/
def Deployment.claiming (d : Deployment) (id : ℕ) : Option (Process × Job) := do
  let process ← d.processes.lookup id
  let call ← process.call
  let picked ← call.picked
  let job ← d.jobs.lookup picked
  pure (process, job)

/-- The jobs of the claimed type that are in flight are all in the dictionary of the process that
claims. -/
def OwnsFlight (d : Deployment) : Event → Prop
  | .take id _ _ =>
    ∀ claim ∈ d.claiming id, claim.2.jobType ∈ singletonTypes →
      ∀ other ∈ d.jobs.rows, other.jobType = claim.2.jobType → d.InFlight other →
        other.id ∈ claim.1.running.map (·.job)
  | _ => True

instance (d : Deployment) (event : Event) : Decidable (OwnsFlight d event) := by
  cases event <;> unfold OwnsFlight <;> infer_instance

/-! ### What the steps keep -/

/-- No process asks for a singleton type it has in its own dictionary. -/
theorem allowedTypes_not_live {limits : Limits} {running : List Task} {t : String}
    (ht : t ∈ allowedTypes limits running) (hsingle : t ∈ singletonTypes) :
    ∀ task ∈ running, task.jobType ≠ t := by
  intro task htask hlive
  unfold allowedTypes at ht
  split at ht
  · simp at ht
  · obtain ⟨⟨tier, types⟩, -, hin⟩ := List.mem_flatMap.mp ht
    dsimp only at hin
    split at hin
    · have hfree := of_decide_eq_true (List.mem_filter.mp hin).2
      exact hfree ⟨hsingle, List.mem_map.mpr ⟨task, htask, hlive⟩⟩
    · simp at hin

/-- The rows are still there under their types. -/
def Extends (jobs jobs' : Table Job.id) : Prop :=
  ∀ id row, jobs.lookup id = some row → ∃ row', jobs'.lookup id = some row' ∧
    row'.jobType = row.jobType

theorem extends_modify {jobs : Table Job.id} {id : String} {f : Job → Job}
    (hsame : ∀ row, (f row).Same row) : Extends jobs (jobs.modify id f fun row => (hsame row).id) := by
  intro id' row hrow
  rw [Table.lookup_modify_of_some _ _ hrow]
  split
  · exact ⟨f row, rfl, (hsame row).jobType⟩
  · exact ⟨row, rfl, rfl⟩

structure Sound (d : Deployment) : Prop where
  alone : Alone d
  asked : ∀ process ∈ d.processes.rows, ∀ call, process.call = some call →
    ∀ t ∈ call.allowed, t ∈ singletonTypes → ∀ task ∈ process.running, task.jobType ≠ t
  typed : ∀ process ∈ d.processes.rows, ∀ task ∈ process.running,
    ∃ row, d.jobs.lookup task.job = some row ∧ row.jobType = task.jobType
  picked : ∀ process ∈ d.processes.rows, ∀ call, process.call = some call →
    ∀ id, call.picked = some id → ∃ row, d.jobs.lookup id = some row ∧ row.jobType ∈ call.allowed

theorem alone_of_flight {d d' : Deployment} (h : Alone d)
    (hflight : ∀ a ∈ d'.jobs.rows, a.jobType ∈ singletonTypes → d'.InFlight a →
      ∃ b ∈ d.jobs.rows, b.id = a.id ∧ b.jobType = a.jobType ∧ d.InFlight b) : Alone d' := by
  intro a ha b hb hsingle htype hfa hfb
  obtain ⟨a', ha', hida, htypea, hfa'⟩ := hflight a ha hsingle hfa
  obtain ⟨b', hb', hidb, htypeb, hfb'⟩ := hflight b hb (htype ▸ hsingle) hfb
  rw [← hida, ← hidb]
  exact h a' ha' b' hb' (htypea ▸ hsingle) (by rw [htypea, htype, htypeb]) hfa' hfb'

theorem Sound.jobs {d : Deployment} (h : Sound d) {jobs : Table Job.id} (hext : Extends d.jobs jobs)
    (halone : Alone { d with jobs }) : Sound { d with jobs } where
  alone := halone
  asked := h.asked
  typed := by
    intro process hprocess task htask
    obtain ⟨row, hrow, htype⟩ := h.typed process hprocess task htask
    obtain ⟨row', hrow', htype'⟩ := hext _ _ hrow
    exact ⟨row', hrow', htype'.trans htype⟩
  picked := by
    intro process hprocess call hcall id hid
    obtain ⟨row, hrow, hin⟩ := h.picked process hprocess call hcall id hid
    obtain ⟨row', hrow', htype⟩ := hext _ _ hrow
    exact ⟨row', hrow', htype ▸ hin⟩

/-- A write that makes no row run that was not in flight. -/
theorem Sound.modify {d : Deployment} (h : Sound d) {id : String} {f : Job → Job}
    (hsame : ∀ row, (f row).Same row)
    (hruns : ∀ row, d.jobs.lookup id = some row → (f row).status = .running → d.InFlight row) :
    Sound { d with jobs := d.jobs.modify id f fun row => (hsame row).id } := by
  refine h.jobs (extends_modify hsame) (alone_of_flight h.alone ?_)
  intro a (ha : a ∈ (d.jobs.modify id f fun row => (hsame row).id).rows) _ hflight
  rcases Table.mem_modify.mp ha with ⟨row, hmem, hid, rfl⟩ | ⟨hmem, -⟩
  · refine ⟨row, hmem, (hsame row).id.symm, (hsame row).jobType.symm, ?_⟩
    rcases hflight with hstatus | ⟨process, hprocess, task, htask, hjob⟩
    · exact hruns row (Table.lookup_eq_some.mpr ⟨hmem, hid⟩) hstatus
    · exact .inr ⟨process, hprocess, task, htask, hjob.trans (hsame row).id⟩
  · exact ⟨a, hmem, rfl, rfl, hflight⟩

/-- One process changes; what it takes on is running already. -/
theorem Sound.set {d : Deployment} (h : Sound d) {id : ℕ} {process : Process}
    (hprocess : d.processes.lookup id = some process) {f : Process → Process}
    {hf : ∀ process, (f process).id = process.id}
    (hrunning : ∀ task ∈ (f process).running, task ∈ process.running ∨
      ∃ row, d.jobs.lookup task.job = some row ∧ row.jobType = task.jobType ∧ row.status = .running)
    (hcall : ∀ call, (f process).call = some call →
      (∀ t ∈ call.allowed, t ∈ singletonTypes → ∀ task ∈ (f process).running, task.jobType ≠ t) ∧
        ∀ id, call.picked = some id → ∃ row, d.jobs.lookup id = some row ∧ row.jobType ∈ call.allowed) :
    Sound (d.set id f hf) := by
  have hmem : process ∈ d.processes.rows := (Table.lookup_eq_some.mp hprocess).1
  have hcases : ∀ p ∈ (d.set id f hf).processes.rows, p = f process ∨ p ∈ d.processes.rows := by
    intro p (hp : p ∈ (d.processes.modify id f hf).rows)
    rcases Table.mem_modify.mp hp with ⟨q, hq, hid, rfl⟩ | ⟨hq, -⟩
    · have hsame := Table.lookup_eq_some.mpr ⟨hq, hid⟩
      rw [hprocess] at hsame
      exact .inl (congrArg f (Option.some.inj hsame).symm)
    · exact .inr hq
  refine ⟨alone_of_flight h.alone ?_, ?_, ?_, ?_⟩
  · intro a ha _ hflight
    refine ⟨a, ha, rfl, rfl, ?_⟩
    rcases hflight with hstatus | ⟨p, hp, task, htask, hjob⟩
    · exact .inl hstatus
    rcases hcases p hp with rfl | hold
    · rcases hrunning task htask with hwas | ⟨row, hrow, -, hruns⟩
      · exact .inr ⟨process, hmem, task, hwas, hjob⟩
      · have hsame : a = row := by
          obtain ⟨hrowmem, hrowid⟩ := Table.lookup_eq_some.mp hrow
          exact Table.eq_of_key ha hrowmem (hjob.symm.trans hrowid.symm)
        exact .inl (hsame ▸ hruns)
    · exact .inr ⟨p, hold, task, htask, hjob⟩
  · intro p hp call hc
    rcases hcases p hp with rfl | hold
    · exact (hcall call hc).1
    · exact h.asked p hold call hc
  · intro p hp task htask
    rcases hcases p hp with rfl | hold
    · rcases hrunning task htask with hwas | ⟨row, hrow, htype, -⟩
      · exact h.typed process hmem task hwas
      · exact ⟨row, hrow, htype⟩
    · exact h.typed p hold task htask
  · intro p hp call hc
    rcases hcases p hp with rfl | hold
    · exact (hcall call hc).2
    · exact h.picked p hold call hc

/-- Of the writes only `set_running` makes a row run. -/
theorem apply_running {write : Write} {row : Job} (hnot : ∀ now, write ≠ .running now)
    (h : (write.apply row).status = .running) : row.status = .running := by
  cases write with
  | running now => exact absurd rfl (hnot now)
  | completed now result => cases h
  | failed config now error result =>
    simp only [Write.apply, setFailed_status] at h
    split at h <;> cases h
  | cancelled now =>
    simp only [Write.apply, setCancelled] at h
    split at h
    · cases h
    · cases h
    · cases h
    · exact h
  | missedWindow now reason =>
    simp only [Write.apply, setMissedWindow] at h
    split at h
    · cases h
    · cases h
    · exact h
  | reschedule user booking =>
    simp only [Write.apply] at h
    split at h
    next moved hmoved =>
      rcases (rescheduleJob_ok hmoved).2 with ⟨hwaits, hsame⟩ | ⟨-, hagain⟩
      · rw [hsame] at h
        exact h
      · rw [hagain] at h
        split at h <;> cases h
    next => exact h
  | complete agentId config now report =>
    simp only [Write.apply] at h
    split at h
    next held hheld =>
      obtain ⟨rfl, -⟩ := ownedJob_ok hheld
      unfold completeJob at h
      split at h
      · exact h
      · split at h
        · cases h
        · simp only [setFailed_status] at h
          split at h <;> cases h
    next => exact h

theorem added_sound {d : Deployment} (h : Sound d) {row : Job} {jobs : Table Job.id}
    (hins : d.jobs.insert row = some jobs)
    (hnew : row.status = .running → row.jobType ∉ singletonTypes) : Sound { d with jobs } := by
  have hext : Extends d.jobs jobs :=
    fun id old hold => ⟨old, Table.lookup_insert_of_some hins hold, rfl⟩
  refine h.jobs hext (alone_of_flight h.alone ?_)
  intro a ha hsingle hflight
  rcases (Table.mem_insert hins).mp ha with hold | rfl
  · exact ⟨a, hold, rfl, rfl, hflight⟩
  · rcases hflight with hstatus | ⟨process, hprocess, task, htask, hjob⟩
    · exact absurd hsingle (hnew hstatus)
    · obtain ⟨old, hold, -⟩ := h.typed process hprocess task htask
      rw [hjob, (Table.insert_eq_some hins).1] at hold
      cases hold

theorem started_sound {d : Deployment} (h : Sound d) {id : ℕ} {processes : Table Process.id}
    (hins : d.processes.insert ⟨id, [], none⟩ = some processes) : Sound { d with processes } := by
  have hcases : ∀ p ∈ processes.rows, p ∈ d.processes.rows ∨ p = ⟨id, [], none⟩ :=
    fun p hp => (Table.mem_insert hins).mp hp
  refine ⟨alone_of_flight h.alone ?_, ?_, ?_, ?_⟩
  · intro a ha _ hflight
    refine ⟨a, ha, rfl, rfl, ?_⟩
    rcases hflight with hstatus | ⟨p, hp, task, htask, hjob⟩
    · exact .inl hstatus
    · rcases hcases p hp with hold | rfl
      · exact .inr ⟨p, hold, task, htask, hjob⟩
      · simp at htask
  · intro p hp call hc
    rcases hcases p hp with hold | rfl
    · exact h.asked p hold call hc
    · cases hc
  · intro p hp task htask
    rcases hcases p hp with hold | rfl
    · exact h.typed p hold task htask
    · simp at htask
  · intro p hp call hc
    rcases hcases p hp with hold | rfl
    · exact h.picked p hold call hc
    · cases hc

theorem crashed_sound {d : Deployment} (h : Sound d) (id : ℕ) :
    Sound { d with processes := d.processes.erase id } := by
  have hold : ∀ p ∈ (d.processes.erase id).rows, p ∈ d.processes.rows :=
    fun p hp => (Table.mem_erase.mp hp).1
  refine ⟨alone_of_flight h.alone ?_, fun p hp => h.asked p (hold p hp),
    fun p hp => h.typed p (hold p hp), fun p hp => h.picked p (hold p hp)⟩
  intro a ha _ hflight
  refine ⟨a, ha, rfl, rfl, ?_⟩
  rcases hflight with hstatus | ⟨p, hp, hrest⟩
  · exact .inl hstatus
  · exact .inr ⟨p, hold p hp, hrest⟩

/-- The claim of a row: with every job of its type in the claimant's own dictionary, and none there
of a type it asks for, the type was idle. -/
theorem claimed_sound {d : Deployment} (h : Sound d) {process : Process} {call : Call} {job : Job}
    {now : Instant} (hprocess : process ∈ d.processes.rows) (hcall : process.call = some call)
    (hpicked : call.picked = some job.id) (hjob : d.jobs.lookup job.id = some job)
    (hown : job.jobType ∈ singletonTypes → ∀ other ∈ d.jobs.rows, other.jobType = job.jobType →
      d.InFlight other → other.id ∈ process.running.map (·.job)) :
    Sound { d with
      jobs := d.jobs.modify job.id (setRunning now) fun row => (setRunning_same now row).id } := by
  have hasked : job.jobType ∈ call.allowed := by
    obtain ⟨row, hrow, hin⟩ := h.picked process hprocess call hcall _ hpicked
    obtain rfl := Option.some.inj (hjob.symm.trans hrow)
    exact hin
  have hidle : job.jobType ∈ singletonTypes → ∀ other ∈ d.jobs.rows,
      other.jobType = job.jobType → ¬d.InFlight other := by
    intro hsingle other hother htype hflight
    obtain ⟨task, htask, htaskJob⟩ := List.mem_map.mp (hown hsingle other hother htype hflight)
    obtain ⟨row, hrow, hrowType⟩ := h.typed process hprocess task htask
    have hlook := Table.lookup_eq_some.mpr ⟨hother, rfl⟩
    rw [htaskJob, hlook] at hrow
    obtain rfl := Option.some.inj hrow
    exact h.asked process hprocess call hcall _ hasked hsingle task htask
      (hrowType.symm.trans htype)
  refine h.jobs (extends_modify fun row => setRunning_same now row) ?_
  have hrows : ∀ a ∈ (d.jobs.modify job.id (setRunning now)
      fun row => (setRunning_same now row).id).rows, a.id = job.id ∧ a.jobType = job.jobType ∨
        a ∈ d.jobs.rows ∧ a.id ≠ job.id := by
    intro a ha
    rcases Table.mem_modify.mp ha with ⟨row, hrow, hid, rfl⟩ | hold
    · have hlook := Table.lookup_eq_some.mpr ⟨hrow, hid⟩
      obtain rfl := Option.some.inj (hjob.symm.trans hlook)
      exact .inl ⟨rfl, rfl⟩
    · exact .inr hold
  intro a ha b hb hsingle htype hfa hfb
  rcases hrows a ha with ⟨hida, htypea⟩ | ⟨holda, -⟩
  · rcases hrows b hb with ⟨hidb, -⟩ | ⟨holdb, -⟩
    · exact hida.trans hidb.symm
    · exact absurd hfb (hidle (htypea ▸ hsingle) b holdb (htype.symm.trans htypea))
  · rcases hrows b hb with ⟨-, htypeb⟩ | ⟨holdb, -⟩
    · have hsame : a.jobType = job.jobType := htype.trans htypeb
      exact absurd hfa (hidle (hsame ▸ hsingle) a holda hsame)
    · exact h.alone a holda b holdb hsingle htype hfa hfb

theorem taken_sound {d after : Deployment} {id : ℕ} {now : Instant} {registered : Bool}
    (h : Sound d) (hown : OwnsFlight d (.take id now registered))
    (hstep : d.step (.take id now registered) = some after) : Sound after := by
  simp only [Deployment.step] at hstep
  split at hstep
  next _ running allowed left picked hprocess =>
    have hmem := (Table.lookup_eq_some.mp hprocess).1
    have hasked := h.asked _ hmem _ rfl
    have hloses : Sound (d.set id .lose fun _ => rfl) := by
      refine h.set hprocess (fun task htask => .inl htask) fun call hcall => ?_
      simp only [Process.lose, Option.bind_some] at hcall
      split at hcall
      · cases hcall
      · obtain rfl := Option.some.inj hcall
        exact ⟨hasked, fun _ hpicked => by cases hpicked⟩
    split at hstep
    · obtain rfl := Option.some.inj hstep
      exact hloses
    next job hjob =>
      split at hstep
      next jobs hupdate =>
        obtain ⟨_, -, -, rfl⟩ := claimUpdate_matched hupdate
        obtain rfl := Table.lookup_key hjob
        have hclaimed : Sound { d with
            jobs := d.jobs.modify job.id (setRunning now) fun row => (setRunning_same now row).id } :=
          claimed_sound h hmem rfl rfl hjob fun hsingle =>
            hown (_, job) (by simp [Deployment.claiming, hprocess, hjob]) hsingle
        split at hstep
        next tier htier =>
          obtain rfl := Option.some.inj hstep
          refine hclaimed.set hprocess (fun task htask => ?_) fun call hcall => by cases hcall
          rcases List.mem_append.mp htask with hwas | hnew
          · exact .inl hwas
          · obtain rfl := List.mem_singleton.mp hnew
            exact .inr ⟨setRunning now job, by simp [hjob], rfl, rfl⟩
        next =>
          obtain rfl := Option.some.inj hstep
          exact hclaimed.set hprocess (fun task htask => .inl htask) fun call hcall => by cases hcall
        next => cases hstep
      next jobs hupdate =>
        obtain rfl := Option.some.inj hstep
        obtain rfl := claimUpdate_missed hupdate
        exact hloses
  next => cases hstep

theorem step_sound (d : Deployment) (event : Event) (after : Deployment) (h : Sound d)
    (hown : OwnsFlight d event) (hstep : d.step event = some after) : Sound after := by
  cases event with
  | create id now defaultExpiry request =>
    simp only [Deployment.step] at hstep
    split at hstep
    · cases hstep
    next hnew =>
      obtain ⟨jobs, hins, rfl⟩ := Option.map_eq_some_iff.mp hstep
      refine added_sound h hins fun hstatus hsingle => hnew ⟨?_, hsingle⟩
      simp only [createJob] at hstatus
      split at hstatus
      · cases hstatus
      · exact hstatus
  | start id =>
    obtain ⟨processes, hins, rfl⟩ := Option.map_eq_some_iff.mp hstep
    exact started_sound h hins
  | allow id limits =>
    simp only [Deployment.step] at hstep
    split at hstep
    next _ running hprocess =>
      split at hstep
      · obtain rfl := Option.some.inj hstep
        exact h
      · obtain rfl := Option.some.inj hstep
        refine h.set hprocess (fun task htask => .inl htask) fun call hcall => ?_
        obtain rfl := Option.some.inj hcall
        exact ⟨fun t ht hsingle => allowedTypes_not_live ht hsingle, fun _ hpicked => by cases hpicked⟩
    next => cases hstep
  | select id now =>
    simp only [Deployment.step] at hstep
    split at hstep
    next _ running allowed left hprocess =>
      have hmem := (Table.lookup_eq_some.mp hprocess).1
      split at hstep
      next =>
        obtain rfl := Option.some.inj hstep
        exact h.set hprocess (fun task htask => .inl htask) fun call hcall => by cases hcall
      next job hcand =>
        obtain rfl := Option.some.inj hstep
        refine h.set hprocess (fun task htask => .inl htask) fun call hcall => ?_
        obtain rfl := Option.some.inj hcall
        refine ⟨h.asked _ hmem ⟨allowed, left, none⟩ rfl, fun picked hpicked => ?_⟩
        obtain rfl := Option.some.inj hpicked
        obtain ⟨hjob, hfilter⟩ := claimCandidate_spec hcand
        simp only [claimFilter, Bool.and_eq_true, List.contains_iff_mem] at hfilter
        exact ⟨job, hjob, hfilter.1.2⟩
    next => cases hstep
  | take id now registered => exact taken_sound h hown hstep
  | begin id job now =>
    simp only [Deployment.step] at hstep
    split at hstep
    next process hprocess =>
      split at hstep
      next hbegun =>
        obtain rfl := Option.some.inj hstep
        refine h.modify (fun row => setRunning_same now row) fun row hrow _ => .inr ?_
        obtain ⟨task, htask, rfl⟩ := List.mem_map.mp hbegun
        have hmem := (Table.lookup_eq_some.mp hprocess).1
        exact ⟨process, hmem, task, htask, (Table.lookup_key hrow).symm⟩
      next => cases hstep
    next => cases hstep
  | taskDone id job =>
    obtain ⟨process, hprocess, rfl⟩ := Option.map_eq_some_iff.mp hstep
    have hmem := (Table.lookup_eq_some.mp hprocess).1
    have hpop : ∀ task ∈ (process.pop job).running, task ∈ process.running :=
      fun task htask => (List.mem_filter.mp htask).1
    refine h.set hprocess (fun task htask => .inl (hpop task htask)) fun call hcall => ⟨?_, ?_⟩
    · exact fun t ht hsingle task htask => h.asked process hmem call hcall t ht hsingle task (hpop task htask)
    · exact h.picked process hmem call hcall
  | crash id =>
    obtain rfl := Option.some.inj hstep
    exact crashed_sound h id
  | write job write =>
    simp only [Deployment.step] at hstep
    split at hstep
    · cases hstep
    next hnot =>
      obtain rfl := Option.some.inj hstep
      exact h.modify (fun row => write.apply_same row) fun row _ hruns =>
        .inl (apply_running hnot hruns)

theorem empty_sound : Sound .empty := by
  refine ⟨?_, ?_, ?_, ?_⟩ <;> intro a ha <;> simp [Deployment.empty, Table.empty] at ha

/-- In a run whose claims of singleton jobs find every job of the type that is in flight in the
claimant's own dictionary, no two jobs of a singleton type are ever in flight. -/
theorem singletons_alone {events : List Event}
    (h : deploymentSystem.Along OwnsFlight .empty events) :
    deploymentSystem.Always Alone .empty events :=
  deploymentSystem.always_mono (fun _ hsound => hsound.alone)
    (deploymentSystem.always_of_along step_sound empty_sound h)

def oneEach : Limits := ⟨1, 3, 10, 12⟩

/- One process and two queued sweeps. The second is claimed when the first has ended. -/
def queuedRun : List Event :=
  [.create "s1" 0 none { jobType := "expiry_sweep", createdBy := "system" },
   .create "s2" 1 none { jobType := "expiry_sweep", createdBy := "ann" }, .start 1,
   .allow 1 oneEach, .select 1 10, .take 1 10 true, .begin 1 "s1" 11,
   .allow 1 oneEach, .select 1 12, .write "s1" (.completed 13 []), .taskDone 1 "s1",
   .allow 1 oneEach, .select 1 14, .take 1 14 true]

theorem queuedRun_alone : deploymentSystem.Always Alone .empty queuedRun :=
  singletons_alone (by decide +kernel)

/- Two processes, each with an empty dictionary. -/
def replicasRun : List Event :=
  [.create "s1" 0 none { jobType := "expiry_sweep", createdBy := "system" },
   .create "s2" 1 none { jobType := "expiry_sweep", createdBy := "ann" }, .start 1, .start 2,
   .allow 1 oneEach, .allow 2 oneEach, .select 1 10, .take 1 10 true, .select 2 10, .take 2 10 true]

theorem replicas_overlap : ¬deploymentSystem.Always Alone .empty replicasRun := by decide +kernel

end Jobs.Workers
