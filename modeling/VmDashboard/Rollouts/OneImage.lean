import VmDashboard.Rollouts.CanaryFirst

/-!
# A rollout ships one image

The jobs of a rollout name the repository, the digest and the version of its
release as each ring finds them. They agree in every run in which no release
with a rollout still to queue is moved to another image, and no agent's result
rewrites the image its job names.
-/

namespace Rollouts
open Machine (Table)
open Python (Instant Dict Json)

def imageKeys : List String := ["repository", "digest", "version"]

/-- What the metadata says the agent is to run. -/
def imageFields (metadata : Dict) : List (Option Json) := imageKeys.map metadata.get?

structure OneImage (s : State) : Prop where
  same : ∀ q ∈ s.log, ∀ q' ∈ s.log, q.rollout = q'.rollout →
    ∀ job ∈ s.db.jobs.lookup q.job, ∀ job' ∈ s.db.jobs.lookup q'.job,
      imageFields job.metadata = imageFields job'.metadata
  release : ∀ row ∈ s.db.rollouts.rows, row.status.live →
    (s.db.releases.lookup row.releaseId).isSome

/-- The image a queued upgrade names is the release's. -/
theorem imageFields_upgradeMeta (agent : RemoteAgent) (release : Release) (rolloutId : String) :
    imageFields (upgradeMeta agent release rolloutId) = imageFields (imageOf release) := by
  simp [imageFields, imageKeys, upgradeMeta, imageOf, Dict.get?]

theorem consider_queue_metadata {call : RingCall} {db : Db} {release : Release}
    {agent : RemoteAgent} {request : Jobs.JobRequest}
    (h : call.consider db release agent = .queue request) :
    request.metadata = upgradeMeta agent release call.rollout := by
  unfold RingCall.consider at h
  split at h
  · cases h
  split at h
  · cases h
  simp only at h
  split at h
  · cases h
  split at h
  · cases h
  next request' hupgrade =>
    cases h
    unfold upgrade at hupgrade
    simp only at hupgrade
    split at hupgrade
    · cases hupgrade
    split at hupgrade
    · cases hupgrade
    split at hupgrade
    · cases hupgrade
    · cases hupgrade
      rfl

/-! ### Completions -/

/-- Every item of the result that bears an image key is what the metadata has there. -/
def Leaves (result metadata : Dict) : Prop :=
  ∀ item ∈ result, item.1 ∈ imageKeys →
    item.2.str?.isSome ∧ (metadata.get? item.1).bind Json.str? = item.2.str?

instance (result metadata : Dict) : Decidable (Leaves result metadata) :=
  inferInstanceAs (Decidable (∀ item ∈ result, _))

theorem str?_eq_some {value : Json} {text : String} (h : value.str? = some text) :
    value = .str text := by
  cases value with
  | str s => exact congrArg Json.str (Option.some.inj h)
  | _ => cases h

theorem imageFields_update {result metadata : Dict} (h : Leaves result metadata) :
    imageFields (metadata.update result) = imageFields metadata := by
  refine List.map_congr_left fun key hkey => Dict.get?_update fun item hitem heq => ?_
  obtain ⟨hsome, hsame⟩ := h item hitem (heq ▸ hkey)
  obtain ⟨text, htext⟩ := Option.isSome_iff_exists.mp hsome
  rw [htext, heq] at hsame
  obtain ⟨value, hvalue, hstr⟩ := Option.bind_eq_some_iff.mp hsame
  rw [hvalue, str?_eq_some hstr, str?_eq_some htext]

/-- The result the change merges into the metadata of the job. -/
def JobChange.merges (change : JobChange) (job : Jobs.Job) : Option Dict :=
  match change with
  | .complete agentId _ _ report =>
    if job.agentId = some agentId && job.status = .running &&
        (checkCompletion job report).failure.isNone then some report.result
    else none
  | _ => none

theorem checkCompletion_result (job : Jobs.Job) (report : Jobs.Report) :
    (checkCompletion job report).result = report.result := by
  unfold checkCompletion
  split
  · rfl
  · simp only
    split <;> rfl

theorem setFailed_metadata (config : Jobs.RetryConfig) (now : Instant) (error : String)
    (job : Jobs.Job) : (Jobs.setFailed config now error [] job).metadata = job.metadata := by
  unfold Jobs.setFailed
  simp only
  split <;> rfl

theorem complete_metadata (agentId : String) (config : Jobs.RetryConfig) (now : Instant)
    (report : Jobs.Report) (job : Jobs.Job) :
    ((JobChange.complete agentId config now report).apply job).metadata =
      job.metadata.update (((JobChange.complete agentId config now report).merges job).getD []) := by
  simp only [JobChange.apply, JobChange.merges, Jobs.Write.apply]
  split
  next held howned =>
    obtain ⟨rfl, hagent, hrunning | hcancelled⟩ := Jobs.ownedJob_ok howned
    · simp only [Jobs.completeJob, hrunning, reduceCtorEq, if_false]
      cases hfailure : (checkCompletion held report).failure with
      | none =>
        simp only [hagent, Option.isNone_none, decide_true, Bool.and_self, if_true,
          Option.getD_some, Jobs.setCompleted, checkCompletion_result]
      | some error =>
        simp only [Option.isNone_some, Bool.and_false, Bool.false_eq_true, if_false,
          Option.getD_none, setFailed_metadata]
        rfl
    · simp only [Jobs.completeJob_cancelled hcancelled, hcancelled, reduceCtorEq, decide_false,
        Bool.and_false, Bool.false_and, Bool.false_eq_true, if_false, Option.getD_none]
      rfl
  next reason howned =>
    have hnot : ¬(job.agentId = some agentId ∧ job.status = .running) := by
      rintro ⟨hagent, hrunning⟩
      simp [Jobs.ownedJob, hagent, hrunning] at howned
    rw [← Bool.decide_and, decide_eq_false hnot]
    rfl

theorem JobChange.apply_metadata (change : JobChange) (job : Jobs.Job) :
    (change.apply job).metadata = job.metadata.update ((change.merges job).getD []) := by
  have hcancel : ∀ now, (Jobs.setCancelled now job).metadata = job.metadata := by
    intro now
    unfold Jobs.setCancelled
    split <;> rfl
  cases change with
  | lease now =>
    simp only [JobChange.apply]
    split <;> rfl
  | cancel now => exact hcancel now
  | missWindow now reason =>
    show (Jobs.setMissedWindow now reason job).metadata = _
    unfold Jobs.setMissedWindow
    split <;> rfl
  | revoke config now =>
    simp only [JobChange.apply]
    split
    · exact setFailed_metadata ..
    · split
      · exact hcancel now
      · rfl
  | complete agentId config now report => exact complete_metadata agentId config now report job

/-! ### Steps -/

/-- What the step does to images: no release is moved to another one while a rollout of it has
jobs to queue, and no agent's result rewrites the image its job names. -/
def ImageKept (s : State) : Event → Prop
  | .add _ _ request => ∀ moved ∈ movedBy s.db.releases request,
      { moved.1 with digest := moved.2.1, repository := moved.2.2 }.image = moved.1.image ∨
        ∀ row ∈ s.db.rollouts.rows, row.releaseId = moved.1.id →
          row.status ≠ .canary ∧ ∀ w ∈ s.works.rows, w.rollout ≠ row.id
  | .job id change => ∀ q ∈ s.log, q.job = id → ∀ job ∈ s.db.jobs.lookup id,
      ∀ result ∈ change.merges job, Leaves result job.metadata
  | _ => True

/-- The jobs of a rollout that may still queue name the image its release has now. -/
structure Imaged (s : State) : Prop where
  same : ∀ q ∈ s.log, ∀ q' ∈ s.log, q.rollout = q'.rollout →
    ∀ job ∈ s.db.jobs.lookup q.job, ∀ job' ∈ s.db.jobs.lookup q'.job,
      imageFields job.metadata = imageFields job'.metadata
  current : ∀ id row, s.rollout id = some row →
    (row.status = .canary ∨ ∃ w ∈ s.works.rows, w.rollout = id) →
      ∀ release, s.db.releases.lookup row.releaseId = some release →
        ∀ q ∈ s.log, q.rollout = id → ∀ job ∈ s.db.jobs.lookup q.job,
          imageFields job.metadata = imageFields (imageOf release)

/-- The rollout may still queue jobs. -/
def State.Queues (s : State) (id : String) (row : Rollout) : Prop :=
  s.rollout id = some row ∧ (row.status = .canary ∨ ∃ w ∈ s.works.rows, w.rollout = id)

theorem Kept.job_eq {s t : State} (h : Kept s t) {job : String}
    (hsome : (s.db.jobs.lookup job).isSome) : t.db.jobs.lookup job = s.db.jobs.lookup job := by
  obtain ⟨row, hrow⟩ := Option.isSome_iff_exists.mp hsome
  rw [hrow, h.jobs job row hrow]

theorem Kept.releaseId_eq {s t : State} (h : Kept s t) {id : String} {row row' : Rollout}
    (hrow : s.rollout id = some row) (hrow' : t.rollout id = some row') :
    row'.releaseId = row.releaseId := by
  have hmap := h.rollouts id
  rw [hrow, hrow'] at hmap
  exact Option.some.inj hmap

theorem Imaged.of_kept {s t : State} (hs : Imaged s) (hsound : Sound s) (h : Kept s t)
    (hlog : t.log = s.log)
    (hqueues : ∀ id row', t.Queues id row' → ∃ row, s.Queues id row) : Imaged t := by
  refine ⟨fun q hq q' hq' hr => ?_, fun id row' hrow' hopen release hrelease q hq hr => ?_⟩
  · rw [hlog] at hq hq'
    rw [h.job_eq (hsound.jobs q hq), h.job_eq (hsound.jobs q' hq')]
    exact hs.same q hq q' hq' hr
  · rw [hlog] at hq
    rw [h.job_eq (hsound.jobs q hq)]
    obtain ⟨row, hrow, hopen'⟩ := hqueues id row' ⟨hrow', hopen⟩
    rw [h.releases, h.releaseId_eq hrow hrow'] at hrelease
    exact hs.current id row hrow hopen' release hrelease q hq hr

/-- A write that opens no rollout again, and no call. -/
theorem queues_of_write {s : State} {id : String} {f : Rollout → Rollout} {works : Table Work.id}
    (hf : ∀ r, (f r).id = r.id) (hstatus : ∀ r, (f r).status = .canary → r.status = .canary)
    (hworks : ∀ w ∈ works.rows, w ∈ s.works.rows) (id' : String) (row' : Rollout)
    (h : State.Queues { s.setRollout id f hf with works } id' row') : ∃ row, s.Queues id' row := by
  obtain ⟨hrow, hopen⟩ := h
  have hwork : (∃ w ∈ works.rows, w.rollout = id') → ∃ w ∈ s.works.rows, w.rollout = id' :=
    fun ⟨w, hw, hr⟩ => ⟨w, hworks w hw, hr⟩
  have hlookup := (s.rollout_setRollout id id' f hf).symm.trans hrow
  split at hlookup
  · obtain ⟨row, hrow', rfl⟩ := Option.map_eq_some_iff.mp hlookup
    exact ⟨row, hrow', hopen.imp (hstatus row) hwork⟩
  · exact ⟨row', hlookup, hopen.imp_right hwork⟩

theorem Imaged.move {s t : State} {proc : ℕ} {todo : List String} {id : String} (hs : Imaged s)
    (hsound : Sound s) (h : Move s proc todo id t) : Imaged t := by
  have hkept := h.kept
  cases h with
  | @mark _ row f hidle hrow hmarks =>
    refine hs.of_kept hsound hkept rfl
      (queues_of_write hmarks.id (fun r hr => ?_) fun w (hw : w ∈ s.works.rows) => hw)
    obtain hsame | hother := hmarks.status r
    · exact hsame ▸ hr
    · exact absurd hr hother
  | @closeCanary w skipped hwork hproc hring =>
    exact hs.of_kept hsound hkept rfl
      (queues_of_write (f := Rollout.record w skipped) (fun _ => rfl) (fun _ hr => hr)
        fun _ hw => (Table.mem_erase.mp hw).1)
  | @closeDefault w row hproc hrow hown =>
    exact hs.of_kept hsound hkept rfl
      (queues_of_write (f := Rollout.close w) (fun _ => rfl) (fun _ hr => absurd hr (by simp [Rollout.close]))
        fun _ hw => (Table.mem_erase.mp hw).1)
  | @queue row release agent request pending skipped jobs w seg hproc hrow hrelease hready hpending
      hagent hjobs =>
    obtain ⟨a, ha, hconsider⟩ := hagent
    have hopen : row.status = .canary ∨ ∃ w' ∈ s.works.rows, w'.rollout = w.rollout :=
      hready.symm.imp Begins.status fun hw => ⟨w, hw, rfl⟩
    have hnew : jobs.lookup seg.jobId = some (Jobs.createJob seg.jobId seg.now none request) :=
      (Table.lookup_insert hjobs seg.jobId).trans (if_pos rfl)
    have hfields : imageFields (Jobs.createJob seg.jobId seg.now none request).metadata =
        imageFields (imageOf release) := by
      rw [Jobs.createJob, consider_queue_metadata hconsider, imageFields_upgradeMeta]
    generalize ht : State.mk { s.db with jobs }
      (s.works.put { w with pending, skipped, queued := w.queued ++ [seg.jobId] })
      (s.log ++ [⟨w.rollout, w.call.which, agent, seg.jobId⟩]) = t at hkept
    have hjob : t.db.jobs.lookup seg.jobId = some (Jobs.createJob seg.jobId seg.now none request) :=
      ht ▸ hnew
    have hlog : ∀ q ∈ t.log, q ∈ s.log ∨ q = ⟨w.rollout, w.call.which, agent, seg.jobId⟩ := by
      subst ht
      exact fun q hq => (List.mem_append.mp hq).imp_right List.mem_singleton.mp
    have hrows : ∀ id, t.rollout id = s.rollout id := by
      subst ht
      exact fun _ => rfl
    have hworks : ∀ w' ∈ t.works.rows, w'.rollout ≠ w.rollout → w' ∈ s.works.rows := by
      subst ht
      intro w' hw' hne
      obtain rfl | ⟨hw', -⟩ := Table.mem_put.mp hw'
      · exact absurd rfl hne
      · exact hw'
    -- every job of this rollout, the new one included, names what the release names now
    have himage : ∀ q ∈ t.log, q.rollout = w.rollout → ∀ job ∈ t.db.jobs.lookup q.job,
        imageFields job.metadata = imageFields (imageOf release) := by
      intro q hq hr job hmem
      obtain hq | rfl := hlog q hq
      · rw [hkept.job_eq (hsound.jobs q hq)] at hmem
        exact hs.current w.rollout row hrow hopen release hrelease q hq hr job hmem
      · rw [hjob] at hmem
        obtain rfl := Option.some.inj hmem
        exact hfields
    have hold : ∀ q ∈ t.log, q.rollout ≠ w.rollout → q ∈ s.log := by
      intro q hq hne
      obtain hq | rfl := hlog q hq
      · exact hq
      · exact absurd rfl hne
    refine ⟨fun q hq q' hq' hr job hmem job' hmem' => ?_, fun id row' hrow' hopen' release' hrelease' => ?_⟩
    · by_cases hhere : q.rollout = w.rollout
      · rw [himage q hq hhere job hmem, himage q' hq' (hr ▸ hhere) job' hmem']
      · have hq := hold q hq hhere
        have hq' := hold q' hq' (hr ▸ hhere)
        rw [hkept.job_eq (hsound.jobs q hq)] at hmem
        rw [hkept.job_eq (hsound.jobs q' hq')] at hmem'
        exact hs.same q hq q' hq' hr job hmem job' hmem'
    · rw [hrows] at hrow'
      rw [hkept.releases] at hrelease'
      by_cases hhere : id = w.rollout
      · subst hhere
        obtain rfl := Option.some.inj (hrow'.symm.trans hrow)
        obtain rfl := Option.some.inj (hrelease'.symm.trans hrelease)
        exact himage
      · intro q hq hr
        have hq := hold q hq (hr ▸ hhere)
        have hopen'' : row'.status = .canary ∨ ∃ w' ∈ s.works.rows, w'.rollout = id :=
          hopen'.imp_right fun ⟨w', hw', hr'⟩ => ⟨w', hworks w' hw' (hr' ▸ hhere), hr'⟩
        rw [hkept.job_eq (hsound.jobs q hq)]
        exact hs.current id row' hrow' hopen'' release' hrelease' q hq hr

/-! ### Runs -/

theorem Imaged.of_same {s t : State} (hs : Imaged s) (hlog : t.log = s.log)
    (hworks : ∀ w ∈ t.works.rows, w ∈ s.works.rows)
    (hrows : ∀ id row, t.rollout id = some row → s.rollout id = some row)
    (hreleases : ∀ id row release, t.rollout id = some row →
      (row.status = .canary ∨ ∃ w ∈ t.works.rows, w.rollout = id) →
        t.db.releases.lookup row.releaseId = some release → ∃ release',
          s.db.releases.lookup row.releaseId = some release' ∧ release'.image = release.image)
    (hjobs : ∀ q ∈ s.log, ∀ job ∈ t.db.jobs.lookup q.job, ∃ job' ∈ s.db.jobs.lookup q.job,
      imageFields job.metadata = imageFields job'.metadata) : Imaged t := by
  refine ⟨fun q hq q' hq' hr job hmem job' hmem' => ?_,
    fun id row hrow hopen release hrelease q hq hr job hmem => ?_⟩
  · rw [hlog] at hq hq'
    obtain ⟨job₁, hmem₁, heq₁⟩ := hjobs q hq job hmem
    obtain ⟨job₂, hmem₂, heq₂⟩ := hjobs q' hq' job' hmem'
    rw [heq₁, heq₂, hs.same q hq q' hq' hr job₁ hmem₁ job₂ hmem₂]
  · rw [hlog] at hq
    obtain ⟨job', hmem', heq⟩ := hjobs q hq job hmem
    obtain ⟨release', hrelease', himage⟩ := hreleases id row release hrow hopen hrelease
    have hopen' : row.status = .canary ∨ ∃ w ∈ s.works.rows, w.rollout = id :=
      hopen.imp_right fun ⟨w, hw, hr⟩ => ⟨w, hworks w hw, hr⟩
    rw [heq, hs.current id row (hrows id row hrow) hopen' release' hrelease' q hq hr job' hmem',
      imageOf, imageOf, himage]

theorem Imaged.path {s t : State} {proc : ℕ} {todo : List String} {R : String → Prop}
    (hs : Imaged s) (hsound : Sound s) (h : Path proc todo R s t) : Imaged t := by
  have hboth : Imaged t ∧ Sound t :=
    h.induct (I := fun u => Imaged u ∧ Sound u)
      (fun _ _ _ _ hu hmove => ⟨hu.1.move hu.2 hmove, hu.2.move hmove⟩) ⟨hs, hsound⟩
  exact hboth.1

theorem Imaged.insert {s : State} {row : Rollout} {rollouts : Table Rollout.id} (hs : Imaged s)
    (hnew : ∀ q ∈ s.log, q.rollout ≠ row.id) (hrow : s.db.rollouts.insert row = some rollouts) :
    Imaged { s with db := { s.db with rollouts } } := by
  refine ⟨hs.same, fun id row' hrow' hopen release hrelease => ?_⟩
  have hlookup : rollouts.lookup id = some row' := hrow'
  rw [Table.lookup_insert hrow] at hlookup
  split at hlookup
  next hid => exact fun q hq hr => absurd (hr.trans hid) (hnew q hq)
  next => exact hs.current id row' hlookup hopen release hrelease

theorem Imaged.job {s : State} {id : String} {change : JobChange} (hs : Imaged s)
    (hkept : ImageKept s (.job id change)) :
    Imaged { s with db := { s.db with
      jobs := s.db.jobs.modify id change.apply fun job => (change.apply_same job).id } } := by
  refine hs.of_same rfl (fun _ hw => hw) (fun _ _ h => h)
    (fun _ _ release _ _ h => ⟨release, h, rfl⟩) fun q hq job hmem => ?_
  have hlookup := Table.lookup_modify s.db.jobs id q.job change.apply
    fun job => (change.apply_same job).id
  have hmem := hlookup.symm.trans hmem
  split at hmem
  next hid =>
    obtain ⟨job', hjob', rfl⟩ := Option.map_eq_some_iff.mp hmem
    refine ⟨job', hjob', ?_⟩
    rw [change.apply_metadata]
    cases hmerges : change.merges job' with
    | none => rfl
    | some result =>
      exact imageFields_update (hkept q hq hid job' (hid ▸ hjob') result hmerges)
  next => exact ⟨job, hmem, rfl⟩

theorem Imaged.add {s : State} {id today : String} {request : ReleaseRequest}
    {releases : Table Release.id} (hs : Imaged s) (hsound : Sound s)
    (hkept : ImageKept s (.add id today request))
    (h : addRelease s.db.releases id today request = some releases) :
    Imaged { s with db := { s.db with releases } } := by
  refine hs.of_same rfl (fun _ hw => hw) (fun _ _ h => h)
    (fun id' row release hrow hopen hrelease => ?_) (fun _ _ job hmem => ⟨job, hmem, rfl⟩)
  obtain ⟨release', hrelease'⟩ := Option.isSome_iff_exists.mp (hsound.releases id' row hrow)
  obtain ⟨release'', hafter, hcases⟩ := addRelease_lookup h hrelease'
  obtain rfl := Option.some.inj (hafter.symm.trans hrelease)
  refine ⟨release', hrelease', ?_⟩
  obtain rfl | ⟨digest, repository, hmoved, himage⟩ := hcases
  · rfl
  · rw [himage]
    obtain hsame | hunused := hkept _ hmoved
    · exact hsame.symm
    · -- the rollout still queues, so its release is not moved
      obtain ⟨hmem, hid⟩ := Table.lookup_eq_some.mp hrow
      obtain ⟨hstatus, hnone⟩ := hunused row hmem (Table.lookup_key hrelease').symm
      obtain hcanary | ⟨w, hw, hr⟩ := hopen
      · exact absurd hcanary hstatus
      · exact absurd (hr.trans hid.symm) (hnone w hw)

theorem Imaged.delete {s : State} (hs : Imaged s) (releaseId : String) :
    Imaged { s with db := deleteRelease s.db releaseId } := by
  obtain heq | ⟨-, hrows, hreleases, -, hjobs⟩ := deleteRelease_spec s.db releaseId
  · rw [heq]
    exact hs
  · have hrow : ∀ id row, (deleteRelease s.db releaseId).rollouts.lookup id = some row →
        s.rollout id = some row ∧ row.releaseId ≠ releaseId := by
      intro id row hrow
      obtain ⟨hmem, hid⟩ := Table.lookup_eq_some.mp hrow
      obtain ⟨hmem, hne⟩ := (hrows row).mp hmem
      exact ⟨Table.lookup_eq_some.mpr ⟨hmem, hid⟩, hne⟩
    refine hs.of_same rfl (fun _ hw => hw) (fun id row h => (hrow id row h).1)
      (fun id row release h _ hrelease => ?_) fun _ _ job hmem => ?_
    · rw [hreleases, Table.lookup_erase, if_neg (hrow id row h).2] at hrelease
      exact ⟨release, hrelease, rfl⟩
    · rw [hjobs] at hmem
      exact ⟨job, hmem, rfl⟩

theorem Imaged.effect {s t : State} {event : Event} (hs : Imaged s) (hsound : Sound s)
    (hkept : ImageKept s event) (h : Effect s event t) : Imaged t := by
  cases h with
  | idle => exact hs
  | setLag => exact ⟨hs.same, hs.current⟩
  | agents => exact ⟨hs.same, hs.current⟩
  | call hproc htodo hpath => exact hs.path hsound hpath
  | begun hidle hnew hrow hrelease hpath =>
    exact (hs.insert hnew hrow).path (hsound.insert hrow hrelease) hpath
  | lost hw hgone =>
    exact hs.of_same rfl (fun _ hw => (Table.mem_erase.mp hw).1) (fun _ _ h => h)
      (fun _ _ release _ _ h => ⟨release, h, rfl⟩) fun _ _ job hmem => ⟨job, hmem, rfl⟩
  | job change => exact hs.job hkept
  | create hjobs =>
    refine hs.of_kept hsound (insert_kept hjobs) rfl fun id row' h => ⟨row', h⟩
  | add hadd => exact hs.add hsound hkept hadd
  | delete => exact hs.delete _

theorem Imaged.initial (db : Db) : Imaged (State.initial db) where
  same _ hq := absurd hq List.not_mem_nil
  current _ _ _ _ _ _ _ hq := absurd hq List.not_mem_nil

/-- In every run that keeps the images the jobs of a rollout name one image; and in every run at
all the release of a live rollout is there. -/
theorem one_image {db : Db} {events : List Event} (hdb : ForeignKeys db)
    (h : rolloutSystem.Along ImageKept (State.initial db) events) :
    rolloutSystem.Always OneImage (State.initial db) events := by
  have hrun : rolloutSystem.Always (fun s => Imaged s ∧ Sound s) (State.initial db) events := by
    refine rolloutSystem.always_of_along (G := ImageKept) ?_ ⟨.initial db, .initial hdb⟩ h
    rintro s event t ⟨hs, hsound⟩ hkept hstep
    exact ⟨hs.effect hsound hkept (advance_effect hsound.queued hstep), hsound.step hstep⟩
  refine rolloutSystem.always_mono (fun s hs => ⟨hs.1.same, fun row hrow _ => ?_⟩) hrun
  exact hs.2.releases row.id row (Table.lookup_eq_some.mpr ⟨hrow, rfl⟩)

instance (s : State) : (event : Event) → Decidable (ImageKept s event)
  | .add _ _ request => inferInstanceAs (Decidable (∀ moved ∈ movedBy s.db.releases request, _))
  | .job id _ => inferInstanceAs (Decidable (∀ q ∈ s.log, q.job = id → _))
  | .start .. | .sweep .. | .resume .. | .create .. | .agent .. | .enrol .. | .delete .. | .setLag .. =>
    isTrue trivial

theorem one_image_calmRun : rolloutSystem.Always OneImage (State.initial sampleFleet) calmRun ∧
    (rolloutSystem.exec (State.initial sampleFleet) calmRun).map
      (fun s => s.log.map Queued.job) = some ["j1", "j2"] := by
  refine ⟨one_image (by decide) (by decide +kernel), by decide +kernel⟩

/- The tag 2.11.0 rebuilt on Docker Hub. -/
def rebuiltTag : ReleaseRequest where
  version := "2.11.0"
  digest := "sha256:" ++ String.ofList (List.replicate 64 'b')
  repository := ""
  notes := ""
  source := "registry"
  actor := "ann"

/- The canary has completed when the registry check finds the tag rebuilt. -/
def rebuiltRun : List Event :=
  calmRun.take 5 ++ [.add "r2" "2026-01-01" rebuiltTag, .sweep 2 (sampleSegment "j2" 60)]

/-- The default ring is given another image than the canary ran. -/
theorem default_other_image : ForeignKeys sampleFleet ∧
    ¬rolloutSystem.Always OneImage (State.initial sampleFleet) rebuiltRun := by
  refine ⟨by decide, fun h => ?_⟩
  have hdiffer : ∃ s ∈ rolloutSystem.exec (State.initial sampleFleet) rebuiltRun,
      ∃ q ∈ s.log, ∃ q' ∈ s.log, q.rollout = q'.rollout ∧ ∃ job ∈ s.db.jobs.lookup q.job,
        ∃ job' ∈ s.db.jobs.lookup q'.job, (imageFields job.metadata).map (·.bind Json.str?) ≠
          (imageFields job'.metadata).map (·.bind Json.str?) := by
    decide +kernel
  obtain ⟨s, hs, q, hq, q', hq', hr, job, hjob, job', hjob', hne⟩ := hdiffer
  have hsame := (rolloutSystem.always_exec h hs).same q hq q' hq' hr job hjob job' hjob'
  exact hne (congrArg _ hsame)

end Rollouts
