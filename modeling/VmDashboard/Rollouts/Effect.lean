import VmDashboard.Rollouts.Moves

/-!
# What a step of the system does

`Effect` says for each event what the step comes to: a path of one process's
moves, a call that is lost with what it had not committed, or a change of the
tables the calls read. `Sound` collects what holds of every run.
-/

namespace Rollouts
open Machine (Table)
open Python (Instant)

/-- The rollouts a pass looks at in the step. -/
def State.looksAt (s : State) (event : Event) : List String :=
  ((s.advance event).map Prod.snd).getD []

/-- The process a pass of which the step is. -/
def Event.pass : Event → Option ℕ
  | .sweep proc _ | .resume proc _ => some proc
  | _ => none

inductive Effect (s : State) : Event → State → Prop
  /-- A pass that begins, or a call that goes on. -/
  | call {event proc todo t} (hproc : event.pass = some proc)
      (htodo : ∀ id ∈ todo, s.rollout id ≠ none ∨ ∃ w ∈ s.works.rows, w.id = proc ∧ id ∈ w.rest)
      (hpath : Path proc todo (fun id => id ∈ s.looksAt event ∨
        ∃ w ∈ s.works.rows, w.id = proc ∧ id = w.rollout) s t) : Effect s event t
  | begun {event proc row rollouts t} (hidle : s.works.lookup proc = none)
      (hnew : ∀ q ∈ s.log, q.rollout ≠ row.id) (hrow : s.db.rollouts.insert row = some rollouts)
      (hrelease : (s.db.releases.lookup row.releaseId).isSome)
      (hpath : Path proc [] (· = row.id) { s with db := { s.db with rollouts } } t) :
      Effect s event t
  | lost {event w} (hw : w ∈ s.works.rows)
      (hgone : ¬Readable s w ∨ ∃ id ∈ w.rest, s.rollout id = none) :
      Effect s event { s with works := s.works.erase w.id }
  | idle {event} : Effect s event s
  | job {id} (change : JobChange) :
      Effect s (.job id change) { s with db := { s.db with
        jobs := s.db.jobs.modify id change.apply fun job => (change.apply_same job).id } }
  | create {event job jobs} (h : s.db.jobs.insert job = some jobs) :
      Effect s event { s with db := { s.db with jobs } }
  /-- Agents come and report; none goes, and none changes its ring. -/
  | agents {event agents} (h : ∀ id a, s.db.agents.lookup id = some a →
      ∃ a', agents.lookup id = some a' ∧ ring a' = ring a) :
      Effect s event { s with db := { s.db with agents } }
  | add {id today request releases} (h : addRelease s.db.releases id today request = some releases) :
      Effect s (.add id today request) { s with db := { s.db with releases } }
  | delete {releaseId} : Effect s (.delete releaseId) { s with db := deleteRelease s.db releaseId }
  | setLag {event} (lag : ℕ) (workstreamLags : List (String × ℕ)) :
      Effect s event { s with db := { s.db with lag, workstreamLags } }

theorem looksAt_eq {s t : State} {event : Event} {seen : List String}
    (h : s.advance event = some (t, seen)) : s.looksAt event = seen := by
  rw [State.looksAt, h]
  rfl

theorem start_effect {s t : State} {seen : List String} {proc : ℕ} {seg : Segment}
    {rolloutId releaseId actor changeWindowId : String} {schedule : Schedule}
    (h : s.advance (.start proc seg rolloutId releaseId actor changeWindowId schedule) = some (t, seen)) :
    Effect s (.start proc seg rolloutId releaseId actor changeWindowId schedule) t := by
  simp only [State.advance] at h
  split at h
  · cases h
  next hfree =>
  split at h
  · cases h
    exact .idle
  next hrelease =>
  simp only [Bool.or_eq_true, not_or, Bool.not_eq_true, Option.isSome_eq_false_iff,
    Option.isNone_iff_eq_none, List.any_eq_false, decide_eq_true_eq] at hfree hrelease
  obtain ⟨hidle, hnew⟩ := hfree
  obtain ⟨rollouts, hinsert, hmap⟩ := Option.bind_eq_some_iff.mp h
  obtain ⟨⟨progress, seen'⟩, hresume, heq⟩ := Option.map_eq_some_iff.mp hmap
  obtain ⟨rfl, rfl⟩ := Prod.mk.inj heq
  have hrow : rollouts.lookup rolloutId =
      some (startRow rolloutId releaseId actor changeWindowId) :=
    (Table.lookup_insert hinsert rolloutId).trans (if_pos rfl)
  have hsome : (s.db.releases.lookup releaseId).isSome := Option.isSome_iff_ne_none.mpr hrelease
  obtain ⟨-, u, rfl, hpath⟩ := startWork_passes (s := { s with db := { s.db with rollouts } })
    hidle hnew hrow rfl rfl hsome hresume
  exact .begun hidle hnew hinsert hsome hpath

theorem sweep_effect {s t : State} {seen : List String} {proc : ℕ} {seg : Segment}
    (h : s.advance (.sweep proc seg) = some (t, seen)) : Effect s (.sweep proc seg) t := by
  have hlooks := looksAt_eq h
  simp only [State.advance] at h
  split at h
  · cases h
  next hidle =>
  simp only [Bool.not_eq_true, Option.isSome_eq_false_iff, Option.isNone_iff_eq_none] at hidle
  obtain ⟨⟨progress, seen'⟩, hloop, heq⟩ := Option.map_eq_some_iff.mp h
  obtain ⟨rfl, rfl⟩ := Prod.mk.inj heq
  have hlive : ∀ id ∈ (s.db.rollouts.rows.filter fun row => row.status.live).map Rollout.id,
      s.rollout id ≠ none := by
    intro id hid
    obtain ⟨row, hrow, rfl⟩ := List.mem_map.mp hid
    have hfound : s.rollout row.id = some row :=
      Table.lookup_eq_some.mpr ⟨List.mem_of_mem_filter hrow, rfl⟩
    rw [hfound]
    exact Option.some_ne_none row
  obtain ⟨u, rfl, hpath⟩ | ⟨-, id, hid, hnone⟩ :=
    (sweepLoop_passes (fun _ hid => hid) hidle hloop).progress
  · refine .call rfl (fun id hid => .inl (hlive id hid)) (hpath.mono fun id hid => .inl ?_)
    rw [hlooks]
    exact hid
  · exact absurd hnone (hlive id hid)

theorem resume_effect {s t : State} {seen : List String} {proc : ℕ} {seg : Segment}
    (hqueued : ∀ w ∈ s.works.rows, w.queued ≠ [])
    (h : s.advance (.resume proc seg) = some (t, seen)) : Effect s (.resume proc seg) t := by
  have hlooks := looksAt_eq h
  obtain ⟨w, hlookup, hmap⟩ := Option.bind_eq_some_iff.mp h
  obtain ⟨⟨progress, seen'⟩, hresume, heq⟩ := Option.map_eq_some_iff.mp hmap
  obtain ⟨rfl, rfl⟩ := Prod.mk.inj heq
  obtain ⟨hw, rfl⟩ := Table.lookup_eq_some.mp hlookup
  obtain ⟨u, rfl, hpath⟩ | ⟨rfl, hgone⟩ := resume_passes hw (hqueued w hw) hresume
  · refine .call rfl (fun id hid => .inr ⟨w, hw, rfl, hid⟩) (hpath.mono fun id hid => ?_)
    rw [hlooks]
    exact hid.symm.imp_right fun hid => ⟨w, hw, rfl, hid⟩
  · exact .lost hw hgone

theorem agent_effect {s : State} {event : Event} (id : String) (report : AgentReport) :
    Effect s event { s with db := { s.db with
      agents := s.db.agents.modify id report.apply fun _ => rfl } } := by
  refine .agents fun id' a ha => ?_
  have hlookup := Table.lookup_modify s.db.agents id id' report.apply fun _ => rfl
  by_cases hid : id' = id
  · rw [if_pos hid, ha] at hlookup
    exact ⟨report.apply a, hlookup, rfl⟩
  · rw [if_neg hid, ha] at hlookup
    exact ⟨a, hlookup, rfl⟩

theorem advance_effect {s t : State} {event : Event} (hqueued : ∀ w ∈ s.works.rows, w.queued ≠ [])
    (h : rolloutSystem.step s event = some t) : Effect s event t := by
  obtain ⟨⟨t', seen⟩, hadvance, rfl⟩ := Option.map_eq_some_iff.mp h
  cases event with
  | start => exact start_effect hadvance
  | sweep => exact sweep_effect hadvance
  | resume => exact resume_effect hqueued hadvance
  | job id change =>
    cases hadvance
    exact .job change
  | create id now request =>
    obtain ⟨jobs, hjobs, heq⟩ := Option.map_eq_some_iff.mp hadvance
    obtain ⟨rfl, -⟩ := Prod.mk.inj heq
    exact .create hjobs
  | agent id report =>
    cases hadvance
    exact agent_effect id report
  | enrol agent =>
    obtain ⟨agents, hagents, heq⟩ := Option.map_eq_some_iff.mp hadvance
    obtain ⟨rfl, -⟩ := Prod.mk.inj heq
    exact .agents fun id a ha => ⟨a, Table.lookup_insert_of_some hagents ha, rfl⟩
  | add id today request =>
    dsimp only [State.advance] at hadvance
    obtain ⟨releases, hreleases, heq⟩ := Option.map_eq_some_iff.mp hadvance
    obtain ⟨rfl, -⟩ := Prod.mk.inj heq
    exact .add hreleases
  | delete releaseId =>
    cases hadvance
    exact .delete
  | setLag lag workstreamLags =>
    cases hadvance
    exact .setLag lag workstreamLags

/-! ### What no call touches -/

structure Kept (s t : State) : Prop where
  agents : t.db.agents = s.db.agents
  releases : t.db.releases = s.db.releases
  rollouts : ∀ id, (t.rollout id).map Rollout.releaseId = (s.rollout id).map Rollout.releaseId
  jobs : ∀ id job, s.db.jobs.lookup id = some job → t.db.jobs.lookup id = some job

theorem Kept.refl (s : State) : Kept s s := ⟨rfl, rfl, fun _ => rfl, fun _ _ h => h⟩

theorem Kept.trans {s t u : State} (h : Kept s t) (h' : Kept t u) : Kept s u where
  agents := h'.agents.trans h.agents
  releases := h'.releases.trans h.releases
  rollouts id := (h'.rollouts id).trans (h.rollouts id)
  jobs id job hjob := h'.jobs id job (h.jobs id job hjob)

theorem setRollout_kept (s : State) (works : Table Work.id) (id : String) {f : Rollout → Rollout}
    (hf : ∀ r, (f r).id = r.id) (hrelease : ∀ r, (f r).releaseId = r.releaseId) :
    Kept s { s.setRollout id f hf with works } := by
  refine ⟨rfl, rfl, fun id' => ?_, fun _ _ h => h⟩
  have hrow := s.rollout_setRollout id id' f hf
  split at hrow
  · refine (congrArg (Option.map Rollout.releaseId) hrow).trans ?_
    rw [Option.map_map]
    exact congrArg (fun g => (s.rollout id').map g) (funext hrelease)
  · exact congrArg (Option.map Rollout.releaseId) hrow

theorem insert_kept {s : State} {job : Jobs.Job} {jobs : Table Jobs.Job.id}
    (h : s.db.jobs.insert job = some jobs) : Kept s { s with db := { s.db with jobs } } :=
  ⟨rfl, rfl, fun _ => rfl, fun _ _ hjob => Table.lookup_insert_of_some h hjob⟩

theorem Move.kept {s t : State} {proc : ℕ} {todo : List String} {id : String}
    (h : Move s proc todo id t) : Kept s t := by
  cases h with
  | mark hidle hrow hmarks => exact setRollout_kept s s.works id hmarks.id hmarks.releaseId
  | queue hproc hrow hrelease hready hpending hagent hjobs =>
    exact ⟨rfl, rfl, fun _ => rfl, fun _ _ h => Table.lookup_insert_of_some hjobs h⟩
  | @closeCanary w skipped hwork hproc hring =>
    exact setRollout_kept s _ w.rollout (f := Rollout.record w skipped) (fun _ => rfl) fun _ => rfl
  | @closeDefault w row hproc hrow hown =>
    exact setRollout_kept s _ w.rollout (f := Rollout.close w) (fun _ => rfl) fun _ => rfl

/-- The moves of a path, one after the other. -/
theorem Path.induct {proc : ℕ} {todo : List String} {R : String → Prop} {I : State → Prop}
    {s t : State} (hmove : ∀ u v id, R id → I u → Move u proc todo id v → I v) (hs : I s)
    (h : Path proc todo R s t) : I t := by
  induction h with
  | refl => exact hs
  | tail _ hlast ih =>
    obtain ⟨id, hid, hlast⟩ := hlast
    exact hmove _ _ id hid ih hlast

theorem Path.kept {proc : ℕ} {todo : List String} {R : String → Prop} {s t : State}
    (h : Path proc todo R s t) : Kept s t :=
  h.induct (fun _ _ _ _ hu hmove => hu.trans hmove.kept) (.refl s)

/-! ### What holds in every run -/

structure Sound (s : State) : Prop where
  releases : ∀ id row, s.rollout id = some row → (s.db.releases.lookup row.releaseId).isSome
  queued : ∀ w ∈ s.works.rows, w.queued ≠ []
  agents : ∀ w ∈ s.works.rows, ∀ id ∈ w.pending, (s.db.agents.lookup id).isSome
  jobs : ∀ q ∈ s.log, (s.db.jobs.lookup q.job).isSome
  rings : ∀ q ∈ s.log, ∃ a, s.db.agents.lookup q.agent = some a ∧ ring a = q.ring

/-- A rollout after the moves has its release as before. -/
theorem Sound.releases_kept {s t : State} (hs : Sound s) (h : Kept s t) {id : String} {row : Rollout}
    (hrow : t.rollout id = some row) : (t.db.releases.lookup row.releaseId).isSome := by
  have hmap := h.rollouts id
  rw [hrow, Option.map_some] at hmap
  obtain ⟨row', hrow', heq⟩ := Option.map_eq_some_iff.mp hmap.symm
  rw [h.releases, ← heq]
  exact hs.releases id row' hrow'

theorem Sound.of_kept {s t : State} (hs : Sound s) (h : Kept s t)
    (hworks : ∀ w ∈ t.works.rows, w ∈ s.works.rows) (hlog : t.log = s.log) : Sound t where
  releases _ _ hrow := hs.releases_kept h hrow
  queued w hw := hs.queued w (hworks w hw)
  agents w hw id hid := by
    rw [h.agents]
    exact hs.agents w (hworks w hw) id hid
  jobs q hq := by
    obtain ⟨job, hjob⟩ := Option.isSome_iff_exists.mp (hs.jobs q (hlog ▸ hq))
    rw [h.jobs q.job job hjob]
    rfl
  rings q hq := by
    rw [h.agents]
    exact hs.rings q (hlog ▸ hq)

theorem consider_queue_ring {call : RingCall} {db : Db} {release : Release} {agent : RemoteAgent}
    {request : Jobs.JobRequest} (h : call.consider db release agent = .queue request) :
    ring agent = call.which := by
  unfold RingCall.consider at h
  split at h
  · cases h
  next hring => exact of_not_not hring

theorem Sound.move {s t : State} {proc : ℕ} {todo : List String} {id : String} (hs : Sound s)
    (h : Move s proc todo id t) : Sound t := by
  have hkept := h.kept
  cases h with
  | mark hidle hrow hmarks => exact hs.of_kept hkept (fun _ hw => hw) rfl
  | closeCanary hwork hproc hring =>
    exact hs.of_kept hkept (fun _ hw => (Table.mem_erase.mp hw).1) rfl
  | closeDefault hproc hrow hown =>
    exact hs.of_kept hkept (fun _ hw => (Table.mem_erase.mp hw).1) rfl
  | @queue row release agent request pending skipped jobs w seg hproc hrow hrelease hready hpending
      hagent hjobs =>
    obtain ⟨a, ha, hconsider⟩ := hagent
    have hknown : ∀ id ∈ w.pending, (s.db.agents.lookup id).isSome := by
      intro id hid
      obtain hw | hbegins := hready
      · exact hs.agents w hw id hid
      · rw [hbegins.pending] at hid
        exact activeAgents_lookup hid
    refine ⟨fun _ _ hrow => hs.releases_kept hkept hrow, fun w' hw' => ?_, fun w' hw' id hid => ?_,
      fun q hq => ?_, fun q hq => ?_⟩
    · obtain rfl | ⟨hw', -⟩ := Table.mem_put.mp hw'
      · exact List.append_ne_nil_of_right_ne_nil _ (List.cons_ne_nil _ _)
      · exact hs.queued w' hw'
    · obtain rfl | ⟨hw', -⟩ := Table.mem_put.mp hw'
      · exact hknown id (hpending.subset (List.mem_cons_of_mem _ hid))
      · exact hs.agents w' hw' id hid
    · obtain hq | hq := List.mem_append.mp hq
      · obtain ⟨job, hjob⟩ := Option.isSome_iff_exists.mp (hs.jobs q hq)
        rw [hkept.jobs q.job job hjob]
        rfl
      · obtain rfl := List.mem_singleton.mp hq
        have hnew := (Table.lookup_insert hjobs seg.jobId).trans (if_pos rfl)
        rw [hnew]
        rfl
    · obtain hq | hq := List.mem_append.mp hq
      · exact hs.rings q hq
      · obtain rfl := List.mem_singleton.mp hq
        exact ⟨a, ha, consider_queue_ring hconsider⟩

/-! ### Release edits -/

/-- The registry row whose image `add` moves, with the digest and the repository it gets. -/
def movedBy (releases : Table Release.id) (request : ReleaseRequest) :
    Option (Release × String × String) :=
  match validateRelease request.version request.digest, validateRepository request.repository with
  | some (version, digest), some repository =>
    (releases.rows.find? fun row => row.version = version).bind fun existing =>
      if request.source = "registry" && existing.source = "registry" then
        some (existing, digest, repository)
      else none
  | _, _ => none

/-- A row that is there stays, with its image unless it is the one that is moved. -/
theorem addRelease_lookup {releases releases' : Table Release.id} {id today : String}
    {request : ReleaseRequest} (h : addRelease releases id today request = some releases')
    {key : String} {row : Release} (hrow : releases.lookup key = some row) :
    ∃ row', releases'.lookup key = some row' ∧ (row' = row ∨ ∃ digest repository,
      movedBy releases request = some (row, digest, repository) ∧
        row'.image = { row with digest, repository }.image) := by
  unfold addRelease at h
  split at h
  next version digest repository hversion hrepository =>
    split at h
    next existing hfound =>
      split at h
      · cases h
        exact ⟨row, hrow, .inl rfl⟩
      split at h
      next hregistry =>
        cases h
        have hlookup := Table.lookup_modify releases existing.id key
          (Release.moveTo today request digest repository) fun _ => rfl
        by_cases hkey : key = existing.id
        · rw [if_pos hkey, hrow] at hlookup
          refine ⟨_, hlookup, .inr ⟨digest, repository, ?_, rfl⟩⟩
          obtain rfl : existing = row :=
            Table.eq_of_key (List.mem_of_find?_eq_some hfound) (Table.lookup_eq_some.mp hrow).1
              (hkey.symm.trans (Table.lookup_key hrow).symm)
          unfold movedBy
          rw [hversion, hrepository]
          dsimp only
          rw [hfound, Option.bind_some, if_pos hregistry]
        · rw [if_neg hkey, hrow] at hlookup
          exact ⟨row, hlookup, .inl rfl⟩
      next =>
        cases h
        exact ⟨row, hrow, .inl rfl⟩
    next =>
      exact ⟨row, Table.lookup_insert_of_some h hrow, .inl rfl⟩
  next =>
    cases h
    exact ⟨row, hrow, .inl rfl⟩

/-- A deletion takes the release and its rollouts, all of which are over. -/
theorem deleteRelease_spec (db : Db) (releaseId : String) :
    deleteRelease db releaseId = db ∨
      (∀ row ∈ db.rollouts.rows, row.releaseId = releaseId → row.status.live = false) ∧
        (∀ row, row ∈ (deleteRelease db releaseId).rollouts.rows ↔
          row ∈ db.rollouts.rows ∧ row.releaseId ≠ releaseId) ∧
        (deleteRelease db releaseId).releases = db.releases.erase releaseId ∧
        (deleteRelease db releaseId).agents = db.agents ∧
        (deleteRelease db releaseId).jobs = db.jobs := by
  unfold deleteRelease
  split
  · exact .inl rfl
  next hlive =>
    simp only [List.any_eq_true, Bool.and_eq_true, decide_eq_true_eq, not_exists, not_and,
      Bool.not_eq_true] at hlive
    refine .inr ⟨hlive, fun row => ?_, rfl, rfl, rfl⟩
    simp only [List.mem_filter, decide_eq_true_eq]

theorem Sound.insert {s : State} {row : Rollout} {rollouts : Table Rollout.id} (hs : Sound s)
    (hrow : s.db.rollouts.insert row = some rollouts)
    (hrelease : (s.db.releases.lookup row.releaseId).isSome) :
    Sound { s with db := { s.db with rollouts } } := by
  refine ⟨fun id row' hrow' => ?_, hs.queued, hs.agents, hs.jobs, hs.rings⟩
  have hlookup : rollouts.lookup id = some row' := hrow'
  rw [Table.lookup_insert hrow] at hlookup
  split at hlookup
  · obtain rfl := Option.some.inj hlookup
    exact hrelease
  · exact hs.releases id row' hlookup

theorem Sound.delete {s : State} (hs : Sound s) (releaseId : String) :
    Sound { s with db := deleteRelease s.db releaseId } := by
  obtain heq | ⟨-, hrows, hreleases, hagents, hjobs⟩ := deleteRelease_spec s.db releaseId
  · rw [heq]
    exact hs
  · refine ⟨fun id row hrow => ?_, hs.queued, ?_, ?_, ?_⟩
    · obtain ⟨hmem, hid⟩ := Table.lookup_eq_some.mp hrow
      obtain ⟨hmem, hne⟩ := (hrows row).mp hmem
      have hsome := hs.releases id row (Table.lookup_eq_some.mpr ⟨hmem, hid⟩)
      rw [hreleases, Table.lookup_erase, if_neg hne]
      exact hsome
    · rw [hagents]
      exact hs.agents
    · rw [hjobs]
      exact hs.jobs
    · rw [hagents]
      exact hs.rings

theorem Sound.effect {s t : State} {event : Event} (hs : Sound s) (h : Effect s event t) : Sound t := by
  cases h with
  | idle => exact hs
  | setLag => exact ⟨hs.releases, hs.queued, hs.agents, hs.jobs, hs.rings⟩
  | call hproc htodo hpath => exact hpath.induct (fun _ _ _ _ hu hmove => hu.move hmove) hs
  | begun hidle hnew hrow hrelease hpath =>
    exact hpath.induct (fun _ _ _ _ hu hmove => hu.move hmove) (hs.insert hrow hrelease)
  | lost hw hgone =>
    exact hs.of_kept ⟨rfl, rfl, fun _ => rfl, fun _ _ h => h⟩
      (fun _ hw' => (Table.mem_erase.mp hw').1) rfl
  | @job id change =>
    refine ⟨hs.releases, hs.queued, hs.agents, fun q hq => ?_, hs.rings⟩
    have hlookup := Table.lookup_modify s.db.jobs id q.job change.apply
      fun job => (change.apply_same job).id
    have hsome := hs.jobs q hq
    split at hlookup
    · exact hlookup ▸ (Option.isSome_map.trans hsome)
    · exact hlookup ▸ hsome
  | create hjobs => exact hs.of_kept (insert_kept hjobs) (fun _ hw => hw) rfl
  | agents hagents =>
    refine ⟨hs.releases, hs.queued, fun w hw id hid => ?_, hs.jobs, fun q hq => ?_⟩
    · obtain ⟨a, ha⟩ := Option.isSome_iff_exists.mp (hs.agents w hw id hid)
      obtain ⟨a', ha', -⟩ := hagents id a ha
      exact Option.isSome_iff_exists.mpr ⟨a', ha'⟩
    · obtain ⟨a, ha, hring⟩ := hs.rings q hq
      obtain ⟨a', ha', hsame⟩ := hagents q.agent a ha
      exact ⟨a', ha', hsame.trans hring⟩
  | add hadd =>
    refine ⟨fun id row hrow => ?_, hs.queued, hs.agents, hs.jobs, hs.rings⟩
    obtain ⟨release, hrelease⟩ := Option.isSome_iff_exists.mp (hs.releases id row hrow)
    obtain ⟨release', hrelease', -⟩ := addRelease_lookup hadd hrelease
    exact Option.isSome_iff_exists.mpr ⟨release', hrelease'⟩
  | delete => exact hs.delete _

theorem Sound.step {s t : State} {event : Event} (hs : Sound s)
    (h : rolloutSystem.step s event = some t) : Sound t :=
  hs.effect (advance_effect hs.queued h)

/-- Every rollout of the database has its release. -/
def ForeignKeys (db : Db) : Prop :=
  ∀ row ∈ db.rollouts.rows, (db.releases.lookup row.releaseId).isSome

instance (db : Db) : Decidable (ForeignKeys db) := inferInstanceAs (Decidable (∀ row ∈ _, _))

theorem Sound.initial {db : Db} (hdb : ForeignKeys db) : Sound (State.initial db) := by
  refine ⟨fun id row hrow => hdb row (Table.lookup_eq_some.mp hrow).1, ?_, ?_, ?_, ?_⟩
  all_goals exact fun _ h => absurd h List.not_mem_nil

end Rollouts
