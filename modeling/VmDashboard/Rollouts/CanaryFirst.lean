import VmDashboard.Rollouts.Effect

/-!
# Canary first

The default ring of a rollout waits for its canaries, in every interleaving of
calls, completions and cancels in which no pass looks at a rollout that another
call has in the middle of a ring.
-/

namespace Rollouts
open Machine (Table)
open Python (Instant Dict)

def State.Completed (s : State) (job : String) : Prop :=
  (s.db.jobs.lookup job).map Jobs.Job.status = some .completed

instance (s : State) (job : String) : Decidable (s.Completed job) :=
  inferInstanceAs (Decidable (_ = _))

structure CanaryFirst (s : State) : Prop where
  completed : ∀ q ∈ s.log, q.ring = .default → ∀ c ∈ s.log, c.rollout = q.rollout →
    c.ring = .canary → s.Completed c.job
  once : (s.log.map fun q => (q.rollout, q.agent)).Nodup

instance : DecidablePred CanaryFirst := fun s =>
  decidable_of_iff
    ((∀ q ∈ s.log, q.ring = .default → ∀ c ∈ s.log, c.rollout = q.rollout →
        c.ring = .canary → s.Completed c.job) ∧ (s.log.map fun q => (q.rollout, q.agent)).Nodup)
    ⟨fun h => ⟨h.1, h.2⟩, fun h => ⟨h.1, h.2⟩⟩

/-! ### Final statuses -/

def Final (status : Jobs.Status) : Prop :=
  status = .completed ∨ status = .failed ∨ status = .cancelled

theorem complete_final {agentId : String} {config : Jobs.RetryConfig} {now : Instant}
    {report : Jobs.Report} {job : Jobs.Job} (h : Final job.status) :
    (Jobs.Write.complete agentId config now report).apply job = job := by
  simp only [Jobs.Write.apply]
  split
  next held hheld =>
    obtain ⟨rfl, -, hrunning | hcancelled⟩ := Jobs.ownedJob_ok hheld
    · rw [hrunning] at h
      simp [Final] at h
    · rw [Jobs.completeJob_cancelled hcancelled]
  next => rfl

/-- A job that is completed, failed or cancelled stays as it is. -/
theorem JobChange.apply_final {change : JobChange} {job : Jobs.Job} (h : Final job.status) :
    change.apply job = job := by
  have hwaiting : job.status ≠ .queued ∧ job.status ≠ .pending ∧ job.status ≠ .running := by
    obtain h | h | h := h <;> simp [h]
  obtain ⟨hqueued, hpending, hrunning⟩ := hwaiting
  have hcancel : ∀ now, Jobs.setCancelled now job = job := by
    intro now
    unfold Jobs.setCancelled
    split <;> first | contradiction | rfl
  cases change with
  | lease now => exact if_neg hqueued
  | complete agentId config now report => exact complete_final h
  | cancel now => exact hcancel now
  | missWindow now reason =>
    show Jobs.setMissedWindow now reason job = job
    unfold Jobs.setMissedWindow
    split <;> first | contradiction | rfl
  | revoke config now =>
    simp only [JobChange.apply, if_neg hrunning, if_neg hqueued]

/-! ### The invariant -/

/-- What a call in the middle of a ring relies on, and leaves behind in the log. -/
structure Underway (s : State) (w : Work) : Prop where
  row : ∃ row, s.rollout w.rollout = some row ∧ row.status = .canary
  pending : w.pending.Nodup
  fresh : ∀ q ∈ s.log, q.rollout = w.rollout → q.ring = w.call.which → q.agent ∉ w.pending
  canary : w.call.which = .canary → ∀ q ∈ s.log, q.rollout = w.rollout →
    q.ring = .canary ∧ q.job ∈ w.queued
  default : w.call.which = .default → ∀ q ∈ s.log, q.rollout = w.rollout → q.ring = .canary →
    s.Completed q.job
  rest : ∀ id ∈ w.rest, s.rollout id ≠ none

structure Orderly (s : State) : Prop where
  works : ∀ w ∈ s.works.rows, Underway s w
  apart : ∀ w ∈ s.works.rows, ∀ w' ∈ s.works.rows, w.rollout = w'.rollout → w = w'
  idle : ∀ id row, s.rollout id = some row → row.status = .canary →
    (∀ w ∈ s.works.rows, w.rollout ≠ id) → ∀ q ∈ s.log, q.rollout = id →
      q.ring = .canary ∧ q.job ∈ row.canaryJobIds
  first : CanaryFirst s

theorem Underway.transport {s t : State} {w : Work} (h : Underway s w)
    (hrow : t.rollout w.rollout = s.rollout w.rollout)
    (hlog : ∀ q ∈ t.log, q.rollout = w.rollout → q ∈ s.log)
    (hjobs : ∀ job, s.Completed job → t.Completed job)
    (hrest : ∀ id ∈ w.rest, s.rollout id ≠ none → t.rollout id ≠ none) : Underway t w where
  row := hrow ▸ h.row
  pending := h.pending
  fresh q hq hr := h.fresh q (hlog q hq hr) hr
  canary hring q hq hr := h.canary hring q (hlog q hq hr) hr
  default hring q hq hr hc := hjobs q.job (h.default hring q (hlog q hq hr) hr hc)
  rest id hid := hrest id hid (h.rest id hid)

theorem CanaryFirst.transport {s t : State} (h : CanaryFirst s) (hlog : t.log = s.log)
    (hjobs : ∀ job, s.Completed job → t.Completed job) : CanaryFirst t where
  completed q hq hring c hc hr hcring :=
    hjobs c.job (h.completed q (hlog ▸ hq) hring c (hlog ▸ hc) hr hcring)
  once := hlog ▸ h.once

theorem Kept.completed {s t : State} (h : Kept s t) {job : String} (hc : s.Completed job) :
    t.Completed job := by
  obtain ⟨row, hrow, hstatus⟩ := Option.map_eq_some_iff.mp hc
  rw [State.Completed, h.jobs job row hrow, Option.map_some, hstatus]

theorem Kept.rollout_ne_none {s t : State} (h : Kept s t) {id : String} (hid : s.rollout id ≠ none) :
    t.rollout id ≠ none := by
  intro hnone
  have hmap := h.rollouts id
  rw [hnone, Option.map_none] at hmap
  exact hid (Option.map_eq_none_iff.mp hmap.symm)

/-- A rollout that only process `proc` has in the middle of a ring. -/
def State.OnlyOf (s : State) (proc : ℕ) (id : String) : Prop :=
  ∀ w ∈ s.works.rows, w.rollout = id → w.id = proc

theorem ringState_done {db : Db} {jobIds : List String} {job : Jobs.Job}
    (h : ringState db jobIds = (true, none)) (hid : job.id ∈ jobIds)
    (hjob : db.jobs.lookup job.id = some job) : job.status = .completed := by
  unfold ringState at h
  rw [if_neg (List.ne_nil_of_mem hid)] at h
  simp only at h
  split at h
  · cases h
  have hall := (Bool.and_eq_true_iff.mp (Prod.mk.inj h).1).1
  have hmem : job ∈ db.jobs.rows.filter fun job => job.id ∈ jobIds :=
    List.mem_filter.mpr ⟨(Table.lookup_eq_some.mp hjob).1, decide_eq_true hid⟩
  exact of_decide_eq_true (List.all_eq_true.mp hall job hmem)

theorem activeAgents_nodup (db : Db) : ((activeAgents db).map RemoteAgent.id).Nodup := by
  have hperm := (List.perm_insertionSort (fun a b : RemoteAgent => a.name ≤ b.name)
    (db.agents.rows.filter RemoteAgent.isActive)).map RemoteAgent.id
  exact hperm.nodup_iff.mpr (db.agents.nodup.sublist (List.filter_sublist.map _))

/-- The call of `_queue_ring` on `w` may go on. -/
theorem underway_of_ready {s : State} {todo : List String} {row : Rollout} {w : Work}
    (hs : Orderly s) (hsound : Sound s) (htodo : ∀ id ∈ todo, s.rollout id ≠ none)
    (hrow : s.rollout w.rollout = some row) (hfree : s.OnlyOf w.id w.rollout)
    (h : w ∈ s.works.rows ∨ Begins s todo row w) : Underway s w := by
  obtain hw | hbegins := h
  · exact hs.works w hw
  · have hid : row.id = w.rollout := Table.lookup_key hrow
    have hnone : ∀ w' ∈ s.works.rows, w'.rollout ≠ w.rollout := fun w' hw' hr =>
      Table.lookup_eq_none.mp hbegins.idle w' hw' (hfree w' hw' hr)
    have hlog := hs.idle w.rollout row hrow hbegins.status hnone
    refine ⟨⟨row, hrow, hbegins.status⟩, ?_, ?_, ?_, ?_, fun id hid => htodo id (hbegins.rest id hid)⟩
    · rw [hbegins.pending]
      exact activeAgents_nodup s.db
    · intro q hq hr hring
      obtain ⟨-, -, hnew⟩ | ⟨hdefault, -⟩ := hbegins.ring
      · exact absurd (hr.trans hid.symm) (hnew q hq)
      · rw [hdefault, (hlog q hq hr).1] at hring
        cases hring
    · intro hcanary q hq hr
      obtain ⟨-, -, hnew⟩ | ⟨hdefault, -⟩ := hbegins.ring
      · exact absurd (hr.trans hid.symm) (hnew q hq)
      · rw [hdefault] at hcanary
        cases hcanary
    · intro hring q hq hr hcanary
      obtain ⟨hcanary', -⟩ | ⟨-, hdone⟩ := hbegins.ring
      · rw [hcanary'] at hring
        cases hring
      · obtain ⟨job, hjob⟩ := Option.isSome_iff_exists.mp (hsound.jobs q hq)
        have hkey := Table.lookup_key hjob
        rw [← hkey] at hjob
        have hcompleted := ringState_done hdone (hkey ▸ (hlog q hq hr).2) hjob
        rw [State.Completed, ← hkey, hjob, Option.map_some, hcompleted]

/-! ### Moves -/

/-- What a queued job leaves of the calls and the log. -/
theorem Orderly.queue {s : State} {release : Release} {agent : String}
    {request : Jobs.JobRequest} {pending : List String} {skipped : Dict} {jobs : Table Jobs.Job.id}
    {w : Work} {seg : Segment} (hs : Orderly s) (hsound : Sound s) (hready : Underway s w)
    (hfree : s.OnlyOf w.id w.rollout)
    (hown : ∀ w' ∈ s.works.rows, w'.id = w.id → w'.rollout = w.rollout) (hpending : agent :: pending <:+ w.pending)
    (hagent : ∃ a, s.db.agents.lookup agent = some a ∧
      w.call.consider s.db release a = .queue request)
    (hjobs : s.db.jobs.insert (Jobs.createJob seg.jobId seg.now none request) = some jobs) :
    Orderly
      { db := { s.db with jobs }
        works := s.works.put { w with pending, skipped, queued := w.queued ++ [seg.jobId] }
        log := s.log ++ [⟨w.rollout, w.call.which, agent, seg.jobId⟩] } := by
  generalize ht : State.mk { s.db with jobs }
    (s.works.put { w with pending, skipped, queued := w.queued ++ [seg.jobId] })
    (s.log ++ [⟨w.rollout, w.call.which, agent, seg.jobId⟩]) = t
  have hrows : ∀ id, t.rollout id = s.rollout id := by
    subst ht
    exact fun _ => rfl
  have hcompleted : ∀ job, s.Completed job → t.Completed job := by
    subst ht
    exact fun _ hc => (insert_kept hjobs).completed hc
  have hlog : ∀ q ∈ t.log, q ∈ s.log ∨ q = ⟨w.rollout, w.call.which, agent, seg.jobId⟩ := by
    subst ht
    intro q hq
    exact (List.mem_append.mp hq).imp_right List.mem_singleton.mp
  have hworks : ∀ w' ∈ t.works.rows, w' = { w with pending, skipped, queued := w.queued ++ [seg.jobId] } ∨
      (w' ∈ s.works.rows ∧ w'.rollout ≠ w.rollout) := by
    subst ht
    intro w' hw'
    exact (Table.mem_put.mp hw').imp_right fun h => ⟨h.1, fun hr => h.2 (hfree w' h.1 hr)⟩
  have hkeep : ∀ w' ∈ s.works.rows, w'.rollout ≠ w.rollout → w' ∈ t.works.rows := by
    subst ht
    exact fun w' hw' hne => Table.mem_put.mpr (.inr ⟨hw', fun hid => hne (hown w' hw' hid)⟩)
  have hput : ∃ w' ∈ t.works.rows, w'.rollout = w.rollout := by
    subst ht
    exact ⟨_, Table.mem_put.mpr (.inl rfl), rfl⟩
  have hold : ∀ id, id ≠ w.rollout → ∀ q ∈ t.log, q.rollout = id → q ∈ s.log := by
    intro id hne q hq hr
    obtain hq | rfl := hlog q hq
    · exact hq
    · exact absurd hr.symm hne
  have hnodup : (agent :: pending).Nodup := hready.pending.sublist hpending.sublist
  obtain ⟨hnotin, hnodup⟩ := List.nodup_cons.mp hnodup
  have hsubset : ∀ id ∈ pending, id ∈ w.pending :=
    fun id hid => hpending.subset (List.mem_cons_of_mem _ hid)
  refine ⟨fun w' hw' => ?_, fun w₁ hw₁ w₂ hw₂ hr => ?_, fun id row' hrow' hstatus hnone q hq hr => ?_, ?_⟩
  · obtain rfl | ⟨hw', hne⟩ := hworks w' hw'
    · refine ⟨?_, hnodup, fun q hq hr hring hmem => ?_, fun hring q hq hr => ?_,
        fun hring q hq hr hc => ?_, fun id hid => ?_⟩
      · exact (hrows w.rollout).symm ▸ hready.row
      · obtain hq | rfl := hlog q hq
        · exact hready.fresh q hq hr hring (hsubset _ hmem)
        · exact hnotin hmem
      · obtain hq | rfl := hlog q hq
        · obtain ⟨hc, hjob⟩ := hready.canary hring q hq hr
          exact ⟨hc, List.mem_append_left _ hjob⟩
        · exact ⟨hring, List.mem_append_right _ List.mem_cons_self⟩
      · obtain hq | rfl := hlog q hq
        · exact hcompleted _ (hready.default hring q hq hr hc)
        · rw [hring] at hc
          cases hc
      · rw [hrows]
        exact hready.rest id hid
    · exact (hs.works w' hw').transport (hrows _) (hold w'.rollout hne) hcompleted
        fun id _ hid => by rw [hrows]; exact hid
  · obtain rfl | ⟨hw₁, hne₁⟩ := hworks w₁ hw₁
    · obtain rfl | ⟨hw₂, hne₂⟩ := hworks w₂ hw₂
      · rfl
      · exact absurd hr.symm hne₂
    · obtain rfl | ⟨hw₂, hne₂⟩ := hworks w₂ hw₂
      · exact absurd hr hne₁
      · exact hs.apart w₁ hw₁ w₂ hw₂ hr
  · have hne : id ≠ w.rollout := by
      rintro rfl
      obtain ⟨w', hw', hr'⟩ := hput
      exact hnone w' hw' hr'
    refine hs.idle id row' (hrows id ▸ hrow') hstatus (fun w' hw' hr' => ?_) q (hold id hne q hq hr) hr
    exact hnone w' (hkeep w' hw' (hr' ▸ hne)) hr'
  · have hnew : ∀ q ∈ s.log, q.agent = agent → q.rollout ≠ w.rollout := by
      intro q hq hname hr
      obtain ⟨a, ha, hconsider⟩ := hagent
      obtain ⟨a', ha', hring⟩ := hsound.rings q hq
      rw [hname, ha] at ha'
      obtain rfl := Option.some.inj ha'
      have hsame := hring.symm.trans (consider_queue_ring hconsider)
      have hmem := hpending.subset List.mem_cons_self
      exact hready.fresh q hq hr hsame (hname ▸ hmem)
    refine ⟨fun q hq hring c hc hr hcanary => ?_, ?_⟩
    · obtain hq | rfl := hlog q hq
      · obtain hc | rfl := hlog c hc
        · exact hcompleted _ (hs.first.completed q hq hring c hc hr hcanary)
        · -- a canary job behind a default one: the canary ring of `w` has no default jobs
          have hcontra := (hready.canary hcanary q hq hr.symm).1
          rw [hring] at hcontra
          cases hcontra
      · obtain hc | rfl := hlog c hc
        · exact hcompleted _ (hready.default hring c hc hr hcanary)
        · rw [hcanary] at hring
          cases hring
    · subst ht
      simp only [List.map_append, List.map_cons, List.map_nil]
      refine List.nodup_append.mpr ⟨hs.first.once, List.nodup_singleton _, ?_⟩
      intro x hx y hy hxy
      obtain ⟨q, hq, rfl⟩ := List.mem_map.mp hx
      obtain rfl := List.mem_singleton.mp hy
      obtain ⟨hr, hname⟩ := Prod.mk.inj hxy
      exact hnew q hq hname hr

/-- A write to a rollout that has no call left in the middle of a ring. -/
theorem Orderly.write {s : State} {id : String} {f : Rollout → Rollout} (works : Table Work.id)
    (hs : Orderly s) (hf : ∀ r, (f r).id = r.id) (hrelease : ∀ r, (f r).releaseId = r.releaseId)
    (hworks : ∀ w, w ∈ works.rows ↔ w ∈ s.works.rows ∧ w.rollout ≠ id)
    (hidle : ∀ row, s.rollout id = some row → (f row).status = .canary → ∀ q ∈ s.log,
      q.rollout = id → q.ring = .canary ∧ q.job ∈ (f row).canaryJobIds) :
    Orderly { s.setRollout id f hf with works } := by
  have hkept := setRollout_kept s works id hf hrelease
  generalize ht : { s.setRollout id f hf with works } = t at hkept
  have hrows : ∀ id', t.rollout id' = if id' = id then (s.rollout id').map f else s.rollout id' := by
    subst ht
    exact fun id' => s.rollout_setRollout id id' f hf
  have hlog : t.log = s.log := by
    subst ht
    rfl
  have hworks : ∀ w, w ∈ t.works.rows ↔ w ∈ s.works.rows ∧ w.rollout ≠ id := by
    subst ht
    exact hworks
  refine ⟨fun w hw => ?_, fun w hw w' hw' => ?_, fun id' row hrow hstatus hnone => ?_, ?_⟩
  · obtain ⟨hw, hne⟩ := (hworks w).mp hw
    exact (hs.works w hw).transport ((hrows w.rollout).trans (if_neg hne)) (fun q hq _ => hlog ▸ hq)
      (fun _ hc => hkept.completed hc) fun _ _ hne => hkept.rollout_ne_none hne
  · exact hs.apart w ((hworks w).mp hw).1 w' ((hworks w').mp hw').1
  · rw [hlog]
    rw [hrows] at hrow
    split at hrow
    next hid =>
      subst hid
      obtain ⟨row', hrow', rfl⟩ := Option.map_eq_some_iff.mp hrow
      exact hidle row' hrow' hstatus
    next hid =>
      exact hs.idle id' row hrow hstatus fun w hw hr => hnone w ((hworks w).mpr ⟨hw, hr ▸ hid⟩) hr
  · exact hs.first.transport hlog fun _ hc => hkept.completed hc

theorem mem_works_erase {s : State} {w : Work} (hfree : s.OnlyOf w.id w.rollout)
    (hown : ∀ w' ∈ s.works.rows, w'.id = w.id → w'.rollout = w.rollout) (w' : Work) :
    w' ∈ (s.works.erase w.id).rows ↔ w' ∈ s.works.rows ∧ w'.rollout ≠ w.rollout := by
  rw [Table.mem_erase]
  constructor
  · rintro ⟨hw', hne⟩
    exact ⟨hw', fun hr => hne (hfree w' hw' hr)⟩
  · rintro ⟨hw', hne⟩
    exact ⟨hw', fun hid => hne (hown w' hw' hid)⟩

theorem Orderly.move {s t : State} {proc : ℕ} {todo : List String} {id : String} (hs : Orderly s)
    (hsound : Sound s) (htodo : ∀ id ∈ todo, s.rollout id ≠ none) (hfree : s.OnlyOf proc id)
    (h : Move s proc todo id t) : Orderly t := by
  cases h with
  | @mark _ row f hidle hrow hmarks =>
    have hnone : ∀ w ∈ s.works.rows, w.rollout ≠ id := fun w hw hr =>
      Table.lookup_eq_none.mp hidle w hw (hfree w hw hr)
    refine Orderly.write s.works hs hmarks.id hmarks.releaseId
      (fun w => ⟨fun hw => ⟨hw, hnone w hw⟩, And.left⟩) fun row hrow hstatus => ?_
    rw [hmarks.canaryJobIds]
    obtain hsame | hother := hmarks.status row
    · exact hs.idle id row hrow (hsame ▸ hstatus) hnone
    · exact absurd hstatus hother
  | @queue row release agent request pending skipped jobs w seg hproc hrow hrelease hready hpending
      hagent hjobs =>
    subst hproc
    refine hs.queue hsound (underway_of_ready hs hsound htodo hrow hfree hready) hfree ?_ hpending
      hagent hjobs
    intro w' hw' hid
    obtain hw | hbegins := hready
    · obtain rfl : w' = w := Table.eq_of_key hw' hw hid
      rfl
    · exact absurd hid (Table.lookup_eq_none.mp hbegins.idle w' hw')
  | @closeCanary w skipped hwork hproc hring =>
    subst hproc
    refine Orderly.write (f := Rollout.record w skipped) _ hs (fun _ => rfl) (fun _ => rfl)
      (mem_works_erase hfree fun w' hw' hid => ?_)
      fun row hrow hstatus q hq hr => (hs.works w hwork).canary hring q hq hr
    obtain rfl : w' = w := Table.eq_of_key hw' hwork hid
    rfl
  | @closeDefault w row hproc hrow hown =>
    subst hproc
    refine Orderly.write (f := Rollout.close w) _ hs (fun _ => rfl) (fun _ => rfl)
      (mem_works_erase hfree hown) fun row hrow hstatus => ?_
    cases hstatus

/-- A move leaves the calls of other processes alone. -/
theorem Move.others {s t : State} {proc : ℕ} {todo : List String} {id : String}
    (h : Move s proc todo id t) : ∀ w ∈ t.works.rows, w.id ≠ proc → w ∈ s.works.rows := by
  intro w hw hne
  cases h with
  | mark => exact hw
  | queue hproc =>
    obtain rfl | ⟨hw, -⟩ := Table.mem_put.mp hw
    · exact absurd hproc hne
    · exact hw
  | closeCanary => exact (Table.mem_erase.mp hw).1
  | closeDefault => exact (Table.mem_erase.mp hw).1

theorem Orderly.path {s t : State} {proc : ℕ} {todo : List String} {R : String → Prop}
    (hs : Orderly s) (hsound : Sound s) (htodo : ∀ id ∈ todo, s.rollout id ≠ none)
    (hfree : ∀ id, R id → s.OnlyOf proc id) (h : Path proc todo R s t) : Orderly t := by
  have hall : Orderly t ∧ Sound t ∧ Kept s t ∧ ∀ w ∈ t.works.rows, w.id ≠ proc → w ∈ s.works.rows := by
    refine h.induct (I := fun u => Orderly u ∧ Sound u ∧ Kept s u ∧
      ∀ w ∈ u.works.rows, w.id ≠ proc → w ∈ s.works.rows) ?_ ⟨hs, hsound, .refl s, fun _ hw _ => hw⟩
    intro u v id hid hu hmove
    obtain ⟨hu, husound, hkept, hothers⟩ := hu
    have hfree' : u.OnlyOf proc id := by
      intro w hw hr
      by_contra hne
      exact hne (hfree id hid w (hothers w hw hne) hr)
    refine ⟨hu.move husound (fun id hid => hkept.rollout_ne_none (htodo id hid)) hfree' hmove,
      husound.move hmove, hkept.trans hmove.kept, fun w hw hne => ?_⟩
    exact hothers w (hmove.others w hw hne) hne
  exact hall.1

/-! ### Steps and runs -/

def Event.deletes : Event → Option String
  | .delete releaseId => some releaseId
  | _ => none

/-- The step's pass looks at no rollout that another call has in the middle of a ring, and the
step deletes no rollout that a pass under way has still to look at. -/
def Undisturbed (s : State) (event : Event) : Prop :=
  (∀ proc ∈ event.pass, ∀ id ∈ s.looksAt event, s.OnlyOf proc id) ∧
    ∀ releaseId ∈ event.deletes, ∀ w ∈ s.works.rows, ∀ row ∈ s.db.rollouts.rows,
      row.id ∈ w.rest → row.releaseId = releaseId →
        ∃ kept ∈ s.db.rollouts.rows, kept.releaseId = releaseId ∧ kept.status.live

instance (s : State) (proc : ℕ) (id : String) : Decidable (s.OnlyOf proc id) :=
  inferInstanceAs (Decidable (∀ w ∈ s.works.rows, _))

instance (s : State) (event : Event) : Decidable (Undisturbed s event) :=
  inferInstanceAs (Decidable (_ ∧ _))

theorem Orderly.readable {s : State} {w : Work} (hs : Orderly s) (hsound : Sound s)
    (hw : w ∈ s.works.rows) : Readable s w := by
  obtain ⟨row, hrow, -⟩ := (hs.works w hw).row
  exact ⟨⟨row, hrow, hsound.releases _ row hrow⟩, hsound.agents w hw⟩

theorem Orderly.of_same {s t : State} (hs : Orderly s) (hrows : ∀ id, t.rollout id = s.rollout id)
    (hworks : t.works = s.works) (hlog : t.log = s.log)
    (hjobs : ∀ job, s.Completed job → t.Completed job) : Orderly t := by
  refine ⟨fun w hw => ?_, ?_, ?_, hs.first.transport hlog hjobs⟩
  · exact (hs.works w (hworks ▸ hw)).transport (hrows _) (fun q hq _ => hlog ▸ hq) hjobs
      fun id _ hid => (hrows id).symm ▸ hid
  · rw [hworks]
    exact hs.apart
  · intro id row hrow
    rw [hworks, hlog]
    exact hs.idle id row (hrows id ▸ hrow)

/-- A new rollout has no call and no jobs. -/
theorem Orderly.insert {s : State} {row : Rollout} {rollouts : Table Rollout.id} (hs : Orderly s)
    (hnew : ∀ q ∈ s.log, q.rollout ≠ row.id) (hrow : s.db.rollouts.insert row = some rollouts) :
    Orderly { s with db := { s.db with rollouts } } := by
  have hkeep : ∀ {id row'}, s.rollout id = some row' → rollouts.lookup id = some row' :=
    fun h => Table.lookup_insert_of_some hrow h
  have hfree : s.rollout row.id = none := (Table.insert_eq_some hrow).1
  refine ⟨fun w hw => ?_, hs.apart, fun id row' hrow' hstatus hnone => ?_, ⟨hs.first.completed, hs.first.once⟩⟩
  · have h := hs.works w hw
    refine ⟨?_, h.pending, h.fresh, h.canary, h.default, fun id hid => ?_⟩
    · obtain ⟨row', hrow', hstatus⟩ := h.row
      exact ⟨row', hkeep hrow', hstatus⟩
    · obtain ⟨row', hrow'⟩ := Option.ne_none_iff_exists'.mp (h.rest id hid)
      have hsome : rollouts.lookup id = some row' := hkeep hrow'
      exact fun hnone => Option.some_ne_none row' (hsome.symm.trans hnone)
  · have hlookup : rollouts.lookup id = some row' := hrow'
    rw [Table.lookup_insert hrow] at hlookup
    split at hlookup
    next hid => exact fun q hq hr => absurd (hr.trans hid) (hnew q hq)
    next => exact hs.idle id row' hlookup hstatus hnone

theorem completed_change {s : State} {id job : String} {change : JobChange} (hc : s.Completed job) :
    State.Completed { s with db := { s.db with
      jobs := s.db.jobs.modify id change.apply fun job => (change.apply_same job).id } } job := by
  obtain ⟨row, hrow, hstatus⟩ := Option.map_eq_some_iff.mp hc
  have hlookup := Table.lookup_modify s.db.jobs id job change.apply
    fun job => (change.apply_same job).id
  have hsame : change.apply row = row := JobChange.apply_final (.inl hstatus)
  rw [hrow, Option.map_some, hsame, ite_self] at hlookup
  exact (congrArg (Option.map Jobs.Job.status) hlookup).trans (congrArg some hstatus)

/-- A deletion that spares what the passes under way have still to look at. -/
theorem Orderly.delete {s : State} {releaseId : String} (hs : Orderly s)
    (hspared : ∀ w ∈ s.works.rows, ∀ row ∈ s.db.rollouts.rows, row.id ∈ w.rest →
      row.releaseId = releaseId →
        ∃ kept ∈ s.db.rollouts.rows, kept.releaseId = releaseId ∧ kept.status.live) :
    Orderly { s with db := deleteRelease s.db releaseId } := by
  obtain heq | ⟨hlive, hrows, -, -, hjobs⟩ := deleteRelease_spec s.db releaseId
  · rw [heq]
    exact hs
  generalize ht : { s with db := deleteRelease s.db releaseId } = t
  have hrows : ∀ id row, t.rollout id = some row ↔ s.rollout id = some row ∧ row.releaseId ≠ releaseId := by
    subst ht
    intro id row
    refine Table.lookup_eq_some.trans ?_
    rw [hrows, and_right_comm]
    exact and_congr_left' Table.lookup_eq_some.symm
  have hlog : t.log = s.log ∧ t.works = s.works := by
    subst ht
    exact ⟨rfl, rfl⟩
  have hcompleted : ∀ job, s.Completed job → t.Completed job := by
    subst ht
    intro job hc
    rw [State.Completed, hjobs]
    exact hc
  obtain ⟨hlog, hworks⟩ := hlog
  refine ⟨fun w hw => ?_, hworks ▸ hs.apart, fun id row hrow => ?_, hs.first.transport hlog hcompleted⟩
  · rw [hworks] at hw
    have h := hs.works w hw
    refine ⟨?_, h.pending, hlog ▸ h.fresh, hlog ▸ h.canary, fun hring q hq hr hc => ?_, fun id hid => ?_⟩
    · obtain ⟨row, hrow, hstatus⟩ := h.row
      refine ⟨row, (hrows _ row).mpr ⟨hrow, fun hid => ?_⟩, hstatus⟩
      have hover := hlive row (Table.lookup_eq_some.mp hrow).1 hid
      rw [hstatus] at hover
      cases hover
    · exact hcompleted _ (h.default hring q (hlog ▸ hq) hr hc)
    · obtain ⟨row, hrow⟩ := Option.ne_none_iff_exists'.mp (h.rest id hid)
      obtain ⟨hmem, rfl⟩ := Table.lookup_eq_some.mp hrow
      have hkept : t.rollout row.id = some row := by
        refine (hrows _ row).mpr ⟨hrow, fun hrelease => ?_⟩
        obtain ⟨kept, hkept, hid', hlive'⟩ := hspared w hw row hmem hid hrelease
        rw [hlive kept hkept hid'] at hlive'
        cases hlive'
      rw [hkept]
      exact Option.some_ne_none row
  · rw [hworks, hlog]
    exact hs.idle id row ((hrows id row).mp hrow).1

theorem Orderly.effect {s t : State} {event : Event} (hs : Orderly s) (hsound : Sound s)
    (hcalm : Undisturbed s event) (h : Effect s event t) : Orderly t := by
  cases h with
  | idle => exact hs
  | setLag => exact hs.of_same (fun _ => rfl) rfl rfl fun _ hc => hc
  | agents => exact hs.of_same (fun _ => rfl) rfl rfl fun _ hc => hc
  | add => exact hs.of_same (fun _ => rfl) rfl rfl fun _ hc => hc
  | @call _ proc todo _ hproc htodo hpath =>
    refine hs.path hsound (fun id hid => ?_) (fun id hid => ?_) hpath
    · obtain hsome | ⟨w, hw, -, hrest⟩ := htodo id hid
      · exact hsome
      · exact (hs.works w hw).rest id hrest
    · obtain hseen | ⟨w, hw, rfl, rfl⟩ := hid
      · exact hcalm.1 proc hproc id hseen
      · intro w' hw' hr
        obtain rfl := hs.apart w' hw' w hw hr
        rfl
  | @begun _ proc row rollouts _ hidle hnew hrow hrelease hpath =>
    have hbegun := hs.insert hnew hrow
    have hfree : s.rollout row.id = none := (Table.insert_eq_some hrow).1
    refine hbegun.path (hsound.insert hrow hrelease) (fun _ hid => absurd hid List.not_mem_nil) ?_ hpath
    rintro id rfl w hw hr
    obtain ⟨row', hrow', -⟩ := (hs.works w hw).row
    rw [hr, hfree] at hrow'
    cases hrow'
  | lost hw hgone =>
    obtain hstuck | ⟨id, hid, hnone⟩ := hgone
    · exact absurd (hs.readable hsound hw) hstuck
    · exact absurd hnone ((hs.works _ hw).rest id hid)
  | job change => exact hs.of_same (fun _ => rfl) rfl rfl fun job hc => completed_change hc
  | create hjobs =>
    exact hs.of_same (fun _ => rfl) rfl rfl fun _ hc => (insert_kept hjobs).completed hc
  | delete => exact hs.delete (hcalm.2 _ rfl)

theorem Orderly.step {s t : State} {event : Event} (hs : Orderly s) (hsound : Sound s)
    (hcalm : Undisturbed s event) (h : rolloutSystem.step s event = some t) : Orderly t :=
  hs.effect hsound hcalm (advance_effect hsound.queued h)

theorem Orderly.initial (db : Db) : Orderly (State.initial db) where
  works _ hw := absurd hw List.not_mem_nil
  apart _ hw := absurd hw List.not_mem_nil
  idle _ _ _ _ _ _ hq := absurd hq List.not_mem_nil
  first := ⟨fun _ hq => absurd hq List.not_mem_nil, List.nodup_nil⟩

/-- In every run without such a disturbance the default ring of a rollout follows its completed
canaries, and no agent has two jobs of a rollout. -/
theorem canary_first {db : Db} {events : List Event} (hdb : ForeignKeys db)
    (h : rolloutSystem.Along Undisturbed (State.initial db) events) :
    rolloutSystem.Always CanaryFirst (State.initial db) events := by
  have hrun : rolloutSystem.Always (fun s => Orderly s ∧ Sound s) (State.initial db) events := by
    refine rolloutSystem.always_of_along (G := Undisturbed) ?_ ⟨.initial db, .initial hdb⟩ h
    rintro s event t ⟨hs, hsound⟩ hcalm hstep
    exact ⟨hs.step hsound hcalm hstep, hsound.step hstep⟩
  exact rolloutSystem.always_mono (fun s hs => hs.1.first) hrun

/-! ### Two runs -/

def sampleAgent (id : String) (upgradeRing : Option String) : RemoteAgent where
  id := id
  name := id
  isActive := true
  authMode := some "spiffe"
  agentVersion := "2.10.0"
  controlUpgrades := true
  controlUpdater := true
  paused := false
  upgradeRing := upgradeRing
  workstream := none

def sampleRelease : Release where
  id := "r1"
  version := "2.11.0"
  repository := defaultRepository
  digest := "sha256:aa"
  source := "registry"
  notes := none
  createdBy := "ann"

/- One canary, one other agent, one release. -/
def sampleFleet : Db where
  agents := ⟨[sampleAgent "a1" (some "canary"), sampleAgent "b1" none], by decide⟩
  releases := ⟨[sampleRelease], by decide⟩
  rollouts := .empty
  jobs := .empty
  lag := 0
  workstreamLags := []

def sampleSegment (jobId : String) (now : Instant) : Segment := ⟨jobId, now, fun _ => .ok {}⟩

def startSample : Event := .start 1 (sampleSegment "j1" 10) "ro1" "r1" "ann" "" {}

def canaryReport : Jobs.Report := ⟨"completed", [("version", .str "2.11.0")], ""⟩

/- The canary ring is closed, its job completes, and a pass queues the default ring. -/
def calmRun : List Event :=
  [startSample, .resume 1 (sampleSegment "x1" 20), .job "j1" (.lease 30), .sweep 2 (sampleSegment "x2" 40),
   .job "j1" (.complete "a1" ⟨true, none⟩ 50 canaryReport), .sweep 2 (sampleSegment "j2" 60),
   .resume 2 (sampleSegment "x3" 70)]

theorem canary_first_calmRun : rolloutSystem.Always CanaryFirst (State.initial sampleFleet) calmRun ∧
    (rolloutSystem.exec (State.initial sampleFleet) calmRun).map
      (fun s => s.log.map fun q => (q.ring, q.agent)) =
        some [(.canary, "a1"), (.default, "b1")] := by
  refine ⟨canary_first (by decide) (by decide +kernel), by decide +kernel⟩

/-- A pass of another process between the first canary job and the end of the canary ring finds
no canary to wait for. -/
theorem default_before_canary : ForeignKeys sampleFleet ∧
    ¬rolloutSystem.Always CanaryFirst (State.initial sampleFleet)
      [startSample, .sweep 2 (sampleSegment "j2" 20)] := by
  refine ⟨by decide, by decide +kernel⟩

end Rollouts
