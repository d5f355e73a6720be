import VmDashboard.Rollouts.Machine
import Mathlib.Logic.Relation

/-!
# What a call does between two commits, write by write

A step of a call is a sequence of `Move`s, each on one rollout: its row is
written, a job of one of its rings is queued, or a ring is closed. The proofs
about rollouts look at the moves only.
-/

namespace Rollouts
open Machine (Table)
open Python (Dict Instant)

def State.rollout (s : State) (id : String) : Option Rollout := s.db.rollouts.lookup id

def Work.rollout (w : Work) : String := w.call.rollout

def Work.rest (w : Work) : List String :=
  match w.origin with
  | .start => []
  | .sweep rest => rest

/-- The ring `w` stands at the beginning of: the canary ring of a rollout without jobs, or the
default ring of one whose recorded canaries are done. `todo` holds what its pass may still have
to look at. -/
structure Begins (s : State) (todo : List String) (row : Rollout) (w : Work) : Prop where
  status : row.status = .canary
  queued : w.queued = []
  pending : w.pending = (activeAgents s.db).map RemoteAgent.id
  idle : s.works.lookup w.id = none
  rest : ∀ id ∈ w.rest, id ∈ todo
  ring : (w.call.which = .canary ∧ w.origin = .start ∧ ∀ q ∈ s.log, q.rollout ≠ row.id) ∨
    (w.call.which = .default ∧ ringState s.db row.canaryJobIds = (true, none))

/-- A write to a row that ends its rollout or only annotates it. -/
structure Marks (f : Rollout → Rollout) : Prop where
  id : ∀ r, (f r).id = r.id
  releaseId : ∀ r, (f r).releaseId = r.releaseId
  canaryJobIds : ∀ r, (f r).canaryJobIds = r.canaryJobIds
  status : ∀ r, (f r).status = r.status ∨ (f r).status ≠ .canary

theorem Rollout.stop_marks (now : Instant) (detail : String) : Marks (Rollout.stop now detail) :=
  ⟨fun _ => rfl, fun _ => rfl, fun _ => rfl, fun _ => .inr (by simp [Rollout.stop])⟩

theorem Rollout.finish_marks (now : Instant) : Marks (Rollout.finish now) :=
  ⟨fun _ => rfl, fun _ => rfl, fun _ => rfl, fun _ => .inr (by simp [Rollout.finish])⟩

theorem Rollout.note_marks (detail : Option String) : Marks (Rollout.note detail) :=
  ⟨fun _ => rfl, fun _ => rfl, fun _ => rfl, fun _ => .inl rfl⟩

/-- One write of process `proc`, on the rollout `id`. -/
inductive Move (s : State) (proc : ℕ) (todo : List String) : String → State → Prop
  /-- The rollout is stopped, finished or annotated. -/
  | mark {id row f} (hidle : s.works.lookup proc = none) (hrow : s.rollout id = some row)
      (hmarks : Marks f) : Move s proc todo id (s.setRollout id f hmarks.id)
  /-- A job is queued for the next agent of the ring, and committed. -/
  | queue {row release agent request pending skipped jobs} {w : Work} {seg : Segment}
      (hproc : w.id = proc) (hrow : s.rollout w.rollout = some row)
      (hrelease : s.db.releases.lookup row.releaseId = some release)
      (hready : w ∈ s.works.rows ∨ Begins s todo row w)
      (hpending : agent :: pending <:+ w.pending)
      (hagent : ∃ a, s.db.agents.lookup agent = some a ∧
        w.call.consider s.db release a = .queue request)
      (hjobs : s.db.jobs.insert (Jobs.createJob seg.jobId seg.now none request) = some jobs) :
      Move s proc todo w.rollout
        { db := { s.db with jobs }
          works := s.works.put { w with pending, skipped, queued := w.queued ++ [seg.jobId] }
          log := s.log ++ [⟨w.rollout, w.call.which, agent, seg.jobId⟩] }
  /-- The canary ring is through, and its jobs are recorded. -/
  | closeCanary {w : Work} {skipped} (hwork : w ∈ s.works.rows) (hproc : w.id = proc)
      (hring : w.call.which = .canary) :
      Move s proc todo w.rollout
        { s.setRollout w.rollout (Rollout.record w skipped) fun _ => rfl with
          works := s.works.erase w.id }
  /-- The default ring is through. -/
  | closeDefault {w : Work} {row} (hproc : w.id = proc) (hrow : s.rollout w.rollout = some row)
      (hown : ∀ w' ∈ s.works.rows, w'.id = w.id → w'.rollout = w.rollout) :
      Move s proc todo w.rollout (s.closeDefault w)

/-- Moves of `proc` on rollouts in `R`. -/
def Path (proc : ℕ) (todo : List String) (R : String → Prop) : State → State → Prop :=
  Relation.ReflTransGen fun s t => ∃ id, R id ∧ Move s proc todo id t

theorem Path.mono {proc : ℕ} {todo : List String} {R R' : String → Prop} {s t : State} (hR : ∀ id, R id → R' id)
    (h : Path proc todo R s t) : Path proc todo R' s t := by
  refine Relation.ReflTransGen.mono ?_ s t h
  intro u v hmove
  obtain ⟨id, hid, hmove⟩ := hmove
  exact ⟨id, hR id hid, hmove⟩

theorem Path.single {proc : ℕ} {todo : List String} {R : String → Prop} {s t : State} {id : String} (hid : R id)
    (h : Move s proc todo id t) : Path proc todo R s t :=
  Relation.ReflTransGen.single ⟨id, hid, h⟩

/-! ### One ring -/

theorem walk_queued {call : RingCall} {db : Db} {release : Release} {pending : List String}
    {skipped : Dict} {agent : String} {request : Jobs.JobRequest} {rest : List String} {skipped' : Dict}
    (h : call.walk db release skipped pending = .queued agent request rest skipped') :
    agent :: rest <:+ pending ∧
      ∃ a, db.agents.lookup agent = some a ∧ call.consider db release a = .queue request := by
  induction pending generalizing skipped with
  | nil => cases h
  | cons id pending ih =>
    have hlater : ∀ {skipped}, call.walk db release skipped pending = .queued agent request rest skipped' →
        agent :: rest <:+ id :: pending ∧
          ∃ a, db.agents.lookup agent = some a ∧ call.consider db release a = .queue request := by
      intro skipped hw
      obtain ⟨hsuffix, hagent⟩ := ih hw
      exact ⟨hsuffix.trans (List.suffix_cons id pending), hagent⟩
    rw [RingCall.walk] at h
    cases ha : db.agents.lookup id with
    | none => simp only [ha] at h; cases h
    | some a =>
      simp only [ha] at h
      cases hc : call.consider db release a with
      | otherRing => simp only [hc] at h; exact hlater h
      | skip reason => simp only [hc] at h; exact hlater h
      | queue request' =>
        simp only [hc] at h
        cases h
        exact ⟨List.suffix_refl _, a, ha, hc⟩

theorem walk_raised {call : RingCall} {db : Db} {release : Release} {pending : List String}
    {skipped : Dict} (h : call.walk db release skipped pending = .raised) :
    ∃ id ∈ pending, db.agents.lookup id = none := by
  induction pending generalizing skipped with
  | nil => cases h
  | cons id pending ih =>
    rw [RingCall.walk] at h
    cases ha : db.agents.lookup id with
    | none => exact ⟨id, List.mem_cons_self, ha⟩
    | some a =>
      have hlater : ∀ {skipped}, call.walk db release skipped pending = .raised →
          ∃ id' ∈ id :: pending, db.agents.lookup id' = none := by
        intro skipped hw
        obtain ⟨id', hmem, hnone⟩ := ih hw
        exact ⟨id', List.mem_cons_of_mem id hmem, hnone⟩
      simp only [ha] at h
      cases hc : call.consider db release a with
      | otherRing => simp only [hc] at h; exact hlater h
      | skip reason => simp only [hc] at h; exact hlater h
      | queue request' => simp only [hc] at h; cases h

/-- The rows a ring call reads are there: its rollout, the release and the agents still to come. -/
structure Readable (s : State) (w : Work) : Prop where
  rollout : ∃ row, s.rollout w.rollout = some row ∧ (s.db.releases.lookup row.releaseId).isSome
  agents : ∀ id ∈ w.pending, (s.db.agents.lookup id).isSome

/-- A ring call that does not raise commits one job, or is through without having written. -/
theorem runRing_cases {s : State} {seg : Segment} {w : Work} {progress : Progress}
    (h : s.runRing seg w = some progress) :
    (progress = .raised ∧ ¬Readable s w) ∨
      ∃ row, s.rollout w.rollout = some row ∧ (s.db.releases.lookup row.releaseId).isSome ∧
        ((∃ skipped, progress = .through { w with pending := [], skipped }) ∨
          ∃ t, progress = .committed t ∧
            (w ∈ s.works.rows ∨ Begins s todo row w → Move s w.id todo w.rollout t)) := by
  unfold State.runRing at h
  cases hrow : s.db.rollouts.lookup w.call.rollout with
  | none =>
    simp only [hrow] at h
    refine .inl ⟨(Option.some.inj h).symm, fun hread => ?_⟩
    obtain ⟨row, hrow', -⟩ := hread.rollout
    exact Option.some_ne_none row (hrow'.symm.trans hrow)
  | some row =>
    cases hrelease : s.db.releases.lookup row.releaseId with
    | none =>
      simp only [hrow, hrelease] at h
      refine .inl ⟨(Option.some.inj h).symm, fun hread => ?_⟩
      obtain ⟨row', hrow', hsome⟩ := hread.rollout
      obtain rfl := Option.some.inj (hrow.symm.trans hrow')
      rw [hrelease] at hsome
      cases hsome
    | some release =>
      have hsome : (s.db.releases.lookup row.releaseId).isSome := by rw [hrelease]; rfl
      simp only [hrow, hrelease] at h
      cases hwalk : w.call.walk s.db release w.skipped w.pending with
      | raised =>
        simp only [hwalk] at h
        refine .inl ⟨(Option.some.inj h).symm, fun hread => ?_⟩
        obtain ⟨id, hid, hnone⟩ := walk_raised hwalk
        have hagent := hread.agents id hid
        rw [hnone] at hagent
        cases hagent
      | finished skipped =>
        simp only [hwalk] at h
        exact .inr ⟨row, hrow, hsome, .inl ⟨skipped, (Option.some.inj h).symm⟩⟩
      | queued agent request pending skipped =>
        simp only [hwalk] at h
        obtain ⟨t, ht, rfl⟩ := Option.map_eq_some_iff.mp h
        obtain ⟨jobs, hjobs, rfl⟩ := Option.map_eq_some_iff.mp ht
        obtain ⟨hsuffix, hagent⟩ := walk_queued hwalk
        refine .inr ⟨row, hrow, hsome, .inr ⟨_, rfl, fun hready => ?_⟩⟩
        exact .queue rfl hrow hrelease hready hsuffix hagent hjobs

theorem activeAgents_lookup {db : Db} {id : String} (h : id ∈ (activeAgents db).map RemoteAgent.id) :
    (db.agents.lookup id).isSome := by
  obtain ⟨agent, hagent, rfl⟩ := List.mem_map.mp h
  have hmem : agent ∈ db.agents.rows :=
    List.mem_of_mem_filter ((List.perm_insertionSort _ _).mem_iff.mp hagent)
  rw [Table.lookup_eq_some.mpr ⟨hmem, rfl⟩]
  rfl

/-! ### A pass -/

theorem State.rollout_setRollout (s : State) (id id' : String) (f : Rollout → Rollout)
    (hf : ∀ r, (f r).id = r.id) :
    (s.setRollout id f hf).rollout id' = if id' = id then (s.rollout id').map f else s.rollout id' :=
  Table.lookup_modify s.db.rollouts id id' f hf

theorem State.rollout_setRollout_eq_none {s : State} {id id' : String} {f : Rollout → Rollout}
    {hf : ∀ r, (f r).id = r.id} :
    (s.setRollout id f hf).rollout id' = none ↔ s.rollout id' = none := by
  rw [State.rollout_setRollout]
  split
  · exact Option.map_eq_none_iff
  · exact Iff.rfl

theorem State.rollout_closeDefault_eq_none {s : State} {w : Work} {id : String} :
    (s.closeDefault w).rollout id = none ↔ s.rollout id = none :=
  s.rollout_setRollout_eq_none (f := Rollout.close w)

/-- What a pass comes to: a path over rollouts it looks at, or a row that is gone. -/
structure Passes (proc : ℕ) (todo rest : List String) (s : State) (seen : List String)
    (progress : Progress) (seen' : List String) : Prop where
  seen : seen ⊆ seen'
  progress : (∃ t, progress = .committed t ∧ Path proc todo (· ∈ seen') s t) ∨
    (progress = .raised ∧ ∃ id ∈ rest, s.rollout id = none)

theorem Passes.later {proc : ℕ} {id : String} {todo rest : List String} {s t : State}
    {seen seen' : List String} {progress : Progress} (hmove : Path proc todo (· = id) s t)
    (hrows : ∀ id, t.rollout id = none ↔ s.rollout id = none)
    (h : Passes proc todo rest t (seen ++ [id]) progress seen') :
    Passes proc todo (id :: rest) s seen progress seen' := by
  have hid : id ∈ seen' := h.seen (List.mem_append_right _ List.mem_cons_self)
  refine ⟨fun x hx => h.seen (List.mem_append_left _ hx), ?_⟩
  obtain ⟨u, hu, hpath⟩ | ⟨hraised, id', hid', hnone⟩ := h.progress
  · have hfirst : Path proc todo (· ∈ seen') s t := hmove.mono (by rintro _ rfl; exact hid)
    exact .inl ⟨u, hu, hfirst.trans hpath⟩
  · exact .inr ⟨hraised, id', List.mem_cons_of_mem id hid', (hrows id').mp hnone⟩

theorem State.closeDefault_idle (s : State) (w : Work) : (s.closeDefault w).works.lookup w.id = none := by
  simp only [State.closeDefault, Table.lookup_erase, if_pos]

theorem Move.closeFresh {s : State} {w : Work} {skipped : Dict} {row : Rollout}
    (hidle : s.works.lookup w.id = none) (hrow : s.rollout w.rollout = some row) :
    Move s w.id todo w.rollout (s.closeDefault { w with pending := [], skipped }) :=
  .closeDefault (w := { w with pending := [], skipped }) rfl hrow
    fun w' hw' hid => absurd hid (Table.lookup_eq_none.mp hidle w' hw')

/-- The default ring of a rollout whose canaries are done, at its beginning. -/
theorem defaultWork_begins {s : State} {proc : ℕ} {row row' : Rollout} {todo : List String}
    (schedule : Schedule) (rest : List String) (htodo : ∀ id ∈ rest, id ∈ todo) (hidle : s.works.lookup proc = none)
    (hrow : s.rollout row.id = some row')
    (hstatus : row'.status = .canary) (hring : ringState s.db row'.canaryJobIds = (true, none))
    (hrelease : (s.db.releases.lookup row'.releaseId).isSome) :
    Begins s todo row' (defaultWork s.db proc row schedule rest) ∧
      Readable s (defaultWork s.db proc row schedule rest) := by
  constructor
  · exact ⟨hstatus, rfl, rfl, hidle, htodo, .inr ⟨rfl, hring⟩⟩
  · exact ⟨⟨row', hrow, hrelease⟩, fun id hid => activeAgents_lookup hid⟩

theorem sweepLoop_passes {seg : Segment} {proc : ℕ} {todo rest : List String} {s : State}
    {seen seen' : List String} {progress : Progress} (htodo : ∀ id ∈ rest, id ∈ todo)
    (hidle : s.works.lookup proc = none)
    (h : sweepLoop seg proc rest s seen = some (progress, seen')) :
    Passes proc todo rest s seen progress seen' := by
  induction rest generalizing s seen with
  | nil =>
    cases h
    exact ⟨List.Subset.refl _, .inl ⟨s, rfl, .refl⟩⟩
  | cons id rest ih =>
    have htodo' : ∀ id ∈ rest, id ∈ todo := fun id' hid => htodo id' (List.mem_cons_of_mem id hid)
    rw [sweepLoop] at h
    cases hrow : s.db.rollouts.lookup id with
    | none =>
      simp only [hrow] at h
      cases h
      exact ⟨List.subset_append_left _ _, .inr ⟨rfl, id, List.mem_cons_self, hrow⟩⟩
    | some row =>
      have hid : row.id = id := Table.lookup_key hrow
      have hmark : ∀ {f : Rollout → Rollout} (hmarks : Marks f),
          Path proc todo (· = id) s (s.setRollout id f hmarks.id) :=
        fun hmarks => Path.single rfl (.mark hidle hrow hmarks)
      -- a write to the row, and on with the rest
      have hlater : ∀ {f : Rollout → Rollout} (hmarks : Marks f),
          sweepLoop seg proc rest (s.setRollout id f hmarks.id) (seen ++ [id]) =
            some (progress, seen') → Passes proc todo (id :: rest) s seen progress seen' :=
        fun hmarks hloop =>
          .later (hmark hmarks) (fun _ => s.rollout_setRollout_eq_none) (ih htodo' hidle hloop)
      simp only [hrow] at h
      split at h
      next failed hring => exact hlater (Rollout.stop_marks ..) h
      next hring => exact .later .refl (fun _ => Iff.rfl) (ih htodo' hidle h)
      next hring =>
        split at h
        next => exact hlater (Rollout.finish_marks ..) h
        next hstatus =>
        split at h
        next => exact hlater (Rollout.stop_marks ..) h
        next hrelease =>
        have hstatus : row.status = .canary := of_not_not hstatus
        have hrelease : (s.db.releases.lookup row.releaseId).isSome := by
          rw [Option.isSome_iff_ne_none]
          intro hnone
          exact hrelease (by rw [hnone]; rfl)
        rw [if_pos hstatus] at hring
        -- the default ring begins on the annotated row
        generalize scheduleForDefault seg row = schedule at h
        obtain ⟨schedule, note⟩ := schedule
        simp only at h
        have hnote := hmark (Rollout.note_marks note)
        have hrows : ∀ id', (s.setRollout id (Rollout.note note) (Rollout.note_marks note).id).rollout
            id' = none ↔ s.rollout id' = none := fun _ => s.rollout_setRollout_eq_none
        have hrow₁ : (s.setRollout id (Rollout.note note) (Rollout.note_marks note).id).rollout row.id =
            some (row.note note) := by
          rw [State.rollout_setRollout, if_pos hid, hid]
          exact congrArg _ hrow
        obtain ⟨hbegins, hread⟩ := defaultWork_begins schedule rest
          (s := s.setRollout id (Rollout.note note) (Rollout.note_marks note).id)
          htodo' hidle hrow₁ hstatus hring hrelease
        generalize s.setRollout id (Rollout.note note) (Rollout.note_marks note).id = s₁ at *
        generalize hw : defaultWork s₁.db proc row schedule rest = w at *
        have hwork : w.id = proc ∧ w.rollout = id := by
          subst hw
          exact ⟨rfl, hid⟩
        obtain ⟨rfl, rfl⟩ := hwork
        cases hrun : s₁.runRing seg w with
        | none => simp only [hrun] at h; cases h
        | some answer =>
          obtain ⟨rfl, hstuck⟩ | ⟨row₁, hrow₁', -, ⟨skipped, rfl⟩ | ⟨t, rfl, hmove⟩⟩ :=
            runRing_cases hrun
          · exact absurd hread hstuck
          · simp only [hrun] at h
            have hclose : Move s₁ w.id todo w.rollout
                (s₁.closeDefault { w with pending := [], skipped }) := .closeFresh hbegins.idle hrow₁'
            exact .later (hnote.trans (Path.single rfl hclose))
              (fun id' => State.rollout_closeDefault_eq_none.trans (hrows id'))
              (ih htodo' (s₁.closeDefault_idle { w with pending := [], skipped }) h)
          · simp only [hrun] at h
            cases h
            rw [hid] at hrow₁
            obtain rfl := Option.some.inj (hrow₁'.symm.trans hrow₁)
            have hseen : w.rollout ∈ seen ++ [w.rollout] :=
              List.mem_append_right _ List.mem_cons_self
            refine ⟨List.subset_append_left _ _, .inl ⟨t, rfl, ?_⟩⟩
            have hpath := hnote.trans (Path.single rfl (hmove (.inr hbegins)))
            exact Path.mono (by rintro _ rfl; exact hseen) hpath

/-! ### A call -/

theorem Move.closeOwn {s : State} {w : Work} {skipped : Dict} {row : Rollout}
    (hw : w ∈ s.works.rows) (hrow : s.rollout w.rollout = some row) :
    Move s w.id todo w.rollout (s.closeDefault { w with pending := [], skipped }) := by
  refine .closeDefault (w := { w with pending := [], skipped }) rfl hrow fun w' hw' hid => ?_
  obtain rfl : w' = w := Table.eq_of_key hw' hw hid
  rfl

/-- The end of a ring a call had already committed a job of. -/
theorem afterStartRing_path {s : State} {seg : Segment} {w : Work} {skipped : Dict} {row : Rollout}
    {progress : Progress} (hw : w ∈ s.works.rows) (hqueued : w.queued ≠ [])
    (hrow : s.rollout w.rollout = some row)
    (hrelease : (s.db.releases.lookup row.releaseId).isSome)
    (h : s.afterStartRing seg { w with pending := [], skipped } = some progress) :
    ∃ t, progress = .committed t ∧ Path w.id todo (· = w.rollout) s t := by
  obtain ⟨release, hrelease⟩ := Option.isSome_iff_exists.mp hrelease
  cases hring : w.call.which with
  | default =>
    simp only [State.afterStartRing, hring] at h
    obtain rfl := Option.some.inj h
    exact ⟨_, rfl, Path.single rfl (.closeOwn hw hrow)⟩
  | canary =>
    have hrow' : s.db.rollouts.lookup w.call.rollout = some row := hrow
    simp only [State.afterStartRing, hring, hrow', hrelease, if_neg hqueued] at h
    obtain rfl := Option.some.inj h
    exact ⟨_, rfl, Path.single rfl (.closeCanary hw rfl hring)⟩

/-- The end of a canary ring without a job to queue: on with the default ring. -/
theorem afterStartRing_fresh {s : State} {seg : Segment} {w : Work} {row : Rollout}
    {progress : Progress} (hidle : s.works.lookup w.id = none)
    (hrest : ∀ id ∈ w.rest, id ∈ todo) (hrow : s.rollout w.rollout = some row)
    (hstatus : row.status = .canary) (hids : row.canaryJobIds = []) (hrelease : (s.db.releases.lookup row.releaseId).isSome)
    (hring : w.call.which = .canary) (hqueued : w.queued = [])
    (h : s.afterStartRing seg w = some progress) :
    ∃ t, progress = .committed t ∧ Path w.id todo (· = w.rollout) s t := by
  have hrow' : s.db.rollouts.lookup w.call.rollout = some row := hrow
  have hid : row.id = w.rollout := Table.lookup_key hrow
  simp only [State.afterStartRing, hring, hrow', hqueued, if_true] at h
  generalize hw' : Work.mk w.id (defaultCall row w.call.schedule)
    ((activeAgents s.db).map RemoteAgent.id) [] w.skipped w.origin = w' at h
  have hwork : w'.id = w.id ∧ w'.rollout = w.rollout ∧ w'.pending = (activeAgents s.db).map RemoteAgent.id := by
    subst hw'
    exact ⟨rfl, hid, rfl⟩
  obtain ⟨hproc, hrollout, hpending⟩ := hwork
  rw [← hrollout] at hrow
  have hbegins : Begins s todo row w' := by
    refine ⟨hstatus, hw' ▸ rfl, hpending, hproc ▸ hidle, hw' ▸ hrest, .inr ⟨hw' ▸ rfl, ?_⟩⟩
    rw [hids]
    rfl
  have hread : Readable s w' :=
    ⟨⟨row, hrow, hrelease⟩, fun id hid => activeAgents_lookup (hpending ▸ hid)⟩
  rw [← hproc, ← hrollout]
  cases hrun : s.runRing seg w' with
  | none => simp only [hrun] at h; cases h
  | some answer =>
    obtain ⟨rfl, hstuck⟩ | ⟨row', hrow'', -, ⟨skipped, rfl⟩ | ⟨t, rfl, hmove⟩⟩ := runRing_cases hrun
    · exact absurd hread hstuck
    · simp only [hrun] at h
      obtain rfl := Option.some.inj h
      exact ⟨_, rfl, Path.single rfl (.closeFresh hbegins.idle hrow)⟩
    · simp only [hrun] at h
      obtain rfl := Option.some.inj h
      obtain rfl := Option.some.inj (hrow.symm.trans hrow'')
      exact ⟨t, rfl, Path.single rfl (hmove (.inr hbegins))⟩

/-- A resumed call moves its own rollout and those it looks at, or finds a row gone. -/
theorem resume_passes {s : State} {seg : Segment} {w : Work} {progress : Progress}
    {seen : List String} (hw : w ∈ s.works.rows) (hqueued : w.queued ≠ [])
    (h : s.resume seg w = some (progress, seen)) :
    (∃ t, progress = .committed t ∧ Path w.id w.rest (fun id => id = w.rollout ∨ id ∈ seen) s t) ∨
      (progress = .raised ∧ (¬Readable s w ∨ ∃ id ∈ w.rest, s.rollout id = none)) := by
  unfold State.resume at h
  cases hrun : s.runRing seg w with
  | none => simp only [hrun] at h; cases h
  | some answer =>
    obtain ⟨rfl, hstuck⟩ | ⟨row, hrow, hrelease, ⟨skipped, rfl⟩ | ⟨t, rfl, hmove⟩⟩ := runRing_cases hrun
    · simp only [hrun] at h
      cases h
      exact .inr ⟨rfl, .inl hstuck⟩
    · simp only [hrun] at h
      cases horigin : w.origin with
      | start =>
        simp only [horigin] at h
        obtain ⟨progress', hstart, heq⟩ := Option.map_eq_some_iff.mp h
        obtain ⟨rfl, rfl⟩ := Prod.mk.inj heq
        rw [← horigin] at hstart
        obtain ⟨t, ht, hpath⟩ := afterStartRing_path hw hqueued hrow hrelease hstart
        exact .inl ⟨t, ht, hpath.mono fun id hid => .inl hid⟩
      | sweep rest =>
        simp only [horigin] at h
        rw [← horigin] at h
        have hrest : w.rest = rest := by rw [Work.rest, horigin]
        have htodo : ∀ id ∈ rest, id ∈ w.rest := fun id hid => hrest ▸ hid
        have hpass :=
          sweepLoop_passes htodo (s.closeDefault_idle { w with pending := [], skipped }) h
        obtain ⟨t, ht, hpath⟩ | ⟨hraised, id, hid, hnone⟩ := hpass.progress
        · refine .inl ⟨t, ht, ?_⟩
          have hfirst : Path w.id w.rest (fun id => id = w.rollout ∨ id ∈ seen) s
              (s.closeDefault { w with pending := [], skipped }) :=
            Path.single (.inl rfl) (.closeOwn hw hrow)
          exact hfirst.trans (hpath.mono fun id hid => .inr hid)
        · refine .inr ⟨hraised, .inr ⟨id, ?_, State.rollout_closeDefault_eq_none.mp hnone⟩⟩
          exact hrest ▸ hid
    · simp only [hrun] at h
      cases h
      exact .inl ⟨t, rfl, Path.single (.inl rfl) (hmove (.inl hw))⟩

/-- A call of `start_rollout` up to its first commit moves the new rollout only. -/
theorem startWork_passes {s : State} {seg : Segment} {proc : ℕ} {rolloutId actor : String}
    {schedule : Schedule} {row : Rollout} {progress : Progress} {seen : List String}
    (hidle : s.works.lookup proc = none) (hlog : ∀ q ∈ s.log, q.rollout ≠ rolloutId)
    (hrow : s.rollout rolloutId = some row) (hstatus : row.status = .canary)
    (hids : row.canaryJobIds = [])
    (hrelease : (s.db.releases.lookup row.releaseId).isSome)
    (h : s.resume seg (startWork s.db proc rolloutId actor schedule) = some (progress, seen)) :
    seen = [] ∧ ∃ t, progress = .committed t ∧ Path proc [] (· = rolloutId) s t := by
  have hid : row.id = rolloutId := Table.lookup_key hrow
  generalize hw : startWork s.db proc rolloutId actor schedule = w at h
  have hwork : w.id = proc ∧ w.rollout = rolloutId ∧ w.origin = .start ∧ w.call.which = .canary ∧
      w.queued = [] ∧ w.pending = (activeAgents s.db).map RemoteAgent.id := by
    subst hw
    exact ⟨rfl, rfl, rfl, rfl, rfl, rfl⟩
  obtain ⟨rfl, rfl, horigin, hring, hqueued, hpending⟩ := hwork
  have hread : Readable s w :=
    ⟨⟨row, hrow, hrelease⟩, fun id hid => activeAgents_lookup (hpending ▸ hid)⟩
  have hrest : ∀ id ∈ w.rest, id ∈ ([] : List String) := by
    simp only [Work.rest, horigin, imp_self, implies_true]
  unfold State.resume at h
  cases hrun : s.runRing seg w with
  | none => simp only [hrun] at h; cases h
  | some answer =>
    obtain ⟨rfl, hstuck⟩ | ⟨row', hrow', -, ⟨skipped, rfl⟩ | ⟨t, rfl, hmove⟩⟩ := runRing_cases hrun
    · exact absurd hread hstuck
    · simp only [hrun, horigin] at h
      obtain ⟨progress', hstart, heq⟩ := Option.map_eq_some_iff.mp h
      obtain ⟨rfl, rfl⟩ := Prod.mk.inj heq
      refine ⟨rfl, ?_⟩
      rw [← horigin] at hstart
      exact afterStartRing_fresh (w := { w with pending := [], skipped }) hidle hrest hrow hstatus
        hids hrelease hring hqueued hstart
    · simp only [hrun] at h
      cases h
      obtain rfl := Option.some.inj (hrow.symm.trans hrow')
      refine ⟨rfl, t, rfl, Path.single rfl (hmove (.inr ?_))⟩
      exact ⟨hstatus, hqueued, hpending, hidle, hrest, .inl ⟨hring, horigin, hid.symm ▸ hlog⟩⟩

end Rollouts
