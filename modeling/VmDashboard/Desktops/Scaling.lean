import VmDashboard.Desktops.Pools

/-!
# What a pool is scaled to

After the last request only the seats due to be torn down go, so the pool ends with the
rest: the seats that stay are counted where the request is made.
-/

namespace Desktops
open Machine (Table)

/-- The ids of the pool's seats that no job is to remove. -/
def State.staying (s : State) (name : String) : List String :=
  ((s.pool name).map Seat.id).filter fun id => ¬s.Leaving id

/-- Every seat on its way out is one that a pool of `count` seats has no room for. -/
def Clear (s : State) (name : String) (count : ℕ) : Prop :=
  if (s.pool name).length ≤ count then ∀ seat ∈ s.pool name, ¬s.Leaving seat.id
  else ∀ seat ∈ s.pool name, s.Leaving seat.id → seat.id ∈ removable (s.pool name) count

instance (s : State) (name : String) (count : ℕ) : Decidable (Clear s name count) := by
  unfold Clear
  infer_instance

/-- The event neither asks anything of the pool nor kills a worker. -/
def Event.quiet (name : String) : Event → Prop
  | .create pool .. | .scale pool .. | .delete pool _ => pool ≠ name
  | .die .. => False
  | _ => True

def State.Idle (s : State) : Prop := ∀ job ∈ s.jobs.rows, job.work = .ended

/-! ### The pool's ids -/

theorem pool_ids_modify (s : State) (name id : String) (f : Seat → Seat)
    (hid : ∀ r, (f r).id = r.id) (hpool : ∀ r, (f r).poolName = r.poolName) :
    (State.pool { s with seats := s.seats.modify id f hid } name).map Seat.id =
      (s.pool name).map Seat.id := by
  simp only [State.pool, Table.modify, List.filter_map, List.map_map]
  have hsame : ((fun seat : Seat => decide (seat.poolName = name)) ∘
      fun r => if r.id = id then f r else r) = fun r => decide (r.poolName = name) := by
    funext r
    simp only [Function.comp_apply]
    split
    · rw [hpool]
    · rfl
  rw [hsame]
  refine List.map_congr_left fun r _ => ?_
  simp only [Function.comp_apply]
  split
  · exact hid r
  · rfl

theorem pool_ids_mark (s : State) (name : String) (ids : List String) :
    (State.pool { s with seats := mark s.seats ids } name).map Seat.id =
      (s.pool name).map Seat.id := by
  induction ids generalizing s with
  | nil => rfl
  | cons id ids ih =>
    have hone := pool_ids_modify s name id Seat.deprovisioning (fun _ => rfl) (fun _ => rfl)
    exact (ih { s with seats := s.seats.modify id Seat.deprovisioning fun _ => rfl }).trans hone

/-! ### The seats that leave -/

theorem leaving_put {s : State} {job : Job} (job' : Job) (hid : job'.id = job.id) (seat : String) :
    (s.put job').Leaving seat ↔
      seat ∈ job'.leaving ∨ ∃ r ∈ s.jobs.rows, r.id ≠ job.id ∧ seat ∈ r.leaving := by
  simp only [State.Leaving, State.put, Table.mem_put, hid]
  constructor
  · rintro ⟨r, rfl | ⟨hr, hne⟩, hseat⟩
    · exact .inl hseat
    · exact .inr ⟨r, hr, hne, hseat⟩
  · rintro (hseat | ⟨r, hr, hne, hseat⟩)
    · exact ⟨job', .inl rfl, hseat⟩
    · exact ⟨r, .inr ⟨hr, hne⟩, hseat⟩

theorem leaving_iff {s : State} {id : ℕ} {job : Job} (hjob : s.jobs.lookup id = some job)
    (seat : String) : s.Leaving seat ↔
      seat ∈ job.leaving ∨ ∃ r ∈ s.jobs.rows, r.id ≠ job.id ∧ seat ∈ r.leaving := by
  have hmem := (Table.lookup_eq_some.mp hjob).1
  constructor
  · rintro ⟨r, hr, hseat⟩
    by_cases hkey : r.id = job.id
    · obtain rfl := Table.eq_of_key hr hmem hkey
      exact .inl hseat
    · exact .inr ⟨r, hr, hkey, hseat⟩
  · rintro (hseat | ⟨r, hr, -, hseat⟩)
    · exact ⟨job, hmem, hseat⟩
    · exact ⟨r, hr, hseat⟩

theorem Job.leaving_at (job : Job) (work : Work) : (job.at work).leaving =
    if job.jobType = .teardown then work.left job.seatIds else [] := rfl

theorem leaving_put_same {s : State} {id : ℕ} {job : Job} (hjob : s.jobs.lookup id = some job)
    (job' : Job) (hid : job'.id = job.id) (hsame : job'.leaving = job.leaving) (seat : String) :
    (s.put job').Leaving seat ↔ s.Leaving seat := by
  rw [leaving_put job' hid, leaving_iff hjob, hsame]

theorem leaving_insert {s : State} {jobs : Table Job.id} {job : Job}
    (hjobs : s.jobs.insert job = some jobs) (seats : Table Seat.id) (seat : String) :
    State.Leaving { s with seats, jobs } seat ↔ s.Leaving seat ∨ seat ∈ job.leaving := by
  simp only [State.Leaving, (Table.insert_eq_some hjobs).2, List.mem_append, List.mem_singleton]
  constructor
  · rintro ⟨r, hr | rfl, hseat⟩
    · exact .inl ⟨r, hr, hseat⟩
    · exact .inr hseat
  · rintro (⟨r, hr, hseat⟩ | hseat)
    · exact ⟨r, .inl hr, hseat⟩
    · exact ⟨job, .inr rfl, hseat⟩

theorem staying_congr {s t : State} {name : String}
    (hids : (t.pool name).map Seat.id = (s.pool name).map Seat.id)
    (hleaving : ∀ seat ∈ (s.pool name).map Seat.id, t.Leaving seat ↔ s.Leaving seat) :
    t.staying name = s.staying name := by
  rw [State.staying, State.staying, hids]
  refine List.filter_congr fun id hid => ?_
  rw [decide_eq_decide, not_iff_not]
  exact hleaving id hid

theorem pool_other {s : State} {name pool : String} (h : pool ≠ name) {id : String}
    (hid : id ∈ (s.pool name).map Seat.id) : id ∉ (s.pool pool).map Seat.id := by
  intro hid'
  obtain ⟨r, hr, hrid⟩ := List.mem_map.mp hid
  obtain ⟨r', hr', hrid'⟩ := List.mem_map.mp hid'
  obtain ⟨hrow, hrpool⟩ := List.mem_filter.mp hr
  obtain ⟨hrow', hrpool'⟩ := List.mem_filter.mp hr'
  obtain rfl := Table.eq_of_key hrow hrow' (hrid.trans hrid'.symm)
  simp only [decide_eq_true_eq] at hrpool hrpool'
  exact h (hrpool'.symm.trans hrpool)

theorem oldestFirst_perm (seats : List Seat) : (oldestFirst seats).Perm seats :=
  List.perm_insertionSort _ _

theorem removable_subset (seats : List Seat) (count : ℕ) :
    ∀ id ∈ removable seats count, id ∈ seats.map Seat.id := by
  intro id hid
  have hmem := ((List.take_sublist _ _).map Seat.id).subset hid
  exact (((List.reverse_perm _).trans (oldestFirst_perm seats)).map Seat.id).subset hmem

theorem pool_addSeats {s : State} {seats : Table Seat.id} {pool : String} {now : Python.Instant}
    {ids : List String} (hadd : addSeats s.seats pool now ids = some seats)
    (jobs : Table Job.id) (vms : List String) (name : String) :
    (State.pool ⟨seats, jobs, vms⟩ name).map Seat.id =
      (s.pool name).map Seat.id ++ if pool = name then ids else [] := by
  simp only [State.pool, addSeats_rows hadd, List.filter_append, List.map_append]
  congr 1
  split
  next heq =>
    rw [List.filter_eq_self.mpr, List.map_map]
    · exact List.map_id' ids
    · simp [newSeat, heq]
  next hne =>
    rw [List.filter_eq_nil_iff.mpr, List.map_nil]
    simp [newSeat, hne]

/-! ### Quiet events -/

/-- A seat is dropped that was to be. -/
theorem staying_dropped {s : State} {id : ℕ} {job : Job} {seat : String} {brokered : Bool}
    {todo : List String} (hjob : s.jobs.lookup id = some job) (htype : job.jobType = .teardown)
    (hwork : job.work = .dropping seat brokered todo) (errors : List JobError) (name : String) :
    State.staying { s.put { job with work := .next todo, errors } with
      seats := s.seats.erase seat } name = s.staying name := by
  have hpool : (State.pool { s with seats := s.seats.erase seat } name).map Seat.id =
      ((s.pool name).map Seat.id).filter fun id => id ≠ seat := by
    simp only [State.pool, Table.erase, List.filter_filter, List.filter_map, Function.comp_def]
    congr 1
    exact List.filter_congr fun r _ => Bool.and_comm _ _
  have hleaving : job.leaving = seat :: todo := by
    simp [Job.leaving, htype, hwork, Work.left]
  have hgone : s.Leaving seat := (leaving_iff hjob seat).mpr (.inl (by simp [hleaving]))
  have hothers : ∀ x, x ≠ seat → ((s.put { job with work := .next todo, errors }).Leaving x ↔
      s.Leaving x) := by
    intro x hx
    rw [leaving_put { job with work := .next todo, errors } rfl, leaving_iff hjob, hleaving]
    simp [Job.leaving, htype, Work.left, hx]
  unfold State.staying
  change (((State.pool { s with seats := s.seats.erase seat } name).map Seat.id).filter
    fun x => decide ¬(s.put { job with work := .next todo, errors }).Leaving x) = _
  rw [hpool, List.filter_filter]
  refine List.filter_congr fun x _ => ?_
  by_cases hx : x = seat
  · simp [hx, hgone]
  · simp [hx, hothers x hx]

theorem staying_load {s : State} {id : ℕ} {job : Job} {seat : String} {todo : List String}
    (hjob : s.jobs.lookup id = some job) (hwork : job.work = .next (seat :: todo)) (name : String) :
    (s.load job seat todo).staying name = s.staying name := by
  have hsame : ∀ work : Work, work.left job.seatIds = seat :: todo →
      (s.put (job.at work)).staying name = s.staying name := by
    intro work hleft
    refine staying_congr rfl fun x _ => leaving_put_same hjob (job.at work) rfl ?_ x
    rw [Job.leaving_at, hleft, Job.leaving, hwork]
    rfl
  unfold State.load
  split
  next hnone =>
    -- no row has the id
    refine staying_congr rfl fun x hx => ?_
    have hne : x ≠ seat := by
      rintro rfl
      obtain ⟨r, hr, hrid⟩ := List.mem_map.mp hx
      exact Table.lookup_eq_none.mp hnone r (List.mem_of_mem_filter hr) hrid
    have hmine : x ∈ (job.at (.next todo)).leaving ↔ x ∈ job.leaving := by
      rw [Job.leaving_at, Job.leaving, hwork]
      split
      · exact ⟨List.mem_cons_of_mem seat, fun h => (List.mem_cons.mp h).resolve_left hne⟩
      · rfl
    exact (leaving_put (job.at (.next todo)) rfl x).trans ((or_congr_left hmine).trans
      (leaving_iff hjob x).symm)
  · exact hsame _ rfl
  · split
    · exact hsame _ rfl
    · exact hsame _ rfl

theorem staying_put {s : State} {id : ℕ} {job : Job} (hjob : s.jobs.lookup id = some job)
    (job' : Job) (hid : job'.id = job.id) (hsame : job'.leaving = job.leaving) (name : String) :
    (s.put job').staying name = s.staying name :=
  staying_congr rfl fun x _ => leaving_put_same hjob job' hid hsame x

theorem Job.leaving_provision {job : Job} (h : job.jobType = .provision) : job.leaving = [] := by
  simp [Job.leaving, h]

theorem staying_raised {s : State} {id : ℕ} {job : Job} (hjob : s.jobs.lookup id = some job)
    (htype : job.jobType = .provision) (name : String) :
    (s.put job.raised).staying name = s.staying name := by
  have hraised : job.raised.jobType = .provision := htype
  refine staying_put hjob job.raised rfl ?_ name
  rw [Job.leaving_provision htype, Job.leaving_provision hraised]

/-- The seats change in other columns while a provision goes on. -/
theorem staying_modify {s t : State} {id : ℕ} {job : Job} (hjob : s.jobs.lookup id = some job)
    (htype : job.jobType = .provision) (job' : Job) (hid : job'.id = job.id)
    (htype' : job'.jobType = .provision) {seat : String} (f : Seat → Seat)
    (hf : ∀ r, (f r).id = r.id) (hpool : ∀ r, (f r).poolName = r.poolName)
    (ht : t.seats = s.seats.modify seat f hf) (hjobs : t.jobs = s.jobs.put job') (name : String) :
    t.staying name = s.staying name := by
  refine staying_congr ?_ fun x _ => ?_
  · have hids := pool_ids_modify s name seat f hf hpool
    unfold State.pool at hids ⊢
    rw [ht]
    exact hids
  · have hsame : job'.leaving = job.leaving := by
      rw [Job.leaving_provision htype, Job.leaving_provision htype']
    have hleaving := leaving_put_same hjob job' hid hsame x
    unfold State.Leaving at hleaving ⊢
    rw [hjobs]
    exact hleaving

/-- A teardown of another pool's seats is queued. -/
theorem staying_queued {s : State} {jobs : Table Job.id} {job : ℕ} {gone : List String}
    {name pool : String} (h : pool ≠ name)
    (hjobs : s.jobs.insert (newJob job .teardown gone) = some jobs)
    (hgone : ∀ id ∈ gone, id ∈ (s.pool pool).map Seat.id) :
    State.staying { s with seats := mark s.seats gone, jobs } name = s.staying name := by
  refine staying_congr (pool_ids_mark s name gone) fun x hx => ?_
  rw [leaving_insert hjobs]
  refine ⟨fun hor => hor.resolve_right fun hmem => ?_, .inl⟩
  exact pool_other h hx (hgone x hmem)

/-- Another pool grows. -/
theorem staying_grown {s : State} {seats : Table Seat.id} {jobs : Table Job.id} {job : ℕ}
    {ids : List String} {now : Python.Instant} {name pool : String} (h : pool ≠ name)
    (hadd : addSeats s.seats pool now ids = some seats)
    (hjobs : s.jobs.insert (newJob job .provision ids) = some jobs) :
    State.staying { s with seats, jobs } name = s.staying name := by
  refine staying_congr ?_ fun x _ => ?_
  · rw [pool_addSeats hadd, if_neg h, List.append_nil]
  · rw [leaving_insert hjobs, Job.leaving_provision rfl]
    simp

theorem staying_step {s t : State} {name : String} {event : Event} (hquiet : event.quiet name)
    (hstep : s.step event = some t) : t.staying name = s.staying name := by
  cases event with
  | create pool ids now job =>
    simp only [State.step, Option.ite_none_right_eq_some, Option.bind_eq_bind,
      Option.bind_eq_some_iff, Option.some_inj] at hstep
    obtain ⟨-, seats, hadd, jobs, hjobs, rfl⟩ := hstep
    exact staying_grown hquiet hadd hjobs
  | scale pool count ids now job =>
    simp only [State.step] at hstep
    unfold State.scale at hstep
    dsimp only at hstep
    split_ifs at hstep
    · simp only [Option.bind_eq_bind, Option.bind_eq_some_iff, Option.some_inj] at hstep
      obtain ⟨seats, hadd, jobs, hjobs, rfl⟩ := hstep
      exact staying_grown hquiet hadd hjobs
    · simp only [Option.bind_eq_bind, Option.bind_eq_some_iff, Option.some_inj] at hstep
      obtain ⟨jobs, hjobs, rfl⟩ := hstep
      exact staying_queued hquiet hjobs (removable_subset _ _)
    · obtain rfl := Option.some.inj hstep
      rfl
  | delete pool job =>
    simp only [State.step, Option.ite_none_left_eq_some, Option.bind_eq_bind,
      Option.bind_eq_some_iff, Option.some_inj] at hstep
    obtain ⟨-, jobs, hjobs, rfl⟩ := hstep
    exact staying_queued hquiet hjobs fun _ hid => hid
  | claim id =>
    simp only [State.step, Option.bind_eq_bind, Option.bind_eq_some_iff,
      Option.ite_none_right_eq_some, Option.some_inj] at hstep
    obtain ⟨job, hjob, hqueued, rfl⟩ := hstep
    refine staying_put hjob (job.at (.next job.seatIds)) rfl ?_ name
    rw [Job.leaving_at, Job.leaving, hqueued]
    rfl
  | load id =>
    simp only [State.step, Option.bind_eq_bind, Option.bind_eq_some_iff] at hstep
    obtain ⟨job, hjob, hstep⟩ := hstep
    split at hstep
    next seat todo hwork =>
      obtain rfl := Option.some.inj hstep
      exact staying_load hjob hwork name
    · cases hstep
  | deployed id vm =>
    simp only [State.step, Option.bind_eq_bind, Option.bind_eq_some_iff] at hstep
    obtain ⟨job, hjob, hstep⟩ := hstep
    split at hstep
    next seat todo htype hwork =>
      obtain rfl := Option.some.inj hstep
      unfold State.deployed
      dsimp only
      split
      · exact staying_modify hjob htype (job.at (.brokering seat todo)) rfl htype (Seat.ran vm)
          (fun _ => rfl) (fun _ => rfl) rfl rfl name
      · exact staying_raised hjob htype name
    · cases hstep
  | deployFails id left =>
    simp only [State.step, Option.bind_eq_bind, Option.bind_eq_some_iff] at hstep
    obtain ⟨job, hjob, hstep⟩ := hstep
    split at hstep
    next seat todo htype hwork =>
      obtain rfl := Option.some.inj hstep
      unfold State.deployFails
      dsimp only
      split
      · exact staying_modify hjob htype
          { job with work := .next todo, errors := job.errors ++ [.deploy seat] } rfl htype
          Seat.failed (fun _ => rfl) (fun _ => rfl) rfl rfl name
      · exact staying_raised hjob htype name
    · cases hstep
  | brokered id ok =>
    simp only [State.step, Option.bind_eq_bind, Option.bind_eq_some_iff] at hstep
    obtain ⟨job, hjob, hstep⟩ := hstep
    split at hstep
    next seat todo htype hwork =>
      obtain rfl := Option.some.inj hstep
      exact staying_modify hjob htype (job.at (.next todo)) rfl htype (Seat.registered ok)
        (fun _ => rfl) (fun _ => rfl) rfl rfl name
    · cases hstep
  | terminated id ok =>
    simp only [State.step, Option.bind_eq_bind, Option.bind_eq_some_iff] at hstep
    obtain ⟨job, hjob, hstep⟩ := hstep
    split at hstep
    next seat vm brokered todo htype hwork =>
      have hsame : ∀ errors, Job.leaving { job with
          work := .dropping seat brokered todo, errors } = job.leaving := by
        intro errors
        simp only [Job.leaving, hwork]
        rfl
      split_ifs at hstep <;> obtain rfl := Option.some.inj hstep
      · exact staying_put hjob (job.at (.dropping seat brokered todo)) rfl (hsame job.errors) name
      · exact staying_put hjob { job with
            work := .dropping seat brokered todo, errors := job.errors ++ [.terminate vm] } rfl
          (hsame _) name
    · cases hstep
  | dropped id praOk =>
    simp only [State.step, Option.bind_eq_bind, Option.bind_eq_some_iff] at hstep
    obtain ⟨job, hjob, hstep⟩ := hstep
    split at hstep
    next seat brokered todo htype hwork =>
      obtain rfl := Option.some.inj hstep
      exact staying_dropped hjob htype hwork _ name
    · cases hstep
  | finish id =>
    simp only [State.step, Option.bind_eq_bind, Option.bind_eq_some_iff,
      Option.ite_none_right_eq_some, Option.some_inj] at hstep
    obtain ⟨job, hjob, hwork, rfl⟩ := hstep
    have hdone : ∀ job' : Job, job'.work = .ended → job'.leaving = job.leaving := by
      intro job' hended
      simp [Job.leaving, hwork, hended, Work.left]
    unfold Job.finished
    split
    · exact staying_put hjob { job with work := .ended } rfl (hdone _ rfl) name
    · exact staying_put hjob job.failed rfl (hdone _ rfl) name
  | die id left again => exact hquiet.elim

theorem staying_exec {s t : State} {name : String} {events : List Event}
    (hquiet : ∀ event ∈ events, event.quiet name) (hexec : pools.exec s events = some t) :
    t.staying name = s.staying name := by
  induction events generalizing s with
  | nil =>
    obtain rfl := Option.some.inj hexec
    rfl
  | cons event events ih =>
    obtain ⟨u, hu, hrest⟩ := pools.exec_cons_eq_some hexec
    rw [ih (fun e he => hquiet e (List.mem_cons_of_mem event he)) hrest,
      staying_step (hquiet event List.mem_cons_self) hu]

/-! ### The request -/

theorem staying_idle {s : State} (h : s.Idle) (name : String) :
    s.staying name = (s.pool name).map Seat.id := by
  refine List.filter_eq_self.mpr fun id _ => decide_eq_true ?_
  rintro ⟨job, hjob, hid⟩
  simp [Job.leaving, h job hjob, Work.left] at hid

theorem staying_length_iff (s : State) (name : String) :
    (s.staying name).length = (s.pool name).length ↔ ∀ seat ∈ s.pool name, ¬s.Leaving seat.id := by
  have hids : ((s.pool name).map Seat.id).length = (s.pool name).length := List.length_map _
  rw [State.staying, ← hids, List.length_filter_eq_length_iff]
  simp

/-- What is left when the newest seats of the pool are taken. -/
theorem kept_length {s : State} {name : String} {count : ℕ} (h : count ≤ (s.pool name).length) :
    (((s.pool name).map Seat.id).filter fun id => id ∉ removable (s.pool name) count).length =
      count := by
  have hperm : (oldestFirst (s.pool name)).reverse.Perm (s.pool name) :=
    (List.reverse_perm _).trans (oldestFirst_perm _)
  have hids := hperm.map Seat.id
  have hnodup : ((oldestFirst (s.pool name)).reverse.map Seat.id).Nodup := by
    refine hids.nodup_iff.mpr ?_
    exact s.seats.nodup.sublist (List.Sublist.map Seat.id List.filter_sublist)
  rw [← (hids.filter _).length_eq]
  have hlength : (oldestFirst (s.pool name)).reverse.length = (s.pool name).length :=
    hperm.length_eq
  rw [removable]
  generalize (oldestFirst (s.pool name)).reverse = order at hnodup hlength ⊢
  set gone := (s.pool name).length - count with hgone
  rw [← List.take_append_drop gone order, List.map_append] at hnodup
  obtain ⟨-, -, hdisjoint⟩ := List.nodup_append.mp hnodup
  have hsplit : order.map Seat.id =
      (order.take gone).map Seat.id ++ (order.drop gone).map Seat.id := by
    rw [← List.map_append, List.take_append_drop]
  rw [hsplit, List.filter_append, List.filter_eq_nil_iff.mpr, List.filter_eq_self.mpr,
    List.nil_append, List.length_map, List.length_drop]
  · omega
  · intro id hid
    simp only [decide_eq_true_eq]
    exact fun hmem => hdisjoint id hmem id hid rfl
  · intro id hid
    simpa using hid

theorem staying_grow {s : State} {seats : Table Seat.id} {jobs : Table Job.id} {job : ℕ}
    {name : String} {ids : List String} {now : Python.Instant}
    (hadd : addSeats s.seats name now ids = some seats)
    (hjobs : s.jobs.insert (newJob job .provision ids) = some jobs)
    (hfresh : ∀ id ∈ ids, ¬s.Leaving id) :
    State.staying { s with seats, jobs } name = s.staying name ++ ids := by
  have hleaving : ∀ x, State.Leaving { s with seats, jobs } x ↔ s.Leaving x := by
    intro x
    rw [leaving_insert hjobs, Job.leaving_provision rfl]
    simp
  unfold State.staying
  simp only [hleaving]
  rw [pool_addSeats hadd, if_pos rfl, List.filter_append]
  congr 1
  exact List.filter_eq_self.mpr fun id hid => decide_eq_true (hfresh id hid)

theorem staying_shrink {s : State} {jobs : Table Job.id} {job : ℕ} {name : String}
    {gone : List String} (hjobs : s.jobs.insert (newJob job .teardown gone) = some jobs) :
    State.staying { s with seats := mark s.seats gone, jobs } name =
      (((s.pool name).map Seat.id).filter fun id => id ∉ gone).filter fun id => ¬s.Leaving id := by
  have hids : (State.pool { s with seats := mark s.seats gone, jobs } name).map Seat.id =
      (s.pool name).map Seat.id := pool_ids_mark s name gone
  unfold State.staying
  rw [hids, List.filter_filter]
  refine List.filter_congr fun x _ => ?_
  have hleaving := leaving_insert hjobs (mark s.seats gone) x
  have hmine : (newJob job .teardown gone).leaving = gone := rfl
  rw [hmine] at hleaving
  rw [← Bool.decide_and, decide_eq_decide, hleaving, not_or]

/-- With nothing outstanding after it, the last request leaves the pool at its count exactly when
each seat on its way out was one it had no room for. -/
theorem scaled_iff {s t u : State} {name : String} {count : ℕ} {ids : List String}
    {now : Python.Instant} {job : ℕ} {events : List Event}
    (hscale : s.step (.scale name count ids now job) = some t)
    (hquiet : ∀ event ∈ events, event.quiet name) (hexec : pools.exec t events = some u)
    (hidle : u.Idle) : (u.pool name).length = count ↔ Clear s name count := by
  have hfinal : (u.pool name).length = (t.staying name).length := by
    rw [← List.length_map Seat.id, ← staying_idle hidle, staying_exec hquiet hexec]
  rw [hfinal, Clear]
  simp only [State.step, State.scale] at hscale
  split_ifs at hscale with hempty hgrow hids hshrink
  · simp only [Option.bind_eq_bind, Option.bind_eq_some_iff, Option.some_inj] at hscale
    obtain ⟨seats, hadd, jobs, hjobs, rfl⟩ := hscale
    rw [staying_grow hadd hjobs hids.2, List.length_append, hids.1, if_pos hgrow.le,
      ← staying_length_iff]
    omega
  · simp only [Option.bind_eq_bind, Option.bind_eq_some_iff, Option.some_inj] at hscale
    obtain ⟨jobs, hjobs, rfl⟩ := hscale
    have hkept := kept_length hshrink.le
    rw [staying_shrink hjobs, if_neg (Nat.not_le.mpr hshrink)]
    generalize removable (s.pool name) count = gone at hkept ⊢
    rw [← hkept, List.length_filter_eq_length_iff]
    constructor
    · intro hall seat hseat hleaving
      by_contra hnot
      have hmem : seat.id ∈ ((s.pool name).map Seat.id).filter fun id => id ∉ gone :=
        List.mem_filter.mpr ⟨List.mem_map_of_mem hseat, decide_eq_true hnot⟩
      exact of_decide_eq_true (hall seat.id hmem) hleaving
    · intro hclear id hid
      obtain ⟨hid, hnot⟩ := List.mem_filter.mp hid
      obtain ⟨seat, hseat, rfl⟩ := List.mem_map.mp hid
      exact decide_eq_true fun hleaving => of_decide_eq_true hnot (hclear seat hseat hleaving)
  · obtain rfl := Option.some.inj hscale
    have heq : (s.pool name).length = count := by omega
    rw [if_pos heq.le, ← staying_length_iff, heq]

instance (s : State) : Decidable s.Idle :=
  inferInstanceAs (Decidable (∀ job ∈ s.jobs.rows, job.work = .ended))

/-- Three seats; two of them are on their way out. -/
def shrinking : List Event :=
  [.create "dev" ["s1", "s2", "s3"] 0 1, .claim 1, .load 1, .deployed 1 "i-1", .brokered 1 true,
    .load 1, .deployed 1 "i-2", .brokered 1 true, .load 1, .deployed 1 "i-3", .brokered 1 true,
    .finish 1, .scale "dev" 1 [] 0 2]

def tornDown : List Event :=
  [.claim 2, .load 2, .terminated 2 true, .dropped 2 true, .load 2, .terminated 2 true,
    .dropped 2 true, .finish 2]

theorem tornDown_quiet : ∀ event ∈ tornDown, event.quiet "dev" := by
  simp [tornDown, Event.quiet]

/-- The pool is asked back to three seats while two are on their way out: one is left. -/
theorem scaled_back_lost : ¬∀ (s t u v : State) (name : String) (count : ℕ) (ids : List String)
    (now : Python.Instant) (job : ℕ) (before after : List Event), s.Fresh →
    pools.exec s before = some t → t.step (.scale name count ids now job) = some u →
    (∀ event ∈ after, event.quiet name) → pools.exec u after = some v → v.Idle →
    (v.pool name).length = count := by
  intro h
  have hrun : (pools.exec noSeats shrinking).any (fun t =>
      (t.step (.scale "dev" 3 [] 0 3)).any fun u =>
        (pools.exec u tornDown).any fun v => v.Idle ∧ (v.pool "dev").length ≠ 3) = true := by
    decide +kernel
  obtain ⟨t, ht, hrun⟩ := (Option.any_eq_true _ _).mp hrun
  obtain ⟨u, hu, hrun⟩ := (Option.any_eq_true _ _).mp hrun
  obtain ⟨v, hv, hrun⟩ := (Option.any_eq_true _ _).mp hrun
  obtain ⟨hidle, hwrong⟩ := of_decide_eq_true hrun
  exact hwrong (h noSeats t u v "dev" 3 [] 0 3 shrinking tornDown ⟨rfl, rfl⟩ ht hu tornDown_quiet
    hv hidle)

/-- Asked down to one seat again, it takes the same two. -/
theorem scaled_iff_shrunk : ∃ s t u : State,
    s.step (.scale "dev" 1 [] 0 3) = some t ∧
      pools.exec t (tornDown ++ [.claim 3, .load 3, .load 3, .finish 3]) = some u ∧
      ((u.pool "dev").length = 1 ↔ Clear s "dev" 1) := by
  have hrun : (pools.exec noSeats shrinking).any (fun s =>
      (s.step (.scale "dev" 1 [] 0 3)).any fun t =>
        (pools.exec t (tornDown ++ [.claim 3, .load 3, .load 3, .finish 3])).any fun u =>
          u.Idle) = true := by decide +kernel
  obtain ⟨s, -, hrun⟩ := (Option.any_eq_true _ _).mp hrun
  obtain ⟨t, ht, hrun⟩ := (Option.any_eq_true _ _).mp hrun
  obtain ⟨u, hu, hrun⟩ := (Option.any_eq_true _ _).mp hrun
  have hquiet : ∀ event ∈ tornDown ++ [.claim 3, .load 3, .load 3, .finish 3],
      event.quiet "dev" := by simp [tornDown, Event.quiet]
  exact ⟨s, t, u, ht, hu, scaled_iff ht hquiet hu (of_decide_eq_true hrun)⟩

end Desktops
