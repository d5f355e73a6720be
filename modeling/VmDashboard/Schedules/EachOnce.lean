import VmDashboard.Schedules.Service

/-!
# Each occurrence is materialised once

A schedule made by `create_from_job` and the sweeps after it. The stamp only grows, so no occurrence
gets two jobs; an occurrence gets its job when a sweep finds it open, is answered it by
`next_occurrence`, and the stamp is still behind it.
-/

namespace Schedules
open Machine (Table)
open Python (Instant)
open Jobs (Job)
open Windows (ChangeWindow TimeLibrary noZones nextOccurrence nextOccurrence_ok Occurrence)

variable {lib : TimeLibrary} {services : Services}

/-! ### What a sweep does to one schedule -/

def madeFor (id : String) (jobs : List Job) : List Job :=
  jobs.filter fun job => job.jobScheduleId = some id

theorem madeFor_append (id : String) (jobs : List Job) (job : Job) :
    madeFor id (jobs ++ [job]) =
      madeFor id jobs ++ if job.jobScheduleId = some id then [job] else [] := by
  rw [madeFor, List.filter_append]
  congr 1
  by_cases h : job.jobScheduleId = some id <;> simp [h]

/-- The parts of the database that concern the schedule `id`. -/
structure SameFor (id : String) (after before : Database) : Prop where
  windows : after.windows = before.windows
  users : after.users = before.users
  row : after.schedules.lookup id = before.schedules.lookup id
  made : madeFor id after.jobs = madeFor id before.jobs

theorem occurrenceJob_jobScheduleId {db : Database} {now start close : Instant}
    {row : JobSchedule} (hid : row.id ≠ "") :
    (occurrenceJob services now db row start close).jobScheduleId = some row.id := by
  have hsome : ∀ value : String, value ≠ "" → Jobs.orNone (some value) = some value := by
    intro value hvalue
    unfold Jobs.orNone
    split
    next heq => exact absurd (Option.some.inj heq) hvalue
    next => rfl
  exact hsome row.id hid

theorem materialise_usable {db : Database} {row : JobSchedule} {now start close : Instant}
    (howner : ownerUnusable db.users row = none) :
    materialise services now db row start close = { db with
      schedules := db.schedules.modify row.id
        (JobSchedule.ran start now (occurrenceJob services now db row start close).id) fun r =>
          r.ran_id start now (occurrenceJob services now db row start close).id
      jobs := db.jobs ++ [occurrenceJob services now db row start close] } := by
  simp only [materialise, howner]

theorem materialise_unusable {db : Database} {row : JobSchedule} {now start close : Instant}
    {gone : String} (howner : ownerUnusable db.users row = some gone) :
    materialise services now db row start close = { db with
      schedules := db.schedules.modify row.id (JobSchedule.skipped start gone) fun r =>
        r.skipped_id start gone } := by
  simp only [materialise, howner]

theorem materialise_other {db : Database} {row : JobSchedule} {id : String}
    {now start close : Instant} (hne : row.id ≠ id) :
    SameFor id (materialise services now db row start close) db := by
  cases howner : ownerUnusable db.users row with
  | some gone =>
    rw [materialise_unusable howner]
    exact ⟨rfl, rfl, db.schedules.lookup_modify_of_ne hne.symm _ (JobSchedule.skipped_id start gone),
      rfl⟩
  | none =>
    rw [materialise_usable howner]
    refine ⟨rfl, rfl, db.schedules.lookup_modify_of_ne hne.symm _ (JobSchedule.ran_id start now _),
      ?_⟩
    rw [madeFor_append, if_neg, List.append_nil]
    intro heq
    have hself : Jobs.orNone (some row.id) = some id := heq
    unfold Jobs.orNone at hself
    split at hself
    · cases hself
    · exact hne (Option.some.inj hself)

/-- The schedule's occurrence `(start, close)` got a job. -/
structure MadeOne (id : String) (row : JobSchedule) (now start close : Instant)
    (after before : Database) (job : Job) : Prop where
  scheduledFor : job.scheduledFor = some start
  windowEndsAt : job.windowEndsAt = some close
  row : after.schedules.lookup id = some (row.ran start now job.id)
  made : madeFor id after.jobs = madeFor id before.jobs ++ [job]

variable (services) in
theorem materialise_self {db : Database} {row : JobSchedule} (now start close : Instant)
    (hrow : db.schedules.lookup row.id = some row) (hid : row.id ≠ "")
    (howner : ownerUnusable db.users row = none) :
    ∃ job, MadeOne row.id row now start close (materialise services now db row start close) db
      job := by
  rw [materialise_usable howner]
  refine ⟨occurrenceJob services now db row start close, rfl, rfl, ?_, ?_⟩
  · rw [Table.lookup_modify_self, hrow, Option.map_some]
  · rw [madeFor_append, if_pos (occurrenceJob_jobScheduleId hid)]

theorem SameFor.trans {id : String} {a b c : Database} (hab : SameFor id a b)
    (hbc : SameFor id b c) : SameFor id a c :=
  ⟨hab.windows.trans hbc.windows, hab.users.trans hbc.users, hab.row.trans hbc.row,
    hab.made.trans hbc.made⟩

variable (services) in
theorem foldl_other {id : String} (now : Instant) (rows : List (JobSchedule × Instant × Instant))
    (hrows : ∀ entry ∈ rows, entry.1.id ≠ id) (db : Database) :
    SameFor id (rows.foldl
      (fun db (row, start, close) => materialise services now db row start close) db) db := by
  induction rows generalizing db with
  | nil => exact ⟨rfl, rfl, rfl, rfl⟩
  | cons entry rows ih =>
    obtain ⟨row, start, close⟩ := entry
    have hhead : SameFor id (materialise services now db row start close) db :=
      materialise_other (hrows _ List.mem_cons_self)
    rw [List.foldl_cons]
    dsimp only
    generalize materialise services now db row start close = next at hhead ⊢
    exact (ih (fun e he => hrows e (List.mem_cons_of_mem _ he)) next).trans hhead

theorem foldl_self {now start close : Instant} {row : JobSchedule} (hid : row.id ≠ "")
    (rows : List (JobSchedule × Instant × Instant)) (hnodup : (rows.map (·.1.id)).Nodup)
    (hmem : (row, start, close) ∈ rows) (db : Database)
    (hrow : db.schedules.lookup row.id = some row) (howner : ownerUnusable db.users row = none) :
    ∃ job, MadeOne row.id row now start close (rows.foldl
      (fun db (row, start, close) => materialise services now db row start close) db) db job := by
  induction rows generalizing db with
  | nil => cases hmem
  | cons entry rows ih =>
    obtain ⟨hhead, htail⟩ := List.nodup_cons.mp hnodup
    rcases List.mem_cons.mp hmem with rfl | htailmem
    · obtain ⟨job, hmade⟩ := materialise_self services now start close hrow hid howner
      have hother : ∀ entry ∈ rows, entry.1.id ≠ row.id := by
        intro entry hentry heq
        exact hhead (List.mem_map.mpr ⟨entry, hentry, heq⟩)
      rw [List.foldl_cons]
      dsimp only
      generalize materialise services now db row start close = next at hmade ⊢
      have hrest := foldl_other services now rows hother next
      exact ⟨job, hmade.scheduledFor, hmade.windowEndsAt, hrest.row.trans hmade.row,
        hrest.made.trans hmade.made⟩
    · obtain ⟨first, start', close'⟩ := entry
      have hne : first.id ≠ row.id := by
        intro heq
        exact hhead (List.mem_map.mpr ⟨(row, start, close), htailmem, heq.symm⟩)
      have hsame : SameFor row.id (materialise services now db first start' close') db :=
        materialise_other hne
      rw [List.foldl_cons]
      dsimp only
      generalize materialise services now db first start' close' = next at hsame ⊢
      obtain ⟨job, hmade⟩ := ih htail htailmem next (hsame.row.trans hrow) (hsame.users ▸ howner)
      exact ⟨job, hmade.scheduledFor, hmade.windowEndsAt, hmade.row,
        hmade.made.trans (congrArg (· ++ [job]) hsame.made)⟩

theorem due_ids_nodup {db : Database} {now : Instant} :
    ((due lib db now).map (·.1.id)).Nodup := by
  have hsub : ((due lib db now).map (·.1.id)).Sublist (db.schedules.rows.map JobSchedule.id) := by
    unfold due
    induction db.schedules.rows with
    | nil => exact List.Sublist.refl _
    | cons row rows ih =>
      rw [List.filterMap_cons]
      cases row.due lib db.windows now with
      | none => exact ih.cons _
      | some span => exact ih.cons_cons _
  exact db.schedules.nodup.sublist hsub

variable (lib services) in
theorem sweep_windows (db : Database) (now : Instant) :
    (materialiseDue lib services db now).windows = db.windows ∧
      (materialiseDue lib services db now).users = db.users := by
  unfold materialiseDue
  induction due lib db now generalizing db with
  | nil => exact ⟨rfl, rfl⟩
  | cons entry rows ih =>
    obtain ⟨row, start, close⟩ := entry
    have hstep : (materialise services now db row start close).windows = db.windows ∧
        (materialise services now db row start close).users = db.users := by
      cases howner : ownerUnusable db.users row with
      | some gone =>
        rw [materialise_unusable howner]
        exact ⟨rfl, rfl⟩
      | none =>
        rw [materialise_usable howner]
        exact ⟨rfl, rfl⟩
    rw [List.foldl_cons]
    dsimp only
    generalize materialise services now db row start close = next at hstep ⊢
    obtain ⟨hw, hu⟩ := ih next
    exact ⟨hw.trans hstep.1, hu.trans hstep.2⟩

theorem mem_due {db : Database} {now : Instant} {entry : JobSchedule × Instant × Instant} :
    entry ∈ due lib db now ↔
      entry.1 ∈ db.schedules.rows ∧ entry.1.due lib db.windows now = some entry.2 := by
  simp only [due, List.mem_filterMap, Option.map_eq_some_iff]
  constructor
  · rintro ⟨row, hrow, span, hdue, rfl⟩
    exact ⟨hrow, hdue⟩
  · rintro ⟨hrow, hdue⟩
    exact ⟨entry.1, hrow, entry.2, hdue, rfl⟩

variable (services) in
theorem sweep_not_due {db : Database} {row : JobSchedule} {now : Instant}
    (hrow : db.schedules.lookup row.id = some row) (hdue : row.due lib db.windows now = none) :
    SameFor row.id (materialiseDue lib services db now) db := by
  apply foldl_other services
  intro entry hentry heq
  obtain ⟨hmem, hspan⟩ := mem_due.mp hentry
  have hself : entry.1 = row := Table.eq_of_key hmem (Table.lookup_eq_some.mp hrow).1 heq
  rw [hself, hdue] at hspan
  cases hspan

variable (services) in
theorem sweep_due {db : Database} {row : JobSchedule} {now start close : Instant}
    (hrow : db.schedules.lookup row.id = some row) (hid : row.id ≠ "")
    (howner : ownerUnusable db.users row = none)
    (hdue : row.due lib db.windows now = some (start, close)) :
    ∃ job, MadeOne row.id row now start close (materialiseDue lib services db now) db job :=
  foldl_self hid (due lib db now) due_ids_nodup
    (mem_due.mpr ⟨(Table.lookup_eq_some.mp hrow).1, hdue⟩) db hrow howner

/-! ### A run of sweeps -/

/-- The database after the first sweeps of a sequence. -/
def Database.swept (lib : TimeLibrary) (services : Services) (db : Database)
    (sweeps : ℕ → Instant) : ℕ → Database
  | 0 => db
  | n + 1 => materialiseDue lib services (swept lib services db sweeps n) (sweeps n)

/-- The jobs made of the occurrence `(start, close)` for the schedule `id`. -/
def jobsFor (id : String) (start close : Instant) (jobs : List Job) : List Job :=
  (madeFor id jobs).filter fun job =>
    job.scheduledFor = some start ∧ job.windowEndsAt = some close

/-- Sweeps from `created` on, in order, with one inside every occurrence that starts later. -/
structure Covers (lib : TimeLibrary) (window : ChangeWindow) (created : Instant)
    (sweeps : ℕ → Instant) : Prop where
  monotone : Monotone sweeps
  later : ∀ n, created ≤ sweeps n
  open_ : ∀ start close, Occurrence lib window start close → created < start →
    ∃ n, start ≤ sweeps n ∧ sweeps n < close

/-- Every occurrence that starts after `created` gets its job, and no occurrence gets two. -/
structure EachOnce (lib : TimeLibrary) (window : ChangeWindow) (created : Instant) (id : String)
    (after : ℕ → Database) : Prop where
  one : ∀ start close, Occurrence lib window start close → created < start →
    ∃ n, ∀ m, n ≤ m → (jobsFor id start close (after m).jobs).length = 1
  never_two : ∀ n start close, (jobsFor id start close (after n).jobs).length ≤ 1

/-- The window is open at the instant, with the occurrence `next_occurrence` answers. -/
def OpenAt (lib : TimeLibrary) (window : ChangeWindow) (now : Instant) : Prop :=
  ∃ start close, nextOccurrence lib window now = .ok (start, close) ∧ start ≤ now

/-- While an occurrence that starts after `created` is open, it is the one `next_occurrence`
answers. -/
def Answered (lib : TimeLibrary) (window : ChangeWindow) (created : Instant) : Prop :=
  ∀ start close, Occurrence lib window start close → created < start →
    ∀ now, start ≤ now → now < close → nextOccurrence lib window now = .ok (start, close)

/-- The schedule after some sweeps: `stamp` is the stamp it was created with. -/
structure Kept (lib : TimeLibrary) (window : ChangeWindow) (created : JobSchedule)
    (stamp : Instant) (sweeps : ℕ → Instant) (n : ℕ) (db : Database) (last : Instant) : Prop where
  row : ∃ row, db.schedules.lookup created.id = some row ∧ row.lastMaterialisedFor = some last ∧
    row.enabled = some true ∧ row.changeWindowId = created.changeWindowId ∧
    row.createdBy = created.createdBy ∧ row.id = created.id
  stamped : last = stamp ∨ ∃ m < n, ∃ close, nextOccurrence lib window (sweeps m) = .ok (last, close) ∧
    last ≤ sweeps m ∧ jobsFor created.id last close db.jobs ≠ []
  made : ∀ job ∈ madeFor created.id db.jobs, ∃ m < n, ∃ start close,
    nextOccurrence lib window (sweeps m) = .ok (start, close) ∧ start ≤ sweeps m ∧
      job.scheduledFor = some start ∧ job.windowEndsAt = some close ∧ stamp < start ∧ start ≤ last
  distinct : (madeFor created.id db.jobs).Pairwise fun a b => a.scheduledFor ≠ b.scheduledFor

theorem ownerUnusable_congr {users : Machine.Table User.username} {row row' : JobSchedule}
    (h : row.createdBy = row'.createdBy) : ownerUnusable users row = ownerUnusable users row' := by
  unfold ownerUnusable
  rw [h]

theorem due_iff {windows : Table ChangeWindow.id} {window : ChangeWindow} {row : JobSchedule}
    {now last start close : Instant} (hwindow : windows.lookup row.changeWindowId = some window)
    (hopen : window.enabled ≠ some false) (henabled : row.enabled = some true)
    (hlast : row.lastMaterialisedFor = some last) :
    row.due lib windows now = some (start, close) ↔
      nextOccurrence lib window now = .ok (start, close) ∧ start ≤ now ∧ last < start := by
  have hon : ¬row.enabled = some false := by rw [henabled]; decide
  simp only [JobSchedule.due, if_neg hon, hwindow, if_neg hopen, hlast, Option.any_some,
    decide_eq_true_eq]
  cases hnext : nextOccurrence lib window now with
  | error reason => simp
  | ok span =>
    obtain ⟨start', close'⟩ := span
    simp only [Except.ok.injEq, Prod.mk.injEq]
    split
    next hlt =>
      constructor
      · intro h
        cases h
      · rintro ⟨⟨rfl, rfl⟩, hle, -⟩
        exact absurd hle (Nat.not_le.mpr hlt)
    next hle =>
      split
      next hstamped =>
        constructor
        · intro h
          cases h
        · rintro ⟨⟨rfl, rfl⟩, -, hlt⟩
          exact absurd hstamped (Nat.not_le.mpr hlt)
      next hnew =>
        simp only [Option.some.injEq, Prod.mk.injEq]
        constructor
        · rintro ⟨rfl, rfl⟩
          exact ⟨⟨rfl, rfl⟩, Nat.not_lt.mp hle, Nat.not_le.mp hnew⟩
        · rintro ⟨h, -, -⟩
          exact h

theorem mem_jobsFor {id : String} {start close : Instant} {jobs : List Job} {job : Job} :
    job ∈ jobsFor id start close jobs ↔ job ∈ madeFor id jobs ∧
      job.scheduledFor = some start ∧ job.windowEndsAt = some close := by
  simp only [jobsFor, List.mem_filter, decide_eq_true_eq]

theorem jobsFor_length_le {id : String} {start close : Instant} {jobs : List Job}
    (h : (madeFor id jobs).Pairwise fun a b => a.scheduledFor ≠ b.scheduledFor) :
    (jobsFor id start close jobs).length ≤ 1 := by
  have hpair : (jobsFor id start close jobs).Pairwise fun a b => a.scheduledFor ≠ b.scheduledFor :=
    h.sublist List.filter_sublist
  have hall : ∀ job ∈ jobsFor id start close jobs, job.scheduledFor = some start :=
    fun job hjob => (mem_jobsFor.mp hjob).2.1
  match hlist : jobsFor id start close jobs with
  | [] => exact Nat.zero_le 1
  | [_] => exact Nat.le_refl 1
  | a :: b :: rest =>
    rw [hlist] at hpair hall
    have hne := (List.pairwise_cons.mp hpair).1 b List.mem_cons_self
    have ha := hall a List.mem_cons_self
    have hb := hall b (List.mem_cons_of_mem a List.mem_cons_self)
    exact absurd (ha.trans hb.symm) hne

section Run
variable {window : ChangeWindow} {created : JobSchedule} {stamp : Instant} {sweeps : ℕ → Instant}

variable (services) in
theorem Kept.sweep {n : ℕ} {db : Database} {last : Instant}
    (h : Kept lib window created stamp sweeps n db last) (hid : created.id ≠ "")
    (hwindow : db.windows.lookup created.changeWindowId = some window)
    (hopen : window.enabled ≠ some false) (howner : ownerUnusable db.users created = none) :
    ∃ last', Kept lib window created stamp sweeps (n + 1)
        (materialiseDue lib services db (sweeps n)) last' ∧ last ≤ last' ∧
      madeFor created.id db.jobs <+: madeFor created.id
        (materialiseDue lib services db (sweeps n)).jobs ∧
      ∀ start close, nextOccurrence lib window (sweeps n) = .ok (start, close) →
        start ≤ sweeps n → last < start →
          jobsFor created.id start close (materialiseDue lib services db (sweeps n)).jobs ≠ [] := by
  obtain ⟨row, hrow, hlast, henabled, hchange, hby, hrowid⟩ := h.row
  have hdue : ∀ {start close : Instant}, row.due lib db.windows (sweeps n) = some (start, close) ↔
      nextOccurrence lib window (sweeps n) = .ok (start, close) ∧ start ≤ sweeps n ∧ last < start :=
    due_iff (hchange ▸ hwindow) hopen henabled hlast
  rw [← hrowid] at hrow
  cases hspan : row.due lib db.windows (sweeps n) with
  | none =>
    have hsame := hrowid ▸ sweep_not_due services hrow hspan
    refine ⟨last, ⟨⟨row, ?_, hlast, henabled, hchange, hby, hrowid⟩, ?_, ?_, ?_⟩, Nat.le_refl last,
      ?_, ?_⟩
    · rw [hsame.row, ← hrowid]
      exact hrow
    · rcases h.stamped with hstamp | ⟨m, hm, close, hnext, hle, hjobs⟩
      · exact .inl hstamp
      · refine .inr ⟨m, by omega, close, hnext, hle, ?_⟩
        rwa [jobsFor, hsame.made]
    · intro job hjob
      rw [hsame.made] at hjob
      obtain ⟨m, hm, hrest⟩ := h.made job hjob
      exact ⟨m, by omega, hrest⟩
    · rw [hsame.made]
      exact h.distinct
    · rw [hsame.made]
    · intro start close hnext hle hlt
      have hsome := hdue.mpr ⟨hnext, hle, hlt⟩
      rw [hspan] at hsome
      cases hsome
  | some span =>
    obtain ⟨start, close⟩ := span
    obtain ⟨hnext, hle, hlt⟩ := hdue.mp hspan
    obtain ⟨job, hmade⟩ := sweep_due services hrow (hrowid ▸ hid)
      ((ownerUnusable_congr hby).trans howner) hspan
    rw [hrowid] at hmade
    have hjobs : job ∈ jobsFor created.id start close
        (materialiseDue lib services db (sweeps n)).jobs := by
      refine mem_jobsFor.mpr ⟨?_, hmade.scheduledFor, hmade.windowEndsAt⟩
      rw [hmade.made]
      exact List.mem_append_right _ List.mem_cons_self
    have hstamp : stamp ≤ last := by
      rcases h.stamped with rfl | ⟨m, hm, close', -, -, hjobs'⟩
      · exact Nat.le_refl last
      · obtain ⟨old, hold⟩ := List.exists_mem_of_ne_nil _ hjobs'
        obtain ⟨hmem, hfor, -⟩ := mem_jobsFor.mp hold
        obtain ⟨-, -, start', -, -, -, hstart', -, hgt, -⟩ := h.made old hmem
        rw [hfor] at hstart'
        have hlast' : last = start' := Option.some.inj hstart'
        exact hlast' ▸ Nat.le_of_lt hgt
    refine ⟨start, ⟨⟨_, hmade.row, rfl, henabled, hchange, hby, hrowid⟩, ?_, ?_, ?_⟩,
      Nat.le_of_lt hlt, ?_, ?_⟩
    · exact .inr ⟨n, Nat.lt_succ_self n, close, hnext, hle, List.ne_nil_of_mem hjobs⟩
    · intro other hother
      rw [hmade.made] at hother
      rcases List.mem_append.mp hother with hold | hnew
      · obtain ⟨m, hm, start', close', hnext', hle', hfor, hends, hgt, hlast'⟩ := h.made other hold
        exact ⟨m, Nat.lt_succ_of_lt hm, start', close', hnext', hle', hfor, hends, hgt,
          Nat.le_trans hlast' (Nat.le_of_lt hlt)⟩
      · obtain rfl := List.mem_singleton.mp hnew
        exact ⟨n, Nat.lt_succ_self n, start, close, hnext, hle, hmade.scheduledFor,
          hmade.windowEndsAt, Nat.lt_of_le_of_lt hstamp hlt, Nat.le_refl start⟩
    · rw [hmade.made]
      refine List.pairwise_append.mpr ⟨h.distinct, List.pairwise_singleton _ _, ?_⟩
      intro a ha b hb heq
      obtain rfl := List.mem_singleton.mp hb
      obtain ⟨-, -, start', -, -, -, hfor, -, -, hlast'⟩ := h.made a ha
      rw [hfor, hmade.scheduledFor] at heq
      have hstart : start' = start := Option.some.inj heq
      exact absurd hlt (Nat.not_lt.mpr (hstart ▸ hlast'))
    · rw [hmade.made]
      exact List.prefix_append _ _
    · intro start' close' hnext' _ _
      rw [hnext] at hnext'
      obtain ⟨rfl, rfl⟩ := Prod.mk.inj (Except.ok.inj hnext')
      exact List.ne_nil_of_mem hjobs

/-- What creating the schedule in `db` gives the run that follows. -/
structure Ready (window : ChangeWindow) (created : JobSchedule) (stamp : Instant)
    (db : Database) : Prop where
  id : created.id ≠ ""
  row : db.schedules.lookup created.id = some created
  stamped : created.lastMaterialisedFor = some stamp
  enabled : created.enabled = some true
  booked : db.windows.lookup created.changeWindowId = some window
  open_ : window.enabled ≠ some false
  owner : ownerUnusable db.users created = none
  made : madeFor created.id db.jobs = []

variable {db : Database}

variable (lib services) in
theorem swept_windows (sweeps : ℕ → Instant) (db : Database) (n : ℕ) :
    (db.swept lib services sweeps n).windows = db.windows ∧
      (db.swept lib services sweeps n).users = db.users := by
  induction n with
  | zero => exact ⟨rfl, rfl⟩
  | succ n ih =>
    obtain ⟨hw, hu⟩ := sweep_windows lib services
      (db.swept lib services sweeps n) (sweeps n)
    exact ⟨hw.trans ih.1, hu.trans ih.2⟩

variable (lib services) in
theorem Ready.kept (h : Ready window created stamp db) (sweeps : ℕ → Instant) (n : ℕ) :
    ∃ last, Kept lib window created stamp sweeps n (db.swept lib services sweeps n) last := by
  induction n with
  | zero =>
    refine ⟨stamp, ⟨created, h.row, h.stamped, h.enabled, rfl, rfl, rfl⟩, .inl rfl, ?_, ?_⟩
    · intro job hjob
      have hnil : job ∈ madeFor created.id db.jobs := hjob
      rw [h.made] at hnil
      cases hnil
    · show (madeFor created.id db.jobs).Pairwise _
      rw [h.made]
      exact List.Pairwise.nil
  | succ n ih =>
    obtain ⟨last, hkept⟩ := ih
    obtain ⟨hw, hu⟩ := swept_windows lib services sweeps db n
    obtain ⟨last', hnext, -⟩ := hkept.sweep services h.id (hw ▸ h.booked) h.open_
      (hu ▸ h.owner)
    exact ⟨last', hnext⟩

theorem Ready.sweep (h : Ready window created stamp db) {n : ℕ} {last : Instant}
    (hkept : Kept lib window created stamp sweeps n (db.swept lib services sweeps n) last) :
    madeFor created.id (db.swept lib services sweeps n).jobs <+:
        madeFor created.id (db.swept lib services sweeps (n + 1)).jobs ∧
      ∀ start close, nextOccurrence lib window (sweeps n) = .ok (start, close) →
        start ≤ sweeps n → last < start →
          jobsFor created.id start close (db.swept lib services sweeps (n + 1)).jobs ≠ [] := by
  obtain ⟨hw, hu⟩ := swept_windows lib services sweeps db n
  obtain ⟨-, -, -, hpre, hmade⟩ := hkept.sweep services h.id (hw ▸ h.booked) h.open_
    (hu ▸ h.owner)
  exact ⟨hpre, hmade⟩

theorem Ready.jobsFor_stays (h : Ready window created stamp db) {start close : Instant} {n : ℕ}
    (hjobs : jobsFor created.id start close (db.swept lib services sweeps n).jobs ≠ []) {m : ℕ}
    (hle : n ≤ m) :
    jobsFor created.id start close (db.swept lib services sweeps m).jobs ≠ [] := by
  induction m, hle using Nat.le_induction with
  | base => exact hjobs
  | succ m _ ih =>
    obtain ⟨last, hkept⟩ := h.kept lib services sweeps m
    obtain ⟨job, hjob⟩ := List.exists_mem_of_ne_nil _ ih
    obtain ⟨hmem, hfor⟩ := mem_jobsFor.mp hjob
    exact List.ne_nil_of_mem (mem_jobsFor.mpr ⟨(h.sweep hkept).1.subset hmem, hfor⟩)

variable (lib services) in
theorem Ready.never_two (h : Ready window created stamp db) (sweeps : ℕ → Instant) (n : ℕ) (start close : Instant) :
    (jobsFor created.id start close (db.swept lib services sweeps n).jobs).length ≤ 1 := by
  obtain ⟨last, hkept⟩ := h.kept lib services sweeps n
  exact jobsFor_length_le hkept.distinct

/-- A job for an occurrence comes from a sweep to which `next_occurrence` answered it. -/
theorem Ready.of_made (h : Ready window created stamp db) {start close : Instant} {n : ℕ}
    (hjobs : jobsFor created.id start close (db.swept lib services sweeps n).jobs ≠ []) :
    stamp < start ∧ ∃ m, nextOccurrence lib window (sweeps m) = .ok (start, close) ∧
      start ≤ sweeps m := by
  obtain ⟨last, hkept⟩ := h.kept lib services sweeps n
  obtain ⟨job, hjob⟩ := List.exists_mem_of_ne_nil _ hjobs
  obtain ⟨hmem, hfor, hends⟩ := mem_jobsFor.mp hjob
  obtain ⟨m, -, start', close', hnext, hle, hfor', hends', hgt, -⟩ := hkept.made job hmem
  have hstart : start' = start := Option.some.inj (hfor'.symm.trans hfor)
  have hclose : close' = close := Option.some.inj (hends'.symm.trans hends)
  subst hstart hclose
  exact ⟨hgt, m, hnext, hle⟩

theorem Ready.each_once (h : Ready window created stamp db) {now : Instant} (hstamp : stamp ≤ now)
    (hanswered : Answered lib window now) (hcovers : Covers lib window now sweeps) :
    EachOnce lib window now created.id (db.swept lib services sweeps) := by
  refine ⟨?_, h.never_two lib services sweeps⟩
  intro start close hocc hlater
  obtain ⟨m, hopened, hopen⟩ := hcovers.open_ start close hocc hlater
  obtain ⟨last, hkept⟩ := h.kept lib services sweeps m
  have hnext := hanswered start close hocc hlater (sweeps m) hopened hopen
  have hjobs : jobsFor created.id start close (db.swept lib services sweeps (m + 1)).jobs ≠ [] := by
    by_cases hlt : last < start
    · exact (h.sweep hkept).2 start close hnext hopened hlt
    · have hge : start ≤ last := Nat.not_lt.mp hlt
      rcases hkept.stamped with rfl | ⟨k, hk, close', hanswer, hle, hmade⟩
      · exact absurd (Nat.le_trans hge hstamp) (Nat.not_le.mpr hlater)
      · -- the stamp is of an occurrence open at a time at which this one was open
        have hbefore : sweeps k ≤ sweeps m := hcovers.monotone (Nat.le_of_lt hk)
        have hthis := hanswered start close hocc hlater (sweeps k) (Nat.le_trans hge hle)
          (Nat.lt_of_le_of_lt hbefore hopen)
        rw [hanswer] at hthis
        obtain ⟨rfl, rfl⟩ := Prod.mk.inj (Except.ok.inj hthis)
        exact h.jobsFor_stays hmade (Nat.le_succ m)
  refine ⟨m + 1, fun k hk => ?_⟩
  have hpos := List.length_pos_of_ne_nil (h.jobsFor_stays hjobs hk)
  have hle := h.never_two lib services sweeps k start close
  omega

/-! ### Sweeps that miss -/

theorem rule_duration {rule : Windows.Rule} (h : window.rule lib = .ok rule) :
    0 < rule.duration := by
  obtain ⟨zone, -, h⟩ := Machine.bind_eq_ok h
  obtain ⟨days, -, h⟩ := Machine.bind_eq_ok h
  obtain ⟨time, -, h⟩ := Machine.bind_eq_ok h
  cases time with
  | none => cases h
  | some time =>
    simp only at h
    split at h
    · cases h
    next hduration =>
      obtain rfl := Except.ok.inj h
      simp only [Python.minutes, Python.seconds]
      omega

/-- The occurrences of a window last equally long. -/
theorem occurrence_duration {start close start' close' : Instant}
    (h : Occurrence lib window start close) (h' : Occurrence lib window start' close') :
    ∃ d, 0 < d ∧ close = start + d ∧ close' = start' + d := by
  obtain ⟨rule, day, hrule, -, rfl, rfl⟩ := h
  obtain ⟨rule', day', hrule', -, rfl, rfl⟩ := h'
  obtain rfl := Except.ok.inj (hrule.symm.trans hrule')
  exact ⟨rule.duration, rule_duration hrule, rfl, rfl⟩

/-- A sweep at every instant, but only at `chosen` while `start ≤ t < close`. -/
def sweepsBut (now start close chosen n : ℕ) : ℕ :=
  if start ≤ now + n ∧ now + n < close then chosen else now + n

theorem sweepsBut_hits {now start chosen d start' : ℕ} (hlater : now < start)
    (hopened : start ≤ chosen) (hopen : chosen < start + d) (hlater' : now < start') (hd : 0 < d) :
    ∃ n, start' ≤ sweepsBut now start (start + d) chosen n ∧
      sweepsBut now start (start + d) chosen n < start' + d := by
  simp only [sweepsBut]
  by_cases hself : start' = start
  · refine ⟨start - now, ?_⟩
    rw [if_pos (by omega)]
    omega
  · by_cases hin : start < start' ∧ start' < start + d
    · -- the other occurrence overlaps this one and ends later
      refine ⟨start + d - now, ?_⟩
      rw [if_neg (by omega)]
      omega
    · refine ⟨start' - now, ?_⟩
      rw [if_neg (by omega)]
      omega

theorem sweepsBut_covers {now start close chosen : Instant}
    (hocc : Occurrence lib window start close) (hlater : now < start) (hopened : start ≤ chosen)
    (hopen : chosen < close) : Covers lib window now (sweepsBut now start close chosen) := by
  refine ⟨?_, ?_, ?_⟩
  · intro m n hmn
    simp only [sweepsBut]
    have hsum : now + m ≤ now + n := Nat.add_le_add_left hmn now
    split <;> split <;> grind
  · intro n
    simp only [sweepsBut]
    split
    · exact Nat.le_trans (Nat.le_of_lt hlater) hopened
    · exact Nat.le_add_right now n
  · intro start' close' hocc' hlater'
    obtain ⟨d, hd, rfl, rfl⟩ := occurrence_duration hocc hocc'
    exact sweepsBut_hits hlater hopened hopen hlater' hd

/-- What is made of an occurrence by these sweeps is made at the chosen instant. -/
theorem Ready.answered_at (h : Ready window created stamp db) {now start close chosen : Instant}
    (hocc : Occurrence lib window start close) (hlater : now < start)
    (honce : EachOnce lib window now created.id
      (db.swept lib services (sweepsBut now start close chosen))) :
    nextOccurrence lib window chosen = .ok (start, close) := by
  obtain ⟨n, hn⟩ := honce.one start close hocc hlater
  have hjobs : jobsFor created.id start close
      (db.swept lib services (sweepsBut now start close chosen) n).jobs ≠ [] := by
    intro hnil
    have hone := hn n (Nat.le_refl n)
    rw [hnil] at hone
    cases hone
  obtain ⟨-, m, hnext, hle⟩ := h.of_made hjobs
  have hlt := (nextOccurrence_ok hnext).2
  simp only [sweepsBut] at hnext hle hlt
  split at hnext
  · exact hnext
  next hout =>
    rw [if_neg hout] at hle hlt
    exact absurd ⟨hle, hlt⟩ hout

/-- The occurrence the schedule was stamped with gets no job, so it does not start later. -/
theorem Ready.stamp_le (h : Ready window created stamp db) {now close : Instant}
    (hocc : Occurrence lib window stamp close)
    (hall : ∀ sweeps, Covers lib window now sweeps →
      EachOnce lib window now created.id (db.swept lib services sweeps)) : stamp ≤ now := by
  by_contra hnot
  have hlater : now < stamp := Nat.not_le.mp hnot
  obtain ⟨d, hd, hclose, -⟩ := occurrence_duration hocc hocc
  have hlt : stamp < close := hclose ▸ Nat.lt_add_of_pos_right hd
  have honce := hall _ (sweepsBut_covers hocc hlater (Nat.le_refl stamp) hlt)
  obtain ⟨n, hn⟩ := honce.one stamp close hocc hlater
  have hone := hn n (Nat.le_refl n)
  have hgt := (h.of_made fun hnil => by rw [hnil] at hone; cases hone).1
  exact Nat.lt_irrefl stamp hgt

end Run

/-! ### The condition -/

/-- The walk that starts on the day of an occurrence, or on the day before one whose predecessor
has closed, answers it. -/
theorem walk_answers {rule : Windows.Rule} {t : Instant} {day from' : ℤ} {n : ℕ}
    (hday : rule.opensOn day) (hopen : t < rule.close day)
    (hfrom : from' = day ∨ from' + 1 = day ∧ rule.close from' ≤ t) :
    rule.walk t (n + 2) from' = some (rule.start day, rule.close day) := by
  rcases hfrom with rfl | ⟨rfl, hclosed⟩
  · rw [Windows.Rule.walk, if_pos ⟨hday, hopen⟩]
  · have hnot : ¬(rule.opensOn from' ∧ t < rule.close from') :=
      fun h => absurd h.2 (Nat.not_lt.mpr hclosed)
    rw [Windows.Rule.walk, if_neg hnot, Windows.Rule.walk, if_pos ⟨hday, hopen⟩]

theorem utc_days {time duration now t : ℕ} {day : ℤ} (htime : time < 86400000000)
    (hduration : duration ≤ 86400000000) (hnow : 86400000000 ≤ now)
    (hlater : now < (day * 86400000000 + time).toNat)
    (hopened : (day * 86400000000 + time).toNat ≤ t)
    (hopen : t < (day * 86400000000 + time).toNat + duration) :
    (t : ℤ) / 86400000000 - 1 = day ∨ (t : ℤ) / 86400000000 - 1 + 1 = day ∧
      (((t : ℤ) / 86400000000 - 1) * 86400000000 + time).toNat + duration ≤ t := by
  omega

/-- A window in UTC that lasts at most a day is answered while it is open. -/
theorem answered_utc {window : ChangeWindow} {rule : Windows.Rule} {now : Instant}
    (hrule : window.rule lib = .ok rule) (hzone : rule.zone = Windows.utc)
    (htime : rule.time < Python.dayLength) (hduration : rule.duration ≤ Python.dayLength)
    (hnow : Python.dayLength ≤ now) : Answered lib window now := by
  rintro start close ⟨rule', day, hrule', hday, rfl, rfl⟩ hlater t hopened hopen
  obtain rfl := Except.ok.inj (hrule.symm.trans hrule')
  have hlength : Python.dayLength = 86400000000 := rfl
  have hstart : ∀ d, rule.start d = (d * 86400000000 + rule.time).toNat := by
    intro d
    rw [Windows.Rule.start, hzone]
    rfl
  have hlocal : rule.zone.localDay t = ((t : ℕ) : ℤ) / 86400000000 := by
    rw [hzone]
    rfl
  have hclose : ∀ d, rule.close d = rule.start d + rule.duration := fun _ => rfl
  have hfrom : rule.zone.localDay t - 1 = day ∨ rule.zone.localDay t - 1 + 1 = day ∧
      rule.close (rule.zone.localDay t - 1) ≤ t := by
    rw [hlength] at htime hduration hnow
    rw [hstart] at hlater hopened
    rw [hclose, hstart] at hopen
    rw [hlocal, hclose, hstart]
    exact utc_days htime hduration hnow hlater hopened hopen
  have hwalk := walk_answers (n := 7) hday hopen hfrom
  have hsearch : Windows.searchDays + 1 = 7 + 2 := rfl
  exact Windows.nextOccurrence_of_walk hrule (hsearch ▸ hwalk)

theorem createFromJob_ok {windows : Table ChangeWindow.id} {id : String} {now : Instant} {job : Job}
    {name changeWindowId createdBy : String} {approvalRequired : Option Bool} {row : JobSchedule}
    (h : createFromJob lib windows id now job name changeWindowId createdBy approvalRequired =
      .ok row) :
    ∃ window start close, windows.lookup row.changeWindowId = some window ∧
      windows.lookup changeWindowId = some window ∧ window.enabled ≠ some false ∧
      nextOccurrence lib window now = .ok (start, close) ∧ row.id = id ∧
      row.lastMaterialisedFor = some start ∧ row.enabled = some true := by
  unfold createFromJob at h
  split at h
  · cases h
  split at h
  · cases h
  next window hget =>
  split at h
  · cases h
  next hon =>
  obtain ⟨⟨start, close⟩, hnext, h⟩ := Machine.bind_eq_ok h
  simp only at h
  split at h
  · cases h
  obtain rfl := Except.ok.inj h
  have hlookup : windows.lookup changeWindowId = some window := by
    unfold getWindow at hget
    split at hget
    · cases hget
    · exact hget
  have hkey := Table.lookup_key hlookup
  exact ⟨window, start, close, hkey.symm ▸ hlookup, hlookup, hon, hnext, rfl, rfl, rfl⟩

theorem createFromJob_ready {db : Database} {schedules : Table JobSchedule.id}
    {window : ChangeWindow} {id name changeWindowId createdBy : String} {now : Instant} {job : Job}
    {approvalRequired : Option Bool} {row : JobSchedule}
    (hcreate : createFromJob lib db.windows id now job name changeWindowId createdBy
      approvalRequired = .ok row)
    (hinsert : db.schedules.insert row = some schedules)
    (hwindow : db.windows.lookup changeWindowId = some window)
    (hid : id ≠ "") (hfresh : ∀ job ∈ db.jobs, job.jobScheduleId ≠ some id)
    (howner : ownerUnusable db.users row = none) :
    row.id = id ∧ ∃ stamp close, nextOccurrence lib window now = .ok (stamp, close) ∧
      Ready window row stamp { db with schedules } := by
  obtain ⟨window', stamp, close, hbooked, hlookup, hon, hnext, rfl, hstamp, henabled⟩ :=
    createFromJob_ok hcreate
  obtain rfl := Option.some.inj (hwindow.symm.trans hlookup)
  refine ⟨rfl, stamp, close, hnext, hid, ?_, hstamp, henabled, hbooked, hon, howner, ?_⟩
  · show schedules.lookup row.id = some row
    rw [Table.lookup_insert hinsert, if_pos rfl]
  · apply List.filter_eq_nil_iff.mpr
    intro job hjob
    simpa using hfresh job hjob

/-- A schedule whose owner is an active user gets exactly one job for every occurrence that starts
after its creation, for every sequence of sweeps that finds each of them open, exactly when its
window is open at the creation and each of those occurrences is, while it is open, the one
`next_occurrence` answers. -/
theorem each_occurrence_once_iff {db : Database} {schedules : Table JobSchedule.id}
    {window : ChangeWindow} {id name changeWindowId createdBy : String} {now : Instant} {job : Job}
    {approvalRequired : Option Bool} {row : JobSchedule}
    (hcreate : createFromJob lib db.windows id now job name changeWindowId createdBy
      approvalRequired = .ok row)
    (hinsert : db.schedules.insert row = some schedules)
    (hwindow : db.windows.lookup changeWindowId = some window)
    (hid : id ≠ "") (hfresh : ∀ job ∈ db.jobs, job.jobScheduleId ≠ some id)
    (howner : ownerUnusable db.users row = none) :
    (∀ sweeps, Covers lib window now sweeps →
        EachOnce lib window now id (({ db with schedules } : Database).swept lib services sweeps)) ↔
      OpenAt lib window now ∧ Answered lib window now := by
  obtain ⟨rfl, stamp, close, hnext, hready⟩ :=
    createFromJob_ready hcreate hinsert hwindow hid hfresh howner
  constructor
  · intro hall
    refine ⟨⟨stamp, close, hnext, hready.stamp_le (nextOccurrence_ok hnext).1 hall⟩, ?_⟩
    intro start' close' hocc hlater instant hopened hopen
    exact hready.answered_at hocc hlater (hall _ (sweepsBut_covers hocc hlater hopened hopen))
  · rintro ⟨⟨start', close', hnext', hle⟩, hanswered⟩ sweeps hcovers
    rw [hnext] at hnext'
    obtain ⟨rfl, rfl⟩ := Prod.mk.inj (Except.ok.inj hnext')
    exact hready.each_once hle hanswered hcovers

/-! ### A nightly window -/

def nightly : ChangeWindow where
  id := "cw-1"
  name := "nightly"
  startAtLocal := "02:00"
  durationMinutes := 60
  timezone := none
  scheduleDays := "1111111"
  enabled := some true

def powerJob : Job :=
  Jobs.createJob "job-0" 0 none
    { jobType := "ec2_power", createdBy := "ada",
      metadata := [("action", .str "stop"), ("instance_id", .str "i-1")] }

def shop : Database where
  windows := ⟨[nightly], List.nodup_singleton _⟩
  users := ⟨[⟨"ada", some true⟩], List.nodup_singleton _⟩
  schedules := Table.empty
  jobs := [powerJob]

def plain : Services := ⟨fun n => "job-" ++ toString n, fun _ => none⟩

/-- The schedule made of `powerJob` while the occurrence that starts at `stamp` has not closed. -/
def nightlyStop (stamp : Instant) : JobSchedule where
  id := "js-1"
  name := "stop"
  changeWindowId := "cw-1"
  jobType := "ec2_power"
  workgroup := none
  agentId := none
  vmPath := none
  approvalRequired := some false
  createdBy := some "ada"
  enabled := some true
  payload := [("action", .str "stop"), ("instance_id", .str "i-1")]
  lastMaterialisedFor := some stamp
  lastRunAt := none
  lastJobId := none
  consecutiveFailures := 0
  disabledReason := none

def withNightlyStop (stamp : Instant) : Table JobSchedule.id :=
  ⟨[nightlyStop stamp], List.nodup_singleton _⟩

theorem nightly_rule :
    nightly.rule noZones = .ok ⟨Windows.utc, "1111111".toList, Python.minutes 120, Python.minutes 60⟩ := by
  rfl

theorem nightly_answered : Answered noZones nightly (Python.minutes 14550) :=
  answered_utc nightly_rule rfl (by decide) (by decide) (by decide)

theorem nightlyStop_created {now stamp : Instant}
    (h : nextOccurrence noZones nightly now = .ok (stamp, stamp + Python.minutes 60)) :
    createFromJob noZones shop.windows "js-1" now powerJob "stop" "cw-1" "ada" none =
      .ok (nightlyStop stamp) := by
  have hwindow : getWindow shop.windows "cw-1" = some nightly := by decide
  have hreason : schedulableReason (some powerJob) = none := by decide
  have hpayload : payloadFor powerJob = powerJob.metadata := by rfl
  simp only [createFromJob, hreason, hwindow, h, hpayload]
  rfl

/-- Created at 02:30, inside the occurrence of the day. -/
theorem nightlyStop_once :
    ownerUnusable shop.users (nightlyStop (Python.minutes 14520)) = none ∧
      ∀ sweeps, Covers noZones nightly (Python.minutes 14550) sweeps →
        EachOnce noZones nightly (Python.minutes 14550) "js-1"
          (({ shop with schedules := withNightlyStop (Python.minutes 14520) } : Database).swept
            noZones plain sweeps) := by
  have hnext : nextOccurrence noZones nightly (Python.minutes 14550) =
      .ok (Python.minutes 14520, Python.minutes 14520 + Python.minutes 60) := by rfl
  have hcreate := nightlyStop_created hnext
  have hinsert : shop.schedules.insert (nightlyStop (Python.minutes 14520)) =
      some (withNightlyStop (Python.minutes 14520)) := by rfl
  have howner : ownerUnusable shop.users (nightlyStop (Python.minutes 14520)) = none := by rfl
  have hwindow : shop.windows.lookup "cw-1" = some nightly := by rfl
  exact ⟨howner, (each_occurrence_once_iff hcreate hinsert hwindow (by decide) (by decide) howner).mpr
    ⟨⟨_, _, hnext, by decide⟩, nightly_answered⟩⟩

/-- Created at 12:00: the occurrence of the next night starts later and gets no job. -/
theorem noon_occurrence_lost : ∃ row schedules,
    createFromJob noZones shop.windows "js-1" (Python.minutes 15120) powerJob "stop" "cw-1" "ada"
      none = .ok row ∧
    shop.schedules.insert row = some schedules ∧ ownerUnusable shop.users row = none ∧
    ¬∀ sweeps, Covers noZones nightly (Python.minutes 15120) sweeps →
      EachOnce noZones nightly (Python.minutes 15120) "js-1"
        (({ shop with schedules } : Database).swept noZones plain sweeps) := by
  have hnext : nextOccurrence noZones nightly (Python.minutes 15120) =
      .ok (Python.minutes 15960, Python.minutes 15960 + Python.minutes 60) := by rfl
  have hcreate := nightlyStop_created hnext
  have hinsert : shop.schedules.insert (nightlyStop (Python.minutes 15960)) =
      some (withNightlyStop (Python.minutes 15960)) := by rfl
  have howner : ownerUnusable shop.users (nightlyStop (Python.minutes 15960)) = none := by rfl
  have hwindow : shop.windows.lookup "cw-1" = some nightly := by rfl
  refine ⟨_, _, hcreate, hinsert, howner, fun hall => ?_⟩
  obtain ⟨-, stamp, close, hstamp, hready⟩ :=
    createFromJob_ready hcreate hinsert hwindow (by decide) (by decide) howner
  have hle := hready.stamp_le (nextOccurrence_ok hstamp).1 hall
  rw [hnext] at hstamp
  obtain ⟨rfl, -⟩ := Prod.mk.inj (Except.ok.inj hstamp)
  exact absurd hle (by decide)

end Schedules
