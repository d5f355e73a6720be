import Mathlib.Data.List.DropRight
import VmDashboard.Jobs.Queue
import VmDashboard.Machine.System
import VmDashboard.Schedules.EachOnce

/-!
# The failure counter of a schedule

Jobs are created and finish, and sweeps fold what their look-back lists into the schedules. The
query of a sweep lists its rows in any order. The counter is compared with the jobs of the schedule
in the order in which they finished.
-/

namespace Schedules.Failures
open Machine (Table)
open Python (Instant)
open Jobs (Job JobRequest Write)

def ended (job : Job) : Bool :=
  job.status = .completed || job.status = .failed || job.status = .cancelled

def failed (job : Job) : Bool := job.status = .failed || job.status = .cancelled

/-- Beside the tables the latest instant, the jobs in the order they finished and how many of them
had finished when the last sweep ran. -/
structure State where
  schedules : Table JobSchedule.id
  jobs : Table Job.id
  clock : Instant
  finished : List String
  seen : ℕ

inductive Event
  | create (id : String) (now : Instant) (defaultExpiry : Option Instant) (request : JobRequest)
  | write (job : String) (write : Write)
  | sweep (now : Instant) (order : List String)

def State.listed (s : State) (order : List String) : List Job := order.filterMap s.jobs.lookup

/-- A job finishes once, and its instants do not go back. -/
def State.step (s : State) : Event → Option State
  | .create id now defaultExpiry request =>
    let job := Jobs.createJob id now defaultExpiry request
    if ended job then none else (s.jobs.insert job).map fun jobs => { s with jobs }
  | .write job write =>
    match s.jobs.lookup job with
    | none => some s
    | some row =>
      if ended row then none
      else
        let jobs := s.jobs.modify job write.apply write.apply_id
        if ended (write.apply row) then
          match (write.apply row).completedAt with
          | none => none
          | some done =>
            if done < s.clock then none
            else some { s with jobs, clock := done, finished := s.finished ++ [job] }
        else some { s with jobs }
  | .sweep now order =>
    if s.clock ≤ now ∧ order.Perm ((s.jobs.rows.filter (noteable now)).map (·.id)) then
      some { s with
        schedules := noteFinished s.schedules (s.listed order)
        clock := now
        seen := s.finished.length }
    else none

def failureSystem : Machine.System State Event := ⟨State.step⟩

/-- The jobs of the schedule `id` among those named, in their order. -/
def State.jobsOf (s : State) (id : String) (names : List String) : List Job :=
  (names.filterMap s.jobs.lookup).filter fun job => job.jobScheduleId = some id

def State.history (s : State) (id : String) : List Job := s.jobsOf id s.finished

/-- The part of the history the last sweep could have seen. -/
def State.historySeen (s : State) (id : String) : List Job := s.jobsOf id (s.finished.take s.seen)

/-- How many of the jobs at the end failed. -/
def failuresSince (jobs : List Job) : ℕ := (jobs.rtakeWhile failed).length

/-- The counter is the number of jobs that failed since the last completed one, as of the last
sweep. -/
def Counted (id : String) (s : State) : Prop :=
  ∀ row, s.schedules.lookup id = some row →
    row.consecutiveFailures = failuresSince (s.historySeen id)

/-- The history has every finished job of the schedule, once. -/
def Complete (id : String) (s : State) : Prop :=
  ((s.history id).map (·.id)).Nodup ∧
    ∀ job ∈ s.jobs.rows, job.jobScheduleId = some id → ended job = true → job ∈ s.history id

/-- The schedule is on, or three jobs in a row have failed. -/
def OffAfterThree (id : String) (s : State) : Prop :=
  (∃ row, s.schedules.lookup id = some row ∧ row.enabled = some false) →
    ∃ before run after, s.history id = before ++ run ++ after ∧ maxConsecutiveFailures ≤ run.length ∧
      ∀ job ∈ run, failed job = true

/-- A sweep lists the outcomes of the schedule in the order in which they came, and its look-back
begins with a completed job, or after as many failures in a row as the last sweep saw at the end. -/
def SweepSees (id : String) (s : State) : Event → Prop
  | .sweep now order =>
    (s.jobsOf id order).map failed = ((s.history id).filter (noteable now)).map failed ∧
      (((s.history id).filter (noteable now)).head?.any (!failed ·) = true ∨
        failuresSince ((s.history id).filter fun job => !noteable now job) =
          failuresSince (s.historySeen id))
  | _ => True

instance (id : String) (s : State) : ∀ event, Decidable (SweepSees id s event)
  | .sweep _ _ => inferInstanceAs (Decidable (_ ∧ _))
  | .create .. => inferInstanceAs (Decidable True)
  | .write .. => inferInstanceAs (Decidable True)

/-- The schedule is new: on, with nothing counted and no job finished. -/
structure Start (id : String) (s : State) : Prop where
  named : id ≠ ""
  finished : s.finished = []
  seen : s.seen = 0
  jobs : ∀ job ∈ s.jobs.rows, job.jobScheduleId = some id → ended job = false
  row : ∀ row, s.schedules.lookup id = some row →
    row.consecutiveFailures = 0 ∧ row.enabled ≠ some false

/-! ### The counter of a list of outcomes -/

/-- The counter from `n` after outcomes, `true` a failure. -/
def tally (n : ℕ) (outcomes : List Bool) : ℕ :=
  outcomes.foldl (fun n failed => if failed then n + 1 else 0) n

theorem tally_append (n : ℕ) (xs ys : List Bool) : tally n (xs ++ ys) = tally (tally n xs) ys :=
  List.foldl_append

theorem tally_eq_failuresSince (jobs : List Job) : tally 0 (jobs.map failed) = failuresSince jobs := by
  induction jobs using List.reverseRecOn with
  | nil => rfl
  | append_singleton jobs job ih =>
    rw [List.map_append, tally_append, ih]
    cases h : failed job with
    | true =>
      have hlast : (jobs ++ [job]).rtakeWhile failed = jobs.rtakeWhile failed ++ [job] :=
        List.rtakeWhile_concat_pos failed jobs job h
      simp [tally, failuresSince, h, hlast]
    | false =>
      have hlast : (jobs ++ [job]).rtakeWhile failed = [] :=
        List.rtakeWhile_concat_neg failed jobs job (by simp [h])
      simp [tally, failuresSince, h, hlast]

/-- After a first completed one, what was counted before does not matter. -/
theorem tally_of_completed {n m : ℕ} {outcomes : List Bool} (h : outcomes.head? = some false) :
    tally n outcomes = tally m outcomes := by
  cases outcomes with
  | nil => cases h
  | cons first rest =>
    obtain rfl := Option.some.inj h
    rfl

theorem three_of_tally {jobs : List Job} {outcomes : List Bool}
    (hpre : outcomes <+: jobs.map failed) (h : maxConsecutiveFailures ≤ tally 0 outcomes) :
    ∃ before run after, jobs = before ++ run ++ after ∧ maxConsecutiveFailures ≤ run.length ∧
      ∀ job ∈ run, failed job = true := by
  obtain ⟨first, hfirst, rfl⟩ : ∃ first, first <+: jobs ∧ first.map failed = outcomes := by
    refine ⟨jobs.take outcomes.length, List.take_prefix _ _, ?_⟩
    rw [List.map_take]
    exact (List.prefix_iff_eq_take.mp hpre).symm
  obtain ⟨after, rfl⟩ := hfirst
  rw [tally_eq_failuresSince] at h
  refine ⟨first.rdropWhile failed, first.rtakeWhile failed, after, ?_, h, ?_⟩
  · rw [List.rdropWhile_append_rtakeWhile]
  · intro job hjob
    exact List.mem_rtakeWhile_imp hjob

/-! ### One schedule in the fold -/

def noteRow (row : JobSchedule) (job : Job) : JobSchedule :=
  match job.status with
  | .completed => row.completedRun
  | .failed | .cancelled => row.failedRun job.id
  | .queued | .pending | .running => row

theorem noteResult_lookup {schedules : Table JobSchedule.id} {job : Job} {id : String}
    (hid : id ≠ "") : (noteResult schedules job).lookup id =
      if job.jobScheduleId = some id then (schedules.lookup id).map (noteRow · job)
      else schedules.lookup id := by
  unfold noteResult
  cases hname : Jobs.orNone job.jobScheduleId with
  | none =>
    rw [if_neg]
    intro h
    rw [h] at hname
    unfold Jobs.orNone at hname
    split at hname
    next heq => exact hid (Option.some.inj heq)
    next => cases hname
  | some name =>
    have hsame : job.jobScheduleId = some name := by
      unfold Jobs.orNone at hname
      split at hname
      · cases hname
      · exact hname
    rw [hsame]
    have hnamed : some name = some id ↔ id = name := by
      rw [Option.some.injEq]
      exact eq_comm
    simp only [hnamed, noteRow]
    cases job.status with
    | completed => exact schedules.lookup_modify name id _ _
    | failed => exact schedules.lookup_modify name id _ _
    | cancelled => exact schedules.lookup_modify name id _ _
    | queued => simp
    | pending => simp
    | running => simp

theorem noteFinished_lookup {schedules : Table JobSchedule.id} {id : String} (hid : id ≠ "")
    (rows : List Job) : (noteFinished schedules rows).lookup id =
      (schedules.lookup id).map fun row =>
        (rows.filter fun job => job.jobScheduleId = some id).foldl noteRow row := by
  induction rows generalizing schedules with
  | nil => simp [noteFinished]
  | cons job rows ih =>
    have hrest : (noteFinished schedules (job :: rows)).lookup id =
        (noteFinished (noteResult schedules job) rows).lookup id := rfl
    rw [hrest, ih, noteResult_lookup hid]
    by_cases h : job.jobScheduleId = some id
    · rw [if_pos h, Option.map_map, List.filter_cons_of_pos (by simpa using h)]
      rfl
    · rw [if_neg h, List.filter_cons_of_neg (by simpa using h)]

theorem noteRow_counter (row : JobSchedule) {job : Job} (hover : ended job = true) :
    (noteRow row job).consecutiveFailures =
      if failed job then row.consecutiveFailures + 1 else 0 := by
  have hfailed : (row.failedRun job.id).consecutiveFailures = row.consecutiveFailures + 1 := by
    simp only [JobSchedule.failedRun, JobSchedule.disable]
    split
    · split <;> rfl
    · rfl
  cases h : job.status <;> simp [ended, failed, h, noteRow, hfailed, JobSchedule.completedRun] at *

theorem noteRow_enabled {row : JobSchedule} {job : Job} (hoff : (noteRow row job).enabled = some false) :
    row.enabled = some false ∨
      failed job = true ∧ maxConsecutiveFailures ≤ row.consecutiveFailures + 1 := by
  have hrun : failed job = true → noteRow row job = row.failedRun job.id := by
    intro h
    cases hs : job.status <;> simp [failed, hs, noteRow] at *
  by_cases h : failed job = true
  · rw [hrun h] at hoff
    simp only [JobSchedule.failedRun] at hoff
    split at hoff
    next hmany => exact .inr ⟨h, hmany⟩
    next => exact .inl hoff
  · left
    cases hs : job.status <;> simp [failed, hs, noteRow, JobSchedule.completedRun] at * <;>
      exact hoff

theorem foldl_noteRow (rows : List Job) (hover : ∀ job ∈ rows, ended job = true) (row : JobSchedule) :
    (rows.foldl noteRow row).consecutiveFailures =
      tally row.consecutiveFailures (rows.map failed) := by
  induction rows generalizing row with
  | nil => rfl
  | cons job rows ih =>
    have hjob := noteRow_counter row (hover job List.mem_cons_self)
    have hrest := ih (fun j hj => hover j (List.mem_cons_of_mem job hj)) (noteRow row job)
    rw [hjob] at hrest
    exact hrest

/-- A schedule is switched off when, after one of the rows, the counter has reached the limit. -/
theorem foldl_noteRow_off (rows : List Job) (hover : ∀ job ∈ rows, ended job = true)
    (row : JobSchedule) (hoff : (rows.foldl noteRow row).enabled = some false) :
    row.enabled = some false ∨ ∃ outcomes, outcomes ≠ [] ∧ outcomes <+: rows.map failed ∧
      maxConsecutiveFailures ≤ tally row.consecutiveFailures outcomes := by
  induction rows generalizing row with
  | nil => exact .inl hoff
  | cons job rows ih =>
    have hjob := noteRow_counter row (hover job List.mem_cons_self)
    rcases ih (fun j hj => hover j (List.mem_cons_of_mem job hj)) (noteRow row job) hoff with
      hhere | ⟨outcomes, -, hpre, hmany⟩
    · rcases noteRow_enabled hhere with hrow | ⟨hfailed, hmany⟩
      · exact .inl hrow
      · refine .inr ⟨[true], List.cons_ne_nil _ _, ?_, hmany⟩
        rw [List.map_cons, hfailed]
        exact List.cons_prefix_cons.mpr ⟨rfl, List.nil_prefix⟩
    · refine .inr ⟨failed job :: outcomes, List.cons_ne_nil _ _, ?_, ?_⟩
      · exact List.cons_prefix_cons.mpr ⟨rfl, hpre⟩
      · rw [hjob] at hmany
        exact hmany

/-! ### The run -/

/-- A list whose members satisfy `p` from some place on. -/
theorem filter_split {α : Type} {p : α → Bool} {l : List α}
    (h : l.Pairwise fun a b => p a = true → p b = true) :
    (l.filter fun a => !p a) ++ l.filter p = l := by
  induction l with
  | nil => rfl
  | cons a l ih =>
    obtain ⟨hhead, htail⟩ := List.pairwise_cons.mp h
    cases ha : p a with
    | false =>
      rw [List.filter_cons_of_pos (by simp [ha]), List.filter_cons_of_neg (by simp [ha]),
        List.cons_append, ih htail]
    | true =>
      have hall : ∀ b ∈ l, p b = true := fun b hb => hhead b hb ha
      have hnone : (l.filter fun a => !p a) = [] := by
        apply List.filter_eq_nil_iff.mpr
        intro b hb
        simp [hall b hb]
      rw [List.filter_cons_of_neg (by simp [ha]), hnone, List.nil_append,
        List.filter_eq_self.mpr]
      intro b hb
      rcases List.mem_cons.mp hb with rfl | hb
      · exact ha
      · exact hall b hb

theorem jobsOf_congr {s s' : State} {id : String} {names : List String}
    (h : ∀ name ∈ names, s'.jobs.lookup name = s.jobs.lookup name) :
    s'.jobsOf id names = s.jobsOf id names := by
  unfold State.jobsOf
  congr 1
  exact List.filterMap_congr h

theorem jobsOf_append (s : State) (id : String) (names more : List String) :
    s.jobsOf id (names ++ more) = s.jobsOf id names ++ s.jobsOf id more := by
  simp only [State.jobsOf, List.filterMap_append, List.filter_append]

theorem mem_jobsOf {s : State} {id : String} {names : List String} {job : Job} :
    job ∈ s.jobsOf id names ↔
      (∃ name ∈ names, s.jobs.lookup name = some job) ∧ job.jobScheduleId = some id := by
  simp only [State.jobsOf, List.mem_filter, List.mem_filterMap, decide_eq_true_eq]

theorem jobsOf_ids (s : State) (id : String) (names : List String) :
    ((s.jobsOf id names).map (·.id)).Sublist names := by
  have hsub : ((names.filterMap s.jobs.lookup).map (·.id)).Sublist names := by
    induction names with
    | nil => exact List.Sublist.refl _
    | cons name names ih =>
      rw [List.filterMap_cons]
      cases h : s.jobs.lookup name with
      | none => exact ih.cons _
      | some job =>
        have hname : job.id = name := Table.lookup_key h
        simp only [List.map_cons, hname]
        exact ih.cons_cons _
  exact (List.filter_sublist.map _).trans hsub

/-- What the history of the schedule `id` keeps. -/
structure Kept (id : String) (s : State) : Prop where
  finished : ∀ name ∈ s.finished, ∃ job, s.jobs.lookup name = some job ∧ ended job = true
  nodup : s.finished.Nodup
  all : ∀ job ∈ s.jobs.rows, job.jobScheduleId = some id → ended job = true → job.id ∈ s.finished
  done : ∀ job ∈ s.history id, ∃ t, job.completedAt = some t ∧ t ≤ s.clock
  sorted : (s.history id).Pairwise fun a b => ∀ now, noteable now a = true → noteable now b = true
  seen : s.seen ≤ s.finished.length
  counted : Counted id s
  off : OffAfterThree id s

theorem noteable_iff {now : Instant} {job : Job} :
    noteable now job = true ↔ job.jobScheduleId.isSome = true ∧ ended job = true ∧
      ∃ done, job.completedAt = some done ∧ now ≤ done + finishedLookback := by
  simp only [noteable, ended, Bool.and_eq_true, Option.any_eq_true, decide_eq_true_eq, and_assoc]

theorem Kept.complete {id : String} {s : State} (h : Kept id s) : Complete id s := by
  refine ⟨(jobsOf_ids s id s.finished).nodup h.nodup, fun job hjob hid hover => ?_⟩
  exact mem_jobsOf.mpr ⟨⟨job.id, h.all job hjob hid hover, Table.lookup_eq_some.mpr ⟨hjob, rfl⟩⟩,
    hid⟩

theorem Start.kept {id : String} {s : State} (h : Start id s) : Kept id s := by
  have hhistory : s.history id = [] := by
    rw [State.history, h.finished]
    rfl
  have hseen : s.historySeen id = [] := by
    rw [State.historySeen, h.finished, List.take_nil]
    rfl
  refine ⟨?_, ?_, ?_, ?_, ?_, ?_, ?_, ?_⟩
  · simp [h.finished]
  · simp [h.finished]
  · intro job hjob hid hover
    rw [h.jobs job hjob hid] at hover
    cases hover
  · simp [hhistory]
  · simp [hhistory]
  · rw [h.seen]
    exact Nat.zero_le _
  · intro row hrow
    rw [hseen]
    exact (h.row row hrow).1
  · rintro ⟨row, hrow, hoff⟩
    exact absurd hoff (h.row row hrow).2

section Jobs
variable {id : String} {s : State} {jobs : Table Job.id}

theorem history_congr (hjobs : ∀ name ∈ s.finished, jobs.lookup name = s.jobs.lookup name)
    {names : List String} (hnames : ∀ name ∈ names, name ∈ s.finished) :
    ({ s with jobs } : State).jobsOf id names = s.jobsOf id names :=
  jobsOf_congr fun name hname => hjobs name (hnames name hname)

/-- Jobs that change without a new one finishing. -/
theorem Kept.unfinished (h : Kept id s)
    (hjobs : ∀ name ∈ s.finished, jobs.lookup name = s.jobs.lookup name)
    (hall : ∀ job ∈ jobs.rows, job.jobScheduleId = some id → ended job = true →
      job.id ∈ s.finished) : Kept id { s with jobs } := by
  have hhistory : ({ s with jobs } : State).history id = s.history id :=
    history_congr hjobs fun _ hname => hname
  have hseen : ({ s with jobs } : State).historySeen id = s.historySeen id :=
    history_congr hjobs fun _ hname => List.mem_of_mem_take hname
  refine ⟨?_, h.nodup, hall, ?_, ?_, h.seen, ?_, ?_⟩
  · intro name hname
    obtain ⟨job, hjob, hover⟩ := h.finished name hname
    exact ⟨job, (hjobs name hname).trans hjob, hover⟩
  · rw [hhistory]
    exact h.done
  · rw [hhistory]
    exact h.sorted
  · intro row hrow
    rw [hseen]
    exact h.counted row hrow
  · intro hoff
    rw [hhistory]
    exact h.off hoff

/-- `job` finishes at `done`. -/
theorem Kept.finish (h : Kept id s) {name : String} {job : Job} {done : Instant}
    (hnew : name ∉ s.finished)
    (hjobs : ∀ n ∈ s.finished, jobs.lookup n = s.jobs.lookup n)
    (hjob : jobs.lookup name = some job) (hover : ended job = true)
    (hdone : job.completedAt = some done) (hclock : s.clock ≤ done)
    (hall : ∀ job ∈ jobs.rows, job.jobScheduleId = some id → ended job = true →
      job.id ∈ s.finished ++ [name]) :
    Kept id { s with jobs, clock := done, finished := s.finished ++ [name] } := by
  have hhistory : ({ s with jobs, clock := done, finished := s.finished ++ [name] } :
      State).history id = s.history id ++ if job.jobScheduleId = some id then [job] else [] := by
    have hold : ({ s with jobs, clock := done, finished := s.finished ++ [name] } :
        State).jobsOf id s.finished = s.jobsOf id s.finished := jobsOf_congr hjobs
    rw [State.history, jobsOf_append, hold]
    congr 1
    simp only [State.jobsOf, List.filterMap_cons, hjob, List.filterMap_nil]
    by_cases hid : job.jobScheduleId = some id <;> simp [hid]
  have hseen : ({ s with jobs, clock := done, finished := s.finished ++ [name] } :
      State).historySeen id = s.historySeen id := by
    rw [State.historySeen, List.take_append_of_le_length h.seen]
    exact jobsOf_congr fun n hn => hjobs n (List.mem_of_mem_take hn)
  refine ⟨?_, ?_, hall, ?_, ?_, ?_, ?_, ?_⟩
  · intro n hn
    rcases List.mem_append.mp hn with hn | hn
    · obtain ⟨old, hold, hoverold⟩ := h.finished n hn
      exact ⟨old, (hjobs n hn).trans hold, hoverold⟩
    · obtain rfl := List.mem_singleton.mp hn
      exact ⟨job, hjob, hover⟩
  · exact List.nodup_append.mpr ⟨h.nodup, List.nodup_singleton _, by
      intro a ha b hb hab
      obtain rfl := List.mem_singleton.mp hb
      exact hnew (hab ▸ ha)⟩
  · rw [hhistory]
    intro j hj
    rcases List.mem_append.mp hj with hj | hj
    · obtain ⟨t, ht, hle⟩ := h.done j hj
      exact ⟨t, ht, Nat.le_trans hle hclock⟩
    · split at hj
      · obtain rfl := List.mem_singleton.mp hj
        exact ⟨done, hdone, Nat.le_refl done⟩
      · cases hj
  · rw [hhistory]
    refine List.pairwise_append.mpr ⟨h.sorted, ?_, ?_⟩
    · split
      · exact List.pairwise_singleton _ _
      · exact List.Pairwise.nil
    · intro a ha b hb now hnote
      split at hb
      next hid =>
        obtain rfl := List.mem_singleton.mp hb
        obtain ⟨t, ht, hle⟩ := h.done a ha
        have hrecent : now ≤ done + finishedLookback := by
          simp only [noteable, ht, Option.any_some, Bool.and_eq_true, decide_eq_true_eq] at hnote
          exact Nat.le_trans hnote.2 (Nat.add_le_add_right (Nat.le_trans hle hclock) _)
        exact noteable_iff.mpr ⟨by rw [hid]; rfl, hover, done, hdone, hrecent⟩
      next => cases hb
  · rw [List.length_append]
    exact Nat.le_add_right_of_le h.seen
  · intro row hrow
    rw [hseen]
    exact h.counted row hrow
  · intro hoff
    obtain ⟨before, run, after, hsplit, hlen, hrun⟩ := h.off hoff
    rw [hhistory, hsplit]
    exact ⟨before, run, _, List.append_assoc _ _ _, hlen, hrun⟩

end Jobs

/-- What the counter is after outcomes listed in the order in which they came. -/
theorem tally_recent {before : ℕ} {earlier recent : List Job} {outcomes : List Bool}
    (hpre : outcomes <+: recent.map failed) (hne : outcomes ≠ [])
    (hbase : recent.head?.any (!failed ·) = true ∨ failuresSince earlier = before) :
    tally before outcomes = tally 0 (earlier.map failed ++ outcomes) := by
  rw [tally_append, tally_eq_failuresSince]
  rcases hbase with hhead | rfl
  · apply tally_of_completed
    obtain ⟨rest, hrest⟩ := hpre
    cases outcomes with
    | nil => exact absurd rfl hne
    | cons first outcomes =>
      cases recent with
      | nil => cases hrest
      | cons job recent =>
        have hfirst : first = failed job := (List.cons.inj hrest).1
        simpa [hfirst] using hhead
  · rfl

theorem listed_over {s : State} {now : Instant} {order : List String}
    (hperm : order.Perm ((s.jobs.rows.filter (noteable now)).map (·.id))) (id : String) :
    ∀ job ∈ s.jobsOf id order, ended job = true := by
  intro job hjob
  obtain ⟨⟨name, hname, hlookup⟩, -⟩ := mem_jobsOf.mp hjob
  obtain ⟨row, hrow, hid⟩ := List.mem_map.mp (hperm.subset hname)
  obtain ⟨hmem, hnote⟩ := List.mem_filter.mp hrow
  have hsame : s.jobs.lookup name = some row := Table.lookup_eq_some.mpr ⟨hmem, hid⟩
  obtain rfl := Option.some.inj (hlookup.symm.trans hsame)
  exact (noteable_iff.mp hnote).2.1

theorem Kept.sweep {id : String} {s : State} (h : Kept id s) (hid : id ≠ "") {now : Instant}
    {order : List String} (hclock : s.clock ≤ now)
    (hperm : order.Perm ((s.jobs.rows.filter (noteable now)).map (·.id)))
    (hsees : SweepSees id s (.sweep now order)) :
    Kept id { s with
      schedules := noteFinished s.schedules (s.listed order)
      clock := now
      seen := s.finished.length } := by
  obtain ⟨hlisted, hbase⟩ := hsees
  have hover := listed_over hperm id
  have hsplit : ((s.history id).filter fun job => !noteable now job) ++
      (s.history id).filter (noteable now) = s.history id :=
    filter_split (h.sorted.imp fun hab => hab now)
  have hmap : (((s.history id).filter fun job => !noteable now job).map failed) ++
      ((s.history id).filter (noteable now)).map failed = (s.history id).map failed := by
    rw [← List.map_append, hsplit]
  have hseen : ({ s with
      schedules := noteFinished s.schedules (s.listed order)
      clock := now
      seen := s.finished.length } : State).historySeen id = s.history id := by
    rw [State.historySeen, List.take_length]
    rfl
  have hrow : ∀ after, (noteFinished s.schedules (s.listed order)).lookup id = some after →
      ∃ row, s.schedules.lookup id = some row ∧
        (s.jobsOf id order).foldl noteRow row = after := by
    intro after hafter
    rw [noteFinished_lookup hid] at hafter
    exact Option.map_eq_some_iff.mp hafter
  refine ⟨h.finished, h.nodup, h.all, ?_, h.sorted, Nat.le_refl _, ?_, ?_⟩
  · intro job hjob
    obtain ⟨t, ht, hle⟩ := h.done job hjob
    exact ⟨t, ht, Nat.le_trans hle hclock⟩
  · intro after hafter
    obtain ⟨row, hlookup, rfl⟩ := hrow after hafter
    rw [hseen, foldl_noteRow _ hover, hlisted, h.counted row hlookup]
    by_cases hnil : ((s.history id).filter (noteable now)).map failed = []
    · -- nothing is listed, so the look-back does not begin with a completed job
      have hnone : (s.history id).filter (noteable now) = [] := List.map_eq_nil_iff.mp hnil
      rw [hnone, List.append_nil] at hsplit
      rw [hnone] at hbase
      rcases hbase with hhead | hsame
      · cases hhead
      · rw [hnil, ← hsame, hsplit]
        rfl
    · rw [tally_recent (List.prefix_refl _) hnil hbase, hmap, tally_eq_failuresSince]
  · rintro ⟨after, hafter, hoff⟩
    obtain ⟨row, hlookup, rfl⟩ := hrow after hafter
    rcases foldl_noteRow_off _ hover row hoff with hbefore | ⟨outcomes, hne, hpre, hmany⟩
    · exact h.off ⟨row, hlookup, hbefore⟩
    · rw [hlisted] at hpre
      rw [h.counted row hlookup, tally_recent hpre hne hbase] at hmany
      have hall : ((s.history id).filter fun job => !noteable now job).map failed ++ outcomes <+:
          (s.history id).map failed := by
        rw [← hmap]
        exact (List.prefix_append_right_inj _).mpr hpre
      exact three_of_tally hall hmany

/-- One event whose sweep meets the condition. -/
theorem Kept.step {id : String} (hid : id ≠ "") (s : State) (event : Event) (t : State)
    (h : Kept id s) (hsees : SweepSees id s event) (hstep : s.step event = some t) : Kept id t := by
  cases event with
  | create name now defaultExpiry request =>
    simp only [State.step] at hstep
    split at hstep
    · cases hstep
    next hopen =>
    obtain ⟨jobs, hinsert, rfl⟩ := Option.map_eq_some_iff.mp hstep
    refine h.unfinished ?_ ?_
    · intro n hn
      obtain ⟨job, hjob, -⟩ := h.finished n hn
      rw [hjob]
      exact Table.lookup_insert_of_some hinsert hjob
    · intro job hjob hjid hover
      rcases (Table.mem_insert hinsert).mp hjob with hold | rfl
      · exact h.all job hold hjid hover
      · exact absurd hover hopen
  | write name write =>
    simp only [State.step] at hstep
    split at hstep
    · obtain rfl := Option.some.inj hstep
      exact h
    next row hrow =>
    split at hstep
    · cases hstep
    next hopen =>
    have hkey : ∀ r, (write.apply r).id = r.id := fun r => (write.apply_same r).id
    have hnew : name ∉ s.finished := by
      intro hmem
      obtain ⟨job, hjob, hover⟩ := h.finished name hmem
      rw [hrow] at hjob
      obtain rfl := Option.some.inj hjob
      exact hopen hover
    have hjobs : ∀ n ∈ s.finished,
        (s.jobs.modify name write.apply hkey).lookup n = s.jobs.lookup n := by
      intro n hn
      have hne : n ≠ name := by
        rintro rfl
        exact hnew hn
      exact s.jobs.lookup_modify_of_ne hne _ hkey
    have hafter : (s.jobs.modify name write.apply hkey).lookup name = some (write.apply row) := by
      rw [Table.lookup_modify_self, hrow, Option.map_some]
    have hall : ∀ job ∈ (s.jobs.modify name write.apply hkey).rows, job.jobScheduleId = some id →
        ended job = true → job.id ∈ s.finished ∨ job.id = name ∧ job = write.apply row := by
      intro job hjob hjid hover
      rcases Table.of_modify_mem hkey hjob with ⟨r, hr, hrid, rfl⟩ | ⟨hold, -⟩
      · have hsame : s.jobs.lookup name = some r := Table.lookup_eq_some.mpr ⟨hr, hrid⟩
        obtain rfl := Option.some.inj (hrow.symm.trans hsame)
        exact .inr ⟨(hkey row).trans hrid, rfl⟩
      · exact .inl (h.all job hold hjid hover)
    split at hstep
    next hover =>
      split at hstep
      · cases hstep
      next done hdone =>
      split at hstep
      · cases hstep
      next hclock =>
      obtain rfl := Option.some.inj hstep
      refine h.finish hnew hjobs hafter hover hdone (Nat.not_lt.mp hclock) ?_
      intro job hjob hjid hjover
      rcases hall job hjob hjid hjover with hold | ⟨hself, -⟩
      · exact List.mem_append_left _ hold
      · exact List.mem_append_right _ (hself ▸ List.mem_singleton_self _)
    next hover =>
      obtain rfl := Option.some.inj hstep
      refine h.unfinished hjobs ?_
      intro job hjob hjid hjover
      rcases hall job hjob hjid hjover with hold | ⟨-, rfl⟩
      · exact hold
      · exact absurd hjover hover
  | sweep now order =>
    simp only [State.step] at hstep
    split at hstep
    next hguard =>
      obtain rfl := Option.some.inj hstep
      exact h.sweep hid hguard.1 hguard.2 hsees
    next => cases hstep

/-- In a run whose sweeps all see the outcomes in order, from where the last sweep left off or from
a completed job on, the counter is the number of failures since the last completed occurrence, and
a schedule that is off has had three failed ones in a row. -/
theorem failures_counted {id : String} {s : State} {events : List Event} (h : Start id s)
    (hsees : failureSystem.Along (SweepSees id) s events) :
    failureSystem.Always (fun t => Counted id t ∧ Complete id t ∧ OffAfterThree id t) s events := by
  have hkept : failureSystem.Always (Kept id) s events :=
    failureSystem.always_of_along (fun s event t hs hok hstep => hs.step h.named s event t hok hstep)
      h.kept hsees
  exact failureSystem.always_mono (fun t ht => ⟨ht.counted, ht.complete, ht.off⟩) hkept

/-! ### A failed night -/

def fresh : State where
  schedules := withNightlyStop (Python.minutes 14520)
  jobs := Table.empty
  clock := 0
  finished := []
  seen := 0

theorem fresh_start : Start "js-1" fresh := by
  refine ⟨by decide, rfl, rfl, ?_, ?_⟩
  · intro job hjob
    cases hjob
  · intro row hrow
    have hself : fresh.schedules.lookup "js-1" = some (nightlyStop (Python.minutes 14520)) := rfl
    obtain rfl := Option.some.inj (hself.symm.trans hrow)
    exact ⟨rfl, by decide⟩

def noRetry : Jobs.RetryConfig := ⟨false, none⟩

/-- The occurrence that starts at minute `start` runs and fails five minutes later. -/
def failedNight (name : String) (start : ℕ) : List Event :=
  [.create name (Python.minutes start) none
      ((nightlyStop (Python.minutes 14520)).request (Python.minutes start)
        (Python.minutes (start + 60))),
    .write name (.running (Python.minutes start)),
    .write name (.failed noRetry (Python.minutes (start + 5)) "boom" [])]

/-- Two nights fail, each followed by one sweep. -/
def twoNights : List Event :=
  failedNight "job-1" 15960 ++ .sweep (Python.minutes 15970) ["job-1"] ::
    (failedNight "job-2" 17400 ++ [.sweep (Python.minutes 17410) ["job-2"]])

theorem twoNights_counted : failureSystem.Always
    (fun t => Counted "js-1" t ∧ Complete "js-1" t ∧ OffAfterThree "js-1" t) fresh twoNights :=
  failures_counted fresh_start (by decide +kernel)

/-- One night fails, and three sweeps find it in their look-back. -/
def threeSweeps : List Event :=
  failedNight "job-1" 15960 ++ [.sweep (Python.minutes 15970) ["job-1"],
    .sweep (Python.minutes 15975) ["job-1"], .sweep (Python.minutes 15980) ["job-1"]]

/-- The schedule is switched off after one failed occurrence. -/
theorem one_failure_switches_off : Start "js-1" fresh ∧ ¬failureSystem.Always
    (fun t => Counted "js-1" t ∧ Complete "js-1" t ∧ OffAfterThree "js-1" t) fresh threeSweeps := by
  refine ⟨fresh_start, fun halways => ?_⟩
  have hrun : (failureSystem.exec fresh threeSweeps).map (fun t =>
      ((t.schedules.lookup "js-1").map fun row => row.enabled, (t.history "js-1").length)) =
        some (some (some false), 1) := by decide +kernel
  obtain ⟨t, ht, hfacts⟩ := Option.map_eq_some_iff.mp hrun
  obtain ⟨hrow, hlength⟩ := Prod.mk.inj hfacts
  obtain ⟨row, hlookup, hoff⟩ := Option.map_eq_some_iff.mp hrow
  obtain ⟨-, -, hthree⟩ := failureSystem.always_exec halways ht
  obtain ⟨before, run, after, hsplit, hlen, -⟩ := hthree ⟨row, hlookup, hoff⟩
  rw [hsplit] at hlength
  simp only [List.length_append, maxConsecutiveFailures] at hlength hlen
  omega

end Schedules.Failures
