import VmDashboard.Jobs.Queue
import VmDashboard.Machine.Lease
import VmDashboard.Machine.Simulation

/-!
# One executor per job row

The queue is an exclusive lease on its rows as long as a row goes back to a
waiting status only when nobody executes it. Two writes do not look: the revival
of a cancelled row and the retry branch of `set_failed`.
-/

namespace Jobs
open Machine

def OneExecutor (queue : Queue) : Prop :=
  ∀ c ∈ queue.live.rows, ∀ d ∈ queue.live.rows, c.job = d.job → c = d

instance : DecidablePred OneExecutor := fun queue =>
  inferInstanceAs (Decidable (∀ c ∈ queue.live.rows, ∀ d ∈ queue.live.rows, c.job = d.job → c = d))

/-- A write that makes a row wait again finds no claimant of the row but the one it ends. -/
def RequeuesIdle (queue : Queue) : Event → Prop
  | .write id write finishes =>
    ∀ job ∈ queue.jobs.lookup id, write.retried job = true ∨ write.revived job = true →
      ∀ c ∈ queue.live.rows, c.job = id → finishes = some c.id
  | _ => True

instance (queue : Queue) (event : Event) : Decidable (RequeuesIdle queue event) := by
  cases event <;> unfold RequeuesIdle <;> infer_instance

def Queue.leases (queue : Queue) : Lease.State String ℕ where
  waiting := {id | ∃ job, queue.jobs.lookup id = some job ∧ job.status.waiting = true}
  holds claim := (queue.live.lookup claim).map Claim.job

/-- What is claimed is a row of the table. -/
def Queue.ClaimsRows (queue : Queue) : Prop :=
  ∀ claim id, queue.leases.holds claim = some id → (queue.jobs.lookup id).isSome = true

theorem mem_waiting_modify {jobs : Table Job.id} {id id' : String} {f : Job → Job}
    (hf : ∀ job, (f job).id = job.id) :
    (∃ job, (jobs.modify id f hf).lookup id' = some job ∧ job.status.waiting = true) ↔
      if id' = id then ∃ job, jobs.lookup id = some job ∧ (f job).status.waiting = true
      else ∃ job, jobs.lookup id' = some job ∧ job.status.waiting = true := by
  rw [Table.lookup_modify]
  by_cases h : id' = id
  · subst h
    simp [Option.map_eq_some_iff]
  · simp only [if_neg h]

theorem leases_ext {s t : Lease.State String ℕ} (hw : ∀ id, id ∈ s.waiting ↔ id ∈ t.waiting)
    (hh : ∀ claim, s.holds claim = t.holds claim) : s = t := by
  obtain ⟨w, h⟩ := s
  obtain ⟨w', h'⟩ := t
  obtain rfl : w = w' := Set.ext hw
  obtain rfl : h = h' := funext hh
  rfl

theorem oneExecutor_of_exclusive {queue : Queue} (h : Lease.Exclusive queue.leases) :
    OneExecutor queue := by
  intro c hc d hd hjob
  have hold : ∀ e ∈ queue.live.rows, queue.leases.holds e.id = some e.job := by
    intro e he
    have hlook : queue.live.lookup e.id = some e := Table.lookup_eq_some.mpr ⟨he, rfl⟩
    simp only [Queue.leases, hlook, Option.map_some]
  have hid : c.id = d.id := h.one (hold c hc) (hjob ▸ hold d hd)
  have hlc : queue.live.lookup c.id = some c := Table.lookup_eq_some.mpr ⟨hc, rfl⟩
  have hld : queue.live.lookup c.id = some d := Table.lookup_eq_some.mpr ⟨hd, hid.symm⟩
  exact Option.some.inj (hlc.symm.trans hld)

/-! ### The steps as moves of the lease protocol -/

theorem added_simulates {queue : Queue} {row : Job} {jobs : Table Job.id}
    (hrows : queue.ClaimsRows) (hins : queue.jobs.insert row = some jobs) :
    Queue.ClaimsRows { queue with jobs } ∧ ∃ ms, (Lease.system String ℕ).exec queue.leases ms =
      some (Queue.leases { queue with jobs }) := by
  have hfree := (Table.insert_eq_some hins).1
  have hrows' : Queue.ClaimsRows { queue with jobs } := by
    intro claim id hc
    obtain ⟨job, hjob⟩ := Option.isSome_iff_exists.mp (hrows claim id hc)
    have hkept : jobs.lookup id = some job := Table.lookup_insert_of_some hins hjob
    simp only [hkept, Option.isSome_some]
  refine ⟨hrows', ?_⟩
  by_cases hw : row.status.waiting = true
  · refine ⟨[.offer row.id], ?_⟩
    have hnone : ∀ claim, queue.leases.holds claim ≠ some row.id := by
      intro claim hc
      have := hrows claim row.id hc
      rw [hfree] at this
      cases this
    rw [Lease.exec_offer hnone]
    refine congrArg some (leases_ext (fun id => ?_) fun claim => rfl)
    simp only [Queue.leases, Set.mem_insert_iff, Set.mem_ofPred_eq, Table.lookup_insert hins]
    by_cases hid : id = row.id
    · simp [hid, hw]
    · simp [hid]
  · refine ⟨[], congrArg some (leases_ext (fun id => ?_) fun claim => rfl)⟩
    simp only [Queue.leases, Set.mem_ofPred_eq, Table.lookup_insert hins]
    by_cases hid : id = row.id
    · simp [hid, hw, hfree]
    · simp [hid]

theorem taken_simulates {queue after : Queue} {claim : ℕ} {claimant : Claimant} {id : String}
    {job : Job} {now : Python.Instant} (hrows : queue.ClaimsRows)
    (hjob : queue.jobs.lookup id = some job) (htakes : claimant.takes job = true)
    (hjobs : after.jobs = queue.jobs.modify id (setRunning now) fun row => (setRunning_same now row).id)
    (hlive : queue.live.insert ⟨claim, id, claimant⟩ = some after.live) :
    after.ClaimsRows ∧
      ∃ ms, (Lease.system String ℕ).exec queue.leases ms = some after.leases := by
  have hholds : ∀ c, after.leases.holds c = if c = claim then some id else queue.leases.holds c := by
    intro c
    simp only [Queue.leases, Table.lookup_insert hlive]
    split <;> rfl
  have hexists : ∀ i, (queue.jobs.lookup i).isSome = true → (after.jobs.lookup i).isSome = true := by
    intro i hi
    rw [hjobs, Table.lookup_modify]
    split
    · rwa [Option.isSome_map]
    · exact hi
  refine ⟨fun c i hc => ?_, [.take claim id], ?_⟩
  · rw [hholds] at hc
    apply hexists
    split at hc
    · obtain rfl := Option.some.inj hc
      rw [hjob, Option.isSome_some]
    · exact hrows c i hc
  · have hready : id ∈ queue.leases.waiting ∧ queue.leases.holds claim = none := by
      refine ⟨⟨job, hjob, claimant_takes_waiting htakes⟩, ?_⟩
      simp only [Queue.leases, (Table.insert_eq_some hlive).1, Option.map_none]
    rw [Lease.exec_take hready]
    refine congrArg some (leases_ext (fun i => ?_) fun c => ?_)
    · simp only [Queue.leases, hjobs, Set.mem_sdiff, Set.mem_singleton_iff, Set.mem_ofPred_eq,
        mem_waiting_modify]
      by_cases hi : i = id
      · simp [hi, setRunning, Status.waiting]
      · simp [hi]
    · rw [hholds]
      by_cases hc : c = claim
      · simp [hc]
      · simp [hc]

/-- Ending a claim is a drop. -/
theorem finish_simulates {queue finished : Queue} {id : String} {finishes : Option ℕ}
    (h : queue.finish id finishes = some finished) :
    finished.jobs = queue.jobs ∧
      (∀ c i, finished.leases.holds c = some i → queue.leases.holds c = some i ∧ finishes ≠ some c) ∧
      ∃ ms, (Lease.system String ℕ).exec queue.leases ms = some finished.leases := by
  refine ⟨finish_jobs h, ?_⟩
  cases finishes with
  | none =>
    obtain rfl := Option.some.inj h
    exact ⟨fun c i hc => ⟨hc, by simp⟩, [], rfl⟩
  | some claim =>
    have herase : finished = { queue with live := queue.live.erase claim } := by
      simp only [Queue.finish] at h
      split at h
      · split at h
        · exact (Option.some.inj h).symm
        · cases h
      · cases h
    subst herase
    have hholds : ∀ c, ({ queue with live := queue.live.erase claim } : Queue).leases.holds c =
        if c = claim then none else queue.leases.holds c := by
      intro c
      simp only [Queue.leases, Table.lookup_erase]
      split <;> rfl
    refine ⟨fun c i hc => ?_, [.drop claim], ?_⟩
    · rw [hholds] at hc
      split at hc
      · cases hc
      next hne => exact ⟨hc, fun he => hne (Option.some.inj he).symm⟩
    · rw [Lease.exec_drop]
      refine congrArg some (leases_ext (fun i => Iff.rfl) fun c => ?_)
      rw [hholds]
      by_cases hc : c = claim
      · simp [hc]
      · simp [hc]

/-- A write is the drop of the claim it ends, then an offer or a withdrawal of its row. The
offer is allowed because a row that starts to wait has no claimant left. -/
theorem written_simulates {queue finished : Queue} {id : String} {write : Write}
    {finishes : Option ℕ} (hrows : queue.ClaimsRows) (hex : Lease.Exclusive queue.leases)
    (hidle : RequeuesIdle queue (.write id write finishes))
    (hfin : queue.finish id finishes = some finished) :
    let after : Queue :=
      { finished with jobs := queue.jobs.modify id write.apply fun row => (write.apply_same row).id }
    after.ClaimsRows ∧
      ∃ ms, (Lease.system String ℕ).exec queue.leases ms = some after.leases := by
  intro after
  obtain ⟨hjobs, hholds, ms, hms⟩ := finish_simulates hfin
  have hrows' : after.ClaimsRows := by
    intro c i hc
    have hi := hrows c i (hholds c i hc).1
    show ((queue.jobs.modify id write.apply fun row => (write.apply_same row).id).lookup i).isSome = true
    rw [Table.lookup_modify]
    split
    · rwa [Option.isSome_map]
    · exact hi
  refine ⟨hrows', ?_⟩
  have hwait : ∀ i, i ∈ finished.leases.waiting ↔ i ∈ queue.leases.waiting := by
    intro i
    simp only [Queue.leases, hjobs]
  have hwait' : ∀ i, i ∈ after.leases.waiting ↔
      if i = id then ∃ job, queue.jobs.lookup id = some job ∧ (write.apply job).status.waiting = true
      else i ∈ queue.leases.waiting := fun i => mem_waiting_modify fun row => (write.apply_same row).id
  by_cases hw : ∃ job, queue.jobs.lookup id = some job ∧ (write.apply job).status.waiting = true
  · refine ⟨ms ++ [.offer id], ?_⟩
    have hnone : ∀ c, finished.leases.holds c ≠ some id := by
      intro c hc
      obtain ⟨job, hjob, hafter⟩ := hw
      obtain ⟨hheld, hother⟩ := hholds c id hc
      rcases Write.apply_waiting hafter with hbefore | hagain
      · exact hex.idle hheld ⟨job, hjob, hbefore⟩
      · obtain ⟨claim, hclaim, hcid⟩ := Option.map_eq_some_iff.mp hheld
        obtain ⟨hmem, rfl⟩ := Table.lookup_eq_some.mp hclaim
        exact hother (hidle job hjob hagain claim hmem hcid)
    rw [System.exec_append_of_some _ hms, Lease.exec_offer hnone]
    refine congrArg some (leases_ext (fun i => ?_) fun c => rfl)
    simp only [Set.mem_insert_iff, hwait, hwait']
    by_cases hi : i = id
    · simp only [hi, true_or, if_true, hw]
    · simp only [hi, false_or, if_false]
  · refine ⟨ms ++ [.withdraw id], ?_⟩
    rw [System.exec_append_of_some _ hms, Lease.exec_withdraw]
    refine congrArg some (leases_ext (fun i => ?_) fun c => rfl)
    simp only [Set.mem_sdiff, Set.mem_singleton_iff, hwait, hwait']
    by_cases hi : i = id
    · simp only [hi, not_true_eq_false, and_false, if_true, hw]
    · simp only [hi, not_false_eq_true, and_true, if_false]

/-- The queue refines the exclusive lease as long as nothing is requeued under a claimant. -/
theorem step_simulates (queue : Queue) (event : Event) (after : Queue)
    (hrows : queue.ClaimsRows) (hex : Lease.Exclusive queue.leases)
    (hidle : RequeuesIdle queue event) (h : queue.step event = some after) :
    after.ClaimsRows ∧
      ∃ ms, (Lease.system String ℕ).exec queue.leases ms = some after.leases := by
  cases step_effect h with
  | added hins => exact added_simulates hrows hins
  | idle hjobs hlive =>
    have hsame : after.leases = queue.leases := by
      simp only [Queue.leases, hjobs, hlive]
    refine ⟨fun c i hc => ?_, [], by rw [hsame]; rfl⟩
    rw [hsame] at hc
    rw [hjobs]
    exact hrows c i hc
  | taken hjob htakes hjobs hlive => exact taken_simulates hrows hjob htakes hjobs hlive
  | written hfin => exact written_simulates hrows hex hidle hfin

/-- From any table and any calls under way, a run that requeues only idle rows never has two
claimants executing one row. -/
theorem one_executor {queue : Queue} {events : List Event} (hnew : queue.live.rows = [])
    (h : queueSystem.Along RequeuesIdle queue events) :
    queueSystem.Always OneExecutor queue events := by
  have hnone : ∀ claim, queue.leases.holds claim = none := by
    intro claim
    simp only [Queue.leases, Table.lookup, hnew, List.find?_nil, Option.map_none]
  have hrows : queue.ClaimsRows := by
    intro claim id hc
    rw [hnone] at hc
    cases hc
  have hex : Lease.Exclusive queue.leases := by
    refine ⟨fun {c c' i} hc => ?_, fun {c i} hc => ?_⟩ <;>
      · rw [hnone] at hc
        cases hc
  have hrun := System.always_of_simulation Queue.leases Lease.step_exclusive step_simulates
    hrows hex h
  exact System.always_mono _ (fun t ht => oneExecutor_of_exclusive ht.2) hrun

/- A retry under the runner that ends with it, and the second claim after the backoff. -/
def retriedRun : List Event :=
  [.create "j1" 0 none { jobType := "ec2_power", createdBy := "ann" },
   .claimCall 1 ["ec2_power"], .select 1 10, .take 1 10 1,
   .write "j1" (.failed ⟨true, none⟩ 20 "Read timed out." []) (some 1),
   .claimCall 2 ["ec2_power"], .select 2 30000020, .take 2 30000020 2]

theorem retriedRun_one_executor : queueSystem.Always OneExecutor Queue.empty retriedRun :=
  one_executor rfl (by decide +kernel)

/- The operator cancels a running job and reschedules the row while its runner winds down. -/
def revivedRun : List Event :=
  [.create "j1" 0 none { jobType := "ec2_destroy", createdBy := "ann" },
   .claimCall 1 ["ec2_destroy"], .select 1 10, .take 1 10 1,
   .write "j1" (.cancelled 20) none,
   .write "j1" (.reschedule ⟨"ann", false⟩ (.ok (none, none, none))) none,
   .claimCall 2 ["ec2_destroy"], .select 2 30, .take 2 30 2]

theorem revivedRun_two_executors : Queue.empty.live.rows = [] ∧
    ¬queueSystem.Always OneExecutor Queue.empty revivedRun := by decide

end Jobs
