import VmDashboard.Jobs.Queue
import VmDashboard.Windows.Inside

/-!
# When a booked job is claimed

The claim calls of workers and agents, the passes of the schedule sweep row by row, approvals and
the writes to the rows, in any order. The queries test the start, the approval and the backoff of a
row; the guarded update tests none of them, and the end of the window is left to the sweep.
-/

namespace Windows.Punctual
open Machine (Table)
open Python (Instant)
open Jobs (Job JobRequest Claimant Agent Write User)

/-- A claim call under way. `asked` is the instant of its last query and `seen` the number of
rebookings before it. -/
structure Call where
  id : ℕ
  claimant : Claimant
  allowed : List String
  left : Option ℕ
  picked : Option String
  asked : Instant
  seen : ℕ

/-- A pass of `_reap_missed`: the rows `due_missed` answered, those of them still to be marked, and
how often a row had begun to wait before its query. -/
structure Pass where
  id : ℕ
  now : Instant
  listed : List String
  due : List String
  seen : ℕ

/-- Beside the tables the history the condition below speaks of: the rows in the order they were
rebooked and in the order they began to wait, and the passes that came to their end. -/
structure State where
  jobs : Table Job.id
  calls : Table Call.id
  passes : Table Pass.id
  rebooked : List String
  begun : List String
  finished : List Pass

inductive Event
  | create (id : String) (now : Instant) (defaultExpiry : Option Instant) (request : JobRequest)
  | claimCall (id : ℕ) (allowed : List String)
  | leaseCall (id : ℕ) (agent : Agent) (qualifies : Bool) (wantJobTypes : Option (List String))
  | select (call : ℕ) (now : Instant)
  | take (call : ℕ) (now : Instant)
  | approve (user : User) (allowSelf : Bool) (now : Instant) (job : String)
  | write (job : String) (write : Write)
  | sweepQuery (pass : ℕ) (now : Instant)
  | sweepMark (pass : ℕ) (now : Instant)
  | sweepEnd (pass : ℕ)

/-- The row has other terms: a start or a backoff of its own, or its approval taken back. -/
def Rebooks (before after : Job) : Prop :=
  after.scheduledFor ≠ before.scheduledFor ∨ after.retryAfter ≠ before.retryAfter ∨
    after.approvalRequired ≠ before.approvalRequired ∨
    (before.approvedAt.isSome ∧ after.approvedAt = none)

instance (before after : Job) : Decidable (Rebooks before after) :=
  inferInstanceAs (Decidable (_ ∨ _))

/-- The row did not wait before. -/
def Begins (before after : Job) : Prop := before.status.waiting = false ∧ after.status.waiting = true

instance (before after : Job) : Decidable (Begins before after) :=
  inferInstanceAs (Decidable (_ ∧ _))

def Call.pick (job : String) (now : Instant) (seen : ℕ) (call : Call) : Call :=
  { call with picked := some job, asked := now, seen }

/-- The race is lost; the call is left with its next iteration. -/
def Call.lose (call : Call) : Call := { call with left := call.left.map (· - 1), picked := none }

def Pass.mark (pass : Pass) : Pass := { pass with due := pass.due.tail }

def State.step (s : State) : Event → Option State
  | .create id now defaultExpiry request =>
    (s.jobs.insert (Jobs.createJob id now defaultExpiry request)).map fun jobs =>
      { s with jobs, begun := s.begun ++ [id] }
  | .claimCall id allowed =>
    if allowed = [] then some s
    else (s.calls.insert ⟨id, .worker, allowed, some 10, none, 0, 0⟩).map fun calls => { s with calls }
  | .leaseCall id agent qualifies wantJobTypes =>
    let allowed := Jobs.leaseTypes agent qualifies wantJobTypes
    if agent.paused ∨ allowed = [] then some s
    else
      (s.calls.insert ⟨id, .agent agent.id, allowed, none, none, 0, 0⟩).map fun calls =>
        { s with calls }
  | .select id now =>
    match s.calls.lookup id with
    | some ⟨_, claimant, allowed, left, none, _, _⟩ =>
      if left = some 0 then some { s with calls := s.calls.erase id }
      else
        match Jobs.claimCandidate s.jobs claimant allowed now with
        | none => some { s with calls := s.calls.erase id }
        | some job =>
          some { s with
            calls := s.calls.modify id (Call.pick job.id now s.rebooked.length) fun _ => rfl }
    | _ => none
  | .take id now =>
    match s.calls.lookup id with
    | some ⟨_, claimant, _, _, some job, _, _⟩ =>
      match Jobs.claimUpdate s.jobs claimant job now with
      | (jobs, true) => some { s with jobs, calls := s.calls.erase id }
      | (jobs, false) => some { s with jobs, calls := s.calls.modify id Call.lose fun _ => rfl }
    | _ => none
  | .approve user allowSelf now job =>
    some { s with
      jobs := s.jobs.modify job (approved user allowSelf now) (approved_id user allowSelf now) }
  | .write job write =>
    match s.jobs.lookup job with
    | none => some s
    | some row =>
      some { s with
        jobs := s.jobs.modify job write.apply write.apply_id
        rebooked := if Rebooks row (write.apply row) then s.rebooked ++ [job] else s.rebooked
        begun := if Begins row (write.apply row) then s.begun ++ [job] else s.begun }
  | .sweepQuery id now =>
    let listed := (dueMissed s.jobs now).map (·.id)
    (s.passes.insert ⟨id, now, listed, listed, s.begun.length⟩).map fun passes => { s with passes }
  | .sweepMark id now =>
    match s.passes.lookup id with
    | some ⟨_, started, _, job :: _, _⟩ =>
      match (s.jobs.lookup job).bind (·.windowEndsAt) with
      -- the reason cannot be written for a row that lost its window: the pass ends here
      | none => some { s with passes := s.passes.erase id }
      | some close =>
        some { s with
          jobs := s.jobs.modify job
            (fun row => Jobs.setMissedWindow now (missedReason close started row) row)
            fun row => (Jobs.setMissedWindow_same now _ row).id
          passes := s.passes.modify id Pass.mark fun _ => rfl }
    | _ => none
  | .sweepEnd id =>
    match s.passes.lookup id with
    | some pass =>
      if pass.due = [] then
        some { s with passes := s.passes.erase id, finished := s.finished ++ [pass] }
      else none
    | none => none

def punctualSystem : Machine.System State Event := ⟨State.step⟩

/-! ### On time -/

/-- The row the update of a call is about to claim. -/
def State.claimed (s : State) (call : ℕ) : Option (Call × Job) := do
  let call ← s.calls.lookup call
  let picked ← call.picked
  let job ← s.jobs.lookup picked
  if call.claimant.takes job then some (call, job) else none

structure OnTime (now : Instant) (job : Job) : Prop where
  start : ∀ start ∈ job.scheduledFor, start ≤ now
  approved : job.approvalRequired = some true → job.approvedAt.isSome = true
  backoff : ∀ retryAfter ∈ job.retryAfter, retryAfter ≤ now
  close : ∀ close ∈ job.windowEndsAt, now < close + missedGrace

instance (now : Instant) (job : Job) : Decidable (OnTime now job) :=
  decidable_of_iff (_ ∧ _ ∧ _ ∧ _) ⟨fun ⟨a, b, c, d⟩ => ⟨a, b, c, d⟩, fun ⟨a, b, c, d⟩ => ⟨a, b, c, d⟩⟩

def ClaimsOnTime (s : State) : Event → Prop
  | .take call now => ∀ claim ∈ s.claimed call, OnTime now claim.2
  | _ => True

/-- The pass had the row on its list, and the row has not begun to wait since. -/
def Pass.Covers (pass : Pass) (s : State) (id : String) : Prop :=
  id ∈ pass.listed ∧ id ∉ s.begun.drop pass.seen

instance (pass : Pass) (s : State) (id : String) : Decidable (pass.Covers s id) :=
  inferInstanceAs (Decidable (_ ∧ _))

/-- The row has not been rebooked since the query that picked it, and if its window has been closed
for the grace, a pass that had it on its list has come to its end. -/
def Prompt (s : State) : Event → Prop
  | .take call now => ∀ claim ∈ s.claimed call,
    claim.1.asked ≤ now ∧ claim.2.id ∉ s.rebooked.drop claim.1.seen ∧
      ((∀ close ∈ claim.2.windowEndsAt, now < close + missedGrace) ∨
        ∃ pass ∈ s.finished, pass.Covers s claim.2.id)
  | _ => True

instance (s : State) (event : Event) : Decidable (Prompt s event) := by
  cases event <;> unfold Prompt <;> infer_instance

instance (s : State) (event : Event) : Decidable (ClaimsOnTime s event) := by
  cases event <;> unfold ClaimsOnTime <;> infer_instance

/-! ### What a write does to the terms of a row -/

theorem claimableNow_mono {asked now : Instant} {job : Job} (h : asked ≤ now)
    (hclaim : Jobs.claimableNow asked job = true) : Jobs.claimableNow now job = true := by
  simp only [Jobs.claimableNow, Bool.and_eq_true, Option.all_eq_true_iff_get, decide_eq_true_eq]
    at hclaim ⊢
  exact ⟨⟨fun hs => (hclaim.1.1 hs).trans h, fun hs => (hclaim.1.2 hs).trans h⟩, hclaim.2⟩

theorem claimableNow_of_not_rebooks {now : Instant} {before after : Job}
    (h : ¬Rebooks before after) (hclaim : Jobs.claimableNow now before = true) :
    Jobs.claimableNow now after = true := by
  simp only [Rebooks, not_or, not_not, not_and] at h
  obtain ⟨hstart, hretry, hrequired, happroved⟩ := h
  simp only [Jobs.claimableNow, hstart, hretry, hrequired, Bool.and_eq_true, Bool.or_eq_true]
    at hclaim ⊢
  refine ⟨hclaim.1, hclaim.2.imp id fun hsome => ?_⟩
  exact Option.isSome_iff_ne_none.mpr (happroved hsome)

theorem approved_not_rebooks (user : User) (allowSelf : Bool) (now : Instant) (row : Job) :
    ¬Rebooks row (approved user allowSelf now row) ∧
      (approved user allowSelf now row).status = row.status := by
  unfold approved approveChange
  split
  next row' h =>
    split at h
    · cases h
    split at h
    · obtain rfl := Except.ok.inj h
      exact ⟨by simp +contextual [Rebooks, Option.isSome_iff_ne_none], rfl⟩
    split at h
    · cases h
    split at h
    · cases h
    obtain rfl := Except.ok.inj h
    exact ⟨by simp [Rebooks], rfl⟩
  next => exact ⟨by simp +contextual [Rebooks, Option.isSome_iff_ne_none], rfl⟩

theorem setMissedWindow_not_rebooks (now : Instant) (reason : String) (row : Job) :
    ¬Rebooks row (Jobs.setMissedWindow now reason row) := by
  unfold Jobs.setMissedWindow
  split <;> simp +contextual [Rebooks, Option.isSome_iff_ne_none]

/-! ### What the steps keep -/

/-- The rows move on: only those in `rebooked` have worse terms, only those in `begun` wait that
did not. -/
structure Follows (jobs jobs' : Table Job.id) (rebooked begun : List String) : Prop where
  terms : ∀ id row, jobs.lookup id = some row → ∃ row', jobs'.lookup id = some row' ∧
    (id ∈ rebooked ∨ ¬Rebooks row row')
  waits : ∀ id row', jobs'.lookup id = some row' → row'.status.waiting = true →
    id ∈ begun ∨ ∃ row, jobs.lookup id = some row ∧ row.status.waiting = true

theorem follows_modify {jobs : Table Job.id} {id : String} {f : Job → Job}
    {hf : ∀ row, (f row).id = row.id} {rebooked begun : List String}
    (hterms : ∀ row, jobs.lookup id = some row → id ∈ rebooked ∨ ¬Rebooks row (f row))
    (hwaits : ∀ row, jobs.lookup id = some row → (f row).status.waiting = true →
      id ∈ begun ∨ row.status.waiting = true) : Follows jobs (jobs.modify id f hf) rebooked begun where
  terms := by
    intro id' row hrow
    rw [Table.lookup_modify_of_some _ _ hrow]
    split
    next hid =>
      subst hid
      exact ⟨f row, rfl, hterms row hrow⟩
    next =>
      exact ⟨row, rfl, .inr (by simp +contextual [Rebooks, Option.isSome_iff_ne_none])⟩
  waits := by
    intro id' row' hrow' hwait
    obtain ⟨row, hrow, ⟨rfl, rfl⟩ | ⟨-, rfl⟩⟩ := Table.of_lookup_modify f hf hrow'
    · exact (hwaits row hrow hwait).imp id fun hwas => ⟨row, hrow, hwas⟩
    · exact .inr ⟨row', hrow, hwait⟩

structure Inv (s : State) : Prop where
  seen : ∀ call ∈ s.calls.rows, call.seen ≤ s.rebooked.length
  picked : ∀ call ∈ s.calls.rows, ∀ id, call.picked = some id → id ∉ s.rebooked.drop call.seen →
    ∃ row, s.jobs.lookup id = some row ∧ Jobs.claimableNow call.asked row = true
  passes : ∀ pass, pass ∈ s.passes.rows ∨ pass ∈ s.finished → pass.seen ≤ s.begun.length
  due : ∀ pass, pass ∈ s.passes.rows ∨ pass ∈ s.finished → ∀ id, pass.Covers s id →
    ∀ row, s.jobs.lookup id = some row → row.status.waiting = true → id ∈ pass.due
  ended : ∀ pass ∈ s.finished, pass.due = []

theorem not_mem_of_drop_append {n : ℕ} {xs ys : List String} {x : String} (hn : n ≤ xs.length)
    (h : x ∉ (xs ++ ys).drop n) : x ∉ xs.drop n ∧ x ∉ ys := by
  rw [List.drop_append_of_le_length hn] at h
  exact ⟨fun hx => h (List.mem_append_left _ hx), fun hy => h (List.mem_append_right _ hy)⟩

theorem Inv.follow {s : State} (h : Inv s) {jobs : Table Job.id} {rebooked begun : List String}
    (hfollows : Follows s.jobs jobs rebooked begun) :
    Inv { s with jobs, rebooked := s.rebooked ++ rebooked, begun := s.begun ++ begun } where
  seen := by
    intro call hcall
    rw [List.length_append]
    exact (h.seen call hcall).trans (Nat.le_add_right _ _)
  picked := by
    intro call hcall id hid hseen
    obtain ⟨hbefore, hnew⟩ := not_mem_of_drop_append (h.seen call hcall) hseen
    obtain ⟨row, hrow, hclaim⟩ := h.picked call hcall id hid hbefore
    obtain ⟨row', hrow', hterms⟩ := hfollows.terms id row hrow
    exact ⟨row', hrow', claimableNow_of_not_rebooks (hterms.resolve_left hnew) hclaim⟩
  passes := by
    intro pass hpass
    rw [List.length_append]
    exact (h.passes pass hpass).trans (Nat.le_add_right _ _)
  due := by
    rintro pass hpass id ⟨hlisted, hsince⟩ row' hrow' hwait
    obtain ⟨hbefore, hnew⟩ := not_mem_of_drop_append (h.passes pass hpass) hsince
    obtain ⟨row, hrow, hwas⟩ := (hfollows.waits id row' hrow' hwait).resolve_left hnew
    exact h.due pass hpass id ⟨hlisted, hbefore⟩ row hrow hwas
  ended := h.ended

/-- A write that worsens no terms and makes no row wait. -/
theorem Inv.modify {s : State} (h : Inv s) {id : String} {f : Job → Job}
    {hf : ∀ row, (f row).id = row.id}
    (hterms : ∀ row, s.jobs.lookup id = some row → ¬Rebooks row (f row))
    (hwaits : ∀ row, s.jobs.lookup id = some row → (f row).status.waiting = true →
      row.status.waiting = true) :
    Inv { s with jobs := s.jobs.modify id f hf } := by
  have hfollows : Follows s.jobs (s.jobs.modify id f hf) [] [] :=
    follows_modify (fun row hrow => .inr (hterms row hrow)) fun row hrow hwait =>
      .inr (hwaits row hrow hwait)
  simpa using h.follow hfollows

/-- Other calls, each with a row its query could answer. -/
theorem Inv.withCalls {s : State} (h : Inv s) {calls : Table Call.id}
    (hcalls : ∀ call ∈ calls.rows, call ∈ s.calls.rows ∨ call.seen ≤ s.rebooked.length ∧
      ∀ id, call.picked = some id → ∃ row, s.jobs.lookup id = some row ∧
        Jobs.claimableNow call.asked row = true) : Inv { s with calls } where
  seen := by
    intro call hcall
    rcases hcalls call hcall with hold | ⟨hseen, -⟩
    · exact h.seen call hold
    · exact hseen
  picked := by
    intro call hcall id hid hsince
    rcases hcalls call hcall with hold | ⟨-, hpicked⟩
    · exact h.picked call hold id hid hsince
    · exact hpicked id hid
  passes := h.passes
  due := h.due
  ended := h.ended

theorem taken_inv {s after : State} {id : ℕ} {now : Instant} (h : Inv s)
    (hstep : s.step (.take id now) = some after) : Inv after := by
  simp only [State.step] at hstep
  split at hstep
  next _ claimant allowed left job asked seen hcall =>
    have hmem := (Table.lookup_eq_some.mp hcall).1
    split at hstep
    next jobs hupdate =>
      obtain rfl := Option.some.inj hstep
      obtain ⟨row, hrow, htakes, rfl⟩ := Jobs.claimUpdate_matched hupdate
      have hid : ∀ row, (Jobs.setRunning now row).id = row.id :=
        fun row => (Jobs.setRunning_same now row).id
      have hran : Inv { s with jobs := s.jobs.modify job (Jobs.setRunning now) hid } := by
        refine h.modify (fun row _ => ?_) fun row _ hwait => by cases hwait
        simp +contextual [Rebooks, Jobs.setRunning, Option.isSome_iff_ne_none]
      exact hran.withCalls fun call hcall => .inl (Table.mem_erase.mp hcall).1
    next jobs hupdate =>
      obtain rfl := Option.some.inj hstep
      obtain rfl := Jobs.claimUpdate_missed hupdate
      refine h.withCalls fun call hcall => ?_
      rcases Table.mem_modify.mp hcall with ⟨old, hold, -, rfl⟩ | ⟨hold, -⟩
      · exact .inr ⟨h.seen old hold, fun _ hpicked => by cases hpicked⟩
      · exact .inl hold
  next => cases hstep

/-- Other passes, each with what it still has to mark on its list. -/
theorem Inv.withPasses {s : State} (h : Inv s) {passes : Table Pass.id}
    (hpasses : ∀ pass ∈ passes.rows, pass ∈ s.passes.rows ∨ pass.seen ≤ s.begun.length ∧
      ∀ id, pass.Covers s id → ∀ row, s.jobs.lookup id = some row → row.status.waiting = true →
        id ∈ pass.due) : Inv { s with passes } where
  seen := h.seen
  picked := h.picked
  passes := by
    rintro pass (hpass | hpass)
    · rcases hpasses pass hpass with hold | ⟨hseen, -⟩
      · exact h.passes pass (.inl hold)
      · exact hseen
    · exact h.passes pass (.inr hpass)
  due := by
    rintro pass (hpass | hpass)
    · rcases hpasses pass hpass with hold | ⟨-, hdue⟩
      · exact h.due pass (.inl hold)
      · exact hdue
    · exact h.due pass (.inr hpass)
  ended := h.ended

theorem marked_inv {s after : State} {id : ℕ} {now : Instant} (h : Inv s)
    (hstep : s.step (.sweepMark id now) = some after) : Inv after := by
  simp only [State.step] at hstep
  split at hstep
  next passId started listed job rest seen hpass =>
    have hmem := (Table.lookup_eq_some.mp hpass).1
    split at hstep
    next =>
      obtain rfl := Option.some.inj hstep
      exact h.withPasses fun pass hpass => .inl (Table.mem_erase.mp hpass).1
    next close hclose =>
      obtain rfl := Option.some.inj hstep
      let mark := fun row => Jobs.setMissedWindow now (missedReason close started row) row
      have hid : ∀ row, (mark row).id = row.id := fun row => (Jobs.setMissedWindow_same now _ row).id
      have hmarked : Inv { s with jobs := s.jobs.modify job mark hid } := by
        refine h.modify (fun row _ => setMissedWindow_not_rebooks now _ row) fun row _ hwait => ?_
        simp only [mark, Jobs.setMissedWindow_waiting] at hwait
        cases hwait
      refine hmarked.withPasses fun pass hin => ?_
      rcases Table.mem_modify.mp hin with ⟨old, hold, hkey, rfl⟩ | ⟨hold, -⟩
      · have hlook := Table.lookup_eq_some.mpr ⟨hold, hkey⟩
        rw [hpass] at hlook
        obtain rfl := Option.some.inj hlook
        let pass : Pass := ⟨passId, started, listed, job :: rest, seen⟩
        refine .inr ⟨hmarked.passes pass (.inl hmem), fun id' hcovers row hrow hwait => ?_⟩
        -- what is left to mark is the tail: the head does not wait any more
        rcases List.mem_cons.mp (hmarked.due pass (.inl hmem) id' hcovers row hrow hwait) with rfl | hrest
        · obtain ⟨old, -, ⟨-, rfl⟩ | ⟨hne, -⟩⟩ := Table.of_lookup_modify _ hid hrow
          · simp only [mark, Jobs.setMissedWindow_waiting] at hwait
            cases hwait
          · exact absurd rfl hne
        · exact hrest
      · exact .inl hold
  next => cases hstep

theorem written_inv {s after : State} {job : String} {write : Write} (h : Inv s)
    (hstep : s.step (.write job write) = some after) : Inv after := by
  simp only [State.step] at hstep
  split at hstep
  next =>
    obtain rfl := Option.some.inj hstep
    exact h
  next row hrow =>
    obtain rfl := Option.some.inj hstep
    let rebooked := if Rebooks row (write.apply row) then [job] else []
    let begun := if Begins row (write.apply row) then [job] else []
    have hid : ∀ row, (write.apply row).id = row.id := fun row => (write.apply_same row).id
    have hfollows : Follows s.jobs (s.jobs.modify job write.apply hid) rebooked begun := by
      refine follows_modify (fun row' hrow' => ?_) fun row' hrow' hwait => ?_
      · obtain rfl := Option.some.inj (hrow.symm.trans hrow')
        by_cases hrebooks : Rebooks row (write.apply row)
        · exact .inl (by simp [rebooked, hrebooks])
        · exact .inr hrebooks
      · obtain rfl := Option.some.inj (hrow.symm.trans hrow')
        by_cases hwas : row.status.waiting = true
        · exact .inr hwas
        · have hbegins : Begins row (write.apply row) := ⟨Bool.not_eq_true _ ▸ hwas, hwait⟩
          exact .inl (by simp [begun, hbegins])
    have happend : ∀ (c : Prop) [Decidable c] (xs : List String),
        (if c then xs ++ [job] else xs) = xs ++ if c then [job] else [] := by
      intro c _ xs
      split <;> simp
    simp only [happend]
    exact h.follow hfollows

theorem step_inv (s : State) (event : Event) (after : State) (h : Inv s)
    (hstep : s.step event = some after) : Inv after := by
  cases event with
  | create id now defaultExpiry request =>
    obtain ⟨jobs, hins, rfl⟩ := Option.map_eq_some_iff.mp hstep
    have hfollows : Follows s.jobs jobs [] [id] := by
      refine ⟨fun id' row hrow => ?_, fun id' row' hrow' hwait => ?_⟩
      · refine ⟨row, Table.lookup_insert_of_some hins hrow, .inr ?_⟩
        simp +contextual [Rebooks, Option.isSome_iff_ne_none]
      · rw [Table.lookup_insert hins] at hrow'
        split at hrow'
        next hid => exact .inl (List.mem_singleton.mpr hid)
        next => exact .inr ⟨row', hrow', hwait⟩
    simpa using h.follow hfollows
  | claimCall id allowed =>
    simp only [State.step] at hstep
    split at hstep
    · obtain rfl := Option.some.inj hstep
      exact h
    · obtain ⟨calls, hins, rfl⟩ := Option.map_eq_some_iff.mp hstep
      refine h.withCalls fun call hcall => ?_
      rcases (Table.mem_insert hins).mp hcall with hold | rfl
      · exact .inl hold
      · exact .inr ⟨Nat.zero_le _, fun _ hpicked => by cases hpicked⟩
  | leaseCall id agent qualifies wantJobTypes =>
    simp only [State.step] at hstep
    split at hstep
    · obtain rfl := Option.some.inj hstep
      exact h
    · obtain ⟨calls, hins, rfl⟩ := Option.map_eq_some_iff.mp hstep
      refine h.withCalls fun call hcall => ?_
      rcases (Table.mem_insert hins).mp hcall with hold | rfl
      · exact .inl hold
      · exact .inr ⟨Nat.zero_le _, fun _ hpicked => by cases hpicked⟩
  | select id now =>
    simp only [State.step] at hstep
    have hgone : Inv { s with calls := s.calls.erase id } :=
      h.withCalls fun call hcall => .inl (Table.mem_erase.mp hcall).1
    split at hstep
    next _ claimant allowed left asked seen hcall =>
      split at hstep
      · obtain rfl := Option.some.inj hstep
        exact hgone
      split at hstep
      · obtain rfl := Option.some.inj hstep
        exact hgone
      next job hcand =>
        obtain rfl := Option.some.inj hstep
        obtain ⟨hjob, hfilter⟩ := Jobs.claimCandidate_spec hcand
        refine h.withCalls fun call hcall => ?_
        rcases Table.mem_modify.mp hcall with ⟨old, -, -, rfl⟩ | ⟨hold, -⟩
        · refine .inr ⟨le_refl _, fun id' hpicked => ?_⟩
          obtain rfl := Option.some.inj hpicked
          exact ⟨job, hjob, (Bool.and_eq_true_iff.mp hfilter).2⟩
        · exact .inl hold
    next => cases hstep
  | take id now => exact taken_inv h hstep
  | approve user allowSelf now job =>
    obtain rfl := Option.some.inj hstep
    refine h.modify (fun row _ => (approved_not_rebooks user allowSelf now row).1) fun row _ hwait => ?_
    rw [(approved_not_rebooks user allowSelf now row).2] at hwait
    exact hwait
  | write job write => exact written_inv h hstep
  | sweepQuery id now =>
    obtain ⟨passes, hins, rfl⟩ := Option.map_eq_some_iff.mp hstep
    refine h.withPasses fun pass hpass => ?_
    rcases (Table.mem_insert hins).mp hpass with hold | rfl
    · exact .inl hold
    · exact .inr ⟨le_refl _, fun id' hcovers row _ _ => hcovers.1⟩
  | sweepMark id now => exact marked_inv h hstep
  | sweepEnd id =>
    simp only [State.step] at hstep
    split at hstep
    next pass hpass =>
      split at hstep
      next hend =>
        obtain rfl := Option.some.inj hstep
        have hmem := (Table.lookup_eq_some.mp hpass).1
        have hwas : ∀ p, p ∈ (s.passes.erase id).rows ∨ p ∈ s.finished ++ [pass] →
            p ∈ s.passes.rows ∨ p ∈ s.finished := by
          rintro p (hp | hp)
          · exact .inl (Table.mem_erase.mp hp).1
          · rcases List.mem_append.mp hp with hold | hnew
            · exact .inr hold
            · exact .inl (List.mem_singleton.mp hnew ▸ hmem)
        refine ⟨h.seen, h.picked, fun p hp => h.passes p (hwas p hp), fun p hp => h.due p (hwas p hp),
          fun p hp => ?_⟩
        rcases List.mem_append.mp hp with hold | hnew
        · exact h.ended p hold
        · exact List.mem_singleton.mp hnew ▸ hend
      next => cases hstep
    next => cases hstep

/-! ### Every claim on time -/

theorem prompt_onTime {s : State} {event : Event} (h : Inv s) (hprompt : Prompt s event) :
    ClaimsOnTime s event := by
  cases event with
  | take id now =>
    rintro ⟨call, job⟩ hclaimed
    obtain ⟨hasked, hkept, hclose⟩ := hprompt _ hclaimed
    simp only [State.claimed, Option.bind_eq_bind, Option.mem_def, Option.bind_eq_some_iff] at hclaimed
    obtain ⟨call', hcall, picked, hpicked, row, hrow, hcase⟩ := hclaimed
    split at hcase
    next htakes =>
      obtain ⟨rfl, rfl⟩ := Prod.mk.inj (Option.some.inj hcase)
      obtain rfl := Table.lookup_key hrow
      have hcallMem := (Table.lookup_eq_some.mp hcall).1
      obtain ⟨row', hrow', hasked'⟩ := h.picked _ hcallMem _ hpicked hkept
      obtain rfl := Option.some.inj (hrow.symm.trans hrow')
      have hclaim := claimableNow_mono hasked hasked'
      simp only [Jobs.claimableNow, Bool.and_eq_true, Bool.or_eq_true, Option.all_eq_true,
        decide_eq_true_eq] at hclaim
      refine ⟨hclaim.1.2, fun hrequired => ?_, hclaim.1.1, ?_⟩
      · exact hclaim.2.resolve_left fun hnot => hnot hrequired
      · rcases hclose with hopen | ⟨pass, hpass, hcovers⟩
        · exact hopen
        · -- the pass marked the row, which would not be waiting
          have hdue := h.due pass (.inr hpass) _ hcovers _ hrow (Jobs.claimant_takes_waiting htakes)
          rw [h.ended pass hpass] at hdue
          cases hdue
    next => cases hcase
  | _ => trivial

/-- From any table, in every interleaving in which no picked row is rebooked before its update and
the sweep gets to a closed window before the next claim, every claim is on time. -/
theorem claimed_on_time {jobs : Table Job.id} {events : List Event}
    (h : punctualSystem.Along Prompt ⟨jobs, .empty, .empty, [], [], []⟩ events) :
    punctualSystem.Along ClaimsOnTime ⟨jobs, .empty, .empty, [], [], []⟩ events := by
  have hnew : Inv ⟨jobs, .empty, .empty, [], [], []⟩ := by
    refine ⟨?_, ?_, ?_, ?_, ?_⟩ <;> simp [Table.empty]
  exact punctualSystem.along_of_along
    (fun s event after hinv hprompt hstep => ⟨step_inv s event after hinv hstep,
      prompt_onTime hinv hprompt⟩) hnew h

/- A change booked for 10:00 to 11:00. It is claimed at once, times out, is put back, and no worker
comes by before the sweep has marked it. -/
def sampleBooking : JobRequest where
  jobType := "ec2_power"
  createdBy := "ann"
  scheduledFor := some (Python.minutes 600)
  windowEndsAt := some (Python.minutes 660)

def sweptRun : List Event :=
  [.create "j1" 0 none sampleBooking,
   .claimCall 1 ["ec2_power"], .select 1 (Python.minutes 601), .take 1 (Python.minutes 601),
   .write "j1" (.failed ⟨true, none⟩ (Python.minutes 659) "Read timed out." []),
   .sweepQuery 1 (Python.minutes 662), .sweepMark 1 (Python.minutes 662), .sweepEnd 1,
   .claimCall 2 ["ec2_power"], .select 2 (Python.minutes 663)]

theorem sweptRun_on_time :
    punctualSystem.Along ClaimsOnTime ⟨.empty, .empty, .empty, [], [], []⟩ sweptRun :=
  claimed_on_time (by decide +kernel)

/- Every worker is busy until 11:03, and the next pass of the sweep comes after that. -/
def backlogRun : List Event :=
  [.create "j1" 0 none sampleBooking,
   .claimCall 1 ["ec2_power"], .select 1 (Python.minutes 663), .take 1 (Python.minutes 663)]

theorem claimed_after_window :
    ¬punctualSystem.Along ClaimsOnTime ⟨.empty, .empty, .empty, [], [], []⟩ backlogRun := by
  decide +kernel

end Windows.Punctual
