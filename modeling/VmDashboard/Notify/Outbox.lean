import Mathlib.Data.List.Sort
import VmDashboard.Machine.Count
import VmDashboard.Machine.Table
import VmDashboard.Notify.Policy
import VmDashboard.Python.Clock

/-!
# The delivery outbox (`services/notification_service.py`)

Any number of drain loops over the delivery rows. A loop claims its batch at once and sends it row by
row; the outcome of a POST is written to the row as the loop loaded it, whoever owns the row by then.
The reclaim of stuck rows goes by the clock alone.
-/

namespace Notify.Outbox
open Machine (Table)
open Python (Instant)

/-! ### Rows -/

inductive Status where
  | pending | sending | sent | failed | dryRun | suppressed
deriving DecidableEq

def Status.terminal : Status → Bool
  | pending | sending => false
  | sent | failed | dryRun | suppressed => true

structure Delivery where
  id : String
  createdAt : Instant
  status : Status
  attempts : ℕ
  nextAttemptAt : Option Instant
  claimedAt : Option Instant
  sentAt : Option Instant
  error : Option String
deriving DecidableEq

/-- The row that `_insert` adds. -/
def Delivery.new (id : String) (now : Instant) (suppress dryRun : Bool) : Delivery where
  id
  createdAt := now
  status := if suppress then .suppressed else if dryRun then .dryRun else .pending
  attempts := 0
  nextAttemptAt := none
  claimedAt := none
  sentAt := none
  error := none

def isStale (now : Instant) (row : Delivery) : Bool :=
  row.status == .sending &&
    row.claimedAt.any fun claimed => claimed + Python.seconds staleSendingSeconds < now

/-- `_reclaim_stale` on one row. -/
def reclaimStale (now : Instant) (row : Delivery) : Delivery :=
  if isStale now row then { row with status := .pending, claimedAt := none } else row

def isDue (now : Instant) (row : Delivery) : Bool :=
  row.status == .pending && row.nextAttemptAt.all fun next => next ≤ now

/-- The candidates of `_claim_batch`, oldest first. -/
def candidates (now : Instant) (limit : ℕ) (rows : List Delivery) : List String :=
  (((rows.filter (isDue now)).insertionSort fun a b => a.createdAt ≤ b.createdAt).take limit).map
    Delivery.id

/-- The update of `_claim_batch`. -/
def setSending (now : Instant) (row : Delivery) : Delivery :=
  { row with status := .sending, claimedAt := some now, attempts := row.attempts + 1 }

def truncated (error : String) : String := String.ofList (error.toList.take 2000)

/-- The row as `_finish` sets it. -/
def finish (status : Status) (error : String) (now : Instant) (row : Delivery) : Delivery :=
  { row with
    status
    error := if error = "" then none else some (truncated error)
    sentAt := if status = .sent then some now else row.sentAt }

/-- The row as `_retry` sets it. -/
def retry (maxAttempts : ℕ) (error : String) (delay : Option ℕ) (now : Instant) (row : Delivery) :
    Delivery :=
  if maxAttempts ≤ row.attempts then finish .failed error now row
  else
    let backoff := backoffSeconds (row.attempts - 1)
    let wait := match delay with
      | some delay => if delay = 0 then backoff else delay
      | none => backoff
    { row with
      status := .pending
      claimedAt := none
      error := some (truncated error)
      nextAttemptAt := some (now + Python.seconds wait) }

/-- The flush of the session: the columns that differ from what was loaded, and no others. -/
def flush (loaded set row : Delivery) : Delivery :=
  { row with
    status := if set.status = loaded.status then row.status else set.status
    nextAttemptAt :=
      if set.nextAttemptAt = loaded.nextAttemptAt then row.nextAttemptAt else set.nextAttemptAt
    claimedAt := if set.claimedAt = loaded.claimedAt then row.claimedAt else set.claimedAt
    sentAt := if set.sentAt = loaded.sentAt then row.sentAt else set.sentAt
    error := if set.error = loaded.error then row.error else set.error }

theorem reclaimStale_id (now : Instant) (row : Delivery) : (reclaimStale now row).id = row.id := by
  unfold reclaimStale
  split <;> rfl

theorem setSending_id (now : Instant) (row : Delivery) : (setSending now row).id = row.id := rfl

theorem flush_id (loaded set row : Delivery) : (flush loaded set row).id = row.id := rfl

/-! ### Loops -/

/-- A drain pass: the candidates still to be claimed, the rows claimed and not yet sent as they were
loaded, and the one being sent, with whether its POST is under way. -/
structure Loop where
  id : ℕ
  now : Instant
  candidates : List String
  batch : List Delivery
  current : Option Delivery
  posting : Bool

/-- The rows that the loop holds. -/
def Loop.held (loop : Loop) : List Delivery := loop.current.toList ++ loop.batch

/-- Those of them whose POST has not begun. -/
def Loop.unposted (loop : Loop) : List Delivery :=
  if loop.posting then loop.batch else loop.held

def Loop.setCandidates (candidates : List String) (loop : Loop) : Loop := { loop with candidates }

/-- A row has been claimed. -/
def Loop.claimed (candidates : List String) (row : Delivery) (loop : Loop) : Loop :=
  { loop with candidates, batch := loop.batch ++ [row] }

/-- `_deliver` begins with the next row of the batch. -/
def Loop.take (current : Option Delivery) (loop : Loop) : Loop :=
  { loop with batch := loop.batch.tail, current, posting := false }

def Loop.post (loop : Loop) : Loop := { loop with posting := true }

/-- `_deliver` is done with its row. -/
def Loop.done (loop : Loop) : Loop := { loop with current := none, posting := false }

/-- Why `_deliver` gives a row up before any POST. -/
inductive Refusal where
  | endpointDeleted | endpointDisabled | payloadInvalid | urlUnreadable

def Refusal.error : Refusal → String
  | endpointDeleted => "its endpoint has been deleted"
  | endpointDisabled => "its endpoint is disabled"
  | payloadInvalid => "stored payload is not valid JSON"
  | urlUnreadable => "the endpoint URL could not be decrypted (has JWT_SECRET_KEY changed?)"

inductive Event where
  | emit (id : String) (now : Instant) (suppress dryRun : Bool)
  | prune (cutoff : Instant)
  | reclaim (now : Instant)
  | list (loop : ℕ) (now : Instant) (limit : ℕ)
  | claim (loop : ℕ) (fails : Bool)
  | take (loop : ℕ) (reloads : Bool)
  | refuse (loop : ℕ) (why : Refusal)
  | post (loop : ℕ)
  | posted (loop : ℕ) (now : Instant)
  | postFailed (loop : ℕ) (now : Instant) (error : String) (delay : Option ℕ)
  | lost (loop : ℕ)
  | crash (loop : ℕ)

/-- `emitted` are the ids given out so far; they are never given out again. -/
structure State where
  rows : Table Delivery.id
  emitted : List String
  loops : Table Loop.id

def State.start : State := ⟨.empty, [], .empty⟩

/-- The outcome of a delivery on its row, and the loop done with it. -/
def State.write (s : State) (loop : ℕ) (loaded set : Delivery) : State :=
  { s with
    rows := s.rows.modify loaded.id (flush loaded set) (flush_id loaded set)
    loops := s.loops.modify loop Loop.done fun _ => rfl }

def State.step (maxAttempts : ℕ) (s : State) : Event → Option State
  | .emit id now suppress dryRun =>
    if id ∈ s.emitted then none
    else (s.rows.insert (.new id now suppress dryRun)).map fun rows =>
      { s with rows, emitted := s.emitted ++ [id] }
  | .prune cutoff =>
    some { s with rows := s.rows.filter fun row =>
      !(row.createdAt < cutoff && (row.status ∈ [Status.sent, .dryRun, .suppressed])) }
  | .reclaim now => some { s with rows := s.rows.map (reclaimStale now) (reclaimStale_id now) }
  | .list loop now limit =>
    (s.loops.insert ⟨loop, now, candidates now limit s.rows.rows, [], none, false⟩).map fun loops =>
      { s with loops }
  | .claim loop fails =>
    match s.loops.lookup loop with
    | some ⟨_, now, id :: rest, _, _, _⟩ =>
      match s.rows.lookup id with
      | some row =>
        if row.status = .pending ∧ ¬fails then
          some { s with
            rows := s.rows.modify id (setSending now) (setSending_id now)
            loops := s.loops.modify loop (Loop.claimed rest (setSending now row)) fun _ => rfl }
        else some { s with loops := s.loops.modify loop (Loop.setCandidates rest) fun _ => rfl }
      | none => some { s with loops := s.loops.modify loop (Loop.setCandidates rest) fun _ => rfl }
    | _ => none
  | .take loop reloads =>
    match s.loops.lookup loop with
    | some ⟨_, _, [], row :: _, none, _⟩ =>
      let current := if reloads then s.rows.lookup row.id else some row
      some { s with loops := s.loops.modify loop (Loop.take current) fun _ => rfl }
    | _ => none
  | .refuse loop why =>
    match s.loops.lookup loop with
    | some ⟨_, _, _, _, some loaded, false⟩ =>
      some (s.write loop loaded (finish .failed why.error 0 loaded))
    | _ => none
  | .post loop =>
    match s.loops.lookup loop with
    | some ⟨_, _, _, _, some _, false⟩ =>
      some { s with loops := s.loops.modify loop Loop.post fun _ => rfl }
    | _ => none
  | .posted loop now =>
    match s.loops.lookup loop with
    | some ⟨_, _, _, _, some loaded, true⟩ =>
      some (s.write loop loaded (finish .sent "" now loaded))
    | _ => none
  | .postFailed loop now error delay =>
    match s.loops.lookup loop with
    | some ⟨_, _, _, _, some loaded, true⟩ =>
      some (s.write loop loaded (retry maxAttempts error delay now loaded))
    | _ => none
  | .lost loop => some { s with loops := s.loops.modify loop Loop.done fun _ => rfl }
  | .crash loop => some { s with loops := s.loops.erase loop }

def outboxSystem (maxAttempts : ℕ) : Machine.System State Event where
  step := State.step maxAttempts

/-- The delivery whose POST begins with the event. -/
def State.posts (s : State) : Event → Option String
  | .post loop =>
    match s.loops.lookup loop with
    | some ⟨_, _, _, _, some loaded, false⟩ => some loaded.id
    | _ => none
  | _ => none

/-- The rows that are over are as they were, or pruned. -/
def KeepsTerminal (rows after : Table Delivery.id) : Prop :=
  ∀ row ∈ rows.rows, row.status.terminal = true → ∀ row' ∈ after.lookup row.id, row' = row

instance (rows after : Table Delivery.id) : Decidable (KeepsTerminal rows after) := by
  unfold KeepsTerminal
  infer_instance

/-- No POST is made for a delivery that is over, and its row is not written any more. -/
def LeavesTerminal (maxAttempts : ℕ) (s : State) (event : Event) : Prop :=
  (∀ id ∈ s.posts event, ∀ row ∈ s.rows.lookup id, row.status.terminal = false) ∧
    ∀ after ∈ s.step maxAttempts event, KeepsTerminal s.rows after.rows

instance (maxAttempts : ℕ) (s : State) (event : Event) :
    Decidable (LeavesTerminal maxAttempts s event) := by
  unfold LeavesTerminal
  infer_instance

/-- A reclaim meets no row that a loop still holds, and none that has used up its attempts. -/
def ReclaimsAbandoned (maxAttempts : ℕ) (s : State) : Event → Prop
  | .reclaim now => ∀ row ∈ s.rows.rows, isStale now row = true → row.attempts < maxAttempts ∧
      ∀ loop ∈ s.loops.rows, ∀ loaded ∈ loop.held, loaded.id ≠ row.id
  | _ => True

instance (maxAttempts : ℕ) (s : State) : (event : Event) →
    Decidable (ReclaimsAbandoned maxAttempts s event)
  | .reclaim _ => by unfold ReclaimsAbandoned; infer_instance
  | .emit .. | .prune _ | .list .. | .claim .. | .take .. | .refuse .. | .post _ | .posted ..
  | .postFailed .. | .lost _ | .crash _ => isTrue trivial

/-! ### Rows and loops after a step -/

/-- With nothing else written since the row was loaded, the flush leaves what was set. -/
theorem flush_loaded {loaded set : Delivery} (hid : set.id = loaded.id)
    (hcreated : set.createdAt = loaded.createdAt) (hattempts : set.attempts = loaded.attempts) :
    flush loaded set loaded = set := by
  cases set
  simp only at hid hcreated hattempts
  subst hid hcreated hattempts
  simp only [flush, Delivery.mk.injEq, true_and, ite_eq_right_iff]
  exact ⟨Eq.symm, Eq.symm, Eq.symm, Eq.symm, Eq.symm⟩

theorem batch_sublist_unposted (loop : Loop) : loop.batch.Sublist loop.unposted := by
  unfold Loop.unposted Loop.held
  split
  · exact List.Sublist.refl _
  · exact List.sublist_append_right _ _

theorem unposted_sublist_held (loop : Loop) : loop.unposted.Sublist loop.held := by
  unfold Loop.unposted Loop.held
  split
  · exact List.sublist_append_right _ _
  · exact List.Sublist.refl _

@[simp] theorem Loop.done_held (loop : Loop) : loop.done.held = loop.batch := rfl

@[simp] theorem Loop.done_unposted (loop : Loop) : loop.done.unposted = loop.batch := rfl

@[simp] theorem Loop.claimed_held (rest : List String) (row : Delivery) (loop : Loop) :
    (loop.claimed rest row).held = loop.held ++ [row] := (List.append_assoc ..).symm

/-- After an update of one loop, each loop is that one changed or another one as it was. -/
theorem of_mem_modify {loops : Table Loop.id} {loop : ℕ} {f : Loop → Loop}
    {hf : ∀ l, (f l).id = l.id} {l : Loop} (h : l ∈ (loops.modify loop f hf).rows) :
    ∃ old ∈ loops.rows, old.id = l.id ∧ (old.id = loop ∧ l = f old ∨ old.id ≠ loop ∧ l = old) := by
  rcases Table.mem_modify.mp h with ⟨old, hold, hid, rfl⟩ | ⟨hold, hid⟩
  · exact ⟨old, hold, (hf old).symm, .inl ⟨hid, rfl⟩⟩
  · exact ⟨l, hold, rfl, .inr ⟨hid, rfl⟩⟩

/-! ### The invariant -/

structure Inv (maxAttempts : ℕ) (s : State) : Prop where
  emitted : ∀ row ∈ s.rows.rows, row.id ∈ s.emitted
  attempts : ∀ row ∈ s.rows.rows, row.attempts ≤ maxAttempts ∧
    (row.status = .pending → row.attempts < maxAttempts)
  held : ∀ loop ∈ s.loops.rows, ∀ loaded ∈ loop.held,
    s.rows.lookup loaded.id = some loaded ∧ loaded.status = .sending
  distinct : ∀ loop ∈ s.loops.rows, (loop.held.map Delivery.id).Nodup
  apart : ∀ loop ∈ s.loops.rows, ∀ other ∈ s.loops.rows, ∀ loaded ∈ loop.held,
    ∀ loaded' ∈ other.held, loaded.id = loaded'.id → loop.id = other.id

/-- The number of POSTs begun for `id`, against the attempts counted on its row. -/
structure Counted (maxAttempts : ℕ) (id : String) (n : ℕ) (s : State) : Prop where
  fresh : id ∉ s.emitted → n = 0
  bound : n ≤ maxAttempts
  row : ∀ row ∈ s.rows.lookup id, n ≤ row.attempts
  unposted : ∀ loop ∈ s.loops.rows, ∀ loaded ∈ loop.unposted, loaded.id = id → n < loaded.attempts

section
variable {maxAttempts : ℕ} {s : State}

theorem start_inv (maxAttempts : ℕ) : Inv maxAttempts .start := by
  constructor <;> simp [State.start, Table.empty]

theorem start_counted (maxAttempts : ℕ) (id : String) : Counted maxAttempts id 0 .start := by
  constructor <;> simp [State.start, Table.empty]

/-- Other loops that hold no more than those before them. -/
theorem Inv.withLoops (h : Inv maxAttempts s) {loops : Table Loop.id}
    (hloops : ∀ loop ∈ loops.rows, loop.held = [] ∨
      ∃ old ∈ s.loops.rows, old.id = loop.id ∧ loop.held.Sublist old.held) :
    Inv maxAttempts { s with loops } where
  emitted := h.emitted
  attempts := h.attempts
  held := by
    intro loop hloop loaded hloaded
    rcases hloops loop hloop with hnil | ⟨old, hold, -, hsub⟩
    · rw [hnil] at hloaded
      cases hloaded
    · exact h.held old hold loaded (hsub.subset hloaded)
  distinct := by
    intro loop hloop
    rcases hloops loop hloop with hnil | ⟨old, hold, -, hsub⟩
    · rw [hnil]
      exact List.nodup_nil
    · exact (h.distinct old hold).sublist (hsub.map _)
  apart := by
    intro loop hloop other hother loaded hloaded loaded' hloaded' hid
    rcases hloops loop hloop with hnil | ⟨old, hold, hkey, hsub⟩
    · rw [hnil] at hloaded
      cases hloaded
    rcases hloops other hother with hnil | ⟨old', hold', hkey', hsub'⟩
    · rw [hnil] at hloaded'
      cases hloaded'
    · have hsame := h.apart old hold old' hold' loaded (hsub.subset hloaded) loaded'
        (hsub'.subset hloaded') hid
      exact hkey.symm.trans (hsame.trans hkey')

theorem Counted.withLoops {id : String} {n : ℕ} (h : Counted maxAttempts id n s)
    {loops : Table Loop.id} (hloops : ∀ loop ∈ loops.rows, ∀ loaded ∈ loop.unposted,
      ∃ old ∈ s.loops.rows, loaded ∈ old.unposted) : Counted maxAttempts id n { s with loops } where
  fresh := h.fresh
  bound := h.bound
  row := h.row
  unposted := by
    intro loop hloop loaded hloaded hid
    obtain ⟨old, hold, hmem⟩ := hloops loop hloop loaded hloaded
    exact h.unposted old hold loaded hmem hid

/-- One loop done with its row. -/
theorem done_sublist {loops : Table Loop.id} {loop : ℕ} {l : Loop}
    (h : l ∈ (loops.modify loop Loop.done fun _ => rfl).rows) :
    ∃ old ∈ loops.rows, old.id = l.id ∧ l.held.Sublist old.held ∧ l.unposted.Sublist old.unposted := by
  obtain ⟨old, hold, hid, ⟨-, rfl⟩ | ⟨-, rfl⟩⟩ := of_mem_modify h
  · exact ⟨old, hold, hid, (batch_sublist_unposted old).trans (unposted_sublist_held old),
      batch_sublist_unposted old⟩
  · exact ⟨l, hold, hid, List.Sublist.refl _, List.Sublist.refl _⟩

/-- What a loop holds is not the row that another loop, or the same one, is sending. -/
theorem Inv.other_of_done (h : Inv maxAttempts s) {loop : Loop} {loaded : Delivery}
    (hloop : loop ∈ s.loops.rows) (hcurrent : loop.current = some loaded) {l : Loop}
    (hl : l ∈ (s.loops.modify loop.id Loop.done fun _ => rfl).rows) :
    ∀ other ∈ l.held, other.id ≠ loaded.id := by
  intro other hother hid
  have hmem : loaded ∈ loop.held := by simp [Loop.held, hcurrent]
  obtain ⟨old, hold, -, ⟨hkey, rfl⟩ | ⟨hkey, rfl⟩⟩ := of_mem_modify hl
  · obtain rfl := Table.eq_of_key hold hloop hkey
    have hnodup := h.distinct old hold
    simp only [Loop.held, hcurrent, Option.toList_some, List.singleton_append, List.map_cons,
      List.nodup_cons] at hnodup
    exact hnodup.1 (hid ▸ List.mem_map_of_mem hother)
  · exact hkey (h.apart l hold loop hloop other hother loaded hmem hid)

/-- The outcome of a delivery, on a row that its loop holds. -/
theorem Inv.write (h : Inv maxAttempts s) {loop : Loop} {loaded set : Delivery}
    (hloop : loop ∈ s.loops.rows) (hcurrent : loop.current = some loaded) (hid : set.id = loaded.id)
    (hcreated : set.createdAt = loaded.createdAt) (hattempts : set.attempts = loaded.attempts)
    (hpending : set.status = .pending → set.attempts < maxAttempts) :
    Inv maxAttempts (s.write loop.id loaded set) := by
  have hmem : loaded ∈ loop.held := by simp [Loop.held, hcurrent]
  obtain ⟨hlookup, -⟩ := h.held loop hloop loaded hmem
  have hrow := (Table.lookup_eq_some.mp hlookup).1
  have hset := flush_loaded hid hcreated hattempts
  -- the rows are those of before, with `set` for the loaded one
  have hrows : ∀ row ∈ (s.rows.modify loaded.id (flush loaded set) (flush_id loaded set)).rows,
      row = set ∨ row ∈ s.rows.rows := by
    intro row hin
    rcases Table.mem_modify.mp hin with ⟨old, hold, hkey, rfl⟩ | ⟨hold, -⟩
    · obtain rfl := Table.eq_of_key hold hrow hkey
      exact .inl hset
    · exact .inr hold
  have hdone : Inv maxAttempts { s with loops := s.loops.modify loop.id Loop.done fun _ => rfl } := by
    refine h.withLoops fun l hl => ?_
    obtain ⟨old, hold, hkey, hsub, -⟩ := done_sublist hl
    exact .inr ⟨old, hold, hkey, hsub⟩
  refine ⟨fun row hin => ?_, fun row hin => ?_, fun l hl other hother => ?_, hdone.distinct, hdone.apart⟩
  · rcases hrows row hin with rfl | hold
    · exact hid ▸ h.emitted loaded hrow
    · exact h.emitted row hold
  · rcases hrows row hin with rfl | hold
    · exact ⟨hattempts ▸ (h.attempts loaded hrow).1, hpending⟩
    · exact h.attempts row hold
  · obtain ⟨hother', hsending⟩ := hdone.held l hl other hother
    refine ⟨?_, hsending⟩
    exact (Table.lookup_modify_of_ne _ (h.other_of_done hloop hcurrent hl other hother) _
      (flush_id loaded set)).trans hother'

theorem Counted.write {id : String} {n : ℕ} (h : Counted maxAttempts id n s) {loop : ℕ}
    {loaded set : Delivery} : Counted maxAttempts id n (s.write loop loaded set) where
  fresh := h.fresh
  bound := h.bound
  row := by
    intro row hrow
    obtain ⟨old, hold, ⟨-, rfl⟩ | ⟨-, rfl⟩⟩ := Table.of_lookup_modify _ (flush_id loaded set) hrow
    · exact h.row old hold
    · exact h.row row hold
  unposted := by
    intro l hl loaded' hloaded' hid
    obtain ⟨old, hold, -, -, hsub⟩ := done_sublist hl
    exact h.unposted old hold loaded' (hsub.subset hloaded') hid

/-- Rows over by now are not among those a loop holds. -/
theorem Inv.terminal_write (h : Inv maxAttempts s) {loop : Loop} {loaded set : Delivery}
    (hloop : loop ∈ s.loops.rows) (hcurrent : loop.current = some loaded) :
    KeepsTerminal s.rows (s.write loop.id loaded set).rows := by
  intro row hrow hterminal row' hrow'
  have hmem : loaded ∈ loop.held := by simp [Loop.held, hcurrent]
  obtain ⟨hlookup, hsending⟩ := h.held loop hloop loaded hmem
  have hself : s.rows.lookup row.id = some row := Table.lookup_eq_some.mpr ⟨hrow, rfl⟩
  obtain ⟨old, hold, ⟨hid, -⟩ | ⟨-, rfl⟩⟩ := Table.of_lookup_modify _ (flush_id loaded set) hrow'
  · rw [hid, hlookup] at hself
    obtain rfl := Option.some.inj hself
    rw [hsending] at hterminal
    cases hterminal
  · exact Option.some.inj (hold.symm.trans hself)

theorem keepsTerminal_refl (rows : Table Delivery.id) : KeepsTerminal rows rows :=
  fun _ hrow _ _ hrow' => Option.some.inj (hrow'.symm.trans (Table.lookup_eq_some.mpr ⟨hrow, rfl⟩))

theorem reclaimStale_attempts (now : Instant) (row : Delivery) :
    (reclaimStale now row).attempts = row.attempts := by
  unfold reclaimStale
  split <;> rfl

/-! ### One step -/

theorem emitted_inv {id : String} {now : Instant} {suppress dryRun : Bool} {after : State}
    (hmax : 1 ≤ maxAttempts) (h : Inv maxAttempts s)
    (hstep : s.step maxAttempts (.emit id now suppress dryRun) = some after) :
    Inv maxAttempts after ∧ KeepsTerminal s.rows after.rows := by
  simp only [State.step] at hstep
  split at hstep
  · cases hstep
  obtain ⟨rows, hins, rfl⟩ := Option.map_eq_some_iff.mp hstep
  refine ⟨⟨fun row hrow => ?_, fun row hrow => ?_, fun loop hloop loaded hloaded => ?_, h.distinct,
    h.apart⟩, fun row hrow _ row' hrow' => ?_⟩
  · rcases (Table.mem_insert hins).mp hrow with hold | rfl
    · exact List.mem_append_left _ (h.emitted row hold)
    · exact List.mem_append_right _ (List.mem_singleton.mpr rfl)
  · rcases (Table.mem_insert hins).mp hrow with hold | rfl
    · exact h.attempts row hold
    · exact ⟨Nat.zero_le _, fun _ => hmax⟩
  · obtain ⟨hlookup, hsending⟩ := h.held loop hloop loaded hloaded
    exact ⟨Table.lookup_insert_of_some hins hlookup, hsending⟩
  · have hself : s.rows.lookup row.id = some row := Table.lookup_eq_some.mpr ⟨hrow, rfl⟩
    have hkept := Table.lookup_insert_of_some hins hself
    exact Option.some.inj (hrow'.symm.trans hkept)

theorem pruned_inv {cutoff : Instant} {after : State} (h : Inv maxAttempts s)
    (hstep : s.step maxAttempts (.prune cutoff) = some after) :
    Inv maxAttempts after ∧ KeepsTerminal s.rows after.rows := by
  obtain rfl := Option.some.inj hstep
  refine ⟨⟨fun row hrow => h.emitted row (List.mem_filter.mp hrow).1,
    fun row hrow => h.attempts row (List.mem_filter.mp hrow).1, fun loop hloop loaded hloaded => ?_,
    h.distinct, h.apart⟩, fun row hrow _ row' hrow' => ?_⟩
  · obtain ⟨hlookup, hsending⟩ := h.held loop hloop loaded hloaded
    exact ⟨Table.lookup_filter_of_some hlookup (by simp [hsending]), hsending⟩
  · have hself : s.rows.lookup row.id = some row := Table.lookup_eq_some.mpr ⟨hrow, rfl⟩
    have hwas := (Table.of_lookup_filter hrow').1
    exact Option.some.inj (hwas.symm.trans hself)

theorem reclaimed_inv {now : Instant} {after : State} (h : Inv maxAttempts s)
    (habandoned : ReclaimsAbandoned maxAttempts s (.reclaim now))
    (hstep : s.step maxAttempts (.reclaim now) = some after) :
    Inv maxAttempts after ∧ KeepsTerminal s.rows after.rows := by
  obtain rfl := Option.some.inj hstep
  have hfresh : ∀ row, isStale now row = false → reclaimStale now row = row := by
    intro row hnot
    simp [reclaimStale, hnot]
  refine ⟨⟨fun row hrow => ?_, fun row hrow => ?_, fun loop hloop loaded hloaded => ?_, h.distinct,
    h.apart⟩, fun row hrow hterminal row' hrow' => ?_⟩
  · obtain ⟨old, hold, rfl⟩ := List.mem_map.mp hrow
    rw [reclaimStale_id]
    exact h.emitted old hold
  · obtain ⟨old, hold, rfl⟩ := List.mem_map.mp hrow
    obtain ⟨hbound, hpending⟩ := h.attempts old hold
    rw [reclaimStale_attempts]
    refine ⟨hbound, fun hwaits => ?_⟩
    by_cases hstale : isStale now old = true
    · exact (habandoned old hold hstale).1
    · rw [hfresh old (Bool.not_eq_true _ ▸ hstale)] at hwaits
      exact hpending hwaits
  · obtain ⟨hlookup, hsending⟩ := h.held loop hloop loaded hloaded
    have hnot : isStale now loaded = false := by
      by_contra hstale
      have hrow := (Table.lookup_eq_some.mp hlookup).1
      exact (habandoned loaded hrow (Bool.not_eq_false _ ▸ hstale)).2 loop hloop loaded hloaded rfl
    have hkept := Table.lookup_map (reclaimStale_id now) hlookup
    rw [hfresh loaded hnot] at hkept
    exact ⟨hkept, hsending⟩
  · have hself : s.rows.lookup row.id = some row := Table.lookup_eq_some.mpr ⟨hrow, rfl⟩
    have hnot : isStale now row = false := by
      cases hstatus : row.status <;> simp_all [isStale, Status.terminal]
    have hkept := Table.lookup_map (reclaimStale_id now) hself
    rw [hfresh row hnot] at hkept
    exact Option.some.inj (hrow'.symm.trans hkept)

/-- A row that waits is held by no loop, so the one that claims it holds it alone. -/
theorem claimed_inv {loop : Loop} {rest : List String} {row : Delivery} {now : Instant}
    (h : Inv maxAttempts s) (hrow : row ∈ s.rows.rows) (hpending : row.status = .pending) :
    Inv maxAttempts { s with
      rows := s.rows.modify row.id (setSending now) (setSending_id now)
      loops := s.loops.modify loop.id (Loop.claimed rest (setSending now row)) fun _ => rfl } ∧
    KeepsTerminal s.rows (s.rows.modify row.id (setSending now) (setSending_id now)) := by
  have hself : s.rows.lookup row.id = some row := Table.lookup_eq_some.mpr ⟨hrow, rfl⟩
  have hfree : ∀ l ∈ s.loops.rows, ∀ loaded ∈ l.held, loaded.id ≠ row.id := by
    intro l hl loaded hloaded hid
    obtain ⟨hlookup, hsending⟩ := h.held l hl loaded hloaded
    rw [hid, hself] at hlookup
    obtain rfl := Option.some.inj hlookup
    rw [hpending] at hsending
    cases hsending
  have hrows : ∀ row' ∈ (s.rows.modify row.id (setSending now) (setSending_id now)).rows,
      row' = setSending now row ∨ row' ∈ s.rows.rows := by
    intro row' hin
    rcases Table.mem_modify.mp hin with ⟨old, hold, hkey, rfl⟩ | ⟨hold, -⟩
    · obtain rfl := Table.eq_of_key hold hrow hkey
      exact .inl rfl
    · exact .inr hold
  -- what a loop holds now is what it held, and the row just claimed
  have hheld : ∀ l ∈ (s.loops.modify loop.id (Loop.claimed rest (setSending now row))
      fun _ => rfl).rows, ∃ old ∈ s.loops.rows, old.id = l.id ∧
        (l.held = old.held ∨ old.id = loop.id ∧ l.held = old.held ++ [setSending now row]) := by
    intro l hl
    obtain ⟨old, hold, hid, ⟨hkey, rfl⟩ | ⟨-, rfl⟩⟩ := of_mem_modify hl
    · exact ⟨old, hold, rfl, .inr ⟨hkey, Loop.claimed_held ..⟩⟩
    · exact ⟨l, hold, rfl, .inl rfl⟩
  have hmem : ∀ l ∈ (s.loops.modify loop.id (Loop.claimed rest (setSending now row))
      fun _ => rfl).rows, ∀ loaded ∈ l.held, (∃ old ∈ s.loops.rows, old.id = l.id ∧ loaded ∈ old.held) ∨
        l.id = loop.id ∧ loaded = setSending now row := by
    intro l hl loaded hloaded
    obtain ⟨old, hold, hid, hsame | ⟨hkey, hmore⟩⟩ := hheld l hl
    · exact .inl ⟨old, hold, hid, hsame ▸ hloaded⟩
    · rw [hmore] at hloaded
      rcases List.mem_append.mp hloaded with hwas | hnew
      · exact .inl ⟨old, hold, hid, hwas⟩
      · exact .inr ⟨hid.symm.trans hkey, List.mem_singleton.mp hnew⟩
  refine ⟨⟨fun row' hin => ?_, fun row' hin => ?_, fun l hl loaded hloaded => ?_, fun l hl => ?_,
    fun l hl other hother loaded hloaded loaded' hloaded' hid => ?_⟩,
    fun row' hin hterminal row'' hrow'' => ?_⟩
  · rcases hrows row' hin with rfl | hold
    · exact h.emitted row hrow
    · exact h.emitted row' hold
  · rcases hrows row' hin with rfl | hold
    · exact ⟨(h.attempts row hrow).2 hpending, fun hsent => by cases hsent⟩
    · exact h.attempts row' hold
  · rcases hmem l hl loaded hloaded with ⟨old, hold, -, hwas⟩ | ⟨-, rfl⟩
    · obtain ⟨hlookup, hsending⟩ := h.held old hold loaded hwas
      exact ⟨(Table.lookup_modify_of_ne _ (hfree old hold loaded hwas) _ (setSending_id now)).trans
        hlookup, hsending⟩
    · refine ⟨?_, rfl⟩
      rw [setSending_id]
      exact (Table.lookup_modify_self _ _ _ (setSending_id now)).trans
        (congrArg (Option.map (setSending now)) hself)
  · obtain ⟨old, hold, -, hsame | ⟨-, hmore⟩⟩ := hheld l hl
    · exact hsame ▸ h.distinct old hold
    · rw [hmore, List.map_append]
      refine List.nodup_append.mpr ⟨h.distinct old hold, List.nodup_singleton _, ?_⟩
      rintro id hid _ hnew rfl
      obtain ⟨loaded, hloaded, hkey⟩ := List.mem_map.mp hid
      exact hfree old hold loaded hloaded (hkey.trans (List.mem_singleton.mp hnew))
  · rcases hmem l hl loaded hloaded with ⟨old, hold, hkey, hwas⟩ | ⟨hkey, rfl⟩
    · rcases hmem other hother loaded' hloaded' with ⟨old', hold', hkey', hwas'⟩ | ⟨-, rfl⟩
      · exact hkey.symm.trans ((h.apart old hold old' hold' loaded hwas loaded' hwas' hid).trans hkey')
      · exact absurd hid (hfree old hold loaded hwas)
    · rcases hmem other hother loaded' hloaded' with ⟨old', hold', -, hwas'⟩ | ⟨hkey', -⟩
      · exact absurd hid.symm (hfree old' hold' loaded' hwas')
      · exact hkey.trans hkey'.symm
  · have hself' : s.rows.lookup row'.id = some row' := Table.lookup_eq_some.mpr ⟨hin, rfl⟩
    obtain ⟨old, hold, ⟨hid, -⟩ | ⟨-, rfl⟩⟩ := Table.of_lookup_modify _ (setSending_id now) hrow''
    · rw [hid, hself] at hself'
      obtain rfl := Option.some.inj hself'
      rw [hpending] at hterminal
      cases hterminal
    · exact Option.some.inj (hold.symm.trans hself')

/-- The rows stay, and one loop changes to hold no more than it did. -/
theorem Inv.withLoop (h : Inv maxAttempts s) (loop : ℕ) (f : Loop → Loop)
    (hf : ∀ l, (f l).id = l.id) (hheld : ∀ l ∈ s.loops.lookup loop, (f l).held.Sublist l.held) :
    Inv maxAttempts { s with loops := s.loops.modify loop f hf } ∧ KeepsTerminal s.rows s.rows := by
  refine ⟨h.withLoops fun l hl => ?_, keepsTerminal_refl _⟩
  obtain ⟨old, hold, hid, ⟨hkey, rfl⟩ | ⟨-, rfl⟩⟩ := of_mem_modify hl
  · exact .inr ⟨old, hold, hid, hheld old (Table.lookup_eq_some.mpr ⟨hold, hkey⟩)⟩
  · exact .inr ⟨l, hold, rfl, List.Sublist.refl _⟩

theorem finish_spec (status : Status) (error : String) (now : Instant) (row : Delivery) :
    (finish status error now row).id = row.id ∧
      (finish status error now row).createdAt = row.createdAt ∧
      (finish status error now row).attempts = row.attempts := ⟨rfl, rfl, rfl⟩

/-- A row goes back to the queue with an attempt left only. -/
theorem retry_spec (maxAttempts : ℕ) (error : String) (delay : Option ℕ) (now : Instant)
    (row : Delivery) :
    (retry maxAttempts error delay now row).id = row.id ∧
      (retry maxAttempts error delay now row).createdAt = row.createdAt ∧
      (retry maxAttempts error delay now row).attempts = row.attempts ∧
      ((retry maxAttempts error delay now row).status = .pending → row.attempts < maxAttempts) := by
  unfold retry
  split
  · exact ⟨rfl, rfl, rfl, fun hpending => by cases hpending⟩
  next hleft => exact ⟨rfl, rfl, rfl, fun _ => not_le.mp hleft⟩

theorem step_inv {event : Event} {after : State} (hmax : 1 ≤ maxAttempts) (h : Inv maxAttempts s)
    (habandoned : ReclaimsAbandoned maxAttempts s event)
    (hstep : s.step maxAttempts event = some after) :
    Inv maxAttempts after ∧ KeepsTerminal s.rows after.rows := by
  cases event with
  | emit id now suppress dryRun => exact emitted_inv hmax h hstep
  | prune cutoff => exact pruned_inv h hstep
  | reclaim now => exact reclaimed_inv h habandoned hstep
  | list loop now limit =>
    obtain ⟨loops, hins, rfl⟩ := Option.map_eq_some_iff.mp hstep
    refine ⟨h.withLoops fun l hl => ?_, keepsTerminal_refl _⟩
    rcases (Table.mem_insert hins).mp hl with hold | rfl
    · exact .inr ⟨l, hold, rfl, List.Sublist.refl _⟩
    · exact .inl rfl
  | claim loop fails =>
    simp only [State.step] at hstep
    split at hstep
    next _ loopId now id rest batch current posting hloop =>
      obtain ⟨hmem, hkey⟩ := Table.lookup_eq_some.mp hloop
      have hpassed : Inv maxAttempts { s with
          loops := s.loops.modify loop (Loop.setCandidates rest) fun _ => rfl } ∧
          KeepsTerminal s.rows s.rows :=
        h.withLoop loop (Loop.setCandidates rest) (fun _ => rfl) fun l _ => List.Sublist.refl _
      split at hstep
      next row hrow =>
        obtain ⟨hrowMem, rfl⟩ := Table.lookup_eq_some.mp hrow
        split at hstep
        next hpending =>
          obtain rfl := Option.some.inj hstep
          subst hkey
          exact claimed_inv h hrowMem hpending.1
        next =>
          obtain rfl := Option.some.inj hstep
          exact hpassed
      next =>
        obtain rfl := Option.some.inj hstep
        exact hpassed
    next => cases hstep
  | take loop reloads =>
    simp only [State.step] at hstep
    split at hstep
    next _ loopId now row rest posting hloop =>
      obtain rfl := Option.some.inj hstep
      obtain ⟨hmem, -⟩ := Table.lookup_eq_some.mp hloop
      have hlookup := (h.held _ hmem row (by simp [Loop.held])).1
      refine h.withLoop loop (Loop.take _) (fun _ => rfl) fun l hl => ?_
      obtain rfl := Option.some.inj (hloop.symm.trans hl)
      -- reloaded or not, the row is the one at the head of the batch
      have hcurrent : (if reloads then s.rows.lookup row.id else some row) = some row := by
        rw [hlookup]
        split <;> rfl
      rw [hcurrent]
      exact List.Sublist.refl _
    next => cases hstep
  | refuse loop why =>
    simp only [State.step] at hstep
    split at hstep
    next _ loopId now cands batch loaded hloop =>
      obtain rfl := Option.some.inj hstep
      obtain ⟨hmem, hkey⟩ := Table.lookup_eq_some.mp hloop
      subst hkey
      obtain ⟨hid, hcreated, hattempts⟩ := finish_spec .failed why.error 0 loaded
      exact ⟨h.write hmem rfl hid hcreated hattempts fun hfailed => (by cases hfailed),
        h.terminal_write hmem rfl⟩
    next => cases hstep
  | post loop =>
    simp only [State.step] at hstep
    split at hstep
    next =>
      obtain rfl := Option.some.inj hstep
      exact h.withLoop loop Loop.post (fun _ => rfl) fun l _ => List.Sublist.refl _
    next => cases hstep
  | posted loop now =>
    simp only [State.step] at hstep
    split at hstep
    next _ loopId listed cands batch loaded hloop =>
      obtain rfl := Option.some.inj hstep
      obtain ⟨hmem, hkey⟩ := Table.lookup_eq_some.mp hloop
      subst hkey
      obtain ⟨hid, hcreated, hattempts⟩ := finish_spec .sent "" now loaded
      exact ⟨h.write hmem rfl hid hcreated hattempts fun hsent => (by cases hsent),
        h.terminal_write hmem rfl⟩
    next => cases hstep
  | postFailed loop now error delay =>
    simp only [State.step] at hstep
    split at hstep
    next _ loopId listed cands batch loaded hloop =>
      obtain rfl := Option.some.inj hstep
      obtain ⟨hmem, hkey⟩ := Table.lookup_eq_some.mp hloop
      subst hkey
      obtain ⟨hid, hcreated, hattempts, hleft⟩ := retry_spec maxAttempts error delay now loaded
      exact ⟨h.write hmem rfl hid hcreated hattempts fun hpending => hattempts ▸ hleft hpending,
        h.terminal_write hmem rfl⟩
    next => cases hstep
  | lost loop =>
    obtain rfl := Option.some.inj hstep
    exact h.withLoop loop Loop.done (fun _ => rfl) fun l _ =>
      (batch_sublist_unposted l).trans (unposted_sublist_held l)
  | crash loop =>
    obtain rfl := Option.some.inj hstep
    exact ⟨h.withLoops fun l hl => .inr ⟨l, (Table.mem_erase.mp hl).1, rfl, List.Sublist.refl _⟩,
      keepsTerminal_refl _⟩

theorem posts_open {event : Event} (h : Inv maxAttempts s) :
    ∀ id ∈ s.posts event, ∀ row ∈ s.rows.lookup id, row.status.terminal = false := by
  intro id hid row hrow
  cases event with
  | post loop =>
    simp only [State.posts] at hid
    split at hid
    next _ loopId now cands batch loaded hloop =>
      obtain rfl := Option.some.inj hid
      have hmem := (Table.lookup_eq_some.mp hloop).1
      obtain ⟨hlookup, hsending⟩ := h.held _ hmem loaded (by simp [Loop.held])
      obtain rfl := Option.some.inj (hlookup.symm.trans hrow)
      rw [hsending]
      rfl
    next => cases hid
  | _ => cases hid

/-! ### Counting the POSTs of one delivery -/

/-- Rows with the attempts they had. -/
theorem Counted.withRows {id : String} {n : ℕ} (h : Counted maxAttempts id n s)
    {rows : Table Delivery.id} (hrows : ∀ row ∈ rows.lookup id, ∃ old ∈ s.rows.lookup id,
      old.attempts ≤ row.attempts) : Counted maxAttempts id n { s with rows } where
  fresh := h.fresh
  bound := h.bound
  row := by
    intro row hrow
    obtain ⟨old, hold, hle⟩ := hrows row hrow
    exact (h.row old hold).trans hle
  unposted := h.unposted

theorem claimed_counted {id : String} {n : ℕ} {loop : ℕ} {rest : List String} {row : Delivery}
    {now : Instant} (h : Counted maxAttempts id n s) (hrow : s.rows.lookup row.id = some row) :
    Counted maxAttempts id n { s with
      rows := s.rows.modify row.id (setSending now) (setSending_id now)
      loops := s.loops.modify loop (Loop.claimed rest (setSending now row)) fun _ => rfl } where
  fresh := h.fresh
  bound := h.bound
  row := by
    intro row' hrow'
    obtain ⟨old, hold, ⟨-, rfl⟩ | ⟨-, rfl⟩⟩ := Table.of_lookup_modify _ (setSending_id now) hrow'
    · exact (h.row old hold).trans (Nat.le_succ _)
    · exact h.row row' hold
  unposted := by
    intro l (hl : l ∈ (s.loops.modify loop (Loop.claimed rest (setSending now row))
      fun _ => rfl).rows) loaded hloaded hid
    obtain ⟨old, hold, -, ⟨-, rfl⟩ | ⟨-, rfl⟩⟩ := of_mem_modify hl
    · have hsplit : loaded ∈ old.unposted ∨ loaded = setSending now row := by
        by_cases hposting : old.posting = true
        · simpa [Loop.unposted, Loop.claimed, hposting] using hloaded
        · simpa [Loop.unposted, Loop.held, Loop.claimed, hposting, or_assoc] using hloaded
      rcases hsplit with hwas | rfl
      · exact h.unposted old hold loaded hwas hid
      · have hle := h.row row (hid ▸ hrow)
        exact Nat.lt_succ_of_le hle
    · exact h.unposted l hold loaded hloaded hid

/-- The POST of a row uses up the attempt its claim has counted. -/
theorem posted_counted {id : String} {n : ℕ} {loop : Loop} {loaded : Delivery}
    (hinv : Inv maxAttempts s) (h : Counted maxAttempts id n s) (hloop : loop ∈ s.loops.rows)
    (hcurrent : loop.current = some loaded) (hposting : loop.posting = false) :
    Counted maxAttempts id (n + if loaded.id = id then 1 else 0)
      { s with loops := s.loops.modify loop.id Loop.post fun _ => rfl } := by
  have hheld : loaded ∈ loop.held := by simp [Loop.held, hcurrent]
  have hunposted : loaded ∈ loop.unposted := by simpa [Loop.unposted, hposting] using hheld
  obtain ⟨hlookup, -⟩ := hinv.held loop hloop loaded hheld
  have hsub : ∀ l ∈ (s.loops.modify loop.id Loop.post fun _ => rfl).rows, ∀ other ∈ l.unposted,
      other.id ≠ loaded.id ∧ ∃ old ∈ s.loops.rows, other ∈ old.unposted := by
    intro l hl other hother
    obtain ⟨old, hold, -, ⟨hkey, rfl⟩ | ⟨hkey, rfl⟩⟩ := of_mem_modify hl
    · obtain rfl := Table.eq_of_key hold hloop hkey
      have hbatch : other ∈ old.batch := hother
      have hnodup := hinv.distinct old hold
      simp only [Loop.held, hcurrent, Option.toList_some, List.singleton_append, List.map_cons,
        List.nodup_cons] at hnodup
      exact ⟨fun hid => hnodup.1 (hid ▸ List.mem_map_of_mem hbatch), old, hold,
        (batch_sublist_unposted old).subset hbatch⟩
    · refine ⟨fun hid => ?_, l, hold, hother⟩
      exact hkey (hinv.apart l hold loop hloop other ((unposted_sublist_held l).subset hother) loaded
        hheld hid)
  by_cases hid : loaded.id = id
  · rw [if_pos hid]
    have hlt := h.unposted loop hloop loaded hunposted hid
    have hbound := (hinv.attempts loaded (Table.lookup_eq_some.mp hlookup).1).1
    refine ⟨fun hnew => ?_, by omega, fun row hrow => ?_, fun l hl other hother hsame => ?_⟩
    · exact absurd (hid ▸ hinv.emitted loaded (Table.lookup_eq_some.mp hlookup).1) hnew
    · rw [hid] at hlookup
      obtain rfl := Option.some.inj (hlookup.symm.trans hrow)
      omega
    · exact absurd (hsame.trans hid.symm) (hsub l hl other hother).1
  · rw [if_neg hid]
    exact h.withLoops fun l hl other hother => (hsub l hl other hother).2

theorem step_counted {id : String} {n : ℕ} {event : Event} {after : State}
    (hinv : Inv maxAttempts s) (h : Counted maxAttempts id n s)
    (hstep : s.step maxAttempts event = some after) :
    Counted maxAttempts id (n + if s.posts event == some id then 1 else 0) after := by
  cases event with
  | emit id' now suppress dryRun =>
    simp only [State.step] at hstep
    split at hstep
    · cases hstep
    next hfresh =>
      obtain ⟨rows, hins, rfl⟩ := Option.map_eq_some_iff.mp hstep
      refine ⟨fun hnew => h.fresh fun hold => hnew (List.mem_append_left _ hold), h.bound,
        fun row hrow => ?_, h.unposted⟩
      rw [Option.mem_def, Table.lookup_insert hins] at hrow
      split at hrow
      next hid =>
        have hzero : n = 0 := h.fresh (hid ▸ hfresh)
        have hle : n ≤ row.attempts := by omega
        exact hle
      next => exact h.row row hrow
  | prune cutoff =>
    obtain rfl := Option.some.inj hstep
    exact h.withRows fun row hrow => ⟨row, (Table.of_lookup_filter hrow).1, le_refl _⟩
  | reclaim now =>
    obtain rfl := Option.some.inj hstep
    refine h.withRows fun row hrow => ?_
    obtain ⟨hmem, rfl⟩ := Table.lookup_eq_some.mp hrow
    obtain ⟨old, hold, rfl⟩ := List.mem_map.mp hmem
    exact ⟨old, Table.lookup_eq_some.mpr ⟨hold, (reclaimStale_id now old).symm⟩,
      (reclaimStale_attempts now old).ge⟩
  | list loop now limit =>
    obtain ⟨loops, hins, rfl⟩ := Option.map_eq_some_iff.mp hstep
    refine h.withLoops fun l hl loaded hloaded => ?_
    rcases (Table.mem_insert hins).mp hl with hold | rfl
    · exact ⟨l, hold, hloaded⟩
    · cases hloaded
  | claim loop fails =>
    simp only [State.step] at hstep
    split at hstep
    next _ loopId now first rest batch current posting hloop =>
      have hpassed : Counted maxAttempts id n { s with
          loops := s.loops.modify loop (Loop.setCandidates rest) fun _ => rfl } := by
        refine h.withLoops fun l hl loaded hloaded => ?_
        obtain ⟨old, hold, -, ⟨-, rfl⟩ | ⟨-, rfl⟩⟩ := of_mem_modify hl
        · exact ⟨old, hold, hloaded⟩
        · exact ⟨l, hold, hloaded⟩
      split at hstep
      next row hrow =>
        obtain rfl := Table.lookup_key hrow
        split at hstep
        next =>
          obtain rfl := Option.some.inj hstep
          exact claimed_counted h hrow
        next =>
          obtain rfl := Option.some.inj hstep
          exact hpassed
      next =>
        obtain rfl := Option.some.inj hstep
        exact hpassed
    next => cases hstep
  | take loop reloads =>
    simp only [State.step] at hstep
    split at hstep
    next _ loopId now row rest posting hloop =>
      obtain rfl := Option.some.inj hstep
      obtain ⟨hmem, hkey⟩ := Table.lookup_eq_some.mp hloop
      have hlookup := (hinv.held _ hmem row (by simp [Loop.held])).1
      have hcurrent : (if reloads then s.rows.lookup row.id else some row) = some row := by
        rw [hlookup]
        split <;> rfl
      refine h.withLoops fun l hl loaded hloaded => ?_
      obtain ⟨old, hold, -, ⟨hid, rfl⟩ | ⟨-, rfl⟩⟩ := of_mem_modify hl
      · obtain rfl := Table.eq_of_key hold hmem (hid.trans hkey.symm)
        rw [hcurrent] at hloaded
        exact ⟨_, hmem, (batch_sublist_unposted _).subset hloaded⟩
      · exact ⟨l, hold, hloaded⟩
    next => cases hstep
  | refuse loop why =>
    simp only [State.step] at hstep
    split at hstep
    next =>
      obtain rfl := Option.some.inj hstep
      exact h.write
    next => cases hstep
  | post loop =>
    simp only [State.step] at hstep
    split at hstep
    next _ loopId now cands batch loaded hloop =>
      obtain rfl := Option.some.inj hstep
      obtain ⟨hmem, hkey⟩ := Table.lookup_eq_some.mp hloop
      subst hkey
      have hposts : s.posts (.post loopId) = some loaded.id := by
        simp only [State.posts]
        rw [hloop]
      have hcount : Counted maxAttempts id (n + if loaded.id = id then 1 else 0) _ :=
        posted_counted hinv h hmem rfl rfl
      simpa [hposts] using hcount
    next => cases hstep
  | posted loop now =>
    simp only [State.step] at hstep
    split at hstep
    next =>
      obtain rfl := Option.some.inj hstep
      exact h.write
    next => cases hstep
  | postFailed loop now error delay =>
    simp only [State.step] at hstep
    split at hstep
    next =>
      obtain rfl := Option.some.inj hstep
      exact h.write
    next => cases hstep
  | lost loop =>
    obtain rfl := Option.some.inj hstep
    refine h.withLoops fun l hl loaded hloaded => ?_
    obtain ⟨old, hold, -, -, hsub⟩ := done_sublist hl
    exact ⟨old, hold, hsub.subset hloaded⟩
  | crash loop =>
    obtain rfl := Option.some.inj hstep
    exact h.withLoops fun l hl loaded hloaded => ⟨l, (Table.mem_erase.mp hl).1, hloaded⟩

end

/-- From an empty outbox, in every interleaving of drain loops and crashes in which the reclaim meets
abandoned rows with an attempt left only, a delivery that is over is left alone, and no delivery is
POSTed more often than the policy allows. -/
theorem outbox_safe (setting : Option ℤ) {events : List Event}
    (h : (outboxSystem (maxAttempts setting)).Along (ReclaimsAbandoned (maxAttempts setting)) .start
      events) :
    (outboxSystem (maxAttempts setting)).Along (LeavesTerminal (maxAttempts setting)) .start events ∧
      ∀ id after, (outboxSystem (maxAttempts setting)).exec .start events = some after →
        (outboxSystem (maxAttempts setting)).count (fun s event => s.posts event == some id) .start
          events ≤ maxAttempts setting := by
  have hmax := (maxAttempts_bounds setting).1
  constructor
  · refine (outboxSystem _).along_of_along (I := Inv (maxAttempts setting))
      (fun s event after hinv habandoned hstep => ⟨(step_inv hmax hinv habandoned hstep).1,
        posts_open hinv, fun after' hafter' => ?_⟩) (start_inv _) h
    exact (step_inv hmax hinv habandoned hafter').2
  · intro id after hafter
    have hrun := (outboxSystem (maxAttempts setting)).count_of_along
      (K := fun s event => s.posts event == some id)
      (I := fun n s => Inv (maxAttempts setting) s ∧ Counted (maxAttempts setting) id n s)
      (fun n s event after' hs habandoned hstep => ⟨(step_inv hmax hs.1 habandoned hstep).1,
        step_counted hs.1 hs.2 hstep⟩) ⟨start_inv _, start_counted _ id⟩ h hafter
    rw [Nat.zero_add] at hrun
    exact hrun.2.bound

/- Two deliveries in one batch; the second POST is refused once and answered on the retry. -/
def retriedRun : List Event :=
  [.emit "d1" 0 false false, .emit "d2" 1 false false,
   .list 1 (Python.seconds 5) 50, .claim 1 false, .claim 1 false,
   .take 1 true, .post 1, .posted 1 (Python.seconds 6),
   .take 1 true, .post 1, .postFailed 1 (Python.seconds 7) "HTTP 503" none, .crash 1,
   .reclaim (Python.seconds 640),
   .list 2 (Python.seconds 640) 50, .claim 2 false, .take 2 false, .post 2,
   .posted 2 (Python.seconds 641)]

theorem retriedRun_safe :
    (outboxSystem (maxAttempts none)).Along (LeavesTerminal (maxAttempts none)) .start retriedRun ∧
      ∀ id after, (outboxSystem (maxAttempts none)).exec .start retriedRun = some after →
        (outboxSystem (maxAttempts none)).count (fun s event => s.posts event == some id) .start
          retriedRun ≤ maxAttempts none :=
  outbox_safe none (by decide +kernel)

/- The first POST of the batch takes more than ten minutes. Another loop reclaims the second row,
sends it, and then the first loop comes to it. -/
def slowRun : List Event :=
  [.emit "d1" 0 false false, .emit "d2" 1 false false,
   .list 1 (Python.seconds 5) 50, .claim 1 false, .claim 1 false, .take 1 true, .post 1,
   .reclaim (Python.seconds 606), .list 2 (Python.seconds 606) 50, .claim 2 false, .claim 2 false,
   .take 2 true, .post 2, .posted 2 (Python.seconds 607),
   .take 2 true, .post 2, .posted 2 (Python.seconds 608),
   .posted 1 (Python.seconds 609), .take 1 true, .post 1, .posted 1 (Python.seconds 610)]

theorem sent_again :
    ¬((outboxSystem (maxAttempts none)).Along (LeavesTerminal (maxAttempts none)) .start slowRun ∧
      ∀ id after, (outboxSystem (maxAttempts none)).exec .start slowRun = some after →
        (outboxSystem (maxAttempts none)).count (fun s event => s.posts event == some id) .start
          slowRun ≤ maxAttempts none) := by
  have hagain : ¬(outboxSystem (maxAttempts none)).Along (LeavesTerminal (maxAttempts none)) .start
      slowRun := by decide +kernel
  exact fun h => hagain h.1

end Notify.Outbox
