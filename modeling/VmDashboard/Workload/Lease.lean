import Mathlib.Algebra.Group.Nat.Defs
import VmDashboard.Machine.System
import VmDashboard.Machine.Table
import VmDashboard.Python.Clock

/-!
# The lease of one purpose (`services/workload_credential_lease.py`)

The row of a cloud and a purpose, and the calls that claim it, mint a credential outside any
transaction and record the outcome. A claim names its owner, and the recording does not ask whose
claim is on the row.
-/

namespace Workload
open Machine (Table)
open Python (Instant)

/-! ### The row -/

def claimSeconds : ℕ := 60

def expirySafetySeconds : ℕ := 60

def failBaseSeconds : ℕ := 60

def cooldownMaxSeconds : ℕ := 900

structure Lease where
  payload : Option String
  leaseId : Option String
  issuedAt : Option Instant
  expiresAt : Option Instant
  lastError : Option String
  lastAttemptAt : Option Instant
  consecutiveFailures : ℕ
  cooldownUntil : Option Instant
  claimUntil : Option Instant
  claimOwner : Option String
deriving DecidableEq

/-- The row that `_ensure_row` adds. -/
def Lease.fresh : Lease := ⟨none, none, none, none, none, none, 0, none, none, none⟩

/-- What a generate answers. -/
structure Issued where
  values : String
  leaseId : String
  expiresAt : Option Instant

def Lease.usable (row : Lease) (now : Instant) : Bool :=
  row.payload.any (· ≠ "") &&
    row.expiresAt.any fun expires => now + Python.seconds expirySafetySeconds < expires

def cooldownSeconds (failures : ℕ) : ℕ :=
  min cooldownMaxSeconds (failBaseSeconds * max 1 (2 ^ (failures - 1)))

def Lease.inBackoff (row : Lease) (now : Instant) : Bool := row.cooldownUntil.any (now < ·)

/-- The claim of another call that has not run out. -/
def Lease.claimed (row : Lease) (now : Instant) : Bool := row.claimUntil.any (now < ·)

/-- The checks of `_claim` before it comes to the claim of another call. -/
def Lease.wanted (row : Lease) (now : Instant) (force : Bool) : Bool :=
  !(row.usable now && !force) && !row.inBackoff now

/-- `_claim` under the lock of the cloud. -/
def Lease.claim (row : Lease) (owner : String) (now : Instant) (force : Bool) : Option Lease :=
  if row.wanted now force && !row.claimed now then
    some { row with
      claimUntil := some (now + Python.seconds claimSeconds)
      claimOwner := some owner }
  else none

/-- `_record_success`: the row, and the id of the lease it replaces. -/
def Lease.recordSuccess (row : Lease) (now : Instant) (result : Issued) : Lease × Option String :=
  ({ row with
    payload := some result.values
    leaseId := if result.leaseId = "" then none else some result.leaseId
    issuedAt := some now
    expiresAt := result.expiresAt
    lastError := none
    consecutiveFailures := 0
    cooldownUntil := none
    claimUntil := none
    claimOwner := none }, row.leaseId)

/-- `_record_failure`. -/
def Lease.recordFailure (row : Lease) (now : Instant) (error : String) : Lease :=
  { row with
    consecutiveFailures := row.consecutiveFailures + 1
    lastError := some (String.ofList (error.toList.take 2000))
    lastAttemptAt := some now
    cooldownUntil := some (now + Python.seconds (cooldownSeconds (row.consecutiveFailures + 1)))
    claimUntil := none
    claimOwner := none }

/-- `clear_backoff` on one row. -/
def Lease.clearBackoff (row : Lease) : Lease :=
  if row.cooldownUntil.isSome then { row with cooldownUntil := none, consecutiveFailures := 0 } else row

@[simp] theorem Lease.recordSuccess_claimUntil (row : Lease) (now : Instant) (result : Issued) :
    (row.recordSuccess now result).1.claimUntil = none := rfl

@[simp] theorem Lease.recordFailure_claimUntil (row : Lease) (now : Instant) (error : String) :
    (row.recordFailure now error).claimUntil = none := rfl

@[simp] theorem Lease.clearBackoff_claimUntil (row : Lease) :
    row.clearBackoff.claimUntil = row.claimUntil := by
  unfold Lease.clearBackoff
  split <;> rfl

theorem Lease.claim_eq_some {row after : Lease} {owner : String} {now : Instant} {force : Bool}
    (h : row.claim owner now force = some after) :
    row.wanted now force = true ∧ row.claimed now = false ∧
      after.claimUntil = some (now + Python.seconds claimSeconds) := by
  unfold Lease.claim at h
  split at h
  next hfree =>
    obtain rfl := Option.some.inj h
    simp only [Bool.and_eq_true, Bool.not_eq_true'] at hfree
    exact ⟨hfree.1, hfree.2, rfl⟩
  next => cases h

/-! ### The calls -/

inductive Outcome where
  | issued (result : Issued)
  | failed (error : String)

/-- A call that has claimed the row. `outcome` is none while its generate is in flight, and `serial`
numbers the claims. -/
structure Mint where
  id : ℕ
  serial : ℕ
  claimUntil : Instant
  outcome : Option Outcome

def Mint.setOutcome (outcome : Outcome) (mint : Mint) : Mint := { mint with outcome := some outcome }

inductive Event where
  | claim (call : ℕ) (owner : String) (now : Instant) (force lock : Bool)
  | generated (call : ℕ) (outcome : Outcome)
  | record (call : ℕ) (now : Instant)
  | die (call : ℕ)
  | clearBackoff

/-- `latest` is the number of the last claim. -/
structure State where
  row : Lease
  latest : ℕ
  mints : Table Mint.id

def State.start (row : Lease) : State := ⟨row, 0, .empty⟩

def Outcome.record (outcome : Outcome) (now : Instant) (row : Lease) : Lease :=
  match outcome with
  | .issued result => (row.recordSuccess now result).1
  | .failed error => row.recordFailure now error

def State.step (s : State) : Event → Option State
  | .claim call owner now force lock =>
    if !lock then some s
    else match s.row.claim owner now force with
      | none => some s
      | some row =>
        (s.mints.insert ⟨call, s.latest + 1, now + Python.seconds claimSeconds, none⟩).map
          fun mints => { row, latest := s.latest + 1, mints }
  | .generated call outcome =>
    some { s with mints := s.mints.modify call (Mint.setOutcome outcome) fun _ => rfl }
  | .record call now =>
    match s.mints.lookup call with
    | some ⟨_, _, _, some outcome⟩ =>
      some { s with row := outcome.record now s.row, mints := s.mints.erase call }
    | _ => none
  | .die call => some { s with mints := s.mints.erase call }
  | .clearBackoff => some { s with row := s.row.clearBackoff }

def leaseSystem : Machine.System State Event where
  step := State.step

/-- At most one generate is in flight. -/
def OneInFlight (s : State) : Prop :=
  ∀ mint ∈ s.mints.rows, ∀ other ∈ s.mints.rows, mint.outcome.isNone = true →
    other.outcome.isNone = true → mint.id = other.id

/-- A call whose claim has been taken over neither stores a credential nor clears one. -/
def StoresNewest (s : State) : Event → Prop
  | .record call now => ∀ mint ∈ s.mints.lookup call, mint.serial ≠ s.latest →
      ∀ after ∈ s.step (.record call now),
        after.row.payload = s.row.payload ∧ after.row.expiresAt = s.row.expiresAt
  | _ => True

/-- Whenever a call comes to the claim of another, no call is at work past its own. -/
def WithinClaim (s : State) : Event → Prop
  | .claim _ _ now force lock => lock = true → s.row.wanted now force = true →
      ∀ mint ∈ s.mints.rows, now < mint.claimUntil
  | _ => True

instance (s : State) : Decidable (OneInFlight s) := by
  unfold OneInFlight
  infer_instance

instance (s : State) : (event : Event) → Decidable (StoresNewest s event)
  | .record .. => by unfold StoresNewest; infer_instance
  | .claim .. | .generated .. | .die _ | .clearBackoff => isTrue trivial

instance (s : State) : (event : Event) → Decidable (WithinClaim s event)
  | .claim .. => by unfold WithinClaim; infer_instance
  | .record .. | .generated .. | .die _ | .clearBackoff => isTrue trivial

/-! ### The invariant -/

structure Inv (s : State) : Prop where
  alone : ∀ mint ∈ s.mints.rows, ∀ other ∈ s.mints.rows, mint.id = other.id
  newest : ∀ mint ∈ s.mints.rows, mint.serial = s.latest ∧ s.row.claimUntil = some mint.claimUntil

theorem start_inv (row : Lease) : Inv (.start row) := by
  constructor <;> simp [State.start, Table.empty]

theorem Inv.inFlight {s : State} (h : Inv s) : OneInFlight s :=
  fun mint hmint other hother _ _ => h.alone mint hmint other hother

/-- The one call at work is done. -/
theorem Inv.erase {s : State} (h : Inv s) {row : Lease} {mint : Mint} (hmint : mint ∈ s.mints.rows) :
    Inv { s with row, mints := s.mints.erase mint.id } := by
  have hnone : ∀ other, other ∉ (s.mints.erase mint.id).rows := by
    intro other hother
    obtain ⟨hmem, hne⟩ := Table.mem_erase.mp hother
    exact hne (h.alone other hmem mint hmint)
  exact ⟨fun other hother => absurd hother (hnone other), fun other hother => absurd hother (hnone other)⟩

/-- A call that gets the claim finds no other at work: one whose claim has run out would be past it. -/
theorem claimed_inv {s : State} {call : ℕ} {owner : String} {now : Instant} {force : Bool}
    {row : Lease} {mints : Table Mint.id} (h : Inv s)
    (hwithin : WithinClaim s (.claim call owner now force true))
    (hclaim : s.row.claim owner now force = some row)
    (hins : s.mints.insert ⟨call, s.latest + 1, now + Python.seconds claimSeconds, none⟩ = some mints) :
    Inv { row, latest := s.latest + 1, mints } := by
  obtain ⟨hwanted, hfree, huntil⟩ := Lease.claim_eq_some hclaim
  have hnone : ∀ mint, mint ∉ s.mints.rows := by
    intro mint hmint
    have hopen := hwithin rfl hwanted mint hmint
    simp [Lease.claimed, (h.newest mint hmint).2, hopen] at hfree
  have hmints : ∀ mint ∈ mints.rows,
      mint = ⟨call, s.latest + 1, now + Python.seconds claimSeconds, none⟩ := by
    intro mint hmint
    exact ((Table.mem_insert hins).mp hmint).resolve_left (hnone mint)
  constructor
  · intro mint hmint other hother
    rw [hmints mint hmint, hmints other hother]
  · intro mint hmint
    rw [hmints mint hmint]
    exact ⟨rfl, huntil⟩

theorem step_inv {s after : State} {event : Event} (h : Inv s) (hwithin : WithinClaim s event)
    (hstep : s.step event = some after) : Inv after := by
  cases event with
  | claim call owner now force lock =>
    simp only [State.step] at hstep
    split at hstep
    · obtain rfl := Option.some.inj hstep
      exact h
    next hlock =>
      have hlock : lock = true := by simpa using hlock
      subst hlock
      split at hstep
      next =>
        obtain rfl := Option.some.inj hstep
        exact h
      next row hclaim =>
        obtain ⟨mints, hins, rfl⟩ := Option.map_eq_some_iff.mp hstep
        exact claimed_inv h hwithin hclaim hins
  | generated call outcome =>
    obtain rfl := Option.some.inj hstep
    have hwas : ∀ mint ∈ (s.mints.modify call (Mint.setOutcome outcome) fun _ => rfl).rows,
        ∃ old ∈ s.mints.rows, old.id = mint.id ∧ old.serial = mint.serial ∧
          old.claimUntil = mint.claimUntil := by
      intro mint hmint
      rcases Table.mem_modify.mp hmint with ⟨old, hold, -, rfl⟩ | ⟨hold, -⟩
      · exact ⟨old, hold, rfl, rfl, rfl⟩
      · exact ⟨mint, hold, rfl, rfl, rfl⟩
    constructor
    · intro mint hmint other hother
      obtain ⟨old, hold, hid, -⟩ := hwas mint hmint
      obtain ⟨old', hold', hid', -⟩ := hwas other hother
      rw [← hid, ← hid']
      exact h.alone old hold old' hold'
    · intro mint hmint
      obtain ⟨old, hold, -, hserial, huntil⟩ := hwas mint hmint
      rw [← hserial, ← huntil]
      exact h.newest old hold
  | record call now =>
    simp only [State.step] at hstep
    split at hstep
    next hmint =>
      obtain rfl := Option.some.inj hstep
      obtain ⟨hmem, rfl⟩ := Table.lookup_eq_some.mp hmint
      exact h.erase hmem
    next => cases hstep
  | die call =>
    obtain rfl := Option.some.inj hstep
    constructor
    · intro mint hmint other hother
      exact h.alone mint (Table.mem_erase.mp hmint).1 other (Table.mem_erase.mp hother).1
    · intro mint hmint
      exact h.newest mint (Table.mem_erase.mp hmint).1
  | clearBackoff =>
    obtain rfl := Option.some.inj hstep
    refine ⟨h.alone, fun mint hmint => ?_⟩
    rw [Lease.clearBackoff_claimUntil]
    exact h.newest mint hmint

theorem storesNewest_of_inv {s : State} {event : Event} (h : Inv s) : StoresNewest s event := by
  cases event with
  | record call now =>
    intro mint hmint hstale
    exact absurd (h.newest mint (Table.lookup_eq_some.mp hmint).1).1 hstale
  | _ => trivial

/-- From any row that no call is at work on, in every interleaving in which each call is done before
another comes to its claim past the minute, at most one generate is in flight and no credential
comes from a claim that was taken over. -/
theorem minted_once (row : Lease) {events : List Event}
    (h : leaseSystem.Along WithinClaim (.start row) events) :
    leaseSystem.Always OneInFlight (.start row) events ∧
      leaseSystem.Along StoresNewest (.start row) events := by
  constructor
  · exact leaseSystem.always_mono (fun _ hinv => hinv.inFlight)
      (leaseSystem.always_of_along (fun _ _ _ => step_inv) (start_inv row) h)
  · exact leaseSystem.along_of_along
      (fun _ _ _ hinv hwithin hstep => ⟨step_inv hinv hwithin hstep, storesNewest_of_inv hinv⟩)
      (start_inv row) h

def sampleIssued (values : String) (minutes : ℕ) : Outcome :=
  .issued ⟨values, values ++ "-lease", some (Python.minutes minutes)⟩

/- One call mints while two others ask, a second one dies, and a third takes its claim over. -/
def promptRun : List Event :=
  [.claim 1 "app:7" (Python.seconds 0) false true, .claim 2 "app:8" (Python.seconds 3) false true,
   .generated 1 (sampleIssued "a" 60), .record 1 (Python.seconds 4),
   .claim 3 "worker:9" (Python.seconds 1800) true true, .die 3,
   .claim 4 "app:7" (Python.seconds 1830) true true,
   .claim 5 "app:8" (Python.seconds 1861) true true, .generated 5 (.failed "HTTP 503"),
   .record 5 (Python.seconds 1862)]

theorem promptRun_once : leaseSystem.Always OneInFlight (.start .fresh) promptRun ∧
    leaseSystem.Along StoresNewest (.start .fresh) promptRun :=
  minted_once .fresh (by decide +kernel)

/- The generate of the first call takes seventy seconds. A second call takes the claim over after
sixty, and what it has stored is replaced by the first. -/
def slowRun : List Event :=
  [.claim 1 "app:7" (Python.seconds 0) false true, .claim 2 "app:8" (Python.seconds 61) false true,
   .generated 2 (sampleIssued "b" 61), .record 2 (Python.seconds 62),
   .generated 1 (sampleIssued "a" 60), .record 1 (Python.seconds 70)]

theorem minted_twice : ¬(leaseSystem.Always OneInFlight (.start .fresh) slowRun ∧
    leaseSystem.Along StoresNewest (.start .fresh) slowRun) := by
  decide +kernel

end Workload
