import VmDashboard.Machine.System
import VmDashboard.Machine.Table
import VmDashboard.Python.Clock
import Mathlib.Data.List.Sort

/-!
# Desktop pools (`services/vdesktop_service.py`)

`create_pool`, `scale_pool` and `delete_pool` of a provisioning cloud with the jobs the API
queues for them, and `provision_seats` and `teardown_seats` cut at every cloud call and
commit. Several workers run jobs side by side, and one may die anywhere.
-/

namespace Desktops
open Machine (System Table)
open Python (Instant)

inductive SeatStatus
  | pending | running | failed | deprovisioning
  deriving DecidableEq

/-- A row of `virtual_desktops`. -/
structure Seat where
  id : String
  poolName : String
  status : SeatStatus
  vmResourceId : Option String
  /-- `pra_tunnel_state` is set. -/
  brokered : Bool
  createdAt : Instant
  deriving DecidableEq

inductive JobType
  | provision | teardown
  deriving DecidableEq

/-- An entry of a job's `errors`. -/
inductive JobError
  | deploy (seat : String)
  | terminate (vm : String)
  | pra (seat : String)
  deriving DecidableEq

/-- Where the worker of a job is. -/
inductive Work
  | queued
  /-- before the next seat of its loop -/
  | next (todo : List String)
  | deploying (seat : String) (todo : List String)
  | brokering (seat : String) (todo : List String)
  | terminating (seat vm : String) (brokered : Bool) (todo : List String)
  | dropping (seat : String) (brokered : Bool) (todo : List String)
  | ended
  deriving DecidableEq

structure Job where
  id : ℕ
  jobType : JobType
  seatIds : List String
  work : Work
  errors : List JobError
  /-- what its `error_message` lists, once the job has failed -/
  failure : Option (List JobError)
  deriving DecidableEq

structure State where
  seats : Table Seat.id
  jobs : Table Job.id
  /-- the VMs that exist in the cloud -/
  vms : List String

/-- Seats that jobs not yet ended still have to tear down. -/
def Work.left (seatIds : List String) : Work → List String
  | .queued => seatIds
  | .next todo => todo
  | .deploying seat todo | .brokering seat todo | .terminating seat _ _ todo
  | .dropping seat _ todo => seat :: todo
  | .ended => []

def Job.leaving (job : Job) : List String :=
  if job.jobType = .teardown then job.work.left job.seatIds else []

/-- The seat is due to be removed. -/
def State.Leaving (s : State) (id : String) : Prop := ∃ job ∈ s.jobs.rows, id ∈ job.leaving

instance (s : State) (id : String) : Decidable (s.Leaving id) :=
  inferInstanceAs (Decidable (∃ job ∈ s.jobs.rows, id ∈ job.leaving))

inductive Event
  | create (pool : String) (ids : List String) (now : Instant) (job : ℕ)
  | scale (pool : String) (count : ℕ) (ids : List String) (now : Instant) (job : ℕ)
  | delete (pool : String) (job : ℕ)
  | claim (job : ℕ)
  | load (job : ℕ)
  -- each with what the call does; `left` is a VM that is there although the call never returned
  | deployed (job : ℕ) (vm : String)
  | deployFails (job : ℕ) (left : Option String)
  | brokered (job : ℕ) (ok : Bool)
  | terminated (job : ℕ) (ok : Bool)
  | dropped (job : ℕ) (praOk : Bool)
  | finish (job : ℕ)
  | die (job : ℕ) (left : Option String) (again : Bool)

def State.pool (s : State) (name : String) : List Seat :=
  s.seats.rows.filter fun seat => seat.poolName = name

/-- `order_by(created_at)`. -/
def oldestFirst (seats : List Seat) : List Seat :=
  seats.insertionSort fun a b => a.createdAt ≤ b.createdAt

def newSeat (pool : String) (now : Instant) (id : String) : Seat :=
  ⟨id, pool, .pending, none, false, now⟩

/-- New rows, `none` when an id is taken. -/
def addSeats (seats : Table Seat.id) (pool : String) (now : Instant) :
    List String → Option (Table Seat.id)
  | [] => some seats
  | id :: ids => (seats.insert (newSeat pool now id)).bind fun seats => addSeats seats pool now ids

theorem addSeats_rows {seats seats' : Table Seat.id} {pool : String} {now : Instant}
    {ids : List String} (h : addSeats seats pool now ids = some seats') :
    seats'.rows = seats.rows ++ ids.map (newSeat pool now) := by
  induction ids generalizing seats with
  | nil =>
    obtain rfl := Option.some.inj h
    simp
  | cons id ids ih =>
    obtain ⟨next, hnext, hrest⟩ := Option.bind_eq_some_iff.mp h
    rw [ih hrest, (Table.insert_eq_some hnext).2, List.append_assoc]
    rfl

def newJob (id : ℕ) (jobType : JobType) (seatIds : List String) : Job :=
  ⟨id, jobType, seatIds, .queued, [], none⟩

def Seat.deprovisioning (seat : Seat) : Seat := { seat with status := .deprovisioning }

def mark (seats : Table Seat.id) : List String → Table Seat.id
  | [] => seats
  | id :: ids => mark (seats.modify id Seat.deprovisioning fun _ => rfl) ids

/-- The seats a shrink to `count` takes: the newest. -/
def removable (seats : List Seat) (count : ℕ) : List String :=
  ((oldestFirst seats).reverse.take (seats.length - count)).map Seat.id

/-- The new ids are of no row and of no job's. -/
def State.scale (s : State) (name : String) (count : ℕ) (ids : List String) (now : Instant)
    (job : ℕ) : Option State := do
  let seats := s.pool name
  if seats = [] then none
  else if seats.length < count then
    if ids.length = count - seats.length ∧ ∀ id ∈ ids, ¬s.Leaving id then
      let rows ← addSeats s.seats name now ids
      let jobs ← s.jobs.insert (newJob job .provision ids)
      some { s with seats := rows, jobs }
    else none
  else if count < seats.length then
    let gone := removable seats count
    let jobs ← s.jobs.insert (newJob job .teardown gone)
    some { s with seats := mark s.seats gone, jobs }
  else some s

/-- The VMs once `vm` is among them. -/
def withVm (vms : List String) (vm : String) : List String := if vm ∈ vms then vms else vm :: vms

def Job.at (job : Job) (work : Work) : Job := { job with work }

/-- `set_failed` by the job, with the first three errors in its message. -/
def Job.failed (job : Job) : Job := { job with work := .ended, failure := some (job.errors.take 3) }

/-- An exception that no handler of the job expects. -/
def Job.raised (job : Job) : Job := { job with work := .ended, failure := some [] }

/-- Its worker is gone: it is run again, or failed by reconciliation. -/
def Job.died (again : Bool) (job : Job) : Job :=
  if again ∧ job.jobType = .provision then { job with work := .queued, errors := [] }
  else job.raised

def Job.finished (job : Job) : Job :=
  if job.errors = [] then { job with work := .ended } else job.failed

def State.put (s : State) (job : Job) : State := { s with jobs := s.jobs.put job }

def Seat.ran (vm : String) (seat : Seat) : Seat :=
  { seat with vmResourceId := some vm, status := .running }

def Seat.failed (seat : Seat) : Seat := { seat with status := .failed }

def Seat.registered (ok : Bool) (seat : Seat) : Seat :=
  { seat with brokered := seat.brokered || ok }

/-- One turn of a job's loop reads the seat. -/
def State.load (s : State) (job : Job) (id : String) (todo : List String) : State :=
  match s.seats.lookup id, job.jobType with
  | none, _ => s.put (job.at (.next todo))
  | some _, .provision => s.put (job.at (.deploying id todo))
  | some seat, .teardown =>
    match seat.vmResourceId with
    | some vm => s.put (job.at (.terminating id vm seat.brokered todo))
    | none => s.put (job.at (.dropping id seat.brokered todo))

def State.deployed (s : State) (job : Job) (id vm : String) (todo : List String) : State :=
  let s := { s with vms := withVm s.vms vm }
  if (s.seats.lookup id).isSome then
    { s.put (job.at (.brokering id todo)) with seats := s.seats.modify id (.ran vm) fun _ => rfl }
  -- the row is gone: its update raises, and so does the handler's
  else s.put job.raised

def State.deployFails (s : State) (job : Job) (id : String) (left : Option String)
    (todo : List String) : State :=
  let s := { s with vms := left.elim s.vms (withVm s.vms) }
  if (s.seats.lookup id).isSome then
    { s.put { job with work := .next todo, errors := job.errors ++ [.deploy id] } with
      seats := s.seats.modify id .failed fun _ => rfl }
  else s.put job.raised

def State.step (s : State) : Event → Option State
  | .create pool ids now job => do
    if s.pool pool = [] ∧ ids ≠ [] ∧ ∀ id ∈ ids, ¬s.Leaving id then
      let rows ← addSeats s.seats pool now ids
      let jobs ← s.jobs.insert (newJob job .provision ids)
      some { s with seats := rows, jobs }
    else none
  | .scale pool count ids now job => s.scale pool count ids now job
  | .delete pool job => do
    if s.pool pool = [] then none
    else
      let gone := (s.pool pool).map Seat.id
      let jobs ← s.jobs.insert (newJob job .teardown gone)
      some { s with seats := mark s.seats gone, jobs }
  | .claim id => do
    let job ← s.jobs.lookup id
    if job.work = .queued then some (s.put (job.at (.next job.seatIds))) else none
  | .load id => do
    let job ← s.jobs.lookup id
    match job.work with
    | .next (seat :: todo) => some (s.load job seat todo)
    | _ => none
  | .deployed id vm => do
    let job ← s.jobs.lookup id
    match job.jobType, job.work with
    | .provision, .deploying seat todo => some (s.deployed job seat vm todo)
    | _, _ => none
  | .deployFails id left => do
    let job ← s.jobs.lookup id
    match job.jobType, job.work with
    | .provision, .deploying seat todo => some (s.deployFails job seat left todo)
    | _, _ => none
  | .brokered id ok => do
    let job ← s.jobs.lookup id
    match job.jobType, job.work with
    | .provision, .brokering seat todo =>
      -- a row that is gone is one more failed registration
      some { s.put (job.at (.next todo)) with
        seats := s.seats.modify seat (.registered ok) fun _ => rfl }
    | _, _ => none
  | .terminated id ok => do
    let job ← s.jobs.lookup id
    match job.jobType, job.work with
    | .teardown, .terminating seat vm brokered todo =>
      if ok then
        some { s.put (job.at (.dropping seat brokered todo)) with
          vms := s.vms.filter fun vm' => vm' ≠ vm }
      else
        some (s.put { job with
          work := .dropping seat brokered todo, errors := job.errors ++ [.terminate vm] })
    | _, _ => none
  | .dropped id praOk => do
    let job ← s.jobs.lookup id
    match job.jobType, job.work with
    | .teardown, .dropping seat brokered todo =>
      let errors := if brokered && !praOk then job.errors ++ [.pra seat] else job.errors
      some { s.put { job with work := .next todo, errors } with seats := s.seats.erase seat }
    | _, _ => none
  | .finish id => do
    let job ← s.jobs.lookup id
    if job.work = .next [] then some (s.put job.finished) else none
  | .die id left again => do
    let job ← s.jobs.lookup id
    match job.work with
    | .queued | .ended => none
    | .deploying _ _ => some { s.put (Job.died again job) with vms := left.elim s.vms (withVm s.vms) }
    | _ => some (s.put (Job.died again job))

def pools : System State Event := ⟨State.step⟩

/-- Nothing is there yet. -/
def State.Fresh (s : State) : Prop := s.vms = [] ∧ s.jobs.rows = []

def noSeats : State := ⟨.empty, .empty, []⟩

/-! ### What should hold -/

def Recorded (s : State) (vm : String) : Prop := ∃ seat ∈ s.seats.rows, seat.vmResourceId = some vm

/-- The error of a failed teardown names the VM. -/
def Named (s : State) (vm : String) : Prop :=
  ∃ job ∈ s.jobs.rows, job.jobType = .teardown ∧ ∃ errors ∈ job.failure, .terminate vm ∈ errors

def NoLeak (s : State) : Prop := ∀ vm ∈ s.vms, Recorded s vm ∨ Named s vm

/-- A teardown that has failed to terminate a VM and dropped its seat has ended. -/
def Told (s : State) : Prop :=
  ∀ job ∈ s.jobs.rows, job.jobType = .teardown → job.work ≠ .ended →
    ∀ vm, .terminate vm ∈ job.errors → Recorded s vm

instance (s : State) (vm : String) : Decidable (Recorded s vm) :=
  inferInstanceAs (Decidable (∃ seat ∈ s.seats.rows, seat.vmResourceId = some vm))

instance (s : State) (vm : String) : Decidable (Named s vm) :=
  inferInstanceAs (Decidable (∃ job ∈ s.jobs.rows, job.jobType = .teardown ∧
    ∃ errors ∈ job.failure, JobError.terminate vm ∈ errors))

instance : DecidablePred NoLeak := fun s =>
  inferInstanceAs (Decidable (∀ vm ∈ s.vms, Recorded s vm ∨ Named s vm))

end Desktops
