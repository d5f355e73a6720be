import VmDashboard.Machine.Columns
import VmDashboard.Machine.System
import VmDashboard.Machine.Table
import VmDashboard.Python.Calendar
import VmDashboard.Python.Clock

/-!
# The cost cache (`services/cost_cache.py`)

The last good figure of a cloud and a view, and the calls that decide whether a cloud may be
queried. A call claims the row of its view, queries the cloud with no transaction open and records
the answer. The lease and the cooldown are on the row of the view, the pacing on every row of the
cloud.
-/

namespace Costs
open Machine (Table)
open Machine.Store (column)
open Python (Instant later younger)

inductive Cloud where
  | aws | azure | gcp | oci
  deriving DecidableEq

inductive View where
  | summary | breakdown
  deriving DecidableEq

def payloadVersion : ℕ := 1

def throttleBaseSeconds : ℤ := 900

def failBaseSeconds : ℤ := 120

def cooldownMaxSeconds : ℤ := 3600

/-- The settings that a claim reads, in seconds. -/
structure Tunables where
  ttl : ℤ := 21600
  minRefreshInterval : ℤ := 300
  lease : ℤ := 120
  queryGap : ℤ := 2

/-- `_period`. -/
def period (now : Instant) : String :=
  let (year, month, _) := Python.ymd (now / Python.dayLength)
  String.ofList (Python.padded 4 year ++ '-' :: Python.padded 2 month)

/-! ### The row -/

structure CloudCostCache where
  payload : Option String
  payloadVersion : ℕ
  period : Option String
  fetchedAt : Option Instant
  stale : Bool
  lastError : Option String
  lastAttemptAt : Option Instant
  consecutiveFailures : ℕ
  cooldownUntil : Option Instant
  leaseUntil : Option Instant
  leaseOwner : Option String
  nextQueryAllowedAt : Option Instant
  deriving DecidableEq

/-- A row as it is added, with the version the caller gives. -/
def CloudCostCache.new (version : ℕ) : CloudCostCache :=
  ⟨none, version, none, none, false, none, none, 0, none, none, none, none⟩

/-- What the query of a cloud answers: the entry as JSON, or why there is none. -/
inductive Entry where
  | ok (json : String)
  | unavailable (detail : String) (throttled : Bool) (retryAfter : Option ℤ)
  deriving DecidableEq

/-- `_has_good`. -/
def hasGood (snap : Option CloudCostCache) (now : Instant) : Bool :=
  snap.any fun row => row.payload.any (· ≠ "") && row.period = some (period now) &&
    row.payloadVersion = payloadVersion

/-- `_is_fresh`. -/
def isFresh (row : CloudCostCache) (now : Instant) (ttl : ℤ) : Bool :=
  hasGood (some row) now && !row.stale && row.fetchedAt.any (younger now · ttl)

def cooldownSeconds (throttled : Bool) (retryAfter : Option ℤ) (failures : ℕ) : ℤ :=
  if throttled then min (max (retryAfter.getD 0) throttleBaseSeconds) cooldownMaxSeconds
  else min (failBaseSeconds * 2 ^ min (failures - 1) 6) cooldownMaxSeconds

/-- Why a claim of the row is refused. -/
def CloudCostCache.blocked (row : CloudCostCache) (cfg : Tunables) (now : Instant)
    (refresh : Bool) : Option String :=
  if row.cooldownUntil.any (now < ·) then some "cooldown"
  else if row.leaseUntil.any (now < ·) then some "in-flight"
  else if row.nextQueryAllowedAt.any (now < ·) then some "paced"
  else if refresh && row.fetchedAt.any (younger now · cfg.minRefreshInterval) then
    some "refreshed-recently"
  else if !refresh && isFresh row now cfg.ttl then some "fresh"
  else none

def CloudCostCache.leased (row : CloudCostCache) (owner : String) (limit : Instant) :
    CloudCostCache :=
  { row with leaseUntil := some limit, leaseOwner := some owner }

def CloudCostCache.paced (row : CloudCostCache) (moment : Instant) : CloudCostCache :=
  { row with nextQueryAllowedAt := some moment }

/-- The row after the answer `entry` of a query. -/
def CloudCostCache.finish (row : CloudCostCache) (entry : Entry) (now : Instant) :
    CloudCostCache :=
  let row := { row with leaseUntil := none, leaseOwner := none, lastAttemptAt := some now }
  match entry with
  | .ok json =>
    { row with
      payload := some json
      payloadVersion := Costs.payloadVersion
      period := some (Costs.period now)
      fetchedAt := some now
      stale := false
      lastError := none
      consecutiveFailures := 0
      cooldownUntil := none }
  | .unavailable detail throttled retryAfter =>
    let failures := row.consecutiveFailures + 1
    { row with
      consecutiveFailures := failures
      lastError := some (String.ofList (detail.toList.take 2000))
      cooldownUntil := some (later now (cooldownSeconds throttled retryAfter failures)) }

def CloudCostCache.cleared (row : CloudCostCache) : CloudCostCache :=
  { row with
    cooldownUntil := none
    consecutiveFailures := 0
    leaseUntil := none
    nextQueryAllowedAt := none }

def CloudCostCache.marked (row : CloudCostCache) : CloudCostCache := { row with stale := true }

/-! ### The table -/

/-- The primary key. -/
abbrev Key := Cloud × View

abbrev Store := Machine.Store Key CloudCostCache

/-- The row that a claim finds once `_ensure_rows` has added the missing ones. -/
abbrev ensured (store : Store) (key : Key) : CloudCostCache := store.rowOr key (.new payloadVersion)

def ensureRows (store : Store) (cloud : Cloud) : Store :=
  store.ensure (·.1 = cloud) fun _ => .new payloadVersion

/-- The bulk update that paces the whole cloud. -/
def paceCloud (store : Store) (cloud : Cloud) (moment : Instant) : Store :=
  store.mapRows fun key row => if key.1 = cloud then row.paced moment else row

/-- What a `_claim` is called with; `lock` is whether it gets the lock of the cloud. -/
structure Ask where
  cloud : Cloud
  view : View
  owner : String
  now : Instant
  refresh : Bool
  lock : Bool
  cfg : Tunables

abbrev Ask.key (ask : Ask) : Key := (ask.cloud, ask.view)

/-- The reason that `_claim` gives for a refusal. -/
def refusal (store : Store) (ask : Ask) : Option String :=
  if !ask.lock then some "contended"
  else (ensured store ask.key).blocked ask.cfg ask.now ask.refresh

/-- What `_claim` leaves in the table. -/
def claim (store : Store) (ask : Ask) : Store :=
  if !ask.lock then store
  else
    match (ensured store ask.key).blocked ask.cfg ask.now ask.refresh with
    | some _ => ensureRows store ask.cloud
    | none =>
      paceCloud
        ((ensureRows store ask.cloud).put ask.key
          ((ensured store ask.key).leased ask.owner (later ask.now ask.cfg.lease)))
        ask.cloud (later ask.now ask.cfg.queryGap)

/-- `_finish`. -/
def finish (store : Store) (key : Key) (entry : Entry) (now : Instant) : Store :=
  store.put key ((store.rowOr key (.new 0)).finish entry now)

def clearCooldowns (store : Store) : Store := store.mapRows fun _ => .cleared

def markStale (store : Store) : Store := store.mapRows fun _ => .marked

section Columns
variable {α : Type} {f : CloudCostCache → Option α}

theorem column_paceCloud (h : ∀ row moment, f (row.paced moment) = f row) (store : Store)
    (cloud : Cloud) (moment : Instant) (key : Key) :
    column f (paceCloud store cloud moment) key = column f store key := by
  refine store.column_mapRows _ (fun key row => ?_) key
  split
  · exact h row moment
  · rfl

theorem column_clearCooldowns (h : ∀ row, f (CloudCostCache.cleared row) = f row) (store : Store)
    (key : Key) : column f (clearCooldowns store) key = column f store key :=
  store.column_mapRows _ (fun _ => h) key

theorem column_markStale (h : ∀ row, f (CloudCostCache.marked row) = f row) (store : Store)
    (key : Key) : column f (markStale store) key = column f store key :=
  store.column_mapRows _ (fun _ => h) key

/-- A claim leaves a column that is neither the lease nor the pacing. -/
theorem column_claim (hnew : f (.new payloadVersion) = none)
    (hpaced : ∀ row moment, f (row.paced moment) = f row)
    (hleased : ∀ row owner limit, f (row.leased owner limit) = f row) (store : Store) (ask : Ask)
    (key : Key) : column f (claim store ask) key = column f store key := by
  have hensure := store.column_ensure (p := (·.1 = ask.cloud)) fun _ => hnew
  unfold claim
  split
  · rfl
  split
  · exact hensure key
  · rw [column_paceCloud hpaced, Machine.Store.column_put_of_eq]
    · exact hensure key
    · rw [hleased]
      exact (store.column_rowOr ask.key hnew).trans (hensure ask.key).symm

end Columns

/-! ### The calls of all processes -/

/-- A query, from the claim of its call to the recording of its answer. `cleared` is whether
`clear_cooldowns` has run since. -/
structure Query where
  call : ℕ
  key : Key
  claimedAt : Instant
  leaseUntil : Instant
  cleared : Bool
  deriving DecidableEq

def Query.clear (query : Query) : Query := { query with cleared := true }

/-- A throttled answer. -/
structure Throttle where
  key : Key
  answeredAt : Instant
  retryAfter : Option ℤ
  deriving DecidableEq

/-- The end of the time that a throttled answer asks for, and of 900 seconds at least. -/
def Throttle.quietUntil (throttle : Throttle) : Instant :=
  later throttle.answeredAt (max (throttle.retryAfter.getD 0) 900)

def Entry.throttles (entry : Entry) (query : Query) (now : Instant) : List Throttle :=
  match entry with
  | .unavailable _ true retryAfter => [⟨query.key, now, retryAfter⟩]
  | _ => []

/-- `issuedAt` in `finish` is when the query fixed the range it asks for. -/
inductive Event where
  | tick (time : Instant)
  | claim (call : ℕ) (ask : Ask)
  | finish (call : ℕ) (issuedAt : Instant) (entry : Entry)
  | read (key : Key) (now : Instant)
  | die (call : ℕ)
  | clearCooldowns
  | markStale

/-- `throttles` are the throttled answers since the last `clear_cooldowns`, and `issued` is when the
query of the figure of a row was issued. -/
structure State where
  store : Store
  clock : Instant
  queries : Table Query.call
  throttles : List Throttle
  issued : Key → Option Instant

def State.start (clock : Instant) : State := ⟨fun _ => none, clock, .empty, [], fun _ => none⟩

/-- The query that an ask for a claim starts. -/
def Ask.query (ask : Ask) (call : ℕ) (clock : Instant) : Query :=
  ⟨call, ask.key, clock, later ask.now ask.cfg.lease, false⟩

def Entry.issues (entry : Entry) (issuedAt : Instant) (before : Option Instant) : Option Instant :=
  match entry with
  | .ok _ => some issuedAt
  | .unavailable .. => before

/-- A call reads its clock before the claim or the read it is for. -/
def State.step (s : State) : Event → Option State
  | .tick time => if s.clock ≤ time then some { s with clock := time } else none
  | .claim call ask =>
    if s.clock < ask.now then none
    else if (refusal s.store ask).isSome then some { s with store := claim s.store ask }
    else
      (s.queries.insert (ask.query call s.clock)).map fun queries =>
        { s with store := claim s.store ask, queries }
  | .finish call issuedAt entry =>
    match s.queries.lookup call with
    | none => none
    | some query =>
      if issuedAt < query.claimedAt ∨ s.clock < issuedAt then none
      else
        some { s with
          store := finish s.store query.key entry s.clock
          queries := s.queries.erase call
          throttles := entry.throttles query s.clock ++ s.throttles
          issued := Function.update s.issued query.key
            (entry.issues issuedAt (s.issued query.key)) }
  | .read _ now => if s.clock < now then none else some s
  | .die call => some { s with queries := s.queries.erase call }
  | .clearCooldowns =>
    some { s with
      store := clearCooldowns s.store
      queries := s.queries.map Query.clear fun _ => rfl
      throttles := [] }
  | .markStale => some { s with store := markStale s.store }

def costSystem : Machine.System State Event where
  step := State.step

end Costs
