import Mathlib.Algebra.Group.Int.Defs
import Mathlib.Algebra.Group.Nat.Defs
import VmDashboard.Machine.Columns
import VmDashboard.Machine.System
import VmDashboard.Machine.Table
import VmDashboard.Python.Clock

/-!
# The tile cache of the dashboard (`services/dashboard_stat_cache.py`)

The last good counts of a tile, and the calls that claim the tile, collect the counts with no
transaction open and record the outcome. A claim is a lease that another call may take over once it
has run out, and the recording does not ask whose lease is on the row.
-/

namespace Tiles
open Machine (Table)
open Machine.Store (column)
open Python (Instant later younger)

def payloadVersion : ℕ := 1

def busyCooldownSeconds : ℤ := 30

def failBaseSeconds : ℤ := 120

def cooldownMaxSeconds : ℤ := 1800

/-- The settings that a claim reads, in seconds. -/
structure Tunables where
  ttl : ℤ := 120
  lease : ℤ := 120
  queryGap : ℤ := 2
  minRefreshInterval : ℤ := 30

/-! ### The row -/

structure DashboardStatCache where
  provider : String
  payload : Option String
  payloadVersion : ℕ
  fetchedAt : Option Instant
  stale : Bool
  lastError : Option String
  lastAttemptAt : Option Instant
  consecutiveFailures : ℕ
  cooldownUntil : Option Instant
  leaseUntil : Option Instant
  leaseOwner : Option String
  nextQueryAllowedAt : Option Instant
  deriving DecidableEq

/-- The row that `_ensure_row` adds. -/
def DashboardStatCache.new (provider : String) : DashboardStatCache :=
  ⟨provider, none, 0, none, false, none, none, 0, none, none, none, none⟩

/-- What a collection comes to: the counts as JSON, or the error and whether the provider was only
busy. -/
inductive Outcome where
  | counts (json : String)
  | failed (error : String) (busy : Bool)
  deriving DecidableEq

def DashboardStatCache.hasGood (row : DashboardStatCache) : Bool :=
  row.payload.any (· ≠ "") && row.payloadVersion = Tiles.payloadVersion

def DashboardStatCache.isFresh (row : DashboardStatCache) (now : Instant) (ttl : ℤ) : Bool :=
  row.hasGood && !row.stale && row.fetchedAt.any (younger now · ttl)

def cooldownSeconds (busy : Bool) (failures : ℕ) : ℤ :=
  if busy then busyCooldownSeconds
  else min (failBaseSeconds * 2 ^ min (failures - 1) 6) cooldownMaxSeconds

/-- What a `claim` is called with besides the tile. -/
structure Ask where
  provider : String
  owner : String
  now : Instant
  force : Bool
  minAge : ℤ
  lock : Bool
  cfg : Tunables

/-- Why a claim of the row is refused. -/
def DashboardStatCache.blocked (row : DashboardStatCache) (ask : Ask) : Option String :=
  if row.cooldownUntil.any (ask.now < ·) then some "cooldown"
  else if row.leaseUntil.any (ask.now < ·) then some "in-flight"
  else if row.nextQueryAllowedAt.any (ask.now < ·) then some "paced"
  else if ask.force && row.fetchedAt.any (younger ask.now · ask.cfg.minRefreshInterval) then
    some "refreshed-recently"
  else if ask.minAge ≠ 0 && row.fetchedAt.any (younger ask.now · ask.minAge) then some "deferring"
  else if !ask.force && row.isFresh ask.now ask.cfg.ttl then some "fresh"
  else none

/-- The row that `_ensure_row` returns for a provider, which it writes unless it is empty. -/
def DashboardStatCache.provided (row : DashboardStatCache) (provider : String) :
    DashboardStatCache :=
  if provider = "" then row else { row with provider }

def DashboardStatCache.leased (row : DashboardStatCache) (ask : Ask) : DashboardStatCache :=
  { row with leaseUntil := some (later ask.now ask.cfg.lease), leaseOwner := some ask.owner }

def DashboardStatCache.finish (row : DashboardStatCache) (outcome : Outcome) (now : Instant) :
    DashboardStatCache :=
  let row := { row with leaseUntil := none, leaseOwner := none, lastAttemptAt := some now }
  match outcome with
  | .counts json =>
    { row with
      payload := some json
      payloadVersion := Tiles.payloadVersion
      fetchedAt := some now
      stale := false
      lastError := none
      consecutiveFailures := 0
      cooldownUntil := none }
  | .failed error busy =>
    let failures := row.consecutiveFailures + 1
    { row with
      consecutiveFailures := failures
      lastError := some (String.ofList (error.toList.take 2000))
      cooldownUntil := some (later now (cooldownSeconds busy failures)) }

/-! ### The table -/

/-- The primary key. -/
structure Tile where
  tileKey : String
  scope : String := ""
  deriving DecidableEq

abbrev Store := Machine.Store Tile DashboardStatCache

/-- `_ensure_row`. -/
def ensured (store : Store) (tile : Tile) (provider : String) : DashboardStatCache :=
  (store.rowOr tile (.new provider)).provided provider

def ensureTiles (store : Store) : List (Tile × String) → Store
  | [] => store
  | (tile, provider) :: tiles =>
    ensureTiles (if (store tile).isSome then store else store.put tile (.new provider)) tiles

/-- The bulk update that paces the whole provider. -/
def paceProvider (store : Store) (provider : String) (moment : Instant) : Store :=
  store.mapRows fun _ row =>
    if row.provider = provider then { row with nextQueryAllowedAt := some moment } else row

/-- The reason that `claim` gives for a refusal. -/
def refusal (store : Store) (tile : Tile) (ask : Ask) : Option String :=
  if !ask.lock then some "contended" else (ensured store tile ask.provider).blocked ask

/-- What `claim` leaves in the table. -/
def claim (store : Store) (tile : Tile) (ask : Ask) : Store :=
  if !ask.lock then store
  else
    match (ensured store tile ask.provider).blocked ask with
    | some _ => store.put tile (ensured store tile ask.provider)
    | none =>
      paceProvider (store.put tile ((ensured store tile ask.provider).leased ask)) ask.provider
        (later ask.now ask.cfg.queryGap)

def finish (store : Store) (tile : Tile) (outcome : Outcome) (now : Instant) : Store :=
  store.put tile ((ensured store tile "").finish outcome now)

def markStale (store : Store) : Store := store.mapRows fun _ row => { row with stale := true }

def clearCooldowns (store : Store) : Store := store.mapRows fun _ row =>
  { row with cooldownUntil := none, consecutiveFailures := 0, nextQueryAllowedAt := none }

/-! ### The calls of all processes -/

/-- A collection, from its claim to the recording of its outcome. `serial` numbers the claims. -/
structure Collection where
  call : ℕ
  tile : Tile
  serial : ℕ
  leaseUntil : Instant
  deriving DecidableEq

inductive Event where
  | ensureTiles (tiles : List (Tile × String))
  | claim (call : ℕ) (tile : Tile) (ask : Ask)
  | finish (call : ℕ) (outcome : Outcome) (now : Instant)
  | die (call : ℕ)
  | markStale
  | clearCooldowns

/-- `latest` is the number of the last claim, and `origin` that of the collection whose counts a
tile has. -/
structure State where
  store : Store
  collections : Table Collection.call
  latest : ℕ
  origin : Tile → Option ℕ

def State.start : State := ⟨fun _ => none, .empty, 0, fun _ => none⟩

def Outcome.origin (outcome : Outcome) (serial : ℕ) (before : Option ℕ) : Option ℕ :=
  match outcome with
  | .counts _ => some serial
  | .failed .. => before

def State.step (s : State) : Event → Option State
  | .ensureTiles tiles => some { s with store := ensureTiles s.store tiles }
  | .claim call tile ask =>
    if (refusal s.store tile ask).isSome then some { s with store := claim s.store tile ask }
    else
      (s.collections.insert ⟨call, tile, s.latest + 1, later ask.now ask.cfg.lease⟩).map
        fun collections =>
          { s with store := claim s.store tile ask, collections, latest := s.latest + 1 }
  | .finish call outcome now =>
    (s.collections.lookup call).map fun collection =>
      { s with
        store := finish s.store collection.tile outcome now
        collections := s.collections.erase call
        origin := Function.update s.origin collection.tile
          (outcome.origin collection.serial (s.origin collection.tile)) }
  | .die call => some { s with collections := s.collections.erase call }
  | .markStale => some { s with store := markStale s.store }
  | .clearCooldowns => some { s with store := clearCooldowns s.store }

def tileSystem : Machine.System State Event where
  step := State.step

/-! ### Columns -/

section Columns
variable {α : Type} {f : DashboardStatCache → Option α}

theorem column_ensured (hnew : ∀ provider, f (.new provider) = none)
    (hprovided : ∀ row provider, f (DashboardStatCache.provided row provider) = f row)
    (store : Store) (tile : Tile) (provider : String) :
    f (ensured store tile provider) = column f store tile :=
  (hprovided _ _).trans (store.column_rowOr tile (hnew provider))

theorem column_ensureTiles (hnew : ∀ provider, f (.new provider) = none)
    (tiles : List (Tile × String)) (store : Store) (tile : Tile) :
    column f (ensureTiles store tiles) tile = column f store tile := by
  induction tiles generalizing store with
  | nil => rfl
  | cons entry tiles ih =>
    obtain ⟨key, provider⟩ := entry
    refine (ih _).trans ?_
    split
    next => rfl
    next hnone =>
      have hempty : column f store key = none := by
        rw [column, Option.not_isSome_iff_eq_none.mp hnone, Option.bind_none]
      exact store.column_put_of_eq ((hnew provider).trans hempty.symm) tile

theorem column_paceProvider
    (h : ∀ row moment, f { row with nextQueryAllowedAt := moment } = f row) (store : Store)
    (provider : String) (moment : Instant) (tile : Tile) :
    column f (paceProvider store provider moment) tile = column f store tile := by
  refine store.column_mapRows _ (fun _ row => ?_) tile
  split
  · exact h row (some moment)
  · rfl

end Columns

end Tiles
