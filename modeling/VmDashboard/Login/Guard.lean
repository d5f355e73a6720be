import Mathlib.Data.List.Sort
import VmDashboard.Machine.System
import VmDashboard.Python.Clock
import VmDashboard.Python.Text

/-!
# The login throttle (`services/login_guard.py`)

`check` counts the rows of the window, `record_failure` adds one and sweeps,
`clear` drops a username's rows. Python's lower-casing is an argument.
-/

namespace LoginGuard
open Python (Instant strip)

structure LoginAttempt where
  id : ℕ
  username : String
  ip : String
  attemptedAt : Instant
  deriving DecidableEq

/-- The `login_*` settings. -/
structure Config where
  enabled : Bool := true
  maxAttempts : ℤ := 10
  maxAttemptsPerIp : ℤ := 50
  windowMinutes : ℤ := 15
  retentionMinutes : ℤ := 60
  deriving DecidableEq

def maxRowsScanned : ℕ := 500

inductive Scope
  | user
  | ip
  deriving DecidableEq

inductive Refusal
  | loginThrottled (retryAfter : ℤ) (scope : Scope)
  /-- An `OverflowError` of `datetime`. -/
  | overflow
  deriving DecidableEq

/-- `timedelta(minutes=n)`. -/
def timedelta (minutes : ℤ) : ℤ := minutes * 60000000

/-- The instants of the years 1 to 9999. -/
def representable (instant : ℤ) : Bool :=
  -62135596800000000 ≤ instant && instant ≤ 253402300799999999

/-- `now - timedelta(minutes=n)`, `none` when it raises. -/
def cutoff (now : Instant) (minutes : ℤ) : Option ℤ :=
  let instant := (now : ℤ) - timedelta minutes
  if representable instant then some instant else none

/-! ### The calls -/

section
variable (lower : String → String) (config : Config)

def normalizeUsername (username : String) : String :=
  String.ofList ((lower (strip username)).toList.take 150)

def retryAfter (stamps : List Instant) (cap : ℤ) (now : Instant) : ℤ :=
  let pivot := stamps.getD (stamps.length - cap.toNat) 0
  max 1 ((pivot + timedelta config.windowMinutes - now) / 1000000 + 1)

/-- The rows the scan asks for, before the limit. -/
def matching (rows : List LoginAttempt) (key ip : String) (oldest : ℤ) : List LoginAttempt :=
  (rows.filter fun row => oldest ≤ row.attemptedAt ∧ (row.username = key ∨ row.ip = ip)).insertionSort
    fun a b => a.attemptedAt ≤ b.attemptedAt

def overCap (stamps : List Instant) (cap : ℤ) (scope : Scope) (now : Instant) : Option Refusal :=
  if 0 < cap ∧ cap ≤ stamps.length then some (.loginThrottled (retryAfter config stamps cap now) scope)
  else none

/-- The refusal, if there is one. -/
def check (rows : List LoginAttempt) (username ip : String) (ipOnly : Bool) (now : Instant) :
    Option Refusal :=
  if ¬config.enabled then none
  else
    match cutoff now config.windowMinutes with
    | none => some .overflow
    | some oldest =>
      let key := normalizeUsername lower username
      let rows := (matching rows key ip oldest).take maxRowsScanned
      let userStamps := (rows.filter (·.username = key)).map LoginAttempt.attemptedAt
      let ipStamps := (rows.filter (·.ip = ip)).map LoginAttempt.attemptedAt
      (if ipOnly then none else overCap config userStamps config.maxAttempts .user now).or
        (if ip = "" then none else overCap config ipStamps config.maxAttemptsPerIp .ip now)

def sweep (rows : List LoginAttempt) (now : Instant) : List LoginAttempt :=
  match cutoff now config.retentionMinutes with
  | some oldest => rows.filter fun row => ¬row.attemptedAt < oldest
  | none => rows

def clear (rows : List LoginAttempt) (username : String) : List LoginAttempt :=
  rows.filter fun row => row.username ≠ normalizeUsername lower username

/-- The row of one failed attempt. -/
def attempt (id : ℕ) (username ip : String) (now : Instant) : LoginAttempt :=
  ⟨id, normalizeUsername lower username, String.ofList (ip.toList.take 45), now⟩

def recordFailure (rows : List LoginAttempt) (id : ℕ) (username ip : String) (now : Instant) :
    List LoginAttempt :=
  if ¬config.enabled then rows else sweep config (rows ++ [attempt lower id username ip now]) now

end

/-! ### Logins -/

/-- A login that `check` let through and that has not ended. -/
structure Login where
  key : String
  checkedAt : Instant
  deriving DecidableEq

/-- A login that was let through and failed, with the row of its failure. -/
structure Failure where
  key : String
  checkedAt : Instant
  failedAt : Instant
  row : ℕ
  deriving DecidableEq

structure World where
  now : Instant
  rows : List LoginAttempt := []
  next : ℕ := 0
  logins : List Login := []
  failures : List Failure := []
  clears : List (String × Instant) := []

inductive Event
  | wait (elapsed : ℕ)
  | check (username ip : String) (ipOnly : Bool)
  /-- A failure recorded, of the username's earliest login if one is under way. -/
  | recordFailure (username ip : String)
  /-- A login that was let through ends without a failure. -/
  | leave (username : String)
  | clear (username : String)
  | sweep

/-- The login whose failure is recorded. -/
def failing (w : World) (key : String) : Option Login := w.logins.find? (·.key = key)

section
variable (lower : String → String) (config : Config)

def step (w : World) : Event → World
  | .wait elapsed => { w with now := w.now + elapsed }
  | .check username ip ipOnly =>
    if ipOnly = true ∨ (check lower config w.rows username ip ipOnly w.now).isSome then w
    else { w with logins := w.logins ++ [⟨normalizeUsername lower username, w.now⟩] }
  | .recordFailure username ip =>
    let rows := recordFailure lower config w.rows w.next username ip w.now
    match failing w (normalizeUsername lower username) with
    | some login =>
      { w with
        rows := rows
        next := w.next + 1
        logins := w.logins.erase login
        failures := w.failures ++ [⟨login.key, login.checkedAt, w.now, w.next⟩] }
    | none => { w with rows := rows, next := w.next + 1 }
  | .leave username =>
    match failing w (normalizeUsername lower username) with
    | some login => { w with logins := w.logins.erase login }
    | none => w
  | .clear username =>
    { w with
      rows := clear lower w.rows username
      clears := w.clears ++ [(normalizeUsername lower username, w.now)] }
  | .sweep => { w with rows := sweep config w.rows w.now }

def guard : Machine.System World Event := ⟨fun w event => some (step lower config w event)⟩

end

/-! ### The promise -/

/-- The window's length. -/
def window (config : Config) : ℤ := timedelta config.windowMinutes

/-- The interval of the window's length from `start`. -/
def Within (config : Config) (start : ℤ) (instant : Instant) : Prop :=
  start ≤ instant ∧ instant ≤ start + window config

instance (config : Config) (start : ℤ) (instant : Instant) :
    Decidable (Within config start instant) := inferInstanceAs (Decidable (_ ∧ _))

/-- The failed logins of a username that were let through in the interval. -/
def letThrough (config : Config) (w : World) (key : String) (start : ℤ) : List Failure :=
  w.failures.filter fun failure => failure.key = key ∧ Within config start failure.checkedAt

def Uncleared (config : Config) (w : World) (key : String) (start : ℤ) : Prop :=
  ∀ entry ∈ w.clears, entry.1 = key → ¬Within config start entry.2

/-- No interval of the window's length without a clear has more than the cap. -/
def Capped (config : Config) (w : World) : Prop :=
  ∀ key start, Uncleared config w key start →
    ((letThrough config w key start).length : ℤ) ≤ config.maxAttempts

/-- A sweep takes no row that is still in the window. -/
def SweepsOld (config : Config) (rows : List LoginAttempt) (now : Instant) : Prop :=
  ∀ oldest ∈ cutoff now config.retentionMinutes, ∀ row ∈ rows, row.attemptedAt < oldest →
    row.attemptedAt + window config < now

/-- The scan reaches every row of the window, no login of the username is under way, and a sweep
takes only rows that have left the window. -/
def Sound (lower : String → String) (config : Config) (w : World) : Event → Prop
  | .check username ip ipOnly =>
    ipOnly = true ∨ (∀ login ∈ w.logins, login.key ≠ normalizeUsername lower username) ∧
      ∀ oldest ∈ cutoff w.now config.windowMinutes,
        (matching w.rows (normalizeUsername lower username) ip oldest).length ≤ maxRowsScanned
  | .recordFailure username ip =>
    SweepsOld config (w.rows ++ [attempt lower w.next username ip w.now]) w.now
  | .sweep => SweepsOld config w.rows w.now
  | _ => True

end LoginGuard
