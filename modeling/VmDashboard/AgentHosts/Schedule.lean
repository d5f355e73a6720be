import VmDashboard.AgentHosts.Lifecycle
import VmDashboard.Windows.Recurrence

/-!
# The schedule of a deployed agent host (`services/agent_host_service.py`)

`plan` and its helpers over the columns of the host's row, and the system of one host
that follows a window: sweeps, the start and stop jobs with every cloud call
succeeding, `_act` and `update` of `api/agent_hosts.py`, and edits of the window.
-/

namespace AgentHosts
open Machine (System)
open Python (Instant minutes)
open Windows (TimeLibrary ChangeWindow nextOccurrence Occurrence)

inductive Mode
  | always | untilTime | window
  deriving DecidableEq

structure HostRow where
  mode : Mode
  untilAt : Option Instant
  leadMinutes : ℕ
  graceMinutes : ℕ
  status : HostStatus
  hostId : Option String
  startedAt : Option Instant
  nextStartAt : Option Instant
  nextStopAt : Option Instant

def HostRow.lead (host : HostRow) : ℕ := minutes host.leadMinutes

def HostRow.grace (host : HostRow) : ℕ := minutes host.graceMinutes

def minUsefulUp : ℕ := minutes 10

/-- `_up`: one to take down when its time is over. -/
def HostRow.up (host : HostRow) : Bool :=
  host.status = .running || (host.status = .error && host.hostId.isSome)

def windowSpan (lib : TimeLibrary) (host : HostRow) (window : ChangeWindow) (now : Instant) :
    Option (Instant × Instant) :=
  match nextOccurrence lib window (now - host.grace) with
  | .ok (start, close) => some (start - host.lead, close + host.grace)
  | .error _ => none

/-- The plan of a window-mode host whose occurrence keeps it up in the given span. -/
def planSpan (host : HostRow) (now upFrom upUntil : Instant) :
    Option Action × Option Instant × Option Instant :=
  if host.status = .running then
    -- pinned when the host came up
    let stopAt := host.nextStopAt.getD upUntil
    (if stopAt ≤ now then some .stop else none, some upFrom, some stopAt)
  else if host.up ∧ ¬(upFrom ≤ now ∧ now < upUntil) then (some .stop, some upFrom, some upUntil)
  else if host.nextStartAt.any fun next => upFrom < next && now < next then
    (none, host.nextStartAt, none)
  else if upFrom ≤ now ∧ now < upUntil ∧ host.status = .parked ∧ minUsefulUp ≤ upUntil - now then
    (some .start, some upFrom, some upUntil)
  else (none, some upFrom, some upUntil)

def plan (lib : TimeLibrary) (host : HostRow) (window : Option ChangeWindow) (now : Instant) :
    Option Action × Option Instant × Option Instant :=
  match host.mode with
  | .untilTime =>
    if host.untilAt.any (· ≤ now) ∧ host.up then (some .stop, none, host.untilAt)
    else (none, none, host.untilAt)
  | .always => (none, none, none)
  | .window =>
    match window with
    | none => (none, none, none)
    | some window =>
      if window.enabled = some false then (none, none, none)
      else
        match windowSpan lib host window now with
        | none => (none, none, none)
        | some (upFrom, upUntil) => planSpan host now upFrom upUntil

def holdUntilNextWindow (lib : TimeLibrary) (host : HostRow) (window : Option ChangeWindow)
    (now : Instant) : HostRow :=
  match host.mode, window with
  | .window, some window =>
    match windowSpan lib host window now with
    | some (upFrom, upUntil) =>
      if upFrom ≤ now ∧ now < upUntil then
        { host with nextStartAt := (windowSpan lib host window upUntil).map Prod.fst }
      else host
    | none => host
  | _, _ => host

/-! ### One host that follows a window -/

namespace Following

/-- Where the host's last job is; `written` has committed the host's row and not yet its own. -/
inductive JobPhase
  | queued | working | written
  deriving DecidableEq

/-- A stop by hand, with the schedule it found. -/
structure HandStop where
  time : Instant
  window : ChangeWindow
  host : HostRow

structure State where
  now : Instant
  window : ChangeWindow
  host : HostRow
  /-- the job that is queued or running -/
  job : Option (Action × JobPhase)
  /-- the last stop by hand, unless a start by hand came after it -/
  handStop : Option HandStop
  /-- the end of the span that was current or next when the last start was queued -/
  startedFor : Option Instant

inductive Op
  | sweep
  /-- a worker takes the queued job -/
  | claim
  /-- `_start` commits that the agent is online -/
  | comeUp (hostId : String)
  /-- `_stop` commits that the host is gone -/
  | park
  /-- the job is set completed -/
  | finish
  | handStart
  | handStop
  | edit (leadMinutes graceMinutes : ℕ)
  | editWindow (window : ChangeWindow)

def enqueue (lib : TimeLibrary) (now : Instant) (s : State) (action : Action) : State :=
  { s with
    job := some (action, .queued)
    host :=
      if action = .start ∧ (s.host.status = .parked ∨ s.host.status = .error) then
        { s.host with status := .provisioning }
      else s.host
    startedFor :=
      if action = .start then (windowSpan lib s.host s.window now).map Prod.snd else s.startedFor }

/-- `sweep` on this host, and `_schedule_now`. -/
def pass (lib : TimeLibrary) (now : Instant) (s : State) : State :=
  let (action, nextStart, nextStop) := plan lib s.host (some s.window) now
  let s := { s with host := { s.host with nextStartAt := nextStart, nextStopAt := nextStop } }
  match action, s.job with
  | some action, none => enqueue lib now s action
  | _, _ => s

def claim (s : State) : Action × JobPhase → Option State
  | (.start, .queued) =>
    if s.host.hostId.isSome then
      some { s with host := { s.host with status := .error }, job := none }
    else some { s with host := { s.host with status := .starting }, job := some (.start, .working) }
  | (.stop, .queued) =>
    some { s with host := { s.host with status := .stopping }, job := some (.stop, .working) }
  | _ => none

def comeUp (lib : TimeLibrary) (now : Instant) (s : State) (hostId : String) : State :=
  { s with
    job := some (.start, .written)
    host := { s.host with
      hostId := some hostId
      status := .running
      startedAt := some now
      nextStopAt :=
        if s.host.mode = .window then (windowSpan lib s.host s.window now).map Prod.snd
        else s.host.nextStopAt } }

def parked (now : Instant) (host : HostRow) : HostRow :=
  let host := { host with hostId := none, startedAt := none, nextStopAt := none, status := .parked }
  if host.mode = .untilTime ∧ host.untilAt.any (· ≤ now) then
    { host with mode := .always, untilAt := none }
  else host

def perform (lib : TimeLibrary) (now : Instant) (s : State) : Op → Option State
  | .sweep => if s.host.mode = .always then some s else some (pass lib now s)
  | .claim => s.job.bind (claim s)
  | .comeUp hostId =>
    if s.job = some (.start, .working) then some (comeUp lib now s hostId) else none
  | .park =>
    if s.job = some (.stop, .working) then
      some { s with host := parked now s.host, job := some (.stop, .written) }
    else none
  | .finish => if s.job.any (·.2 = .written) then some { s with job := none } else none
  | .handStart =>
    if s.host.hostId.isSome ∨ s.host.status.live ∨ s.job.isSome then none
    else some { enqueue lib now s .start with handStop := none }
  | .handStop =>
    if s.host.hostId = none ∧ ¬s.host.status.live ∧ s.host.status ≠ .error ∨ s.job.isSome then none
    else
      some { enqueue lib now s .stop with
        host := holdUntilNextWindow lib s.host (some s.window) now
        handStop := some ⟨now, s.window, s.host⟩ }
  | .edit lead grace =>
    if s.job.isSome ∨ s.host.mode ≠ .window ∨ ¬(5 ≤ lead ∧ lead ≤ 240) ∨ ¬grace ≤ 240 ∨
        s.window.enabled = some false then none
    else
      -- dropping any manual hold
      some (pass lib now { s with host :=
        { s.host with leadMinutes := lead, graceMinutes := grace, nextStartAt := none } })
  | .editWindow window => some { s with window }

def State.stepAt (lib : TimeLibrary) (s : State) : Instant × Op → Option State
  | (now, op) => if s.now ≤ now then perform lib now { s with now } op else none

end Following

def following (lib : TimeLibrary) : System Following.State (Instant × Following.Op) :=
  ⟨Following.State.stepAt lib⟩

/-! ### What the schedule promises -/

namespace Following

/-- The occurrence, widened by the host's lead and grace, holds `t`. -/
def InSpan (host : HostRow) (start close t : Instant) : Prop :=
  start - host.lead ≤ t ∧ t < close + host.grace

/-- The host was stopped inside an occurrence, and the span of no later one has begun. -/
def HandStop.Holds (lib : TimeLibrary) (stop : HandStop) (t : Instant) : Prop :=
  ∃ start close, Occurrence lib stop.window start close ∧
    InSpan stop.host start close stop.time ∧
    ∀ start' close', Occurrence lib stop.window start' close' → start < start' →
      t < start' - stop.host.lead

/-- The window is open for the host, for long enough. -/
def Useful (host : HostRow) (start close t : Instant) : Prop :=
  start - host.lead ≤ t ∧ t + minUsefulUp ≤ close + host.grace

/-- The host should be up: inside an occurrence that it was not stopped in by hand. -/
def Wanted (lib : TimeLibrary) (s : State) (now : Instant) : Prop :=
  s.window.enabled ≠ some false ∧
    ∃ start close, Occurrence lib s.window start close ∧ Useful s.host start close now ∧
      ∀ stop ∈ s.handStop, ¬InSpan s.host start close stop.time

/-- What a sweep at `now` makes of `s`. -/
structure Swept (lib : TimeLibrary) (s : State) (now : Instant) (t : State) : Prop where
  starts : s.host.status = .parked → s.job = none → Wanted lib s now →
    t.job = some (.start, .queued)
  stays : s.job = none → t.job = some (.start, .queued) → ∀ stop ∈ s.handStop,
    ¬stop.Holds lib now
  stops : s.host.status = .running → ∀ ending ∈ s.startedFor, ending ≤ now →
    ∃ phase, t.job = some (.stop, phase)

/-- Every sweep does what the schedule promises. -/
def Keeps (lib : TimeLibrary) (s : State) (event : Instant × Op) : Prop :=
  event.2 = .sweep → ∀ t, s.stepAt lib event = some t → Swept lib s event.1 t

/-- `next_occurrence` finds an occurrence for the host at `now`, with `P` of it. -/
def Finds (lib : TimeLibrary) (s : State) (now : Instant) (P : Instant → Instant → Prop) : Prop :=
  ∃ start close, nextOccurrence lib s.window (now - s.host.grace) = .ok (start, close) ∧
    P start close

/-- A wanted host is seen as one: the occurrence found is of use too, and the start time on its
row has come. -/
def Seen (lib : TimeLibrary) (s : State) (now : Instant) : Prop :=
  s.host.status = .parked → s.job = none → Wanted lib s now →
    Finds lib s now fun start close => Useful s.host start close now ∧
      ∀ next ∈ s.host.nextStartAt, next ≤ now

/-- A hold is not written over: the host is not up any more, and its window is at work. -/
def Undisturbed (lib : TimeLibrary) (s : State) (now : Instant) : Prop :=
  (∃ stop ∈ s.handStop, stop.Holds lib now) →
    s.host.status ≠ .running ∧ s.window.enabled ≠ some false ∧ Finds lib s now fun _ _ => True

/-- A host that is up keeps the end it has: its window is at work. -/
def Pinned (lib : TimeLibrary) (s : State) (now : Instant) : Prop :=
  s.host.status = .running → s.startedFor.isSome →
    s.window.enabled ≠ some false ∧ Finds lib s now fun _ _ => True

/-- The job of a start is over before the span it was queued for. -/
def Ready (s : State) (now : Instant) : Prop :=
  s.job = some (.start, .written) → ∀ ending ∈ s.startedFor, now < ending

/-- A stop by hand inside an occurrence finds it, and a later one after it. -/
def HoldsOver (lib : TimeLibrary) (s : State) (now : Instant) : Prop :=
  ∀ start close, Occurrence lib s.window start close → InSpan s.host start close now →
    Finds lib s now fun first until_ => InSpan s.host first until_ now ∧
      ∃ next close', nextOccurrence lib s.window until_ = .ok (next, close') ∧ start < next

/-- The condition on each event. -/
def Timely (lib : TimeLibrary) (s : State) : Instant × Op → Prop
  | (now, .sweep) => Seen lib s now ∧ Undisturbed lib s now ∧ Pinned lib s now ∧ Ready s now
  | (now, .edit _ grace) =>
    (∀ stop ∈ s.handStop, ¬stop.Holds lib now) ∧
      Pinned lib { s with host := { s.host with graceMinutes := grace } } now
  | (now, .comeUp _) =>
    ∀ ending ∈ s.startedFor, Finds lib s now fun _ close => close + s.host.grace = ending
  | (now, .handStop) => HoldsOver lib s now
  | _ => True

end Following

end AgentHosts
