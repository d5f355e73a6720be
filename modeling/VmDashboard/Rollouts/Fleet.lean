import VmDashboard.Jobs.Queue
import VmDashboard.Python.Regex
import Mathlib.Data.List.Lex
import Mathlib.Data.List.Sort

/-!
# The fleet: remote agents, their releases, and what may be queued for an agent

`services/agent_lifecycle_service.py` up to the rollouts, and the track of
`services/agent_release_service.py` an agent is held to.
-/

namespace Rollouts
open Machine (Table)
open Python (Instant Dict Json)

inductive Ring
  | canary
  | default
  deriving DecidableEq

structure RemoteAgent where
  id : String
  name : String
  isActive : Bool
  authMode : Option String
  agentVersion : String
  controlUpgrades : Bool
  controlUpdater : Bool
  paused : Bool
  upgradeRing : Option String
  workstream : Option String

structure Release where
  id : String
  version : String
  repository : String
  digest : String
  source : String
  notes : Option String
  createdBy : String
  deriving DecidableEq

inductive RolloutStatus
  | canary
  | default
  | done
  | stopped
  deriving DecidableEq

def RolloutStatus.live : RolloutStatus → Bool
  | .canary | .default => true
  | _ => false

/-- The lists of job ids are `[]` where the column is NULL. -/
structure Rollout where
  id : String
  releaseId : String
  changeWindowId : Option String
  status : RolloutStatus
  canaryJobIds : List String
  defaultJobIds : List String
  skipped : Dict
  detail : Option String
  createdBy : String
  finishedAt : Option Instant

structure Db where
  agents : Table RemoteAgent.id
  releases : Table Release.id
  rollouts : Table Rollout.id
  jobs : Table Jobs.Job.id
  lag : ℕ
  workstreamLags : List (String × ℕ)

def defaultRepository : String := "chrweav/dashboard-agent"

/-! ### Versions and tracks -/

/-- `\d+` at the start: its value, and the rest. -/
def number (cs : List Char) : Option (ℕ × List Char) :=
  let digits := cs.takeWhile Python.isDecimal
  if digits = [] then none
  else some (digits.foldl (fun n c => n * 10 + Python.decimalValue c) 0, cs.drop digits.length)

/-- `\s*(\d+)\.(\d+)` and what follows it. -/
def majorMinor (version : String) : Option (ℕ × ℕ × List Char) :=
  match number (version.toList.dropWhile Python.isSpace) with
  | some (major, '.' :: rest) =>
    (number rest).map fun (minor, rest) => (major, minor, rest)
  | _ => none

/-- Tuples compare as lists of the same length do. -/
def versionTuple (version : String) : List ℕ :=
  match majorMinor version with
  | some (major, minor, '.' :: rest) =>
    match number rest with
    | some (patch, _) => [major, minor, patch]
    | none => [0, 0, 0]
  | _ => [0, 0, 0]

def minLifecycleVersion : ℕ × ℕ := (2, 10)

def versionAtLeast (agent : RemoteAgent) (minimum : ℕ × ℕ) : Bool :=
  match majorMinor agent.agentVersion with
  | some (major, minor, _) =>
    minimum.1 < major || (minimum.1 = major && minimum.2 ≤ minor)
  | none => false

def ring (agent : RemoteAgent) : Ring :=
  if agent.upgradeRing = some "canary" then .canary else .default

/-- Newest first. -/
def listReleases (db : Db) : List Release :=
  db.releases.rows.insertionSort fun a b => versionTuple b.version ≤ versionTuple a.version

def lagFor (db : Db) (workstream : Option String) : ℕ :=
  let name := Python.lower (Python.strip (workstream.getD ""))
  match db.workstreamLags.find? fun lag => lag.1 = name with
  | some lag => lag.2
  | none => db.lag

/-- The release an agent of this workstream is offered. -/
def target (db : Db) (workstream : Option String) : Option Release :=
  let rows := listReleases db
  let lag := if workstream.getD "" = "" then db.lag else lagFor db workstream
  rows[min lag (rows.length - 1)]?

/-! ### What may be queued -/

def pendingControlJob (db : Db) (agent : RemoteAgent) : Bool :=
  db.jobs.rows.any fun job =>
    job.agentId = some agent.id && Jobs.controlJobTypes.contains job.jobType &&
      (job.status = .queued || job.status = .running)

/-- `queried` is whether a session is at hand for the last check. -/
def hostGate (db : Db) (queried : Bool) (agent : RemoteAgent) : Option String :=
  if !agent.isActive then some "This agent is revoked."
  else if (agent.authMode.getD "ed25519") ≠ "spiffe" then
    some ("Migrate to SPIRE first: upgrade and restart need an agent attested " ++
      "through SPIRE, whose identity survives a new container.")
  else if !versionAtLeast agent minLifecycleVersion then
    some ("Upgrade to 2.10 by hand once: this agent reports " ++
      (if agent.agentVersion = "" then "no version" else agent.agentVersion) ++
      ", which predates central upgrades.")
  else if !agent.controlUpgrades then
    some ("Enable upgrades in this agent's policy.yaml (the `upgrades:` block); " ++
      "the host decides, not the dashboard.")
  else if !agent.controlUpdater then
    some ("Add the updater container beside this agent " ++
      "(examples/remote-agent/docker-compose.updater.yml).")
  else if agent.paused then some "This agent is paused. Resume it first."
  else if queried && pendingControlJob db agent then
    some "Another upgrade or restart is already queued or running for this agent."
  else none

/-- What `schedule_kwargs` hands on; all absent for an immediate run. -/
structure Schedule where
  scheduledFor : Option Instant := none
  windowEndsAt : Option Instant := none
  changeWindowId : Option String := none
  approvalRequired : Bool := false

/-- The repository, the digest and the version an upgrade to the release names. -/
def Release.image (release : Release) : String × String × String :=
  (if release.repository = "" then defaultRepository else release.repository, release.digest,
    release.version)

def imageOf (release : Release) : List (String × Json) :=
  [("repository", .str release.image.1), ("digest", .str release.image.2.1),
    ("version", .str release.image.2.2)]

def upgradeMeta (agent : RemoteAgent) (release : Release) (rolloutId : String) : Dict :=
  imageOf release ++ [("release_id", .str release.id), ("from_version", .str agent.agentVersion)] ++
    if rolloutId = "" then [] else [("rollout_id", .str rolloutId)]

/-- `upgrade` up to the job row: the request handed to `create_job`, or the refusal. -/
def upgrade (db : Db) (agent : RemoteAgent) (release : Release) (actor : String)
    (schedule : Schedule) (force : Bool) (rolloutId : String) : Except String Jobs.JobRequest :=
  let current := versionTuple agent.agentVersion
  let wanted := versionTuple release.version
  if wanted = current then .error (agent.name ++ " already runs " ++ release.version ++ ".")
  else if wanted < current && !force then
    .error (release.version ++ " is older than " ++ agent.name ++ " (" ++ agent.agentVersion ++
      "). A downgrade needs force, and the agent's policy.yaml must allow it too.")
  else
    match hostGate db true agent with
    | some reason => .error reason
    | none =>
      .ok {
        jobType := "agent_upgrade"
        createdBy := actor
        workgroup := some "agents"
        metadata := upgradeMeta agent release rolloutId
        agentId := some agent.id
        scheduledFor := schedule.scheduledFor
        windowEndsAt := schedule.windowEndsAt
        changeWindowId := schedule.changeWindowId
        approvalRequired := schedule.approvalRequired }

/-- `""` when the release is within the agent's track. -/
def heldByTrack (db : Db) (agent : RemoteAgent) (release : Release) : String :=
  match target db agent.workstream with
  | none => ""
  | some tracked =>
    if versionTuple release.version ≤ versionTuple tracked.version then ""
    else
      let lag := lagFor db agent.workstream
      let label := if lag = 0 then "n" else "n-" ++ toString lag
      let place := match agent.workstream with
        | none | some "" => "the dashboard default"
        | some workstream => "workstream " ++ workstream
      "on track " ++ label ++ " (" ++ place ++ "), which stops at " ++ tracked.version

/-! ### One ring -/

def activeAgents (db : Db) : List RemoteAgent :=
  (db.agents.rows.filter RemoteAgent.isActive).insertionSort fun a b => a.name ≤ b.name

inductive Verdict
  | otherRing
  | skip (reason : String)
  | queue (request : Jobs.JobRequest)

/-- What a call of `_queue_ring` works with. -/
structure RingCall where
  rollout : String
  which : Ring
  actor : String
  schedule : Schedule

def RingCall.consider (call : RingCall) (db : Db) (release : Release) (agent : RemoteAgent) :
    Verdict :=
  if ring agent ≠ call.which then .otherRing
  else if versionTuple release.version ≤ versionTuple agent.agentVersion then
    .skip ("already on " ++ agent.agentVersion)
  else
    let held := heldByTrack db agent release
    if held ≠ "" then .skip held
    else
      match upgrade db agent release call.actor call.schedule false call.rollout with
      | .error reason => .skip reason
      | .ok request => .queue request

inductive RingOutcome
  | queued (agent : String) (request : Jobs.JobRequest) (pending : List String) (skipped : Dict)
  | finished (skipped : Dict)
  /-- A row the loop refreshes is gone. -/
  | raised

/-- The loop of `_queue_ring` over the agents still to come, up to the next `create_job`. -/
def RingCall.walk (call : RingCall) (db : Db) (release : Release) (skipped : Dict) :
    List String → RingOutcome
  | [] => .finished skipped
  | id :: pending =>
    match db.agents.lookup id with
    | none => .raised
    | some agent =>
      match call.consider db release agent with
      | .otherRing => call.walk db release skipped pending
      | .skip reason => call.walk db release (skipped.set agent.name (.str reason)) pending
      | .queue request =>
        .queued id request pending (skipped.filter fun item => item.1 ≠ agent.name)

def previewDefault (db : Db) (release : Release) (skipped : Dict) : Dict :=
  (db.agents.rows.filter RemoteAgent.isActive).foldl (fun skipped agent =>
    if ring agent ≠ .default ||
        versionTuple release.version ≤ versionTuple agent.agentVersion then skipped
    else
      match hostGate db false agent with
      | some reason => skipped.set agent.name (.str reason)
      | none =>
        let held := heldByTrack db agent release
        if held = "" then skipped else skipped.set agent.name (.str held)) skipped

/-- Whether the ring is done, and its first failed job. -/
def ringState (db : Db) (jobIds : List String) : Bool × Option Jobs.Job :=
  if jobIds = [] then (true, none)
  else
    let jobs := db.jobs.rows.filter fun job => job.id ∈ jobIds
    match jobs.find? fun job => job.status = .failed || job.status = .cancelled with
    | some job => (false, some job)
    | none => (jobs.all (fun job => job.status = .completed) && jobs.length = jobIds.length, none)

end Rollouts
