import VmDashboard.Python.Regex
import VmDashboard.Updater.Host

/-!
# The updater's handling of a request (`runners/agent-updater/updater.py`)

Every Docker call, signature check and kill is decided by a `Fate`, one per
handling: an outcome for each call site of the source. A call that is `lost`
raises what no handler catches, or dies with the process; the daemon may have
carried it out before.
-/

namespace Updater

inductive Outcome
  | done
  | refused (reason : String)
  | lost (effect : Bool)
  deriving DecidableEq

inductive Raised
  | refused (reason : String)
  | docker (reason : String)
  | lost
  deriving DecidableEq

structure Status where
  jobId : String
  state : String
  reason : String
  deriving DecidableEq

structure World where
  host : Host
  status : Option Status

/-- A piece of the updater: it changes the world and returns or raises. -/
def Act (α : Type) := World → Except Raised α × World

namespace Act
variable {α β : Type}

def pure (a : α) : Act α := fun w => (.ok a, w)

def bind (x : Act α) (f : α → Act β) : Act β := fun w =>
  match x w with
  | (.ok a, after) => f a after
  | (.error e, after) => (.error e, after)

instance : Monad Act where
  pure := Act.pure
  bind := Act.bind

def raise (e : Raised) : Act α := fun w => (.error e, w)

/-- `try: … except (DockerError, Refused) as exc`. -/
def attempt (x : Act α) : Act (Except String α) := fun w =>
  match x w with
  | (.ok a, after) => (.ok (.ok a), after)
  | (.error (.refused reason), after) => (.ok (.error reason), after)
  | (.error (.docker reason), after) => (.ok (.error reason), after)
  | (.error .lost, after) => (.error .lost, after)

/-- `try: … except DockerError: pass`. -/
def ignoreDocker (x : Act Unit) : Act Unit := fun w =>
  match x w with
  | (.error (.docker _), after) => (.ok (), after)
  | result => result

end Act

def writeStatus (jobId state reason : String) : Act Unit := fun w =>
  (.ok (), { w with status := some ⟨jobId, state, reason⟩ })

/-! ### Docker calls -/

/-- One API call; `effect` is what the daemon does, `none` where it answers an error. -/
def call {α : Type} (outcome : Outcome) (effect : Host → Option (Host × α)) : Act α := fun w =>
  match outcome, effect w.host with
  | .done, some (host, a) => (.ok a, { w with host })
  | .done, none => (.error (.docker "HTTP 409"), w)
  | .refused reason, _ => (.error (.docker reason), w)
  | .lost true, some (host, _) => (.error .lost, { w with host })
  | .lost _, _ => (.error .lost, w)

def read (outcome : Outcome) : Act Unit := call outcome fun host => some (host, ())

def listAgents (outcome : Outcome) : Act (List Container) :=
  call outcome fun host => some (host, host.listAgents)

/-- A call on a container, after `_agent` has checked its label. -/
def onAgent (outcome : Outcome) (id : String) (effect : Host → Option Host) : Act Unit := fun w =>
  if (w.host.containers.lookup id).any fun c => !c.agent then
    (.error (.refused ("container " ++ String.ofList (id.toList.take 12) ++
      " is not labelled dashboard-agent.role=agent")), w)
  else call outcome (fun host => (effect host).map fun after => (after, ())) w

def inspect (outcome : Outcome) (id : String) : Act Unit :=
  onAgent outcome id fun host => if (host.containers.lookup id).isSome then some host else none

def start (outcome : Outcome) (id : String) : Act Unit := onAgent outcome id (·.start id)

def stop (outcome : Outcome) (id : String) : Act Unit := onAgent outcome id (·.stop id)

def rename (outcome : Outcome) (id name : String) : Act Unit := onAgent outcome id (·.rename id name)

def remove (outcome : Outcome) (id : String) : Act Unit := onAgent outcome id (·.remove id)

/-! ### One handling -/

structure Ready where
  jobId : String
  version : String

/-- One pass of the loop in `_wait_ready`: the `ready` file, whether the successor runs, how
the inspection ends and what else it shows. -/
structure Poll where
  ready : Option Ready
  running : Bool
  inspect : Outcome
  status : String
  exitCode : ℤ
  restarting : Bool
  restartCount : ℕ

structure Fate where
  verify : Outcome
  pull : Outcome
  imageInspect : Outcome
  /-- The version label of the pulled image. -/
  labelled : Option String
  listAgents : Outcome
  inspectAgent : Outcome
  inspectImage : Outcome
  stop : Outcome
  listPrevious : Outcome
  removePrevious : Outcome
  rename : Outcome
  create : Outcome
  newId : String
  start : Outcome
  /-- The polls until the deadline. -/
  polls : List Poll
  stopNew : Outcome
  removeNew : Outcome
  renameBack : Outcome
  startOld : Outcome
  removeOld : Outcome

structure Request where
  jobId : String
  op : String
  repository : String
  digest : String
  version : String

structure Upgrades where
  repository : String
  readyTimeoutS : ℕ

def verifySignature (outcome : Outcome) : Act Unit := fun w =>
  match outcome with
  | .done => (.ok (), w)
  | .refused reason => (.error (.refused reason), w)
  | .lost _ => (.error .lost, w)

def isPrevious (name : String) : Bool := decide ("-previous".toList <:+ name.toList)

def previous (name : String) : String := name ++ "-previous"

def theAgent (fate : Fate) : Act Container := do
  let agents ← listAgents fate.listAgents
  match agents.filter fun c => !isPrevious c.name with
  | [c] => do
    inspect fate.inspectAgent c.id
    return c
  | found =>
    Act.raise (.refused ("expected one container labelled dashboard-agent.role=agent, found " ++
      toString found.length))

/-- `_upgrade` up to the agent it will replace: nothing is changed on the host. -/
def prepare (fate : Fate) (jobId ref version : String) : Act Container := do
  writeStatus jobId "verifying" ""
  verifySignature fate.verify
  writeStatus jobId "pulling" ""
  read fate.pull
  read fate.imageInspect
  if fate.labelled ≠ some version then
    Act.raise (.refused (ref ++ " is labelled version " ++ fate.labelled.getD "None" ++ ", not " ++
      version))
  let old ← theAgent fate
  let _ ← (read fate.inspectImage).attempt
  return old

def removeNamed (outcome : Outcome) (name : String) : List Container → Act Unit
  | [] => return ()
  | c :: agents => do
    if c.name = name then remove outcome c.id
    removeNamed outcome name agents

/-- The old container stopped and out of the way. -/
def swapOut (fate : Fate) (old : Container) : Act Unit := do
  stop fate.stop old.id
  let agents ← listAgents fate.listPrevious
  removeNamed fate.removePrevious (previous old.name) agents
  rename fate.rename old.id (previous old.name)

def bringUp (fate : Fate) (name ref version : String) : Act String := do
  call fate.create fun host =>
    (host.create ⟨fate.newId, name, true, ref, some version, false⟩).map fun after => (after, ())
  start fate.start fate.newId
  return fate.newId

def restore (fate : Fate) (oldId name : String) (newId : Option String) : Act Unit := do
  match newId with
  | some id => do
    (stop fate.stopNew id).ignoreDocker
    remove fate.removeNew id
  | none => pure ()
  rename fate.renameBack oldId name
  start fate.startOld oldId

/- The successor's state when a poll looks at it. -/
def observe (id : String) (running : Bool) : Act Unit := fun w =>
  (.ok (), { w with host := w.host.setRunning id running })

/-- `_wait_ready`: `""` once the agent wrote `ready` for this job at `version`, else the reason. -/
def waitReady (jobId version : String) (timeout : ℕ) (watch : String) : List Poll → Act String
  | [] => return ("the new agent did not report ready within " ++ toString timeout ++ "s")
  | poll :: polls => do
    observe watch poll.running
    match poll.ready.filter fun ready => ready.jobId = jobId with
    | some ready =>
      return if ready.version = version then ""
        else "the new agent came up as " ++ ready.version ++ ", not " ++ version
    | none => do
      inspect poll.inspect watch
      if !poll.running && (poll.status = "exited" || poll.status = "dead") then
        return ("the new agent exited (code " ++ toString poll.exitCode ++ ")")
      else if poll.restarting || 0 < poll.restartCount then
        return ("the new agent exited (code " ++ toString poll.exitCode ++ ") and was restarting")
      else waitReady jobId version timeout watch polls

/-- `_upgrade` from the successor's start to the end. -/
def settle (fate : Fate) (jobId version : String) (timeout : ℕ) (old : Container) (newId : String) :
    Act String := do
  writeStatus jobId "waiting_ready" ""
  let why ← waitReady jobId version timeout newId fate.polls
  if why ≠ "" then do
    restore fate old.id old.name (some newId)
    writeStatus jobId "rolled_back" why
    return "rolled_back"
  else do
    remove fate.removeOld old.id
    writeStatus jobId "done" ""
    return "done"

def upgrade (fate : Fate) (jobId ref version : String) (timeout : ℕ) : Act String := do
  let old ← prepare fate jobId ref version
  writeStatus jobId "swapping" ""
  swapOut fate old
  match ← (bringUp fate old.name ref version).attempt with
  | .error reason => do
    restore fate old.id old.name none
    writeStatus jobId "rolled_back" ("the new container would not start: " ++ reason)
    return "rolled_back"
  | .ok newId => settle fate jobId version timeout old newId

def restart (fate : Fate) (jobId version : String) (timeout : ℕ) : Act String := do
  let agent ← theAgent fate
  writeStatus jobId "swapping" ""
  stop fate.stop agent.id
  start fate.start agent.id
  writeStatus jobId "waiting_ready" ""
  let why ← waitReady jobId version timeout agent.id fate.polls
  if why ≠ "" then do
    writeStatus jobId "failed" why
    return "failed"
  else do
    writeStatus jobId "done" ""
    return "done"

def Request.matches (request : Request) (upgrades : Upgrades) : Bool :=
  request.repository = upgrades.repository && Python.isDigest request.digest &&
    Python.isVersion request.version

def carryOut (fate : Fate) (request : Request) : Option Upgrades → Act String
  | none => Act.raise (.refused "policy.yaml does not enable `upgrades:`")
  | some upgrades =>
    if request.op = "restart" then restart fate request.jobId request.version upgrades.readyTimeoutS
    else if request.op ≠ "upgrade" then
      Act.raise (.refused ("unknown operation '" ++ request.op ++ "'"))
    else if !request.matches upgrades then
      Act.raise (.refused
        "the request does not match policy.yaml (repository, digest or version)")
    else
      upgrade fate request.jobId (request.repository ++ "@" ++ request.digest) request.version
        upgrades.readyTimeoutS

def handle (fate : Fate) (request : Request) (upgrades : Option Upgrades) : Act String := fun w =>
  match carryOut fate request upgrades w with
  | (.error (.refused reason), after) =>
    (do writeStatus request.jobId "failed" reason; return "failed" : Act String) after
  | (.error (.docker reason), after) =>
    (do writeStatus request.jobId "failed" ("Docker refused: " ++ reason)
        return "failed" : Act String) after
  | result => result

/-- One pass of the main loop. `policy` is what `load_upgrades` answers (`none` inside for a
policy without upgrades) or the text it refuses with; `dies` a kill before the request is
looked at. What escapes `tick` ends the pass, not the updater. -/
structure Pass where
  dies : Bool
  policy : Except String (Option Upgrades)
  fate : Fate

def tick (request : Option Request) (pass : Pass) (w : World) : World :=
  match request with
  | none => w
  | some request =>
    if pass.dies || request.jobId = "" then w
    else if w.status.any fun status => status.jobId = request.jobId then w
    else
      match pass.policy with
      | .error reason => (writeStatus request.jobId "failed" reason w).2
      | .ok upgrades => (handle pass.fate request upgrades w).2

def ticks (request : Option Request) (passes : List Pass) (w : World) : World :=
  passes.foldl (fun w pass => tick request pass w) w

end Updater
