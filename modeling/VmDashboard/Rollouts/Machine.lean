import VmDashboard.Rollouts.Fleet

/-!
# Rollouts, commit by commit

A call of `start_rollout` or `advance_rollouts` commits inside `create_job`,
once for every job it queues, so other processes see it half done. A step runs
one call from one commit to the next: what it reads it reads at once, what it
writes the others see at its end. `Work` is a call between two commits, in the
middle of one ring of one rollout; `log` records which ring queued which job.
-/

namespace Rollouts
open Machine (Table)
open Python (Instant Dict orNone)

inductive Origin
  | start
  /-- A pass of `advance_rollouts`, with the rollouts it still has to look at. -/
  | sweep (rest : List String)

structure Work where
  id : ℕ
  call : RingCall
  pending : List String
  queued : List String
  skipped : Dict
  origin : Origin

structure Queued where
  rollout : String
  ring : Ring
  agent : String
  job : String
  deriving DecidableEq

structure State where
  db : Db
  works : Table Work.id
  log : List Queued

/-- What the rest of the world supplies to a call between two commits: the uuid and the time of
the job it queues, and what `schedule_kwargs` answers for a rollout's window. -/
structure Segment where
  jobId : String
  now : Instant
  schedules : String → Except String Schedule

inductive Progress
  /-- The call has committed a job, or has come to its end. -/
  | committed (s : State)
  /-- The ring is through, and nothing is committed yet. -/
  | through (w : Work)
  /-- An exception: what is not committed is rolled back. -/
  | raised

def State.setRollout (s : State) (id : String) (f : Rollout → Rollout)
    (hf : ∀ r, (f r).id = r.id) : State :=
  { s with db := { s.db with rollouts := s.db.rollouts.modify id f hf } }

/-- A job row and, with the commit, where the call goes on. `none` where the uuid is taken. -/
def State.queueJob (s : State) (seg : Segment) (w : Work) (agent : String)
    (request : Jobs.JobRequest) (pending : List String) (skipped : Dict) : Option State :=
  (s.db.jobs.insert (Jobs.createJob seg.jobId seg.now none request)).map fun jobs =>
    { db := { s.db with jobs }
      works := s.works.put { w with pending, skipped, queued := w.queued ++ [seg.jobId] }
      log := s.log ++ [⟨w.call.rollout, w.call.which, agent, seg.jobId⟩] }

/-- `_queue_ring` up to the next commit. -/
def State.runRing (s : State) (seg : Segment) (w : Work) : Option Progress :=
  match s.db.rollouts.lookup w.call.rollout with
  | none => some .raised
  | some row =>
    match s.db.releases.lookup row.releaseId with
    | none => some .raised
    | some release =>
      match w.call.walk s.db release w.skipped w.pending with
      | .raised => some .raised
      | .finished skipped => some (.through { w with pending := [], skipped })
      | .queued agent request pending skipped =>
        (s.queueJob seg w agent request pending skipped).map .committed

def Rollout.close (w : Work) (row : Rollout) : Rollout :=
  { row with skipped := w.skipped, defaultJobIds := w.queued, status := .default }

def Rollout.record (w : Work) (skipped : Dict) (row : Rollout) : Rollout :=
  { row with skipped, canaryJobIds := w.queued }

/-- The end of `_advance_to_default`; the call has no ring under way any more. -/
def State.closeDefault (s : State) (w : Work) : State :=
  { s.setRollout w.call.rollout (Rollout.close w) fun _ => rfl with works := s.works.erase w.id }

def Rollout.stop (now : Instant) (detail : String) (row : Rollout) : Rollout :=
  { row with status := .stopped, detail := some detail, finishedAt := some now }

def Rollout.finish (now : Instant) (row : Rollout) : Rollout :=
  { row with status := .done, finishedAt := some now }

def Rollout.note (detail : Option String) (row : Rollout) : Rollout :=
  { row with detail := detail.or row.detail }

def failureDetail (db : Db) (job : Jobs.Job) : String :=
  let agent := job.agentId.getD "None"
  "stopped: the upgrade of " ++ (((db.agents.lookup agent).map RemoteAgent.name).getD agent) ++ " " ++
    job.status.text ++ (match job.errorMessage with
      | none | some "" => ""
      | some message => ": " ++ message)

/-- The call of `_advance_to_default` on a rollout the pass finds done. -/
def defaultCall (row : Rollout) (schedule : Schedule) : RingCall where
  rollout := row.id
  which := .default
  actor := if row.createdBy = "" then "rollout" else row.createdBy
  schedule := schedule

/-- The call at the beginning of its ring, in a pass that has `rest` still to look at. -/
def defaultWork (db : Db) (proc : ℕ) (row : Rollout) (schedule : Schedule) (rest : List String) :
    Work where
  id := proc
  call := defaultCall row schedule
  pending := (activeAgents db).map RemoteAgent.id
  queued := []
  skipped := row.skipped
  origin := .sweep rest

/-- `_schedule_for_default`, and the note where it raises. -/
def scheduleForDefault (seg : Segment) (row : Rollout) : Schedule × Option String :=
  if row.changeWindowId.getD "" = "" then ({}, none)
  else
    match seg.schedules row.id with
    | .ok schedule => (schedule, none)
    | .error reason => ({}, some ("default ring queued now: " ++ reason))

/-- The loop of `advance_rollouts` over the rollouts still to come, with those it looks at. -/
def sweepLoop (seg : Segment) (proc : ℕ) : List String → State → List String →
    Option (Progress × List String)
  | [], s, seen => some (.committed s, seen)
  | id :: rest, s, seen =>
    let seen := seen ++ [id]
    match s.db.rollouts.lookup id with
    | none => some (.raised, seen)
    | some row =>
      match ringState s.db (if row.status = .canary then row.canaryJobIds else row.defaultJobIds) with
      | (_, some failed) =>
        sweepLoop seg proc rest
          (s.setRollout id (Rollout.stop seg.now (failureDetail s.db failed)) fun _ => rfl) seen
      | (false, none) => sweepLoop seg proc rest s seen
      | (true, none) =>
        if row.status ≠ .canary then
          sweepLoop seg proc rest (s.setRollout id (Rollout.finish seg.now) fun _ => rfl) seen
        else if (s.db.releases.lookup row.releaseId).isNone then
          sweepLoop seg proc rest
            (s.setRollout id (Rollout.stop seg.now "stopped: the release was deleted") fun _ => rfl) seen
        else
          let (schedule, note) := scheduleForDefault seg row
          let s := s.setRollout id (Rollout.note note) fun _ => rfl
          match s.runRing seg (defaultWork s.db proc row schedule rest) with
          | none => none
          | some (.through w) => sweepLoop seg proc rest (s.closeDefault w) seen
          | some progress => some (progress, seen)

/-- A call of `start_rollout` after one of its rings. -/
def State.afterStartRing (s : State) (seg : Segment) (w : Work) : Option Progress :=
  match w.call.which with
  | .default => some (.committed (s.closeDefault w))
  | .canary =>
    match s.db.rollouts.lookup w.call.rollout with
    | none => some .raised
    | some row =>
      if w.queued = [] then
        -- no canary to wait for: straight to everyone else
        let w : Work :=
          { w with
            call := defaultCall row w.call.schedule
            pending := (activeAgents s.db).map RemoteAgent.id }
        match s.runRing seg w with
        | some (.through w) => some (.committed (s.closeDefault w))
        | progress => progress
      else
        match s.db.releases.lookup row.releaseId with
        | none => some .raised
        | some release =>
          let skipped := previewDefault s.db release w.skipped
          let s := s.setRollout w.call.rollout (Rollout.record w skipped) fun _ => rfl
          some (.committed { s with works := s.works.erase w.id })

/-- A call from its commit to the next one. -/
def State.resume (s : State) (seg : Segment) (w : Work) : Option (Progress × List String) :=
  match s.runRing seg w with
  | none => none
  | some (.through w) =>
    match w.origin with
    | .start => (s.afterStartRing seg w).map fun progress => (progress, [])
    | .sweep rest => sweepLoop seg w.id rest (s.closeDefault w) []
  | some progress => some (progress, [])

/-- A raising call is over, and what it had not committed never happened. -/
def State.settle (s : State) (proc : ℕ) : Progress → State
  | .committed after => after
  | _ => { s with works := s.works.erase proc }

/-! ### The other operations -/

inductive JobChange
  | lease (now : Instant)
  | complete (agentId : String) (config : Jobs.RetryConfig) (now : Instant) (report : Jobs.Report)
  | cancel (now : Instant)
  | missWindow (now : Instant) (reason : String)
  /-- The agent holding the job is revoked. -/
  | revoke (config : Jobs.RetryConfig) (now : Instant)

/- `str(value or "")`; `none` for a collection, whose text is no version. -/
def textOf : Option Python.Json → Option String
  | none | some .null | some (.bool false) | some (.int 0) => some ""
  | some (.bool true) => some "True"
  | some (.int n) => some (toString n)
  | some (.str s) => some s
  | some (.arr items) => if items.isEmpty then some "" else none
  | some (.obj items) => if items.isEmpty then some "" else none

/-- An upgrade that completed on another version is recorded as failed. -/
def checkCompletion (job : Jobs.Job) (report : Jobs.Report) : Jobs.Report :=
  if job.jobType ≠ "agent_upgrade" || report.status ≠ "completed" then report
  else
    let wanted := textOf (job.metadata.get? "version")
    let got := textOf (report.result.get? "version")
    if got = wanted then report
    else
      let shown := match got with
        | some "" => "no version"
        | some version => version
        | none => "another value"
      { report with
        status := "failed"
        error := "the agent reported " ++ shown ++ " after the upgrade, not " ++ wanted.getD "" }

def JobChange.apply (change : JobChange) (job : Jobs.Job) : Jobs.Job :=
  match change with
  | .lease now => if job.status = .queued then (Jobs.Write.running now).apply job else job
  | .complete agentId config now report =>
    (Jobs.Write.complete agentId config now (checkCompletion job report)).apply job
  | .cancel now => (Jobs.Write.cancelled now).apply job
  | .missWindow now reason => (Jobs.Write.missedWindow now reason).apply job
  | .revoke config now =>
    if job.status = .running then
      (Jobs.Write.failed config now "Agent was revoked while it held this job." []).apply job
    else if job.status = .queued then (Jobs.Write.cancelled now).apply job
    else job

theorem JobChange.apply_same (change : JobChange) (job : Jobs.Job) :
    (change.apply job).Same job := by
  cases change with
  | lease now =>
    simp only [JobChange.apply]
    split
    · exact Jobs.Write.apply_same _ job
    · exact .refl job
  | complete agentId config now report =>
    exact Jobs.Write.apply_same (.complete agentId config now (checkCompletion job report)) job
  | cancel now => exact Jobs.Write.apply_same (.cancelled now) job
  | missWindow now reason => exact Jobs.Write.apply_same (.missedWindow now reason) job
  | revoke config now =>
    simp only [JobChange.apply]
    split
    · exact Jobs.Write.apply_same _ job
    · split
      · exact Jobs.Write.apply_same _ job
      · exact .refl job

/-- What an agent's requests and an operator change of its row, its ring apart. -/
structure AgentReport where
  isActive : Bool
  authMode : Option String
  agentVersion : String
  controlUpgrades : Bool
  controlUpdater : Bool
  paused : Bool
  workstream : Option String

def AgentReport.apply (report : AgentReport) (agent : RemoteAgent) : RemoteAgent :=
  { agent with
    isActive := report.isActive
    authMode := report.authMode
    agentVersion := report.agentVersion
    controlUpgrades := report.controlUpgrades
    controlUpdater := report.controlUpdater
    paused := report.paused
    workstream := report.workstream }

/-! ### Release edits (`services/agent_release_service.py`) -/

/-- `[a-z0-9]+(?:[._-][a-z0-9]+)*`. -/
def isNamePart (cs : List Char) : Bool :=
  let word (c : Char) : Bool := "abcdefghijklmnopqrstuvwxyz0123456789".toList.contains c
  (cs.splitOnP fun c => c = '.' || c = '_' || c = '-').all fun run => !run.isEmpty && run.all word

/-- `[a-z0-9.-]+(?::\d{1,5})?`. -/
def isRegistryHost (cs : List Char) : Bool :=
  let host (part : List Char) : Bool :=
    !part.isEmpty && part.all "abcdefghijklmnopqrstuvwxyz0123456789.-".toList.contains
  match cs.splitOn ':' with
  | [name] => host name
  | [name, port] => host name && !port.isEmpty && port.length ≤ 5 && port.all Python.isDecimal
  | _ => false

def isRepository (text : String) : Bool :=
  match (Python.beforeEnd text.toList).splitOn '/' with
  | [] => false
  | first :: rest =>
    (isNamePart first && rest.all isNamePart) ||
      (isRegistryHost first && !rest.isEmpty && rest.all isNamePart)

def validateRepository (repository : String) : Option String :=
  let name := Python.strip repository
  let name := if name = "" then defaultRepository else name
  if 200 < name.length || !isRepository name then none else some name

def validateRelease (version digest : String) : Option (String × String) :=
  let version := Python.strip version
  let digest := Python.lower (Python.strip digest)
  if Python.isVersion version && Python.isDigest digest then some (version, digest) else none

structure ReleaseRequest where
  version : String
  digest : String
  repository : String
  notes : String
  source : String
  actor : String

/-- A registry row whose tag was rebuilt: the digest moves, and the notes say so. -/
def Release.moveTo (today : String) (request : ReleaseRequest) (digest repository : String)
    (row : Release) : Release :=
  let short (digest : String) : String := String.ofList (digest.toList.take 19)
  let change := "Digest changed " ++ today ++ " by " ++ request.actor ++ ": " ++ short row.digest ++
    " -> " ++ short digest ++ " (tag rebuilt on Docker Hub)."
  let notes := match row.notes with
    | none | some "" => change
    | some notes => change ++ " " ++ notes
  { row with notes := some (String.ofList (notes.toList.take 2000)), digest, repository }

/-- `add`; a refusal leaves the table alone. `none` where the uuid is taken. -/
def addRelease (releases : Table Release.id) (id today : String) (request : ReleaseRequest) :
    Option (Table Release.id) :=
  match validateRelease request.version request.digest, validateRepository request.repository with
  | some (version, digest), some repository =>
    match releases.rows.find? fun row => row.version = version with
    | some existing =>
      if existing.digest = digest && existing.repository = repository then some releases
      else if request.source = "registry" && existing.source = "registry" then
        some (releases.modify existing.id (Release.moveTo today request digest repository)
          fun _ => rfl)
      else some releases
    | none =>
      releases.insert {
        id, version, repository, digest
        notes := orNone (String.ofList (request.notes.toList.take 2000))
        source := request.source
        createdBy := request.actor }
  | _, _ => some releases

/-- `delete`: refused while one of the release's rollouts is live. -/
def deleteRelease (db : Db) (releaseId : String) : Db :=
  if db.rollouts.rows.any fun row => row.releaseId = releaseId && row.status.live then db
  else
    { db with
      rollouts := ⟨db.rollouts.rows.filter fun row => row.releaseId ≠ releaseId,
        db.rollouts.nodup.sublist (List.Sublist.map _ List.filter_sublist)⟩
      releases := db.releases.erase releaseId }

/-! ### The system -/

inductive Event
  | start (proc : ℕ) (seg : Segment) (rolloutId releaseId actor changeWindowId : String)
    (schedule : Schedule)
  | sweep (proc : ℕ) (seg : Segment)
  | resume (proc : ℕ) (seg : Segment)
  | job (id : String) (change : JobChange)
  /-- A job of no rollout. -/
  | create (id : String) (now : Instant) (request : Jobs.JobRequest)
  | agent (id : String) (report : AgentReport)
  | enrol (agent : RemoteAgent)
  | add (id today : String) (request : ReleaseRequest)
  | delete (releaseId : String)
  | setLag (lag : ℕ) (workstreamLags : List (String × ℕ))

/-- The row and the call `start_rollout` begins with. -/
def startRow (rolloutId releaseId actor changeWindowId : String) : Rollout where
  id := rolloutId
  releaseId := releaseId
  changeWindowId := orNone changeWindowId
  status := .canary
  canaryJobIds := []
  defaultJobIds := []
  skipped := []
  detail := none
  createdBy := actor
  finishedAt := none

def startWork (db : Db) (proc : ℕ) (rolloutId actor : String) (schedule : Schedule) : Work where
  id := proc
  call := ⟨rolloutId, .canary, actor, schedule⟩
  pending := (activeAgents db).map RemoteAgent.id
  queued := []
  skipped := []
  origin := .start

/-- The step, and the rollouts a pass looks at in it. -/
def State.advance (s : State) : Event → Option (State × List String)
  | .start proc seg rolloutId releaseId actor changeWindowId schedule =>
    if (s.works.lookup proc).isSome || s.log.any fun q => q.rollout = rolloutId then none
    else if (s.db.releases.lookup releaseId).isNone then some (s, [])
    else
      (s.db.rollouts.insert (startRow rolloutId releaseId actor changeWindowId)).bind fun rollouts =>
        let begun := { s with db := { s.db with rollouts } }
        (begun.resume seg (startWork s.db proc rolloutId actor schedule)).map fun (progress, seen) =>
          (s.settle proc progress, seen)
  | .sweep proc seg =>
    if (s.works.lookup proc).isSome then none
    else
      (sweepLoop seg proc ((s.db.rollouts.rows.filter fun row => row.status.live).map Rollout.id)
        s []).map fun (progress, seen) => (s.settle proc progress, seen)
  | .resume proc seg =>
    (s.works.lookup proc).bind fun w =>
      (s.resume seg w).map fun (progress, seen) => (s.settle proc progress, seen)
  | .job id change =>
    some ({ s with db := { s.db with
      jobs := s.db.jobs.modify id change.apply fun job => (change.apply_same job).id } }, [])
  | .create id now request =>
    (s.db.jobs.insert (Jobs.createJob id now none request)).map fun jobs =>
      ({ s with db := { s.db with jobs } }, [])
  | .agent id report =>
    some ({ s with db := { s.db with
      agents := s.db.agents.modify id report.apply fun _ => rfl } }, [])
  | .enrol agent =>
    (s.db.agents.insert agent).map fun agents => ({ s with db := { s.db with agents } }, [])
  | .add id today request =>
    (addRelease s.db.releases id today request).map fun releases =>
      ({ s with db := { s.db with releases } }, [])
  | .delete releaseId => some ({ s with db := deleteRelease s.db releaseId }, [])
  | .setLag lag workstreamLags => some ({ s with db := { s.db with lag, workstreamLags } }, [])

def rolloutSystem : Machine.System State Event := ⟨fun s event => (s.advance event).map Prod.fst⟩

/-- No call under way and no rollout started. -/
def State.initial (db : Db) : State := ⟨db, .empty, []⟩

end Rollouts
