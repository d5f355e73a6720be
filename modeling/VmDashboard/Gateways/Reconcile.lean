import VmDashboard.Machine.System
import VmDashboard.Gateways.Registry

/-!
# Ensures, teardowns and reconcile passes

Each operation is cut at its cloud calls and at its commits. Every operation succeeds; of a
reconcile pass the look-up of a cloud may fail, or the whole pass may time out.
-/

namespace Gateways.Registry
open Machine (System Table)

inductive Task
  /-- `ensure_jumpoint_host` without a name -/
  | ensure (cloud : Cloud) (region : String)
  /-- `_run_deploy` -/
  | deploy (gatewayId : String) (cloud : Cloud) (region zone name : String)
  /-- `_run_teardown` -/
  | teardown (gatewayId : String) (cloud : Cloud) (region zone name : String)
  /-- `teardown_jumpoint_host_if_idle` with nothing left to use the host -/
  | idle (cloud : Cloud) (region : String)
  deriving DecidableEq

def Task.key (cfg : Config) : Task → Cloud × String
  | .ensure cloud _ | .idle cloud _ => (cloud, managedHostName cfg cloud)
  | .deploy _ cloud _ _ name | .teardown _ cloud _ _ name => (cloud, name)

def Task.region : Task → String
  | .ensure _ region | .idle _ region | .deploy _ _ region _ _ | .teardown _ _ region _ _ => region

def Task.zone : Task → String
  | .deploy _ _ _ zone _ | .teardown _ _ _ zone _ => zone
  | .ensure .. | .idle .. => ""

/-- The row a job was created with. -/
def Task.gatewayId : Task → Option String
  | .deploy id .. | .teardown id .. => some id
  | .ensure .. | .idle .. => none

def Task.ensures : Task → Bool
  | .ensure .. | .deploy .. => true
  | .teardown .. | .idle .. => false

/-- How far an operation has come. -/
inductive Stage
  | begun
  /-- no host was found -/
  | launching
  /-- the address of the new host is still to be read -/
  | launched (host : Host)
  | placed (host : Host)
  | recorded (host : Host)
  /-- the hosts are deleted, the row is not -/
  | removed
  deriving DecidableEq

def Stage.host : Stage → Option Host
  | .launched host | .placed host | .recorded host => some host
  | .begun | .launching | .removed => none

structure Op where
  id : String
  task : Task
  stage : Stage
  deriving DecidableEq

def Op.key (cfg : Config) (op : Op) : Cloud × String := op.task.key cfg

/-- The rows a pass has loaded, and the answers it has: `none` when the look-up raised. -/
structure Pass where
  id : String
  rows : List Gateway
  answers : List (Cloud × Option (List (String × Info)))
  deriving DecidableEq

structure State where
  hosts : Hosts
  rows : Rows
  ops : Table Op.id
  passes : Table Pass.id

def State.start : State := ⟨.empty, .empty, .empty, .empty⟩

inductive Event
  | ensure (op : String) (cloud : Cloud) (region : String)
  /-- `deploy_gateway`, with the region and the zone as it has normalised them -/
  | requestDeploy (op gatewayId : String) (cloud : Cloud) (region zone name : String)
  /-- `destroy_gateway` -/
  | requestTeardown (op gatewayId : String)
  | idle (op : String) (cloud : Cloud) (region : String)
  /-- an ensure looks for its host -/
  | look (op : String)
  /-- the id, the zone and the address the cloud gives a new host -/
  | launch (op hostId zone address : String)
  /-- the address of a launched host is read -/
  | learn (op : String)
  /-- `_persist_jumpoint_egress_ip` -/
  | record (op : String)
  /-- an ensure or a deploy writes its row, `gatewayId` if that is a new one -/
  | finish (op gatewayId : String)
  /-- a teardown deletes its hosts -/
  | remove (op : String)
  /-- a teardown writes its row -/
  | retire (op : String)
  | read (pass : String) (cloud : Option Cloud)
  | lookUp (pass : String) (cloud : Cloud) (serving : List (String × Bool))
  | lookUpFailed (pass : String) (cloud : Cloud)
  | write (pass : String)
  | timeOut (pass : String)
  deriving DecidableEq

def Op.advance (stage : Stage) (op : Op) : Op := { op with stage }

theorem Op.advance_id (stage : Stage) (op : Op) : (op.advance stage).id = op.id := rfl

def State.begin (s : State) (id : String) (task : Task) : Option State :=
  (s.ops.insert ⟨id, task, .begun⟩).map fun ops => { s with ops }

def State.advance (s : State) (id : String) (stage : Stage) : State :=
  { s with ops := s.ops.modify id (.advance stage) (Op.advance_id stage) }

/-- The operation is over and leaves `rows`. -/
def State.done (s : State) (id : String) (rows : Rows) : State :=
  { s with rows, ops := s.ops.erase id }

def provisioningRow (id : String) (cloud : Cloud) (region zone name : String) : Gateway :=
  ⟨id, cloud, orKeep region none, orKeep zone none, name, .provisioning, false, none, none, none⟩

def Gateway.deleting (row : Gateway) : Gateway := { row with status := .deleting }

/-- The row as `_run_deploy` leaves it. -/
def Gateway.deployed (cfg : Config) (region : String) (host : Host) (row : Gateway) : Gateway :=
  { row with
    status := .running
    hostId := some host.hostId
    error := none
    zone := orKeep (placementZone cfg region host) row.zone
    egressIp := orKeep host.address row.egressIp }

/-- On AWS the address is that of the first host with the name tag, elsewhere the new host's own. -/
def learnAddress (cfg : Config) (hosts : Hosts) (task : Task) (host : Host) : Option String :=
  match host.cloud with
  | .aws => some (((findHost cfg hosts .aws task.region task.zone host.name).map Host.address).getD "")
  | _ => (hosts.lookup host.id).map Host.address

/-- The rows after an ensure or a deploy has written its own. -/
def finishRows (cfg : Config) (rows : Rows) (task : Task) (host : Host) (newId : String) :
    Option Rows :=
  match task with
  | .ensure cloud region =>
    adoptManaged rows cloud region (managedHostName cfg cloud) host.hostId host.address newId
  | .deploy gatewayId _ region _ _ =>
    some (rows.modify gatewayId (.deployed cfg region host) fun _ => rfl)
  | _ => none

/-- The hosts a teardown deletes; `teardown_gateway` refuses the managed name. -/
def removedHosts (cfg : Config) (hosts : Hosts) : Task → Option (List Host)
  | .teardown _ cloud region zone name =>
    if name = managedHostName cfg cloud then none
    else some (teardownHosts cfg hosts cloud region zone name)
  | .idle cloud region => some (idleHosts cfg hosts cloud region)
  | _ => none

/-- The rows after a teardown has written its own. -/
def retireRows (cfg : Config) (rows : Rows) : Task → Option Rows
  | .teardown gatewayId .. => some (rows.modify gatewayId Gateway.retire Gateway.retire_id)
  | .idle cloud _ => some (markDeleted rows (cloud, managedHostName cfg cloud))
  | _ => none

def Hosts.without (hosts : Hosts) (removed : List Host) : Hosts :=
  hosts.filter fun host => host ∉ removed

/-! ### Passes -/

/-- The rows that `reconcile` reads; without a cloud, those of every one. -/
def verifiableRows (rows : Rows) (cloud : Option Cloud) : List Gateway :=
  rows.rows.filter fun row => row.status.verifiable && cloud.all (row.cloud = ·)

def Pass.rowsOf (pass : Pass) (cloud : Cloud) : List Gateway :=
  pass.rows.filter fun row => row.cloud = cloud

def Pass.answer (cloud : Cloud) (live : Option (List (String × Info))) (pass : Pass) : Pass :=
  { pass with answers := pass.answers ++ [(cloud, live)] }

/-- A pass waits for the answer of `cloud`. -/
def Pass.asks (pass : Pass) (cloud : Cloud) : Bool :=
  pass.rowsOf cloud ≠ [] && (pass.answers.lookup cloud).isNone

/-- What a pass makes of a row that it has read. -/
def Pass.verdict (pass : Pass) (row : Gateway) : Gateway :=
  match pass.answers.lookup row.cloud with
  | some (some live) => applyLive row (lookupLast live row.name)
  | _ => row

/-- A row under the flush of a pass. -/
def Pass.apply (pass : Pass) (row : Gateway) : Gateway :=
  match pass.rows.find? fun loaded => loaded.id = row.id with
  | some loaded => flush loaded (pass.verdict loaded) row
  | none => row

theorem Pass.apply_id (pass : Pass) (row : Gateway) : (pass.apply row).id = row.id := by
  unfold Pass.apply
  split <;> rfl

/-- Every cloud of the rows has been looked up. -/
def Pass.answered (pass : Pass) : Bool :=
  pass.rows.all fun row => (pass.answers.lookup row.cloud).isSome

def State.step (cfg : Config) (s : State) : Event → Option State
  | .ensure op cloud region =>
    if ready cfg cloud region then s.begin op (.ensure cloud region) else none
  | .requestDeploy op gatewayId cloud region zone name =>
    match validateName cfg s.rows cloud name with
    | .error _ => none
    | .ok name =>
      if ready cfg cloud region then
        (s.rows.insert (provisioningRow gatewayId cloud region zone name)).bind fun rows =>
          { s with rows }.begin op (.deploy gatewayId cloud region zone name)
      else none
  | .requestTeardown op gatewayId =>
    match s.rows.lookup gatewayId with
    | some row =>
      if row.status = .deleted ∨ row.managed then none
      else
        { s with rows := s.rows.modify gatewayId Gateway.deleting fun _ => rfl }.begin op
          (.teardown gatewayId row.cloud (row.region.getD "") (row.zone.getD "") row.name)
    | none => none
  | .idle op cloud region => if canReap cfg cloud then s.begin op (.idle cloud region) else none
  | .look op =>
    match s.ops.lookup op with
    | some ⟨_, task, .begun⟩ =>
      if task.ensures then
        match findHost cfg s.hosts (task.key cfg).1 task.region task.zone (task.key cfg).2 with
        | some host => some (s.advance op (.placed host))
        | none => some (s.advance op .launching)
      else none
    | _ => none
  | .launch op hostId zone address =>
    match s.ops.lookup op with
    | some ⟨_, task, .launching⟩ =>
      (launchPlace cfg (task.key cfg).1 task.region task.zone zone).bind fun place =>
        (launchHost s.hosts ⟨hostId, (task.key cfg).1, place, (task.key cfg).2, address⟩).map
          fun (host, hosts) => { s with hosts }.advance op (.launched host)
    | _ => none
  | .learn op =>
    match s.ops.lookup op with
    | some ⟨_, task, .launched host⟩ =>
      (learnAddress cfg s.hosts task host).map fun address =>
        s.advance op (.placed { host with address })
    | _ => none
  | .record op =>
    match s.ops.lookup op with
    | some ⟨_, task, .placed host⟩ =>
      some ({ s with rows := recordEgressIp s.rows (task.key cfg) host.address }.advance op
        (.recorded host))
    | _ => none
  | .finish op gatewayId =>
    match s.ops.lookup op with
    | some ⟨_, task, .recorded host⟩ =>
      (finishRows cfg s.rows task host gatewayId).map (s.done op)
    | _ => none
  | .remove op =>
    match s.ops.lookup op with
    | some ⟨_, task, .begun⟩ =>
      (removedHosts cfg s.hosts task).map fun removed =>
        { s with hosts := s.hosts.without removed }.advance op .removed
    | _ => none
  | .retire op =>
    match s.ops.lookup op with
    | some ⟨_, task, .removed⟩ => (retireRows cfg s.rows task).map (s.done op)
    | _ => none
  | .read pass cloud =>
    (s.passes.insert ⟨pass, verifiableRows s.rows cloud, []⟩).map fun passes => { s with passes }
  | .lookUp pass cloud serving =>
    match s.passes.lookup pass with
    | some p =>
      if p.asks cloud then
        some { s with
          passes := s.passes.modify pass
            (.answer cloud (liveHosts cfg s.hosts cloud (p.rowsOf cloud) serving)) fun _ => rfl }
      else none
    | none => none
  | .lookUpFailed pass cloud =>
    match s.passes.lookup pass with
    | some p =>
      if p.asks cloud then
        some { s with passes := s.passes.modify pass (.answer cloud none) fun _ => rfl }
      else none
    | none => none
  | .write pass =>
    match s.passes.lookup pass with
    | some p =>
      if p.answered then
        some { s with rows := s.rows.map p.apply p.apply_id, passes := s.passes.erase pass }
      else none
    | none => none
  | .timeOut pass => some { s with passes := s.passes.erase pass }

def registrySystem (cfg : Config) : System State Event := ⟨State.step cfg⟩

end Gateways.Registry
