import VmDashboard.Machine.System
import VmDashboard.Machine.Table
import VmDashboard.Gateways.Placement
import Mathlib.Data.List.Dedup

/-!
# The shared gateway host (`services/jumpoint_host_service.py`)

`ensure_jumpoint_host` without a name and `teardown_jumpoint_host_if_idle`, cut at their cloud
calls, between the deploys that borrow the host and the destroys that release it. Every cloud
call succeeds and tells the truth.
-/

namespace Gateways
open Machine (System Table)
open Python (strip lower orDefault)

inductive VmDeploy
  | ec2 | gce | azure | oci
  deriving DecidableEq

def VmDeploy.cloud : VmDeploy → Cloud
  | .ec2 => .aws
  | .gce => .gcp
  | .azure => .azure
  | .oci => .oci

inductive DbStatus
  | provisioning | available | decommissioned
  deriving DecidableEq

inductive DbSource
  | provisioned | registered
  deriving DecidableEq

/-- What a resource that borrows the gateway shows in the database: its row, or its config keys. -/
inductive Row
  | database (cloud : Cloud) (status : DbStatus) (source : Option DbSource)
  | deployJob (jobType : VmDeploy) (completed destroyed : Bool) (jumpointHostId : Option ℕ)
  /-- `pra_jump_id` of a cluster -/
  | praTunnel (cluster : ℕ) (cloud : Cloud) (praJumpId : Option ℕ)
  /-- `k8s_api_tunnel_jump_<cluster>` -/
  | apiTunnel (cluster : ℕ) (cloud : Cloud) (jump : Option ℕ)
  | desktop (cloud : Cloud) (praJumpId : Option ℕ)
  /-- `ot_tunnel_jump_<slug>` and the `cloud` of its meta row -/
  | otTunnel (cloud : Cloud) (jump : Option ℕ)
  deriving DecidableEq

def Row.cloud : Row → Cloud
  | .database cloud .. | .praTunnel _ cloud _ | .apiTunnel _ cloud _ | .desktop cloud _
  | .otTunnel cloud _ => cloud
  | .deployJob jobType .. => jobType.cloud

/-! ### The counts -/

def activeDbCount (rows : List Row) (cloud : Cloud) : ℕ :=
  rows.countP fun row => match row with
    | .database c status source =>
      c = cloud && status ≠ .decommissioned && source.getD .provisioned ≠ .registered
    | _ => false

/-- `_active_ec2_count` and `_active_oci_count`. -/
def activeDeployCount (jobType : VmDeploy) (rows : List Row) : ℕ :=
  rows.countP fun row => match row with
    | .deployJob t completed destroyed _ => t = jobType && completed && !destroyed
    | _ => false

/-- `_active_gce_count` and `_active_azure_vm_count`. -/
def activeBorrowerCount (jobType : VmDeploy) (rows : List Row) : ℕ :=
  rows.countP fun row => match row with
    | .deployJob t completed destroyed host =>
      t = jobType && completed && !destroyed && host.isSome
    | _ => false

def activeVmCount (rows : List Row) : Cloud → ℕ
  | .aws => activeDeployCount .ec2 rows
  | .gcp => activeBorrowerCount .gce rows
  | .azure => activeBorrowerCount .azure rows
  | .oci => activeDeployCount .oci rows

/-- The cluster of a row with a live tunnel. -/
def Row.tunnelled (cloud : Cloud) : Row → Option ℕ
  | .praTunnel cluster c jump | .apiTunnel cluster c jump =>
    if c = cloud ∧ jump.isSome then some cluster else none
  | _ => none

def activeK8sCount (rows : List Row) (cloud : Cloud) : ℕ :=
  (rows.filterMap (Row.tunnelled cloud)).dedup.length

def activeVdesktopCount (rows : List Row) (cloud : Cloud) : ℕ :=
  rows.countP fun row => match row with
    | .desktop c jump => c = cloud && jump.isSome
    | _ => false

def activeOtTunnelCount (rows : List Row) (cloud : Cloud) : ℕ :=
  rows.countP fun row => match row with
    | .otTunnel c jump => c = cloud && jump.isSome
    | _ => false

def Cloud.name : Cloud → String
  | .aws => "aws"
  | .gcp => "gcp"
  | .azure => "azure"
  | .oci => "oci"

/-- The enabled flag, the jump id and the cloud of the two management UIs. -/
def webJumpKeys : List (String × String × String) :=
  [("rancher_ui_web_jump_enabled", "rancher_ui_web_jump_id", "rancher_ui_jumpoint_cloud"),
    ("portainer_ui_web_jump_enabled", "portainer_ui_web_jump_id", "portainer_ui_jumpoint_cloud")]

/-- The Web Jumps are settings here: none is made or removed in a run. -/
def activeWebJumpCount (cfg : Config) (cloud : Cloud) : ℕ :=
  webJumpKeys.countP fun (enabled, jumpId, cloudKey) =>
    cfg.getBool enabled && strip (cfg.get jumpId) ≠ "" &&
      lower (strip (orDefault (cfg.get cloudKey) "gcp")) = cloud.name

/-- The sum each teardown computes. -/
def activeCount (cfg : Config) (rows : List Row) (cloud : Cloud) : ℕ :=
  activeDbCount rows cloud + activeVmCount rows cloud + activeK8sCount rows cloud +
    activeVdesktopCount rows cloud + activeWebJumpCount cfg cloud + activeOtTunnelCount rows cloud

/-! ### Hosts -/

/-- A managed host; its name is the same in every region. -/
structure Host where
  id : ℕ
  cloud : Cloud
  place : String
  deriving DecidableEq

/-- The host an ensure for `region` finds. -/
def findHost (cfg : Config) (cloud : Cloud) (region : String) (hosts : List Host) : Option Host :=
  let hosts := hosts.filter fun host => host.cloud = cloud
  match cloud with
  | .aws => hosts.find? fun host => host.place = region
  | .gcp =>
    let launchRegion := gcpLaunchRegion cfg region
    (hosts.find? fun host => zonePrefix host.place = launchRegion) <|>
      hosts.find? fun host => host.place = gcpJumpointZone cfg region
  | .azure =>
    hosts.find? fun host =>
      host.place = azureHostResourceGroup cfg (azureGatewayLocation cfg region)
  | .oci => hosts.getLast?

/-- Where an ensure for `region` launches a host; on GCP in the zone that had capacity. -/
def launchPlace (cfg : Config) (cloud : Cloud) (region zone : String) : Option String :=
  match cloud with
  | .aws => some region
  | .gcp =>
    if zone = gcpJumpointZone cfg region ∨ zonePrefix zone = gcpLaunchRegion cfg region then some zone
    else none
  | .azure => some (azureHostResourceGroup cfg (azureGatewayLocation cfg region))
  | .oci => some (ociCompartment cfg)

/-- GCE refuses a second instance of one name in a zone, and Azure updates the one in the group. -/
def Cloud.namesOnce : Cloud → Bool
  | .gcp | .azure => true
  | .aws | .oci => false

/-- A launch: the host it ends with, and the hosts that stand then. -/
def launchHost (cloud : Cloud) (place : String) (next : ℕ) (hosts : List Host) :
    ℕ × List Host :=
  let standing := hosts.find? fun host => host.cloud = cloud && host.place = place
  match standing.filter fun _ => cloud.namesOnce with
  | some host => (host.id, hosts)
  | none => (next, hosts ++ [⟨next, cloud, place⟩])

/-- The hosts the idle teardown for `region` deletes. -/
def reapedHosts (cfg : Config) (cloud : Cloud) (region : String) (hosts : List Host) : List ℕ :=
  let hosts := hosts.filter fun host => host.cloud = cloud
  match cloud with
  | .aws => (hosts.filter fun host => host.place = region).map Host.id
  | .gcp =>
    if gcpProject cfg = "" then []
    else (hosts.filter fun host => host.place = gcpJumpointZone cfg region).map Host.id
  | .azure =>
    let rg := cfg.get "azure_resource_group"
    if rg = "" then [] else (hosts.filter fun host => host.place = rg).map Host.id
  | .oci =>
    if ociCompartment cfg = "" then [] else (hosts.getLast?.map Host.id).toList

/-! ### Deploys and destroys -/

inductive Kind
  | database (cloud : Cloud)
  | vm (jobType : VmDeploy)
  | praTunnel (cluster : ℕ) (cloud : Cloud)
  | apiTunnel (cluster : ℕ) (cloud : Cloud)
  | desktop (cloud : Cloud)
  | otTunnel (cloud : Cloud)
  deriving DecidableEq

/-- The row while its deploy runs. -/
def Kind.born : Kind → Row
  | .database cloud => .database cloud .provisioning (some .provisioned)
  | .vm jobType => .deployJob jobType false false none
  | .praTunnel cluster cloud => .praTunnel cluster cloud none
  | .apiTunnel cluster cloud => .apiTunnel cluster cloud none
  | .desktop cloud => .desktop cloud none
  | .otTunnel cloud => .otTunnel cloud none

/-- The row when the deploy is through. -/
def Row.recorded (row : Row) (host : Option ℕ) (jump : ℕ) : Row :=
  match row with
  | .database cloud _ source => .database cloud .available source
  | .deployJob jobType _ destroyed _ => .deployJob jobType true destroyed host
  | .praTunnel cluster cloud _ => .praTunnel cluster cloud (some jump)
  | .apiTunnel cluster cloud _ => .apiTunnel cluster cloud (some jump)
  | .desktop cloud _ => .desktop cloud (some jump)
  | .otTunnel cloud _ => .otTunnel cloud (some jump)

/-- The row when the resource is gone, written before the teardown is asked for. -/
def Row.destroyed : Row → Row
  | .database cloud _ source => .database cloud .decommissioned source
  | .deployJob jobType completed _ host => .deployJob jobType completed true host
  | .praTunnel cluster cloud _ => .praTunnel cluster cloud none
  | .apiTunnel cluster cloud _ => .apiTunnel cluster cloud none
  | .desktop cloud _ => .desktop cloud none
  | .otTunnel cloud _ => .otTunnel cloud none

/-- Where the deploy of a resource is, and later its destroy. -/
inductive Work
  | started
  /-- AWS: the first lookup found no host -/
  | missing
  | launching
  | reusing (host : ℕ)
  /-- the ensure has returned -/
  | holding (host : Option ℕ)
  | live (host : Option ℕ)
  /-- destroyed, the teardown not yet begun -/
  | releasing
  /-- the teardown has found nothing active -/
  | reaping
  | terminating (hosts : List ℕ)
  | ended
  deriving DecidableEq

structure Resource where
  id : ℕ
  region : String
  row : Row
  work : Work
  deriving DecidableEq

structure State where
  resources : Table Resource.id
  hosts : List Host
  next : ℕ

def State.init : State := ⟨.empty, [], 0⟩

def State.rows (s : State) : List Row := s.resources.rows.map Resource.row

inductive Event
  | start (id : ℕ) (kind : Kind) (region : String)
  | look (id : ℕ)
  | recheck (id : ℕ)
  | launch (id : ℕ) (zone : String)
  | reuse (id : ℕ)
  | record (id jump : ℕ)
  | destroy (id : ℕ)
  | count (id : ℕ)
  | find (id : ℕ)
  | delete (id : ℕ)

def Resource.setWork (work : Work) (r : Resource) : Resource := { r with work }

def Resource.record (host : Option ℕ) (jump : ℕ) (r : Resource) : Resource :=
  { r with row := r.row.recorded host jump, work := .live host }

def Resource.destroy (r : Resource) : Resource := { r with row := r.row.destroyed, work := .releasing }

/-- The same resource after a move. -/
def State.set (s : State) (id : ℕ) (f : Resource → Resource) (hf : ∀ r, (f r).id = r.id) : State :=
  { s with resources := s.resources.modify id f hf }

def State.setWork (s : State) (id : ℕ) (work : Work) : State :=
  s.set id (Resource.setWork work) fun _ => rfl

/-- What an ensure does once a lookup is back. -/
def found (host : Option Host) (otherwise : Work) : Work :=
  match host with
  | some host => .reusing host.id
  | none => otherwise

def onLook (cfg : Config) (s : State) (r : Resource) : Option State :=
  if r.work = .started then
    let cloud := r.row.cloud
    if ready cfg cloud r.region then
      let otherwise := if cloud = .aws then .missing else .launching
      some (s.setWork r.id (found (findHost cfg cloud r.region s.hosts) otherwise))
    else some (s.setWork r.id (.holding none))
  else none

def onRecheck (cfg : Config) (s : State) (r : Resource) : Option State :=
  if r.work = .missing then
    some (s.setWork r.id (found (findHost cfg r.row.cloud r.region s.hosts) .launching))
  else none

def onLaunch (cfg : Config) (s : State) (r : Resource) (zone : String) : Option State :=
  if r.work = .launching then
    (launchPlace cfg r.row.cloud r.region zone).map fun place =>
      let (host, hosts) := launchHost r.row.cloud place s.next s.hosts
      { s.setWork r.id (.holding (some host)) with hosts, next := s.next + 1 }
  else none

def onReuse (s : State) (r : Resource) : Option State :=
  match r.work with
  | .reusing host => some (s.setWork r.id (.holding (some host)))
  | _ => none

def onRecord (s : State) (r : Resource) (jump : ℕ) : Option State :=
  match r.work with
  | .holding host => some (s.set r.id (Resource.record host jump) fun _ => rfl)
  | _ => none

def onDestroy (s : State) (r : Resource) : Option State :=
  match r.work with
  | .live _ => some (s.set r.id Resource.destroy fun _ => rfl)
  | _ => none

def onCount (cfg : Config) (s : State) (r : Resource) : Option State :=
  if r.work = .releasing then
    some (s.setWork r.id (if activeCount cfg s.rows r.row.cloud > 0 then .ended else .reaping))
  else none

/-- AWS and OCI look the hosts up and terminate what they found. -/
def onFind (cfg : Config) (s : State) (r : Resource) : Option State :=
  if r.work = .reaping ∧ r.row.cloud.namesOnce = false then
    some (s.setWork r.id (.terminating (reapedHosts cfg r.row.cloud r.region s.hosts)))
  else none

/-- GCP and Azure delete by name, the others what they found. -/
def deleted (cfg : Config) (s : State) (r : Resource) : Option (List ℕ) :=
  match r.work with
  | .reaping =>
    if r.row.cloud.namesOnce then some (reapedHosts cfg r.row.cloud r.region s.hosts) else none
  | .terminating hosts => some hosts
  | _ => none

def onDelete (cfg : Config) (s : State) (r : Resource) : Option State :=
  (deleted cfg s r).map fun ids =>
    let gone := fun host : Host => host.cloud = r.row.cloud ∧ host.id ∈ ids
    { s.setWork r.id .ended with hosts := s.hosts.filter fun host => ¬gone host }

def step (cfg : Config) (s : State) : Event → Option State
  | .start id kind region =>
    (s.resources.insert ⟨id, region, kind.born, .started⟩).map fun resources => { s with resources }
  | .look id => (s.resources.lookup id).bind fun r => onLook cfg s r
  | .recheck id => (s.resources.lookup id).bind fun r => onRecheck cfg s r
  | .launch id zone => (s.resources.lookup id).bind fun r => onLaunch cfg s r zone
  | .reuse id => (s.resources.lookup id).bind fun r => onReuse s r
  | .record id jump => (s.resources.lookup id).bind fun r => onRecord s r jump
  | .destroy id => (s.resources.lookup id).bind fun r => onDestroy s r
  | .count id => (s.resources.lookup id).bind fun r => onCount cfg s r
  | .find id => (s.resources.lookup id).bind fun r => onFind cfg s r
  | .delete id => (s.resources.lookup id).bind fun r => onDelete cfg s r

def gateways (cfg : Config) : System State Event := ⟨step cfg⟩

end Gateways
