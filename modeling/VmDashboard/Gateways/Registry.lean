import VmDashboard.Machine.Table
import VmDashboard.Gateways.Placement
import Mathlib.Data.List.Dedup
import Mathlib.Data.List.Sort

/-!
# The gateway registry (`services/gateway_service.py`)

The rows of the table `gateways`, what the ensure and the teardowns write to them, and what a
reconcile pass makes of one row. The hosts that the rows describe stand in the cloud; the look-ups
of `services/jumpoint_host_service.py` are functions of them.
-/

namespace Gateways.Registry
open Machine (Table)
open Python (strip lower isDecimal orDefault)

inductive Status
  | provisioning | running | degraded | missing | error | deleting | deleted
  deriving DecidableEq

/-- `GONE_STATUSES` -/
def Status.gone (status : Status) : Bool := status ∈ [deleted, missing]

/-- `VERIFIABLE_STATUSES` -/
def Status.verifiable (status : Status) : Bool := status ∈ [running, degraded, missing]

structure Gateway where
  id : String
  cloud : Cloud
  region : Option String
  zone : Option String
  name : String
  status : Status
  managed : Bool
  hostId : Option String
  egressIp : Option String
  error : Option String
  deriving DecidableEq

abbrev Rows := Table Gateway.id

/-- What the registry knows a gateway by. -/
def Gateway.key (row : Gateway) : Cloud × String := (row.cloud, row.name)

/-- Python's `value or old` for a column. -/
def orKeep (value : String) (old : Option String) : Option String :=
  if value = "" then old else some value

/-- `sorted` of a set -/
def sortedSet (values : List String) : List String := values.dedup.insertionSort (· ≤ ·)

def liveEgressIps (rows : Rows) (cloud : Cloud) : List String :=
  sortedSet (((rows.rows.filter fun row => row.cloud = cloud && !row.status.gone).map
    fun row => strip (row.egressIp.getD "")).filter (· ≠ ""))

/-- The first row that is not deleted. -/
def Rows.current (rows : Rows) (key : Cloud × String) : Option Gateway :=
  rows.rows.find? fun row => row.key = key && row.status ≠ .deleted

def Gateway.setEgressIp (egressIp : String) (row : Gateway) : Gateway :=
  { row with egressIp := some egressIp }

def recordEgressIp (rows : Rows) (key : Cloud × String) (egressIp : String) : Rows :=
  if egressIp = "" then rows
  else
    match rows.current key with
    | none => rows
    | some row =>
      if row.egressIp.getD "" = egressIp then rows
      else rows.modify row.id (.setEgressIp egressIp) fun _ => rfl

def Gateway.retire (row : Gateway) : Gateway := { row with status := .deleted, egressIp := none }

theorem Gateway.retire_id (row : Gateway) : row.retire.id = row.id := rfl

def markDeleted (rows : Rows) (key : Cloud × String) : Rows :=
  match rows.current key with
  | none => rows
  | some row => rows.modify row.id Gateway.retire fun _ => rfl

def Gateway.adopt (region hostId egressIp : String) (row : Gateway) : Gateway :=
  { row with
    status := .running
    region := orKeep region row.region
    hostId := orKeep hostId row.hostId
    egressIp := orKeep egressIp row.egressIp
    error := none }

/-- A row as `adopt_managed` makes it, before it is refreshed. -/
def managedRow (id : String) (cloud : Cloud) (region name : String) : Gateway :=
  ⟨id, cloud, some region, none, name, .provisioning, true, none, none, none⟩

/-- `adopt_managed`; `id` is the new row's. -/
def adoptManaged (rows : Rows) (cloud : Cloud) (region name hostId egressIp id : String) :
    Option Rows :=
  match rows.rows.find? fun row => row.key = (cloud, name) with
  | some row => some (rows.modify row.id (.adopt region hostId egressIp) fun _ => rfl)
  | none => rows.insert ((managedRow id cloud region name).adopt region hostId egressIp)

/-! ### Names -/

/-- `[a-z0-9-]` -/
def isNameChar (c : Char) : Bool := isLetter c || ('0' ≤ c && c ≤ '9') || c = '-'

/-- `re.sub(r"[^a-z0-9-]+", "-", raw)`; `inRun` in the middle of a run. -/
def dashRuns : Bool → List Char → List Char
  | _, [] => []
  | inRun, c :: cs =>
    if isNameChar c then c :: dashRuns false cs
    else if inRun then dashRuns true cs else '-' :: dashRuns true cs

def stripDashes (cs : List Char) : List Char :=
  ((cs.dropWhile (· = '-')).reverse.dropWhile (· = '-')).reverse

def gcpJumpointName (cfg : Config) : String :=
  let raw := lower (strip (orDefault (cfg.get "gcp_jumpoint_name") "clouddb-shared-jumpoint"))
  let name := stripDashes (dashRuns false raw.toList)
  let name :=
    if name.head?.any isLetter then name else stripDashes ("clouddb-".toList ++ name)
  orDefault (String.ofList ((name.take 63).reverse.dropWhile (· = '-')).reverse)
    "clouddb-shared-jumpoint"

def managedHostName (cfg : Config) : Cloud → String
  | .gcp => gcpJumpointName cfg
  | .azure => "clouddb-jumpoint"
  | .oci => strip (orDefault (cfg.get "oci_jumpoint_host_name") "oci-shared-jumpoint")
  | .aws => orDefault (cfg.get "bt_ecs_host_name") "dashboard-sandbox-jumpoint-host"

def existingNames (cfg : Config) (rows : Rows) (cloud : Cloud) : List String :=
  ((rows.rows.filter fun row => row.cloud = cloud && row.status ≠ .deleted).map Gateway.name) ++
    [managedHostName cfg cloud]

def nameLimit : Cloud → ℕ
  | .aws | .oci => 255
  | .azure => 15
  | .gcp => 63

/-- `^[a-z]([a-z0-9-]*[a-z0-9])?$` -/
def isRfc1035 (name : String) : Bool :=
  name.toList.head?.any isLetter && name.toList.all isNameChar &&
    name.toList.getLast?.any (· ≠ '-')

/-- Why `check_name` refuses a name. -/
inductive NameError
  | required | illegal | tooLong | taken
  deriving DecidableEq

def checkName (cloud : Cloud) (name : String) (taken : List String) : Except NameError String :=
  let name := strip name
  if name = "" then .error .required
  else if cloud = .gcp && !isRfc1035 name then .error .illegal
  else if nameLimit cloud < name.length then .error .tooLong
  else if lower name ∈ taken.map lower then .error .taken
  else .ok name

def validateName (cfg : Config) (rows : Rows) (cloud : Cloud) (name : String) :
    Except NameError String :=
  checkName cloud name (existingNames cfg rows cloud)

/-! ### Hosts -/

/-- An instance; `id` is the cloud's, `address` its public address or `""`. -/
structure Host where
  id : String
  cloud : Cloud
  place : String
  name : String
  address : String
  deriving DecidableEq

abbrev Hosts := Table Host.id

def Host.key (host : Host) : Cloud × String := (host.cloud, host.name)

/-- GCP and Azure know a host by its name. -/
def Host.hostId (host : Host) : String :=
  match host.cloud with
  | .gcp | .azure => host.name
  | .aws | .oci => host.id

def named (hosts : Hosts) (key : Cloud × String) : List Host :=
  hosts.rows.filter fun host => host.key = key

/-- `zone or _gcp_jumpoint_zone(region)` -/
def gatewayZone (cfg : Config) (region zone : String) : String :=
  orDefault zone (gcpJumpointZone cfg region)

def gatewayRegion (cfg : Config) (region zone : String) : String :=
  orDefault region (regionFromZone cfg (gatewayZone cfg region zone))

/-- The host an ensure finds; GCP looks through the region before the zone, and OCI takes the
newest. -/
def findHost (cfg : Config) (hosts : Hosts) (cloud : Cloud) (region zone name : String) :
    Option Host :=
  let hosts := named hosts (cloud, name)
  match cloud with
  | .aws => hosts.find? fun host => host.place = region
  | .gcp =>
    (hosts.find? fun host => zonePrefix host.place = gatewayRegion cfg region zone) <|>
      hosts.find? fun host => host.place = gatewayZone cfg region zone
  | .azure =>
    hosts.find? fun host =>
      host.place = azureHostResourceGroup cfg (azureGatewayLocation cfg region)
  | .oci => hosts.getLast?

/-- Where a launch puts its host; on GCP in the zone that had capacity. -/
def launchPlace (cfg : Config) (cloud : Cloud) (region zone landed : String) : Option String :=
  match cloud with
  | .aws => some region
  | .gcp =>
    if landed = gatewayZone cfg region zone ∨ zonePrefix landed = gatewayRegion cfg region zone then
      some landed
    else none
  | .azure => some (azureHostResourceGroup cfg (azureGatewayLocation cfg region))
  | .oci => some (ociCompartment cfg)

/-- GCE refuses a second instance of one name in a zone, and Azure updates the one in the group. -/
def namesOnce : Cloud → Bool
  | .gcp | .azure => true
  | .aws | .oci => false

/-- The host a launch ends with, and the hosts that stand then. -/
def launchHost (hosts : Hosts) (host : Host) : Option (Host × Hosts) :=
  match (named hosts host.key).find? fun other => namesOnce host.cloud && other.place = host.place with
  | some other => some (other, hosts)
  | none => (hosts.insert host).map fun hosts => (host, hosts)

/-- The zone an ensure reports in `placement`. -/
def placementZone (cfg : Config) (region : String) (host : Host) : String :=
  match host.cloud with
  | .gcp => host.place
  | .azure => azureGatewayLocation cfg region
  | .aws | .oci => ""

/-- The hosts that `teardown_gateway` deletes. -/
def teardownHosts (cfg : Config) (hosts : Hosts) (cloud : Cloud) (region zone name : String) :
    List Host :=
  let hosts := named hosts (cloud, name)
  match cloud with
  | .aws => hosts.filter fun host => host.place = region
  | .gcp => hosts.filter fun host => host.place = gatewayZone cfg region zone
  | .azure => hosts.filter fun host => host.place = azureHostResourceGroup cfg region
  | .oci => hosts.getLast?.toList

/-- Without these an idle teardown returns before it deletes anything. -/
def canReap (cfg : Config) : Cloud → Bool
  | .aws => true
  | .gcp => gcpProject cfg ≠ ""
  | .azure => cfg.get "azure_resource_group" ≠ ""
  | .oci => ociCompartment cfg ≠ ""

/-- The hosts that the idle teardown for `region` deletes: on Azure in the flat resource group. -/
def idleHosts (cfg : Config) (hosts : Hosts) (cloud : Cloud) (region : String) : List Host :=
  match cloud with
  | .azure =>
    (named hosts (.azure, managedHostName cfg .azure)).filter fun host =>
      host.place = cfg.get "azure_resource_group"
  | _ => teardownHosts cfg hosts cloud region "" (managedHostName cfg cloud)

/-! ### Look-ups -/

structure Info where
  hostId : String
  egressIp : String
  serving : Option Bool
  deriving DecidableEq

/-- A `dict` written entry by entry: the last entry of a key counts. -/
def lookupLast {α : Type} (entries : List (String × α)) (name : String) : Option α :=
  entries.reverse.lookup name

def byRegion (targets : List (String × String)) : List (String × List String) :=
  (targets.map Prod.fst).eraseDups.map fun region =>
    (region, (targets.filter fun target => target.1 = region).map Prod.snd)

/-- `_ui_jumpoint_region("aws")` -/
def awsRegion (cfg : Config) : String := orDefault (cfg.get "aws_region") (cfg.get "aws_default_region")

/-- `live_gateway_hosts`; `none` is its exception. -/
def liveGatewayHosts (cfg : Config) (hosts : Hosts) (cloud : Cloud)
    (targets : List (String × String)) : Option (List (String × Host)) :=
  let wanted := hosts.rows.filter fun host =>
    host.cloud = cloud && host.name ∈ targets.map Prod.snd
  match cloud with
  | .gcp =>
    if gcpProject cfg = "" then none else some (wanted.map fun host => (host.name, host))
  | .oci => some (wanted.map fun host => (host.name, host))
  | .azure =>
    if (byRegion targets).any fun group => azureHostResourceGroup cfg group.1 = "" then none
    else
      some ((byRegion targets).flatMap fun (region, names) => names.filterMap fun name =>
        (((named hosts (.azure, name)).filter fun host =>
          host.place = azureHostResourceGroup cfg region).getLast?).map (name, ·))
  | .aws =>
    some ((byRegion targets).flatMap fun (region, names) => names.filterMap fun name =>
      ((named hosts (.aws, name)).find? fun host =>
        host.place = orDefault region (awsRegion cfg)).map (name, ·))

/-- `_live_hosts`; `serving` is what `gateway_tasks_by_host` tells of the AWS hosts. -/
def liveHosts (cfg : Config) (hosts : Hosts) (cloud : Cloud) (rows : List Gateway)
    (serving : List (String × Bool)) : Option (List (String × Info)) :=
  (liveGatewayHosts cfg hosts cloud (rows.map fun row => (row.region.getD "", row.name))).map
    fun live => live.map fun (name, host) =>
      (name, ⟨host.hostId, host.address,
        if cloud = .aws then serving.lookup host.hostId else none⟩)

/-! ### What a pass makes of a row -/

def missingReason : String :=
  "The host for this gateway is no longer in the cloud, and nothing asked for it to be " ++
    "removed. The row was kept so the gap is visible — remove it here, or deploy a " ++
    "replacement to take over its share of the session load."

def degradedReason : String :=
  "The host is up but no gateway task is running on it, so this gateway cannot broker a " ++
    "session. The Containers tab's ECS Tasks list shows the same thing. The next deploy " ++
    "that needs this gateway starts the task."

/-- `_apply_live`; it returns whether the row changed. -/
def applyLive (row : Gateway) : Option Info → Gateway
  | none =>
    let want := if row.managed then Status.deleted else .missing
    if row.status = want then row
    else
      { row with
        status := want
        egressIp := none
        error := if row.managed then none else some missingReason }
  | some info =>
    let want := if info.serving = some false then Status.degraded else .running
    let reason := if want = .degraded then some degradedReason else none
    let ipChanged : Bool := info.egressIp ≠ "" && info.egressIp ≠ row.egressIp.getD ""
    if row.status = want && row.error.filter (· ≠ "") = reason && !ipChanged then row
    else
      { row with
        status := want
        hostId := orKeep info.hostId row.hostId
        egressIp := if ipChanged then some info.egressIp else row.egressIp
        error := reason }

/-- The flush of a row that was loaded as `loaded` and is now `set`: only the columns that differ
are written. -/
def flush (loaded set row : Gateway) : Gateway :=
  { row with
    status := if set.status = loaded.status then row.status else set.status
    hostId := if set.hostId = loaded.hostId then row.hostId else set.hostId
    egressIp := if set.egressIp = loaded.egressIp then row.egressIp else set.egressIp
    error := if set.error = loaded.error then row.error else set.error }

end Gateways.Registry
