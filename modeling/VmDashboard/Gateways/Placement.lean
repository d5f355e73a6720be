import VmDashboard.Python.Case
import VmDashboard.Python.Regex

/-!
# Where a gateway host stands (`services/jumpoint_host_service.py`, `services/region_config.py`)

The region configuration and the names and places that the ensure and the teardown of a
gateway host compute from it. A place is what the cloud's own calls are addressed with: a
region on AWS, a zone on GCP, a resource group on Azure, a compartment on OCI.
-/

namespace Gateways
open Python (strip lower isDecimal orDefault)

inductive Cloud
  | aws | gcp | azure | oci
  deriving DecidableEq

/-- The settings, and the parsed `<cloud>_region_configs`. -/
structure Config where
  values : List (String × String)
  regionConfigs : Cloud → List (String × List (String × String))

/-- `_cfg`: a stored value, else the default of the settings, else `""`. -/
def Config.get (cfg : Config) (key : String) : String := (cfg.values.lookup key).getD ""

def Config.getBool (cfg : Config) (key : String) : Bool :=
  lower (strip (cfg.get key)) ∈ ["1", "true", "yes", "on"]

/-- `region_catalog.normalize`. -/
def normalize (cloud : Cloud) (region : String) : String :=
  match cloud with
  | .azure => String.ofList ((lower (strip region)).toList.filter (· ≠ ' '))
  | _ => lower (strip region)

def defaultRegionKey : Cloud → String
  | .aws => "aws_region"
  | .gcp => "gcp_region"
  | .azure => "azure_location"
  | .oci => "oci_region"

/-- `region_overrides(cloud, region).get(field)`: never the default region's, and OCI has none. -/
def regionOverride (cfg : Config) (cloud : Cloud) (region field : String) : String :=
  let nloc := normalize cloud region
  if cloud = .oci ∨ nloc = "" ∨ nloc = normalize cloud (cfg.get (defaultRegionKey cloud)) then ""
  else
    let entry := ((cfg.regionConfigs cloud).lookup nloc).getD []
    strip ((entry.lookup field).getD "")

/-- `resolve_region(cloud, region)[field]` with the flat key the field falls back to. -/
def resolveRegion (cfg : Config) (cloud : Cloud) (region field flatKey : String) : String :=
  orDefault (regionOverride cfg cloud region field) (cfg.get flatKey)

/-! ### GCP zones -/

def isLetter (c : Char) : Bool := 'a' ≤ c && c ≤ 'z'

/-- `[a-z]+\d+`. -/
def isAreaNumber (part : List Char) : Bool :=
  let digits := part.dropWhile isLetter
  part.takeWhile isLetter ≠ [] && digits ≠ [] && digits.all isDecimal

/-- `^[a-z]+-[a-z]+\d+$`. -/
def isGcpRegion (region : String) : Bool :=
  match region.toList.splitOn '-' with
  | [area, number] => area ≠ [] && area.all isLetter && isAreaNumber number
  | _ => false

/-- `validate_zone`: `^[a-z]+-[a-z]+\d+-[a-z]$`, the zone normalised. -/
def validateZone (zone : String) : Bool :=
  match (normalize .gcp zone).toList.splitOn '-' with
  | [area, number, [letter]] =>
    area ≠ [] && area.all isLetter && isAreaNumber number && isLetter letter
  | _ => false

/-- `zone.rsplit("-", 1)[0]`. -/
def zonePrefix (zone : String) : String :=
  if zone.toList.contains '-' then
    String.ofList ((zone.toList.reverse.dropWhile (· ≠ '-')).drop 1).reverse
  else zone

def zoneInRegion (zone region : String) : Bool :=
  let z := normalize .gcp zone
  let r := normalize .gcp region
  z ≠ "" && r ≠ "" && validateZone z && zonePrefix z = r

def defaultZone (cfg : Config) : String := orDefault (cfg.get "gcp_zone") "us-central1-a"

def resolveZoneForRegion (cfg : Config) (region : String) : String :=
  let r := normalize .gcp region
  if r = "" then defaultZone cfg
  else
    let zone := resolveRegion cfg .gcp r "zone" "gcp_zone"
    if zoneInRegion zone r then zone else r ++ "-b"

def regionFromZone (cfg : Config) (zone : String) : String :=
  if zone.toList.contains '-' && isGcpRegion (zonePrefix zone) then zonePrefix zone
  else orDefault (cfg.get "gcp_region") "us-central1"

/-! ### Places and prerequisites -/

/-- `_gcp_jumpoint_zone`. -/
def gcpJumpointZone (cfg : Config) (region : String) : String :=
  let override := cfg.get "gcp_jumpoint_zone"
  if region = "" then orDefault override (cfg.get "gcp_zone")
  else if override ≠ "" && zoneInRegion override region then override
  else resolveZoneForRegion cfg region

def gcpProject (cfg : Config) : String := orDefault (cfg.get "gcp_project") (cfg.get "gcp_project_id")

/-- The region whose zones the GCP launcher looks through. -/
def gcpLaunchRegion (cfg : Config) (region : String) : String :=
  orDefault region (regionFromZone cfg (gcpJumpointZone cfg region))

/-- `_azure_gateway_location`. -/
def azureGatewayLocation (cfg : Config) (region : String) : String :=
  orDefault (normalize .azure region) (cfg.get "azure_location")

def azureHostResourceGroup (cfg : Config) (region : String) : String :=
  resolveRegion cfg .azure (azureGatewayLocation cfg region) "resource_group" "azure_resource_group"

def ociCompartment (cfg : Config) : String := cfg.get "oci_compartment_ocid"

def gcpDeployKey (cfg : Config) : String :=
  orDefault (cfg.get "gcp_cloud_run_docker_deploy_key")
    (orDefault (cfg.get "gcp_jumpoint_docker_deploy_key") (cfg.get "gcp_jumpoint_deploy_key"))

def azureDeployKey (cfg : Config) : String :=
  orDefault (cfg.get "azure_aci_deploy_key") (cfg.get "azure_aci_docker_deploy_key")

def ociDeployKey (cfg : Config) : String :=
  orDefault (cfg.get "oci_jumpoint_docker_deploy_key") (cfg.get "bt_jumpoint_docker_deploy_key")

/-- The prerequisites of an ensure; without them it returns no host. On AWS any launch type but
`EC2` runs the gateway without one. -/
def ready (cfg : Config) (cloud : Cloud) (region : String) : Bool :=
  match cloud with
  | .aws =>
    orDefault (cfg.get "aws_ecs_docker_deploy_key") (cfg.get "bt_ps_deploy_key_title") ≠ "" &&
      lower (orDefault (cfg.get "bt_ecs_launch_type") "EC2") = "ec2"
  | .gcp => gcpProject cfg ≠ "" && gcpDeployKey cfg ≠ ""
  | .azure =>
    let location := azureGatewayLocation cfg region
    azureHostResourceGroup cfg location ≠ "" && location ≠ "" &&
      orDefault (resolveRegion cfg .azure location "jumpoint_subnet_id" "azure_jumpoint_subnet_id")
        (cfg.get "azure_aci_subnet_id") ≠ "" &&
      azureDeployKey cfg ≠ ""
  | .oci =>
    ociCompartment cfg ≠ "" &&
      orDefault (cfg.get "oci_jumpoint_subnet_ocid") (cfg.get "oci_default_subnet_ocid") ≠ "" &&
      ociDeployKey cfg ≠ ""

end Gateways
