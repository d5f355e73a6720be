import Mathlib.Data.Prod.Lex
import VmDashboard.Machine.Ranking
import VmDashboard.Machine.Table
import VmDashboard.Python.Case
import VmDashboard.Python.IpAddress

/-!
# Config-Management routes (`services/config_mgmt_route_service.py`)

Which agent runs a playbook against an address. A route covers a range in one scope, may be narrowed
to a region, connection, workstream or network, and is matched longest prefix first.
-/

namespace ConfigMgmt
open Machine (Table sortBy)
open Python (IpAddress IpNetwork ipAddress ipNetwork prefixlen lower strip reprText orNone orDefault)

def scopes : List String := ["onprem", "aws", "azure", "gcp"]

def cloudScopes : List String := ["aws", "azure", "gcp"]

def scopeLabel : String → String
  | "onprem" => "On-premises"
  | "aws" => "AWS"
  | "azure" => "Azure"
  | "gcp" => "Google Cloud"
  | scope => scope

/-- A row of `config_mgmt_routes`. -/
structure ConfigMgmtRoute where
  id : String
  agentId : String
  cidr : String
  label : Option String
  isActive : Bool
  scope : String
  scopeRegion : String
  scopeConnectionId : String
  scopeWorkstream : String
  scopeNetwork : String
  fallbackToWorker : Option Bool
  createdBy : Option String
  deriving DecidableEq

/-! ### Matching -/

structure Route where
  id : String
  agentId : String
  network : IpNetwork
  label : String
  cidr : String
  scope : String
  region : String
  connectionId : String
  workstream : String
  networkId : String
  fallbackToWorker : Bool
  deriving DecidableEq

def version : IpNetwork → ℕ
  | .v4 _ => 4
  | .v6 .. => 6

/-- `int(network.network_address)`. -/
def networkAddress : IpNetwork → ℕ
  | .v4 net => net.base.toNat
  | .v6 net _ => net.base.toNat

def Route.narrowers (route : Route) : ℕ :=
  ([route.region, route.connectionId, route.workstream, route.networkId].filter (· ≠ "")).length

/-- What a target says of itself besides its address. -/
structure Placement where
  scope : String := "onprem"
  region : String := ""
  connectionId : String := ""
  workstream : String := ""
  network : String := ""

def Route.covers (route : Route) (target : Placement) : Bool :=
  route.scope = target.scope &&
    (route.region = "" || route.region = lower target.region) &&
    (route.connectionId = "" || route.connectionId = target.connectionId) &&
    (route.workstream = "" || route.workstream = lower target.workstream) &&
    (route.networkId = "" || route.networkId = target.network)

def matchFor (table : List Route) (address : String) (target : Placement) : Option Route :=
  match ipAddress (strip address) with
  | none => none
  | some addr => table.find? fun route => route.covers target && route.network.contains addr

/-- The address a network starts at, in the network's family. -/
def firstAddress : IpNetwork → IpAddress
  | .v4 net => .v4 net.base
  | .v6 net scope => .v6 net.base scope

/-- `a.version == b.version and a.subnet_of(b)`. -/
def subnetOf (a b : IpNetwork) : Bool := prefixlen b ≤ prefixlen a && b.contains (firstAddress a)

def matchForRanges (table : List Route) (cidrs : List String) (target : Placement) :
    Option Route :=
  match cidrs.mapM fun raw => ipNetwork (strip raw) with
  | none => none
  | some [] => none
  | some nets =>
    table.find? fun route => route.covers target && nets.all fun net => subnetOf net route.network

/-- The parsed row; `none` for one that is inactive or does not parse. -/
def ConfigMgmtRoute.parsed (row : ConfigMgmtRoute) : Option Route :=
  if !row.isActive then none
  else
    (ipNetwork row.cidr).map fun network =>
      { id := row.id
        agentId := row.agentId
        network
        label := row.label.getD ""
        cidr := row.cidr
        scope := orDefault row.scope "onprem"
        region := lower row.scopeRegion
        connectionId := row.scopeConnectionId
        workstream := lower row.scopeWorkstream
        networkId := row.scopeNetwork
        fallbackToWorker := row.fallbackToWorker.getD false }

/-- `_order`. -/
def order (route : Route) : ℤ ×ₗ ℤ ×ₗ ℕ ×ₗ ℕ :=
  toLex (-(prefixlen route.network : ℤ), toLex (-(route.narrowers : ℤ),
    toLex (version route.network, networkAddress route.network)))

/-- The table of the rows as the query lists them. -/
def loadTable (rows : List ConfigMgmtRoute) : List Route :=
  sortBy order (rows.filterMap ConfigMgmtRoute.parsed)

def executorFor (table : List Route) (address fallback : String) (target : Placement) : String :=
  match matchFor table address target with
  | some route => route.agentId
  | none => fallback

/-! ### Writing -/

structure Agent where
  name : String
  isActive : Bool
  allowedJobTypes : List String

/-- What the writes look up: agents and connections by id (a connection by its name), workstreams,
and the stored form of a region or network of a cloud where it is one. -/
structure Registry where
  agent : String → Option Agent
  connection : String → Option String
  workstream : String → Bool
  region : String → String → Option String
  network : String → String → Option String

def alwaysDenied : List IpNetwork :=
  ["127.0.0.0/8", "169.254.0.0/16", "::1/128", "fe80::/10"].filterMap ipNetwork

/-- `ip_network(text, strict=True)` raises where the address has host bits. -/
def hasHostBits (text : String) (loose : IpNetwork) : Bool :=
  match ipAddress (String.ofList (text.toList.takeWhile (· ≠ '/'))), loose with
  | some (.v4 ip), .v4 net => ip ≠ net.base
  | some (.v6 ip _), .v6 net _ => ip ≠ net.base
  | _, _ => true

def maxPrefixlen : IpNetwork → ℕ
  | .v4 _ => 32
  | .v6 .. => 128

def addressText : IpAddress → String
  | .v4 ip => Python.ipv4Text ip
  | .v6 ip scope => Python.ipv6Text ip ++ scope.elim "" ("%" ++ ·)

/-- A bare address as the range of one host. -/
def hostRange (text : String) : Except String String :=
  if text.toList.contains '/' then .ok text
  else
    match ipAddress text with
    | none =>
      .error (reprText text ++ " is not an IP address or a network range. Enter a range like " ++
        "192.168.235.0/24, or a single host as 192.168.235.99.")
    | some (.v4 ip) => .ok (addressText (.v4 ip) ++ "/32")
    | some (.v6 ip scope) => .ok (addressText (.v6 ip scope) ++ "/128")

def normalizeCidr (raw : String) : Except String String :=
  let text := strip raw
  if text = "" then
    .error ("Enter a network range like 192.168.235.0/24, or a single host as " ++
      "192.168.235.99/32.")
  else do
    let text ← hostRange text
    match ipNetwork text with
    | none =>
      throw (reprText text ++ " is not a network range. Enter one like 192.168.235.0/24, or " ++
        "a single host as 192.168.235.99/32.")
    | some network =>
      if hasHostBits text network then
        throw (reprText text ++ " is not a network address — did you mean " ++ network.text ++
          "? A range must name the network itself. To route that one host instead, write " ++
          String.ofList (text.toList.takeWhile (· ≠ '/')) ++ "/" ++
          toString (maxPrefixlen network) ++ ".")
      else if alwaysDenied.any (subnetOf network) then
        throw (network.text ++ " can never be a Config-Management target: every agent denies " ++
          "loopback and link-local ranges outright, whatever its policy.yaml says, so a route " ++
          "for it would only produce jobs that fail. Enter the address the runner reaches the " ++
          "guest ON instead — the one the hypervisor sync reports for it, like 192.168.235.0/24.")
      else pure network.text

def checkAgent (registry : Registry) (agentId : String) : Except String Unit :=
  match registry.agent agentId with
  | none => .error "That remote agent is not registered."
  | some agent =>
    if !agent.isActive then
      .error ("Agent '" ++ agent.name ++ "' is revoked, so a route naming it would send every " ++
        "run in that range to an agent that cannot lease it. Re-enrol it first.")
    else if "agent_ansible" ∉ agent.allowedJobTypes then
      .error ("Agent '" ++ agent.name ++ "' is not granted the Config-Management job type, so " ++
        "this route would resolve every run in its range to an agent that refuses it. Grant " ++
        "`agent_ansible` on the Agents tab first, then add this route.")
    else .ok ()

/-- The scope of a route and its narrowers. -/
structure Slot where
  scope : String
  region : String
  connectionId : String
  workstream : String
  network : String
  deriving DecidableEq

def networkExample : String → String
  | "aws" => "vpc-0abc12345def67890"
  | "azure" => "/subscriptions/<id>/resourceGroups/<rg>/providers/" ++
      "Microsoft.Network/virtualNetworks/<name>"
  | _ => "projects/<project>/global/networks/<name>"

/-- `_check_scope`. -/
def checkScope (registry : Registry) (asked : Slot) : Except String Slot :=
  let scope := lower (strip (orDefault asked.scope "onprem"))
  let region := lower (strip asked.region)
  let connectionId := strip asked.connectionId
  let workstream := lower (strip asked.workstream)
  let rawNetwork := strip asked.network
  if scope ∉ scopes then
    .error ("Scope must be one of " ++ ", ".intercalate scopes ++ ": on-premises guests, or " ++
      "one cloud's dashboard-deployed VMs.")
  else if scope = "onprem" then
    if region ≠ "" ∨ workstream ≠ "" ∨ rawNetwork ≠ "" then
      .error ("A region, workstream or network narrows a cloud route. For on-premises guests, " ++
        "narrow by connection instead, or leave it blank.")
    else if connectionId ≠ "" ∧ registry.connection connectionId = none then
      .error "That hypervisor connection does not exist."
    else .ok ⟨scope, region, connectionId, workstream, ""⟩
  else if connectionId ≠ "" then
    .error ("A connection narrows an on-premises route. For a cloud, narrow by region instead, " ++
      "or leave both blank.")
  else do
    let region ←
      if region = "" then pure ""
      else
        match registry.region scope region with
        | none => throw (reprText region ++ " is not a " ++ scopeLabel scope ++ " region.")
        | some region => pure (lower region)
    if workstream ≠ "" ∧ !registry.workstream workstream then
      throw ("There is no workstream named " ++ reprText workstream ++ ".")
    else if rawNetwork = "" then pure ⟨scope, region, connectionId, workstream, ""⟩
    else
      match registry.network scope rawNetwork with
      | none =>
        throw (reprText rawNetwork ++ " is not a " ++ scopeLabel scope ++ " network. Name it " ++
          "like " ++ networkExample scope ++ ".")
      | some network => pure ⟨scope, region, connectionId, workstream, network⟩

def ConfigMgmtRoute.slot (row : ConfigMgmtRoute) : String × Slot :=
  (row.cidr, ⟨row.scope, row.scopeRegion, row.scopeConnectionId, row.scopeWorkstream,
    row.scopeNetwork⟩)

/-- The part of a network id after its last slash. -/
def networkLabel (network : String) : String :=
  let cs := (network.toList.reverse.dropWhile (· = '/')).takeWhile (· ≠ '/')
  String.ofList cs.reverse

def scopeText (slot : Slot) (connectionName : String) : String :=
  " · ".intercalate (scopeLabel slot.scope ::
    [slot.region, connectionName, slot.workstream, networkLabel slot.network].filter (· ≠ ""))

/-- `_refuse_duplicate`: the text of the refusal. -/
def refuseDuplicate (registry : Registry) (rows : List ConfigMgmtRoute) (cidr : String)
    (slot : Slot) (excluding : String) : Except String Unit :=
  match rows.find? fun row => row.slot = (cidr, slot) ∧ (excluding = "" ∨ row.id ≠ excluding) with
  | none => .ok ()
  | some clash =>
    let name := ((registry.agent clash.agentId).map Agent.name).getD clash.agentId
    let label := match clash.label with
      | none => ""
      | some label => if label = "" then "" else " ('" ++ label ++ "')"
    let connection :=
      if slot.connectionId = "" then ""
      else (registry.connection slot.connectionId).getD slot.connectionId
    .error (cidr ++ " is already routed to agent '" ++ name ++ "'" ++ label ++ " for " ++
      scopeText slot connection ++ ". One range can name only one executing agent in one scope, " ++
      "or the dashboard would have to guess which. Edit that route, add a narrower range — the " ++
      "most specific range wins — or narrow this one to a region, workstream, network or " ++
      "connection.")

def checkFallback (scope : String) (fallback : Bool) : Except String Bool :=
  if fallback ∧ scope ∉ cloudScopes then
    .error ("Only a cloud route can fall back to the remote worker. The worker cannot reach " ++
      "on-premises networks, which is why the run goes to an agent.")
  else .ok fallback

structure RouteRequest where
  agentId : String
  cidr : String
  label : String := ""
  createdBy : String := ""
  slot : Slot := ⟨"onprem", "", "", "", ""⟩
  fallbackToWorker : Bool := false

/-- `create` under the fresh id `id`: the row it adds. -/
def create (registry : Registry) (rows : List ConfigMgmtRoute) (id : String)
    (request : RouteRequest) : Except String ConfigMgmtRoute := do
  checkAgent registry request.agentId
  let cidr ← normalizeCidr request.cidr
  let slot ← checkScope registry request.slot
  refuseDuplicate registry rows cidr slot ""
  let fallback ← checkFallback slot.scope request.fallbackToWorker
  pure {
    id
    agentId := request.agentId
    cidr
    label := orNone (strip request.label)
    isActive := true
    scope := slot.scope
    scopeRegion := slot.region
    scopeConnectionId := slot.connectionId
    scopeWorkstream := slot.workstream
    scopeNetwork := slot.network
    fallbackToWorker := some fallback
    createdBy := orNone request.createdBy }

/-- The fields of an update that are named. -/
structure RouteUpdate where
  agentId : Option String := none
  cidr : Option String := none
  scope : Option String := none
  region : Option String := none
  connectionId : Option String := none
  workstream : Option String := none
  network : Option String := none
  fallbackToWorker : Option Bool := none
  label : Option String := none
  isActive : Option Bool := none

/-- `update`: the row in place of the one it changes. -/
def update (registry : Registry) (rows : List ConfigMgmtRoute) (row : ConfigMgmtRoute)
    (fields : RouteUpdate) : Except String ConfigMgmtRoute := do
  fields.agentId.forM (checkAgent registry)
  let cidr ← fields.cidr.elim (pure row.cidr) normalizeCidr
  let newScope := fields.scope.getD row.scope
  let moved := orDefault newScope "onprem" ≠ orDefault row.scope "onprem"
  let kept (asked : Option String) (current : String) := asked.getD (if moved then "" else current)
  let slot ← checkScope registry ⟨newScope, kept fields.region row.scopeRegion,
    kept fields.connectionId row.scopeConnectionId, kept fields.workstream row.scopeWorkstream,
    kept fields.network row.scopeNetwork⟩
  refuseDuplicate registry rows cidr slot row.id
  let fallback ← checkFallback slot.scope (fields.fallbackToWorker.getD
    (row.fallbackToWorker.getD false && decide (slot.scope ∈ cloudScopes)))
  pure { row with
    agentId := fields.agentId.getD row.agentId
    cidr
    scope := slot.scope
    scopeRegion := slot.region
    scopeConnectionId := slot.connectionId
    scopeWorkstream := slot.workstream
    scopeNetwork := slot.network
    fallbackToWorker := some fallback
    label := match fields.label with
      | none => row.label
      | some label => orNone (strip label)
    isActive := fields.isActive.getD row.isActive }

end ConfigMgmt
