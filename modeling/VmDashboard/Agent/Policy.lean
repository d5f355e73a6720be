import VmDashboard.Python.IpAddress
import VmDashboard.Python.Yaml

/-!
# The remote agent's `policy.yaml` (`Policy` in `runners/agent/agent.py`)

The deny list and the three allow lists: `targets` for probes, `ansible.targets`
for playbooks, `k8s.targets` for cluster APIs. `resolve` is what `_resolve_all`
answers for the value of an `fqdn:` entry (`none` where it raises); `others` is
what the checks of the blocks that hold no address refuse.
-/

namespace Agent
open Python (Yaml IpAddress IpNetwork ipAddress ipNetwork)

/-- A network and the ports granted in it, `none` for every port. -/
abbrev Target := IpNetwork × Option (List ℤ)

inductive AgentFatal
  | topLevel
  | notAMapping (field : String)
  | notAList (field : String)
  | notATarget (field : String)
  | badPorts (field : String)
  | portsNotAList (field : String)
  | badCidr (field : String)
  | noTarget (field : String)
  | noTargets
  | badDeny
  | unpinnedImage (field : String)
  /-- An exception no handler of `load` catches. -/
  | uncaught
  | other (field : String)
  deriving DecidableEq

structure Policy where
  allow : List Target
  deny : List IpNetwork
  ansibleEnabled : Bool
  ansibleAllow : List Target
  k8sEnabled : Bool
  k8sAllow : List Target
  deriving DecidableEq

def defaultDeny : List String := ["169.254.0.0/16", "127.0.0.0/8", "::1/128", "fe80::/10"]

def mandatoryDeny : List IpNetwork := defaultDeny.filterMap ipNetwork

/-! ### Loading -/

def parsePorts (field : String) (entry : Yaml) : Except AgentFatal (Option (List ℤ)) :=
  match (entry.get? "ports").getD .null with
  | .null => return none
  | .seq ports =>
    match ports.mapM Yaml.int? with
    | some ports => return some ports
    | none => .error (.badPorts field)
  | _ => .error (.portsNotAList field)

/-- The networks an entry of `targets:` names. -/
def parseTarget (resolve : Yaml → Option (List String)) (field : String) (entry : Yaml) :
    Except AgentFatal (List Target) := do
  if !entry.isMap then
    throw (.notATarget field)
  let ports ← parsePorts field entry
  let cidr := (entry.get? "cidr").getD .null
  let fqdn := (entry.get? "fqdn").getD .null
  if cidr.truthy then
    match cidr.text?.bind ipNetwork with
    | some net => return [(net, ports)]
    | none => throw (.badCidr field)
  else if fqdn.truthy then
    match resolve fqdn with
    | none => throw .uncaught
    | some addrs =>
      let pinned := addrs.mapM fun addr =>
        ipNetwork (addr ++ if addr.toList.contains ':' then "/128" else "/32")
      match pinned with
      | some nets => return nets.map fun net => (net, ports)
      | none => throw .uncaught
  else throw (.noTarget field)

def parseTargets (resolve : Yaml → Option (List String)) (field : String) (entries : Yaml) :
    Except AgentFatal (List Target) :=
  match entries with
  | .null => return []
  | .seq entries => do
    let found ← entries.mapM (parseTarget resolve field)
    return found.flatten
  | _ => .error (.notAList field)

def denyEntries (doc : Yaml) : Except AgentFatal (List Yaml) :=
  let written := (doc.get? "deny").getD .null
  if written.truthy then
    match written.iterate? with
    | some entries => return entries
    | none => .error .uncaught
  else return defaultDeny.map .str

def parseDeny (doc : Yaml) : Except AgentFatal (List IpNetwork) := do
  let entries ← denyEntries doc
  match entries.mapM fun entry => entry.text?.bind ipNetwork with
  | none => throw .badDeny
  | some deny =>
    return mandatoryDeny.foldl (fun deny net => if net ∈ deny then deny else deny ++ [net]) deny

/-- `^[a-z0-9./_-]+@sha256:[0-9a-f]{64}$`. -/
def isPinnedImage (image : String) : Bool :=
  match image.toList.splitOn '@' with
  | [repository, digest] =>
    !repository.isEmpty && repository.all "abcdefghijklmnopqrstuvwxyz0123456789./_-".toList.contains &&
      Python.isDigest (String.ofList digest)
  | _ => false

def parseK8s (resolve : Yaml → Option (List String)) (doc : Yaml) :
    Except AgentFatal (Bool × List Target) :=
  match (doc.get? "k8s").getD .null with
  | .null => return (false, [])
  | value => do
    if !value.isMap then
      throw (.notAMapping "k8s")
    let enabled := ((value.get? "enabled").getD .null).truthy
    let image := (value.get? "image").getD .null
    let pinned := image.truthy && image.text?.any isPinnedImage
    if enabled && !pinned then
      throw (.unpinnedImage "k8s.image")
    let targets ← parseTargets resolve "k8s.targets" ((value.get? "targets").getD .null)
    return (enabled, targets)

def Policy.load (resolve : Yaml → Option (List String)) (others : Yaml → Option AgentFatal)
    (doc : Yaml) : Except AgentFatal Policy := do
  if doc.truthy && !doc.isMap then
    throw .topLevel
  let allow ← parseTargets resolve "targets" ((doc.get? "targets").getD .null)
  if allow.isEmpty then
    throw .noTargets
  let deny ← parseDeny doc
  let ansible := (doc.get? "ansible").getD .null
  let ansibleAllow ← parseTargets resolve "ansible.targets" ((ansible.get? "targets").getD .null)
  match others doc with
  | some fatal => throw fatal
  | none =>
    let (k8sEnabled, k8sAllow) ← parseK8s resolve doc
    return {
      allow, deny, ansibleAllow, k8sEnabled, k8sAllow
      ansibleEnabled := ((ansible.get? "enabled").getD .null).truthy }

/-! ### The three checks -/

/-- Text of a `PolicyRefusal`. -/
abbrev Refusal := String

/-- An address allowed by one allow list, with the shared deny list in front. -/
def checkAgainst (deny : List IpNetwork) (allow : List Target) (ip : String) (port : ℤ)
    (refusal : Refusal) : Except Refusal Unit :=
  match ipAddress ip with
  | none => .error (ip ++ " is not an IP address")
  | some addr =>
    match deny.find? fun net => net.contains addr with
    | some net => .error (ip ++ " is in a denied range (" ++ net.text ++ ")")
    | none =>
      if allow.any fun target => target.1.contains addr && target.2.all fun ports => port ∈ ports
      then return ()
      else .error refusal

def Policy.check (policy : Policy) (ip : String) (port : ℤ) : Except Refusal Unit :=
  checkAgainst policy.deny policy.allow ip port
    (ip ++ ":" ++ toString port ++ " is not in any allowed target range")

def Policy.checkAnsible (policy : Policy) (ip : String) (port : ℤ) : Except Refusal Unit :=
  if !policy.ansibleEnabled then
    .error ("this agent's policy.yaml does not enable Config Management " ++
      "(`ansible: \x7benabled: true\x7d`), so no endpoint may be configured.")
  else checkAgainst policy.deny policy.ansibleAllow ip port
    ("policy.yaml does not allow Config Management against " ++ ip ++ ":" ++ toString port ++
      ". Add it under `ansible.targets:` — with the port (" ++ toString port ++
      ") named — and restart the agent. The `targets:` list above it does NOT grant this: " ++
      "that one allows a port probe, this one allows a playbook to run as root on that host.")

def Policy.checkK8s (policy : Policy) (ip : String) (port : ℤ) : Except Refusal Unit :=
  if !policy.k8sEnabled then
    .error "this agent's policy.yaml does not enable Kubernetes work."
  else checkAgainst policy.deny policy.k8sAllow ip port
    ("policy.yaml does not allow a Kubernetes API at " ++ ip ++ ":" ++ toString port ++
      " (`k8s.targets`).")

end Agent
