import Mathlib.Data.List.Sort
import Mathlib.Logic.Relation
import Mathlib.Tactic.Ring
import VmDashboard.Machine.Firewall
import VmDashboard.Python.Case
import VmDashboard.Python.IpSpecial
import VmDashboard.Tunnels.Derived

/-!
# The Purdue zones of a POV (`services/pov_zones.py`) and their four drivers

The rules between the three subnets are written once, and each cloud's driver translates them into
its own firewall: the security groups of EC2, the network security groups of Azure, the tagged rules
of Compute Engine, the security lists of OCI. A flow is the first packet of a connection; replies
are never a rule, because all four keep state.
-/

namespace Pov
open Python (Net netmask)

/-! ### Zones and their subnets -/

inductive Zone
  | enterprise
  | dmz
  | plant
  deriving DecidableEq

def Zone.name : Zone → String
  | .enterprise => "enterprise"
  | .dmz => "dmz"
  | .plant => "plant"

/-- `ZONES`. -/
def zones : List Zone := [.enterprise, .dmz, .plant]

def zonePrefix : ℕ := 24

def minNetworkPrefix : ℕ := 22

def zoneOf (cellRole : Option String) : Zone :=
  let role := Python.lower (Python.strip (cellRole.getD ""))
  if role = "ot-sim" then .plant else if role = "ot-broker" then .dmz else .enterprise

/-- The network of a template, which was checked to be an IPv4 one. -/
structure Network where
  cidr : String
  net : Net 32
  parsed : Python.ipNetwork cidr = some (.v4 net)

def checkNetwork (network : Network) : Except String Unit :=
  if minNetworkPrefix < network.net.prefixlen then
    .error ("a Purdue-zoned template needs room for three /" ++ toString zonePrefix ++
      " subnets, so its network must be /" ++ toString minNetworkPrefix ++ " or larger; " ++
      network.cidr ++ " is /" ++ toString network.net.prefixlen)
  else .ok ()

theorem zonePrefix_le : zonePrefix ≤ 32 := by decide

/-- The block number `i` of `net.subnets(new_prefix=24)`. -/
def block (net : Net 32) (i : ℕ) : Net 32 :=
  Net.of (net.base + BitVec.ofNat 32 (i * 2 ^ (32 - zonePrefix))) zonePrefix zonePrefix_le

def subnet (net : Net 32) (zone : Zone) : Net 32 := block net (zones.idxOf zone)

def subnets (network : Network) : Except String (Zone → Net 32) := do
  checkNetwork network
  return subnet network.net

/-! ### The plant's ports -/

structure Preset where
  key : String
  port : ℕ
  cell : Bool
  plc : Bool

def otPortPresets : List Preset :=
  [⟨"modbus", 502, true, true⟩, ⟨"opcua", 4840, true, true⟩, ⟨"dnp3", 20000, false, true⟩,
    ⟨"s7", 102, true, true⟩, ⟨"ethernet-ip", 44818, true, true⟩, ⟨"k3s", 6443, true, false⟩]

def otHmiPort : ℕ := 1881

def otProtocols : List Preset := otPortPresets.filter fun preset => preset.cell && preset.plc

inductive Item
  | webJump (port : ℕ)
  | tunnel (protocol : String) (localPort remotePort : ℕ)

/-- The items of a guest with the role. -/
def planned (cellRole : String) : List (String × Item) :=
  if cellRole ≠ "ot-sim" then []
  else ("hmi", .webJump otHmiPort) :: otProtocols.map fun preset =>
    ("tunnel:" ++ preset.key, .tunnel preset.key preset.port preset.port)

def Item.remotePort? : Item → Option ℕ
  | .webJump _ => none
  | .tunnel _ _ remotePort => some remotePort

def ssh : ℕ := 22

/-- `sorted(set(ports))`. -/
def sortedPorts (ports : List ℕ) : List ℕ := ports.dedup.insertionSort (· ≤ ·)

def plantPorts : List ℕ :=
  sortedPorts (ssh :: otHmiPort :: (planned "ot-sim").filterMap fun item => item.2.remotePort?)

def plantPortsFromDmz : List ℕ := sortedPorts [ssh, otHmiPort]

example : plantPorts = [22, 102, 502, 1881, 4840, 44818] := by decide +kernel

/-! ### Rules -/

inductive Direction
  | ingress
  | egress
  deriving DecidableEq

inductive Protocol
  | all
  | tcp
  | udp
  deriving DecidableEq

structure Rule where
  direction : Direction
  protocol : Protocol
  ports : List ℕ
  /-- The source of an ingress rule, the destination of an egress one. -/
  peer : Net 32
  why : String

def rule (direction : Direction) (protocol : Protocol) (ports : List ℕ) (peer : Net 32)
    (why : String) : Rule :=
  ⟨direction, protocol, sortedPorts ports, peer, why⟩

structure Spec where
  internetEgress : Bool
  publicIp : Bool
  rules : List Rule

theorem zero_le_width : 0 ≤ 32 := Nat.zero_le 32

/-- `0.0.0.0/0`. -/
def anywhere : Net 32 := Net.of 0 0 zero_le_width

def dmzEgressTcp : List ℕ := [53, 443, 8080]

def dmzEgressUdp : List ℕ := [53]

def spec (nets : Zone → Net 32) (whole : Net 32) : Zone → Spec
  | .enterprise => {
      internetEgress := true
      publicIp := true
      rules := [
        rule .ingress .all [] (nets .enterprise) "within the enterprise zone",
        rule .ingress .tcp [ssh] (nets .dmz) "the Entitle agent mints accounts over SSH",
        rule .egress .all [] anywhere
          "the control node dials the dashboard, PRA and Password Safe"] }
  | .dmz => {
      internetEgress := false
      publicIp := true
      rules := [
        rule .ingress .all [] (nets .dmz) "within the DMZ",
        rule .ingress .tcp [ssh] (nets .enterprise)
          "the control node agent's Ansible runs and the Shell Jump",
        rule .egress .tcp dmzEgressTcp anywhere "the Entitle agent, its installs, and DNS",
        rule .egress .udp dmzEgressUdp anywhere "DNS",
        rule .egress .all [] whole "inside the POV network"] }
  | .plant => {
      internetEgress := false
      publicIp := false
      rules := [
        rule .ingress .all [] (nets .plant) "within the plant",
        rule .ingress .tcp plantPorts (nets .enterprise)
          "the PRA Gateway's jump items and the control node agent",
        rule .ingress .tcp plantPortsFromDmz (nets .dmz) "the Entitle agent and the HMI adapter",
        rule .egress .all [] whole "inside the POV network only"] }

def rules (network : Network) : Except String (Zone → Spec) := do
  return spec (← subnets network) network.net

structure Entry extends Spec where
  name : Zone
  cidr : Net 32

def layout (network : Network) : Except String (List Entry) := do
  let nets ← subnets network
  let spec ← rules network
  return zones.map fun zone => { spec zone with name := zone, cidr := nets zone }

/-- `pov_cloud_env.placement`: where a VM of a zone goes, `none` for the network's one subnet. -/
def placement (built : List Entry) (name : String) (zone : Option Zone) :
    Except String (Option Entry) :=
  match zone with
  | none => .ok none
  | some zone =>
    match built.find? (·.name = zone) with
    | some entry => .ok (some entry)
    | none =>
      if zone = .enterprise then .ok none
      else .error ("VM " ++ Python.reprText name ++ " belongs in the " ++ zone.name ++ " zone, and this " ++
        "environment's network was built without Purdue zones. Destroy and recreate the POV from " ++
        "the zoned template.")

/-! ### What the rules mean -/

structure Flow where
  source : BitVec 32
  destination : BitVec 32
  /-- The number in the packet: 6 is TCP, 17 is UDP. -/
  protocol : ℕ
  port : ℕ
  deriving DecidableEq

def Flow.peer (flow : Flow) : Direction → BitVec 32
  | .ingress => flow.source
  | .egress => flow.destination

def Protocol.number : Protocol → Option ℕ
  | .all => none
  | .tcp => some 6
  | .udp => some 17

def Rule.covers (rule : Rule) (flow : Flow) : Bool :=
  rule.peer.holds (flow.peer rule.direction) && rule.protocol.number.all (flow.protocol = ·) &&
    (rule.ports.isEmpty || rule.ports.contains flow.port)

/-- Only what a rule allows passes. -/
def Spec.admits (spec : Spec) (direction : Direction) (flow : Flow) : Bool :=
  spec.rules.any fun rule => rule.direction = direction && rule.covers flow

/-! ### EC2 -/

/-- `_SG_DESCRIPTION_OK`. -/
def sgDescriptionOk : List Char :=
  "abcdefghijklmnopqrstuvwxyzABCDEFGHIJKLMNOPQRSTUVWXYZ0123456789 ._-:/()#,@[]+=&;\x7b\x7d!$*".toList

def sgDescription (text : String) : String :=
  String.ofList ((text.toList.filter sgDescriptionOk.contains).take 255)

structure IpPermission where
  ipProtocol : String
  cidrIp : Net 32
  description : String
  /-- `FromPort` and `ToPort`. -/
  range : Option (ℕ × ℕ)

def ipPermission (rule : Rule) : IpPermission where
  ipProtocol :=
    match rule.protocol with
    | .all => "-1"
    | .tcp => "tcp"
    | .udp => "udp"
  cidrIp := rule.peer
  description := sgDescription rule.why
  range := if rule.protocol = .all then none else rule.ports.head?.map fun port => (port, port)

def zonePermissions (rules : List Rule) (direction : Direction) : List IpPermission :=
  (rules.filter (·.direction = direction)).flatMap fun rule =>
    if rule.protocol = .all ∨ rule.ports = [] then [ipPermission rule]
    else rule.ports.map fun port => ipPermission { rule with ports := [port] }

def IpPermission.covers (permission : IpPermission) (peer : BitVec 32) (flow : Flow) : Bool :=
  permission.cidrIp.holds peer &&
    (permission.ipProtocol = "-1" ||
      (permission.ipProtocol = "tcp" && flow.protocol = 6 ||
        permission.ipProtocol = "udp" && flow.protocol = 17) &&
      permission.range.all fun (low, high) => low ≤ flow.port && flow.port ≤ high)

/-- A security group that lost its default egress admits what its permissions say. -/
def awsAdmits (entry : Entry) (direction : Direction) (flow : Flow) : Bool :=
  (zonePermissions entry.rules direction).any (·.covers (flow.peer direction) flow)

/-! ### OCI -/

structure SecurityListRule where
  protocol : String
  peer : Net 32
  port : Option ℕ
  description : String

def ociProtocol : Protocol → String
  | .all => "all"
  | .tcp => "6"
  | .udp => "17"

def securityListRules (rule : Rule) : List SecurityListRule :=
  let ports := if rule.protocol = .all ∨ rule.ports = [] then [none] else rule.ports.map some
  ports.map fun port =>
    ⟨ociProtocol rule.protocol, rule.peer, port, String.ofList (rule.why.toList.take 255)⟩

/-- The ingress rules and the egress rules. -/
def ociSecurityRules (rules : List Rule) : List SecurityListRule × List SecurityListRule :=
  ((rules.filter (·.direction = .ingress)).flatMap securityListRules,
    (rules.filter (·.direction = .egress)).flatMap securityListRules)

def SecurityListRule.covers (rule : SecurityListRule) (peer : BitVec 32) (flow : Flow) : Bool :=
  rule.peer.holds peer && (rule.protocol = "all" ||
    (rule.protocol = "6" && flow.protocol = 6 || rule.protocol = "17" && flow.protocol = 17) &&
      rule.port.all (· = flow.port))

def ociAdmits (entry : Entry) (direction : Direction) (flow : Flow) : Bool :=
  let (ingress, egress) := ociSecurityRules entry.rules
  (match direction with
    | .ingress => ingress
    | .egress => egress).any (·.covers (flow.peer direction) flow)

/-! ### Azure -/

structure SecurityRule where
  name : String
  priority : ℕ
  direction : Direction
  allow : Bool
  protocol : String
  /-- `*` where there is none, as for the other addresses and the ports. -/
  source : Option (Net 32)
  destination : Option (Net 32)
  ports : Option (List ℕ)
  description : String

def zoneAllowPriority : ℕ := 1000

def zoneDenyPriority : ℕ := 4000

def Direction.text : Direction → String
  | .ingress => "ingress"
  | .egress => "egress"

def azureProtocol : Protocol → String
  | .all => "*"
  | .tcp => "Tcp"
  | .udp => "Udp"

/-- The rules from the one numbered `index` on, with the next priority of each direction. -/
def allowRules : List Rule → ℕ → (Direction → ℕ) → List SecurityRule
  | [], _, _ => []
  | rule :: rest, index, priority =>
    { name := "pov-zone-" ++ rule.direction.text ++ "-" ++ toString index
      priority := priority rule.direction
      direction := rule.direction
      allow := true
      protocol := azureProtocol rule.protocol
      source := if rule.direction = .ingress then some rule.peer else none
      destination := if rule.direction = .egress then some rule.peer else none
      ports := if rule.ports ≠ [] ∧ rule.protocol ≠ .all then some rule.ports else none
      description := String.ofList (rule.why.toList.take 140) } ::
      allowRules rest (index + 1) fun direction =>
        if direction = rule.direction then priority direction + 10 else priority direction

def denyInbound : SecurityRule :=
  ⟨"pov-zone-deny-inbound", zoneDenyPriority, .ingress, false, "*", none, none, none,
    "everything the zone's rules do not allow"⟩

def denyOutbound : SecurityRule :=
  ⟨"pov-zone-deny-outbound", zoneDenyPriority, .egress, false, "*", none, none, none,
    "no egress beyond the zone's rules"⟩

def azureSecurityRules (rules : List Rule) (internetEgress : Bool) : List SecurityRule :=
  allowRules rules 0 (fun _ => zoneAllowPriority) ++
    (denyInbound :: if internetEgress then [] else [denyOutbound])

def SecurityRule.covers (rule : SecurityRule) (flow : Flow) : Bool :=
  rule.source.all (·.holds flow.source) && rule.destination.all (·.holds flow.destination) &&
    (rule.protocol = "*" || rule.protocol = "Tcp" && flow.protocol = 6 ||
      rule.protocol = "Udp" && flow.protocol = 17) &&
    rule.ports.all (·.contains flow.port)

def SecurityRule.filter (rule : SecurityRule) : Firewall.Rule Flow :=
  ⟨rule.priority, rule.allow, rule.covers⟩

/-- The group's own rules before the platform's, which are not the program's. -/
def azureAdmits (platform : List SecurityRule) (fallback : Bool) (entry : Entry)
    (direction : Direction) (flow : Flow) : Bool :=
  Firewall.admits
    (((azureSecurityRules entry.rules entry.internetEgress ++ platform).filter
      (·.direction = direction)).map SecurityRule.filter) fallback flow

/-! ### Compute Engine -/

structure GceFirewall where
  name : String
  direction : Direction
  priority : ℕ
  targetTags : List String
  allow : Bool
  /-- `allowed` or `denied`. -/
  protocols : List (String × List ℕ)
  ranges : List (Net 32)
  description : String

def gceDenyPriority : ℕ := 2000

def zoneCode : Zone → String
  | .enterprise => "e"
  | .dmz => "d"
  | .plant => "p"

def zoneTag (zone : Zone) : String := "pov-" ++ zone.name

def gceProtocol : Protocol → String
  | .all => "all"
  | .tcp => "tcp"
  | .udp => "udp"

def allowFirewalls (zone : Zone) : List Rule → ℕ → List GceFirewall
  | [], _ => []
  | rule :: rest, index =>
    { name := "-fw-" ++ zoneCode zone ++ "-" ++ toString index
      direction := rule.direction
      priority := zoneAllowPriority
      targetTags := [zoneTag zone]
      allow := true
      protocols := [(gceProtocol rule.protocol, rule.ports)]
      ranges := [rule.peer]
      description := String.ofList
        (("Purdue " ++ zone.name ++ ": " ++ rule.why).toList.take 2048) } ::
      allowFirewalls zone rest (index + 1)

def gceDeny (zone : Zone) : GceFirewall where
  name := "-fw-" ++ zoneCode zone ++ "-x"
  direction := .egress
  priority := gceDenyPriority
  targetTags := [zoneTag zone]
  allow := false
  protocols := [("all", [])]
  ranges := [anywhere]
  description := "Purdue " ++ zone.name ++ ": no egress beyond the zone's rules"

def zoneFirewalls (entry : Entry) : List GceFirewall :=
  allowFirewalls entry.name entry.rules 0 ++
    if entry.internetEgress then [] else [gceDeny entry.name]

def GceFirewall.covers (firewall : GceFirewall) (flow : Flow) : Bool :=
  firewall.ranges.any (·.holds (flow.peer firewall.direction)) &&
    firewall.protocols.any fun (protocol, ports) =>
      (protocol = "all" || protocol = "tcp" && flow.protocol = 6 ||
        protocol = "udp" && flow.protocol = 17) &&
      (ports.isEmpty || ports.contains flow.port)

def GceFirewall.filter (firewall : GceFirewall) : Firewall.Rule Flow :=
  ⟨firewall.priority, firewall.allow, firewall.covers⟩

/-- The implied rules: no ingress and any egress. -/
def implied (direction : Direction) : Bool := direction = .egress

/-- All zones' rules are the network's; an instance's tag selects its own. -/
def gcpAdmits (entries : List Entry) (zone : Zone) (direction : Direction) (flow : Flow) : Bool :=
  Firewall.admits
    (((entries.flatMap zoneFirewalls).filter fun firewall =>
      firewall.direction = direction && firewall.targetTags.contains (zoneTag zone)).map
        GceFirewall.filter) (implied direction) flow

inductive Cloud
  | aws
  | azure (platform : List SecurityRule) (fallback : Bool)
  | gcp
  | oci

def Cloud.admits (cloud : Cloud) (entries : List Entry) (entry : Entry) (direction : Direction)
    (flow : Flow) : Bool :=
  match cloud with
  | .aws => awsAdmits entry direction flow
  | .azure platform fallback => azureAdmits platform fallback entry direction flow
  | .gcp => gcpAdmits entries entry.name direction flow
  | .oci => ociAdmits entry direction flow

/-- The platform's own rules come after every rule a driver writes. -/
def Cloud.Lawful : Cloud → Prop
  | .azure platform _ => ∀ rule ∈ platform, zoneDenyPriority < rule.priority
  | _ => True

/-! ### Every driver keeps the meaning -/

/-- Every protocol has every port, and no other rule has. -/
def Rule.Formed (rule : Rule) : Prop := rule.protocol = .all ↔ rule.ports = []

theorem any_congr_mem {α : Type} {l : List α} {f g : α → Bool} (h : ∀ a ∈ l, f a = g a) :
    l.any f = l.any g := by
  rw [Bool.eq_iff_iff, List.any_eq_true, List.any_eq_true]
  exact ⟨fun ⟨a, ha, hf⟩ => ⟨a, ha, h a ha ▸ hf⟩, fun ⟨a, ha, hg⟩ => ⟨a, ha, (h a ha).symm ▸ hg⟩⟩

theorem permissions_cover {rule : Rule} (h : rule.Formed) (flow : Flow) :
    (if rule.protocol = .all ∨ rule.ports = [] then [ipPermission rule]
      else rule.ports.map fun port => ipPermission { rule with ports := [port] }).any
        (·.covers (flow.peer rule.direction) flow) = rule.covers flow := by
  obtain ⟨direction, protocol, ports, peer, why⟩ := rule
  unfold Rule.Formed at h
  cases protocol with
  | all =>
    obtain rfl : ports = [] := h.mp rfl
    simp [ipPermission, IpPermission.covers, Rule.covers, Protocol.number]
  | tcp | udp =>
    have hne : ports ≠ [] := fun hnil => by cases h.mpr hnil
    have hempty : ports.isEmpty = false := by simpa using hne
    rw [if_neg (by simp [hne]), List.any_map, Bool.eq_iff_iff]
    simp only [Rule.covers, Protocol.number, hempty, ipPermission, IpPermission.covers,
      List.any_eq_true, Function.comp_apply, Bool.and_eq_true]
    simp only [reduceCtorEq, ↓reduceIte, List.head?_cons, Option.map_some, Option.all_some,
      String.reduceEq, decide_false, decide_true, Bool.false_or, Bool.false_and, Bool.or_false,
      Bool.true_and, Bool.and_eq_true, decide_eq_true_eq, List.contains_eq_mem]
    constructor
    · rintro ⟨port, hport, hpeer, hprotocol, hlow, hhigh⟩
      obtain rfl : port = flow.port := le_antisymm hlow hhigh
      exact ⟨⟨hpeer, hprotocol⟩, hport⟩
    · rintro ⟨⟨hpeer, hprotocol⟩, hport⟩
      exact ⟨flow.port, hport, hpeer, hprotocol, le_rfl, le_rfl⟩

theorem aws_agrees {entry : Entry} (h : ∀ rule ∈ entry.rules, rule.Formed) (direction : Direction)
    (flow : Flow) : awsAdmits entry direction flow = entry.admits direction flow := by
  rw [awsAdmits, zonePermissions, List.any_flatMap, List.any_filter, Spec.admits]
  refine any_congr_mem fun rule hrule => ?_
  by_cases hdirection : rule.direction = direction
  · rw [← hdirection, permissions_cover (h rule hrule)]
  · rw [decide_eq_false hdirection, Bool.false_and, Bool.false_and]

theorem securityListRules_cover {rule : Rule} (h : rule.Formed) (flow : Flow) :
    (securityListRules rule).any (·.covers (flow.peer rule.direction) flow) = rule.covers flow := by
  obtain ⟨direction, protocol, ports, peer, why⟩ := rule
  unfold Rule.Formed at h
  cases protocol with
  | all =>
    obtain rfl : ports = [] := h.mp rfl
    simp [securityListRules, SecurityListRule.covers, Rule.covers, Protocol.number, ociProtocol]
  | tcp | udp =>
    have hne : ports ≠ [] := fun hnil => by cases h.mpr hnil
    have hempty : ports.isEmpty = false := by simpa using hne
    rw [securityListRules, if_neg (by simp [hne]), List.any_map, List.any_map, Bool.eq_iff_iff]
    simp only [Rule.covers, Protocol.number, hempty, SecurityListRule.covers, ociProtocol,
      List.any_eq_true, Function.comp_apply, Bool.and_eq_true]
    simp only [String.reduceEq, decide_false, decide_true, Bool.false_or, Bool.false_and,
      Bool.or_false, Bool.true_and, Option.all_some, Bool.and_eq_true, decide_eq_true_eq,
      List.contains_eq_mem]
    constructor
    · rintro ⟨port, hport, hpeer, hprotocol, rfl⟩
      exact ⟨⟨hpeer, hprotocol⟩, hport⟩
    · rintro ⟨⟨hpeer, hprotocol⟩, hport⟩
      exact ⟨flow.port, hport, hpeer, hprotocol, rfl⟩

theorem oci_agrees {entry : Entry} (h : ∀ rule ∈ entry.rules, rule.Formed) (direction : Direction)
    (flow : Flow) : ociAdmits entry direction flow = entry.admits direction flow := by
  have hside : ociAdmits entry direction flow =
      ((entry.rules.filter (·.direction = direction)).flatMap securityListRules).any
        (·.covers (flow.peer direction) flow) := by cases direction <;> rfl
  rw [hside, List.any_flatMap, List.any_filter, Spec.admits]
  refine any_congr_mem fun rule hrule => ?_
  by_cases hdirection : rule.direction = direction
  · rw [← hdirection, securityListRules_cover (h rule hrule)]
  · rw [decide_eq_false hdirection, Bool.false_and, Bool.false_and]

/-- A spec that both kinds of priority can be written for. -/
structure Spec.Formed (spec : Spec) : Prop where
  rules : ∀ rule ∈ spec.rules, rule.Formed
  /-- 300 rules reach the priority of the denies. -/
  few : spec.rules.length ≤ 300
  reach : spec.internetEgress = true → ∃ rule ∈ spec.rules, rule.direction = .egress ∧
    rule.protocol = .all ∧ rule.peer = anywhere

theorem anywhere_holds (ip : BitVec 32) : anywhere.holds ip = true := by
  have hmask : netmask 32 0 = 0#32 := by decide
  simp [anywhere, Net.holds, Net.of, hmask]

theorem Spec.Formed.admits_egress {spec : Spec} (h : spec.Formed)
    (hopen : spec.internetEgress = true) (flow : Flow) : spec.admits .egress flow = true := by
  obtain ⟨rule, hrule, hdirection, hprotocol, hpeer⟩ := h.reach hopen
  refine List.any_eq_true.mpr ⟨rule, hrule, ?_⟩
  have hports := (h.rules rule hrule).mp hprotocol
  simp [hdirection, Rule.covers, hprotocol, hports, hpeer, anywhere_holds, Protocol.number]

/-! #### Azure -/

theorem allowRules_allow {rules : List Rule} {index : ℕ} {priority : Direction → ℕ} :
    ∀ r ∈ allowRules rules index priority, r.allow = true := by
  induction rules generalizing index priority with
  | nil => exact fun r hr => absurd hr List.not_mem_nil
  | cons rule rest ih =>
    intro r hr
    rcases List.mem_cons.mp hr with rfl | hr
    · rfl
    · exact ih r hr

theorem allowRules_priority {rules : List Rule} {index bound : ℕ} {priority : Direction → ℕ}
    (h : ∀ direction, priority direction ≤ bound) :
    ∀ r ∈ allowRules rules index priority, r.priority + 10 ≤ bound + 10 * rules.length := by
  induction rules generalizing index bound priority with
  | nil => exact fun r hr => absurd hr List.not_mem_nil
  | cons rule rest ih =>
    intro r hr
    rw [List.length_cons]
    rcases List.mem_cons.mp hr with rfl | hr
    · have hfirst := h rule.direction
      show priority rule.direction + 10 ≤ _
      omega
    · have hnext : ∀ direction, (if direction = rule.direction then priority direction + 10
          else priority direction) ≤ bound + 10 := by
        intro direction
        have hle := h direction
        split <;> omega
      have hrest := ih hnext r hr
      omega

theorem allowRule_covers {rule : Rule} (h : rule.Formed) (name : String) (priority : ℕ)
    (description : String) (flow : Flow) :
    SecurityRule.covers ⟨name, priority, rule.direction, true, azureProtocol rule.protocol,
      if rule.direction = .ingress then some rule.peer else none,
      if rule.direction = .egress then some rule.peer else none,
      if rule.ports ≠ [] ∧ rule.protocol ≠ .all then some rule.ports else none, description⟩ flow =
        rule.covers flow := by
  obtain ⟨direction, protocol, ports, peer, why⟩ := rule
  unfold Rule.Formed at h
  have hpeer : ((if direction = .ingress then some peer else none).all (·.holds flow.source) &&
      (if direction = .egress then some peer else none).all (·.holds flow.destination)) =
        peer.holds (flow.peer direction) := by
    cases direction <;> simp [Flow.peer]
  unfold SecurityRule.covers Rule.covers
  dsimp only
  rw [hpeer]
  cases protocol with
  | all =>
    obtain rfl : ports = [] := h.mp rfl
    simp [azureProtocol, Protocol.number]
  | tcp | udp =>
    have hne : ports ≠ [] := fun hnil => by cases h.mpr hnil
    have hempty : ports.isEmpty = false := by simpa using hne
    simp [azureProtocol, Protocol.number, hne, hempty]

theorem allowRules_cover {rules : List Rule} (h : ∀ rule ∈ rules, rule.Formed) (index : ℕ)
    (priority : Direction → ℕ) (direction : Direction) (flow : Flow) :
    ((allowRules rules index priority).any fun r => r.direction = direction && r.covers flow) =
      rules.any fun rule => rule.direction = direction && rule.covers flow := by
  induction rules generalizing index priority with
  | nil => rfl
  | cons rule rest ih =>
    rw [allowRules, List.any_cons, List.any_cons, ih fun r hr => h r (List.mem_cons_of_mem _ hr),
      allowRule_covers (h rule List.mem_cons_self)]

/-- A rule that covers everything in its direction and is no allow closes the direction. -/
theorem admits_closed {allows platform : List (Firewall.Rule Flow)} {deny : Firewall.Rule Flow}
    {fallback : Bool} {flow : Flow} (hallow : ∀ rule ∈ allows, rule.allow = true)
    (hdeny : deny.allow = false) (hcovers : deny.covers flow = true)
    (hfirst : ∀ rule ∈ allows, rule.priority < deny.priority)
    (hlast : ∀ rule ∈ platform, deny.priority < rule.priority) :
    Firewall.admits (allows ++ (deny :: platform)) fallback flow = allows.any (·.covers flow) := by
  have hlater : ∀ rule ∈ allows, ∀ other ∈ deny :: platform, rule.priority < other.priority := by
    intro rule hrule other hother
    have hbefore := hfirst rule hrule
    rcases List.mem_cons.mp hother with rfl | hother
    · exact hbefore
    · exact hbefore.trans (hlast other hother)
  have hone : ∀ rule ∈ [deny], ∀ other ∈ platform, rule.priority < other.priority := by
    intro rule hrule other hother
    obtain rfl := List.mem_singleton.mp hrule
    exact hlast other hother
  rw [Firewall.admits_append hlater]
  cases hany : allows.any (·.covers flow) with
  | true =>
    rw [if_pos rfl]
    exact Firewall.admits_allows hallow hany
  | false =>
    have hcovered : [deny].any (·.covers flow) = true := by simp [hcovers]
    rw [if_neg (by simp), ← List.singleton_append, Firewall.admits_append hone, if_pos hcovered]
    refine Firewall.admits_denies (fun rule hrule => ?_) hcovered
    obtain rfl := List.mem_singleton.mp hrule
    exact hdeny

theorem azure_agrees {entry : Entry} (h : entry.toSpec.Formed) {platform : List SecurityRule}
    (hplatform : ∀ rule ∈ platform, zoneDenyPriority < rule.priority) (fallback : Bool)
    (direction : Direction) (flow : Flow) :
    azureAdmits platform fallback entry direction flow = entry.admits direction flow := by
  have hallows : ((((allowRules entry.rules 0 fun _ => zoneAllowPriority).filter
      (·.direction = direction)).map SecurityRule.filter).any (·.covers flow)) =
        entry.admits direction flow := by
    rw [List.any_map, List.any_filter]
    exact allowRules_cover h.rules 0 _ direction flow
  have hallow : ∀ rule ∈ ((allowRules entry.rules 0 fun _ => zoneAllowPriority).filter
      (·.direction = direction)).map SecurityRule.filter,
        rule.allow = true ∧ rule.priority < zoneDenyPriority := by
    intro rule hrule
    obtain ⟨r, hr, rfl⟩ := List.mem_map.mp hrule
    have hmem := List.mem_of_mem_filter hr
    have hpriority := allowRules_priority (fun _ => le_rfl) r hmem
    have hfew := h.few
    refine ⟨allowRules_allow r hmem, ?_⟩
    show r.priority < 4000
    have hstart : zoneAllowPriority = 1000 := rfl
    omega
  have hafter : ∀ rule ∈ (platform.filter (·.direction = direction)).map SecurityRule.filter,
      zoneDenyPriority < rule.priority := by
    intro rule hrule
    obtain ⟨r, hr, rfl⟩ := List.mem_map.mp hrule
    exact hplatform r (List.mem_of_mem_filter hr)
  rw [azureAdmits, azureSecurityRules, List.append_assoc, List.filter_append, List.map_append,
    List.filter_append, List.map_append, ← hallows]
  cases direction with
  | ingress =>
    have hdeny : (denyInbound :: if entry.internetEgress then [] else [denyOutbound]).filter
        (·.direction = .ingress) = [denyInbound] := by cases entry.internetEgress <;> rfl
    rw [hdeny]
    exact admits_closed (fun rule hrule => (hallow rule hrule).1) rfl rfl
      (fun rule hrule => (hallow rule hrule).2) hafter
  | egress =>
    cases hopen : entry.internetEgress with
    | false =>
      have hdeny : (denyInbound :: if (false : Bool) then [] else [denyOutbound]).filter
          (·.direction = .egress) = [denyOutbound] := rfl
      rw [hdeny]
      exact admits_closed (fun rule hrule => (hallow rule hrule).1) rfl rfl
        (fun rule hrule => (hallow rule hrule).2) hafter
    | true =>
      have hdeny : (denyInbound :: if (true : Bool) then [] else [denyOutbound]).filter
          (·.direction = .egress) = [] := rfl
      have hany := hallows.trans (h.admits_egress hopen flow)
      have hlayers := fun rule hrule other hother =>
        (hallow rule hrule).2.trans (hafter other hother)
      rw [hdeny, List.map_nil, List.nil_append, hany, Firewall.admits_append hlayers, if_pos hany]
      exact Firewall.admits_allows (fun rule hrule => (hallow rule hrule).1) hany

/-! #### Compute Engine -/

theorem allowFirewalls_same {zone : Zone} {rules : List Rule} {index : ℕ} :
    ∀ f ∈ allowFirewalls zone rules index,
      f.allow = true ∧ f.priority = zoneAllowPriority ∧ f.targetTags = [zoneTag zone] := by
  induction rules generalizing index with
  | nil => exact fun f hf => absurd hf List.not_mem_nil
  | cons rule rest ih =>
    intro f hf
    rcases List.mem_cons.mp hf with rfl | hf
    · exact ⟨rfl, rfl, rfl⟩
    · exact ih f hf

theorem allowFirewall_covers {rule : Rule} (h : rule.Formed) (name : String) (priority : ℕ)
    (tags : List String) (description : String) (flow : Flow) :
    GceFirewall.covers ⟨name, rule.direction, priority, tags, true,
      [(gceProtocol rule.protocol, rule.ports)], [rule.peer], description⟩ flow = rule.covers flow := by
  obtain ⟨direction, protocol, ports, peer, why⟩ := rule
  unfold Rule.Formed at h
  cases protocol with
  | all =>
    obtain rfl : ports = [] := h.mp rfl
    simp [GceFirewall.covers, Rule.covers, gceProtocol, Protocol.number]
  | tcp | udp =>
    have hne : ports ≠ [] := fun hnil => by cases h.mpr hnil
    have hempty : ports.isEmpty = false := by simpa using hne
    simp [GceFirewall.covers, Rule.covers, gceProtocol, Protocol.number, Bool.and_assoc]

theorem allowFirewalls_cover {zone : Zone} {rules : List Rule} (h : ∀ rule ∈ rules, rule.Formed)
    (index : ℕ) (direction : Direction) (flow : Flow) :
    ((allowFirewalls zone rules index).any fun f => f.direction = direction && f.covers flow) =
      rules.any fun rule => rule.direction = direction && rule.covers flow := by
  induction rules generalizing index with
  | nil => rfl
  | cons rule rest ih =>
    rw [allowFirewalls, List.any_cons, List.any_cons, ih fun r hr => h r (List.mem_cons_of_mem _ hr),
      allowFirewall_covers (h rule List.mem_cons_self)]

theorem zoneTag_injective {a b : Zone} (h : zoneTag a = zoneTag b) : a = b := by
  cases a <;> cases b <;> first | rfl | exact absurd h (by decide)

/-- Of the rules of all zones a tag selects those of its own zone. -/
theorem flatMap_of_name {β : Type} {entries : List Entry} (hnames : (entries.map (·.name)).Nodup)
    {entry : Entry} (hentry : entry ∈ entries) {f : Entry → List β}
    (hother : ∀ other ∈ entries, other.name ≠ entry.name → f other = []) :
    entries.flatMap f = f entry := by
  induction entries with
  | nil => cases hentry
  | cons head rest ih =>
    rw [List.map_cons, List.nodup_cons] at hnames
    have hmem : ∀ other ∈ rest, other.name ≠ head.name := fun other hin hname =>
      hnames.1 (hname ▸ List.mem_map_of_mem hin)
    rw [List.flatMap_cons]
    rcases List.mem_cons.mp hentry with rfl | hin
    · have hnil : rest.flatMap f = [] := List.flatMap_eq_nil_iff.mpr fun other hin =>
        hother other (List.mem_cons_of_mem _ hin) (hmem other hin)
      rw [hnil, List.append_nil]
    · rw [hother head List.mem_cons_self (hmem entry hin).symm, List.nil_append]
      exact ih hnames.2 hin fun other ho => hother other (List.mem_cons_of_mem _ ho)

theorem zoneFirewalls_tags {entry : Entry} :
    ∀ f ∈ zoneFirewalls entry, f.targetTags = [zoneTag entry.name] := by
  intro f hf
  rcases List.mem_append.mp hf with hf | hf
  · exact (allowFirewalls_same f hf).2.2
  · split at hf
    · cases hf
    · obtain rfl := List.mem_singleton.mp hf
      rfl

theorem tagged_zoneFirewalls {entries : List Entry} (hnames : (entries.map (·.name)).Nodup)
    {entry : Entry} (hentry : entry ∈ entries) (direction : Direction) :
    (entries.flatMap zoneFirewalls).filter (fun f =>
      f.direction = direction && f.targetTags.contains (zoneTag entry.name)) =
        (zoneFirewalls entry).filter (·.direction = direction) := by
  rw [List.filter_flatMap, flatMap_of_name hnames hentry]
  · refine List.filter_congr fun f hf => ?_
    simp [zoneFirewalls_tags f hf]
  · intro other hother hne
    refine List.filter_eq_nil_iff.mpr fun f hf => ?_
    have htag : zoneTag entry.name ≠ zoneTag other.name := fun h => hne (zoneTag_injective h).symm
    simp [zoneFirewalls_tags f hf, htag]

theorem gcp_agrees {entries : List Entry} (hnames : (entries.map (·.name)).Nodup) {entry : Entry}
    (hentry : entry ∈ entries) (h : entry.toSpec.Formed) (direction : Direction) (flow : Flow) :
    gcpAdmits entries entry.name direction flow = entry.admits direction flow := by
  have hallows : ((((allowFirewalls entry.name entry.rules 0).filter
      (·.direction = direction)).map GceFirewall.filter).any (·.covers flow)) =
        entry.admits direction flow := by
    rw [List.any_map, List.any_filter]
    exact allowFirewalls_cover h.rules 0 direction flow
  have hallow : ∀ rule ∈ ((allowFirewalls entry.name entry.rules 0).filter
      (·.direction = direction)).map GceFirewall.filter,
        rule.allow = true ∧ rule.priority < gceDenyPriority := by
    intro rule hrule
    obtain ⟨f, hf, rfl⟩ := List.mem_map.mp hrule
    obtain ⟨ha, hp, -⟩ := allowFirewalls_same f (List.mem_of_mem_filter hf)
    refine ⟨ha, ?_⟩
    show f.priority < 2000
    rw [hp]
    decide
  rw [gcpAdmits, tagged_zoneFirewalls hnames hentry, zoneFirewalls, List.filter_append,
    List.map_append, ← hallows]
  cases direction with
  | ingress =>
    have hdeny : (if entry.internetEgress then [] else [gceDeny entry.name]).filter
        (·.direction = .ingress) = [] := by cases entry.internetEgress <;> rfl
    rw [hdeny, List.map_nil, List.append_nil]
    exact Firewall.admits_allows_only fun rule hrule => (hallow rule hrule).1
  | egress =>
    cases hopen : entry.internetEgress with
    | false =>
      have hcovers : (gceDeny entry.name).covers flow = true := by
        simp [gceDeny, GceFirewall.covers, anywhere_holds]
      exact admits_closed (fun rule hrule => (hallow rule hrule).1) rfl hcovers
        (fun rule hrule => (hallow rule hrule).2) fun _ h => absurd h List.not_mem_nil
    | true =>
      have hany := hallows.trans (h.admits_egress hopen flow)
      rw [hany]
      refine (congrArg (Firewall.admits · _ flow) (List.append_nil _)).trans ?_
      exact Firewall.admits_allows (fun rule hrule => (hallow rule hrule).1) hany

/-! ### The layout -/

theorem mem_sortedPorts {port : ℕ} {ports : List ℕ} : port ∈ sortedPorts ports ↔ port ∈ ports := by
  rw [sortedPorts, List.mem_insertionSort, List.mem_dedup]

theorem rule_formed {direction : Direction} {protocol : Protocol} {ports : List ℕ} {peer : Net 32}
    {why : String} (h : protocol = .all ↔ ports = []) :
    (rule direction protocol ports peer why).Formed := by
  have hnil : sortedPorts ports = [] ↔ ports = [] := by
    simp only [List.eq_nil_iff_forall_not_mem, mem_sortedPorts]
  exact h.trans hnil.symm

theorem spec_formed (nets : Zone → Net 32) (whole : Net 32) (zone : Zone) :
    (spec nets whole zone).Formed := by
  have hplant : plantPorts ≠ [] :=
    List.ne_nil_of_mem (mem_sortedPorts.mpr List.mem_cons_self)
  have hdmz : plantPortsFromDmz ≠ [] :=
    List.ne_nil_of_mem (mem_sortedPorts.mpr List.mem_cons_self)
  cases zone with
  | enterprise =>
    refine ⟨?_, by simp [spec], fun _ => ⟨_, List.mem_cons_of_mem _ (List.mem_cons_of_mem _
      List.mem_cons_self), rfl, rfl, rfl⟩⟩
    simp only [spec, List.forall_mem_cons, List.not_mem_nil, false_implies, implies_true, and_true]
    exact ⟨rule_formed (by simp), rule_formed (by simp), rule_formed (by simp)⟩
  | dmz =>
    refine ⟨?_, by simp [spec], fun h => by cases h⟩
    simp only [spec, List.forall_mem_cons, List.not_mem_nil, false_implies, implies_true, and_true]
    exact ⟨rule_formed (by simp), rule_formed (by simp), rule_formed (by simp [dmzEgressTcp]),
      rule_formed (by simp [dmzEgressUdp]), rule_formed (by simp)⟩
  | plant =>
    refine ⟨?_, by simp [spec], fun h => by cases h⟩
    simp only [spec, List.forall_mem_cons, List.not_mem_nil, false_implies, implies_true, and_true]
    exact ⟨rule_formed (by simp), rule_formed (by simp [hplant]), rule_formed (by simp [hdmz]),
      rule_formed (by simp)⟩

def entryOf (net : Net 32) (zone : Zone) : Entry :=
  { spec (subnet net) net zone with name := zone, cidr := subnet net zone }

/-- A network that is too small is refused, and any other is laid out. -/
theorem layout_eq_ok {network : Network} {entries : List Entry} : layout network = .ok entries ↔
    network.net.prefixlen ≤ minNetworkPrefix ∧ zones.map (entryOf network.net) = entries := by
  by_cases hsize : minNetworkPrefix < network.net.prefixlen
  · simp [layout, subnets, checkNetwork, hsize, bind, Except.bind]
  · simp only [layout, subnets, rules, checkNetwork, if_neg hsize, bind, Except.bind, pure,
      Except.pure, Except.ok.injEq]
    exact (and_iff_right (Nat.le_of_not_lt hsize)).symm

/-- Where there are zones a guest goes to the one of its role. -/
theorem placement_layout {network : Network} {entries : List Entry}
    (h : layout network = .ok entries) (name : String) (cellRole : Option String) :
    placement entries name (some (zoneOf cellRole)) =
      .ok (some (entryOf network.net (zoneOf cellRole))) := by
  obtain ⟨-, rfl⟩ := layout_eq_ok.mp h
  cases zoneOf cellRole <;> rfl

/-- Where there are none only the enterprise guests find a place. -/
theorem placement_flat {name : String} {zone : Zone} :
    placement [] name (some zone) = .ok none ↔ zone = .enterprise := by
  cases zone <;> simp [placement]

/-- **Every cloud's firewall admits what the zone's rules do.** -/
theorem drivers_agree {network : Network} {entries : List Entry} (h : layout network = .ok entries)
    {cloud : Cloud} (hcloud : cloud.Lawful) {entry : Entry} (hentry : entry ∈ entries)
    (direction : Direction) (flow : Flow) :
    cloud.admits entries entry direction flow = entry.admits direction flow := by
  obtain ⟨-, rfl⟩ := layout_eq_ok.mp h
  have hnames : ((zones.map (entryOf network.net)).map (·.name)).Nodup := by
    rw [List.map_map]
    exact (by decide : zones.Nodup)
  have hformed : entry.toSpec.Formed := by
    obtain ⟨zone, -, rfl⟩ := List.mem_map.mp hentry
    exact spec_formed _ _ zone
  cases cloud with
  | aws => exact aws_agrees hformed.rules direction flow
  | azure platform fallback => exact azure_agrees hformed hcloud fallback direction flow
  | gcp => exact gcp_agrees hnames hentry hformed direction flow
  | oci => exact oci_agrees hformed.rules direction flow

theorem minNetworkPrefix_le : minNetworkPrefix ≤ 32 := by decide

def sampleNetwork : Network :=
  ⟨"10.20.4.0/22", Net.of 0x0A140400 minNetworkPrefix minNetworkPrefix_le, by decide +kernel⟩

def sampleEntries : List Entry := zones.map (entryOf sampleNetwork.net)

theorem sampleNetwork_layout : layout sampleNetwork = .ok sampleEntries :=
  layout_eq_ok.mpr ⟨le_rfl, rfl⟩

/-- What a network security group starts with. -/
def samplePlatform : List SecurityRule :=
  [⟨"AllowVnetInBound", 65000, .ingress, true, "*", some sampleNetwork.net, some sampleNetwork.net,
      none, ""⟩,
    ⟨"DenyAllInBound", 65500, .ingress, false, "*", none, none, none, ""⟩,
    ⟨"AllowVnetOutBound", 65000, .egress, true, "*", some sampleNetwork.net,
      some sampleNetwork.net, none, ""⟩,
    ⟨"AllowInternetOutBound", 65001, .egress, true, "*", none, none, none, ""⟩,
    ⟨"DenyAllOutBound", 65500, .egress, false, "*", none, none, none, ""⟩]

theorem sampleCloud_lawful : (Cloud.azure samplePlatform false).Lawful := by
  simp [Cloud.Lawful, samplePlatform, zoneDenyPriority]

/-- From 10.20.6.5, in the plant, to 8.8.8.8. -/
def sampleFlow : Flow := ⟨0x0A140605, 0x08080808, 6, 443⟩

theorem sampleFlow_agrees :
    (Cloud.azure samplePlatform false).admits sampleEntries (entryOf sampleNetwork.net .plant)
      .egress sampleFlow = (entryOf sampleNetwork.net .plant).admits .egress sampleFlow :=
  drivers_agree sampleNetwork_layout sampleCloud_lawful
    (List.mem_map_of_mem (by decide : Zone.plant ∈ zones)) .egress sampleFlow

/-! ### Where an address is -/

theorem toNat_and_netmask {w : ℕ} (ip : BitVec w) {length : ℕ} (h : length ≤ w) :
    (ip &&& netmask w length).toNat = ip.toNat / 2 ^ (w - length) * 2 ^ (w - length) := by
  refine Nat.eq_of_testBit_eq fun i => ?_
  rw [Nat.testBit_mul_two_pow, Nat.testBit_div_two_pow]
  change (ip &&& netmask w length).getLsbD i = (decide (w - length ≤ i) && _)
  simp only [netmask, BitVec.getLsbD_and, BitVec.getLsbD_xor, BitVec.getLsbD_allOnes,
    BitVec.getLsbD_ushiftRight]
  by_cases hlow : w - length ≤ i
  · have hsum : i - (w - length) + (w - length) = i := Nat.sub_add_cancel hlow
    have hout : ¬ length + i < w := by omega
    rw [hsum, decide_eq_true hlow, Bool.true_and, decide_eq_false hout, Bool.xor_false]
    by_cases hi : i < w
    · rw [decide_eq_true hi, Bool.and_true]
      rfl
    · rw [decide_eq_false hi, Bool.and_false]
      exact (BitVec.getLsbD_of_ge ip i (Nat.le_of_not_lt hi)).symm
  · have hin : length + i < w := by omega
    have hi : i < w := by omega
    simp [hlow, hin, hi]

/-- A network is an interval. -/
theorem holds_iff {w : ℕ} {net : Net w} {ip : BitVec w} : net.holds ip = true ↔
    net.base.toNat ≤ ip.toNat ∧ ip.toNat < net.base.toNat + 2 ^ (w - net.prefixlen) := by
  have hpos := Nat.two_pow_pos (w - net.prefixlen)
  obtain ⟨q, hq⟩ := Tunnels.base_dvd net
  rw [Net.holds, decide_eq_true_eq, ← BitVec.toNat_inj, toNat_and_netmask ip net.prefixlen_le, hq,
    Nat.mul_comm (2 ^ (w - net.prefixlen)) q, Nat.mul_right_cancel_iff hpos, ← Nat.succ_mul]
  rw [Nat.div_eq_iff hpos]
  constructor
  · rintro ⟨hle, hlt⟩
    refine ⟨hle, ?_⟩
    rw [Nat.succ_mul]
    omega
  · rintro ⟨hle, hlt⟩
    refine ⟨hle, ?_⟩
    rw [Nat.succ_mul] at hlt
    omega

theorem width_of_small {net : Net 32} (h : net.prefixlen ≤ minNetworkPrefix) :
    ∃ k, 2 ^ (32 - net.prefixlen) = 1024 * k ∧ 0 < k := by
  have hsplit : 32 - net.prefixlen = 10 + (22 - net.prefixlen) := by
    have hle : net.prefixlen ≤ 22 := h
    omega
  exact ⟨2 ^ (22 - net.prefixlen), by rw [hsplit, pow_add]; rfl, Nat.two_pow_pos _⟩

theorem block_base {net : Net 32} (h : net.prefixlen ≤ minNetworkPrefix) {i : ℕ} (hi : i < 4) :
    (block net i).base.toNat = net.base.toNat + i * 256 := by
  obtain ⟨k, hk, hpos⟩ := width_of_small h
  obtain ⟨q, hq⟩ := Tunnels.base_dvd net
  have hend := Tunnels.base_add_le net
  rw [hk] at hq hend
  have hsum : (net.base + BitVec.ofNat 32 (i * 2 ^ (32 - zonePrefix))).toNat =
      net.base.toNat + i * 256 := by
    rw [BitVec.toNat_add, BitVec.toNat_ofNat]
    have hsmall : i * 2 ^ (32 - zonePrefix) % 2 ^ 32 = i * 256 := by
      refine Nat.mod_eq_of_lt ?_
      show i * 256 < _
      omega
    rw [hsmall]
    refine Nat.mod_eq_of_lt ?_
    have hk1 : 1024 * 1 ≤ 1024 * k := Nat.mul_le_mul_left _ hpos
    omega
  show (_ &&& netmask 32 zonePrefix).toNat = _
  rw [toNat_and_netmask _ zonePrefix_le, hsum, hq]
  show (1024 * k * q + i * 256) / 256 * 256 = _
  have hmul : 1024 * k * q = 256 * (4 * k * q) := by ring
  omega

theorem subnet_holds {net : Net 32} (h : net.prefixlen ≤ minNetworkPrefix) (zone : Zone)
    (ip : BitVec 32) : (subnet net zone).holds ip = true ↔
      net.base.toNat + zones.idxOf zone * 256 ≤ ip.toNat ∧
        ip.toNat < net.base.toNat + zones.idxOf zone * 256 + 256 := by
  have hi : zones.idxOf zone < 4 := by cases zone <;> decide
  rw [subnet, holds_iff, block_base h hi]
  rfl

inductive Place
  | zone (zone : Zone)
  /-- In the network, and in none of its zones. -/
  | spare
  | outside
  deriving DecidableEq

def place (net : Net 32) (ip : BitVec 32) : Place :=
  if (subnet net .enterprise).holds ip then .zone .enterprise
  else if (subnet net .dmz).holds ip then .zone .dmz
  else if (subnet net .plant).holds ip then .zone .plant
  else if net.holds ip then .spare
  else .outside

theorem subnet_apart {net : Net 32} (h : net.prefixlen ≤ minNetworkPrefix) {a b : Zone}
    {ip : BitVec 32} (ha : (subnet net a).holds ip = true) (hb : (subnet net b).holds ip = true) :
    a = b := by
  obtain ⟨hle, hlt⟩ := (subnet_holds h a ip).mp ha
  obtain ⟨hle', hlt'⟩ := (subnet_holds h b ip).mp hb
  have hidx : zones.idxOf a = zones.idxOf b := by omega
  cases a <;> cases b <;> first | rfl | exact absurd hidx (by decide)

/-- An address of a zone's subnet is nowhere else. -/
theorem place_eq_zone {net : Net 32} (h : net.prefixlen ≤ minNetworkPrefix) (zone : Zone)
    (ip : BitVec 32) : (subnet net zone).holds ip = true ↔ place net ip = .zone zone := by
  constructor
  · intro hzone
    have hother : ∀ other, other ≠ zone → ¬ (subnet net other).holds ip = true :=
      fun other hne hother => hne (subnet_apart h hother hzone)
    unfold place
    cases zone with
    | enterprise => rw [if_pos hzone]
    | dmz => rw [if_neg (hother .enterprise (by decide)), if_pos hzone]
    | plant =>
      rw [if_neg (hother .enterprise (by decide)), if_neg (hother .dmz (by decide)), if_pos hzone]
  · intro hplace
    unfold place at hplace
    split_ifs at hplace with he hd hp
    · obtain rfl := Place.zone.inj hplace
      exact he
    · obtain rfl := Place.zone.inj hplace
      exact hd
    · obtain rfl := Place.zone.inj hplace
      exact hp

theorem place_ne_outside {net : Net 32} (h : net.prefixlen ≤ minNetworkPrefix) (ip : BitVec 32) :
    net.holds ip = true ↔ place net ip ≠ .outside := by
  obtain ⟨k, hk, hpos⟩ := width_of_small h
  have hinside : ∀ zone, (subnet net zone).holds ip = true → net.holds ip = true := by
    intro zone hzone
    have hi : zones.idxOf zone < 3 := by cases zone <;> decide
    obtain ⟨hle, hlt⟩ := (subnet_holds h zone ip).mp hzone
    refine holds_iff.mpr ⟨by omega, ?_⟩
    rw [hk]
    omega
  unfold place
  split_ifs with he hd hp hnet
  · exact ⟨fun _ => by simp, fun _ => hinside _ he⟩
  · exact ⟨fun _ => by simp, fun _ => hinside _ hd⟩
  · exact ⟨fun _ => by simp, fun _ => hinside _ hp⟩
  · exact ⟨fun _ => by simp, fun _ => hnet⟩
  · exact ⟨fun h => absurd h hnet, fun h => absurd rfl h⟩

/-! ### Which connections there are -/

/-- A connection has to pass the firewall of the zone it leaves and of the zone it enters. -/
def connects (cloud : Cloud) (entries : List Entry) (net : Net 32) (flow : Flow) : Bool :=
  entries.all fun entry =>
    (place net flow.source ≠ .zone entry.name || cloud.admits entries entry .egress flow) &&
      (place net flow.destination ≠ .zone entry.name || cloud.admits entries entry .ingress flow)

/-- What may leave a zone. -/
def leaves (zone : Zone) (destination : Place) (protocol port : ℕ) : Bool :=
  match zone with
  | .enterprise => true
  | .dmz => destination ≠ .outside || protocol = 6 && dmzEgressTcp.contains port ||
      protocol = 17 && dmzEgressUdp.contains port
  | .plant => destination ≠ .outside

/-- What may enter a zone. -/
def enters (source : Place) (zone : Zone) (protocol port : ℕ) : Bool :=
  source = .zone zone ||
    protocol = 6 && match zone, source with
      | .enterprise, .zone .dmz => port = ssh
      | .dmz, .zone .enterprise => port = ssh
      | .plant, .zone .enterprise => plantPorts.contains port
      | .plant, .zone .dmz => plantPortsFromDmz.contains port
      | _, _ => false

theorem rule_covers {direction : Direction} {protocol : Protocol} {ports : List ℕ} {peer : Net 32}
    {why : String} {flow : Flow} : (rule direction protocol ports peer why).covers flow =
      (peer.holds (flow.peer direction) && protocol.number.all (flow.protocol = ·) &&
        (ports.isEmpty || ports.contains flow.port)) := by
  have hempty : (sortedPorts ports).isEmpty = ports.isEmpty := by
    rw [Bool.eq_iff_iff, List.isEmpty_iff, List.isEmpty_iff]
    simp only [List.eq_nil_iff_forall_not_mem, mem_sortedPorts]
  have hmem : (sortedPorts ports).contains flow.port = ports.contains flow.port := by
    rw [Bool.eq_iff_iff, List.contains_iff_mem, List.contains_iff_mem, mem_sortedPorts]
  rw [rule, Rule.covers, hempty, hmem]

theorem subnet_holds_eq {net : Net 32} (h : net.prefixlen ≤ minNetworkPrefix) (zone : Zone)
    (ip : BitVec 32) : (subnet net zone).holds ip = decide (place net ip = .zone zone) := by
  rw [Bool.eq_iff_iff, place_eq_zone h, decide_eq_true_eq]

theorem net_holds_eq {net : Net 32} (h : net.prefixlen ≤ minNetworkPrefix) (ip : BitVec 32) :
    net.holds ip = decide (place net ip ≠ .outside) := by
  rw [Bool.eq_iff_iff, place_ne_outside h, decide_eq_true_eq]

theorem rule_direction (direction : Direction) (protocol : Protocol) (ports : List ℕ) (peer : Net 32)
    (why : String) : (rule direction protocol ports peer why).direction = direction := rfl

theorem admits_egress {net : Net 32} (h : net.prefixlen ≤ minNetworkPrefix) (zone : Zone)
    (flow : Flow) : (entryOf net zone).admits .egress flow =
      leaves zone (place net flow.destination) flow.protocol flow.port := by
  have hwhole := net_holds_eq h flow.destination
  cases zone with
  | enterprise =>
    simp [entryOf, Spec.admits, spec, rule_covers, rule_direction, leaves, anywhere_holds,
      Protocol.number, Flow.peer]
  | dmz =>
    have htcp : dmzEgressTcp.isEmpty = false := rfl
    have hudp : dmzEgressUdp.isEmpty = false := rfl
    simp only [entryOf, Spec.admits, spec, List.any_cons, List.any_nil, rule_covers, rule_direction,
      anywhere_holds, Protocol.number, Flow.peer, hwhole, leaves, reduceCtorEq, decide_false,
      decide_true, Bool.false_and, Bool.true_and, Bool.false_or, Bool.or_false, Option.all_some,
      Option.all_none, List.isEmpty_nil, Bool.and_true, Bool.true_or, htcp, hudp]
    rw [← Bool.or_assoc, Bool.or_comm, Bool.or_assoc]
  | plant =>
    simp only [entryOf, Spec.admits, spec, List.any_cons, List.any_nil, rule_covers, rule_direction,
      Protocol.number, Flow.peer, hwhole, leaves, reduceCtorEq, decide_false, decide_true,
      Bool.false_and, Bool.true_and, Bool.false_or, Bool.or_false, Option.all_none,
      List.isEmpty_nil, Bool.and_true, Bool.true_or]

theorem isEmpty_plantPorts : plantPorts.isEmpty = false := by
  rw [List.isEmpty_eq_false_iff]
  exact List.ne_nil_of_mem (mem_sortedPorts.mpr List.mem_cons_self)

theorem isEmpty_plantPortsFromDmz : plantPortsFromDmz.isEmpty = false := by
  rw [List.isEmpty_eq_false_iff]
  exact List.ne_nil_of_mem (mem_sortedPorts.mpr List.mem_cons_self)

theorem admits_ingress {net : Net 32} (h : net.prefixlen ≤ minNetworkPrefix) (zone : Zone)
    (flow : Flow) : (entryOf net zone).admits .ingress flow =
      enters (place net flow.source) zone flow.protocol flow.port := by
  have hsubnet (zone : Zone) := subnet_holds_eq h zone flow.source
  cases zone <;>
    simp only [entryOf, Spec.admits, spec, List.any_cons, List.any_nil, rule_covers, rule_direction,
      Protocol.number, Flow.peer, hsubnet, enters, reduceCtorEq, decide_false, decide_true,
      Bool.false_and, Bool.true_and, Bool.false_or, Bool.or_false, Option.all_some, Option.all_none,
      List.isEmpty_nil, List.isEmpty_cons, Bool.and_true, Bool.true_or, isEmpty_plantPorts,
      isEmpty_plantPortsFromDmz] <;>
    cases place net flow.source with
    | zone source => cases source <;> simp
    | spare => simp
    | outside => simp

/-- What the zones are for. -/
def mayConnect (source destination : Place) (protocol port : ℕ) : Bool :=
  match source, destination with
  | .zone .enterprise, .zone .enterprise | .zone .dmz, .zone .dmz | .zone .plant, .zone .plant => true
  | .zone .enterprise, .zone .dmz | .zone .dmz, .zone .enterprise => protocol = 6 && port = ssh
  | .zone .enterprise, .zone .plant => protocol = 6 && plantPorts.contains port
  | .zone .dmz, .zone .plant => protocol = 6 && plantPortsFromDmz.contains port
  | .zone .plant, .zone _ => false
  | .zone .enterprise, .outside => true
  | .zone .dmz, .outside =>
    protocol = 6 && dmzEgressTcp.contains port || protocol = 17 && dmzEgressUdp.contains port
  | .zone .plant, .outside => false
  | .zone _, .spare => true
  | .spare, .zone _ | .outside, .zone _ => false
  | .spare, .spare | .spare, .outside | .outside, .spare | .outside, .outside => true

/-- **The connections of every cloud's network are those that the zones are for.** -/
theorem connects_eq {network : Network} {entries : List Entry} (h : layout network = .ok entries)
    {cloud : Cloud} (hcloud : cloud.Lawful) (flow : Flow) :
    connects cloud entries network.net flow =
      mayConnect (place network.net flow.source) (place network.net flow.destination) flow.protocol
        flow.port := by
  have hagrees := fun entry (hentry : entry ∈ entries) direction =>
    drivers_agree h hcloud hentry direction flow
  obtain ⟨hsize, rfl⟩ := layout_eq_ok.mp h
  have hout (zone : Zone) : cloud.admits (zones.map (entryOf network.net)) (entryOf network.net zone)
      .egress flow = leaves zone (place network.net flow.destination) flow.protocol flow.port :=
    (hagrees _ (List.mem_map_of_mem (by cases zone <;> decide)) .egress).trans
      (admits_egress hsize zone flow)
  have hin (zone : Zone) : cloud.admits (zones.map (entryOf network.net)) (entryOf network.net zone)
      .ingress flow = enters (place network.net flow.source) zone flow.protocol flow.port :=
    (hagrees _ (List.mem_map_of_mem (by cases zone <;> decide)) .ingress).trans
      (admits_ingress hsize zone flow)
  have hname (zone : Zone) : (entryOf network.net zone).name = zone := rfl
  have hall : connects cloud (zones.map (entryOf network.net)) network.net flow =
      zones.all fun zone => (place network.net flow.source ≠ .zone zone ||
        leaves zone (place network.net flow.destination) flow.protocol flow.port) &&
          (place network.net flow.destination ≠ .zone zone ||
            enters (place network.net flow.source) zone flow.protocol flow.port) := by
    simp only [connects, List.all_map, Function.comp_def, hout, hin, hname]
  rw [hall, zones]
  cases place network.net flow.source with
  | zone a =>
    cases place network.net flow.destination with
    | zone b => cases a <;> cases b <;> simp [leaves, enters, mayConnect]
    | spare => cases a <;> simp [leaves, mayConnect]
    | outside => cases a <;> simp [leaves, mayConnect]
  | spare =>
    cases place network.net flow.destination with
    | zone b => cases b <;> simp [enters, mayConnect]
    | spare => simp [mayConnect]
    | outside => simp [mayConnect]
  | outside =>
    cases place network.net flow.destination with
    | zone b => cases b <;> simp [enters, mayConnect]
    | spare => simp [mayConnect]
    | outside => simp [mayConnect]

theorem sampleFlow_connects :
    connects (.azure samplePlatform false) sampleEntries sampleNetwork.net sampleFlow =
      mayConnect (place sampleNetwork.net sampleFlow.source)
        (place sampleNetwork.net sampleFlow.destination) sampleFlow.protocol sampleFlow.port :=
  connects_eq sampleNetwork_layout sampleCloud_lawful sampleFlow

/-! ### Chains of connections -/

/-- A guest has an address of its zone; any other host is outside. -/
def Opens (cloud : Cloud) (entries : List Entry) (net : Net 32) (a b : BitVec 32) : Prop :=
  place net a ≠ .spare ∧ place net b ≠ .spare ∧
    ∃ protocol port, connects cloud entries net ⟨a, b, protocol, port⟩ = true

/-- One connection: nothing outside opens one to a guest, and the plant none that leaves it. -/
theorem opens_step {network : Network} {entries : List Entry} (h : layout network = .ok entries)
    {cloud : Cloud} (hcloud : cloud.Lawful) {a b : BitVec 32}
    (hopens : Opens cloud entries network.net a b) :
    (place network.net a = .outside → place network.net b = .outside) ∧
      (place network.net a = .zone .plant → place network.net b = .zone .plant) := by
  obtain ⟨-, hspare, protocol, port, hconnects⟩ := hopens
  have hmay := (connects_eq h hcloud ⟨a, b, protocol, port⟩).symm.trans hconnects
  constructor
  · intro ha
    rw [ha] at hmay
    cases hb : place network.net b with
    | zone zone =>
      rw [hb] at hmay
      cases hmay
    | spare => exact absurd hb hspare
    | outside => rfl
  · intro ha
    rw [ha] at hmay
    cases hb : place network.net b with
    | zone zone =>
      rw [hb] at hmay
      cases zone with
      | enterprise => cases hmay
      | dmz => cases hmay
      | plant => rfl
    | spare => exact absurd hb hspare
    | outside =>
      rw [hb] at hmay
      cases hmay

/-- **No chain of connections leads into the network from outside, or out of the plant.** -/
theorem chain_isolated {network : Network} {entries : List Entry} (h : layout network = .ok entries)
    {cloud : Cloud} (hcloud : cloud.Lawful) {a b : BitVec 32}
    (hchain : Relation.ReflTransGen (Opens cloud entries network.net) a b) :
    (place network.net a = .outside → place network.net b = .outside) ∧
      (place network.net a = .zone .plant → place network.net b = .zone .plant) := by
  induction hchain with
  | refl => exact ⟨id, id⟩
  | tail _ hopens ih =>
    obtain ⟨hout, hplant⟩ := opens_step h hcloud hopens
    exact ⟨hout ∘ ih.1, hplant ∘ ih.2⟩

/-- Two guests of the plant. -/
theorem samplePlant_chain : Relation.ReflTransGen
    (Opens (.azure samplePlatform false) sampleEntries sampleNetwork.net) 0x0A140605 0x0A140606 := by
  refine .single ⟨by decide +kernel, by decide +kernel, 6, 502, ?_⟩
  rw [connects_eq sampleNetwork_layout sampleCloud_lawful]
  decide +kernel

theorem samplePlant_isolated :
    (place sampleNetwork.net 0x0A140605 = .outside → place sampleNetwork.net 0x0A140606 = .outside) ∧
      (place sampleNetwork.net 0x0A140605 = .zone .plant →
        place sampleNetwork.net 0x0A140606 = .zone .plant) :=
  chain_isolated sampleNetwork_layout sampleCloud_lawful samplePlant_chain

end Pov
