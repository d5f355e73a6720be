import VmDashboard.Agent.Policy
import VmDashboard.Machine.Except

/-!
# What the mandatory deny list keeps out of reach

The deny list is compared with the address as it is written. The host that a
connection reaches is another one for an IPv4-mapped IPv6 address and for the
unspecified addresses; these `Alias`es, and the IPv6 metadata address, are what
the mandatory networks do not cover.
-/

namespace Agent
open Python (Yaml IpAddress IpNetwork Net ipAddress ipNetwork ipv4Mapped)

/-! ### Hosts nothing may reach -/

theorem eight_le : 8 ≤ 32 := by decide

theorem sixteen_le : 16 ≤ 32 := by decide

theorem ten_le : 10 ≤ 128 := by decide

theorem full_le : 128 ≤ 128 := le_refl _

def loopback4 : Net 32 := Net.of 0x7F000000 8 eight_le

def loopback6 : Net 128 := Net.of 1 128 full_le

def linkLocal4 : Net 32 := Net.of 0xA9FE0000 16 sixteen_le

def linkLocal6 : Net 128 := Net.of 0xFE800000000000000000000000000000 10 ten_le

/-- The EC2 metadata service over IPv6; the IPv4 ones are link-local. -/
def metadata6 : BitVec 128 := 0xFD000EC2000000000000000000000254

def forbidden4 (ip : BitVec 32) : Bool :=
  (IpNetwork.v4 loopback4).contains (.v4 ip) || (IpNetwork.v4 linkLocal4).contains (.v4 ip)

/-- Loopback, link-local or a cloud metadata address. -/
def Forbidden : IpAddress → Prop
  | .v4 ip => forbidden4 ip = true
  | .v6 ip _ => (IpNetwork.v6 loopback6 none).contains (.v6 ip none) = true ∨
      (IpNetwork.v6 linkLocal6 none).contains (.v6 ip none) = true ∨ ip = metadata6

/-- The IPv4 host a connection to `ip` reaches. -/
def reached4 (ip : BitVec 32) : BitVec 32 := if ip = 0 then 0x7F000001 else ip

/-- The host a TCP connection to the address reaches. -/
def reached : IpAddress → IpAddress
  | .v4 ip => .v4 (reached4 ip)
  | .v6 ip scope =>
    match ipv4Mapped ip with
    | some v4 => .v4 (reached4 v4)
    | none => if ip = 0 then .v6 1 none else .v6 ip scope

/-- Written as an address outside the mandatory networks, and no host to reach all the same. -/
def Alias : IpAddress → Prop
  | .v4 ip => ip = 0
  | .v6 ip _ => ip = 0 ∨ ip = metadata6 ∨ ∃ v4 ∈ ipv4Mapped ip, v4 = 0 ∨ forbidden4 v4 = true

theorem forbidden4_reached {ip : BitVec 32} :
    forbidden4 (reached4 ip) = true ↔ ip = 0 ∨ forbidden4 ip = true := by
  unfold reached4
  by_cases h : ip = 0
  · rw [if_pos h]
    exact ⟨fun _ => .inl h, fun _ => by decide⟩
  · rw [if_neg h]
    exact ⟨.inr, fun hor => hor.resolve_left h⟩

theorem mandatoryDeny_eq : mandatoryDeny =
    [.v4 linkLocal4, .v4 loopback4, .v6 loopback6 none, .v6 linkLocal6 none] := by
  decide +kernel

theorem forbidden_of_alias {addr : IpAddress} (h : Alias addr) : Forbidden (reached addr) := by
  cases addr with
  | v4 ip => exact forbidden4_reached.mpr (.inl h)
  | v6 ip scope =>
    rcases h with rfl | rfl | ⟨v4, hv4, h⟩
    · exact .inl (by decide)
    · exact .inr (.inr rfl)
    · show Forbidden (match ipv4Mapped ip with
        | some v4 => .v4 (reached4 v4)
        | none => if ip = 0 then .v6 1 none else .v6 ip scope)
      rw [Option.mem_def.mp hv4]
      exact forbidden4_reached.mpr h

theorem alias_of_forbidden {addr : IpAddress} (h : Forbidden (reached addr)) :
    (∃ net ∈ mandatoryDeny, net.contains addr = true) ∨ Alias addr := by
  rw [mandatoryDeny_eq]
  cases addr with
  | v4 ip =>
    rcases forbidden4_reached.mp h with h0 | hip
    · exact .inr h0
    · left
      rcases Bool.or_eq_true_iff.mp hip with hloop | hlink
      · exact ⟨.v4 loopback4, by simp, hloop⟩
      · exact ⟨.v4 linkLocal4, by simp, hlink⟩
  | v6 ip scope =>
    unfold reached at h
    cases hmapped : ipv4Mapped ip with
    | some v4 =>
      simp only [hmapped] at h
      exact .inr (.inr (.inr ⟨v4, hmapped, forbidden4_reached.mp h⟩))
    | none =>
      simp only [hmapped] at h
      by_cases h0 : ip = 0
      · exact .inr (.inl h0)
      · rw [if_neg h0] at h
        rcases h with hloop | hlink | hmeta
        · exact .inl ⟨.v6 loopback6 none, by simp, hloop⟩
        · exact .inl ⟨.v6 linkLocal6 none, by simp, hlink⟩
        · exact .inr (.inr (.inl hmeta))

/-! ### What `load` and the checks make of the lists -/

theorem mem_foldl_missing {nets deny : List IpNetwork} {net : IpNetwork} (h : net ∈ nets ∨ net ∈ deny) :
    net ∈ nets.foldl (fun deny net => if net ∈ deny then deny else deny ++ [net]) deny := by
  induction nets generalizing deny with
  | nil => simpa using h
  | cons first nets ih =>
    rw [List.foldl_cons]
    apply ih
    rcases h with h | h
    · rcases List.mem_cons.mp h with rfl | h
      · right
        split
        · assumption
        · exact List.mem_append_right _ (List.mem_singleton.mpr rfl)
      · exact .inl h
    · right
      split
      · exact h
      · exact List.mem_append_left _ h

theorem parseDeny_mandatory {doc : Yaml} {deny : List IpNetwork} (h : parseDeny doc = .ok deny) :
    ∀ net ∈ mandatoryDeny, net ∈ deny := by
  unfold parseDeny at h
  cases hentries : denyEntries doc with
  | error fatal =>
    rw [hentries] at h
    cases h
  | ok entries =>
    rw [hentries] at h
    simp only [bind, Except.bind] at h
    split at h
    · cases h
    · obtain rfl := Except.ok.inj h
      exact fun net hnet => mem_foldl_missing (.inl hnet)

/-- However the file is written, the mandatory networks are on the list. -/
theorem load_mandatory {resolve : Yaml → Option (List String)} {others : Yaml → Option AgentFatal}
    {doc : Yaml} {policy : Policy} (h : Policy.load resolve others doc = .ok policy) :
    ∀ net ∈ mandatoryDeny, net ∈ policy.deny := by
  unfold Policy.load at h
  obtain ⟨-, h⟩ := Machine.raiseIf_eq_ok h
  obtain ⟨allow, -, h⟩ := Machine.bind_eq_ok h
  obtain ⟨-, h⟩ := Machine.raiseIf_eq_ok h
  obtain ⟨deny, hdeny, h⟩ := Machine.bind_eq_ok h
  obtain ⟨ansibleAllow, -, h⟩ := Machine.bind_eq_ok h
  cases hothers : others doc with
  | some fatal =>
    rw [hothers] at h
    cases h
  | none =>
    rw [hothers] at h
    obtain ⟨k8s, -, h⟩ := Machine.bind_eq_ok h
    obtain rfl := Except.ok.inj h
    exact parseDeny_mandatory hdeny

/-- The three kinds of access, each with an allow list of its own. -/
inductive Grant
  | probe
  | playbook
  | cluster
  deriving DecidableEq

def Policy.checkFor (policy : Policy) : Grant → String → ℤ → Except Refusal Unit
  | .probe => policy.check
  | .playbook => policy.checkAnsible
  | .cluster => policy.checkK8s

/-- The policy turns the kind of access on. -/
def Policy.enables (policy : Policy) : Grant → Bool
  | .probe => true
  | .playbook => policy.ansibleEnabled
  | .cluster => policy.k8sEnabled

def Policy.targets (policy : Policy) : Grant → List Target
  | .probe => policy.allow
  | .playbook => policy.ansibleAllow
  | .cluster => policy.k8sAllow

/-- A deny entry of the policy covers the address. -/
def Policy.Denies (policy : Policy) (addr : IpAddress) : Prop :=
  ∃ net ∈ policy.deny, net.contains addr = true

/-- The policy turns the access on and an entry of its allow list covers the address and port. -/
def Policy.Grants (policy : Policy) (grant : Grant) (addr : IpAddress) (port : ℤ) : Prop :=
  policy.enables grant = true ∧ ∃ target ∈ policy.targets grant,
    target.1.contains addr = true ∧ ∀ ports ∈ target.2, port ∈ ports

theorem checkAgainst_ok {deny : List IpNetwork} {allow : List Target} {ip : String} {port : ℤ}
    {refusal : Refusal} : checkAgainst deny allow ip port refusal = .ok () ↔
      ∃ addr ∈ ipAddress ip, (¬ ∃ net ∈ deny, net.contains addr = true) ∧
        ∃ target ∈ allow, target.1.contains addr = true ∧ ∀ ports ∈ target.2, port ∈ ports := by
  unfold checkAgainst
  cases haddr : ipAddress ip with
  | none => simp
  | some addr =>
    simp only [Option.mem_def, Option.some.injEq, exists_eq_left']
    cases hdeny : deny.find? fun net => net.contains addr with
    | some net =>
      have hnet : net.contains addr = true := by simpa using List.find?_some hdeny
      refine ⟨nofun, fun h => absurd ⟨net, List.mem_of_find?_eq_some hdeny, hnet⟩ h.1⟩
    | none =>
      have hfree : ¬ ∃ net ∈ deny, net.contains addr = true := by
        simpa using List.find?_eq_none.mp hdeny
      have hany : (allow.any fun target =>
          target.1.contains addr && target.2.all fun ports => port ∈ ports) = true ↔
          ∃ target ∈ allow, target.1.contains addr = true ∧ ∀ ports ∈ target.2, port ∈ ports := by
        simp only [List.any_eq_true, Bool.and_eq_true, Option.all_eq_true, decide_eq_true_eq]
        rfl
      simp only [hfree, not_false_eq_true, true_and]
      split
      · next h => exact ⟨fun _ => hany.mp h, fun _ => rfl⟩
      · next h => exact ⟨nofun, fun hall => absurd (hany.mpr hall) h⟩

theorem checkFor_ok {policy : Policy} {grant : Grant} {ip : String} {port : ℤ} :
    policy.checkFor grant ip port = .ok () ↔
      ∃ addr ∈ ipAddress ip, ¬ policy.Denies addr ∧ policy.Grants grant addr port := by
  have hoff : ∀ (refusal : Refusal) (allow : List Target), (.error refusal : Except Refusal Unit) = .ok () ↔
      ∃ addr ∈ ipAddress ip, ¬ policy.Denies addr ∧ (false = true ∧ ∃ target ∈ allow,
        target.1.contains addr = true ∧ ∀ ports ∈ target.2, port ∈ ports) := by
    intro refusal allow
    simp
  unfold Policy.Grants
  cases grant with
  | probe =>
    simp only [Policy.checkFor, Policy.check, checkAgainst_ok, Policy.enables, Policy.targets, true_and]
    rfl
  | playbook =>
    unfold Policy.checkFor Policy.checkAnsible Policy.enables Policy.targets
    cases policy.ansibleEnabled with
    | false => exact hoff _ _
    | true =>
      simp only [Bool.not_true, Bool.false_eq_true, if_false, checkAgainst_ok, true_and]
      rfl
  | cluster =>
    unfold Policy.checkFor Policy.checkK8s Policy.enables Policy.targets
    cases policy.k8sEnabled with
    | false => exact hoff _ _
    | true =>
      simp only [Bool.not_true, Bool.false_eq_true, if_false, checkAgainst_ok, true_and]
      rfl

/-- A text is kept from loopback, link-local and metadata hosts if and only if it is no alias of
one, or the policy itself covers or does not grant it. -/
theorem out_of_reach_iff {resolve : Yaml → Option (List String)}
    {others : Yaml → Option AgentFatal} {doc : Yaml} {policy : Policy}
    (hload : Policy.load resolve others doc = .ok policy) (grant : Grant) (ip : String) (port : ℤ) :
    (policy.checkFor grant ip port = .ok () → ∀ addr ∈ ipAddress ip, ¬ Forbidden (reached addr)) ↔
      ∀ addr ∈ ipAddress ip, Alias addr → policy.Denies addr ∨ ¬ policy.Grants grant addr port := by
  have hmandatory := load_mandatory hload
  rw [checkFor_ok]
  constructor
  · intro h addr haddr halias
    by_contra hopen
    rw [not_or, not_not] at hopen
    exact h ⟨addr, haddr, hopen⟩ addr haddr (forbidden_of_alias halias)
  · rintro h ⟨addr, haddr, hdenied, hgrants⟩ addr' haddr' hforbidden
    obtain rfl : addr = addr' := Option.mem_unique haddr haddr'
    rcases alias_of_forbidden hforbidden with ⟨net, hnet, hin⟩ | halias
    · exact hdenied ⟨net, hmandatory net hnet, hin⟩
    · rcases h addr haddr halias with hd | hg
      · exact hdenied hd
      · exact hg hgrants

/-! ### A policy as broad as it can be written -/

def broadDoc : Yaml :=
  .map [(.str "targets", .seq [.map [(.str "cidr", .str "0.0.0.0/0")],
    .map [(.str "cidr", .str "::/0")]])]

def broadPolicy : Policy where
  allow := [(.v4 (Net.of 0 0 (by decide)), none), (.v6 (Net.of 0 0 (by decide)) none, none)]
  deny := [.v4 linkLocal4, .v4 loopback4, .v6 loopback6 none, .v6 linkLocal6 none]
  ansibleEnabled := false
  ansibleAllow := []
  k8sEnabled := false
  k8sAllow := []

theorem broadPolicy_public : broadPolicy.checkFor .probe "10.1.2.3" 443 = .ok () ∧
    ∀ addr ∈ ipAddress "10.1.2.3", ¬ Forbidden (reached addr) := by
  have hload : Policy.load (fun _ => none) (fun _ => none) broadDoc = .ok broadPolicy := by
    decide +kernel
  have haccepted : broadPolicy.checkFor .probe "10.1.2.3" 443 = .ok () := by decide +kernel
  refine ⟨haccepted, (out_of_reach_iff hload .probe "10.1.2.3" 443).mpr ?_ haccepted⟩
  intro addr haddr halias
  have hip : ipAddress "10.1.2.3" = some (.v4 0x0A010203) := by decide +kernel
  rw [hip] at haddr
  obtain rfl := Option.some.inj haddr
  exact absurd halias (by decide : ¬ (0x0A010203 : BitVec 32) = 0)

theorem broadPolicy_metadata :
    Policy.load (fun _ => none) (fun _ => none) broadDoc = .ok broadPolicy ∧
      broadPolicy.checkFor .probe "::ffff:169.254.169.254" 80 = .ok () ∧
      ∃ addr ∈ ipAddress "::ffff:169.254.169.254", Forbidden (reached addr) := by
  refine ⟨by decide +kernel, by decide +kernel, .v6 0xFFFFA9FEA9FE none, by decide +kernel, ?_⟩
  show forbidden4 _ = true
  decide +kernel

end Agent
