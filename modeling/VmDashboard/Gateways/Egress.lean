import VmDashboard.Machine.System
import VmDashboard.Python.Convert
import VmDashboard.Tunnels.Parsed

/-!
# The dashboard's own address in a node's firewall

The pinned and the recently seen egress addresses of `services/managed_node_service.py`, as the
detections and the operator set them, and what `fit_to_capacity` drops from a source list that is
too long for a cloud.
-/

namespace NodeIngress
open Python (strip ipAddress ipNetwork IpAddress IpNetwork Net)

/-! ### The configuration -/

/-- The pinned CIDR, the recent ones as comma-separated values, and the published pool likewise. -/
structure Config where
  dashboardCidr : String
  recent : String
  pool : String
deriving DecidableEq

/-- `[c.strip() for c in csv.split(",") if c.strip()]`. -/
def entries (csv : String) : List String :=
  ((csv.toList.splitOn ',').map fun part => strip (String.ofList part)).filter (· ≠ "")

def recentEgressCidrs (config : Config) : List String := entries config.recent

def poolCidrs (config : Config) : List String := entries config.pool

def withPrefix (val : String) : String := if '/' ∈ val.toList then val else val ++ "/32"

def recentEgressMax : ℕ := 4

/-- The address and the pin that it replaces, if that is a single one. -/
def keep (cidr replaced : String) : List String :=
  if replaced ≠ "" ∧ replaced ≠ cidr ∧ "/32".toList <:+ replaced.toList then [cidr, replaced]
  else [cidr]

def recordRecentEgress (config : Config) (cidr replaced : String) : Config :=
  let replaced := if replaced ≠ "" then withPrefix replaced else replaced
  let keep := keep cidr replaced
  let recent := keep ++ (recentEgressCidrs config).filter (· ∉ keep)
  { config with recent := ",".intercalate (recent.take recentEgressMax) }

/-! ### Detections -/

/-- The bodies that the echo services answer with, none for an answer that failed. The first that is
an address is taken. -/
def detectEgressIp (bodies : List (Option String)) : String :=
  (bodies.findSome? fun body => body.bind fun text =>
    if (ipAddress (strip text)).isSome then some (strip text) else none).getD ""

/-- The pinned CIDR is well formed and contains the address. -/
def covered (existing ip : String) : Bool :=
  existing != "" &&
    match ipNetwork (withPrefix existing), ipAddress ip with
    | some net, some address => net.contains address
    | _, _ => false

/-- `ensure_dashboard_egress_cidr` with what the detector answers. -/
def ensureDashboardEgressCidr (config : Config) (ip : String) : Config × String :=
  let existing := strip config.dashboardCidr
  if ip ≠ "" then
    if covered existing ip then (config, existing)
    else
      let cidr := ip ++ "/32"
      let config := recordRecentEgress config cidr existing
      (if existing ≠ cidr then { config with dashboardCidr := cidr } else config, cidr)
  else (config, existing)

/-! ### The capacity of a rule -/

def ingressCapacity (cloud : String) : Option ℕ :=
  if cloud = "aws" then some 60
  else if cloud = "azure" then some 4000
  else if cloud = "gcp" then some 5000
  else none

/-- The pinned and the recent entries. -/
def pinned (config : Config) : List String :=
  ((strip config.dashboardCidr :: recentEgressCidrs config).filter (· ≠ "")).map withPrefix

def fitToCapacity (config : Config) (cloud : String) (ports : List ℕ) (acmeOpen : Bool)
    (sourceCidrs : List String) : List String × ℕ :=
  let per := if cloud = "aws" then ports.length else 1
  match ingressCapacity cloud with
  | none => (sourceCidrs, 0)
  | some cap =>
    let cap := if cloud = "aws" ∧ acmeOpen = true then cap - 1 else cap
    if cap = 0 ∨ sourceCidrs.length * per ≤ cap then (sourceCidrs, 0)
    else
      let kept := sourceCidrs.filter fun c => c ∉ poolCidrs config ∨ c ∈ pinned config
      (kept, sourceCidrs.length - kept.length)

/-! ### Runs -/

inductive Event where
  | detect (bodies : List (Option String))
  | set (value : String)
  | refresh (pool : String)

def Config.step (config : Config) : Event → Option Config
  | .detect bodies => some (ensureDashboardEgressCidr config (detectEgressIp bodies)).1
  | .set value => some { config with dashboardCidr := value }
  | .refresh pool => some { config with pool }

def egressSystem : Machine.System Config Event where
  step := Config.step

def Config.start : Config := ⟨"", "", ""⟩

/-- The entry admits the address and no other. -/
def Denotes (entry : String) (address : IpAddress) : Prop :=
  ∃ net, ipNetwork entry = some net ∧ ∀ other, net.contains other = true ↔ other = address

/-- No comma in what an operator sets, nor in the zone id of an IPv6 address that is detected. -/
def Event.Plain : Event → Prop
  | .detect bodies => ∀ ip scope, ipAddress (detectEgressIp bodies) = some (.v6 ip scope) →
      ',' ∉ (detectEgressIp bodies).toList
  | .set value => ',' ∉ value.toList
  | .refresh _ => True

/-- No more than four entries, all distinct. -/
def Config.Bounded (config : Config) : Prop :=
  (recentEgressCidrs config).Nodup ∧ (recentEgressCidrs config).length ≤ recentEgressMax

/-- The pinned value is a network that the address is in. -/
def Config.Pins (config : Config) (address : IpAddress) : Prop :=
  ∃ net, ipNetwork (withPrefix (strip config.dashboardCidr)) = some net ∧
    net.contains address = true

/-- What a detection does. -/
structure Detects (config : Config) (ip : String) : Prop where
  failed : ipAddress ip = none → (ensureDashboardEgressCidr config ip).1 = config
  kept : ∀ address, ipAddress ip = some address → config.Pins address →
    (ensureDashboardEgressCidr config ip).1 = config
  opened : ∀ address, ipAddress ip = some address → ¬config.Pins address →
    strip (ensureDashboardEgressCidr config ip).1.dashboardCidr = ip ++ "/32" ∧
      ∃ rest, recentEgressCidrs (ensureDashboardEgressCidr config ip).1 = (ip ++ "/32") :: rest ∧
        ∀ entry ∈ rest, entry ∈ recentEgressCidrs config ∨
          entry = withPrefix (strip config.dashboardCidr)
  exact : ∀ address, ipAddress ip = some (.v4 address) → Denotes (ip ++ "/32") (.v4 address)

def Config.Detects (config : Config) : Event → Prop
  | .detect bodies => NodeIngress.Detects config (detectEgressIp bodies)
  | _ => True

/-- What trimming leaves: the order, and all but the pool. -/
structure Trims (config : Config) (cloud : String) (ports : List ℕ) (acmeOpen : Bool)
    (sourceCidrs : List String) : Prop where
  ordered : (fitToCapacity config cloud ports acmeOpen sourceCidrs).1.Sublist sourceCidrs
  dropped : ∀ c ∈ sourceCidrs, c ∉ (fitToCapacity config cloud ports acmeOpen sourceCidrs).1 →
    c ∈ poolCidrs config ∧ c ∉ pinned config

/-! ### Entries -/

/-- An entry that comma-separated values keep as it is. -/
structure Clean (entry : String) : Prop where
  nonempty : entry ≠ ""
  stripped : strip entry = entry
  comma : ',' ∉ entry.toList

theorem mem_of_mem_strip {text : String} {c : Char} (h : c ∈ (strip text).toList) :
    c ∈ text.toList := by
  rw [strip, String.toList_ofList, List.mem_reverse] at h
  have hlast := List.mem_reverse.mp ((List.dropWhile_sublist _).subset h)
  exact (List.dropWhile_sublist _).subset hlast

theorem clean_of_mem {csv entry : String} (h : entry ∈ entries csv) : Clean entry := by
  obtain ⟨hmem, hne⟩ := List.mem_filter.mp h
  obtain ⟨part, hpart, rfl⟩ := List.mem_map.mp hmem
  refine ⟨of_decide_eq_true hne, Python.strip_strip _, fun hcomma => ?_⟩
  have hin := mem_of_mem_strip hcomma
  rw [String.toList_ofList] at hin
  have hfree := Python.splitOnP_free hpart ',' hin
  exact absurd hfree (by decide)

theorem entries_intercalate {items : List String} (h : ∀ entry ∈ items, Clean entry) :
    entries (",".intercalate items) = items := by
  cases items with
  | nil => decide
  | cons first items =>
    have hsplit : (",".intercalate (first :: items)).toList.splitOn ',' =
        (first :: items).map String.toList := by
      rw [String.toList_intercalate]
      refine List.splitOn_intercalate ',' (fun part hpart => ?_) (List.cons_ne_nil _ _)
      obtain ⟨entry, hentry, rfl⟩ := List.mem_map.mp hpart
      exact (h entry hentry).comma
    unfold entries
    rw [hsplit, List.map_map]
    have hmap : (first :: items).map
        ((fun part => strip (String.ofList part)) ∘ String.toList) = first :: items := by
      refine (List.map_congr_left fun entry hentry => ?_).trans (List.map_id _)
      rw [Function.comp_apply, String.ofList_toList]
      exact (h entry hentry).stripped
    rw [hmap]
    exact List.filter_eq_self.mpr fun entry hentry => decide_eq_true (h entry hentry).nonempty

theorem dropWhile_of_strip {text : String} (h : strip text = text) :
    text.toList.dropWhile Python.isSpace = text.toList := by
  have htext : (strip text).toList =
      ((text.toList.dropWhile Python.isSpace).reverse.dropWhile Python.isSpace).reverse :=
    String.toList_ofList
  have hlength : text.toList.length ≤ (text.toList.dropWhile Python.isSpace).length := by
    calc text.toList.length
        = (strip text).toList.length := by rw [h]
      _ = ((text.toList.dropWhile Python.isSpace).reverse.dropWhile Python.isSpace).length := by
          rw [htext, List.length_reverse]
      _ ≤ (text.toList.dropWhile Python.isSpace).reverse.length :=
          (List.dropWhile_sublist _).length_le
      _ = (text.toList.dropWhile Python.isSpace).length := List.length_reverse
  exact (List.dropWhile_suffix _).eq_of_length_le hlength

theorem Clean.slash {text : String} (hstripped : strip text = text) (hcomma : ',' ∉ text.toList) :
    Clean (text ++ "/32") where
  nonempty h := by
    have hlist := congrArg String.toList h
    rw [String.toList_append] at hlist
    exact absurd (List.append_eq_nil_iff.mp hlist).2 (by decide)
  stripped := by
    have hsuffix : "/32".toList = ['/', '3', '2'] := rfl
    have hsolid : ∀ c ∈ ['/', '3', '2'], Python.isSpace c = false := by
      simp only [List.forall_mem_cons]
      exact ⟨rfl, rfl, rfl, nofun⟩
    have htext : text ++ "/32" = String.ofList (text.toList ++ ['/', '3', '2']) := by
      rw [← hsuffix, ← String.toList_append, String.ofList_toList]
    rw [htext, Python.strip_append (List.cons_ne_nil _ _) hsolid, dropWhile_of_strip hstripped]
  comma h := by
    rw [String.toList_append, List.mem_append] at h
    rcases h with h | h
    · exact hcomma h
    · exact absurd h (by decide)

theorem Clean.withPrefix {text : String} (hne : text ≠ "") (hstripped : strip text = text)
    (hcomma : ',' ∉ text.toList) : Clean (withPrefix text) := by
  unfold NodeIngress.withPrefix
  split
  · exact ⟨hne, hstripped, hcomma⟩
  · exact Clean.slash hstripped hcomma

/-! ### Detected addresses -/

theorem detectEgressIp_cases (bodies : List (Option String)) :
    detectEgressIp bodies = "" ∨ ((∃ address, ipAddress (detectEgressIp bodies) = some address) ∧
      strip (detectEgressIp bodies) = detectEgressIp bodies) := by
  unfold detectEgressIp
  cases hfound : bodies.findSome? fun body => body.bind fun text =>
      if (ipAddress (strip text)).isSome then some (strip text) else none with
  | none => exact .inl rfl
  | some ip =>
    obtain ⟨body, -, hbody⟩ := List.exists_of_findSome?_eq_some hfound
    obtain ⟨text, -, htext⟩ := Option.bind_eq_some_iff.mp hbody
    split at htext
    next hsome =>
      obtain rfl := Option.some.inj htext
      exact .inr ⟨Option.isSome_iff_exists.mp hsome, Python.strip_strip text⟩
    next => cases htext

theorem ipAddress_empty : ipAddress "" = none := by decide

theorem comma_notMem {bodies : List (Option String)} (hplain : (Event.detect bodies).Plain) :
    ',' ∉ (detectEgressIp bodies).toList := by
  cases haddress : ipAddress (detectEgressIp bodies) with
  | none =>
    rcases detectEgressIp_cases bodies with hempty | ⟨⟨address, hsome⟩, -⟩
    · rw [hempty]
      decide
    · exact absurd (haddress.symm.trans hsome) nofun
  | some address =>
    cases address with
    | v6 ip scope => exact hplain ip scope haddress
    | v4 ip =>
      obtain ⟨-, ⟨ip', -, hip⟩ | ⟨_, _, _, hv6, -⟩⟩ := Tunnels.ipAddress_eq_some haddress
      · exact Tunnels.notMem_ipv4 (by decide) (by decide) hip
      · cases hv6

theorem denotes_v4 {text : String} {ip : BitVec 32} (h : ipAddress text = some (.v4 ip)) :
    Denotes (text ++ "/32") (.v4 ip) := by
  obtain ⟨hslash, ⟨ip', hip', hparsed⟩ | ⟨_, _, _, hv6, -⟩⟩ := Tunnels.ipAddress_eq_some h
  · obtain rfl := IpAddress.v4.inj hip'
    have hsplit : (text ++ "/32").toList.splitOn '/' = [text.toList, ['3', '2']] := by
      rw [String.toList_append]
      refine List.splitOn_intercalate '/' (fun part hpart => ?_)
        (List.cons_ne_nil text.toList [['3', '2']])
      rcases List.mem_cons.mp hpart with rfl | hlast
      · exact hslash
      · rw [List.mem_singleton.mp hlast]
        decide
    have hlength : Python.prefixFromPrefixString 32 ['3', '2'] = some 32 := by decide
    have haddress : Python.ipv4Address text.toList = some ip := by
      rw [Python.ipv4Address, if_neg fun hmem => hslash (List.contains_iff_mem.mp hmem), hparsed]
    have hnet : ipNetwork (text ++ "/32") = some (.v4 (Net.of ip 32 (le_refl 32))) := by
      unfold ipNetwork Python.ipv4Network
      dsimp only
      rw [hsplit]
      dsimp only
      rw [hlength, haddress]
      rfl
    refine ⟨_, hnet, fun other => ?_⟩
    have hmask : Python.netmask 32 32 = BitVec.allOnes 32 := by decide
    cases other with
    | v6 _ _ => exact ⟨nofun, nofun⟩
    | v4 other =>
      have hbase : (Net.of ip 32 (le_refl 32)).base = ip :=
        calc (Net.of ip 32 (le_refl 32)).base
            = ip &&& Python.netmask 32 32 := rfl
          _ = ip := by rw [hmask, BitVec.and_allOnes]
      have hcontains : (IpNetwork.v4 (Net.of ip 32 (le_refl 32))).contains (.v4 other) =
          decide (other &&& Python.netmask 32 32 = (Net.of ip 32 (le_refl 32)).base) := rfl
      rw [hcontains, decide_eq_true_iff, hbase, hmask, BitVec.and_allOnes]
      exact ⟨congrArg IpAddress.v4, IpAddress.v4.inj⟩
  · cases hv6

/-! ### One detection -/

theorem keep_eq (cidr replaced : String) :
    ∃ more, keep cidr replaced = cidr :: more ∧ (cidr :: more).Nodup ∧
      ∀ entry ∈ more, entry = replaced ∧ replaced ≠ "" := by
  unfold keep
  split
  next h =>
    refine ⟨[replaced], rfl, ?_, fun entry hentry => ⟨List.mem_singleton.mp hentry, h.1⟩⟩
    exact List.nodup_cons.mpr ⟨fun hmem => h.2.1 (List.mem_singleton.mp hmem).symm,
      List.nodup_singleton replaced⟩
  next => exact ⟨[], rfl, List.nodup_singleton cidr, nofun⟩

/-- What is recorded comes first, and nothing but the replaced pin is added beside it. -/
theorem recorded (config : Config) {cidr replaced : String} (hcidr : Clean cidr)
    (hstripped : strip replaced = replaced) (hcomma : ',' ∉ replaced.toList) :
    ∃ rest, recentEgressCidrs (recordRecentEgress config cidr replaced) = cidr :: rest ∧
      (∀ entry ∈ rest, entry ∈ recentEgressCidrs config ∨ entry = withPrefix replaced) ∧
      (config.Bounded → (recordRecentEgress config cidr replaced).Bounded) := by
  obtain ⟨more, hkeep, hnodup, hmore⟩ :=
    keep_eq cidr (if replaced ≠ "" then withPrefix replaced else replaced)
  have hclean : ∀ entry ∈ more, entry = withPrefix replaced ∧ Clean entry := by
    intro entry hentry
    obtain ⟨rfl, hne⟩ := hmore entry hentry
    have hreplaced : replaced ≠ "" := by
      rintro rfl
      exact hne (if_neg (not_not.mpr rfl))
    rw [if_pos hreplaced]
    exact ⟨rfl, Clean.withPrefix hreplaced hstripped hcomma⟩
  generalize hlist : (cidr :: more) ++ (recentEgressCidrs config).filter (· ∉ cidr :: more) = list
  have hall : ∀ entry ∈ list, Clean entry := by
    intro entry hentry
    rw [← hlist, List.mem_append, List.mem_cons] at hentry
    rcases hentry with (rfl | hin) | hin
    · exact hcidr
    · exact (hclean entry hin).2
    · exact clean_of_mem (List.mem_filter.mp hin).1
  have hrecent : recentEgressCidrs (recordRecentEgress config cidr replaced) =
      list.take recentEgressMax := by
    unfold recentEgressCidrs recordRecentEgress
    dsimp only
    rw [hkeep, hlist]
    exact entries_intercalate fun entry hentry => hall entry (List.mem_of_mem_take hentry)
  refine ⟨(more ++ (recentEgressCidrs config).filter (· ∉ cidr :: more)).take 3, ?_, ?_, ?_⟩
  · rw [hrecent, ← hlist, List.cons_append]
    exact List.take_succ_cons
  · intro entry hentry
    rcases List.mem_append.mp (List.mem_of_mem_take hentry) with hin | hin
    · exact .inr (hclean entry hin).1
    · exact .inl (List.mem_filter.mp hin).1
  · rintro ⟨hdistinct, -⟩
    have hlistNodup : list.Nodup := by
      rw [← hlist]
      refine List.nodup_append.mpr ⟨hnodup, hdistinct.filter _, fun a ha b hb hab => ?_⟩
      exact of_decide_eq_true (List.mem_filter.mp hb).2 (hab ▸ ha)
    refine ⟨?_, ?_⟩
    · rw [hrecent]
      exact hlistNodup.sublist (List.take_sublist _ _)
    · rw [hrecent, List.length_take]
      exact Nat.min_le_left _ _

theorem covered_iff {config : Config} {ip : String} {address : IpAddress}
    (h : ipAddress ip = some address) :
    covered (strip config.dashboardCidr) ip = true ↔ config.Pins address := by
  unfold covered Config.Pins
  rw [h]
  by_cases hempty : strip config.dashboardCidr = ""
  · have hnone : ipNetwork (withPrefix "") = none := by decide
    rw [hempty, hnone]
    exact ⟨nofun, nofun⟩
  · rw [bne_iff_ne.mpr hempty, Bool.true_and]
    cases ipNetwork (withPrefix (strip config.dashboardCidr)) with
    | none => exact ⟨nofun, nofun⟩
    | some net =>
      refine ⟨fun hin => ⟨net, rfl, hin⟩, fun ⟨net', hnet, hin⟩ => ?_⟩
      obtain rfl := Option.some.inj hnet
      exact hin

/-- The pin holds one value. -/
def Config.Single (config : Config) : Prop := ',' ∉ config.dashboardCidr.toList

theorem recordRecentEgress_dashboardCidr (config : Config) (cidr replaced : String) :
    (recordRecentEgress config cidr replaced).dashboardCidr = config.dashboardCidr := rfl

theorem ensure_of_uncovered {config : Config} {ip : String} (hip : ip ≠ "")
    (huncovered : covered (strip config.dashboardCidr) ip = false) :
    (ensureDashboardEgressCidr config ip).1.recent =
        (recordRecentEgress config (ip ++ "/32") (strip config.dashboardCidr)).recent ∧
      strip (ensureDashboardEgressCidr config ip).1.dashboardCidr = strip (ip ++ "/32") ∧
      ((ensureDashboardEgressCidr config ip).1.dashboardCidr = config.dashboardCidr ∨
        (ensureDashboardEgressCidr config ip).1.dashboardCidr = ip ++ "/32") := by
  unfold ensureDashboardEgressCidr
  dsimp only
  rw [if_pos hip, huncovered, if_neg Bool.false_ne_true]
  dsimp only
  by_cases hsame : strip config.dashboardCidr = ip ++ "/32"
  · rw [if_neg (not_not.mpr hsame), recordRecentEgress_dashboardCidr]
    refine ⟨rfl, ?_, .inl rfl⟩
    rw [← hsame, Python.strip_strip]
  · rw [if_pos hsame]
    dsimp only
    exact ⟨rfl, rfl, .inr rfl⟩

theorem detects {config : Config} {bodies : List (Option String)}
    (hplain : (Event.detect bodies).Plain) (hsingle : config.Single) :
    Detects config (detectEgressIp bodies) := by
  have hcidr : ∀ address, ipAddress (detectEgressIp bodies) = some address →
      Clean (detectEgressIp bodies ++ "/32") := by
    intro address haddress
    rcases detectEgressIp_cases bodies with hempty | ⟨-, hstripped⟩
    · rw [hempty, ipAddress_empty] at haddress
      cases haddress
    · exact Clean.slash hstripped (comma_notMem hplain)
  have hcomma : ',' ∉ (strip config.dashboardCidr).toList :=
    fun hin => hsingle (mem_of_mem_strip hin)
  refine ⟨fun hnone => ?_, fun address haddress hpins => ?_, fun address haddress hpins => ?_,
    fun address haddress => denotes_v4 haddress⟩
  · rcases detectEgressIp_cases bodies with hempty | ⟨⟨address, hsome⟩, -⟩
    · unfold ensureDashboardEgressCidr
      dsimp only
      rw [hempty, if_neg (not_not.mpr rfl)]
    · exact absurd (hnone.symm.trans hsome) nofun
  · have hcovered := (covered_iff haddress).mpr hpins
    unfold ensureDashboardEgressCidr
    dsimp only
    rw [if_pos hcovered]
    exact (apply_ite Prod.fst _ _ _).trans (ite_self config)
  · have huncovered := Bool.eq_false_iff.mpr fun hin => hpins ((covered_iff haddress).mp hin)
    have hip : detectEgressIp bodies ≠ "" := by
      intro hempty
      rw [hempty, ipAddress_empty] at haddress
      cases haddress
    obtain ⟨hrecent, hpin, -⟩ := ensure_of_uncovered hip huncovered
    obtain ⟨rest, hrest, hfrom, -⟩ :=
      recorded config (hcidr address haddress) (Python.strip_strip _) hcomma
    refine ⟨hpin.trans (hcidr address haddress).stripped, rest, ?_, hfrom⟩
    exact (congrArg entries hrecent).trans hrest

/-! ### Runs of detections -/

def Config.Sound (config : Config) : Prop := config.Single ∧ config.Bounded

theorem Config.Sound.step {config config' : Config} {event : Event} (hsound : config.Sound)
    (hplain : event.Plain) (h : config.step event = some config') : config'.Sound := by
  cases event with
  | set value =>
    obtain rfl := Option.some.inj h
    exact ⟨hplain, hsound.2⟩
  | refresh pool =>
    obtain rfl := Option.some.inj h
    exact hsound
  | detect bodies =>
    obtain rfl := Option.some.inj h
    have hdetects := detects hplain hsound.1
    cases haddress : ipAddress (detectEgressIp bodies) with
    | none =>
      rw [hdetects.failed haddress]
      exact hsound
    | some address =>
      by_cases hpins : config.Pins address
      · rw [hdetects.kept address haddress hpins]
        exact hsound
      · have huncovered := Bool.eq_false_iff.mpr fun hin => hpins ((covered_iff haddress).mp hin)
        rcases detectEgressIp_cases bodies with hempty | ⟨-, hstripped⟩
        · rw [hempty, ipAddress_empty] at haddress
          cases haddress
        have hip : detectEgressIp bodies ≠ "" := by
          intro hempty
          rw [hempty, ipAddress_empty] at haddress
          cases haddress
        obtain ⟨hrecent, -, hpin⟩ := ensure_of_uncovered hip huncovered
        have hclean : Clean (detectEgressIp bodies ++ "/32") :=
          Clean.slash hstripped (comma_notMem hplain)
        obtain ⟨-, -, -, hbounded⟩ := recorded config hclean
          (Python.strip_strip config.dashboardCidr) fun hin => hsound.1 (mem_of_mem_strip hin)
        refine ⟨?_, ?_⟩
        · unfold Config.Single
          rcases hpin with hpin | hpin
          · exact hpin ▸ hsound.1
          · exact hpin ▸ hclean.comma
        · unfold Config.Bounded recentEgressCidrs
          rw [hrecent]
          exact hbounded hsound.2

theorem Config.Sound.start : Config.start.Sound := by
  refine ⟨?_, ?_⟩
  · exact List.not_mem_nil
  · have hnil : recentEgressCidrs Config.start = [] := by decide
    rw [Config.Bounded, hnil]
    exact ⟨List.nodup_nil, Nat.zero_le _⟩

/-! ### Trimming -/

theorem trims (config : Config) (cloud : String) (ports : List ℕ) (acmeOpen : Bool)
    (sourceCidrs : List String) : Trims config cloud ports acmeOpen sourceCidrs := by
  have hcases : (fitToCapacity config cloud ports acmeOpen sourceCidrs).1 = sourceCidrs ∨
      (fitToCapacity config cloud ports acmeOpen sourceCidrs).1 =
        sourceCidrs.filter fun c => c ∉ poolCidrs config ∨ c ∈ pinned config := by
    unfold fitToCapacity
    dsimp only
    cases ingressCapacity cloud with
    | none => exact .inl rfl
    | some cap =>
      dsimp only
      generalize (if cloud = "aws" ∧ acmeOpen = true then cap - 1 else cap) = room
      generalize sourceCidrs.length * (if cloud = "aws" then ports.length else 1) = wanted
      by_cases hfits : room = 0 ∨ wanted ≤ room
      · exact .inl (by rw [if_pos hfits])
      · exact .inr (by rw [if_neg hfits])
  rcases hcases with hwhole | hfiltered
  · refine ⟨?_, fun c hmem hnot => ?_⟩
    · rw [hwhole]
    · rw [hwhole] at hnot
      exact absurd hmem hnot
  · refine ⟨?_, fun c hmem hnot => ?_⟩
    · rw [hfiltered]
      exact List.filter_sublist
    rw [hfiltered] at hnot
    have hdrop : ¬(c ∉ poolCidrs config ∨ c ∈ pinned config) := fun hkept =>
      hnot (List.mem_filter.mpr ⟨hmem, decide_eq_true hkept⟩)
    exact ⟨not_not.mp fun hpool => hdrop (.inl hpool), fun hpinned => hdrop (.inr hpinned)⟩

/-! ### The allow list -/

/-- In every run the recent list stays bounded and a detection opens what it detected, beside the
pin that it replaces. Trimming drops nothing but the pool. -/
theorem egress_opened :
    (∀ run : List Event, (∀ event ∈ run, event.Plain) →
      egressSystem.Always Config.Bounded .start run ∧
        egressSystem.Along Config.Detects .start run) ∧
    ∀ config cloud ports acmeOpen sourceCidrs, Trims config cloud ports acmeOpen sourceCidrs := by
  refine ⟨fun run hplain => ?_, trims⟩
  have hrun : egressSystem.Along (fun _ event => event.Plain) .start run :=
    egressSystem.along_of_forall fun _ event hevent => hplain event hevent
  have hsound : egressSystem.Always Config.Sound .start run :=
    egressSystem.always_of_along (fun _ _ _ hsound hplain h => hsound.step hplain h)
      Config.Sound.start hrun
  refine ⟨egressSystem.always_mono (fun _ hsound => hsound.2) hsound, ?_⟩
  refine egressSystem.along_of_along (fun config event _ hsound hplain h =>
    ⟨hsound.step hplain h, ?_⟩) Config.Sound.start hrun
  cases event with
  | detect bodies => exact detects hplain hsound.1
  | set value => trivial
  | refresh pool => trivial

def sampleRun : List Event :=
  [.set "203.0.113.7", .detect [none, some " 198.51.100.9\n"], .refresh "192.0.2.1/32",
    .detect [some "198.51.100.9"]]

theorem sampleRun_opened :
    egressSystem.Always Config.Bounded .start sampleRun ∧
      egressSystem.Along Config.Detects .start sampleRun := by
  refine egress_opened.1 sampleRun ?_
  unfold sampleRun
  simp only [List.forall_mem_cons]
  have hset : ',' ∉ "203.0.113.7".toList := by decide +kernel
  exact ⟨hset, fun _ _ _ => by decide +kernel, trivial, fun _ _ _ => by decide +kernel, nofun⟩

/-- All that a detection adds to the recent list denotes what it detected. -/
def Config.AddsDetected (config : Config) : Event → Prop
  | .detect bodies =>
    ∀ entry ∈ recentEgressCidrs (ensureDashboardEgressCidr config (detectEgressIp bodies)).1,
      entry ∈ recentEgressCidrs config ∨
        ∃ address, ipAddress (detectEgressIp bodies) = some address ∧ Denotes entry address
  | _ => True

/-- The pin that is replaced is remembered too. -/
theorem egress_not_only_detected : ¬∀ run : List Event, (∀ event ∈ run, event.Plain) →
    egressSystem.Along Config.AddsDetected .start run := by
  intro h
  have hrun := h [.set "203.0.113.7", .detect [some "198.51.100.9"]] ?_
  · have hadds := (((hrun _ rfl).2) _ rfl).1 "203.0.113.7/32" (by decide +kernel)
    rcases hadds with hold | ⟨address, haddress, net, hnet, honly⟩
    · exact absurd hold (by decide +kernel)
    · have hdetected : ipAddress (detectEgressIp [some "198.51.100.9"]) =
          some (.v4 (BitVec.ofNat 32 0xC6336409)) := by decide +kernel
      obtain rfl := Option.some.inj (haddress.symm.trans hdetected)
      have hnone : ((ipNetwork "203.0.113.7/32").map fun net =>
          net.contains (.v4 (BitVec.ofNat 32 0xC6336409))) = some false := by decide +kernel
      rw [hnet, Option.map_some, (honly _).mpr rfl] at hnone
      exact absurd hnone (by decide)
  · have hset : ',' ∉ "203.0.113.7".toList := by decide +kernel
    simp only [List.forall_mem_cons]
    exact ⟨hset, fun _ _ _ => by decide +kernel, nofun⟩

end NodeIngress
