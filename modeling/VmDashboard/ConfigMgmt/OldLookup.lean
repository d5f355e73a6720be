import VmDashboard.ConfigMgmt.Choice
import VmDashboard.Python.Clock
import Mathlib.Data.List.MinMax

/-!
# The lookup before the scopes

A lookup took the longest active prefix among all routes for a guest on premises, and among the flagged
ones for a VM of a cloud. A table that holds every old route on premises, and a flagged one once for
each cloud, gives the same answers under the new lookup.
-/

namespace ConfigMgmt
open Python (Instant IpAddress IpNetwork ipAddress ipNetwork prefixlen lower strip orDefault)

/-! ### The old table and its lookup -/

structure OldRoute where
  id : String
  agentId : String
  cidr : String
  label : Option String
  isActive : Bool
  includeCloudVms : Option Bool
  createdBy : Option String
  createdAt : Instant
  updatedAt : Option Instant

def OldRoute.governs (address : String) (cloud : Bool) (route : OldRoute) : Bool :=
  match ipAddress (strip address), ipNetwork route.cidr with
  | some addr, some network =>
    route.isActive && (!cloud || route.includeCloudVms = some true) && network.contains addr
  | _, _ => false

def OldRoute.length (route : OldRoute) : ℕ := ((ipNetwork route.cidr).map prefixlen).getD 0

/-- The agent of the longest prefix. -/
def oldLookup (rows : List OldRoute) (address : String) (cloud : Bool) : Option String :=
  ((rows.filter (OldRoute.governs address cloud)).argmax OldRoute.length).map OldRoute.agentId

/-- The addresses of a network: its family, where it starts and its length. -/
def rangeOf (network : IpNetwork) : ℕ × ℕ × ℕ :=
  (version network, networkAddress network, prefixlen network)

/-- The CIDRs are unique, and each is the one text its range is stored as. -/
def UniqueCidrs (rows : List OldRoute) : Prop :=
  (rows.map OldRoute.cidr).Nodup ∧
    ∀ a ∈ rows, ∀ b ∈ rows, (ipNetwork a.cidr).isSome = true →
      (ipNetwork a.cidr).map rangeOf = (ipNetwork b.cidr).map rangeOf → a.cidr = b.cidr

/-! ### What the new table holds -/

/-- What a lookup reads of a row. -/
structure Entry where
  agentId : String
  cidr : String
  isActive : Bool
  slot : Slot
  deriving DecidableEq

def ConfigMgmtRoute.entry (row : ConfigMgmtRoute) : Entry :=
  ⟨row.agentId, row.cidr, row.isActive, row.slot.2⟩

def OldRoute.entry (scope : String) (route : OldRoute) : Entry :=
  ⟨route.agentId, route.cidr, route.isActive, ⟨scope, "", "", "", ""⟩⟩

def OldRoute.flagged (route : OldRoute) : Bool := route.includeCloudVms = some true

/-- Every route on premises, and a flagged one once for each cloud. -/
def splitEntries (rows : List OldRoute) : List Entry :=
  rows.map (OldRoute.entry "onprem") ++
    (rows.filter OldRoute.flagged).flatMap fun route => cloudScopes.map fun cloud => route.entry cloud

theorem mem_splitEntries {rows : List OldRoute} {entry : Entry} :
    entry ∈ splitEntries rows ↔ ∃ route ∈ rows, ∃ scope ∈ scopes,
      (scope ≠ "onprem" → route.flagged = true) ∧ entry = route.entry scope := by
  have hscopes : scopes = "onprem" :: cloudScopes := rfl
  have hclouds : "onprem" ∉ cloudScopes := by decide
  rw [splitEntries, List.mem_append, hscopes]
  constructor
  · rintro (h | h)
    · obtain ⟨route, hroute, rfl⟩ := List.mem_map.mp h
      exact ⟨route, hroute, "onprem", List.mem_cons_self, fun hne => absurd rfl hne, rfl⟩
    · obtain ⟨route, hroute, hentry⟩ := List.mem_flatMap.mp h
      obtain ⟨cloud, hcloud, rfl⟩ := List.mem_map.mp hentry
      obtain ⟨hroute, hflag⟩ := List.mem_filter.mp hroute
      exact ⟨route, hroute, cloud, List.mem_cons_of_mem _ hcloud, fun _ => hflag, rfl⟩
  · rintro ⟨route, hroute, scope, hscope, hflag, rfl⟩
    rcases List.mem_cons.mp hscope with rfl | hcloud
    · exact .inl (List.mem_map_of_mem hroute)
    · have hne : scope ≠ "onprem" := fun heq => hclouds (heq ▸ hcloud)
      refine .inr (List.mem_flatMap.mpr ⟨route, List.mem_filter.mpr ⟨hroute, hflag hne⟩, ?_⟩)
      exact List.mem_map_of_mem hcloud

/-! ### The new lookup over the split table -/

section Lookup
variable {rows : List OldRoute} {listed : List ConfigMgmtRoute}

theorem parsed_of_entry {row : ConfigMgmtRoute} {old : OldRoute} {scope : String}
    (hentry : row.entry = old.entry scope) (hscope : scope ∈ scopes) :
    row.parsed =
      if !old.isActive then none
      else (ipNetwork old.cidr).map fun network => ⟨row.id, old.agentId, network,
        row.label.getD "", old.cidr, scope, "", "", "", "", row.fallbackToWorker.getD false⟩ := by
  obtain ⟨hagent, hcidr, hactive, hslot⟩ := Entry.mk.inj hentry
  obtain ⟨rfl, hregion, hconnection, hworkstream, hnetwork⟩ := Slot.mk.inj hslot
  have hblank : lower "" = "" := by decide
  have hstored : orDefault row.scope "onprem" = row.scope := by
    have hne : ∀ scope ∈ scopes, scope ≠ "" := by decide
    exact if_neg (hne _ hscope)
  unfold ConfigMgmtRoute.parsed
  rw [hagent, hcidr, hactive, hregion, hconnection, hworkstream, hnetwork, hblank, hstored]

/-- A route with no narrower governs what its old row did, in its own scope. -/
theorem governs_iff {old : OldRoute} {network : IpNetwork} {route : Route} {address : String}
    {target : Placement} (hnetwork : ipNetwork old.cidr = some network)
    (hactive : old.isActive = true) (hslot : route.scope = target.scope ∧ route.region = "" ∧
      route.connectionId = "" ∧ route.workstream = "" ∧ route.networkId = "")
    (hroute : route.network = network)
    (hflag : target.scope ≠ "onprem" → old.flagged = true) :
    route.governs address target = old.governs address (target.scope ≠ "onprem") := by
  obtain ⟨hscope, hregion, hconnection, hworkstream, hid⟩ := hslot
  have hcovers : route.covers target = true := by
    simp [Route.covers, hscope, hregion, hconnection, hworkstream, hid]
  have hcloud : (!decide (target.scope ≠ "onprem") || decide (old.includeCloudVms = some true)) =
      true := by
    by_cases honprem : target.scope = "onprem"
    · simp [honprem]
    · exact Bool.or_eq_true_iff.mpr (.inr (hflag honprem))
  unfold Route.governs OldRoute.governs
  rw [hnetwork, hroute]
  cases ipAddress (strip address) with
  | none => rfl
  | some addr =>
    simp only
    rw [hcovers, hactive, hcloud]
    rfl

theorem scope_of_governs {route : Route} {address : String} {target : Placement}
    (h : route.governs address target = true) : route.scope = target.scope := by
  unfold Route.governs at h
  split at h
  · cases h
  · obtain ⟨hcovers, -⟩ := Bool.and_eq_true_iff.mp h
    unfold Route.covers at hcovers
    simp only [Bool.and_eq_true, decide_eq_true_eq] at hcovers
    exact hcovers.1.1.1.1

theorem of_governs {old : OldRoute} {address : String} {cloud : Bool}
    (h : old.governs address cloud = true) : ∃ addr network, ipAddress (strip address) = some addr ∧
      ipNetwork old.cidr = some network ∧ old.isActive = true ∧
      (cloud = true → old.flagged = true) ∧ network.contains addr = true := by
  unfold OldRoute.governs at h
  split at h
  next addr network haddr hnetwork =>
    obtain ⟨hrest, hcontains⟩ := Bool.and_eq_true_iff.mp h
    obtain ⟨hactive, hflag⟩ := Bool.and_eq_true_iff.mp hrest
    refine ⟨addr, network, haddr, hnetwork, hactive, fun hcloud => ?_, hcontains⟩
    rw [hcloud] at hflag
    exact hflag
  next => cases h

theorem range_eq {a b : IpNetwork} {addr : IpAddress} (ha : a.contains addr = true)
    (hb : b.contains addr = true) (hlen : prefixlen a = prefixlen b) : rangeOf a = rangeOf b := by
  cases addr with
  | v4 ip =>
    cases a with
    | v4 net =>
      cases b with
      | v4 net' =>
        have hbase : net.base = net'.base := by
          have hlen : net.prefixlen = net'.prefixlen := hlen
          rw [← of_decide_eq_true ha, ← of_decide_eq_true hb, hlen]
        exact Prod.ext rfl (Prod.ext (congrArg BitVec.toNat hbase) hlen)
      | v6 => cases hb
    | v6 => cases ha
  | v6 ip scope =>
    cases a with
    | v4 => cases ha
    | v6 net _ =>
      cases b with
      | v4 => cases hb
      | v6 net' _ =>
        have hbase : net.base = net'.base := by
          have hlen : net.prefixlen = net'.prefixlen := hlen
          rw [← of_decide_eq_true ha, ← of_decide_eq_true hb, hlen]
        exact Prod.ext rfl (Prod.ext (congrArg BitVec.toNat hbase) hlen)

theorem length_eq {old : OldRoute} {network : IpNetwork} (h : ipNetwork old.cidr = some network) :
    old.length = prefixlen network := by
  unfold OldRoute.length
  rw [h]
  rfl

/-- Two old routes that govern an address with equally long prefixes are one. -/
theorem eq_of_length (hunique : UniqueCidrs rows) {a b : OldRoute} (ha : a ∈ rows) (hb : b ∈ rows)
    {address : String} {cloud : Bool} (hga : a.governs address cloud = true)
    (hgb : b.governs address cloud = true) (hlen : a.length = b.length) : a = b := by
  obtain ⟨addr, na, haddr, hna, -, -, hca⟩ := of_governs hga
  obtain ⟨addr', nb, haddr', hnb, -, -, hcb⟩ := of_governs hgb
  obtain rfl : addr = addr' := Option.some.inj (haddr.symm.trans haddr')
  rw [length_eq hna, length_eq hnb] at hlen
  have hrange : (ipNetwork a.cidr).map rangeOf = (ipNetwork b.cidr).map rangeOf := by
    rw [hna, hnb, Option.map_some, Option.map_some, range_eq hca hcb hlen]
  have hcidr := hunique.2 a ha b hb (by rw [hna]; rfl) hrange
  exact List.inj_on_of_nodup_map hunique.1 ha hb hcidr

theorem matchFor_eq (hunique : UniqueCidrs rows)
    (hentries : ∀ entry, entry ∈ listed.map ConfigMgmtRoute.entry ↔ entry ∈ splitEntries rows)
    {address : String} {target : Placement} (hscope : target.scope ∈ scopes) :
    (matchFor (loadTable listed) address target).map Route.agentId =
      oldLookup rows address (target.scope ≠ "onprem") := by
  have hold : ∀ route ∈ routesOf listed, route.governs address target = true →
      ∃ old ∈ rows, old.governs address (target.scope ≠ "onprem") = true ∧
        old.agentId = route.agentId ∧ old.length = prefixlen route.network := by
    intro route hroute hgoverns
    obtain ⟨row, hrow, hparsed⟩ := List.mem_filterMap.mp hroute
    obtain ⟨old, hold, scope, hmem, hflag, hentry⟩ :=
      mem_splitEntries.mp ((hentries _).mp (List.mem_map_of_mem hrow))
    rw [parsed_of_entry hentry hmem] at hparsed
    split at hparsed
    · cases hparsed
    next hactive =>
      obtain ⟨network, hnetwork, rfl⟩ := Option.map_eq_some_iff.mp hparsed
      have htarget : scope = target.scope := scope_of_governs hgoverns
      have hactive : old.isActive = true := by simpa using hactive
      rw [governs_iff hnetwork hactive ⟨htarget, rfl, rfl, rfl, rfl⟩ rfl (htarget ▸ hflag)]
        at hgoverns
      exact ⟨old, hold, hgoverns, rfl, length_eq hnetwork⟩
  have hnew : ∀ old ∈ rows, old.governs address (target.scope ≠ "onprem") = true →
      ∃ route ∈ routesOf listed, route.governs address target = true ∧
        prefixlen route.network = old.length := by
    intro old hmem hgoverns
    obtain ⟨addr, network, -, hnetwork, hactive, hflag, -⟩ := of_governs hgoverns
    have hflag : target.scope ≠ "onprem" → old.flagged = true := fun hne =>
      hflag (decide_eq_true hne)
    obtain ⟨row, hrow, hentry⟩ := List.mem_map.mp
      ((hentries _).mpr (mem_splitEntries.mpr ⟨old, hmem, target.scope, hscope, hflag, rfl⟩))
    have hparsed := parsed_of_entry hentry hscope
    rw [hactive, hnetwork] at hparsed
    refine ⟨_, List.mem_filterMap.mpr ⟨row, hrow, hparsed⟩, ?_, (length_eq hnetwork).symm⟩
    rw [governs_iff hnetwork hactive ⟨rfl, rfl, rfl, rfl, rfl⟩ rfl hflag]
    exact hgoverns
  rw [matchFor_loadTable]
  unfold oldLookup
  cases hfind : (Machine.sortBy order (routesOf listed)).find? (Route.governs address target) with
  | none =>
    have hnone := Machine.find_sortBy_none.mp hfind
    have hempty : rows.filter (OldRoute.governs address (target.scope ≠ "onprem")) = [] := by
      refine List.filter_eq_nil_iff.mpr fun old hmem hgoverns => ?_
      obtain ⟨route, hroute, hg, -⟩ := hnew old hmem hgoverns
      rw [hnone route hroute] at hg
      cases hg
    rw [hempty]
    rfl
  | some chosen =>
    obtain ⟨hmem, hgoverns, hleast⟩ := Machine.find_sortBy_some hfind
    obtain ⟨old, hmem', hgoverns', hagent, hlen⟩ := hold chosen hmem hgoverns
    have hcandidate : old ∈ rows.filter (OldRoute.governs address (target.scope ≠ "onprem")) :=
      List.mem_filter.mpr ⟨hmem', hgoverns'⟩
    cases hmax : (rows.filter (OldRoute.governs address (target.scope ≠ "onprem"))).argmax
        OldRoute.length with
    | none =>
      rw [List.argmax_eq_none.mp hmax] at hcandidate
      exact absurd hcandidate List.not_mem_nil
    | some best =>
      obtain ⟨hbest, hgbest⟩ := List.mem_filter.mp (List.argmax_mem hmax)
      have hle : old.length ≤ best.length := List.le_of_mem_argmax hcandidate hmax
      have hge : best.length ≤ old.length := by
        obtain ⟨route, hroute, hg, hroutelen⟩ := hnew best hbest hgbest
        rcases of_order_le (hleast route hroute hg) with (hlt | ⟨heq, -⟩) | ⟨heq, -⟩ <;> omega
      have hsame := eq_of_length hunique hmem' hbest hgoverns' hgbest (le_antisymm hle hge)
      rw [Option.map_some, Option.map_some, ← hagent, hsame]

end Lookup

end ConfigMgmt
