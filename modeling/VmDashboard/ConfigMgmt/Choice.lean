import VmDashboard.ConfigMgmt.Routes
import VmDashboard.Machine.Except

/-!
# The choice of a route

The rows come from the query in any order. The chosen route does not depend on it when no other
covering route is as specific; two routes of one range that are narrowed by equally many columns
may be, though the writes refuse two with the same ones.
-/

namespace ConfigMgmt
open Machine (sortBy find_sortBy_none find_sortBy_some find_sortBy_of_best mem_sortBy)
open Python (IpAddress IpNetwork ipAddress prefixlen strip)

/-- The routes the table is made of. -/
def routesOf (rows : List ConfigMgmtRoute) : List Route := rows.filterMap ConfigMgmtRoute.parsed

/-- The route covers the target and its range the address. -/
def Route.governs (address : String) (target : Placement) (route : Route) : Bool :=
  match ipAddress (strip address) with
  | none => false
  | some addr => route.covers target && route.network.contains addr

/-- A longer prefix, or at an equal one more narrowers. -/
def Route.MoreSpecific (a b : Route) : Prop :=
  prefixlen b.network < prefixlen a.network ∨
    prefixlen a.network = prefixlen b.network ∧ b.narrowers < a.narrowers

/-- The choice covers the target and is more specific than every other route that does; there is
none when none does. -/
def WellChosen (rows : List ConfigMgmtRoute) (address : String) (target : Placement) :
    Option Route → Prop
  | none => ∀ route ∈ routesOf rows, route.governs address target = false
  | some chosen => chosen ∈ routesOf rows ∧ chosen.governs address target = true ∧
      ∀ route ∈ routesOf rows, route.governs address target = true → route ≠ chosen →
        chosen.MoreSpecific route

/-- Every order of the rows gives the same choice, and a good one. -/
def WellDefined (rows : List ConfigMgmtRoute) (address : String) (target : Placement) : Prop :=
  ∃ choice, WellChosen rows address target choice ∧
    ∀ listed, listed.Perm rows → matchFor (loadTable listed) address target = choice

/-- Of two routes that cover the target with equally long prefixes and equally many narrowers,
neither is the most specific. -/
def Untied (rows : List ConfigMgmtRoute) (address : String) (target : Placement) : Prop :=
  ∀ a ∈ routesOf rows, ∀ b ∈ routesOf rows, a.governs address target = true →
    b.governs address target = true → a ≠ b → prefixlen a.network = prefixlen b.network →
      a.narrowers = b.narrowers →
        ∃ c ∈ routesOf rows, c.governs address target = true ∧ c.MoreSpecific a

theorem matchFor_loadTable (rows : List ConfigMgmtRoute) (address : String) (target : Placement) :
    matchFor (loadTable rows) address target =
      (sortBy order (routesOf rows)).find? (Route.governs address target) := by
  unfold matchFor Route.governs loadTable
  cases ipAddress (strip address) with
  | none => exact (List.find?_eq_none.mpr fun _ _ => by simp).symm
  | some addr => rfl

theorem order_lt {a b : Route} (h : a.MoreSpecific b) : order a < order b := by
  simp only [order, Prod.Lex.toLex_lt_toLex]
  rcases h with hlen | ⟨hlen, hnarrow⟩
  · exact .inl (by omega)
  · exact .inr ⟨by omega, .inl (by omega)⟩

/-- The route that comes first is more specific, or the two tie. -/
theorem of_order_le {a b : Route} (h : order a ≤ order b) :
    a.MoreSpecific b ∨ prefixlen a.network = prefixlen b.network ∧ a.narrowers = b.narrowers := by
  simp only [order, Prod.Lex.toLex_le_toLex] at h
  rcases h with hlen | ⟨hlen, hnarrow | ⟨hnarrow, -⟩⟩
  · exact .inl (.inl (by omega))
  · exact .inl (.inr ⟨by omega, by omega⟩)
  · exact .inr ⟨by omega, by omega⟩

theorem routesOf_perm {rows listed : List ConfigMgmtRoute} (h : listed.Perm rows) {route : Route} :
    route ∈ routesOf listed ↔ route ∈ routesOf rows := (h.filterMap _).mem_iff

/-- `match_for` is well defined on a target exactly when no two covering routes tie for the most
specific. -/
theorem match_for_well_defined_iff (rows : List ConfigMgmtRoute) (address : String)
    (target : Placement) : WellDefined rows address target ↔ Untied rows address target := by
  constructor
  · rintro ⟨choice, hchosen, -⟩ a ha b hb hga hgb hne hlen hnarrow
    cases choice with
    | none =>
      rw [hchosen a ha] at hga
      cases hga
    | some chosen =>
      obtain ⟨hmem, hgoverns, hbest⟩ := hchosen
      by_cases hself : a = chosen
      · have hmore := hbest b hb hgb fun heq => hne (hself.trans heq.symm)
        rw [← hself] at hmore
        rcases hmore with hlt | ⟨-, hlt⟩ <;> omega
      · exact ⟨chosen, hmem, hgoverns, hbest a ha hga hself⟩
  · intro huntied
    cases hfind : (sortBy order (routesOf rows)).find? (Route.governs address target) with
    | none =>
      have hnone := find_sortBy_none.mp hfind
      refine ⟨none, hnone, fun listed hperm => ?_⟩
      rw [matchFor_loadTable]
      exact find_sortBy_none.mpr fun route hroute => hnone route ((routesOf_perm hperm).mp hroute)
    | some chosen =>
      obtain ⟨hmem, hgoverns, hleast⟩ := find_sortBy_some hfind
      have hbest : ∀ route ∈ routesOf rows, route.governs address target = true →
          route ≠ chosen → chosen.MoreSpecific route := by
        intro route hroute hg hne
        rcases of_order_le (hleast route hroute hg) with hmore | ⟨hlen, hnarrow⟩
        · exact hmore
        · obtain ⟨c, hc, hgc, hmore⟩ :=
            huntied chosen hmem route hroute hgoverns hg (Ne.symm hne) hlen hnarrow
          exact absurd (hleast c hc hgc) (not_le.mpr (order_lt hmore))
      refine ⟨some chosen, ⟨hmem, hgoverns, hbest⟩, fun listed hperm => ?_⟩
      rw [matchFor_loadTable]
      refine find_sortBy_of_best ((routesOf_perm hperm).mpr hmem) hgoverns ?_
      intro route hroute hg hne
      exact order_lt (hbest route ((routesOf_perm hperm).mp hroute) hg hne)

/-! ### What the writes keep -/

/-- No two routes of one range have the same scope and narrowers. -/
def Distinct (rows : List ConfigMgmtRoute) : Prop := (rows.map ConfigMgmtRoute.slot).Nodup

theorem refuseDuplicate_ok {registry : Registry} {rows : List ConfigMgmtRoute} {cidr : String}
    {slot : Slot} {excluding : String}
    (h : refuseDuplicate registry rows cidr slot excluding = .ok ()) :
    ∀ row ∈ rows, row.slot = (cidr, slot) → excluding ≠ "" ∧ row.id = excluding := by
  unfold refuseDuplicate at h
  split at h
  next hnone =>
    intro row hrow hslot
    have hno := List.find?_eq_none.mp hnone row hrow
    simp only [hslot, true_and, decide_eq_true_eq, not_or, not_not] at hno
    exact hno
  next => cases h

theorem create_distinct {registry : Registry} {rows : List ConfigMgmtRoute} {id : String}
    {request : RouteRequest} {row : ConfigMgmtRoute} (h : Distinct rows)
    (hcreate : create registry rows id request = .ok row) : Distinct (rows ++ [row]) := by
  obtain ⟨-, -, hcreate⟩ := Machine.bind_eq_ok hcreate
  obtain ⟨cidr, -, hcreate⟩ := Machine.bind_eq_ok hcreate
  obtain ⟨slot, -, hcreate⟩ := Machine.bind_eq_ok hcreate
  obtain ⟨⟨⟩, hfree, hcreate⟩ := Machine.bind_eq_ok hcreate
  obtain ⟨fallback, -, hcreate⟩ := Machine.bind_eq_ok hcreate
  obtain rfl := Except.ok.inj hcreate
  rw [Distinct, List.map_append, List.nodup_append]
  refine ⟨h, List.nodup_singleton _, ?_⟩
  intro a ha b hb hab
  obtain rfl := List.mem_singleton.mp hb
  obtain ⟨old, hold, rfl⟩ := List.mem_map.mp ha
  exact (refuseDuplicate_ok hfree old hold hab).1 rfl

theorem update_distinct {registry : Registry} {rows : List ConfigMgmtRoute}
    {row updated : ConfigMgmtRoute} {fields : RouteUpdate} (h : Distinct rows)
    (hids : (rows.map (·.id)).Nodup)
    (hupdate : update registry rows row fields = .ok updated) :
    Distinct (rows.map fun r => if r.id = row.id then updated else r) := by
  obtain ⟨-, -, hupdate⟩ := Machine.bind_eq_ok hupdate
  obtain ⟨cidr, -, hupdate⟩ := Machine.bind_eq_ok hupdate
  obtain ⟨slot, -, hupdate⟩ := Machine.bind_eq_ok hupdate
  obtain ⟨⟨⟩, hfree, hupdate⟩ := Machine.bind_eq_ok hupdate
  obtain ⟨fallback, -, hupdate⟩ := Machine.bind_eq_ok hupdate
  obtain rfl := Except.ok.inj hupdate
  have hother : ∀ r ∈ rows, r.slot = (cidr, slot) → r.id = row.id :=
    fun r hr hslot => (refuseDuplicate_ok hfree r hr hslot).2
  have hpairs := (List.pairwise_map.mp hids).and (List.pairwise_map.mp h)
  refine List.pairwise_map.mpr (List.pairwise_map.mpr (hpairs.imp_of_mem ?_))
  rintro a b ha hb ⟨hid, hslot⟩ heq
  by_cases hself : a.id = row.id <;> by_cases hself' : b.id = row.id
  · exact hid (hself.trans hself'.symm)
  · rw [if_pos hself, if_neg hself'] at heq
    exact hself' (hother b hb heq.symm)
  · rw [if_neg hself, if_pos hself'] at heq
    exact hself (hother a ha heq)
  · rw [if_neg hself, if_neg hself'] at heq
    exact hslot heq

/-! ### A region against a workstream -/

/-- One agent with the grant, a workstream, and every region as it is written. -/
def smallRegistry : Registry where
  agent id := if id = "a-1" then some ⟨"lab", true, ["agent_ansible"]⟩ else none
  connection _ := none
  workstream name := name = "team-a"
  region _ region := some region
  network _ _ := none

def routeRow (id region workstream : String) : ConfigMgmtRoute where
  id
  agentId := "a-1"
  cidr := "10.0.0.0/8"
  label := none
  isActive := true
  scope := "aws"
  scopeRegion := region
  scopeConnectionId := ""
  scopeWorkstream := workstream
  scopeNetwork := ""
  fallbackToWorker := some false
  createdBy := none

def teamVm : Placement := { scope := "aws", region := "us-east-1", workstream := "team-a" }

def routeRequest (region workstream : String) : RouteRequest :=
  { agentId := "a-1", cidr := "10.0.0.0/8", slot := ⟨"aws", region, "", workstream, ""⟩ }

/-- Two accepted routes of one range: the order of the rows decides between them. -/
theorem region_workstream_tie :
    create smallRegistry [] "r-1" (routeRequest "us-east-1" "") =
        .ok (routeRow "r-1" "us-east-1" "") ∧
      create smallRegistry [routeRow "r-1" "us-east-1" ""] "r-2" (routeRequest "" "team-a") =
        .ok (routeRow "r-2" "" "team-a") ∧
      ¬WellDefined [routeRow "r-1" "us-east-1" "", routeRow "r-2" "" "team-a"] "10.1.2.3"
        teamVm := by
  refine ⟨by decide +kernel, by decide +kernel, ?_⟩
  rintro ⟨choice, -, hsame⟩
  have hfirst := hsame _ (List.Perm.refl _)
  have hsecond := hsame [routeRow "r-2" "" "team-a", routeRow "r-1" "us-east-1" ""]
    (List.Perm.swap _ _ _)
  have hdiffer : matchFor (loadTable [routeRow "r-1" "us-east-1" "", routeRow "r-2" "" "team-a"])
        "10.1.2.3" teamVm ≠
      matchFor (loadTable [routeRow "r-2" "" "team-a", routeRow "r-1" "us-east-1" ""])
        "10.1.2.3" teamVm := by decide +kernel
  exact hdiffer (hfirst.trans hsecond.symm)

end ConfigMgmt
