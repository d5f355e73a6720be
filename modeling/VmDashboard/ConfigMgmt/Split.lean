import VmDashboard.ConfigMgmt.Migration
import VmDashboard.ConfigMgmt.OldLookup

/-!
# What the migrations leave behind

The old table as the database holds it, and the tables the two migrations make of it on either
database.
-/

namespace ConfigMgmt
open Machine (System)

/-! ### The tables -/

/-- The row as it is stored. The columns the old table has not are left blank. -/
def OldRoute.stored (route : OldRoute) : RouteRow where
  id := route.id
  agentId := route.agentId
  cidr := route.cidr
  label := route.label
  isActive := route.isActive
  scope := ""
  scopeRegion := ""
  scopeConnectionId := ""
  scopeWorkstream := ""
  scopeNetwork := ""
  fallbackToWorker := none
  createdBy := route.createdBy
  includeCloudVms := route.includeCloudVms
  createdAt := route.createdAt
  updatedAt := route.updatedAt

def cidrRule : Rule := ⟨"uq_config_mgmt_route_cidr", [.cidr], true⟩

def preTable (dialect : Dialect) (ledger : List String) (rows : List OldRoute) : Database where
  dialect
  columns := [.cidr]
  rules := [cidrRule]
  rows := rows.map OldRoute.stored
  aside := none
  hostNetwork := false
  ledger

section Migrate
variable {dialect : Dialect} {ledger : List String} {rows : List OldRoute} {kept : List RouteRow}

def Splits (rows : List OldRoute) (kept : List RouteRow) : Prop :=
  kept.map (fun row => row.toConfigMgmtRoute.entry) = splitEntries rows

def scopeRule : Rule := ⟨"uq_config_mgmt_route_scope", scopeColumns, false⟩

def networkRule : Rule := ⟨"uq_config_mgmt_route_scope_net", modelColumns, false⟩

/-- The table before the split. SQLite has rebuilt it from the model, which has the network. -/
def wideTable (dialect : Dialect) (ledger : List String) (kept : List RouteRow) : Database :=
  match dialect with
  | .postgresql => ⟨.postgresql, scopeColumns, [scopeRule], kept, none, false, ledger⟩
  | .sqlite => ⟨.sqlite, modelColumns, [modelRule, scopeRule], kept, none, false, ledger⟩

def networkTable (dialect : Dialect) (ledger : List String) (kept : List RouteRow) : Database :=
  match dialect with
  | .postgresql => ⟨.postgresql, modelColumns, [networkRule], kept, none, true, ledger⟩
  | .sqlite => ⟨.sqlite, modelColumns, [modelRule], kept, none, true, ledger⟩

def OldRoute.onprem (route : OldRoute) : RouteRow := { route.stored with scope := "onprem" }

theorem of_runSteps {ids : ℕ → String} {faults : List (Option ℕ)} {step : Step} {steps : List Step}
    {db after : Database} (h : runSteps ids faults (step :: steps) db = (after, true)) :
    ∃ mid, statements.exec db (step ids db) = some mid ∧
      runSteps ids faults.tail steps mid = (after, true) := by
  rw [runSteps] at h
  split at h
  next mid hscript => exact ⟨mid, (System.exec_of_script _ hscript).2, h⟩
  next => cases h

theorem addColumn_exec {column : Column} {default : String} {ids : ℕ → String}
    {columns : List Column} {rules : List Rule} (h : column ∉ columns) :
    statements.exec ⟨dialect, columns, rules, kept, none, false, ledger⟩
        (addColumn column default ids ⟨dialect, columns, rules, kept, none, false, ledger⟩) =
      some ⟨dialect, columns ++ [column], rules, kept.map fun row => row.set default column, none,
        false, ledger⟩ := by
  unfold addColumn
  rw [if_neg h]
  exact System.exec_singleton _ (if_neg h)

/-- The columns are added one after the other. -/
theorem addColumns_exec {ids : ℕ → String} {rules : List Rule} :
    ∀ (added : List (Column × String)) {columns : List Column} {kept : List RouteRow}
      {faults : List (Option ℕ)} {steps : List Step} {after : Database},
      (columns ++ added.map Prod.fst).Nodup →
      runSteps ids faults (added.map (fun c => addColumn c.1 c.2) ++ steps)
        ⟨dialect, columns, rules, kept, none, false, ledger⟩ = (after, true) →
      ∃ faults', runSteps ids faults' steps
        ⟨dialect, columns ++ added.map Prod.fst, rules,
          kept.map fun row => added.foldl (fun row c => row.set c.2 c.1) row, none, false, ledger⟩ =
          (after, true)
  | [], columns, kept, faults, steps, after, _, h => by
    refine ⟨faults, ?_⟩
    rw [List.map_nil, List.append_nil]
    simpa using h
  | (column, default) :: added, columns, kept, faults, steps, after, hnodup, h => by
    have hassoc : columns ++ ((column, default) :: added).map Prod.fst =
        columns ++ [column] ++ added.map Prod.fst := by
      rw [List.map_cons, List.append_assoc, List.singleton_append]
    rw [hassoc] at hnodup ⊢
    have hnew : column ∉ columns := fun hmem =>
      List.disjoint_of_nodup_append (List.Nodup.of_append_left hnodup) hmem List.mem_cons_self
    obtain ⟨mid, hexec, h⟩ := of_runSteps h
    rw [addColumn_exec hnew] at hexec
    obtain rfl := Option.some.inj hexec
    obtain ⟨faults', h⟩ := addColumns_exec added hnodup h
    refine ⟨faults', ?_⟩
    rw [List.map_map] at h
    exact h

def scopeAdditions : List (Column × String) :=
  [(.scope, "onprem"), (.scopeRegion, ""), (.scopeConnectionId, ""), (.scopeWorkstream, "")]

theorem of_addScopes {ids : ℕ → String} {faults : List (Option ℕ)} {steps : List Step}
    {after : Database}
    (h : runSteps ids faults
      (addColumn .scope "onprem" :: addColumn .scopeRegion "" :: addColumn .scopeConnectionId "" ::
        addColumn .scopeWorkstream "" :: steps) (preTable dialect ledger rows) = (after, true)) :
    ∃ faults', runSteps ids faults' steps
      ⟨dialect, scopeColumns, [cidrRule], rows.map OldRoute.onprem, none, false, ledger⟩ =
        (after, true) := by
  obtain ⟨faults', h⟩ := addColumns_exec scopeAdditions (by decide) h
  refine ⟨faults', ?_⟩
  rw [List.map_map] at h
  exact h

theorem carried_onprem (route : OldRoute) : carried scopeColumns route.onprem = route.onprem := by
  have hmissing : modelColumns.filter (· ∉ scopeColumns) = [.scopeNetwork] := by decide
  unfold carried
  rw [hmissing]
  rfl

/-- A table in the middle of a rebuild admits the rows it is to get. -/
def rebuilt (ledger : List String) (kept : List RouteRow) : Database :=
  ⟨.sqlite, modelColumns, [modelRule], kept, none, false, ledger⟩

theorem dropCidr_sqlite {ids : ℕ → String} :
    statements.exec ⟨.sqlite, scopeColumns, [cidrRule], rows.map OldRoute.onprem, none, false, ledger⟩
        (dropCidrOnlyUnique ids
          ⟨.sqlite, scopeColumns, [cidrRule], rows.map OldRoute.onprem, none, false, ledger⟩) =
      if (rebuilt ledger []).admits (rows.map OldRoute.onprem) = true then
        some (rebuilt ledger (rows.map OldRoute.onprem)) else none := by
  have hsteps : dropCidrOnlyUnique ids
      ⟨.sqlite, scopeColumns, [cidrRule], rows.map OldRoute.onprem, none, false, ledger⟩ =
        [.renameAside, .createFromModel, .copyRows, .dropAside] := rfl
  have hrows : (rows.map OldRoute.onprem).map (carried scopeColumns) = rows.map OldRoute.onprem := by
    rw [List.map_map]
    exact List.map_congr_left fun route _ => carried_onprem route
  have hcopy : statements.step
      ⟨.sqlite, modelColumns, [modelRule], [], some (scopeColumns, rows.map OldRoute.onprem), false,
        ledger⟩ .copyRows =
      if (rebuilt ledger []).admits (rows.map OldRoute.onprem) = true then
        some ⟨.sqlite, modelColumns, [modelRule], rows.map OldRoute.onprem,
          some (scopeColumns, rows.map OldRoute.onprem), false, ledger⟩ else none := by
    simp only [statements, Database.exec, hrows]
    rfl
  have hfront : statements.exec
      ⟨.sqlite, scopeColumns, [cidrRule], rows.map OldRoute.onprem, none, false, ledger⟩
        [.renameAside, .createFromModel] =
      some ⟨.sqlite, modelColumns, [modelRule], [], some (scopeColumns, rows.map OldRoute.onprem),
        false, ledger⟩ := rfl
  refine (congrArg _ hsteps).trans ((System.exec_append_of_some _ hfront _).trans ?_)
  rw [System.exec_cons, hcopy]
  split <;> rfl

theorem dropCidr_postgresql {ids : ℕ → String} :
    statements.exec
        ⟨.postgresql, scopeColumns, [cidrRule], kept, none, false, ledger⟩
        (dropCidrOnlyUnique ids ⟨.postgresql, scopeColumns, [cidrRule], kept, none, false, ledger⟩) =
      some ⟨.postgresql, scopeColumns, [], kept, none, false, ledger⟩ := rfl

theorem createUnique_exec {name : String} {columns present : List Column} {rules : List Rule}
    {ids : ℕ → String} (hnew : name ∉ rules.map Rule.name) (hcolumns : columns ⊆ present) :
    statements.exec ⟨dialect, present, rules, kept, none, false, ledger⟩
        (ensureRouteUnique name columns ids
          ⟨dialect, present, rules, kept, none, false, ledger⟩) =
      if (⟨name, columns, false⟩ : Rule).Holds kept then
        some ⟨dialect, present, rules ++ [⟨name, columns, false⟩], kept, none, false, ledger⟩
      else none := by
  have hsteps : ensureRouteUnique name columns ids
      ⟨dialect, present, rules, kept, none, false, ledger⟩ = [.createUniqueIndex name columns] :=
    if_pos hnew
  have hopen : ¬(name ∈ rules.map Rule.name ∨ ¬columns ⊆ present) := by
    rintro (hmem | hmissing)
    · exact hnew hmem
    · exact hmissing hcolumns
  have hstep : statements.step ⟨dialect, present, rules, kept, none, false, ledger⟩
      (.createUniqueIndex name columns) =
      if (⟨name, columns, false⟩ : Rule).Holds kept then
        some ⟨dialect, present, rules ++ [⟨name, columns, false⟩], kept, none, false, ledger⟩
      else none := if_neg hopen
  rw [hsteps, System.exec_cons, hstep]
  split <;> rfl

/-- The rule on the CIDR alone goes, and the one on the CIDR and its scope comes. -/
theorem of_widen {ids : ℕ → String} {faults : List (Option ℕ)} {steps : List Step}
    {after : Database}
    (h : runSteps ids faults
      (dropCidrOnlyUnique :: ensureRouteUnique "uq_config_mgmt_route_scope" scopeColumns :: steps)
      ⟨dialect, scopeColumns, [cidrRule], rows.map OldRoute.onprem, none, false, ledger⟩ =
        (after, true)) :
    ∃ faults', runSteps ids faults' steps
      (wideTable dialect ledger (rows.map OldRoute.onprem)) = (after, true) := by
  obtain ⟨mid, hdrop, h⟩ := of_runSteps h
  obtain ⟨wide, hcreate, h⟩ := of_runSteps h
  refine ⟨faults.tail.tail, ?_⟩
  cases dialect with
  | postgresql =>
    rw [dropCidr_postgresql] at hdrop
    obtain rfl := Option.some.inj hdrop
    rw [createUnique_exec (by decide) (by decide)] at hcreate
    split at hcreate
    · obtain rfl := Option.some.inj hcreate
      exact h
    · cases hcreate
  | sqlite =>
    rw [dropCidr_sqlite] at hdrop
    split at hdrop
    · obtain rfl := Option.some.inj hdrop
      unfold rebuilt at hcreate
      rw [createUnique_exec (by decide) (by decide)] at hcreate
      split at hcreate
      · obtain rfl := Option.some.inj hcreate
        exact h
      · cases hcreate
    · cases hdrop

/-- What an insert or a cleared flag leaves of the table. -/
theorem split_exec {ids : ℕ → String} {todo : List RouteRow} {n : ℕ} {db after : Database}
    (h : statements.exec db (splitRows ids n todo) = some after) :
    after = { db with rows := after.rows } ∧
      after.rows.map (fun row => row.toConfigMgmtRoute.entry) =
        db.rows.map (fun row => row.toConfigMgmtRoute.entry) ++
          todo.flatMap fun row => cloudScopes.map fun cloud =>
            ⟨row.agentId, row.cidr, row.isActive, ⟨cloud, "", "", "", ""⟩⟩ := by
  induction todo generalizing n db with
  | nil =>
    obtain rfl := Option.some.inj h
    exact ⟨rfl, (List.append_nil _).symm⟩
  | cons row todo ih =>
    have hinsert {db after : Database} {row : RouteRow}
        (h : statements.step db (.insertRow row) = some after) :
        after = { db with rows := db.rows ++ [row] } := by
      simp only [statements, Database.exec] at h
      split at h
      · exact (Option.some.inj h).symm
      · cases h
    obtain ⟨db₁, haws, h⟩ := System.exec_cons_eq_some _ h
    obtain ⟨db₂, hazure, h⟩ := System.exec_cons_eq_some _ h
    obtain ⟨db₃, hgcp, h⟩ := System.exec_cons_eq_some _ h
    obtain ⟨db₄, hclear, h⟩ := System.exec_cons_eq_some _ h
    obtain rfl := hinsert haws
    obtain rfl := hinsert hazure
    obtain rfl := hinsert hgcp
    obtain rfl := Option.some.inj hclear
    obtain ⟨hrest, hentries⟩ := ih h
    refine ⟨hrest, ?_⟩
    have hkept : ((fun row => row.toConfigMgmtRoute.entry) ∘ fun r : RouteRow =>
        if r.id = row.id then r.unflagged else r) = fun row => row.toConfigMgmtRoute.entry := by
      funext r
      rw [Function.comp_apply]
      split <;> rfl
    rw [hentries, List.map_map, hkept]
    simp only [List.map_append, List.append_assoc, List.flatMap_cons]
    rfl

theorem flaggedRows_wide : flaggedRows (wideTable dialect ledger (rows.map OldRoute.onprem)) =
    (rows.filter OldRoute.flagged).map OldRoute.onprem := by
  have hrows : (wideTable dialect ledger (rows.map OldRoute.onprem)).rows =
      rows.map OldRoute.onprem := by
    cases dialect <;> rfl
  unfold flaggedRows
  rw [hrows, List.filter_map]
  congr 1
  refine List.filter_congr fun route _ => ?_
  change (decide (route.includeCloudVms = some true) && true && true && true && true) =
    decide (route.includeCloudVms = some true)
  simp only [Bool.and_true]

theorem of_split {ids : ℕ → String} {mid : Database}
    (h : statements.exec (wideTable dialect ledger (rows.map OldRoute.onprem))
      (splitCloudRoutes ids (wideTable dialect ledger (rows.map OldRoute.onprem))) = some mid) :
    ∃ kept, Splits rows kept ∧ mid = wideTable dialect ledger kept := by
  unfold splitCloudRoutes at h
  rw [flaggedRows_wide] at h
  obtain ⟨hmid, hentries⟩ := split_exec h
  refine ⟨mid.rows, ?_, ?_⟩
  · have hrows : (wideTable dialect ledger (rows.map OldRoute.onprem)).rows =
        rows.map OldRoute.onprem := by
      cases dialect <;> rfl
    rw [hrows, List.map_map, List.flatMap_map] at hentries
    exact hentries
  · rw [hmid]
    cases dialect <;> rfl

/-- A migration that comes to its end has run its steps and is recorded. -/
theorem record_exec {ids : ℕ → String} {faults : List (Option ℕ)} {key : String} {db after : Database}
    (h : runSteps ids faults [fun _ _ => [.record key]] db = (after, true)) :
    after = { db with ledger := if key ∈ db.ledger then db.ledger else db.ledger ++ [key] } := by
  obtain ⟨mid, hrecord, h⟩ := of_runSteps h
  obtain rfl := Option.some.inj hrecord
  exact (Prod.mk.inj h).1.symm

theorem of_migrate {migration : Migration} {attempt : Attempt} {db after : Database}
    (h : migrate migration attempt db = (after, true)) :
    runSteps attempt.ids attempt.faults migration.script db = (after, true) := by
  unfold migrate at h
  split at h
  next hrun => rw [hrun, h]
  next => cases h

theorem migrate_scopes {attempt : Attempt} {after : Database}
    (hledger : configRouteScopes.key ∉ ledger)
    (h : migrate configRouteScopes attempt (preTable dialect ledger rows) = (after, true)) :
    ∃ kept, Splits rows kept ∧
      after = wideTable dialect (ledger ++ [configRouteScopes.key]) kept := by
  obtain ⟨faults, h⟩ := of_addScopes (of_migrate h)
  obtain ⟨faults, h⟩ := of_widen h
  obtain ⟨mid, hsplit, h⟩ := of_runSteps h
  obtain ⟨kept, hkept, rfl⟩ := of_split hsplit
  refine ⟨kept, hkept, (record_exec h).trans ?_⟩
  cases dialect with
  | postgresql =>
    change Database.mk .postgresql scopeColumns [scopeRule] kept none false
      (if configRouteScopes.key ∈ ledger then _ else _) = _
    rw [if_neg hledger]
    rfl
  | sqlite =>
    change Database.mk .sqlite modelColumns [modelRule, scopeRule] kept none false
      (if configRouteScopes.key ∈ ledger then _ else _) = _
    rw [if_neg hledger]
    rfl

theorem network_blank (hkept : Splits rows kept) : ∀ row ∈ kept, row.scopeNetwork = "" := by
  intro row hrow
  have hmem : row.toConfigMgmtRoute.entry ∈ splitEntries rows := by
    rw [← hkept]
    exact List.mem_map_of_mem hrow
  obtain ⟨route, -, scope, -, -, hentry⟩ := mem_splitEntries.mp hmem
  exact congrArg (fun entry => entry.slot.network) hentry

theorem set_network (hkept : Splits rows kept) :
    (kept.map fun row => row.set "" .scopeNetwork) = kept := by
  have hsame : ∀ row ∈ kept, row.set "" .scopeNetwork = row := by
    intro row hrow
    have hblank := network_blank hkept row hrow
    unfold RouteRow.set
    rw [← hblank]
  rw [List.map_congr_left hsame, List.map_id']

theorem dropScopeRule_postgresql {ids : ℕ → String} :
    statements.exec ⟨.postgresql, modelColumns, [scopeRule], kept, none, false, ledger⟩
        (dropRouteUnique "uq_config_mgmt_route_scope" ids
          ⟨.postgresql, modelColumns, [scopeRule], kept, none, false, ledger⟩) =
      some ⟨.postgresql, modelColumns, [], kept, none, false, ledger⟩ := rfl

theorem dropScopeRule_sqlite {ids : ℕ → String} :
    statements.exec (wideTable .sqlite ledger kept)
        (dropRouteUnique "uq_config_mgmt_route_scope" ids (wideTable .sqlite ledger kept)) =
      some ⟨.sqlite, modelColumns, [modelRule], kept, none, false, ledger⟩ := rfl

theorem migrate_networks {attempt : Attempt} {after : Database} (hkept : Splits rows kept)
    (hledger : configRouteNetworks.key ∉ ledger)
    (h : migrate configRouteNetworks attempt (wideTable dialect ledger kept) = (after, true)) :
    after = networkTable dialect (ledger ++ [configRouteNetworks.key]) kept := by
  obtain ⟨wide, hadd, h⟩ := of_runSteps (of_migrate h)
  obtain ⟨dropped, hdrop, h⟩ := of_runSteps h
  obtain ⟨ruled, hensure, h⟩ := of_runSteps h
  obtain ⟨hosted, hhost, h⟩ := of_runSteps h
  have hrecord := record_exec h
  cases dialect with
  | postgresql =>
    have hnew : Column.scopeNetwork ∉ scopeColumns := by decide
    have hwide := (addColumn_exec hnew).symm.trans hadd
    rw [set_network hkept] at hwide
    obtain rfl := Option.some.inj hwide
    obtain rfl := Option.some.inj (dropScopeRule_postgresql.symm.trans hdrop)
    rw [createUnique_exec (by decide) (by decide)] at hensure
    split at hensure
    · obtain rfl := Option.some.inj hensure
      obtain rfl := Option.some.inj hhost
      rw [hrecord]
      change Database.mk .postgresql modelColumns [networkRule] kept none true
        (if configRouteNetworks.key ∈ ledger then _ else _) = _
      rw [if_neg hledger]
      rfl
    · cases hensure
  | sqlite =>
    obtain rfl := Option.some.inj hadd
    obtain rfl := Option.some.inj (dropScopeRule_sqlite.symm.trans hdrop)
    obtain rfl := Option.some.inj hensure
    obtain rfl := Option.some.inj hhost
    rw [hrecord]
    change Database.mk .sqlite modelColumns [modelRule] kept none true
      (if configRouteNetworks.key ∈ ledger then _ else _) = _
    rw [if_neg hledger]
    rfl

end Migrate

end ConfigMgmt
