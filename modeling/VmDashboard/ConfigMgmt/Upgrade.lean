import VmDashboard.ConfigMgmt.Split

/-!
# The upgrade keeps every lookup

A boot applies what is not recorded and may be interrupted; the next one repeats it. The table is the
old one, the split one or the migrated one, and the migrated one answers every lookup as the old one
did.
-/

namespace ConfigMgmt
open Machine (System)

section Migrate
variable {dialect : Dialect} {ledger : List String} {rows : List OldRoute} {kept : List RouteRow}

/-! ### Nothing that fails -/

/-- What every rule after the CIDR's own one tells apart. -/
def RouteRow.pair (row : RouteRow) : String × String := (row.cidr, row.scope)

def Rule.Separates (rule : Rule) : Prop := .cidr ∈ rule.columns ∧ .scope ∈ rule.columns

theorem holds_of_pairs {rule : Rule} (hrule : rule.Separates)
    (h : (kept.map RouteRow.pair).Nodup) : rule.Holds kept := by
  refine List.pairwise_map.mpr ((List.pairwise_map.mp h).imp fun hne hkey => hne ?_)
  have hget := List.map_inj_left.mp hkey
  exact Prod.ext (hget .cidr hrule.1) (hget .scope hrule.2)

theorem admits_of_pairs {db : Database} (hrules : ∀ rule ∈ db.rules, rule.Separates)
    (hids : (kept.map (·.id)).Nodup) (hpairs : (kept.map RouteRow.pair).Nodup) :
    db.admits kept = true := by
  refine Bool.and_eq_true_iff.mpr ⟨decide_eq_true hids, List.all_eq_true.mpr fun rule hrule => ?_⟩
  exact decide_eq_true (holds_of_pairs (hrules rule hrule) hpairs)

def splitPairs (rows : List OldRoute) : List (String × String) :=
  rows.map (fun route => (route.cidr, "onprem")) ++
    (rows.filter OldRoute.flagged).flatMap fun route => cloudScopes.map fun cloud => (route.cidr, cloud)

theorem splitPairs_nodup (hunique : (rows.map OldRoute.cidr).Nodup) : (splitPairs rows).Nodup := by
  have hcidrs {l : List OldRoute} (hl : (l.map OldRoute.cidr).Nodup) (scope : String) :
      (l.map fun route => (route.cidr, scope)).Nodup :=
    List.pairwise_map.mpr ((List.pairwise_map.mp hl).imp fun hne heq => hne (congrArg Prod.fst heq))
  have hflagged : ((rows.filter OldRoute.flagged).map OldRoute.cidr).Nodup :=
    hunique.sublist (List.filter_sublist.map _)
  refine List.nodup_append.mpr ⟨hcidrs hunique "onprem", List.nodup_flatMap.mpr ⟨fun route _ => ?_, ?_⟩,
    ?_⟩
  · have hclouds : cloudScopes.Nodup := by decide
    exact hclouds.map fun a b heq => congrArg Prod.snd heq
  · refine (List.pairwise_map.mp hflagged).imp fun hne => ?_
    intro pair ha hb
    obtain ⟨cloud, -, rfl⟩ := List.mem_map.mp ha
    obtain ⟨cloud', -, heq⟩ := List.mem_map.mp hb
    exact hne (congrArg Prod.fst heq).symm
  · rintro a ha b hb rfl
    obtain ⟨route, -, rfl⟩ := List.mem_map.mp ha
    obtain ⟨route', -, hcloud⟩ := List.mem_flatMap.mp hb
    obtain ⟨cloud, hmem, heq⟩ := List.mem_map.mp hcloud
    have hnot : "onprem" ∉ cloudScopes := by decide
    have hscope : cloud = "onprem" := congrArg Prod.snd heq
    exact hnot (hscope ▸ hmem)

theorem pairs_of_splits (hkept : Splits rows kept) : kept.map RouteRow.pair = splitPairs rows := by
  have hpair : kept.map RouteRow.pair =
      (kept.map fun row => row.toConfigMgmtRoute.entry).map fun entry =>
        (entry.cidr, entry.slot.scope) := by
    rw [List.map_map]
    rfl
  have hsplit : kept.map (fun row => row.toConfigMgmtRoute.entry) = splitEntries rows := hkept
  rw [hpair, hsplit, splitEntries, List.map_append, List.map_map, List.map_flatMap]
  simp only [List.map_map]
  rfl

theorem insert_step {db : Database} {row : RouteRow} (hcolumns : scopeColumns ⊆ db.columns)
    (hrules : ∀ rule ∈ db.rules, rule.Separates) (hids : (db.rows.map (·.id)).Nodup)
    (hnew : row.id ∉ db.rows.map (·.id)) (hpairs : ((db.rows ++ [row]).map RouteRow.pair).Nodup) :
    statements.step db (.insertRow row) = some { db with rows := db.rows ++ [row] } := by
  have hpresent : [.scope, .scopeRegion, .scopeConnectionId, .scopeWorkstream] ⊆ db.columns :=
    fun column hcolumn => hcolumns (List.mem_cons_of_mem _ hcolumn)
  have hids' : ((db.rows ++ [row]).map (·.id)).Nodup := by
    rw [List.map_append, List.nodup_append]
    refine ⟨hids, List.nodup_singleton _, fun a ha b hb hab => hnew ?_⟩
    have hid : a = row.id := hab.trans (List.mem_singleton.mp hb)
    exact hid ▸ ha
  exact if_pos ⟨hpresent, admits_of_pairs hrules hids' hpairs⟩

theorem inserts_exec (new : List RouteRow) {db : Database} (hcolumns : scopeColumns ⊆ db.columns)
    (hrules : ∀ rule ∈ db.rules, rule.Separates) (hids : ((db.rows ++ new).map (·.id)).Nodup)
    (hpairs : ((db.rows ++ new).map RouteRow.pair).Nodup) :
    statements.exec db (new.map Statement.insertRow) =
      some { db with rows := db.rows ++ new } := by
  induction new generalizing db with
  | nil => rw [List.append_nil]; rfl
  | cons row new ih =>
    have hassoc : db.rows ++ row :: new = db.rows ++ [row] ++ new := by
      rw [List.append_assoc, List.singleton_append]
    rw [hassoc] at hids hpairs ⊢
    have hids' : ((db.rows ++ [row]).map (·.id)).Nodup :=
      hids.sublist ((List.sublist_append_left _ _).map _)
    have hnew : row.id ∉ db.rows.map (·.id) := fun hmem => by
      rw [List.map_append] at hids'
      exact List.disjoint_of_nodup_append hids' hmem List.mem_cons_self
    have hfirst := insert_step hcolumns hrules
      (hids'.sublist ((List.sublist_append_left _ _).map _)) hnew
      (hpairs.sublist ((List.sublist_append_left _ _).map _))
    rw [List.map_cons, System.exec_cons, hfirst, Option.bind_some]
    exact ih hcolumns hrules hids hpairs

def RouteRow.cleared (id : String) (row : RouteRow) : RouteRow :=
  if row.id = id then row.unflagged else row

/-- The split inserts every row when the uuids are fresh and no CIDR has a row of a cloud. -/
theorem split_runs {ids : ℕ → String} (hinj : Function.Injective ids) :
    ∀ (todo : List RouteRow) (n : ℕ) (db : Database), scopeColumns ⊆ db.columns →
      (∀ rule ∈ db.rules, rule.Separates) → (db.rows.map (·.id)).Nodup →
      (∀ k, n ≤ k → ids k ∉ db.rows.map (·.id)) →
      (db.rows.map RouteRow.pair ++
        todo.flatMap fun row => cloudScopes.map fun cloud => (row.cidr, cloud)).Nodup →
      ∃ after, statements.exec db (splitRows ids n todo) = some after
  | [], _, db, _, _, _, _, _ => ⟨db, rfl⟩
  | row :: todo, n, db, hcolumns, hrules, hids, hfresh, hpairs => by
    let new := [cloudRow (ids n) "aws" row, cloudRow (ids (n + 1)) "azure" row,
      cloudRow (ids (n + 2)) "gcp" row]
    have hnewids : (db.rows ++ new).map (·.id) =
        db.rows.map (·.id) ++ [ids n, ids (n + 1), ids (n + 2)] := List.map_append
    have hnewpairs : (db.rows ++ new).map RouteRow.pair =
        db.rows.map RouteRow.pair ++ cloudScopes.map fun cloud => (row.cidr, cloud) := List.map_append
    rw [List.flatMap_cons, ← List.append_assoc, ← hnewpairs] at hpairs
    have hids' : ((db.rows ++ new).map (·.id)).Nodup := by
      rw [hnewids, List.nodup_append]
      refine ⟨hids, ?_, fun a ha b hb hab => ?_⟩
      · have hdrawn : [n, n + 1, n + 2].Nodup := by simp
        exact hdrawn.map hinj
      · obtain ⟨k, hk, rfl⟩ : ∃ k, n ≤ k ∧ b = ids k := by
          rcases List.mem_cons.mp hb with rfl | hb
          · exact ⟨n, le_refl n, rfl⟩
          rcases List.mem_cons.mp hb with rfl | hb
          · exact ⟨n + 1, by omega, rfl⟩
          · exact ⟨n + 2, by omega, List.mem_singleton.mp hb⟩
        exact hfresh k hk (hab ▸ ha)
    have hinserted := inserts_exec new hcolumns hrules hids'
      (hpairs.sublist (List.sublist_append_left _ _))
    have hcleared : (db.rows ++ new).map (·.id) =
        ((db.rows ++ new).map (RouteRow.cleared row.id)).map (·.id) := by
      rw [List.map_map]
      refine List.map_congr_left fun r _ => ?_
      rw [Function.comp_apply, RouteRow.cleared]
      split <;> rfl
    have hclearedpairs : (db.rows ++ new).map RouteRow.pair =
        ((db.rows ++ new).map (RouteRow.cleared row.id)).map RouteRow.pair := by
      rw [List.map_map]
      refine List.map_congr_left fun r _ => ?_
      rw [Function.comp_apply, RouteRow.cleared]
      split <;> rfl
    have hlater : ∀ k, n + 3 ≤ k →
        ids k ∉ ((db.rows ++ new).map (RouteRow.cleared row.id)).map (·.id) := by
      intro k hk hmem
      rw [← hcleared, hnewids] at hmem
      rcases List.mem_append.mp hmem with hold | hdrawn
      · exact hfresh k (by omega) hold
      · simp only [List.mem_cons, List.not_mem_nil, or_false] at hdrawn
        rcases hdrawn with heq | heq | heq <;> · have := hinj heq; omega
    obtain ⟨after, hrest⟩ := split_runs hinj todo (n + 3)
      { db with rows := (db.rows ++ new).map (RouteRow.cleared row.id) } hcolumns hrules
      (hcleared ▸ hids') hlater (hclearedpairs ▸ hpairs)
    refine ⟨after, ?_⟩
    have hsteps : splitRows ids n (row :: todo) =
        new.map Statement.insertRow ++ (.clearFlag row.id :: splitRows ids (n + 3) todo) := rfl
    rw [hsteps, System.exec_append_of_some _ hinserted, System.exec_cons]
    exact hrest

theorem runSteps_cons {ids : ℕ → String} {step : Step} {steps : List Step} {db mid : Database}
    (h : statements.exec db (step ids db) = some mid) :
    runSteps ids [] (step :: steps) db = runSteps ids [] steps mid := by
  have hscript : statements.script db (List.headD [] none) (step ids db) = (mid, true) :=
    System.script_of_exec _ h
  rw [runSteps, hscript]
  rfl

def recorded (key : String) (db : Database) : Database :=
  { db with ledger := if key ∈ db.ledger then db.ledger else db.ledger ++ [key] }

theorem addColumns_run (ids : ℕ → String) (dialect : Dialect) (ledger : List String)
    (rules : List Rule) (steps : List Step) :
    ∀ (added : List (Column × String)) (columns : List Column) (kept : List RouteRow),
      (columns ++ added.map Prod.fst).Nodup →
      runSteps ids [] (added.map (fun c => addColumn c.1 c.2) ++ steps)
          ⟨dialect, columns, rules, kept, none, false, ledger⟩ =
        runSteps ids [] steps
          ⟨dialect, columns ++ added.map Prod.fst, rules,
            kept.map fun row => added.foldl (fun row c => row.set c.2 c.1) row, none, false, ledger⟩
  | [], columns, kept, _ => by simp
  | (column, default) :: added, columns, kept, hnodup => by
    have hassoc : columns ++ ((column, default) :: added).map Prod.fst =
        columns ++ [column] ++ added.map Prod.fst := by
      rw [List.map_cons, List.append_assoc, List.singleton_append]
    rw [hassoc] at hnodup ⊢
    have hnew : column ∉ columns := fun hmem =>
      List.disjoint_of_nodup_append (List.Nodup.of_append_left hnodup) hmem List.mem_cons_self
    rw [List.map_cons, List.cons_append, runSteps_cons (addColumn_exec hnew),
      addColumns_run ids dialect ledger rules steps added _ _ hnodup, List.map_map]
    rfl

theorem onprem_pairs (rows : List OldRoute) :
    (rows.map OldRoute.onprem).map RouteRow.pair = rows.map fun route => (route.cidr, "onprem") := by
  rw [List.map_map]
  rfl

theorem onprem_ids (rows : List OldRoute) :
    (rows.map OldRoute.onprem).map (·.id) = rows.map OldRoute.id := by
  rw [List.map_map]
  rfl

theorem scopes_succeed {attempt : Attempt} (hcidrs : (rows.map OldRoute.cidr).Nodup)
    (hids : (rows.map OldRoute.id).Nodup) (hinj : Function.Injective attempt.ids)
    (hfresh : ∀ k, attempt.ids k ∉ rows.map OldRoute.id) (hfaults : attempt.faults = []) :
    (migrate configRouteScopes attempt (preTable dialect ledger rows)).2 = true := by
  have hpairs : ((rows.map OldRoute.onprem).map RouteRow.pair).Nodup := by
    rw [onprem_pairs]
    exact (splitPairs_nodup hcidrs).sublist (List.sublist_append_left _ _)
  have hids' : ((rows.map OldRoute.onprem).map (·.id)).Nodup := by rwa [onprem_ids]
  have hwide : ∀ steps, runSteps attempt.ids []
      (dropCidrOnlyUnique :: ensureRouteUnique "uq_config_mgmt_route_scope" scopeColumns :: steps)
      ⟨dialect, scopeColumns, [cidrRule], rows.map OldRoute.onprem, none, false, ledger⟩ =
        runSteps attempt.ids [] steps (wideTable dialect ledger (rows.map OldRoute.onprem)) := by
    intro steps
    have hholds : scopeRule.Holds (rows.map OldRoute.onprem) :=
      holds_of_pairs ⟨by decide, by decide⟩ hpairs
    cases dialect with
    | postgresql =>
      rw [runSteps_cons dropCidr_postgresql]
      exact runSteps_cons ((createUnique_exec (by decide) (by decide)).trans (if_pos hholds))
    | sqlite =>
      have hadmits : (rebuilt ledger []).admits (rows.map OldRoute.onprem) = true := by
        refine admits_of_pairs (fun rule hrule => ?_) hids' hpairs
        obtain rfl := List.mem_singleton.mp hrule
        exact ⟨by decide, by decide⟩
      rw [runSteps_cons (dropCidr_sqlite.trans (if_pos hadmits))]
      exact runSteps_cons ((createUnique_exec (by decide) (by decide)).trans (if_pos hholds))
  have hrows : (wideTable dialect ledger (rows.map OldRoute.onprem)).rows =
      rows.map OldRoute.onprem := by
    cases dialect <;> rfl
  obtain ⟨mid, hsplit⟩ : ∃ mid, statements.exec (wideTable dialect ledger (rows.map OldRoute.onprem))
      (splitCloudRoutes attempt.ids (wideTable dialect ledger (rows.map OldRoute.onprem))) =
        some mid := by
    unfold splitCloudRoutes
    rw [flaggedRows_wide]
    refine split_runs hinj _ 0 _ ?_ ?_ ?_ ?_ ?_
    · have hcolumns : scopeColumns ⊆ modelColumns := by decide
      cases dialect with
      | postgresql => exact List.Subset.refl _
      | sqlite => exact hcolumns
    · intro rule hrule
      cases dialect with
      | postgresql =>
        obtain rfl := List.mem_singleton.mp hrule
        exact ⟨by decide, by decide⟩
      | sqlite =>
        rcases List.mem_cons.mp hrule with rfl | hrule
        · exact ⟨by decide, by decide⟩
        · obtain rfl := List.mem_singleton.mp hrule
          exact ⟨by decide, by decide⟩
    · rwa [hrows]
    · intro k _
      rw [hrows, onprem_ids]
      exact hfresh k
    · rw [hrows, onprem_pairs, List.flatMap_map]
      exact splitPairs_nodup hcidrs
  have hadded := addColumns_run attempt.ids dialect ledger [cidrRule]
    [dropCidrOnlyUnique, ensureRouteUnique "uq_config_mgmt_route_scope" scopeColumns,
      splitCloudRoutes, fun _ _ => [.record configRouteScopes.key]]
    scopeAdditions [.cidr] (rows.map OldRoute.stored) (by decide)
  have hstored : (rows.map OldRoute.stored).map
      (fun row => scopeAdditions.foldl (fun row c => row.set c.2 c.1) row) =
        rows.map OldRoute.onprem := by
    rw [List.map_map]
    rfl
  rw [hstored] at hadded
  have hrun : runSteps attempt.ids [] configRouteScopes.script (preTable dialect ledger rows) =
      (recorded configRouteScopes.key mid, true) :=
    calc runSteps attempt.ids [] configRouteScopes.script (preTable dialect ledger rows)
        = _ := hadded
      _ = runSteps attempt.ids [] [splitCloudRoutes, fun _ _ => [.record configRouteScopes.key]]
            (wideTable dialect ledger (rows.map OldRoute.onprem)) := hwide _
      _ = runSteps attempt.ids [] [fun _ _ => [.record configRouteScopes.key]] mid :=
          runSteps_cons hsplit
      _ = (recorded configRouteScopes.key mid, true) := runSteps_cons rfl
  unfold migrate
  rw [hfaults, hrun]

theorem networks_succeed {attempt : Attempt} (hkept : Splits rows kept)
    (hcidrs : (rows.map OldRoute.cidr).Nodup) (hfaults : attempt.faults = []) :
    (migrate configRouteNetworks attempt (wideTable dialect ledger kept)).2 = true := by
  have hrun : runSteps attempt.ids [] configRouteNetworks.script (wideTable dialect ledger kept) =
      (recorded configRouteNetworks.key (networkTable dialect ledger kept), true) := by
    cases dialect with
    | postgresql =>
      have hnew : Column.scopeNetwork ∉ scopeColumns := by decide
      have hholds : networkRule.Holds kept := by
        refine holds_of_pairs ⟨by decide, by decide⟩ ?_
        rw [pairs_of_splits hkept]
        exact splitPairs_nodup hcidrs
      have hadd : statements.exec (wideTable .postgresql ledger kept)
          (addColumn .scopeNetwork "" attempt.ids (wideTable .postgresql ledger kept)) =
            some ⟨.postgresql, modelColumns, [scopeRule], kept, none, false, ledger⟩ := by
        refine (addColumn_exec hnew).trans ?_
        rw [set_network hkept]
        rfl
      refine (runSteps_cons hadd).trans ((runSteps_cons dropScopeRule_postgresql).trans ?_)
      refine (runSteps_cons ((createUnique_exec (by decide) (by decide)).trans
        (if_pos hholds))).trans ?_
      exact (runSteps_cons rfl).trans (runSteps_cons rfl)
    | sqlite =>
      refine Eq.trans (runSteps_cons rfl) ((runSteps_cons dropScopeRule_sqlite).trans ?_)
      exact (runSteps_cons rfl).trans ((runSteps_cons rfl).trans (runSteps_cons rfl))
  unfold migrate
  rw [hfaults, hrun]

/-! ### Boots -/

theorem migrate_failed {migration : Migration} {attempt : Attempt} {db : Database}
    (h : (migrate migration attempt db).2 = false) : (migrate migration attempt db).1 = db := by
  unfold migrate at h ⊢
  split at h
  · cases h
  · rfl

theorem applyNumbered_recorded {migration : Migration} {attempt : Attempt} {db : Database}
    (h : migration.key ∈ db.ledger) (rest : List (Migration × Attempt)) :
    applyNumbered db ((migration, attempt) :: rest) = applyNumbered db rest := by
  rw [applyNumbered, if_pos h]

theorem applyNumbered_failed {migration : Migration} {attempt : Attempt} {db : Database}
    (hnew : migration.key ∉ db.ledger) (h : (migrate migration attempt db).2 = false)
    (rest : List (Migration × Attempt)) :
    applyNumbered db ((migration, attempt) :: rest) = db := by
  have hpair : migrate migration attempt db = (db, false) := Prod.ext (migrate_failed h) h
  rw [applyNumbered, if_neg hnew, hpair]

theorem applyNumbered_succeeded {migration : Migration} {attempt : Attempt} {db after : Database}
    (hnew : migration.key ∉ db.ledger) (h : migrate migration attempt db = (after, true))
    (rest : List (Migration × Attempt)) :
    applyNumbered db ((migration, attempt) :: rest) = applyNumbered after rest := by
  rw [applyNumbered, if_neg hnew, h]

/-- A table a boot may find. -/
inductive Phase (dialect : Dialect) (ledger : List String) (rows : List OldRoute) : Database → Prop
  | before : Phase dialect ledger rows (preTable dialect ledger rows)
  | split {kept : List RouteRow} (hkept : Splits rows kept) :
    Phase dialect ledger rows (wideTable dialect (ledger ++ [configRouteScopes.key]) kept)
  | migrated {kept : List RouteRow} (hkept : Splits rows kept) :
    Phase dialect ledger rows
      (networkTable dialect (ledger ++ [configRouteScopes.key] ++ [configRouteNetworks.key]) kept)

theorem wideTable_ledger : (wideTable dialect ledger kept).ledger = ledger := by
  cases dialect <;> rfl

theorem networkTable_ledger : (networkTable dialect ledger kept).ledger = ledger := by
  cases dialect <;> rfl

theorem networkTable_rows : (networkTable dialect ledger kept).rows = kept := by
  cases dialect <;> rfl

theorem networkTable_migrated : (networkTable dialect
    (ledger ++ [configRouteScopes.key] ++ [configRouteNetworks.key]) kept).migrated := by
  unfold Database.migrated
  rw [networkTable_ledger]
  exact ⟨List.mem_append_left _ (List.mem_append_right _ List.mem_cons_self),
    List.mem_append_right _ List.mem_cons_self⟩

theorem keys_ne : configRouteNetworks.key ≠ configRouteScopes.key := by decide

/-- What a boot makes of the split table. -/
theorem networks_boot {attempt : Attempt} (hkept : Splits rows kept)
    (hledger : configRouteNetworks.key ∉ ledger) (n : ℕ) :
    applyNumbered (wideTable dialect ledger kept) ([(configRouteNetworks, attempt)].take n) =
        wideTable dialect ledger kept ∨
      applyNumbered (wideTable dialect ledger kept) ([(configRouteNetworks, attempt)].take n) =
        networkTable dialect (ledger ++ [configRouteNetworks.key]) kept := by
  cases n with
  | zero => exact .inl rfl
  | succ n =>
    have hnew : configRouteNetworks.key ∉ (wideTable dialect ledger kept).ledger := by
      rwa [wideTable_ledger]
    rw [List.take_succ_cons, List.take_nil]
    cases hok : (migrate configRouteNetworks attempt (wideTable dialect ledger kept)).2 with
    | false => exact .inl (applyNumbered_failed hnew hok [])
    | true =>
      obtain ⟨after, hpair⟩ : ∃ after,
          migrate configRouteNetworks attempt (wideTable dialect ledger kept) = (after, true) :=
        ⟨_, Prod.ext rfl hok⟩
      refine .inr ((applyNumbered_succeeded hnew hpair []).trans ?_)
      exact migrate_networks hkept hledger hpair

/-- What a boot makes of the old table: nothing, or the split table, and perhaps the next one. -/
theorem boot_before (hscopes : configRouteScopes.key ∉ ledger)
    (hnetworks : configRouteNetworks.key ∉ ledger) (boot : Boot) :
    (preTable dialect ledger rows).boot boot = preTable dialect ledger rows ∨
      ∃ kept, Splits rows kept ∧
        (preTable dialect ledger rows).boot { boot with survives := 1 } =
          wideTable dialect (ledger ++ [configRouteScopes.key]) kept ∧
        ((preTable dialect ledger rows).boot boot =
            wideTable dialect (ledger ++ [configRouteScopes.key]) kept ∨
          (preTable dialect ledger rows).boot boot =
            networkTable dialect
              (ledger ++ [configRouteScopes.key] ++ [configRouteNetworks.key]) kept) := by
  have hlater : configRouteNetworks.key ∉ ledger ++ [configRouteScopes.key] := by
    rintro hmem
    rcases List.mem_append.mp hmem with hold | hkey
    · exact hnetworks hold
    · exact keys_ne (List.mem_singleton.mp hkey)
  unfold Database.boot
  cases hsurvives : boot.survives with
  | zero => exact .inl rfl
  | succ n =>
    cases hok : (migrate configRouteScopes boot.scopes (preTable dialect ledger rows)).2 with
    | false => exact .inl (applyNumbered_failed hscopes hok _)
    | true =>
      obtain ⟨after, hpair⟩ : ∃ after,
          migrate configRouteScopes boot.scopes (preTable dialect ledger rows) = (after, true) :=
        ⟨_, Prod.ext rfl hok⟩
      obtain ⟨kept, hkept, rfl⟩ := migrate_scopes hscopes hpair
      refine .inr ⟨kept, hkept, applyNumbered_succeeded hscopes hpair [], ?_⟩
      rw [List.take_succ_cons, applyNumbered_succeeded hscopes hpair]
      exact networks_boot hkept hlater n

theorem boot_scoped (hnetworks : configRouteNetworks.key ∉ ledger) (hkept : Splits rows kept)
    (boot : Boot) :
    (wideTable dialect (ledger ++ [configRouteScopes.key]) kept).boot boot =
        wideTable dialect (ledger ++ [configRouteScopes.key]) kept ∨
      (wideTable dialect (ledger ++ [configRouteScopes.key]) kept).boot boot =
        networkTable dialect (ledger ++ [configRouteScopes.key] ++ [configRouteNetworks.key])
          kept := by
  have hlater : configRouteNetworks.key ∉ ledger ++ [configRouteScopes.key] := by
    rintro hmem
    rcases List.mem_append.mp hmem with hold | hkey
    · exact hnetworks hold
    · exact keys_ne (List.mem_singleton.mp hkey)
  unfold Database.boot
  cases hsurvives : boot.survives with
  | zero => exact .inl rfl
  | succ n =>
    have hrecorded : configRouteScopes.key ∈
        (wideTable dialect (ledger ++ [configRouteScopes.key]) kept).ledger := by
      rw [wideTable_ledger]
      exact List.mem_append_right _ List.mem_cons_self
    rw [List.take_succ_cons, applyNumbered_recorded hrecorded]
    exact networks_boot hkept hlater n

theorem boot_migrated (boot : Boot) :
    (networkTable dialect (ledger ++ [configRouteScopes.key] ++ [configRouteNetworks.key]) kept).boot
        boot =
      networkTable dialect (ledger ++ [configRouteScopes.key] ++ [configRouteNetworks.key]) kept := by
  unfold Database.boot
  rcases boot.survives with _ | _ | n
  · rfl
  · exact applyNumbered_recorded networkTable_migrated.1 []
  · rw [List.take_succ_cons, applyNumbered_recorded networkTable_migrated.1, List.take_succ_cons,
      applyNumbered_recorded networkTable_migrated.2, List.take_nil]
    rfl

theorem Phase.boot {db : Database} (hscopes : configRouteScopes.key ∉ ledger)
    (hnetworks : configRouteNetworks.key ∉ ledger) (h : Phase dialect ledger rows db) (boot : Boot) :
    Phase dialect ledger rows (db.boot boot) := by
  cases h with
  | before =>
    rcases boot_before hscopes hnetworks boot with heq | ⟨kept, hkept, -, heq | heq⟩ <;> rw [heq]
    · exact .before
    · exact .split hkept
    · exact .migrated hkept
  | split hkept =>
    rcases boot_scoped hnetworks hkept boot with heq | heq <;> rw [heq]
    · exact .split hkept
    · exact .migrated hkept
  | migrated hkept =>
    rw [boot_migrated]
    exact .migrated hkept

end Migrate

/-! ### The upgrade -/

theorem Phase.run {dialect : Dialect} {ledger : List String} {rows : List OldRoute}
    (hscopes : configRouteScopes.key ∉ ledger) (hnetworks : configRouteNetworks.key ∉ ledger)
    {run : List Boot} {db after : Database} (h : Phase dialect ledger rows db)
    (hrun : boots.exec db run = some after) : Phase dialect ledger rows after := by
  induction run generalizing db with
  | nil => exact Option.some.inj hrun ▸ h
  | cons boot run ih => exact ih (h.boot hscopes hnetworks boot) hrun

/-- A table that a run of boots has migrated answers every lookup as the old table did. -/
theorem Phase.lookup {dialect : Dialect} {ledger : List String} {rows : List OldRoute}
    {db : Database} (hscopes : configRouteScopes.key ∉ ledger)
    (hnetworks : configRouteNetworks.key ∉ ledger) (hunique : UniqueCidrs rows)
    (hphase : Phase dialect ledger rows db) (hmigrated : db.migrated) {listed : List RouteRow}
    (hlisted : listed.Perm db.rows) {address : String} {target : Placement}
    (hscope : target.scope ∈ scopes) :
    (matchFor (loadTable (listed.map RouteRow.toConfigMgmtRoute)) address target).map Route.agentId =
      oldLookup rows address (target.scope ≠ "onprem") := by
  have hsplit : Splits rows db.rows := by
    cases hphase with
    | before => exact absurd hmigrated.1 hscopes
    | split hkept =>
      have hmem := hmigrated.2
      rw [wideTable_ledger] at hmem
      rcases List.mem_append.mp hmem with hold | hkey
      · exact absurd hold hnetworks
      · exact absurd (List.mem_singleton.mp hkey) keys_ne
    | migrated hkept => rwa [networkTable_rows]
  have hentries : db.rows.map (fun row => row.toConfigMgmtRoute.entry) = splitEntries rows := hsplit
  refine matchFor_eq hunique (fun entry => ?_) hscope
  rw [List.map_map, ← hentries]
  exact (hlisted.map _).mem_iff

/-- What a failure leaves. A boot in which a migration fails leaves the table where the migration
began. -/
theorem Phase.rolled_back {dialect : Dialect} {ledger : List String} {rows : List OldRoute}
    {db : Database} (hscopes : configRouteScopes.key ∉ ledger)
    (hnetworks : configRouteNetworks.key ∉ ledger) (hphase : Phase dialect ledger rows db)
    (boot : Boot) (hfailed : ¬(db.boot boot).migrated) :
    db.boot boot = db ∨ configRouteScopes.key ∉ db.ledger ∧
      configRouteScopes.key ∈ (db.boot boot).ledger ∧
        db.boot boot = db.boot { boot with survives := 1 } := by
  cases hphase with
  | before =>
    rcases boot_before hscopes hnetworks boot with heq | ⟨kept, hkept, hfirst, heq | heq⟩
    · exact .inl heq
    · refine .inr ⟨hscopes, ?_, heq.trans hfirst.symm⟩
      rw [heq, wideTable_ledger]
      exact List.mem_append_right _ List.mem_cons_self
    · exact absurd (heq ▸ networkTable_migrated) hfailed
  | split hkept =>
    rcases boot_scoped hnetworks hkept boot with heq | heq
    · exact .inl heq
    · exact absurd (heq ▸ networkTable_migrated) hfailed
  | migrated hkept => exact .inl (boot_migrated boot)

/-- A boot that draws fresh uuids and meets no failure. -/
structure Boot.Undisturbed (boot : Boot) (rows : List OldRoute) : Prop where
  injective : Function.Injective boot.scopes.ids
  fresh : ∀ k, boot.scopes.ids k ∉ rows.map OldRoute.id
  scopes : boot.scopes.faults = []
  networks : boot.networks.faults = []
  survives : 2 ≤ boot.survives

theorem Phase.completes {dialect : Dialect} {ledger : List String} {rows : List OldRoute}
    {db : Database} (hscopes : configRouteScopes.key ∉ ledger)
    (hnetworks : configRouteNetworks.key ∉ ledger) (hunique : UniqueCidrs rows)
    (hids : (rows.map OldRoute.id).Nodup) (hphase : Phase dialect ledger rows db) {boot : Boot}
    (hboot : boot.Undisturbed rows) : (db.boot boot).migrated := by
  obtain ⟨n, hn⟩ : ∃ n, boot.survives = n + 2 := ⟨boot.survives - 2, by
    have hle := hboot.survives
    omega⟩
  have hlater : configRouteNetworks.key ∉ ledger ++ [configRouteScopes.key] := by
    rintro hmem
    rcases List.mem_append.mp hmem with hold | hkey
    · exact hnetworks hold
    · exact keys_ne (List.mem_singleton.mp hkey)
  have hlast {kept : List RouteRow} (hkept : Splits rows kept) :
      (applyNumbered (wideTable dialect (ledger ++ [configRouteScopes.key]) kept)
        [(configRouteNetworks, boot.networks)]).migrated := by
    have hnew : configRouteNetworks.key ∉
        (wideTable dialect (ledger ++ [configRouteScopes.key]) kept).ledger := by
      rwa [wideTable_ledger]
    have hpair : migrate configRouteNetworks boot.networks
        (wideTable dialect (ledger ++ [configRouteScopes.key]) kept) = (_, true) :=
      Prod.ext rfl (networks_succeed hkept hunique.1 hboot.networks)
    rw [applyNumbered_succeeded hnew hpair, applyNumbered, migrate_networks hkept hlater hpair]
    exact networkTable_migrated
  unfold Database.boot
  rw [hn, List.take_succ_cons, List.take_succ_cons, List.take_nil]
  cases hphase with
  | before =>
    have hpair : migrate configRouteScopes boot.scopes (preTable dialect ledger rows) = (_, true) :=
      Prod.ext rfl (scopes_succeed hunique.1 hids hboot.injective hboot.fresh hboot.scopes)
    obtain ⟨kept, hkept, hafter⟩ := migrate_scopes hscopes hpair
    rw [applyNumbered_succeeded hscopes hpair, hafter]
    exact hlast hkept
  | @split kept hkept =>
    have hrecorded : configRouteScopes.key ∈
        (wideTable dialect (ledger ++ [configRouteScopes.key]) kept).ledger := by
      rw [wideTable_ledger]
      exact List.mem_append_right _ List.mem_cons_self
    rw [applyNumbered_recorded hrecorded]
    exact hlast hkept
  | migrated hkept =>
    rw [applyNumbered_recorded networkTable_migrated.1,
      applyNumbered_recorded networkTable_migrated.2]
    exact networkTable_migrated

/-- The migrations keep every lookup. Once both are recorded the new lookup names the agent the old
one did, in whatever order the rows are listed; a boot they fail in leaves the table where the failed
one began; and one that nothing disturbs records both. -/
theorem upgrade_keeps_lookups {dialect : Dialect} {ledger : List String} {rows : List OldRoute}
    (hscopes : configRouteScopes.key ∉ ledger) (hnetworks : configRouteNetworks.key ∉ ledger)
    (hids : (rows.map OldRoute.id).Nodup) (hunique : UniqueCidrs rows) {run : List Boot}
    {db : Database} (hrun : boots.exec (preTable dialect ledger rows) run = some db) :
    (db.migrated → ∀ listed : List RouteRow, listed.Perm db.rows →
      ∀ (address : String) (target : Placement), target.scope ∈ scopes →
        (matchFor (loadTable (listed.map RouteRow.toConfigMgmtRoute)) address target).map
            Route.agentId =
          oldLookup rows address (target.scope ≠ "onprem")) ∧
      ∀ boot : Boot,
        (¬(db.boot boot).migrated → db.boot boot = db ∨ configRouteScopes.key ∉ db.ledger ∧
          configRouteScopes.key ∈ (db.boot boot).ledger ∧
            db.boot boot = db.boot { boot with survives := 1 }) ∧
        (boot.Undisturbed rows → (db.boot boot).migrated) := by
  have hphase : Phase dialect ledger rows db := Phase.run hscopes hnetworks .before hrun
  refine ⟨fun hmigrated listed hlisted address target hscope => ?_, fun boot => ⟨fun hfailed => ?_,
    fun hboot => ?_⟩⟩
  · exact hphase.lookup hscopes hnetworks hunique hmigrated hlisted hscope
  · exact hphase.rolled_back hscopes hnetworks boot hfailed
  · exact hphase.completes hscopes hnetworks hunique hids hboot

/-! ### An interrupted upgrade -/

instance (rows : List OldRoute) : Decidable (UniqueCidrs rows) :=
  inferInstanceAs (Decidable (_ ∧ ∀ a ∈ rows, ∀ b ∈ rows, _ → _ → _))

def oldRoute (id agentId cidr : String) (isActive : Bool) (includeCloudVms : Option Bool) :
    OldRoute where
  id
  agentId
  cidr
  label := none
  isActive
  includeCloudVms
  createdBy := none
  createdAt := 0
  updatedAt := none

def siteRoutes : List OldRoute :=
  [oldRoute "r-1" "wide" "10.0.0.0/8" true (some true),
    oldRoute "r-2" "site" "10.1.0.0/16" true none,
    oldRoute "r-3" "lab" "10.1.2.0/24" false (some true)]

def drawn (k : ℕ) : String := String.ofList (List.replicate k 'u')

theorem drawn_injective : Function.Injective drawn := by
  intro a b h
  have hlength := congrArg List.length (String.ofList_injective h)
  rwa [List.length_replicate, List.length_replicate] at hlength

theorem drawn_fresh (k : ℕ) : drawn k ∉ siteRoutes.map OldRoute.id := by
  intro hmem
  have hletter : ∀ id ∈ siteRoutes.map OldRoute.id, 'r' ∈ id.toList := by decide
  have hin := hletter _ hmem
  rw [drawn, String.toList_ofList] at hin
  exact absurd (List.eq_of_mem_replicate hin) (by decide)

/-- The split fails after two inserts. -/
def failedBoot : Boot where
  scopes := ⟨drawn, [none, none, none, none, none, none, some 2]⟩
  networks := ⟨drawn, []⟩
  survives := 2

def repeatedBoot : Boot where
  scopes := ⟨drawn, []⟩
  networks := ⟨drawn, []⟩
  survives := 2

theorem repeatedBoot_undisturbed : repeatedBoot.Undisturbed siteRoutes :=
  ⟨drawn_injective, drawn_fresh, rfl, rfl, le_refl 2⟩

theorem repeated_upgrade : ∃ db,
    boots.exec (preTable .sqlite [] siteRoutes) [failedBoot, repeatedBoot] = some db ∧
      db.migrated ∧
      (matchFor (loadTable (db.rows.map RouteRow.toConfigMgmtRoute)) "10.1.2.3" {}).map
          Route.agentId = some "site" ∧
      (matchFor (loadTable (db.rows.map RouteRow.toConfigMgmtRoute)) "10.1.2.3"
          { scope := "aws" }).map Route.agentId = some "wide" := by
  have hids : (siteRoutes.map OldRoute.id).Nodup := by decide
  have hunique : UniqueCidrs siteRoutes := by decide +kernel
  have hnone : ∀ key : String, key ∉ ([] : List String) := fun _ => List.not_mem_nil
  have hfirst : boots.exec (preTable .sqlite [] siteRoutes) [failedBoot] =
      some ((preTable .sqlite [] siteRoutes).boot failedBoot) := rfl
  have hmigrated := ((upgrade_keeps_lookups (hnone _) (hnone _) hids hunique hfirst).2
    repeatedBoot).2 repeatedBoot_undisturbed
  have hrun : boots.exec (preTable .sqlite [] siteRoutes) [failedBoot, repeatedBoot] =
      some (((preTable .sqlite [] siteRoutes).boot failedBoot).boot repeatedBoot) := rfl
  have hlookup := (upgrade_keeps_lookups (hnone _) (hnone _) hids hunique hrun).1 hmigrated _
    (List.Perm.refl _) "10.1.2.3"
  refine ⟨_, hrun, hmigrated, (hlookup {} (by decide)).trans ?_,
    (hlookup { scope := "aws" } (by decide)).trans ?_⟩
  · decide +kernel
  · decide +kernel

end ConfigMgmt
