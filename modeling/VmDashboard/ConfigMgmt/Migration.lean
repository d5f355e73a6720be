import VmDashboard.ConfigMgmt.Routes
import VmDashboard.Machine.Script
import VmDashboard.Python.Clock

/-!
# The route migrations (`schema_migrations.py`)

The table of the routes as the database holds it: the columns it has, its unique rules and its rows.
A migration is a list of steps, each of which looks at the table and executes statements. It runs
inside a savepoint and is recorded at its end.
-/

namespace ConfigMgmt
open Machine (System)
open Python (Instant)

/-! ### The table -/

/-- The text columns a unique rule may name. -/
inductive Column
  | cidr | scope | scopeRegion | scopeConnectionId | scopeWorkstream | scopeNetwork
  deriving DecidableEq

structure RouteRow extends ConfigMgmtRoute where
  includeCloudVms : Option Bool
  createdAt : Instant
  updatedAt : Option Instant
  deriving DecidableEq

def RouteRow.get (row : RouteRow) : Column → String
  | .cidr => row.cidr
  | .scope => row.scope
  | .scopeRegion => row.scopeRegion
  | .scopeConnectionId => row.scopeConnectionId
  | .scopeWorkstream => row.scopeWorkstream
  | .scopeNetwork => row.scopeNetwork

def RouteRow.set (row : RouteRow) (value : String) : Column → RouteRow
  | .cidr => { row with cidr := value }
  | .scope => { row with scope := value }
  | .scopeRegion => { row with scopeRegion := value }
  | .scopeConnectionId => { row with scopeConnectionId := value }
  | .scopeWorkstream => { row with scopeWorkstream := value }
  | .scopeNetwork => { row with scopeNetwork := value }

/-- A unique rule: a constraint of the table, or an index. -/
structure Rule where
  name : String
  columns : List Column
  isConstraint : Bool
  deriving DecidableEq

def Rule.key (rule : Rule) (row : RouteRow) : List String := rule.columns.map row.get

def Rule.Holds (rule : Rule) (rows : List RouteRow) : Prop := (rows.map rule.key).Nodup

instance (rule : Rule) (rows : List RouteRow) : Decidable (rule.Holds rows) :=
  inferInstanceAs (Decidable (rows.map rule.key).Nodup)

inductive Dialect
  | postgresql | sqlite
  deriving DecidableEq

structure Database where
  dialect : Dialect
  columns : List Column
  rules : List Rule
  rows : List RouteRow
  /-- The columns and rows of the table a rebuild has renamed. -/
  aside : Option (List Column × List RouteRow)
  hostNetwork : Bool
  ledger : List String
  deriving DecidableEq

/-- `_route_constraint_names` -/
def Database.ruleNames (db : Database) : List String := db.rules.map Rule.name

/-! ### Statements -/

inductive Statement
  | addColumn (column : Column) (default : String)
  | addHostNetwork
  | dropConstraintIfExists (name : String)
  | dropIndexIfExists (name : String)
  | dropIndex (name : String)
  | createUniqueIndex (name : String) (columns : List Column)
  | renameAside
  | createFromModel
  | copyRows
  | dropAside
  | insertRow (row : RouteRow)
  | clearFlag (id : String)
  | record (key : String)

/-- The columns of `ConfigMgmtRoute.__table__` and their server defaults. -/
def modelColumns : List Column :=
  [.cidr, .scope, .scopeRegion, .scopeConnectionId, .scopeWorkstream, .scopeNetwork]

def serverDefault : Column → String
  | .scope => "onprem"
  | _ => ""

def modelRule : Rule := ⟨"uq_config_mgmt_route_scope_net", modelColumns, true⟩

/-- A row of the renamed table in the new one: a column it has not gets its default. -/
def carried (present : List Column) (row : RouteRow) : RouteRow :=
  (modelColumns.filter (· ∉ present)).foldl (fun row column => row.set (serverDefault column) column)
    row

def RouteRow.unflagged (row : RouteRow) : RouteRow := { row with includeCloudVms := some false }

def Database.dropRule (db : Database) (name : String) (isConstraint : Bool) : Database :=
  { db with
    rules := db.rules.filter fun rule => ¬(rule.name = name ∧ rule.isConstraint = isConstraint) }

/-- The rows meet every rule, and no two have one id. -/
def Database.admits (db : Database) (rows : List RouteRow) : Bool :=
  decide (rows.map (·.id)).Nodup && db.rules.all fun rule => rule.Holds rows

def Database.exec (db : Database) : Statement → Option Database
  | .addColumn column default =>
    if column ∈ db.columns then none
    else some { db with
      columns := db.columns ++ [column]
      rows := db.rows.map fun row => row.set default column }
  | .addHostNetwork => if db.hostNetwork then none else some { db with hostNetwork := true }
  | .dropConstraintIfExists name =>
    some (db.dropRule name true)
  | .dropIndexIfExists name => some (db.dropRule name false)
  | .dropIndex name =>
    if db.rules.any fun rule => rule.name = name && !rule.isConstraint then
      some (db.dropRule name false)
    else none
  | .createUniqueIndex name columns =>
    if name ∈ db.ruleNames ∨ ¬columns ⊆ db.columns then none
    else if (⟨name, columns, false⟩ : Rule).Holds db.rows then
      some { db with rules := db.rules ++ [⟨name, columns, false⟩] }
    else none
  | .renameAside =>
    if db.aside.isSome then none
    else some { db with columns := [], rules := [], rows := [], aside := some (db.columns, db.rows) }
  | .createFromModel => some { db with columns := modelColumns, rules := [modelRule], rows := [] }
  | .copyRows =>
    match db.aside with
    | none => none
    | some (columns, rows) =>
      if db.admits (rows.map (carried columns)) then
        some { db with rows := rows.map (carried columns) }
      else none
  | .dropAside => if db.aside.isSome then some { db with aside := none } else none
  | .insertRow row =>
    if [.scope, .scopeRegion, .scopeConnectionId, .scopeWorkstream] ⊆ db.columns ∧
        db.admits (db.rows ++ [row]) = true then
      some { db with rows := db.rows ++ [row] }
    else none
  | .clearFlag id =>
    some { db with rows := db.rows.map fun row => if row.id = id then row.unflagged else row }
  | .record key =>
    -- another process may have recorded it
    some { db with ledger := if key ∈ db.ledger then db.ledger else db.ledger ++ [key] }

def statements : System Database Statement := ⟨Database.exec⟩

/-! ### Steps -/

/-- What a step executes on the table it finds; `ids` are the uuids it draws. -/
abbrev Step := (ids : ℕ → String) → Database → List Statement

def addColumn (column : Column) (default : String) : Step := fun _ db =>
  if column ∈ db.columns then [] else [.addColumn column default]

def addHostNetwork : Step := fun _ db => if db.hostNetwork then [] else [.addHostNetwork]

/-- `_rebuild_routes_from_model` -/
def rebuildRoutes (db : Database) : List Statement :=
  (db.rules.filter fun rule => !rule.isConstraint).map (fun rule => .dropIndex rule.name) ++
    [.renameAside, .createFromModel, .copyRows, .dropAside]

def dropCidrOnlyUnique : Step := fun _ db =>
  if "uq_config_mgmt_route_cidr" ∉ db.ruleNames then []
  else
    match db.dialect with
    | .postgresql => [.dropConstraintIfExists "uq_config_mgmt_route_cidr"]
    | .sqlite => rebuildRoutes db

def scopeColumns : List Column :=
  [.cidr, .scope, .scopeRegion, .scopeConnectionId, .scopeWorkstream]

/-- `_route_scope_unique` and `_ensure_route_unique` -/
def ensureRouteUnique (name : String) (columns : List Column) : Step := fun _ db =>
  if name ∉ db.ruleNames then [.createUniqueIndex name columns] else []

/-- The rows the split selects. -/
def flaggedRows (db : Database) : List RouteRow :=
  db.rows.filter fun row => row.includeCloudVms = some true && row.scope = "onprem" &&
    row.scopeRegion = "" && row.scopeConnectionId = "" && row.scopeWorkstream = ""

/-- The row of one cloud, with the columns the insert leaves to their defaults. -/
def cloudRow (id cloud : String) (row : RouteRow) : RouteRow where
  id
  agentId := row.agentId
  cidr := row.cidr
  label := row.label
  isActive := row.isActive
  scope := cloud
  scopeRegion := ""
  scopeConnectionId := ""
  scopeWorkstream := ""
  scopeNetwork := ""
  fallbackToWorker := none
  createdBy := row.createdBy
  includeCloudVms := some false
  createdAt := row.createdAt
  updatedAt := some row.createdAt

/-- What the split executes for the flagged rows, drawing uuids from the `n`-th on. -/
def splitRows (ids : ℕ → String) : ℕ → List RouteRow → List Statement
  | _, [] => []
  | n, row :: rows =>
    [.insertRow (cloudRow (ids n) "aws" row), .insertRow (cloudRow (ids (n + 1)) "azure" row),
      .insertRow (cloudRow (ids (n + 2)) "gcp" row), .clearFlag row.id] ++
      splitRows ids (n + 3) rows

def splitCloudRoutes : Step := fun ids db => splitRows ids 0 (flaggedRows db)

def dropRouteUnique (name : String) : Step := fun _ db =>
  match db.dialect with
  | .postgresql => [.dropConstraintIfExists name, .dropIndexIfExists name]
  | .sqlite =>
    let isConstraint := db.rules.any fun rule => rule.name = name && rule.isConstraint
    let isIndex := db.rules.any fun rule => rule.name = name && !rule.isConstraint
    if isIndex && !isConstraint then [.dropIndex name]
    else if isConstraint then rebuildRoutes db
    else []

/-! ### Migrations -/

structure Migration where
  name : String
  steps : List Step

def Migration.key (migration : Migration) : String := "ddl:" ++ migration.name

def configRouteScopes : Migration where
  name := "0003_config_route_scopes"
  steps :=
    [addColumn .scope "onprem", addColumn .scopeRegion "", addColumn .scopeConnectionId "",
      addColumn .scopeWorkstream "", dropCidrOnlyUnique,
      ensureRouteUnique "uq_config_mgmt_route_scope" scopeColumns, splitCloudRoutes]

def configRouteNetworks : Migration where
  name := "0004_config_route_networks"
  steps :=
    [addColumn .scopeNetwork "", dropRouteUnique "uq_config_mgmt_route_scope",
      ensureRouteUnique "uq_config_mgmt_route_scope_net" modelColumns, addHostNetwork]

/-- What befalls one attempt: the uuids it draws, and for each step the number of statements after
which the next one fails. -/
structure Attempt where
  ids : ℕ → String
  faults : List (Option ℕ)

def runSteps (ids : ℕ → String) : List (Option ℕ) → List Step → Database → Database × Bool
  | _, [], db => (db, true)
  | faults, step :: steps, db =>
    match statements.script db (faults.headD none) (step ids db) with
    | (after, true) => runSteps ids faults.tail steps after
    | (after, false) => (after, false)

/-- The steps and then the record of the migration. -/
def Migration.script (migration : Migration) : List Step :=
  migration.steps ++ [fun _ _ => [.record migration.key]]

/-- One migration inside its savepoint: a failure rolls back to where it began. -/
def migrate (migration : Migration) (attempt : Attempt) (db : Database) : Database × Bool :=
  match runSteps attempt.ids attempt.faults migration.script db with
  | (after, true) => (after, true)
  | (_, false) => (db, false)

/-- The first failure stops the run. -/
def applyNumbered (db : Database) : List (Migration × Attempt) → Database
  | [] => db
  | (migration, attempt) :: rest =>
    if migration.key ∈ db.ledger then applyNumbered db rest
    else
      match migrate migration attempt db with
      | (after, true) => applyNumbered after rest
      | (after, false) => after

/-- A boot with its attempts at the two migrations. It may be interrupted: what is kept then is what
the first `survives` of them left. -/
structure Boot where
  scopes : Attempt
  networks : Attempt
  survives : ℕ

def Database.boot (db : Database) (boot : Boot) : Database :=
  applyNumbered db
    ([(configRouteScopes, boot.scopes), (configRouteNetworks, boot.networks)].take boot.survives)

def boots : System Database Boot := ⟨fun db boot => some (db.boot boot)⟩

def Database.migrated (db : Database) : Prop :=
  configRouteScopes.key ∈ db.ledger ∧ configRouteNetworks.key ∈ db.ledger

end ConfigMgmt
