import VmDashboard.Python.Case
import VmDashboard.Python.Regex
import VmDashboard.Machine.Except

/-!
# Plans for ephemeral database accounts

The statement builders and the plans of `services/cloud_db_sql_service.py`. A plan lists, for each
connection, the database it opens and the statements it runs there; every name and value is checked
before a statement is built from it.
-/

namespace Databases
open Python (beforeEnd reprText strip lower)

/-- `VALID_ENGINES`: `_check_engine` raises for every other text. -/
inductive Engine where
  | postgres
  | mysql
  | sqlserver
  deriving DecidableEq

def Engine.text : Engine → String
  | .postgres => "postgres"
  | .mysql => "mysql"
  | .sqlserver => "sqlserver"

/-- `VALID_ROLES`. -/
inductive Role where
  | read
  | readwrite
  deriving DecidableEq

def Role.text : Role → String
  | .read => "read"
  | .readwrite => "readwrite"

/-- `VALID_FLAVORS`. -/
inductive Flavor where
  | rds
  | azureSql
  | cloudsql
  deriving DecidableEq

def Flavor.text : Flavor → String
  | .rds => "rds"
  | .azureSql => "azure_sql"
  | .cloudsql => "cloudsql"

/-- What a builder raises: a `CloudDbSqlError`, or the `KeyError` of a look-up. -/
inductive SqlError where
  | cloudDbSql (message : String)
  | key (name : String)
  deriving DecidableEq

abbrev Result := Except SqlError

/-! ### Names and values -/

/-- `^[A-Za-z][A-Za-z0-9_]{0,62}$`. -/
def isIdent (name : String) : Bool :=
  match beforeEnd name.toList with
  | [] => false
  | c :: cs => c.isAlpha && cs.all (fun c => c.isAlphanum || c = '_') && cs.length ≤ 62

/-- `^[A-Za-z0-9#\-_.]+$`. -/
def isSafeValue (val : String) : Bool :=
  let cs := beforeEnd val.toList
  !cs.isEmpty && cs.all fun c => c.isAlphanum || "#-_.".toList.contains c

def ident (name : String) : Result String :=
  if isIdent name then pure name
  else throw (.cloudDbSql (s!"unsafe DB identifier {reprText name} — must match " ++
    "^[A-Za-z][A-Za-z0-9_]\x7b0,62\x7d$"))

def value (val : String) : Result String :=
  if isSafeValue val then pure val
  else throw (.cloudDbSql ("unsafe DB value for shell/SQL interpolation (contains quotes or shell " ++
    "metacharacters); regenerate the credential"))

theorem ident_eq_ok {name name' : String} (h : ident name = .ok name') :
    isIdent name = true ∧ name' = name := by
  unfold ident at h
  split at h
  next hident => exact ⟨hident, (Except.ok.inj h).symm⟩
  next => cases h

theorem value_eq_ok {val val' : String} (h : value val = .ok val') :
    isSafeValue val = true ∧ val' = val := by
  unfold value at h
  split at h
  next hsafe => exact ⟨hsafe, (Except.ok.inj h).symm⟩
  next => cases h

/-- A password is checked when there is one. -/
def givenValue (password : String) : Result String :=
  if password = "" then pure "" else value password

def maxIdent : List (String × ℕ) :=
  [("postgres", 63), ("mysql", 32), ("sqlserver", 128), ("oracle", 128)]

/-- `min(_MAX_IDENT.values())`. -/
def minMaxIdent : ℕ := 32

def maxIdentifierLength (engine : String) : ℕ := (maxIdent.lookup engine).getD minMaxIdent

/-- `none` is the role of a plan that has none, the empty text. -/
def checkRole (role : String) : Result (Option Role) :=
  if role = "" then pure none
  else
    match [Role.read, .readwrite].find? fun valid => valid.text = role with
    | some valid => pure (some valid)
    | none => throw (.cloudDbSql s!"unsupported role {reprText role} (supported: read, readwrite)")

/-- `none` is the flavor of the engines that have none, the empty text. -/
def checkFlavor (engine : Engine) (flavor : String) : Result (Option Flavor) :=
  if engine ≠ .sqlserver then pure none
  else
    let flavor := if flavor = "" then "rds" else flavor
    match [Flavor.rds, .azureSql, .cloudsql].find? fun valid => valid.text = flavor with
    | some valid => pure (some valid)
    | none => throw (.cloudDbSql (s!"unsupported sqlserver flavor {reprText flavor} " ++
        "(supported: rds, azure_sql, cloudsql)"))

/-! ### Statements -/

/-- A privilege, or the membership in one of SQL Server's fixed database roles. -/
inductive Privilege where
  | select
  | insert
  | update
  | delete
  | connect
  | usage
  | dataReader
  | dataWriter
  deriving DecidableEq

def Privilege.text : Privilege → String
  | .select => "SELECT"
  | .insert => "INSERT"
  | .update => "UPDATE"
  | .delete => "DELETE"
  | .connect => "CONNECT"
  | .usage => "USAGE"
  | .dataReader => "db_datareader"
  | .dataWriter => "db_datawriter"

inductive Statement where
  -- MySQL
  | createUser (user password : String)
  | dropUser (user : String)
  | grant (privileges : List Privilege) (database user : String)
  | revoke (privileges : List Privilege) (database user : String)
  -- PostgreSQL
  | createRole (user password : String)
  | reassignOwned (user : String)
  | dropOwned (user : String)
  | dropRole (user : String)
  | grantDatabase (privilege : Privilege) (database user : String)
  | grantSchema (privilege : Privilege) (user : String)
  | grantTables (privileges : List Privilege) (user : String)
  | revokeTables (privileges : List Privilege) (user : String)
  | revokeSchema (privilege : Privilege) (user : String)
  | revokeDatabase (privilege : Privilege) (database user : String)
  -- SQL Server
  | createLogin (user password : String)
  | createUserForLogin (user : String)
  | addMember (role : Privilege) (user : String)
  | dropMember (role : Privilege) (user : String)
  | dropLogin (user : String)
  | dropDatabaseUser (user : String)
  | use (database : String)
  deriving DecidableEq

def privilegeList (privileges : List Privilege) : String :=
  ", ".intercalate (privileges.map Privilege.text)

/-- The text that is executed. -/
def Statement.sql : Statement → String
  | .createUser user password => s!"CREATE USER '{user}'@'%' IDENTIFIED BY '{password}';"
  | .dropUser user => s!"DROP USER IF EXISTS '{user}'@'%';"
  | .grant privileges database user =>
    s!"GRANT {privilegeList privileges} ON `{database}`.* TO '{user}'@'%';"
  | .revoke privileges database user =>
    s!"REVOKE {privilegeList privileges} ON `{database}`.* FROM '{user}'@'%';"
  | .createRole user password => s!"CREATE ROLE \"{user}\" WITH LOGIN PASSWORD '{password}';"
  | .reassignOwned user => s!"REASSIGN OWNED BY \"{user}\" TO CURRENT_USER;"
  | .dropOwned user => s!"DROP OWNED BY \"{user}\";"
  | .dropRole user => s!"DROP ROLE IF EXISTS \"{user}\";"
  | .grantDatabase privilege database user =>
    s!"GRANT {privilege.text} ON DATABASE \"{database}\" TO \"{user}\";"
  | .grantSchema privilege user => s!"GRANT {privilege.text} ON SCHEMA public TO \"{user}\";"
  | .grantTables privileges user =>
    s!"GRANT {privilegeList privileges} ON ALL TABLES IN SCHEMA public TO \"{user}\";"
  | .revokeTables privileges user =>
    s!"REVOKE {privilegeList privileges} ON ALL TABLES IN SCHEMA public FROM \"{user}\";"
  | .revokeSchema privilege user => s!"REVOKE {privilege.text} ON SCHEMA public FROM \"{user}\";"
  | .revokeDatabase privilege database user =>
    s!"REVOKE {privilege.text} ON DATABASE \"{database}\" FROM \"{user}\";"
  | .createLogin user password => s!"CREATE LOGIN [{user}] WITH PASSWORD = '{password}';"
  | .createUserForLogin user => s!"CREATE USER [{user}] FOR LOGIN [{user}];"
  | .addMember role user => s!"ALTER ROLE {role.text} ADD MEMBER [{user}];"
  | .dropMember role user =>
    s!"IF IS_ROLEMEMBER('{role.text}', '{user}') = 1 ALTER ROLE {role.text} DROP MEMBER [{user}];"
  | .dropLogin user =>
    s!"IF EXISTS (SELECT 1 FROM sys.sql_logins WHERE name = '{user}') DROP LOGIN [{user}];"
  | .dropDatabaseUser user =>
    s!"IF EXISTS (SELECT 1 FROM sys.database_principals WHERE name = '{user}') DROP USER [{user}];"
  | .use database => s!"USE [{database}];"

/-! ### The statements of one operation -/

def mysqlCreate (user password : String) : List Statement := [.createUser user password]

def mysqlDelete (user : String) : List Statement := [.dropUser user]

def mysqlPrivileges (role : Option Role) : List Privilege :=
  if role = some .read then [.select] else [.select, .insert, .update, .delete]

def mysqlGive (user database : String) (role : Option Role) : List Statement :=
  [.grant (mysqlPrivileges role) database user]

def mysqlTake (user database : String) (role : Option Role) : List Statement :=
  [.revoke (mysqlPrivileges role) database user]

def pgCreate (user password : String) : List Statement := [.createRole user password]

def pgDelete (user : String) : List Statement :=
  [.reassignOwned user, .dropOwned user, .dropRole user]

def pgDml (role : Option Role) : List Privilege :=
  if role = some .read then [.select] else [.select, .insert, .update, .delete]

def pgGive (user database : String) (role : Option Role) : List Statement :=
  [.grantDatabase .connect database user, .grantSchema .usage user, .grantTables (pgDml role) user]

def pgTake (user database : String) (role : Option Role) : List Statement :=
  [.revokeTables (pgDml role) user, .revokeSchema .usage user, .revokeDatabase .connect database user]

def mssqlRoles : Option Role → Result (List Privilege)
  | some .read => pure [.dataReader]
  | some .readwrite => pure [.dataReader, .dataWriter]
  | none => throw (.key "")

def mssqlLogin (user password : String) : List Statement := [.createLogin user password]

def mssqlUser (user : String) : List Statement := [.createUserForLogin user]

def mssqlAddRole (user : String) (role : Option Role) : Result (List Statement) := do
  return (← mssqlRoles role).map fun name => .addMember name user

def mssqlDropRole (user : String) (role : Option Role) : Result (List Statement) := do
  return (← mssqlRoles role).reverse.map fun name => .dropMember name user

def mssqlDropLogin (user : String) : List Statement := [.dropLogin user]

def mssqlDropUser (user : String) : List Statement := [.dropDatabaseUser user]

/-! ### The plans -/

abbrev Plan := List (String × List Statement)

/-- The loop of `_merge` with `last` as the last entry of `merged`. -/
def mergeFrom (last : String × List Statement) : Plan → Plan
  | [] => [last]
  | entry :: plan =>
    if last.1 = entry.1 then mergeFrom (entry.1, last.2 ++ entry.2) plan
    else last :: mergeFrom entry plan

def merge : Plan → Plan
  | [] => []
  | entry :: plan => mergeFrom entry plan

/-- The loop of `_database_list` over what is left of its names. -/
def databaseNames (names : List String) : List String → Result (List String)
  | [] => pure names
  | raw :: rest => do
    let name ← ident (strip raw)
    databaseNames (if name ∈ names then names else names ++ [name]) rest

def databaseList (databases : List String) (fallback : String) : Result (List String) := do
  let names ← databaseNames [] (if databases.isEmpty then [fallback] else databases)
  if names.isEmpty then throw (.cloudDbSql "no database names given")
  return names

/-- What `_prepare` returns. -/
structure Prepared where
  user : String
  database : String
  role : Option Role
  flavor : Option Flavor
  password : String
  deriving DecidableEq

def prepare (engine : Engine) (username database flavor role password : String) : Result Prepared := do
  let user ← ident username
  let limit := maxIdentifierLength engine.text
  if limit < user.length then
    throw (.cloudDbSql (s!"account name {reprText user} is {user.length} characters; {engine.text} " ++
      s!"accepts at most {limit}"))
  let password ← givenValue password
  let role ← checkRole role
  let flavor ← checkFlavor engine flavor
  if database = "" then throw (.cloudDbSql s!"{engine.text} plans need a database name")
  let database ← ident database
  return { user, database, role, flavor, password }

/-- `_SPLIT_LOGIN_FLAVORS`. -/
def splitLogin (flavor : Option Flavor) : Bool := flavor = some .azureSql

def createActorPlan (engine : Engine) (username password database flavor : String)
    (databases : List String) : Result Plan := do
  if password = "" then throw (.cloudDbSql "creating an account requires a password")
  let prepared ← prepare engine username database flavor "" password
  match engine with
  | .mysql => return [(prepared.database, mysqlCreate prepared.user prepared.password)]
  | .postgres => return [(prepared.database, pgCreate prepared.user prepared.password)]
  | .sqlserver =>
    let names ← databaseList databases prepared.database
    let login := mssqlLogin prepared.user prepared.password
    let dbUser := mssqlUser prepared.user
    if splitLogin prepared.flavor then
      return ("master", login) :: names.map fun name => (name, dbUser)
    return [("master", login ++ names.flatMap fun name => .use name :: dbUser)]

def deleteActorPlan (engine : Engine) (username database flavor : String)
    (databases : List String) : Result Plan := do
  let prepared ← prepare engine username database flavor "" ""
  match engine with
  | .mysql => return [(prepared.database, mysqlDelete prepared.user)]
  | .postgres => return [(prepared.database, pgDelete prepared.user)]
  | .sqlserver =>
    let names ← databaseList databases prepared.database
    if splitLogin prepared.flavor then
      return (names.map fun name => (name, mssqlDropUser prepared.user)) ++
        [("master", mssqlDropLogin prepared.user)]
    let statements := names.flatMap fun name => .use name :: mssqlDropUser prepared.user
    return [("master", statements ++ .use "master" :: mssqlDropLogin prepared.user)]

def giveAccessPlan (engine : Engine) (username database role flavor : String) : Result Plan := do
  let prepared ← prepare engine username database flavor role ""
  match engine with
  | .mysql => return [(prepared.database, mysqlGive prepared.user prepared.database prepared.role)]
  | .postgres => return [(prepared.database, pgGive prepared.user prepared.database prepared.role)]
  | .sqlserver =>
    let add ← mssqlAddRole prepared.user prepared.role
    if splitLogin prepared.flavor then return [(prepared.database, add)]
    return [("master", .use prepared.database :: add)]

def revokeAccessPlan (engine : Engine) (username database role flavor : String) : Result Plan := do
  let prepared ← prepare engine username database flavor role ""
  match engine with
  | .mysql => return [(prepared.database, mysqlTake prepared.user prepared.database prepared.role)]
  | .postgres => return [(prepared.database, pgTake prepared.user prepared.database prepared.role)]
  | .sqlserver =>
    let drop ← mssqlDropRole prepared.user prepared.role
    if splitLogin prepared.flavor then return [(prepared.database, drop)]
    return [("master", .use prepared.database :: drop)]

def grantPlan (engine : Engine) (username password database role flavor : String) : Result Plan := do
  let create ← createActorPlan engine username password database flavor []
  let give ← giveAccessPlan engine username database role flavor
  return merge (create ++ give)

/-! ### Names of ephemeral accounts -/

/-- `re.sub(r"_{2,}", "_", slug)`. -/
def squeeze : List Char → List Char
  | [] => []
  | c :: cs => if c = '_' ∧ cs.head? = some '_' then squeeze cs else c :: squeeze cs

/-- `text.strip("_")`. -/
def stripUnderscores (cs : List Char) : List Char :=
  ((cs.dropWhile (· = '_')).reverse.dropWhile (· = '_')).reverse

def slugOf (text : String) : List Char :=
  squeeze (stripUnderscores ((lower (strip text)).toList.map fun c => if c.isAlphanum then c else '_'))

def suffixOf (token : String) : List Char :=
  let suffix := (lower (String.ofList ((token.toList.filter Char.isAlphanum).take 12))).toList
  if suffix = [] then ['x'] else suffix

def ephemeralUsername (identity token engine : String) : String :=
  let limit := maxIdentifierLength engine
  let suffix := suffixOf token
  let slug := stripUnderscores ((slugOf identity).take (max (min 24 (limit - suffix.length - 5)) 1))
  let slug := if slug = [] then "jit".toList else slug
  let name := "jit_".toList ++ slug ++ '_' :: suffix
  let name := if (name.headD '_').isAlpha then name else 'j' :: name
  String.ofList (name.take limit)

example : ephemeralUsername "Ada.Lovelace@Example.com" "Root=1-67891233-abcdef" "mysql" =
    "jit_ada_lovelace_ex_root16789123" := by decide +kernel

end Databases
