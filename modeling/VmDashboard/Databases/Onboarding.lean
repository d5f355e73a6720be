import VmDashboard.Databases.Sql
import VmDashboard.Python.Base64
import VmDashboard.Shell.Budget

/-!
# The command lines of a managed database user

`onboard_commands` and `teardown_commands` of `services/cloud_db_sql_service.py`: a shell line that
hands statements to a database client on the jump host.
-/

namespace Databases
open Python (strip reprText b64encode b64decode utf8Encode)

/-- `ONBOARD_ENGINES` -/
inductive OnboardEngine
  | valid (engine : Engine)
  | oracle
  deriving DecidableEq

def OnboardEngine.text : OnboardEngine → String
  | .valid engine => engine.text
  | .oracle => "oracle"

def onboardEngines : List OnboardEngine :=
  [.valid .postgres, .valid .mysql, .valid .sqlserver, .oracle]

def checkOnboardEngine (engine : String) : Result OnboardEngine :=
  match onboardEngines.find? fun valid => valid.text = engine with
  | some valid => pure valid
  | none => throw (.cloudDbSql (s!"unsupported engine {reprText engine} " ++
      "(supported: postgres, mysql, sqlserver, oracle)"))

def checkOnboardFlavor : OnboardEngine → String → Result (Option Flavor)
  | .valid engine, flavor => checkFlavor engine flavor
  | .oracle, _ => pure none

def defaultClientImage : OnboardEngine → String
  | .valid .postgres => "postgres:16"
  | .valid .mysql => "mysql:8.4"
  | .valid .sqlserver => ""
  | .oracle => "ghcr.io/oracle/oraclelinux9-instantclient:23"

def phantomImages : List String := ["mcr.microsoft.com/mssql-tools18"]

def resolveClientImage (engine : OnboardEngine) (configured : String) : String :=
  let image := if strip configured = "" then defaultClientImage engine else strip configured
  let isPhantom (phantom : String) : Prop := image = phantom ∨
    (phantom ++ ":").toList <+: image.toList ∨ (phantom ++ "@").toList <+: image.toList
  if phantomImages.any fun phantom => isPhantom phantom then defaultClientImage engine else image

/-! ### The statements -/

def pgOnboardSql (managed managedPw : String) : List String :=
  ["DO 'BEGIN " ++
    "IF EXISTS (SELECT 1 FROM pg_roles WHERE rolname = ''" ++ managed ++ "'') THEN " ++
    "ALTER ROLE \"" ++ managed ++ "\" WITH LOGIN PASSWORD ''" ++ managedPw ++ "''; ELSE " ++
    "CREATE ROLE \"" ++ managed ++ "\" WITH LOGIN PASSWORD ''" ++ managedPw ++ "''; END IF; END';"]

def mysqlOnboardSql (managed managedPw : String) : List String :=
  ["CREATE USER IF NOT EXISTS '" ++ managed ++ "'@'%' IDENTIFIED BY '" ++ managedPw ++ "';",
    "ALTER USER '" ++ managed ++ "'@'%' IDENTIFIED BY '" ++ managedPw ++ "';"]

def mssqlLoginExists (name : String) : String :=
  "SELECT 1 FROM sys.sql_logins WHERE name = '" ++ name ++ "'"

def mssqlDbUserExists (name : String) : String :=
  "SELECT 1 FROM sys.database_principals WHERE name = '" ++ name ++ "'"

def mssqlOnboardSql (managed managedPw : String) (flavor : Option Flavor) : List String :=
  ["IF NOT EXISTS (" ++ mssqlLoginExists managed ++ ") " ++
      "CREATE LOGIN [" ++ managed ++ "] WITH PASSWORD = '" ++ managedPw ++ "';",
    "ALTER LOGIN [" ++ managed ++ "] WITH PASSWORD = '" ++ managedPw ++ "';"] ++
  if splitLogin flavor then
    ["IF NOT EXISTS (" ++ mssqlDbUserExists managed ++ ") " ++
      "CREATE USER [" ++ managed ++ "] FOR LOGIN [" ++ managed ++ "];"]
  else []

/-- `managed.upper()` of a checked identifier. -/
def upper (managed : String) : String := String.ofList (managed.toList.map Char.toUpper)

def oracleOnboardSql (managed managedPw : String) : List String :=
  ["DECLARE n NUMBER; BEGIN " ++
      "SELECT COUNT(*) INTO n FROM all_users WHERE username = '" ++ upper managed ++ "'; " ++
      "IF n = 0 THEN EXECUTE IMMEDIATE 'CREATE USER " ++ managed ++ " IDENTIFIED BY \"" ++
      managedPw ++ "\"'; " ++
      "ELSE EXECUTE IMMEDIATE 'ALTER USER " ++ managed ++ " IDENTIFIED BY \"" ++ managedPw ++
      "\" ACCOUNT UNLOCK'; " ++
      "END IF; END;\n/",
    "GRANT CREATE SESSION TO " ++ managed ++ ";"]

def oracleTeardownSql (managed : String) : List String :=
  ["DECLARE n NUMBER; BEGIN " ++
    "SELECT COUNT(*) INTO n FROM all_users WHERE username = '" ++ upper managed ++ "'; " ++
    "IF n > 0 THEN EXECUTE IMMEDIATE 'DROP USER " ++ managed ++ " CASCADE'; END IF; END;\n/"]

def pgTeardownSql (managed : String) : List String :=
  ["DROP ROLE IF EXISTS \"" ++ managed ++ "\";"]

def mysqlTeardownSql (managed : String) : List String :=
  ["DROP USER IF EXISTS '" ++ managed ++ "'@'%';"]

def mssqlDropUserSql (user : String) : List String :=
  ["IF EXISTS (" ++ mssqlDbUserExists user ++ ") " ++ "DROP USER [" ++ user ++ "];"]

def mssqlTeardownSql (managed : String) (flavor : Option Flavor) : List String :=
  (if splitLogin flavor then mssqlDropUserSql managed else []) ++
    ["IF EXISTS (" ++ mssqlLoginExists managed ++ ") DROP LOGIN [" ++ managed ++ "];"]

def onboardSql (managed managedPw : String) (flavor : Option Flavor) : OnboardEngine → List String
  | .valid .postgres => pgOnboardSql managed managedPw
  | .valid .mysql => mysqlOnboardSql managed managedPw
  | .valid .sqlserver => mssqlOnboardSql managed managedPw flavor
  | .oracle => oracleOnboardSql managed managedPw

def teardownSql (managed : String) (flavor : Option Flavor) : OnboardEngine → List String
  | .valid .postgres => pgTeardownSql managed
  | .valid .mysql => mysqlTeardownSql managed
  | .valid .sqlserver => mssqlTeardownSql managed flavor
  | .oracle => oracleTeardownSql managed

/-! ### The clients -/

structure ClientCall where
  host : String
  port : ℤ
  database : String
  adminUser : String
  adminPassword : String
  image : String
  statements : List String

def pgConn (call : ClientCall) (db : String) : String :=
  "host=" ++ call.host ++ " port=" ++ toString call.port ++ " dbname=" ++ db ++ " user=" ++
    call.adminUser ++ " sslmode=require"

def pgDatabase (call : ClientCall) : Result String :=
  if call.database = "" then pure "postgres" else ident call.database

def pgCommand (call : ClientCall) : Result String := do
  let db ← pgDatabase call
  return " ".intercalate (["docker", "run", "--rm", "-e", "PGPASSWORD='" ++ call.adminPassword ++ "'",
    call.image, "psql", "\"" ++ pgConn call db ++ "\"", "-v", "ON_ERROR_STOP=1"] ++
    call.statements.flatMap fun stmt => ["-c", "\"" ++ stmt ++ "\""])

def mysqlBatch (call : ClientCall) : String := " ".intercalate call.statements

def mysqlCommand (call : ClientCall) : String :=
  " ".intercalate ["docker", "run", "--rm", "-e", "MYSQL_PWD='" ++ call.adminPassword ++ "'",
    call.image, "mysql", "--host=" ++ call.host, "--port=" ++ toString call.port,
    "--user=" ++ call.adminUser, "--ssl-mode=REQUIRED", "--batch",
    "-e", "\"" ++ mysqlBatch call ++ "\""]

def sqlcmdPath : String := "/opt/mssql-tools18/bin/sqlcmd"

def mssqlBatch (call : ClientCall) : String := "\nGO\n".intercalate call.statements ++ "\nGO\n"

def mssqlArgs (call : ClientCall) : List String :=
  ["-S", call.host ++ "," ++ toString call.port, "-U", call.adminUser, "-d", "master",
    "-Nm", "-C", "-b", "-Q"]

def mssqlCommand (call : ClientCall) : String :=
  let args := mssqlArgs call ++ ["\"" ++ mssqlBatch call ++ "\""]
  if call.image ≠ "" then
    " ".intercalate (["docker", "run", "--rm", "-e", "SQLCMDPASSWORD='" ++ call.adminPassword ++ "'",
      "--entrypoint", sqlcmdPath, call.image] ++ args)
  else " ".intercalate (["SQLCMDPASSWORD='" ++ call.adminPassword ++ "'", sqlcmdPath] ++ args)

def oracleOk : String := "DASHBOARD_SQL_OK"

def oracleScript (call : ClientCall) (service : String) : String :=
  "\n".intercalate (["WHENEVER SQLERROR EXIT FAILURE", "WHENEVER OSERROR EXIT FAILURE",
    "SET HEADING OFF FEEDBACK OFF DEFINE OFF",
    "CONNECT " ++ call.adminUser ++ "/\"" ++ call.adminPassword ++ "\"@//" ++ call.host ++ ":" ++
      toString call.port ++ "/" ++ service] ++
    call.statements ++ ["SELECT 'DASHBOARD_' || 'SQL_OK' FROM dual;", "EXIT"]) ++ "\n"

def oracleService (call : ClientCall) : Result String :=
  if call.database = "" then pure "ORCL" else ident call.database

def oracleCommand (call : ClientCall) : Result String := do
  let service ← oracleService call
  let b64 := String.ofList (b64encode (utf8Encode (oracleScript call service)))
  return "echo " ++ b64 ++ " | base64 -d | docker run -i --rm " ++ call.image ++
    " sqlplus -S /nolog " ++ "| tee /dev/stderr | grep -q " ++ oracleOk

def command (call : ClientCall) : OnboardEngine → Result String
  | .valid .postgres => pgCommand call
  | .valid .mysql => pure (mysqlCommand call)
  | .valid .sqlserver => pure (mssqlCommand call)
  | .oracle => oracleCommand call

structure Args where
  engine : String
  host : String
  port : ℤ
  database : String
  adminUser : String
  adminPassword : String
  managedUser : String
  clientImage : String
  flavor : String

def onboardCommands (args : Args) (managedPassword : String) : Result (List String) := do
  let engine ← checkOnboardEngine args.engine
  let managed ← ident args.managedUser
  let mpw ← value managedPassword
  let _ ← value args.adminPassword
  let image := resolveClientImage engine args.clientImage
  let flavor ← checkOnboardFlavor engine args.flavor
  let statements := onboardSql managed mpw flavor engine
  let adminUser ← ident args.adminUser
  let line ← command ⟨args.host, args.port, args.database, adminUser, args.adminPassword, image,
    statements⟩ engine
  return [line]

def teardownCommands (args : Args) : Result (List String) := do
  let engine ← checkOnboardEngine args.engine
  let managed ← ident args.managedUser
  let _ ← value args.adminPassword
  let image := resolveClientImage engine args.clientImage
  let flavor ← checkOnboardFlavor engine args.flavor
  let statements := teardownSql managed flavor engine
  let adminUser ← ident args.adminUser
  let line ← command ⟨args.host, args.port, args.database, adminUser, args.adminPassword, image,
    statements⟩ engine
  return [line]

end Databases
