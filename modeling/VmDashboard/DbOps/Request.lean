import VmDashboard.Python.Case
import VmDashboard.Python.Convert
import VmDashboard.DbOps.Statements

/-!
# A credential operation and its target (`_parse_credential_op` of `functions/fnworkloads/ps_dbops.py`)

What a request asks for, the check of its instance against the allowlist, and the connection that is
opened for it.
-/

namespace DbOps
open Python (Dict Json strip lower reprText)

/-! ### Target admission -/

/-- The parts of a setting separated by commas. -/
def settingParts (raw : String) : List String :=
  (((strip raw).toList.splitOn ',').map fun part => strip (String.ofList part)).filter (· ≠ "")

/-- `^[^:;\s]+:[^:;\s]+:[^:;\s]+$`, of a text without space at its end. -/
def isConnectionName (name : String) : Bool :=
  match name.toList.splitOn ':' with
  | [project, region, inst] => [project, region, inst].all fun part =>
      !part.isEmpty && part.all fun c => c ≠ ';' && !Python.isSpace c
  | _ => false

/-- `allowlist` is the text of `FN_DBOPS_ALLOWED_INSTANCES`. -/
def checkInstance (allowlist connectionName : String) : Result String := do
  let name := strip connectionName
  if ¬isConnectionName name then
    throw (.dbOps (s!"instance connection name {reprText name} is not of the form " ++
      "'project:region:instance'"))
  let allowed := settingParts allowlist
  if allowed = [] then
    throw (.dbOps ("this DB-Ops service has no allowed instances configured " ++
      "(FN_DBOPS_ALLOWED_INSTANCES), so it will not act on any database"))
  if "*" ∈ allowed then return name
  if name ∉ allowed then
    throw (.dbOps (s!"instance {reprText name} is not in this DB-Ops service's allowlist — it " ++
      s!"serves {allowed.length} instance(s) in this region"))
  return name

/-! ### The request -/

/-- `_field`. -/
def field? (payload : Dict) (names : List String) : Option Json :=
  names.findSome? fun name => (payload.get? name).bind fun value =>
    match value with
    | .null => none
    | .str "" => none
    | value => some value

/-- `str(_field(…))`. -/
def fieldText (payload : Dict) (names : List String) (default : String := "") : String :=
  ((field? payload names).map Json.text).getD default

inductive Op where
  | verify
  | change
  | changeSelf
  | listAccounts
  deriving DecidableEq

def Op.text : Op → String
  | .verify => "verify"
  | .change => "change"
  | .changeSelf => "change-self"
  | .listAccounts => "list-accounts"

def operationAliases : List (String × Op) :=
  [("verify", .verify), ("change", .change), ("change-self", .changeSelf), ("change_self", .changeSelf),
    ("changeself", .changeSelf), ("self-change", .changeSelf), ("self_change", .changeSelf),
    ("list-accounts", .listAccounts), ("list_accounts", .listAccounts), ("listaccounts", .listAccounts),
    ("discover", .listAccounts)]

def engineAliases : List (String × Engine) :=
  [("sqlserver", .sqlserver), ("mssql", .sqlserver), ("sql-server", .sqlserver),
    ("sql_server", .sqlserver), ("mysql", .mysql), ("postgres", .postgres), ("postgresql", .postgres),
    ("pgsql", .postgres)]

def defaultPort (engine : Engine) : ℤ := if engine = .sqlserver then 1433 else 3306

def defaultDatabase (engine : Engine) : String := if engine = .sqlserver then "master" else ""

/-- `int(value or 0)`, `none` when it raises. -/
def intOrZero : Option Json → Option ℤ
  | some value => if value.truthy then value.int? else some 0
  | none => some 0

def connectTimeout (requested : Option Json) : ℤ :=
  match intOrZero requested with
  | some value => if value ≤ 0 then 15 else max 5 (min 300 value)
  | none => 15

/-- `_contract_version`: `-1` is no integer. -/
def contractVersion (payload : Dict) : ℤ :=
  match field? payload ["contractVersion", "contract_version", "version", "ver"] with
  | some value => value.int?.getD (-1)
  | none => 1

structure Target where
  engine : Engine
  connectionName : String
  host : String
  port : ℤ
  database : String
  ssl : Bool
  timeout : ℤ
  deriving DecidableEq

structure Parsed where
  op : Op
  target : Target
  principal : String
  newPassword : String
  oldPassword : String
  asUser : String
  asPassword : String
  requestId : String
  version : ℤ
  canonicalOperation : Bool
  secrets : List String
  deriving DecidableEq

def postgresRefusal : Refusal :=
  .dbOps ("PostgreSQL is not built into this DB-Ops service — postgres uses the " ++
    "'data-api' channel, which needs no service at all. Leave clouddb_ps_gcp_channel on 'auto'")

def parseVersion (version : ℤ) : Result Unit := do
  if version < 0 then
    throw (.dbOps ("contractVersion is not an integer — the plugin sends it as the first " ++
      "field of the envelope precisely so a mismatch is diagnosable"))
  if version ≠ 1 then
    throw (.notImplemented s!"contract version {version} is not implemented in this build")

def parseOperation (rawOp : String) : Result Op :=
  match operationAliases.lookup rawOp with
  | some op => pure op
  | none => throw (.dbOps (s!"operation {reprText rawOp} is not one of " ++
      "verify, change, change-self, list-accounts"))

def parseEngine (rawEngine : String) : Result Engine :=
  match engineAliases.lookup rawEngine with
  | some .postgres => throw postgresRefusal
  | some engine => pure engine
  | none => throw (.dbOps s!"engine {reprText rawEngine} is not one of sqlserver, mysql")

def parsePort (payload : Dict) (engine : Engine) : Result ℤ :=
  match intOrZero (field? payload ["port"]) with
  | none => throw (.dbOps "port is not an integer")
  | some port => pure (if port = 0 then defaultPort engine else port)

def parseHost (payload : Dict) : Result String :=
  let host := strip (fieldText payload ["privateIp", "private_ip", "host", "address"])
  if host = "" then
    throw (.dbOps ("privateIp is required and was not sent. This service holds no Cloud SQL " ++
      "API permission at all (no roles/cloudsql.* — see the plan's IAM section), " ++
      "so it cannot resolve the address from instanceConnectionName itself; the " ++
      "plugin has to send it"))
  else pure host

def parseSsl (payload : Dict) : Bool :=
  ¬["0", "false", "no", "off", "sslfalse"].contains
    (lower (strip (fieldText payload ["ssl", "requireSsl", "require_ssl", "encrypt"] "True")))

/-- What a change needs. -/
def checkChange (op : Op) (passwordFormat targetUser newPassword : String) : Result Unit := do
  if passwordFormat ≠ "plaintext" ∧ passwordFormat ≠ "" then
    throw (.unsupported (s!"passwordFormat={reprText passwordFormat} is not supported. Only " ++
      "'plaintext' is built: the HASHED form skips CHECK_POLICY, and a wrong salt length " ++
      "or SHA-512 framing produces an ALTER that SUCCEEDS while leaving a " ++
      "login nobody can authenticate as — after Password Safe has already " ++
      "recorded the new password as authoritative"))
  if targetUser = "" then
    throw (.dbOps s!"targetUser is required for operation {reprText op.text}")
  if newPassword = "" then
    throw (.dbOps s!"newPassword is required for operation {reprText op.text}")

/-- What a change of one's own password needs. -/
def checkSelf (currentPassword loginUser targetUser : String) : Result Unit := do
  if currentPassword = "" then
    throw (.dbOps ("currentPassword is required for operation 'change-self' — it is the " ++
      "OLD_PASSWORD that lets a login change its own password without ALTER ANY LOGIN"))
  if loginUser ≠ targetUser then
    throw (.dbOps ("operation 'change-self' authenticates AS the account it changes, but " ++
      s!"loginUser={reprText loginUser} and targetUser={reprText targetUser} differ. Use " ++
      "operation 'change' to rotate one account as another"))

def checkLogin (op : Op) (loginUser loginPassword : String) : Result Unit := do
  if loginUser = "" then throw (.dbOps s!"loginUser is required for operation {reprText op.text}")
  if loginPassword = "" then
    throw (.dbOps (s!"loginPassword is required for operation {reprText op.text} — this channel " ++
      "exists because Cloud SQL has no IAM database authentication for SQL Server, so " ++
      "there is no token to fall back to"))

def parseCredentialOp (allowlist : String) (payload : Dict) (version : ℤ) : Result Parsed := do
  parseVersion version
  if payload = [] then
    throw (.dbOps "the request body is not a JSON object — expected the v1 credential-op envelope")
  let rawOp := lower (strip (fieldText payload ["operation", "op"]))
  let op ← parseOperation rawOp
  let engine ← parseEngine (lower (strip (fieldText payload ["engine"] "sqlserver")))
  let connectionName ← checkInstance allowlist (fieldText payload
    ["instanceConnectionName", "instance_connection_name", "connectionName", "connection_name"])
  let host ← parseHost payload
  let port ← parsePort payload engine
  let database := fieldText payload ["database", "dbName", "db_name"] (defaultDatabase engine)
  let passwordFormat := lower (strip
    (fieldText payload ["passwordFormat", "password_format"] "plaintext"))
  let loginUser := strip (fieldText payload ["loginUser", "login_user"])
  let loginPassword := fieldText payload ["loginPassword", "login_password"]
  let targetUser := strip (fieldText payload ["targetUser", "target_user"])
  let newPassword := fieldText payload ["newPassword", "new_password"]
  let currentPassword := fieldText payload ["currentPassword", "current_password"]
  if op = .change ∨ op = .changeSelf then checkChange op passwordFormat targetUser newPassword
  let isSelf := op = .changeSelf
  let loginUser := if isSelf ∧ loginUser = "" then targetUser else loginUser
  let loginPassword := if isSelf ∧ loginPassword = "" then currentPassword else loginPassword
  if isSelf then checkSelf currentPassword loginUser targetUser
  checkLogin op loginUser loginPassword
  return {
    op
    target := {
      engine, connectionName, host, port, database
      ssl := parseSsl payload
      timeout := connectTimeout (field? payload ["timeoutSeconds", "timeout_seconds", "timeout"]) }
    principal := targetUser
    newPassword
    oldPassword := if isSelf then currentPassword else ""
    asUser := loginUser
    asPassword := loginPassword
    requestId := fieldText payload ["requestId", "request_id"]
    version
    canonicalOperation := rawOp = op.text
    secrets := [loginPassword, newPassword, currentPassword].filter (· ≠ "") }

/-! ### The connection -/

/-- The arguments of `_connect`. -/
structure Connection where
  engine : Engine
  host : String
  port : ℤ
  database : String
  user : String
  password : String
  ssl : Bool
  timeout : ℤ
  deriving DecidableEq

def connectAs (target : Target) (user password : String) : Result Connection :=
  match target.engine with
  | .postgres => throw postgresRefusal
  | engine => pure {
      engine, host := target.host, port := target.port, database := target.database, user, password
      ssl := target.ssl, timeout := connectTimeout (some (.int target.timeout)) }

/-- The connection `_run` opens for a parsed operation: `verify_credential`, `list_accounts` and
`change_password` check the instance again, and a change builds its statements first. -/
def openConnection (allowlist : String) (parsed : Parsed) : Result Connection := do
  let _ ← checkInstance allowlist parsed.target.connectionName
  match parsed.op with
  | .verify | .listAccounts => connectAs parsed.target parsed.asUser parsed.asPassword
  | .change | .changeSelf =>
    let _ ← changePasswordStatements parsed.target.engine parsed.principal parsed.newPassword
      parsed.oldPassword
    connectAs parsed.target parsed.asUser parsed.asPassword

/-- `_credential_op` as far as its connection. -/
def credentialOp (allowlist : String) (payload : Dict) : Result (Parsed × Connection) := do
  let parsed ← parseCredentialOp allowlist payload (contractVersion payload)
  return (parsed, ← openConnection allowlist parsed)

end DbOps
