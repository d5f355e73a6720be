import Mathlib.Data.Finset.Sort
import Mathlib.Data.String.Basic
import VmDashboard.Databases.Plans
import VmDashboard.Python.Convert

/-!
# The database grant adapter (`functions/fnworkloads/db_grant.py`)

The write routes and `get_actors` of the adapter over one server. It keeps no state of its own: a write
route builds a plan from the request and runs it, and may fail at any of its statements.
-/

namespace Databases
open Python (Dict Json strip lower reprText)

/-! ### Configuration -/

/-- The `FN_DB_…` settings. -/
structure Settings where
  engine : String
  host : String
  port : String
  flavor : String
  names : String
  name : String
  dryRun : Option String

structure Endpoint where
  engine : Engine
  host : String
  port : ℤ
  flavor : String
  deriving DecidableEq

structure Target extends Endpoint where
  database : String
  deriving DecidableEq

def Settings.dry (settings : Settings) : Bool :=
  match settings.dryRun with
  | none => true
  | some raw => ["1", "true", "yes", "on"].contains (lower (strip raw))

def adapterEngine (text : String) : Except String Engine :=
  match [Engine.mysql, .sqlserver].find? fun engine => engine.text = text with
  | some engine => pure engine
  | none => throw s!"FN_DB_ENGINE must be mysql or sqlserver (got {reprText text})"

def defaultPort (engine : Engine) : ℤ := if engine = .mysql then 3306 else 1433

def portOf (engine : Engine) (text : String) : Except String ℤ :=
  if text = "" then pure (defaultPort engine)
  else
    match Python.parseInt text with
    | some port => pure port
    | none => throw "FN_DB_PORT is not a number"

/-- `_server`. -/
def Settings.endpoint (settings : Settings) : Except String Endpoint := do
  let engine ← adapterEngine (lower (strip settings.engine))
  let host := strip settings.host
  if host = "" then throw "FN_DB_HOST is not set"
  let port ← portOf engine (strip settings.port)
  return { engine, host, port, flavor := strip settings.flavor }

/-- The loop of `_database_names` over what is left of the setting. -/
def servedNames (names : List String) : List String → List String
  | [] => names
  | part :: rest =>
    let name := strip part
    servedNames (if name ≠ "" ∧ name ∉ names then names ++ [name] else names) rest

/-- `raw.split(",")`. -/
def parts (raw : String) : List String := (raw.toList.splitOn ',').map String.ofList

def Settings.databaseNames (settings : Settings) : Except String (List String) := do
  let raw := if strip settings.names = "" then strip settings.name else strip settings.names
  let names := servedNames [] (parts raw)
  if names = [] then throw "set FN_DB_NAME (one database) or FN_DB_NAMES (several)"
  return names

/-- `_targets`, in the order of the databases. -/
def Settings.targets (settings : Settings) : Except String (List Target) := do
  let server ← settings.endpoint
  return (← settings.databaseNames).map fun database => { server with database }

def Target.identifier (target : Target) : String :=
  s!"{target.engine.text}:{target.host}:{target.database}"

/-! ### What a request asks for -/

structure Response where
  status : ℕ
  body : Json

/-- `str(holder.get(key) or "").strip()`. -/
def textOf (holder : Dict) (key : String) : String :=
  match holder.get? key with
  | some value => if value.truthy then strip value.text else ""
  | none => ""

/-- The first of the keys that has a text. -/
def firstText (keys : List String) (holder : Dict) : Option String :=
  keys.findSome? fun key => if textOf holder key = "" then none else some (textOf holder key)

def asDict : Option Json → Option Dict
  | some (.obj items) => some items
  | _ => none

def identityKeys : List String := ["email", "identifier", "name", "username", "user_email"]

/-- `_identity`. -/
def identityOf (payload : Dict) : String :=
  let holders := [asDict (payload.get? "provisioning_data"), asDict (payload.get? "actor"),
    some payload]
  (holders.findSome? fun holder => holder.bind (firstText identityKeys)).getD ""

/-- `_role_code`. -/
def roleCode (payload : Dict) : String :=
  let holders := [some payload, asDict (payload.get? "asset")]
  let keys := ["role_code", "role", "permission"]
  match holders.findSome? fun holder => holder.bind (firstText keys) with
  | some code => lower code
  | none => "read"

/-- `payload.get("asset") or {}`, `none` where it has no `get`. -/
def assetOf (payload : Dict) : Option Dict :=
  match payload.get? "asset" with
  | none => some []
  | some value => if value.truthy then asDict (some value) else some []

def errorBody (message : String) : Json := .obj [("error", .str message)]

def internalError (requestId : String) : Response :=
  ⟨500, .obj [("error", .str "internal error"), ("request_id", .str requestId)]⟩

/-- A `CloudDbSqlError` is answered with 400, any other error by the dispatcher. -/
def sqlRefusal (requestId : String) : SqlError → Response
  | .cloudDbSql message => ⟨400, errorBody message⟩
  | .key _ => internalError requestId

def assetList (targets : List Target) : Json :=
  .arr ((targets.map Target.identifier).mergeSort.map Json.str)

/-- `_resolve_target`. -/
def resolveTarget (identifier : String) (targets : List Target) : Except Response Target :=
  if identifier = "" then
    match targets with
    | [target] => pure target
    | _ => throw ⟨400, .obj [("error", .str ("asset.identifier is required: this adapter serves " ++
        s!"{targets.length} databases, so there is no default")), ("assets", assetList targets)]⟩
  else
    match targets.find? fun target => target.identifier = identifier with
    | some target => pure target
    | none => throw ⟨404, .obj [("error", .str s!"unknown asset {reprText identifier}"),
        ("assets", assetList targets)]⟩

def jitPrefix : String := "jit_"

def IsMinted (username : String) : Prop := jitPrefix.toList <+: username.toList

instance (username : String) : Decidable (IsMinted username) :=
  inferInstanceAs (Decidable (_ <+: _))

inductive Route where
  | createActor
  | deleteActor
  | giveAccess
  | revokeAccess
  deriving DecidableEq

/-- A write request, with the password `_generate_password` returns in it and the number of statements
that take effect before a fault, if there is one. -/
structure Request where
  route : Route
  payload : Dict
  requestId : String
  password : String
  cut : Option ℕ

/-- What a route hands to `_apply`. -/
structure Job where
  username : String
  plan : Plan
  extra : Dict
  reportInto : Option String

def planOrRefusal (requestId : String) : Result Plan → Except Response Plan
  | .ok plan => pure plan
  | .error e => throw (sqlRefusal requestId e)

/-- `entitle.actor_data`. -/
def actorData (username email : String) (loginInfo : Dict) : Dict :=
  [("actor", .obj [("identifier", .str username), ("name", .str username),
    ("type", .str "database_account"), ("email", .str email)]), ("login_info", .obj loginInfo)]

def credentials (target : Target) (username password : String) : Dict :=
  [("username", .str username), ("password", .str password), ("host", .str target.host),
    ("port", .int target.port)]

variable (settings : Settings) (targets : List Target) (request : Request)

/-- `_create_actor_with_access`. -/
def createWithAccess (identity asset : String) : Except Response Job := do
  let target ← resolveTarget asset targets
  let role := roleCode request.payload
  let username := ephemeralUsername identity request.requestId target.engine.text
  let plan ← planOrRefusal request.requestId (grantPlan target.engine username request.password
    target.database role target.flavor)
  let loginInfo : Dict := ("role_code", .str role) ::
    if settings.dry then []
    else credentials target username request.password ++
      [("database", .str target.database)]
  return ⟨username, plan, actorData username identity loginInfo, some "login_info"⟩

/-- `_create_actor` without an asset: an account in every database served. -/
def createStanding (identity : String) : Except Response Job := do
  match targets with
  | [] => throw (internalError request.requestId)
  | server :: _ =>
    let databases := targets.map Target.database
    let username := ephemeralUsername identity request.requestId server.engine.text
    let plan ← planOrRefusal request.requestId (createActorPlan server.engine username
      request.password server.database server.flavor databases)
    let loginInfo : Dict :=
      if settings.dry then []
      else credentials server username request.password ++
        if databases.length = 1 then [("database", .str server.database)]
        else [("databases", .arr (databases.map Json.str))]
    return ⟨username, plan, actorData username identity loginInfo, some "login_info"⟩

def createActor : Except Response Job := do
  let identity := identityOf request.payload
  if identity = "" then
    throw ⟨400, errorBody ("create_actor needs an email or identifier " ++
      "(in provisioning_data, actor, or the body itself)")⟩
  match assetOf request.payload with
  | none => throw (internalError request.requestId)
  | some asset =>
    if textOf asset "identifier" = "" then createStanding settings targets request identity
    else createWithAccess settings targets request identity (textOf asset "identifier")

def notMinted (username : String) : Response :=
  ⟨403, errorBody (s!"{reprText username} was not created by this adapter; " ++
    "it only manages accounts it minted")⟩

/-- The actor a delete names. -/
def deletedName (payload : Dict) : String :=
  (firstText ["actor_identifier", "identifier"] payload).getD ""

def deleteActor : Except Response Job := do
  let username := deletedName request.payload
  if username = "" then throw ⟨400, errorBody "delete_actor needs actor_identifier"⟩
  if ¬IsMinted username then throw (notMinted username)
  match targets with
  | [] => throw (internalError request.requestId)
  | server :: _ =>
    let plan ← planOrRefusal request.requestId (deleteActorPlan server.engine username
      server.database server.flavor (targets.map Target.database))
    return ⟨username, plan, [("identifier", .str username)], none⟩

/-- `_give_access` and `_revoke_access`, which differ in their name and in the plan. -/
def changeAccess (name : String)
    (planOf : Engine → (username database role flavor : String) → Result Plan) :
    Except Response Job := do
  match assetOf request.payload with
  | none => throw (internalError request.requestId)
  | some asset =>
    let target ← resolveTarget (textOf asset "identifier") targets
    let username := textOf request.payload "actor_identifier"
    if username = "" then throw ⟨400, errorBody s!"{name} needs actor_identifier"⟩
    if ¬IsMinted username then throw (notMinted username)
    let role := roleCode request.payload
    let plan ← planOrRefusal request.requestId
      (planOf target.engine username target.database role target.flavor)
    return ⟨username, plan, [("actor_identifier", .str username), ("role_code", .str role)], none⟩

def giveAccess : Except Response Job := changeAccess targets request "give_access" giveAccessPlan

def revokeAccess : Except Response Job := changeAccess targets request "revoke_access" revokeAccessPlan

def Request.job : Except Response Job :=
  match request.route with
  | .createActor => createActor settings targets request
  | .deleteActor => deleteActor targets request
  | .giveAccess => giveAccess targets request
  | .revokeAccess => revokeAccess targets request

/-! ### Running it -/

def planJson (plan : Plan) : Json :=
  .arr (plan.map fun entry => .obj [("database", .str entry.1),
    ("statements", .arr (entry.2.map fun statement => .str statement.sql))])

/-- The body of a response, with the report where the route wants it. -/
def reportBody (job : Job) (report : Dict) : Json :=
  let data := match job.reportInto with
    | some key => job.extra.set key (.obj (((asDict (job.extra.get? key)).getD []).update report))
    | none => job.extra.update report
  .obj [("data", .obj data)]

/-- `_apply`. -/
def applyJob (job : Job) (database : Server) : Server × Response :=
  if settings.dry then
    (database, ⟨200, reportBody job [("dry_run", .bool true), ("plan", planJson job.plan)]⟩)
  else
    let (after, done) := database.run request.cut job.plan
    (after, if done then
        ⟨200, reportBody job [("statements_executed", .int job.plan.statements.length)]⟩
      else internalError request.requestId)

def unconfigured (problem requestId : String) : Response :=
  ⟨500, .obj [("error", .str "function not configured"), ("problem", .str problem),
    ("request_id", .str requestId)]⟩

def handle (database : Server) : Server × Response :=
  match settings.targets with
  | .error problem => (database, unconfigured problem request.requestId)
  | .ok targets =>
    match request.job settings targets with
    | .error refusal => (database, refusal)
    | .ok job => applyJob settings request job database

/-! ### Listing the accounts -/

/-- The identifiers of `_actors`. -/
def actors (names : Finset String) : List String := (names.filter IsMinted).sort

/-- `_list_actors_in` of a SQL Server database. -/
def listActorsIn (database : Server) (target : Target) : List String :=
  actors ((database.users.filter fun x => x.1 = target.database).image Prod.snd)

def listAllActors (database : Server) : List String :=
  match targets with
  | [] => []
  | first :: _ =>
    if first.engine = .mysql then actors database.principals
    else actors (targets.flatMap (listActorsIn database)).toFinset

/-- The identifiers `get_actors` answers with. -/
def getActors (database : Server) : List String :=
  match settings.targets with
  | .error _ => []
  | .ok targets => if settings.dry then [] else listAllActors targets database

end Databases
