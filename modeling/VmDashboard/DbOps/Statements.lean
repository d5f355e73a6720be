import VmDashboard.Python.Text
import VmDashboard.Python.Replace
import VmDashboard.Machine.Except

/-!
# The statements of the DB-Ops service (`functions/fnworkloads/ps_dbops.py`)

The quoting of principal names and passwords and the statements that set a password.
-/

namespace DbOps
open Python (strip reprText replace)

/-- What the service refuses a request with. -/
inductive Refusal where
  | dbOps (message : String)
  | unsupported (message : String)
  | notImplemented (message : String)
  deriving DecidableEq

abbrev Result := Except Refusal

inductive Engine where
  | sqlserver
  | mysql
  | postgres
  deriving DecidableEq

def Engine.text : Engine → String
  | .sqlserver => "sqlserver"
  | .mysql => "mysql"
  | .postgres => "postgres"

/-- `[\x00-\x1f\x7f]`. -/
def isControl (c : Char) : Bool := c.toNat ≤ 0x1f || c.toNat = 0x7f

def maxIdent : ℕ := 128

def ident (name : String) : Result String := do
  let value := strip name
  if value = "" then throw (.dbOps "a database principal name is required")
  if maxIdent < value.length then
    throw (.dbOps (s!"database principal name is {value.length} characters, over the " ++
      s!"{maxIdent} character limit"))
  if value.toList.any isControl then
    throw (.dbOps "database principal name contains control characters")
  return value

def secret (value : String) : Result String := do
  if value = "" then throw (.dbOps "a password is required")
  if value.toList.any isControl then throw (.dbOps "password contains control characters")
  return value

/-- `text` between the marks, every `close` in it doubled. -/
def quoted (opening close : Char) (text : String) : String :=
  String.ofList (opening :: (replace [close] [close, close] text.toList ++ [close]))

def mssqlIdent (name : String) : Result String := do return quoted '[' ']' (← ident name)

def tsqlLiteral (value : String) : Result String := do
  return quoted Python.apostrophe Python.apostrophe (← secret value)

def pgIdent (name : String) : Result String := do
  return quoted Python.quotation Python.quotation (← ident name)

def pgLiteral (value : String) : Result String := do
  return quoted Python.apostrophe Python.apostrophe (← secret value)

/-- `name.rpartition("@")`, `none` without the separator. -/
def rpartitionAt (name : String) : Option (String × String) :=
  let cs := name.toList.reverse
  if cs.contains '@' then
    some (String.ofList ((cs.dropWhile (· ≠ '@')).drop 1).reverse,
      String.ofList (cs.takeWhile (· ≠ '@')).reverse)
  else none

def splitMysqlAccount (principal : String) : Result (String × String) := do
  let name ← ident principal
  match rpartitionAt name with
  | some account => return account
  | none => throw (.dbOps (s!"MySQL account {reprText principal} has no host qualifier — 'app'@'%' " ++
      "and 'app'@'10.0.0.5' are different accounts, so this is refused rather than defaulted"))

/-- A statement with the parameters its driver binds. -/
structure Statement where
  sql : String
  params : List String
  deriving DecidableEq

def changePasswordStatements (engine : Engine) (principal newPassword oldPassword : String) :
    Result (List Statement) := do
  match engine with
  | .sqlserver =>
    let login ← mssqlIdent principal
    let new ← tsqlLiteral newPassword
    if oldPassword = "" then
      return [⟨"ALTER LOGIN " ++ login ++ " WITH PASSWORD = " ++ new ++ ";", []⟩]
    let old ← tsqlLiteral oldPassword
    return [⟨"ALTER LOGIN " ++ login ++ " WITH PASSWORD = " ++ new ++ " OLD_PASSWORD = " ++ old ++ ";",
      []⟩]
  | .mysql =>
    let (user, host) ← splitMysqlAccount principal
    let _ ← secret newPassword
    if oldPassword = "" then
      return [⟨"ALTER USER %s@%s IDENTIFIED BY %s", [user, host, newPassword]⟩]
    return [⟨"ALTER USER USER() IDENTIFIED BY %s", [newPassword]⟩]
  | .postgres =>
    let role ← pgIdent principal
    let new ← pgLiteral newPassword
    return [⟨"ALTER ROLE " ++ role ++ " WITH PASSWORD " ++ new ++ ";", []⟩]

end DbOps
