import VmDashboard.Machine.Except
import VmDashboard.Python.Convert
import VmDashboard.ServiceAccounts.Account

/-!
# The permission catalogue (`api/auth.py`)

The scopes with the levels each offers, and the check of a permission map that a request carries.
-/

namespace Roles
open Machine (Table)
open ServiceAccounts (Grant PermissionMap)
open Python (Json)

namespace Levels

def all : List String := ["read", "write", "delete", "use"]
def rwd : List String := ["read", "write", "delete"]
def rw : List String := ["read", "write"]
def r : List String := ["read"]
def rwu : List String := ["read", "write", "use"]
def u : List String := ["use"]

end Levels

open Levels

def permissionLevels : List String := all

def permissionScopeLevels : List (String × List String) :=
  [("vms", rw), ("aws", rwd), ("azure", rwd), ("gcp", rwd), ("oci", rwd), ("images", rwd),
  ("containers", rwd), ("config_mgmt", rw), ("jobs", r), ("workgroups", rw), ("secrets", u),
  ("cloud_database", rwd), ("k8s", rwd), ("cloud_function", rwd), ("pov", all), ("pov_own", rwd),
  ("pov_templates", rwd), ("directories", rwd), ("proxmox", rwd), ("vsphere", rw), ("hyperv", rw),
  ("nutanix", rwd), ("xcpng", rw), ("connections", rwd), ("storage", rwd), ("costs", rw),
  ("inventory", r), ("agents", rwd), ("audit", r), ("gateways", rwd), ("notifications", rw),
  ("epml", rw), ("ot", rwd), ("change_windows", ["write", "use"])]

def retiredLevels : List (String × List String) :=
  [("vms", ["delete", "use"]), ("aws", u), ("azure", u), ("gcp", u), ("oci", u), ("images", u),
  ("containers", u), ("cloud_database", u), ("k8s", u), ("cloud_function", u),
  ("config_mgmt", ["delete", "use"]), ("jobs", ["write", "delete", "use"]),
  ("workgroups", ["delete", "use"]), ("secrets", rwd)]

def explicitOnlyLevels : List (String × List String) :=
  [("agents", rwd), ("audit", r), ("change_windows", ["write", "use"]), ("connections", rwd),
  ("costs", rw), ("directories", rwd), ("jobs", r), ("notifications", rw), ("pov_own", rwd),
  ("pov_templates", ["write", "delete"])]

def permissionScopes : List String := permissionScopeLevels.map Prod.fst

/-- `d.get(scope)` -/
def levelsOf (catalogue : List (String × List String)) (scope : String) : Option (List String) :=
  (catalogue.find? fun item => item.1 = scope).map Prod.snd

def isRetired (scope level : String) : Bool := level ∈ (levelsOf retiredLevels scope).getD []

/-- The map that holds these items. -/
def permissionMap (items : List (String × Grant)) : PermissionMap := items.foldl Table.put .empty

def grants (items : List (String × List String)) : PermissionMap :=
  permissionMap (items.map fun item => (item.1, .levels item.2))

def fullAccessMap : PermissionMap :=
  grants (permissionScopeLevels.map fun item =>
    (item.1, item.2.filter fun level => level ∉ (levelsOf explicitOnlyLevels item.1).getD []))

/-! ### The check of a map -/

/-- A map in the body of a request. -/
abbrev Payload := Table (Prod.fst : String × Json → String)

/-- `type(value).__name__` -/
def typeName : Json → String
  | .null => "NoneType"
  | .bool _ => "bool"
  | .int _ => "int"
  | .str _ => "str"
  | .arr _ => "list"
  | .obj _ => "dict"

def checkLevel (scope : String) (allowed : List String) (level : Json) : Except String String :=
  match level with
  | .str name =>
    if name ∉ permissionLevels then .error ("Unknown permission level '" ++ name ++ "'.")
    else if name ∉ allowed then
      .error ("Scope '" ++ scope ++ "' does not offer '" ++ name ++ "' — it offers " ++
        ", ".intercalate allowed ++ ".")
    else .ok name
  | other => .error ("Unknown permission level '" ++ other.text ++ "'.")

def keptLevel (scope : String) : Json → Bool
  | .str name => !isRetired scope name
  | _ => true

def checkGrant (scope : String) (value : Json) : Except String Grant :=
  if scope = "is_admin" then
    match value with
    | .bool flag => .ok (.flag flag)
    | _ => .error "is_admin must be true or false"
  else
    match levelsOf permissionScopeLevels scope, value with
    | none, _ =>
      .error ("Unknown permission scope '" ++ scope ++ "'. Valid scopes: " ++
        ", ".intercalate permissionScopes)
    | some allowed, .arr levels =>
      ((levels.filter (keptLevel scope)).mapM (checkLevel scope allowed)).map .levels
    | some _, other =>
      .error ("Levels for '" ++ scope ++ "' must be a list, not " ++ typeName other ++ ".")

def validatePermissionsPayload (payload : Payload) : Except String PermissionMap := do
  let items ← payload.rows.mapM fun item => do return (item.1, ← checkGrant item.1 item.2)
  return permissionMap items

/-- The value that `json.dumps` writes of a grant. -/
def grantJson : Grant → Json
  | .levels names => .arr (names.map .str)
  | .flag value => .bool value

def asPayload (perms : PermissionMap) : Payload :=
  ⟨perms.rows.map fun item => (item.1, grantJson item.2), by
    rw [List.map_map]
    exact perms.nodup⟩

end Roles
