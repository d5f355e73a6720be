import VmDashboard.Machine.System
import VmDashboard.Python.Case
import VmDashboard.Roles.Catalogue

/-!
# Access roles (`services/role_service.py`)

A role is a named permission map. A user it is assigned to carries a copy of the map, written with
the id by `applyRoleToUser` and kept in step by `fanOut` and `reconcile`.
-/

namespace Roles
open Machine (Table System)
open ServiceAccounts (PermissionMap confersAdmin)
open Python (strip lower reprText)
open Levels

def adminRoleSlug : String := "administrator"

structure AccessRole where
  id : String
  slug : String
  name : String
  description : Option String
  permissions : PermissionMap
  isBuiltin : Bool
  createdByUserId : Option String

structure Account extends ServiceAccounts.User where
  accessorEnvId : Option String
  authProvider : Option String

structure GroupMapping where
  id : String
  entraGroupId : String
  roleId : Option String

structure State where
  roles : Table AccessRole.id
  users : Table fun user : Account => user.id
  mappings : Table GroupMapping.id

/-! ### The built-in roles -/

structure Builtin where
  slug : String
  name : String
  description : String
  permissions : PermissionMap

def builtinRoles : List Builtin := [
  { slug := adminRoleSlug
    name := "Administrator"
    description := "Full access, including the admin-only pages. The permission grid is not " ++
      "consulted for an administrator."
    permissions := permissionMap [("is_admin", .flag true)] },
  { slug := "operator"
    name := "Operator"
    description := "Day-to-day operation: deploy, run and use everything, but delete nothing."
    permissions := grants
      [("vms", rw), ("jobs", r), ("workgroups", r), ("inventory", r), ("aws", rw), ("azure", rw),
      ("gcp", rw), ("oci", rw), ("costs", r), ("proxmox", rw), ("vsphere", rw), ("hyperv", rw),
      ("nutanix", rw), ("xcpng", rw), ("connections", rw), ("images", rw), ("containers", rw),
      ("k8s", rw), ("cloud_function", rw), ("cloud_database", rw), ("storage", rw),
      ("secrets", u), ("config_mgmt", rw), ("pov", rwu), ("pov_templates", r), ("gateways", rw),
      ("agents", rw), ("notifications", rw), ("epml", rw), ("ot", rw)] },
  { slug := "read-only"
    name := "Read-Only"
    description := "See everything, change nothing. Every section at its read level."
    permissions := grants
      [("vms", r), ("jobs", r), ("workgroups", r), ("inventory", r), ("audit", r), ("aws", r),
      ("azure", r), ("gcp", r), ("oci", r), ("costs", r), ("proxmox", r), ("vsphere", r),
      ("hyperv", r), ("nutanix", r), ("xcpng", r), ("connections", r), ("images", r),
      ("containers", r), ("k8s", r), ("cloud_function", r), ("cloud_database", r),
      ("directories", r), ("storage", r), ("config_mgmt", r), ("pov", r), ("pov_own", r),
      ("pov_templates", r), ("gateways", r), ("agents", r), ("notifications", r), ("epml", r),
      ("ot", r)] },
  { slug := "pov-presenter"
    name := "POV Presenter"
    description := "Run a proof of value: create POVs, then see, set up, run, share and destroy " ++
      "your own -- created by you or assigned to you -- and tick use cases. Other people's POVs " ++
      "are not visible."
    permissions := grants
      [("pov", u), ("pov_templates", r), ("pov_own", rwd), ("vms", r), ("jobs", r),
      ("inventory", r), ("connections", r)] },
  { slug := "pov-manager"
    name := "POV Manager"
    description := "Oversee every proof of value: see, set up, run, share, power and destroy any " ++
      "POV, and curate the POV templates."
    permissions := grants
      [("pov", all), ("pov_templates", rw), ("vms", r), ("jobs", r), ("inventory", r),
      ("connections", r)] },
  { slug := "pov-template-builder"
    name := "POV Template Builder"
    description := "Author what presenters build from: build and delete POV templates, save and " ++
      "delete blueprints, and maintain the BeyondTrust tenant registry. Does not create POVs."
    permissions := grants
      [("pov_templates", rwd), ("pov_own", r), ("vms", r), ("jobs", r), ("inventory", r),
      ("connections", r)] },
  { slug := "auditor"
    name := "Auditor"
    description := "Oversight without change: the audit trail, the job history, and the " ++
      "inventory those jobs produced."
    permissions := grants
      [("audit", r), ("jobs", r), ("inventory", r), ("vms", r), ("agents", r), ("workgroups", r),
      ("notifications", r), ("costs", r)] },
  { slug := "cloud-admin"
    name := "Cloud Admin"
    description := "Full control of the cloud accounts and what runs in them, without the " ++
      "admin-only pages."
    permissions := grants
      [("aws", rwd), ("azure", rwd), ("gcp", rwd), ("oci", rwd), ("costs", rw), ("vms", rw),
      ("images", rwd), ("jobs", r), ("inventory", r), ("workgroups", r)] },
  { slug := "dba"
    name := "DBA"
    description := "Cloud databases end to end, plus the secrets a database run needs."
    permissions := grants
      [("cloud_database", rwd), ("secrets", u), ("jobs", r), ("connections", r), ("inventory", r)] },
  { slug := "platform-k8s"
    name := "Platform / K8s"
    description := "Clusters, containers and functions, plus the images and configuration they " ++
      "are built from."
    permissions := grants
      [("k8s", rwd), ("containers", rwd), ("cloud_function", rwd), ("images", rwd),
      ("storage", rwd), ("config_mgmt", rw), ("jobs", r), ("inventory", r)] }]

def builtinSlugs : List String := builtinRoles.map Builtin.slug

/-! ### Names and maps -/

def isSlugChar (c : Char) : Bool := ('a' ≤ c && c ≤ 'z') || ('0' ≤ c && c ≤ '9')

/-- `^[a-z0-9][a-z0-9-]{0,62}[a-z0-9]$` on a text without a line break. -/
def isSlug (text : String) : Bool :=
  let cs := text.toList
  decide (2 ≤ cs.length) && decide (cs.length ≤ 64) && (cs.all fun c => isSlugChar c || c = '-') &&
    cs.head?.any isSlugChar && cs.getLast?.any isSlugChar

/-- `re.sub(r"[^a-z0-9]+", "-", text).strip("-")` joins the runs of letters and digits. -/
def slugify (name : String) : Except String String :=
  let runs := (lower (strip name)).toList.splitOnP fun c => !isSlugChar c
  let slug := "-".intercalate ((runs.filter fun run => !run.isEmpty).map String.ofList)
  if isSlug slug then .ok slug
  else .error ("Invalid role name " ++ reprText name ++
    ". Use 2-64 characters of letters, digits, spaces or hyphens.")

def validateRolePermissions (payload : Payload) (slug : String) : Except String PermissionMap := do
  if payload.rows = [] then
    throw ("A role must say what it grants: send a permissions map. An empty map would grant " ++
      "nothing, and there is no way to spell 'unrestricted' on a role -- use the Administrator " ++
      "role, or the user's Admin flag, which is auditable.")
  let perms ← validatePermissionsPayload payload
  if confersAdmin perms ∧ slug ≠ adminRoleSlug then
    throw ("Only the built-in Administrator role may grant the admin flag. Grant the sections " ++
      "this role needs instead, or set the Admin flag on the user.")
  return perms

/-! ### Reads -/

abbrev RoleTable := Table AccessRole.id

def getRole (roles : RoleTable) (id : String) : Option AccessRole :=
  if id = "" then none else roles.lookup id

def getBySlug (roles : RoleTable) (slug : String) : Option AccessRole :=
  roles.rows.find? fun role => role.slug = slug

def assigneeCounts (s : State) (id : String) : ℕ × ℕ :=
  (s.users.rows.countP fun user => user.roleId = some id,
    s.mappings.rows.countP fun mapping => mapping.roleId = some id)

/-! ### The copy on a user -/

def applyRoleToUser (user : Account) : Option AccessRole → Account
  | none => { user with roleId := none, rolePermissions := .empty }
  | some role => { user with roleId := some role.id, rolePermissions := role.permissions }

theorem applyRoleToUser_id (user : Account) (role : Option AccessRole) :
    (applyRoleToUser user role).id = user.id := by
  cases role <;> rfl

def fanOutUser (role : AccessRole) (user : Account) : Account :=
  if user.roleId = some role.id then { user with rolePermissions := role.permissions } else user

theorem fanOutUser_id (role : AccessRole) (user : Account) : (fanOutUser role user).id = user.id := by
  unfold fanOutUser
  split <;> rfl

def fanOut (s : State) (role : AccessRole) : State :=
  { s with users := s.users.map (fanOutUser role) (fanOutUser_id role) }

/-- `==` of dictionaries. -/
def sameMap (a b : PermissionMap) : Bool :=
  a.rows.length = b.rows.length && a.rows.all fun item => b.lookup item.1 = some item

def reconcileUser (roles : RoleTable) (user : Account) : Account :=
  match user.roleId with
  | none => user
  | some id =>
    match getRole roles id with
    | none => { user with roleId := none, rolePermissions := .empty }
    | some role =>
      if sameMap user.rolePermissions role.permissions then user
      else { user with rolePermissions := role.permissions }

theorem reconcileUser_id (roles : RoleTable) (user : Account) :
    (reconcileUser roles user).id = user.id := by
  unfold reconcileUser
  split
  · rfl
  · split
    · rfl
    · split <;> rfl

def reconcile (s : State) : State :=
  { s with users := s.users.map (reconcileUser s.roles) (reconcileUser_id s.roles) }

/-! ### Writes -/

/-- The new row; `id` is the `uuid4` it gets. -/
def create (roles : RoleTable) (id name : String) (description : Option String) (payload : Payload)
    (createdBy : Option String) : Except String AccessRole := do
  let slug ← slugify name
  if (getBySlug roles slug).isSome then
    throw ("A role named " ++ reprText name ++ " already exists.")
  let permissions ← validateRolePermissions payload slug
  return { id, slug, name := strip name, permissions, isBuiltin := false,
           description := (description.map strip).filter (· ≠ ""), createdByUserId := createdBy }

/-- `update` as far as the name. -/
def renamed (roles : RoleTable) (role : AccessRole) : Option String → Except String AccessRole
  | none => .ok role
  | some name => do
    let slug ← slugify name
    if (getBySlug roles slug).any fun clash => clash.id ≠ role.id then
      throw ("A role named " ++ reprText name ++ " already exists.")
    return { role with slug, name := strip name }

def described (role : AccessRole) : Option String → AccessRole
  | none => role
  | some text => { role with description := (some (strip text)).filter (· ≠ "") }

/-- The row as edited, and whether its map is fanned out. -/
def update (roles : RoleTable) (role : AccessRole) (name description : Option String)
    (payload : Option Payload) : Except String (AccessRole × Bool) := do
  if role.isBuiltin then
    throw (reprText role.name ++ " is a built-in role and cannot be edited. Clone it and edit the " ++
      "copy.")
  let edited ← renamed roles role name
  let edited := described edited description
  match payload with
  | none => return (edited, false)
  | some payload => do
    let permissions ← validateRolePermissions payload edited.slug
    return ({ edited with permissions }, true)

def clone (roles : RoleTable) (role : AccessRole) (id name : String) (description : Option String)
    (createdBy : Option String) : Except String AccessRole := do
  if role.slug = adminRoleSlug then
    throw ("The Administrator role cannot be cloned -- a copy may not carry the admin flag, and " ++
      "the copy would grant nothing. Set the Admin flag on the user instead, or build a role " ++
      "from the sections they need.")
  create roles id name description (asPayload role.permissions) createdBy

def plural (n : ℕ) (noun : String) : String :=
  toString n ++ " " ++ noun ++ (if n = 1 then "" else "s")

def clearUser (id : String) (user : Account) : Account :=
  if user.roleId = some id then { user with roleId := none, rolePermissions := .empty } else user

def clearMapping (id : String) (mapping : GroupMapping) : GroupMapping :=
  if mapping.roleId = some id then { mapping with roleId := none } else mapping

theorem clearUser_id (id : String) (user : Account) : (clearUser id user).id = user.id := by
  unfold clearUser
  split <;> rfl

theorem clearMapping_id (id : String) (mapping : GroupMapping) :
    (clearMapping id mapping).id = mapping.id := by
  unfold clearMapping
  split <;> rfl

def delete (s : State) (role : AccessRole) (force : Bool) : Except String State := do
  if role.isBuiltin then
    throw (reprText role.name ++ " is a built-in role and cannot be deleted.")
  let (users, mappings) := assigneeCounts s role.id
  if (users ≠ 0 ∨ mappings ≠ 0) ∧ ¬force then
    let parts := (if users ≠ 0 then [plural users "user"] else []) ++
      (if mappings ≠ 0 then [plural mappings "group mapping"] else [])
    throw (reprText role.name ++ " is still assigned to " ++ " and ".intercalate parts ++
      ". Reassign them, or delete it with force to clear the assignment.")
  return { roles := s.roles.erase role.id
           users := s.users.map (clearUser role.id) (clearUser_id role.id)
           mappings := s.mappings.map (clearMapping role.id) (clearMapping_id role.id) }

/-! ### Seeding -/

/-- The wording of a stored built-in brought up to date. -/
def refresh (spec : Builtin) (role : AccessRole) : AccessRole :=
  if role.isBuiltin then { role with name := spec.name, description := some spec.description }
  else role

/-- One round of `_insert_builtins`; `id` is the `uuid4` of a row it adds. -/
def insertBuiltin (roles : RoleTable) (spec : Builtin) (id : String) : Option RoleTable :=
  match getBySlug roles spec.slug with
  | some existing =>
    some (roles.modify existing.id (refresh spec) fun role => by unfold refresh; split <;> rfl)
  | none =>
    roles.insert
      { id, slug := spec.slug, name := spec.name, description := some spec.description,
        permissions := spec.permissions, isBuiltin := true, createdByUserId := none }

def insertBuiltins (ids : String → String) : RoleTable → List Builtin → Option RoleTable
  | roles, [] => some roles
  | roles, spec :: specs => do
    let roles ← insertBuiltin roles spec (ids spec.slug)
    insertBuiltins ids roles specs

def seedBuiltins (ids : String → String) (s : State) : Option State :=
  (insertBuiltins ids s.roles builtinRoles).map fun roles => { s with roles }

end Roles
