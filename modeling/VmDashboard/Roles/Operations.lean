import VmDashboard.Roles.Service

/-!
# The operations on roles (`api/roles.py`, `api/users.py`, `api/groups.py`, `database/bootstrap.py`)

A refused request is rolled back. An id that a request brings in is a `uuid4`: no row has it yet.
-/

namespace Roles
open Machine (Table System)
open ServiceAccounts (PermissionMap confersAdmin)
open Python (strip)

def resolveRole (roles : RoleTable) (raw : String) : Except String (Option AccessRole) :=
  if strip raw = "" then .ok none
  else
    match getRole roles (strip raw) with
    | some role => .ok (some role)
    | none => .error ("Unknown role '" ++ raw ++ "'")

def userRoleRequired : String :=
  "Choose a role. Every person's account needs one; the permission grid adds to it rather than " ++
    "replacing it. Tick Admin for an administrator."

def mappingRoleRequired : String :=
  "Choose a role for this mapping. Every group mapping needs one; the permissions below are " ++
    "added on top of it."

def ssoProviders : List String := ["azure_ad", "oidc"]

def adminHere (user : Account) : Bool := user.isAdmin || confersAdmin user.rolePermissions

def nothingGranted : PermissionMap := grants (permissionScopes.map fun scope => (scope, []))

/-- A service account never gets an administrator role. -/
def refuseEscalation (roles : RoleTable) (user : Account) (raw : String) : Except String Unit := do
  if user.isServiceAccount ∧ raw ≠ "" then
    if (← resolveRole roles raw).any fun role => confersAdmin role.permissions then
      throw "A service account cannot hold an administrator role."

/-- `_would_leave_without_role` of a request that changes the role only. -/
def leavesWithoutRole (user : Account) (admin raw : String) : Bool :=
  user.id ≠ admin &&
    !(user.isAdmin || user.isServiceAccount || user.accessorEnvId.any (· ≠ "") ||
      (user.authProvider.getD "local") ∈ ssoProviders) &&
    strip raw = ""

/-- An administrator who stops being one keeps no map from before. -/
def unlessDemoted (was user : Account) : Account :=
  if adminHere was ∧ ¬adminHere user then { user with permissions := nothingGranted } else user

/-- `PATCH /api/users/{id}` with a `role_id`. -/
def assignRole (s : State) (admin id raw : String) : Except String Account := do
  match s.users.lookup id with
  | none => throw "User not found"
  | some user => do
    if user.accessorEnvId.any (· ≠ "") then
      throw ("This is a POV accessor login. It is managed from its POV's Access tab and removed " ++
        "when the POV is destroyed — edit or revoke it there.")
    refuseEscalation s.roles user raw
    if leavesWithoutRole user admin raw then throw userRoleRequired
    if strip raw = user.roleId.getD "" then return user
    if user.id = admin then
      throw "Cannot change your own role — ask another administrator."
    return unlessDemoted user (applyRoleToUser user (← resolveRole s.roles raw))

/-- `POST /api/users`, the Admin box not ticked. -/
def createUser (s : State) (user : Account) (raw : String) : Except String Account := do
  if s.users.rows.any fun other => other.username = user.username then
    throw "Username already exists"
  match ← resolveRole s.roles raw with
  | none => throw userRoleRequired
  | some role =>
    return applyRoleToUser
      { user with isAdmin := false, isServiceAccount := false, accessorEnvId := none } role

/-- `POST /api/users/service-accounts` -/
def createServiceAccount (s : State) (user : Account) (raw : String) : Except String Account := do
  let role ← resolveRole s.roles raw
  if role.any fun role => confersAdmin role.permissions then
    throw "A service account cannot hold an administrator role."
  let username := strip user.username
  if username = "" then throw "A service account needs a username."
  if s.users.rows.any fun other => other.username = username then
    throw ("The username " ++ Python.reprText username ++ " is already taken.")
  return applyRoleToUser { user with username, isAdmin := false, isServiceAccount := true } role

def createMapping (s : State) (id group raw : String) : Except String GroupMapping := do
  if s.mappings.rows.any fun mapping => mapping.entraGroupId = group then
    throw "A mapping for this Entra group ID already exists."
  match ← resolveRole s.roles raw with
  | none => throw mappingRoleRequired
  | some role => return ⟨id, strip group, some role.id⟩

/-- The mapping with the role that the request names, if it names one. -/
def remapped (roles : RoleTable) (mapping : GroupMapping) : Option String → Except String GroupMapping
  | none => .ok mapping
  | some raw => do
    match ← resolveRole roles raw with
    | none => throw mappingRoleRequired
    | some role => return { mapping with roleId := some role.id }

def updateMapping (s : State) (id : String) (raw : Option String) : Except String GroupMapping := do
  match s.mappings.lookup id with
  | none => throw "Mapping not found."
  | some mapping => do
    let mapping ← remapped s.roles mapping raw
    if mapping.roleId.getD "" = "" then throw mappingRoleRequired
    return mapping

inductive Op
  | create (id name : String) (description : Option String) (payload : Payload) (createdBy : String)
  | update (role : String) (name description : Option String) (payload : Option Payload)
  | clone (role id name : String) (description : Option String) (createdBy : String)
  | delete (role : String) (force : Bool)
  | assign (admin user role : String)
  | createUser (user : Account) (role : String)
  | createServiceAccount (user : Account) (role : String)
  | createMapping (id group role : String)
  | updateMapping (mapping : String) (role : Option String)
  | deleteMapping (mapping : String)
  /-- `init_db`: the seed and the reconcile pass. `ids` are the `uuid4` of the rows it adds. -/
  | startup (ids : String → String)

/-- What a request does: its result is stored, a refusal changes nothing. -/
def stored {α : Type} (s : State) (result : Except String α) (store : α → Option State) :
    Option State :=
  match result with
  | .ok a => store a
  | .error _ => some s

def addRole (s : State) (role : AccessRole) : Option State :=
  (s.roles.insert role).map fun roles => { s with roles }

def addUser (s : State) (user : Account) : Option State :=
  (s.users.insert user).map fun users => { s with users }

def setRole (s : State) (edited : AccessRole × Bool) : State :=
  let stored := { s with roles := s.roles.put edited.1 }
  if edited.2 then fanOut stored edited.1 else stored

def orNotFound (roles : RoleTable) (id : String) : Except String AccessRole :=
  match getRole roles id with
  | some role => .ok role
  | none => .error "Role not found"

def State.step (s : State) : Op → Option State
  | .create id name description payload by_ =>
    stored s (create s.roles id name description payload (some by_)) (addRole s)
  | .update id name description payload =>
    stored s (do update s.roles (← orNotFound s.roles id) name description payload)
      fun edited => some (setRole s edited)
  | .clone role id name description by_ =>
    stored s (do clone s.roles (← orNotFound s.roles role) id name description (some by_))
      (addRole s)
  | .delete id force => stored s (do delete s (← orNotFound s.roles id) force) some
  | .assign admin id role =>
    stored s (assignRole s admin id role) fun user => some { s with users := s.users.put user }
  | .createUser user role => stored s (createUser s user role) (addUser s)
  | .createServiceAccount user role => stored s (createServiceAccount s user role) (addUser s)
  | .createMapping id group role =>
    stored s (createMapping s id group role) fun mapping =>
      (s.mappings.insert mapping).map fun mappings => { s with mappings }
  | .updateMapping id role =>
    stored s (updateMapping s id role) fun mapping =>
      some { s with mappings := s.mappings.put mapping }
  | .deleteMapping id => some { s with mappings := s.mappings.erase id }
  | .startup ids => (seedBuiltins ids s).map reconcile

def roleService : System State Op := ⟨State.step⟩

end Roles
