import VmDashboard.Roles.Copies

/-!
# When an empty map stopped granting everything (`database/rbac_backfills.py`, `api/auth.py`)

`_materialise_empty_permission_maps` writes full access wherever an empty permission map had stood for
it, and `_complete_oauth_login` builds the session map of a user from the mappings of their groups.
-/

namespace Roles
open Machine (Table)
open ServiceAccounts

/-- `bool` of a text column. -/
def isSet (column : Option String) : Bool := column.any (· ≠ "")

/-! ### The migration -/

/-- `default_permissions`: NULL or empty text, no JSON, or a map, which stands under
`LEGACY_FULL_ACCESS_KEY` where the migration wrote it. -/
inductive Defaults
  | absent
  | malformed
  | grid (perms : PermissionMap)
  | legacy (perms : PermissionMap)

structure Mapping extends GroupMapping where
  defaultPermissions : Defaults

/-- `migrated` is the marker of the migration. -/
structure Store where
  roles : RoleTable
  users : Table fun user : Account => user.id
  mappings : Table fun mapping : Mapping => mapping.entraGroupId
  migrated : Bool

/-- `groups_decide`: there are mappings, in the table or in `azure_oauth_group_map`. -/
def groupsDecide (envGroups : List String) (mappings : List Mapping) : Bool :=
  !mappings.isEmpty || !envGroups.isEmpty

/-- `(user.auth_provider or "local") == "local"`. -/
def isLocal (user : Account) : Bool := !isSet user.authProvider || user.authProvider = some "local"

def materialiseUser (decides : Bool) (user : Account) : Account :=
  if user.isAdmin || isSet user.accessorEnvId || user.isServiceAccount || isSet user.roleId then user
  else if user.permissions.rows ≠ [] ∨ user.sessionPermissions.rows ≠ [] ∨
      user.rolePermissions.rows ≠ [] then user
  else if decides && !isLocal user then user
  else { user with permissions := fullAccessMap }

def materialiseMapping (mapping : Mapping) : Mapping :=
  if isSet mapping.roleId then mapping
  else
    match mapping.defaultPermissions with
    | .absent => { mapping with defaultPermissions := .legacy fullAccessMap }
    | .grid perms =>
      if perms.rows = [] then { mapping with defaultPermissions := .legacy fullAccessMap } else mapping
    | .malformed | .legacy _ => mapping

/-- Only the admin's own map is written. -/
theorem materialiseUser_eq (decides : Bool) (user : Account) :
    ∃ perms, materialiseUser decides user = { user with permissions := perms } := by
  unfold materialiseUser
  split
  · exact ⟨_, rfl⟩
  · split
    · exact ⟨_, rfl⟩
    · split
      · exact ⟨_, rfl⟩
      · exact ⟨_, rfl⟩

theorem materialiseUser_id (decides : Bool) (user : Account) :
    (materialiseUser decides user).id = user.id := by
  obtain ⟨perms, h⟩ := materialiseUser_eq decides user
  rw [h]

theorem materialiseMapping_toGroupMapping (mapping : Mapping) :
    (materialiseMapping mapping).toGroupMapping = mapping.toGroupMapping := by
  unfold materialiseMapping
  split
  · rfl
  · split
    · rfl
    · split <;> rfl
    · rfl
    · rfl

theorem materialiseMapping_group (mapping : Mapping) :
    (materialiseMapping mapping).entraGroupId = mapping.entraGroupId :=
  congrArg GroupMapping.entraGroupId (materialiseMapping_toGroupMapping mapping)

def materialiseEmptyPermissionMaps (envGroups : List String) (s : Store) : Store :=
  if s.migrated then s
  else { s with
    users := s.users.map (materialiseUser (groupsDecide envGroups s.mappings.rows))
      (materialiseUser_id _)
    mappings := s.mappings.map materialiseMapping materialiseMapping_group
    migrated := true }

/-! ### The sign-in -/

def matched (mappings : List Mapping) (groups : List String) : List Mapping :=
  mappings.filter fun mapping => mapping.entraGroupId ∈ groups

def roleMaps (roles : RoleTable) (mappings : List Mapping) : List PermissionMap :=
  (roles.rows.filter fun role =>
    mappings.any fun mapping => isSet mapping.roleId && mapping.roleId = some role.id).map
      AccessRole.permissions

def gridMap (mapping : Mapping) : Option PermissionMap :=
  match mapping.defaultPermissions with
  | .grid perms => some perms
  | _ => none

def legacyMap (mapping : Mapping) : Option PermissionMap :=
  match mapping.defaultPermissions with
  | .legacy perms => some perms
  | _ => none

/-- `session_perms`. -/
def sessionPerms (roles : RoleTable) (mappings : List Mapping) : PermissionMap :=
  mergePermissionMaps (roleMaps roles mappings ++ mappings.filterMap gridMap)

/-- `matched_session_permissions` and `legacy_full`, empty for `None`. -/
structure Conferred where
  session : PermissionMap
  legacy : PermissionMap

/-- What the groups confer; `none` for `not_authorized`. -/
def conferred (envGroups : List String) (s : Store) (groups : List String) : Option Conferred :=
  if !s.mappings.rows.isEmpty then
    let mappings := matched s.mappings.rows groups
    let session := sessionPerms s.roles mappings
    if mappings.isEmpty then none
    else some {
      session
      legacy := if session.rows = [] then mergePermissionMaps (mappings.filterMap legacyMap)
        else .empty }
  else if !envGroups.isEmpty then
    let hits := envGroups.filter (· ∈ groups)
    if hits.isEmpty then none
    else some ⟨.empty, mergePermissionMaps (hits.map fun _ => fullAccessMap)⟩
  else some ⟨.empty, .empty⟩

/-- `_session_grant`. -/
def sessionGrant (given : Conferred) (user : Account) : PermissionMap :=
  if given.session.rows ≠ [] then given.session
  else if given.legacy.rows ≠ [] ∧ user.permissions.rows = [] ∧ isSet user.roleId = false then
    given.legacy
  else .empty

/-- The sign-in of the user that was found, as far as permissions depend on it. -/
def completeOauthLogin (envGroups : List String) (s : Store) (groups : List String) (provider : String)
    (user : Account) : Option Account :=
  (conferred envGroups s groups).bind fun given =>
    if user.isServiceAccount || !user.isActive then none
    else some { user with
      authProvider := some provider
      sessionPermissions := sessionGrant given user }

/-! ### The two rules -/

/-- The rule before: an empty effective map means unrestricted. -/
def hadPermission (user : User) (scope level : String) : Bool :=
  user.isEffectiveAdmin || user.effectivePermissions.rows.isEmpty ||
    user.effectivePermissions.has scope level

/-- A level of the catalogue that need not be granted explicitly. -/
def Ordinary (scope level : String) : Prop :=
  ∃ levels, (scope, levels) ∈ permissionScopeLevels ∧ level ∈ levels ∧
    level ∉ (levelsOf explicitOnlyLevels scope).getD []

/-! ### Merging -/

section Merging
variable {out : PermissionMap} {item : String × Grant} {items : List (String × Grant)}
  {scope level : String}

theorem get_put (perms : PermissionMap) (key : String) (grant : Grant) (scope : String) :
    PermissionMap.get (perms.put (key, grant)) scope =
      if scope = key then some grant else perms.get scope := by
  unfold PermissionMap.get
  rw [Table.lookup_put]
  split <;> rfl

theorem get_mergeItem_of_ne (h : scope ≠ item.1) : (mergeItem out item).get scope = out.get scope := by
  unfold mergeItem
  split
  · rw [get_put, if_neg h]
  · split <;> rw [get_put, if_neg h]

theorem get_foldl_of_not_mem (h : scope ∉ items.map Prod.fst) :
    (items.foldl mergeItem out).get scope = out.get scope := by
  induction items generalizing out with
  | nil => rfl
  | cons item items ih =>
    rw [List.map_cons, List.mem_cons, not_or] at h
    rw [List.foldl_cons, ih h.2, get_mergeItem_of_ne h.1]

theorem has_of_get {perms perms' : PermissionMap} (h : perms.get scope = perms'.get scope) :
    perms.has scope level = perms'.has scope level := by
  unfold PermissionMap.has
  rw [h]

theorem has_mergeItem_self {names : List String} (hscope : scope ≠ "is_admin")
    (hlevel : level ∈ names) :
    (mergeItem out (scope, .levels names)).has scope level = true := by
  have hmerged : ∃ merged, (mergeItem out (scope, .levels names)).get scope = some (.levels merged) ∧
      level ∈ merged := by
    unfold mergeItem
    rw [if_neg hscope]
    split
    next names' existing heq hget =>
      obtain rfl := Grant.levels.inj heq
      refine ⟨sortedSet (existing ++ names), ?_, by simp [hlevel]⟩
      rw [get_put, if_pos rfl]
    next names' heq hget =>
      obtain rfl := Grant.levels.inj heq
      refine ⟨sortedSet names, ?_, by simp [hlevel]⟩
      rw [get_put, if_pos rfl]
    next value heq => cases heq
  obtain ⟨merged, hget, hmem⟩ := hmerged
  unfold PermissionMap.has
  rw [hget]
  exact decide_eq_true hmem

/-- What a map grants is granted by whatever it is merged into. -/
theorem has_foldl (hnodup : (items.map Prod.fst).Nodup) {names : List String}
    (hmem : (scope, Grant.levels names) ∈ items) (hlevel : level ∈ names)
    (hscope : scope ≠ "is_admin") :
    (items.foldl mergeItem out).has scope level = true := by
  induction items generalizing out with
  | nil => cases hmem
  | cons item items ih =>
    rw [List.map_cons, List.nodup_cons] at hnodup
    rw [List.foldl_cons]
    rcases List.mem_cons.mp hmem with rfl | hrest
    · rw [has_of_get (get_foldl_of_not_mem hnodup.1)]
      exact has_mergeItem_self hscope hlevel
    · exact ih hnodup.2 hrest

theorem rows_put_ne_nil (perms : PermissionMap) (row : String × Grant) : (perms.put row).rows ≠ [] := by
  have hmem : row ∈ (perms.put row).rows := Table.mem_put.mpr (.inl rfl)
  exact List.ne_nil_of_mem hmem

theorem mergeItem_ne_nil : (mergeItem out item).rows ≠ [] := by
  unfold mergeItem
  split
  · exact rows_put_ne_nil _ _
  · split <;> exact rows_put_ne_nil _ _

theorem foldl_mergeItem_eq_nil :
    (items.foldl mergeItem out).rows = [] ↔ items = [] ∧ out.rows = [] := by
  induction items generalizing out with
  | nil => simp
  | cons item items ih =>
    rw [List.foldl_cons, ih]
    simp [mergeItem_ne_nil]

variable {maps : List PermissionMap}

theorem mergePermissionMaps_eq_nil :
    (mergePermissionMaps maps).rows = [] ↔ ∀ perms ∈ maps, perms.rows = [] := by
  suffices h : ∀ out : PermissionMap,
      (maps.foldl (fun out src => src.rows.foldl mergeItem out) out).rows = [] ↔
        out.rows = [] ∧ ∀ perms ∈ maps, perms.rows = [] by
    rw [mergePermissionMaps, h]
    simp [Table.empty]
  intro out
  induction maps generalizing out with
  | nil => simp
  | cons perms maps ih =>
    rw [List.foldl_cons, ih, foldl_mergeItem_eq_nil, List.forall_mem_cons]
    tauto

/-- Empty maps add nothing. -/
theorem foldl_empty (h : ∀ perms ∈ maps, perms.rows = []) (out : PermissionMap) :
    maps.foldl (fun out src => src.rows.foldl mergeItem out) out = out := by
  induction maps generalizing out with
  | nil => rfl
  | cons perms maps ih =>
    rw [List.forall_mem_cons] at h
    rw [List.foldl_cons, h.1, List.foldl_nil, ih h.2]

theorem mergePermissionMaps_filter :
    mergePermissionMaps (maps.filter fun perms => perms.rows ≠ []) = mergePermissionMaps maps := by
  suffices h : ∀ out : PermissionMap,
      (maps.filter fun perms => perms.rows ≠ []).foldl (fun out src => src.rows.foldl mergeItem out)
        out = maps.foldl (fun out src => src.rows.foldl mergeItem out) out from h .empty
  intro out
  induction maps generalizing out with
  | nil => rfl
  | cons perms maps ih =>
    rw [List.filter_cons, List.foldl_cons]
    by_cases hrows : perms.rows = []
    · rw [if_neg (by simp [hrows]), ih, hrows, List.foldl_nil]
    · rw [if_pos (by simp [hrows]), List.foldl_cons, ih]

/-- A map that stands alone among empty ones grants what it says. -/
theorem has_alone (front : List PermissionMap) {back : List PermissionMap} {perms : PermissionMap}
    (hback : ∀ other ∈ back, other.rows = []) (hhas : perms.has scope level = true)
    (hscope : scope ≠ "is_admin") :
    (mergePermissionMaps (front ++ perms :: back)).has scope level = true := by
  obtain ⟨names, hlookup, hlevel⟩ := has_eq_true.mp hhas
  obtain ⟨hmem, -⟩ := Table.lookup_eq_some.mp hlookup
  rw [mergePermissionMaps, List.foldl_append, List.foldl_cons, foldl_empty hback]
  exact has_foldl perms.nodup hmem hlevel hscope

end Merging

/-! ### Full access -/

/-- Every ordinary level, and not the flag. -/
structure Full (perms : PermissionMap) : Prop where
  has : ∀ scope level, Ordinary scope level → perms.has scope level = true
  flag : confersAdmin perms = false

theorem Ordinary.ne_admin {scope level : String} (h : Ordinary scope level) : scope ≠ "is_admin" := by
  rintro rfl
  obtain ⟨levels, hmem, -⟩ := h
  have hnone : ∀ item ∈ permissionScopeLevels, item.1 ≠ "is_admin" := by decide +kernel
  exact hnone _ hmem rfl

theorem full_fullAccessMap : Full fullAccessMap := by
  constructor
  · rintro scope level ⟨levels, hmem, hlevel, hordinary⟩
    have hall : ∀ item ∈ permissionScopeLevels, ∀ level ∈ item.2,
        level ∉ (levelsOf explicitOnlyLevels item.1).getD [] →
          fullAccessMap.has item.1 level = true := by
      decide +kernel
    exact hall _ hmem level hlevel hordinary
  · decide +kernel

/-- Merged with itself, as often as mappings were matched. -/
theorem full_copies {maps : List PermissionMap} (h : ∀ perms ∈ maps, perms = fullAccessMap)
    (hne : maps ≠ []) : Full (mergePermissionMaps maps) := by
  have hkeys : "is_admin" ∉ fullAccessMap.rows.map Prod.fst := by decide +kernel
  rcases List.eq_nil_or_concat' maps with rfl | ⟨front, last, rfl⟩
  · exact absurd rfl hne
  have hlast : last = fullAccessMap := h last (by simp)
  constructor
  · intro scope level hordinary
    rw [hlast]
    exact has_alone front (List.forall_mem_nil _) (full_fullAccessMap.has scope level hordinary)
      hordinary.ne_admin
  · have hget : ∀ out : PermissionMap, PermissionMap.get ((front ++ [last]).foldl
        (fun out src => src.rows.foldl mergeItem out) out) "is_admin" = out.get "is_admin" := by
      generalize front ++ [last] = copies at h
      induction copies with
      | nil => exact fun out => rfl
      | cons perms copies ih =>
        intro out
        rw [List.forall_mem_cons] at h
        rw [List.foldl_cons, ih h.2, h.1, get_foldl_of_not_mem hkeys]
    unfold confersAdmin
    rw [mergePermissionMaps, hget]
    rfl

end Roles
