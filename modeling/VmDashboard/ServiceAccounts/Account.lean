import Mathlib.Data.List.Dedup
import Mathlib.Data.List.Sort
import VmDashboard.Machine.Table
import VmDashboard.Python.Text

/-!
# Accounts and the permissions they hold

`database/rbac.py` and the permission properties of `database/models/identity.py`. A permission map
is what `validate_permissions_payload` lets through: lists of levels, and the flag `is_admin`.
-/

namespace ServiceAccounts
open Machine (Table)

/-! ### Permission maps -/

inductive Grant where
  | levels (names : List String)
  | flag (value : Bool)
  deriving DecidableEq

/-- `bool(val)`. -/
def Grant.truthy : Grant → Bool
  | .levels names => !names.isEmpty
  | .flag value => value

abbrev PermissionMap := Table (Prod.fst : String × Grant → String)

def PermissionMap.get (perms : PermissionMap) (scope : String) : Option Grant :=
  (perms.lookup scope).map Prod.snd

/-- `sorted` of a set. -/
def sortedSet (names : List String) : List String := names.dedup.insertionSort (· ≤ ·)

@[simp] theorem mem_sortedSet {names : List String} {name : String} :
    name ∈ sortedSet names ↔ name ∈ names := by
  rw [sortedSet, List.mem_insertionSort, List.mem_dedup]

/-- One item of a map merged into what the earlier maps gave. -/
def mergeItem (out : PermissionMap) (item : String × Grant) : PermissionMap :=
  if item.1 = "is_admin" then
    out.put (item.1, .flag ((out.get item.1).any Grant.truthy || item.2.truthy))
  else
    match item.2, out.get item.1 with
    | .levels names, some (.levels existing) =>
      out.put (item.1, .levels (sortedSet (existing ++ names)))
    | .levels names, _ => out.put (item.1, .levels (sortedSet names))
    | .flag value, _ => out.put (item.1, .flag value)

def mergePermissionMaps (maps : List PermissionMap) : PermissionMap :=
  maps.foldl (fun out src => src.rows.foldl mergeItem out) .empty

def roleUnresolved : PermissionMap := ⟨[("__role_unresolved__", .levels [])], List.nodup_singleton _⟩

/-- `{scope: [levels]}` of a token. -/
abbrev TokenScope := Table (Prod.fst : String × List String → String)

/-- `token_scope.get(key, [])`. -/
def TokenScope.allowed (scope : TokenScope) (key : String) : List String :=
  ((scope.lookup key).map Prod.snd).getD []

def narrowed (scope : TokenScope) (item : String × Grant) : String × Grant :=
  match item.2 with
  | .levels names =>
    (item.1, .levels ((names.insertionSort (· ≤ ·)).filter (· ∈ scope.allowed item.1)))
  | .flag _ => item

theorem narrowed_fst (scope : TokenScope) (item : String × Grant) :
    (narrowed scope item).1 = item.1 := by
  unfold narrowed
  split <;> rfl

/-- The items that a narrowing keeps. -/
def narrows (item : String × Grant) : Bool :=
  match item.2 with
  | .levels _ => item.1 ≠ "is_admin"
  | .flag _ => false

def narrowToTokenScope (perms : PermissionMap) : Option TokenScope → PermissionMap
  | none => perms
  | some scope =>
    let out := (perms.filter narrows).map (narrowed scope) (narrowed_fst scope)
    if out.rows = [] then roleUnresolved else out

/-! ### Accounts -/

/-- `tokenScope` is the attribute that a workload token puts on the instance of a request. -/
structure User where
  id : String
  username : String
  isActive : Bool
  isAdmin : Bool
  isServiceAccount : Bool
  roleId : Option String
  permissions : PermissionMap
  sessionPermissions : PermissionMap
  jitPermissions : PermissionMap
  rolePermissions : PermissionMap
  tokenScope : Option TokenScope

def User.effectivePermissions (user : User) : PermissionMap :=
  if user.permissions.rows = [] ∧ user.sessionPermissions.rows = [] ∧
      user.jitPermissions.rows = [] ∧ user.rolePermissions.rows = [] then
    if user.roleId.any (· ≠ "") || user.isServiceAccount then roleUnresolved else .empty
  else
    narrowToTokenScope (mergePermissionMaps
      [user.rolePermissions, user.permissions, user.sessionPermissions, user.jitPermissions])
      user.tokenScope

/-- `bool(perms.get("is_admin", False))`. -/
def confersAdmin (perms : PermissionMap) : Bool := (perms.get "is_admin").any Grant.truthy

def User.isEffectiveAdmin (user : User) : Bool :=
  if user.isServiceAccount then false
  else user.isAdmin || confersAdmin user.sessionPermissions || confersAdmin user.jitPermissions ||
    confersAdmin user.rolePermissions

/-- `level in perms.get(scope, [])`. A flag is no list and the test raises. -/
def PermissionMap.has (perms : PermissionMap) (scope level : String) : Bool :=
  match perms.get scope with
  | some (.levels names) => level ∈ names
  | _ => false

def hasPermission (user : User) (scope level : String) : Bool :=
  user.isEffectiveAdmin || user.effectivePermissions.has scope level

/-- Why this row cannot hold an OAuth client. -/
def serviceAccountProblem : Option User → Option String
  | none => some "No such service account."
  | some user =>
    if !user.isServiceAccount then
      some (Python.reprText user.username ++ " is a person's account. OAuth clients belong to " ++
        "service accounts only -- create one under Users → Service accounts.")
    else if !user.isActive then some (Python.reprText user.username ++ " is disabled.")
    else none

theorem serviceAccountProblem_eq_none {user : User} (h : serviceAccountProblem (some user) = none) :
    user.isServiceAccount = true ∧ user.isActive = true := by
  unfold serviceAccountProblem at h
  split at h
  · cases h
  · split at h
    · cases h
    · simp_all

/-! ### What narrowing does -/

theorem has_roleUnresolved (scope level : String) : roleUnresolved.has scope level = false := by
  have hget : roleUnresolved.get scope = none ∨ roleUnresolved.get scope = some (.levels []) := by
    by_cases h : "__role_unresolved__" = scope
    · exact .inr (by simp [PermissionMap.get, Table.lookup, roleUnresolved, h])
    · exact .inl (by simp [PermissionMap.get, Table.lookup, roleUnresolved, h])
  unfold PermissionMap.has
  rcases hget with h | h <;> simp [h]

theorem has_eq_true {perms : PermissionMap} {scope level : String} :
    perms.has scope level = true ↔
      ∃ names, perms.lookup scope = some (scope, .levels names) ∧ level ∈ names := by
  unfold PermissionMap.has PermissionMap.get
  cases hlookup : perms.lookup scope with
  | none => simp
  | some item =>
    have hkey : item.1 = scope := Table.lookup_key hlookup
    obtain ⟨key, grant⟩ := item
    subst hkey
    cases grant <;> simp

/-! A merged map has a flag, if anything, under `is_admin`. -/

theorem has_put_of_ne (perms : PermissionMap) {key scope : String} (h : scope ≠ key) (grant : Grant)
    (level : String) : PermissionMap.has (perms.put (key, grant)) scope level =
      perms.has scope level := by
  unfold PermissionMap.has PermissionMap.get
  rw [Table.lookup_put, if_neg h]

theorem has_put_flag (perms : PermissionMap) (scope : String) (value : Bool) (level : String) :
    PermissionMap.has (perms.put (scope, .flag value)) scope level = false := by
  unfold PermissionMap.has PermissionMap.get
  rw [Table.lookup_put, if_pos rfl]
  rfl

theorem has_mergeItem {out : PermissionMap} {item : String × Grant} {level : String}
    (h : out.has "is_admin" level = false) : (mergeItem out item).has "is_admin" level = false := by
  unfold mergeItem
  split
  next hkey =>
    rw [hkey]
    exact has_put_flag _ _ _ _
  next hkey =>
    split
    all_goals
      rw [has_put_of_ne out (Ne.symm hkey)]
      exact h

theorem has_mergeItems {out : PermissionMap} {level : String} (items : List (String × Grant))
    (h : out.has "is_admin" level = false) :
    (items.foldl mergeItem out).has "is_admin" level = false := by
  induction items generalizing out with
  | nil => exact h
  | cons item items ih => exact ih (has_mergeItem h)

theorem has_mergePermissionMaps (maps : List PermissionMap) (level : String) :
    (mergePermissionMaps maps).has "is_admin" level = false := by
  suffices ∀ out : PermissionMap, out.has "is_admin" level = false →
      (maps.foldl (fun out src => src.rows.foldl mergeItem out) out).has "is_admin" level = false from
    this .empty rfl
  induction maps with
  | nil => exact fun out h => h
  | cons src maps ih => exact fun out h => ih _ (has_mergeItems src.rows h)

/-- The intersection, scope by scope. -/
theorem has_narrowToTokenScope {perms : PermissionMap} {token : TokenScope} {scope level : String}
    (hadmin : perms.has "is_admin" level = false) :
    (narrowToTokenScope perms (some token)).has scope level = true ↔
      perms.has scope level = true ∧ level ∈ token.allowed scope := by
  have hout : PermissionMap.has ((perms.filter narrows).map (narrowed token) (narrowed_fst token))
      scope level = true ↔ perms.has scope level = true ∧ level ∈ token.allowed scope := by
    simp only [has_eq_true]
    constructor
    · rintro ⟨names, hlookup, hlevel⟩
      obtain ⟨hmem, hkey⟩ := Table.lookup_eq_some.mp hlookup
      obtain ⟨item, hitem, heq⟩ := List.mem_map.mp hmem
      obtain ⟨hold, hkept⟩ := List.mem_filter.mp hitem
      have hfst : item.1 = scope := (narrowed_fst token item).symm.trans (congrArg Prod.fst heq)
      obtain ⟨key, grant⟩ := item
      obtain rfl : key = scope := hfst
      cases grant with
      | flag value => cases hkept
      | levels held =>
        simp only [narrowed, Prod.mk.injEq, Grant.levels.injEq, true_and] at heq
        subst heq
        obtain ⟨hheld, hallowed⟩ := List.mem_filter.mp hlevel
        rw [List.mem_insertionSort] at hheld
        exact ⟨⟨held, Table.lookup_eq_some.mpr ⟨hold, rfl⟩, hheld⟩, of_decide_eq_true hallowed⟩
    · rintro ⟨⟨held, hlookup, hheld⟩, hallowed⟩
      have hscope : scope ≠ "is_admin" := by
        rintro rfl
        rw [has_eq_true.mpr ⟨held, hlookup, hheld⟩] at hadmin
        cases hadmin
      have hkept : narrows (scope, .levels held) = true := decide_eq_true hscope
      refine ⟨_, Table.lookup_map (narrowed_fst token)
        (Table.lookup_filter_of_some hlookup hkept), ?_⟩
      rw [List.mem_filter, List.mem_insertionSort]
      exact ⟨hheld, decide_eq_true hallowed⟩
  simp only [narrowToTokenScope]
  split
  next hempty =>
    rw [has_roleUnresolved]
    refine iff_of_false Bool.false_ne_true fun h => ?_
    obtain ⟨names, hlookup, -⟩ := has_eq_true.mp (hout.mpr h)
    have hmem := (Table.lookup_eq_some.mp hlookup).1
    rw [hempty] at hmem
    cases hmem
  next => exact hout

end ServiceAccounts
