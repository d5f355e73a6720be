import VmDashboard.Roles.EmptyMaps

/-!
# Access before and after the migration

Who was unrestricted by an empty map has full access written out, at once or at the next sign-in, and
everyone else is left as they were.
-/

namespace Roles
open Machine (Table)
open ServiceAccounts

/-- What the store says before the migration: role ids and maps are not empty, the copies and the
mappings refer to stored roles, a stored row carries no token scope, and no mapping has the tag that
only the migration writes. -/
structure Sound (s : Store) : Prop where
  roles : ∀ role ∈ s.roles.rows, role.id ≠ "" ∧ role.permissions.rows ≠ []
  copies : ∀ user ∈ s.users.rows, Carries s.roles user
  tokens : ∀ user ∈ s.users.rows, user.tokenScope = none
  refers : ∀ mapping ∈ s.mappings.rows, Refers s.roles mapping.toGroupMapping
  untagged : ∀ mapping ∈ s.mappings.rows, ∀ perms, mapping.defaultPermissions ≠ .legacy perms

/-- A person who holds nothing but a just-in-time grant. -/
structure JitAlone (user : Account) : Prop where
  jit : user.jitPermissions.rows ≠ []
  permissions : user.permissions.rows = []
  session : user.sessionPermissions.rows = []
  copy : user.rolePermissions.rows = []
  role : isSet user.roleId = false
  person : user.isServiceAccount = false
  plain : user.isEffectiveAdmin = false

/-- A mapping that grants by its role or says what it grants. -/
def Readable (mapping : Mapping) : Prop :=
  isSet mapping.roleId = true ∨ mapping.defaultPermissions ≠ .malformed

/-! ### Effective maps -/

section Effective
variable {user : User} {scope level : String}

theorem effective_eq_nil (htoken : user.tokenScope = none) :
    user.effectivePermissions.rows = [] ↔ user.permissions.rows = [] ∧
      user.sessionPermissions.rows = [] ∧ user.jitPermissions.rows = [] ∧
      user.rolePermissions.rows = [] ∧ isSet user.roleId = false ∧ user.isServiceAccount = false := by
  unfold User.effectivePermissions
  split
  next hempty =>
    obtain ⟨hperms, hsession, hjit, hcopy⟩ := hempty
    split
    next hstrict =>
      have hrole : ¬(isSet user.roleId = false ∧ user.isServiceAccount = false) := by
        rintro ⟨hrole, hservice⟩
        rw [Bool.or_eq_true] at hstrict
        rcases hstrict with h | h
        · exact absurd (hrole.symm.trans h) Bool.false_ne_true
        · exact absurd (hservice.symm.trans h) Bool.false_ne_true
      constructor
      · intro h
        cases h
      · rintro ⟨-, -, -, -, hrest⟩
        exact absurd hrest hrole
    next hlax =>
      rw [Bool.or_eq_true, not_or, Bool.not_eq_true, Bool.not_eq_true] at hlax
      exact iff_of_true rfl ⟨hperms, hsession, hjit, hcopy, hlax⟩
  next hsome =>
    rw [htoken, narrowToTokenScope, mergePermissionMaps_eq_nil]
    constructor
    · intro h
      simp only [List.forall_mem_cons] at h
      exact absurd ⟨h.2.1, h.2.2.1, h.2.2.2.1, h.1⟩ hsome
    · rintro ⟨hperms, hsession, hjit, hcopy, -⟩
      exact absurd ⟨hperms, hsession, hjit, hcopy⟩ hsome

theorem hasPermission_of_admin (h : user.isEffectiveAdmin = true) :
    hasPermission user scope level = true := by
  unfold hasPermission
  rw [h, Bool.true_or]

/-- Where the map was not empty, or was not asked for, the two rules agree. -/
theorem hadPermission_eq (h : user.isEffectiveAdmin = true ∨ user.effectivePermissions.rows ≠ []) :
    hasPermission user scope level = hadPermission user scope level := by
  unfold hasPermission hadPermission
  rcases h with hadmin | hrows
  · rw [hadmin]
    rfl
  · rw [List.isEmpty_eq_false_iff.mpr hrows, Bool.or_false]

theorem hadPermission_of_nil (h : user.effectivePermissions.rows = []) :
    hadPermission user scope level = true := by
  unfold hadPermission
  rw [h]
  simp

theorem vms_read_ordinary : Ordinary "vms" "read" :=
  ⟨["read", "write"], by decide, by decide, by decide⟩

theorem Full.rows_ne_nil {perms : PermissionMap} (h : Full perms) : perms.rows ≠ [] := by
  obtain ⟨names, hlookup, -⟩ := has_eq_true.mp (h.has "vms" "read" vms_read_ordinary)
  exact List.ne_nil_of_mem (Table.lookup_eq_some.mp hlookup).1

theorem hasPermission_of_permissions (htoken : user.tokenScope = none) (hfull : Full user.permissions)
    (hsession : user.sessionPermissions.rows = []) (hjit : user.jitPermissions.rows = [])
    (hordinary : Ordinary scope level) : hasPermission user scope level = true := by
  have hne : ¬(user.permissions.rows = [] ∧ user.sessionPermissions.rows = [] ∧
      user.jitPermissions.rows = [] ∧ user.rolePermissions.rows = []) :=
    fun h => hfull.rows_ne_nil h.1
  have hback : ∀ other ∈ [user.sessionPermissions, user.jitPermissions], other.rows = [] := by
    simp [hsession, hjit]
  have hhas := has_alone [user.rolePermissions] hback (hfull.has scope level hordinary)
    hordinary.ne_admin
  unfold hasPermission User.effectivePermissions
  rw [if_neg hne, htoken, Bool.or_eq_true]
  exact .inr hhas

theorem hasPermission_of_session (htoken : user.tokenScope = none)
    (hfull : Full user.sessionPermissions) (hjit : user.jitPermissions.rows = [])
    (hordinary : Ordinary scope level) : hasPermission user scope level = true := by
  have hne : ¬(user.permissions.rows = [] ∧ user.sessionPermissions.rows = [] ∧
      user.jitPermissions.rows = [] ∧ user.rolePermissions.rows = []) :=
    fun h => hfull.rows_ne_nil h.2.1
  have hback : ∀ other ∈ [user.jitPermissions], other.rows = [] := by simp [hjit]
  have hhas := has_alone [user.rolePermissions, user.permissions] hback
    (hfull.has scope level hordinary) hordinary.ne_admin
  unfold hasPermission User.effectivePermissions
  rw [if_neg hne, htoken, Bool.or_eq_true]
  exact .inr hhas

end Effective

/-! ### Right after the migration -/

section Migration
variable {s : Store} {user : Account} {decides : Bool} {scope level : String}

theorem isEffectiveAdmin_of_isAdmin (hadmin : user.isAdmin = true)
    (hservice : user.isServiceAccount = false) : user.isEffectiveAdmin = true := by
  unfold User.isEffectiveAdmin
  simp [hadmin, hservice]

theorem materialiseUser_isEffectiveAdmin (decides : Bool) (user : Account) :
    (materialiseUser decides user).isEffectiveAdmin = user.isEffectiveAdmin := by
  obtain ⟨perms, h⟩ := materialiseUser_eq decides user
  rw [h]
  rfl

/-- Something other than a just-in-time grant stands on the row. -/
def Held (user : Account) : Prop :=
  user.permissions.rows ≠ [] ∨ user.sessionPermissions.rows ≠ [] ∨ user.rolePermissions.rows ≠ [] ∨
    isSet user.roleId = true ∨ user.isServiceAccount = true

theorem Held.materialiseUser (h : Held user) : materialiseUser decides user = user := by
  unfold Roles.materialiseUser
  split
  · rfl
  next hperson =>
    rw [Bool.not_eq_true, Bool.or_eq_false_iff, Bool.or_eq_false_iff] at hperson
    obtain ⟨⟨-, hservice⟩, hrole⟩ := hperson
    rw [if_pos]
    rcases h with h | h | h | h | h
    · exact .inl h
    · exact .inr (.inl h)
    · exact .inr (.inr h)
    · exact absurd (hrole.symm.trans h) Bool.false_ne_true
    · exact absurd (hservice.symm.trans h) Bool.false_ne_true

theorem Held.effective (h : Held user) (htoken : user.tokenScope = none) :
    user.effectivePermissions.rows ≠ [] := by
  intro hrows
  obtain ⟨hperms, hsession, -, hcopy, hrole, hservice⟩ := (effective_eq_nil htoken).mp hrows
  rcases h with h | h | h | h | h
  · exact h hperms
  · exact h hsession
  · exact h hcopy
  · exact absurd (hrole.symm.trans h) Bool.false_ne_true
  · exact absurd (hservice.symm.trans h) Bool.false_ne_true

/-- A person without the flag and without anything on the row was unrestricted. -/
structure Free (user : Account) : Prop where
  permissions : user.permissions.rows = []
  session : user.sessionPermissions.rows = []
  jit : user.jitPermissions.rows = []
  copy : user.rolePermissions.rows = []
  role : isSet user.roleId = false
  person : user.isServiceAccount = false
  flag : user.isAdmin = false

theorem held_or_free (hadmin : ¬user.isEffectiveAdmin = true) (hjit : ¬JitAlone user) :
    Held user ∨ Free user := by
  by_cases hheld : Held user
  · exact .inl hheld
  simp only [Held, not_or, not_not, Bool.not_eq_true] at hheld
  obtain ⟨hperms, hsession, hcopy, hrole, hservice⟩ := hheld
  have hflag : user.isAdmin = false :=
    Bool.eq_false_iff.mpr fun h => hadmin (isEffectiveAdmin_of_isAdmin h hservice)
  refine .inr ⟨hperms, hsession, ?_, hcopy, hrole, hservice, hflag⟩
  by_contra hrows
  exact hjit ⟨hrows, hperms, hsession, hcopy, hrole, hservice, Bool.eq_false_iff.mpr hadmin⟩

theorem Free.effective (h : Free user) (htoken : user.tokenScope = none) :
    user.effectivePermissions.rows = [] :=
  (effective_eq_nil htoken).mpr ⟨h.permissions, h.session, h.jit, h.copy, h.role, h.person⟩

theorem Free.materialiseUser (h : Free user) (haccessor : isSet user.accessorEnvId = false) :
    materialiseUser decides user =
      if decides && !isLocal user then user else { user with permissions := fullAccessMap } := by
  unfold Roles.materialiseUser
  rw [if_neg (by simp [h.flag, haccessor, h.person, h.role]),
    if_neg (by simp [h.permissions, h.session, h.copy])]

/-- Who had nothing at all was unrestricted, and has full access now. -/
theorem materialised_keeps (htoken : user.tokenScope = none)
    (haccessor : isSet user.accessorEnvId = false) (hjit : ¬JitAlone user)
    (hplace : decides = false ∨ isLocal user = true) (hordinary : Ordinary scope level) :
    hasPermission (materialiseUser decides user).toUser scope level =
      hadPermission user.toUser scope level := by
  by_cases hadmin : user.isEffectiveAdmin = true
  · rw [← hadPermission_eq (.inl hadmin), hasPermission_of_admin hadmin]
    exact hasPermission_of_admin ((materialiseUser_isEffectiveAdmin decides user).trans hadmin)
  rcases held_or_free hadmin hjit with hheld | hfree
  · rw [← hadPermission_eq (.inr (hheld.effective htoken)), hheld.materialiseUser]
  · have hskip : ¬(decides && !isLocal user) = true := by
      rcases hplace with h | h <;> simp [h]
    rw [hadPermission_of_nil (hfree.effective htoken), hfree.materialiseUser haccessor, if_neg hskip]
    exact hasPermission_of_permissions htoken full_fullAccessMap hfree.session hfree.jit hordinary

end Migration

/-! ### After the next sign-in -/

section SignIn
variable {s : Store} {mappings : List Mapping} {envGroups groups : List String}

theorem matched_materialise (mappings : List Mapping) (groups : List String) :
    matched (mappings.map materialiseMapping) groups =
      (matched mappings groups).map materialiseMapping := by
  unfold matched
  rw [List.filter_map]
  congr 1
  refine List.filter_congr fun mapping _ => ?_
  rw [Function.comp_apply, materialiseMapping_group]

theorem roleMaps_materialise (roles : RoleTable) (mappings : List Mapping) :
    roleMaps roles (mappings.map materialiseMapping) = roleMaps roles mappings := by
  unfold roleMaps
  congr 1
  refine List.filter_congr fun role _ => ?_
  rw [List.any_map]
  congr 1
  funext mapping
  rw [Function.comp_apply, materialiseMapping_toGroupMapping]

/-- A mapping that is rewritten had given nothing. -/
theorem gridMap_materialise (mapping : Mapping) :
    (gridMap (materialiseMapping mapping)).filter (fun perms => perms.rows ≠ []) =
      (gridMap mapping).filter fun perms => perms.rows ≠ [] := by
  unfold materialiseMapping
  split
  · rfl
  · split
    next hdefaults => simp [gridMap, hdefaults]
    next perms hdefaults =>
      split
      next hrows => simp [gridMap, hdefaults, Option.filter, hrows]
      next => rfl
    next => rfl
    next => rfl

theorem filterMap_gridMap_materialise (mappings : List Mapping) :
    ((mappings.map materialiseMapping).filterMap gridMap).filter (fun perms => perms.rows ≠ []) =
      (mappings.filterMap gridMap).filter fun perms => perms.rows ≠ [] := by
  rw [List.filter_filterMap, List.filter_filterMap, List.filterMap_map]
  congr 1
  funext mapping
  exact gridMap_materialise mapping

theorem sessionPerms_materialise (roles : RoleTable) (mappings : List Mapping) :
    sessionPerms roles (mappings.map materialiseMapping) = sessionPerms roles mappings := by
  unfold sessionPerms
  rw [← mergePermissionMaps_filter, List.filter_append, filterMap_gridMap_materialise,
    roleMaps_materialise, ← List.filter_append, mergePermissionMaps_filter]

/-- A mapping that gives nothing and can be read stood for full access. -/
theorem legacyMap_materialise {mapping : Mapping} (hs : Sound s) (hmem : mapping ∈ s.mappings.rows)
    (hrole : isSet mapping.roleId = false) (hgrid : ∀ perms ∈ gridMap mapping, perms.rows = [])
    (hread : Readable mapping) : legacyMap (materialiseMapping mapping) = some fullAccessMap := by
  unfold materialiseMapping
  rw [if_neg (by simp [hrole])]
  split
  next hdefaults => rfl
  next perms hdefaults =>
    have hrows : perms.rows = [] := hgrid perms (by simp [gridMap, hdefaults])
    rw [if_pos hrows]
    rfl
  next hdefaults =>
    rcases hread with h | h
    · exact absurd (hrole.symm.trans h) Bool.false_ne_true
    · exact absurd hdefaults h
  next perms hdefaults => exact absurd hdefaults (hs.untagged mapping hmem perms)

/-- A role that a matched mapping confers is among the maps that are merged. -/
theorem mem_roleMaps {mapping : Mapping} (hs : Sound s)
    (hmem : mapping ∈ matched s.mappings.rows groups) (hrole : isSet mapping.roleId = true) :
    ∃ perms ∈ roleMaps s.roles (matched s.mappings.rows groups), perms.rows ≠ [] := by
  obtain ⟨id, hid⟩ : ∃ id, mapping.roleId = some id := by
    cases hid : mapping.roleId with
    | none =>
      rw [isSet, hid] at hrole
      cases hrole
    | some id => exact ⟨id, rfl⟩
  obtain ⟨role, hroleMem, rfl⟩ := hs.refers mapping (List.mem_of_mem_filter hmem) id hid
  refine ⟨role.permissions, List.mem_map_of_mem (List.mem_filter.mpr ⟨hroleMem, ?_⟩),
    (hs.roles role hroleMem).2⟩
  refine List.any_eq_true.mpr ⟨mapping, hmem, ?_⟩
  rw [hrole, hid]
  simp

theorem full_legacy (hs : Sound s)
    (hread : ∀ mapping ∈ matched s.mappings.rows groups, Readable mapping)
    (hempty : (sessionPerms s.roles (matched s.mappings.rows groups)).rows = [])
    (hne : matched s.mappings.rows groups ≠ []) :
    Full (mergePermissionMaps
      (((matched s.mappings.rows groups).map materialiseMapping).filterMap legacyMap)) := by
  have hnone := mergePermissionMaps_eq_nil.mp hempty
  have hcopies : ∀ mapping ∈ matched s.mappings.rows groups,
      legacyMap (materialiseMapping mapping) = some fullAccessMap := by
    intro mapping hmem
    have hrole : isSet mapping.roleId = false := by
      rw [← Bool.not_eq_true]
      intro hset
      obtain ⟨perms, hperms, hrows⟩ := mem_roleMaps hs hmem hset
      exact hrows (hnone perms (List.mem_append_left _ hperms))
    refine legacyMap_materialise hs (List.mem_of_mem_filter hmem) hrole (fun perms hperms => ?_)
      (hread mapping hmem)
    exact hnone perms (List.mem_append_right _ (List.mem_filterMap.mpr ⟨mapping, hmem, hperms⟩))
  apply full_copies
  · intro perms hperms
    obtain ⟨mapping, hmapping, heq⟩ := List.mem_filterMap.mp hperms
    obtain ⟨old, hold, rfl⟩ := List.mem_map.mp hmapping
    rw [hcopies old hold] at heq
    exact (Option.some.inj heq).symm
  · obtain ⟨mapping, hmem⟩ := List.exists_mem_of_ne_nil _ hne
    refine List.ne_nil_of_mem (List.mem_filterMap.mpr ⟨materialiseMapping mapping,
      List.mem_map_of_mem hmem, hcopies mapping hmem⟩)

/-- What the groups confer after the migration: the session map they gave before it, and full access
where that is empty and mappings decide. -/
theorem conferred_spec (hs : Sound s) (hmarker : s.migrated = false)
    (hread : ∀ mapping ∈ matched s.mappings.rows groups, Readable mapping) {given : Conferred}
    (h : conferred envGroups (materialiseEmptyPermissionMaps envGroups s) groups = some given) :
    given.session = sessionPerms s.roles (matched s.mappings.rows groups) ∧
      (given.session.rows = [] → groupsDecide envGroups s.mappings.rows = true →
        Full given.legacy) := by
  have hrows : (materialiseEmptyPermissionMaps envGroups s).mappings.rows =
      s.mappings.rows.map materialiseMapping := by
    rw [materialiseEmptyPermissionMaps, hmarker]
    rfl
  have hroles : (materialiseEmptyPermissionMaps envGroups s).roles = s.roles := by
    rw [materialiseEmptyPermissionMaps, hmarker]
    rfl
  unfold conferred at h
  rw [hrows, hroles, matched_materialise] at h
  dsimp only at h
  rw [sessionPerms_materialise, List.isEmpty_map, List.isEmpty_map] at h
  split at h
  next hsome =>
    split at h
    · cases h
    next hmatched =>
      obtain rfl := Option.some.inj h
      refine ⟨rfl, fun hempty _ => ?_⟩
      have hne : matched s.mappings.rows groups ≠ [] := by simpa using hmatched
      dsimp only at hempty ⊢
      rw [if_pos hempty]
      exact full_legacy hs hread hempty hne
  next hnone =>
    have hempty : s.mappings.rows = [] := by simpa using hnone
    have hsession : sessionPerms s.roles (matched s.mappings.rows groups) = .empty := by
      rw [hempty]
      unfold sessionPerms roleMaps matched
      simp [mergePermissionMaps]
    split at h
    next henv =>
      split at h
      · cases h
      next hhits =>
        obtain rfl := Option.some.inj h
        refine ⟨hsession.symm, fun _ _ => full_copies (fun perms hperms => ?_) ?_⟩
        · obtain ⟨-, -, rfl⟩ := List.mem_map.mp hperms
          rfl
        · simpa using hhits
    next henv =>
      obtain rfl := Option.some.inj h
      refine ⟨hsession.symm, fun _ hdecides => ?_⟩
      have hsilent : groupsDecide envGroups s.mappings.rows = false := by
        rw [groupsDecide, hempty]
        simpa using henv
      exact absurd (hsilent.symm.trans hdecides) Bool.false_ne_true

theorem eq_empty_of_rows {perms : PermissionMap} (h : perms.rows = []) : perms = .empty := by
  obtain ⟨rows, hnodup⟩ := perms
  obtain rfl : rows = [] := h
  rfl

/-- Administrators stay so, whatever becomes of a session map that does not make them one. -/
theorem isEffectiveAdmin_session {user : User} (session : PermissionMap)
    (h : user.isEffectiveAdmin = true) (hempty : user.sessionPermissions.rows = []) :
    ({ user with sessionPermissions := session } : User).isEffectiveAdmin = true := by
  have hconfers : confersAdmin user.sessionPermissions = false := by
    rw [eq_empty_of_rows hempty]
    rfl
  unfold User.isEffectiveAdmin at h ⊢
  rw [hconfers] at h
  split at h
  · cases h
  next hservice =>
    rw [if_neg hservice]
    simp only [Bool.or_eq_true, Bool.false_eq_true, or_false] at h ⊢
    tauto

theorem Carries.copy_empty {user : Account} (hs : Sound s) (huser : user ∈ s.users.rows)
    (hrole : isSet user.roleId = false) : user.rolePermissions.rows = [] := by
  have hcarries := hs.copies user huser
  unfold Carries at hcarries
  split at hcarries
  next => rw [hcarries]; rfl
  next id hid =>
    obtain ⟨role, hroleMem, rfl, -⟩ := hcarries
    rw [isSet, hid] at hrole
    exact absurd (by simpa using hrole) (hs.roles role hroleMem).1

/-- What the sign-in of a person makes of the row. -/
theorem signedIn_keeps {user : Account} {given : Conferred} {decides : Bool} {scope level : String}
    (hs : Sound s) (huser : user ∈ s.users.rows) (haccessor : isSet user.accessorEnvId = false)
    (hjit : ¬JitAlone user) (hperson : user.isServiceAccount = false)
    (hsession : given.session = user.sessionPermissions)
    (hfull : given.session.rows = [] → decides = true → Full given.legacy)
    (hordinary : Ordinary scope level) :
    hasPermission { (materialiseUser decides user).toUser with
      sessionPermissions := sessionGrant given (materialiseUser decides user) } scope level =
        hadPermission user.toUser scope level := by
  have htoken := hs.tokens user huser
  by_cases hrows : given.session.rows = []
  · have hempty : user.sessionPermissions.rows = [] := by rw [← hsession]; exact hrows
    by_cases hadmin : user.isEffectiveAdmin = true
    · rw [← hadPermission_eq (.inl hadmin)]
      obtain ⟨perms, hwritten⟩ := materialiseUser_eq decides user
      have hadmin' : ({ user with permissions := perms } : Account).isEffectiveAdmin = true := hadmin
      rw [hwritten, hasPermission_of_admin hadmin]
      exact hasPermission_of_admin (isEffectiveAdmin_session _ hadmin' hempty)
    rcases held_or_free hadmin hjit with hheld | hfree
    · -- the legacy map stays away from whoever holds something
      have hheldBy : ¬(given.legacy.rows ≠ [] ∧ user.permissions.rows = [] ∧
          isSet user.roleId = false) := by
        rintro ⟨-, hperms, hrole⟩
        rcases hheld with h | h | h | h | h
        · exact h hperms
        · exact h hempty
        · exact h (Carries.copy_empty hs huser hrole)
        · exact absurd (hrole.symm.trans h) Bool.false_ne_true
        · exact absurd (hperson.symm.trans h) Bool.false_ne_true
      have hgrant : sessionGrant given user = user.sessionPermissions := by
        rw [sessionGrant, if_neg (not_not.mpr hrows), if_neg hheldBy, eq_empty_of_rows hempty]
      rw [hheld.materialiseUser, hgrant, ← hadPermission_eq (.inr (hheld.effective htoken))]
    · rw [hadPermission_of_nil (hfree.effective htoken), hfree.materialiseUser haccessor]
      by_cases hplace : (decides && !isLocal user) = true
      · rw [if_pos hplace]
        rw [Bool.and_eq_true] at hplace
        have hlegacy := hfull hrows hplace.1
        have hgrant : sessionGrant given user = given.legacy := by
          unfold sessionGrant
          rw [if_neg (not_not.mpr hrows), if_pos ⟨hlegacy.rows_ne_nil, hfree.permissions, hfree.role⟩]
        rw [hgrant]
        exact hasPermission_of_session htoken hlegacy hfree.jit hordinary
      · rw [if_neg hplace]
        have hgrant : sessionGrant given { user with permissions := fullAccessMap } = .empty := by
          unfold sessionGrant
          rw [if_neg (not_not.mpr hrows), if_neg fun h => full_fullAccessMap.rows_ne_nil h.2.1]
        rw [hgrant]
        exact hasPermission_of_permissions htoken full_fullAccessMap rfl hfree.jit hordinary
  · have hheld : Held user := .inr (.inl (hsession ▸ hrows))
    have hgrant : sessionGrant given user = user.sessionPermissions := by
      rw [sessionGrant, if_pos hrows, hsession]
    rw [hheld.materialiseUser, hgrant, ← hadPermission_eq (.inr (hheld.effective htoken))]

theorem signedIn_eq {given : Conferred} {user user' : Account} {provider : String}
    (hgiven : conferred envGroups s groups = some given)
    (h : completeOauthLogin envGroups s groups provider user = some user') :
    user.isServiceAccount = false ∧
      user'.toUser = { user.toUser with sessionPermissions := sessionGrant given user } := by
  unfold completeOauthLogin at h
  rw [hgiven, Option.bind_some] at h
  split at h
  · cases h
  next hperson =>
    rw [Bool.or_eq_true, not_or, Bool.not_eq_true] at hperson
    obtain rfl := Option.some.inj h
    exact ⟨hperson.1, rfl⟩

end SignIn

/-- Under the new rule everyone has the ordinary levels they had under the old one: at once where no
mappings decide, and after the next sign-in where they do. -/
theorem access_preserved {s : Store} {envGroups : List String} (hs : Sound s)
    (hmarker : s.migrated = false) {user user' : Account} (huser : user ∈ s.users.rows)
    (huser' : user' ∈ (materialiseEmptyPermissionMaps envGroups s).users.rows)
    (hid : user'.id = user.id) (haccessor : isSet user.accessorEnvId = false) (hjit : ¬JitAlone user)
    {scope level : String} (hordinary : Ordinary scope level) :
    (groupsDecide envGroups s.mappings.rows = false ∨ isLocal user = true →
      hasPermission user'.toUser scope level = hadPermission user.toUser scope level) ∧
    ∀ (groups : List String) (provider : String) (user'' : Account),
      user.sessionPermissions = sessionPerms s.roles (matched s.mappings.rows groups) →
      (∀ mapping ∈ matched s.mappings.rows groups, Readable mapping) →
      completeOauthLogin envGroups (materialiseEmptyPermissionMaps envGroups s) groups provider user' =
        some user'' →
      hasPermission user''.toUser scope level = hadPermission user.toUser scope level := by
  have hrows : (materialiseEmptyPermissionMaps envGroups s).users.rows =
      s.users.rows.map (materialiseUser (groupsDecide envGroups s.mappings.rows)) := by
    rw [materialiseEmptyPermissionMaps, hmarker]
    rfl
  rw [hrows] at huser'
  obtain ⟨old, hold, rfl⟩ := List.mem_map.mp huser'
  rw [materialiseUser_id] at hid
  obtain rfl := s.users.eq_of_key hold huser hid
  refine ⟨fun hplace => materialised_keeps (hs.tokens old huser) haccessor hjit hplace hordinary, ?_⟩
  intro groups provider user'' hstep hread hlogin
  obtain ⟨given, hgiven, -⟩ := Option.bind_eq_some_iff.mp hlogin
  obtain ⟨hsession, hfull⟩ := conferred_spec hs hmarker hread hgiven
  obtain ⟨hperson, hafter⟩ := signedIn_eq hgiven hlogin
  obtain ⟨perms, hwritten⟩ := materialiseUser_eq (groupsDecide envGroups s.mappings.rows) old
  have hperson' : old.isServiceAccount = false := by
    rw [hwritten] at hperson
    exact hperson
  rw [hafter]
  exact signedIn_keeps hs huser haccessor hjit hperson' (hsession.trans hstep.symm) hfull hordinary

/-! ### An upgrade -/

def sam : Account := { alice with id := "u2", username := "sam", authProvider := some "oidc" }

/-- Two people without a map, one of them signed in through a group whose mapping has none. -/
def unmapped : Store where
  roles := .empty
  users := ⟨[alice, sam], by decide⟩
  mappings := ⟨[⟨⟨"m1", "staff", none⟩, .absent⟩], List.nodup_singleton _⟩
  migrated := false

theorem unmapped_sound : Sound unmapped where
  roles := List.forall_mem_nil _
  copies := by
    intro user huser
    simp only [unmapped, List.mem_cons, List.not_mem_nil, or_false] at huser
    rcases huser with rfl | rfl <;> rfl
  tokens := by
    intro user huser
    simp only [unmapped, List.mem_cons, List.not_mem_nil, or_false] at huser
    rcases huser with rfl | rfl <;> rfl
  refers := by
    intro mapping hmem id hid
    rw [List.mem_singleton.mp hmem] at hid
    cases hid
  untagged := by
    intro mapping hmem perms hdefaults
    rw [List.mem_singleton.mp hmem] at hdefaults
    cases hdefaults

/-- One keeps access at the upgrade and the other at the next sign-in. -/
theorem unmapped_preserved :
    hasPermission (materialiseUser true alice).toUser "vms" "read" =
      hadPermission alice.toUser "vms" "read" ∧
    ∀ user, completeOauthLogin [] (materialiseEmptyPermissionMaps [] unmapped) ["staff"] "oidc"
        (materialiseUser true sam) = some user →
      hasPermission user.toUser "vms" "read" = hadPermission sam.toUser "vms" "read" := by
  have hread : ∀ mapping ∈ matched unmapped.mappings.rows ["staff"], Readable mapping := by
    intro mapping hmem
    rw [List.mem_singleton.mp (List.mem_of_mem_filter hmem)]
    exact .inr nofun
  have halice := access_preserved unmapped_sound rfl
    (show alice ∈ unmapped.users.rows from List.mem_cons_self)
    (show materialiseUser true alice ∈ (materialiseEmptyPermissionMaps [] unmapped).users.rows from
      List.mem_cons_self)
    rfl rfl (fun h => h.jit rfl) vms_read_ordinary
  have hsam := access_preserved unmapped_sound rfl
    (show sam ∈ unmapped.users.rows from List.mem_cons_of_mem alice List.mem_cons_self)
    (show materialiseUser true sam ∈ (materialiseEmptyPermissionMaps [] unmapped).users.rows from
      List.mem_cons_of_mem _ List.mem_cons_self)
    rfl rfl (fun h => h.jit rfl) vms_read_ordinary
  exact ⟨halice.1 (.inr rfl), fun user hlogin => hsam.2 ["staff"] "oidc" user rfl hread hlogin⟩

def jane : Account := { alice with jitPermissions := grants [("aws", ["read"])] }

def granted : Store where
  roles := .empty
  users := ⟨[jane], List.nodup_singleton _⟩
  mappings := .empty
  migrated := false

theorem granted_sound : Sound granted where
  roles := List.forall_mem_nil _
  copies := List.forall_mem_singleton.mpr rfl
  tokens := List.forall_mem_singleton.mpr rfl
  refers := List.forall_mem_nil _
  untagged := List.forall_mem_nil _

/-- Somebody who holds a just-in-time grant alone gets every ordinary level. -/
theorem jit_widened : ¬∀ (envGroups : List String) (s : Store), Sound s → s.migrated = false →
    ∀ user ∈ s.users.rows, isLocal user = true →
    ∀ user' ∈ (materialiseEmptyPermissionMaps envGroups s).users.rows, user'.id = user.id →
    ∀ scope level, Ordinary scope level →
      hasPermission user'.toUser scope level = hadPermission user.toUser scope level := by
  intro h
  have hwidened := h [] granted granted_sound rfl jane List.mem_cons_self rfl
    { jane with permissions := fullAccessMap } List.mem_cons_self rfl "vms" "read" vms_read_ordinary
  exact absurd hwidened (by decide +kernel)

end Roles
