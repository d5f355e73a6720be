import VmDashboard.Roles.Materialised

/-!
# Runs of the role operations

What the users and the group mappings say of the roles, kept by every operation from the first
startup on.
-/

namespace Roles
open Machine (Table)
open ServiceAccounts (PermissionMap confersAdmin)

/-- The copy is the map of the role, and without a role it is empty. -/
def Carries (roles : RoleTable) (user : Account) : Prop :=
  match user.roleId with
  | none => user.rolePermissions = .empty
  | some id => ∃ role ∈ roles.rows, role.id = id ∧ user.rolePermissions = role.permissions

def Refers (roles : RoleTable) (mapping : GroupMapping) : Prop :=
  ∀ id, mapping.roleId = some id → ∃ role ∈ roles.rows, role.id = id

/-- Nobody has the admin flag who had not at the start. -/
def FlagFrom (start : State) (user : Account) : Prop := user.isAdmin = true →
  ∃ first ∈ start.users.rows, first.id = user.id ∧ first.isAdmin = true

structure Inv (start s : State) : Prop where
  roles : Seeded s.roles
  users : ∀ user ∈ s.users.rows, Carries s.roles user
  mappings : ∀ mapping ∈ s.mappings.rows, Refers s.roles mapping
  flags : ∀ user ∈ s.users.rows, FlagFrom start user

/-! ### One user, one mapping -/

theorem Carries.of_copy {roles : RoleTable} {user user' : Account} (h : Carries roles user)
    (hid : user'.roleId = user.roleId) (hcopy : user'.rolePermissions = user.rolePermissions) :
    Carries roles user' := by
  unfold Carries at h ⊢
  rw [hid, hcopy]
  exact h

/-- The roles stay under their ids, with their maps. -/
def Holds (roles after : RoleTable) : Prop := ∀ role ∈ roles.rows, ∃ role' ∈ after.rows,
  role'.id = role.id ∧ role'.permissions = role.permissions

theorem Keeps.holds {roles after : RoleTable} (h : Keeps roles after) : Holds roles after := by
  intro role hrole
  obtain ⟨role', hrole', hid, -, -, hperms⟩ := h role hrole
  exact ⟨role', hrole', hid, hperms⟩

theorem Carries.holds {roles after : RoleTable} {user : Account} (h : Carries roles user)
    (hholds : Holds roles after) : Carries after user := by
  unfold Carries at h ⊢
  split at h
  next hnone => exact h
  next id hid =>
    obtain ⟨role, hrole, hroleId, hcopy⟩ := h
    obtain ⟨role', hrole', hid', hperms⟩ := hholds role hrole
    exact ⟨role', hrole', hid'.trans hroleId, hcopy.trans hperms.symm⟩

theorem Refers.holds {roles after : RoleTable} {mapping : GroupMapping} (h : Refers roles mapping)
    (hholds : Holds roles after) : Refers after mapping := by
  intro id hid
  obtain ⟨role, hrole, hroleId⟩ := h id hid
  obtain ⟨role', hrole', hid', -⟩ := hholds role hrole
  exact ⟨role', hrole', hid'.trans hroleId⟩

theorem resolveRole_ok {roles : RoleTable} {raw : String} {role : Option AccessRole}
    (h : resolveRole roles raw = .ok role) : ∀ found, role = some found → found ∈ roles.rows := by
  unfold resolveRole at h
  split at h
  · obtain rfl := Except.ok.inj h
    nofun
  · split at h
    next found hget =>
      obtain rfl := Except.ok.inj h
      intro found' heq
      obtain rfl := Option.some.inj heq
      exact (getRole_eq_some hget).1
    next => cases h

theorem carries_applyRole {roles : RoleTable} (user : Account) {role : Option AccessRole}
    (h : ∀ found, role = some found → found ∈ roles.rows) :
    Carries roles (applyRoleToUser user role) := by
  cases role with
  | none => exact rfl
  | some role => exact ⟨role, h role rfl, rfl, rfl⟩

theorem applyRole_isAdmin (user : Account) (role : Option AccessRole) :
    (applyRoleToUser user role).isAdmin = user.isAdmin := by
  cases role <;> rfl

theorem carries_reconcile {roles : RoleTable} {user : Account} (h : Carries roles user) :
    Carries roles (reconcileUser roles user) := by
  unfold reconcileUser
  split
  next hnone => exact h
  next id hid =>
    split
    next => exact rfl
    next role hget =>
      obtain ⟨hrole, hroleId⟩ := getRole_eq_some hget
      split
      · exact h
      · unfold Carries
        rw [hid]
        exact ⟨role, hrole, hroleId, rfl⟩

theorem reconcileUser_isAdmin (roles : RoleTable) (user : Account) :
    (reconcileUser roles user).isAdmin = user.isAdmin := by
  unfold reconcileUser
  split
  · rfl
  · split
    · rfl
    · split <;> rfl

theorem assignRole_ok {s : State} {admin id raw : String} {user : Account}
    (h : assignRole s admin id raw = .ok user) : ∃ old ∈ s.users.rows, user.id = old.id ∧
      user.isAdmin = old.isAdmin ∧ (Carries s.roles old → Carries s.roles user) := by
  unfold assignRole at h
  split at h
  · cases h
  next old hold =>
    have hmem := (Table.lookup_eq_some.mp hold).1
    obtain ⟨-, h⟩ := Machine.raiseIf_eq_ok h
    obtain ⟨-, -, h⟩ := Machine.bind_eq_ok h
    obtain ⟨-, h⟩ := Machine.raiseIf_eq_ok h
    split at h
    · obtain rfl := Except.ok.inj h
      exact ⟨old, hmem, rfl, rfl, fun hold => hold⟩
    · obtain ⟨-, h⟩ := Machine.raiseIf_eq_ok h
      obtain ⟨role, hrole, h⟩ := Machine.bind_eq_ok h
      obtain rfl := Except.ok.inj h
      have hcarries := carries_applyRole old (resolveRole_ok hrole)
      have hid := applyRoleToUser_id old role
      have hflag := applyRole_isAdmin old role
      unfold unlessDemoted
      split
      · exact ⟨old, hmem, hid, hflag, fun _ => hcarries.of_copy rfl rfl⟩
      · exact ⟨old, hmem, hid, hflag, fun _ => hcarries⟩

theorem createUser_ok {s : State} {user account : Account} {raw : String}
    (h : createUser s user raw = .ok account) :
    Carries s.roles account ∧ account.isAdmin = false := by
  unfold createUser at h
  obtain ⟨-, h⟩ := Machine.raiseIf_eq_ok h
  obtain ⟨role, hrole, h⟩ := Machine.bind_eq_ok h
  cases role with
  | none => cases h
  | some role =>
    obtain rfl := Except.ok.inj h
    exact ⟨carries_applyRole _ (resolveRole_ok hrole), applyRole_isAdmin _ _⟩

theorem createServiceAccount_ok {s : State} {user account : Account} {raw : String}
    (h : createServiceAccount s user raw = .ok account) :
    Carries s.roles account ∧ account.isAdmin = false := by
  obtain ⟨role, hrole, h⟩ := Machine.bind_eq_ok h
  obtain ⟨-, h⟩ := Machine.raiseIf_eq_ok h
  obtain ⟨-, h⟩ := Machine.raiseIf_eq_ok h
  obtain ⟨-, h⟩ := Machine.raiseIf_eq_ok h
  obtain rfl := Except.ok.inj h
  exact ⟨carries_applyRole _ (resolveRole_ok hrole), applyRole_isAdmin _ _⟩

theorem createMapping_ok {s : State} {id group raw : String} {mapping : GroupMapping}
    (h : createMapping s id group raw = .ok mapping) : Refers s.roles mapping := by
  unfold createMapping at h
  obtain ⟨-, h⟩ := Machine.raiseIf_eq_ok h
  obtain ⟨role, hrole, h⟩ := Machine.bind_eq_ok h
  cases role with
  | none => cases h
  | some role =>
    obtain rfl := Except.ok.inj h
    intro roleId hid
    exact ⟨role, resolveRole_ok hrole role rfl, Option.some.inj hid⟩

theorem updateMapping_ok {s : State} {id : String} {raw : Option String} {mapping : GroupMapping}
    (hall : ∀ mapping ∈ s.mappings.rows, Refers s.roles mapping)
    (h : updateMapping s id raw = .ok mapping) : Refers s.roles mapping := by
  unfold updateMapping at h
  split at h
  · cases h
  next old hold =>
    obtain ⟨mapped, hmapped, h⟩ := Machine.bind_eq_ok h
    obtain ⟨-, h⟩ := Machine.raiseIf_eq_ok h
    obtain rfl := Except.ok.inj h
    cases raw with
    | none =>
      obtain rfl := Except.ok.inj hmapped
      exact hall old (Table.lookup_eq_some.mp hold).1
    | some raw =>
      obtain ⟨role, hrole, hmapped⟩ := Machine.bind_eq_ok hmapped
      cases role with
      | none => cases hmapped
      | some role =>
        obtain rfl := Except.ok.inj hmapped
        intro roleId hid
        exact ⟨role, resolveRole_ok hrole role rfl, Option.some.inj hid⟩

/-! ### The operations -/

variable {start s t : State}

theorem Inv.addRole (h : Inv start s) {role : AccessRole} (hcustom : role.isBuiltin = false)
    (hfree : getBySlug s.roles role.slug = none)
    (hadmin : confersAdmin role.permissions = true → role.slug = adminRoleSlug)
    (hadd : addRole s role = some t) : Inv start t := by
  obtain ⟨roles, hins, rfl⟩ := Option.map_eq_some_iff.mp hadd
  have hholds := (keeps_insert hins).holds
  exact ⟨h.roles.insert hins hcustom hfree hadmin, fun user huser => (h.users user huser).holds hholds,
    fun mapping hmapping => (h.mappings mapping hmapping).holds hholds, h.flags⟩

theorem Inv.addUser (h : Inv start s) {user : Account} (hcarries : Carries s.roles user)
    (hflag : user.isAdmin = false) (hadd : addUser s user = some t) : Inv start t := by
  obtain ⟨users, hins, rfl⟩ := Option.map_eq_some_iff.mp hadd
  refine ⟨h.roles, fun other hother => ?_, h.mappings, fun other hother => ?_⟩
  · rcases (Table.mem_insert hins).mp hother with hold | rfl
    · exact h.users other hold
    · exact hcarries
  · rcases (Table.mem_insert hins).mp hother with hold | rfl
    · exact h.flags other hold
    · intro htrue
      rw [hflag] at htrue
      cases htrue

theorem Inv.putUser (h : Inv start s) {old user : Account} (hold : old ∈ s.users.rows)
    (hid : user.id = old.id) (hflag : user.isAdmin = old.isAdmin) (hcarries : Carries s.roles user) :
    Inv start { s with users := s.users.put user } := by
  refine ⟨h.roles, fun other hother => ?_, h.mappings, fun other hother => ?_⟩
  · rcases Table.mem_put.mp hother with rfl | ⟨hmem, -⟩
    · exact hcarries
    · exact h.users other hmem
  · rcases Table.mem_put.mp hother with rfl | ⟨hmem, -⟩
    · intro htrue
      rw [hflag] at htrue
      rw [hid]
      exact h.flags old hold htrue
    · exact h.flags other hmem

/-- A pass over the users that keeps their ids and their flags. -/
theorem flags_map {f : Account → Account} (hf : ∀ user, (f user).id = user.id)
    (hflag : ∀ user, (f user).isAdmin = user.isAdmin) (h : ∀ user ∈ s.users.rows, FlagFrom start user) :
    ∀ user ∈ (s.users.map f hf).rows, FlagFrom start user := by
  intro user huser
  obtain ⟨old, hold, rfl⟩ := List.mem_map.mp huser
  intro htrue
  rw [hflag] at htrue
  rw [hf]
  exact h old hold htrue

theorem Inv.edit (h : Inv start s) {role edited : AccessRole} {fanned : Bool}
    (hrole : role ∈ s.roles.rows) (hedits : Edits s.roles role edited)
    (hsame : fanned = false → edited.permissions = role.permissions)
    (hadmin : fanned = true → confersAdmin edited.permissions = true → edited.slug = adminRoleSlug) :
    Inv start (setRole s (edited, fanned)) := by
  have hroles : Seeded (s.roles.put edited) := by
    refine h.roles.put hrole hedits fun hflag => ?_
    cases fanned with
    | true => exact .inl (hadmin rfl hflag)
    | false => exact .inr (hsame rfl)
  have hother : ∀ other ∈ s.roles.rows, other.id ≠ edited.id → other ∈ (s.roles.put edited).rows :=
    fun other hmem hne => Table.mem_put.mpr (.inr ⟨hmem, hne⟩)
  have hself : edited ∈ (s.roles.put edited).rows := Table.mem_put.mpr (.inl rfl)
  have hrefers : ∀ mapping ∈ s.mappings.rows, Refers (s.roles.put edited) mapping := by
    intro mapping hmapping id hid
    obtain ⟨found, hfound, hfoundId⟩ := h.mappings mapping hmapping id hid
    by_cases heq : found.id = edited.id
    · exact ⟨edited, hself, heq.symm.trans hfoundId⟩
    · exact ⟨found, hother found hfound heq, hfoundId⟩
  cases fanned with
  | false =>
    have hholds : Holds s.roles (s.roles.put edited) := by
      intro held hheld
      by_cases heq : held.id = edited.id
      · rw [Table.eq_of_key hheld hrole (heq.trans hedits.id)]
        exact ⟨edited, hself, hedits.id, hsame rfl⟩
      · exact ⟨held, hother held hheld heq, rfl, rfl⟩
    exact ⟨hroles, fun user huser => (h.users user huser).holds hholds, hrefers, h.flags⟩
  | true =>
    refine ⟨hroles, fun user huser => ?_, hrefers,
      flags_map (fanOutUser_id edited) (fun user => ?_) h.flags⟩
    · obtain ⟨old, hold, rfl⟩ := List.mem_map.mp huser
      have hcarries := h.users old hold
      show Carries (s.roles.put edited) (fanOutUser edited old)
      unfold fanOutUser
      split
      next hid =>
        unfold Carries
        rw [hid]
        exact ⟨edited, hself, rfl, rfl⟩
      next hid =>
        unfold Carries at hcarries ⊢
        split at hcarries
        next hnone => exact hcarries
        next id hsome =>
          obtain ⟨held, hheld, hheldId, hcopy⟩ := hcarries
          have hne : held.id ≠ edited.id := fun heq => hid (hsome.trans (congrArg some
            (hheldId.symm.trans heq)))
          exact ⟨held, hother held hheld hne, hheldId, hcopy⟩
    · unfold fanOutUser
      split <;> rfl

theorem Inv.delete (h : Inv start s) {role : AccessRole} {force : Bool} (hrole : role ∈ s.roles.rows)
    (hdel : delete s role force = .ok t) : Inv start t := by
  unfold Roles.delete at hdel
  obtain ⟨hcustom, hdel⟩ := Machine.raiseIf_eq_ok hdel
  obtain ⟨-, hdel⟩ := Machine.raiseIf_eq_ok hdel
  obtain rfl := Except.ok.inj hdel
  refine ⟨h.roles.erase hrole (Bool.eq_false_iff.mpr hcustom), fun user huser => ?_,
    fun mapping hmapping => ?_, flags_map (clearUser_id role.id) (fun user => ?_) h.flags⟩
  · obtain ⟨old, hold, rfl⟩ := List.mem_map.mp huser
    have hcarries := h.users old hold
    show Carries (s.roles.erase role.id) (clearUser role.id old)
    unfold clearUser
    split
    · exact rfl
    next hid =>
      unfold Carries at hcarries ⊢
      split at hcarries
      next hnone => exact hcarries
      next id hsome =>
        obtain ⟨held, hheld, hheldId, hcopy⟩ := hcarries
        have hne : held.id ≠ role.id := fun heq => hid (hsome.trans (congrArg some
          (hheldId.symm.trans heq)))
        exact ⟨held, Table.mem_erase.mpr ⟨hheld, hne⟩, hheldId, hcopy⟩
  · obtain ⟨old, hold, rfl⟩ := List.mem_map.mp hmapping
    intro id hid
    unfold clearMapping at hid
    split at hid
    next => cases hid
    next hother =>
      obtain ⟨held, hheld, hheldId⟩ := h.mappings old hold id hid
      have hne : held.id ≠ role.id := fun heq => hother (hid.trans (congrArg some
        (hheldId.symm.trans heq)))
      exact ⟨held, Table.mem_erase.mpr ⟨hheld, hne⟩, hheldId⟩
  · unfold clearUser
    split <;> rfl

theorem Inv.startup (h : Inv start s) {ids : String → String}
    (hboot : s.step (.startup ids) = some t) : Inv start t := by
  obtain ⟨seeded, hseed, rfl⟩ := Option.map_eq_some_iff.mp hboot
  obtain ⟨hroles, hkeeps, husers, hmappings⟩ := seedBuiltins_spec h.roles.toGenuine hseed
  refine ⟨hroles, fun user huser => ?_, fun mapping hmapping => ?_,
    flags_map (reconcileUser_id seeded.roles) (reconcileUser_isAdmin seeded.roles) (husers ▸ h.flags)⟩
  · obtain ⟨old, hold, rfl⟩ := List.mem_map.mp huser
    exact carries_reconcile ((h.users old (husers ▸ hold)).holds hkeeps.holds)
  · exact (h.mappings mapping (hmappings ▸ hmapping)).holds hkeeps.holds

theorem orNotFound_ok {roles : RoleTable} {id : String} {role : AccessRole}
    (h : orNotFound roles id = .ok role) : role ∈ roles.rows := by
  unfold orNotFound at h
  split at h
  next found hget =>
    obtain rfl := Except.ok.inj h
    exact (getRole_eq_some hget).1
  next => cases h

theorem stored_eq_some {α : Type} {result : Except String α} {store : α → Option State}
    (h : stored s result store = some t) :
    t = s ∨ ∃ a, result = .ok a ∧ store a = some t := by
  cases result with
  | error e => exact .inl (Option.some.inj h).symm
  | ok a => exact .inr ⟨a, rfl, h⟩

theorem Inv.step (h : Inv start s) {op : Op} (hstep : s.step op = some t) : Inv start t := by
  cases op with
  | create id name description payload createdBy =>
    rw [State.step] at hstep
    rcases stored_eq_some hstep with rfl | ⟨role, hrole, hadd⟩
    · exact h
    · obtain ⟨hcustom, hfree, hadmin⟩ := create_ok hrole
      exact h.addRole hcustom hfree hadmin hadd
  | clone role id name description createdBy =>
    rw [State.step] at hstep
    rcases stored_eq_some hstep with rfl | ⟨copy, hcopy, hadd⟩
    · exact h
    · obtain ⟨found, -, hclone⟩ := Machine.bind_eq_ok hcopy
      obtain ⟨hcustom, hfree, hadmin⟩ := create_ok (clone_ok hclone)
      exact h.addRole hcustom hfree hadmin hadd
  | update id name description payload =>
    rw [State.step] at hstep
    rcases stored_eq_some hstep with rfl | ⟨⟨edited, fanned⟩, hedit, hset⟩
    · exact h
    · obtain ⟨role, hrole, hedit⟩ := Machine.bind_eq_ok hedit
      have hset : setRole s (edited, fanned) = t := Option.some.inj hset
      subst hset
      obtain ⟨hedits, hsame, hadmin⟩ := update_ok hedit
      exact h.edit (orNotFound_ok hrole) hedits hsame hadmin
  | delete id force =>
    rw [State.step] at hstep
    rcases stored_eq_some hstep with rfl | ⟨after, hdel, hset⟩
    · exact h
    · obtain rfl := Option.some.inj hset
      obtain ⟨role, hrole, hdel⟩ := Machine.bind_eq_ok hdel
      exact h.delete (orNotFound_ok hrole) hdel
  | assign admin id role =>
    rw [State.step] at hstep
    rcases stored_eq_some hstep with rfl | ⟨user, huser, hset⟩
    · exact h
    · obtain rfl := Option.some.inj hset
      obtain ⟨old, hold, hid, hflag, hcarries⟩ := assignRole_ok huser
      exact h.putUser hold hid hflag (hcarries (h.users old hold))
  | createUser user role =>
    rw [State.step] at hstep
    rcases stored_eq_some hstep with rfl | ⟨account, haccount, hadd⟩
    · exact h
    · obtain ⟨hcarries, hflag⟩ := createUser_ok haccount
      exact h.addUser hcarries hflag hadd
  | createServiceAccount user role =>
    rw [State.step] at hstep
    rcases stored_eq_some hstep with rfl | ⟨account, haccount, hadd⟩
    · exact h
    · obtain ⟨hcarries, hflag⟩ := createServiceAccount_ok haccount
      exact h.addUser hcarries hflag hadd
  | createMapping id group role =>
    rw [State.step] at hstep
    rcases stored_eq_some hstep with rfl | ⟨mapping, hmapping, hadd⟩
    · exact h
    · have hnew : Refers s.roles mapping := createMapping_ok hmapping
      obtain ⟨mappings, hins, rfl⟩ := Option.map_eq_some_iff.mp hadd
      refine ⟨h.roles, h.users, fun other hother => ?_, h.flags⟩
      rcases (Table.mem_insert hins).mp hother with hold | rfl
      · exact h.mappings other hold
      · exact hnew
  | updateMapping id role =>
    rw [State.step] at hstep
    rcases stored_eq_some hstep with rfl | ⟨mapping, hmapping, hset⟩
    · exact h
    · have hnew : Refers s.roles mapping := updateMapping_ok h.mappings hmapping
      obtain rfl := Option.some.inj hset
      refine ⟨h.roles, h.users, fun other hother => ?_, h.flags⟩
      rcases Table.mem_put.mp hother with rfl | ⟨hmem, -⟩
      · exact hnew
      · exact h.mappings other hmem
  | deleteMapping id =>
    obtain rfl := Option.some.inj hstep
    exact ⟨h.roles, h.users, fun other hother => h.mappings other (Table.mem_erase.mp hother).1,
      h.flags⟩
  | startup ids => exact h.startup hstep

/-! ### Runs -/

/-- Before the first startup there are no roles, and nobody holds one. -/
structure Fresh (s : State) : Prop where
  roles : s.roles.rows = []
  users : ∀ user ∈ s.users.rows, user.roleId = none ∧ user.rolePermissions = .empty
  mappings : ∀ mapping ∈ s.mappings.rows, mapping.roleId = none

theorem inv_boot {ids : String → String} (h : Fresh start)
    (hboot : start.step (.startup ids) = some s) : Inv start s := by
  obtain ⟨seeded, hseed, rfl⟩ := Option.map_eq_some_iff.mp hboot
  have hno : ∀ role, role ∉ start.roles.rows := fun role hrole => by
    rw [h.roles] at hrole
    cases hrole
  have hgenuine : Genuine start.roles :=
    ⟨fun role hrole => absurd hrole (hno role), fun role hrole => absurd hrole (hno role),
      fun role hrole => absurd hrole (hno role)⟩
  obtain ⟨hroles, -, husers, hmappings⟩ := seedBuiltins_spec hgenuine hseed
  refine ⟨hroles, fun user huser => ?_, fun mapping hmapping id hid => ?_,
    flags_map (reconcileUser_id seeded.roles) (reconcileUser_isAdmin seeded.roles) ?_⟩
  · obtain ⟨old, hold, rfl⟩ := List.mem_map.mp huser
    obtain ⟨hnone, hempty⟩ := h.users old (husers ▸ hold)
    refine carries_reconcile ?_
    unfold Carries
    rw [hnone]
    exact hempty
  · rw [h.mappings mapping (hmappings ▸ hmapping)] at hid
    cases hid
  · rw [husers]
    exact fun user huser htrue => ⟨user, huser, rfl, htrue⟩

/-- What the tables say of the roles. -/
structure Materialised (start s : State) : Prop where
  copies : ∀ user ∈ s.users.rows, ∀ id, user.roleId = some id →
    ∃ role ∈ s.roles.rows, role.id = id ∧ user.rolePermissions = role.permissions
  bare : ∀ user ∈ s.users.rows, user.roleId = none → user.rolePermissions = .empty
  mappings : ∀ mapping ∈ s.mappings.rows, ∀ id, mapping.roleId = some id →
    ∃ role ∈ s.roles.rows, role.id = id
  flags : ∀ user ∈ s.users.rows, user.isAdmin = true →
    ∃ first ∈ start.users.rows, first.id = user.id ∧ first.isAdmin = true
  admins : ∀ user ∈ s.users.rows, confersAdmin user.rolePermissions = true →
    ∃ role ∈ s.roles.rows, user.roleId = some role.id ∧ role.isBuiltin = true ∧
      role.slug = adminRoleSlug
  builtins : ∀ spec ∈ builtinRoles, ∃ role ∈ s.roles.rows, role.slug = spec.slug ∧
    role.isBuiltin = true ∧ role.permissions = spec.permissions

theorem Inv.materialised (h : Inv start s) : Materialised start s := by
  have hcopies : ∀ user ∈ s.users.rows, ∀ id, user.roleId = some id →
      ∃ role ∈ s.roles.rows, role.id = id ∧ user.rolePermissions = role.permissions := by
    intro user huser id hid
    have hcarries := h.users user huser
    unfold Carries at hcarries
    rw [hid] at hcarries
    exact hcarries
  have hbare : ∀ user ∈ s.users.rows, user.roleId = none → user.rolePermissions = .empty := by
    intro user huser hnone
    have hcarries := h.users user huser
    unfold Carries at hcarries
    rw [hnone] at hcarries
    exact hcarries
  refine ⟨hcopies, hbare, h.mappings, h.flags, fun user huser hflag => ?_, h.roles.builtins⟩
  cases hid : user.roleId with
  | none =>
    rw [hbare user huser hid] at hflag
    cases hflag
  | some id =>
    obtain ⟨role, hrole, rfl, hcopy⟩ := hcopies user huser id hid
    have hslug := h.roles.admin role hrole (hcopy ▸ hflag)
    exact ⟨role, hrole, rfl, h.roles.reserved role hrole (hslug ▸ adminRoleSlug_mem), hslug⟩

/-- From the first startup on, whatever is done with roles: every copy is the role's map, no
reference dangles, and the admin flag comes from the administrator role only. -/
theorem roles_materialised {ids : String → String} (hfresh : Fresh start)
    (hboot : start.step (.startup ids) = some s) (ops : List Op) :
    roleService.Always (Materialised start) s ops :=
  roleService.always_mono (fun _ => Inv.materialised)
    (roleService.always_of_step (fun _ _ _ h hstep => h.step hstep) ops (inv_boot hfresh hboot))

/-! ### An installation -/

def alice : Account where
  id := "u1"
  username := "alice"
  isActive := true
  isAdmin := false
  isServiceAccount := false
  roleId := none
  permissions := .empty
  sessionPermissions := .empty
  jitPermissions := .empty
  rolePermissions := .empty
  tokenScope := none
  accessorEnvId := none
  authProvider := some "local"

def installed : State where
  roles := .empty
  users := ⟨[alice], List.nodup_singleton _⟩
  mappings := .empty

def slugIds (slug : String) : String := "id-" ++ slug

def booted : State := (installed.step (.startup slugIds)).getD installed

/-- A clone of the operator role is assigned, edited and deleted by force. -/
def roleHistory : List Op :=
  [.clone "id-operator" "r1" "Night shift" none "root",
    .assign "root" "u1" "r1",
    .update "r1" none none (some ⟨[("vms", .arr [.str "read"])], List.nodup_singleton _⟩),
    .createMapping "m1" "group" "r1",
    .startup slugIds,
    .delete "r1" true,
    .assign "root" "u1" "id-administrator"]

example : (roleService.exec booted (roleHistory.take 3)).map
    (fun s => s.users.rows.map fun user => user.rolePermissions.rows) =
    some [[("vms", .levels ["read"])]] := by decide +kernel

theorem history_materialised : roleService.Always (Materialised installed) booted roleHistory :=
  roles_materialised ⟨rfl, List.forall_mem_singleton.mpr ⟨rfl, rfl⟩, List.forall_mem_nil _⟩
    (show installed.step (.startup slugIds) = some booted from rfl) roleHistory

end Roles
