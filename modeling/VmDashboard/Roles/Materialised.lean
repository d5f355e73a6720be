import VmDashboard.Roles.Operations

/-!
# Every user carries exactly the permissions of the role

The table of roles keeps the built-in rows as they are seeded, under slugs no other role can take.
What the users and the mappings say of it is kept by each operation.
-/

namespace Roles
open Machine (Table)
open ServiceAccounts (PermissionMap confersAdmin)

/-! ### The table of roles -/

def Present (roles : RoleTable) (spec : Builtin) : Prop :=
  ∃ role ∈ roles.rows, role.slug = spec.slug ∧ role.isBuiltin = true ∧
    role.permissions = spec.permissions

structure Genuine (roles : RoleTable) : Prop where
  genuine : ∀ role ∈ roles.rows, role.isBuiltin = true →
    ∃ spec ∈ builtinRoles, role.slug = spec.slug ∧ role.permissions = spec.permissions
  reserved : ∀ role ∈ roles.rows, role.slug ∈ builtinSlugs → role.isBuiltin = true
  admin : ∀ role ∈ roles.rows, confersAdmin role.permissions = true → role.slug = adminRoleSlug

structure Seeded (roles : RoleTable) : Prop extends Genuine roles where
  builtins : ∀ spec ∈ builtinRoles, Present roles spec

theorem adminRoleSlug_mem : adminRoleSlug ∈ builtinSlugs := List.mem_cons_self

theorem getRole_eq_some {roles : RoleTable} {id : String} {role : AccessRole}
    (h : getRole roles id = some role) : role ∈ roles.rows ∧ role.id = id := by
  unfold getRole at h
  split at h
  · cases h
  · exact Table.lookup_eq_some.mp h

theorem getBySlug_eq_some {roles : RoleTable} {slug : String} {role : AccessRole}
    (h : getBySlug roles slug = some role) : role ∈ roles.rows ∧ role.slug = slug := by
  have hslug := List.find?_some h
  exact ⟨List.mem_of_find?_eq_some h, of_decide_eq_true hslug⟩

theorem getBySlug_eq_none {roles : RoleTable} {slug : String} :
    getBySlug roles slug = none ↔ ∀ role ∈ roles.rows, role.slug ≠ slug := by
  simp only [getBySlug, List.find?_eq_none, decide_eq_true_eq, ne_eq]

theorem Seeded.of_builtinSlug {roles : RoleTable} (h : Seeded roles) {slug : String}
    (hslug : slug ∈ builtinSlugs) :
    ∃ role, getBySlug roles slug = some role ∧ role.isBuiltin = true := by
  obtain ⟨spec, hspec, rfl⟩ := List.mem_map.mp hslug
  obtain ⟨role, hrole, heq, -, -⟩ := h.builtins spec hspec
  cases hget : getBySlug roles spec.slug with
  | none => exact absurd heq (getBySlug_eq_none.mp hget role hrole)
  | some found =>
    obtain ⟨hmem, hfound⟩ := getBySlug_eq_some hget
    exact ⟨found, rfl, h.reserved found hmem (hfound ▸ hslug)⟩

theorem validateRolePermissions_ok {payload : Payload} {slug : String} {perms : PermissionMap}
    (h : validateRolePermissions payload slug = .ok perms) :
    confersAdmin perms = true → slug = adminRoleSlug := by
  intro hadmin
  unfold validateRolePermissions at h
  obtain ⟨-, h⟩ := Machine.raiseIf_eq_ok h
  obtain ⟨valid, -, h⟩ := Machine.bind_eq_ok h
  obtain ⟨hguard, h⟩ := Machine.raiseIf_eq_ok h
  obtain rfl := Except.ok.inj h
  by_contra hslug
  exact hguard ⟨hadmin, hslug⟩

theorem create_ok {roles : RoleTable} {id name : String} {description createdBy : Option String}
    {payload : Payload} {role : AccessRole}
    (h : create roles id name description payload createdBy = .ok role) :
    role.isBuiltin = false ∧ getBySlug roles role.slug = none ∧
      (confersAdmin role.permissions = true → role.slug = adminRoleSlug) := by
  unfold create at h
  obtain ⟨slug, -, h⟩ := Machine.bind_eq_ok h
  obtain ⟨hfree, h⟩ := Machine.raiseIf_eq_ok h
  obtain ⟨perms, hperms, h⟩ := Machine.bind_eq_ok h
  obtain rfl := Except.ok.inj h
  refine ⟨rfl, ?_, validateRolePermissions_ok hperms⟩
  cases hget : getBySlug roles slug with
  | none => rfl
  | some found => exact absurd (by rw [hget]; rfl) hfree

theorem clone_ok {roles : RoleTable} {role clone' : AccessRole} {id name : String}
    {description createdBy : Option String}
    (h : clone roles role id name description createdBy = .ok clone') :
    create roles id name description (asPayload role.permissions) createdBy = .ok clone' := by
  unfold clone at h
  exact (Machine.raiseIf_eq_ok h).2

/-- What an edit keeps. -/
structure Edits (roles : RoleTable) (role edited : AccessRole) : Prop where
  custom : role.isBuiltin = false ∧ edited.isBuiltin = false
  id : edited.id = role.id
  slug : edited.slug = role.slug ∨
    ∀ clash, getBySlug roles edited.slug = some clash → clash.id = role.id

theorem renamed_ok {roles : RoleTable} {role edited : AccessRole} {name : Option String}
    (hcustom : role.isBuiltin = false) (h : renamed roles role name = .ok edited) :
    Edits roles role edited ∧ edited.permissions = role.permissions := by
  cases name with
  | none =>
    obtain rfl := Except.ok.inj h
    exact ⟨⟨⟨hcustom, hcustom⟩, rfl, .inl rfl⟩, rfl⟩
  | some name =>
    obtain ⟨slug, -, h⟩ := Machine.bind_eq_ok h
    obtain ⟨hclash, h⟩ := Machine.raiseIf_eq_ok h
    obtain rfl := Except.ok.inj h
    refine ⟨⟨⟨hcustom, hcustom⟩, rfl, .inr fun clash hget => ?_⟩, rfl⟩
    by_contra hne
    exact hclash (by rw [hget]; exact decide_eq_true hne)

theorem Edits.described {roles : RoleTable} {role edited : AccessRole} (h : Edits roles role edited)
    (text : Option String) : Edits roles role (described edited text) := by
  cases text with
  | none => exact h
  | some text =>
    dsimp only [Roles.described]
    exact ⟨h.custom, h.id, h.slug⟩

theorem described_permissions (role : AccessRole) (text : Option String) :
    (described role text).permissions = role.permissions := by
  cases text with
  | none => rfl
  | some text => dsimp only [described]

theorem update_ok {roles : RoleTable} {role edited : AccessRole} {name description : Option String}
    {payload : Option Payload} {fanned : Bool}
    (h : update roles role name description payload = .ok (edited, fanned)) :
    Edits roles role edited ∧ (fanned = false → edited.permissions = role.permissions) ∧
      (fanned = true → confersAdmin edited.permissions = true → edited.slug = adminRoleSlug) := by
  unfold update at h
  obtain ⟨hcustom, h⟩ := Machine.raiseIf_eq_ok h
  obtain ⟨named, hnamed, h⟩ := Machine.bind_eq_ok h
  obtain ⟨hedits, hperms⟩ := renamed_ok (Bool.eq_false_iff.mpr hcustom) hnamed
  have hdescribed := hedits.described description
  cases payload with
  | none =>
    obtain ⟨rfl, rfl⟩ := Prod.mk.inj (Except.ok.inj h)
    exact ⟨hdescribed, fun _ => (described_permissions named description).trans hperms, nofun⟩
  | some payload =>
    obtain ⟨perms, hvalid, h⟩ := Machine.bind_eq_ok h
    obtain ⟨rfl, rfl⟩ := Prod.mk.inj (Except.ok.inj h)
    exact ⟨⟨hdescribed.custom, hdescribed.id, hdescribed.slug⟩, nofun,
      fun _ => validateRolePermissions_ok hvalid⟩

theorem Seeded.insert {roles after : RoleTable} (h : Seeded roles) {role : AccessRole}
    (hins : roles.insert role = some after) (hcustom : role.isBuiltin = false)
    (hfree : getBySlug roles role.slug = none)
    (hadmin : confersAdmin role.permissions = true → role.slug = adminRoleSlug) : Seeded after where
  genuine other hother hbuiltin := by
    rcases (Table.mem_insert hins).mp hother with hother | rfl
    · exact h.genuine other hother hbuiltin
    · rw [hcustom] at hbuiltin
      cases hbuiltin
  builtins spec hspec := by
    obtain ⟨held, hheld, hprops⟩ := h.builtins spec hspec
    exact ⟨held, (Table.mem_insert hins).mpr (.inl hheld), hprops⟩
  reserved other hother hslug := by
    rcases (Table.mem_insert hins).mp hother with hother | rfl
    · exact h.reserved other hother hslug
    · obtain ⟨found, hfound, -⟩ := h.of_builtinSlug hslug
      rw [hfree] at hfound
      cases hfound
  admin other hother hflag := by
    rcases (Table.mem_insert hins).mp hother with hother | rfl
    · exact h.admin other hother hflag
    · exact hadmin hflag

/-- A custom role cannot take the slug of a built-in. -/
theorem Seeded.not_builtinSlug {roles : RoleTable} (h : Seeded roles) {role edited : AccessRole}
    (hrole : role ∈ roles.rows) (hedits : Edits roles role edited) : edited.slug ∉ builtinSlugs := by
  intro hslug
  rcases hedits.slug with hsame | hclash
  · have hbuiltin := h.reserved role hrole (hsame ▸ hslug)
    rw [hedits.custom.1] at hbuiltin
    cases hbuiltin
  · obtain ⟨found, hfound, hbuiltin⟩ := h.of_builtinSlug hslug
    have heq := Table.eq_of_key (getBySlug_eq_some hfound).1 hrole (hclash found hfound)
    rw [heq, hedits.custom.1] at hbuiltin
    cases hbuiltin

theorem Seeded.put {roles : RoleTable} (h : Seeded roles) {role edited : AccessRole}
    (hrole : role ∈ roles.rows) (hedits : Edits roles role edited)
    (hadmin : confersAdmin edited.permissions = true →
      edited.slug = adminRoleSlug ∨ edited.permissions = role.permissions) :
    Seeded (roles.put edited) where
  genuine other hother hbuiltin := by
    rcases Table.mem_put.mp hother with rfl | ⟨hother, -⟩
    · rw [hedits.custom.2] at hbuiltin
      cases hbuiltin
    · exact h.genuine other hother hbuiltin
  builtins spec hspec := by
    obtain ⟨held, hheld, hslug, hbuiltin, hperms⟩ := h.builtins spec hspec
    refine ⟨held, Table.mem_put.mpr (.inr ⟨hheld, fun hid => ?_⟩), hslug, hbuiltin, hperms⟩
    have heq := Table.eq_of_key hheld hrole (hid.trans hedits.id)
    rw [heq, hedits.custom.1] at hbuiltin
    cases hbuiltin
  reserved other hother hslug := by
    rcases Table.mem_put.mp hother with rfl | ⟨hother, -⟩
    · exact absurd hslug (h.not_builtinSlug hrole hedits)
    · exact h.reserved other hother hslug
  admin other hother hflag := by
    rcases Table.mem_put.mp hother with rfl | ⟨hother, -⟩
    · rcases hadmin hflag with hslug | hsame
      · exact hslug
      · have hold := h.admin role hrole (hsame ▸ hflag)
        have hbuiltin := h.reserved role hrole (hold ▸ adminRoleSlug_mem)
        rw [hedits.custom.1] at hbuiltin
        cases hbuiltin
    · exact h.admin other hother hflag

theorem Seeded.erase {roles : RoleTable} (h : Seeded roles) {role : AccessRole}
    (hrole : role ∈ roles.rows) (hcustom : role.isBuiltin = false) : Seeded (roles.erase role.id) where
  genuine other hother := h.genuine other (Table.mem_erase.mp hother).1
  builtins spec hspec := by
    obtain ⟨held, hheld, hslug, hbuiltin, hperms⟩ := h.builtins spec hspec
    refine ⟨held, Table.mem_erase.mpr ⟨hheld, fun hid => ?_⟩, hslug, hbuiltin, hperms⟩
    rw [Table.eq_of_key hheld hrole hid, hcustom] at hbuiltin
    cases hbuiltin
  reserved other hother := h.reserved other (Table.mem_erase.mp hother).1
  admin other hother := h.admin other (Table.mem_erase.mp hother).1

/-! ### The seed -/

theorem builtinSlugs_nodup : builtinSlugs.Nodup := by decide +kernel

theorem builtin_admin : ∀ spec ∈ builtinRoles,
    confersAdmin spec.permissions = true → spec.slug = adminRoleSlug := by decide +kernel

theorem refresh_eq (spec : Builtin) (role : AccessRole) : (refresh spec role).id = role.id ∧
    (refresh spec role).slug = role.slug ∧ (refresh spec role).isBuiltin = role.isBuiltin ∧
    (refresh spec role).permissions = role.permissions := by
  unfold refresh
  split <;> exact ⟨rfl, rfl, rfl, rfl⟩

/-- The roles stay, with their ids and maps. -/
def Keeps (roles after : RoleTable) : Prop := ∀ role ∈ roles.rows, ∃ role' ∈ after.rows,
  role'.id = role.id ∧ role'.slug = role.slug ∧ role'.isBuiltin = role.isBuiltin ∧
    role'.permissions = role.permissions

theorem Keeps.present {roles after : RoleTable} (h : Keeps roles after) {spec : Builtin}
    (hspec : Present roles spec) : Present after spec := by
  obtain ⟨role, hrole, hslug, hbuiltin, hperms⟩ := hspec
  obtain ⟨role', hrole', -, hslug', hbuiltin', hperms'⟩ := h role hrole
  exact ⟨role', hrole', hslug'.trans hslug, hbuiltin'.trans hbuiltin, hperms'.trans hperms⟩

theorem Keeps.trans {roles between after : RoleTable} (h : Keeps roles between)
    (h' : Keeps between after) : Keeps roles after := by
  intro role hrole
  obtain ⟨mid, hmid, hid, hslug, hbuiltin, hperms⟩ := h role hrole
  obtain ⟨last, hlast, hid', hslug', hbuiltin', hperms'⟩ := h' mid hmid
  exact ⟨last, hlast, hid'.trans hid, hslug'.trans hslug, hbuiltin'.trans hbuiltin,
    hperms'.trans hperms⟩

theorem keeps_insert {roles after : RoleTable} {role : AccessRole}
    (h : roles.insert role = some after) : Keeps roles after :=
  fun held hheld => ⟨held, (Table.mem_insert h).mpr (.inl hheld), rfl, rfl, rfl, rfl⟩

theorem insertBuiltin_spec {roles after : RoleTable} {spec : Builtin} {id : String}
    (h : Genuine roles) (hspec : spec ∈ builtinRoles)
    (hins : insertBuiltin roles spec id = some after) :
    Genuine after ∧ Keeps roles after ∧ Present after spec := by
  unfold insertBuiltin at hins
  split at hins
  next existing hget =>
    obtain rfl := Option.some.inj hins
    obtain ⟨hmem, hslug⟩ := getBySlug_eq_some hget
    have hid : ∀ role, (refresh spec role).id = role.id := fun role => (refresh_eq spec role).1
    -- every row comes from one that differs in its wording at most
    have hback : ∀ role ∈ (roles.modify existing.id (refresh spec) hid).rows, ∃ old ∈ roles.rows,
        role.slug = old.slug ∧ role.isBuiltin = old.isBuiltin ∧ role.permissions = old.permissions := by
      intro role hrole
      rcases Table.mem_modify.mp hrole with ⟨old, hold, -, rfl⟩ | ⟨hold, -⟩
      · exact ⟨old, hold, (refresh_eq spec old).2⟩
      · exact ⟨role, hold, rfl, rfl, rfl⟩
    have hkeeps : Keeps roles (roles.modify existing.id (refresh spec) hid) := by
      intro role hrole
      by_cases heq : role.id = existing.id
      · exact ⟨_, Table.modify_mem hid hrole heq, refresh_eq spec role⟩
      · exact ⟨role, Table.modify_mem_of_ne hid hrole heq, rfl, rfl, rfl, rfl⟩
    refine ⟨⟨fun role hrole hbuiltin => ?_, fun role hrole hres => ?_, fun role hrole hflag => ?_⟩,
      hkeeps, hkeeps.present ?_⟩
    · obtain ⟨old, hold, hs, hb, hp⟩ := hback role hrole
      obtain ⟨spec', hspec', hs', hp'⟩ := h.genuine old hold (hb ▸ hbuiltin)
      exact ⟨spec', hspec', hs.trans hs', hp.trans hp'⟩
    · obtain ⟨old, hold, hs, hb, -⟩ := hback role hrole
      exact hb.trans (h.reserved old hold (hs ▸ hres))
    · obtain ⟨old, hold, hs, -, hp⟩ := hback role hrole
      exact hs.trans (h.admin old hold (hp ▸ hflag))
    · have hbuiltin := h.reserved existing hmem (hslug ▸ List.mem_map_of_mem hspec)
      obtain ⟨spec', hspec', hs', hp'⟩ := h.genuine existing hmem hbuiltin
      have heq : spec' = spec :=
        List.inj_on_of_nodup_map builtinSlugs_nodup hspec' hspec (hs'.symm.trans hslug)
      exact ⟨existing, hmem, hslug, hbuiltin, heq ▸ hp'⟩
  next hget =>
    refine ⟨⟨fun role hrole hbuiltin => ?_, fun role hrole hres => ?_, fun role hrole hflag => ?_⟩,
      keeps_insert hins, ?_⟩
    · rcases (Table.mem_insert hins).mp hrole with hold | rfl
      · exact h.genuine role hold hbuiltin
      · exact ⟨spec, hspec, rfl, rfl⟩
    · rcases (Table.mem_insert hins).mp hrole with hold | rfl
      · exact h.reserved role hold hres
      · rfl
    · rcases (Table.mem_insert hins).mp hrole with hold | rfl
      · exact h.admin role hold hflag
      · exact builtin_admin spec hspec hflag
    · exact ⟨_, (Table.mem_insert hins).mpr (.inr rfl), rfl, rfl, rfl⟩

theorem insertBuiltins_spec {ids : String → String} {roles after : RoleTable} {specs : List Builtin}
    (h : Genuine roles) (hspecs : specs ⊆ builtinRoles)
    (hins : insertBuiltins ids roles specs = some after) :
    Genuine after ∧ Keeps roles after ∧ ∀ spec ∈ specs, Present after spec := by
  induction specs generalizing roles with
  | nil =>
    obtain rfl := Option.some.inj hins
    exact ⟨h, fun role hrole => ⟨role, hrole, rfl, rfl, rfl, rfl⟩, List.forall_mem_nil _⟩
  | cons spec specs ih =>
    obtain ⟨between, hfirst, hrest⟩ := Option.bind_eq_some_iff.mp hins
    obtain ⟨hgenuine, hkeeps, hpresent⟩ :=
      insertBuiltin_spec h (hspecs List.mem_cons_self) hfirst
    obtain ⟨hgenuine', hkeeps', hpresent'⟩ :=
      ih hgenuine (List.Subset.trans (List.subset_cons_self spec specs) hspecs) hrest
    exact ⟨hgenuine', hkeeps.trans hkeeps',
      List.forall_mem_cons.mpr ⟨hkeeps'.present hpresent, hpresent'⟩⟩

theorem seedBuiltins_spec {ids : String → String} {s t : State} (h : Genuine s.roles)
    (hseed : seedBuiltins ids s = some t) :
    Seeded t.roles ∧ Keeps s.roles t.roles ∧ t.users = s.users ∧ t.mappings = s.mappings := by
  obtain ⟨roles, hins, rfl⟩ := Option.map_eq_some_iff.mp hseed
  obtain ⟨hgenuine, hkeeps, hpresent⟩ := insertBuiltins_spec h (List.Subset.refl _) hins
  exact ⟨⟨hgenuine, hpresent⟩, hkeeps, rfl, rfl⟩

end Roles
