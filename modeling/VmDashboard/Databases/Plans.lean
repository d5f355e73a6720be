import VmDashboard.Databases.Server

/-!
# What each plan runs

The statements of the four plans with the databases they run in, for every engine and flavor.
-/

namespace Databases
open Machine (System bind_eq_ok raiseIf_eq_ok)
open Python (strip)

@[simp] theorem checkRole_text (role : Role) : checkRole role.text = .ok (some role) := by
  cases role <;> rfl

theorem prepare_eq_ok {engine : Engine} {username database flavor role password : String}
    {prepared : Prepared} (h : prepare engine username database flavor role password = .ok prepared) :
    prepared.user = username ∧ prepared.database = database ∧
      checkRole role = .ok prepared.role ∧ checkFlavor engine flavor = .ok prepared.flavor := by
  unfold prepare at h
  obtain ⟨user, huser, h⟩ := bind_eq_ok h
  obtain ⟨-, h⟩ := raiseIf_eq_ok h
  obtain ⟨checked, -, h⟩ := bind_eq_ok h
  obtain ⟨level, hrole, h⟩ := bind_eq_ok h
  obtain ⟨kind, hflavor, h⟩ := bind_eq_ok h
  obtain ⟨-, h⟩ := raiseIf_eq_ok h
  obtain ⟨name, hname, h⟩ := bind_eq_ok h
  obtain rfl := Except.ok.inj h
  exact ⟨(ident_eq_ok huser).2, (ident_eq_ok hname).2, hrole, hflavor⟩

/-! ### The statements of a plan -/

theorem statements_cons (entry : String × List Statement) (plan : Plan) :
    Plan.statements (entry :: plan) = located entry.1 entry.2 ++ Plan.statements plan := rfl

/-- The way into a database: on Azure SQL its own connection, elsewhere `USE`. -/
def enter (flavor : Option Flavor) (database : String) : List (String × Statement) :=
  if splitLogin flavor then [] else [(database, .use database)]

theorem located_cons {database : String} {statement : Statement} (h : ∀ name, statement ≠ .use name)
    (rest : List Statement) :
    located database (statement :: rest) = (database, statement) :: located database rest := by
  cases statement with
  | use name => exact absurd rfl (h name)
  | _ => rfl

theorem located_map (database : String) {α : Type} {f : α → Statement}
    (h : ∀ a name, f a ≠ .use name) (items : List α) : located database (items.map f) = items.map fun a => (database, f a) := by
  induction items with
  | nil => rfl
  | cons a items ih => rw [List.map_cons, located_cons (h a), ih, List.map_cons]

/-- Going from database to database on one connection, whatever database it starts in. -/
theorem located_uses (statement : Statement) (h : ∀ name, statement ≠ .use name)
    (rest : List Statement) {after : List (String × Statement)}
    (hrest : ∀ database, located database rest = after) (names : List String) (database : String) :
    located database ((names.flatMap fun name => [.use name, statement]) ++ rest) =
      (names.flatMap fun name => [(name, .use name), (name, statement)]) ++ after := by
  induction names generalizing database with
  | nil => exact hrest database
  | cons name names ih =>
    simp only [List.flatMap_cons, List.cons_append, List.nil_append]
    rw [located, located_cons h, ih]

theorem statements_map (names : List String) {statement : Statement}
    (h : ∀ name, statement ≠ .use name) :
    Plan.statements (names.map fun name => (name, [statement])) =
      names.flatMap fun name => [(name, statement)] := by
  induction names with
  | nil => rfl
  | cons name names ih =>
    rw [List.map_cons, statements_cons, ih, located_cons h]
    rfl

theorem statements_append (plan rest : Plan) :
    Plan.statements (plan ++ rest) = Plan.statements plan ++ Plan.statements rest :=
  List.flatMap_append

theorem eq_use_of_mem_enter {flavor : Option Flavor} {database : String} {l : String × Statement}
    (h : l ∈ enter flavor database) : l = (database, .use database) := by
  unfold enter at h
  split at h
  · cases h
  · exact List.mem_singleton.mp h

theorem script_enter (flavor : Option Flavor) (database : String) (server : Server)
    (ls : List (String × Statement)) :
    session.script server none (enter flavor database ++ ls) = session.script server none ls := by
  unfold enter
  split
  · rfl
  · rfl

/-- The plan that creates a login and a user in each of the databases. -/
def createEntries (kind : Option Flavor) (username password : String) (names : List String) : Plan :=
  if splitLogin kind then
    ("master", mssqlLogin username password) :: names.map fun name => (name, mssqlUser username)
  else
    [("master", mssqlLogin username password ++
      names.flatMap fun name => .use name :: mssqlUser username)]

/-- A user for the login in one of the databases. -/
def makeUser (kind : Option Flavor) (username name : String) : List (String × Statement) :=
  enter kind name ++ [(name, .createUserForLogin username)]

theorem statements_createEntries (kind : Option Flavor) (username password : String)
    (names : List String) :
    (createEntries kind username password names).statements =
      ("master", .createLogin username password) :: names.flatMap (makeUser kind username) := by
  unfold makeUser
  by_cases hsplit : splitLogin kind = true
  · simp only [createEntries, enter, hsplit, if_true, List.nil_append]
    rw [statements_cons]
    exact congrArg _ (statements_map names nofun)
  · simp only [createEntries, enter, hsplit]
    have huses := located_uses (.createUserForLogin username) nofun [] (fun _ => rfl) names "master"
    rw [List.append_nil, List.append_nil] at huses
    simp only [Plan.statements, Bool.false_eq_true, if_false, List.flatMap_cons, List.flatMap_nil,
      List.append_nil]
    exact congrArg (_ :: ·) huses

theorem createActorPlan_sqlserver {username password database flavor : String}
    {databases : List String} {plan : Plan}
    (h : createActorPlan .sqlserver username password database flavor databases = .ok plan) :
    ∃ password' kind names, checkFlavor .sqlserver flavor = .ok kind ∧
      databaseList databases database = .ok names ∧
      plan = createEntries kind username password' names := by
  unfold createActorPlan at h
  obtain ⟨-, h⟩ := raiseIf_eq_ok h
  obtain ⟨prepared, hprepared, h⟩ := bind_eq_ok h
  obtain ⟨huser, hdatabase, -, hflavor⟩ := prepare_eq_ok hprepared
  obtain ⟨names, hnames, h⟩ := bind_eq_ok h
  rw [huser] at h
  rw [hdatabase] at hnames
  refine ⟨prepared.password, prepared.flavor, names, hflavor, hnames, ?_⟩
  unfold createEntries
  by_cases hsplit : splitLogin prepared.flavor = true
  · rw [if_pos hsplit] at h
    rw [if_pos hsplit]
    exact (Except.ok.inj h).symm
  · rw [if_neg hsplit] at h
    rw [if_neg hsplit]
    exact (Except.ok.inj h).symm

theorem mem_databaseNames {acc raws names : List String} (h : databaseNames acc raws = .ok names)
    {name : String} : name ∈ names ↔ name ∈ acc ∨ ∃ raw ∈ raws, strip raw = name := by
  induction raws generalizing acc with
  | nil =>
    obtain rfl := Except.ok.inj h
    simp
  | cons raw raws ih =>
    obtain ⟨checked, hchecked, hrest⟩ := bind_eq_ok h
    obtain ⟨-, rfl⟩ := ident_eq_ok hchecked
    have hcons : (∃ r ∈ raw :: raws, strip r = name) ↔
        strip raw = name ∨ ∃ r ∈ raws, strip r = name := by
      simp
    rw [ih hrest, hcons]
    by_cases hmem : strip raw ∈ acc
    · rw [if_pos hmem]
      constructor
      · rintro (hname | hname)
        · exact .inl hname
        · exact .inr (.inr hname)
      · rintro (hname | rfl | hname)
        · exact .inl hname
        · exact .inl hmem
        · exact .inr hname
    · rw [if_neg hmem, List.mem_append, List.mem_singleton, or_assoc, eq_comm (a := name)]

theorem mem_databaseList {databases names : List String} {fallback : String} (hne : databases ≠ [])
    (h : databaseList databases fallback = .ok names) {name : String} :
    name ∈ names ↔ ∃ raw ∈ databases, strip raw = name := by
  unfold databaseList at h
  obtain ⟨names', hnames', h⟩ := bind_eq_ok h
  obtain ⟨-, h⟩ := raiseIf_eq_ok h
  obtain rfl := Except.ok.inj h
  rw [if_neg (by simpa using hne)] at hnames'
  simpa using mem_databaseNames hnames'

theorem databaseList_nil {names : List String} {fallback : String}
    (h : databaseList [] fallback = .ok names) : names = [strip fallback] := by
  unfold databaseList at h
  obtain ⟨names', hnames', h⟩ := bind_eq_ok h
  obtain ⟨-, h⟩ := raiseIf_eq_ok h
  obtain rfl := Except.ok.inj h
  obtain ⟨checked, hchecked, hrest⟩ := bind_eq_ok hnames'
  obtain ⟨-, rfl⟩ := ident_eq_ok hchecked
  exact (Except.ok.inj hrest).symm

theorem deleteActorPlan_sqlserver {username database flavor : String} {databases : List String}
    {plan : Plan} (h : deleteActorPlan .sqlserver username database flavor databases = .ok plan) :
    ∃ kind names, databaseList databases database = .ok names ∧
      plan.statements =
        (names.flatMap fun name => enter kind name ++ [(name, .dropDatabaseUser username)]) ++
          (enter kind "master" ++ [("master", .dropLogin username)]) := by
  unfold deleteActorPlan at h
  obtain ⟨prepared, hprepared, h⟩ := bind_eq_ok h
  obtain ⟨huser, hdatabase, -, -⟩ := prepare_eq_ok hprepared
  obtain ⟨names, hnames, h⟩ := bind_eq_ok h
  rw [huser] at h
  rw [hdatabase] at hnames
  refine ⟨prepared.flavor, names, hnames, ?_⟩
  by_cases hsplit : splitLogin prepared.flavor = true
  · rw [if_pos hsplit] at h
    obtain rfl := Except.ok.inj h
    simp only [enter, hsplit, if_true, List.nil_append]
    rw [statements_append]
    exact congrArg (· ++ _) (statements_map names nofun)
  · rw [if_neg hsplit] at h
    obtain rfl := Except.ok.inj h
    simp only [enter, hsplit]
    have huses := located_uses (.dropDatabaseUser username) nofun
      (.use "master" :: mssqlDropLogin username) (fun _ => rfl) names "master"
    rw [statements_cons]
    simp only [Plan.statements, List.flatMap_nil, List.append_nil]
    exact huses

/-- What a level of access is made of. -/
def Engine.level : Engine → Role → List Privilege
  | .mysql, role => mysqlPrivileges (some role)
  | .postgres, role => [.connect, .usage] ++ pgDml (some role)
  | .sqlserver, .read => [.dataReader]
  | .sqlserver, .readwrite => [.dataReader, .dataWriter]

theorem mssqlRoles_eq (role : Role) : mssqlRoles (some role) = .ok (Engine.sqlserver.level role) := by
  cases role <;> rfl

/-- The plan that runs statements in one database. -/
def accessEntries (kind : Option Flavor) (database : String) (statements : List Statement) : Plan :=
  if splitLogin kind then [(database, statements)] else [("master", .use database :: statements)]

theorem statements_accessEntries {f : Privilege → Statement} (hf : ∀ a name, f a ≠ .use name)
    (kind : Option Flavor) (database : String) (privileges : List Privilege) :
    (accessEntries kind database (privileges.map f)).statements =
      enter kind database ++ privileges.map fun a => (database, f a) := by
  have hlocated := located_map database hf privileges
  by_cases hsplit : splitLogin kind = true
  · simp only [accessEntries, enter, hsplit, if_true, List.nil_append]
    rw [statements_cons, hlocated]
    exact List.append_nil _
  · simp only [accessEntries, enter, hsplit]
    simp only [Bool.false_eq_true, if_false]
    rw [statements_cons, located, hlocated]
    exact List.append_nil _

theorem giveAccessPlan_sqlserver {username database role flavor : String} {plan : Plan}
    (h : giveAccessPlan .sqlserver username database role flavor = .ok plan) :
    ∃ kind level roles, checkFlavor .sqlserver flavor = .ok kind ∧ checkRole role = .ok level ∧
      mssqlRoles level = .ok roles ∧
      plan = accessEntries kind database (roles.map fun name => .addMember name username) := by
  unfold giveAccessPlan at h
  obtain ⟨prepared, hprepared, h⟩ := bind_eq_ok h
  obtain ⟨huser, hdatabase, hrole, hflavor⟩ := prepare_eq_ok hprepared
  obtain ⟨add, hadd, h⟩ := bind_eq_ok h
  obtain ⟨roles, hroles, hadd⟩ := bind_eq_ok hadd
  obtain rfl := Except.ok.inj hadd
  rw [huser, hdatabase] at h
  refine ⟨prepared.flavor, prepared.role, roles, hflavor, hrole, hroles, ?_⟩
  unfold accessEntries
  by_cases hsplit : splitLogin prepared.flavor = true
  · rw [if_pos hsplit] at h
    rw [if_pos hsplit]
    exact (Except.ok.inj h).symm
  · rw [if_neg hsplit] at h
    rw [if_neg hsplit]
    exact (Except.ok.inj h).symm

theorem revokeAccessPlan_sqlserver {username database role flavor : String} {plan : Plan}
    (h : revokeAccessPlan .sqlserver username database role flavor = .ok plan) :
    ∃ kind level roles, checkRole role = .ok level ∧ mssqlRoles level = .ok roles ∧
      plan = accessEntries kind database
        (roles.reverse.map fun name => .dropMember name username) := by
  unfold revokeAccessPlan at h
  obtain ⟨prepared, hprepared, h⟩ := bind_eq_ok h
  obtain ⟨huser, hdatabase, hrole, -⟩ := prepare_eq_ok hprepared
  obtain ⟨drop, hdrop, h⟩ := bind_eq_ok h
  obtain ⟨roles, hroles, hdrop⟩ := bind_eq_ok hdrop
  obtain rfl := Except.ok.inj hdrop
  rw [huser, hdatabase] at h
  refine ⟨prepared.flavor, prepared.role, roles, hrole, hroles, ?_⟩
  unfold accessEntries
  by_cases hsplit : splitLogin prepared.flavor = true
  · rw [if_pos hsplit] at h
    rw [if_pos hsplit]
    exact (Except.ok.inj h).symm
  · rw [if_neg hsplit] at h
    rw [if_neg hsplit]
    exact (Except.ok.inj h).symm

theorem createActorPlan_mysql {username password database flavor : String} {databases : List String}
    {plan : Plan} (h : createActorPlan .mysql username password database flavor databases = .ok plan) :
    ∃ password', plan = [(database, [.createUser username password'])] := by
  unfold createActorPlan at h
  obtain ⟨-, h⟩ := raiseIf_eq_ok h
  obtain ⟨prepared, hprepared, h⟩ := bind_eq_ok h
  obtain ⟨huser, hdatabase, -, -⟩ := prepare_eq_ok hprepared
  obtain rfl := Except.ok.inj h
  rw [huser, hdatabase]
  exact ⟨prepared.password, rfl⟩

theorem createActorPlan_postgres {username password database flavor : String}
    {databases : List String} {plan : Plan}
    (h : createActorPlan .postgres username password database flavor databases = .ok plan) :
    ∃ password', plan = [(database, [.createRole username password'])] := by
  unfold createActorPlan at h
  obtain ⟨-, h⟩ := raiseIf_eq_ok h
  obtain ⟨prepared, hprepared, h⟩ := bind_eq_ok h
  obtain ⟨huser, hdatabase, -, -⟩ := prepare_eq_ok hprepared
  obtain rfl := Except.ok.inj h
  rw [huser, hdatabase]
  exact ⟨prepared.password, rfl⟩

theorem deleteActorPlan_mysql {username database flavor : String} {databases : List String}
    {plan : Plan} (h : deleteActorPlan .mysql username database flavor databases = .ok plan) :
    plan = [(database, [.dropUser username])] := by
  unfold deleteActorPlan at h
  obtain ⟨prepared, hprepared, h⟩ := bind_eq_ok h
  obtain ⟨huser, hdatabase, -, -⟩ := prepare_eq_ok hprepared
  obtain rfl := Except.ok.inj h
  rw [huser, hdatabase]
  rfl

theorem giveAccessPlan_mysql {username database role flavor : String} {plan : Plan}
    (h : giveAccessPlan .mysql username database role flavor = .ok plan) :
    ∃ level, checkRole role = .ok level ∧
      plan = [(database, [.grant (mysqlPrivileges level) database username])] := by
  unfold giveAccessPlan at h
  obtain ⟨prepared, hprepared, h⟩ := bind_eq_ok h
  obtain ⟨huser, hdatabase, hrole, -⟩ := prepare_eq_ok hprepared
  obtain rfl := Except.ok.inj h
  rw [huser, hdatabase]
  exact ⟨prepared.role, hrole, rfl⟩

theorem revokeAccessPlan_mysql {username database role flavor : String} {plan : Plan}
    (h : revokeAccessPlan .mysql username database role flavor = .ok plan) :
    ∃ level, checkRole role = .ok level ∧
      plan = [(database, [.revoke (mysqlPrivileges level) database username])] := by
  unfold revokeAccessPlan at h
  obtain ⟨prepared, hprepared, h⟩ := bind_eq_ok h
  obtain ⟨huser, hdatabase, hrole, -⟩ := prepare_eq_ok hprepared
  obtain rfl := Except.ok.inj h
  rw [huser, hdatabase]
  exact ⟨prepared.role, hrole, rfl⟩

theorem giveAccessPlan_postgres {username database role flavor : String} {plan : Plan}
    (h : giveAccessPlan .postgres username database role flavor = .ok plan) :
    ∃ level, checkRole role = .ok level ∧ plan = [(database, pgGive username database level)] := by
  unfold giveAccessPlan at h
  obtain ⟨prepared, hprepared, h⟩ := bind_eq_ok h
  obtain ⟨huser, hdatabase, hrole, -⟩ := prepare_eq_ok hprepared
  obtain rfl := Except.ok.inj h
  rw [huser, hdatabase]
  exact ⟨prepared.role, hrole, rfl⟩

theorem revokeAccessPlan_postgres {username database role flavor : String} {plan : Plan}
    (h : revokeAccessPlan .postgres username database role flavor = .ok plan) :
    ∃ level, checkRole role = .ok level ∧ plan = [(database, pgTake username database level)] := by
  unfold revokeAccessPlan at h
  obtain ⟨prepared, hprepared, h⟩ := bind_eq_ok h
  obtain ⟨huser, hdatabase, hrole, -⟩ := prepare_eq_ok hprepared
  obtain rfl := Except.ok.inj h
  rw [huser, hdatabase]
  exact ⟨prepared.role, hrole, rfl⟩

theorem deleteActorPlan_drops {engine : Engine} {username database flavor : String}
    {databases : List String} {plan : Plan} (hengine : engine ≠ .postgres)
    (h : deleteActorPlan engine username database flavor databases = .ok plan) :
    ∀ l ∈ plan.statements, l.2.Drops username := by
  intro l hl
  cases engine with
  | mysql =>
    obtain rfl := deleteActorPlan_mysql h
    obtain rfl := List.mem_singleton.mp hl
    exact rfl
  | postgres => exact absurd rfl hengine
  | sqlserver =>
    obtain ⟨kind, names, -, hplan⟩ := deleteActorPlan_sqlserver h
    rw [hplan] at hl
    rcases List.mem_append.mp hl with hl | hl
    · obtain ⟨name, -, hl⟩ := List.mem_flatMap.mp hl
      rcases List.mem_append.mp hl with henter | hdrop
      · obtain rfl := eq_use_of_mem_enter henter
        trivial
      · obtain rfl := List.mem_singleton.mp hdrop
        exact rfl
    · rcases List.mem_append.mp hl with henter | hdrop
      · obtain rfl := eq_use_of_mem_enter henter
        trivial
      · obtain rfl := List.mem_singleton.mp hdrop
        exact rfl

/-! ### One connection for two entries -/

def Stays (statements : List Statement) : Prop := ∀ s ∈ statements, ∀ name, s ≠ .use name

/-- Run after `earlier` on its connection, `later` is in the database it would have opened. -/
def Follows (earlier later : String × List Statement) : Prop :=
  Stays earlier.2 ∨ ∃ name rest, later.2 = .use name :: rest

theorem located_append {database : String} {earlier later : List Statement}
    (h : Stays earlier ∨ ∃ name rest, later = .use name :: rest) :
    located database (earlier ++ later) = located database earlier ++ located database later := by
  induction earlier generalizing database with
  | nil => rfl
  | cons statement earlier ih =>
    have htail : Stays earlier ∨ ∃ name rest, later = .use name :: rest :=
      h.imp_left fun hstays s hs => hstays s (List.mem_cons_of_mem statement hs)
    by_cases huse : ∃ name, statement = .use name
    · obtain ⟨name, rfl⟩ := huse
      obtain ⟨target, rest, rfl⟩ := h.resolve_left fun hstays =>
        hstays (.use name) List.mem_cons_self name rfl
      rw [List.cons_append, located, located, ih htail, List.cons_append]
      rfl
    · have hne : ∀ name, statement ≠ .use name := fun name heq => huse ⟨name, heq⟩
      rw [List.cons_append, located_cons hne, located_cons hne, ih htail, List.cons_append]

theorem follows_append {database : String} {first second : List Statement}
    {later : String × List Statement} (hfirst : Follows (database, first) later)
    (hsecond : Follows (database, second) later) : Follows (database, first ++ second) later := by
  rcases hfirst with hfirst | huse
  · rcases hsecond with hsecond | huse
    · exact .inl fun s hs => (List.mem_append.mp hs).elim (hfirst s) (hsecond s)
    · exact .inr huse
  · exact .inr huse

theorem statements_mergeFrom {last : String × List Statement} {plan : Plan}
    (h : (last :: plan).Pairwise Follows) :
    Plan.statements (mergeFrom last plan) = Plan.statements (last :: plan) := by
  induction plan generalizing last with
  | nil => rfl
  | cons entry plan ih =>
    obtain ⟨hlast, hplan⟩ := List.pairwise_cons.mp h
    rw [mergeFrom]
    by_cases hsame : last.1 = entry.1
    · have hmerged : ((entry.1, last.2 ++ entry.2) :: plan).Pairwise Follows := by
        obtain ⟨hentry, hrest⟩ := List.pairwise_cons.mp hplan
        refine List.pairwise_cons.mpr ⟨fun later hlater => ?_, hrest⟩
        exact follows_append (hlast later (List.mem_cons_of_mem entry hlater)) (hentry later hlater)
      rw [if_pos hsame, ih hmerged, statements_cons, statements_cons, statements_cons, hsame,
        located_append (hlast entry List.mem_cons_self), List.append_assoc]
    · rw [if_neg hsame, statements_cons, ih hplan]
      rfl

theorem statements_merge {plan : Plan} (h : plan.Pairwise Follows) :
    (merge plan).statements = plan.statements := by
  cases plan with
  | nil => rfl
  | cons entry plan => exact statements_mergeFrom h

/-- Creating an account and giving it access go well together, on one connection or several. -/
theorem follows_entries (kind : Option Flavor) (username password database : String)
    (names : List String) {statements : List Statement} (h : Stays statements) :
    (createEntries kind username password names ++
      accessEntries kind database statements).Pairwise Follows := by
  unfold createEntries accessEntries
  by_cases hsplit : splitLogin kind = true
  · rw [if_pos hsplit, if_pos hsplit]
    refine List.pairwise_of_forall_mem_list fun earlier hearlier later _ => .inl ?_
    rcases List.mem_append.mp hearlier with hearlier | hearlier
    · rcases List.mem_cons.mp hearlier with rfl | hearlier
      · intro s hs name
        obtain rfl := List.mem_singleton.mp hs
        exact nofun
      · obtain ⟨database', -, rfl⟩ := List.mem_map.mp hearlier
        intro s hs name
        obtain rfl := List.mem_singleton.mp hs
        exact nofun
    · obtain rfl := List.mem_singleton.mp hearlier
      exact h
  · rw [if_neg hsplit, if_neg hsplit]
    exact List.pairwise_pair.mpr (.inr ⟨database, statements, rfl⟩)

theorem grantPlan_sqlserver {username password database role flavor : String} {plan : Plan}
    (h : grantPlan .sqlserver username password database role flavor = .ok plan) :
    ∃ password' kind names, ∃ roles : List Privilege, databaseList [] database = .ok names ∧
      plan.statements = (createEntries kind username password' names).statements ++
        (enter kind database ++ roles.map fun name => (database, .addMember name username)) := by
  unfold grantPlan at h
  obtain ⟨create, hcreate, h⟩ := bind_eq_ok h
  obtain ⟨give, hgive, h⟩ := bind_eq_ok h
  obtain ⟨password', kind, names, hkind, hnames, rfl⟩ := createActorPlan_sqlserver hcreate
  obtain ⟨kind', level, roles, hkind', -, -, rfl⟩ := giveAccessPlan_sqlserver hgive
  obtain rfl := Except.ok.inj (hkind.symm.trans hkind')
  obtain rfl := Except.ok.inj h
  have hstays : Stays (roles.map fun name => .addMember name username) := by
    intro s hs name
    obtain ⟨role', -, rfl⟩ := List.mem_map.mp hs
    exact nofun
  refine ⟨password', kind, names, roles, hnames, ?_⟩
  rw [statements_merge (follows_entries kind username password' database names hstays),
    statements_append]
  exact congrArg _ (statements_accessEntries (f := fun name => .addMember name username) nofun _ _ _)

theorem grantPlan_mysql {username password database role flavor : String} {plan : Plan}
    (h : grantPlan .mysql username password database role flavor = .ok plan) :
    ∃ password' privileges, plan.statements =
      [(database, .createUser username password'),
        (database, .grant privileges database username)] := by
  unfold grantPlan at h
  obtain ⟨create, hcreate, h⟩ := bind_eq_ok h
  obtain ⟨give, hgive, h⟩ := bind_eq_ok h
  obtain ⟨password', rfl⟩ := createActorPlan_mysql hcreate
  obtain ⟨level, -, rfl⟩ := giveAccessPlan_mysql hgive
  obtain rfl := Except.ok.inj h
  refine ⟨password', mysqlPrivileges level, ?_⟩
  simp [merge, mergeFrom, Plan.statements, located]

end Databases
