import VmDashboard.Databases.Adapter

/-!
# Every account can be found and removed

Runs of the adapter in which any request may fail at any statement: which accounts `get_actors` lists,
and what a delete that succeeds leaves behind.
-/

namespace Databases
open Machine (System bind_eq_ok bind_eq_error raiseIf_eq_ok)
open Python (strip strip_strip)

/-! ### The targets of one adapter -/

structure Uniform (engine : Engine) (targets : List Target) : Prop where
  nonempty : targets ≠ []
  engine : ∀ target ∈ targets, target.engine = engine
  stripped : ∀ target ∈ targets, strip target.database = target.database

theorem endpoint_engine {settings : Settings} {server : Endpoint}
    (h : settings.endpoint = .ok server) : server.engine ≠ .postgres := by
  obtain ⟨engine, hengine, h⟩ := bind_eq_ok h
  obtain ⟨-, h⟩ := raiseIf_eq_ok h
  obtain ⟨port, -, h⟩ := bind_eq_ok h
  obtain rfl := Except.ok.inj h
  unfold adapterEngine at hengine
  split at hengine
  · next found hfound =>
    obtain rfl := Except.ok.inj hengine
    have hmem := List.mem_of_find?_eq_some hfound
    rintro rfl
    simp at hmem
  · cases hengine

theorem servedNames_stripped {names parts : List String} (h : ∀ name ∈ names, strip name = name) :
    ∀ name ∈ servedNames names parts, strip name = name := by
  induction parts generalizing names with
  | nil => exact h
  | cons part parts ih =>
    rw [servedNames]
    refine ih fun name hname => ?_
    split at hname
    · rcases List.mem_append.mp hname with hname | hname
      · exact h name hname
      · obtain rfl := List.mem_singleton.mp hname
        exact strip_strip part
    · exact h name hname

theorem targets_uniform {settings : Settings} {targets : List Target}
    (h : settings.targets = .ok targets) : ∃ engine, engine ≠ .postgres ∧ Uniform engine targets := by
  obtain ⟨server, hserver, h⟩ := bind_eq_ok h
  obtain ⟨names, hnames, h⟩ := bind_eq_ok h
  obtain rfl := Except.ok.inj h
  unfold Settings.databaseNames at hnames
  obtain ⟨hne, hnames⟩ := raiseIf_eq_ok hnames
  obtain rfl := Except.ok.inj hnames
  refine ⟨server.engine, endpoint_engine hserver, ?_, ?_, ?_⟩
  · exact fun hnil => hne (List.map_eq_nil_iff.mp hnil)
  · intro target htarget
    obtain ⟨name, -, rfl⟩ := List.mem_map.mp htarget
    rfl
  · intro target htarget
    obtain ⟨name, hname, rfl⟩ := List.mem_map.mp htarget
    exact servedNames_stripped (by simp) name hname

/-! ### What a job runs -/

/-- The plan of the job is one of those its route builds. -/
def Planned (engine : Engine) (targets : List Target) (job : Job) : Route → Prop
  | .createActor =>
    (∃ password database flavor, createActorPlan engine job.username password database flavor
      (targets.map Target.database) = .ok job.plan) ∨
    ∃ target ∈ targets, ∃ password role flavor, grantPlan engine job.username password
      target.database role flavor = .ok job.plan
  | .deleteActor => IsMinted job.username ∧ ∃ database flavor, deleteActorPlan engine job.username
      database flavor (targets.map Target.database) = .ok job.plan
  | .giveAccess => ∃ database role flavor,
      giveAccessPlan engine job.username database role flavor = .ok job.plan
  | .revokeAccess => ∃ database role flavor,
      revokeAccessPlan engine job.username database role flavor = .ok job.plan

theorem planOrRefusal_eq_ok {requestId : String} {result : Result Plan} {plan : Plan}
    (h : planOrRefusal requestId result = .ok plan) : result = .ok plan := by
  cases result with
  | error e => cases h
  | ok built => exact congrArg _ (Except.ok.inj h)

theorem mem_of_resolveTarget {identifier : String} {targets : List Target} {target : Target}
    (h : resolveTarget identifier targets = .ok target) : target ∈ targets := by
  unfold resolveTarget at h
  split at h
  · split at h
    · obtain rfl := Except.ok.inj h
      exact List.mem_singleton_self _
    · cases h
  · split at h
    · next found hfound =>
      obtain rfl := Except.ok.inj h
      exact List.mem_of_find?_eq_some hfound
    · cases h

variable {settings : Settings} {targets : List Target} {request : Request} {engine : Engine} {job : Job}

theorem createWithAccess_planned {identity asset : String} (hu : Uniform engine targets)
    (h : createWithAccess settings targets request identity asset = .ok job) :
    Planned engine targets job .createActor := by
  obtain ⟨target, htarget, h⟩ := bind_eq_ok h
  obtain ⟨plan, hplan, h⟩ := bind_eq_ok h
  obtain rfl := Except.ok.inj h
  have hmem := mem_of_resolveTarget htarget
  obtain rfl := hu.engine target hmem
  exact .inr ⟨target, hmem, _, _, _, planOrRefusal_eq_ok hplan⟩

theorem createStanding_planned {identity : String} (hu : Uniform engine targets)
    (h : createStanding settings targets request identity = .ok job) :
    Planned engine targets job .createActor := by
  cases targets with
  | nil => cases h
  | cons server rest =>
    obtain ⟨plan, hplan, h⟩ := bind_eq_ok h
    obtain rfl := Except.ok.inj h
    obtain rfl := hu.engine server List.mem_cons_self
    exact .inl ⟨_, _, _, planOrRefusal_eq_ok hplan⟩

theorem createActor_planned (hu : Uniform engine targets)
    (h : createActor settings targets request = .ok job) : Planned engine targets job .createActor := by
  unfold createActor at h
  obtain ⟨-, h⟩ := raiseIf_eq_ok h
  split at h
  · cases h
  · split at h
    · exact createStanding_planned hu h
    · exact createWithAccess_planned hu h

theorem deleteActor_planned (hu : Uniform engine targets)
    (h : deleteActor targets request = .ok job) : Planned engine targets job .deleteActor := by
  unfold deleteActor at h
  obtain ⟨-, h⟩ := raiseIf_eq_ok h
  obtain ⟨hminted, h⟩ := raiseIf_eq_ok h
  cases targets with
  | nil => cases h
  | cons server rest =>
    obtain ⟨plan, hplan, h⟩ := bind_eq_ok h
    obtain rfl := Except.ok.inj h
    obtain rfl := hu.engine server List.mem_cons_self
    exact ⟨not_not.mp hminted, _, _, planOrRefusal_eq_ok hplan⟩

theorem changeAccess_plan {name : String}
    {planOf : Engine → (username database role flavor : String) → Result Plan}
    (hu : Uniform engine targets) (h : changeAccess targets request name planOf = .ok job) :
    ∃ database role flavor, planOf engine job.username database role flavor = .ok job.plan := by
  unfold changeAccess at h
  split at h
  · cases h
  · obtain ⟨target, htarget, h⟩ := bind_eq_ok h
    obtain ⟨-, h⟩ := raiseIf_eq_ok h
    obtain ⟨-, h⟩ := raiseIf_eq_ok h
    obtain ⟨plan, hplan, h⟩ := bind_eq_ok h
    obtain rfl := Except.ok.inj h
    obtain rfl := hu.engine target (mem_of_resolveTarget htarget)
    exact ⟨_, _, _, planOrRefusal_eq_ok hplan⟩

theorem job_planned (hu : Uniform engine targets) (h : request.job settings targets = .ok job) :
    Planned engine targets job request.route := by
  unfold Request.job at h
  cases hroute : request.route with
  | createActor =>
    rw [hroute] at h
    exact createActor_planned hu h
  | deleteActor =>
    rw [hroute] at h
    exact deleteActor_planned hu h
  | giveAccess =>
    rw [hroute] at h
    exact changeAccess_plan hu h
  | revokeAccess =>
    rw [hroute] at h
    exact changeAccess_plan hu h

/-! ### Accounts in the databases served -/

/-- Every login is a user of a database served, and every user is one of these databases'. -/
structure Tracked (targets : List Target) (server : Server) : Prop where
  logins : ∀ user ∈ server.principals, IsMinted user →
    ∃ target ∈ targets, (target.database, user) ∈ server.users
  users : ∀ x ∈ server.users, IsMinted x.2 → ∃ target ∈ targets, target.database = x.1

/-- A statement of a plan that makes `user` and gives it access. -/
def Mints (targets : List Target) (user : String) (l : String × Statement) : Prop :=
  match l.2 with
  | .createUserForLogin name => name = user ∧ ∃ target ∈ targets, target.database = l.1
  | .use _ | .addMember _ _ => True
  | _ => False

/-- The login first, then a user for it, then the rest. -/
def Minting (targets : List Target) (user : String) (ls : List (String × Statement)) : Prop :=
  ∃ password database before after,
    ls = ("master", .createLogin user password) ::
      (before ++ (database, .createUserForLogin user) :: after) ∧
    (∀ l ∈ before, ∃ name, l.2 = .use name) ∧
    ∀ l ∈ before ++ (database, .createUserForLogin user) :: after, Mints targets user l

theorem mints_enter (user : String) (kind : Option Flavor) (database : String) :
    ∀ l ∈ enter kind database, Mints targets user l := by
  intro l hl
  obtain rfl := eq_use_of_mem_enter hl
  trivial

theorem minting_createEntries (username password : String) (kind : Option Flavor)
    {names : List String} (after : List (String × Statement)) (hne : names ≠ [])
    (hserved : ∀ name ∈ names, ∃ target ∈ targets, target.database = name)
    (hafter : ∀ l ∈ after, Mints targets username l) :
    Minting targets username ((createEntries kind username password names).statements ++ after) := by
  obtain ⟨first, others, rfl⟩ := List.exists_cons_of_ne_nil hne
  have hentries : ∀ l ∈ (first :: others).flatMap (makeUser kind username),
      Mints targets username l := by
    intro l hl
    obtain ⟨name, hname, hl⟩ := List.mem_flatMap.mp hl
    rcases List.mem_append.mp hl with henter | hcreate
    · exact mints_enter username kind name l henter
    · obtain rfl := List.mem_singleton.mp hcreate
      exact ⟨rfl, hserved name hname⟩
  refine ⟨password, first, enter kind first, others.flatMap (makeUser kind username) ++ after,
    ?_, ?_, ?_⟩
  · rw [statements_createEntries, List.flatMap_cons, makeUser]
    simp only [List.cons_append, List.append_assoc, List.nil_append]
  · intro l hl
    exact ⟨first, congrArg Prod.snd (eq_use_of_mem_enter hl)⟩
  · intro l hl
    have hmem : l ∈ (first :: others).flatMap (makeUser kind username) ++ after := by
      rw [List.flatMap_cons, makeUser]
      simpa only [List.append_assoc, List.cons_append, List.nil_append] using hl
    exact (List.mem_append.mp hmem).elim (hentries l) (hafter l)

theorem creates_of_minting {user name : String} {ls : List (String × Statement)}
    (h : Minting targets user ls) {l : String × Statement} (hl : l ∈ ls) (hcreates : l.2.Creates name) :
    name = user := by
  obtain ⟨password, database, before, after, rfl, -, hall⟩ := h
  rcases List.mem_cons.mp hl with rfl | hl
  · exact hcreates.symm
  · have hmints := hall l hl
    obtain ⟨place, statement⟩ := l
    cases statement with
    | createUserForLogin | use | addMember => cases hcreates
    | _ => cases hmints

theorem served_of_minting {user : String} {ls : List (String × Statement)}
    (h : Minting targets user ls) {x : String × String} (hx : (x.1, .createUserForLogin x.2) ∈ ls) :
    x.2 = user ∧ ∃ target ∈ targets, target.database = x.1 := by
  obtain ⟨password, database, before, after, rfl, -, hall⟩ := h
  rcases List.mem_cons.mp hx with heq | hx
  · cases (Prod.mk.inj heq).2
  · exact hall _ hx

theorem not_drops_of_minting {user : String} {ls : List (String × Statement)}
    (h : Minting targets user ls) (x : String × String) : (x.1, .dropDatabaseUser x.2) ∉ ls := by
  intro hx
  obtain ⟨password, database, before, after, rfl, -, hall⟩ := h
  rcases List.mem_cons.mp hx with heq | hx
  · cases (Prod.mk.inj heq).2
  · exact hall _ hx

/-- What stops the plan between the login and its first user is that the user exists. -/
theorem user_of_stuck {user : String} {taken more : List (String × Statement)}
    {l : String × Statement} {t : Server} (h : Minting targets user (taken ++ l :: more))
    (hlogin : ∃ m ∈ taken, m.2.Creates user) (huser : ∀ m ∈ taken, m.2 ≠ .createUserForLogin user)
    (hcreated : user ∈ t.principals) (hstuck : session.step t l = none) :
    (l.1, user) ∈ t.users ∧ l = (l.1, .createUserForLogin user) := by
  obtain ⟨password, database, before, after, heq, hbefore, -⟩ := h
  obtain ⟨m, hm, -⟩ := hlogin
  obtain ⟨first, taken, rfl⟩ := List.exists_cons_of_ne_nil (List.ne_nil_of_mem hm)
  have htail : before ++ (database, .createUserForLogin user) :: after = taken ++ l :: more :=
    (List.cons.inj heq).2.symm
  have hl : l ∈ before ∨ l = (database, .createUserForLogin user) := by
    rcases List.append_eq_append_iff.mp htail with ⟨middle, rfl, hrest⟩ | ⟨middle, rfl, hrest⟩
    · cases middle with
      | nil => exact .inr (List.cons.inj hrest).1.symm
      | cons m middle =>
        obtain ⟨rfl, -⟩ := List.cons.inj hrest
        exact absurd rfl (huser (database, .createUserForLogin user) (by simp))
    · cases middle with
      | nil => exact .inr (List.cons.inj hrest).1
      | cons m middle =>
        obtain ⟨rfl, -⟩ := List.cons.inj hrest
        exact .inl (by simp)
  rcases hl with hl | rfl
  · obtain ⟨name, huse⟩ := hbefore l hl
    obtain ⟨place, statement⟩ := l
    obtain rfl : statement = .use name := huse
    cases hstuck
  · refine ⟨?_, rfl⟩
    by_contra hnone
    have hstep : session.step t (database, .createUserForLogin user) =
        some { t with users := insert (database, user) t.users } := if_pos ⟨hnone, hcreated⟩
    rw [hstep] at hstuck
    cases hstuck

/-- A cut does not come between the login and its first user. -/
def Whole (server : Server) (user : String) (taken : List (String × Statement)) : Prop :=
  (∃ l ∈ taken, l.2.Creates user) →
    (∃ l ∈ taken, l.2 = .createUserForLogin user) ∨ user ∈ server.principals

theorem tracked_of_minting {user : String} {ls : List (String × Statement)} {server : Server}
    {cut : Option ℕ} (h : Minting targets user ls) (hserver : Tracked targets server)
    (hwhole : ∀ k, cut = some k → Whole server user (ls.take k)) :
    Tracked targets (session.script server cut ls).1 := by
  obtain ⟨taken, rest, hls, hexec, hend⟩ := session.script_outcome server cut ls
  generalize (session.script server cut ls).1 = t at hexec hend
  have htaken : taken ⊆ ls := fun l hl => hls ▸ List.mem_append_left rest hl
  constructor
  · intro v hv hminted
    by_cases hold : v ∈ server.principals
    · obtain ⟨target, htarget, hmem⟩ := hserver.logins v hold hminted
      have hkept := users_kept_of_exec hexec hmem
      exact ⟨target, htarget, hkept.resolve_right fun hdrop => not_drops_of_minting h _ (htaken hdrop)⟩
    · obtain ⟨m, hm, hcreates⟩ := (principals_of_exec hexec hv).resolve_left hold
      obtain rfl := creates_of_minting h (htaken hm) hcreates
      by_cases huser : ∃ l ∈ taken, l.2 = .createUserForLogin v
      · obtain ⟨⟨database, statement⟩, hl, rfl⟩ := huser
        obtain ⟨-, target, htarget, rfl⟩ := served_of_minting h (x := (database, v)) (htaken hl)
        have hcreated := created_of_exec hexec (x := (target.database, v)) hl
        exact ⟨target, htarget,
          hcreated.resolve_right fun hdrop => not_drops_of_minting h _ (htaken hdrop)⟩
      · rcases hend with rfl | ⟨k, hk, rfl⟩ | ⟨l, more, rfl, hstuck⟩
        · obtain ⟨password, database, before, after, heq, -, -⟩ := h
          rw [List.append_nil] at hls
          refine absurd ⟨(database, .createUserForLogin v), ?_, rfl⟩ huser
          rw [← hls, heq]
          simp
        · exact absurd (hwhole k hk ⟨m, hm, hcreates⟩) (not_or.mpr ⟨huser, hold⟩)
        · rw [hls] at h
          obtain ⟨hmem, hl⟩ := user_of_stuck h ⟨m, hm, hcreates⟩
            (fun m' hm' heq => huser ⟨m', hm', heq⟩) hv hstuck
          obtain ⟨-, target, htarget, hplace⟩ := served_of_minting h (x := (l.1, v))
            (hl ▸ List.mem_append_right taken List.mem_cons_self)
          exact ⟨target, htarget, hplace ▸ hmem⟩
  · intro x hx hminted
    rcases users_of_exec hexec hx with hold | hcreate
    · exact hserver.users x hold hminted
    · exact (served_of_minting h (htaken hcreate)).2

/-- A cut does not come between the last user of the login and the login. -/
def Removed (targets : List Target) (server : Server) (user : String)
    (taken : List (String × Statement)) : Prop :=
  user ∉ server.principals ∨ (∃ l ∈ taken, l.2 = .dropLogin user) ∨
    ∃ target ∈ targets, (target.database, user) ∈ server.users ∧
      (target.database, .dropDatabaseUser user) ∉ taken

theorem tracked_of_drops {user : String} {ls : List (String × Statement)} {server : Server}
    {cut : Option ℕ} (hdrops : ∀ l ∈ ls, l.2.Drops user) (hlogin : ∃ l ∈ ls, l.2 = .dropLogin user)
    (hserver : Tracked targets server)
    (hremoved : ∀ k, cut = some k → Removed targets server user (ls.take k)) :
    Tracked targets (session.script server cut ls).1 := by
  obtain ⟨taken, rest, rfl, hexec, hend⟩ := session.script_outcome server cut ls
  generalize (session.script server cut (taken ++ rest)).1 = t at hexec hend
  have hdrops' : ∀ l ∈ taken, l.2.Drops user := fun l hl => hdrops l (List.mem_append_left rest hl)
  obtain ⟨less, hless, hwithout, hgone⟩ := exec_drops hdrops' server
  obtain rfl := Option.some.inj (hless.symm.trans hexec)
  have hdropped : ∀ l ∈ taken, l.2 = .dropLogin user → user ∉ less.principals := by
    rintro ⟨database, statement⟩ hl rfl
    exact hgone _ hl
  constructor
  · intro v hv hminted
    have hold : v ∈ server.principals := hwithout.principals hv
    by_cases huser : v = user
    · subst huser
      rcases hend with rfl | ⟨k, hk, htaken⟩ | ⟨l, more, rfl, hstuck⟩
      · obtain ⟨l, hl, heq⟩ := hlogin
        rw [List.append_nil] at hl
        exact absurd hv (hdropped l hl heq)
      · have hremoved' := hremoved k hk
        rw [← htaken] at hremoved'
        rcases hremoved' with hnone | ⟨l, hl, heq⟩ | ⟨target, htarget, hmem, hleft⟩
        · exact absurd hold hnone
        · exact absurd hv (hdropped l hl heq)
        · have hkept := users_kept_of_exec hexec hmem
          exact ⟨target, htarget, hkept.resolve_right hleft⟩
      · obtain ⟨next, hstep, -⟩ := execute_drops less (hdrops l (by simp))
        rw [hstep] at hstuck
        cases hstuck
    · obtain ⟨target, htarget, hmem⟩ := hserver.logins v hold hminted
      exact ⟨target, htarget, hwithout.otherUsers _ hmem huser⟩
  · exact fun x hx hminted => hserver.users x (hwithout.users hx) hminted

/-- The statements that only give and take access. -/
def Statement.Access : Statement → Prop
  | .grant .. | .revoke .. | .addMember .. | .dropMember .. | .use _ => True
  | _ => False

theorem same_of_access {s t : Server} {l : String × Statement} (hl : l.2.Access)
    (h : session.step s l = some t) : t.principals = s.principals ∧ t.users = s.users := by
  obtain ⟨database, statement⟩ := l
  simp only [session, Server.execute] at h
  split at h
  all_goals grind [Server.give, Server.take, Statement.Access]

theorem giveAccessPlan_access {username database role flavor : String} {plan : Plan}
    (hengine : engine ≠ .postgres)
    (h : giveAccessPlan engine username database role flavor = .ok plan) :
    ∀ l ∈ plan.statements, l.2.Access := by
  cases engine with
  | mysql =>
    obtain ⟨level, -, rfl⟩ := giveAccessPlan_mysql h
    intro l hl
    obtain rfl := List.mem_singleton.mp hl
    trivial
  | postgres => exact absurd rfl hengine
  | sqlserver =>
    obtain ⟨kind, level, roles, -, -, -, rfl⟩ := giveAccessPlan_sqlserver h
    rw [statements_accessEntries (f := fun name => .addMember name username) nofun]
    intro l hl
    rcases List.mem_append.mp hl with henter | hl
    · obtain rfl := eq_use_of_mem_enter henter
      trivial
    · obtain ⟨name, -, rfl⟩ := List.mem_map.mp hl
      trivial

theorem revokeAccessPlan_access {username database role flavor : String} {plan : Plan}
    (hengine : engine ≠ .postgres)
    (h : revokeAccessPlan engine username database role flavor = .ok plan) :
    ∀ l ∈ plan.statements, l.2.Access := by
  cases engine with
  | mysql =>
    obtain ⟨level, -, rfl⟩ := revokeAccessPlan_mysql h
    intro l hl
    obtain rfl := List.mem_singleton.mp hl
    trivial
  | postgres => exact absurd rfl hengine
  | sqlserver =>
    obtain ⟨kind, level, roles, -, -, rfl⟩ := revokeAccessPlan_sqlserver h
    rw [statements_accessEntries (f := fun name => .dropMember name username) nofun]
    intro l hl
    rcases List.mem_append.mp hl with henter | hl
    · obtain rfl := eq_use_of_mem_enter henter
      trivial
    · obtain ⟨name, -, rfl⟩ := List.mem_map.mp hl
      trivial

/-- What only depends on the principals and the users outlasts a change of access. -/
theorem kept_of_access {P : Server → Prop} {ls : List (String × Statement)} {server : Server}
    (hP : ∀ s t : Server, t.principals = s.principals → t.users = s.users → P s → P t)
    (hls : ∀ l ∈ ls, l.2.Access) (hserver : P server) (cut : Option ℕ) :
    P (session.script server cut ls).1 := by
  refine session.script_keeps (fun s t l hl hs hstep => ?_) hserver cut
  obtain ⟨hprincipals, husers⟩ := same_of_access (hls l hl) hstep
  exact hP s t hprincipals husers hs

theorem tracked_congr (s t : Server) (hprincipals : t.principals = s.principals)
    (husers : t.users = s.users) (h : Tracked targets s) : Tracked targets t := by
  constructor
  · rw [hprincipals, husers]
    exact h.logins
  · rw [husers]
    exact h.users

/-! ### What one request keeps -/

/-- On MySQL an account is found by its name alone; on SQL Server it must be a user of a database
served. -/
def Kept (targets : List Target) (server : Server) : Engine → Prop
  | .sqlserver => Tracked targets server
  | _ => ∀ x ∈ server.users, ¬IsMinted x.2

/-- The condition on where a request may fail. -/
def CutWell (targets : List Target) (server : Server) (job : Job) (k : ℕ) : Route → Prop
  | .createActor => Whole server job.username (job.plan.statements.take k)
  | .deleteActor => Removed targets server job.username (job.plan.statements.take k)
  | _ => True

theorem users_subset_of_script {ls : List (String × Statement)}
    (h : ∀ l ∈ ls, ∀ name, l.2 ≠ .createUserForLogin name) (server : Server) (cut : Option ℕ) :
    (session.script server cut ls).1.users ⊆ server.users := by
  refine session.script_keeps (P := fun t => t.users ⊆ server.users) (fun s t l hl hs hstep => ?_)
    subset_rfl cut
  intro x hx
  rcases users_of_step hstep hx with hold | rfl
  · exact hs hold
  · exact absurd rfl (h _ hl x.2)

theorem minting_of_planned (hu : Uniform .sqlserver targets)
    (h : Planned .sqlserver targets job .createActor) :
    Minting targets job.username job.plan.statements := by
  rcases h with ⟨password, database, flavor, hplan⟩ | ⟨target, htarget, password, role, flavor, hplan⟩
  · obtain ⟨password', kind, names, -, hnames, heq⟩ := createActorPlan_sqlserver hplan
    have hne : targets.map Target.database ≠ [] := fun hnil =>
      hu.nonempty (List.map_eq_nil_iff.mp hnil)
    have hserved : ∀ name, name ∈ names ↔ ∃ target ∈ targets, target.database = name := by
      intro name
      rw [mem_databaseList hne hnames]
      constructor
      · rintro ⟨raw, hraw, rfl⟩
        obtain ⟨target, htarget, rfl⟩ := List.mem_map.mp hraw
        exact ⟨target, htarget, (hu.stripped target htarget).symm⟩
      · rintro ⟨target, htarget, rfl⟩
        exact ⟨target.database, List.mem_map_of_mem htarget, hu.stripped target htarget⟩
    have hnames : names ≠ [] := by
      rintro rfl
      obtain ⟨target, htarget⟩ := List.exists_mem_of_ne_nil targets hu.nonempty
      exact List.not_mem_nil ((hserved target.database).mpr ⟨target, htarget, rfl⟩)
    have hminting := minting_createEntries job.username password' kind [] hnames
      (fun name hname => (hserved name).mp hname) (by simp)
    rw [List.append_nil] at hminting
    exact heq ▸ hminting
  · obtain ⟨password', kind, names, roles, hnames, heq⟩ := grantPlan_sqlserver hplan
    obtain rfl := databaseList_nil hnames
    rw [heq]
    refine minting_createEntries job.username password' kind _ (by simp) ?_ ?_
    · intro name hname
      obtain rfl := List.mem_singleton.mp hname
      exact ⟨target, htarget, (hu.stripped target htarget).symm⟩
    · intro l hl
      rcases List.mem_append.mp hl with henter | hl
      · exact mints_enter job.username kind target.database l henter
      · obtain ⟨role', -, rfl⟩ := List.mem_map.mp hl
        trivial

theorem kept_create (hu : Uniform engine targets) (hengine : engine ≠ .postgres)
    (h : Planned engine targets job .createActor) {server : Server} {cut : Option ℕ}
    (hserver : Kept targets server engine)
    (hcut : engine = .sqlserver → ∀ k, cut = some k → CutWell targets server job k .createActor) :
    Kept targets (server.run cut job.plan).1 engine := by
  cases engine with
  | postgres => exact absurd rfl hengine
  | mysql =>
    have hplan : ∀ l ∈ job.plan.statements, ∀ name, l.2 ≠ .createUserForLogin name := by
      rcases h with ⟨password, database, flavor, hplan⟩ |
        ⟨target, htarget, password, role, flavor, hplan⟩
      · obtain ⟨password', heq⟩ := createActorPlan_mysql hplan
        rw [heq]
        simp [Plan.statements, located]
      · obtain ⟨password', privileges, heq⟩ := grantPlan_mysql hplan
        rw [heq]
        simp
    exact fun x hx => hserver x (users_subset_of_script hplan server cut hx)
  | sqlserver => exact tracked_of_minting (minting_of_planned hu h) hserver (hcut rfl)

theorem dropLogin_mem {username database flavor : String} {databases : List String} {plan : Plan}
    (h : deleteActorPlan .sqlserver username database flavor databases = .ok plan) :
    ("master", .dropLogin username) ∈ plan.statements := by
  obtain ⟨kind, names, -, hplan⟩ := deleteActorPlan_sqlserver h
  rw [hplan]
  simp

theorem kept_delete (hengine : engine ≠ .postgres) (h : Planned engine targets job .deleteActor)
    {server : Server} {cut : Option ℕ} (hserver : Kept targets server engine)
    (hcut : engine = .sqlserver → ∀ k, cut = some k → CutWell targets server job k .deleteActor) :
    Kept targets (server.run cut job.plan).1 engine := by
  obtain ⟨-, database, flavor, hplan⟩ := h
  cases engine with
  | postgres => exact absurd rfl hengine
  | mysql =>
    obtain heq := deleteActorPlan_mysql hplan
    have hno : ∀ l ∈ job.plan.statements, ∀ name, l.2 ≠ .createUserForLogin name := by
      rw [heq]
      simp [Plan.statements, located]
    exact fun x hx => hserver x (users_subset_of_script hno server cut hx)
  | sqlserver =>
    exact tracked_of_drops (deleteActorPlan_drops hengine hplan) ⟨_, dropLogin_mem hplan, rfl⟩ hserver
      (hcut rfl)

theorem kept_congr (s t : Server) (hprincipals : t.principals = s.principals)
    (husers : t.users = s.users) (h : Kept targets s engine) : Kept targets t engine := by
  cases engine with
  | sqlserver => exact tracked_congr s t hprincipals husers h
  | mysql | postgres =>
    intro x hx
    exact h x (husers ▸ hx)

theorem kept_job (hu : Uniform engine targets) (hengine : engine ≠ .postgres) {route : Route}
    (h : Planned engine targets job route) {server : Server} {cut : Option ℕ}
    (hserver : Kept targets server engine)
    (hcut : engine = .sqlserver → ∀ k, cut = some k → CutWell targets server job k route) :
    Kept targets (server.run cut job.plan).1 engine := by
  cases route with
  | createActor => exact kept_create hu hengine h hserver hcut
  | deleteActor => exact kept_delete hengine h hserver hcut
  | giveAccess =>
    obtain ⟨database, role, flavor, hplan⟩ := h
    exact kept_of_access (P := fun s => Kept targets s engine) kept_congr
      (giveAccessPlan_access hengine hplan) hserver cut
  | revokeAccess =>
    obtain ⟨database, role, flavor, hplan⟩ := h
    exact kept_of_access (P := fun s => Kept targets s engine) kept_congr
      (revokeAccessPlan_access hengine hplan) hserver cut

/-- Nothing of the actor is left on the server. -/
def Absent (targets : List Target) (user : String) (server : Server) : Prop :=
  user ∉ server.principals ∧ ∀ target ∈ targets, (target.database, user) ∉ server.users

theorem absent_of_delete (hu : Uniform engine targets) (hengine : engine ≠ .postgres)
    (h : Planned engine targets job .deleteActor) {server : Server} {cut : Option ℕ}
    (hserver : Kept targets server engine) (hdone : (server.run cut job.plan).2 = true) :
    Absent targets job.username (server.run cut job.plan).1 := by
  obtain ⟨hminted, database, flavor, hplan⟩ := h
  have hdrops := deleteActorPlan_drops hengine hplan
  obtain ⟨-, hexec⟩ := session.exec_of_script (Prod.ext rfl hdone :
    session.script server cut job.plan.statements = ((server.run cut job.plan).1, true))
  obtain ⟨less, hless, hwithout, hgone⟩ := exec_drops hdrops server
  obtain rfl := Option.some.inj (hless.symm.trans hexec)
  cases engine with
  | postgres => exact absurd rfl hengine
  | mysql =>
    have hdrop : (database, .dropUser job.username) ∈ job.plan.statements := by
      rw [deleteActorPlan_mysql hplan]
      exact List.mem_singleton_self _
    exact ⟨(hgone _ hdrop).1, fun target _ hmem =>
      hserver (target.database, job.username) (hwithout.users hmem) hminted⟩
  | sqlserver =>
    refine ⟨hgone _ (dropLogin_mem hplan), fun target htarget => ?_⟩
    have hdrop : (target.database, .dropDatabaseUser job.username) ∈ job.plan.statements := by
      obtain ⟨kind, names, hnames, heq⟩ := deleteActorPlan_sqlserver hplan
      have hne : targets.map Target.database ≠ [] := fun hnil =>
        hu.nonempty (List.map_eq_nil_iff.mp hnil)
      have hname : target.database ∈ names := (mem_databaseList hne hnames).mpr
        ⟨target.database, List.mem_map_of_mem htarget, hu.stripped target htarget⟩
      rw [heq]
      refine List.mem_append_left _ (List.mem_flatMap.mpr ⟨target.database, hname, ?_⟩)
      exact List.mem_append_right _ (List.mem_singleton_self _)
    exact hgone _ hdrop

/-! ### Runs of the adapter -/

def adapter (settings : Settings) : System Server Request where
  step server request := some (handle settings request server).1

/-- Every minted account that exists is listed. -/
def Reported (settings : Settings) (server : Server) : Prop :=
  (∀ user ∈ server.principals, IsMinted user → user ∈ getActors settings server) ∧
    ∀ x ∈ server.users, IsMinted x.2 → x.2 ∈ getActors settings server

/-- A delete that is answered with success leaves nothing of its actor. -/
def Deleted (settings : Settings) (server : Server) (request : Request) : Prop :=
  request.route = .deleteActor → (handle settings request server).2.status = 200 →
    ∀ targets ∈ settings.targets.toOption,
      Absent targets (deletedName request.payload) (handle settings request server).1

/-- A fault on SQL Server does not leave a login without a user. -/
def Unbroken (settings : Settings) (server : Server) (request : Request) : Prop :=
  settings.dry = false → ∀ targets ∈ settings.targets.toOption,
    (∀ target ∈ targets, target.engine = .sqlserver) →
      ∀ job ∈ (request.job settings targets).toOption, ∀ k ∈ request.cut,
        CutWell targets server job k request.route

def NoneMinted (server : Server) : Prop :=
  (∀ user ∈ server.principals, ¬IsMinted user) ∧ ∀ x ∈ server.users, ¬IsMinted x.2

theorem mem_actors {names : Finset String} {user : String} :
    user ∈ actors names ↔ user ∈ names ∧ IsMinted user := by
  rw [actors, Finset.mem_sort, Finset.mem_filter]

theorem mem_listActorsIn {server : Server} {target : Target} {user : String} :
    user ∈ listActorsIn server target ↔ (target.database, user) ∈ server.users ∧ IsMinted user := by
  rw [listActorsIn, mem_actors, Finset.mem_image]
  constructor
  · rintro ⟨⟨x, hx, rfl⟩, hminted⟩
    obtain ⟨hmem, hplace⟩ := Finset.mem_filter.mp hx
    exact ⟨hplace ▸ hmem, hminted⟩
  · rintro ⟨hmem, hminted⟩
    exact ⟨⟨(target.database, user), Finset.mem_filter.mpr ⟨hmem, rfl⟩, rfl⟩, hminted⟩

theorem mem_listAllActors_sqlserver (hu : Uniform .sqlserver targets) {server : Server} {user : String}
    (h : ∃ target ∈ targets, (target.database, user) ∈ server.users) (hminted : IsMinted user) :
    user ∈ listAllActors targets server := by
  obtain ⟨target, htarget, hmem⟩ := h
  cases targets with
  | nil => cases htarget
  | cons first rest =>
    have hengine : first.engine ≠ .mysql := by
      rw [hu.engine first List.mem_cons_self]
      exact nofun
    rw [listAllActors, if_neg hengine, mem_actors, List.mem_toFinset, List.mem_flatMap]
    exact ⟨⟨target, htarget, mem_listActorsIn.mpr ⟨hmem, hminted⟩⟩, hminted⟩

theorem mem_listAllActors_mysql (hu : Uniform .mysql targets) {server : Server} {user : String}
    (h : user ∈ server.principals) (hminted : IsMinted user) : user ∈ listAllActors targets server := by
  cases targets with
  | nil => exact absurd rfl hu.nonempty
  | cons first rest =>
    rw [listAllActors, if_pos (hu.engine first List.mem_cons_self), mem_actors]
    exact ⟨h, hminted⟩

theorem reported_of_kept (htargets : settings.targets = .ok targets) (hdry : settings.dry = false)
    (hu : Uniform engine targets) (hengine : engine ≠ .postgres) {server : Server}
    (h : Kept targets server engine) : Reported settings server := by
  have hactors : getActors settings server = listAllActors targets server := by
    unfold getActors
    rw [htargets, hdry]
    rfl
  unfold Reported
  rw [hactors]
  cases engine with
  | postgres => exact absurd rfl hengine
  | mysql =>
    exact ⟨fun user huser hminted => mem_listAllActors_mysql hu huser hminted,
      fun x hx hminted => absurd hminted (h x hx)⟩
  | sqlserver =>
    constructor
    · intro user huser hminted
      exact mem_listAllActors_sqlserver hu (h.logins user huser hminted) hminted
    · intro x hx hminted
      obtain ⟨target, htarget, hplace⟩ := h.users x hx hminted
      exact mem_listAllActors_sqlserver hu ⟨target, htarget, hplace ▸ hx⟩ hminted

theorem planOrRefusal_refused {requestId : String} {result : Result Plan} {refusal : Response}
    (h : planOrRefusal requestId result = .error refusal) : refusal.status ≠ 200 := by
  cases result with
  | ok plan => cases h
  | error e =>
    obtain rfl := Except.error.inj h
    cases e <;> exact nofun

theorem deleteActor_refused {refusal : Response} (h : deleteActor targets request = .error refusal) :
    refusal.status ≠ 200 := by
  unfold deleteActor at h
  by_cases hname : deletedName request.payload = ""
  · rw [if_pos hname] at h
    obtain rfl := Except.error.inj h
    decide
  · rw [if_neg hname] at h
    by_cases hminted : ¬IsMinted (deletedName request.payload)
    · rw [if_pos hminted] at h
      obtain rfl := Except.error.inj h
      exact nofun
    · rw [if_neg hminted] at h
      cases targets with
      | nil =>
        obtain rfl := Except.error.inj h
        exact nofun
      | cons server rest =>
        rcases bind_eq_error h with hplan | ⟨plan, -, h⟩
        · exact planOrRefusal_refused hplan
        · cases h

theorem deleteActor_name (h : deleteActor targets request = .ok job) :
    job.username = deletedName request.payload := by
  unfold deleteActor at h
  obtain ⟨-, h⟩ := raiseIf_eq_ok h
  obtain ⟨-, h⟩ := raiseIf_eq_ok h
  cases targets with
  | nil => cases h
  | cons server rest =>
    obtain ⟨plan, -, h⟩ := bind_eq_ok h
    obtain rfl := Except.ok.inj h
    rfl

/-- What a request does: it is refused, or described, or its plan is run. -/
theorem handle_cases (request : Request) (htargets : settings.targets = .ok targets) (server : Server) :
    (∃ refusal, request.job settings targets = .error refusal ∧
      handle settings request server = (server, refusal)) ∨
    ∃ job, request.job settings targets = .ok job ∧
      handle settings request server = applyJob settings request job server := by
  unfold handle
  rw [htargets]
  cases hjob : request.job settings targets with
  | error refusal =>
    dsimp only
    rw [hjob]
    exact .inl ⟨refusal, rfl, rfl⟩
  | ok job =>
    dsimp only
    rw [hjob]
    exact .inr ⟨job, rfl, rfl⟩

theorem applyJob_dry (hdry : settings.dry = true) (server : Server) :
    (applyJob settings request job server).1 = server := by
  rw [applyJob, if_pos hdry]

theorem applyJob_run (request : Request) (job : Job) (hdry : settings.dry = false) (server : Server) :
    (applyJob settings request job server).1 = (server.run request.cut job.plan).1 ∧
      ((applyJob settings request job server).2.status = 200 →
        (server.run request.cut job.plan).2 = true) := by
  rw [applyJob, if_neg (hdry ▸ Bool.false_ne_true)]
  refine ⟨rfl, fun hstatus => ?_⟩
  by_contra hdone
  simp only [hdone, if_false] at hstatus
  exact absurd hstatus nofun

/-- While nothing minted exists there is nothing to list and nothing to delete. -/
theorem deleted_of_noneMinted {server : Server} (h : NoneMinted server)
    (hsame : (handle settings request server).1 = server) : Deleted settings server request := by
  intro hroute hstatus targets htargets
  rw [hsame]
  have htargets : settings.targets = .ok targets := by
    cases hresult : settings.targets with
    | error problem =>
      rw [hresult] at htargets
      cases htargets
    | ok found =>
      rw [hresult] at htargets
      exact congrArg _ (Option.some.inj htargets)
  obtain ⟨engine, -, hu⟩ := targets_uniform htargets
  rcases handle_cases request htargets server with
    ⟨refusal, hjob, hhandle⟩ | ⟨job, hjob, -⟩
  · rw [hhandle] at hstatus
    rw [Request.job, hroute] at hjob
    exact absurd hstatus (deleteActor_refused hjob)
  · have hplanned := job_planned hu hjob
    rw [hroute] at hplanned
    rw [Request.job, hroute] at hjob
    rw [← deleteActor_name hjob]
    exact ⟨fun hmem => h.1 _ hmem hplanned.1, fun target _ hmem => h.2 _ hmem hplanned.1⟩

theorem step_of_kept (htargets : settings.targets = .ok targets) (hdry : settings.dry = false)
    (hu : Uniform engine targets) (hengine : engine ≠ .postgres) {server : Server}
    (h : Kept targets server engine) (hunbroken : Unbroken settings server request) :
    Kept targets (handle settings request server).1 engine ∧ Deleted settings server request := by
  rcases handle_cases request htargets server with
    ⟨refusal, hjob, hhandle⟩ | ⟨job, hjob, hhandle⟩
  · rw [hhandle]
    refine ⟨h, fun hroute hstatus => ?_⟩
    rw [hhandle] at hstatus
    rw [Request.job, hroute] at hjob
    exact absurd hstatus (deleteActor_refused hjob)
  · have hplanned := job_planned hu hjob
    obtain ⟨hserver, hdone⟩ := applyJob_run request job hdry server
    have hcut : engine = .sqlserver → ∀ k, request.cut = some k →
        CutWell targets server job k request.route := by
      rintro rfl k hk
      refine hunbroken hdry targets ?_ hu.engine job ?_ k hk
      · rw [htargets]
        rfl
      · rw [hjob]
        rfl
    constructor
    · rw [hhandle, hserver]
      exact kept_job hu hengine hplanned h hcut
    · intro hroute hstatus targets' htargets'
      rw [htargets] at htargets'
      obtain rfl := Option.some.inj htargets'
      rw [hhandle] at hstatus ⊢
      rw [hserver]
      rw [hroute] at hplanned
      rw [Request.job, hroute] at hjob
      rw [← deleteActor_name hjob]
      exact absent_of_delete hu hengine hplanned h (hdone hstatus)

theorem handle_unconfigured {problem : String} (h : settings.targets = .error problem)
    (server : Server) : (handle settings request server).1 = server := by
  unfold handle
  rw [h]

theorem handle_dry (htargets : settings.targets = .ok targets) (hdry : settings.dry = true)
    (server : Server) : (handle settings request server).1 = server := by
  rcases handle_cases request htargets server with
    ⟨refusal, -, hhandle⟩ | ⟨job, -, hhandle⟩
  · rw [hhandle]
  · rw [hhandle, applyJob_dry hdry]

/-- What a run of the adapter is claimed to do. -/
def Found (settings : Settings) (server : Server) (requests : List Request) : Prop :=
  (adapter settings).Always (Reported settings) server requests ∧
    (adapter settings).Along (Deleted settings) server requests

theorem found_of_step {P : Server → Prop} (hreported : ∀ s, P s → Reported settings s)
    (hstep : ∀ s request, P s → Unbroken settings s request →
      P (handle settings request s).1 ∧ Deleted settings s request)
    {server : Server} (hserver : P server) {requests : List Request}
    (h : (adapter settings).Along (Unbroken settings) server requests) :
    Found settings server requests := by
  constructor
  · refine (adapter settings).always_mono hreported ((adapter settings).always_of_along ?_ hserver h)
    intro s request t hs hunbroken ht
    obtain rfl := Option.some.inj ht
    exact (hstep s request hs hunbroken).1
  · refine (adapter settings).along_of_along ?_ hserver h
    intro s request t hs hunbroken ht
    obtain rfl := Option.some.inj ht
    exact hstep s request hs hunbroken

/-- On a server without minted accounts of others, as long as no fault on SQL Server comes between a
login and its first user or between its last user and it, every minted account that exists is listed
and a delete that succeeds leaves nothing of its actor. -/
theorem accounts_are_found (settings : Settings) (server : Server) (hserver : NoneMinted server)
    (requests : List Request)
    (h : (adapter settings).Along (Unbroken settings) server requests) :
    Found settings server requests := by
  have hnone : ∀ s, NoneMinted s → Reported settings s := fun s hs =>
    ⟨fun user huser hminted => absurd hminted (hs.1 user huser),
      fun x hx hminted => absurd hminted (hs.2 x hx)⟩
  have hidle : (∀ request s, (handle settings request s).1 = s) → Found settings server requests := by
    intro hsame
    refine found_of_step hnone (fun s request hs _ => ?_) hserver h
    exact ⟨(hsame request s).symm ▸ hs, deleted_of_noneMinted hs (hsame request s)⟩
  cases htargets : settings.targets with
  | error problem => exact hidle fun request s => handle_unconfigured htargets s
  | ok targets =>
    cases hdry : settings.dry with
    | true => exact hidle fun request s => handle_dry htargets hdry s
    | false =>
      obtain ⟨engine, hengine, hu⟩ := targets_uniform htargets
      have hkept : Kept targets server engine := by
        cases engine with
        | sqlserver =>
          exact ⟨fun user huser hminted => absurd hminted (hserver.1 user huser),
            fun x hx hminted => absurd hminted (hserver.2 x hx)⟩
        | mysql | postgres => exact hserver.2
      exact found_of_step (fun s hs => reported_of_kept htargets hdry hu hengine hs)
        (fun s request hs hunbroken => step_of_kept htargets hdry hu hengine hs hunbroken) hkept h

/-! ### Faults between a login and its users -/

instance (settings : Settings) (server : Server) : Decidable (Reported settings server) :=
  inferInstanceAs (Decidable ((∀ user ∈ server.principals, IsMinted user →
      user ∈ getActors settings server) ∧
    ∀ x ∈ server.users, IsMinted x.2 → x.2 ∈ getActors settings server))

instance (user : String) : ∀ statement, Decidable (Statement.Creates user statement)
  | .createUser name _ | .createRole name _ | .createLogin name _ =>
    inferInstanceAs (Decidable (name = user))
  | .dropUser _ | .grant .. | .revoke .. | .reassignOwned _ | .dropOwned _ | .dropRole _
  | .grantDatabase .. | .grantSchema .. | .grantTables .. | .revokeTables .. | .revokeSchema .. | .revokeDatabase ..
  | .createUserForLogin _ | .addMember .. | .dropMember .. | .dropLogin _ | .dropDatabaseUser _
  | .use _ => instDecidableFalse

instance (server : Server) (user : String) (taken : List (String × Statement)) :
    Decidable (Whole server user taken) :=
  inferInstanceAs (Decidable ((∃ l ∈ taken, l.2.Creates user) →
    (∃ l ∈ taken, l.2 = .createUserForLogin user) ∨ user ∈ server.principals))

instance (targets : List Target) (server : Server) (user : String) (taken : List (String × Statement)) :
    Decidable (Removed targets server user taken) :=
  inferInstanceAs (Decidable (user ∉ server.principals ∨ (∃ l ∈ taken, l.2 = .dropLogin user) ∨
    ∃ target ∈ targets, (target.database, user) ∈ server.users ∧
      (target.database, Statement.dropDatabaseUser user) ∉ taken))

instance (targets : List Target) (server : Server) (job : Job) (k : ℕ) :
    ∀ route, Decidable (CutWell targets server job k route)
  | .createActor => inferInstanceAs (Decidable (Whole ..))
  | .deleteActor => inferInstanceAs (Decidable (Removed ..))
  | .giveAccess | .revokeAccess => instDecidableTrue

instance (settings : Settings) (server : Server) (request : Request) :
    Decidable (Unbroken settings server request) :=
  inferInstanceAs (Decidable (settings.dry = false → ∀ targets ∈ settings.targets.toOption,
    (∀ target ∈ targets, target.engine = .sqlserver) →
      ∀ job ∈ (request.job settings targets).toOption, ∀ k ∈ request.cut,
        CutWell targets server job k request.route))

def sampleSettings : Settings := ⟨"sqlserver", "db1", "", "", "app,crm", "", some "false"⟩

def sampleServer : Server := ⟨∅, ∅, ∅⟩

def createRequest (cut : Option ℕ) : Request :=
  ⟨.createActor, [("actor", .obj [("email", .str "ada@x.y")])], "r1", "pw", cut⟩

def deleteRequest (cut : Option ℕ) : Request :=
  ⟨.deleteActor, [("actor_identifier", .str "jit_ada_x_y_r1")], "r2", "", cut⟩

theorem accounts_not_found :
    ¬Found sampleSettings sampleServer [createRequest (some 1)] ∧
      ¬Found sampleSettings sampleServer [createRequest none, deleteRequest (some 4)] := by
  have hcreate : ¬(adapter sampleSettings).Always (Reported sampleSettings) sampleServer
      [createRequest (some 1)] := by decide +kernel
  have hdelete : ¬(adapter sampleSettings).Always (Reported sampleSettings) sampleServer
      [createRequest none, deleteRequest (some 4)] := by decide +kernel
  exact ⟨fun h => hcreate h.1, fun h => hdelete h.1⟩

theorem faults_found :
    Found sampleSettings sampleServer
      [createRequest (some 3), createRequest none, deleteRequest (some 1), deleteRequest none] :=
  accounts_are_found sampleSettings sampleServer ⟨by simp [sampleServer], by simp [sampleServer]⟩ _
    (by decide +kernel)

end Databases
