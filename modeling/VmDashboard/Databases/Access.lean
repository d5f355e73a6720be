import VmDashboard.Databases.Plans

/-!
# Giving and revoking access

Runs of the four plans over one server, with a record of the accesses that were given and not revoked
since: whether a revoke takes its own level and no other, and can be run again.
-/

namespace Databases
open Machine (System)

structure Access where
  actor : String
  database : String
  role : Role
  deriving DecidableEq

inductive Call where
  | createActor (username password database : String) (databases : List String)
  | giveAccess (username database : String) (role : Role)
  | revokeAccess (username database : String) (role : Role)
  | deleteActor (username database : String) (databases : List String)
  deriving DecidableEq

def Call.plan (engine : Engine) (flavor : String) : Call → Result Plan
  | .createActor username password database databases =>
    createActorPlan engine username password database flavor databases
  | .giveAccess username database role => giveAccessPlan engine username database role.text flavor
  | .revokeAccess username database role => revokeAccessPlan engine username database role.text flavor
  | .deleteActor username database databases =>
    deleteActorPlan engine username database flavor databases

/-- The accesses given and not revoked after the call, which was `done` or failed. -/
def Call.record (done : Bool) (given : Finset Access) : Call → Finset Access
  | .createActor .. => given
  | .giveAccess username database role =>
    if done then insert ⟨username, database, role⟩ given else given
  | .revokeAccess username database role => given.erase ⟨username, database, role⟩
  | .deleteActor username _ _ => given.filter fun access => access.actor ≠ username

structure World where
  server : Server
  given : Finset Access
  deriving DecidableEq

variable (engine : Engine) (flavor : String)

/-- A plan is run when its builder does not raise. -/
def calls : System World Call where
  step w call :=
    match call.plan engine flavor with
    | .error _ => none
    | .ok plan =>
      let (server, done) := w.server.run none plan
      some { server, given := call.record done w.given }

/-- Every access given and not revoked is effective. -/
def Effective (w : World) : Prop :=
  ∀ access ∈ w.given,
    rights access.actor access.database (engine.level access.role) ⊆ w.server.held

/-- The privileges only this access was for are gone. -/
def Revoked (w : World) (actor database : String) (role : Role) : Prop :=
  ∀ privilege ∈ engine.level role,
    (∀ access ∈ w.given, access.actor = actor → access.database = database →
      privilege ∉ engine.level access.role) →
    ⟨actor, database, privilege⟩ ∉ w.server.held

/-- Running the plan of the call again succeeds and changes nothing. -/
def Settled (w : World) (call : Call) : Prop :=
  ∀ plan ∈ (call.plan engine flavor).toOption, w.server.run none plan = (w.server, true)

/-- What is claimed of a call that ends in the world `w`. -/
def Sound (call : Call) (w : World) : Prop :=
  Effective engine w ∧
    match call with
    | .revokeAccess actor database role =>
      Revoked engine w actor database role ∧ Settled engine flavor w call
    | .deleteActor .. => Settled engine flavor w call
    | _ => True

def SoundCall (w : World) (call : Call) : Prop :=
  ∀ t ∈ (calls engine flavor).step w call, Sound engine flavor call t

/-- The engine does not refuse to revoke, the first time and the second. -/
def Repeatable (server : Server) (actor database : String) (role : Role) : Engine → Prop
  | .mysql => ∃ x ∈ server.held,
      x.holder = actor ∧ x.database = database ∧ x.privilege ∉ Engine.mysql.level role
  | .postgres => actor ∈ server.principals
  | .sqlserver => True

/-- The calls that do not meet an overlapping level or a plan their engine cannot run twice. -/
def Clear (w : World) : Call → Prop
  | .revokeAccess actor database role =>
    (∀ access ∈ w.given, access.actor = actor → access.database = database → access.role = role) ∧
      Repeatable w.server actor database role engine
  | .deleteActor .. => engine ≠ .postgres
  | _ => True

/-! ### What each plan does to the server -/

variable {engine : Engine} {flavor : String}

/-- The statements that make a principal or a user and give it nothing. -/
def Statement.Creating : Statement → Prop
  | .createUser .. | .createRole .. | .createLogin .. | .createUserForLogin _ | .use _ => True
  | _ => False

theorem held_of_creating {s t : Server} {l : String × Statement} (hl : l.2.Creating)
    (h : session.step s l = some t) : t.held = s.held := by
  obtain ⟨database, statement⟩ := l
  simp only [session, Server.execute] at h
  split at h
  all_goals grind [Server.create, Statement.Creating]

theorem createActorPlan_creating {username password database : String} {databases : List String}
    {plan : Plan} (h : createActorPlan engine username password database flavor databases = .ok plan) :
    ∀ l ∈ plan.statements, l.2.Creating := by
  intro l hl
  cases engine with
  | mysql =>
    obtain ⟨password', rfl⟩ := createActorPlan_mysql h
    obtain rfl := List.mem_singleton.mp hl
    trivial
  | postgres =>
    obtain ⟨password', rfl⟩ := createActorPlan_postgres h
    obtain rfl := List.mem_singleton.mp hl
    trivial
  | sqlserver =>
    obtain ⟨password', kind, names, -, -, rfl⟩ := createActorPlan_sqlserver h
    rw [statements_createEntries] at hl
    rcases List.mem_cons.mp hl with rfl | hl
    · trivial
    · obtain ⟨name, -, hl⟩ := List.mem_flatMap.mp hl
      rcases List.mem_append.mp hl with henter | hcreate
      · obtain rfl := eq_use_of_mem_enter henter
        trivial
      · obtain rfl := List.mem_singleton.mp hcreate
        trivial

theorem create_held {username password database : String} {databases : List String} {plan : Plan}
    (h : createActorPlan engine username password database flavor databases = .ok plan)
    (server : Server) (cut : Option ℕ) : (server.run cut plan).1.held = server.held :=
  session.script_keeps (P := fun t => t.held = server.held)
    (fun _ _ l hl hs hstep => (held_of_creating (createActorPlan_creating h l hl) hstep).trans hs)
    rfl cut

theorem exec_pgGive {username database : String} {role : Role} {server : Server}
    (h : username ∈ server.principals) :
    session.exec server ((pgGive username database (some role)).map fun statement =>
        (database, statement)) =
      some (server.give username database (Engine.postgres.level role)) := by
  have hconnect : session.step server (database, .grantDatabase .connect database username) =
      some (server.give username database [.connect]) := if_pos h
  have husage : session.step (server.give username database [.connect])
      (database, .grantSchema .usage username) =
      some ((server.give username database [.connect]).give username database [.usage]) := if_pos h
  have htables : session.step (server.give username database ([.connect] ++ [.usage]))
      (database, .grantTables (pgDml (some role)) username) =
      some ((server.give username database ([.connect] ++ [.usage])).give username database
        (pgDml (some role))) := if_pos h
  rw [pgGive, List.map_cons, List.map_cons, List.map_cons, List.map_nil, System.exec_cons, hconnect,
    Option.bind_some, System.exec_cons, husage, Option.bind_some, ← Server.give_append]
  rw [System.exec_cons, htables, Option.bind_some, ← Server.give_append]
  rfl

theorem exec_pgTake {username database : String} {role : Role} {server : Server}
    (h : username ∈ server.principals) :
    session.exec server ((pgTake username database (some role)).map fun statement =>
        (database, statement)) =
      some (server.take username database (Engine.postgres.level role)) := by
  have htables : session.step server (database, .revokeTables (pgDml (some role)) username) =
      some (server.take username database (pgDml (some role))) := if_pos h
  have husage : session.step (server.take username database (pgDml (some role)))
      (database, .revokeSchema .usage username) =
      some ((server.take username database (pgDml (some role))).take username database [.usage]) :=
    if_pos h
  have hconnect : session.step (server.take username database (pgDml (some role) ++ [.usage]))
      (database, .revokeDatabase .connect database username) =
      some ((server.take username database (pgDml (some role) ++ [.usage])).take username database
        [.connect]) := if_pos h
  rw [pgTake, List.map_cons, List.map_cons, List.map_cons, List.map_nil, System.exec_cons, htables,
    Option.bind_some, System.exec_cons, husage, Option.bind_some, ← Server.take_append]
  rw [System.exec_cons, hconnect, Option.bind_some, ← Server.take_append, System.exec_nil]
  refine congrArg some (server.take_congr username database fun privilege => ?_)
  simp only [Engine.level, List.mem_append, List.mem_cons, List.not_mem_nil, or_false]
  tauto

theorem give_run {username database : String} {role : Role} {plan : Plan}
    (h : giveAccessPlan engine username database role.text flavor = .ok plan) (server : Server) :
    server.run none plan = (server, false) ∨
      server.run none plan = (server.give username database (engine.level role), true) := by
  unfold Server.run
  cases engine with
  | mysql =>
    obtain ⟨level, hlevel, rfl⟩ := giveAccessPlan_mysql h
    obtain rfl := Except.ok.inj (hlevel.symm.trans (checkRole_text role))
    by_cases hmem : username ∈ server.principals
    · have hstep : session.step server
          (database, .grant (Engine.mysql.level role) database username) =
          some (server.give username database (Engine.mysql.level role)) := if_pos hmem
      exact .inr (session.script_of_exec (session.exec_singleton hstep))
    · have hstep : session.step server
          (database, .grant (Engine.mysql.level role) database username) = none := if_neg hmem
      exact .inl (session.script_of_step_none hstep none [])
  | postgres =>
    obtain ⟨level, hlevel, rfl⟩ := giveAccessPlan_postgres h
    obtain rfl := Except.ok.inj (hlevel.symm.trans (checkRole_text role))
    by_cases hmem : username ∈ server.principals
    · exact .inr (session.script_of_exec (exec_pgGive hmem))
    · have hstep : session.step server (database, .grantDatabase .connect database username) = none :=
        if_neg hmem
      exact .inl (session.script_of_step_none hstep none _)
  | sqlserver =>
    obtain ⟨kind, level, roles, -, hlevel, hroles, rfl⟩ := giveAccessPlan_sqlserver h
    obtain rfl := Except.ok.inj (hlevel.symm.trans (checkRole_text role))
    obtain rfl := Except.ok.inj (hroles.symm.trans (mssqlRoles_eq role))
    rw [statements_accessEntries (f := fun name => .addMember name username) nofun, script_enter]
    by_cases hmem : (database, username) ∈ server.users
    · exact .inr (session.script_of_exec (server.exec_addMember username database hmem _))
    · have hstep : session.step server (database, .addMember .dataReader username) = none :=
        if_neg hmem
      cases role with
      | read => exact .inl (session.script_of_step_none hstep none _)
      | readwrite => exact .inl (session.script_of_step_none hstep none _)

/-- When the engine does not refuse to revoke. -/
def Revocable (engine : Engine) (server : Server) (actor database : String) : Prop :=
  match engine with
  | .mysql => server.HoldsOn actor database
  | .postgres => actor ∈ server.principals
  | .sqlserver => True

theorem revoke_run {username database : String} {role : Role} {plan : Plan}
    (h : revokeAccessPlan engine username database role.text flavor = .ok plan) {server : Server}
    (hserver : Revocable engine server username database) :
    server.run none plan = (server.take username database (engine.level role), true) := by
  unfold Server.run
  cases engine with
  | mysql =>
    obtain ⟨level, hlevel, rfl⟩ := revokeAccessPlan_mysql h
    obtain rfl := Except.ok.inj (hlevel.symm.trans (checkRole_text role))
    have hstep : session.step server
        (database, .revoke (Engine.mysql.level role) database username) =
        some (server.take username database (Engine.mysql.level role)) := if_pos hserver
    exact session.script_of_exec (session.exec_singleton hstep)
  | postgres =>
    obtain ⟨level, hlevel, rfl⟩ := revokeAccessPlan_postgres h
    obtain rfl := Except.ok.inj (hlevel.symm.trans (checkRole_text role))
    exact session.script_of_exec (exec_pgTake hserver)
  | sqlserver =>
    obtain ⟨kind, level, roles, hlevel, hroles, rfl⟩ := revokeAccessPlan_sqlserver h
    obtain rfl := Except.ok.inj (hlevel.symm.trans (checkRole_text role))
    obtain rfl := Except.ok.inj (hroles.symm.trans (mssqlRoles_eq role))
    rw [statements_accessEntries (f := fun name => .dropMember name username) nofun, script_enter]
    refine session.script_of_exec ((server.exec_dropMember username database _).trans ?_)
    exact congrArg some (server.take_congr username database fun _ => List.mem_reverse)

/-- A delete takes nothing of the other actors, and leaves nothing for a second one. -/
theorem delete_run {username database : String} {databases : List String} {plan : Plan}
    (hengine : engine ≠ .postgres)
    (h : deleteActorPlan engine username database flavor databases = .ok plan) (server : Server) :
    ∃ less, server.run none plan = (less, true) ∧ Without username server less ∧
      less.run none plan = (less, true) := by
  have hdrops := deleteActorPlan_drops hengine h
  obtain ⟨less, hexec, hless, hgone⟩ := exec_drops hdrops server
  exact ⟨less, session.script_of_exec hexec, hless, session.script_of_exec (exec_gone hdrops hgone)⟩

/-! ### What a call keeps -/

theorem calls_step {w t : World} {call : Call} (h : (calls engine flavor).step w call = some t) :
    ∃ plan, call.plan engine flavor = .ok plan ∧
      t = ⟨(w.server.run none plan).1, call.record (w.server.run none plan).2 w.given⟩ := by
  cases hplan : call.plan engine flavor with
  | error e =>
    simp only [calls, hplan] at h
    cases h
  | ok plan =>
    simp only [calls, hplan] at h
    exact ⟨plan, rfl, (Option.some.inj h).symm⟩

theorem settled_of_plan {w : World} {call : Call} {plan : Plan}
    (hplan : call.plan engine flavor = .ok plan) (h : w.server.run none plan = (w.server, true)) :
    Settled engine flavor w call := by
  intro plan' hplan'
  rw [hplan] at hplan'
  obtain rfl := Option.some.inj hplan'
  exact h

theorem effective_mono {server more : Server} {given : Finset Access}
    (h : Effective engine ⟨server, given⟩) (hheld : server.held ⊆ more.held) :
    Effective engine ⟨more, given⟩ := fun access hmem => (h access hmem).trans hheld

/-- A revoke takes nothing that an access of another actor or on another database needs. -/
theorem rights_subset_take {server : Server} {actor database : String} {role : Role} {access : Access}
    (h : rights access.actor access.database (engine.level access.role) ⊆ server.held)
    (hne : ¬(access.actor = actor ∧ access.database = database)) :
    rights access.actor access.database (engine.level access.role) ⊆
      (server.take actor database (engine.level role)).held := by
  intro x hx
  refine Finset.mem_sdiff.mpr ⟨h hx, fun htaken => hne ?_⟩
  obtain ⟨hholder, hdatabase, -⟩ := mem_rights.mp hx
  obtain ⟨hholder', hdatabase', -⟩ := mem_rights.mp htaken
  exact ⟨hholder.symm.trans hholder', hdatabase.symm.trans hdatabase'⟩

theorem revocable_of_clear {w : World} {actor database : String} {role : Role}
    (h : Clear engine w (.revokeAccess actor database role)) :
    Revocable engine w.server actor database ∧
      Revocable engine (w.server.take actor database (engine.level role)) actor database := by
  obtain ⟨-, h⟩ := h
  cases engine with
  | mysql =>
    obtain ⟨x, hx, hholder, hdatabase, hother⟩ := h
    refine ⟨⟨x, hx, hholder, hdatabase⟩, x, ?_, hholder, hdatabase⟩
    exact Finset.mem_sdiff.mpr ⟨hx, fun htaken => hother (mem_rights.mp htaken).2.2⟩
  | postgres => exact ⟨h, h⟩
  | sqlserver => exact ⟨trivial, trivial⟩

theorem revoke_sound {w t : World} {actor database : String} {role : Role} (hw : Effective engine w)
    (hclear : Clear engine w (.revokeAccess actor database role))
    (h : (calls engine flavor).step w (.revokeAccess actor database role) = some t) :
    Effective engine t ∧ Revoked engine t actor database role ∧
      Settled engine flavor t (.revokeAccess actor database role) := by
  obtain ⟨plan, hplan, rfl⟩ := calls_step h
  obtain ⟨hnow, hagain⟩ := revocable_of_clear hclear
  rw [revoke_run hplan hnow]
  refine ⟨?_, ?_, ?_⟩
  · intro access hmem
    obtain ⟨hne, hgiven⟩ := Finset.mem_erase.mp hmem
    refine rights_subset_take (hw access hgiven) ?_
    rintro ⟨rfl, rfl⟩
    have hrole := hclear.1 access hgiven rfl rfl
    exact hne (by rw [← hrole])
  · intro privilege hlevel _ hheld
    exact (Finset.mem_sdiff.mp hheld).2 (mem_rights.mpr ⟨rfl, rfl, hlevel⟩)
  · refine settled_of_plan hplan ?_
    exact (revoke_run hplan hagain).trans (congrArg (·, true) (Server.take_idem _ _ _ _))

theorem delete_sound {w t : World} {actor database : String} {databases : List String}
    (hw : Effective engine w) (hengine : engine ≠ .postgres)
    (h : (calls engine flavor).step w (.deleteActor actor database databases) = some t) :
    Effective engine t ∧ Settled engine flavor t (.deleteActor actor database databases) := by
  obtain ⟨plan, hplan, rfl⟩ := calls_step h
  obtain ⟨less, hrun, hless, hagain⟩ := delete_run hengine hplan w.server
  rw [hrun]
  constructor
  · intro access hmem
    obtain ⟨hgiven, hne⟩ := Finset.mem_filter.mp hmem
    intro x hx
    exact hless.otherHeld x (hw access hgiven hx) fun hholder =>
      hne ((mem_rights.mp hx).1.symm.trans hholder)
  · exact settled_of_plan hplan hagain

theorem give_effective {w t : World} {actor database : String} {role : Role}
    (hw : Effective engine w)
    (h : (calls engine flavor).step w (.giveAccess actor database role) = some t) :
    Effective engine t := by
  obtain ⟨plan, hplan, rfl⟩ := calls_step h
  rcases give_run hplan w.server with hrun | hrun
  · rw [hrun]
    exact hw
  · rw [hrun]
    intro access hmem
    rcases Finset.mem_insert.mp hmem with rfl | hgiven
    · exact Finset.subset_union_right
    · exact (hw access hgiven).trans Finset.subset_union_left

theorem create_effective {w t : World} {username password database : String}
    {databases : List String} (hw : Effective engine w)
    (h : (calls engine flavor).step w (.createActor username password database databases) = some t) :
    Effective engine t := by
  obtain ⟨plan, hplan, rfl⟩ := calls_step h
  exact effective_mono hw (create_held hplan w.server none).symm.subset

theorem sound_step {w t : World} {call : Call} (hw : Effective engine w)
    (hclear : Clear engine w call) (h : (calls engine flavor).step w call = some t) :
    Effective engine t ∧ Sound engine flavor call t := by
  cases call with
  | createActor =>
    have ht := create_effective hw h
    exact ⟨ht, ht, trivial⟩
  | giveAccess =>
    have ht := give_effective hw h
    exact ⟨ht, ht, trivial⟩
  | revokeAccess =>
    obtain ⟨ht, hrevoked, hsettled⟩ := revoke_sound hw hclear h
    exact ⟨ht, ht, hrevoked, hsettled⟩
  | deleteActor =>
    obtain ⟨ht, hsettled⟩ := delete_sound hw hclear h
    exact ⟨ht, ht, hsettled⟩

/-- From any server on which no access has been given, every call of a run of clear calls revokes its
own level, leaves every other access effective, and can be run again. -/
theorem revoking_is_exact (engine : Engine) (flavor : String) (server : Server) (ls : List Call)
    (h : (calls engine flavor).Along (Clear engine) ⟨server, ∅⟩ ls) :
    (calls engine flavor).Along (SoundCall engine flavor) ⟨server, ∅⟩ ls :=
  (calls engine flavor).along_step (I := Effective engine)
    (P := fun _ call t => Sound engine flavor call t)
    (fun _ _ _ hw hclear hstep => sound_step hw hclear hstep) (by intro _ h; cases h) h

/-! ### Overlapping levels and second runs -/

instance (w : World) : Decidable (Effective engine w) :=
  inferInstanceAs (Decidable (∀ access ∈ w.given, (_ : Finset Held) ⊆ w.server.held))

instance (w : World) (actor database : String) (role : Role) :
    Decidable (Revoked engine w actor database role) :=
  inferInstanceAs (Decidable (∀ privilege ∈ engine.level role,
    (∀ access ∈ w.given, access.actor = actor → access.database = database →
      privilege ∉ engine.level access.role) → _ ∉ w.server.held))

instance (w : World) (call : Call) : Decidable (Settled engine flavor w call) :=
  inferInstanceAs (Decidable (∀ plan ∈ (call.plan engine flavor).toOption, w.server.run none plan = _))

instance : ∀ (call : Call) (w : World), Decidable (Sound engine flavor call w)
  | .createActor .., w | .giveAccess .., w => inferInstanceAs (Decidable (Effective engine w ∧ True))
  | .revokeAccess actor database role, w =>
    inferInstanceAs (Decidable (Effective engine w ∧ Revoked engine w actor database role ∧
      Settled engine flavor w (.revokeAccess actor database role)))
  | .deleteActor username database databases, w =>
    inferInstanceAs (Decidable (Effective engine w ∧
      Settled engine flavor w (.deleteActor username database databases)))

instance (w : World) (call : Call) : Decidable (SoundCall engine flavor w call) :=
  inferInstanceAs (Decidable (∀ t ∈ (calls engine flavor).step w call, Sound engine flavor call t))

instance (server : Server) (actor database : String) (role : Role) :
    ∀ engine, Decidable (Repeatable server actor database role engine)
  | .mysql => inferInstanceAs (Decidable (∃ x ∈ server.held, _ ∧ _ ∧ _))
  | .postgres => inferInstanceAs (Decidable (_ ∈ _))
  | .sqlserver => instDecidableTrue

instance (w : World) : ∀ call, Decidable (Clear engine w call)
  | .createActor .. | .giveAccess .. => instDecidableTrue
  | .revokeAccess actor database role =>
    inferInstanceAs (Decidable ((∀ access ∈ w.given, access.actor = actor →
      access.database = database → access.role = role) ∧
        Repeatable w.server actor database role engine))
  | .deleteActor .. => inferInstanceAs (Decidable (engine ≠ .postgres))

def bareServer : Server := ⟨∅, ∅, ∅⟩

/-- Two levels on one database, one of them revoked. -/
def overlapping : List Call :=
  [.createActor "jit_ada_x" "pw" "app" [], .giveAccess "jit_ada_x" "app" .read,
    .giveAccess "jit_ada_x" "app" .readwrite, .revokeAccess "jit_ada_x" "app" .read]

/-- One level, given and revoked. -/
def givenOnce : List Call :=
  [.createActor "jit_ada_x" "pw" "app" [], .giveAccess "jit_ada_x" "app" .read,
    .revokeAccess "jit_ada_x" "app" .read]

theorem revoking_not_exact :
    ¬(calls .mysql "").Along (SoundCall .mysql "") ⟨bareServer, ∅⟩ overlapping ∧
      ¬(calls .mysql "").Along (SoundCall .mysql "") ⟨bareServer, ∅⟩ givenOnce ∧
      ¬(calls .postgres "").Along (SoundCall .postgres "") ⟨bareServer, ∅⟩
        [.createActor "jit_ada_x" "pw" "app" [], .deleteActor "jit_ada_x" "app" []] := by
  refine ⟨?_, ?_, ?_⟩ <;> decide +kernel

theorem givenOnce_exact :
    (calls .sqlserver "azure_sql").Along (SoundCall .sqlserver "azure_sql") ⟨bareServer, ∅⟩
      (givenOnce ++ [.giveAccess "jit_ada_x" "app" .readwrite, .deleteActor "jit_ada_x" "app" []]) :=
  revoking_is_exact .sqlserver "azure_sql" bareServer _ (by decide +kernel)

end Databases
