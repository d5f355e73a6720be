import Mathlib.Data.Finset.Image
import Mathlib.Data.Finset.SDiff
import VmDashboard.Databases.Sql
import VmDashboard.Machine.Script

/-!
# A database server and what the statements do to it

The accounts, roles or logins of the server, the users of its databases, and the privileges and role
memberships they hold. A statement acts on them as its engine documents, `none` where the engine
answers with an error; every statement commits by itself.
-/

namespace Databases
open Machine (System)

structure Held where
  holder : String
  database : String
  privilege : Privilege
  deriving DecidableEq

structure Server where
  principals : Finset String
  /-- SQL Server's database users, each with its database. -/
  users : Finset (String × String)
  held : Finset Held
  deriving DecidableEq

def rights (user database : String) (privileges : List Privilege) : Finset Held :=
  (privileges.map fun privilege => (⟨user, database, privilege⟩ : Held)).toFinset

namespace Server

def create (server : Server) (user : String) : Option Server :=
  if user ∈ server.principals then none
  else some { server with principals := insert user server.principals }

def give (server : Server) (user database : String) (privileges : List Privilege) : Server :=
  { server with held := server.held ∪ rights user database privileges }

def take (server : Server) (user database : String) (privileges : List Privilege) : Server :=
  { server with held := server.held \ rights user database privileges }

def HoldsAny (server : Server) (user : String) : Prop := ∃ x ∈ server.held, x.holder = user

def HoldsOn (server : Server) (user database : String) : Prop :=
  ∃ x ∈ server.held, x.holder = user ∧ x.database = database

instance (server : Server) (user : String) : Decidable (server.HoldsAny user) :=
  inferInstanceAs (Decidable (∃ x ∈ _, _))

instance (server : Server) (user database : String) : Decidable (server.HoldsOn user database) :=
  inferInstanceAs (Decidable (∃ x ∈ _, _))

/-- One statement on a connection to `database`. -/
def execute (server : Server) (database : String) : Statement → Option Server
  | .createUser user _ => server.create user
  | .dropUser user => some { server with
      principals := server.principals.erase user
      held := server.held.filter fun x => x.holder ≠ user }
  | .grant privileges target user =>
    if user ∈ server.principals then some (server.give user target privileges) else none
  | .revoke privileges target user =>
    -- an account without a row for the database has nothing that could be revoked
    if server.HoldsOn user target then some (server.take user target privileges) else none
  | .createRole user _ => server.create user
  | .reassignOwned user => if user ∈ server.principals then some server else none
  | .dropOwned user =>
    -- what the role holds in this database, and on the databases themselves
    if user ∈ server.principals then
      some { server with held := server.held.filter fun x =>
        ¬(x.holder = user ∧ (x.database = database ∨ x.privilege = .connect)) }
    else none
  | .dropRole user =>
    if user ∉ server.principals then some server
    else if server.HoldsAny user then none
    else some { server with principals := server.principals.erase user }
  | .grantDatabase privilege target user =>
    if user ∈ server.principals then some (server.give user target [privilege]) else none
  | .grantSchema privilege user =>
    if user ∈ server.principals then some (server.give user database [privilege]) else none
  | .grantTables privileges user =>
    if user ∈ server.principals then some (server.give user database privileges) else none
  | .revokeTables privileges user =>
    if user ∈ server.principals then some (server.take user database privileges) else none
  | .revokeSchema privilege user =>
    if user ∈ server.principals then some (server.take user database [privilege]) else none
  | .revokeDatabase privilege target user =>
    if user ∈ server.principals then some (server.take user target [privilege]) else none
  | .createLogin user _ => server.create user
  | .createUserForLogin user =>
    if (database, user) ∉ server.users ∧ user ∈ server.principals then
      some { server with users := insert (database, user) server.users }
    else none
  | .addMember role user =>
    if (database, user) ∈ server.users then some (server.give user database [role]) else none
  | .dropMember role user => some (server.take user database [role])
  | .dropLogin user => some { server with principals := server.principals.erase user }
  | .dropDatabaseUser user =>
    if (database, user) ∈ server.users then
      some { server with
        users := server.users.erase (database, user)
        held := server.held.filter fun x => ¬(x.holder = user ∧ x.database = database) }
    else some server
  | .use _ => some server

end Server

/-! ### Running a plan -/

/-- The statements of one connection, each with the database it runs in. -/
def located (database : String) : List Statement → List (String × Statement)
  | [] => []
  | .use target :: rest => (target, .use target) :: located target rest
  | statement :: rest => (database, statement) :: located database rest

/-- The statements of a plan: every entry has a connection of its own. -/
def Plan.statements (plan : Plan) : List (String × Statement) :=
  plan.flatMap fun entry => located entry.1 entry.2

def session : System Server (String × Statement) where
  step server statement := server.execute statement.1 statement.2

/-- `_execute`, cut after some of the statements when there is a fault. -/
def Server.run (server : Server) (cut : Option ℕ) (plan : Plan) : Server × Bool :=
  session.script server cut plan.statements

/-! ### Giving and taking -/

theorem rights_append (user database : String) (ps qs : List Privilege) :
    rights user database (ps ++ qs) = rights user database ps ∪ rights user database qs := by
  simp only [rights, List.map_append, List.toFinset_append]

theorem mem_rights {user database : String} {privileges : List Privilege} {x : Held} :
    x ∈ rights user database privileges ↔
      x.holder = user ∧ x.database = database ∧ x.privilege ∈ privileges := by
  simp only [rights, List.mem_toFinset, List.mem_map]
  constructor
  · rintro ⟨privilege, hmem, rfl⟩
    exact ⟨rfl, rfl, hmem⟩
  · rintro ⟨rfl, rfl, hmem⟩
    exact ⟨x.privilege, hmem, rfl⟩

namespace Server
variable (server : Server) (user database : String)

theorem give_append (ps qs : List Privilege) :
    server.give user database (ps ++ qs) =
      (server.give user database ps).give user database qs := by
  simp only [give, rights_append, Finset.union_assoc]

theorem take_append (ps qs : List Privilege) :
    server.take user database (ps ++ qs) =
      (server.take user database ps).take user database qs := by
  simp only [take, rights_append, sdiff_sdiff_left, Finset.sup_eq_union]

/-- The order of the privileges does not matter. -/
theorem take_congr {ps qs : List Privilege} (h : ∀ p, p ∈ ps ↔ p ∈ qs) :
    server.take user database ps = server.take user database qs := by
  have hrights : rights user database ps = rights user database qs := by
    ext x
    rw [mem_rights, mem_rights, h]
  rw [take, take, hrights]

theorem take_idem (ps : List Privilege) :
    (server.take user database ps).take user database ps = server.take user database ps := by
  simp only [take, sdiff_idem]

/-- Every role is added to a user of the database. -/
theorem exec_addMember (h : (database, user) ∈ server.users) (roles : List Privilege) :
    session.exec server (roles.map fun role => (database, .addMember role user)) =
      some (server.give user database roles) := by
  induction roles generalizing server with
  | nil => simp [give, rights]
  | cons role roles ih =>
    have hstep : session.step server (database, .addMember role user) =
        some (server.give user database [role]) := if_pos h
    rw [List.map_cons, System.exec_cons, hstep, Option.bind_some,
      ih (server.give user database [role]) h, ← give_append]
    rfl

theorem exec_dropMember (roles : List Privilege) :
    session.exec server (roles.map fun role => (database, .dropMember role user)) =
      some (server.take user database roles) := by
  induction roles generalizing server with
  | nil => simp [take, rights]
  | cons role roles ih =>
    have hstep : session.step server (database, .dropMember role user) =
        some (server.take user database [role]) := rfl
    rw [List.map_cons, System.exec_cons, hstep, Option.bind_some, ih, ← take_append]
    rfl

end Server

/-! ### Where principals and users come from -/

def Statement.Creates (user : String) : Statement → Prop
  | .createUser name _ | .createRole name _ | .createLogin name _ => name = user
  | _ => False

theorem principals_of_step {s t : Server} {l : String × Statement} (h : session.step s l = some t)
    {user : String} (huser : user ∈ t.principals) : user ∈ s.principals ∨ l.2.Creates user := by
  obtain ⟨database, statement⟩ := l
  simp only [session, Server.execute] at h
  split at h
  all_goals grind [Server.create, Server.give, Server.take, Statement.Creates]

theorem users_of_step {s t : Server} {l : String × Statement} (h : session.step s l = some t)
    {x : String × String} (hx : x ∈ t.users) : x ∈ s.users ∨ l = (x.1, .createUserForLogin x.2) := by
  obtain ⟨database, statement⟩ := l
  simp only [session, Server.execute] at h
  split at h
  all_goals grind [Server.create, Server.give, Server.take]

theorem users_kept_of_step {s t : Server} {l : String × Statement} (h : session.step s l = some t)
    {x : String × String} (hx : x ∈ s.users) : x ∈ t.users ∨ l = (x.1, .dropDatabaseUser x.2) := by
  obtain ⟨database, statement⟩ := l
  simp only [session, Server.execute] at h
  split at h
  all_goals grind [Server.create, Server.give, Server.take]

section
variable {s t : Server} {ls : List (String × Statement)}

theorem principals_of_exec (h : session.exec s ls = some t) {user : String}
    (huser : user ∈ t.principals) : user ∈ s.principals ∨ ∃ l ∈ ls, l.2.Creates user :=
  session.exec_gains (P := fun s => user ∈ s.principals) (fun _ _ _ hstep => principals_of_step hstep)
    h huser

theorem users_of_exec (h : session.exec s ls = some t) {x : String × String} (hx : x ∈ t.users) :
    x ∈ s.users ∨ (x.1, .createUserForLogin x.2) ∈ ls := by
  have hgains := session.exec_gains (P := fun s => x ∈ s.users)
    (Q := fun l => l = (x.1, .createUserForLogin x.2)) (fun _ _ _ hstep => users_of_step hstep) h hx
  exact hgains.imp_right fun ⟨_, hl, heq⟩ => heq ▸ hl

theorem users_kept_of_exec (h : session.exec s ls = some t) {x : String × String} (hx : x ∈ s.users) :
    x ∈ t.users ∨ (x.1, .dropDatabaseUser x.2) ∈ ls := by
  have hkeeps := session.exec_keeps (P := fun s => x ∈ s.users)
    (Q := fun l => l = (x.1, .dropDatabaseUser x.2)) (fun _ _ _ hstep => users_kept_of_step hstep) h hx
  exact hkeeps.imp_right fun ⟨_, hl, heq⟩ => heq ▸ hl

/-- A user that was created is there, or was dropped again. -/
theorem created_of_exec (h : session.exec s ls = some t) {x : String × String}
    (hx : (x.1, .createUserForLogin x.2) ∈ ls) :
    x ∈ t.users ∨ (x.1, .dropDatabaseUser x.2) ∈ ls := by
  obtain ⟨before, after, rfl⟩ := List.append_of_mem hx
  rw [System.exec_append] at h
  obtain ⟨u, -, h⟩ := Option.bind_eq_some_iff.mp h
  obtain ⟨v, hstep, hrest⟩ := session.exec_cons_eq_some h
  have hv : x ∈ v.users := by
    simp only [session, Server.execute] at hstep
    grind
  rcases users_kept_of_exec hrest hv with ht | hdrop
  · exact .inl ht
  · exact .inr (List.mem_append_right _ (List.mem_cons_of_mem _ hdrop))

end

/-! ### Dropping an account -/

/-- The statements that only drop `user`. -/
def Statement.Drops (user : String) : Statement → Prop
  | .dropUser name | .dropDatabaseUser name | .dropLogin name => name = user
  | .use _ => True
  | _ => False

/-- What such a statement leaves behind. -/
def Server.Gone (server : Server) : String × Statement → Prop
  | (_, .dropUser user) => user ∉ server.principals ∧ ¬server.HoldsAny user
  | (database, .dropDatabaseUser user) => (database, user) ∉ server.users
  | (_, .dropLogin user) => user ∉ server.principals
  | _ => True

/-- `less` has lost nothing but what `user` was and held. -/
structure Without (user : String) (server less : Server) : Prop where
  principals : less.principals ⊆ server.principals
  users : less.users ⊆ server.users
  held : less.held ⊆ server.held
  others : ∀ name ∈ server.principals, name ≠ user → name ∈ less.principals
  otherUsers : ∀ x ∈ server.users, x.2 ≠ user → x ∈ less.users
  otherHeld : ∀ x ∈ server.held, x.holder ≠ user → x ∈ less.held

theorem Without.refl (user : String) (server : Server) : Without user server server :=
  ⟨subset_rfl, subset_rfl, subset_rfl, fun _ h _ => h, fun _ h _ => h, fun _ h _ => h⟩

theorem Without.trans {user : String} {a b c : Server} (hab : Without user a b)
    (hbc : Without user b c) : Without user a c where
  principals := hbc.principals.trans hab.principals
  users := hbc.users.trans hab.users
  held := hbc.held.trans hab.held
  others name h hne := hbc.others name (hab.others name h hne) hne
  otherUsers x h hne := hbc.otherUsers x (hab.otherUsers x h hne) hne
  otherHeld x h hne := hbc.otherHeld x (hab.otherHeld x h hne) hne

theorem execute_drops {user : String} (server : Server) {l : String × Statement}
    (h : l.2.Drops user) :
    ∃ less, session.step server l = some less ∧ Without user server less ∧ less.Gone l := by
  obtain ⟨database, statement⟩ := l
  cases statement with
  | dropUser name =>
    obtain rfl : name = user := h
    refine ⟨_, rfl, ⟨Finset.erase_subset _ _, subset_rfl, Finset.filter_subset _ _, ?_, ?_, ?_⟩, ?_⟩
    · intro other hother hne
      exact Finset.mem_erase.mpr ⟨hne, hother⟩
    · exact fun _ hx _ => hx
    · intro x hx hne
      exact Finset.mem_filter.mpr ⟨hx, hne⟩
    · refine ⟨Finset.notMem_erase _ _, ?_⟩
      rintro ⟨x, hx, hholder⟩
      exact (Finset.mem_filter.mp hx).2 hholder
  | dropDatabaseUser name =>
    obtain rfl : name = user := h
    by_cases hmem : (database, name) ∈ server.users
    · refine ⟨_, if_pos hmem,
        ⟨subset_rfl, Finset.erase_subset _ _, Finset.filter_subset _ _, ?_, ?_, ?_⟩, ?_⟩
      · exact fun _ hx _ => hx
      · intro x hx hne
        exact Finset.mem_erase.mpr ⟨fun hxe => hne (congrArg Prod.snd hxe), hx⟩
      · intro x hx hne
        exact Finset.mem_filter.mpr ⟨hx, fun hboth => hne hboth.1⟩
      · exact Finset.notMem_erase _ _
    · exact ⟨server, if_neg hmem, .refl name server, hmem⟩
  | dropLogin name =>
    obtain rfl : name = user := h
    refine ⟨_, rfl, ⟨Finset.erase_subset _ _, subset_rfl, subset_rfl, ?_, ?_, ?_⟩, ?_⟩
    · intro other hother hne
      exact Finset.mem_erase.mpr ⟨hne, hother⟩
    · exact fun _ hx _ => hx
    · exact fun _ hx _ => hx
    · exact Finset.notMem_erase _ _
  | use target => exact ⟨server, rfl, .refl user server, trivial⟩
  | _ => cases h

theorem gone_of_without {user : String} {server less : Server} (h : Without user server less)
    {l : String × Statement} (hgone : server.Gone l) : less.Gone l := by
  obtain ⟨database, statement⟩ := l
  cases statement with
  | dropUser name =>
    refine ⟨fun hmem => hgone.1 (h.principals hmem), ?_⟩
    rintro ⟨x, hx, hholder⟩
    exact hgone.2 ⟨x, h.held hx, hholder⟩
  | dropDatabaseUser name => exact fun hmem => hgone (h.users hmem)
  | dropLogin name => exact fun hmem => hgone (h.principals hmem)
  | _ => exact hgone

theorem execute_gone {user : String} {server : Server} {l : String × Statement}
    (h : l.2.Drops user) (hgone : server.Gone l) : session.step server l = some server := by
  obtain ⟨database, statement⟩ := l
  cases statement with
  | dropUser name =>
    have hheld : server.held.filter (fun x => x.holder ≠ name) = server.held :=
      Finset.filter_eq_self.mpr fun x hx hholder => hgone.2 ⟨x, hx, hholder⟩
    have hprincipals := Finset.erase_eq_of_notMem hgone.1
    show some _ = _
    rw [hheld, hprincipals]
  | dropDatabaseUser name => exact if_neg hgone
  | dropLogin name =>
    have hprincipals : server.principals.erase name = server.principals :=
      Finset.erase_eq_of_notMem hgone
    show some _ = _
    rw [hprincipals]
  | use target => rfl
  | _ => cases h

/-- Statements that drop an account all succeed, take away nothing else, and leave nothing for a
second run. -/
theorem exec_drops {user : String} {ls : List (String × Statement)} (h : ∀ l ∈ ls, l.2.Drops user)
    (server : Server) :
    ∃ less, session.exec server ls = some less ∧ Without user server less ∧ ∀ l ∈ ls, less.Gone l := by
  induction ls generalizing server with
  | nil => exact ⟨server, rfl, .refl user server, by simp⟩
  | cons l ls ih =>
    obtain ⟨next, hstep, hnext, hgone⟩ := execute_drops server (h l List.mem_cons_self)
    obtain ⟨less, hexec, hless, hall⟩ := ih (fun m hm => h m (List.mem_cons_of_mem l hm)) next
    refine ⟨less, ?_, hnext.trans hless, ?_⟩
    · rw [System.exec_cons, hstep, Option.bind_some, hexec]
    · intro m hm
      rcases List.mem_cons.mp hm with rfl | hm
      · exact gone_of_without hless hgone
      · exact hall m hm

theorem exec_gone {user : String} {ls : List (String × Statement)} (h : ∀ l ∈ ls, l.2.Drops user)
    {server : Server} (hgone : ∀ l ∈ ls, server.Gone l) : session.exec server ls = some server := by
  induction ls with
  | nil => rfl
  | cons l ls ih =>
    have hstep := execute_gone (h l List.mem_cons_self) (hgone l List.mem_cons_self)
    rw [System.exec_cons, hstep, Option.bind_some]
    exact ih (fun m hm => h m (List.mem_cons_of_mem l hm)) fun m hm =>
      hgone m (List.mem_cons_of_mem l hm)

end Databases
