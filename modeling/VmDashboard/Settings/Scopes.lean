import VmDashboard.Machine.System
import VmDashboard.Settings.Config

/-!
# Workgroup-scoped settings beside the global ones

One process that calls the settings service, one call after the other. What it reads is what was
last written, by slot. A write succeeds exactly when none of its keys has a row of another scope.
-/

namespace Settings

/-- The database and the cache of the process. -/
structure Process where
  rows : Rows
  cache : Cache
  loaded : Bool

section Service
variable (fernet : Fernet) (resolve : Option String → String → String)

def loadCache (p : Process) : Process :=
  { p with cache := snapshot fernet p.rows, loaded := true }

/-- `expired` is whether the cache is past its time to live. -/
def ensureLoaded (p : Process) (expired : Bool) : Process :=
  if p.loaded && !expired then p else loadCache fernet p

def invalidate (p : Process) : Process := { p with loaded := false }

/-- `get`, with what a value resolves to for a workgroup. -/
def get (p : Process) (expired : Bool) (key default : String) (workgroup : Option String) :
    String × Process :=
  let p := ensureLoaded fernet p expired
  (resolve workgroup (find p.cache key default workgroup), p)

def getFresh (p : Process) (key default : String) (workgroup : Option String) : String × Process :=
  match freshRow fernet p.rows key workgroup with
  | some (slot, value) =>
    (resolve workgroup value, { p with cache := Function.update p.cache slot (some value) })
  | none => (resolve workgroup default, p)

/-- `_write`; `none` where it raises. The second attempt finds what the first found. -/
def write (p : Process) (iv : ℕ) (pairs : List (String × String)) (workgroup : Option String) :
    Option Process :=
  (writeRows fernet iv workgroup p.rows pairs).map fun rows =>
    { p with rows, cache := cachePairs p.cache workgroup pairs }

def set (p : Process) (iv : ℕ) (key value : String) (workgroup : Option String) : Option Process :=
  write fernet p iv [(key, value)] workgroup

def setMany (p : Process) (iv : ℕ) (pairs : List (String × String)) (workgroup : Option String) :
    Option Process := write fernet p iv pairs workgroup

end Service

def delete (p : Process) (slot : Slot) : Process :=
  { p with rows := deleteRow p.rows slot, cache := Function.update p.cache slot none }

/-! ### The calls of a process -/

inductive Event where
  | set (iv : ℕ) (key value : String) (workgroup : Option String)
  | setMany (iv : ℕ) (pairs : List (String × String)) (workgroup : Option String)
  | delete (key : String) (workgroup : Option String)
  | get (expired : Bool) (key default : String) (workgroup : Option String)
  | getFresh (key default : String) (workgroup : Option String)
  | invalidate

/-- `written` is the last value written by slot, none where it has no row. -/
structure State where
  process : Process
  written : Slot → Option String

/-- A process that has read nothing yet. -/
def State.start (fernet : Fernet) (rows : Rows) : State :=
  ⟨⟨rows, fun _ => none, false⟩, snapshot fernet rows⟩

/-- A write that raises leaves what was written. -/
def State.wrote (s : State) (pairs : List (String × String)) (workgroup : Option String) :
    Option Process → State
  | some process => ⟨process, cachePairs s.written workgroup pairs⟩
  | none => s

variable (fernet : Fernet) (resolve : Option String → String → String)

def State.step (s : State) : Event → Option State
  | .set iv key value workgroup =>
    some (s.wrote [(key, value)] workgroup (set fernet s.process iv key value workgroup))
  | .setMany iv pairs workgroup =>
    some (s.wrote pairs workgroup (setMany fernet s.process iv pairs workgroup))
  | .delete key workgroup =>
    some ⟨delete s.process (key, workgroup), Function.update s.written (key, workgroup) none⟩
  | .get expired key default workgroup =>
    some { s with process := (get fernet resolve s.process expired key default workgroup).2 }
  | .getFresh key default workgroup =>
    some { s with process := (getFresh fernet resolve s.process key default workgroup).2 }
  | .invalidate => some { s with process := invalidate s.process }

def settingsSystem : Machine.System State Event where
  step := State.step fernet resolve

/-! ### The property and the condition -/

/-- The write does not fail, and leaves the rows of the other scopes. -/
def Writes (s : State) (after : Option Process) (workgroup : Option String) : Prop :=
  ∃ process, after = some process ∧
    ∀ slot : Slot, slot.2 ≠ workgroup → existing process.rows slot = existing s.process.rows slot

/-- The scopes of a key coexist, and a read gives the last value written for the scope, else the
one for the global scope, else the default. -/
def Coexists (s : State) : Event → Prop
  | .set iv key value workgroup => Writes s (set fernet s.process iv key value workgroup) workgroup
  | .setMany iv pairs workgroup => Writes s (setMany fernet s.process iv pairs workgroup) workgroup
  | .delete key workgroup => ∀ slot : Slot, slot.2 ≠ workgroup →
      existing (delete s.process (key, workgroup)).rows slot = existing s.process.rows slot
  | .get expired key default workgroup =>
    (get fernet resolve s.process expired key default workgroup).1 =
      resolve workgroup (find s.written key default workgroup)
  | .getFresh key default workgroup =>
    (getFresh fernet resolve s.process key default workgroup).1 =
      resolve workgroup (find s.written key default workgroup)
  | .invalidate => True

/-- No key is written in one scope while it has a row of another. -/
def OneScope (s : State) : Event → Prop
  | .set _ key _ workgroup => Unscoped s.process.rows (key, workgroup)
  | .setMany _ pairs workgroup => ∀ pair ∈ pairs, Unscoped s.process.rows (pair.1, workgroup)
  | _ => True

instance (s : State) : (event : Event) → Decidable (OneScope s event)
  | .set _ key _ workgroup => inferInstanceAs (Decidable (Unscoped s.process.rows (key, workgroup)))
  | .setMany _ pairs workgroup =>
    inferInstanceAs (Decidable (∀ pair ∈ pairs, Unscoped s.process.rows (pair.1, workgroup)))
  | .delete .. | .get .. | .getFresh .. | .invalidate => isTrue trivial

/-- The table and a loaded cache hold what was written. -/
structure Inv (s : State) : Prop where
  rows : snapshot fernet s.process.rows = s.written
  cache : s.process.loaded = true → s.process.cache = s.written

variable {fernet} in
theorem writes_iff {s : State} {iv : ℕ} {pairs : List (String × String)}
    {workgroup : Option String} :
    Writes s (write fernet s.process iv pairs workgroup) workgroup ↔
      ∀ pair ∈ pairs, Unscoped s.process.rows (pair.1, workgroup) := by
  constructor
  · rintro ⟨process, hwrite, -⟩
    by_contra hscoped
    rw [write, writeRows_of_scoped fernet iv hscoped] at hwrite
    cases hwrite
  · intro h
    obtain ⟨after, hwrite, -, hothers⟩ := writeRows_of_unscoped fernet iv h
    exact ⟨_, by rw [write, hwrite, Option.map_some], hothers⟩

variable {fernet} in
theorem Inv.wrote {s : State} (h : Inv fernet s) (iv : ℕ) (pairs : List (String × String))
    (workgroup : Option String) :
    Inv fernet (s.wrote pairs workgroup (write fernet s.process iv pairs workgroup)) := by
  unfold write
  cases hwrite : writeRows fernet iv workgroup s.process.rows pairs with
  | none => exact h
  | some rows =>
    have hsnapshot := writeRows_eq_some hwrite
    rw [h.rows] at hsnapshot
    refine ⟨hsnapshot, fun hloaded => ?_⟩
    show cachePairs s.process.cache workgroup pairs = cachePairs s.written workgroup pairs
    rw [h.cache hloaded]

variable {fernet} in
theorem Inv.ensureLoaded {s : State} (h : Inv fernet s) (expired : Bool) :
    (ensureLoaded fernet s.process expired).cache = s.written ∧
      Inv fernet { s with process := ensureLoaded fernet s.process expired } := by
  unfold Settings.ensureLoaded
  split
  next hloaded =>
    rw [Bool.and_eq_true] at hloaded
    exact ⟨h.cache hloaded.1, h⟩
  next => exact ⟨h.rows, h.rows, fun _ => h.rows⟩

/-- `get_fresh` looks the table up as `get` does the cache. -/
theorem freshRow_find (rows : Rows) (key default : String) (workgroup : Option String) :
    ((freshRow fernet rows key workgroup).map Prod.snd).getD default =
      find (snapshot fernet rows) key default workgroup := by
  unfold freshRow find
  cases workgroup.bind fun name => snapshot fernet rows (key, some name) with
  | some value => rfl
  | none => cases snapshot fernet rows (key, none) <;> rfl

variable {fernet} in
theorem snapshot_of_freshRow {rows : Rows} {key value : String} {workgroup : Option String}
    {slot : Slot} (h : freshRow fernet rows key workgroup = some (slot, value)) :
    snapshot fernet rows slot = some value := by
  unfold freshRow at h
  split at h
  next value' hscoped =>
    obtain ⟨rfl, rfl⟩ := Prod.mk.inj (Option.some.inj h)
    obtain ⟨name, rfl, hrow⟩ := Option.bind_eq_some_iff.mp hscoped
    exact hrow
  next =>
    obtain ⟨value', hrow, heq⟩ := Option.map_eq_some_iff.mp h
    obtain ⟨rfl, rfl⟩ := Prod.mk.inj heq
    exact hrow

variable {fernet} in
theorem Inv.getFresh {s : State} (h : Inv fernet s) (key default : String)
    (workgroup : Option String) :
    (getFresh fernet resolve s.process key default workgroup).1 =
        resolve workgroup (find s.written key default workgroup) ∧
      Inv fernet
        { s with process := (getFresh fernet resolve s.process key default workgroup).2 } := by
  have hfind := freshRow_find fernet s.process.rows key default workgroup
  rw [h.rows] at hfind
  rw [← hfind]
  unfold Settings.getFresh
  cases hrow : freshRow fernet s.process.rows key workgroup with
  | none => exact ⟨rfl, h⟩
  | some found =>
    obtain ⟨slot, value⟩ := found
    have hvalue := snapshot_of_freshRow hrow
    rw [h.rows] at hvalue
    refine ⟨rfl, h.rows, fun hloaded => ?_⟩
    show Function.update s.process.cache slot (some value) = s.written
    rw [h.cache hloaded, ← hvalue, Function.update_eq_self]

variable {fernet} in
theorem Inv.delete {s : State} (h : Inv fernet s) (slot : Slot) :
    Inv fernet ⟨delete s.process slot, Function.update s.written slot none⟩ := by
  constructor
  · show snapshot fernet (deleteRow s.process.rows slot) = _
    rw [snapshot_of_update fernet (existing_deleteRow s.process.rows slot), h.rows]
    rfl
  · intro hloaded
    show Function.update s.process.cache slot none = _
    rw [h.cache hloaded]

variable {fernet resolve} in
theorem step_inv {s after : State} {event : Event} (h : Inv fernet s)
    (hstep : s.step fernet resolve event = some after) : Inv fernet after := by
  cases event with
  | set iv key value workgroup =>
    obtain rfl := Option.some.inj hstep
    exact h.wrote iv [(key, value)] workgroup
  | setMany iv pairs workgroup =>
    obtain rfl := Option.some.inj hstep
    exact h.wrote iv pairs workgroup
  | delete key workgroup =>
    obtain rfl := Option.some.inj hstep
    exact h.delete (key, workgroup)
  | get expired key default workgroup =>
    obtain rfl := Option.some.inj hstep
    exact (h.ensureLoaded expired).2
  | getFresh key default workgroup =>
    obtain rfl := Option.some.inj hstep
    exact (h.getFresh resolve key default workgroup).2
  | invalidate =>
    obtain rfl := Option.some.inj hstep
    exact ⟨h.rows, fun hloaded => nomatch hloaded⟩

variable {fernet} in
theorem coexists_iff {s : State} (h : Inv fernet s) (event : Event) :
    Coexists fernet resolve s event ↔ OneScope s event := by
  cases event with
  | set iv key value workgroup =>
    refine Iff.trans writes_iff ?_
    simp only [List.mem_singleton, forall_eq]
    rfl
  | setMany iv pairs workgroup => exact writes_iff
  | delete key workgroup =>
    refine ⟨fun _ => trivial, fun _ slot hslot => ?_⟩
    show existing (deleteRow s.process.rows (key, workgroup)) slot = _
    rw [existing_deleteRow, Function.update_of_ne fun heq => hslot (congrArg Prod.snd heq)]
  | get expired key default workgroup =>
    refine ⟨fun _ => trivial, fun _ => ?_⟩
    show resolve workgroup (find (ensureLoaded fernet s.process expired).cache ..) = _
    rw [(h.ensureLoaded expired).1]
  | getFresh key default workgroup =>
    exact ⟨fun _ => trivial, fun _ => (h.getFresh resolve key default workgroup).1⟩
  | invalidate => exact Iff.rfl

/-- From any table and for whatever the references resolve to, the scopes coexist in a run of calls
exactly when no call writes a key in one scope that has a row of another. -/
theorem scopes_coexist_iff (rows : Rows) (events : List Event) :
    (settingsSystem fernet resolve).Along (Coexists fernet resolve) (.start fernet rows) events ↔
      (settingsSystem fernet resolve).Along OneScope (.start fernet rows) events := by
  refine (settingsSystem fernet resolve).along_iff (I := Inv fernet)
    (fun s event after h hstep => ⟨coexists_iff resolve h event, fun _ => step_inv h hstep⟩) ?_
  exact ⟨rfl, fun hloaded => nomatch hloaded⟩

/-! ### A team's value beside the global one -/

/- The same key, for everyone and for one team. -/
def teamRun : List Event :=
  [.set 0 "smtp_host" "mail-1" none, .set 1 "smtp_host" "mail-2" (some "team-a")]

theorem team_value_refused :
    ¬(settingsSystem clearFernet fun _ value => value).Along
      (Coexists clearFernet fun _ value => value) (.start clearFernet .empty) teamRun := by
  intro h
  obtain ⟨process, hset, -⟩ := ((h _ rfl).2 _ rfl).1
  have hfails : (set clearFernet (State.wrote (.start clearFernet .empty) [("smtp_host", "mail-1")]
      none (set clearFernet ⟨.empty, fun _ => none, false⟩ 0 "smtp_host" "mail-1" none)).process
      1 "smtp_host" "mail-2" (some "team-a")).isNone = true := by decide +kernel
  exact Option.some_ne_none process (hset.symm.trans (Option.isNone_iff_eq_none.mp hfails))

end Settings
