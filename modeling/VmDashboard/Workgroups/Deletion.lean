import Mathlib.Tactic.Tauto
import VmDashboard.Jobs.Row
import VmDashboard.Machine.Table
import VmDashboard.Python.Case

/-!
# Deleting a workgroup (`services/workgroup_service.py`)

The rows that name a workgroup, the scan that `delete` makes of them, and what the scan leaves out.
-/

namespace Workgroups
open Machine (Table)
open Jobs (Job Status)
open Python (strip lower)

structure Workgroup where
  name : String
  displayName : String
  isDefault : Bool

structure User where
  username : String
  workgroupsList : List String

structure VmOverride where
  provider : String
  vmId : String
  workgroup : String

/-- A cloud database, or a Kubernetes cluster. -/
structure Resource where
  id : String
  workgroup : Option String

structure AssetScope where
  backend : String
  name : String
  workgroup : String

structure State where
  workgroups : Table Workgroup.name
  users : Table User.username
  jobs : Table Job.id
  overrides : List VmOverride
  databases : Table Resource.id
  clusters : Table Resource.id
  assetScopes : List AssetScope

/-- `job_service.ACTIVE_STATUSES` -/
def activeStatuses : List Status := [.queued, .pending, .running]

/-- `_NON_TERMINAL_JOB_STATUSES` -/
def nonTerminalJobStatuses : List Status := [.pending, .running]

def normalize (name : String) : String := lower (strip name)

def get (s : State) (name : String) : Option Workgroup := s.workgroups.lookup (normalize name)

/-! ### The references -/

def User.refers (canonical : String) (user : User) : Bool :=
  canonical ∈ user.workgroupsList.map lower

def jobRefers (statuses : List Status) (canonical : String) (job : Job) : Bool :=
  job.workgroup = some canonical && job.status ∈ statuses

def Resource.refers (canonical : String) (resource : Resource) : Bool :=
  resource.workgroup = some canonical

def cannotDelete (canonical : String) : String := "Cannot delete workstream '" ++ canonical ++ "': "

/-- `if refs: raise` -/
def refuseIf (n : ℕ) (message : String) : Except String Unit := if n ≠ 0 then .error message else .ok ()

def checkUsers (s : State) (canonical : String) : Except String Unit :=
  let refs := (s.users.rows.filter (User.refers canonical)).map User.username
  refuseIf refs.length (cannotDelete canonical ++ "still assigned to " ++ toString refs.length ++
    " user(s): " ++ ", ".intercalate (refs.take 5) ++ (if 5 < refs.length then "..." else ""))

def checkJobs (s : State) (canonical : String) : Except String Unit :=
  let refs := s.jobs.rows.countP (jobRefers nonTerminalJobStatuses canonical)
  refuseIf refs (cannotDelete canonical ++ toString refs ++ " active job(s) reference it.")

def checkOverrides (s : State) (canonical : String) : Except String Unit :=
  let refs := s.overrides.countP fun row => row.workgroup = canonical
  refuseIf refs (cannotDelete canonical ++ toString refs ++ " VM(s) are tagged into it. Clear or " ++
    "reassign them on their hypervisor page first.")

def checkResources (rows : List Resource) (label page canonical : String) : Except String Unit :=
  let refs := rows.countP (Resource.refers canonical)
  refuseIf refs (cannotDelete canonical ++ toString refs ++ " " ++ label ++ "(s) are tagged into " ++
    "it. Reassign or delete them on " ++ page ++ " first.")

def checkAssets (s : State) (canonical : String) : Except String Unit :=
  let refs := s.assetScopes.countP fun row => row.workgroup = canonical
  refuseIf refs (cannotDelete canonical ++ toString refs ++ " stored asset(s) are scoped to it. " ++
    "Make them global or scope them elsewhere on /storage first.")

def checkReferences (s : State) (canonical : String) : Except String Unit := do
  checkUsers s canonical
  checkJobs s canonical
  checkOverrides s canonical
  checkResources s.databases.rows "database" "/databases" canonical
  checkResources s.clusters.rows "Kubernetes cluster" "/k8s" canonical
  checkAssets s canonical

/-- The state after the call, and what it raises. -/
def delete (s : State) (name : String) : State × Except String Unit :=
  match get s name with
  | none => (s, .error ("Workstream '" ++ name ++ "' not found."))
  | some wg =>
    if wg.isDefault then (s, .error "Default workstream cannot be deleted.")
    else
      match checkReferences s wg.name with
      | .error message => (s, .error message)
      | .ok () => ({ s with workgroups := s.workgroups.erase wg.name }, .ok ())

/-- A row refers to the workgroup; of the jobs those in one of the statuses. -/
def Referenced (s : State) (statuses : List Status) (canonical : String) : Prop :=
  (∃ user ∈ s.users.rows, user.refers canonical = true) ∨
    (∃ job ∈ s.jobs.rows, jobRefers statuses canonical job = true) ∨
    (∃ row ∈ s.overrides, row.workgroup = canonical) ∨
    (∃ row ∈ s.databases.rows, row.workgroup = some canonical) ∨
    (∃ row ∈ s.clusters.rows, row.workgroup = some canonical) ∨
    ∃ row ∈ s.assetScopes, row.workgroup = canonical

/-! ### What the scan sees -/

theorem refuseIf_eq_ok {n : ℕ} {message : String} : refuseIf n message = .ok () ↔ n = 0 := by
  unfold refuseIf
  by_cases h : n = 0 <;> simp [h]

theorem refuseIf_countP {α : Type} {p : α → Bool} {rows : List α} {message : String} :
    refuseIf (rows.countP p) message = .ok () ↔ ¬∃ row ∈ rows, p row = true := by
  rw [refuseIf_eq_ok, List.countP_eq_zero, not_exists]
  simp only [not_and]

theorem checkUsers_eq_ok {s : State} {canonical : String} :
    checkUsers s canonical = .ok () ↔ ¬∃ user ∈ s.users.rows, user.refers canonical = true := by
  rw [checkUsers, List.length_map, ← List.countP_eq_length_filter]
  exact refuseIf_countP

theorem checkJobs_eq_ok {s : State} {canonical : String} : checkJobs s canonical = .ok () ↔
    ¬∃ job ∈ s.jobs.rows, jobRefers nonTerminalJobStatuses canonical job = true :=
  refuseIf_countP

theorem checkOverrides_eq_ok {s : State} {canonical : String} : checkOverrides s canonical = .ok () ↔
    ¬∃ row ∈ s.overrides, row.workgroup = canonical := by
  refine refuseIf_countP.trans ?_
  simp only [decide_eq_true_eq]

theorem checkResources_eq_ok {rows : List Resource} {label page canonical : String} :
    checkResources rows label page canonical = .ok () ↔
      ¬∃ row ∈ rows, row.workgroup = some canonical := by
  refine refuseIf_countP.trans ?_
  simp only [Resource.refers, decide_eq_true_eq]

theorem checkAssets_eq_ok {s : State} {canonical : String} : checkAssets s canonical = .ok () ↔
    ¬∃ row ∈ s.assetScopes, row.workgroup = canonical := by
  refine refuseIf_countP.trans ?_
  simp only [decide_eq_true_eq]

theorem bind_eq_ok_iff {x y : Except String Unit} : (do x; y) = .ok () ↔ x = .ok () ∧ y = .ok () := by
  cases x with
  | error e => exact ⟨nofun, fun h => absurd h.1 nofun⟩
  | ok a => exact ⟨fun h => ⟨rfl, h⟩, fun h => h.2⟩

theorem checkReferences_eq_ok {s : State} {canonical : String} :
    checkReferences s canonical = .ok () ↔ ¬Referenced s nonTerminalJobStatuses canonical := by
  simp only [checkReferences, bind_eq_ok_iff, checkUsers_eq_ok, checkJobs_eq_ok, checkOverrides_eq_ok,
    checkResources_eq_ok, checkAssets_eq_ok, Referenced, not_or]

theorem activeStatuses_eq : activeStatuses = .queued :: nonTerminalJobStatuses := rfl

/-- A queued job is the one reference that the scan leaves out. -/
theorem referenced_active_iff {s : State} {canonical : String} :
    Referenced s activeStatuses canonical ↔ Referenced s nonTerminalJobStatuses canonical ∨
      ∃ job ∈ s.jobs.rows, job.status = .queued ∧ job.workgroup = some canonical := by
  have hjobs : (∃ job ∈ s.jobs.rows, jobRefers activeStatuses canonical job = true) ↔
      (∃ job ∈ s.jobs.rows, jobRefers nonTerminalJobStatuses canonical job = true) ∨
        ∃ job ∈ s.jobs.rows, job.status = .queued ∧ job.workgroup = some canonical := by
    simp only [jobRefers, activeStatuses_eq, List.mem_cons, Bool.and_eq_true, decide_eq_true_eq]
    constructor
    · rintro ⟨job, hjob, hwg, hqueued | hlive⟩
      · exact .inr ⟨job, hjob, hqueued, hwg⟩
      · exact .inl ⟨job, hjob, hwg, hlive⟩
    · rintro (⟨job, hjob, hwg, hlive⟩ | ⟨job, hjob, hqueued, hwg⟩)
      · exact ⟨job, hjob, hwg, .inr hlive⟩
      · exact ⟨job, hjob, hwg, .inl hqueued⟩
  have hshift (a b c d : Prop) : a ∨ (b ∨ c) ∨ d ↔ (a ∨ b ∨ d) ∨ c := by tauto
  unfold Referenced
  rw [hjobs]
  exact hshift ..

/-! ### The deletion -/

theorem delete_refused {s : State} {name : String} (h : ∀ u, (delete s name).2 ≠ .ok u) :
    (delete s name).1 = s := by
  unfold delete at h ⊢
  split
  next => rfl
  next wg hget =>
    rw [hget] at h
    dsimp only at h ⊢
    split at h
    next hdefault => rw [if_pos hdefault]
    next hdefault =>
      rw [if_neg hdefault]
      split
      next => rfl
      next hok =>
        rw [hok] at h
        exact absurd rfl (h ())

/-- The deletion is carried out. -/
theorem delete_ok_iff {s : State} {name : String} : (delete s name).2 = .ok () ↔
    ∃ wg, get s name = some wg ∧ wg.isDefault = false ∧
      ¬Referenced s nonTerminalJobStatuses wg.name := by
  unfold delete
  cases hget : get s name with
  | none => simp
  | some wg =>
    dsimp only
    cases hdefault : wg.isDefault with
    | true =>
      rw [if_pos rfl]
      simp [hdefault]
    | false =>
      rw [if_neg Bool.false_ne_true]
      cases hcheck : checkReferences s wg.name with
      | error message =>
        have href : ¬¬Referenced s nonTerminalJobStatuses wg.name := fun h => by
          rw [checkReferences_eq_ok.mpr h] at hcheck
          cases hcheck
        simp [hdefault, not_not.mp href]
      | ok u =>
        have href := checkReferences_eq_ok.mp hcheck
        simp [hdefault, href]

/-- What a deletion promises: it succeeds only on a workgroup nothing live refers to, and a refusal
changes nothing. -/
def StrandsNothing (s : State) (name : String) : Prop :=
  ((delete s name).2 = .ok () → ¬Referenced s activeStatuses (normalize name)) ∧
    ((delete s name).2 ≠ .ok () → (delete s name).1 = s)

theorem get_name {s : State} {name : String} {wg : Workgroup} (h : get s name = some wg) :
    wg.name = normalize name := Table.lookup_key h

theorem strandsNothing_iff (s : State) (name : String) : StrandsNothing s name ↔
    (get s name).all Workgroup.isDefault = true ∨
      Referenced s nonTerminalJobStatuses (normalize name) ∨
      ∀ job ∈ s.jobs.rows, job.status = .queued → job.workgroup ≠ some (normalize name) := by
  have hqueued : (∀ job ∈ s.jobs.rows, job.status = .queued → job.workgroup ≠ some (normalize name)) ↔
      ¬∃ job ∈ s.jobs.rows, job.status = .queued ∧ job.workgroup = some (normalize name) := by
    simp only [not_exists, not_and, ne_eq]
  have hrefused : (delete s name).2 ≠ .ok () → (delete s name).1 = s :=
    fun h => delete_refused fun _ => h
  rw [hqueued, StrandsNothing, and_iff_left hrefused, delete_ok_iff, referenced_active_iff]
  cases hget : get s name with
  | none => simp
  | some wg =>
    rw [← get_name hget, Option.all_some]
    cases hdefault : wg.isDefault with
    | true => simp [hdefault]
    | false =>
      have hlogic (p q : Prop) : (¬p → ¬(p ∨ q)) ↔ p ∨ ¬q := by tauto
      simp only [Option.some.injEq, exists_eq_left', hdefault, true_and, Bool.false_eq_true, false_or]
      exact hlogic ..

/-! ### A job that waits for its agent -/

def queuedJob : Job where
  id := "j1"
  jobType := "agent_scan"
  status := .queued
  createdBy := "alice"
  createdAt := 0
  vmPath := none
  workgroup := some "hydra"
  batchId := none
  agentId := some "a1"
  isCheckin := none
  expiresAt := none
  attempts := 0
  retryAfter := none
  scheduledFor := none
  windowEndsAt := none
  changeWindowId := none
  jobScheduleId := none
  approvalRequired := none
  approvedAt := none
  approvedBy := none
  missedWindowAt := none
  progressPct := 0
  startedAt := none
  completedAt := none
  updatedAt := none
  errorMessage := none
  metadata := []

def queuedState : State where
  workgroups := ⟨[⟨"hydra", "Hydra", false⟩], List.nodup_singleton _⟩
  users := .empty
  jobs := ⟨[queuedJob], List.nodup_singleton _⟩
  overrides := []
  databases := .empty
  clusters := .empty
  assetScopes := []

theorem queued_job_stranded : ¬∀ s name, StrandsNothing s name := by
  intro h
  have hname : normalize "Hydra" = "hydra" := by decide +kernel
  have hget : get queuedState "Hydra" = some ⟨"hydra", "Hydra", false⟩ := by
    rw [get, hname]
    exact Table.lookup_eq_some.mpr ⟨List.mem_singleton_self _, rfl⟩
  have hcheck : checkReferences queuedState "hydra" = .ok () := by rfl
  have hok : (delete queuedState "Hydra").2 = .ok () :=
    delete_ok_iff.mpr ⟨⟨"hydra", "Hydra", false⟩, hget, rfl, checkReferences_eq_ok.mp hcheck⟩
  have hjob : jobRefers activeStatuses "hydra" queuedJob = true := by decide
  refine (h queuedState "Hydra").1 hok ?_
  rw [hname]
  exact .inr (.inl ⟨queuedJob, List.mem_singleton_self _, hjob⟩)

end Workgroups
