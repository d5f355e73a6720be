import Mathlib.Data.List.Sort
import VmDashboard.Python.Case
import VmDashboard.Python.Clock

/-!
# What the auto-delete timer may act on

The switches and floors of the feature, which resources can carry a timer, and the predicate that a
sweep applies to every inventory item.
-/

namespace Expiry
open Python (Instant)

/-! ### What is reapable -/

inductive Kind where
  | vm | database | k8s | pov | certLab | spireLab | workloadk8s | workloadcloud | directory
  | desktop | function
deriving DecidableEq, Repr

def Kind.name : Kind → String
  | vm => "vm"
  | database => "database"
  | k8s => "k8s"
  | pov => "pov"
  | certLab => "certlab"
  | spireLab => "spirelab"
  | workloadk8s => "workloadk8s"
  | workloadcloud => "workloadcloud"
  | directory => "directory"
  | desktop => "desktop"
  | function => "function"

def reapableKinds : List Kind :=
  [.vm, .database, .k8s, .pov, .certLab, .spireLab, .workloadk8s, .workloadcloud, .directory]

def reapableVmClouds : List String := ["aws", "azure", "gcp", "oci"]

def syncedHypervisorSource : String := "hypervisor"

/-- Per kind the states that mean healthy and idle. -/
def reapableStates : Kind → List String
  | .vm => ["active"]
  | .database => ["available"]
  | .certLab => ["available"]
  | .directory => ["available"]
  | .spireLab => ["available"]
  | .workloadk8s => ["active"]
  | .workloadcloud => ["registered", "issued"]
  | .k8s => ["registered", "managed", "awaiting_agent"]
  | .pov => ["active", "failed"]
  | .desktop => []
  | .function => []

def reapGraceMinFloor : ℤ := 15

def armDelayMinutes : ℕ := 60

def maxPerPassCeiling : ℤ := 50

/-! ### Configuration -/

/-- The keys a sweep reads: the three switches, and the grace, the cap and the exempt workgroups
(stripped and casefolded) as they are set. -/
structure Config where
  enabled : Bool
  enforce : Bool
  dryRun : Bool
  grace : ℤ
  perPass : ℤ
  exemptWorkgroups : List String
deriving DecidableEq

def Config.graceMinutes (config : Config) : ℤ := max reapGraceMinFloor config.grace

def Config.maxPerPass (config : Config) : ℤ := max 1 (min maxPerPassCeiling config.perPass)

/-! ### Eligibility -/

/-- An inventory item, with its expiry as `parse_ts` reads it. -/
structure Item where
  id : String
  kind : Kind
  cloud : String
  source : String
  workgroup : String
  state : String
  expiresAt : Option Instant
  name : String
  region : String
  jobId : Option String

/-- Whether the item can carry a timer, and the reason when it cannot. -/
def ttlCapable (item : Item) : Bool × String :=
  let cloud := Python.lower item.cloud
  let source := if item.source = "" then "provisioned" else item.source
  if source = syncedHypervisorSource then
    (false, "this VM was discovered on a hypervisor, not deployed by the dashboard — there is no " ++
      "teardown to run, so it can never be auto-deleted. Delete it from its hypervisor instead.")
  else if item.kind ∉ reapableKinds then
    let why := match item.kind with
      | .desktop => "a virtual-desktop seat is torn down with its pool, not individually."
      | .function => "a deployed function bills only when it runs, so it carries no timer — " ++
          "destroy it from the Cloud Functions page."
      | _ => "there is no queued teardown for this kind."
    (false, Python.reprText item.kind.name ++ " resources have no auto-delete timer — " ++ why)
  else if item.kind = .pov then
    (true, "")
  else if source ≠ "provisioned" then
    (false, "registered resources are never auto-deleted — the dashboard didn't provision this " ++
      "one, and deleting it here would only drop the dashboard's own record.")
  else if item.kind = .vm ∧ cloud ∉ reapableVmClouds then
    (false, (if cloud = "" then "this provider" else cloud) ++ " VMs have no queued teardown, so " ++
      "they cannot be auto-deleted (supported: " ++ "/".intercalate reapableVmClouds ++ ").")
  else
    (true, "")

/-- An item is refused exactly with a reason. -/
theorem ttlCapable_reason (item : Item) : (ttlCapable item).1 = true ↔ (ttlCapable item).2 = "" := by
  have hreason {text rest : String} (h : text ≠ "") : false = true ↔ text ++ rest = "" := by
    simp [String.append_eq_empty_iff, h]
  unfold ttlCapable
  extract_lets cloud source
  split
  · exact hreason (by decide +kernel)
  split
  · simp [Python.reprText, String.append_eq_empty_iff]
  split
  · simp
  split
  · exact hreason (by decide +kernel)
  split
  · simp [String.append_eq_empty_iff]
  · simp

section
variable (casefold : String → String)

def isExempt (exempt : List String) (item : Item) : Bool :=
  let wg := casefold (Python.strip item.workgroup)
  wg != "" && decide (wg ∈ exempt)

def stateIsIdle (item : Item) : Bool := decide (item.state ∈ reapableStates item.kind)

/-! ### The reap predicate -/

def armed (armedAt : Option Instant) (now : Instant) : Bool :=
  match armedAt with
  | none => false
  | some 0 => false
  | some since => decide (since + Python.minutes armDelayMinutes ≤ now)

def deletionActive (config : Config) (enforceSince : Option Instant) (now : Instant) : Bool :=
  if !config.enforce || config.dryRun then false else armed enforceSince now

/-- The ids of the items whose expiry is past by the grace. -/
def expired (items : List (String × Option Instant)) (now : Instant) (graceMin : ℤ) : List String :=
  let grace := Python.minutes (max reapGraceMinFloor graceMin).toNat
  (items.filterMap fun (id, expires) =>
    match expires with
    | none => none
    | some expires => if expires ≠ 0 ∧ expires + grace ≤ now then some id else none).filter (· != "")

structure Target where
  id : String
  kind : Kind
  cloud : String
  name : String
  region : String
  jobId : Option String
  expiresAt : Instant
  overdue : ℕ
deriving DecidableEq

def reapTarget (exempt : List String) (now : Instant) (graceMin : ℤ) (armedAt : Option Instant)
    (item : Item) : Option Target :=
  if !armed armedAt now then none
  else if !(ttlCapable item).1 then none
  else if isExempt casefold exempt item then none
  else if !stateIsIdle item then none
  else
    match item.expiresAt with
    | none => none
    | some expires =>
      if expired [(item.id, some expires)] now graceMin = [] then none
      else some {
        id := item.id
        kind := item.kind
        cloud := Python.lower item.cloud
        name := if item.name = "" then item.id else item.name
        region := item.region
        jobId := item.jobId
        expiresAt := expires
        overdue := (now - expires) / Python.seconds 1 }

/-- The targets of a pass, the longest expired first. -/
def targets (config : Config) (now : Instant) (armedAt : Option Instant) (items : List Item) :
    List Target :=
  (items.filterMap (reapTarget casefold config.exemptWorkgroups now config.graceMinutes
    armedAt)).insertionSort fun a b => b.overdue ≤ a.overdue

end

theorem armed_spec {armedAt : Option Instant} {now : Instant} (h : armed armedAt now = true) :
    ∃ since, armedAt = some since ∧ since + Python.minutes armDelayMinutes ≤ now := by
  unfold armed at h
  split at h
  · cases h
  · cases h
  next since _ => exact ⟨since, rfl, of_decide_eq_true h⟩

theorem deletionActive_spec {config : Config} {enforceSince : Option Instant} {now : Instant}
    (h : deletionActive config enforceSince now = true) :
    config.enforce = true ∧ config.dryRun = false ∧
      ∃ since, enforceSince = some since ∧ since + Python.minutes armDelayMinutes ≤ now := by
  unfold deletionActive at h
  split at h
  · cases h
  next hlive =>
    simp only [Bool.or_eq_true, Bool.not_eq_true', not_or, Bool.not_eq_false, Bool.not_eq_true] at hlive
    exact ⟨hlive.1, hlive.2, armed_spec h⟩

end Expiry
