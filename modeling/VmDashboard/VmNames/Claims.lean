import VmDashboard.Jobs.Row
import VmDashboard.Suspend.Policy
import VmDashboard.VmNames.Naming
import Mathlib.Data.List.ReduceOption

/-!
# Which names are spoken for

`live_or_pending_vm_names` of `services/inventory_service.py` reads the names off the deploy jobs of a
provider, and `reject_name_collisions` of `services/deploy_batch.py` refuses a request that asks for
one of them.
-/

namespace VmNames
open Jobs (Job Status)
open Python (CaseFolding Json Instant orElse strip)
open Suspend (field)

structure DeployJob extends Job where
  cloudResourceId : Option String

def Provider.jobType : Provider → String
  | .aws => "ec2_deploy"
  | .azure => "azure_deploy"
  | .gcp => "gce_deploy"
  | .oci => "oci_deploy"

/-- `_NAME_HOLDING_STATUSES` -/
def nameHolding : Status → Bool
  | .completed | .pending | .queued | .running => true
  | _ => false

def metadataName (job : Job) : Json :=
  orElse (orElse (field job.metadata "instance_name") (field job.metadata "vm_name"))
    (field job.metadata "name")

def rawName (job : DeployJob) : Json :=
  orElse (metadataName job.toJob) (.str (job.cloudResourceId.getD ""))

inductive Detail
  | text (message : String)
  | collision (code message : String) (conflicts duplicates names : List String)
  deriving DecidableEq

inductive Refusal
  | http (statusCode : ℕ) (detail : Detail)
  | attributeError
  deriving DecidableEq

/-- Only a text has `strip`. -/
def nameClaimedBy (job : DeployJob) : Except Refusal (Option String) :=
  if (field job.metadata "destroyed").truthy then .ok none
  else
    match rawName job with
    | .str name => .ok (if strip name = "" then none else some (strip name))
    | _ => .error .attributeError

def claimants (jobs : List DeployJob) (jobType : String) : List DeployJob :=
  jobs.filter fun job => job.jobType = jobType && nameHolding job.status

def liveOrPendingVmNames (F : CaseFolding) (jobs : List DeployJob) (jobType : String) :
    Except Refusal (List String) := do
  let claimed ← (claimants jobs jobType).mapM nameClaimedBy
  pure (claimed.reduceOption.map F.casefold)

def clashText (clashes names : List String) : String :=
  toString clashes.length ++ " of the " ++ toString names.length ++
    " name(s) this deploy would create are already in use by VMs this dashboard deployed or is " ++
    "deploying: " ++ String.intercalate ", " clashes ++
    ". Pick a different base name, or destroy those VMs first."

def repeatText (dupes : List String) : String :=
  "Repeated within this request: " ++ String.intercalate ", " dupes ++ "."

def rejectNameCollisions (F : CaseFolding) (jobs : List DeployJob) (jobType : String)
    (names : List String) : Except Refusal Unit := do
  let dupes := duplicates F names
  let taken ← liveOrPendingVmNames F jobs jobType
  let clashes := collisions F names taken
  if dupes = [] ∧ clashes = [] then .ok ()
  else
    let parts := (if clashes = [] then [] else [clashText clashes names]) ++
      (if dupes = [] then [] else [repeatText dupes])
    .error (.http 409
      (.collision "vm_name_collision" (String.intercalate " " parts) clashes dupes names))

/-! ### The names of a request -/

/-- The GCP and OCI routes validate every name that is typed. -/
def validatesNames : Provider → Bool
  | .gcp | .oci => true
  | _ => false

inductive Form
  | counted (base : String) (count : ℤ)
  | typed (names : List String)

/-- A count of 1 does not fan out. -/
def Form.single : Form → Bool
  | .counted _ count => count ≤ 1
  | .typed _ => false

/-- `expand_names`, or the typed names after `validate_name`. -/
def Form.names (provider : Provider) : Form → Except Refusal (List String)
  | .counted base count =>
    (expand base count provider).mapError fun message => .http 400 (.text message)
  | .typed names => do
    if validatesNames provider then
      names.forM fun name =>
        (discard (validateBase name provider)).mapError fun message => .http 400 (.text message)
    pure names

/-- The names a request may create: those the check has let through. -/
def admittedNames (F : CaseFolding) (jobs : List DeployJob) (provider : Provider) (form : Form) :
    Except Refusal (List String) := do
  let names ← form.names provider
  rejectNameCollisions F jobs provider.jobType names
  pure names

/-! ### What the check has found -/

section Laws
variable {F : CaseFolding}

/-- The name of a deploy job. -/
def nameOf (job : Job) : String := (metadataName job).str?.getD ""

theorem ne_of_nameKey {name : String} (h : nameKey F name ≠ "") : strip name ≠ "" := by
  intro hblank
  refine h ?_
  unfold nameKey
  rw [hblank]
  rfl

theorem metadataName_eq {job : Job} (hname : nameKey F (nameOf job) ≠ "") :
    metadataName job = .str (nameOf job) ∧ (metadataName job).truthy = true := by
  have hne : nameOf job ≠ "" := by
    intro hempty
    rw [hempty] at hname
    exact hname rfl
  unfold nameOf at hne ⊢
  cases h : metadataName job with
  | str name =>
    rw [h] at hne
    exact ⟨rfl, decide_eq_true hne⟩
  | _ =>
    rw [h] at hne
    exact absurd rfl hne

/-- A name in the metadata comes before the resource's id. -/
theorem rawName_eq {job : DeployJob} (hname : nameKey F (nameOf job.toJob) ≠ "") :
    rawName job = .str (nameOf job.toJob) := by
  obtain ⟨heq, htruthy⟩ := metadataName_eq hname
  unfold rawName orElse
  rw [if_pos htruthy, heq]

theorem of_rejectNameCollisions {jobs : List DeployJob} {jobType : String} {names : List String}
    (h : rejectNameCollisions F jobs jobType names = .ok ()) :
    duplicates F names = [] ∧ ∀ job ∈ jobs, job.jobType = jobType → nameHolding job.status = true →
      (field job.metadata "destroyed").truthy = false → nameKey F (nameOf job.toJob) ≠ "" →
      ∀ n ∈ names, nameKey F n ≠ nameKey F (nameOf job.toJob) := by
  obtain ⟨taken, htaken, h⟩ := Machine.bind_eq_ok h
  simp only at h
  split at h
  next hnone =>
    refine ⟨hnone.1, fun job hjob htype hholds hkept hname n hn heq => ?_⟩
    obtain ⟨claimed, hclaimed, htaken⟩ := Machine.bind_eq_ok htaken
    obtain rfl := Except.ok.inj htaken
    have hmem : job ∈ claimants jobs jobType :=
      List.mem_filter.mpr ⟨hjob, by rw [htype, hholds, decide_eq_true rfl]; rfl⟩
    obtain ⟨claim, hclaim, hby⟩ := Machine.mem_of_mapM hclaimed job hmem
    unfold nameClaimedBy at hby
    rw [hkept, if_neg nofun, rawName_eq hname] at hby
    have hclaim' : some (strip (nameOf job.toJob)) ∈ claimed := by
      simp only [if_neg (ne_of_nameKey hname)] at hby
      rwa [← Except.ok.inj hby] at hclaim
    refine collisions_eq_nil_iff.mp hnone.2 n hn ?_
    rw [heq, ← nameKey_casefold]
    exact List.mem_map_of_mem (List.mem_map_of_mem (List.reduceOption_mem_iff.mpr hclaim'))
  next => cases h

end Laws

end VmNames
