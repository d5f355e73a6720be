import VmDashboard.Python.Convert

/-!
# Which cloud VMs may carry a suspend schedule

`services/vm_suspend_policy.py`: a decision on the metadata of a deploy job.
-/

namespace Suspend
open Python (Json Dict orElse)

def schedulableClouds : List String := ["aws", "gcp", "azure", "oci"]

/-- `_CLOUD_OF`, in declaration order. -/
def cloudTable : List (String × String) :=
  [("ec2_deploy", "aws"), ("gce_deploy", "gcp"), ("azure_deploy", "azure"), ("oci_deploy", "oci")]

def cloudOf (jobType : String) : String := (cloudTable.lookup jobType).getD ""

def deployTypesFor (clouds : List String) : List String :=
  (cloudTable.filter fun entry => clouds.contains entry.2).map Prod.fst

/-- `_LEGACY_PREFERENCE.get(cloud, ("private_ip", "public_ip"))`: only OCI wired the public address
by preference. -/
def legacyPreference (cloud : String) : String × String :=
  if cloud = "oci" then ("public_ip", "private_ip") else ("private_ip", "public_ip")

/-- `metadata.get(key)`. -/
def field (metadata : Dict) (key : String) : Json := (metadata.get? key).getD .null

def wiredAddress (jobType : String) (metadata : Dict) : Json :=
  let recorded := field metadata "wired_address"
  if recorded.truthy then recorded
  else
    let (first, second) := legacyPreference (cloudOf jobType)
    orElse (orElse (field metadata first) (field metadata second)) (.str "")

def notCloudReason : String := "Only cloud VMs can carry a suspend schedule."

def publicReason : String :=
  "This VM was wired into BeyondTrust at its public address, which is not " ++
  "guaranteed to survive a stop. Only VMs reached on a private address can " ++
  "be scheduled, and the address already written into the jump item, " ++
  "Password Safe system and Entitle registration cannot be changed in " ++
  "place — so this one would have to be redeployed without a public " ++
  "address to carry a schedule."

def managedReason : String :=
  "This VM is managed by Password Safe, which rotates on its own schedule " ++
  "and cannot reach a stopped instance — a nightly suspend would produce a " ++
  "nightly rotation failure. Detach auto-management to schedule it."

def dynamicReason : String :=
  "This Azure VM's private address is still dynamic, so a deallocated VM " ++
  "could come back on a different one. Setting a schedule pins the address " ++
  "it already has — the address does not change."

def schedulable (jobType : String) (metadata : Dict) : Bool × String :=
  let cloud := cloudOf jobType
  let wired := ["bt_tf_state", "ps_registration_tf_state", "entitle_registration_tf_state"].any
    fun key => (field metadata key).truthy
  let address := field metadata "public_ip"
  if cloud = "" then (false, notCloudReason)
  else if ¬schedulableClouds.contains cloud then (false, cloud ++ " VMs cannot be scheduled.")
  else if wired ∧ address.truthy ∧ wiredAddress jobType metadata = address then (false, publicReason)
  else if (field metadata "ps_managed_system_id").truthy ∨
      (field metadata "ps_registration_tf_state").truthy then
    (false, managedReason)
  else if cloud = "azure" ∧ ¬(field metadata "private_ip_static").truthy then (false, dynamicReason)
  else (true, "")

def needsAddressPin (jobType : String) (metadata : Dict) : Bool :=
  if cloudOf jobType ≠ "azure" ∨ (field metadata "private_ip_static").truthy then false
  else (schedulable jobType (metadata.set "private_ip_static" (.bool true))).1

/-- A refusal comes with its reason, an acceptance with none. -/
theorem schedulable_reason (jobType : String) (metadata : Dict) :
    (schedulable jobType metadata).2 = "" ↔ (schedulable jobType metadata).1 = true := by
  have hcat (cloud : String) : (cloud ++ " VMs cannot be scheduled.") ≠ "" := by
    intro h
    exact absurd (String.append_eq_empty_iff.mp h).2 (by decide +kernel)
  unfold schedulable
  dsimp only
  split_ifs
  · exact iff_of_false (by decide +kernel) nofun
  · exact iff_of_false (by decide +kernel) nofun
  · exact iff_of_false (by decide +kernel) nofun
  · exact iff_of_false (by decide +kernel) nofun
  · exact iff_of_true rfl rfl
  · exact iff_of_false (hcat _) nofun

end Suspend
