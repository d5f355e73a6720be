import VmDashboard.Python.Convert

/-!
# What an agent's inventory page becomes (`services/agent_hypervisor_meta.py`)

The character filters of ids and cursors, the sanitised inventory row and the
sanitised page. A page whose row raises while it is cleaned is `none`.
-/

namespace Hypervisor
open Python (Dict Json strip)

def maxPageSize : ℕ := 1000
def maxVmsPerPage : ℕ := maxPageSize
def maxSyncPages : ℕ := 40
def maxVmText : ℕ := 256
def maxVmPath : ℕ := 1024
def maxIps : ℕ := 16
def maxTags : ℕ := 32

def isAlnum (c : Char) : Bool :=
  ('A' ≤ c && c ≤ 'Z') || ('a' ≤ c && c ≤ 'z') || ('0' ≤ c && c ≤ '9')

/-- The class of `_ID_RE`. -/
def idChar (c : Char) : Bool := isAlnum c || ":_.-".toList.contains c

/-- The class of `_CURSOR_RE`. -/
def cursorChar (c : Char) : Bool := isAlnum c || ":_.=+/-".toList.contains c

/-- `^[class]{0,128}$`, of a stripped text. -/
def matchesClass (cls : Char → Bool) (text : String) : Bool :=
  let cs := Python.beforeEnd text.toList
  cs.length ≤ 128 && cs.all cls

@[irreducible] def constrained (cls : Char → Bool) (value : Option Json) : String :=
  let text := strip (Json.textOrEmpty value)
  if matchesClass cls text then text else ""

/-- What `_clean_text` keeps. -/
def printable (c : Char) : Bool :=
  c = '\t' || (32 ≤ c.toNat && !(0x7F ≤ c.toNat && c.toNat ≤ 0x9F))

def cleanText (value : Option Json) (limit : ℕ) : String :=
  let text := (Json.textOrEmpty value).toList.filter printable
  String.ofList ((strip (String.ofList text)).toList.take limit)

def nonNegative (value : Option Json) : ℕ := ((value.bind Json.int?).getD 0).toNat

/-- One row of a page: the keys of `VM_KEYS` that it carries. -/
structure CleanVm where
  vmId : Option String
  name : Option String
  powerState : Option String
  vcpus : Option ℕ
  memMib : Option ℕ
  ipAddresses : Option (List String)
  scope : Option String
  vmType : Option String
  tags : Option (List String)
  guestOs : Option String
  deriving DecidableEq

/-- A text key: absent, or dropped when nothing is left of it. -/
def cleanKey (vm : Dict) (key : String) (limit : ℕ) : Option String :=
  match vm.get? key with
  | none => none
  | some value =>
    let text := cleanText (some value) limit
    if text = "" then none else some text

/-- `[_clean_text(v) for v in (value or [])[:limit] if _clean_text(v)]`. -/
def cleanList (limit : ℕ) (value : Json) : Option (List String) :=
  (value.slice? limit).map fun items =>
    (items.map fun item => cleanText (some item) maxVmText).filter (· ≠ "")

def cleanListKey (vm : Dict) (key : String) (limit : ℕ) : Option (Option (List String)) :=
  match vm.get? key with
  | none => some none
  | some value => (cleanList limit value).map some

def cleanVm (vm : Dict) : Option CleanVm := do
  let ipAddresses ← cleanListKey vm "ip_addresses" maxIps
  let tags ← cleanListKey vm "tags" maxTags
  pure {
    vmId := cleanKey vm "vm_id" maxVmText
    name := cleanKey vm "name" maxVmText
    powerState := cleanKey vm "power_state" maxVmText
    vcpus := (vm.get? "vcpus").map fun value => nonNegative (some value)
    memMib := (vm.get? "mem_mib").map fun value => nonNegative (some value)
    ipAddresses
    scope := cleanKey vm "scope" maxVmPath
    vmType := cleanKey vm "vm_type" maxVmText
    tags
    guestOs := cleanKey vm "guest_os" maxVmText }

structure Page where
  vms : List CleanVm
  nextCursor : String
  complete : Bool
  scanned : ℕ
  enumerated : Bool

/-- The dictionaries of the list, cleaned. -/
def cleanVms : List Json → Option (List CleanVm)
  | [] => some []
  | .obj vm :: rest => do
    let row ← cleanVm vm
    let rows ← cleanVms rest
    pure (row :: rows)
  | _ :: rest => cleanVms rest

def pageVms (result : Dict) : Option (List CleanVm) :=
  match result.get? "vms" with
  | some (.arr items) => cleanVms (items.take maxVmsPerPage)
  | _ => some []

def syncPage (result : Dict) : Option Page :=
  (pageVms result).map fun vms =>
    { vms
      nextCursor := constrained cursorChar (result.get? "next_cursor")
      complete := ((result.get? "complete").getD (.bool true)).truthy
      scanned := nonNegative (result.get? "scanned")
      enumerated := ((result.get? "enumerated").getD (.bool false)).truthy }

/-! ### Valid ids -/

/-- An id the hypervisor module accepts. -/
def ValidId (id : String) : Prop := id ≠ "" ∧ id.toList.length ≤ 128 ∧ id.toList.all idChar = true

theorem idChar_plain {c : Char} (h : idChar c = true) :
    printable c = true ∧ Python.isSpace c = false := by
  have hrange : 45 ≤ c.toNat ∧ c.toNat ≤ 122 := by
    simp only [idChar, isAlnum, Bool.or_eq_true, Bool.and_eq_true, decide_eq_true_eq,
      List.contains_iff_mem] at h
    rcases h with ((⟨hlow, hhigh⟩ | ⟨hlow, hhigh⟩) | ⟨hlow, hhigh⟩) | hother
    · have h₁ : 65 ≤ c.toNat := hlow
      have h₂ : c.toNat ≤ 90 := hhigh
      omega
    · have h₁ : 97 ≤ c.toNat := hlow
      have h₂ : c.toNat ≤ 122 := hhigh
      omega
    · have h₁ : 48 ≤ c.toNat := hlow
      have h₂ : c.toNat ≤ 57 := hhigh
      omega
    · have hlist : ":_.-".toList = [':', '_', '.', '-'] := rfl
      rw [hlist] at hother
      simp only [List.mem_cons, List.not_mem_nil, or_false] at hother
      rcases hother with rfl | rfl | rfl | rfl <;> decide
  refine ⟨?_, ?_⟩
  · simp only [printable, Bool.or_eq_true, Bool.and_eq_true, Bool.not_eq_true', decide_eq_true_eq,
      Bool.and_eq_false_iff, decide_eq_false_iff_not]
    omega
  · simp only [Python.isSpace, Bool.or_eq_false_iff, Bool.and_eq_false_iff, decide_eq_false_iff_not]
    omega

theorem cleanText_plain {value : Option Json} {limit : ℕ}
    (hplain : ∀ c ∈ (Json.textOrEmpty value).toList, printable c = true ∧ Python.isSpace c = false)
    (hlimit : (Json.textOrEmpty value).toList.length ≤ limit) :
    cleanText value limit = Json.textOrEmpty value := by
  simp only [cleanText]
  rw [List.filter_eq_self.mpr fun c hc => (hplain c hc).1, String.ofList_toList,
    Python.strip_of_all fun c hc => (hplain c hc).2, List.take_of_length_le hlimit,
    String.ofList_toList]

/-- Cleaning leaves a valid id as it is. -/
theorem cleanText_valid {value : Option Json} (h : ValidId (Json.textOrEmpty value)) :
    cleanText value maxVmText = Json.textOrEmpty value := by
  obtain ⟨hne, hlen, hall⟩ := h
  exact cleanText_plain (fun c hc => idChar_plain (List.all_eq_true.mp hall c hc))
    (hlen.trans (by decide))

theorem cleanKey_valid {vm : Dict} {key : String}
    (h : ValidId (Json.textOrEmpty (vm.get? key))) :
    cleanKey vm key maxVmText = some (Json.textOrEmpty (vm.get? key)) := by
  unfold cleanKey
  cases hkey : vm.get? key with
  | none =>
    rw [hkey] at h
    exact absurd rfl h.1
  | some value =>
    rw [hkey] at h
    simp only [cleanText_valid h, if_neg h.1]

theorem cleanVm_vmId {vm : Dict} {row : CleanVm} (h : cleanVm vm = some row) :
    row.vmId = cleanKey vm "vm_id" maxVmText := by
  obtain ⟨ips, -, h⟩ := Option.bind_eq_some_iff.mp h
  obtain ⟨tags, -, h⟩ := Option.bind_eq_some_iff.mp h
  rw [← Option.some.inj h]

end Hypervisor
