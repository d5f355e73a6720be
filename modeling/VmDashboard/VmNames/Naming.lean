import VmDashboard.Gateways.Registry
import VmDashboard.Machine.Except
import VmDashboard.Python.Case
import VmDashboard.Python.Convert
import VmDashboard.Python.DateTime
import VmDashboard.Python.Regex

/-!
# VM names (`services/vm_naming.py`)

A counted deploy numbers its base name. The base is cut to make room for the suffix, and the suffix
is as wide for every index, so the names of one series differ and fit in the provider's limit. Names
are compared stripped and case folded.
-/

namespace VmNames
open Python (CaseFolding strip isSpace padded reprText beforeEnd)
open Gateways.Registry (sortedSet)

inductive Provider
  | aws | azure | gcp | oci
  deriving DecidableEq, Repr

def Provider.upper : Provider → String
  | .aws => "AWS"
  | .azure => "AZURE"
  | .gcp => "GCP"
  | .oci => "OCI"

def maxDeployCount : ℤ := 20

def minBaseChars : ℕ := 3

/-- `_LIMITS` -/
def nameLimit : Provider → ℕ
  | .aws => 255
  | .azure => 15
  | .gcp => 63
  | .oci => 255

/-- The width of a series numbered from 1. -/
def suffixWidth (count : ℤ) : ℕ := max 2 (Nat.toDigits 10 (max count 1).toNat).length

def isLetter (c : Char) : Bool := 'a' ≤ c && c ≤ 'z'

def isLetterOrDigit (c : Char) : Bool := isLetter c || ('0' ≤ c && c ≤ '9')

/-- `[a-z]([a-z0-9-]*[a-z0-9])?` -/
def isLabel : List Char → Bool
  | [] => false
  | c :: cs =>
    isLetter c &&
      (cs.isEmpty || (cs.all fun d => isLetterOrDigit d || d = '-') && cs.getLast?.any isLetterOrDigit)

/-- `_RFC1035.match(text)` -/
def rfc1035 (text : String) : Bool := isLabel (beforeEnd text.toList)

def validateBase (base : String) (provider : Provider) : Except String String :=
  let stem := strip base
  if stem = "" then .error "A base name is required."
  else if provider = .gcp ∧ ¬rfc1035 stem then
    .error (provider.upper ++ " instance names must be lowercase letters, numbers and hyphens, " ++
      "and must start with a letter (RFC1035) — got " ++ reprText stem ++ ".")
  else .ok stem

/-- The name of one index. No index is wider than the width. -/
def numbered (stem : List Char) (width i : ℕ) : String :=
  String.ofList (stem ++ '-' :: padded width i)

def isSeparator (c : Char) : Bool := c = '-' || c = '.'

/-- `stem[:budget].rstrip("-.")` -/
def truncated (stem : String) (budget : ℕ) : List Char :=
  (stem.toList.take budget).rdropWhile isSeparator

def noRoom (base : String) (provider : Provider) (budget : ℕ) : String :=
  "Base name " ++ reprText base ++ " leaves no room for a numbered suffix within " ++
    provider.upper ++ "'s " ++ toString (nameLimit provider) ++ "-character limit — use " ++
    toString budget ++ " characters or fewer."

def expand (base : String) (count : ℤ) (provider : Provider) : Except String (List String) := do
  let stem ← validateBase base provider
  if count < 1 then
    .error ("Count must be at least 1 — got " ++ toString count ++ ".")
  else if maxDeployCount < count then
    .error ("Count must be " ++ toString maxDeployCount ++ " or fewer — got " ++ toString count ++ ".")
  else if count = 1 then
    .ok [stem]
  else
    let width := suffixWidth count
    let budget := nameLimit provider - (1 + width)
    let cut := truncated stem budget
    if cut.length < minBaseChars then
      .error (noRoom base provider budget)
    else
      .ok ((List.range count.toNat).map fun i => numbered cut width (i + 1))

/-! ### Comparing names -/

section Keys
variable (F : CaseFolding)

/-- `name.strip().casefold()` -/
def nameKey (name : String) : String := F.casefold (strip name)

/-- The names whose key has come before in the list. -/
def repeated : List String → List String → List String
  | _, [] => []
  | seen, name :: names =>
    if nameKey F name = "" then repeated seen names
    else if nameKey F name ∈ seen then name :: repeated (nameKey F name :: seen) names
    else repeated (nameKey F name :: seen) names

def duplicates (names : List String) : List String := sortedSet (repeated F [] names)

def collisions (names taken : List String) : List String :=
  sortedSet (names.filter fun name => nameKey F name ∈ taken.map (nameKey F))

end Keys

/-! ### What the comparisons find -/

section Laws
variable {F : CaseFolding}

theorem sortedSet_eq_nil {values : List String} : sortedSet values = [] ↔ values = [] := by
  constructor
  · intro h
    refine List.eq_nil_iff_forall_not_mem.mpr fun value hvalue => ?_
    have hmem : value ∈ sortedSet values :=
      (List.mem_insertionSort _).mpr (List.mem_dedup.mpr hvalue)
    rw [h] at hmem
    exact List.not_mem_nil hmem
  · rintro rfl
    rfl

theorem nameKey_casefold (name : String) : nameKey F (F.casefold (strip name)) = nameKey F name := by
  unfold nameKey
  rw [F.strip_casefold, Python.strip_strip, F.casefold_casefold]

theorem nameKey_nameKey (name : String) : nameKey F (nameKey F name) = nameKey F name :=
  nameKey_casefold name

/-- Names that are equal up to case have one key. -/
theorem nameKey_of_casefold {a b : String} (h : F.casefold a = F.casefold b) :
    nameKey F a = nameKey F b := by
  unfold nameKey
  rw [← F.strip_casefold, ← F.strip_casefold, h]

/-- With no blank name, nothing is repeated exactly when the keys are new and differ. -/
theorem repeated_eq_nil_iff {seen names : List String} (hnamed : ∀ n ∈ names, nameKey F n ≠ "") :
    repeated F seen names = [] ↔
      (∀ n ∈ names, nameKey F n ∉ seen) ∧ (names.map (nameKey F)).Nodup := by
  induction names generalizing seen with
  | nil => exact iff_of_true rfl ⟨List.forall_mem_nil _, List.nodup_nil⟩
  | cons name names ih =>
    obtain ⟨hname, hrest⟩ := List.forall_mem_cons.mp hnamed
    rw [repeated, if_neg hname]
    by_cases hseen : nameKey F name ∈ seen
    · rw [if_pos hseen]
      refine iff_of_false (List.cons_ne_nil _ _) fun h => ?_
      exact h.1 name List.mem_cons_self hseen
    · rw [if_neg hseen, ih hrest, List.map_cons, List.nodup_cons]
      constructor
      · rintro ⟨hnew, hnodup⟩
        refine ⟨List.forall_mem_cons.mpr ⟨hseen, fun n hn hmem => ?_⟩, fun hmem => ?_, hnodup⟩
        · exact hnew n hn (List.mem_cons_of_mem _ hmem)
        · obtain ⟨n, hn, heq⟩ := List.mem_map.mp hmem
          exact hnew n hn (List.mem_cons.mpr (.inl heq))
      · rintro ⟨hnew, hhead, hnodup⟩
        refine ⟨fun n hn hmem => ?_, hnodup⟩
        rcases List.mem_cons.mp hmem with heq | hmem
        · exact hhead (List.mem_map.mpr ⟨n, hn, heq⟩)
        · exact hnew n (List.mem_cons_of_mem _ hn) hmem

theorem duplicates_eq_nil_iff {names : List String} (hnamed : ∀ n ∈ names, nameKey F n ≠ "") :
    duplicates F names = [] ↔ (names.map (nameKey F)).Nodup := by
  rw [duplicates, sortedSet_eq_nil, repeated_eq_nil_iff hnamed]
  exact and_iff_right fun n _ => List.not_mem_nil

theorem collisions_eq_nil_iff {names taken : List String} :
    collisions F names taken = [] ↔ ∀ n ∈ names, nameKey F n ∉ taken.map (nameKey F) := by
  rw [collisions, sortedSet_eq_nil, List.filter_eq_nil_iff]
  simp only [decide_eq_true_eq]

/-! ### A counted series -/

theorem suffixWidth_eq {count : ℤ} (h : count ≤ maxDeployCount) : suffixWidth count = 2 := by
  have hsmall : ∀ n < 21, max 2 (Nat.toDigits 10 n).length = 2 := by decide
  refine hsmall _ ?_
  unfold maxDeployCount at h
  omega

/-- What an answered expansion of more than one name consists of. -/
structure Series (base : String) (count : ℤ) (provider : Provider) (names : List String) : Prop where
  bounded : count ≤ maxDeployCount
  valid : validateBase base provider = .ok (strip base)
  roomy : minBaseChars ≤ (truncated (strip base) (nameLimit provider - 3)).length
  names_eq : names = (List.range count.toNat).map fun i =>
    numbered (truncated (strip base) (nameLimit provider - 3)) 2 (i + 1)

theorem validateBase_eq_ok {base stem : String} {provider : Provider}
    (h : validateBase base provider = .ok stem) :
    stem = strip base ∧ stem ≠ "" ∧ (provider = .gcp → rfc1035 stem = true) := by
  unfold validateBase at h
  simp only at h
  split at h
  · cases h
  next hblank =>
    split at h
    · cases h
    next hlabel =>
      obtain rfl := Except.ok.inj h
      refine ⟨rfl, hblank, fun hgcp => ?_⟩
      by_contra hbad
      exact hlabel ⟨hgcp, hbad⟩

theorem expand_eq_ok {base : String} {count : ℤ} {provider : Provider} {names : List String}
    (h : expand base count provider = .ok names) (hmany : 1 < count) :
    Series base count provider names := by
  obtain ⟨stem, hvalid, h⟩ := Machine.bind_eq_ok h
  obtain ⟨rfl, -, -⟩ := validateBase_eq_ok hvalid
  rw [if_neg (by omega)] at h
  split at h
  · cases h
  next hbounded =>
    have hle : count ≤ maxDeployCount := by omega
    rw [if_neg (by omega)] at h
    simp only [suffixWidth_eq hle] at h
    split at h
    · cases h
    next hroom => exact ⟨hle, hvalid, not_lt.mp hroom, (Except.ok.inj h).symm⟩

theorem mem_padded {width n : ℕ} {c : Char} (h : c ∈ padded width n) :
    c ∈ "0123456789".toList := by
  induction width generalizing n with
  | zero => exact absurd h List.not_mem_nil
  | succ width ih =>
    rcases List.mem_append.mp h with hinit | hlast
    · exact ih hinit
    · have hdigit : ∀ d < 10, Nat.digitChar d ∈ "0123456789".toList := by decide
      rw [List.mem_singleton.mp hlast]
      exact hdigit _ (Nat.mod_lt n (by omega))

/-- Every character of a suffix is ASCII, no space, and kept by the folding. -/
theorem suffix_kept {width i : ℕ} :
    ∀ c ∈ '-' :: padded width i, isSpace c = false ∧ F.fold c = [c] := by
  have hsuffix : ("-0123456789".toList.all fun c =>
      !isSpace c && decide (c.toNat < 128) && decide (c.toLower = c)) = true := by
    decide
  intro c hc
  have hmem : c ∈ "-0123456789".toList := by
    rcases List.mem_cons.mp hc with rfl | hdigit
    · exact List.mem_cons_self
    · exact List.mem_cons_of_mem _ (mem_padded hdigit)
  have hall := List.all_eq_true.mp hsuffix c hmem
  simp only [Bool.and_eq_true, decide_eq_true_eq, Bool.not_eq_true'] at hall
  obtain ⟨⟨hspace, hascii⟩, hlower⟩ := hall
  exact ⟨hspace, by rw [F.ascii c hascii, hlower]⟩

theorem nameKey_numbered {stem : List Char} {width i : ℕ} :
    nameKey F (numbered stem width i) =
      String.ofList ((stem.dropWhile isSpace).flatMap F.fold ++ '-' :: padded width i) := by
  have hkept : ('-' :: padded width i).flatMap F.fold = '-' :: padded width i := by
    rw [List.flatMap_congr fun c hc => (suffix_kept c hc).2]
    exact List.flatMap_singleton' _
  unfold nameKey numbered CaseFolding.casefold
  rw [Python.strip_append (List.cons_ne_nil _ _) fun c hc => (suffix_kept (F := F) c hc).1,
    String.toList_ofList, List.flatMap_append, hkept]

theorem Series.keys_nodup {base : String} {count : ℤ} {provider : Provider} {names : List String}
    (hseries : Series base count provider names) : (names.map (nameKey F)).Nodup := by
  rw [hseries.names_eq, List.map_map]
  refine List.Nodup.map_on (fun i hi j hj heq => ?_) List.nodup_range
  have hcount : count ≤ 20 := hseries.bounded
  have hi : i < count.toNat := List.mem_range.mp hi
  have hj : j < count.toNat := List.mem_range.mp hj
  simp only [Function.comp_apply, nameKey_numbered] at heq
  have hsuffix := List.append_cancel_left (String.ofList_injective heq)
  have hindex := Python.padded_injective (by omega) (by omega) (List.cons.inj hsuffix).2
  omega

theorem Series.length_le {base : String} {count : ℤ} {provider : Provider} {names : List String}
    (hseries : Series base count provider names) :
    ∀ name ∈ names, name.length ≤ nameLimit provider := by
  intro name hname
  rw [hseries.names_eq] at hname
  obtain ⟨i, -, rfl⟩ := List.mem_map.mp hname
  have hcut : (truncated (strip base) (nameLimit provider - 3)).length ≤ nameLimit provider - 3 := by
    refine (List.rdropWhile_prefix _ _).length_le.trans ?_
    exact List.length_take_le _ _
  have hlimit : 15 ≤ nameLimit provider := by cases provider <;> decide
  rw [numbered, String.length_ofList, List.length_append, List.length_cons, Python.padded_length]
  omega

theorem getLast?_strip (text : String) {c : Char} (h : (strip text).toList.getLast? = some c) :
    isSpace c = false := by
  unfold strip at h
  rw [String.toList_ofList, List.getLast?_reverse] at h
  have hhead := List.head?_dropWhile_not isSpace (text.toList.dropWhile isSpace).reverse
  rw [h] at hhead
  simpa using hhead

theorem isLabel_cons {c : Char} {cs : List Char} (h : isLabel (c :: cs) = true) :
    isLetter c = true ∧ ∀ d ∈ cs, (isLetterOrDigit d || d = '-') = true := by
  obtain ⟨hc, hrest⟩ := Bool.and_eq_true_iff.mp h
  refine ⟨hc, fun d hd => ?_⟩
  rcases Bool.or_eq_true_iff.mp hrest with hnil | hall
  · rw [List.isEmpty_iff.mp hnil] at hd
    exact absurd hd List.not_mem_nil
  · exact List.all_eq_true.mp (Bool.and_eq_true_iff.mp hall).1 d hd

/-- What is left of a label when it is cut, and a number after it, is a label again. -/
theorem isLabel_numbered {cs cut : List Char} {width i : ℕ} (hlabel : isLabel cs = true)
    (hcut : cut <+: cs) (hne : cut ≠ []) (hwidth : 0 < width) :
    isLabel (cut ++ '-' :: padded width i) = true := by
  obtain ⟨c, rest, rfl⟩ := List.exists_cons_of_ne_nil hne
  obtain ⟨tail, rfl⟩ := hcut
  obtain ⟨hc, hrest⟩ := isLabel_cons hlabel
  have hdigit : ∀ d ∈ "0123456789".toList, isLetterOrDigit d = true :=
    List.all_eq_true.mp (by decide)
  have hall : ∀ d ∈ rest ++ '-' :: padded width i, (isLetterOrDigit d || d = '-') = true := by
    intro d hd
    rcases List.mem_append.mp hd with hd | hd
    · exact hrest d (List.mem_append_left _ hd)
    · rcases List.mem_cons.mp hd with rfl | hd
      · rfl
      · rw [hdigit d (mem_padded hd), Bool.true_or]
  have hpadded : padded width i ≠ [] := by
    rw [← List.length_pos_iff, Python.padded_length]
    exact hwidth
  have hlast : (rest ++ '-' :: padded width i).getLast?.any isLetterOrDigit = true := by
    rw [List.getLast?_append_cons, List.getLast?_cons_of_ne_nil hpadded,
      List.getLast?_eq_some_getLast hpadded]
    exact hdigit _ (mem_padded (List.getLast_mem hpadded))
  rw [List.cons_append, isLabel, hc, List.all_eq_true.mpr hall, hlast, Bool.and_true, Bool.or_true]
  rfl

theorem Series.isLabel {base : String} {count : ℤ} {names : List String}
    (hseries : Series base count .gcp names) : ∀ name ∈ names, isLabel name.toList = true := by
  intro name hname
  rw [hseries.names_eq] at hname
  obtain ⟨i, -, rfl⟩ := List.mem_map.mp hname
  obtain ⟨-, -, hgcp⟩ := validateBase_eq_ok hseries.valid
  have hlabel := hgcp rfl
  have hend : beforeEnd (strip base).toList = (strip base).toList := by
    refine if_neg fun hlast => ?_
    have hspace := getLast?_strip base hlast
    revert hspace
    decide
  rw [rfc1035, hend] at hlabel
  have hroom := hseries.roomy
  have hcut : truncated (strip base) (nameLimit .gcp - 3) <+: (strip base).toList :=
    (List.rdropWhile_prefix _ _).trans (List.take_prefix _ _)
  have hne : truncated (strip base) (nameLimit .gcp - 3) ≠ [] := by
    intro hnil
    rw [hnil] at hroom
    exact absurd hroom (by decide)
  rw [numbered, String.toList_ofList]
  exact isLabel_numbered hlabel hcut hne (by decide)

end Laws

end VmNames
