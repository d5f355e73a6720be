import VmDashboard.Hypervisor.Meta
import VmDashboard.Jobs.Row
import VmDashboard.Machine.Except
import VmDashboard.Python.Regex
import Mathlib.Data.List.Dedup

/-!
# One tag edit of an agent-bound Proxmox guest

The rules of `services/tag_policy.py` and `api/tag_batch.py`, the job that
`api/proxmox.py` queues for the edit, and what the agent writes and reads back. Of a
chip only the key and the class are kept: nothing here reads its colour or title.
-/

namespace Hypervisor
open Python (Dict Json strip lower reprText beforeEnd isSpace)
open Jobs (HttpError)

/-! ### The policy -/

def protectedKeys : List (String × String) :=
  [("managed-by", "it is how /costs attributes this resource and how the dashboard tells its " ++
      "own VMs from discovered ones"),
    ("managed_by", "it is the GCP label spelling of managed-by, which /costs sums"),
    ("managedby", "it is the legacy spelling of managed-by, still honoured by unmanaged-VM " ++
      "discovery"),
    ("workgroup", "it decides who can see this resource; use the reassign action, which " ++
      "validates the workstream exists and refuses to hide a resource from you"),
    ("povenvironment", "POV teardown and the reconcile sweep select on it; a resource with the " ++
      "wrong value keeps running and nothing can find it"),
    ("povmanagedby", "it marks this as POV-owned, which teardown filters on"),
    ("povrole", "the POV environment's wiring depends on it"),
    ("povzone", "a zoned POV places its VMs by it; a wrong value puts a VM in the wrong Purdue " ++
      "zone"),
    ("dashboard:desktop_pool", "it is how a virtual-desktop pool finds its seats"),
    ("dashboard_desktop_pool", "it is how a virtual-desktop pool finds its seats"),
    ("clouddb-id", "it is this database's identity on teardown"),
    ("k8s-cluster-id", "it is this cluster's identity on teardown"),
    ("vm-dashboard-ephemeral", "the ephemeral-account sweeper selects on it"),
    ("container-image", "the node listing reads the running image from it; an edit makes the " ++
      "page report an image this node is not running"),
    ("name", "it is this resource's display name; rename it where it was created")]

def canon (key : String) : String := lower (strip key)

inductive TagClass
  | system | identity | user
  deriving DecidableEq

def TagClass.order : TagClass → ℕ
  | .system => 0
  | .identity => 1
  | .user => 2

def classify (key : String) : TagClass :=
  let k := canon key
  if k = "workgroup" then .identity
  else if (protectedKeys.lookup k).isSome then .system
  else .user

structure Chip where
  key : String
  cls : TagClass

/-- The chips of a list of texts; `seen` holds the canonical keys so far. -/
def chips (seen : List String) : List String → List Chip
  | [] => []
  | tag :: rest =>
    let key := strip tag
    if key = "" then chips seen rest
    else if canon key ∈ seen then chips seen rest
    else ⟨key, classify key⟩ :: chips (canon key :: seen) rest

def Chip.le (a b : Chip) : Bool :=
  a.cls.order < b.cls.order || (a.cls.order = b.cls.order && lower a.key ≤ lower b.key)

/-- `normalise` of the JSON list the cache keeps. -/
def normalise (tags : List String) : List Chip := (chips [] tags).mergeSort Chip.le

def assertEditable : List String → Except String Unit
  | [] => .ok ()
  | key :: keys =>
    match protectedKeys.lookup (canon key) with
    | some reason => .error ("'" ++ key ++ "' cannot be edited here: " ++ reason)
    | none => assertEditable keys

def tagHead (c : Char) : Bool := isAlnum c || c = '_'

def tagChar (c : Char) : Bool := isAlnum c || "_+.-".toList.contains c

/-- `^[A-Za-z0-9_][A-Za-z0-9_+.-]*$`. -/
def matchesTagKey (text : String) : Bool :=
  match beforeEnd text.toList with
  | [] => false
  | c :: cs => tagHead c && cs.all tagChar

/-- `_TAG_RE`, which bounds the length. -/
def matchesTag (text : String) : Bool :=
  matchesTagKey text && (beforeEnd text.toList).length ≤ 60

/-- The checks of `validate_edit` on one tag to add, under the rules of `"proxmox"`. -/
def validateKey (key value : String) : Except String Unit :=
  if strip key = "" then .error "a tag key cannot be blank"
  else if 60 < key.length then
    .error ("tag key '" ++ String.ofList (key.toList.take 40) ++ "…' is " ++ toString key.length ++
      " characters; proxmox allows 60")
  else if value ≠ "" then
    .error ("'" ++ key ++ "=" ++ value ++ "' — a proxmox tag is a bare label and carries no value")
  else if !matchesTagKey key then
    .error ("'" ++ key ++ "' is not a valid proxmox tag key — letters, digits, underscore, " ++
      "hyphen, plus and dot, starting with a letter, digit or underscore")
  else .ok ()

def validateEdit (add : List (String × String)) (remove : List String) : Except String Unit := do
  let overlap := ((add.map Prod.fst).filter (· ∈ remove)).dedup.mergeSort
  if overlap ≠ [] then
    throw (", ".intercalate overlap ++ ": cannot add and remove the same tag in one edit")
  add.forM fun (key, value) => validateKey key value
  if 64 < add.length then
    throw ("that would leave " ++ toString add.length ++
      " tags on the resource; proxmox allows 64")

/-- `assert_edit_allowed("proxmox", …)`: the keys to add and the tags to remove. -/
def assertEditAllowed (add : Dict) (remove : List String) :
    Except HttpError (List String × List String) :=
  let add := add.map fun (key, value) => (key, Json.textOrEmpty (some value))
  if add = [] ∧ remove = [] then
    .error ⟨400, "Nothing to change — name a tag to add or remove."⟩
  else
    match assertEditable (add.map Prod.fst ++ remove) with
    | .error detail => .error ⟨409, detail⟩
    | .ok () =>
      match validateEdit add remove with
      | .error detail => .error ⟨409, detail⟩
      | .ok () => .ok (add.map Prod.fst, remove)

/-! ### The job -/

def desiredTags (current add remove : List String) : List String :=
  add.foldl (fun out key => if key ∈ out then out else out ++ [key])
    (current.filter fun tag => tag ∉ remove)

def notATag (tag : String) : String :=
  reprText tag ++ " is not a valid tag — letters, digits, underscore, hyphen, plus and dot, " ++
    "starting with a letter, digit or underscore"

def tagsRefusal (tags : List String) : Option String :=
  if maxTags < tags.length then
    some (toString tags.length ++ " tags; the limit is " ++ toString maxTags)
  else (tags.find? fun tag => !matchesTag tag).map notATag

/-- The `tags` of the metadata `normalize` leaves. -/
def normalizeTags (tags : List String) : List String :=
  ((tags.map strip).filter matchesTag).take maxTags

/-- The tags `agent_tag_job` queues. `agentRefusal` is why the connection's agent cannot take a
job now: gone, offline, not granted the job type, or without a secret it needs. -/
def agentTagJob (tags : List String) (agentRefusal : Option String) :
    Except String (List String) :=
  match tagsRefusal tags with
  | some detail => .error detail
  | none =>
    match agentRefusal with
    | some detail => .error detail
    | none =>
      if normalizeTags tags ≠ tags then .error "Some tags were not accepted; nothing was queued."
      else .ok (normalizeTags tags)

/-- What becomes of one target of `_queue_tag_jobs`. -/
inductive TagOutcome
  | failed (error : String)
  | unchanged
  | queued (tags : List String)

/-- `row` is the target's cache row, with `none` for tags its last sync did not report. -/
def queueTagJob (row : Option (Option (List String))) (add remove : List String)
    (agentRefusal : Option String) : TagOutcome :=
  match row with
  | none =>
    .failed ("not in the last synced inventory for this connection — run Sync Now and try again")
  | some none =>
    .failed ("this agent's last sync did not report the guest's tags, so an edit could erase the " ++
      "ones it has — update the on-prem agent, run Sync Now, and try again")
  | some (some tags) =>
    let current := (normalise tags).map Chip.key
    let desired := desiredTags current add remove
    if desired = current then .unchanged
    else
      match agentTagJob desired agentRefusal with
      | .error detail => .failed detail
      | .ok tags => .queued tags

/-! ### The agent -/

def isTagSeparator (c : Char) : Bool := c = ';' || c = ',' || isSpace c

/-- `_proxmox_tag_list` of a guest's `tags` field. -/
def proxmoxTagList (field : String) : List String :=
  ((field.toList.splitOnP isTagSeparator).filter (· ≠ [])).map String.ofList

/-- The field `_set_tags_proxmox` writes. -/
def setTagsProxmox (tags : List String) : Except String String :=
  if maxTags < tags.length then
    .error (toString tags.length ++ " tags; this agent accepts at most " ++ toString maxTags)
  else
    match tags.find? fun tag => !matchesTag tag with
    | some tag => .error (reprText tag ++ " is not a valid Proxmox tag — letters, digits, " ++
        "underscore, hyphen, plus and dot, starting with a letter, digit or underscore")
    | none => .ok (";".intercalate tags)

/-- The `tags` column a page leaves for a guest that reports these. -/
def syncedTags (reported : List String) : List String :=
  (cleanList maxTags (.arr (reported.map .str))).getD []

/-! ### What an edit asks for -/

theorem mem_addedTags (out add : List String) (tag : String) :
    tag ∈ add.foldl (fun out key => if key ∈ out then out else out ++ [key]) out ↔
      tag ∈ out ∨ tag ∈ add := by
  induction add generalizing out with
  | nil => simp
  | cons key add ih =>
    rw [List.foldl_cons, ih, List.mem_cons]
    split
    next hmem =>
      constructor
      · exact fun h => h.imp_right .inr
      · rintro (h | rfl | h)
        · exact .inl h
        · exact .inl hmem
        · exact .inr h
    next hmem => rw [List.mem_append, List.mem_singleton, or_assoc]

theorem mem_desiredTags {current add remove : List String} {tag : String} :
    tag ∈ desiredTags current add remove ↔ tag ∈ current ∧ tag ∉ remove ∨ tag ∈ add := by
  rw [desiredTags, mem_addedTags, List.mem_filter, decide_eq_true_eq]

theorem addedTags_of_subset {out add : List String} (h : ∀ key ∈ add, key ∈ out) :
    add.foldl (fun out key => if key ∈ out then out else out ++ [key]) out = out := by
  induction add with
  | nil => rfl
  | cons key add ih =>
    rw [List.foldl_cons, if_pos (h key List.mem_cons_self)]
    exact ih fun k hk => h k (List.mem_cons_of_mem key hk)

/-- The edit names nothing it would change. -/
def Idle (add remove tags : List String) : Prop :=
  (∀ key ∈ add, key ∈ tags) ∧ ∀ key ∈ remove, key ∉ tags

instance (add remove tags : List String) : Decidable (Idle add remove tags) :=
  inferInstanceAs (Decidable (_ ∧ _))

theorem idle_iff {add remove tags : List String} (hdisjoint : add.Disjoint remove) :
    Idle add remove tags ↔ ∀ tag, tag ∈ tags ↔ tag ∈ tags ∧ tag ∉ remove ∨ tag ∈ add := by
  constructor
  · rintro ⟨hadd, hremove⟩ tag
    exact ⟨fun htag => .inl ⟨htag, fun hr => hremove tag hr htag⟩,
      fun h => h.elim And.left (hadd tag)⟩
  · intro h
    refine ⟨fun key hkey => (h key).mpr (.inr hkey), fun key hkey htag => ?_⟩
    rcases (h key).mp htag with ⟨-, hnot⟩ | hadd
    · exact hnot hkey
    · exact hdisjoint hadd hkey

theorem desiredTags_eq_self {current add remove : List String} (hdisjoint : add.Disjoint remove) :
    desiredTags current add remove = current ↔ Idle add remove current := by
  constructor
  · intro h
    refine (idle_iff hdisjoint).mpr fun tag => ?_
    rw [← mem_desiredTags, h]
  · rintro ⟨hadd, hremove⟩
    have hfilter : (current.filter fun tag => tag ∉ remove) = current :=
      List.filter_eq_self.mpr fun tag htag => decide_eq_true fun hr => hremove tag hr htag
    rw [desiredTags, hfilter, addedTags_of_subset hadd]

theorem assertEditAllowed_disjoint {add : Dict} {remove keys removed : List String}
    (h : assertEditAllowed add remove = .ok (keys, removed)) : keys.Disjoint removed := by
  simp only [assertEditAllowed] at h
  split_ifs at h with hempty
  split at h
  · cases h
  split at h
  · cases h
  next hvalid =>
    obtain ⟨rfl, rfl⟩ := Prod.mk.inj (Except.ok.inj h)
    intro key hkey hremoved
    unfold validateEdit at hvalid
    obtain ⟨hoverlap, -⟩ := Machine.raiseIf_eq_ok hvalid
    have hmem : key ∈ (((add.map fun (key, value) => (key, Json.textOrEmpty (some value))).map
        Prod.fst).filter (· ∈ remove)).dedup.mergeSort := by
      rw [List.mem_mergeSort, List.mem_dedup, List.mem_filter]
      exact ⟨hkey, decide_eq_true hremoved⟩
    rw [not_ne_iff.mp hoverlap] at hmem
    cases hmem

/-! ### What is written is read back -/

/-- What the job of an edit carries is written as it is. -/
def Writable (tags : List String) : Prop := tagsRefusal tags = none ∧ normalizeTags tags = tags

instance (tags : List String) : Decidable (Writable tags) := inferInstanceAs (Decidable (_ ∧ _))

theorem agentTagJob_ok {tags queued : List String} {agentRefusal : Option String} :
    agentTagJob tags agentRefusal = .ok queued ↔
      agentRefusal = none ∧ Writable tags ∧ queued = tags := by
  simp only [agentTagJob, Writable]
  cases hrefusal : tagsRefusal tags with
  | some detail => simp
  | none =>
    cases agentRefusal with
    | some detail => simp
    | none =>
      by_cases hsame : normalizeTags tags = tags
      · simp [hsame, eq_comm]
      · simp [hsame]

/-- What the edit of a guest with known tags comes to. -/
theorem queueTagJob_cases (tags : List String) {add remove : List String}
    (agentRefusal : Option String) (hdisjoint : add.Disjoint remove) :
    let current := (normalise tags).map Chip.key
    let desired := desiredTags current add remove
    let outcome := queueTagJob (some (some tags)) add remove agentRefusal
    Idle add remove current ∧ outcome = .unchanged ∨
      ¬Idle add remove current ∧
        (agentRefusal = none ∧ Writable desired ∧ outcome = .queued desired ∨
          ¬(agentRefusal = none ∧ Writable desired) ∧ ∃ error, outcome = .failed error) := by
  intro current desired outcome
  by_cases hidle : Idle add remove current
  · exact .inl ⟨hidle, if_pos ((desiredTags_eq_self hdisjoint).mpr hidle)⟩
  · have houtcome : outcome = match agentTagJob desired agentRefusal with
        | .error detail => .failed detail
        | .ok tags => .queued tags :=
      if_neg fun h => hidle ((desiredTags_eq_self hdisjoint).mp h)
    refine .inr ⟨hidle, ?_⟩
    cases hjob : agentTagJob desired agentRefusal with
    | ok queued =>
      obtain ⟨hnone, hwrite, rfl⟩ := agentTagJob_ok.mp hjob
      exact .inl ⟨hnone, hwrite, houtcome.trans (by rw [hjob])⟩
    | error detail =>
      refine .inr ⟨fun h => ?_, detail, houtcome.trans (by rw [hjob])⟩
      have hqueued := agentTagJob_ok.mpr ⟨h.1, h.2, rfl⟩
      rw [hjob] at hqueued
      cases hqueued

theorem tagChar_range {c : Char} (h : tagChar c = true) :
    c.toNat = 43 ∨ 45 ≤ c.toNat ∧ c.toNat ≤ 57 ∨ 65 ≤ c.toNat ∧ c.toNat ≤ 122 := by
  simp only [tagChar, isAlnum, Bool.or_eq_true, Bool.and_eq_true, decide_eq_true_eq,
    List.contains_iff_mem] at h
  rcases h with ((⟨hlow, hhigh⟩ | ⟨hlow, hhigh⟩) | ⟨hlow, hhigh⟩) | hother
  · have h₁ : 65 ≤ c.toNat := hlow
    have h₂ : c.toNat ≤ 90 := hhigh
    omega
  · have h₁ : 97 ≤ c.toNat := hlow
    have h₂ : c.toNat ≤ 122 := hhigh
    omega
  · have h₁ : 48 ≤ c.toNat := hlow
    have h₂ : c.toNat ≤ 57 := hhigh
    omega
  · have hlist : "_+.-".toList = ['_', '+', '.', '-'] := rfl
    rw [hlist] at hother
    simp only [List.mem_cons, List.not_mem_nil, or_false] at hother
    rcases hother with rfl | rfl | rfl | rfl <;> decide

theorem tagChar_printable {c : Char} (h : tagChar c = true) :
    printable c = true ∧ isSpace c = false := by
  have hrange := tagChar_range h
  refine ⟨?_, ?_⟩
  · simp only [printable, Bool.or_eq_true, Bool.and_eq_true, Bool.not_eq_true', decide_eq_true_eq,
      Bool.and_eq_false_iff, decide_eq_false_iff_not]
    omega
  · simp only [isSpace, Bool.or_eq_false_iff, Bool.and_eq_false_iff, decide_eq_false_iff_not]
    omega

theorem tagChar_plain {c : Char} (h : tagChar c = true) : isTagSeparator c = false := by
  have hrange := tagChar_range h
  have hsemicolon : c ≠ ';' := by
    rintro rfl
    revert hrange
    decide
  have hcomma : c ≠ ',' := by
    rintro rfl
    revert hrange
    decide
  simp [isTagSeparator, (tagChar_printable h).2, hsemicolon, hcomma]

theorem beforeEnd_strip (text : String) : beforeEnd (strip text).toList = (strip text).toList := by
  unfold beforeEnd
  rw [if_neg]
  intro h
  have hhead : ((text.toList.dropWhile isSpace).reverse.dropWhile isSpace).head? = some '\n' := by
    rw [← List.getLast?_reverse]
    simpa [strip] using h
  have hnot := List.head?_dropWhile_not isSpace (text.toList.dropWhile isSpace).reverse
  rw [hhead] at hnot
  exact absurd hnot (by decide)

/-- The characters of a tag that is written. -/
theorem tagChar_of_writable {tags : List String} (h : Writable tags) {tag : String}
    (htag : tag ∈ tags) : tag.toList ≠ [] ∧ ∀ c ∈ tag.toList, tagChar c = true := by
  rw [← h.2] at htag
  obtain ⟨hmem, hmatch⟩ := List.mem_filter.mp (List.mem_of_mem_take htag)
  obtain ⟨text, -, rfl⟩ := List.mem_map.mp hmem
  simp only [matchesTag, matchesTagKey, beforeEnd_strip, Bool.and_eq_true] at hmatch
  replace hmatch := hmatch.1
  split at hmatch
  · cases hmatch
  next c cs hcs =>
    obtain ⟨hhead, htail⟩ := Bool.and_eq_true_iff.mp hmatch
    rw [hcs]
    refine ⟨List.cons_ne_nil c cs, fun d hd => ?_⟩
    rcases List.mem_cons.mp hd with rfl | hd
    · have hword : isAlnum d = true ∨ d = '_' := by simpa [tagHead] using hhead
      rcases hword with hword | rfl
      · simp [tagChar, hword]
      · decide
    · exact List.all_eq_true.mp htail d hd

theorem setTagsProxmox_of_writable {tags : List String} (h : Writable tags) :
    setTagsProxmox tags = .ok (";".intercalate tags) := by
  obtain ⟨hrefusal, -⟩ := h
  unfold tagsRefusal at hrefusal
  split_ifs at hrefusal with hlen
  rw [setTagsProxmox, if_neg hlen, Option.map_eq_none_iff.mp hrefusal]

theorem proxmoxTagList_written {tags : List String} (h : Writable tags) :
    proxmoxTagList (";".intercalate tags) = tags := by
  by_cases hnil : tags = []
  · subst hnil
    rfl
  · have hsep : ";".toList = [';'] := rfl
    have hchars : ∀ l ∈ tags.map String.toList, ∀ c ∈ l, isTagSeparator c = false := by
      intro l hl c hc
      obtain ⟨tag, htag, rfl⟩ := List.mem_map.mp hl
      exact tagChar_plain ((tagChar_of_writable h htag).2 c hc)
    have hfull : (tags.map String.toList).filter (· ≠ []) = tags.map String.toList := by
      refine List.filter_eq_self.mpr fun l hl => ?_
      obtain ⟨tag, htag, rfl⟩ := List.mem_map.mp hl
      exact decide_eq_true (tagChar_of_writable h htag).1
    rw [proxmoxTagList, String.toList_intercalate, hsep,
      Python.splitOnP_intercalate isTagSeparator rfl (by simpa using hnil) hchars, hfull, List.map_map]
    simp

/-! ### What a fresh copy tells -/

/-- A tag that every step of the way leaves as it is. -/
def PlainTag (tag : String) : Prop :=
  tag ≠ "" ∧ tag.toList.length ≤ 60 ∧ ∀ c ∈ tag.toList, tagChar c = true

theorem PlainTag.strip {tag : String} (h : PlainTag tag) : strip tag = tag :=
  Python.strip_of_all fun c hc => (tagChar_printable (h.2.2 c hc)).2

theorem syncedTags_plain {tags : List String} (hlen : tags.length ≤ maxTags)
    (hplain : ∀ tag ∈ tags, PlainTag tag) : syncedTags tags = tags := by
  have hclean : ∀ tag ∈ tags, cleanText (some (.str tag)) maxVmText = tag := fun tag htag =>
    cleanText_plain (fun c hc => tagChar_printable ((hplain tag htag).2.2 c hc))
      ((hplain tag htag).2.1.trans (by decide))
  have hslice : (Json.arr (tags.map .str)).slice? maxTags = some (tags.map .str) := by
    cases tags with
    | nil => rfl
    | cons tag rest =>
      have hfits : ((tag :: rest).map Json.str).length ≤ maxTags := by simpa using hlen
      rw [Json.slice?, if_neg (by simp [Json.truthy])]
      exact congrArg some (List.take_of_length_le hfits)
  rw [syncedTags, cleanList, hslice, Option.map_some, Option.getD_some, List.map_map]
  have hmap : tags.map ((fun item => cleanText (some item) maxVmText) ∘ Json.str) = tags :=
    (List.map_congr_left hclean).trans (List.map_id' tags)
  rw [hmap]
  exact List.filter_eq_self.mpr fun tag htag => decide_eq_true (hplain tag htag).1

theorem chips_plain {tags seen : List String} (hplain : ∀ tag ∈ tags, PlainTag tag)
    (hseen : ∀ tag ∈ tags, lower tag ∉ seen) (hcase : (tags.map lower).Nodup) :
    (chips seen tags).map Chip.key = tags := by
  induction tags generalizing seen with
  | nil => rfl
  | cons tag rest ih =>
    have htag := hplain tag List.mem_cons_self
    have hcanon : canon tag = lower tag := by rw [canon, htag.strip]
    obtain ⟨hnew, hcase⟩ := List.nodup_cons.mp hcase
    have hrest : (chips (lower tag :: seen) rest).map Chip.key = rest := by
      refine ih (fun t ht => hplain t (List.mem_cons_of_mem tag ht)) (fun t ht => ?_) hcase
      have hne : lower t ≠ lower tag := fun heq => hnew (heq ▸ List.mem_map_of_mem ht)
      simpa [hne] using hseen t (List.mem_cons_of_mem tag ht)
    simp only [chips, htag.strip, htag.1, hcanon, hseen tag List.mem_cons_self, if_false,
      List.map_cons, hrest]

/-- The copy of at most 32 tags, no two of which differ by case alone, names them all. -/
theorem mem_normalise_synced {tags : List String} (hlen : tags.length ≤ maxTags)
    (hplain : ∀ tag ∈ tags, PlainTag tag) (hcase : (tags.map lower).Nodup) {tag : String} :
    tag ∈ (normalise (syncedTags tags)).map Chip.key ↔ tag ∈ tags := by
  have hperm : ((normalise (syncedTags tags)).map Chip.key).Perm tags := by
    rw [syncedTags_plain hlen hplain]
    have hseen : ∀ tag ∈ tags, lower tag ∉ ([] : List String) := by simp
    have hchips := chips_plain hplain hseen hcase
    exact ((List.mergeSort_perm _ _).map Chip.key).trans (.of_eq hchips)
  exact hperm.mem_iff

end Hypervisor
