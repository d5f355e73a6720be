import VmDashboard.Machine.Table
import VmDashboard.Python.Text
import Mathlib.Data.List.Find

/-!
# Terraform state under a swap of the storage backend

`has_terraform_state` and `migrate_terraform_state` of `services/storage_service.py`
against `_backend_settings` of `services/terraform.py`. Of the settings only what
locates the state is kept; the bucket or container is the one `/storage` uses.
-/

namespace Storage
open Machine (Table)

/-- `BACKENDS`. -/
inductive Backend
  | s3 | azureBlob | gcs | ociObjectStorage | localPath | agentLocal
  deriving DecidableEq

abbrev Bytes := List UInt8

structure Object where
  key : String
  data : Bytes
  deriving DecidableEq

/-- The `terraform.tfstate` of a deploy directory. -/
structure StateFile where
  job : String
  data : Bytes
  deriving DecidableEq

structure Store where
  configured : Backend → Bool
  /-- the objects of each backend, in the order it lists them -/
  bucket : Backend → Table Object.key
  deployDirs : Table StateFile.job

def tfStatePrefix : String := "terraform-state"

/-! ### Where Terraform keeps state -/

/-- `_state_key` of the deploy directory of a job. -/
def stateKey (job : String) : String := tfStatePrefix ++ "/" ++ job

inductive StateBackend
  | s3 (key : String)
  | azurerm (key : String)
  | gcs (keyPrefix : String)
  | localState

/-- `_backend_settings` with `active` the active backend, if any. -/
def backendSettings (active : Option Backend) (job : String) : StateBackend :=
  let key := stateKey job ++ "/terraform.tfstate"
  match active with
  | some .s3 => .s3 key
  | some .azureBlob => .azurerm key
  | some .gcs => .gcs (stateKey job)
  | _ => .localState

/-- The object Terraform keeps the state in; `none` is the deploy directory. -/
def StateBackend.object : StateBackend → Option String
  | .s3 key | .azurerm key => some key
  | .gcs keyPrefix => some (keyPrefix ++ "/default.tfstate")
  | .localState => none

/-- The object that a lock on the state is; Azure's is a lease on the state itself. -/
def StateBackend.lock : StateBackend → Option String
  | .s3 key => some (key ++ ".tflock")
  | .gcs keyPrefix => some (keyPrefix ++ "/default.tflock")
  | .azurerm _ | .localState => none

/-- The state a deployment finds with `active` the active backend. -/
def Store.state (store : Store) (active : Backend) (job : String) : Option Bytes :=
  match (backendSettings (some active) job).object with
  | some key => ((store.bucket active).lookup key).map Object.data
  | none => (store.deployDirs.lookup job).map StateFile.data

/-! ### `storage_service` -/

def tfStateObjectKey (backend : Backend) (job : String) : String :=
  if backend = .gcs then tfStatePrefix ++ "/" ++ job ++ "/default.tfstate"
  else tfStatePrefix ++ "/" ++ job ++ "/terraform.tfstate"

/-- `key.strip("/").split("/")`. -/
def keyParts (key : String) : List String :=
  ((((key.toList.dropWhile (· = '/')).reverse.dropWhile (· = '/')).reverse).splitOnP (· = '/')).map
    String.ofList

def jobFromStateKey (key : String) : String :=
  match keyParts key with
  | first :: job :: _ => if first = tfStatePrefix then job else ""
  | _ => ""

/-- `_DEPLOY_DIR_STATE_BACKENDS`. -/
def Backend.deployDir : Backend → Bool
  | .localPath | .agentLocal => true
  | _ => false

/-- The keys of `_STATE_KEYS`. -/
def Backend.remote : Backend → Bool
  | .s3 | .azureBlob | .gcs => true
  | _ => false

/-- What `_STATE_KEYS[backend]` lists. -/
def Store.stateObjects (store : Store) (backend : Backend) : List Object :=
  (store.bucket backend).rows.filter fun object =>
    (tfStatePrefix ++ "/").toList.isPrefixOf object.key.toList

def hasTerraformState (store : Store) (backend : Backend) : Bool :=
  if backend.deployDir then !store.deployDirs.rows.isEmpty
  else if backend.remote then !(store.stateObjects backend).isEmpty
  else false

/-- The states to copy. -/
def Store.items (store : Store) (backend : Backend) : List StateFile :=
  if backend.deployDir then store.deployDirs.rows
  else (store.stateObjects backend).filterMap fun object =>
    let job := jobFromStateKey object.key
    if job = "" then none else some ⟨job, object.data⟩

def Store.putState (store : Store) (backend : Backend) (item : StateFile) : Store :=
  if backend.deployDir then { store with deployDirs := store.deployDirs.put item }
  else { store with
    bucket := fun b =>
      if b = backend then
        (store.bucket b).put ⟨tfStateObjectKey backend item.job, item.data⟩
      else store.bucket b }

/-- `none` when the copy raises. -/
def migrateTerraformState (store : Store) (old new : Backend) : Option (Store × ℕ) :=
  if !store.configured old || !store.configured new then none
  else if old = new then some (store, 0)
  else if !(old.deployDir || old.remote) then none
  else
    let items := store.items old
    if !(new.deployDir || new.remote) ∧ items ≠ [] then none
    else some (items.foldl (fun store item => store.putState new item) store, items.length)

/-- `ACTIVE_BACKEND_EXCLUSIONS`: what the swap does not accept. -/
def Backend.excluded (backend : Backend) : Bool := backend = .ociObjectStorage

/-! ### What the swap promises -/

/-- A job id names a directory and a path segment. -/
def IsJob (job : String) : Prop := job ≠ "" ∧ '/' ∉ job.toList

/-- What lies under the state prefix of `backend` is states of jobs and the locks on them. -/
structure Store.OnlyState (store : Store) (backend : Backend) : Prop where
  objects : ∀ object ∈ store.stateObjects backend, ∃ job, IsJob job ∧
    (some object.key = (backendSettings (some backend) job).object ∨
      some object.key = (backendSettings (some backend) job).lock)
  dirs : ∀ file ∈ store.deployDirs.rows, IsJob file.job

/-- The guard sees state exactly when some deployment has it, and a copy that succeeds brings
every deployment its own. -/
structure Store.Swaps (store : Store) (old new : Backend) : Prop where
  guarded : hasTerraformState store old = true ↔ ∃ job, IsJob job ∧ (store.state old job).isSome
  copied : ∀ after n, migrateTerraformState store old new = some (after, n) →
    ∀ job, IsJob job → ∀ data, store.state old job = some data → after.state new job = some data

/-- The object lies in the directory of the job. -/
def Object.isOf (object : Object) (job : String) : Bool :=
  (stateKey job ++ "/").toList.isPrefixOf object.key.toList

/-- Where the old backend lists objects, some of them are state; and for each deployment that has
state, the last object listed of its job holds it. -/
structure Store.Plain (store : Store) (old : Backend) : Prop where
  some_state : old.remote = true → store.stateObjects old ≠ [] →
    ∃ job, IsJob job ∧ (store.state old job).isSome
  last_state : old.remote = true → ∀ job, IsJob job → ∀ data, store.state old job = some data →
    ((store.stateObjects old).reverse.find? fun object => object.isOf job).map Object.data =
      some data

/-! ### Keys -/

/-- The object `file` of a job. -/
def objectKey (job file : String) : String := tfStatePrefix ++ "/" ++ job ++ "/" ++ file

def stateFileName (backend : Backend) : String :=
  if backend = .gcs then "default.tfstate" else "terraform.tfstate"

theorem tfStateObjectKey_eq (backend : Backend) (job : String) :
    tfStateObjectKey backend job = objectKey job (stateFileName backend) := by
  unfold tfStateObjectKey stateFileName objectKey
  split <;> simp [String.append_assoc]

theorem objectKey_inj {job job' file : String} :
    objectKey job file = objectKey job' file ↔ job = job' := by
  simp [objectKey, ← String.toList_inj]

theorem objectKey_toList (job file : String) :
    (objectKey job file).toList =
      ['/'].intercalate [tfStatePrefix.toList, job.toList, file.toList] := by
  simp [objectKey, List.intercalate]

/-- What a job's directory holds: names without a slash. -/
def IsFile (file : String) : Prop := '/' ∉ file.toList ∧ file.toList ≠ []

instance (file : String) : Decidable (IsFile file) := inferInstanceAs (Decidable (_ ∧ _))

theorem keyParts_objectKey {job file : String} (hjob : IsJob job) (hfile : IsFile file) :
    keyParts (objectKey job file) = [tfStatePrefix, job, file] := by
  obtain ⟨hslash, hne⟩ := hfile
  have hstart : (objectKey job file).toList.dropWhile (· = '/') = (objectKey job file).toList := by
    have ht : tfStatePrefix.toList = 't' :: "erraform-state".toList := by decide
    simp only [objectKey, String.toList_append, ht, List.cons_append]
    exact List.dropWhile_cons_of_neg (by decide)
  have hend : (objectKey job file).toList.reverse.dropWhile (· = '/') =
      (objectKey job file).toList.reverse := by
    obtain ⟨c, cs, hcs⟩ := List.exists_cons_of_ne_nil (List.reverse_ne_nil_iff.mpr hne)
    have hc : c ≠ '/' := by
      rintro rfl
      exact hslash (List.mem_reverse.mp (hcs ▸ List.mem_cons_self))
    simp only [objectKey, String.toList_append, List.reverse_append, hcs, List.cons_append]
    exact List.dropWhile_cons_of_neg (by simpa using hc)
  have hparts : ∀ l ∈ [tfStatePrefix.toList, job.toList, file.toList], ∀ c ∈ l,
      decide (c = '/') = false := by
    intro l hl c hc
    simp only [List.mem_cons, List.not_mem_nil, or_false] at hl
    rcases hl with rfl | rfl | rfl
    · have hprefix : '/' ∉ tfStatePrefix.toList := by decide
      exact decide_eq_false fun h => hprefix (h ▸ hc)
    · exact decide_eq_false fun h => hjob.2 (h ▸ hc)
    · exact decide_eq_false fun h => hslash (h ▸ hc)
  rw [keyParts, hstart, hend, List.reverse_reverse, objectKey_toList,
    Python.splitOnP_intercalate (· = '/') (by simp) (by simp) hparts]
  simp

theorem jobFromStateKey_objectKey {job file : String} (hjob : IsJob job) (hfile : IsFile file) :
    jobFromStateKey (objectKey job file) = job := by
  simp [jobFromStateKey, keyParts_objectKey hjob hfile]

theorem isOf_objectKey {job job' : String} (hjob : IsJob job) (hjob' : IsJob job')
    (file : String) (data : Bytes) : Object.isOf ⟨objectKey job' file, data⟩ job = true ↔ job' = job := by
  rw [Object.isOf, List.isPrefixOf_iff_prefix]
  have hkey : (objectKey job' file).toList =
      (tfStatePrefix ++ "/").toList ++ (job'.toList ++ '/' :: file.toList) := by
    simp [objectKey]
  have hdir : (stateKey job ++ "/").toList =
      (tfStatePrefix ++ "/").toList ++ (job.toList ++ ['/']) := by
    simp [stateKey]
  rw [hkey, hdir, List.prefix_append_right_inj]
  constructor
  · rintro ⟨rest, hrest⟩
    have htake : ∀ (name rest : List Char), '/' ∉ name →
        (name ++ '/' :: rest).takeWhile (· ≠ '/') = name := by
      intro name rest hname
      induction name with
      | nil => simp
      | cons c cs ih =>
        obtain ⟨hc, hcs⟩ := List.ne_and_not_mem_of_not_mem_cons hname
        rw [List.cons_append, List.takeWhile_cons_of_pos (by simpa using hc.symm), ih hcs]
    rw [List.append_assoc, List.singleton_append] at hrest
    have hboth := congrArg (List.takeWhile fun c => decide (c ≠ '/')) hrest
    rw [htake _ _ hjob.2, htake _ _ hjob'.2] at hboth
    exact String.toList_injective hboth.symm
  · rintro rfl
    exact ⟨file.toList, by simp⟩

/-! ### The listing -/

theorem object_eq {backend : Backend} (h : backend.remote = true) (job : String) :
    (backendSettings (some backend) job).object = some (objectKey job (stateFileName backend)) := by
  cases backend <;> first | (simp [Backend.remote] at h; done) | skip
  all_goals simp [backendSettings, StateBackend.object, stateKey, objectKey, stateFileName,
    String.append_assoc]

theorem lock_eq {backend : Backend} {job key : String}
    (h : some key = (backendSettings (some backend) job).lock) :
    ∃ file, IsFile file ∧ key = objectKey job file := by
  cases backend with
  | s3 =>
    refine ⟨"terraform.tfstate.tflock", by decide, ?_⟩
    rw [Option.some.inj h]
    simp [stateKey, objectKey, String.append_assoc]
  | gcs =>
    refine ⟨"default.tflock", by decide, ?_⟩
    rw [Option.some.inj h]
    simp [stateKey, objectKey, String.append_assoc]
  | _ => cases h

theorem isFile_stateFileName (backend : Backend) : IsFile (stateFileName backend) := by
  unfold stateFileName
  split <;> decide

/-- Every object under the prefix is one of a job's. -/
theorem listed_key {store : Store} {backend : Backend} (h : store.OnlyState backend)
    (hremote : backend.remote = true) {object : Object}
    (hobject : object ∈ store.stateObjects backend) :
    ∃ job file, IsJob job ∧ IsFile file ∧ object.key = objectKey job file := by
  obtain ⟨job, hjob, hkey | hkey⟩ := h.objects object hobject
  · rw [object_eq hremote] at hkey
    exact ⟨job, stateFileName backend, hjob, isFile_stateFileName backend, Option.some.inj hkey⟩
  · obtain ⟨file, hfile, hkey⟩ := lock_eq hkey
    exact ⟨job, file, hjob, hfile, hkey⟩

theorem deployDir_of_not_remote {backend : Backend} (h : backend.excluded = false)
    (hremote : backend.remote = false) : backend.deployDir = true := by
  cases backend <;> simp_all [Backend.excluded, Backend.remote, Backend.deployDir]

theorem not_deployDir_of_remote {backend : Backend} (h : backend.remote = true) :
    backend.deployDir = false := by
  cases backend <;> simp_all [Backend.remote, Backend.deployDir]

theorem items_remote {store : Store} {old : Backend} (h : store.OnlyState old)
    (hremote : old.remote = true) : store.items old =
      (store.stateObjects old).map fun object => ⟨jobFromStateKey object.key, object.data⟩ := by
  rw [Store.items, if_neg (by simp [not_deployDir_of_remote hremote]), ← List.filterMap_eq_map]
  refine List.filterMap_congr fun object hobject => ?_
  obtain ⟨job, file, hjob, hfile, hkey⟩ := listed_key h hremote hobject
  simp only [Function.comp_apply, hkey, jobFromStateKey_objectKey hjob hfile]
  rw [if_neg hjob.1]

/-- The last item of a job is the last object listed of it. -/
theorem last_item {store : Store} {old : Backend} (h : store.OnlyState old)
    (hremote : old.remote = true) {job : String} (hjob : IsJob job) :
    ((store.items old).reverse.find? fun item => item.job = job).map StateFile.data =
      ((store.stateObjects old).reverse.find? fun object => object.isOf job).map Object.data := by
  rw [items_remote h hremote, ← List.map_reverse, List.find?_map, Option.map_map]
  have hsame : ∀ object ∈ (store.stateObjects old).reverse,
      ((fun item : StateFile => decide (item.job = job)) ∘ fun object : Object =>
        (⟨jobFromStateKey object.key, object.data⟩ : StateFile)) object = object.isOf job := by
    intro object hobject
    obtain ⟨job', file, hjob', hfile, hkey⟩ := listed_key h hremote (List.mem_reverse.mp hobject)
    have hisOf := isOf_objectKey hjob hjob' file object.data
    rw [← hkey] at hisOf
    simp only [Function.comp_apply, hkey, jobFromStateKey_objectKey hjob' hfile]
    rw [Bool.eq_iff_iff, decide_eq_true_eq]
    exact hisOf.symm
  rw [List.find?_congr hsame]
  rfl

/-! ### The copy -/

/-- Where the copy goes, a job has the last item of its own, or what it had. -/
theorem state_foldl_putState {new : Backend} (hnew : new.excluded = false) (store : Store)
    (items : List StateFile) (job : String) :
    (items.foldl (fun store item => store.putState new item) store).state new job =
      ((items.reverse.find? fun item => item.job = job).map StateFile.data).or
        (store.state new job) := by
  cases hremote : new.remote with
  | false =>
    have hdir := deployDir_of_not_remote hnew hremote
    have hdirs : ∀ store : Store, (items.foldl (fun store item => store.putState new item)
        store).deployDirs = items.foldl Table.put store.deployDirs := by
      induction items with
      | nil => exact fun _ => rfl
      | cons item items ih =>
        intro store
        rw [List.foldl_cons, ih, List.foldl_cons, Store.putState, if_pos hdir]
    have hstate : ∀ store : Store, store.state new job =
        (store.deployDirs.lookup job).map StateFile.data := by
      intro store
      cases new <;> simp_all [Backend.remote, Backend.excluded, Store.state, backendSettings,
        StateBackend.object]
    rw [hstate, hstate, hdirs, Table.lookup_foldl_put, Option.map_or]
  | true =>
    have hdir := not_deployDir_of_remote hremote
    let object := fun item : StateFile => (⟨tfStateObjectKey new item.job, item.data⟩ : Object)
    have hbucket : ∀ store : Store, (items.foldl (fun store item => store.putState new item)
        store).bucket new = (items.map object).foldl Table.put (store.bucket new) := by
      induction items with
      | nil => exact fun _ => rfl
      | cons item items ih =>
        intro store
        rw [List.foldl_cons, ih, List.map_cons, List.foldl_cons, Store.putState, hdir]
        simp [object]
    have hstate : ∀ store : Store, store.state new job =
        ((store.bucket new).lookup (tfStateObjectKey new job)).map Object.data := by
      intro store
      rw [Store.state, object_eq hremote, tfStateObjectKey_eq]
    have hkey : (fun o : Object => decide (o.key = tfStateObjectKey new job)) ∘ object =
        fun item : StateFile => decide (item.job = job) := by
      funext item
      simp only [Function.comp_apply, object, tfStateObjectKey_eq, objectKey_inj]
    rw [hstate, hstate, hbucket, Table.lookup_foldl_put, Option.map_or, ← List.map_reverse,
      List.find?_map, Option.map_map, hkey]
    rfl

/-- A job with state is among the items. -/
theorem item_of_state {store : Store} {old : Backend} (hold : old.excluded = false)
    (h : store.OnlyState old) {job : String} (hjob : IsJob job) {data : Bytes}
    (hstate : store.state old job = some data) :
    ((store.items old).reverse.find? fun item => item.job = job).isSome := by
  rw [List.find?_isSome]
  cases hremote : old.remote with
  | false =>
    have hdir := deployDir_of_not_remote hold hremote
    have hlookup : (store.deployDirs.lookup job).map StateFile.data = some data := by
      cases old <;> simp_all [Backend.remote, Backend.excluded, Store.state, backendSettings,
        StateBackend.object]
    obtain ⟨file, hfile, -⟩ := Option.map_eq_some_iff.mp hlookup
    obtain ⟨hmem, hkey⟩ := Table.lookup_eq_some.mp hfile
    refine ⟨file, List.mem_reverse.mpr ?_, decide_eq_true hkey⟩
    rw [Store.items, if_pos hdir]
    exact hmem
  | true =>
    rw [Store.state, object_eq hremote] at hstate
    obtain ⟨object, hobject, -⟩ := Option.map_eq_some_iff.mp hstate
    obtain ⟨hmem, hkey⟩ := Table.lookup_eq_some.mp hobject
    have hlisted : object ∈ store.stateObjects old := by
      refine List.mem_filter.mpr ⟨hmem, ?_⟩
      rw [hkey, List.isPrefixOf_iff_prefix]
      exact ⟨(job ++ "/" ++ stateFileName old).toList, by simp [objectKey]⟩
    refine ⟨⟨job, object.data⟩, List.mem_reverse.mpr ?_, decide_eq_true rfl⟩
    rw [items_remote h hremote]
    refine List.mem_map.mpr ⟨object, hlisted, ?_⟩
    rw [hkey, jobFromStateKey_objectKey hjob (isFile_stateFileName old)]

theorem has_iff {store : Store} {old : Backend} (hold : old.excluded = false)
    (h : store.OnlyState old) : hasTerraformState store old = true ↔ store.items old ≠ [] := by
  cases hremote : old.remote with
  | false =>
    have hdir := deployDir_of_not_remote hold hremote
    simp [hasTerraformState, Store.items, hdir]
  | true =>
    rw [items_remote h hremote]
    simp [hasTerraformState, not_deployDir_of_remote hremote, hremote]

/-- A deploy directory's state is always some job's. -/
theorem some_state_deployDir {store : Store} {old : Backend} (h : store.OnlyState old)
    (hdir : old.deployDir = true) (hitems : store.items old ≠ []) :
    ∃ job, IsJob job ∧ (store.state old job).isSome := by
  rw [Store.items, if_pos hdir] at hitems
  obtain ⟨file, hfile⟩ := List.exists_mem_of_ne_nil _ hitems
  have hlookup := Table.lookup_eq_some.mpr ⟨hfile, rfl⟩
  refine ⟨file.job, h.dirs file hfile, ?_⟩
  cases old <;> simp_all [Backend.deployDir, Store.state, backendSettings, StateBackend.object]

theorem guarded_iff {store : Store} {old : Backend} (hold : old.excluded = false)
    (h : store.OnlyState old) :
    (hasTerraformState store old = true ↔ ∃ job, IsJob job ∧ (store.state old job).isSome) ↔
      (old.remote = true → store.stateObjects old ≠ [] →
        ∃ job, IsJob job ∧ (store.state old job).isSome) := by
  have hseen : (∃ job, IsJob job ∧ (store.state old job).isSome) → store.items old ≠ [] := by
    rintro ⟨job, hjob, hstate⟩ hnil
    obtain ⟨data, hdata⟩ := Option.isSome_iff_exists.mp hstate
    have hitem := item_of_state hold h hjob hdata
    rw [hnil] at hitem
    cases hitem
  rw [has_iff hold h]
  constructor
  · intro hiff hremote hobjects
    refine hiff.mp ?_
    rw [items_remote h hremote]
    simpa using hobjects
  · intro hsome
    refine ⟨fun hitems => ?_, hseen⟩
    cases hremote : old.remote with
    | false => exact some_state_deployDir h (deployDir_of_not_remote hold hremote) hitems
    | true =>
      rw [items_remote h hremote] at hitems
      exact hsome hremote (by simpa using hitems)

/-- Each job's directory holds one state. -/
theorem last_state_deployDir {store : Store} {old : Backend} (hold : old.excluded = false)
    (hremote : old.remote = false) {job : String} {data : Bytes}
    (hstate : store.state old job = some data) :
    ((store.items old).reverse.find? fun item => item.job = job).map StateFile.data =
      some data := by
  have hdir := deployDir_of_not_remote hold hremote
  have hlookup : (store.deployDirs.lookup job).map StateFile.data = some data := by
    cases old <;> simp_all [Backend.remote, Backend.excluded, Store.state, backendSettings,
      StateBackend.object]
  obtain ⟨file, hfile, hdata⟩ := Option.map_eq_some_iff.mp hlookup
  obtain ⟨hmem, hkey⟩ := Table.lookup_eq_some.mp hfile
  rw [Store.items, if_pos hdir]
  cases hfind : store.deployDirs.rows.reverse.find? fun item => item.job = job with
  | none =>
    have hnone := List.find?_eq_none.mp hfind file (List.mem_reverse.mpr hmem)
    exact absurd (decide_eq_true hkey) hnone
  | some item =>
    have hjob : item.job = job := by simpa using List.find?_some hfind
    have hitem := List.mem_reverse.mp (List.mem_of_find?_eq_some hfind)
    obtain rfl := Table.eq_of_key hitem hmem (hjob.trans hkey.symm)
    exact congrArg some hdata

theorem migrate_eq {store : Store} {old new : Backend} (hold : old.excluded = false)
    (hnew : new.excluded = false) (hne : old ≠ new) (hconfigured : store.configured old = true)
    (hconfigured' : store.configured new = true) : migrateTerraformState store old new =
      some ((store.items old).foldl (fun store item => store.putState new item) store,
        (store.items old).length) := by
  have hkept : ∀ backend : Backend, backend.excluded = false →
      (backend.deployDir || backend.remote) = true := by
    intro backend h
    cases backend <;> first | rfl | cases h
  simp [migrateTerraformState, hconfigured, hconfigured', hne, hkept old hold, hkept new hnew]

/-- A swap strands no state exactly when what the old backend lists under the state prefix is,
for each job that has state, its state last. -/
theorem swaps_iff {store : Store} {old new : Backend} (hold : old.excluded = false)
    (hnew : new.excluded = false) (hne : old ≠ new) (hconfigured : store.configured old = true)
    (hconfigured' : store.configured new = true) (h : store.OnlyState old) :
    store.Swaps old new ↔ store.Plain old := by
  have hmigrate := migrate_eq hold hnew hne hconfigured hconfigured'
  -- a job with state finds the last item of its own
  have hfound : ∀ job, IsJob job → ∀ data, store.state old job = some data →
      ((store.items old).foldl (fun store item => store.putState new item) store).state new job =
        ((store.items old).reverse.find? fun item => item.job = job).map StateFile.data := by
    intro job hjob data hdata
    rw [state_foldl_putState hnew]
    obtain ⟨item, hitem⟩ := Option.isSome_iff_exists.mp (item_of_state hold h hjob hdata)
    rw [hitem]
    rfl
  constructor
  · rintro ⟨hguarded, hcopied⟩
    refine ⟨(guarded_iff hold h).mp hguarded, fun hremote job hjob data hdata => ?_⟩
    rw [← last_item h hremote hjob, ← hfound job hjob data hdata]
    exact hcopied _ _ hmigrate job hjob data hdata
  · rintro ⟨hsome, hlast⟩
    refine ⟨(guarded_iff hold h).mpr hsome, fun after n hafter job hjob data hdata => ?_⟩
    obtain ⟨rfl, -⟩ := Prod.mk.inj (Option.some.inj (hmigrate.symm.trans hafter))
    rw [hfound job hjob data hdata]
    cases hremote : old.remote with
    | false => exact last_state_deployDir hold hremote hdata
    | true => exact (last_item h hremote hjob).trans (hlast hremote job hjob data hdata)

/-- One deployment on S3, with the lock file that a broken run left beside its state. -/
def locked : Store where
  configured _ := true
  bucket
    | .s3 => ⟨[⟨"terraform-state/job-1/terraform.tfstate", [123, 125]⟩,
        ⟨"terraform-state/job-1/terraform.tfstate.tflock", [0]⟩], by decide⟩
    | _ => .empty
  deployDirs := .empty

theorem isJob_sample : IsJob "job-1" := by
  constructor <;> decide

theorem locked_onlyState : locked.OnlyState .s3 := by
  refine ⟨fun object hobject => ⟨"job-1", isJob_sample, ?_⟩, nofun⟩
  have hall : ∀ object ∈ locked.stateObjects .s3,
      some object.key = (backendSettings (some .s3) "job-1").object ∨
        some object.key = (backendSettings (some .s3) "job-1").lock := by decide +kernel
  exact hall object hobject

/-- Under GCS the deployment finds the lock's bytes for its state. -/
theorem state_stranded : ¬∀ (store : Store) (old new : Backend), old.excluded = false →
    new.excluded = false → old ≠ new → store.configured old = true →
    store.configured new = true → store.OnlyState old → store.Swaps old new := by
  intro h
  have hswaps := h locked .s3 .gcs rfl rfl (by decide) rfl rfl locked_onlyState
  have hcopy : (migrateTerraformState locked .s3 .gcs).any (fun result =>
      result.1.state .gcs "job-1" = some [0]) = true := by decide +kernel
  obtain ⟨⟨after, n⟩, hafter, hdata⟩ := (Option.any_eq_true _ _).mp hcopy
  have hkept := hswaps.copied after n hafter "job-1" isJob_sample [123, 125] (by decide +kernel)
  rw [of_decide_eq_true hdata] at hkept
  exact absurd hkept (by decide)

def unlocked : Store where
  configured _ := true
  bucket
    | .s3 => ⟨[⟨"terraform-state/job-1/terraform.tfstate", [123, 125]⟩], by decide⟩
    | _ => .empty
  deployDirs := .empty

/-- Without the lock the deployment finds its state. -/
theorem swaps_unlocked : unlocked.Swaps .s3 .gcs := by
  have honly : unlocked.OnlyState .s3 := by
    refine ⟨fun object hobject => ⟨"job-1", isJob_sample, ?_⟩, nofun⟩
    have hall : ∀ object ∈ unlocked.stateObjects .s3,
        some object.key = (backendSettings (some .s3) "job-1").object := by decide +kernel
    exact .inl (hall object hobject)
  refine (swaps_iff rfl rfl (by decide) rfl rfl honly).mpr
    ⟨fun _ _ => ?_, fun _ job _ data hdata => ?_⟩
  · exact ⟨"job-1", isJob_sample, by decide +kernel⟩
  · rw [Store.state, object_eq rfl] at hdata
    obtain ⟨object, hobject, rfl⟩ := Option.map_eq_some_iff.mp hdata
    obtain ⟨hmem, hkey⟩ := Table.lookup_eq_some.mp hobject
    obtain rfl := List.mem_singleton.mp hmem
    have hsample : "terraform-state/job-1/terraform.tfstate" =
        objectKey "job-1" (stateFileName .s3) := by decide
    obtain rfl : "job-1" = job := objectKey_inj.mp (hsample.symm.trans hkey)
    decide +kernel

end Storage
