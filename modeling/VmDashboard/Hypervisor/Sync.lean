import VmDashboard.Hypervisor.Meta
import VmDashboard.Machine.Table
import VmDashboard.Python.Clock

/-!
# Applying inventory pages (`services/hypervisor_sync_service.py`)

`apply_page` writes a page's rows and commits; then it either queues the job of
the next page or, after the last one, refuses to empty the cache or prunes it,
and records the outcome on the connection. Both halves are kept apart here
because another session may run between their commits.
-/

namespace Hypervisor
open Machine (Table)
open Python (Instant Json)

structure VmRow where
  connectionId : String
  vmId : String
  name : Option String
  powerState : Option String
  vcpus : Option ℕ
  memMib : Option ℕ
  ipAddresses : Option String
  scope : Option String
  vmType : Option String
  tags : Option String
  guestOs : Option String
  syncedAt : Instant

def VmRow.key (row : VmRow) : String × String := (row.connectionId, row.vmId)

abbrev Cache := Table VmRow.key

def dumpsTexts (texts : List String) : String := (Json.arr (texts.map .str)).dumps

/-- The row after `_upsert`, over the row `old` that was there. -/
def upsertedRow (connectionId vmId : String) (old : Option VmRow) (stamp : Instant)
    (vm : CleanVm) : VmRow where
  connectionId
  vmId
  name := vm.name
  powerState := vm.powerState
  vcpus := vm.vcpus
  memMib := vm.memMib
  ipAddresses :=
    -- last known, not last seen
    match vm.ipAddresses with
    | some (ip :: ips) => some (dumpsTexts (ip :: ips))
    | _ => some ((old.bind VmRow.ipAddresses).getD "[]")
  scope := vm.scope
  vmType := vm.vmType
  tags := vm.tags.map dumpsTexts
  guestOs := vm.guestOs
  syncedAt := stamp

def upsertOne (connectionId : String) (stamp : Instant) (cache : Cache) (vm : CleanVm) : Cache :=
  match vm.vmId with
  | none => cache
  | some vmId =>
    cache.put (upsertedRow connectionId vmId (cache.lookup (connectionId, vmId)) stamp vm)

/-- `_upsert`. The clock is read once for the page. -/
def upsert (cache : Cache) (connectionId : String) (vms : List CleanVm) (started now : Instant) :
    Cache := vms.foldl (upsertOne connectionId (max started now)) cache

def emptySyncRefusal (count : ℕ) : String :=
  "the last sync returned no VMs at all and the agent did not confirm the host is " ++
  "empty, so the " ++ toString count ++ " cached VM(s) were kept rather than deleted. An agent " ++
  "that cannot read a host hands back exactly the same empty list a genuinely empty host " ++
  "does — on Hyper-V an unloaded PowerShell module and an account that cannot see " ++
  "the VMs both look like this. Upgrade the agent, and for Hyper-V or ESXi its " ++
  "sibling runner image, so it can say which one it was; until then this connection's " ++
  "cache is never emptied automatically."

/-- `_empty_prune_refusal`: `none` when the pass may prune. -/
def emptyPruneRefusal (cache : Cache) (connectionId : String) (enumerated : Bool)
    (started : Instant) : Option String :=
  if enumerated then none
  else
    let rows := cache.rows.filter fun row => row.connectionId = connectionId
    if rows.any fun row => started ≤ row.syncedAt then none
    else
      let doomed := (rows.filter fun row => row.syncedAt < started).length
      if doomed = 0 then none else some (emptySyncRefusal doomed)

def isDoomed (connectionId : String) (started : Instant) (row : VmRow) : Bool :=
  row.connectionId = connectionId && row.syncedAt < started

/-- `_prune`. -/
def prune (cache : Cache) (connectionId : String) (started : Instant) : Cache :=
  ⟨cache.rows.filter fun row => !isDoomed connectionId started row,
    cache.nodup.sublist (List.Sublist.map VmRow.key List.filter_sublist)⟩

/-! ### The jobs of a pass -/

structure Connection where
  id : String
  name : String
  lastOkAt : Option Instant
  lastSyncAt : Option Instant
  lastError : Option String

/-- The metadata `_queue` writes, with the columns of the job that a page reads. -/
structure SyncJob where
  id : String
  connectionId : String
  cursor : String
  description : String
  page : ℕ
  started : Instant
  trigger : String
  createdBy : String
  batchId : Option String

def queueJob (id : String) (conn : Connection) (cursor : String) (batchId : Option String)
    (page : ℕ) (started : Instant) (createdBy trigger : String) : SyncJob where
  id
  connectionId := conn.id
  cursor := constrained cursorChar (some (.str cursor))
  description := "Inventory sync: " ++ conn.name ++ " (page " ++ toString page ++ ")" ++
    (if trigger = "" then "" else " — " ++ trigger)
  page
  started
  trigger
  createdBy := if createdBy = "" then "system:sync" else createdBy
  batchId

/-- The test in front of the next page. -/
def chains (job : SyncJob) (page : Page) : Bool :=
  page.nextCursor ≠ "" && !page.complete && decide (job.page < maxSyncPages)

/-- The batch of a first page that has none. -/
def batchOf (jobId : String) : String :=
  String.ofList ((jobId.toList.filter (· ≠ '-')).take 12)

def nextJob (id : String) (conn : Connection) (job : SyncJob) (page : Page) : SyncJob :=
  queueJob id conn page.nextCursor (some (job.batchId.getD (batchOf job.id))) (job.page + 1)
    job.started job.createdBy job.trigger

def recordError (error : String) (conn : Connection) : Connection :=
  { conn with lastError := some (String.ofList (error.toList.take 2000)) }

def recordSynced (now : Instant) (conn : Connection) : Connection :=
  { conn with lastOkAt := some now, lastError := none, lastSyncAt := some now }

/-! ### Laws of the cache -/

theorem lookup_upsertOne (connectionId : String) (stamp : Instant) (cache : Cache) (vm : CleanVm)
    (key : String × String) :
    (∃ vmId row, vm.vmId = some vmId ∧ key = (connectionId, vmId) ∧ row.syncedAt = stamp ∧
        (upsertOne connectionId stamp cache vm).lookup key = some row) ∨
      (¬(key.1 = connectionId ∧ vm.vmId = some key.2) ∧
        (upsertOne connectionId stamp cache vm).lookup key = cache.lookup key) := by
  unfold upsertOne
  cases hid : vm.vmId with
  | none => exact .inr ⟨(fun ⟨_, h⟩ => nomatch h), rfl⟩
  | some vmId =>
    by_cases hkey : key = (connectionId, vmId)
    · exact .inl ⟨vmId, _, rfl, hkey, rfl, (Table.lookup_put _ _ _).trans (if_pos hkey)⟩
    · refine .inr ⟨fun h => hkey ?_, (Table.lookup_put _ _ _).trans (if_neg hkey)⟩
      exact Prod.ext h.1 (Option.some.inj h.2).symm

/-- A page leaves the rows it does not list as they are. -/
theorem lookup_upsert_of_notMem (cache : Cache) (connectionId : String) (vms : List CleanVm)
    (started now : Instant) (key : String × String)
    (h : ¬(key.1 = connectionId ∧ some key.2 ∈ vms.map CleanVm.vmId)) :
    (upsert cache connectionId vms started now).lookup key = cache.lookup key := by
  unfold upsert
  induction vms generalizing cache with
  | nil => rfl
  | cons vm vms ih =>
    rw [List.foldl_cons, ih _ fun hk => h ⟨hk.1, List.mem_cons_of_mem _ hk.2⟩]
    rcases lookup_upsertOne connectionId (max started now) cache vm key with
      ⟨vmId, row, hid, rfl, -, -⟩ | ⟨-, hsame⟩
    · exact absurd ⟨rfl, by rw [List.map_cons, hid]; exact List.mem_cons_self⟩ h
    · exact hsame

/-- The rows a page lists carry its stamp. -/
theorem lookup_upsert_of_mem (cache : Cache) (connectionId : String) {vmId : String}
    {vms : List CleanVm} (started now : Instant) (h : some vmId ∈ vms.map CleanVm.vmId) :
    ∃ row, (upsert cache connectionId vms started now).lookup (connectionId, vmId) = some row ∧
      row.syncedAt = max started now := by
  induction vms generalizing cache with
  | nil => cases h
  | cons vm vms ih =>
    by_cases hrest : some vmId ∈ vms.map CleanVm.vmId
    · exact ih (upsertOne connectionId (max started now) cache vm) hrest
    · have hhead : vm.vmId = some vmId := by
        rcases List.mem_cons.mp h with h | h
        · exact h.symm
        · exact absurd h hrest
      have hframe := lookup_upsert_of_notMem (upsertOne connectionId (max started now) cache vm)
        connectionId vms started now (connectionId, vmId) fun hk => hrest hk.2
      rcases lookup_upsertOne connectionId (max started now) cache vm (connectionId, vmId) with
        ⟨_, row, -, -, hstamp, hrow⟩ | ⟨hne, -⟩
      · exact ⟨row, hframe.trans hrow, hstamp⟩
      · exact absurd ⟨rfl, hhead⟩ hne

theorem lookup_prune {cache : Cache} {connectionId : String} {started : Instant}
    {key : String × String} {row : VmRow} :
    (prune cache connectionId started).lookup key = some row ↔
      cache.lookup key = some row ∧ isDoomed connectionId started row = false := by
  simp only [Table.lookup_eq_some, prune, List.mem_filter, Bool.not_eq_true']
  exact ⟨fun h => ⟨⟨h.1.1, h.2⟩, h.1.2⟩, fun h => ⟨⟨h.1.1, h.2⟩, h.1.2⟩⟩

end Hypervisor
