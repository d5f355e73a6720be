import Mathlib.Data.List.Sort
import VmDashboard.Machine.System
import VmDashboard.Machine.Table
import VmDashboard.Python.DateTime
import VmDashboard.Python.Json

/-!
# The hash-chained audit log (`services/audit_chain.py`)

The canonical text of a row, the walk that recomputes the chain, and
`log_audit` and `verify_audit_chain` of `services/job_service.py` over the
table. `sha256` stands for `sha256(text.encode("utf-8")).hexdigest()`.
-/

namespace Audit
open Machine (Table)
open Python (DateTime Dict Json)

structure Entry where
  id : String
  timestamp : DateTime
  username : Option String
  action : Option String
  targetVm : Option String
  details : Option String
  ipAddress : Option String
  seq : Option ℤ
  prevHash : Option String
  entryHash : Option String
  deriving DecidableEq

/-- `prev_hash` of the first entry. -/
def genesisPrev : String := "0000000000000000000000000000000000000000000000000000000000000000"

/- `str(seq)`. -/
def seqText : Option ℤ → String
  | some n => toString n
  | none => "None"

/-- The values `_canonical` joins, in its order; `None` collapses to `""`. -/
def Entry.parts (e : Entry) (prev : String) : List String :=
  [seqText e.seq, e.timestamp.isoformat, e.username.getD "", e.action.getD "",
   e.targetVm.getD "", e.details.getD "", prev, e.ipAddress.getD ""]

def Entry.canonical (e : Entry) (prev : String) : String := "\n".intercalate (e.parts prev)

section
variable (sha256 : String → String)

def computeEntryHash (e : Entry) (prev : String) : String := sha256 (e.canonical prev)

/-- `_walk` under the current form: whether the chain holds, the `seq` of the first entry that
breaks it, and the last hash. -/
def walk : List Entry → String → Bool × Option ℤ × String
  | [], prev => (true, none, prev)
  | e :: entries, prev =>
    if e.prevHash ≠ some prev ∨ e.entryHash ≠ some (computeEntryHash sha256 e prev) then
      (false, e.seq, prev)
    else
      -- `prev = e.entry_hash`, which the test has just compared
      walk entries (computeEntryHash sha256 e prev)

def verifyChain (entries : List Entry) : Bool × Option ℤ :=
  let (ok, broken, _) := walk sha256 entries genesisPrev
  (ok, broken)

end

abbrev Log := Table Entry.id

/-- The rows with a `seq`, in ascending order of it. -/
def chained (log : Log) : List Entry :=
  (log.rows.filter fun e => e.seq.isSome).insertionSort fun a b => a.seq.getD 0 ≤ b.seq.getD 0

structure Verdict where
  ok : Bool
  count : ℕ
  firstBrokenSeq : Option ℤ
  deriving DecidableEq

/-- `count` is what the walk has read: it stops at the entry that breaks the chain. -/
def verifyAuditChain (sha256 : String → String) (log : Log) : Verdict :=
  let (ok, broken) := verifyChain sha256 (chained log)
  let read := if ok then (chained log).length
    else ((chained log).takeWhile fun e => e.seq ≠ broken).length + 1
  ⟨ok, read, broken⟩

/-- What a caller of `log_audit` passes, and the fresh id and clock value it draws. An empty
`details` dictionary stands for `None`. -/
structure Record where
  id : String
  now : DateTime
  username : Option String
  action : Option String
  ipAddress : Option String
  targetVm : Option String
  details : Dict

/-- The row `log_audit` appends: it follows the row with the highest `seq`. -/
def nextEntry (sha256 : String → String) (log : Log) (record : Record) : Entry :=
  let last := (chained log).getLast?
  let prevHash := match last with
    | some e => e.entryHash
    | none => some genesisPrev
  let entry : Entry :=
    { id := record.id
      timestamp := record.now
      username := record.username
      action := record.action
      targetVm := record.targetVm
      details := if record.details = [] then none else some (Json.obj record.details).dumps
      ipAddress := record.ipAddress
      seq := match last with
        | some e => some (e.seq.getD 0 + 1)
        | none => some 1
      prevHash
      entryHash := none }
  { entry with entryHash := some (computeEntryHash sha256 entry (prevHash.getD "")) }

def logAudit (sha256 : String → String) (log : Log) (record : Record) : Option Log :=
  log.insert (nextEntry sha256 log record)

def auditSystem (sha256 : String → String) : Machine.System Log Record := ⟨logAudit sha256⟩

/-! ### The walk -/

variable {sha256 : String → String}

theorem walk_cons_ok {e : Entry} {entries : List Entry} {prev : String} :
    (walk sha256 (e :: entries) prev).1 = true ↔
      e.prevHash = some prev ∧ e.entryHash = some (computeEntryHash sha256 e prev) ∧
        (walk sha256 entries (computeEntryHash sha256 e prev)).1 = true := by
  rw [walk]
  split
  next h =>
    constructor
    · intro hok
      cases hok
    · rintro ⟨hp, hh, -⟩
      rcases h with h | h
      · exact absurd hp h
      · exact absurd hh h
  next h =>
    obtain ⟨hp, hh⟩ := not_or.mp h
    exact ⟨fun hok => ⟨of_not_not hp, of_not_not hh, hok⟩, fun hok => hok.2.2⟩

/-- The walk accepts exactly the lists whose stored hashes link up and whose every row carries
the hash of its own text. -/
def Linked : Option String → List Entry → Prop
  | _, [] => True
  | prev, e :: entries => e.prevHash = prev ∧ Linked e.entryHash entries

/-- The canonical text of a row under the `prev_hash` it stores. -/
def Entry.text (e : Entry) : String := e.canonical (e.prevHash.getD "")

theorem walk_ok_iff {entries : List Entry} {prev : String} :
    (walk sha256 entries prev).1 = true ↔
      Linked (some prev) entries ∧ ∀ e ∈ entries, e.entryHash = some (sha256 e.text) := by
  induction entries generalizing prev with
  | nil => exact ⟨fun _ => ⟨trivial, by simp⟩, fun _ => rfl⟩
  | cons e entries ih =>
    rw [walk_cons_ok, ih]
    constructor
    · rintro ⟨hp, hh, hlinked, hhashes⟩
      refine ⟨⟨hp, hh ▸ hlinked⟩, ?_⟩
      intro f hf
      rcases List.mem_cons.mp hf with rfl | hf
      · rw [hh, Entry.text, hp]
        rfl
      · exact hhashes f hf
    · rintro ⟨⟨hp, hlinked⟩, hhashes⟩
      have hh : e.entryHash = some (computeEntryHash sha256 e prev) := by
        rw [hhashes e List.mem_cons_self, Entry.text, hp]
        rfl
      exact ⟨hp, hh, hh ▸ hlinked, fun f hf => hhashes f (List.mem_cons_of_mem e hf)⟩

theorem linked_concat {prev : Option String} {entries : List Entry} {e : Entry} :
    Linked prev (entries ++ [e]) ↔ Linked prev entries ∧
      e.prevHash = (entries.getLast?.map Entry.entryHash).getD prev := by
  induction entries generalizing prev with
  | nil => simp [Linked]
  | cons d entries ih =>
    simp only [List.cons_append, Linked, ih]
    rw [List.getLast?_cons]
    cases entries.getLast? <;> simp [and_assoc]

theorem verifyAuditChain_ok (log : Log) :
    (verifyAuditChain sha256 log).ok = (walk sha256 (chained log) genesisPrev).1 := rfl

/-! ### What `log_audit` writes verifies -/

/-- A table that only `log_audit` has written: numbered in insertion order, and verified. -/
structure Intact (sha256 : String → String) (log : Log) : Prop where
  numbered : ∀ e ∈ log.rows, e.seq.isSome = true
  ascending : log.rows.Pairwise fun a b => a.seq.getD 0 < b.seq.getD 0
  verified : (verifyAuditChain sha256 log).ok = true

theorem chained_eq_rows {log : Log} (hnum : ∀ e ∈ log.rows, e.seq.isSome = true)
    (hasc : log.rows.Pairwise fun a b => a.seq.getD 0 < b.seq.getD 0) :
    chained log = log.rows := by
  have hfilter : (log.rows.filter fun e => e.seq.isSome) = log.rows := List.filter_eq_self.mpr hnum
  rw [chained, hfilter]
  exact List.Pairwise.insertionSort_eq (hasc.imp fun h => h.le)

theorem intact_empty : Intact sha256 Table.empty :=
  ⟨by simp [Table.empty], by simp [Table.empty], by rfl⟩

theorem intact_logAudit (log : Log) (record : Record) (after : Log) (h : Intact sha256 log)
    (hlog : logAudit sha256 log record = some after) : Intact sha256 after := by
  have hrows : after.rows = log.rows ++ [nextEntry sha256 log record] :=
    (Table.insert_eq_some hlog).2
  have hchained := chained_eq_rows h.numbered h.ascending
  have hnum : ∀ e ∈ after.rows, e.seq.isSome = true := by
    intro e he
    rw [hrows, List.mem_append, List.mem_singleton] at he
    rcases he with he | rfl
    · exact h.numbered e he
    · simp only [nextEntry]
      split <;> rfl
  have hasc : after.rows.Pairwise fun a b => a.seq.getD 0 < b.seq.getD 0 := by
    rw [hrows, List.pairwise_append]
    refine ⟨h.ascending, List.pairwise_singleton _ _, ?_⟩
    intro a ha b hb
    obtain rfl := List.mem_singleton.mp hb
    obtain ⟨init, last, hsplit⟩ := List.eq_nil_or_concat log.rows |>.resolve_left
      (List.ne_nil_of_mem ha)
    have hlast : log.rows.getLast? = some last := by
      rw [hsplit, List.concat_eq_append, List.getLast?_concat]
    have hle : a.seq.getD 0 ≤ last.seq.getD 0 := by
      rw [hsplit, List.concat_eq_append, List.mem_append, List.mem_singleton] at ha
      rcases ha with ha | rfl
      · have hp := h.ascending
        rw [hsplit, List.concat_eq_append, List.pairwise_append] at hp
        exact (hp.2.2 a ha last (List.mem_singleton_self last)).le
      · exact le_rfl
    simp only [nextEntry, hchained, hlast, Option.getD_some]
    omega
  refine ⟨hnum, hasc, ?_⟩
  obtain ⟨hlinked, hhashes⟩ := walk_ok_iff.mp (verifyAuditChain_ok log ▸ h.verified)
  rw [verifyAuditChain_ok, walk_ok_iff, chained_eq_rows hnum hasc, hrows, linked_concat]
  rw [hchained] at hlinked hhashes
  refine ⟨⟨hlinked, ?_⟩, ?_⟩
  · simp only [nextEntry, hchained]
    cases log.rows.getLast? <;> rfl
  · intro e he
    rcases List.mem_append.mp he with he | he
    · exact hhashes e he
    · obtain rfl := List.mem_singleton.mp he
      rfl

/-- A log nobody tampers with verifies in every state of every run. -/
theorem log_verifies (records : List Record) :
    (auditSystem sha256).Always (fun log => (verifyAuditChain sha256 log).ok = true) Table.empty
      records :=
  (auditSystem sha256).always_mono (fun _ h => h.verified)
    ((auditSystem sha256).always_of_step intact_logAudit records intact_empty)

end Audit
