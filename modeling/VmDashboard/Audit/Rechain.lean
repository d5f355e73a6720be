import VmDashboard.Audit.Chain
import VmDashboard.Python.Yaml

/-!
# From one canonical form to the next (`rechain_audit_log` of `services/job_service.py`)

The rows are read, verified under the form that left `ip_address` out, given new
hashes as objects, and written back by primary key in one commit.
-/

namespace Audit
open Machine (Table)
open Python (parseInt)

def chainVersion : ℤ := 2

/-- `_canonical_v1`. -/
def Entry.canonicalV1 (e : Entry) (prev : String) : String := "\n".intercalate
  [seqText e.seq, e.timestamp.isoformat, e.username.getD "", e.action.getD "", e.targetVm.getD "",
   e.details.getD "", prev]

section
variable (sha256 : String → String)

def computeEntryHashV1 (e : Entry) (prev : String) : String := sha256 (e.canonicalV1 prev)

/-- `_walk` under the old form. -/
def walkV1 : List Entry → String → Bool × Option ℤ × String
  | [], prev => (true, none, prev)
  | e :: entries, prev =>
    if e.prevHash ≠ some prev ∨ e.entryHash ≠ some (computeEntryHashV1 sha256 e prev) then
      (false, e.seq, prev)
    else walkV1 entries (computeEntryHashV1 sha256 e prev)

def verifyChainV1 (entries : List Entry) : Bool × Option ℤ :=
  let (ok, broken, _) := walkV1 sha256 entries genesisPrev
  (ok, broken)

def Entry.relink (e : Entry) (prev hash : String) : Entry :=
  { e with prevHash := some prev, entryHash := some hash }

/-- The loop over the rows. -/
def relinked : List Entry → String → List Entry
  | [], _ => []
  | e :: entries, prev =>
    let hash := computeEntryHash sha256 e prev
    e.relink prev hash :: relinked entries hash

end

/-- The row as its object has it, if it was loaded. -/
def flushed (objects : List Entry) (row : Entry) : Entry :=
  (objects.find? fun e => e.id = row.id).getD row

theorem flushed_id (objects : List Entry) (row : Entry) : (flushed objects row).id = row.id := by
  unfold flushed
  cases h : objects.find? fun e => e.id = row.id with
  | none => rfl
  | some e => exact by simpa using List.find?_some h

def flush (log : Log) (objects : List Entry) : Log := log.map (flushed objects) (flushed_id objects)

inductive Status
  | current
  | empty
  | refused (firstBrokenSeq : Option ℤ) (count : ℕ)
  | rechained (count : ℕ)
  deriving DecidableEq

/-- What raises, if anything: the commit, or the write of the version marker after it. -/
inductive Fault
  | none
  | commit
  | marker
  deriving DecidableEq

/-- `status` is `none` when the call raises. -/
structure Outcome where
  log : Log
  marker : String
  status : Option Status

def stored (marker : String) : ℤ := (parseInt marker).getD 0

/-- The commit of `log` over `old`, the marker if it is set, and the status. -/
def conclude (fault : Fault) (old log : Log) (marker : String) (mark : Bool) (status : Status) :
    Outcome :=
  match fault with
  | .commit => ⟨old, marker, none⟩
  | .marker => if mark then ⟨log, marker, none⟩ else ⟨log, marker, some status⟩
  | .none => ⟨log, if mark then toString chainVersion else marker, some status⟩

def rechainAuditLog (sha256 : String → String) (fault : Fault) (marker : String) (log : Log) :
    Outcome :=
  if chainVersion ≤ stored marker then conclude fault log log marker false .current
  else
    let rows := chained log
    if rows = [] then conclude fault log log marker true .empty
    else
      let (ok, broken) := verifyChainV1 sha256 rows
      if !ok then
        let (okV2, _) := verifyChain sha256 rows
        if okV2 then conclude fault log log marker true .current
        else conclude fault log log marker false (.refused broken rows.length)
      else
        conclude fault log (flush log (relinked sha256 rows genesisPrev)) marker true
          (.rechained rows.length)

/-! ### The rows afterwards -/

/-- What the chain is there to protect. -/
def Entry.fields (e : Entry) :=
  (e.id, e.seq, e.timestamp, e.username, e.action, e.targetVm, e.details, e.ipAddress)

variable {sha256 : String → String}

theorem fields_relink (e : Entry) (prev hash : String) : (e.relink prev hash).fields = e.fields := rfl

theorem fields_relinked (entries : List Entry) (prev : String) :
    (relinked sha256 entries prev).map Entry.fields = entries.map Entry.fields := by
  induction entries generalizing prev with
  | nil => rfl
  | cons e entries ih => rw [relinked, List.map_cons, List.map_cons, ih, fields_relink]

theorem id_of_fields {e f : Entry} (h : e.fields = f.fields) : e.id = f.id := (Prod.mk.inj h).1

theorem seq_of_fields {e f : Entry} (h : e.fields = f.fields) : e.seq = f.seq :=
  (Prod.mk.inj (Prod.mk.inj h).2).1

theorem map_id_of_fields {xs ys : List Entry} (h : xs.map Entry.fields = ys.map Entry.fields) :
    xs.map Entry.id = ys.map Entry.id := by
  induction xs generalizing ys with
  | nil =>
    obtain rfl := List.map_eq_nil_iff.mp h.symm
    rfl
  | cons x xs ih =>
    cases ys with
    | nil => cases h
    | cons y ys =>
      rw [List.map_cons, List.map_cons] at h ⊢
      obtain ⟨hhead, htail⟩ := List.cons.inj h
      rw [ih htail, id_of_fields hhead]

/-- The objects replace the rows they were loaded from, in place. -/
theorem map_flushed {rows objects : List Entry} (hnodup : (rows.map Entry.id).Nodup)
    (hids : objects.map Entry.id = rows.map Entry.id) : rows.map (flushed objects) = objects := by
  induction rows generalizing objects with
  | nil => exact (List.map_eq_nil_iff.mp hids).symm
  | cons row rows ih =>
    cases objects with
    | nil => cases hids
    | cons object objects =>
      rw [List.map_cons, List.map_cons] at hids
      obtain ⟨hid, hrest⟩ := List.cons.inj hids
      obtain ⟨hfresh, hnodup⟩ := List.nodup_cons.mp hnodup
      have hfirst : flushed (object :: objects) row = object := by
        rw [flushed, List.find?_cons_of_pos (by simpa using hid), Option.getD_some]
      have hothers : ∀ other ∈ rows, flushed (object :: objects) other = flushed objects other := by
        intro other hother
        have hne : object.id ≠ other.id := by
          rw [hid]
          exact fun heq => hfresh (heq ▸ List.mem_map_of_mem hother)
        rw [flushed, List.find?_cons_of_neg (by simpa using hne), flushed]
      rw [List.map_cons, hfirst, List.map_congr_left hothers, ih hnodup hrest]

/-- A flush leaves the fields of every row alone when the objects have the fields of theirs. -/
theorem fields_flushed {rows objects : List Entry}
    (hsub : ∀ e ∈ objects, ∃ row ∈ rows, row.fields = e.fields)
    (hnodup : (rows.map Entry.id).Nodup) {row : Entry} (hrow : row ∈ rows) :
    (flushed objects row).fields = row.fields := by
  unfold flushed
  cases h : objects.find? fun e => e.id = row.id with
  | none => rfl
  | some e =>
    obtain ⟨loaded, hloaded, hfields⟩ := hsub e (List.mem_of_find?_eq_some h)
    have hid : e.id = row.id := by simpa using List.find?_some h
    have hsame : loaded.id = row.id := (id_of_fields hfields).trans hid
    obtain rfl := List.inj_on_of_nodup_map hnodup hloaded hrow hsame
    exact hfields.symm

theorem of_mem_chained {log : Log} {e : Entry} (h : e ∈ chained log) : e ∈ log.rows :=
  List.mem_of_mem_filter ((List.perm_insertionSort _ _).mem_iff.mp h)

theorem chained_nodup (log : Log) : ((chained log).map Entry.id).Nodup :=
  ((List.perm_insertionSort _ _).map Entry.id).nodup_iff.mpr
    (log.nodup.sublist (List.filter_sublist.map Entry.id))

theorem exists_of_mem_relinked {log : Log} {e : Entry} {prev : String}
    (h : e ∈ relinked sha256 (chained log) prev) : ∃ row ∈ log.rows, row.fields = e.fields := by
  have hmem : e.fields ∈ (chained log).map Entry.fields :=
    fields_relinked (chained log) prev ▸ List.mem_map_of_mem h
  obtain ⟨row, hrow, hfields⟩ := List.mem_map.mp hmem
  exact ⟨row, of_mem_chained hrow, hfields⟩

theorem fields_flush (log : Log) (prev : String) :
    (flush log (relinked sha256 (chained log) prev)).rows.map Entry.fields =
      log.rows.map Entry.fields := by
  change (log.rows.map _).map _ = _
  rw [List.map_map]
  exact List.map_congr_left fun row hrow =>
    fields_flushed (fun e he => exists_of_mem_relinked he) log.nodup hrow

/-- The rows of the chain after the flush are the relinked ones, in their order. -/
theorem chained_flush (log : Log) (prev : String) :
    chained (flush log (relinked sha256 (chained log) prev)) =
      relinked sha256 (chained log) prev := by
  have hseq : ∀ row ∈ log.rows,
      (flushed (relinked sha256 (chained log) prev) row).seq = row.seq := fun row hrow =>
    seq_of_fields (fields_flushed (fun e he => exists_of_mem_relinked he) log.nodup hrow)
  have hfilter : (log.rows.map (flushed (relinked sha256 (chained log) prev))).filter
      (fun e => e.seq.isSome) = (log.rows.filter fun e => e.seq.isSome).map
        (flushed (relinked sha256 (chained log) prev)) := by
    rw [List.filter_map]
    congr 1
    refine List.filter_congr fun row hrow => ?_
    rw [Function.comp_apply, hseq row hrow]
  have hsort := List.map_insertionSort (fun a b : Entry => a.seq.getD 0 ≤ b.seq.getD 0)
    (fun a b : Entry => a.seq.getD 0 ≤ b.seq.getD 0)
    (flushed (relinked sha256 (chained log) prev)) (log.rows.filter fun e => e.seq.isSome)
    fun a ha b hb => by
      rw [hseq a (List.mem_of_mem_filter ha), hseq b (List.mem_of_mem_filter hb)]
  change ((log.rows.map _).filter _).insertionSort _ = _
  rw [hfilter, ← hsort]
  exact map_flushed (chained_nodup log) (map_id_of_fields (fields_relinked _ _))

/-- What the loop writes verifies under the new form. -/
theorem walk_relinked (entries : List Entry) (prev : String) :
    (walk sha256 (relinked sha256 entries prev) prev).1 = true := by
  induction entries generalizing prev with
  | nil => rfl
  | cons e entries ih =>
    rw [relinked, walk_cons_ok]
    exact ⟨rfl, rfl, ih _⟩

/-! ### Appends -/

theorem orderedInsert_concat {α : Type*} {r : α → α → Prop} [DecidableRel r] {a x : α}
    (h : r a x) (l : List α) : (l ++ [x]).orderedInsert r a = l.orderedInsert r a ++ [x] := by
  induction l with
  | nil => exact if_pos h
  | cons b l ih =>
    simp only [List.cons_append, List.orderedInsert_cons, ih]
    split <;> rfl

theorem insertionSort_concat {α : Type*} {r : α → α → Prop} [DecidableRel r] {x : α} (l : List α)
    (h : ∀ a ∈ l, r a x) : (l ++ [x]).insertionSort r = l.insertionSort r ++ [x] := by
  induction l with
  | nil => rfl
  | cons a l ih =>
    rw [List.cons_append, List.insertionSort_cons, List.insertionSort_cons,
      ih fun b hb => h b (List.mem_cons_of_mem a hb), orderedInsert_concat (h a List.mem_cons_self)]

/-- `log_audit` continues the chain at its end, whatever the table holds. -/
theorem chained_logAudit {log after : Log} {record : Record}
    (h : logAudit sha256 log record = some after) :
    chained after = chained log ++ [nextEntry sha256 log record] := by
  have hrows := (Table.insert_eq_some h).2
  have hnew : (nextEntry sha256 log record).seq.isSome = true := by
    simp only [nextEntry]
    split <;> rfl
  have hsorted : (chained log).Pairwise fun a b => a.seq.getD 0 ≤ b.seq.getD 0 :=
    List.pairwise_insertionSort _ _
  have hle : ∀ e ∈ log.rows.filter (fun e => e.seq.isSome),
      e.seq.getD 0 ≤ (nextEntry sha256 log record).seq.getD 0 := by
    intro e he
    have hmem : e ∈ chained log := (List.perm_insertionSort _ _).mem_iff.mpr he
    obtain ⟨init, last, hsplit⟩ := List.eq_nil_or_concat (chained log) |>.resolve_left
      (List.ne_nil_of_mem hmem)
    have hlast : (chained log).getLast? = some last := by
      rw [hsplit, List.concat_eq_append, List.getLast?_concat]
    have hmax : e.seq.getD 0 ≤ last.seq.getD 0 := by
      rw [hsplit, List.concat_eq_append] at hmem hsorted
      rcases List.mem_append.mp hmem with hold | hend
      · exact (List.pairwise_append.mp hsorted).2.2 e hold last (List.mem_singleton_self _)
      · exact (congrArg (fun d : Entry => d.seq.getD 0) (List.mem_singleton.mp hend)).le
    simp only [nextEntry, hlast, Option.getD_some]
    omega
  have hkept : [nextEntry sha256 log record].filter (fun e => e.seq.isSome) =
      [nextEntry sha256 log record] := by simp only [List.filter_cons, hnew, if_true, List.filter_nil]
  unfold chained
  rw [hrows, List.filter_append, hkept, insertionSort_concat _ hle]

/-- An append neither breaks a chain nor mends one. -/
theorem ok_logAudit {log after : Log} {record : Record}
    (h : logAudit sha256 log record = some after) :
    (verifyAuditChain sha256 after).ok = (verifyAuditChain sha256 log).ok := by
  rw [Bool.eq_iff_iff, verifyAuditChain_ok, verifyAuditChain_ok, chained_logAudit h, walk_ok_iff,
    walk_ok_iff, linked_concat]
  have hprev : (nextEntry sha256 log record).prevHash =
      ((chained log).getLast?.map Entry.entryHash).getD (some genesisPrev) := by
    simp only [nextEntry]
    cases (chained log).getLast? <;> rfl
  have hhash : (nextEntry sha256 log record).entryHash =
      some (sha256 (nextEntry sha256 log record).text) := rfl
  constructor
  · rintro ⟨⟨hlinked, -⟩, hhashes⟩
    exact ⟨hlinked, fun e he => hhashes e (List.mem_append_left _ he)⟩
  · rintro ⟨hlinked, hhashes⟩
    refine ⟨⟨hlinked, hprev⟩, fun e he => ?_⟩
    rcases List.mem_append.mp he with hold | hlast
    · exact hhashes e hold
    · obtain rfl := List.mem_singleton.mp hlast
      exact hhash

/-! ### The migration -/

theorem log_conclude_same (fault : Fault) (log : Log) (marker : String) (mark : Bool)
    (status : Status) : (conclude fault log log marker mark status).log = log := by
  unfold conclude
  split
  · rfl
  · split <;> rfl
  · rfl

theorem log_conclude (fault : Fault) (old log : Log) (marker : String) (mark : Bool)
    (status : Status) : (conclude fault old log marker mark status).log = old ∨
      (conclude fault old log marker mark status).log = log := by
  unfold conclude
  split
  · exact .inl rfl
  · split <;> exact .inr rfl
  · exact .inr rfl

/-- The old chain held and the new one holds, over the same rows. -/
structure Moved (sha256 : String → String) (log after : Log) : Prop where
  held : (verifyChainV1 sha256 (chained log)).1 = true
  holds : (verifyAuditChain sha256 after).ok = true
  fields : after.rows.map Entry.fields = log.rows.map Entry.fields

theorem rechain_moves (fault : Fault) (marker : String) (log : Log) :
    (rechainAuditLog sha256 fault marker log).log = log ∨
      Moved sha256 log (rechainAuditLog sha256 fault marker log).log := by
  unfold rechainAuditLog
  split
  · exact .inl (log_conclude_same ..)
  · simp only
    split
    · exact .inl (log_conclude_same ..)
    · split
      · split
        · exact .inl (log_conclude_same ..)
        · exact .inl (log_conclude_same ..)
      next hok =>
        refine (log_conclude ..).imp_right fun heq => ?_
        rw [heq]
        refine ⟨by simpa using hok, ?_, fields_flush log genesisPrev⟩
        rw [verifyAuditChain_ok, chained_flush]
        exact walk_relinked _ _

/-- Whatever the table, the marker and the moment something raises: either no row changes, or a
chain that held under the old form holds under the new one over the same rows; and however many
entries are appended afterwards, the table verifies as it did before them. -/
theorem rechain_safe (sha256 : String → String) (fault : Fault) (marker : String) (log : Log)
    (records : List Record) :
    ((rechainAuditLog sha256 fault marker log).log = log ∨
      Moved sha256 log (rechainAuditLog sha256 fault marker log).log) ∧
    (auditSystem sha256).Always (fun later => (verifyAuditChain sha256 later).ok =
        (verifyAuditChain sha256 (rechainAuditLog sha256 fault marker log).log).ok)
      (rechainAuditLog sha256 fault marker log).log records := by
  refine ⟨rechain_moves fault marker log, ?_⟩
  exact (auditSystem sha256).always_of_step
    (fun later record after hsame hlog => (ok_logAudit hlog).trans hsame) records rfl

end Audit
