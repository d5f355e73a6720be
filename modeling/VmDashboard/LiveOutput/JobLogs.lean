import Mathlib.Data.List.Sort
import VmDashboard.Machine.System

/-!
# The log of a job (`services/job_service.py`)

Writers take their sequence numbers from a read that other writers race, and the unique key refuses
the loser's commit. A reader polls with the last number it saw.
-/

namespace LiveOutput
open Machine (System)

structure Row where
  seq : ℕ
  line : String
  deriving DecidableEq

/-- Where a call of `append_job_log` or `append_job_logs` is. -/
inductive Writer
  | idle
  | ready (lines : List String) (attempts : ℕ)
  | planned (next : ℕ) (lines : List String) (attempts : ℕ)

/-- The rows of one job, its writers, and a reader with what it got. -/
structure Log where
  rows : List Row
  writers : ℕ → Writer
  last : ℕ
  received : List Row

def Log.start : Log := ⟨[], fun _ => .idle, 0, []⟩

/-- `(last[0] + 1) if last else 1` of the highest number. -/
def nextSeq (rows : List Row) : ℕ := ((rows.map Row.seq).max?).getD 0 + 1

def newRows (next : ℕ) : List String → List Row
  | [] => []
  | line :: lines => ⟨next, line⟩ :: newRows (next + 1) lines

/-- `uq_job_log_seq` -/
def conflicts (rows added : List Row) : Bool :=
  added.any fun row => (rows.map Row.seq).contains row.seq

def getJobLogs (rows : List Row) (afterSeq : ℕ) : List Row :=
  (rows.filter fun row => afterSeq < row.seq).insertionSort fun a b => a.seq ≤ b.seq

def Log.set (s : Log) (i : ℕ) (writer : Writer) : Log :=
  { s with writers := Function.update s.writers i writer }

/-- `for seq, line in get_job_logs(…, after_seq=seen): seen = seq` -/
def Log.poll (s : Log) : Log :=
  let batch := getJobLogs s.rows s.last
  { s with received := s.received ++ batch, last := (batch.getLast?.map Row.seq).getD s.last }

inductive LogEvent
  | append (i : ℕ) (line : String)
  | appendAll (i : ℕ) (lines : List String)
  | read (i : ℕ)
  | commit (i : ℕ)
  /-- Any other exception: the call gives up. -/
  | fail (i : ℕ)
  | poll

def Log.step (s : Log) : LogEvent → Option Log
  | .append i line =>
    match s.writers i with
    | .idle => some (s.set i (.ready [line] 1))
    | _ => none
  | .appendAll i lines =>
    match s.writers i with
    | .idle => some (if lines = [] then s else s.set i (.ready lines 2))
    | _ => none
  | .read i =>
    match s.writers i with
    | .ready lines attempts => some (s.set i (.planned (nextSeq s.rows) lines attempts))
    | _ => none
  | .commit i =>
    match s.writers i with
    | .planned next lines attempts =>
      if conflicts s.rows (newRows next lines) then
        some (s.set i (if attempts ≤ 1 then .idle else .ready lines (attempts - 1)))
      else some ({ s with rows := s.rows ++ newRows next lines }.set i .idle)
    | _ => none
  | .fail i =>
    match s.writers i with
    | .idle => none
    | _ => some (s.set i .idle)
  | .poll => some s.poll

def jobLog : System Log LogEvent := ⟨Log.step⟩

/-! ### The numbers of the rows -/

theorem newRows_seq (next : ℕ) (lines : List String) :
    (newRows next lines).map Row.seq = List.range' next lines.length := by
  induction lines generalizing next with
  | nil => rfl
  | cons line lines ih => rw [newRows, List.map_cons, ih, List.length_cons, List.range'_succ]

theorem nextSeq_of_range {rows : List Row} (h : rows.map Row.seq = List.range' 1 rows.length) :
    nextSeq rows = rows.length + 1 := by
  unfold nextSeq
  rw [h]
  cases hlen : rows.length with
  | zero => rfl
  | succ n =>
    have hmax : (List.range' 1 (n + 1)).max? = some (n + 1) := by
      rw [List.max?_eq_some_iff]
      constructor
      · exact List.mem_range'_1.mpr ⟨by omega, by omega⟩
      · intro b hb
        have := List.mem_range'_1.mp hb
        omega
    rw [hmax, Option.getD_some]

def Writer.within (n : ℕ) : Writer → Prop
  | .idle => True
  | .ready lines _ => lines ≠ []
  | .planned next lines _ => lines ≠ [] ∧ 1 ≤ next ∧ next ≤ n + 1

theorem Writer.within_mono {n m : ℕ} {writer : Writer} (h : writer.within n) (hle : n ≤ m) :
    writer.within m := by
  cases writer with
  | idle => trivial
  | ready lines attempts => exact h
  | planned next lines attempts =>
    obtain ⟨hne, hlow, hhigh⟩ := h
    exact ⟨hne, hlow, by omega⟩

structure LogInv (s : Log) : Prop where
  seqs : s.rows.map Row.seq = List.range' 1 s.rows.length
  writers : ∀ i, (s.writers i).within s.rows.length
  last : s.last ≤ s.rows.length
  received : s.received = s.rows.take s.last

theorem LogInv.set {s : Log} (h : LogInv s) {i : ℕ} {writer : Writer}
    (hwriter : writer.within s.rows.length) : LogInv (s.set i writer) := by
  refine ⟨h.seqs, fun j => ?_, h.last, h.received⟩
  show (Function.update s.writers i writer j).within s.rows.length
  by_cases hj : j = i
  · rw [hj, Function.update_self]
    exact hwriter
  · rw [Function.update_of_ne hj]
    exact h.writers j

/-- A plan that meets no conflict starts where the rows end. -/
theorem next_eq_of_not_conflicts {rows : List Row} {next : ℕ} {lines : List String}
    (hseqs : rows.map Row.seq = List.range' 1 rows.length) (hne : lines ≠ []) (hlow : 1 ≤ next)
    (hhigh : next ≤ rows.length + 1) (hfree : conflicts rows (newRows next lines) = false) :
    next = rows.length + 1 := by
  by_contra hlt
  obtain ⟨line, lines, rfl⟩ := List.exists_cons_of_ne_nil hne
  have hmem : next ∈ rows.map Row.seq := by
    rw [hseqs]
    exact List.mem_range'_1.mpr ⟨hlow, by omega⟩
  have htaken : conflicts rows (newRows next (line :: lines)) = true := by
    refine List.any_eq_true.mpr ⟨⟨next, line⟩, List.mem_cons_self, ?_⟩
    exact List.contains_iff_mem.mpr hmem
  rw [hfree] at htaken
  cases htaken

theorem LogInv.commit {s : Log} (h : LogInv s) {next : ℕ} {lines : List String} (hne : lines ≠ [])
    (hlow : 1 ≤ next) (hhigh : next ≤ s.rows.length + 1)
    (hfree : conflicts s.rows (newRows next lines) = false) :
    LogInv { s with rows := s.rows ++ newRows next lines } := by
  have hnext := next_eq_of_not_conflicts h.seqs hne hlow hhigh hfree
  have hlen : (newRows next lines).length = lines.length := by
    have hmap := congrArg List.length (newRows_seq next lines)
    rwa [List.length_map, List.length_range'] at hmap
  have hlast := h.last
  have hgrows : s.rows.length ≤ (s.rows ++ newRows next lines).length := by
    rw [List.length_append]
    omega
  refine ⟨?_, fun i => Writer.within_mono (h.writers i) hgrows, hlast.trans hgrows, ?_⟩
  · rw [List.map_append, newRows_seq, h.seqs, List.length_append, hlen, hnext, Nat.add_comm _ 1]
    exact List.range'_append_1
  · show s.received = (s.rows ++ newRows next lines).take s.last
    rw [List.take_append_of_le_length hlast]
    exact h.received

/-! ### The reader -/

theorem getElem_seq {rows : List Row} (hseqs : rows.map Row.seq = List.range' 1 rows.length)
    {i : ℕ} (hi : i < rows.length) : rows[i].seq = 1 + i := by
  have hget : (rows.map Row.seq)[i]? = (List.range' 1 rows.length)[i]? := by rw [hseqs]
  rw [List.getElem?_map, List.getElem?_eq_getElem hi, Option.map_some, List.getElem?_range' hi,
    Nat.one_mul] at hget
  exact Option.some.inj hget

theorem seq_le_of_mem_take {rows : List Row}
    (hseqs : rows.map Row.seq = List.range' 1 rows.length) {last : ℕ} {row : Row}
    (hrow : row ∈ rows.take last) : row.seq ≤ last := by
  obtain ⟨i, hi, rfl⟩ := List.getElem_of_mem hrow
  rw [List.length_take] at hi
  have hseq := getElem_seq hseqs (i := i) (by omega)
  rw [List.getElem_take, hseq]
  omega

theorem lt_seq_of_mem_drop {rows : List Row}
    (hseqs : rows.map Row.seq = List.range' 1 rows.length) {last : ℕ} {row : Row}
    (hrow : row ∈ rows.drop last) : last < row.seq := by
  obtain ⟨i, hi, rfl⟩ := List.getElem_of_mem hrow
  rw [List.length_drop] at hi
  have hseq := getElem_seq hseqs (i := last + i) (by omega)
  rw [List.getElem_drop, hseq]
  omega

theorem filter_lt_seq {rows : List Row} (hseqs : rows.map Row.seq = List.range' 1 rows.length)
    (last : ℕ) : rows.filter (fun row => decide (last < row.seq)) = rows.drop last := by
  conv_lhs => rw [← List.take_append_drop last rows]
  rw [List.filter_append]
  have hnone : (rows.take last).filter (fun row => decide (last < row.seq)) = [] := by
    refine List.filter_eq_nil_iff.mpr fun row hrow hlt => ?_
    have hle := seq_le_of_mem_take hseqs hrow
    have hlt := of_decide_eq_true hlt
    omega
  have hall : (rows.drop last).filter (fun row => decide (last < row.seq)) = rows.drop last :=
    List.filter_eq_self.mpr fun row hrow => decide_eq_true (lt_seq_of_mem_drop hseqs hrow)
  rw [hnone, hall, List.nil_append]

theorem filter_seq_le {rows : List Row} (hseqs : rows.map Row.seq = List.range' 1 rows.length)
    (last : ℕ) : rows.filter (fun row => decide (row.seq ≤ last)) = rows.take last := by
  conv_lhs => rw [← List.take_append_drop last rows]
  rw [List.filter_append]
  have hall : (rows.take last).filter (fun row => decide (row.seq ≤ last)) = rows.take last :=
    List.filter_eq_self.mpr fun row hrow => decide_eq_true (seq_le_of_mem_take hseqs hrow)
  have hnone : (rows.drop last).filter (fun row => decide (row.seq ≤ last)) = [] := by
    refine List.filter_eq_nil_iff.mpr fun row hrow hle => ?_
    have hlt := lt_seq_of_mem_drop hseqs hrow
    have hle := of_decide_eq_true hle
    omega
  rw [hall, hnone, List.append_nil]

theorem getJobLogs_eq_drop {rows : List Row} (hseqs : rows.map Row.seq = List.range' 1 rows.length)
    (last : ℕ) : getJobLogs rows last = rows.drop last := by
  unfold getJobLogs
  rw [filter_lt_seq hseqs]
  refine List.Pairwise.insertionSort_eq ?_
  have hsorted : (rows.map Row.seq).Pairwise (· ≤ ·) := by
    rw [hseqs]
    exact List.pairwise_le_range' 1
  exact (List.pairwise_map.mp hsorted).sublist (List.drop_sublist last rows)

theorem LogInv.poll_received {s : Log} (h : LogInv s) : s.poll.received = s.rows := by
  show s.received ++ getJobLogs s.rows s.last = s.rows
  rw [getJobLogs_eq_drop h.seqs, h.received, List.take_append_drop]

theorem LogInv.poll {s : Log} (h : LogInv s) : LogInv s.poll := by
  have hlast : s.poll.last = s.rows.length := by
    show ((getJobLogs s.rows s.last).getLast?.map Row.seq).getD s.last = s.rows.length
    rw [getJobLogs_eq_drop h.seqs]
    have hle := h.last
    cases hrest : (s.rows.drop s.last).getLast? with
    | none =>
      have hnil := List.getLast?_eq_none_iff.mp hrest
      rw [List.drop_eq_nil_iff] at hnil
      rw [Option.map_none, Option.getD_none]
      omega
    | some row =>
      have hne : s.rows.drop s.last ≠ [] := by
        rintro hnil
        rw [hnil] at hrest
        cases hrest
      have hpos : 0 < s.rows.length := by
        have := List.length_pos_of_ne_nil hne
        rw [List.length_drop] at this
        omega
      rw [List.getLast?_drop] at hrest
      have hnot : ¬s.rows.length ≤ s.last := fun hnil => hne (List.drop_eq_nil_iff.mpr hnil)
      rw [if_neg hnot] at hrest
      have hmap : (s.rows.map Row.seq).getLast? = some row.seq := by
        rw [List.getLast?_map, hrest, Option.map_some]
      rw [h.seqs, List.getLast?_range'] at hmap
      rw [Option.map_some, Option.getD_some]
      split at hmap
      · omega
      · have := Option.some.inj hmap
        omega
  have hall := h.poll_received
  refine ⟨h.seqs, h.writers, ?_, ?_⟩
  · rw [hlast]
    exact le_rfl
  · rw [hlast, hall]
    exact (List.take_length).symm

theorem LogInv.step {s t : Log} (h : LogInv s) {event : LogEvent} (hstep : s.step event = some t) :
    LogInv t := by
  cases event with
  | append i line =>
    simp only [Log.step] at hstep
    split at hstep
    · obtain rfl := Option.some.inj hstep
      exact h.set (List.cons_ne_nil line [])
    · cases hstep
  | appendAll i lines =>
    simp only [Log.step] at hstep
    split at hstep
    · obtain rfl := Option.some.inj hstep
      by_cases hnil : lines = []
      · rw [if_pos hnil]
        exact h
      · rw [if_neg hnil]
        exact h.set hnil
    · cases hstep
  | read i =>
    simp only [Log.step] at hstep
    split at hstep
    next lines attempts hwriter =>
      obtain rfl := Option.some.inj hstep
      have hready := h.writers i
      rw [hwriter] at hready
      refine h.set ⟨hready, ?_, ?_⟩
      · rw [nextSeq_of_range h.seqs]
        omega
      · rw [nextSeq_of_range h.seqs]
    next => cases hstep
  | commit i =>
    simp only [Log.step] at hstep
    split at hstep
    next next lines attempts hwriter =>
      have hplan := h.writers i
      rw [hwriter] at hplan
      obtain ⟨hne, hlow, hhigh⟩ := hplan
      split at hstep
      next hconflict =>
        obtain rfl := Option.some.inj hstep
        refine h.set ?_
        split
        · trivial
        · exact hne
      next hfree =>
        obtain rfl := Option.some.inj hstep
        exact (h.commit hne hlow hhigh (Bool.eq_false_iff.mpr hfree)).set trivial
    next => cases hstep
  | fail i =>
    simp only [Log.step] at hstep
    split at hstep
    · cases hstep
    · obtain rfl := Option.some.inj hstep
      exact h.set trivial
  | poll =>
    obtain rfl := Option.some.inj hstep
    exact h.poll

/-- The reader has each row up to the last number it saw once, in their order, and a poll brings it
up to all that is stored. -/
structure ReadsOnce (s : Log) : Prop where
  increasing : (s.rows.map Row.seq).Pairwise (· < ·)
  received : s.received = s.rows.filter fun row => row.seq ≤ s.last
  caughtUp : s.poll.received = s.rows

theorem LogInv.readsOnce {s : Log} (h : LogInv s) : ReadsOnce s := by
  refine ⟨?_, ?_, h.poll_received⟩
  · rw [h.seqs]
    exact List.pairwise_lt_range' 1
  · rw [h.received, filter_seq_le h.seqs]

theorem LogInv.start : LogInv Log.start :=
  ⟨rfl, fun _ => trivial, le_rfl, rfl⟩

/-- Whatever the writers and the reader do, and in whatever order. -/
theorem always_readsOnce (events : List LogEvent) :
    jobLog.Always ReadsOnce Log.start events :=
  jobLog.always_mono (fun _ h => LogInv.readsOnce h)
    (jobLog.always_of_step (fun _ _ _ h hstep => h.step hstep) events LogInv.start)

end LiveOutput
