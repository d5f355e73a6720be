import VmDashboard.Machine.System
import VmDashboard.Settings.Config

/-!
# The threads of a process and its settings

Each operation pairs a step on the database with a step on the cache, and only the second is locked.
After a `set` has returned, the reads of its key give what it wrote as long as no thread puts in the
cache what the table no longer holds.
-/

namespace Settings
open Machine (Table)

/-! ### The threads -/

structure Reader where
  key : String
  default : String
  workgroup : Option String
  deriving DecidableEq

abbrev Reader.slot (reader : Reader) : Slot := (reader.key, reader.workgroup)

/-- What a thread is about to do. A load may be one that a `get` waits for. -/
inductive Task where
  | loading (reader : Option Reader)
  | swapping (reader : Option Reader) (read : Cache)
  | looking (reader : Reader)
  | refreshing (key : String) (workgroup : Option String)
  | installing (found : Option (Slot × String))
  | writing (iv : ℕ) (pairs : List (String × String)) (workgroup : Option String) (attempt : ℕ)
  | updating (pairs : List (String × String)) (workgroup : Option String)
  | deleting (slot : Slot)
  | popping (slot : Slot)

structure Thread where
  id : ℕ
  task : Task

def Thread.setTask (task : Task) (thread : Thread) : Thread := { thread with task }

theorem Thread.setTask_id (task : Task) (thread : Thread) : (thread.setTask task).id = thread.id :=
  rfl

/-- What the pairs give a slot. -/
def given (pairs : List (String × String)) (workgroup : Option String) : Cache :=
  cachePairs (fun _ => none) workgroup pairs

/-- Whether the task is part of a write or a delete of the slot. -/
def Task.changes : Task → Slot → Bool
  | .writing _ pairs workgroup _, slot => (given pairs workgroup slot).isSome
  | .updating pairs workgroup, slot => (given pairs workgroup slot).isSome
  | .deleting slot', slot => slot' = slot
  | .popping slot', slot => slot' = slot
  | _, _ => false

inductive Call where
  | get (reader : Reader) (expired : Bool)
  | load
  | getFresh (key : String) (workgroup : Option String)
  | write (iv : ℕ) (pairs : List (String × String)) (workgroup : Option String)
  | delete (slot : Slot)

/-- A thread begins a call, or does the next step of the one it is in. -/
inductive Move where
  | begin (thread : ℕ) (call : Call)
  | advance (thread : ℕ)
  | invalidate

/-- `promised` are the values whose `set` has returned, when no other write or delete of the slot
was under way and none has begun since. -/
structure World where
  rows : Rows
  cache : Cache
  loaded : Bool
  threads : Table Thread.id
  promised : List (Slot × String)

def World.start (rows : Rows) : World := ⟨rows, fun _ => none, false, .empty, []⟩

def World.put (w : World) (thread : ℕ) (task : Task) : World :=
  { w with threads := w.threads.modify thread (.setTask task) (Thread.setTask_id task) }

def World.done (w : World) (thread : ℕ) : World := { w with threads := w.threads.erase thread }

/-- Another thread is in a write or a delete of the slot. -/
def World.busy (w : World) (thread : ℕ) (slot : Slot) : Bool :=
  w.threads.rows.any fun other => other.id ≠ thread && other.task.changes slot

/-- What the returning write of a thread promises. -/
def World.promises (w : World) (thread : ℕ) (pairs : List (String × String))
    (workgroup : Option String) : List (Slot × String) :=
  pairs.filterMap fun pair =>
    if w.busy thread (pair.1, workgroup) then none
    else (given pairs workgroup (pair.1, workgroup)).map ((pair.1, workgroup), ·)

/-- The first task of a call. -/
def Call.task (call : Call) (loaded : Bool) : Task :=
  match call with
  | .get reader expired => if loaded && !expired then .looking reader else .loading (some reader)
  | .load => .loading none
  | .getFresh key workgroup => .refreshing key workgroup
  | .write iv pairs workgroup => .writing iv pairs workgroup 1
  | .delete slot => .deleting slot

section Steps
variable (fernet : Fernet)

/-- The next step of a thread. -/
def World.advance (w : World) (thread : ℕ) : Task → World
  | .loading reader => w.put thread (.swapping reader (snapshot fernet w.rows))
  | .swapping reader read =>
    let w := { w with cache := read, loaded := true }
    match reader with
    | some reader => w.put thread (.looking reader)
    | none => w.done thread
  | .looking _ => w.done thread
  | .refreshing key workgroup =>
    w.put thread (.installing (freshRow fernet w.rows key workgroup))
  | .installing none => w.done thread
  | .installing (some (slot, value)) =>
    { w with cache := Function.update w.cache slot (some value) }.done thread
  | .writing iv pairs workgroup attempt =>
    match writeRows fernet iv workgroup w.rows pairs with
    | some rows => { w with rows }.put thread (.updating pairs workgroup)
    | none => if attempt = 1 then w.put thread (.writing iv pairs workgroup 2) else w.done thread
  | .updating pairs workgroup =>
    { w with
      cache := cachePairs w.cache workgroup pairs
      promised := w.promised ++ w.promises thread pairs workgroup }.done thread
  | .deleting slot => { w with rows := deleteRow w.rows slot }.put thread (.popping slot)
  | .popping slot => { w with cache := Function.update w.cache slot none }.done thread

def World.step (w : World) : Move → Option World
  | .begin thread call =>
    (w.threads.insert ⟨thread, call.task w.loaded⟩).map fun threads =>
      { w with
        threads
        promised := w.promised.filter fun entry => !(call.task w.loaded).changes entry.1 }
  | .advance thread => (w.threads.lookup thread).map fun found => w.advance fernet thread found.task
  | .invalidate => some { w with loaded := false }

def raceSystem : Machine.System World Move where
  step := World.step fernet

end Steps

/-! ### The property and the condition -/

/-- A `get` that looks a promised slot up finds the value. -/
def Task.returns (w : World) : Task → Prop
  | .looking reader => ∀ entry ∈ w.promised, entry.1 = reader.slot →
    find w.cache reader.key reader.default reader.workgroup = entry.2
  | _ => True

def Returns (w : World) : Move → Prop
  | .advance thread => ∀ found ∈ w.threads.lookup thread, found.task.returns w
  | _ => True

/-- A `get` of the slot is past its load. -/
def World.looks (w : World) (slot : Slot) : Bool :=
  w.threads.rows.any fun thread =>
    match thread.task with
    | .looking reader => reader.slot = slot
    | _ => false

variable (fernet : Fernet)

/-- What the task puts in the cache is in the table: what a load has read of the promised slots,
what a `get_fresh` has read where the cache of a promised slot is in use, and what a write has
written of the slots that it comes to promise. -/
def Task.fresh (w : World) (thread : ℕ) : Task → Prop
  | .swapping _ read => ∀ entry ∈ w.promised, read entry.1 = snapshot fernet w.rows entry.1
  | .installing (some (slot, value)) => ∀ entry ∈ w.promised, entry.1 = slot →
    w.loaded = true ∨ w.looks slot = true → snapshot fernet w.rows slot = some value
  | .updating pairs workgroup => ∀ entry ∈ w.promises thread pairs workgroup,
    snapshot fernet w.rows entry.1 = some entry.2
  | _ => True

def NoStale (w : World) : Move → Prop
  | .advance thread => ∀ found ∈ w.threads.lookup thread, found.task.fresh fernet w thread
  | _ => True

instance (w : World) : (task : Task) → Decidable (task.returns w)
  | .looking reader => by unfold Task.returns; infer_instance
  | .loading _ | .swapping .. | .refreshing .. | .installing _ | .writing .. | .updating ..
  | .deleting _ | .popping _ => isTrue trivial

instance (w : World) : (move : Move) → Decidable (Returns w move)
  | .advance _ => by unfold Returns; infer_instance
  | .begin .. | .invalidate => isTrue trivial

instance (w : World) (thread : ℕ) : (task : Task) → Decidable (task.fresh fernet w thread)
  | .swapping .. => by unfold Task.fresh; infer_instance
  | .installing (some _) => by unfold Task.fresh; infer_instance
  | .updating .. => by unfold Task.fresh; infer_instance
  | .installing none | .loading _ | .looking _ | .refreshing .. | .writing .. | .deleting _
  | .popping _ => isTrue trivial

instance (w : World) : (move : Move) → Decidable (NoStale fernet w move)
  | .advance _ => by unfold NoStale; infer_instance
  | .begin .. | .invalidate => isTrue trivial

/-- A promised slot is left alone, and the table and a cache in use hold its value. -/
structure Held (w : World) : Prop where
  quiet : ∀ entry ∈ w.promised, ∀ thread ∈ w.threads.rows, thread.task.changes entry.1 = false
  stored : ∀ entry ∈ w.promised, snapshot fernet w.rows entry.1 = some entry.2
  cached : ∀ entry ∈ w.promised, w.loaded = true ∨ w.looks entry.1 = true →
    w.cache entry.1 = some entry.2

theorem start_held (rows : Rows) : Held fernet (.start rows) := by
  constructor <;> simp [World.start]

/-! ### Steps that leave the promises -/

theorem cachePairs_apply (cache : Cache) (workgroup : Option String)
    (pairs : List (String × String)) (slot : Slot) :
    cachePairs cache workgroup pairs slot = (given pairs workgroup slot).or (cache slot) := by
  induction pairs generalizing cache with
  | nil => rfl
  | cons pair pairs ih =>
    have hgiven : given (pair :: pairs) workgroup slot = (given pairs workgroup slot).or
        (Function.update (fun _ => none) (pair.1, workgroup) (some pair.2) slot) := ih _
    rw [hgiven, Option.or_assoc]
    refine (ih _).trans (congrArg _ ?_)
    rw [Function.update_apply, Function.update_apply]
    split <;> rfl

theorem cachePairs_of_given_none {pairs : List (String × String)} {workgroup : Option String}
    {slot : Slot} (h : (given pairs workgroup slot).isSome = false) (cache : Cache) :
    cachePairs cache workgroup pairs slot = cache slot := by
  rw [cachePairs_apply, Option.isSome_eq_false_iff.mp h |> Option.isNone_iff_eq_none.mp,
    Option.none_or]

theorem looks_iff {w : World} {slot : Slot} : w.looks slot = true ↔
    ∃ thread ∈ w.threads.rows, ∃ reader, thread.task = .looking reader ∧ reader.slot = slot := by
  unfold World.looks
  rw [List.any_eq_true]
  refine exists_congr fun thread => and_congr_right fun _ => ?_
  cases thread.task <;> simp

theorem of_mem_promises {w : World} {thread : ℕ} {pairs : List (String × String)}
    {workgroup : Option String} {entry : Slot × String}
    (h : entry ∈ w.promises thread pairs workgroup) :
    w.busy thread entry.1 = false ∧ given pairs workgroup entry.1 = some entry.2 := by
  obtain ⟨pair, -, hpair⟩ := List.mem_filterMap.mp h
  split at hpair
  next => cases hpair
  next hfree =>
    obtain ⟨value, hvalue, rfl⟩ := Option.map_eq_some_iff.mp hpair
    exact ⟨Bool.eq_false_iff.mpr hfree, hvalue⟩

section Steps
variable {fernet} {w : World} (h : Held fernet w)
include h

theorem Held.changes_false {thread : ℕ} {found : Thread}
    (hfound : w.threads.lookup thread = some found) {entry : Slot × String}
    (hentry : entry ∈ w.promised) : found.task.changes entry.1 = false :=
  h.quiet entry hentry found (Table.lookup_eq_some.mp hfound).1

/-- The thread goes on to a task that changes nothing new, and looks up in a loaded cache only. -/
theorem Held.put {thread : ℕ} {found : Thread} (hfound : w.threads.lookup thread = some found)
    {task : Task} (hchanges : ∀ slot, found.task.changes slot = false → task.changes slot = false)
    (hlooking : ∀ reader, task = .looking reader → w.loaded = true) :
    Held fernet (w.put thread task) := by
  refine ⟨fun entry hentry other hother => ?_, h.stored, fun entry hentry huse => ?_⟩
  · rcases Table.of_modify_mem (Thread.setTask_id task) hother with ⟨old, -, -, rfl⟩ | ⟨hold, -⟩
    · exact hchanges entry.1 (h.changes_false hfound hentry)
    · exact h.quiet entry hentry other hold
  · refine h.cached entry hentry (huse.elim .inl fun hlooks => ?_)
    obtain ⟨other, hother, reader, htask, hslot⟩ := looks_iff.mp hlooks
    rcases Table.of_modify_mem (Thread.setTask_id task) hother with ⟨old, -, -, rfl⟩ | ⟨hold, -⟩
    · exact .inl (hlooking reader htask)
    · exact .inr (looks_iff.mpr ⟨other, hold, reader, htask, hslot⟩)

theorem Held.done (thread : ℕ) : Held fernet (w.done thread) := by
  refine ⟨fun entry hentry other hother => ?_, h.stored, fun entry hentry huse => ?_⟩
  · exact h.quiet entry hentry other (Table.mem_erase.mp hother).1
  · refine h.cached entry hentry (huse.imp_right fun hlooks => ?_)
    obtain ⟨other, hother, hreader⟩ := looks_iff.mp hlooks
    exact looks_iff.mpr ⟨other, (Table.mem_erase.mp hother).1, hreader⟩

theorem Held.of_rows {rows : Rows} (hrows : ∀ entry ∈ w.promised,
    snapshot fernet rows entry.1 = snapshot fernet w.rows entry.1) :
    Held fernet { w with rows } :=
  ⟨h.quiet, fun entry hentry => (hrows entry hentry).trans (h.stored entry hentry), h.cached⟩

theorem Held.of_cache {cache : Cache} (hcache : ∀ entry ∈ w.promised,
    w.loaded = true ∨ w.looks entry.1 = true → cache entry.1 = some entry.2) :
    Held fernet { w with cache } := ⟨h.quiet, h.stored, hcache⟩

/-! ### The steps -/

theorem Held.swap {reader : Option Reader} {read : Cache} {thread : ℕ} {found : Thread}
    (hfound : w.threads.lookup thread = some found)
    (hread : ∀ entry ∈ w.promised, read entry.1 = snapshot fernet w.rows entry.1) :
    Held fernet (w.advance fernet thread (.swapping reader read)) := by
  have hswapped : Held fernet { w with cache := read, loaded := true } :=
    ⟨h.quiet, h.stored, fun entry hentry _ => (hread entry hentry).trans (h.stored entry hentry)⟩
  cases reader with
  | none => exact hswapped.done thread
  | some reader => exact hswapped.put hfound (fun _ _ => rfl) fun _ _ => rfl

theorem Held.install {slot : Slot} {value : String} {thread : ℕ}
    (hread : ∀ entry ∈ w.promised, entry.1 = slot → w.loaded = true ∨ w.looks slot = true →
      snapshot fernet w.rows slot = some value) :
    Held fernet (w.advance fernet thread (.installing (some (slot, value)))) := by
  refine Held.done (h.of_cache fun entry hentry huse => ?_) thread
  rw [Function.update_apply]
  split
  next hslot =>
    rw [← hread entry hentry hslot (hslot ▸ huse), ← hslot]
    exact h.stored entry hentry
  next => exact h.cached entry hentry huse

theorem Held.commit {iv : ℕ} {pairs : List (String × String)} {workgroup : Option String}
    {attempt thread : ℕ} {found : Thread} (hfound : w.threads.lookup thread = some found)
    (htask : found.task = .writing iv pairs workgroup attempt) :
    Held fernet (w.advance fernet thread (.writing iv pairs workgroup attempt)) := by
  simp only [World.advance]
  split
  next rows hrows =>
    have hcommitted : Held fernet { w with rows } := by
      refine h.of_rows fun entry hentry => ?_
      have hfree := h.changes_false hfound hentry
      rw [htask] at hfree
      rw [writeRows_eq_some hrows]
      exact cachePairs_of_given_none hfree _
    refine hcommitted.put hfound (fun slot hslot => ?_) fun _ => nofun
    rw [htask] at hslot
    exact hslot
  next =>
    split
    · refine h.put hfound (fun slot hslot => ?_) fun _ => nofun
      rw [htask] at hslot
      exact hslot
    · exact h.done thread

theorem Held.commitDelete {slot : Slot} {thread : ℕ} {found : Thread}
    (hfound : w.threads.lookup thread = some found) (htask : found.task = .deleting slot) :
    Held fernet (w.advance fernet thread (.deleting slot)) := by
  have hdeleted : Held fernet { w with rows := deleteRow w.rows slot } := by
    refine h.of_rows fun entry hentry => ?_
    have hfree := h.changes_false hfound hentry
    rw [htask] at hfree
    rw [snapshot_of_update fernet (existing_deleteRow w.rows slot),
      Function.update_of_ne fun heq => of_decide_eq_false hfree heq.symm]
  refine hdeleted.put hfound (fun other hother => ?_) fun _ => nofun
  rw [htask] at hother
  exact hother

theorem Held.pop {slot : Slot} {thread : ℕ} {found : Thread}
    (hfound : w.threads.lookup thread = some found) (htask : found.task = .popping slot) :
    Held fernet (w.advance fernet thread (.popping slot)) := by
  refine Held.done (h.of_cache fun entry hentry huse => ?_) thread
  have hfree := h.changes_false hfound hentry
  rw [htask] at hfree
  rw [Function.update_of_ne fun heq => of_decide_eq_false hfree heq.symm]
  exact h.cached entry hentry huse

theorem Held.update {pairs : List (String × String)} {workgroup : Option String} {thread : ℕ}
    {found : Thread} (hfound : w.threads.lookup thread = some found)
    (htask : found.task = .updating pairs workgroup)
    (hwritten : ∀ entry ∈ w.promises thread pairs workgroup,
      snapshot fernet w.rows entry.1 = some entry.2) :
    Held fernet (w.advance fernet thread (.updating pairs workgroup)) := by
  constructor
  · intro entry hentry other hother
    obtain ⟨hold, hne⟩ := Table.mem_erase.mp hother
    rcases List.mem_append.mp hentry with hentry | hnew
    · exact h.quiet entry hentry other hold
    · have hfree := (of_mem_promises hnew).1
      unfold World.busy at hfree
      rw [List.any_eq_false] at hfree
      simpa [hne] using hfree other hold
  · intro entry hentry
    rcases List.mem_append.mp hentry with hentry | hnew
    · exact h.stored entry hentry
    · exact hwritten entry hnew
  · intro entry hentry huse
    show cachePairs w.cache workgroup pairs entry.1 = some entry.2
    rcases List.mem_append.mp hentry with hentry | hnew
    · have hfree := h.changes_false hfound hentry
      rw [htask] at hfree
      rw [cachePairs_of_given_none hfree]
      refine h.cached entry hentry (huse.imp_right fun hlooks => ?_)
      obtain ⟨other, hother, hreader⟩ := looks_iff.mp hlooks
      exact looks_iff.mpr ⟨other, (Table.mem_erase.mp hother).1, hreader⟩
    · rw [cachePairs_apply, (of_mem_promises hnew).2]
      rfl

/-- A call begins: a write or a delete ends the promises of its slots, and a `get` looks up in a
loaded cache only. -/
theorem Held.begin {thread : ℕ} {call : Call} {threads : Table Thread.id}
    (hins : w.threads.insert ⟨thread, call.task w.loaded⟩ = some threads) :
    Held fernet { w with
      threads
      promised := w.promised.filter fun entry => !(call.task w.loaded).changes entry.1 } := by
  refine ⟨fun entry hentry other hother => ?_, fun entry hentry => ?_, fun entry hentry huse => ?_⟩
  · obtain ⟨hold, hfree⟩ := List.mem_filter.mp hentry
    rcases (Table.mem_insert hins).mp hother with hother | rfl
    · exact h.quiet entry hold other hother
    · exact (Bool.not_eq_true' _).mp hfree
  · exact h.stored entry (List.mem_filter.mp hentry).1
  · refine h.cached entry (List.mem_filter.mp hentry).1 (huse.elim .inl fun hlooks => ?_)
    obtain ⟨other, hother, reader, htask, hslot⟩ := looks_iff.mp hlooks
    rcases (Table.mem_insert hins).mp hother with hother | rfl
    · exact .inr (looks_iff.mpr ⟨other, hother, reader, htask, hslot⟩)
    · refine .inl ?_
      unfold Call.task at htask
      split at htask
      next =>
        split at htask
        next hloaded => exact (Bool.and_eq_true _ _ ▸ hloaded).1
        next => cases htask
      all_goals cases htask

end Steps

variable {fernet} in
theorem step_held {w after : World} {move : Move} (h : Held fernet w)
    (hfresh : NoStale fernet w move) (hstep : w.step fernet move = some after) :
    Held fernet after := by
  cases move with
  | begin thread call =>
    obtain ⟨threads, hins, rfl⟩ := Option.map_eq_some_iff.mp hstep
    exact h.begin hins
  | invalidate =>
    obtain rfl := Option.some.inj hstep
    exact ⟨h.quiet, h.stored, fun entry hentry huse => h.cached entry hentry (huse.imp_left nofun)⟩
  | advance thread =>
    obtain ⟨found, hfound, rfl⟩ := Option.map_eq_some_iff.mp hstep
    have hfresh := hfresh found hfound
    cases htask : found.task with
    | loading reader => exact h.put hfound (fun _ _ => rfl) fun _ => nofun
    | swapping reader read =>
      rw [htask] at hfresh
      exact h.swap hfound hfresh
    | looking reader => exact h.done thread
    | refreshing key workgroup => exact h.put hfound (fun _ _ => rfl) fun _ => nofun
    | installing read =>
      cases read with
      | none => exact h.done thread
      | some read =>
        rw [htask] at hfresh
        exact h.install hfresh
    | writing iv pairs workgroup attempt => exact h.commit hfound htask
    | updating pairs workgroup =>
      rw [htask] at hfresh
      exact h.update hfound htask hfresh
    | deleting slot => exact h.commitDelete hfound htask
    | popping slot => exact h.pop hfound htask

theorem find_of_cache {cache : Cache} {reader : Reader} {value : String}
    (h : cache reader.slot = some value) :
    find cache reader.key reader.default reader.workgroup = value := by
  unfold find
  cases hgroup : reader.workgroup with
  | none =>
    rw [Reader.slot, hgroup] at h
    simp only [Option.bind_none, h, Option.getD_some]
  | some name =>
    rw [Reader.slot, hgroup] at h
    simp only [Option.bind_some, h]

variable {fernet} in
theorem Held.returns {w : World} (h : Held fernet w) (move : Move) : Returns w move := by
  cases move with
  | advance thread =>
    intro found hfound
    cases htask : found.task with
    | looking reader =>
      intro entry hentry hslot
      have hlooks : w.looks entry.1 = true := looks_iff.mpr
        ⟨found, (Table.lookup_eq_some.mp hfound).1, reader, htask, hslot.symm⟩
      have hcache := h.cached entry hentry (.inr hlooks)
      rw [hslot] at hcache
      exact find_of_cache hcache
    | _ => trivial
  | _ => trivial

/-- In every interleaving of the threads of a process in which nothing stale gets into the cache,
the reads of a slot give what a returned `set` wrote. -/
theorem own_writes_read (fernet : Fernet) (rows : Rows) {moves : List Move}
    (h : (raceSystem fernet).Along (NoStale fernet) (.start rows) moves) :
    (raceSystem fernet).Along Returns (.start rows) moves :=
  (raceSystem fernet).along_of_along
    (fun _ move _ hheld hfresh hstep => ⟨step_held hheld hfresh hstep, hheld.returns move⟩)
    (start_held fernet rows) h

def smtpReader : Reader := ⟨"smtp_host", "", none⟩

/- A read that loads the cache runs beside a write, which returns after the swap; the later reads
find the cache loaded. -/
def orderlyMoves : List Move :=
  [.begin 1 (.get smtpReader false), .advance 1, .begin 2 (.write 0 [("smtp_host", "mail-1")] none),
   .advance 2, .advance 1, .advance 2, .advance 1, .begin 3 (.get smtpReader false), .advance 3,
   .begin 4 (.getFresh "smtp_host" none), .advance 4, .advance 4, .begin 3 (.get smtpReader true),
   .advance 3, .advance 3, .advance 3, .begin 5 (.delete ("smtp_host", none)), .advance 5,
   .advance 5]

theorem orderlyMoves_read : (raceSystem clearFernet).Along Returns (.start .empty) orderlyMoves :=
  own_writes_read clearFernet .empty (by decide +kernel)

/- A load reads the table before the write commits and swaps the cache after it has returned. -/
def staleMoves : List Move :=
  [.begin 1 .load, .advance 1, .begin 2 (.write 0 [("smtp_host", "mail-1")] none), .advance 2,
   .advance 2, .advance 1, .begin 3 (.get smtpReader false), .advance 3]

theorem own_write_missed : ¬(raceSystem clearFernet).Along Returns (.start .empty) staleMoves := by
  decide +kernel

end Settings
