import VmDashboard.Expiry.Policy
import VmDashboard.Machine.System
import VmDashboard.Machine.Table

/-!
# One destroy for one expiry

Passes of the sweep over the rows of the resources, commit by commit. The enqueued destroy and the
cleared expiry are one commit for the labs and the directories and two for the other kinds, and a
pass may stop between any two commits.
-/

namespace Expiry.OneDestroy
open Machine (Table)
open Python (Instant)

/-! ### Rows and commits -/

/-- A row of the inventory. `serial` tells its expiry from the ones stamped before and after it. -/
structure Resource where
  item : Item
  serial : ℕ

def Resource.id (row : Resource) : String := row.item.id

def Resource.setState (state : String) (row : Resource) : Resource :=
  { row with item := { row.item with state } }

def Resource.setExpiresAt (expiresAt : Option Instant) (serial : ℕ) (row : Resource) : Resource :=
  { row with item := { row.item with expiresAt }, serial }

theorem Resource.setState_id (state : String) (row : Resource) : (row.setState state).id = row.id := rfl

theorem Resource.setExpiresAt_id (expiresAt : Option Instant) (serial : ℕ) (row : Resource) :
    (row.setExpiresAt expiresAt serial).id = row.id := rfl

/-- What one commit of a reap writes: a state of the row, its cleared expiry, the destroy job. -/
structure Commit where
  status : Option String
  clears : Bool
  enqueues : Bool
deriving DecidableEq

/-- The commit of `create_job`. -/
def Commit.enqueue : Commit := ⟨none, false, true⟩

def Commit.setStatus (status : String) : Commit := ⟨some status, false, false⟩

/-- The commit of `create_job`, with a state already set on the row. -/
def Commit.enqueueAs (status : String) : Commit := ⟨some status, false, true⟩

/-- The commit of `create_job`, with a state already set and the expiry already cleared. -/
def Commit.teardown (status : String) : Commit := ⟨some status, true, true⟩

/-- The id of the job is written to the row. -/
def Commit.link : Commit := ⟨none, false, false⟩

def Commit.clear : Commit := ⟨none, true, false⟩

def Commit.apply (commit : Commit) (row : Resource) : Resource :=
  { row with item := { row.item with
    state := commit.status.getD row.item.state
    expiresAt := if commit.clears then none else row.item.expiresAt } }

theorem Commit.apply_id (commit : Commit) (row : Resource) : (commit.apply row).id = row.id := rfl

/-- What a reap finds when it reads its row: whether the row is there, its state, whether a check of
its kind refuses (metadata missing, joined servers, an upgrade), and whether a teardown is active. -/
structure Look where
  found : Bool
  status : String
  refuses : Bool
  activeJob : Bool

/-- `_reap_vm`, and `_reap_row` with the `start_decommission` of the kind: the commits that it
makes, or nothing when it raises before the first. -/
def reapCommits (kind : Kind) (look : Look) : Option (List Commit) :=
  if !look.found then none
  else match kind with
    | .vm => if look.refuses then none else some [.enqueue, .clear]
    | .database | .k8s =>
      if look.status = "decommissioning" ∧ look.activeJob then some [.clear]
      else some [.setStatus "decommissioning", .enqueue, .clear]
    | .certLab =>
      if look.status = "decommissioning" then none else some [.teardown "decommissioning", .clear]
    | .directory | .spireLab =>
      if look.status = "decommissioning" ∨ look.refuses then none
      else some [.teardown "decommissioning", .clear]
    | .workloadk8s => some [.enqueue, .setStatus "decommissioning", .clear]
    | .workloadcloud => some [.enqueueAs "retiring", .link, .clear]
    | .pov => some [.enqueue, .clear]
    | .desktop | .function => none

/-- At most one commit inserts the job, and the last one clears the expiry. -/
def Clearing (script : List Commit) : Prop :=
  script.countP Commit.enqueues ≤ 1 ∧ ∃ last ∈ script.getLast?, last.clears = true

instance (script : List Commit) : Decidable (Clearing script) := by unfold Clearing; infer_instance

theorem reapCommits_clearing {kind : Kind} {look : Look} {script : List Commit}
    (h : reapCommits kind look = some script) : Clearing script := by
  unfold reapCommits at h
  split at h
  · cases h
  have hqueued : Clearing [.enqueue, .clear] := by decide
  have hstarted : Clearing [.teardown "decommissioning", .clear] := by decide
  cases kind with
  | vm =>
    simp only at h
    split at h
    · cases h
    · exact Option.some.inj h ▸ hqueued
  | database | k8s =>
    simp only at h
    split at h
    · obtain rfl := Option.some.inj h
      decide
    · obtain rfl := Option.some.inj h
      decide
  | certLab | directory | spireLab =>
    simp only at h
    split at h
    · cases h
    · exact Option.some.inj h ▸ hstarted
  | workloadk8s | workloadcloud =>
    obtain rfl := Option.some.inj h
    decide
  | pov => exact Option.some.inj h ▸ hqueued
  | desktop | function => cases h

/-! ### Passes -/

/-- A target of a pass with the expiry it was read with. -/
structure Due where
  target : Target
  serial : ℕ

/-- The target a pass is reaping, with the commits it still has to make. -/
structure Hand where
  id : String
  serial : ℕ
  script : List Commit

def Hand.key (hand : Hand) : String × ℕ := (hand.id, hand.serial)

structure Pass where
  id : ℕ
  mayDelete : Bool
  cap : ℤ
  reaped : ℕ
  left : List Due
  hand : Option Hand

/-- The target that the pass acts on next. -/
def Pass.acting (pass : Pass) : Option Due :=
  if pass.mayDelete = true ∧ pass.reaped < pass.cap then pass.left.head? else none

def Pass.setHand (hand : Option Hand) (pass : Pass) : Pass := { pass with hand }

/-- The next target is taken up, or passed over. -/
def Pass.reap (look : Look) (pass : Pass) : Pass :=
  let hand := do
    let due ← pass.acting
    let script ← reapCommits due.target.kind look
    pure ⟨due.target.id, due.serial, script⟩
  { pass with left := pass.left.tail, hand }

/-- The commit has been made: the pass goes on with the rest, or is done with the target. -/
def Pass.advance (rest : List Commit) (hand : Hand) (pass : Pass) : Pass :=
  if rest = [] then { pass with hand := none, reaped := pass.reaped + 1 }
  else { pass with hand := some { hand with script := rest } }

theorem Pass.setHand_id (hand : Option Hand) (pass : Pass) : (pass.setHand hand).id = pass.id := rfl

theorem Pass.reap_id (look : Look) (pass : Pass) : (pass.reap look).id = pass.id := rfl

theorem Pass.advance_id (rest : List Commit) (hand : Hand) (pass : Pass) :
    (pass.advance rest hand).id = pass.id := by
  unfold Pass.advance
  split <;> rfl

inductive Event where
  | add (item : Item)
  | remove (id : String)
  | progress (id : String) (state : String)
  | stamp (id : String) (expiresAt : Option Instant)
  | sweep (id : ℕ) (now : Instant) (config : Config) (armedAt : Option Instant) (mayDelete : Bool)
  | reap (id : ℕ) (look : Look)
  | commit (id : ℕ)
  | fail (id : ℕ)
  | crash (id : ℕ)

/-- `next` is the serial of the next expiry to be stamped, and `log` the destroys enqueued so far,
each with the expiry that caused it. -/
structure State where
  rows : Table Resource.id
  next : ℕ
  passes : Table Pass.id
  log : List (String × ℕ)

def State.start : State := ⟨.empty, 0, .empty, []⟩

section
variable (casefold : String → String)

/-- The targets of a pass among the rows. -/
def dueRows (config : Config) (now : Instant) (armedAt : Option Instant) (rows : List Resource) :
    List Due :=
  (rows.filterMap fun row =>
    (reapTarget casefold config.exemptWorkgroups now config.graceMinutes armedAt row.item).map
      fun target => ⟨target, row.serial⟩).insertionSort
    fun a b => b.target.overdue ≤ a.target.overdue

def State.step (s : State) : Event → Option State
  | .add item => (s.rows.insert ⟨item, s.next⟩).map fun rows => { s with rows, next := s.next + 1 }
  | .remove id => some { s with rows := s.rows.erase id }
  | .progress id state =>
    some { s with rows := s.rows.modify id (Resource.setState state) (Resource.setState_id state) }
  | .stamp id expiresAt =>
    some { s with
      rows := s.rows.modify id (Resource.setExpiresAt expiresAt s.next)
        (Resource.setExpiresAt_id expiresAt s.next)
      next := s.next + 1 }
  | .sweep id now config armedAt mayDelete =>
    (s.passes.insert {
      id, mayDelete
      cap := config.maxPerPass
      reaped := 0
      left := dueRows casefold config now armedAt s.rows.rows
      hand := none }).map fun passes => { s with passes }
  | .reap id look =>
    match s.passes.lookup id with
    | some ⟨_, _, _, _, _, none⟩ =>
      some { s with passes := s.passes.modify id (Pass.reap look) (Pass.reap_id look) }
    | _ => none
  | .commit id =>
    match s.passes.lookup id with
    | some ⟨_, _, _, _, _, some ⟨row, serial, commit :: rest⟩⟩ =>
      some {
        rows := s.rows.modify row commit.apply commit.apply_id
        next := s.next
        passes := s.passes.modify id (Pass.advance rest ⟨row, serial, rest⟩)
          (Pass.advance_id rest ⟨row, serial, rest⟩)
        log := if commit.enqueues then s.log ++ [(row, serial)] else s.log }
    | _ => none
  | .fail id => some { s with passes := s.passes.modify id (Pass.setHand none) (Pass.setHand_id none) }
  | .crash id => some { s with passes := s.passes.erase id }

def destroySystem : Machine.System State Event where
  step := State.step casefold

end

/-- The row still carries the expiry. -/
def Carries (rows : Table Resource.id) (key : String × ℕ) : Prop :=
  ∃ row ∈ rows.lookup key.1, row.serial = key.2 ∧ row.item.expiresAt.isSome = true

instance (rows : Table Resource.id) (key : String × ℕ) : Decidable (Carries rows key) := by
  unfold Carries
  infer_instance

/-- The destroy is committed and the expiry that caused it is still on the row. -/
def State.Gap (s : State) (hand : Hand) : Prop := hand.key ∈ s.log ∧ Carries s.rows hand.key

instance (s : State) (hand : Hand) : Decidable (s.Gap hand) := by unfold State.Gap; infer_instance

/-- A pass reads no expiry that has caused a destroy. -/
def ReadsCleared (s : State) : Event → Prop
  | .sweep .. => ∀ key ∈ s.log, ¬Carries s.rows key
  | _ => True

instance (s : State) : (event : Event) → Decidable (ReadsCleared s event)
  | .sweep .. => by unfold ReadsCleared; infer_instance
  | .add _ | .remove _ | .progress .. | .stamp .. | .reap .. | .commit _ | .fail _ | .crash _ =>
    isTrue trivial

/-- No pass stops or begins while one of them stands between the commit of a destroy and the clearing
of its expiry, and a pass takes up a row with the expiry it has read and no other pass on it. -/
def Whole (s : State) : Event → Prop
  | .sweep .. => ∀ pass ∈ s.passes.rows, ∀ hand ∈ pass.hand, ¬s.Gap hand
  | .reap id _ => ∀ pass ∈ s.passes.lookup id, ∀ due ∈ pass.acting,
      Carries s.rows (due.target.id, due.serial) ∧
        ∀ other ∈ s.passes.rows, ∀ hand ∈ other.hand, hand.id ≠ due.target.id
  | .fail id => ∀ pass ∈ s.passes.lookup id, ∀ hand ∈ pass.hand, ¬s.Gap hand
  | .crash id => ∀ pass ∈ s.passes.lookup id, ∀ hand ∈ pass.hand, ¬s.Gap hand
  | _ => True

instance (s : State) : (event : Event) → Decidable (Whole s event)
  | .sweep .. | .reap .. | .fail _ | .crash _ => by unfold Whole; infer_instance
  | .add _ | .remove _ | .progress .. | .stamp .. | .commit _ => isTrue trivial

/-! ### What a commit leaves on the rows -/

theorem carries_modify {rows : Table Resource.id} {id : String} {f : Resource → Resource}
    {hf : ∀ row, (f row).id = row.id} {key : String × ℕ} (h : Carries (rows.modify id f hf) key) :
    key.1 ≠ id ∧ Carries rows key ∨
      key.1 = id ∧ ∃ row ∈ rows.lookup id, (f row).serial = key.2 ∧
        (f row).item.expiresAt.isSome = true := by
  obtain ⟨row', hrow', hserial, hexpires⟩ := h
  obtain ⟨row, hrow, ⟨hid, rfl⟩ | ⟨hid, rfl⟩⟩ := Table.of_lookup_modify f hf hrow'
  · exact .inr ⟨hid, row, hid ▸ hrow, hserial, hexpires⟩
  · exact .inl ⟨hid, _, hrow, hserial, hexpires⟩

theorem carries_setState {rows : Table Resource.id} {id state : String} {key : String × ℕ}
    (h : Carries (rows.modify id (Resource.setState state) (Resource.setState_id state)) key) :
    Carries rows key := by
  rcases carries_modify h with ⟨-, hwas⟩ | ⟨rfl, row, hrow, hserial, hexpires⟩
  · exact hwas
  · exact ⟨row, hrow, hserial, hexpires⟩

/-- A new expiry is not one that the log knows. -/
theorem carries_setExpiresAt {rows : Table Resource.id} {id : String} {expiresAt : Option Instant}
    {next : ℕ} {key : String × ℕ} (hkey : key.2 < next)
    (h : Carries (rows.modify id (Resource.setExpiresAt expiresAt next)
      (Resource.setExpiresAt_id expiresAt next)) key) : Carries rows key := by
  rcases carries_modify h with ⟨-, hwas⟩ | ⟨-, row, -, hserial, -⟩
  · exact hwas
  · exact absurd hserial.symm hkey.ne

theorem carries_erase {rows : Table Resource.id} {id : String} {key : String × ℕ}
    (h : Carries (rows.erase id) key) : Carries rows key := by
  obtain ⟨row, hrow, hcarried⟩ := h
  rw [Table.lookup_erase] at hrow
  split at hrow
  · cases hrow
  · exact ⟨row, hrow, hcarried⟩

theorem carries_insert {rows after : Table Resource.id} {item : Item} {next : ℕ} {key : String × ℕ}
    (hins : rows.insert ⟨item, next⟩ = some after) (hkey : key.2 < next) (h : Carries after key) :
    Carries rows key := by
  obtain ⟨row, hrow, hserial, hexpires⟩ := h
  rw [Table.lookup_insert hins] at hrow
  split at hrow
  · obtain rfl := Option.some.inj hrow
    exact absurd hserial.symm hkey.ne
  · exact ⟨row, hrow, hserial, hexpires⟩

/-- A commit keeps no expiry alive, and one that clears takes it off its row. -/
theorem carries_apply {rows : Table Resource.id} {id : String} {commit : Commit} {key : String × ℕ}
    (h : Carries (rows.modify id commit.apply commit.apply_id) key) :
    Carries rows key ∧ (commit.clears = true → key.1 ≠ id) := by
  rcases carries_modify h with ⟨hid, hwas⟩ | ⟨rfl, row, hrow, hserial, hexpires⟩
  · exact ⟨hwas, fun _ => hid⟩
  · simp only [Commit.apply] at hexpires
    split at hexpires
    · cases hexpires
    next hkept => exact ⟨⟨row, hrow, hserial, hexpires⟩, fun hclears => absurd hclears hkept⟩

theorem serial_modify {rows : Table Resource.id} {id : String} {f : Resource → Resource}
    (hf : ∀ row, (f row).id = row.id) {next : ℕ} (hrows : ∀ row ∈ rows.rows, row.serial < next)
    (hnew : ∀ row ∈ rows.rows, (f row).serial < next) :
    ∀ row ∈ (rows.modify id f hf).rows, row.serial < next := by
  intro row hrow
  rcases Table.mem_modify.mp hrow with ⟨old, hold, -, rfl⟩ | ⟨hold, -⟩
  · exact hnew old hold
  · exact hrows row hold

theorem kept_modify {passes : Table Pass.id} {id : ℕ} {f : Pass → Pass}
    (hf : ∀ pass, (f pass).id = pass.id) {pass : Pass} (hpass : pass ∈ passes.rows)
    (hid : pass.id ≠ id) : pass ∈ (passes.modify id f hf).rows :=
  Table.mem_modify.mpr (.inr ⟨hpass, hid⟩)

theorem Clearing.tail {commit : Commit} {rest : List Commit} (h : Clearing (commit :: rest)) :
    (rest = [] → commit.clears = true) ∧ (rest ≠ [] → Clearing rest) ∧
      (commit.enqueues = true → ∀ later ∈ rest, ¬later.enqueues = true) := by
  obtain ⟨hcount, last, hlast, hclears⟩ := h
  refine ⟨?_, ?_, ?_⟩
  · rintro rfl
    obtain rfl : commit = last := Option.some.inj hlast
    exact hclears
  · intro hne
    obtain ⟨next, rest, rfl⟩ := List.exists_cons_of_ne_nil hne
    rw [List.getLast?_cons_cons] at hlast
    rw [List.countP_cons] at hcount
    exact ⟨by omega, last, hlast, hclears⟩
  · intro henqueues
    rw [List.countP_cons, if_pos henqueues] at hcount
    exact List.countP_eq_zero.mp (by omega)

/-! ### The invariant -/

structure Inv (s : State) : Prop where
  logged : ∀ key ∈ s.log, key.2 < s.next
  once : s.log.Nodup
  serial : ∀ row ∈ s.rows.rows, row.serial < s.next
  gap : ∀ key ∈ s.log, Carries s.rows key → ∃ pass ∈ s.passes.rows, ∃ hand ∈ pass.hand, hand.key = key
  hands : ∀ pass ∈ s.passes.rows, ∀ hand ∈ pass.hand, hand.serial < s.next ∧ Clearing hand.script ∧
    ((∃ commit ∈ hand.script, commit.enqueues = true) → hand.key ∉ s.log)
  alone : ∀ pass ∈ s.passes.rows, ∀ other ∈ s.passes.rows, ∀ hand ∈ pass.hand, ∀ hand' ∈ other.hand,
    hand.id = hand'.id → pass.id = other.id

/-- Other rows and another serial, when no expiry of the log comes back. -/
theorem Inv.withRows {s : State} (h : Inv s) {rows : Table Resource.id} {next : ℕ}
    (hnext : s.next ≤ next) (hserial : ∀ row ∈ rows.rows, row.serial < next)
    (hcarries : ∀ key ∈ s.log, Carries rows key → Carries s.rows key) :
    Inv { s with rows, next } where
  logged := fun key hkey => (h.logged key hkey).trans_le hnext
  once := h.once
  serial := hserial
  gap := fun key hkey hcarried => h.gap key hkey (hcarries key hkey hcarried)
  hands := by
    intro pass hpass hand hhand
    obtain ⟨hbound, hscript⟩ := h.hands pass hpass hand hhand
    exact ⟨hbound.trans_le hnext, hscript⟩
  alone := h.alone

/-- Other passes, each with the hand of one that was there or with none, when none of those left out
stands in a gap. -/
theorem Inv.withPasses {s : State} (h : Inv s) {passes : Table Pass.id}
    (hpasses : ∀ pass ∈ passes.rows, pass.hand = none ∨ pass ∈ s.passes.rows)
    (hleft : ∀ pass ∈ s.passes.rows, ∀ hand ∈ pass.hand, s.Gap hand → pass ∈ passes.rows) :
    Inv { s with passes } where
  logged := h.logged
  once := h.once
  serial := h.serial
  gap := by
    intro key hkey hcarried
    obtain ⟨pass, hpass, hand, hhand, rfl⟩ := h.gap key hkey hcarried
    exact ⟨pass, hleft pass hpass hand hhand ⟨hkey, hcarried⟩, hand, hhand, rfl⟩
  hands := by
    intro pass hpass hand hhand
    rcases hpasses pass hpass with hnone | hold
    · rw [hnone] at hhand
      cases hhand
    · exact h.hands pass hold hand hhand
  alone := by
    intro pass hpass other hother hand hhand hand' hhand' hid
    rcases hpasses pass hpass with hnone | hold
    · rw [hnone] at hhand
      cases hhand
    rcases hpasses other hother with hnone | hold'
    · rw [hnone] at hhand'
      cases hhand'
    · exact h.alone pass hold other hold' hand hhand hand' hhand' hid

/-- A hand in a gap is not the one of a pass that stands in none. -/
theorem other_of_gap {s : State} {id : ℕ}
    (hwhole : ∀ pass ∈ s.passes.lookup id, ∀ hand ∈ pass.hand, ¬s.Gap hand) :
    ∀ pass ∈ s.passes.rows, ∀ hand ∈ pass.hand, s.Gap hand → pass.id ≠ id := by
  rintro pass hpass hand hhand hgap rfl
  exact hwhole pass (Table.lookup_eq_some.mpr ⟨hpass, rfl⟩) hand hhand hgap

theorem Pass.reap_hand {pass : Pass} {look : Look} {hand : Hand}
    (h : (pass.reap look).hand = some hand) :
    ∃ due ∈ pass.acting, hand.key = (due.target.id, due.serial) ∧ Clearing hand.script := by
  simp only [Pass.reap, Option.bind_eq_bind, Option.bind_eq_some_iff] at h
  obtain ⟨due, hdue, script, hscript, hhand⟩ := h
  obtain rfl := Option.some.inj hhand
  exact ⟨due, hdue, rfl, reapCommits_clearing hscript⟩

section
variable {casefold : String → String}

theorem reaped_inv {s after : State} {id : ℕ} {look : Look} (h : Inv s)
    (hwhole : Whole s (.reap id look)) (hstep : s.step casefold (.reap id look) = some after) :
    Inv after := by
  simp only [State.step] at hstep
  split at hstep
  next hpass =>
    obtain rfl := Option.some.inj hstep
    obtain ⟨hmem, -⟩ := Table.lookup_eq_some.mp hpass
    -- what a pass of the new table has in hand is either old or just taken up
    have hnew : ∀ pass' ∈ (s.passes.modify id (Pass.reap look) (Pass.reap_id look)).rows,
        ∀ hand ∈ pass'.hand, (pass' ∈ s.passes.rows ∧ pass'.id ≠ id) ∨
          (pass'.id = id ∧ hand.serial < s.next ∧ Clearing hand.script ∧ hand.key ∉ s.log ∧
            ∀ other ∈ s.passes.rows, ∀ hand' ∈ other.hand, hand'.id ≠ hand.id) := by
      intro pass' hpass' hand hhand
      rcases Table.mem_modify.mp hpass' with ⟨old, hold, hid, rfl⟩ | ⟨hold, hid⟩
      · obtain ⟨due, hdue, hkey, hscript⟩ := Pass.reap_hand hhand
        obtain ⟨hcarries, hfree⟩ := hwhole old (Table.lookup_eq_some.mpr ⟨hold, hid⟩) due hdue
        obtain ⟨hhandId, hserial⟩ := Prod.mk.inj hkey
        refine .inr ⟨hid, ?_, hscript, fun hlogged => ?_, fun other hother hand' hhand' => ?_⟩
        · obtain ⟨row, hrow, hrowSerial, -⟩ := hcarries
          have hbound : row.serial < s.next := h.serial row (Table.lookup_eq_some.mp hrow).1
          exact (hserial.trans hrowSerial.symm).trans_lt hbound
        · obtain ⟨other, hother, hand', hhand', hkey'⟩ := h.gap hand.key hlogged (hkey ▸ hcarries)
          exact hfree other hother hand' hhand' ((Prod.mk.inj hkey').1.trans hhandId)
        · rw [hhandId]
          exact hfree other hother hand' hhand'
      · exact .inl ⟨hold, hid⟩
    refine ⟨h.logged, h.once, h.serial, fun key hkey hcarried => ?_, fun pass' hpass' hand hhand => ?_,
      fun pass' hpass' other hother hand hhand hand' hhand' hid => ?_⟩
    · obtain ⟨old, hold, hand, hhand, rfl⟩ := h.gap key hkey hcarried
      refine ⟨old, kept_modify (Pass.reap_id look) hold ?_, hand, hhand, rfl⟩
      rintro rfl
      -- the pass that reaps has nothing in hand
      have hsame := Table.eq_of_key hold hmem (Table.lookup_key hpass).symm
      rw [hsame] at hhand
      cases hhand
    · rcases hnew pass' hpass' hand hhand with ⟨hold, -⟩ | ⟨-, hserial, hscript, hlogged, -⟩
      · exact h.hands pass' hold hand hhand
      · exact ⟨hserial, hscript, fun _ => hlogged⟩
    · rcases hnew pass' hpass' hand hhand with ⟨hold, -⟩ | ⟨hkey, -, -, -, hfree⟩
      · rcases hnew other hother hand' hhand' with ⟨hold', -⟩ | ⟨-, -, -, -, hfree'⟩
        · exact h.alone pass' hold other hold' hand hhand hand' hhand' hid
        · exact absurd hid (hfree' pass' hold hand hhand)
      · rcases hnew other hother hand' hhand' with ⟨hold', -⟩ | ⟨hkey', -⟩
        · exact absurd hid.symm (hfree other hold' hand' hhand')
        · exact hkey.trans hkey'.symm
  next => cases hstep

theorem committed_inv {s after : State} {id : ℕ} (h : Inv s)
    (hstep : s.step casefold (.commit id) = some after) : Inv after := by
  simp only [State.step] at hstep
  split at hstep
  next passId mayDelete cap reaped left row serial commit rest hpass =>
    obtain rfl := Option.some.inj hstep
    obtain ⟨hmem, hpassId⟩ := Table.lookup_eq_some.mp hpass
    let hand : Hand := ⟨row, serial, commit :: rest⟩
    let pass : Pass := ⟨passId, mayDelete, cap, reaped, left, some hand⟩
    obtain ⟨hbound, hscript, hunlogged⟩ := h.hands pass hmem hand rfl
    obtain ⟨hlast, hclearing, hlater⟩ := hscript.tail
    have hother : ∀ other ∈ s.passes.rows, other.id ≠ id → ∀ hand' ∈ other.hand, hand'.id ≠ row := by
      intro other hother hid hand' hhand' hrow
      exact hid ((h.alone pass hmem other hother hand rfl hand' hhand' hrow.symm).symm.trans hpassId)
    -- the hands after the commit: those of the other passes, and the rest of this one's
    have hhands : ∀ pass' ∈ (s.passes.modify id (Pass.advance rest ⟨row, serial, rest⟩)
        (Pass.advance_id rest ⟨row, serial, rest⟩)).rows, ∀ hand' ∈ pass'.hand,
        (pass' ∈ s.passes.rows ∧ pass'.id ≠ id) ∨
          (pass'.id = id ∧ rest ≠ [] ∧ hand' = ⟨row, serial, rest⟩) := by
      intro pass' hpass' hand' hhand'
      rcases Table.mem_modify.mp hpass' with ⟨old, -, hid, rfl⟩ | ⟨hold, hid⟩
      · by_cases hrest : rest = []
        · simp [Pass.advance, hrest] at hhand'
        · simp only [Pass.advance, hrest, if_false, Option.mem_def, Option.some.injEq] at hhand'
          exact .inr ⟨(Pass.advance_id _ _ _).trans hid, hrest, hhand'.symm⟩
      · exact .inl ⟨hold, hid⟩
    have hlog : ∀ key ∈ (if commit.enqueues then s.log ++ [(row, serial)] else s.log),
        key ∈ s.log ∨ commit.enqueues = true ∧ key = (row, serial) := by
      intro key hkey
      split at hkey
      next henqueues =>
        rcases List.mem_append.mp hkey with hold | hnew
        · exact .inl hold
        · exact .inr ⟨henqueues, List.mem_singleton.mp hnew⟩
      next => exact .inl hkey
    refine ⟨fun key hkey => ?_, ?_, ?_, fun key hkey hcarried => ?_,
      fun pass' hpass' hand' hhand' => ?_,
      fun pass' hpass' other' hother' hand' hhand' hand'' hhand'' hid => ?_⟩
    · rcases hlog key hkey with hold | ⟨-, rfl⟩
      · exact h.logged key hold
      · exact hbound
    · split
      next henqueues =>
        refine List.nodup_append.mpr ⟨h.once, List.nodup_singleton _, ?_⟩
        rintro key hold _ hnew rfl
        rw [List.mem_singleton.mp hnew] at hold
        exact hunlogged ⟨commit, List.mem_cons_self, henqueues⟩ hold
      next => exact h.once
    · exact serial_modify commit.apply_id h.serial h.serial
    · obtain ⟨hwas, hcleared⟩ := carries_apply hcarried
      -- while the row is not cleared, this pass still has it in hand
      have hself : key.1 = row → key.2 = serial → ∃ pass' ∈ (s.passes.modify id
          (Pass.advance rest ⟨row, serial, rest⟩) (Pass.advance_id rest ⟨row, serial, rest⟩)).rows,
          ∃ hand' ∈ pass'.hand, hand'.key = key := by
        intro hrow hserial
        have hrest : rest ≠ [] := fun hnil => hcleared (hlast hnil) hrow
        refine ⟨_, Table.mem_modify.mpr (.inl ⟨pass, hmem, hpassId, rfl⟩), ⟨row, serial, rest⟩, ?_, ?_⟩
        · simp [Pass.advance, hrest]
        · exact Prod.ext hrow.symm hserial.symm
      rcases hlog key hkey with hold | ⟨-, rfl⟩
      · obtain ⟨old, hold', hand', hhand', rfl⟩ := h.gap key hold hwas
        by_cases hid : old.id = id
        · obtain rfl : old = pass := Table.eq_of_key hold' hmem (hid.trans hpassId.symm)
          obtain rfl : hand = hand' := Option.some.inj hhand'
          exact hself rfl rfl
        · exact ⟨old, kept_modify (Pass.advance_id rest _) hold' hid, hand', hhand', rfl⟩
      · exact hself rfl rfl
    · rcases hhands pass' hpass' hand' hhand' with ⟨hold, hid⟩ | ⟨-, hrest, rfl⟩
      · obtain ⟨hbound', hscript', hunlogged'⟩ := h.hands pass' hold hand' hhand'
        refine ⟨hbound', hscript', fun henqueues hkey => ?_⟩
        rcases hlog _ hkey with hlogged | ⟨-, hsame⟩
        · exact hunlogged' henqueues hlogged
        · exact hother pass' hold hid hand' hhand' (Prod.mk.inj hsame).1
      · refine ⟨hbound, hclearing hrest, ?_⟩
        rintro ⟨later, hmemLater, henqueues⟩ hkey
        rcases hlog _ hkey with hlogged | ⟨hfirst, -⟩
        · exact hunlogged ⟨later, List.mem_cons_of_mem _ hmemLater, henqueues⟩ hlogged
        · exact hlater hfirst later hmemLater henqueues
    · rcases hhands pass' hpass' hand' hhand' with ⟨hold, hne⟩ | ⟨hthis, -, rfl⟩
      · rcases hhands other' hother' hand'' hhand'' with ⟨hold', hne'⟩ | ⟨-, -, rfl⟩
        · exact h.alone pass' hold other' hold' hand' hhand' hand'' hhand'' hid
        · exact absurd hid (hother pass' hold hne hand' hhand')
      · rcases hhands other' hother' hand'' hhand'' with ⟨hold', hne'⟩ | ⟨hthis', -⟩
        · exact absurd hid.symm (hother other' hold' hne' hand'' hhand'')
        · exact hthis.trans hthis'.symm
  next => cases hstep

theorem step_inv {s after : State} {event : Event} (h : Inv s) (hwhole : Whole s event)
    (hstep : s.step casefold event = some after) : Inv after := by
  cases event with
  | add item =>
    obtain ⟨rows, hins, rfl⟩ := Option.map_eq_some_iff.mp hstep
    refine h.withRows (Nat.le_succ _) (fun row hrow => ?_)
      fun key hkey => carries_insert hins (h.logged key hkey)
    rcases (Table.mem_insert hins).mp hrow with hold | rfl
    · exact Nat.lt_succ_of_lt (h.serial row hold)
    · exact Nat.lt_succ_self _
  | remove id =>
    obtain rfl := Option.some.inj hstep
    exact h.withRows (le_refl _) (fun row hrow => h.serial row (Table.mem_erase.mp hrow).1)
      fun key _ => carries_erase
  | progress id state =>
    obtain rfl := Option.some.inj hstep
    exact h.withRows (le_refl _) (serial_modify (Resource.setState_id state) h.serial h.serial)
      fun key _ => carries_setState
  | stamp id expiresAt =>
    obtain rfl := Option.some.inj hstep
    exact h.withRows (Nat.le_succ _)
      (serial_modify (Resource.setExpiresAt_id expiresAt s.next)
        (fun row hrow => Nat.lt_succ_of_lt (h.serial row hrow)) fun _ _ => Nat.lt_succ_self _)
      fun key hkey => carries_setExpiresAt (h.logged key hkey)
  | sweep id now config armedAt mayDelete =>
    obtain ⟨passes, hins, rfl⟩ := Option.map_eq_some_iff.mp hstep
    refine h.withPasses (fun pass hpass => ?_)
      fun pass hpass _ _ _ => (Table.mem_insert hins).mpr (.inl hpass)
    rcases (Table.mem_insert hins).mp hpass with hold | rfl
    · exact .inr hold
    · exact .inl rfl
  | reap id look => exact reaped_inv h hwhole hstep
  | commit id => exact committed_inv h hstep
  | fail id =>
    obtain rfl := Option.some.inj hstep
    refine h.withPasses (fun pass hpass => ?_) fun pass hpass hand hhand hgap => ?_
    · rcases Table.mem_modify.mp hpass with ⟨old, -, -, rfl⟩ | ⟨hold, -⟩
      · exact .inl rfl
      · exact .inr hold
    · exact kept_modify (Pass.setHand_id none) hpass (other_of_gap hwhole pass hpass hand hhand hgap)
  | crash id =>
    obtain rfl := Option.some.inj hstep
    refine h.withPasses (fun pass hpass => .inr (Table.mem_erase.mp hpass).1)
      fun pass hpass hand hhand hgap => ?_
    exact Table.mem_erase.mpr ⟨hpass, other_of_gap hwhole pass hpass hand hhand hgap⟩

theorem readsCleared_of_whole {s : State} {event : Event} (h : Inv s) (hwhole : Whole s event) :
    ReadsCleared s event := by
  cases event with
  | sweep id now config armedAt mayDelete =>
    intro key hkey hcarried
    obtain ⟨pass, hpass, hand, hhand, rfl⟩ := h.gap key hkey hcarried
    exact hwhole pass hpass hand hhand ⟨hkey, hcarried⟩
  | _ => trivial

/-- In every interleaving of passes, stampings and crashes that leaves no pass between the commit of
a destroy and the clearing of its expiry, no expiry causes two destroys, and no pass reads one that
has caused a destroy. -/
theorem destroyed_once {events : List Event} (h : (destroySystem casefold).Along Whole .start events) :
    (destroySystem casefold).Always (fun s => s.log.Nodup) .start events ∧
      (destroySystem casefold).Along ReadsCleared .start events := by
  have hstart : Inv .start := by
    refine ⟨?_, ?_, ?_, ?_, ?_, ?_⟩ <;> simp [State.start, Table.empty]
  constructor
  · exact (destroySystem casefold).always_mono (fun _ hinv => hinv.once)
      ((destroySystem casefold).always_of_along (fun _ _ _ => step_inv) hstart h)
  · exact (destroySystem casefold).along_of_along
      (fun _ _ _ hinv hwhole hstep => ⟨step_inv hinv hwhole hstep, readsCleared_of_whole hinv hwhole⟩)
      hstart h

end

/- A machine and a database past their expiry, destroyed by one pass and unknown to the next. -/
def sampleConfig : Config := ⟨true, true, false, 30, 10, []⟩

def sampleItem (id : String) (kind : Kind) (state : String) : Item where
  id
  kind
  cloud := "aws"
  source := "provisioned"
  workgroup := ""
  state
  expiresAt := some (Python.minutes 5)
  name := id
  region := "eu-west-1"
  jobId := some "17"

def sampleSweep (id : ℕ) : Event :=
  .sweep id (Python.minutes 90) sampleConfig (some (Python.minutes 20)) true

def wholeRun : List Event :=
  [.add (sampleItem "job:17" .vm "active"), .add (sampleItem "clouddb:4" .database "available"),
   sampleSweep 1, .reap 1 ⟨true, "active", false, false⟩, .commit 1, .commit 1,
   .reap 1 ⟨true, "available", false, false⟩, .commit 1, .commit 1, .commit 1, .crash 1,
   sampleSweep 2]

theorem wholeRun_once : (destroySystem id).Always (fun s => s.log.Nodup) .start wholeRun ∧
    (destroySystem id).Along ReadsCleared .start wholeRun :=
  destroyed_once (by decide +kernel)

/- The worker dies after the commit of `create_job`, and the pass of the next worker finds the
expiry on the row. -/
def crashedRun : List Event :=
  [.add (sampleItem "job:17" .vm "active"), sampleSweep 1, .reap 1 ⟨true, "active", false, false⟩,
   .commit 1, .crash 1, sampleSweep 2, .reap 2 ⟨true, "active", false, false⟩, .commit 2]

theorem destroyed_twice : ¬((destroySystem id).Always (fun s => s.log.Nodup) .start crashedRun ∧
    (destroySystem id).Along ReadsCleared .start crashedRun) := by
  decide +kernel

end Expiry.OneDestroy
