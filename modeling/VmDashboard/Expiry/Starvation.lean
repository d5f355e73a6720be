import Mathlib.Data.Nat.Count
import VmDashboard.Expiry.Selection

/-!
# No target is starved

Sweeps over the rows of the inventory, with timers set and rows changed in between. A reaped row
loses its timer and no timer is set in the past, so each sweep that passes over a target that is due
and accepts leaves fewer rows ahead of it.
-/

namespace Expiry.Selection
open Machine (Table)
open Python (Instant)

/-! ### Sweeps over the rows -/

def Listed.clear (row : Listed) : Listed :=
  { row with toItem := { row.toItem with expiresAt := none }, provisioned := row.provisioned }

def Listed.stamp (expiresAt : Option Instant) (row : Listed) : Listed :=
  { row with toItem := { row.toItem with expiresAt }, provisioned := row.provisioned }

/-- Everything but the id and the timer. -/
def Listed.become (item row : Listed) : Listed :=
  { item with
    toItem := { item.toItem with id := row.id, expiresAt := row.expiresAt }
    provisioned := item.provisioned }

def Listed.key (row : Listed) : String := row.id

/-- The rows after a pass: `_reap_one` clears the timer of what it destroys. -/
def reaped (gone : List Target) (row : Listed) : Listed :=
  if row.id ∈ gone.map Target.id then row.clear else row

inductive Event where
  | add (now : Instant) (item : Listed)
  | remove (id : String)
  | change (id : String) (item : Listed)
  | request (now : Instant) (id : String) (limits : Limits) (createdAt : Option Instant)
      (request : ExpiryRequest)
  | sweep (sweep : Sweep)

structure State where
  rows : Table Listed.key
  clock : Instant

section
variable (casefold : String → String)

/-- A row is added with no timer or with one that lies ahead. -/
def State.step (s : State) : Event → Option State
  | .add now item =>
    if now < s.clock ∨ ∃ expires ∈ item.expiresAt, expires < now then none
    else (s.rows.insert item).map fun rows => ⟨rows, now⟩
  | .remove id => some { s with rows := s.rows.erase id }
  | .change id item => some { s with rows := s.rows.modify id (Listed.become item) fun _ => rfl }
  | .request now id limits createdAt request =>
    if now < s.clock then none
    else
      match s.rows.lookup id with
      | none => some { s with clock := now }
      | some row =>
        match resolveExpiry limits createdAt row.expiresAt request now with
        | .error _ => some { s with clock := now }
        | .ok (expiresAt, _) =>
          some ⟨s.rows.modify id (Listed.stamp expiresAt) fun _ => rfl, now⟩
  | .sweep sweep =>
    if sweep.now < s.clock then none
    else some {
      rows := s.rows.map (reaped (sweep.enqueued casefold s.rows.rows)) fun row => by
        unfold reaped
        split <;> rfl
      clock := sweep.now }

/-- The sweep enqueues a destroy for the row. -/
def Enqueues (id : String) (s : State) : Event → Prop
  | .sweep sweep => ∃ t ∈ sweep.enqueued casefold s.rows.rows, t.id = id
  | _ => False

instance (id : String) (s : State) : (event : Event) → Decidable (Enqueues casefold id s event)
  | .sweep _ => by unfold Enqueues; infer_instance
  | .add .. | .remove _ | .change .. | .request .. => isFalse fun h => h

/-- The row is due at the expiry, for every sweep, and accepts. -/
def StaysDue (id : String) (expires : Instant) (s : State) : Event → Prop
  | .sweep sweep => sweep.mayDelete = true ∧ ∃ row ∈ s.rows.lookup id, row.expiresAt = some expires ∧
      ∃ t ∈ sweep.due casefold row.toItem, sweep.accepts t = true
  | _ => True

instance (id : String) (expires : Instant) (s : State) :
    (event : Event) → Decidable (StaysDue casefold id expires s event)
  | .sweep _ => by unfold StaysDue; infer_instance
  | .add .. | .remove _ | .change .. | .request .. => isTrue trivial

end

def Event.IsSweep : Event → Prop
  | .sweep _ => True
  | _ => False

instance : DecidablePred Event.IsSweep
  | .sweep _ => isTrue trivial
  | .add .. | .remove _ | .change .. | .request .. => isFalse id

/-- Another row whose timer may be sorted before the expiry: overdue times are whole seconds. -/
def isAhead (id : String) (expires : Instant) (row : Listed) : Bool :=
  row.id != id && row.expiresAt.any fun other => decide (other ≤ expires + Python.seconds 1)

def State.ahead (id : String) (expires : Instant) (s : State) : ℕ :=
  s.rows.rows.countP (isAhead id expires)

/-! ### What stands ahead of a target -/

/-- A map that leaves nothing marked anew, and one marked element no more. -/
theorem countP_map_lt {α : Type*} {p : α → Bool} {f : α → α} {l : List α} {a : α}
    (hkept : ∀ b ∈ l, p (f b) = true → p b = true) (ha : a ∈ l) (hp : p a = true)
    (hgone : p (f a) = false) : (l.map f).countP p < l.countP p := by
  obtain ⟨front, back, rfl⟩ := List.append_of_mem ha
  have hmono {l' : List α} (h : ∀ b ∈ l', b ∈ front ++ a :: back) :
      (l'.map f).countP p ≤ l'.countP p := by
    rw [List.countP_map]
    exact List.countP_mono_left fun b hb => hkept b (h b hb)
  have hfront := hmono fun b hb => List.mem_append_left (a :: back) hb
  have hback := hmono fun b hb => List.mem_append_right front (List.mem_cons_of_mem a hb)
  rw [List.map_append, List.map_cons, List.countP_append, List.countP_append, List.countP_cons,
    List.countP_cons, hgone, hp]
  simp only [Bool.false_eq_true, if_false, if_true]
  omega

theorem countP_modify_le {p : Listed → Bool} {rows : Table Listed.key} {id : String}
    {f : Listed → Listed} (hf : ∀ row, (f row).key = row.key)
    (hkept : ∀ row ∈ rows.rows, p (f row) = true → p row = true) :
    (rows.modify id f hf).rows.countP p ≤ rows.rows.countP p := by
  have hrows : (rows.modify id f hf).rows =
      rows.rows.map fun row => if row.key = id then f row else row := rfl
  rw [hrows, List.countP_map]
  refine List.countP_mono_left fun row hrow hp => ?_
  dsimp only [Function.comp_apply] at hp
  split at hp
  · exact hkept row hrow hp
  · exact hp

/-- A request sets no timer in the past. -/
theorem le_resolveExpiry {limits : Limits} {createdAt current : Option Instant}
    {request : ExpiryRequest} {now expires : Instant} {clamped : Bool}
    (h : resolveExpiry limits createdAt current request now = .ok (some expires, clamped)) :
    now ≤ expires := by
  have hclamp (requested : ℤ) : 0 ≤ clampHours limits createdAt request.isAdmin now requested := by
    have hfloor : (0 : ℤ) ≤ Python.minutes minTtlMinutesFloor := Int.natCast_nonneg _
    have hmax : 0 ≤ hours limits.maxTotalHours :=
      Int.mul_nonneg (Int.natCast_nonneg _) (Int.natCast_nonneg _)
    unfold clampHours
    extract_lets floor h
    have hh : 0 ≤ h := hfloor.trans (le_max_left _ _)
    split
    · cases createdAt with
      | none => exact le_min hh hmax
      | some created => exact hfloor.trans (le_max_left _ _)
    · exact hh
  unfold resolveExpiry at h
  split at h
  · split at h
    · cases h
    split at h
    · cases h
    · cases h
  · cases hrequested : requestedLifetime current request now with
    | none =>
      rw [hrequested] at h
      cases h
    | some requested =>
      rw [hrequested] at h
      dsimp only at h
      split at h
      · cases h
      · obtain ⟨hexpires, -⟩ := Prod.mk.inj (Except.ok.inj h)
        obtain rfl := Option.some.inj hexpires
        have hnonneg := hclamp requested
        have hlater := (Int.natCast_nonneg now).trans (le_add_of_nonneg_right hnonneg)
        exact (Int.le_toNat hlater).mpr (le_add_of_nonneg_right hnonneg)

variable {casefold : String → String} {sweep : Sweep}

/-- A target that is due and accepts is destroyed, or one at least as overdue is. -/
theorem passed_over {items : List Listed} {row : Listed} {t : Target}
    (hmay : sweep.mayDelete = true) (hrow : row ∈ items)
    (hdue : sweep.due casefold row.toItem = some t) (haccepts : sweep.accepts t = true)
    (hpassed : t ∉ sweep.enqueued casefold items) :
    ∃ other ∈ sweep.enqueued casefold items, t.overdue ≤ other.overdue := by
  have henabled : sweep.config.enabled = true := by
    unfold Sweep.mayDelete at hmay
    simp only [Bool.and_eq_true] at hmay
    exact hmay.1.1
  have hmem : t ∈ (sweep.targets casefold items).filter sweep.accepts :=
    List.mem_filter.mpr ⟨targets_of_due henabled hrow hdue, haccepts⟩
  have hsorted : ((sweep.targets casefold items).filter sweep.accepts).Pairwise
      fun a b => b.overdue ≤ a.overdue := by
    refine List.Pairwise.filter _ ?_
    unfold Sweep.targets
    rw [henabled, Bool.not_true, if_neg Bool.false_ne_true]
    unfold Expiry.targets
    exact List.pairwise_insertionSort (fun a b : Target => b.overdue ≤ a.overdue) _
  have hcap := one_le_maxPerPass sweep.config
  rw [enqueued_eq, if_pos hmay] at hpassed ⊢
  obtain ⟨n, hn⟩ := Nat.exists_eq_succ_of_ne_zero (n := sweep.config.maxPerPass.toNat) (by omega)
  rw [hn] at hpassed ⊢
  cases hacceptable : (sweep.targets casefold items).filter sweep.accepts with
  | nil =>
    rw [hacceptable] at hmem
    cases hmem
  | cons first rest =>
    rw [hacceptable] at hmem hpassed hsorted
    rw [List.take_succ_cons] at hpassed ⊢
    refine ⟨first, List.mem_cons_self, ?_⟩
    rcases List.mem_cons.mp hmem with rfl | hrest
    · exact absurd List.mem_cons_self hpassed
    · exact List.rel_of_pairwise_cons hsorted hrest

theorem ahead_of_overdue {row other : Listed} {t u : Target} {id : String} {expires : Instant}
    (hid : other.id ≠ id) (ht : sweep.due casefold row.toItem = some t) (hexpires : row.expiresAt = some expires)
    (hu : sweep.due casefold other.toItem = some u) (h : t.overdue ≤ u.overdue) :
    isAhead id expires other = true := by
  obtain ⟨-, -, -, -, e, he, hpast, htover⟩ := reapTarget_spec ht
  obtain ⟨-, -, -, -, e', he', hpast', huover⟩ := reapTarget_spec hu
  obtain rfl := Option.some.inj (hexpires.symm.trans he)
  rw [htover, huover] at h
  unfold isAhead
  rw [Bool.and_eq_true, bne_iff_ne, he', Option.any_some, decide_eq_true_eq]
  refine ⟨hid, ?_⟩
  have hsecond : Python.seconds 1 = 1000000 := rfl
  rw [hsecond] at h ⊢
  have hle := (Nat.le_add_right expires _).trans hpast
  have hle' := (Nat.le_add_right e' _).trans hpast'
  have hdiv := Nat.div_add_mod (sweep.now - expires) 1000000
  have hmod := Nat.mod_lt (sweep.now - expires) (by decide : 1000000 > 0)
  have hdiv' := Nat.div_mul_le_self (sweep.now - e') 1000000
  have hmul := Nat.mul_le_mul_left 1000000 h
  unfold Instant at *
  omega

theorem isAhead_of_none {id : String} {expires : Instant} {row : Listed} (h : row.expiresAt = none) :
    isAhead id expires row = false := by
  unfold isAhead
  rw [h, Option.any_none, Bool.and_false]

theorem ahead_reaped {gone : List Target} {id : String} {expires : Instant} {row : Listed}
    (h : isAhead id expires (reaped gone row) = true) : isAhead id expires row = true := by
  unfold reaped at h
  split at h
  · exact absurd h (by rw [isAhead_of_none rfl]; decide)
  · exact h

/-! ### The runs -/

/-- No row comes ahead of an expiry that is past, and a sweep that passes over a row that is due and
accepts takes one from ahead of it. -/
theorem step_ahead {s s' : State} {event : Event} {id : String} {expires : Instant}
    (hpast : expires + Python.minutes 15 ≤ s.clock) (hdue : StaysDue casefold id expires s event)
    (hnot : ¬Enqueues casefold id s event) (h : s.step casefold event = some s') :
    s.clock ≤ s'.clock ∧
      s'.ahead id expires + (if event.IsSweep then 1 else 0) ≤ s.ahead id expires := by
  have hlate {now other : Instant} (hnow : s.clock ≤ now) (hother : now ≤ other) :
      ¬other ≤ expires + Python.seconds 1 := by
    have hlong : Python.seconds 1 < Python.minutes 15 := by decide
    intro hle
    have hbefore := (hpast.trans hnow).trans (hother.trans hle)
    exact absurd (Nat.le_of_add_le_add_left hbefore) (Nat.not_le.mpr hlong)
  cases event with
  | add now item =>
    unfold State.step at h
    dsimp only at h
    split at h
    · cases h
    next hahead =>
      rw [not_or] at hahead
      obtain ⟨rows, hrows, rfl⟩ := Option.map_eq_some_iff.mp h
      have hnow := Nat.not_lt.mp hahead.1
      refine ⟨hnow, ?_⟩
      have hnew : isAhead id expires item = false := by
        cases hitem : item.expiresAt with
        | none => exact isAhead_of_none hitem
        | some other =>
          unfold isAhead
          rw [hitem, Option.any_some, Bool.and_eq_false_iff, decide_eq_false_iff_not]
          exact .inr (hlate hnow (Nat.not_lt.mp fun hlt => hahead.2 ⟨other, hitem, hlt⟩))
      have happend : rows.rows = s.rows.rows ++ [item] := (Table.insert_eq_some hrows).2
      unfold State.ahead
      rw [happend, List.countP_append, List.countP_singleton, hnew]
      rfl
  | remove id' =>
    obtain rfl := Option.some.inj h
    exact ⟨le_rfl, List.filter_sublist.countP_le⟩
  | change id' item =>
    obtain rfl := Option.some.inj h
    exact ⟨le_rfl, countP_modify_le (f := Listed.become item) (fun _ => rfl) fun _ _ hrow => hrow⟩
  | request now id' limits createdAt request =>
    unfold State.step at h
    dsimp only at h
    split at h
    · cases h
    next hnow =>
      have hnow := Nat.not_lt.mp hnow
      split at h
      · obtain rfl := Option.some.inj h
        exact ⟨hnow, le_rfl⟩
      next row hrow =>
        split at h
        · obtain rfl := Option.some.inj h
          exact ⟨hnow, le_rfl⟩
        next expiresAt clamped hresolve =>
          obtain rfl := Option.some.inj h
          refine ⟨hnow, countP_modify_le (f := Listed.stamp expiresAt) (fun _ => rfl)
            fun other _ hother => ?_⟩
          cases expiresAt with
          | none => exact absurd hother (by rw [isAhead_of_none rfl]; decide)
          | some stamped =>
            have hsoon : decide (stamped ≤ expires + Python.seconds 1) = true :=
              (Bool.and_eq_true_iff.mp hother).2
            exact absurd (of_decide_eq_true hsoon) (hlate hnow (le_resolveExpiry hresolve))
  | sweep sweep =>
    unfold State.step at h
    dsimp only at h
    split at h
    · cases h
    next hnow =>
      obtain rfl := Option.some.inj h
      refine ⟨Nat.not_lt.mp hnow, Nat.succ_le_of_lt ?_⟩
      obtain ⟨hmay, row, hrow, hexpires, t, ht, haccepts⟩ := hdue
      obtain ⟨hmem, hid⟩ := Table.lookup_eq_some.mp hrow
      have hpassed : t ∉ sweep.enqueued casefold s.rows.rows := fun ht' =>
        hnot ⟨t, ht', (reapTarget_spec ht).2.2.2.1.trans hid⟩
      obtain ⟨u, hu, hover⟩ := passed_over hmay hmem ht haccepts hpassed
      obtain ⟨other, hother, hdue'⟩ := mem_targets (mem_enqueued hu).1
      have hsame : u.id = other.id := (reapTarget_spec hdue').2.2.2.1
      have hne : other.id ≠ id := fun heq => hnot ⟨u, hu, hsame.trans heq⟩
      have hgone : reaped (sweep.enqueued casefold s.rows.rows) other = other.clear :=
        if_pos (List.mem_map.mpr ⟨u, hu, hsame⟩)
      refine countP_map_lt (fun b _ hb => ahead_reaped hb) hother
        (ahead_of_overdue hne ht hexpires hdue' hover) ?_
      rw [hgone]
      exact isAhead_of_none rfl

/-- A run without end. -/
structure Behaviour (casefold : String → String) where
  state : ℕ → State
  event : ℕ → Event
  step : ∀ n, (state n).step casefold (event n) = some (state (n + 1))

/-- The row stays due at the expiry and accepts, for as long as it has not been destroyed. -/
def Behaviour.Waits (run : Behaviour casefold) (id : String) (expires : Instant) : Prop :=
  ∀ n, (∀ m < n, ¬Enqueues casefold id (run.state m) (run.event m)) →
    StaysDue casefold id expires (run.state n) (run.event n)

def Behaviour.sweeps (run : Behaviour casefold) (n : ℕ) : ℕ := Nat.count (fun m => (run.event m).IsSweep) n

theorem sweeps_ahead {run : Behaviour casefold} {id : String} {expires : Instant}
    (hpast : expires + Python.minutes 15 ≤ (run.state 0).clock) (hwaits : run.Waits id expires) {n : ℕ}
    (hnever : ∀ m < n, ¬Enqueues casefold id (run.state m) (run.event m)) :
    expires + Python.minutes 15 ≤ (run.state n).clock ∧
      run.sweeps n + (run.state n).ahead id expires ≤ (run.state 0).ahead id expires := by
  induction n with
  | zero => exact ⟨hpast, (Nat.zero_add _).le⟩
  | succ n ih =>
    obtain ⟨hclock, hcount⟩ := ih fun m hm => hnever m (hm.trans (Nat.lt_succ_self n))
    have hdue := hwaits n fun m hm => hnever m (hm.trans (Nat.lt_succ_self n))
    obtain ⟨hlater, hahead⟩ := step_ahead hclock hdue (hnever n (Nat.lt_succ_self n)) (run.step n)
    refine ⟨hclock.trans hlater, ?_⟩
    have hsucc : run.sweeps (n + 1) = run.sweeps n + if (run.event n).IsSweep then 1 else 0 :=
      Nat.count_succ _ _
    omega

theorem sweeps_unbounded {run : Behaviour casefold}
    (hsweeps : ∀ n, ∃ m ≥ n, (run.event m).IsSweep) (k : ℕ) : ∃ n, k ≤ run.sweeps n := by
  induction k with
  | zero => exact ⟨0, Nat.zero_le _⟩
  | succ k ih =>
    obtain ⟨n, hn⟩ := ih
    obtain ⟨m, hm, hsweep⟩ := hsweeps n
    have hsucc : run.sweeps (m + 1) = run.sweeps m + 1 := by
      unfold Behaviour.sweeps
      rw [Nat.count_succ, if_pos hsweep]
    have hmono : run.sweeps n ≤ run.sweeps m := Nat.count_monotone _ hm
    exact ⟨m + 1, by omega⟩

/-- A row that waits is destroyed after no more sweeps than there are rows ahead of it. -/
theorem enqueued_in_time {run : Behaviour casefold} {id : String} {expires : Instant}
    (hpast : expires + Python.minutes 15 ≤ (run.state 0).clock)
    (hsweeps : ∀ n, ∃ m ≥ n, (run.event m).IsSweep) (hwaits : run.Waits id expires) :
    ∃ n, Enqueues casefold id (run.state n) (run.event n) ∧
      run.sweeps n ≤ (run.state 0).ahead id expires := by
  classical
  obtain ⟨n, hn⟩ := sweeps_unbounded hsweeps ((run.state 0).ahead id expires + 1)
  have hexists : ∃ m, Enqueues casefold id (run.state m) (run.event m) := by
    by_contra hnone
    have hcount := (sweeps_ahead hpast hwaits (n := n) fun m _ hm => hnone ⟨m, hm⟩).2
    omega
  have hcount := (sweeps_ahead hpast hwaits (n := Nat.find hexists) fun m hm =>
    Nat.find_min hexists hm).2
  exact ⟨Nat.find hexists, Nat.find_spec hexists, by omega⟩

theorem selection_fair (casefold : String → String) :
    (∀ sweep items, Sweep.Selects casefold sweep items) ∧
      ∀ (run : Behaviour casefold) (id : String) (expires : Instant),
        expires + Python.minutes 15 ≤ (run.state 0).clock →
        (∀ n, ∃ m ≥ n, (run.event m).IsSweep) → run.Waits id expires →
        ∃ n, Enqueues casefold id (run.state n) (run.event n) ∧
          run.sweeps n ≤ (run.state 0).ahead id expires :=
  ⟨sweep_selects casefold, fun _ _ _ => enqueued_in_time⟩

/-! ### A refusal ahead -/

def sampleListed (id : String) (expires : Instant) : Listed where
  id := id
  kind := .vm
  cloud := "aws"
  source := "provisioned"
  workgroup := ""
  state := "active"
  expiresAt := some expires
  name := id
  region := "us-east-1"
  jobId := some id
  provisioned := nofun

/-- A sweep every minute, with one destroy a pass. The second resource refuses. -/
def sampleEvent (n : ℕ) : Event :=
  .sweep ⟨Python.minutes (n + 70), ⟨true, true, false, 30, 1, []⟩, some 1, some 1,
    fun t => if t.id = "job:2" then .error "no deploy job recorded" else .ok "job:9"⟩

def sampleStart : State :=
  ⟨⟨[sampleListed "job:1" 10, sampleListed "job:2" 20, sampleListed "job:3" 30], by decide⟩,
    Python.minutes 69⟩

def sampleState : ℕ → State
  | 0 => sampleStart
  | n + 1 => ((sampleState n).step id (sampleEvent n)).getD sampleStart

theorem sampleEvent_step {s : State} {n : ℕ} (h : s.clock ≤ Python.minutes (n + 69)) :
    ∃ t, s.step id (sampleEvent n) = some t ∧ t.clock = Python.minutes (n + 70) := by
  have hminute : Python.minutes (n + 69) ≤ Python.minutes (n + 70) :=
    Nat.mul_le_mul_right 1000000 (Nat.mul_le_mul_left 60 (Nat.le_succ _))
  unfold State.step sampleEvent
  dsimp only
  rw [if_neg (Nat.not_lt.mpr (h.trans hminute))]
  exact ⟨_, rfl, rfl⟩

theorem sampleState_clock (n : ℕ) : (sampleState n).clock ≤ Python.minutes (n + 69) := by
  induction n with
  | zero => exact le_rfl
  | succ n ih =>
    obtain ⟨t, ht, hclock⟩ := sampleEvent_step ih
    rw [sampleState, ht, Option.getD_some, hclock]

def sampleRun : Behaviour id where
  state := sampleState
  event := sampleEvent
  step := by
    intro n
    obtain ⟨t, ht, -⟩ := sampleEvent_step (sampleState_clock n)
    rw [sampleState, ht, Option.getD_some]

/-- The third resource is destroyed by the second sweep: the first takes the one ahead, the one that
refuses takes no place. -/
theorem sampleRun_fair : ∃ n, Enqueues id "job:3" (sampleState n) (sampleEvent n) ∧
    sampleRun.sweeps n ≤ 2 := by
  have hsecond : Enqueues id "job:3" (sampleState 1) (sampleEvent 1) := by decide +kernel
  refine (selection_fair id).2 sampleRun "job:3" 30 (by decide) (fun n => ⟨n, le_rfl, trivial⟩) ?_
  intro n hnever
  match n with
  | 0 => exact (by decide +kernel : StaysDue id "job:3" 30 (sampleState 0) (sampleEvent 0))
  | 1 => exact (by decide +kernel : StaysDue id "job:3" 30 (sampleState 1) (sampleEvent 1))
  | n + 2 => exact absurd hsecond (hnever 1 (by omega))

end Expiry.Selection
