import VmDashboard.Expiry.Policy
import VmDashboard.Machine.System
import VmDashboard.Machine.Table

/-!
# The arming delay

Changes to the configuration and the passes of the sweep, in any order. A pass reads the switches
and the two stamps once, and destroys its targets one after the other on what it read. The stamp of
the enforcement is written and cleared by the passes only, and not by one that finds the feature
off.
-/

namespace Expiry.Arming
open Machine (Table)
open Python (Instant)

/-! ### The store and the stamps -/

/-- The configuration with the two persisted stamps. -/
structure Store where
  config : Config
  armedAt : Option Instant
  enforceSince : Option Instant
deriving DecidableEq

def Store.setArmedAt (store : Store) (now : Instant) : Store := { store with armedAt := some now }

def Store.setEnforceSince (store : Store) (since : Option Instant) : Store :=
  { store with enforceSince := since }

@[simp] theorem Store.setArmedAt_config (store : Store) (now : Instant) :
    (store.setArmedAt now).config = store.config := rfl

@[simp] theorem Store.setArmedAt_enforceSince (store : Store) (now : Instant) :
    (store.setArmedAt now).enforceSince = store.enforceSince := rfl

@[simp] theorem Store.setEnforceSince_config (store : Store) (since : Option Instant) :
    (store.setEnforceSince since).config = store.config := rfl

/-- `_enforce_since`. The epoch itself is read as no stamp. -/
def Store.readEnforceSince (store : Store) : Option Instant := store.enforceSince.filter (· ≠ 0)

/-- `_arm`: what the store holds after it, and the instant it answers. -/
def arm (store : Store) (now : Instant) (saves : Bool) : Store × Instant :=
  (if saves then store.setArmedAt now else store, now)

/-- The first lines of a pass: the stamp of the feature, written by the first pass to find none. -/
def readArmedAt (store read : Store) (now : Instant) (saves : Bool) : Store × Instant :=
  match read.armedAt with
  | none => arm store now saves
  | some armedAt => (store, armedAt)

/-- `_note_enforcement` on the values `read` that the configuration answers. -/
def noteEnforcement (store read : Store) (now : Instant) (saves : Bool) : Store × Option Instant :=
  let live := read.config.enforce && !read.config.dryRun
  match live, read.readEnforceSince with
  | true, none => if saves then (store.setEnforceSince (some now), some now) else (store, none)
  | false, some _ => (if saves then store.setEnforceSince none else store, none)
  | _, existing => (store, existing)

/-! ### Passes -/

/-- A pass under way, with the targets it has not come to yet. -/
structure Pass where
  id : ℕ
  started : Instant
  mayDelete : Bool
  cap : ℤ
  reaped : ℕ
  left : List Target

/-- The pass can still destroy something. -/
def Pass.Deleting (pass : Pass) : Prop :=
  pass.mayDelete = true ∧ pass.reaped < pass.cap ∧ pass.left ≠ []

instance (pass : Pass) : Decidable pass.Deleting := by unfold Pass.Deleting; infer_instance

inductive Event where
  | configure (now : Instant) (config : Config)
  | sweep (id : ℕ) (now : Instant) (read : Store) (armSaves noteSaves : Bool) (items : List Item)
  | reap (id : ℕ) (now : Instant) (refused : Bool)
  | finish (id : ℕ)

/-- `liveSince` is since when the feature has been enabled and the enforcement live in the
configuration, without a break. -/
structure State where
  store : Store
  clock : Instant
  liveSince : Option Instant
  passes : Table Pass.id

/-- The feature is enabled and the enforcement live. -/
def Live (config : Config) : Prop :=
  config.enabled = true ∧ config.enforce = true ∧ config.dryRun = false

instance (config : Config) : Decidable (Live config) := by unfold Live; infer_instance

def State.start (config : Config) (now : Instant) : State where
  store := ⟨config, none, none⟩
  clock := now
  liveSince := if Live config then some now else none
  passes := .empty

section
variable (casefold : String → String)

/-- `sweep_once` up to the first target. -/
def sweepOnce (store read : Store) (id : ℕ) (now : Instant) (armSaves noteSaves : Bool)
    (items : List Item) : Store × Option Pass :=
  if !read.config.enabled then (store, none)
  else
    let arming := readArmedAt store read now armSaves
    let isArmed := armed (some arming.2) now
    let enforcement := noteEnforcement arming.1 read now noteSaves
    let mayDelete := isArmed && deletionActive read.config enforcement.2 now
    (enforcement.1, some {
      id
      started := now
      mayDelete
      cap := read.config.maxPerPass
      reaped := 0
      left := targets casefold read.config now (some arming.2) items })

/-- The next target of a pass. It is left alone when the pass may not delete, put off once the cap
is reached, and destroyed otherwise unless it refuses. -/
def Pass.next (pass : Pass) (refused : Bool) : Pass × Option Target :=
  match pass.left with
  | [] => (pass, none)
  | target :: rest =>
    if !pass.mayDelete then ({ pass with left := rest }, none)
    else if pass.cap ≤ pass.reaped then ({ pass with left := rest }, none)
    else if refused then ({ pass with left := rest }, none)
    else ({ pass with left := rest, reaped := pass.reaped + 1 }, some target)

theorem Pass.next_id (refused : Bool) (pass : Pass) : (pass.next refused).1.id = pass.id := by
  unfold Pass.next
  split
  · rfl
  split
  · rfl
  split
  · rfl
  split <;> rfl

def State.step (s : State) : Event → Option State
  | .configure now config =>
    if now < s.clock then none
    else some { s with
      store := { s.store with config }
      clock := now
      liveSince :=
        if ¬Live config then none
        else if Live s.store.config then s.liveSince
        else some now }
  | .sweep id now read armSaves noteSaves items =>
    if now < s.clock then none
    else match sweepOnce casefold s.store read id now armSaves noteSaves items with
      | (store, none) => some { s with store, clock := now }
      | (store, some pass) =>
        (s.passes.insert pass).map fun passes => { s with store, clock := now, passes }
  | .reap id now refused =>
    if now < s.clock then none
    else some { s with
      clock := now
      passes := s.passes.modify id (fun pass => (pass.next refused).1) (Pass.next_id refused) }
  | .finish id => some { s with passes := s.passes.erase id }

def armingSystem : Machine.System State Event where
  step := State.step casefold

end

/-- When the event enqueues a destroy, the instant it does. -/
def State.destroys (s : State) : Event → Option Instant
  | .reap id now refused =>
    match s.passes.lookup id with
    | some pass => (pass.next refused).2.map fun _ => now
    | none => none
  | _ => none

/-- Whatever is destroyed is destroyed when the feature has been enabled and the enforcement live
throughout the arming delay. -/
def DestroysArmed (s : State) (event : Event) : Prop :=
  ∀ now ∈ s.destroys event, ∃ since ∈ s.liveSince, since + Python.minutes armDelayMinutes ≤ now

instance (s : State) (event : Event) : Decidable (DestroysArmed s event) := by
  unfold DestroysArmed
  infer_instance

/-- A change that makes the enforcement live finds its stamp cleared, one that ends it finds no
pass that can still delete, and a pass reads the configuration as it stands. -/
def Restarts (s : State) : Event → Prop
  | .configure _ config =>
    (Live config → ¬Live s.store.config → s.store.enforceSince = none) ∧
      (¬Live config → Live s.store.config → ∀ pass ∈ s.passes.rows, ¬pass.Deleting)
  | .sweep _ _ read _ _ _ => read = s.store
  | .reap .. => True
  | .finish _ => True

instance (s : State) : (event : Event) → Decidable (Restarts s event)
  | .configure .. => by unfold Restarts; infer_instance
  | .sweep .. => by unfold Restarts; infer_instance
  | .reap .. => isTrue trivial
  | .finish _ => isTrue trivial

/-! ### What a pass decides on what it reads -/

theorem readArmedAt_spec (store read : Store) (now : Instant) (saves : Bool) :
    (readArmedAt store read now saves).1.config = store.config ∧
      (readArmedAt store read now saves).1.enforceSince = store.enforceSince := by
  unfold readArmedAt arm
  cases read.armedAt with
  | none => cases saves <;> exact ⟨rfl, rfl⟩
  | some armedAt => exact ⟨rfl, rfl⟩

theorem noteEnforcement_spec {store read : Store} (hread : read.enforceSince = store.enforceSince)
    (now : Instant) (saves : Bool) :
    (noteEnforcement store read now saves).1.config = store.config ∧
      (∀ stamp ∈ (noteEnforcement store read now saves).1.enforceSince,
        stamp ∈ store.enforceSince ∨ stamp = now) ∧
      ∀ stamp ∈ (noteEnforcement store read now saves).2, stamp ∈ store.enforceSince ∨ stamp = now := by
  have hexisting : ∀ stamp ∈ read.readEnforceSince, stamp ∈ store.enforceSince := by
    intro stamp hstamp
    rw [← hread]
    exact (Option.filter_eq_some_iff.mp hstamp).1
  unfold noteEnforcement
  extract_lets live
  split
  · cases saves with
    | true =>
      refine ⟨rfl, fun stamp hstamp => ?_, fun stamp hstamp => ?_⟩
      · exact .inr (Option.some.inj hstamp).symm
      · exact .inr (Option.some.inj hstamp).symm
    | false => exact ⟨rfl, fun stamp hstamp => .inl hstamp, fun stamp hstamp => by cases hstamp⟩
  · cases saves with
    | true =>
      refine ⟨rfl, fun stamp hstamp => ?_, fun stamp hstamp => ?_⟩
      · cases hstamp
      · cases hstamp
    | false => exact ⟨rfl, fun stamp hstamp => .inl hstamp, fun stamp hstamp => by cases hstamp⟩
  · exact ⟨rfl, fun stamp hstamp => .inl hstamp, fun stamp hstamp => .inl (hexisting stamp hstamp)⟩

section
variable {casefold : String → String}

/-- A pass on what the store holds. It keeps the configuration, stamps the enforcement with its own
instant only, and may delete on a stamp that is older by the delay. -/
theorem sweepOnce_spec {store after : Store} {id : ℕ} {now : Instant} {armSaves noteSaves : Bool}
    {items : List Item} {started : Option Pass}
    (h : sweepOnce casefold store store id now armSaves noteSaves items = (after, started)) :
    after.config = store.config ∧
      (∀ stamp ∈ after.enforceSince, stamp ∈ store.enforceSince ∨ stamp = now) ∧
      ∀ pass ∈ started, pass.mayDelete = true → Live store.config ∧
        ∃ stamp ∈ store.enforceSince, stamp + Python.minutes armDelayMinutes ≤ now := by
  unfold sweepOnce at h
  split at h
  · obtain ⟨rfl, rfl⟩ := Prod.mk.inj h
    exact ⟨rfl, fun stamp hstamp => .inl hstamp, fun pass hpass => by cases hpass⟩
  next henabled =>
    obtain ⟨hconfig, henforce⟩ := readArmedAt_spec store store now armSaves
    obtain ⟨hkept, hstamps, hsince⟩ := noteEnforcement_spec henforce.symm now noteSaves
    obtain ⟨rfl, rfl⟩ := Prod.mk.inj h
    refine ⟨hkept.trans hconfig, henforce ▸ hstamps, ?_⟩
    rintro pass hpass hmay
    obtain rfl := Option.some.inj hpass
    obtain ⟨henforced, hdry, stamp, hstamp, hdelay⟩ :=
      deletionActive_spec (Bool.and_eq_true_iff.mp hmay).2
    refine ⟨⟨by simpa using henabled, henforced, hdry⟩, stamp, ?_, hdelay⟩
    rcases hsince stamp hstamp with hold | rfl
    · exact henforce ▸ hold
    · -- a stamp just written is not older than the pass
      have hpos : 0 < Python.minutes armDelayMinutes := by decide
      exact absurd hdelay (not_le.mpr (Nat.lt_add_of_pos_right hpos))

/-- What is left for a pass to delete was left before it came to its next target. -/
theorem Pass.next_deleting {pass : Pass} {refused : Bool} (h : (pass.next refused).1.Deleting) :
    pass.Deleting := by
  obtain ⟨hmay, hcap, hleft⟩ := h
  cases hcons : pass.left with
  | nil =>
    simp only [Pass.next, hcons] at hleft
    exact absurd rfl hleft
  | cons target rest =>
    have hkept : (pass.next refused).1.mayDelete = pass.mayDelete ∧
        (pass.next refused).1.cap = pass.cap ∧ pass.reaped ≤ (pass.next refused).1.reaped := by
      simp only [Pass.next, hcons]
      split
      · simp
      split
      · simp
      split <;> simp
    obtain ⟨hmay', hcap', hreaped⟩ := hkept
    refine ⟨hmay' ▸ hmay, ?_, by simp [hcons]⟩
    rw [hcap'] at hcap
    omega

theorem Pass.deleting_of_next {pass : Pass} {refused : Bool} {target : Target}
    (h : (pass.next refused).2 = some target) : pass.Deleting := by
  unfold Pass.next at h
  split at h
  · cases h
  next hcons =>
    split at h
    · cases h
    next hdel =>
      split at h
      · cases h
      next hroom => exact ⟨by simpa using hdel, by omega, by simp [hcons]⟩

/-! ### The invariant -/

structure Inv (s : State) : Prop where
  live : Live s.store.config ↔ s.liveSince ≠ none
  clock : ∀ since ∈ s.liveSince, since ≤ s.clock
  stamp : ∀ since ∈ s.liveSince, ∀ stamp ∈ s.store.enforceSince, since ≤ stamp
  passes : ∀ pass ∈ s.passes.rows, pass.Deleting →
    ∃ since ∈ s.liveSince, since + Python.minutes armDelayMinutes ≤ s.clock

theorem start_inv (config : Config) (now : Instant) : Inv (.start config now) where
  live := by simp [State.start]
  clock := by
    intro since hsince
    simp only [State.start] at hsince
    split at hsince
    · exact (Option.some.inj hsince).ge
    · cases hsince
  stamp := by
    intro since hsince stamp hstamp
    cases hstamp
  passes := by
    intro pass hpass
    cases hpass

theorem configured_inv {s after : State} {now : Instant} {config : Config} (h : Inv s)
    (hrestarts : Restarts s (.configure now config))
    (hstep : s.step casefold (.configure now config) = some after) : Inv after := by
  obtain ⟨hcleared, hquiet⟩ := hrestarts
  simp only [State.step] at hstep
  split at hstep
  · cases hstep
  next hclock =>
    obtain rfl := Option.some.inj hstep
    by_cases hto : Live config
    · by_cases hfrom : Live s.store.config
      · refine ⟨?_, ?_, ?_, ?_⟩
        · simpa [hto, hfrom] using h.live.mp hfrom
        · intro since hsince
          simp only [hto, hfrom, not_true_eq_false, if_false, if_true] at hsince
          exact (h.clock since hsince).trans (not_lt.mp hclock)
        · intro since hsince
          simp only [hto, hfrom, not_true_eq_false, if_false, if_true] at hsince
          exact h.stamp since hsince
        · intro pass hpass hdel
          obtain ⟨since, hsince, hdelay⟩ := h.passes pass hpass hdel
          refine ⟨since, ?_, hdelay.trans (not_lt.mp hclock)⟩
          simpa only [hto, hfrom, not_true_eq_false, if_false, if_true] using hsince
      · have hstopped : s.liveSince = none := not_not.mp fun hne => hfrom (h.live.mpr hne)
        refine ⟨?_, ?_, ?_, ?_⟩
        · simp [hto, hfrom]
        · intro since hsince
          simp only [hto, hfrom, not_true_eq_false, if_false] at hsince
          exact (Option.some.inj hsince).ge
        · intro since _ stamp hstamp
          rw [Option.mem_def, hcleared hto hfrom] at hstamp
          cases hstamp
        · intro pass hpass hdel
          obtain ⟨since, hsince, -⟩ := h.passes pass hpass hdel
          rw [hstopped] at hsince
          cases hsince
    · refine ⟨?_, ?_, ?_, ?_⟩
      · simp [hto]
      · intro since hsince
        simp only [hto, not_false_eq_true, if_true] at hsince
        cases hsince
      · intro since hsince
        simp only [hto, not_false_eq_true, if_true] at hsince
        cases hsince
      · intro pass hpass hdel
        obtain ⟨since, hsince, -⟩ := h.passes pass hpass hdel
        have hfrom : Live s.store.config := h.live.mpr fun hnone => by rw [hnone] at hsince; cases hsince
        exact absurd hdel (hquiet hto hfrom pass hpass)

theorem step_inv {s after : State} {event : Event} (h : Inv s) (hrestarts : Restarts s event)
    (hstep : s.step casefold event = some after) : Inv after := by
  cases event with
  | configure now config => exact configured_inv h hrestarts hstep
  | sweep id now read armSaves noteSaves items =>
    obtain rfl : read = s.store := hrestarts
    simp only [State.step] at hstep
    split at hstep
    · cases hstep
    next hclock =>
      have hclock := not_lt.mp hclock
      have hstamps : ∀ {stamped : Store}, (∀ stamp ∈ stamped.enforceSince,
          stamp ∈ s.store.enforceSince ∨ stamp = now) →
          ∀ since ∈ s.liveSince, ∀ stamp ∈ stamped.enforceSince, since ≤ stamp := by
        intro stamped hspec since hsince stamp hstamp
        rcases hspec stamp hstamp with hold | rfl
        · exact h.stamp since hsince stamp hold
        · exact (h.clock since hsince).trans hclock
      have hlater : ∀ pass ∈ s.passes.rows, pass.Deleting →
          ∃ since ∈ s.liveSince, since + Python.minutes armDelayMinutes ≤ now := by
        intro pass hpass hdel
        obtain ⟨since, hsince, hdelay⟩ := h.passes pass hpass hdel
        exact ⟨since, hsince, hdelay.trans hclock⟩
      split at hstep
      next stamped hsweep =>
        obtain ⟨hconfig, hspec, -⟩ := sweepOnce_spec hsweep
        obtain rfl := Option.some.inj hstep
        exact ⟨hconfig ▸ h.live, fun since hsince => (h.clock since hsince).trans hclock,
          hstamps hspec, hlater⟩
      next stamped pass hsweep =>
        obtain ⟨hconfig, hspec, hmay⟩ := sweepOnce_spec hsweep
        obtain ⟨passes, hins, rfl⟩ := Option.map_eq_some_iff.mp hstep
        refine ⟨hconfig ▸ h.live, fun since hsince => (h.clock since hsince).trans hclock,
          hstamps hspec, fun pass' hpass' hdel => ?_⟩
        rcases (Table.mem_insert hins).mp hpass' with hold | rfl
        · exact hlater pass' hold hdel
        · obtain ⟨hlive, stamp, hstamp, hdelay⟩ := hmay _ rfl hdel.1
          obtain ⟨since, hsince⟩ := Option.ne_none_iff_exists'.mp (h.live.mp hlive)
          refine ⟨since, hsince, ?_⟩
          exact (Nat.add_le_add_right (h.stamp since hsince stamp hstamp) _).trans hdelay
  | reap id now refused =>
    simp only [State.step] at hstep
    split at hstep
    · cases hstep
    next hclock =>
      obtain rfl := Option.some.inj hstep
      have hclock := not_lt.mp hclock
      refine ⟨h.live, fun since hsince => (h.clock since hsince).trans hclock, h.stamp,
        fun pass (hpass : pass ∈ (s.passes.modify id _ (Pass.next_id refused)).rows) hdel => ?_⟩
      have hwas : ∃ old ∈ s.passes.rows, old.Deleting := by
        rcases Table.mem_modify.mp hpass with ⟨old, hold, -, rfl⟩ | ⟨hold, -⟩
        · exact ⟨old, hold, Pass.next_deleting hdel⟩
        · exact ⟨pass, hold, hdel⟩
      obtain ⟨old, hold, hdel⟩ := hwas
      obtain ⟨since, hsince, hdelay⟩ := h.passes old hold hdel
      exact ⟨since, hsince, hdelay.trans hclock⟩
  | finish id =>
    obtain rfl := Option.some.inj hstep
    exact ⟨h.live, h.clock, h.stamp, fun pass hpass => h.passes pass (Table.mem_erase.mp hpass).1⟩

/-- A destroy comes out of a pass that could still delete, and the clock has moved on since. -/
theorem destroysArmed_of_inv {s after : State} {event : Event} (h : Inv s)
    (hstep : s.step casefold event = some after) : DestroysArmed s event := by
  intro now hnow
  cases event with
  | reap id clock refused =>
    simp only [State.step] at hstep
    split at hstep
    · cases hstep
    next hclock =>
      simp only [State.destroys] at hnow
      split at hnow
      next pass hpass =>
        obtain ⟨target, htarget, rfl⟩ := Option.map_eq_some_iff.mp hnow
        obtain ⟨since, hsince, hdelay⟩ := h.passes pass (Table.lookup_eq_some.mp hpass).1
          (Pass.deleting_of_next htarget)
        exact ⟨since, hsince, hdelay.trans (not_lt.mp hclock)⟩
      next => cases hnow
  | configure now config => cases hnow
  | sweep id now read armSaves noteSaves items => cases hnow
  | finish id => cases hnow

/-- From any configuration without stamps, in every interleaving of changes and passes in which the
enforcement never comes live on an old stamp, nothing is destroyed before it has been live
throughout the delay. -/
theorem destroys_armed (config : Config) (now : Instant) {events : List Event}
    (h : (armingSystem casefold).Along Restarts (.start config now) events) :
    (armingSystem casefold).Along DestroysArmed (.start config now) events :=
  (armingSystem casefold).along_of_along
    (fun _ _ _ hinv hrestarts hstep => ⟨step_inv hinv hrestarts hstep,
      destroysArmed_of_inv hinv hstep⟩) (start_inv config now) h

end

/- The enforcement is live for an hour and a half and then destroys a machine. -/
def liveConfig : Config := ⟨true, true, false, 30, 10, []⟩

def sampleVm : Item where
  id := "job:17"
  kind := .vm
  cloud := "aws"
  source := "provisioned"
  workgroup := ""
  state := "active"
  expiresAt := some (Python.minutes 5)
  name := "web-1"
  region := "eu-west-1"
  jobId := some "17"

def fresh : State := .start ⟨false, false, true, 30, 10, []⟩ 0

def steadyRun : List Event :=
  [.configure (Python.minutes 10) liveConfig,
   .sweep 1 (Python.minutes 20) ⟨liveConfig, none, none⟩ true true [sampleVm], .finish 1,
   .sweep 2 (Python.minutes 90)
     ⟨liveConfig, some (Python.minutes 20), some (Python.minutes 20)⟩ true true [sampleVm],
   .reap 2 (Python.minutes 90) false, .finish 2]

theorem steadyRun_armed : (armingSystem id).Along DestroysArmed fresh steadyRun :=
  destroys_armed _ _ (by decide +kernel)

/- The same with the feature off from minute 30 to minute 80. A pass in between returns before it
looks at the stamps. -/
def flippedRun : List Event :=
  [.configure (Python.minutes 10) liveConfig,
   .sweep 1 (Python.minutes 20) ⟨liveConfig, none, none⟩ true true [sampleVm], .finish 1,
   .configure (Python.minutes 30) { liveConfig with enabled := false },
   .sweep 2 (Python.minutes 50)
     ⟨{ liveConfig with enabled := false }, some (Python.minutes 20), some (Python.minutes 20)⟩
     true true [sampleVm],
   .configure (Python.minutes 80) liveConfig,
   .sweep 3 (Python.minutes 90)
     ⟨liveConfig, some (Python.minutes 20), some (Python.minutes 20)⟩ true true [sampleVm],
   .reap 3 (Python.minutes 90) false]

theorem destroyed_after_flip : ¬(armingSystem id).Along DestroysArmed fresh flippedRun := by
  decide +kernel

end Expiry.Arming
