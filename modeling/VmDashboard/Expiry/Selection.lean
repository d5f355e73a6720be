import VmDashboard.Expiry.Ceiling

/-!
# Which targets a sweep destroys

The loop of `sweep_once` over its sorted targets. A pass destroys the first targets that accept, up
to its cap; over the passes, a target that stays due and accepts comes to the front.
-/

namespace Expiry.Selection
open Machine (Table)
open Python (Instant)

/-! ### One pass -/

/-- What the report of a pass says of a target. -/
inductive Verdict where
  | wouldDelete
  | deferred
  | failed (error : String)
  | destroyed (jobId : String)

/-- The loop over the targets. `_reap_one` answers with an error or with the destroy job. -/
def act (mayDelete : Bool) (cap : ℤ) (reapOne : Target → Except String String) :
    ℤ → List Target → List (Target × Verdict)
  | _, [] => []
  | reaped, t :: targets =>
    if !mayDelete then (t, .wouldDelete) :: act mayDelete cap reapOne reaped targets
    else if reaped ≥ cap then (t, .deferred) :: act mayDelete cap reapOne reaped targets
    else
      match reapOne t with
      | .error error => (t, .failed error) :: act mayDelete cap reapOne reaped targets
      | .ok jobId => (t, .destroyed jobId) :: act mayDelete cap reapOne (reaped + 1) targets

def destroyed : Target × Verdict → Option Target
  | (t, .destroyed _) => some t
  | _ => none

/-- An inventory item. A POV is there only because the dashboard created it. -/
structure Listed extends Item where
  provisioned : kind = .pov → source = "provisioned"

/-- A sweep: the configuration and the stamps it reads, and how each target answers. -/
structure Sweep where
  now : Instant
  config : Config
  armedAt : Option Instant
  enforceSince : Option Instant
  reapOne : Target → Except String String

def Sweep.mayDelete (sweep : Sweep) : Bool :=
  sweep.config.enabled && armed sweep.armedAt sweep.now &&
    deletionActive sweep.config sweep.enforceSince sweep.now

def Sweep.accepts (sweep : Sweep) (t : Target) : Bool := (sweep.reapOne t).isOk

section
variable (casefold : String → String)

def Sweep.due (sweep : Sweep) (item : Item) : Option Target :=
  reapTarget casefold sweep.config.exemptWorkgroups sweep.now sweep.config.graceMinutes sweep.armedAt
    item

/-- The targets of the sweep, the longest expired first. -/
def Sweep.targets (sweep : Sweep) (items : List Listed) : List Target :=
  if !sweep.config.enabled then []
  else Expiry.targets casefold sweep.config sweep.now sweep.armedAt (items.map Listed.toItem)

/-- `sweep_once`: its report. -/
def Sweep.report (sweep : Sweep) (items : List Listed) : List (Target × Verdict) :=
  act sweep.mayDelete sweep.config.maxPerPass sweep.reapOne 0 (sweep.targets casefold items)

/-- The targets that the sweep enqueues a destroy for. -/
def Sweep.enqueued (sweep : Sweep) (items : List Listed) : List Target :=
  (sweep.report casefold items).filterMap destroyed

/-- What the sweep may destroy: past its expiry by the grace, provisioned, idle and not exempt. -/
structure Sweep.Eligible (sweep : Sweep) (item : Item) : Prop where
  timed : ∃ expires, item.expiresAt = some expires ∧
    expires + Python.minutes sweep.config.graceMinutes.toNat ≤ sweep.now
  provisioned : item.source = "" ∨ item.source = "provisioned"
  idle : item.state ∈ reapableStates item.kind
  notExempt : casefold (Python.strip item.workgroup) = "" ∨
    casefold (Python.strip item.workgroup) ∉ sweep.config.exemptWorkgroups

end

/-! ### What a pass destroys -/

/-- The cap counts what is destroyed: a pass takes the first targets that accept. -/
theorem filterMap_act (cap : ℤ) (reapOne : Target → Except String String) (reaped : ℤ)
    (targets : List Target) : (act true cap reapOne reaped targets).filterMap destroyed =
      (targets.filter fun t => (reapOne t).isOk).take (cap - reaped).toNat := by
  induction targets generalizing reaped with
  | nil => rw [List.filter_nil, List.take_nil]; rfl
  | cons t targets ih =>
    unfold act
    rw [Bool.not_true, if_neg Bool.false_ne_true]
    by_cases hfull : reaped ≥ cap
    · have hzero : (cap - reaped).toNat = 0 := by omega
      rw [if_pos hfull, List.filterMap_cons_none rfl, ih, hzero, List.take_zero, List.take_zero]
    · rw [if_neg hfull]
      cases hreap : reapOne t with
      | error error =>
        have hrefused : ¬(reapOne t).isOk = true := by simp [hreap, Except.isOk, Except.toBool]
        rw [List.filter_cons_of_neg (p := fun t => (reapOne t).isOk) hrefused, ← ih]
        exact List.filterMap_cons_none rfl
      | ok jobId =>
        have hsucc : (cap - reaped).toNat = (cap - (reaped + 1)).toNat + 1 := by omega
        have haccepted : (reapOne t).isOk = true := by simp [hreap, Except.isOk, Except.toBool]
        rw [List.filter_cons_of_pos (p := fun t => (reapOne t).isOk) haccepted, hsucc, List.take_succ_cons, ← ih]
        exact List.filterMap_cons_some rfl

theorem filterMap_act_held (cap : ℤ) (reapOne : Target → Except String String) (reaped : ℤ)
    (targets : List Target) : (act false cap reapOne reaped targets).filterMap destroyed = [] := by
  induction targets with
  | nil => rfl
  | cons t targets ih => exact ih

theorem one_le_maxPerPass (config : Config) : 1 ≤ config.maxPerPass := Int.le_max_left 1 _

variable {casefold : String → String} {sweep : Sweep} {items : List Listed}

theorem enqueued_eq : sweep.enqueued casefold items =
    if sweep.mayDelete then
      ((sweep.targets casefold items).filter sweep.accepts).take sweep.config.maxPerPass.toNat
    else [] := by
  unfold Sweep.enqueued Sweep.report
  cases sweep.mayDelete with
  | false => exact filterMap_act_held _ _ _ _
  | true => rw [filterMap_act, if_pos rfl, Int.sub_zero]; rfl

theorem length_enqueued_le : ((sweep.enqueued casefold items).length : ℤ) ≤ sweep.config.maxPerPass := by
  have hone := one_le_maxPerPass sweep.config
  rw [enqueued_eq]
  split
  · rw [List.length_take]
    omega
  · rw [List.length_nil]
    omega

/-! ### The guards -/

theorem ttlCapable_source {item : Item} (h : (ttlCapable item).1 = true) :
    item.kind = .pov ∨ item.source = "" ∨ item.source = "provisioned" := by
  unfold ttlCapable at h
  extract_lets cloud source at h
  split at h
  · cases h
  split at h
  · cases h
  split at h
  next hpov => exact .inl hpov
  split at h
  · cases h
  next hsource =>
    refine .inr ?_
    by_cases hblank : item.source = ""
    · exact .inl hblank
    · refine .inr ?_
      have hkept : source = item.source := if_neg hblank
      rw [← hkept]
      exact not_not.mp hsource

/-- The guards of `reap_target`, and what the target says of the item. -/
theorem reapTarget_spec {exempt : List String} {now : Instant} {grace : ℤ} {armedAt : Option Instant}
    {item : Item} {t : Target} (h : reapTarget casefold exempt now grace armedAt item = some t) :
    (ttlCapable item).1 = true ∧ isExempt casefold exempt item = false ∧ stateIsIdle item = true ∧
      t.id = item.id ∧ ∃ expires, item.expiresAt = some expires ∧
        expires + Python.minutes (max reapGraceMinFloor grace).toNat ≤ now ∧
        t.overdue = (now - expires) / Python.seconds 1 := by
  unfold reapTarget at h
  split at h
  · cases h
  split at h
  · cases h
  next hcapable =>
  split at h
  · cases h
  next hexempt =>
  split at h
  · cases h
  next hidle =>
  simp only [Bool.not_eq_true', Bool.not_eq_false, Bool.not_eq_true] at hcapable hexempt hidle
  cases hexpires : item.expiresAt with
  | none =>
    rw [hexpires] at h
    cases h
  | some expires =>
    rw [hexpires] at h
    dsimp only at h
    split at h
    · cases h
    next hpast =>
      obtain rfl := Option.some.inj h
      refine ⟨hcapable, hexempt, hidle, rfl, expires, rfl, ?_, rfl⟩
      by_contra hearly
      refine hpast ?_
      have hnot : ¬(expires ≠ 0 ∧
          expires + Python.minutes (max reapGraceMinFloor grace).toNat ≤ now) := fun hpast' =>
        hearly hpast'.2
      simp only [expired, List.filterMap_cons, if_neg hnot, List.filterMap_nil, List.filter_nil]

theorem mem_targets {t : Target} (h : t ∈ sweep.targets casefold items) :
    ∃ item ∈ items, sweep.due casefold item.toItem = some t := by
  unfold Sweep.targets at h
  split at h
  · cases h
  unfold Expiry.targets at h
  rw [List.mem_insertionSort] at h
  obtain ⟨item, hitem, hdue⟩ := List.mem_filterMap.mp h
  obtain ⟨listed, hlisted, rfl⟩ := List.mem_map.mp hitem
  exact ⟨listed, hlisted, hdue⟩

theorem targets_of_due {item : Listed} {t : Target} (henabled : sweep.config.enabled = true)
    (hitem : item ∈ items) (hdue : sweep.due casefold item.toItem = some t) :
    t ∈ sweep.targets casefold items := by
  unfold Sweep.targets
  rw [henabled, Bool.not_true, if_neg Bool.false_ne_true, Expiry.targets, List.mem_insertionSort]
  exact List.mem_filterMap.mpr ⟨item.toItem, List.mem_map_of_mem hitem, hdue⟩

theorem due_eligible {item : Listed} {t : Target} (h : sweep.due casefold item.toItem = some t) :
    sweep.Eligible casefold item.toItem := by
  obtain ⟨hcapable, hexempt, hidle, -, expires, hexpires, hpast, -⟩ := reapTarget_spec h
  have hgrace : max reapGraceMinFloor sweep.config.graceMinutes = sweep.config.graceMinutes :=
    max_eq_right (le_max_left _ _)
  rw [hgrace] at hpast
  refine ⟨⟨expires, hexpires, hpast⟩, ?_, of_decide_eq_true hidle, ?_⟩
  · rcases ttlCapable_source hcapable with hpov | hsource
    · exact .inr (item.provisioned hpov)
    · exact hsource
  · unfold isExempt at hexempt
    simp only [Bool.and_eq_false_iff, bne_eq_false_iff_eq, decide_eq_false_iff_not] at hexempt
    exact hexempt

theorem mem_enqueued {t : Target} (h : t ∈ sweep.enqueued casefold items) :
    t ∈ sweep.targets casefold items ∧ sweep.accepts t = true := by
  rw [enqueued_eq] at h
  split at h
  · exact List.mem_filter.mp (List.mem_of_mem_take h)
  · cases h

/-- What a sweep does with any items. -/
structure Sweep.Selects (casefold : String → String) (sweep : Sweep) (items : List Listed) : Prop where
  sound : ∀ t ∈ sweep.enqueued casefold items,
    ∃ item ∈ items, t.id = item.id ∧ sweep.Eligible casefold item.toItem
  capped : ((sweep.enqueued casefold items).length : ℤ) ≤ sweep.config.maxPerPass
  accepted : sweep.mayDelete = true → sweep.enqueued casefold items =
    ((sweep.targets casefold items).filter sweep.accepts).take sweep.config.maxPerPass.toNat

theorem sweep_selects (casefold : String → String) (sweep : Sweep) (items : List Listed) :
    sweep.Selects casefold items where
  sound := by
    intro t ht
    obtain ⟨item, hitem, hdue⟩ := mem_targets (mem_enqueued ht).1
    exact ⟨item, hitem, (reapTarget_spec hdue).2.2.2.1, due_eligible hdue⟩
  capped := length_enqueued_le
  accepted := by
    intro hmay
    rw [enqueued_eq, if_pos hmay]

end Expiry.Selection
