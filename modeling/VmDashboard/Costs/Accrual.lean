import Mathlib.Algebra.Order.BigOperators.Group.List
import VmDashboard.Python.Clock
import VmDashboard.Python.Round

/-!
# The accrued spend of a VM

`accrue` of `services/spend_policy.py` and the sweeps of `services/spend_sweeper.py` that call it,
in exact rationals. The total is rounded to four decimals after every sweep.
-/

namespace Costs
open Python (Instant)

/-- `MAX_ACCRUAL_HOURS`. -/
def maxAccrualHours : ℚ := 24

/-- The new total, the new instant of accrual and what was added. -/
def accrue (previousUsd : Option ℚ) (accruedAt : Option Instant) (rateUsdPerHour : Option ℚ)
    (now : Instant) : ℚ × Instant × ℚ :=
  let total := previousUsd.getD 0
  match accruedAt with
  | none => (total, now, 0)
  | some since =>
    match rateUsdPerHour with
    | none => (total, now, 0)
    | some rate =>
      let hours := (now - since : ℚ) / Python.minutes 60
      if hours ≤ 0 then (total, since, 0)
      else
        let hours := min hours maxAccrualHours
        let added := max 0 rate * hours
        (Python.roundTo 4 (total + added), now, added)

/-- The columns of a VM's job that a sweep writes. -/
structure Meter where
  spendEstimateUsd : Option ℚ
  spendAccruedAt : Option Instant
deriving DecidableEq

def Meter.spent (row : Meter) : ℚ := row.spendEstimateUsd.getD 0

/-- What `run` does to a row at the rate it finds. -/
def Meter.sweep (rate : Option ℚ) (row : Meter) (now : Instant) : Meter :=
  let (total, accruedAt, _) := accrue row.spendEstimateUsd row.spendAccruedAt rate now
  ⟨some total, some accruedAt⟩

/-- Sweeps that come one after another, each so much later than the one before. -/
def Meter.sweeps (rate : ℚ) : Meter → Instant → List ℕ → Meter
  | row, _, [] => row
  | row, since, gap :: gaps => (row.sweep (some rate) (since + gap)).sweeps rate (since + gap) gaps

/-- A total of so many units of the last decimal, accrued up to an instant. -/
def metered (units : ℤ) (since : Instant) : Meter := ⟨some (units / 10 ^ 4), some since⟩

/-- What the rate charges, in units of the last decimal, over a microsecond. -/
def perMicrosecond (rate : ℚ) : ℚ := rate * 10 ^ 4 / Python.minutes 60

/-- The longest step that is charged in full, in microseconds. -/
def accrualLimit : ℕ := Python.minutes (24 * 60)

/-- What the sweeps of a VM at a constant rate are to do. -/
structure Accrues (rate : ℚ) (interval : ℕ) : Prop where
  additive : ∀ (units : ℕ) (since : Instant) (gaps : List ℕ), gaps ≠ [] → (∀ gap ∈ gaps, 0 < gap) →
    gaps.sum ≤ accrualLimit →
    |((metered units since).sweeps rate since gaps).spent -
      ((metered units since).sweeps rate since [gaps.sum]).spent| ≤ 1 / 10 ^ 4
  monotone : ∀ (units : ℕ) (since : Instant) (gaps : List ℕ) (gap : ℕ),
    ((metered units since).sweeps rate since gaps).spent ≤
      ((metered units since).sweeps rate since (gaps ++ [gap])).spent
  reaches : ∀ (units : ℕ) (since : Instant) (cap : ℚ), ∃ n,
    cap ≤ ((metered units since).sweeps rate since (List.replicate n interval)).spent

/-- The fractions of a unit charged per microsecond stay small over the longest step, and a regular
sweep charges more than half a unit. -/
def Visible (rate : ℚ) (interval : ℕ) : Prop :=
  |perMicrosecond rate - Python.roundHalfEven (perMicrosecond rate)| * accrualLimit < 3 / 2 ∧
    1 / 2 < perMicrosecond rate * (min interval accrualLimit : ℕ)

instance (rate : ℚ) (interval : ℕ) : Decidable (Visible rate interval) := by
  unfold Visible
  infer_instance

/-! ### Sweeps in units -/

variable {rate : ℚ}

theorem sweep_metered (hrate : 0 ≤ rate) (units : ℤ) (since : Instant) (gap : ℕ) :
    (metered units since).sweep (some rate) (since + gap) =
      metered (Python.roundHalfEven (units + perMicrosecond rate * (min gap accrualLimit : ℕ)))
        (since + gap) := by
  have hhour : (0 : ℚ) < Python.minutes 60 := by norm_num [Python.minutes, Python.seconds]
  have hhours : (((since + gap : ℕ) : ℚ) - since) / Python.minutes 60 = gap / Python.minutes 60 := by
    push_cast
    rw [add_sub_cancel_left]
  unfold Meter.sweep metered accrue
  dsimp only [Option.getD_some]
  rw [hhours]
  rcases Nat.eq_zero_or_pos gap with rfl | hgap
  · have hsame : Python.roundHalfEven (units + perMicrosecond rate * (min 0 accrualLimit : ℕ)) = units :=
      Python.roundHalfEven_eq (by simp)
    rw [if_pos (by simp), hsame]
    rfl
  · have hpos : (0 : ℚ) < gap / Python.minutes 60 := div_pos (Nat.cast_pos.mpr hgap) hhour
    have hlimit : min ((gap : ℚ) / Python.minutes 60) maxAccrualHours =
        (min gap accrualLimit : ℕ) / Python.minutes 60 := by
      have hday : maxAccrualHours = (accrualLimit : ℚ) / Python.minutes 60 := by
        norm_num [maxAccrualHours, accrualLimit, Python.minutes, Python.seconds]
      rw [hday, Nat.cast_min, min_div_div_right hhour.le]
    have hcharge : (units / 10 ^ 4 + rate * ((min gap accrualLimit : ℕ) / Python.minutes 60)) * 10 ^ 4 =
        units + perMicrosecond rate * (min gap accrualLimit : ℕ) := by
      unfold perMicrosecond
      ring
    rw [if_neg (not_le.mpr hpos), max_eq_right hrate, hlimit]
    dsimp only
    rw [Python.roundTo, hcharge]

theorem sweeps_metered (hrate : 0 ≤ rate) (units : ℤ) (since : Instant) (gaps : List ℕ) :
    (metered units since).sweeps rate since gaps =
      metered (Python.tally (perMicrosecond rate) units (gaps.map (min · accrualLimit)))
        (since + gaps.sum) := by
  induction gaps generalizing units since with
  | nil => rfl
  | cons gap gaps ih =>
    rw [Meter.sweeps, sweep_metered hrate, ih, List.map_cons, Python.tally_cons, List.sum_cons,
      Nat.add_assoc]

theorem spent_metered (units : ℤ) (since : Instant) : (metered units since).spent = units / 10 ^ 4 := rfl

theorem spent_sweeps (hrate : 0 ≤ rate) (units : ℤ) (since : Instant) (gaps : List ℕ) :
    ((metered units since).sweeps rate since gaps).spent =
      Python.tally (perMicrosecond rate) units (gaps.map (min · accrualLimit)) / 10 ^ 4 := by
  rw [sweeps_metered hrate, spent_metered]

theorem perMicrosecond_nonneg (hrate : 0 ≤ rate) : 0 ≤ perMicrosecond rate :=
  div_nonneg (mul_nonneg hrate (by norm_num)) (Nat.cast_nonneg _)

/-! ### What the sweeps keep -/

/-- Nothing is cut off a gap within the limit. -/
theorem map_min_of_sum_le {gaps : List ℕ} (h : gaps.sum ≤ accrualLimit) :
    gaps.map (min · accrualLimit) = gaps := by
  refine (List.map_congr_left fun gap hgap => ?_).trans (List.map_id gaps)
  exact min_eq_left ((List.single_le_sum (fun _ _ => Nat.zero_le _) gap hgap).trans h)

theorem abs_spent_sub (m n : ℤ) : |(m : ℚ) / 10 ^ 4 - n / 10 ^ 4| = ((|m - n| : ℤ) : ℚ) / 10 ^ 4 := by
  rw [← sub_div, abs_div, abs_of_pos (by norm_num : (0 : ℚ) < 10 ^ 4), Int.cast_abs, Int.cast_sub]

theorem additive_of_small (hrate : 0 ≤ rate)
    (hsmall : |perMicrosecond rate - Python.roundHalfEven (perMicrosecond rate)| * accrualLimit < 3 / 2)
    (units : ℤ) (since : Instant) {gaps : List ℕ} (hsum : gaps.sum ≤ accrualLimit) :
    |((metered units since).sweeps rate since gaps).spent -
      ((metered units since).sweeps rate since [gaps.sum]).spent| ≤ 1 / 10 ^ 4 := by
  have hwhole : [gaps.sum].sum ≤ accrualLimit := by rwa [List.sum_singleton]
  have hdrift := Python.tally_drift (Python.roundHalfEven (perMicrosecond rate)) units gaps
    ((mul_le_mul_of_nonneg_left (Nat.cast_le.mpr hsum) (abs_nonneg _)).trans_lt hsmall)
  rw [spent_sweeps hrate, spent_sweeps hrate, map_min_of_sum_le hsum, map_min_of_sum_le hwhole,
    abs_spent_sub]
  refine div_le_div_of_nonneg_right ?_ (by norm_num)
  rw [← Int.cast_one (R := ℚ), Int.cast_le]
  exact hdrift

theorem spent_le_of_append (hrate : 0 ≤ rate) (units : ℤ) (since : Instant) (gaps : List ℕ) (gap : ℕ) :
    ((metered units since).sweeps rate since gaps).spent ≤
      ((metered units since).sweeps rate since (gaps ++ [gap])).spent := by
  rw [spent_sweeps hrate, spent_sweeps hrate, List.map_append, Python.tally, Python.tally,
    List.foldl_append]
  refine div_le_div_of_nonneg_right (Int.cast_le.mpr ?_) (by norm_num)
  exact Python.le_roundHalfEven_add (mul_nonneg (perMicrosecond_nonneg hrate) (Nat.cast_nonneg _))

/-- Every regular sweep adds a unit, when it charges more than half of one. -/
theorem reaches_of_charge (hrate : 0 ≤ rate) {interval : ℕ}
    (hcharge : 1 / 2 < perMicrosecond rate * (min interval accrualLimit : ℕ)) (units : ℕ)
    (since : Instant) (cap : ℚ) :
    ∃ n, cap ≤ ((metered units since).sweeps rate since (List.replicate n interval)).spent := by
  refine ⟨⌈cap * 10 ^ 4⌉₊, ?_⟩
  rw [spent_sweeps hrate, List.map_replicate, le_div_iff₀ (by norm_num)]
  have hgrown := Python.tally_replicate_ge hcharge units ⌈cap * 10 ^ 4⌉₊
  have hceil := Nat.le_ceil (cap * 10 ^ 4)
  have hcast : ((units : ℤ) : ℚ) + ⌈cap * 10 ^ 4⌉₊ ≤ Python.tally (perMicrosecond rate) units
      (List.replicate ⌈cap * 10 ^ 4⌉₊ (min interval accrualLimit)) := by exact_mod_cast hgrown
  have hunits : (0 : ℚ) ≤ ((units : ℤ) : ℚ) := by positivity
  linarith

theorem not_reaches_of_charge (hrate : 0 ≤ rate) {interval : ℕ}
    (hcharge : perMicrosecond rate * (min interval accrualLimit : ℕ) ≤ 1 / 2) (n : ℕ) :
    ((metered 0 0).sweeps rate 0 (List.replicate n interval)).spent = 0 := by
  have hzero := Python.tally_replicate_zero
    (mul_nonneg (perMicrosecond_nonneg hrate) (Nat.cast_nonneg _)) hcharge n
  rw [spent_sweeps hrate, List.map_replicate, hzero]
  norm_num

/-- At a positive rate the sweeps do what they are to do exactly when what they charge is visible. -/
theorem accrues_iff {interval : ℕ} (hrate : 0 < rate) :
    Accrues rate interval ↔ Visible rate interval := by
  constructor
  · intro h
    refine ⟨?_, ?_⟩
    · by_contra hlarge
      obtain ⟨units, count, hpos, hlimit, hdrift⟩ := Python.exists_drift (not_lt.mp hlarge)
      have hsum : (List.replicate count 1).sum = count := by simp
      have hadditive := h.additive units 0 (List.replicate count 1)
        (by simpa using hpos.ne') (fun gap hgap => by simp_all) (hsum.trans_le hlimit)
      have hwhole : [count].sum ≤ accrualLimit := by rwa [List.sum_singleton]
      rw [spent_sweeps hrate.le, spent_sweeps hrate.le, hsum, map_min_of_sum_le (hsum.trans_le hlimit),
        map_min_of_sum_le hwhole, abs_spent_sub, div_le_div_iff_of_pos_right (by norm_num)] at hadditive
      have hone : |Python.tally (perMicrosecond rate) units (List.replicate count 1) -
          Python.tally (perMicrosecond rate) units [count]| ≤ 1 := by exact_mod_cast hadditive
      rw [Python.tally_cons] at hone
      exact absurd (hdrift.trans hone) (by decide)
    · by_contra hcharge
      obtain ⟨n, hn⟩ := h.reaches 0 0 1
      rw [Nat.cast_zero, not_reaches_of_charge hrate.le (not_lt.mp hcharge)] at hn
      norm_num at hn
  · rintro ⟨hsmall, hcharge⟩
    exact ⟨fun units since gaps _ _ hsum => additive_of_small hrate.le hsmall units since hsum,
      fun units since gaps gap => spent_le_of_append hrate.le units since gaps gap,
      reaches_of_charge hrate.le hcharge⟩

/-- A daily sweep at half a thousandth of a cent an hour. -/
theorem accrues_daily : Accrues (1 / 200000) accrualLimit :=
  (accrues_iff (by decide +kernel)).mpr (by decide +kernel)

/-- At a fiftieth of a cent an hour twelve sweeps in two hours add nothing, and one adds 0.0004. -/
theorem accrues_not_disk : ¬Accrues (1 / 5000) (Python.minutes 10) := fun h =>
  absurd (h.additive 0 0 (List.replicate 12 (Python.minutes 10)) (by decide) (by decide) (by decide))
    (by decide +kernel)

end Costs
