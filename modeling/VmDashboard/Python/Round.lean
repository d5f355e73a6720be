import Mathlib.Algebra.Order.Floor.Ring
import Mathlib.Data.Rat.Floor
import Mathlib.Algebra.Order.Ring.Rat
import Mathlib.Tactic.Linarith
import Mathlib.Tactic.Ring

/-!
# Rounding to the nearest, ties to even

`round` on exact rationals, and what is left of a running total that is rounded after every addend:
against one addition of the whole it is off by as many units as the addends lose or gain on their
way, which is bounded only while the whole stays small.
-/

namespace Python

/-- `round(x)`. -/
def roundHalfEven (x : ℚ) : ℤ :=
  if x - ⌊x⌋ < 1 / 2 then ⌊x⌋
  else if 1 / 2 < x - ⌊x⌋ then ⌊x⌋ + 1
  else if ⌊x⌋ % 2 = 0 then ⌊x⌋
  else ⌊x⌋ + 1

/-- `round(x, digits)`. -/
def roundTo (digits : ℕ) (x : ℚ) : ℚ := roundHalfEven (x * 10 ^ digits) / 10 ^ digits

theorem roundHalfEven_near (x : ℚ) : |(roundHalfEven x : ℚ) - x| ≤ 1 / 2 := by
  have hfloor := Int.floor_le x
  have hlt := Int.lt_floor_add_one x
  rw [abs_le]
  unfold roundHalfEven
  split_ifs <;> push_cast <;> constructor <;> linarith

theorem sub_half_le (x : ℚ) : x - 1 / 2 ≤ roundHalfEven x := by
  have h := (abs_le.mp (roundHalfEven_near x)).1
  linarith

theorem le_add_half (x : ℚ) : roundHalfEven x ≤ x + 1 / 2 := by
  have h := (abs_le.mp (roundHalfEven_near x)).2
  linarith

/-- Two integers less than one apart are equal. -/
theorem int_eq_of_abs {m n : ℤ} (h : |(m : ℚ) - n| < 1) : m = n := by
  rw [← Int.cast_sub, ← Int.cast_abs, ← Int.cast_one, Int.cast_lt, Int.abs_lt_one_iff] at h
  exact sub_eq_zero.mp h

theorem roundHalfEven_eq {x : ℚ} {n : ℤ} (h : |x - n| < 1 / 2) : roundHalfEven x = n := by
  refine int_eq_of_abs ?_
  have hnear := roundHalfEven_near x
  calc |(roundHalfEven x : ℚ) - n| = |(roundHalfEven x - x) + (x - n)| := by rw [sub_add_sub_cancel]
    _ ≤ |(roundHalfEven x : ℚ) - x| + |x - n| := abs_add_le _ _
    _ < 1 := by linarith

/-- A tie goes to the even side. -/
theorem roundHalfEven_even {x : ℚ} (h : |(roundHalfEven x : ℚ) - x| = 1 / 2) :
    roundHalfEven x % 2 = 0 := by
  have hfloor := Int.floor_le x
  have hlt := Int.lt_floor_add_one x
  unfold roundHalfEven at h ⊢
  split_ifs at h ⊢ with hlow hhigh heven
  · rw [abs_sub_comm, abs_of_nonneg (by linarith)] at h
    linarith
  · push_cast at h
    rw [abs_of_nonneg (by linarith)] at h
    linarith
  · exact heven
  · omega

/-- The nearest even integer, at most a half away. -/
theorem roundHalfEven_eq_even {x : ℚ} {n : ℤ} (heven : n % 2 = 0) (h : |x - n| ≤ 1 / 2) :
    roundHalfEven x = n := by
  rcases h.lt_or_eq with hlt | htie
  · exact roundHalfEven_eq hlt
  · have hnear := roundHalfEven_near x
    rcases hnear.lt_or_eq with hnear | hother
    · refine int_eq_of_abs ?_
      calc |(roundHalfEven x : ℚ) - n| = |(roundHalfEven x - x) + (x - n)| := by
            rw [sub_add_sub_cancel]
        _ ≤ |(roundHalfEven x : ℚ) - x| + |x - n| := abs_add_le _ _
        _ < 1 := by linarith
    · have hround := roundHalfEven_even hother
      have hone : |(roundHalfEven x : ℚ) - n| ≤ 1 := by
        calc |(roundHalfEven x : ℚ) - n| = |(roundHalfEven x - x) + (x - n)| := by
              rw [sub_add_sub_cancel]
          _ ≤ |(roundHalfEven x : ℚ) - x| + |x - n| := abs_add_le _ _
          _ = 1 := by linarith
      rw [← Int.cast_sub, ← Int.cast_abs, ← Int.cast_one, Int.cast_le, abs_le] at hone
      omega

theorem roundHalfEven_neg (x : ℚ) : roundHalfEven (-x) = -roundHalfEven x := by
  have hnear := roundHalfEven_near x
  have hflip : |-x - ((-roundHalfEven x : ℤ) : ℚ)| = |(roundHalfEven x : ℚ) - x| := by
    push_cast
    rw [neg_sub_neg]
  rcases hnear.lt_or_eq with hlt | htie
  · exact roundHalfEven_eq (hflip.trans_lt hlt)
  · have heven := roundHalfEven_even htie
    exact roundHalfEven_eq_even (by omega) (hflip.trans htie).le

/-! ### A running total, rounded after every addend -/

/-- The total after the lengths, each charged at the rate. -/
def tally (rate : ℚ) (total : ℤ) (lengths : List ℕ) : ℤ :=
  lengths.foldl (fun total (length : ℕ) => roundHalfEven (total + rate * length)) total

variable {rate : ℚ} {total : ℤ}

theorem tally_cons (length : ℕ) (lengths : List ℕ) : tally rate total (length :: lengths) =
    tally rate (roundHalfEven (total + rate * length)) lengths := rfl

theorem tally_neg (rate : ℚ) (total : ℤ) (lengths : List ℕ) :
    tally (-rate) (-total) lengths = -tally rate total lengths := by
  induction lengths generalizing total with
  | nil => rfl
  | cons length lengths ih =>
    have hflip : ((-total : ℤ) : ℚ) + -rate * length = -(total + rate * length) := by
      push_cast
      ring
    rw [tally_cons, tally_cons, hflip, roundHalfEven_neg, ih]

/-- Over a whole number of units per length, the addends gain at most twice what they should. -/
theorem tally_gain {unit : ℤ} (hunit : (unit : ℚ) ≤ rate) (total : ℤ) (lengths : List ℕ) :
    ∃ gain : ℤ, tally rate total lengths = total + unit * lengths.sum + gain ∧ 0 ≤ gain ∧
      (gain : ℚ) ≤ 2 * ((rate - unit) * lengths.sum) := by
  induction lengths generalizing total with
  | nil => exact ⟨0, by simp [tally], le_rfl, by simp⟩
  | cons length lengths ih =>
    obtain ⟨gain, htally, hnonneg, hle⟩ := ih (roundHalfEven (total + rate * length))
    obtain ⟨step, hstep⟩ : ∃ step : ℤ,
        roundHalfEven (total + rate * length) = total + unit * length + step :=
      ⟨_, (add_sub_cancel (total + unit * length) _).symm⟩
    have hlow := sub_half_le (total + rate * length)
    have hhigh := le_add_half (total + rate * length)
    rw [hstep] at hlow hhigh
    push_cast at hlow hhigh
    have hcharge : 0 ≤ (rate - unit) * length := mul_nonneg (by linarith) (Nat.cast_nonneg _)
    have hstep0 : 0 ≤ step := by
      have hlt : (-1 : ℚ) < step := by linarith
      have hlt' : -1 < step := by exact_mod_cast hlt
      omega
    have hstep2 : (step : ℚ) ≤ 2 * ((rate - unit) * length) := by
      rcases hstep0.eq_or_lt with hzero | hpos
      · rw [← hzero]
        push_cast
        linarith
      · have hone : (1 : ℚ) ≤ step := by exact_mod_cast hpos
        linarith
    refine ⟨step + gain, ?_, by omega, ?_⟩
    · rw [tally_cons, htally, hstep, List.sum_cons, Nat.cast_add]
      ring
    · rw [List.sum_cons, Nat.cast_add, Int.cast_add]
      linarith

/-- Small fractions of a unit per length: the addends and the whole differ by one unit at most. -/
theorem tally_drift_of_le {unit : ℤ} (hunit : (unit : ℚ) ≤ rate) (total : ℤ) {lengths : List ℕ}
    (hsmall : (rate - unit) * lengths.sum < 3 / 2) :
    |tally rate total lengths - roundHalfEven (total + rate * lengths.sum)| ≤ 1 := by
  obtain ⟨gain, htally, hnonneg, hle⟩ := tally_gain hunit total lengths
  generalize lengths.sum = length at hsmall htally hle ⊢
  obtain ⟨whole, hwhole⟩ : ∃ whole : ℤ,
      roundHalfEven (total + rate * length) = total + unit * length + whole :=
    ⟨_, (add_sub_cancel (total + unit * length) _).symm⟩
  have hlow := sub_half_le (total + rate * length)
  have hhigh := le_add_half (total + rate * length)
  rw [hwhole] at hlow hhigh
  push_cast at hlow hhigh
  have hcharge : 0 ≤ (rate - unit) * length := mul_nonneg (by linarith) (Nat.cast_nonneg _)
  have hgain : gain < 3 := by
    have hlt : (gain : ℚ) < 3 := by linarith
    exact_mod_cast hlt
  have hwhole0 : -1 < whole := by
    have hlt : (-1 : ℚ) < whole := by linarith
    exact_mod_cast hlt
  have hwhole2 : whole < 2 := by
    have hlt : (whole : ℚ) < 2 := by linarith
    exact_mod_cast hlt
  have htwo : gain = 2 → 1 ≤ whole := by
    rintro rfl
    have hlt : (0 : ℚ) < whole := by
      push_cast at hle
      linarith
    exact_mod_cast hlt
  rw [htally, hwhole, abs_le]
  omega

theorem tally_drift (unit total : ℤ) (lengths : List ℕ)
    (hsmall : |rate - unit| * lengths.sum < 3 / 2) :
    |tally rate total lengths - roundHalfEven (total + rate * lengths.sum)| ≤ 1 := by
  rcases le_total (unit : ℚ) rate with hle | hle
  · rw [abs_of_nonneg (sub_nonneg.mpr hle)] at hsmall
    exact tally_drift_of_le hle total hsmall
  · have hneg : ((-unit : ℤ) : ℚ) ≤ -rate := by
      push_cast
      linarith
    have hsmall' : (-rate - ((-unit : ℤ) : ℚ)) * lengths.sum < 3 / 2 := by
      rw [abs_of_nonpos (sub_nonpos.mpr hle)] at hsmall
      rw [Int.cast_neg]
      linarith
    have hdrift := tally_drift_of_le hneg (-total) hsmall'
    have hflip : ((-total : ℤ) : ℚ) + -rate * lengths.sum = -(total + rate * lengths.sum) := by
      rw [Int.cast_neg]
      ring
    rwa [tally_neg, hflip, roundHalfEven_neg, neg_sub_neg, abs_sub_comm] at hdrift

/-- Addends of one length each that are all rounded to the nearest whole charge. -/
theorem tally_replicate (count : ℕ)
    (hunit : ∀ j : ℕ, roundHalfEven (total + roundHalfEven rate * j + rate) =
      total + roundHalfEven rate * j + roundHalfEven rate) :
    tally rate total (List.replicate count 1) = total + roundHalfEven rate * count := by
  induction count generalizing total with
  | zero => simp [tally]
  | succ count ih =>
    have hone := hunit 0
    simp only [Nat.cast_zero, mul_zero, add_zero] at hone
    rw [List.replicate_succ, tally_cons, Nat.cast_one, mul_one, hone, ih]
    · push_cast
      ring
    · intro j
      have hnext := hunit (j + 1)
      push_cast at hnext ⊢
      rw [mul_add, mul_one] at hnext
      rw [add_assoc (total : ℚ), add_comm (roundHalfEven rate : ℚ), hnext]
      ring

theorem le_roundHalfEven_add {charge : ℚ} (h : 0 ≤ charge) : total ≤ roundHalfEven (total + charge) := by
  have hlow := sub_half_le (total + charge)
  have hlt : ((total - 1 : ℤ) : ℚ) < roundHalfEven (total + charge) := by
    push_cast
    linarith
  have hlt' := Int.cast_lt.mp hlt
  omega

theorem tally_replicate_ge {length : ℕ} (hcharge : 1 / 2 < rate * length) (total : ℤ) (count : ℕ) :
    total + count ≤ tally rate total (List.replicate count length) := by
  induction count generalizing total with
  | zero => simp [tally]
  | succ count ih =>
    have hlow := sub_half_le (total + rate * length)
    have hlt : (total : ℚ) < roundHalfEven (total + rate * length) := by linarith
    have hlt' := Int.cast_lt.mp hlt
    have hrest := ih (roundHalfEven (total + rate * length))
    rw [List.replicate_succ, tally_cons]
    push_cast
    omega

theorem tally_replicate_zero {length : ℕ} (hnonneg : 0 ≤ rate * length) (hcharge : rate * length ≤ 1 / 2)
    (count : ℕ) : tally rate 0 (List.replicate count length) = 0 := by
  induction count with
  | zero => rfl
  | succ count ih =>
    have hzero : roundHalfEven ((0 : ℤ) + rate * length) = 0 := by
      refine roundHalfEven_eq_even rfl ?_
      rw [Int.cast_zero, zero_add, sub_zero, abs_of_nonneg hnonneg]
      exact hcharge
    rw [List.replicate_succ, tally_cons, hzero, ih]

/-- Otherwise some total drifts by two units: one length at a time loses every fraction. -/
theorem exists_drift {limit : ℕ} (hlarge : 3 / 2 ≤ |rate - roundHalfEven rate| * limit) :
    ∃ (total count : ℕ), 0 < count ∧ count ≤ limit ∧
      2 ≤ |tally rate total (List.replicate count 1) - roundHalfEven ((total : ℤ) + rate * count)| := by
  have hnear := roundHalfEven_near rate
  set unit := roundHalfEven rate with hunit
  rw [abs_sub_comm] at hnear
  have hpos : 0 < |rate - unit| := by
    refine lt_of_le_of_ne (abs_nonneg _) fun hzero => ?_
    rw [← hzero, zero_mul] at hlarge
    linarith
  -- the fewest lengths whose fractions come to one unit and a half
  set count := ⌈3 / 2 / |rate - unit|⌉₊ with hcount
  have hlow : 3 / 2 ≤ |rate - unit| * count := by
    have h := Nat.le_ceil (3 / 2 / |rate - unit|)
    rwa [div_le_iff₀' hpos] at h
  have hhigh : |rate - unit| * count < 2 := by
    have h := Nat.ceil_lt_add_one (a := 3 / 2 / |rate - unit|) (by positivity)
    rw [← hcount] at h
    have hmul := mul_lt_mul_of_pos_left h hpos
    rw [mul_add, mul_div_cancel₀ _ hpos.ne', mul_one] at hmul
    linarith
  have hlimit : count ≤ limit := by
    refine Nat.ceil_le.mpr ?_
    rwa [div_le_iff₀' hpos]
  have hcountpos : 0 < count := Nat.ceil_pos.mpr (by positivity)
  set start := (unit * count % 2).toNat with hstart
  have hstartle : (start : ℤ) = unit * count % 2 := Int.toNat_of_nonneg (Int.emod_nonneg _ (by decide))
  have heven : (start + unit * count) % 2 = 0 := by omega
  refine ⟨start, count, hcountpos, hlimit, ?_⟩
  have hpieces : tally rate start (List.replicate count 1) = start + unit * count := by
    refine tally_replicate count fun j => ?_
    have hback : ((start : ℤ) : ℚ) + unit * j + rate - ((start + unit * j + unit : ℤ) : ℚ) =
        rate - unit := by
      push_cast
      ring
    rcases hnear.lt_or_eq with hlt | htie
    · exact roundHalfEven_eq (hback ▸ hlt)
    · have hunit2 : unit % 2 = 0 := roundHalfEven_even (by rw [abs_sub_comm]; exact htie)
      have hzero : (start : ℤ) = 0 := by
        rw [hstartle, Int.mul_emod, hunit2, zero_mul, Int.zero_emod]
      refine roundHalfEven_eq_even ?_ (hback ▸ htie.le)
      rw [hzero, Int.add_emod, Int.add_emod 0, Int.mul_emod, hunit2]
      simp
  rw [hpieces]
  rcases abs_cases (rate - unit) with ⟨habs, -⟩ | ⟨habs, -⟩
  · rw [habs] at hlow hhigh
    have hwhole : roundHalfEven ((start : ℤ) + rate * count) = start + unit * count + 2 := by
      refine roundHalfEven_eq_even (by omega) ?_
      rw [abs_le]
      push_cast
      constructor <;> linarith
    rw [hwhole, abs_sub_comm, add_sub_cancel_left]
    decide
  · rw [habs] at hlow hhigh
    have hwhole : roundHalfEven ((start : ℤ) + rate * count) = start + unit * count - 2 := by
      refine roundHalfEven_eq_even (by omega) ?_
      rw [abs_le]
      push_cast
      constructor <;> linarith
    rw [hwhole, sub_sub_cancel]
    decide

end Python
