import Mathlib.Data.List.Basic
import Mathlib.Tactic.NormNum

/-!
# `datetime.isoformat`

A naive datetime as its seven fields, and its ISO 8601 text. The text determines
the datetime and holds no line break.
-/

namespace Python

/-- The fields of a datetime and the bounds its text depends on. -/
structure DateTime where
  year : ℕ
  month : ℕ
  day : ℕ
  hour : ℕ
  minute : ℕ
  second : ℕ
  microsecond : ℕ
  year_le : year ≤ 9999
  month_le : month ≤ 12
  day_le : day ≤ 31
  hour_le : hour ≤ 23
  minute_le : minute ≤ 59
  second_le : second ≤ 59
  microsecond_le : microsecond ≤ 999999
  deriving DecidableEq

/-- The last `width` decimal digits, zero padded. -/
def padded : ℕ → ℕ → List Char
  | 0, _ => []
  | width + 1, n => padded width (n / 10) ++ [Nat.digitChar (n % 10)]

def DateTime.isoChars (d : DateTime) : List Char :=
  padded 4 d.year ++ '-' :: (padded 2 d.month ++ '-' :: (padded 2 d.day ++ 'T' ::
    (padded 2 d.hour ++ ':' :: (padded 2 d.minute ++ ':' :: (padded 2 d.second ++
      if d.microsecond = 0 then [] else '.' :: padded 6 d.microsecond)))))

def DateTime.isoformat (d : DateTime) : String := String.ofList d.isoChars

theorem padded_length (width n : ℕ) : (padded width n).length = width := by
  induction width generalizing n with
  | zero => rfl
  | succ width ih => simp [padded, ih]

theorem digitChar_injective {a b : ℕ} (ha : a < 10) (hb : b < 10)
    (h : Nat.digitChar a = Nat.digitChar b) : a = b := by
  have hall : ∀ a < 10, ∀ b < 10, Nat.digitChar a = Nat.digitChar b → a = b := by decide
  exact hall a ha b hb h

theorem padded_injective {width n m : ℕ} (hn : n < 10 ^ width) (hm : m < 10 ^ width)
    (h : padded width n = padded width m) : n = m := by
  induction width generalizing n m with
  | zero =>
    rw [pow_zero] at hn hm
    omega
  | succ width ih =>
    rw [pow_succ] at hn hm
    obtain ⟨hinit, hlast⟩ := List.append_inj' h rfl
    have hd : n / 10 = m / 10 := ih (by omega) (by omega) hinit
    have hr : n % 10 = m % 10 :=
      digitChar_injective (Nat.mod_lt n (by omega)) (Nat.mod_lt m (by omega)) (List.head_eq_of_cons_eq hlast)
    omega

theorem newline_notMem_padded (width n : ℕ) : '\n' ∉ padded width n := by
  induction width generalizing n with
  | zero => simp [padded]
  | succ width ih =>
    have hdigit : ∀ d < 10, '\n' ≠ Nat.digitChar d := by decide
    simp only [padded, List.mem_append, List.mem_singleton, not_or]
    exact ⟨ih _, hdigit _ (Nat.mod_lt n (by omega))⟩

/-- A padded field in front of a separator is read back. -/
theorem padded_append_inj {width n m : ℕ} {xs ys : List Char} {c : Char} (hn : n < 10 ^ width)
    (hm : m < 10 ^ width) (h : padded width n ++ c :: xs = padded width m ++ c :: ys) :
    n = m ∧ xs = ys := by
  have hlen : (padded width n).length = (padded width m).length := by
    rw [padded_length, padded_length]
  obtain ⟨hfield, hrest⟩ := List.append_inj h hlen
  exact ⟨padded_injective hn hm hfield, List.tail_eq_of_cons_eq hrest⟩

theorem DateTime.isoChars_injective {d e : DateTime} (h : d.isoChars = e.isoChars) : d = e := by
  have two : ∀ n, n ≤ 59 → n < 10 ^ 2 := by intro n hn; omega
  obtain ⟨hyear, h⟩ := padded_append_inj (by have := d.year_le; omega) (by have := e.year_le; omega) h
  obtain ⟨hmonth, h⟩ := padded_append_inj (two _ (d.month_le.trans (by omega)))
    (two _ (e.month_le.trans (by omega))) h
  obtain ⟨hday, h⟩ := padded_append_inj (two _ (d.day_le.trans (by omega)))
    (two _ (e.day_le.trans (by omega))) h
  obtain ⟨hhour, h⟩ := padded_append_inj (two _ (d.hour_le.trans (by omega)))
    (two _ (e.hour_le.trans (by omega))) h
  obtain ⟨hminute, h⟩ := padded_append_inj (two _ d.minute_le) (two _ e.minute_le) h
  have hlen : (padded 2 d.second).length = (padded 2 e.second).length := by
    rw [padded_length, padded_length]
  obtain ⟨hsec, hfrac⟩ := List.append_inj h hlen
  have hsecond : d.second = e.second := padded_injective (two _ d.second_le) (two _ e.second_le) hsec
  have hmicro : d.microsecond = e.microsecond := by
    by_cases hd : d.microsecond = 0
    · by_cases he : e.microsecond = 0
      · rw [hd, he]
      · rw [if_pos hd, if_neg he] at hfrac
        cases hfrac
    · by_cases he : e.microsecond = 0
      · rw [if_neg hd, if_pos he] at hfrac
        cases hfrac
      · rw [if_neg hd, if_neg he] at hfrac
        refine padded_injective ?_ ?_ (List.tail_eq_of_cons_eq hfrac)
        · have := d.microsecond_le
          omega
        · have := e.microsecond_le
          omega
  obtain ⟨y, mo, da, ho, mi, se, us⟩ := d
  obtain ⟨y', mo', da', ho', mi', se', us'⟩ := e
  simp only at hyear hmonth hday hhour hminute hsecond hmicro
  subst hyear hmonth hday hhour hminute hsecond hmicro
  rfl

theorem DateTime.isoformat_injective {d e : DateTime} (h : d.isoformat = e.isoformat) : d = e :=
  isoChars_injective (String.ofList_injective h)

theorem DateTime.newline_notMem_isoformat (d : DateTime) : '\n' ∉ d.isoformat.toList := by
  have hp := newline_notMem_padded
  simp only [isoformat, String.toList_ofList, isoChars, List.mem_append, List.mem_cons, hp,
    false_or, not_or]
  refine ⟨by decide, by decide, by decide, by decide, by decide, ?_⟩
  split
  · simp
  · simp only [List.mem_cons, hp, or_false]
    decide

end Python
