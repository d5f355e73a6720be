import VmDashboard.Python.Clock
import VmDashboard.Python.DateTime

/-!
# The calendar an instant is read on

Days are counted from Monday 0001-01-01, as `date.toordinal` counts them less
one. `ymd` is `date.fromordinal` (`_ord2ymd` of the reference implementation).
-/

namespace Python

def dayLength : ℕ := minutes (24 * 60)

/-- `date.weekday()`. -/
def weekday (day : ℤ) : ℕ := (day % 7).toNat

def monthLengths (leap : Bool) : List ℕ :=
  [31, if leap then 29 else 28, 31, 30, 31, 30, 31, 31, 30, 31, 30, 31]

/-- The month and the day of the month of the `n`-th day of a year. -/
def monthDay (n : ℕ) : ℕ → List ℕ → ℕ × ℕ
  | month, [] => (month, n + 1)
  | month, length :: lengths =>
    if n < length then (month, n + 1) else monthDay (n - length) (month + 1) lengths

def ymd (day : ℕ) : ℕ × ℕ × ℕ :=
  let n400 := day / 146097
  let n100 := day % 146097 / 36524
  let n4 := day % 146097 % 36524 / 1461
  let n1 := day % 146097 % 36524 % 1461 / 365
  let year := 400 * n400 + 100 * n100 + 4 * n4 + n1 + 1
  -- the last day of a cycle
  if n1 = 4 ∨ n100 = 4 then (year - 1, 12, 31)
  else
    let leap := n1 = 3 ∧ (n4 ≠ 24 ∨ n100 = 3)
    (year, monthDay (day % 146097 % 36524 % 1461 % 365) 1 (monthLengths leap))

/-- `value.isoformat(sep=" ", timespec="minutes")`. -/
def minuteLabel (t : Instant) : String :=
  let (year, month, day) := ymd (t / dayLength)
  let minute := t % dayLength / minutes 1
  String.ofList (padded 4 year ++ '-' :: (padded 2 month ++ '-' :: (padded 2 day ++ ' ' ::
    (padded 2 (minute / 60) ++ ':' :: padded 2 (minute % 60)))))

example : ymd 739892 = (2026, 10, 4) ∧ weekday 739892 = 6 ∧ ymd 738944 = (2024, 2, 29) := by decide

end Python
