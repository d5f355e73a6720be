import Mathlib.Data.Int.Notation
import Mathlib.Data.Nat.Notation

/-!
# Instants

A naive UTC `datetime` is a number of microseconds since the epoch, the
resolution `datetime` has. A span that a setting or a header gives may be
negative; an instant before the first one is the first one.
-/

namespace Python

abbrev Instant := ℕ

/-- `timedelta(seconds=n)`. -/
def seconds (n : ℕ) : ℕ := n * 1000000

/-- `timedelta(minutes=n)`. -/
def minutes (n : ℕ) : ℕ := seconds (60 * n)

/-- `now + timedelta(seconds=n)`. -/
def later (now : Instant) (n : ℤ) : Instant := ((now : ℤ) + n * 1000000).toNat

/-- `(now - since).total_seconds() < n`. -/
def younger (now since : Instant) (n : ℤ) : Bool := (now : ℤ) - since < n * 1000000

end Python
