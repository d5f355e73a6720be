import VmDashboard.Python.Yaml

/-!
# Notification policy (`services/notify_policy.py`)

The bounds on a delivery's attempts and delays. A setting is `none` where it is blank or no
number, and the default stands in for it.
-/

namespace Notify

def backoffTable : List ℕ := [30, 120, 600, 1800]

def retryAfterCapSeconds : ℕ := 1800

def staleSendingSeconds : ℕ := 600

def maxAttempts (setting : Option ℤ) : ℕ :=
  (max 1 (min ((backoffTable.length : ℤ) + 1) (setting.getD 4))).toNat

/-- Delay before retry number `attempts`, 0 after the first failure. -/
def backoffSeconds (attempts : ℤ) : ℕ :=
  backoffTable.getD (max 0 (min ((backoffTable.length : ℤ) - 1) attempts)).toNat 0

def retryAfterSeconds (header : Option String) (default : ℕ) : ℕ :=
  match header.bind Python.parseInt with
  | some secs => (max 1 (min (retryAfterCapSeconds : ℤ) secs)).toNat
  | none => default

theorem maxAttempts_bounds (setting : Option ℤ) :
    1 ≤ maxAttempts setting ∧ maxAttempts setting ≤ 5 := by
  simp only [maxAttempts, backoffTable, List.length_cons, List.length_nil]
  omega

end Notify
