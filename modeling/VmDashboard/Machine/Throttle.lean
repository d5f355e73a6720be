import Mathlib.Data.Int.Order.Basic
import Mathlib.Data.Set.Finite.Lemmas
import Mathlib.Data.Set.Finite.List

/-!
# Sliding-window throttles

A throttle refuses while one of its budgets is full of the rows of its window that a scan looks at, and
names the whole seconds until one of them leaves the window. The wait is honest exactly when no row that
outlasts that one starts a scan in which a budget is full.
-/

namespace Machine

/-- The rows that count towards a cap. Without a positive cap none do. -/
structure Budget (α : Type) where
  member : α → Bool
  cap : ℤ

/-- The time unit is the microsecond. -/
structure Throttle (α : Type) where
  stamp : α → ℤ
  window : ℤ
  /-- What is looked at of the rows of the window. -/
  scan : List α → List α
  scan_nil : scan [] = []
  budgets : List (Budget α)

def Budget.Full {α : Type} (budget : Budget α) (scanned : List α) : Prop :=
  0 < budget.cap ∧ budget.cap ≤ scanned.countP budget.member

instance {α : Type} (budget : Budget α) (scanned : List α) : Decidable (budget.Full scanned) :=
  inferInstanceAs (Decidable (_ ∧ _))

theorem Budget.not_full_nil {α : Type} (budget : Budget α) : ¬budget.Full [] := by
  rintro ⟨hpos, hcap⟩
  rw [List.countP_nil] at hcap
  omega

namespace Throttle
variable {α : Type} (T : Throttle α)

/-- The rows that are still in the window. -/
def recent (rows : List α) (now : ℤ) : List α := rows.filter fun row => now ≤ T.stamp row + T.window

/-- The budget that refuses. -/
def refusing (rows : List α) (now : ℤ) : Option (Budget α) :=
  T.budgets.find? fun budget => budget.Full (T.scan (T.recent rows now))

/-- The whole seconds until a stamp leaves the window. -/
def secondsLeft (now stamp : ℤ) : ℤ := (stamp + T.window - now) / 1000000

def wait (now stamp : ℤ) : ℤ := max 1 (T.secondsLeft now stamp + 1)

/-- No row with more whole seconds left than the stamp starts a scan in which a budget is full. -/
def Settles (rows : List α) (now stamp : ℤ) : Prop :=
  ∀ row ∈ T.recent rows now, T.secondsLeft now stamp < T.secondsLeft now (T.stamp row) →
    ∀ budget ∈ T.budgets,
      ¬budget.Full (T.scan ((T.recent rows now).filter fun other => T.stamp row ≤ T.stamp other))

instance (rows : List α) (now stamp : ℤ) : Decidable (T.Settles rows now stamp) :=
  inferInstanceAs (Decidable (∀ row ∈ _, _ → ∀ budget ∈ _, ¬Budget.Full _ _))

variable {T} {rows : List α} {now stamp : ℤ}

theorem refusing_eq_none : T.refusing rows now = none ↔
    ∀ budget ∈ T.budgets, ¬budget.Full (T.scan (T.recent rows now)) := by
  rw [refusing, List.find?_eq_none]
  simp only [decide_eq_true_eq]

theorem mem_recent {row : α} : row ∈ T.recent rows now ↔ row ∈ rows ∧ now ≤ T.stamp row + T.window := by
  rw [recent, List.mem_filter, decide_eq_true_eq]

/-- When a row is about to leave the window, the others there are those that are no older. -/
theorem recent_leaving {row : α} (h : now ≤ T.stamp row + T.window) :
    T.recent rows (T.stamp row + T.window) =
      (T.recent rows now).filter fun other => T.stamp row ≤ T.stamp other := by
  rw [recent, recent, List.filter_filter]
  refine List.filter_congr fun other _ => ?_
  rw [← Bool.decide_and, decide_eq_decide]
  omega

variable (T rows) in
/-- What is left of the window later, if anything, starts with one of its rows. -/
theorem recent_later {later : ℤ} (hlater : now ≤ later) : T.recent rows later = [] ∨
    ∃ row ∈ T.recent rows later, T.recent rows later =
      (T.recent rows now).filter fun other => T.stamp row ≤ T.stamp other := by
  by_cases hempty : T.recent rows later = []
  · exact .inl hempty
  · obtain ⟨first, hfirst⟩ := List.exists_mem_of_ne_nil _ hempty
    obtain ⟨row, hrow, hleast⟩ := Set.exists_min_image {row | row ∈ T.recent rows later} T.stamp
      (List.finite_toSet _) ⟨first, hfirst⟩
    refine .inr ⟨row, hrow, ?_⟩
    have hstays := (mem_recent.mp hrow).2
    rw [recent, recent, List.filter_filter]
    refine List.filter_congr fun other hother => ?_
    rw [← Bool.decide_and, decide_eq_decide]
    constructor
    · intro hother'
      exact ⟨hleast other (mem_recent.mpr ⟨hother, hother'⟩), by omega⟩
    · rintro ⟨hle, -⟩
      omega

/-- After the wait, only rows with more whole seconds left are there. -/
theorem secondsLeft_lt {row : α} {later : ℤ} (hstamp : now ≤ stamp + T.window)
    (hlater : now + T.wait now stamp * 1000000 ≤ later) (hrow : later ≤ T.stamp row + T.window) :
    T.secondsLeft now stamp < T.secondsLeft now (T.stamp row) := by
  unfold wait at hlater
  unfold secondsLeft at hlater ⊢
  omega

theorem wait_le {row : α} (hstamp : now ≤ stamp + T.window)
    (h : T.secondsLeft now stamp < T.secondsLeft now (T.stamp row)) :
    now + T.wait now stamp * 1000000 ≤ T.stamp row + T.window := by
  unfold wait
  unfold secondsLeft at h ⊢
  omega

/-- No budget is full from the end of the wait on. -/
theorem refusing_of_settles (hstamp : now ≤ stamp + T.window) (h : T.Settles rows now stamp) {later : ℤ}
    (hlater : now + T.wait now stamp * 1000000 ≤ later) : T.refusing rows later = none := by
  have hnow : now ≤ later := by
    unfold wait at hlater
    omega
  rw [refusing_eq_none]
  intro budget hbudget
  rcases recent_later T rows hnow with hempty | ⟨row, hrow, heq⟩
  · rw [hempty, T.scan_nil]
    exact budget.not_full_nil
  · obtain ⟨hmem, hstays⟩ := mem_recent.mp hrow
    rw [heq]
    exact h row (mem_recent.mpr ⟨hmem, hnow.trans hstays⟩) (secondsLeft_lt hstamp hlater hstays) budget hbudget

/-- If no budget is full when a row leaves after the wait, none of them starts a full scan. -/
theorem settles_of_refusing (hstamp : now ≤ stamp + T.window)
    (h : ∀ row ∈ rows, now + T.wait now stamp * 1000000 ≤ T.stamp row + T.window →
      T.refusing rows (T.stamp row + T.window) = none) : T.Settles rows now stamp := by
  intro row hrow hmore budget hbudget
  obtain ⟨hmem, hstays⟩ := mem_recent.mp hrow
  have hnone := refusing_eq_none.mp (h row hmem (wait_le hstamp hmore)) budget hbudget
  rwa [recent_leaving hstays] at hnone

end Throttle

end Machine
