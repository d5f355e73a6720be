import Mathlib.Logic.Function.Basic

/-!
# Columns of a keyed store

A store has at most one row for a key. A column `f` of it is the part of the row that `f` reads,
`none` where there is no row, so a row that is added with nothing in the column leaves it.
-/

namespace Machine

abbrev Store (κ ρ : Type*) := κ → Option ρ

namespace Store
variable {κ ρ α : Type*}

/-- The row of a key, `row` where there is none. -/
def rowOr (store : Store κ ρ) (k : κ) (row : ρ) : ρ := (store k).getD row

/-- The missing rows of the keys in `p` added. -/
def ensure (store : Store κ ρ) (p : κ → Prop) [DecidablePred p] (new : κ → ρ) : Store κ ρ :=
  fun k => if p k then some (store.rowOr k (new k)) else store k

/-- `g` on every row. -/
def mapRows (store : Store κ ρ) (g : κ → ρ → ρ) : Store κ ρ := fun k => (store k).map (g k)

def put [DecidableEq κ] (store : Store κ ρ) (k : κ) (row : ρ) : Store κ ρ :=
  Function.update store k (some row)

def column (f : ρ → Option α) (store : Store κ ρ) (k : κ) : Option α := (store k).bind f

variable {f : ρ → Option α}

theorem column_rowOr (store : Store κ ρ) (k : κ) {row : ρ} (h : f row = none) :
    f (store.rowOr k row) = column f store k := by
  unfold rowOr column
  cases store k with
  | none => exact h
  | some row => rfl

theorem column_ensure (store : Store κ ρ) {p : κ → Prop} [DecidablePred p] {new : κ → ρ}
    (h : ∀ k, f (new k) = none) (k : κ) : column f (store.ensure p new) k = column f store k := by
  unfold ensure
  rw [column]
  split
  · exact store.column_rowOr k (h k)
  · rfl

theorem column_mapRows (store : Store κ ρ) (g : κ → ρ → ρ) (h : ∀ k row, f (g k row) = f row)
    (k : κ) : column f (store.mapRows g) k = column f store k := by
  unfold mapRows
  rw [column, column]
  cases store k with
  | none => rfl
  | some row => exact h k row

variable [DecidableEq κ]

theorem column_put (store : Store κ ρ) (k k' : κ) (row : ρ) :
    column f (store.put k row) k' = if k' = k then f row else column f store k' := by
  unfold put
  rw [column, Function.update_apply]
  split <;> rfl

theorem column_put_self (store : Store κ ρ) (k : κ) (row : ρ) :
    column f (store.put k row) k = f row := by
  rw [column_put, if_pos rfl]

theorem column_put_of_ne (store : Store κ ρ) {k k' : κ} (h : k' ≠ k) (row : ρ) :
    column f (store.put k row) k' = column f store k' := by
  rw [column_put, if_neg h]

/-- A row with the same entry in the column. -/
theorem column_put_of_eq (store : Store κ ρ) {k : κ} {row : ρ} (h : f row = column f store k)
    (k' : κ) : column f (store.put k row) k' = column f store k' := by
  rw [column_put]
  split
  next hk => rw [h, hk]
  next => rfl

end Store

end Machine
