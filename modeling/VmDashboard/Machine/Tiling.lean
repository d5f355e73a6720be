import Mathlib.Algebra.Order.Floor.Div
import Mathlib.Algebra.BigOperators.Group.List.Basic

/-!
# An interval cut into pieces of one width

The pieces of `[0, total)`, counted from 0. Only the last can be shorter.
-/

namespace Machine.Tiling

def pieces (width total : ℕ) : ℕ := total ⌈/⌉ width

def length (width total i : ℕ) : ℕ := min width (total - i * width)

variable {width total i : ℕ}

theorem lt_pieces (hwidth : 0 < width) : i < pieces width total ↔ i * width < total := by
  have hle : total ⌈/⌉ width ≤ i ↔ total ≤ width * i := ceilDiv_le_iff_le_mul hwidth
  rw [pieces, ← Nat.not_le, hle, Nat.mul_comm, Nat.not_le]

theorem pieces_pos (hwidth : 0 < width) (htotal : 0 < total) : 0 < pieces width total :=
  (lt_pieces hwidth).mpr (by rwa [Nat.zero_mul])

theorem length_pos (hwidth : 0 < width) (hi : i < pieces width total) : 0 < length width total i :=
  Nat.lt_min.mpr ⟨hwidth, Nat.sub_pos_of_lt ((lt_pieces hwidth).mp hi)⟩

/-- A piece with another after it is whole. -/
theorem length_inner (hwidth : 0 < width) (hi : i + 1 < pieces width total) :
    length width total i = width := by
  have hnext := (lt_pieces hwidth).mp hi
  rw [Nat.add_mul, Nat.one_mul] at hnext
  exact Nat.min_eq_left (by omega)

theorem length_last (hwidth : 0 < width) (hi : i + 1 = pieces width total) :
    length width total i = total - i * width := by
  have hlast : ¬i + 1 < pieces width total := by omega
  rw [lt_pieces hwidth, Nat.add_mul, Nat.one_mul] at hlast
  exact Nat.min_eq_right (by omega)

/-- What is covered with the `i`-th piece. -/
theorem covered_succ (hi : i * width < total) :
    i * width + length width total i = min ((i + 1) * width) total := by
  rw [length, Nat.add_mul, Nat.one_mul]
  omega

theorem covered_injective {m : ℕ} (hwidth : 0 < width) (hi : i * width < total)
    (h : i * width = min (m * width) total) : i = m :=
  Nat.eq_of_mul_eq_mul_right hwidth (by omega)

theorem covered_total (hwidth : 0 < width) :
    min (i * width) total = total ↔ pieces width total ≤ i := by
  rw [← Nat.not_lt, lt_pieces hwidth]
  omega

/-- The pieces before the `i`-th cover `[0, i * width)`, or all there is. -/
theorem sum_length (m : ℕ) :
    ((List.range m).map (length width total)).sum = min (m * width) total := by
  induction m with
  | zero => simp
  | succ m ih =>
    rw [List.range_succ, List.map_append, List.sum_append, ih, List.map_singleton, List.sum_singleton,
      Nat.add_mul, Nat.one_mul, length]
    omega

theorem sum_pieces (hwidth : 0 < width) :
    ((List.range (pieces width total)).map (length width total)).sum = total := by
  have hlast : ¬pieces width total < pieces width total := lt_irrefl _
  rw [lt_pieces hwidth] at hlast
  rw [sum_length]
  exact Nat.min_eq_right (by omega)

/-- Each position is in exactly one piece. -/
theorem existsUnique_piece (hwidth : 0 < width) {x : ℕ} (hx : x < total) :
    ∃! i, i < pieces width total ∧ i * width ≤ x ∧ x < i * width + length width total i := by
  have hdiv : x / width * width ≤ x := Nat.div_mul_le_self x width
  have hmod : x < x / width * width + width := Nat.lt_div_mul_add hwidth
  refine ⟨x / width, ⟨(lt_pieces hwidth).mpr (by omega), hdiv, ?_⟩, fun i hi => ?_⟩
  · rw [length]
    omega
  · obtain ⟨-, hstart, hend⟩ := hi
    have hlength : length width total i ≤ width := Nat.min_le_left _ _
    refine (Nat.div_eq_of_lt_le hstart ?_).symm
    rw [Nat.add_mul, Nat.one_mul]
    omega

end Machine.Tiling
