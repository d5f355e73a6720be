import Mathlib.Data.List.Sort

/-!
# The first of a sorted list

A list sorted by a key, and the first of its members that meet a condition: it is one with the least
key among them, and which one does not depend on the order of the list when no other has its key.
-/

namespace Machine
variable {α κ : Type*} [LinearOrder κ] {key : α → κ} {p : α → Bool} {l : List α}

/-- Sorted by the key; members with the same key keep their order. -/
def sortBy (key : α → κ) (l : List α) : List α := l.insertionSort fun a b => key a ≤ key b

theorem mem_sortBy {a : α} : a ∈ sortBy key l ↔ a ∈ l := List.mem_insertionSort _

theorem pairwise_sortBy (key : α → κ) (l : List α) :
    (sortBy key l).Pairwise fun a b => key a ≤ key b := by
  have : Std.Total fun a b : α => key a ≤ key b := ⟨fun a b => le_total (key a) (key b)⟩
  have : IsTrans α fun a b => key a ≤ key b := ⟨fun _ _ _ => le_trans⟩
  exact List.pairwise_insertionSort _ l

theorem find_sortBy_none : (sortBy key l).find? p = none ↔ ∀ a ∈ l, p a = false := by
  simp only [List.find?_eq_none, mem_sortBy, Bool.not_eq_true]

theorem find_sortBy_some {a : α} (h : (sortBy key l).find? p = some a) :
    a ∈ l ∧ p a = true ∧ ∀ b ∈ l, p b = true → key a ≤ key b := by
  obtain ⟨hp, before, after, hsplit, hbefore⟩ := List.find?_eq_some_iff_append.mp h
  have hmem : a ∈ l := mem_sortBy.mp (hsplit ▸ List.mem_append_right _ List.mem_cons_self)
  refine ⟨hmem, hp, fun b hb hpb => ?_⟩
  have hb' : b ∈ before ++ a :: after := hsplit ▸ mem_sortBy.mpr hb
  have hsorted := pairwise_sortBy key l
  rw [hsplit] at hsorted
  rcases List.mem_append.mp hb' with hbefore' | hafter
  · have hfalse := hbefore b hbefore'
    rw [hpb] at hfalse
    cases hfalse
  · rcases List.mem_cons.mp hafter with rfl | hrest
    · exact le_refl _
    · exact (List.pairwise_cons.mp (List.pairwise_append.mp hsorted).2.1).1 b hrest

/-- A member that every other one is behind is the first in every order. -/
theorem find_sortBy_of_best {a : α} (hmem : a ∈ l) (hp : p a = true)
    (hbest : ∀ b ∈ l, p b = true → b ≠ a → key a < key b) : (sortBy key l).find? p = some a := by
  cases hfind : (sortBy key l).find? p with
  | none =>
    have hnone := find_sortBy_none.mp hfind a hmem
    rw [hp] at hnone
    cases hnone
  | some b =>
    obtain ⟨hb, hpb, hleast⟩ := find_sortBy_some hfind
    by_cases hba : b = a
    · rw [hba]
    · exact absurd (hleast a hmem hp) (not_le.mpr (hbest b hb hpb hba))

end Machine
