import VmDashboard.Machine.System

/-!
# Counting the steps of a run

How many steps of a run are of a kind `K`, and the invariant rule for such a count.
-/

namespace Machine.System
variable {S L : Type*} (M : System S L)

/-- How many of the steps the run takes are of the kind `K` in the state they start from. -/
def count (K : S → L → Bool) : S → List L → ℕ
  | _, [] => 0
  | s, l :: ls =>
    match M.step s l with
    | some t => (if K s l then 1 else 0) + count K t ls
    | none => 0

@[simp] theorem count_nil (K : S → L → Bool) (s : S) : M.count K s [] = 0 := rfl

theorem count_cons_of_some {K : S → L → Bool} {s t : S} {l : L} {ls : List L}
    (h : M.step s l = some t) :
    M.count K s (l :: ls) = (if K s l then 1 else 0) + M.count K t ls := by
  simp only [count, h]

/-- An invariant that carries the number of steps of the kind `K` taken so far. -/
theorem count_of_along {K : S → L → Bool} {I : ℕ → S → Prop} {G : S → L → Prop}
    (hstep : ∀ n s l t, I n s → G s l → M.step s l = some t → I (n + if K s l then 1 else 0) t)
    {n : ℕ} {s t : S} {ls : List L} (hs : I n s) (h : M.Along G s ls) (ht : M.exec s ls = some t) :
    I (n + M.count K s ls) t := by
  induction ls generalizing n s with
  | nil =>
    obtain rfl := Option.some.inj ht
    exact hs
  | cons l ls ih =>
    obtain ⟨u, hu, hrest⟩ := M.exec_cons_eq_some ht
    obtain ⟨hl, hls⟩ := h u hu
    rw [M.count_cons_of_some hu, ← Nat.add_assoc]
    exact ih (hstep n s l u hs hl hu) hls hrest

end Machine.System
