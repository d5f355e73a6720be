import Mathlib.Data.Option.Basic

/-!
# Code that raises
-/

namespace Machine

theorem bind_eq_ok {ε α β : Type} {x : Except ε α} {f : α → Except ε β} {b : β}
    (h : x >>= f = .ok b) : ∃ a, x = .ok a ∧ f a = .ok b := by
  cases x with
  | error e => cases h
  | ok a => exact ⟨a, rfl, h⟩

theorem bind_eq_error {ε α β : Type} {x : Except ε α} {f : α → Except ε β} {e : ε}
    (h : x >>= f = .error e) : x = .error e ∨ ∃ a, x = .ok a ∧ f a = .error e := by
  cases x with
  | error e' => exact .inl (congrArg _ (Except.error.inj h))
  | ok a => exact .inr ⟨a, rfl, h⟩

/-- `if p: raise e`, then the rest. -/
theorem raiseIf_eq_ok {ε β : Type} {p : Prop} [Decidable p] {e : ε} {rest : Unit → Except ε β} {b : β}
    (h : (if p then throw e >>= rest else rest ()) = .ok b) : ¬ p ∧ rest () = .ok b := by
  by_cases hp : p
  · rw [if_pos hp] at h
    cases h
  · rw [if_neg hp] at h
    exact ⟨hp, h⟩

/-- `if p: check`, then the rest. -/
theorem performed_eq_ok {ε β : Type} {p : Prop} [Decidable p] {check : Except ε Unit}
    {rest : Unit → Except ε β} {b : β} (h : (if p then check >>= rest else rest ()) = .ok b) :
    rest () = .ok b := by
  by_cases hp : p
  · rw [if_pos hp] at h
    obtain ⟨_, -, hrest⟩ := bind_eq_ok h
    exact hrest
  · rwa [if_neg hp] at h

theorem mem_of_mapM {ε α β : Type} {f : α → Except ε β} {as : List α} {bs : List β}
    (h : as.mapM f = .ok bs) : ∀ a ∈ as, ∃ b ∈ bs, f a = .ok b := by
  induction as generalizing bs with
  | nil => exact List.forall_mem_nil _
  | cons a as ih =>
    rw [List.mapM_cons] at h
    obtain ⟨b, hb, h⟩ := bind_eq_ok h
    obtain ⟨rest, hrest, h⟩ := bind_eq_ok h
    obtain rfl := Except.ok.inj h
    refine List.forall_mem_cons.mpr ⟨⟨b, List.mem_cons_self, hb⟩, fun a' ha' => ?_⟩
    obtain ⟨b', hb', heq⟩ := ih hrest a' ha'
    exact ⟨b', List.mem_cons_of_mem _ hb', heq⟩

end Machine
