import VmDashboard.Machine.System

/-!
# Carrying an invariant from an abstract system to a concrete one

`M` is simulated by `N` through the abstraction `abs` when every step of `M`
that meets `G` is a run of `N` (possibly the empty one) between the abstractions
of its two states. What every step of `N` keeps then holds of the abstraction of
every state such runs of `M` pass through. The simulation may use an invariant
`inv` of `M` of its own and the abstract invariant it carries over.
-/

namespace Machine.System
variable {S L A K : Type*} {M : System S L} {N : System A K}

theorem exec_invariant {I : A → Prop} (hstep : ∀ a k b, I a → N.step a k = some b → I b)
    {a b : A} {ks : List K} (ha : I a) (h : N.exec a ks = some b) : I b := by
  have hrun := N.always_of_step hstep ks ha
  exact N.always_exec hrun h

/-- The simulation rule. -/
theorem always_of_simulation {I : A → Prop} {G : S → L → Prop} {inv : S → Prop} (abs : S → A)
    (hN : ∀ a k b, I a → N.step a k = some b → I b)
    (hsim : ∀ s l t, inv s → I (abs s) → G s l → M.step s l = some t →
      inv t ∧ ∃ ks, N.exec (abs s) ks = some (abs t))
    {s : S} {ls : List L} (hs : inv s) (ha : I (abs s)) (h : M.Along G s ls) :
    M.Always (fun t => inv t ∧ I (abs t)) s ls := by
  refine M.always_of_along (G := G) (fun s l t hI hG ht => ?_) ⟨hs, ha⟩ h
  obtain ⟨hinv, ks, hks⟩ := hsim s l t hI.1 hI.2 hG ht
  exact ⟨hinv, exec_invariant hN hI.2 hks⟩

end Machine.System
