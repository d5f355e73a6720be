import Mathlib.Data.Set.Insert
import VmDashboard.Machine.System

/-!
# Exclusive leases

The protocol behind a work queue, over arbitrary items `ι` and holders `κ`: an
item that waits can be taken by a holder that holds nothing, which ends its
waiting; a holder can drop what it holds; an item can be withdrawn; and an item
that nobody holds can be offered again. The condition on `offer` is what keeps
an item from having two holders.
-/

namespace Machine.Lease
variable {ι κ : Type*}

structure State (ι κ : Type*) where
  waiting : Set ι
  holds : κ → Option ι

inductive Move (ι κ : Type*)
  | take (k : κ) (i : ι)
  | drop (k : κ)
  | withdraw (i : ι)
  | offer (i : ι)

open Classical in
noncomputable def step (s : State ι κ) : Move ι κ → Option (State ι κ)
  | .take k i =>
    if i ∈ s.waiting ∧ s.holds k = none then
      some ⟨s.waiting \ {i}, Function.update s.holds k (some i)⟩
    else none
  | .drop k => some ⟨s.waiting, Function.update s.holds k none⟩
  | .withdraw i => some ⟨s.waiting \ {i}, s.holds⟩
  | .offer i => if ∀ k, s.holds k ≠ some i then some ⟨insert i s.waiting, s.holds⟩ else none

noncomputable def system (ι κ : Type*) : System (State ι κ) (Move ι κ) := ⟨step⟩

theorem exec_take [DecidableEq κ] {s : State ι κ} {k : κ} {i : ι}
    (h : i ∈ s.waiting ∧ s.holds k = none) : (system ι κ).exec s [.take k i] =
      some ⟨s.waiting \ {i}, Function.update s.holds k (some i)⟩ := by
  show (step s (.take k i)).bind some = _
  rw [Option.bind_fun_some, step, if_pos h]
  congr!

theorem exec_drop [DecidableEq κ] (s : State ι κ) (k : κ) : (system ι κ).exec s [.drop k] =
    some ⟨s.waiting, Function.update s.holds k none⟩ := by
  show some _ = some _
  congr!

theorem exec_withdraw (s : State ι κ) (i : ι) :
    (system ι κ).exec s [.withdraw i] = some ⟨s.waiting \ {i}, s.holds⟩ := rfl

theorem exec_offer {s : State ι κ} {i : ι} (h : ∀ k, s.holds k ≠ some i) :
    (system ι κ).exec s [.offer i] = some ⟨insert i s.waiting, s.holds⟩ := by
  show (step s (.offer i)).bind some = _
  rw [Option.bind_fun_some, step, if_pos h]

/-- No item has two holders, and a held item does not wait. -/
structure Exclusive (s : State ι κ) : Prop where
  one : ∀ {k k' i}, s.holds k = some i → s.holds k' = some i → k = k'
  idle : ∀ {k i}, s.holds k = some i → i ∉ s.waiting

theorem take_exclusive {s t : State ι κ} {k : κ} {i : ι} (hs : Exclusive s)
    (h : step s (.take k i) = some t) : Exclusive t := by
  classical
  simp only [step] at h
  split at h
  next hg =>
    obtain rfl := Option.some.inj h
    have hold : ∀ {k' j}, Function.update s.holds k (some i) k' = some j →
        (k' = k ∧ j = i) ∨ s.holds k' = some j := by
      intro k' j hj
      by_cases hk : k' = k
      · rw [hk, Function.update_self] at hj
        exact .inl ⟨hk, (Option.some.inj hj).symm⟩
      · rw [Function.update_of_ne hk] at hj
        exact .inr hj
    -- what waits is held by nobody, so only `k` holds `i` now
    have hfree : ∀ k', s.holds k' ≠ some i := fun k' hk' => hs.idle hk' hg.1
    refine ⟨fun {k₁ k₂ j} h₁ h₂ => ?_, fun {k₁ j} h₁ hw => ?_⟩
    · rcases hold h₁ with ⟨rfl, rfl⟩ | g₁
      · rcases hold h₂ with ⟨rfl, -⟩ | g₂
        · rfl
        · exact absurd g₂ (hfree k₂)
      · rcases hold h₂ with ⟨rfl, rfl⟩ | g₂
        · exact absurd g₁ (hfree k₁)
        · exact hs.one g₁ g₂
    · rcases hold h₁ with ⟨rfl, rfl⟩ | g₁
      · exact hw.2 rfl
      · exact hs.idle g₁ hw.1
  next => cases h

theorem drop_exclusive {s : State ι κ} (hs : Exclusive s) (k : κ) [DecidableEq κ] :
    Exclusive ⟨s.waiting, Function.update s.holds k none⟩ := by
  have hold : ∀ {k' j}, Function.update s.holds k none k' = some j → s.holds k' = some j := by
    intro k' j h
    by_cases hk : k' = k
    · rw [hk, Function.update_self] at h
      cases h
    · rwa [Function.update_of_ne hk] at h
  exact ⟨fun h₁ h₂ => hs.one (hold h₁) (hold h₂), fun h₁ => hs.idle (hold h₁)⟩

theorem withdraw_exclusive {s : State ι κ} (hs : Exclusive s) (i : ι) :
    Exclusive ⟨s.waiting \ {i}, s.holds⟩ :=
  ⟨hs.one, fun h₁ hw => hs.idle h₁ hw.1⟩

theorem offer_exclusive {s t : State ι κ} {i : ι} (hs : Exclusive s)
    (h : step s (.offer i) = some t) : Exclusive t := by
  simp only [step] at h
  split at h
  next hfree =>
    obtain rfl := Option.some.inj h
    refine ⟨hs.one, fun {k j} hk hw => ?_⟩
    rcases hw with rfl | hw
    · exact hfree k hk
    · exact hs.idle hk hw
  next => cases h

/-- Every move keeps the leases exclusive. -/
theorem step_exclusive (s : State ι κ) (m : Move ι κ) (t : State ι κ) (hs : Exclusive s)
    (h : step s m = some t) : Exclusive t := by
  classical
  cases m with
  | take k i => exact take_exclusive hs h
  | drop k =>
    obtain rfl := Option.some.inj h
    convert drop_exclusive hs k
  | withdraw i =>
    obtain rfl := Option.some.inj h
    exact withdraw_exclusive hs i
  | offer i => exact offer_exclusive hs h

end Machine.Lease
