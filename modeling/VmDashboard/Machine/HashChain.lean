import Mathlib.Data.List.Induction

/-!
# Hash chains

The digest of a list of records folds a linking function over them from a
genesis value. When the link is injective on the records in question and never
gives the genesis value back, a digest determines the whole list under it.
`D` is what holds of every digest and `P` what holds of the records of the list
that is trusted; the other list is arbitrary.
-/

namespace Machine.HashChain
variable {ρ δ : Type*} (link : δ → ρ → δ) (genesis : δ)

def digest (records : List ρ) : δ := records.foldl link genesis

@[simp] theorem digest_nil : digest link genesis [] = genesis := rfl

theorem digest_concat (records : List ρ) (r : ρ) :
    digest link genesis (records ++ [r]) = link (digest link genesis records) r := by
  rw [digest, List.foldl_append, List.foldl_cons, List.foldl_nil, digest]

theorem digest_property {D : δ → Prop} (hgenesis : D genesis) (hlink : ∀ p r, D (link p r))
    (records : List ρ) : D (digest link genesis records) := by
  rcases List.eq_nil_or_concat records with rfl | ⟨rs, r, rfl⟩
  · exact hgenesis
  · rw [List.concat_eq_append, digest_concat]
    exact hlink _ r

theorem digest_injective {P : ρ → Prop} {D : δ → Prop} (hD : D genesis)
    (hDlink : ∀ p r, D (link p r))
    (hlink : ∀ p q r s, D p → P r → link p r = link q s → p = q ∧ r = s)
    (hgenesis : ∀ p r, link p r ≠ genesis) {xs ys : List ρ} (hxs : ∀ r ∈ xs, P r)
    (h : digest link genesis xs = digest link genesis ys) : xs = ys := by
  induction xs using List.reverseRecOn generalizing ys with
  | nil =>
    rcases List.eq_nil_or_concat ys with rfl | ⟨ys, s, rfl⟩
    · rfl
    · rw [digest_nil, List.concat_eq_append, digest_concat] at h
      exact absurd h.symm (hgenesis _ s)
  | append_singleton xs r ih =>
    rcases List.eq_nil_or_concat ys with rfl | ⟨ys, s, rfl⟩
    · rw [digest_nil, digest_concat] at h
      exact absurd h (hgenesis _ r)
    · rw [List.concat_eq_append] at h ⊢
      rw [digest_concat, digest_concat] at h
      have hr : P r := hxs r (by simp)
      have hdig : D (digest link genesis xs) := digest_property link genesis hD hDlink xs
      obtain ⟨hprev, rfl⟩ := hlink _ _ _ _ hdig hr h
      have hrest : xs = ys := ih (fun r hr => hxs r (List.mem_append_left _ hr)) hprev
      rw [hrest]

end Machine.HashChain
