import Mathlib.Data.List.Nodup
import Mathlib.Logic.Function.Basic

/-!
# A digest without collisions

The hexadecimal SHA-256 digests of given texts, and for any other text one that is no hexadecimal
digest. It stands for SHA-256 where two texts must not have one digest.
-/

namespace Python

def digestWith (known : List (String × String)) (text : String) : String :=
  match known.lookup text with
  | some digest => digest
  | none => "#" ++ text

theorem mem_of_lookup {known : List (String × String)} {text digest : String}
    (h : known.lookup text = some digest) : (text, digest) ∈ known := by
  induction known with
  | nil => cases h
  | cons entry known ih =>
    obtain ⟨key, value⟩ := entry
    rw [List.lookup_cons] at h
    split at h
    next heq =>
      obtain rfl := Option.some.inj h
      obtain rfl := eq_of_beq heq
      exact List.mem_cons_self
    next => exact List.mem_cons_of_mem _ (ih h)

theorem digestWith_injective {known : List (String × String)}
    (hnodup : (known.map Prod.snd).Nodup)
    (hknown : ∀ entry ∈ known, entry.2.toList.head? ≠ some '#') :
    Function.Injective (digestWith known) := by
  have hother : ∀ {entry : String × String} {text : String}, entry ∈ known →
      entry.2 ≠ "#" ++ text := by
    intro entry text hentry heq
    refine hknown entry hentry ?_
    rw [heq, String.toList_append]
    rfl
  intro a b h
  unfold digestWith at h
  split at h
  next digest ha =>
    have hmem := mem_of_lookup ha
    split at h
    next digest' hb =>
      subst h
      exact congrArg Prod.fst (List.inj_on_of_nodup_map hnodup hmem (mem_of_lookup hb) rfl)
    next => exact absurd h (hother hmem)
  next =>
    split at h
    next digest' hb => exact absurd h.symm (hother (mem_of_lookup hb))
    next =>
      have hchars := congrArg String.toList h
      rw [String.toList_append, String.toList_append] at hchars
      exact String.toList_injective (List.append_cancel_left hchars)

end Python
