import Mathlib.Data.List.Basic

/-!
# Machines that read a text and yield another

A step may refuse a letter, and an end of the text may be refused in the state it is met in.
-/

namespace Machine

structure Transducer (S A B : Type*) where
  step : S → A → Option (S × List B)
  finish : S → Option (List B)

namespace Transducer
variable {S A B : Type*} (M : Transducer S A B)

/-- The state after a text that need not end here, and what it yields. -/
def run : S → List A → Option (S × List B)
  | s, [] => some (s, [])
  | s, a :: as =>
    match M.step s a with
    | none => none
    | some (t, out) => (run t as).map fun (u, rest) => (u, out ++ rest)

def read : S → List A → Option (List B)
  | s, [] => M.finish s
  | s, a :: as =>
    match M.step s a with
    | none => none
    | some (t, out) => (read t as).map fun rest => out ++ rest

variable {M} {s t u : S} {a : A} {as front back rest : List A} {out out' tokens : List B}

theorem run_cons (h : M.step s a = some (t, out)) (as : List A) :
    M.run s (a :: as) = (M.run t as).map fun (u, rest) => (u, out ++ rest) := by
  show (match M.step s a with | none => none | some (t, out) => _) = _
  rw [h]

theorem read_cons (h : M.step s a = some (t, out)) (as : List A) :
    M.read s (a :: as) = (M.read t as).map fun rest => out ++ rest := by
  show (match M.step s a with | none => none | some (t, out) => _) = _
  rw [h]

theorem run_cons_eq_some (h : M.run s (a :: as) = some (u, tokens)) :
    ∃ t out rest, M.step s a = some (t, out) ∧ M.run t as = some (u, rest) ∧
      tokens = out ++ rest := by
  cases hstep : M.step s a with
  | none =>
    have hnone : M.run s (a :: as) = none := by
      show (match M.step s a with | none => none | some (t, out) => _) = _
      rw [hstep]
    rw [hnone] at h
    cases h
  | some next =>
    obtain ⟨t, out⟩ := next
    rw [run_cons hstep, Option.map_eq_some_iff] at h
    obtain ⟨⟨last, rest⟩, hrest, heq⟩ := h
    obtain ⟨rfl, rfl⟩ := Prod.mk.inj heq
    exact ⟨t, out, rest, rfl, hrest, rfl⟩

theorem read_cons_eq_some (h : M.read s (a :: as) = some tokens) :
    ∃ t out rest, M.step s a = some (t, out) ∧ M.read t as = some rest ∧ tokens = out ++ rest := by
  cases hstep : M.step s a with
  | none =>
    have hnone : M.read s (a :: as) = none := by
      show (match M.step s a with | none => none | some (t, out) => _) = _
      rw [hstep]
    rw [hnone] at h
    cases h
  | some next =>
    obtain ⟨t, out⟩ := next
    rw [read_cons hstep, Option.map_eq_some_iff] at h
    obtain ⟨rest, hrest, rfl⟩ := h
    exact ⟨t, out, rest, rfl, hrest, rfl⟩

theorem read_append (h : M.run s front = some (t, out)) (rest : List A) :
    M.read s (front ++ rest) = (M.read t rest).map fun tokens => out ++ tokens := by
  induction front generalizing s out with
  | nil =>
    obtain ⟨rfl, rfl⟩ := Prod.mk.inj (Option.some.inj h)
    cases hread : M.read s rest with
    | none => rw [List.nil_append, hread, Option.map_none]
    | some tokens => rw [List.nil_append, hread, Option.map_some, List.nil_append]
  | cons a front ih =>
    obtain ⟨middle, first, second, hstep, hrun, rfl⟩ := run_cons_eq_some h
    rw [List.cons_append, read_cons hstep, ih hrun, Option.map_map]
    congr 1
    funext tokens
    exact (List.append_assoc first second tokens).symm

theorem read_append_eq_some (h : M.read s (front ++ rest) = some tokens) :
    ∃ t out tail, M.run s front = some (t, out) ∧ M.read t rest = some tail ∧
      tokens = out ++ tail := by
  induction front generalizing s tokens with
  | nil => exact ⟨s, [], tokens, rfl, h, rfl⟩
  | cons a front ih =>
    obtain ⟨middle, first, second, hstep, hread, rfl⟩ := read_cons_eq_some h
    obtain ⟨t, out, tail, hrun, htail, rfl⟩ := ih hread
    refine ⟨t, first ++ out, tail, ?_, htail, (List.append_assoc first out tail).symm⟩
    rw [run_cons hstep, hrun]
    rfl

/-- What follows a front that is read alone is read on its own. -/
theorem read_append_iff (h : M.run s front = some (t, out)) (rest : List A) (tokens : List B) :
    M.read s (front ++ rest) = some (out ++ tokens) ↔ M.read t rest = some tokens := by
  rw [read_append h, Option.map_eq_some_iff]
  constructor
  · rintro ⟨tokens', hread, heq⟩
    rw [hread, List.append_cancel_left heq]
  · intro hread
    exact ⟨tokens, hread, rfl⟩

theorem run_append (hfront : M.run s front = some (t, out)) (hback : M.run t back = some (u, out')) :
    M.run s (front ++ back) = some (u, out ++ out') := by
  induction front generalizing s out with
  | nil =>
    obtain ⟨rfl, rfl⟩ := Prod.mk.inj (Option.some.inj hfront)
    exact hback
  | cons a front ih =>
    obtain ⟨middle, first, second, hstep, hrun, rfl⟩ := run_cons_eq_some hfront
    rw [List.cons_append, run_cons hstep, ih hrun, Option.map_some, List.append_assoc]

end Transducer
end Machine
