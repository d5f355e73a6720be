import VmDashboard.Machine.System

/-!
# Scripts of steps that can stop half way

A script is a list of steps of a system, taken one after the other. It stops at the first step that
cannot be taken, and it may be cut after any number of steps; what was done until then stays done.
-/

namespace Machine.System
variable {S L : Type*} (M : System S L)

theorem exec_singleton {s t : S} {l : L} (h : M.step s l = some t) : M.exec s [l] = some t := by
  rw [exec_cons, h]
  rfl

/-- The state a script leaves behind, and whether it came to its end. -/
def script (s : S) : Option ℕ → List L → S × Bool
  | cut, [] => (s, cut.isNone)
  | cut, l :: ls =>
    if cut = some 0 then (s, false)
    else
      match M.step s l with
      | none => (s, false)
      | some t => script t (cut.map Nat.pred) ls

/-- What a script that came to its end did. -/
theorem exec_of_script {s t : S} {cut : Option ℕ} {ls : List L}
    (h : M.script s cut ls = (t, true)) : cut = none ∧ M.exec s ls = some t := by
  induction ls generalizing s cut with
  | nil =>
    obtain ⟨rfl, hcut⟩ := Prod.mk.inj h
    exact ⟨Option.isNone_iff_eq_none.mp hcut, rfl⟩
  | cons l ls ih =>
    rw [script] at h
    by_cases hzero : cut = some 0
    · rw [if_pos hzero] at h
      cases h
    · rw [if_neg hzero] at h
      cases hstep : M.step s l with
      | none =>
        rw [hstep] at h
        cases h
      | some u =>
        rw [hstep] at h
        obtain ⟨hcut, hexec⟩ := ih h
        exact ⟨Option.map_eq_none_iff.mp hcut, by rw [exec_cons, hstep, Option.bind_some, hexec]⟩

theorem script_of_exec {s t : S} {ls : List L} (h : M.exec s ls = some t) :
    M.script s none ls = (t, true) := by
  induction ls generalizing s with
  | nil => exact congrArg (·, true) (Option.some.inj h)
  | cons l ls ih =>
    obtain ⟨u, hstep, hrest⟩ := M.exec_cons_eq_some h
    rw [script, if_neg nofun, hstep]
    exact ih hrest

theorem script_of_step_none {s : S} {l : L} (h : M.step s l = none) (cut : Option ℕ) (ls : List L) :
    M.script s cut (l :: ls) = (s, false) := by
  rw [script, h, ite_self]

/-- What a script that stopped did: the steps `taken`, and then it was cut or met a step that
cannot be taken. -/
theorem taken_of_script {s t : S} {cut : Option ℕ} {ls : List L}
    (h : M.script s cut ls = (t, false)) :
    ∃ taken rest, ls = taken ++ rest ∧ M.exec s taken = some t ∧
      ((∃ k, cut = some k ∧ taken = ls.take k) ∨ ∃ l more, rest = l :: more ∧ M.step t l = none) := by
  induction ls generalizing s cut with
  | nil =>
    obtain ⟨rfl, hcut⟩ := Prod.mk.inj h
    obtain ⟨k, hk⟩ := Option.isSome_iff_exists.mp (Option.isNone_eq_false_iff.mp hcut)
    exact ⟨[], [], rfl, rfl, .inl ⟨k, hk, List.take_nil.symm⟩⟩
  | cons l ls ih =>
    rw [script] at h
    by_cases hzero : cut = some 0
    · rw [if_pos hzero] at h
      obtain ⟨rfl, -⟩ := Prod.mk.inj h
      exact ⟨[], l :: ls, rfl, rfl, .inl ⟨0, hzero, rfl⟩⟩
    · rw [if_neg hzero] at h
      cases hstep : M.step s l with
      | none =>
        rw [hstep] at h
        obtain ⟨rfl, -⟩ := Prod.mk.inj h
        exact ⟨[], l :: ls, rfl, rfl, .inr ⟨l, ls, rfl, hstep⟩⟩
      | some u =>
        rw [hstep] at h
        obtain ⟨taken, rest, rfl, hexec, hend⟩ := ih h
        refine ⟨l :: taken, rest, rfl, by rw [exec_cons, hstep, Option.bind_some, hexec], ?_⟩
        rcases hend with ⟨k, hk, htaken⟩ | hend
        · obtain ⟨j, hj, rfl⟩ := Option.map_eq_some_iff.mp hk
          have hpos : 0 < j := Nat.pos_of_ne_zero fun hj0 => hzero (hj0 ▸ hj)
          refine .inl ⟨j, hj, ?_⟩
          rw [← Nat.succ_pred_eq_of_pos hpos, List.take_succ_cons, ← htaken]
        · exact .inr hend

/-- A script takes steps from its beginning: all of them, those before the cut, or those before one
that cannot be taken. -/
theorem script_outcome (s : S) (cut : Option ℕ) (ls : List L) :
    ∃ taken rest, ls = taken ++ rest ∧ M.exec s taken = some (M.script s cut ls).1 ∧
      (rest = [] ∨ (∃ k, cut = some k ∧ taken = ls.take k) ∨
        ∃ l more, rest = l :: more ∧ M.step (M.script s cut ls).1 l = none) := by
  cases hscript : M.script s cut ls with
  | mk t ended =>
    cases ended with
    | true => exact ⟨ls, [], (List.append_nil ls).symm, (M.exec_of_script hscript).2, .inl rfl⟩
    | false =>
      obtain ⟨taken, rest, hls, hexec, hend⟩ := M.taken_of_script hscript
      exact ⟨taken, rest, hls, hexec, .inr hend⟩

/-- What every step of a script keeps holds wherever it stops. -/
theorem script_keeps {P : S → Prop} {ls : List L}
    (hstep : ∀ s t, ∀ l ∈ ls, P s → M.step s l = some t → P t) {s : S} (hs : P s) (cut : Option ℕ) :
    P (M.script s cut ls).1 := by
  induction ls generalizing s cut with
  | nil => exact hs
  | cons l ls ih =>
    rw [script]
    by_cases hzero : cut = some 0
    · rw [if_pos hzero]
      exact hs
    · rw [if_neg hzero]
      cases htaken : M.step s l with
      | none => exact hs
      | some t =>
        have ht : P t := hstep s t l List.mem_cons_self hs htaken
        exact ih (fun a b m hm => hstep a b m (List.mem_cons_of_mem l hm)) ht _

/-- What holds before a script holds after it, or one of its steps was of the kind that ends it. -/
theorem exec_keeps {P : S → Prop} {Q : L → Prop}
    (hstep : ∀ s l t, M.step s l = some t → P s → P t ∨ Q l) {s t : S} {ls : List L}
    (h : M.exec s ls = some t) (hs : P s) : P t ∨ ∃ l ∈ ls, Q l := by
  induction ls generalizing s with
  | nil => exact .inl (Option.some.inj h ▸ hs)
  | cons l ls ih =>
    obtain ⟨u, hu, hrest⟩ := M.exec_cons_eq_some h
    rcases hstep s l u hu hs with hP | hQ
    · rcases ih hrest hP with ht | ⟨m, hm, hQ⟩
      · exact .inl ht
      · exact .inr ⟨m, List.mem_cons_of_mem l hm, hQ⟩
    · exact .inr ⟨l, List.mem_cons_self, hQ⟩

/-- What holds after a script held before it, or one of its steps brought it about. -/
theorem exec_gains {P : S → Prop} {Q : L → Prop}
    (hstep : ∀ s l t, M.step s l = some t → P t → P s ∨ Q l) {s t : S} {ls : List L}
    (h : M.exec s ls = some t) (ht : P t) : P s ∨ ∃ l ∈ ls, Q l := by
  by_contra hnone
  obtain ⟨hs, hnot⟩ := not_or.mp hnone
  have hback : ∀ s l t, M.step s l = some t → ¬P s → ¬P t ∨ Q l := by
    intro a l b hab ha
    by_cases hb : P b
    · exact .inr ((hstep a l b hab hb).resolve_left ha)
    · exact .inl hb
  rcases M.exec_keeps hback h hs with hnt | hQ
  · exact hnt ht
  · exact hnot hQ

end Machine.System
