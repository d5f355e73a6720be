import Mathlib.Data.List.Infix
import Mathlib.Data.Option.Basic

/-!
# Partial transition functions and their runs

A system is a partial step function `S → L → Option S`: `none` says that the
step cannot be taken in that state. A run is a list of labels. `Always` states
a property of every state a run passes through, `Along` a condition on every
step it takes, in the state the step starts from. The rules below are the
induction over runs, done once: an invariant kept by the steps that meet a
condition holds along every run whose steps all meet it.
-/

namespace Machine

structure System (S L : Type*) where
  step : S → L → Option S

namespace System
variable {S L : Type*} (M : System S L)

/-- The state a run ends in; `none` when one of its steps cannot be taken. -/
def exec : S → List L → Option S
  | s, [] => some s
  | s, l :: ls => (M.step s l).bind fun t => exec t ls

/-- `I` holds in every state the run passes through, its first one included. -/
def Always (I : S → Prop) : S → List L → Prop
  | s, [] => I s
  | s, l :: ls => I s ∧ ∀ t ∈ M.step s l, Always I t ls

/-- Every step the run takes meets `G` in the state it starts from. -/
def Along (G : S → L → Prop) : S → List L → Prop
  | _, [] => True
  | s, l :: ls => ∀ t ∈ M.step s l, G s l ∧ Along G t ls

@[simp] theorem exec_nil (s : S) : M.exec s [] = some s := rfl

@[simp] theorem exec_cons (s : S) (l : L) (ls : List L) :
    M.exec s (l :: ls) = (M.step s l).bind fun t => M.exec t ls := rfl

theorem exec_cons_eq_some {s t : S} {l : L} {ls : List L} (h : M.exec s (l :: ls) = some t) :
    ∃ u, M.step s l = some u ∧ M.exec u ls = some t := Option.bind_eq_some_iff.mp h

theorem exec_append (s : S) (ls ms : List L) :
    M.exec s (ls ++ ms) = (M.exec s ls).bind fun t => M.exec t ms := by
  induction ls generalizing s with
  | nil => rfl
  | cons l ls ih =>
    simp only [List.cons_append, exec_cons, Option.bind_assoc]
    exact congrArg _ (funext ih)

theorem exec_append_of_some {s t : S} {ls : List L} (h : M.exec s ls = some t) (ms : List L) :
    M.exec s (ls ++ ms) = M.exec t ms := by
  rw [exec_append, h, Option.bind_some]

theorem always_head {I : S → Prop} {s : S} {ls : List L} (h : M.Always I s ls) : I s := by
  cases ls with
  | nil => exact h
  | cons l ls => exact h.1

/-- `Always` is a statement about the states that the beginnings of the run end in. -/
theorem always_iff {I : S → Prop} {s : S} {ls : List L} :
    M.Always I s ls ↔ ∀ ms, ms <+: ls → ∀ t, M.exec s ms = some t → I t := by
  induction ls generalizing s with
  | nil =>
    constructor
    · intro h ms hms t ht
      obtain rfl := List.prefix_nil.mp hms
      obtain rfl := Option.some.inj ht
      exact h
    · intro h
      exact h [] (List.nil_prefix) s rfl
  | cons l ls ih =>
    constructor
    · rintro ⟨hs, hstep⟩ ms hms t ht
      cases ms with
      | nil =>
        obtain rfl := Option.some.inj ht
        exact hs
      | cons m ms =>
        obtain ⟨rfl, hpre⟩ := List.cons_prefix_cons.mp hms
        obtain ⟨u, hu, hrest⟩ := M.exec_cons_eq_some ht
        exact ih.mp (hstep u hu) ms hpre t hrest
    · intro h
      refine ⟨h [] List.nil_prefix s rfl, fun t ht => ih.mpr fun ms hms u hu => ?_⟩
      refine h (l :: ms) (List.cons_prefix_cons.mpr ⟨rfl, hms⟩) u ?_
      rw [exec_cons, Option.mem_def.mp ht, Option.bind_some, hu]

theorem always_exec {I : S → Prop} {s t : S} {ls : List L} (h : M.Always I s ls)
    (ht : M.exec s ls = some t) : I t := M.always_iff.mp h ls (List.prefix_refl ls) t ht

theorem along_mono {G H : S → L → Prop} (hGH : ∀ s l, G s l → H s l) {s : S} {ls : List L}
    (h : M.Along G s ls) : M.Along H s ls := by
  induction ls generalizing s with
  | nil => trivial
  | cons l ls ih => exact fun t ht => ⟨hGH s l (h t ht).1, ih (h t ht).2⟩

theorem along_of_forall {G : S → L → Prop} {s : S} {ls : List L} (h : ∀ s, ∀ l ∈ ls, G s l) :
    M.Along G s ls := by
  induction ls generalizing s with
  | nil => trivial
  | cons l ls ih =>
    exact fun t _ => ⟨h s l List.mem_cons_self,
      ih fun s m hm => h s m (List.mem_cons_of_mem l hm)⟩

theorem always_mono {I J : S → Prop} (hIJ : ∀ s, I s → J s) {s : S} {ls : List L}
    (h : M.Always I s ls) : M.Always J s ls := by
  induction ls generalizing s with
  | nil => exact hIJ s h
  | cons l ls ih => exact ⟨hIJ s h.1, fun t ht => ih (h.2 t ht)⟩

theorem always_and {I J : S → Prop} {s : S} {ls : List L} (hI : M.Always I s ls)
    (hJ : M.Always J s ls) : M.Always (fun t => I t ∧ J t) s ls := by
  induction ls generalizing s with
  | nil => exact ⟨hI, hJ⟩
  | cons l ls ih => exact ⟨⟨hI.1, hJ.1⟩, fun t ht => ih (hI.2 t ht) (hJ.2 t ht)⟩

/-- The condition holds at a step in the middle of the run. -/
theorem along_at {G : S → L → Prop} {s t u : S} {ls ms : List L} {l : L}
    (h : M.Along G s (ls ++ l :: ms)) (hexec : M.exec s ls = some t) (hstep : M.step t l = some u) :
    G t l := by
  induction ls generalizing s with
  | nil =>
    obtain rfl := Option.some.inj hexec
    exact (h u hstep).1
  | cons l' ls ih =>
    obtain ⟨r, hr, hrest⟩ := M.exec_cons_eq_some hexec
    exact ih (h r hr).2 hrest

theorem along_and {G H : S → L → Prop} {s : S} {ls : List L} (hG : M.Along G s ls)
    (hH : M.Along H s ls) : M.Along (fun s l => G s l ∧ H s l) s ls := by
  induction ls generalizing s with
  | nil => trivial
  | cons l ls ih => exact fun t ht => ⟨⟨(hG t ht).1, (hH t ht).1⟩, ih (hG t ht).2 (hH t ht).2⟩

/-- What the state after a step says of it holds along a run through states that meet `I`. -/
theorem along_of_always {I : S → Prop} {G : S → L → Prop}
    (hstep : ∀ s l t, M.step s l = some t → I t → G s l) {s : S} {ls : List L}
    (h : M.Always I s ls) : M.Along G s ls := by
  induction ls generalizing s with
  | nil => trivial
  | cons l ls ih => exact fun t ht => ⟨hstep s l t ht (M.always_head (h.2 t ht)), ih (h.2 t ht)⟩

/-- The rule for what a step does: with an invariant kept by the steps that meet `G`, every step
of such a run does what it does in a state of the invariant. -/
theorem along_step {I : S → Prop} {G : S → L → Prop} {P : S → L → S → Prop}
    (hstep : ∀ s l t, I s → G s l → M.step s l = some t → I t ∧ P s l t) {s : S} {ls : List L}
    (hs : I s) (h : M.Along G s ls) :
    M.Along (fun s l => ∀ t, M.step s l = some t → P s l t) s ls := by
  induction ls generalizing s with
  | nil => trivial
  | cons l ls ih =>
    intro t ht
    have hG := (h t ht).1
    exact ⟨fun u hu => (hstep s l u hs hG hu).2, ih (hstep s l t hs hG ht).1 (h t ht).2⟩

/-- The invariant rule: what the steps meeting `G` keep holds along every run of such steps. -/
theorem always_of_along {I : S → Prop} {G : S → L → Prop}
    (hstep : ∀ s l t, I s → G s l → M.step s l = some t → I t) {s : S} {ls : List L}
    (hs : I s) (h : M.Along G s ls) : M.Always I s ls := by
  induction ls generalizing s with
  | nil => exact hs
  | cons l ls ih =>
    exact ⟨hs, fun t ht => ih (hstep s l t hs (h t ht).1 ht) (h t ht).2⟩

/-- With an invariant kept by the steps that meet `G`, a run of such steps meets what `G` gives in
a state of the invariant. -/
theorem along_of_along {I : S → Prop} {G H : S → L → Prop}
    (hstep : ∀ s l t, I s → G s l → M.step s l = some t → I t ∧ H s l) {s : S} {ls : List L}
    (hs : I s) (h : M.Along G s ls) : M.Along H s ls := by
  induction ls generalizing s with
  | nil => trivial
  | cons l ls ih =>
    intro t ht
    obtain ⟨hI, hH⟩ := hstep s l t hs (h t ht).1 ht
    exact ⟨hH, ih hI (h t ht).2⟩

/-- The invariant rule for runs without a condition on their steps. -/
theorem always_of_step {I : S → Prop} (hstep : ∀ s l t, I s → M.step s l = some t → I t)
    {s : S} (ls : List L) (hs : I s) : M.Always I s ls :=
  M.always_of_along (G := fun _ _ => True) (fun s l t hI _ => hstep s l t hI) hs
    (M.along_of_forall fun _ _ _ => trivial)

/-- When `G` tells exactly which steps keep `I`, among the labels `P` of a run, the run keeps
`I` exactly when all its steps meet `G`. -/
theorem always_iff_along {I : S → Prop} {G : S → L → Prop} {P : L → Prop}
    (hstep : ∀ s l t, P l → I s → M.step s l = some t → (I t ↔ G s l)) {s : S} {ls : List L}
    (hP : ∀ l ∈ ls, P l) (hs : I s) : M.Always I s ls ↔ M.Along G s ls := by
  induction ls generalizing s with
  | nil => exact ⟨fun _ => trivial, fun _ => hs⟩
  | cons l ls ih =>
    have hl : P l := hP l List.mem_cons_self
    have hls : ∀ m ∈ ls, P m := fun m hm => hP m (List.mem_cons_of_mem l hm)
    constructor
    · intro h t ht
      have hI : I t := M.always_head (h.2 t ht)
      exact ⟨(hstep s l t hl hs ht).mp hI, (ih hls hI).mp (h.2 t ht)⟩
    · intro h
      refine ⟨hs, fun t ht => ?_⟩
      have hI : I t := (hstep s l t hl hs ht).mpr (h t ht).1
      exact (ih hls hI).mpr (h t ht).2

/-- When, in the states that meet `I`, two conditions on steps agree and keep `I`, the runs that
meet one meet the other. -/
theorem along_iff {I : S → Prop} {G H : S → L → Prop}
    (hstep : ∀ s l t, I s → M.step s l = some t → (H s l ↔ G s l) ∧ (G s l → I t))
    {s : S} {ls : List L} (hs : I s) : M.Along H s ls ↔ M.Along G s ls := by
  induction ls generalizing s with
  | nil => exact Iff.rfl
  | cons l ls ih =>
    constructor
    · intro h t ht
      obtain ⟨hiff, hkeep⟩ := hstep s l t hs ht
      have hG := hiff.mp (h t ht).1
      exact ⟨hG, (ih (hkeep hG)).mp (h t ht).2⟩
    · intro h t ht
      obtain ⟨hiff, hkeep⟩ := hstep s l t hs ht
      have hG := (h t ht).1
      exact ⟨hiff.mpr hG, (ih (hkeep hG)).mpr (h t ht).2⟩

/-! ### Deciding both along a given run -/

theorem along_cons_of_some {G : S → L → Prop} {s t : S} {l : L} {ls : List L}
    (h : M.step s l = some t) : G s l ∧ M.Along G t ls ↔ M.Along G s (l :: ls) := by
  constructor
  · intro hg u hu
    obtain rfl := Option.some.inj (h.symm.trans hu)
    exact hg
  · exact fun hg => hg t h

theorem always_cons_of_some {I : S → Prop} {s t : S} {l : L} {ls : List L}
    (h : M.step s l = some t) : I s ∧ M.Always I t ls ↔ M.Always I s (l :: ls) := by
  constructor
  · rintro ⟨hs, hrest⟩
    refine ⟨hs, fun u hu => ?_⟩
    obtain rfl := Option.some.inj (h.symm.trans hu)
    exact hrest
  · exact fun hI => ⟨hI.1, hI.2 t h⟩

theorem along_cons_of_none {G : S → L → Prop} {s : S} {l : L} {ls : List L}
    (h : M.step s l = none) : M.Along G s (l :: ls) := by
  intro t ht
  rw [h] at ht
  cases ht

theorem always_cons_of_none {I : S → Prop} {s : S} {l : L} {ls : List L}
    (h : M.step s l = none) : I s ↔ M.Always I s (l :: ls) := by
  refine ⟨fun hs => ⟨hs, fun t ht => ?_⟩, And.left⟩
  rw [h] at ht
  cases ht

instance decidableAlong {G : S → L → Prop} [∀ s l, Decidable (G s l)] :
    ∀ s ls, Decidable (M.Along G s ls)
  | _, [] => isTrue trivial
  | s, l :: ls =>
    match h : M.step s l with
    | none => isTrue (M.along_cons_of_none h)
    | some t =>
      have := decidableAlong (G := G) t ls
      decidable_of_iff _ (M.along_cons_of_some h)

instance decidableAlways {I : S → Prop} [DecidablePred I] : ∀ s ls, Decidable (M.Always I s ls)
  | s, [] => inferInstanceAs (Decidable (I s))
  | s, l :: ls =>
    match h : M.step s l with
    | none => decidable_of_iff _ (M.always_cons_of_none h)
    | some t =>
      have := decidableAlways (I := I) t ls
      decidable_of_iff _ (M.always_cons_of_some h)

end System

end Machine
