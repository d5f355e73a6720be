import Mathlib.Data.List.Basic
import Mathlib.Data.List.Nodup

/-!
# Tables with a primary key

Rows in insertion order together with the proof that no two carry the same key,
so a key names at most one row and every update of "the row with this key" is
well defined. `modify` is an update by key, `insert` a checked insertion
(`none` when the key is taken) and `erase` a deletion by key.
-/

namespace Machine

structure Table {ρ κ : Type*} (key : ρ → κ) where
  rows : List ρ
  nodup : (rows.map key).Nodup

namespace Table
variable {ρ κ : Type*} {key : ρ → κ}

def empty : Table key := ⟨[], List.nodup_nil⟩

theorem eq_of_key {t : Table key} {r r' : ρ} (hr : r ∈ t.rows) (hr' : r' ∈ t.rows)
    (h : key r = key r') : r = r' := List.inj_on_of_nodup_map t.nodup hr hr' h

/-- `f` on every row. -/
def map (t : Table key) (f : ρ → ρ) (hf : ∀ r, key (f r) = key r) : Table key :=
  ⟨t.rows.map f, by
    have hk : key ∘ f = key := funext hf
    rw [List.map_map, hk]
    exact t.nodup⟩

def filter (t : Table key) (p : ρ → Bool) : Table key :=
  ⟨t.rows.filter p, t.nodup.sublist (List.Sublist.map key List.filter_sublist)⟩

variable [DecidableEq κ]

def lookup (t : Table key) (k : κ) : Option ρ := t.rows.find? fun r => key r = k

def modify (t : Table key) (k : κ) (f : ρ → ρ) (hf : ∀ r, key (f r) = key r) :
    Table key :=
  ⟨t.rows.map fun r => if key r = k then f r else r, by
    have hk : (key ∘ fun r => if key r = k then f r else r) = key := by
      funext r
      simp only [Function.comp_apply]
      split
      · exact hf r
      · rfl
    rw [List.map_map, hk]
    exact t.nodup⟩

def insert (t : Table key) (r : ρ) : Option (Table key) :=
  if h : key r ∈ t.rows.map key then none
  else some ⟨t.rows ++ [r], by
    rw [List.map_append, List.nodup_append]
    refine ⟨t.nodup, List.nodup_singleton _, ?_⟩
    intro a ha b hb hab
    obtain rfl := List.mem_singleton.mp hb
    exact h (hab ▸ ha)⟩

def erase (t : Table key) (k : κ) : Table key :=
  ⟨t.rows.filter fun r => key r ≠ k, t.nodup.sublist (List.Sublist.map key List.filter_sublist)⟩

/-- `r` in place of what its key held before. -/
def put (t : Table key) (r : ρ) : Table key :=
  ⟨(t.erase (key r)).rows ++ [r], by
    rw [List.map_append, List.nodup_append]
    refine ⟨(t.erase (key r)).nodup, List.nodup_singleton _, ?_⟩
    intro a ha b hb hab
    obtain rfl := List.mem_singleton.mp hb
    obtain ⟨r', hr', hk⟩ := List.mem_map.mp ha
    exact of_decide_eq_true (List.mem_filter.mp hr').2 (hk.trans hab)⟩

theorem lookup_eq_some {t : Table key} {k : κ} {r : ρ} :
    t.lookup k = some r ↔ r ∈ t.rows ∧ key r = k := by
  constructor
  · intro h
    have hk := List.find?_some h
    exact ⟨List.mem_of_find?_eq_some h, of_decide_eq_true hk⟩
  · rintro ⟨hr, rfl⟩
    cases h : t.rows.find? fun r' => decide (key r' = key r) with
    | none =>
      have hn := List.find?_eq_none.mp h r hr
      exact absurd (decide_eq_true rfl) hn
    | some r' =>
      have hk : key r' = key r := by simpa using List.find?_some h
      have hm := List.mem_of_find?_eq_some h
      exact h.trans (congrArg some (eq_of_key hm hr hk))

theorem lookup_map {t : Table key} {k : κ} {f : ρ → ρ} (hf : ∀ r, key (f r) = key r) {r : ρ}
    (h : t.lookup k = some r) : (t.map f hf).lookup k = some (f r) := by
  obtain ⟨hr, rfl⟩ := lookup_eq_some.mp h
  exact lookup_eq_some.mpr ⟨List.mem_map_of_mem hr, hf r⟩

theorem of_lookup_filter {t : Table key} {p : ρ → Bool} {k : κ} {r : ρ}
    (h : (t.filter p).lookup k = some r) : t.lookup k = some r ∧ p r = true := by
  obtain ⟨hr, hk⟩ := lookup_eq_some.mp h
  obtain ⟨hmem, hp⟩ := List.mem_filter.mp hr
  exact ⟨lookup_eq_some.mpr ⟨hmem, hk⟩, hp⟩

theorem lookup_filter_of_some {t : Table key} {p : ρ → Bool} {k : κ} {r : ρ}
    (h : t.lookup k = some r) (hp : p r = true) : (t.filter p).lookup k = some r := by
  obtain ⟨hr, hk⟩ := lookup_eq_some.mp h
  exact lookup_eq_some.mpr ⟨List.mem_filter.mpr ⟨hr, hp⟩, hk⟩

theorem lookup_eq_none {t : Table key} {k : κ} : t.lookup k = none ↔ ∀ r ∈ t.rows, key r ≠ k := by
  simp only [lookup, List.find?_eq_none, decide_eq_true_eq, ne_eq]

theorem lookup_key {t : Table key} {k : κ} {r : ρ} (h : t.lookup k = some r) : key r = k :=
  (lookup_eq_some.mp h).2

@[simp] theorem lookup_empty (k : κ) : (empty : Table key).lookup k = none := rfl

theorem lookup_modify (t : Table key) (k k' : κ) (f : ρ → ρ) (hf : ∀ r, key (f r) = key r) :
    (t.modify k f hf).lookup k' = if k' = k then (t.lookup k').map f else t.lookup k' := by
  have hkey : ∀ r, key (if key r = k then f r else r) = key r := by
    intro r
    split
    · exact hf r
    · rfl
  have hcomp : ((fun r' => decide (key r' = k')) ∘ fun r => if key r = k then f r else r) =
      fun r => decide (key r = k') := by
    funext r
    simp only [Function.comp_apply, hkey]
  simp only [lookup, modify, List.find?_map, hcomp]
  cases h : t.rows.find? fun r => decide (key r = k') with
  | none => simp
  | some r =>
    have hr : key r = k' := by simpa using List.find?_some h
    simp only [Option.map_some, hr]
    split <;> rfl

@[simp] theorem lookup_modify_self (t : Table key) (k : κ) (f : ρ → ρ)
    (hf : ∀ r, key (f r) = key r) : (t.modify k f hf).lookup k = (t.lookup k).map f := by
  rw [lookup_modify, if_pos rfl]

theorem lookup_modify_of_ne (t : Table key) {k k' : κ} (h : k' ≠ k) (f : ρ → ρ)
    (hf : ∀ r, key (f r) = key r) : (t.modify k f hf).lookup k' = t.lookup k' := by
  rw [lookup_modify, if_neg h]

theorem of_lookup_modify {t : Table key} {k k' : κ} (f : ρ → ρ) (hf : ∀ r, key (f r) = key r)
    {r' : ρ} (h : (t.modify k f hf).lookup k' = some r') :
    ∃ r, t.lookup k' = some r ∧ (k' = k ∧ r' = f r ∨ k' ≠ k ∧ r' = r) := by
  rw [lookup_modify] at h
  split at h
  next hk =>
    obtain ⟨r, hr, rfl⟩ := Option.map_eq_some_iff.mp h
    exact ⟨r, hr, .inl ⟨hk, rfl⟩⟩
  next hk => exact ⟨r', h, .inr ⟨hk, rfl⟩⟩

theorem lookup_modify_of_some {t : Table key} {k k' : κ} (f : ρ → ρ)
    (hf : ∀ r, key (f r) = key r) {r : ρ} (h : t.lookup k' = some r) :
    (t.modify k f hf).lookup k' = some (if k' = k then f r else r) := by
  rw [lookup_modify, h]
  split <;> rfl

theorem mem_modify {t : Table key} {k : κ} {f : ρ → ρ} {hf : ∀ r, key (f r) = key r} {r' : ρ} :
    r' ∈ (t.modify k f hf).rows ↔
      (∃ r ∈ t.rows, key r = k ∧ r' = f r) ∨ r' ∈ t.rows ∧ key r' ≠ k := by
  constructor
  · intro h
    obtain ⟨r, hr, rfl⟩ := List.mem_map.mp h
    by_cases hk : key r = k
    · exact .inl ⟨r, hr, hk, if_pos hk⟩
    · rw [if_neg hk]
      exact .inr ⟨hr, hk⟩
  · rintro (⟨r, hr, hk, rfl⟩ | ⟨hr, hk⟩)
    · exact List.mem_map.mpr ⟨r, hr, if_pos hk⟩
    · exact List.mem_map.mpr ⟨r', hr, if_neg hk⟩

theorem of_modify_mem {t : Table key} {k : κ} {f : ρ → ρ} (hf : ∀ r, key (f r) = key r) {r' : ρ}
    (h : r' ∈ (t.modify k f hf).rows) :
    (∃ r ∈ t.rows, key r = k ∧ r' = f r) ∨ r' ∈ t.rows ∧ key r' ≠ k := mem_modify.mp h

theorem modify_mem {t : Table key} {k : κ} {f : ρ → ρ} (hf : ∀ r, key (f r) = key r) {r : ρ}
    (hr : r ∈ t.rows) (hk : key r = k) : f r ∈ (t.modify k f hf).rows :=
  mem_modify.mpr (.inl ⟨r, hr, hk, rfl⟩)

theorem modify_mem_of_ne {t : Table key} {k : κ} {f : ρ → ρ} (hf : ∀ r, key (f r) = key r) {r : ρ}
    (hr : r ∈ t.rows) (hk : key r ≠ k) : r ∈ (t.modify k f hf).rows :=
  mem_modify.mpr (.inr ⟨hr, hk⟩)

theorem insert_eq_some {t u : Table key} {r : ρ} (h : t.insert r = some u) :
    t.lookup (key r) = none ∧ u.rows = t.rows ++ [r] := by
  unfold insert at h
  split at h
  · cases h
  next hn =>
    obtain rfl := Option.some.inj h
    exact ⟨lookup_eq_none.mpr fun r' hr' hk => hn (hk ▸ List.mem_map_of_mem hr'), rfl⟩

theorem insert_isSome_iff {t : Table key} {r : ρ} :
    (t.insert r).isSome = true ↔ t.lookup (key r) = none := by
  unfold insert
  split
  next h =>
    obtain ⟨r', hr', hk⟩ := List.mem_map.mp h
    refine ⟨fun hsome => ?_, fun hnone => absurd hk (lookup_eq_none.mp hnone r' hr')⟩
    cases hsome
  next h =>
    exact ⟨fun _ => lookup_eq_none.mpr fun r' hr' hk => h (hk ▸ List.mem_map_of_mem hr'),
      fun _ => rfl⟩

theorem mem_insert {t u : Table key} {r r' : ρ} (h : t.insert r = some u) :
    r' ∈ u.rows ↔ r' ∈ t.rows ∨ r' = r := by
  rw [(insert_eq_some h).2, List.mem_append, List.mem_singleton]

theorem lookup_insert {t u : Table key} {r : ρ} (h : t.insert r = some u) (k : κ) :
    u.lookup k = if k = key r then some r else t.lookup k := by
  obtain ⟨hnone, hrows⟩ := insert_eq_some h
  simp only [lookup, hrows, List.find?_append]
  split
  next hk =>
    subst hk
    have hn : t.rows.find? (fun r' => decide (key r' = key r)) = none := hnone
    simp [hn]
  next hk =>
    simp [Ne.symm hk]

theorem lookup_insert_of_some {t u : Table key} {r : ρ} (h : t.insert r = some u) {k : κ} {r' : ρ}
    (hk : t.lookup k = some r') : u.lookup k = some r' := by
  rw [lookup_insert h]
  split
  next he => rw [he, (insert_eq_some h).1] at hk; cases hk
  next => exact hk

theorem lookup_erase (t : Table key) (k k' : κ) :
    (t.erase k).lookup k' = if k' = k then none else t.lookup k' := by
  split
  next hk =>
    subst hk
    exact lookup_eq_none.mpr fun r hr => by
      have := List.of_mem_filter hr
      exact of_decide_eq_true this
  next hk =>
    cases h : t.lookup k' with
    | none =>
      exact lookup_eq_none.mpr fun r hr => lookup_eq_none.mp h r (List.mem_of_mem_filter hr)
    | some r =>
      obtain ⟨hr, hkr⟩ := lookup_eq_some.mp h
      refine lookup_eq_some.mpr ⟨List.mem_filter.mpr ⟨hr, decide_eq_true ?_⟩, hkr⟩
      rw [hkr]
      exact hk

theorem lookup_put (t : Table key) (r : ρ) (k : κ) :
    (t.put r).lookup k = if k = key r then some r else t.lookup k := by
  have herase := t.lookup_erase (key r) k
  simp only [lookup, put, List.find?_append] at herase ⊢
  rw [herase]
  by_cases hk : k = key r
  · simp [hk]
  · simp [hk, Ne.symm hk]

theorem mem_erase {t : Table key} {k : κ} {r : ρ} : r ∈ (t.erase k).rows ↔ r ∈ t.rows ∧ key r ≠ k := by
  simp only [erase, List.mem_filter, decide_eq_true_eq]

theorem mem_put {t : Table key} {r r' : ρ} :
    r' ∈ (t.put r).rows ↔ r' = r ∨ (r' ∈ t.rows ∧ key r' ≠ key r) := by
  simp only [put, List.mem_append, List.mem_singleton, mem_erase, or_comm]

/-- Rows put one after the other: the last with a key stays. -/
theorem lookup_foldl_put (t : Table key) (rows : List ρ) (k : κ) :
    (rows.foldl put t).lookup k = (rows.reverse.find? fun r => key r = k).or (t.lookup k) := by
  induction rows generalizing t with
  | nil => rfl
  | cons r rows ih =>
    rw [List.foldl_cons, ih, lookup_put, List.reverse_cons, List.find?_append, Option.or_assoc]
    congr 1
    by_cases hk : k = key r
    · simp [hk]
    · simp [hk, Ne.symm hk]

end Table

end Machine
