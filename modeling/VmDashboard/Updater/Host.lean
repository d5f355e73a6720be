import VmDashboard.Machine.Table

/-!
# The Docker host, as far as the agent's updater sees it

Containers with an id and a name, both unique, and the operations of
`DockerAPI` on them. An operation answers `none` where the daemon refuses:
a name that is in use, a container that does not exist.
-/

namespace Updater
open Machine (Table)

structure Container where
  id : String
  name : String
  /-- Labelled `dashboard-agent.role=agent`. -/
  agent : Bool
  image : String
  /-- The version its image is labelled with. -/
  version : Option String
  running : Bool
  deriving DecidableEq

structure Host where
  containers : Table Container.id
  names : (containers.rows.map Container.name).Nodup

namespace Host

theorem eq_of_name {host : Host} {c d : Container} (hc : c ∈ host.containers.rows)
    (hd : d ∈ host.containers.rows) (h : c.name = d.name) : c = d :=
  List.inj_on_of_nodup_map host.names hc hd h

theorem eq_of_id {host : Host} {c d : Container} (hc : c ∈ host.containers.rows)
    (hd : d ∈ host.containers.rows) (h : c.id = d.id) : c = d :=
  List.inj_on_of_nodup_map host.containers.nodup hc hd h

def listAgents (host : Host) : List Container := host.containers.rows.filter Container.agent

def setRunning (host : Host) (id : String) (running : Bool) : Host where
  containers := host.containers.modify id (fun c => { c with running }) fun _ => rfl
  names := by
    have hname : (Container.name ∘ fun c => if c.id = id then { c with running } else c) =
        Container.name := by
      funext c
      simp only [Function.comp_apply]
      split <;> rfl
    simp only [Table.modify, List.map_map, hname]
    exact host.names

def start (host : Host) (id : String) : Option Host :=
  if (host.containers.lookup id).isSome then some (host.setRunning id true) else none

def stop (host : Host) (id : String) : Option Host :=
  if (host.containers.lookup id).isSome then some (host.setRunning id false) else none

def remove (host : Host) (id : String) : Option Host :=
  if (host.containers.lookup id).isSome then
    some ⟨host.containers.erase id, host.names.sublist (List.Sublist.map _ List.filter_sublist)⟩
  else none

theorem nodup_rename {rows : List Container} {id name : String}
    (hids : (rows.map Container.id).Nodup) (hnames : (rows.map Container.name).Nodup)
    (hfree : name ∉ rows.map Container.name) :
    ((rows.map fun c => if c.id = id then { c with name } else c).map Container.name).Nodup := by
  rw [List.map_map, List.nodup_map_iff_inj_on (hids.of_map _)]
  have hne : ∀ c ∈ rows, c.name ≠ name := fun c hc he => hfree (he ▸ List.mem_map_of_mem hc)
  intro c hc d hd h
  simp only [Function.comp_apply] at h
  by_cases hcid : c.id = id
  · by_cases hdid : d.id = id
    · exact List.inj_on_of_nodup_map hids hc hd (hcid.trans hdid.symm)
    · rw [if_pos hcid, if_neg hdid] at h
      exact absurd h.symm (hne d hd)
  · by_cases hdid : d.id = id
    · rw [if_neg hcid, if_pos hdid] at h
      exact absurd h (hne c hc)
    · rw [if_neg hcid, if_neg hdid] at h
      exact List.inj_on_of_nodup_map hnames hc hd h

def rename (host : Host) (id name : String) : Option Host :=
  if h : name ∉ host.containers.rows.map Container.name ∧
      (host.containers.lookup id).isSome = true then
    some ⟨host.containers.modify id (fun c => { c with name }) fun _ => rfl,
      nodup_rename host.containers.nodup host.names h.1⟩
  else none

def create (host : Host) (c : Container) : Option Host :=
  if h : c.id ∉ host.containers.rows.map Container.id ∧
      c.name ∉ host.containers.rows.map Container.name then
    some
      { containers :=
          ⟨host.containers.rows ++ [c], by
            rw [List.map_append, List.nodup_append]
            exact ⟨host.containers.nodup, List.nodup_singleton _, fun a ha b hb hab =>
              h.1 (List.mem_singleton.mp hb ▸ hab ▸ ha)⟩⟩
        names := by
          rw [List.map_append, List.nodup_append]
          exact ⟨host.names, List.nodup_singleton _, fun a ha b hb hab =>
            h.2 (List.mem_singleton.mp hb ▸ hab ▸ ha)⟩ }
  else none

/-! ### The containers after an operation, by id and by name -/

def byId (host : Host) (id : String) : Option Container := host.containers.lookup id

def named (host : Host) (name : String) : Option Container :=
  host.containers.rows.find? fun c => c.name = name

theorem byId_eq_some {host : Host} {id : String} {c : Container} :
    host.byId id = some c ↔ c ∈ host.containers.rows ∧ c.id = id := Table.lookup_eq_some

theorem named_eq_some {host : Host} {name : String} {c : Container} :
    host.named name = some c ↔ c ∈ host.containers.rows ∧ c.name = name :=
  Table.lookup_eq_some (t := ⟨host.containers.rows, host.names⟩)

theorem named_eq_none {host : Host} {name : String} :
    host.named name = none ↔ ∀ c ∈ host.containers.rows, c.name ≠ name :=
  Table.lookup_eq_none (t := ⟨host.containers.rows, host.names⟩)

theorem byId_setRunning (host : Host) (id id' : String) (running : Bool) :
    (host.setRunning id running).byId id' =
      if id' = id then (host.byId id').map fun c => { c with running } else host.byId id' :=
  Table.lookup_modify host.containers id id' (fun c => { c with running }) fun _ => rfl

theorem named_setRunning (host : Host) (id name : String) (running : Bool) :
    (host.setRunning id running).named name =
      (host.named name).map fun c => if c.id = id then { c with running } else c := by
  have hname : ((fun c : Container => decide (c.name = name)) ∘
      fun c => if c.id = id then { c with running } else c) = fun c => decide (c.name = name) := by
    funext c
    simp only [Function.comp_apply]
    split <;> rfl
  simp only [named, setRunning, Table.modify, List.find?_map, hname]

theorem byId_remove {host after : Host} {id : String} (h : host.remove id = some after)
    (id' : String) : after.byId id' = if id' = id then none else host.byId id' := by
  unfold remove at h
  split at h
  · obtain rfl := Option.some.inj h
    exact Table.lookup_erase ..
  · cases h

theorem named_remove {host after : Host} {id : String} (h : host.remove id = some after)
    (name : String) : after.named name = (host.named name).filter fun c => c.id ≠ id := by
  have hrows : after.containers.rows = host.containers.rows.filter fun c => c.id ≠ id := by
    unfold remove at h
    split at h
    · obtain rfl := Option.some.inj h
      rfl
    · cases h
  cases hn : host.named name with
  | none =>
    rw [Option.filter_none, named_eq_none, hrows]
    exact fun c hc => named_eq_none.mp hn c (List.mem_of_mem_filter hc)
  | some c =>
    obtain ⟨hc, hname⟩ := named_eq_some.mp hn
    by_cases hid : c.id = id
    · have hnone : Option.filter (fun d : Container => decide (d.id ≠ id)) (some c) = none := by
        simp [hid]
      rw [hnone, named_eq_none, hrows]
      intro d hd hdn
      rw [List.mem_filter, decide_eq_true_eq] at hd
      exact hd.2 (eq_of_name hc hd.1 (hname.trans hdn.symm) ▸ hid)
    · have hsome : Option.filter (fun d : Container => decide (d.id ≠ id)) (some c) = some c := by
        simp [hid]
      rw [hsome, named_eq_some, hrows]
      exact ⟨List.mem_filter.mpr ⟨hc, decide_eq_true hid⟩, hname⟩

theorem byId_create {host after : Host} {c : Container} (h : host.create c = some after)
    (id : String) : after.byId id = if id = c.id then some c else host.byId id := by
  unfold create at h
  split at h
  next hfree =>
    obtain rfl := Option.some.inj h
    have hins : host.containers.insert c = some
        ⟨host.containers.rows ++ [c], by
          rw [List.map_append, List.nodup_append]
          exact ⟨host.containers.nodup, List.nodup_singleton _, fun a ha b hb hab =>
            hfree.1 (List.mem_singleton.mp hb ▸ hab ▸ ha)⟩⟩ := dif_neg hfree.1
    exact Table.lookup_insert hins id
  next => cases h

theorem named_create {host after : Host} {c : Container} (h : host.create c = some after)
    (name : String) : after.named name = if name = c.name then some c else host.named name := by
  unfold create at h
  split at h
  next hfree =>
    obtain rfl := Option.some.inj h
    by_cases hname : name = c.name
    · rw [if_pos hname, named_eq_some]
      exact ⟨by simp, hname.symm⟩
    · rw [if_neg hname]
      have hne : decide (c.name = name) = false := decide_eq_false (Ne.symm hname)
      simp only [named, List.find?_append, List.find?_singleton, hne, Bool.false_eq_true, if_false,
        Option.or_none]
  next => cases h

theorem create_isSome {host : Host} {c : Container} (hid : host.byId c.id = none)
    (hname : host.named c.name = none) : ∃ after, host.create c = some after := by
  have hfree : c.id ∉ host.containers.rows.map Container.id ∧
      c.name ∉ host.containers.rows.map Container.name := by
    constructor
    · intro h
      obtain ⟨d, hd, hdc⟩ := List.mem_map.mp h
      exact Table.lookup_eq_none.mp hid d hd hdc
    · intro h
      obtain ⟨d, hd, hdc⟩ := List.mem_map.mp h
      exact named_eq_none.mp hname d hd hdc
  exact ⟨_, dif_pos hfree⟩

theorem rename_eq_none {host : Host} {id name : String} {c : Container}
    (h : host.named name = some c) : host.rename id name = none := by
  obtain ⟨hc, hname⟩ := named_eq_some.mp h
  refine dif_neg fun hg => hg.1 ?_
  rw [← hname]
  exact List.mem_map_of_mem hc

/-- A rename to a free name. -/
theorem rename_free {host : Host} {id name : String} {c : Container} (hc : host.byId id = some c)
    (hfree : host.named name = none) : ∃ after, host.rename id name = some after ∧
      (∀ id', after.byId id' = if id' = id then some { c with name } else host.byId id') ∧
      ∀ name', after.named name' = if name' = name then some { c with name }
        else (host.named name').filter fun d => d.id ≠ id := by
  have hg : name ∉ host.containers.rows.map Container.name ∧
      (host.containers.lookup id).isSome = true := by
    constructor
    · intro h
      obtain ⟨d, hd, hdn⟩ := List.mem_map.mp h
      exact named_eq_none.mp hfree d hd hdn
    · rw [show host.containers.lookup id = some c from hc, Option.isSome_some]
  refine ⟨_, dif_pos hg, fun id' => ?_, fun name' => ?_⟩
  · show (host.containers.modify id (fun c => { c with name }) fun _ => rfl).lookup id' = _
    rw [Table.lookup_modify]
    by_cases h : id' = id
    · rw [if_pos h, if_pos h, h, show host.containers.lookup id = some c from hc, Option.map_some]
    · rw [if_neg h, if_neg h]
      rfl
  · obtain ⟨hmem, hcid⟩ := byId_eq_some.mp hc
    have hrows : ∀ d, d ∈ (host.containers.rows.map fun c => if c.id = id then { c with name } else c) ↔
        (d = { c with name } ∨ (d ∈ host.containers.rows ∧ d.id ≠ id)) := by
      intro d
      rw [List.mem_map]
      constructor
      · rintro ⟨e, he, rfl⟩
        by_cases heid : e.id = id
        · rw [if_pos heid, eq_of_id he hmem (heid.trans hcid.symm)]
          exact .inl rfl
        · rw [if_neg heid]
          exact .inr ⟨he, heid⟩
      · rintro (rfl | ⟨hd, hdid⟩)
        · exact ⟨c, hmem, if_pos hcid⟩
        · exact ⟨d, hd, if_neg hdid⟩
    by_cases h : name' = name
    · rw [if_pos h, named_eq_some]
      exact ⟨(hrows _).mpr (.inl rfl), h.symm⟩
    · rw [if_neg h]
      cases hn : host.named name' with
      | none =>
        rw [Option.filter_none, named_eq_none]
        intro d hd
        rcases (hrows d).mp hd with rfl | ⟨hd, -⟩
        · exact fun he => h he.symm
        · exact named_eq_none.mp hn d hd
      | some d =>
        obtain ⟨hd, hdn⟩ := named_eq_some.mp hn
        by_cases hdid : d.id = id
        · have hnone : Option.filter (fun e : Container => decide (e.id ≠ id)) (some d) = none := by
            simp [hdid]
          rw [hnone, named_eq_none]
          intro e he hen
          rcases (hrows e).mp he with rfl | ⟨he, heid⟩
          · exact h hen.symm
          · exact heid (eq_of_name he hd (hen.trans hdn.symm) ▸ hdid)
        · have hsome : Option.filter (fun e : Container => decide (e.id ≠ id)) (some d) = some d := by
            simp [hdid]
          rw [hsome, named_eq_some]
          exact ⟨(hrows d).mpr (.inr ⟨hd, hdid⟩), hdn⟩

end Host

end Updater
