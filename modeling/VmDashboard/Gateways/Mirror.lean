import VmDashboard.Gateways.Reconcile

/-!
# The registry mirrors the cloud

What a row may claim of the cloud and what a host may expect of the registry, while operations are
in flight; kept by every step that writes only what is still true of the hosts.
-/

namespace Gateways.Registry
open Machine (System Table)
open Python (strip)

variable {cfg : Config} {s t : State}

/-- `CLOUDS` -/
def clouds : List Cloud := [.aws, .azure, .gcp, .oci]

/-- The addresses that `live_egress_ips` gives are those of the hosts. -/
def Mirrors (s : State) : Prop :=
  ∀ cloud ∈ clouds,
    (∀ host ∈ s.hosts.rows, host.cloud = cloud → strip host.address ≠ "" →
      strip host.address ∈ liveEgressIps s.rows cloud) ∧
    ∀ ip ∈ liveEgressIps s.rows cloud,
      ∃ host ∈ s.hosts.rows, host.cloud = cloud ∧ strip host.address = ip

instance (s : State) : Decidable (Mirrors s) := by unfold Mirrors; infer_instance

/-- After the whole of a pass, with no operation in flight, the registry mirrors the cloud. -/
def MirrorsAfter (t : State) : Event → Prop
  | .write _ => t.ops.rows = [] → Mirrors t
  | _ => True

instance (t : State) : (event : Event) → Decidable (MirrorsAfter t event)
  | .write _ => inferInstanceAs (Decidable (_ → _))
  | .ensure .. | .requestDeploy .. | .requestTeardown .. | .idle .. | .look .. | .launch ..
  | .learn .. | .record .. | .finish .. | .remove .. | .retire .. | .read .. | .lookUp ..
  | .lookUpFailed .. | .timeOut .. => .isTrue trivial

/-- No step of a pass changes a row of a cloud whose look-up failed. -/
def SparesFailed (s t : State) : Event → Prop
  | .write pass => ∀ p ∈ s.passes.lookup pass, ∀ cloud ∈ clouds, p.answers.lookup cloud = some none →
      t.rows.rows.filter (fun row => row.cloud = cloud) =
        s.rows.rows.filter fun row => row.cloud = cloud
  | .read .. | .lookUp .. | .lookUpFailed .. | .timeOut .. => t.rows.rows = s.rows.rows
  | _ => True

/-! ### Writes of what is still true -/

/-- An ensure in flight has the host, and is still to write its row. -/
def State.Holds (s : State) (host : Host) : Prop :=
  ∃ op ∈ s.ops.rows, ∃ held ∈ op.stage.host, held.id = host.id

instance (s : State) (host : Host) : Decidable (s.Holds host) := by
  unfold State.Holds
  infer_instance

/-- No host of that cloud and name stands but for those an ensure in flight has. -/
def State.Gone (s : State) (key : Cloud × String) : Prop :=
  ∀ host ∈ s.hosts.rows, host.key = key → s.Holds host

instance (s : State) (key : Cloud × String) : Decidable (s.Gone key) := by
  unfold State.Gone
  infer_instance

/-- The rows that a teardown writes when it ends. -/
def Task.owes (cfg : Config) (row : Gateway) : Task → Bool
  | .teardown gatewayId .. => row.id = gatewayId
  | .idle cloud _ => row.key = (cloud, managedHostName cfg cloud)
  | .ensure .. | .deploy .. => false

/-- What the pass was told of the row's host is so. -/
def Pass.Sees (pass : Pass) (s : State) (loaded : Gateway) : Prop :=
  match ((pass.answers.lookup loaded.cloud).join).map (lookupLast · loaded.name) with
  | some none => s.Gone loaded.key
  | some (some info) => ∃ host ∈ s.hosts.rows, host.key = loaded.key ∧
      host.hostId = info.hostId ∧ host.address = info.egressIp
  | none => True

instance (pass : Pass) (s : State) (loaded : Gateway) : Decidable (pass.Sees s loaded) := by
  unfold Pass.Sees
  split <;> infer_instance

/-- A host is launched where none of its cloud and name stands; an ensure records a host that
stands, on a row that is not deleted; a teardown deletes hosts while its row is not deleted; a row
is marked deleted when its host is gone; and a pass changes a row that is as it was read, by an
answer that is still true. -/
def Orderly (cfg : Config) (s : State) : Event → Prop
  | .launch id _ zone _ => ∀ op ∈ s.ops.lookup id, ∀ host ∈ named s.hosts (op.key cfg),
      namesOnce host.cloud ∧
        launchPlace cfg host.cloud op.task.region op.task.zone zone = some host.place
  | .record id => ∀ op ∈ s.ops.lookup id, ∀ host ∈ op.stage.host, host ∈ s.hosts.rows
  | .finish id _ => ∀ op ∈ s.ops.lookup id, (∀ host ∈ op.stage.host, host ∈ s.hosts.rows) ∧
      ∀ gatewayId ∈ op.task.gatewayId, ∀ row ∈ s.rows.lookup gatewayId, row.status ≠ .deleted
  | .remove id => ∀ op ∈ s.ops.lookup id, named s.hosts (op.key cfg) ≠ [] →
      ∀ gatewayId ∈ op.task.gatewayId, ∀ row ∈ s.rows.lookup gatewayId, row.status ≠ .deleted
  | .retire id => ∀ op ∈ s.ops.lookup id, ∀ row ∈ s.rows.rows, op.task.owes cfg row →
      row.status ≠ .deleted → s.Gone row.key
  | .write id => ∀ pass ∈ s.passes.lookup id, ∀ loaded ∈ pass.rows, pass.verdict loaded ≠ loaded →
      s.rows.lookup loaded.id = some loaded ∧ pass.Sees s loaded
  | _ => True

instance (cfg : Config) (s : State) : (event : Event) → Decidable (Orderly cfg s event)
  | .launch id _ zone _ => inferInstanceAs (Decidable (∀ op ∈ s.ops.lookup id,
      ∀ host ∈ named s.hosts (op.key cfg), _ ∧
        launchPlace cfg host.cloud op.task.region op.task.zone zone = some host.place))
  | .record id => inferInstanceAs (Decidable (∀ op ∈ s.ops.lookup id,
      ∀ host ∈ op.stage.host, host ∈ s.hosts.rows))
  | .finish id _ => inferInstanceAs (Decidable (∀ op ∈ s.ops.lookup id,
      (∀ host ∈ op.stage.host, host ∈ s.hosts.rows) ∧
        ∀ gatewayId ∈ op.task.gatewayId, ∀ row ∈ s.rows.lookup gatewayId, row.status ≠ .deleted))
  | .remove id => inferInstanceAs (Decidable (∀ op ∈ s.ops.lookup id, _ →
      ∀ gatewayId ∈ op.task.gatewayId, ∀ row ∈ s.rows.lookup gatewayId, row.status ≠ .deleted))
  | .retire id => inferInstanceAs (Decidable (∀ op ∈ s.ops.lookup id, ∀ row ∈ s.rows.rows,
      op.task.owes cfg row → row.status ≠ .deleted → s.Gone row.key))
  | .write id => inferInstanceAs (Decidable (∀ pass ∈ s.passes.lookup id, ∀ loaded ∈ pass.rows,
      pass.verdict loaded ≠ loaded → s.rows.lookup loaded.id = some loaded ∧ pass.Sees s loaded))
  | .ensure .. | .requestDeploy .. | .requestTeardown .. | .idle .. | .look .. | .learn ..
  | .read .. | .lookUp .. | .lookUpFailed .. | .timeOut .. => .isTrue trivial

/-! ### The invariant -/

/-- The row's address is that of its host, or an operation in flight will clear it. -/
def State.Backed (cfg : Config) (s : State) (row : Gateway) : Prop :=
  ∀ ip ∈ row.egressIp, strip ip ≠ "" →
    (∃ host ∈ s.hosts.rows, host.key = row.key ∧ host.address = ip) ∨
      ∃ op ∈ s.ops.rows, op.task.owes cfg row

/-- A row with the host's address counts for the firewalls. -/
def State.Listed (s : State) (host : Host) : Prop :=
  ∃ row ∈ s.rows.rows, row.key = host.key ∧ row.status.gone = false ∧
    row.egressIp = some host.address

structure Inv (cfg : Config) (s : State) : Prop where
  alone : ∀ host ∈ s.hosts.rows, ∀ other ∈ s.hosts.rows, host.key = other.key → host = other
  rows : ∀ row ∈ s.rows.rows, ∀ other ∈ s.rows.rows, row.key = other.key →
    row.status ≠ .deleted ∧ other.status ≠ .deleted ∨ row.name = managedHostName cfg row.cloud →
      row = other
  retired : ∀ row ∈ s.rows.rows, row.status = .deleted → row.egressIp = none
  jobs : ∀ op ∈ s.ops.rows, ∀ id ∈ op.task.gatewayId,
    ∃ row ∈ s.rows.rows, row.id = id ∧ row.key = op.key cfg
  held : ∀ op ∈ s.ops.rows, ∀ host ∈ op.stage.host, host.key = op.key cfg
  backed : ∀ row ∈ s.rows.rows, s.Backed cfg row
  listed : ∀ host ∈ s.hosts.rows, strip host.address ≠ "" → s.Listed host ∨ s.Holds host

theorem start_inv : Inv cfg .start := by
  constructor <;> simp [State.start, Table.empty]

theorem mem_sortedSet {values : List String} {value : String} :
    value ∈ sortedSet values ↔ value ∈ values := by
  rw [sortedSet, List.mem_insertionSort, List.mem_dedup]

theorem mem_liveEgressIps {rows : Rows} {cloud : Cloud} {ip : String} :
    ip ∈ liveEgressIps rows cloud ↔ ip ≠ "" ∧ ∃ row ∈ rows.rows, row.cloud = cloud ∧
      row.status.gone = false ∧ strip (row.egressIp.getD "") = ip := by
  simp only [liveEgressIps, mem_sortedSet, List.mem_filter, List.mem_map, decide_eq_true_eq,
    Bool.and_eq_true, Bool.not_eq_true']
  constructor
  · rintro ⟨⟨row, ⟨hrow, hcloud, hgone⟩, hip⟩, hne⟩
    exact ⟨hne, row, hrow, hcloud, hgone, hip⟩
  · rintro ⟨hne, row, hrow, hcloud, hgone, hip⟩
    exact ⟨⟨row, ⟨hrow, hcloud, hgone⟩, hip⟩, hne⟩

/-- With nothing in flight, nothing excuses a row or a host. -/
theorem Inv.mirrors (h : Inv cfg s) (hquiet : s.ops.rows = []) : Mirrors s := by
  intro cloud _
  constructor
  · rintro host hhost rfl haddress
    rcases h.listed host hhost haddress with ⟨row, hrow, hkey, hgone, hip⟩ | ⟨op, hop, -⟩
    · have hcloud : row.cloud = host.cloud := congrArg Prod.fst hkey
      exact mem_liveEgressIps.mpr ⟨haddress, row, hrow, hcloud, hgone, by rw [hip]; rfl⟩
    · rw [hquiet] at hop
      cases hop
  · intro ip hip
    obtain ⟨hne, row, hrow, rfl, -, rfl⟩ := mem_liveEgressIps.mp hip
    cases hegress : row.egressIp with
    | none =>
      rw [hegress] at hne
      exact absurd (by decide : strip "" = "") hne
    | some ip =>
      rw [hegress] at hne
      rcases h.backed row hrow ip hegress hne with ⟨host, hhost, hkey, rfl⟩ | ⟨op, hop, -⟩
      · exact ⟨host, hhost, congrArg Prod.fst hkey, rfl⟩
      · rw [hquiet] at hop
        cases hop

/-! ### Rows written -/

/-- What one row may become. -/
structure Rewrites (cfg : Config) (s : State) (row after : Gateway) : Prop where
  id : after.id = row.id
  key : after.key = row.key
  revived : after.status ≠ .deleted →
    row.status ≠ .deleted ∨ row.name = managedHostName cfg row.cloud
  retired : after.status = .deleted → after.egressIp = none
  backed : s.Backed cfg after
  listed : ∀ host ∈ s.hosts.rows, host.key = row.key → strip host.address ≠ "" →
    row.status.gone = false → row.egressIp = some host.address →
      after.status.gone = false ∧ after.egressIp = some host.address ∨ s.Holds host

theorem Rewrites.refl (h : Inv cfg s) {row : Gateway} (hrow : row ∈ s.rows.rows) :
    Rewrites cfg s row row := by
  refine ⟨rfl, rfl, .inl, h.retired row hrow, h.backed row hrow, ?_⟩
  intro host _ _ _ hgone hip
  exact .inl ⟨hgone, hip⟩

theorem Inv.rewrite (h : Inv cfg s) {rows : Rows}
    (hfrom : ∀ after ∈ rows.rows, ∃ row ∈ s.rows.rows, Rewrites cfg s row after)
    (honto : ∀ row ∈ s.rows.rows, ∃ after ∈ rows.rows, Rewrites cfg s row after) :
    Inv cfg { s with rows } := by
  refine ⟨h.alone, ?_, ?_, ?_, h.held, ?_, ?_⟩
  · intro after hafter after' hafter' hkey hlive
    obtain ⟨row, hrow, hw⟩ := hfrom after hafter
    obtain ⟨row', hrow', hw'⟩ := hfrom after' hafter'
    have hrows : row.key = row'.key := hw.key.symm.trans (hkey.trans hw'.key)
    have hname : row.name = row'.name := congrArg Prod.snd hrows
    have hcloud : row.cloud = row'.cloud := congrArg Prod.fst hrows
    have hlive' : row.status ≠ .deleted ∧ row'.status ≠ .deleted ∨
        row.name = managedHostName cfg row.cloud := by
      rcases hlive with ⟨hlive, hlive'⟩ | hmanaged
      · rcases hw.revived hlive with hold | hmanaged
        · rcases hw'.revived hlive' with hold' | hmanaged
          · exact .inl ⟨hold, hold'⟩
          · exact .inr (by rw [hname, hcloud, hmanaged])
        · exact .inr hmanaged
      · have hname : after.name = row.name := congrArg Prod.snd hw.key
        have hcloud : after.cloud = row.cloud := congrArg Prod.fst hw.key
        exact .inr (by rw [← hname, ← hcloud, hmanaged])
    have hsame := h.rows row hrow row' hrow' hrows hlive'
    exact Table.eq_of_key hafter hafter' (by rw [hw.id, hw'.id, hsame])
  · intro after hafter hdeleted
    obtain ⟨row, -, hw⟩ := hfrom after hafter
    exact hw.retired hdeleted
  · intro op hop id hid
    obtain ⟨row, hrow, hrowId, hkey⟩ := h.jobs op hop id hid
    obtain ⟨after, hafter, hw⟩ := honto row hrow
    exact ⟨after, hafter, hw.id.trans hrowId, hw.key.trans hkey⟩
  · intro after hafter
    obtain ⟨row, -, hw⟩ := hfrom after hafter
    exact hw.backed
  · intro host hhost haddress
    rcases h.listed host hhost haddress with ⟨row, hrow, hkey, hgone, hip⟩ | hholds
    · obtain ⟨after, hafter, hw⟩ := honto row hrow
      rcases hw.listed host hhost hkey.symm haddress hgone hip with ⟨hgone, hip⟩ | hholds
      · exact .inl ⟨after, hafter, hw.key.trans hkey, hgone, hip⟩
      · exact .inr hholds
    · exact .inr hholds

theorem Inv.modify (h : Inv cfg s) {row : Gateway} (hrow : row ∈ s.rows.rows)
    {f : Gateway → Gateway} {hf : ∀ row, (f row).id = row.id} (hw : Rewrites cfg s row (f row)) :
    Inv cfg { s with rows := s.rows.modify row.id f hf } := by
  refine h.rewrite ?_ ?_
  · intro after hafter
    rcases Table.mem_modify.mp hafter with ⟨old, hold, hid, rfl⟩ | ⟨hold, -⟩
    · obtain rfl := Table.eq_of_key hold hrow hid
      exact ⟨old, hold, hw⟩
    · exact ⟨after, hold, .refl h hold⟩
  · intro old hold
    by_cases hid : old.id = row.id
    · obtain rfl := Table.eq_of_key hold hrow hid
      exact ⟨f old, Table.modify_mem hf hold rfl, hw⟩
    · exact ⟨old, Table.modify_mem_of_ne hf hold hid, .refl h hold⟩

/-- A new row, where the name is free. -/
theorem Inv.insert (h : Inv cfg s) {row : Gateway} {rows : Rows} (hins : s.rows.insert row = some rows)
    (hfree : ∀ other ∈ s.rows.rows, other.key = row.key →
      other.status = .deleted ∧ row.name ≠ managedHostName cfg row.cloud)
    (hstatus : row.status ≠ .deleted) (hbacked : s.Backed cfg row) : Inv cfg { s with rows } := by
  have hmem : ∀ {other : Gateway}, other ∈ rows.rows ↔ other ∈ s.rows.rows ∨ other = row :=
    Table.mem_insert hins
  have hapart : ∀ other ∈ s.rows.rows, other.key = row.key →
      ¬(other.status ≠ .deleted ∧ row.status ≠ .deleted ∨
        row.name = managedHostName cfg row.cloud) := by
    intro other hother hkey
    obtain ⟨hdeleted, hmanaged⟩ := hfree other hother hkey
    rintro (⟨hlive, -⟩ | hname)
    · exact hlive hdeleted
    · exact hmanaged hname
  refine ⟨h.alone, ?_, ?_, ?_, h.held, ?_, ?_⟩
  · intro one hone other hother hkey hlive
    rcases hmem.mp hone with hone | rfl
    · rcases hmem.mp hother with hother | rfl
      · exact h.rows one hone other hother hkey hlive
      · have hname : one.name = other.name := congrArg Prod.snd hkey
        have hcloud : one.cloud = other.cloud := congrArg Prod.fst hkey
        rw [hname, hcloud] at hlive
        exact absurd hlive (hapart one hone hkey)
    · rcases hmem.mp hother with hother | rfl
      · rw [and_comm] at hlive
        exact absurd hlive (hapart other hother hkey.symm)
      · rfl
  · intro one hone hdeleted
    rcases hmem.mp hone with hone | rfl
    · exact h.retired one hone hdeleted
    · exact absurd hdeleted hstatus
  · intro op hop id hid
    obtain ⟨one, hone, hone'⟩ := h.jobs op hop id hid
    exact ⟨one, hmem.mpr (.inl hone), hone'⟩
  · intro one hone
    rcases hmem.mp hone with hone | rfl
    · exact h.backed one hone
    · exact hbacked
  · intro host hhost haddress
    rcases h.listed host hhost haddress with ⟨one, hone, hone'⟩ | hholds
    · exact .inl ⟨one, hmem.mpr (.inl hone), hone'⟩
    · exact .inr hholds

/-! ### Operations begun, advanced and over -/

theorem Inv.begin (h : Inv cfg s) {id : String} {task : Task} (hstep : s.begin id task = some t)
    (hjob : ∀ gatewayId ∈ task.gatewayId,
      ∃ row ∈ s.rows.rows, row.id = gatewayId ∧ row.key = task.key cfg) : Inv cfg t := by
  obtain ⟨ops, hins, rfl⟩ := Option.map_eq_some_iff.mp hstep
  have hmem : ∀ {op : Op}, op ∈ ops.rows ↔ op ∈ s.ops.rows ∨ op = ⟨id, task, .begun⟩ :=
    Table.mem_insert hins
  refine ⟨h.alone, h.rows, h.retired, ?_, ?_, ?_, ?_⟩
  · intro op hop
    rcases hmem.mp hop with hop | rfl
    · exact h.jobs op hop
    · exact hjob
  · intro op hop
    rcases hmem.mp hop with hop | rfl
    · exact h.held op hop
    · simp [Stage.host]
  · intro row hrow ip hip hne
    rcases h.backed row hrow ip hip hne with hhost | ⟨op, hop, howes⟩
    · exact .inl hhost
    · exact .inr ⟨op, hmem.mpr (.inl hop), howes⟩
  · intro host hhost haddress
    rcases h.listed host hhost haddress with hlisted | ⟨op, hop, hholds⟩
    · exact .inl hlisted
    · exact .inr ⟨op, hmem.mpr (.inl hop), hholds⟩

/-- The operation comes to `stage` and keeps the host it has. -/
theorem Inv.advance (h : Inv cfg s) {op : Op} (hop : op ∈ s.ops.rows) {stage : Stage}
    (hheld : ∀ host ∈ stage.host, host.key = op.key cfg)
    (hkeeps : ∀ held ∈ op.stage.host, ∃ held' ∈ stage.host, held'.id = held.id) :
    Inv cfg (s.advance op.id stage) := by
  have hfrom : ∀ op' ∈ (s.advance op.id stage).ops.rows,
      op' = op.advance stage ∨ op' ∈ s.ops.rows := by
    intro op' hop'
    rcases Table.of_modify_mem (Op.advance_id stage) hop' with ⟨old, hold, hid, rfl⟩ | ⟨hold, -⟩
    · obtain rfl := Table.eq_of_key hold hop hid
      exact .inl rfl
    · exact .inr hold
  have honto : ∀ op' ∈ s.ops.rows, ∃ after ∈ (s.advance op.id stage).ops.rows,
      after.task = op'.task ∧
        ∀ held ∈ op'.stage.host, ∃ held' ∈ after.stage.host, held'.id = held.id := by
    intro op' hop'
    by_cases hid : op'.id = op.id
    · obtain rfl := Table.eq_of_key hop' hop hid
      have hafter : op'.advance stage ∈ (s.advance op'.id stage).ops.rows :=
        Table.modify_mem (Op.advance_id stage) hop rfl
      exact ⟨_, hafter, rfl, hkeeps⟩
    · have hafter : op' ∈ (s.advance op.id stage).ops.rows :=
        Table.modify_mem_of_ne (Op.advance_id stage) hop' hid
      exact ⟨op', hafter, rfl, fun held hheld => ⟨held, hheld, rfl⟩⟩
  refine ⟨h.alone, h.rows, h.retired, ?_, ?_, ?_, ?_⟩
  · intro op' hop'
    rcases hfrom op' hop' with rfl | hold
    · exact h.jobs op hop
    · exact h.jobs op' hold
  · intro op' hop'
    rcases hfrom op' hop' with rfl | hold
    · exact hheld
    · exact h.held op' hold
  · intro row hrow ip hip hne
    rcases h.backed row hrow ip hip hne with hhost | ⟨op', hop', howes⟩
    · exact .inl hhost
    · obtain ⟨after, hafter, htask, -⟩ := honto op' hop'
      exact .inr ⟨after, hafter, by rw [htask]; exact howes⟩
  · intro host hhost haddress
    rcases h.listed host hhost haddress with hlisted | ⟨op', hop', held, hheld', hid⟩
    · exact .inl hlisted
    · obtain ⟨after, hafter, -, hkeeps⟩ := honto op' hop'
      obtain ⟨held', hheld', hid'⟩ := hkeeps held hheld'
      exact .inr ⟨after, hafter, held', hheld', hid'.trans hid⟩

/-- An operation may end when the rows it owes have no address and the host it has is listed. -/
theorem Inv.erase (h : Inv cfg s) {op : Op} (hop : op ∈ s.ops.rows)
    (howes : ∀ row ∈ s.rows.rows, op.task.owes cfg row → row.egressIp = none)
    (hlists : ∀ held ∈ op.stage.host, ∀ host ∈ s.hosts.rows, held.id = host.id →
      strip host.address ≠ "" → s.Listed host) :
    Inv cfg (s.done op.id s.rows) := by
  have hmem := fun {op' : Op} => Table.mem_erase (t := s.ops) (k := op.id) (r := op')
  refine ⟨h.alone, h.rows, h.retired, ?_, ?_, ?_, ?_⟩
  · exact fun op' hop' => h.jobs op' (hmem.mp hop').1
  · exact fun op' hop' => h.held op' (hmem.mp hop').1
  · intro row hrow ip hip hne
    rcases h.backed row hrow ip hip hne with hhost | ⟨op', hop', howes'⟩
    · exact .inl hhost
    · by_cases hid : op'.id = op.id
      · obtain rfl := Table.eq_of_key hop' hop hid
        rw [howes row hrow howes'] at hip
        cases hip
      · exact .inr ⟨op', hmem.mpr ⟨hop', hid⟩, howes'⟩
  · intro host hhost haddress
    rcases h.listed host hhost haddress with hlisted | ⟨op', hop', held, hheld, hsame⟩
    · exact .inl hlisted
    · by_cases hid : op'.id = op.id
      · obtain rfl := Table.eq_of_key hop' hop hid
        exact .inl (hlists held hheld host hhost hsame haddress)
      · exact .inr ⟨op', hmem.mpr ⟨hop', hid⟩, held, hheld, hsame⟩

/-! ### Hosts launched and deleted -/

theorem mem_named {hosts : Hosts} {key : Cloud × String} {host : Host} :
    host ∈ named hosts key ↔ host ∈ hosts.rows ∧ host.key = key := by
  simp [named]

theorem findHost_mem {hosts : Hosts} {cloud : Cloud} {region zone name : String} {host : Host}
    (h : findHost cfg hosts cloud region zone name = some host) :
    host ∈ named hosts (cloud, name) := by
  cases cloud with
  | aws => exact List.mem_of_find?_eq_some h
  | gcp =>
    simp only [findHost, Option.orElse_eq_orElse, Option.orElse_eq_or, Option.or_eq_some_iff] at h
    rcases h with h | ⟨-, h⟩
    · exact List.mem_of_find?_eq_some h
    · exact List.mem_of_find?_eq_some h
  | azure => exact List.mem_of_find?_eq_some h
  | oci => exact List.mem_of_getLast? h

theorem teardownHosts_mem {hosts : Hosts} {cloud : Cloud} {region zone name : String} {host : Host}
    (h : host ∈ teardownHosts cfg hosts cloud region zone name) :
    host ∈ named hosts (cloud, name) := by
  cases cloud with
  | aws => exact List.mem_of_mem_filter h
  | gcp => exact List.mem_of_mem_filter h
  | azure => exact List.mem_of_mem_filter h
  | oci => exact List.mem_of_getLast? (Option.mem_toList.mp h)

theorem idleHosts_mem {hosts : Hosts} {cloud : Cloud} {region : String} {host : Host}
    (h : host ∈ idleHosts cfg hosts cloud region) :
    host ∈ named hosts (cloud, managedHostName cfg cloud) := by
  unfold idleHosts at h
  split at h
  · exact List.mem_of_mem_filter h
  · exact teardownHosts_mem h

theorem removedHosts_mem {hosts : Hosts} {task : Task} {removed : List Host}
    (h : removedHosts cfg hosts task = some removed) {host : Host} (hhost : host ∈ removed) :
    host ∈ named hosts (task.key cfg) := by
  cases task with
  | ensure => cases h
  | deploy => cases h
  | teardown id cloud region zone name =>
    simp only [removedHosts, Option.ite_none_left_eq_some, Option.some.injEq] at h
    obtain ⟨-, rfl⟩ := h
    exact teardownHosts_mem hhost
  | idle cloud region =>
    obtain rfl := Option.some.inj h
    exact idleHosts_mem hhost

/-- A launched host is one that an ensure has. -/
theorem Inv.addHost (h : Inv cfg s) {host : Host} {hosts : Hosts}
    (hins : s.hosts.insert host = some hosts) (hlone : named s.hosts host.key = [])
    (hholds : s.Holds host) : Inv cfg { s with hosts } := by
  have hmem : ∀ {other : Host}, other ∈ hosts.rows ↔ other ∈ s.hosts.rows ∨ other = host :=
    Table.mem_insert hins
  have hapart : ∀ other ∈ s.hosts.rows, other.key ≠ host.key := by
    intro other hother hkey
    have hnamed : other ∈ named s.hosts host.key := mem_named.mpr ⟨hother, hkey⟩
    rw [hlone] at hnamed
    cases hnamed
  refine ⟨?_, h.rows, h.retired, h.jobs, h.held, ?_, ?_⟩
  · intro one hone other hother hkey
    rcases hmem.mp hone with hone | rfl
    · rcases hmem.mp hother with hother | rfl
      · exact h.alone one hone other hother hkey
      · exact absurd hkey (hapart one hone)
    · rcases hmem.mp hother with hother | rfl
      · exact absurd hkey.symm (hapart other hother)
      · rfl
  · intro row hrow ip hip hne
    rcases h.backed row hrow ip hip hne with ⟨other, hother, hkey⟩ | howes
    · exact .inl ⟨other, hmem.mpr (.inl hother), hkey⟩
    · exact .inr howes
  · intro other hother haddress
    rcases hmem.mp hother with hother | rfl
    · exact h.listed other hother haddress
    · exact .inr hholds

/-- Hosts may go when a teardown in flight owes the rows that have their address. -/
theorem Inv.dropHosts (h : Inv cfg s) {removed : List Host}
    (howes : ∀ host ∈ removed, ∀ row ∈ s.rows.rows, row.key = host.key → row.egressIp ≠ none →
      ∃ op ∈ s.ops.rows, op.task.owes cfg row) :
    Inv cfg { s with hosts := s.hosts.without removed } := by
  have hmem : ∀ {host : Host}, host ∈ (s.hosts.without removed).rows ↔
      host ∈ s.hosts.rows ∧ host ∉ removed := by
    intro host
    simp [Hosts.without, Table.filter]
  refine ⟨?_, h.rows, h.retired, h.jobs, h.held, ?_, ?_⟩
  · intro one hone other hother
    exact h.alone one (hmem.mp hone).1 other (hmem.mp hother).1
  · intro row hrow ip hip hne
    rcases h.backed row hrow ip hip hne with ⟨host, hhost, hkey, haddress⟩ | howed
    · by_cases hgone : host ∈ removed
      · exact .inr (howes host hgone row hrow hkey.symm (by rw [hip]; simp))
      · exact .inl ⟨host, hmem.mpr ⟨hhost, hgone⟩, hkey, haddress⟩
    · exact .inr howed
  · intro host hhost haddress
    exact h.listed host (hmem.mp hhost).1 haddress

/-! ### What each operation writes -/

theorem strip_ne {ip : String} (h : strip ip ≠ "") : ip ≠ "" := by
  rintro rfl
  exact h (by decide)

theorem current_mem {rows : Rows} {key : Cloud × String} {row : Gateway}
    (h : rows.current key = some row) :
    row ∈ rows.rows ∧ row.key = key ∧ row.status ≠ .deleted := by
  have hmatch := List.find?_some h
  simp only [ne_eq, decide_not, Bool.and_eq_true, decide_eq_true_eq,
    Bool.not_eq_eq_eq_not, Bool.not_true, decide_eq_false_iff_not] at hmatch
  exact ⟨List.mem_of_find?_eq_some h, hmatch⟩

theorem recordEgressIp_inv (h : Inv cfg s) {host : Host} (hhost : host ∈ s.hosts.rows) :
    Inv cfg { s with rows := recordEgressIp s.rows host.key host.address } := by
  unfold recordEgressIp
  split
  · exact h
  split
  · exact h
  next row hcurrent =>
    obtain ⟨hrow, hkey, hlive⟩ := current_mem hcurrent
    split
    · exact h
    · refine h.modify hrow ⟨rfl, rfl, fun _ => .inl hlive, fun hdeleted => absurd hdeleted hlive, ?_, ?_⟩
      · intro ip hip _
        obtain rfl := Option.some.inj hip
        exact .inl ⟨host, hhost, hkey.symm, rfl⟩
      · intro other hother hsame _ hgone _
        obtain rfl := h.alone other hother host hhost (hsame.trans hkey)
        exact .inl ⟨hgone, rfl⟩

theorem orKeep_of_ne {value : String} {old : Option String} (h : value ≠ "") :
    orKeep value old = some value := if_neg h

theorem of_orKeep {value ip : String} {old : Option String} (h : orKeep value old = some ip) :
    old = some ip ∨ value = ip := by
  unfold orKeep at h
  split at h
  · exact .inl h
  · exact .inr (Option.some.inj h)

/-- The row of an ensure: running, with the address of a host that stands. -/
theorem Inv.runs (h : Inv cfg s) {host : Host} (hhost : host ∈ s.hosts.rows) {row after : Gateway}
    (hrow : row ∈ s.rows.rows) (hid : after.id = row.id) (hkey : after.key = row.key)
    (hrowKey : row.key = host.key) (hstatus : after.status = .running)
    (hip : after.egressIp = orKeep host.address row.egressIp)
    (hlive : row.status ≠ .deleted ∨ row.name = managedHostName cfg row.cloud) :
    Rewrites cfg s row after := by
  refine ⟨hid, hkey, fun _ => hlive, ?_, ?_, ?_⟩
  · intro hdeleted
    rw [hstatus] at hdeleted
    cases hdeleted
  · intro ip hegress hne
    have hegress : orKeep host.address row.egressIp = some ip := by rw [← hip]; exact hegress
    rcases of_orKeep hegress with hold | rfl
    · have hbacked := h.backed row hrow ip hold hne
      rcases hbacked with ⟨other, hother, hsame, haddress⟩ | ⟨op, hop, howes⟩
      · exact .inl ⟨other, hother, hsame.trans hkey.symm, haddress⟩
      · refine .inr ⟨op, hop, ?_⟩
        rw [← howes]
        unfold Task.owes
        rw [hid, hkey]
    · exact .inl ⟨host, hhost, (hkey.trans hrowKey).symm, rfl⟩
  · intro other hother hsame haddress _ _
    obtain rfl := h.alone other hother host hhost (hsame.trans hrowKey)
    rw [hip, hstatus, orKeep_of_ne (strip_ne haddress)]
    exact .inl ⟨rfl, rfl⟩

theorem finishRows_inv (h : Inv cfg s) {op : Op} (hop : op ∈ s.ops.rows) {host : Host}
    (hheld : op.stage.host = some host) (hhost : host ∈ s.hosts.rows)
    (hlive : ∀ gatewayId ∈ op.task.gatewayId, ∀ row ∈ s.rows.lookup gatewayId,
      row.status ≠ .deleted) {newId : String} {rows : Rows}
    (hrows : finishRows cfg s.rows op.task host newId = some rows) :
    Inv cfg { s with rows } ∧ (strip host.address ≠ "" → { s with rows }.Listed host) := by
  have hkey := h.held op hop host hheld
  obtain ⟨id, task, stage⟩ := op
  cases task with
  | ensure cloud region =>
    have hkey : host.key = (cloud, managedHostName cfg cloud) := hkey
    simp only [finishRows, adoptManaged] at hrows
    split at hrows
    next row hfind =>
      obtain rfl := Option.some.inj hrows
      have hrow := List.mem_of_find?_eq_some hfind
      have hrowKey : row.key = (cloud, managedHostName cfg cloud) := by
        simpa using List.find?_some hfind
      have hmanaged : row.name = managedHostName cfg row.cloud := by
        have hcloud : row.cloud = cloud := congrArg Prod.fst hrowKey
        have hname : row.name = managedHostName cfg cloud := congrArg Prod.snd hrowKey
        rw [hname, hcloud]
      refine ⟨h.modify hrow (h.runs hhost hrow rfl rfl (hrowKey.trans hkey.symm) rfl rfl
        (.inr hmanaged)), fun haddress => ?_⟩
      have hafter : row.adopt region host.hostId host.address ∈
          (s.rows.modify row.id (.adopt region host.hostId host.address) fun _ => rfl).rows :=
        Table.modify_mem _ hrow rfl
      exact ⟨_, hafter, hrowKey.trans hkey.symm, rfl, orKeep_of_ne (strip_ne haddress)⟩
    next hfind =>
      have hnone : ∀ row ∈ s.rows.rows, row.key ≠ (cloud, managedHostName cfg cloud) := by
        intro row hrow
        simpa using List.find?_eq_none.mp hfind row hrow
      refine ⟨h.insert hrows (fun other hother hsame => absurd hsame (hnone other hother))
        (by simp [Gateway.adopt]) ?_, fun haddress => ?_⟩
      · intro ip hip _
        rcases of_orKeep hip with hold | rfl
        · cases hold
        · exact .inl ⟨host, hhost, hkey, rfl⟩
      · exact ⟨_, (Table.mem_insert hrows).mpr (.inr rfl), hkey.symm, rfl,
          orKeep_of_ne (strip_ne haddress)⟩
  | deploy gatewayId cloud region zone name =>
    obtain rfl := Option.some.inj hrows
    obtain ⟨row, hrow, rfl, hrowKey⟩ := h.jobs _ hop gatewayId rfl
    have hlive := hlive row.id rfl row (Table.lookup_eq_some.mpr ⟨hrow, rfl⟩)
    refine ⟨h.modify hrow (h.runs hhost hrow rfl rfl (hrowKey.trans hkey.symm) rfl rfl
      (.inl hlive)), fun haddress => ?_⟩
    have hafter : row.deployed cfg region host ∈
        (s.rows.modify row.id (.deployed cfg region host) fun _ => rfl).rows :=
      Table.modify_mem _ hrow rfl
    exact ⟨_, hafter, hrowKey.trans hkey.symm, rfl, orKeep_of_ne (strip_ne haddress)⟩
  | teardown => cases hrows
  | idle => cases hrows

/-- A row is marked deleted when it is so already, or its host is gone. -/
theorem Inv.retires (h : Inv cfg s) {row : Gateway} (hrow : row ∈ s.rows.rows)
    (hgone : row.status ≠ .deleted → s.Gone row.key) :
    Inv cfg { s with rows := s.rows.modify row.id Gateway.retire fun _ => rfl } := by
  refine h.modify hrow ⟨rfl, rfl, fun hlive => absurd rfl hlive, fun _ => rfl, ?_, ?_⟩
  · intro ip hip
    cases hip
  · intro host hhost hkey _ hlive _
    refine .inr (hgone ?_ host hhost hkey)
    intro hdeleted
    rw [hdeleted] at hlive
    cases hlive

theorem retireRows_inv (h : Inv cfg s) {op : Op} (hop : op ∈ s.ops.rows) {rows : Rows}
    (hgone : ∀ row ∈ s.rows.rows, op.task.owes cfg row → row.status ≠ .deleted → s.Gone row.key)
    (hrows : retireRows cfg s.rows op.task = some rows) :
    Inv cfg { s with rows } ∧ ∀ row ∈ rows.rows, op.task.owes cfg row → row.egressIp = none := by
  obtain ⟨id, task, stage⟩ := op
  cases task with
  | teardown gatewayId cloud region zone name =>
    obtain rfl := Option.some.inj hrows
    obtain ⟨row, hrow, rfl, -⟩ := h.jobs _ hop gatewayId rfl
    refine ⟨h.retires hrow (hgone row hrow (decide_eq_true rfl)), ?_⟩
    intro after hafter howes
    rcases Table.mem_modify.mp hafter with ⟨old, -, -, rfl⟩ | ⟨-, hid⟩
    · rfl
    · exact absurd (of_decide_eq_true howes) hid
  | idle cloud region =>
    obtain rfl := Option.some.inj hrows
    have hkey : ∀ {row : Gateway}, (Task.idle cloud region).owes cfg row = true →
        row.key = (cloud, managedHostName cfg cloud) := of_decide_eq_true
    unfold markDeleted
    split
    next hcurrent =>
      refine ⟨h, fun row hrow howes => h.retired row hrow ?_⟩
      have hnot := List.find?_eq_none.mp hcurrent row hrow
      simpa [hkey howes] using hnot
    next row hcurrent =>
      obtain ⟨hrow, hrowKey, hlive⟩ := current_mem hcurrent
      refine ⟨h.retires hrow (hgone row hrow (decide_eq_true hrowKey)), ?_⟩
      intro after hafter howes
      rcases Table.mem_modify.mp hafter with ⟨old, -, -, rfl⟩ | ⟨hold, hid⟩
      · rfl
      · by_contra hip
        have hafterLive : after.status ≠ .deleted := fun hdeleted => hip (h.retired after hold hdeleted)
        obtain rfl := h.rows after hold row hrow ((hkey howes).trans hrowKey.symm)
          (.inl ⟨hafterLive, hlive⟩)
        exact hid rfl
  | ensure => cases hrows
  | deploy => cases hrows

/-! ### Passes -/

/-- What a pass has loaded are verifiable rows of the table, whatever has become of them since. -/
def Known (s : State) : Prop :=
  ∀ pass ∈ s.passes.rows, ∀ loaded ∈ pass.rows, loaded.status.verifiable ∧
    ∃ row ∈ s.rows.rows, row.id = loaded.id ∧ row.key = loaded.key

/-- The rows of before, whatever is written to them. -/
def Keeps (rows after : Rows) : Prop :=
  ∀ row ∈ rows.rows, ∃ row' ∈ after.rows, row'.id = row.id ∧ row'.key = row.key

theorem Keeps.refl (rows : Rows) : Keeps rows rows := fun row hrow => ⟨row, hrow, rfl, rfl⟩

theorem keeps_modify {rows : Rows} {id : String} {f : Gateway → Gateway}
    {hf : ∀ row, (f row).id = row.id} (hkey : ∀ row, (f row).key = row.key) :
    Keeps rows (rows.modify id f hf) := by
  intro row hrow
  by_cases hid : row.id = id
  · exact ⟨f row, Table.modify_mem hf hrow hid, hf row, hkey row⟩
  · exact ⟨row, Table.modify_mem_of_ne hf hrow hid, rfl, rfl⟩

theorem keeps_insert {rows after : Rows} {new : Gateway} (h : rows.insert new = some after) :
    Keeps rows after := fun row hrow => ⟨row, (Table.mem_insert h).mpr (.inl hrow), rfl, rfl⟩

theorem keeps_recordEgressIp {rows : Rows} {key : Cloud × String} {egressIp : String} :
    Keeps rows (recordEgressIp rows key egressIp) := by
  unfold recordEgressIp
  split
  · exact .refl rows
  split
  · exact .refl rows
  split
  · exact .refl rows
  · exact keeps_modify fun _ => rfl

theorem keeps_finishRows {rows after : Rows} {task : Task} {host : Host} {newId : String}
    (h : finishRows cfg rows task host newId = some after) : Keeps rows after := by
  cases task with
  | ensure =>
    simp only [finishRows, adoptManaged] at h
    split at h
    · obtain rfl := Option.some.inj h
      exact keeps_modify fun _ => rfl
    · exact keeps_insert h
  | deploy =>
    obtain rfl := Option.some.inj h
    exact keeps_modify fun _ => rfl
  | teardown => cases h
  | idle => cases h

theorem keeps_retireRows {rows after : Rows} {task : Task}
    (h : retireRows cfg rows task = some after) : Keeps rows after := by
  cases task with
  | teardown =>
    obtain rfl := Option.some.inj h
    exact keeps_modify fun _ => rfl
  | idle cloud =>
    obtain rfl := Option.some.inj h
    unfold markDeleted
    split
    · exact .refl rows
    · exact keeps_modify fun _ => rfl
  | ensure => cases h
  | deploy => cases h

theorem Pass.apply_key (pass : Pass) (row : Gateway) : (pass.apply row).key = row.key := by
  unfold Pass.apply
  split <;> rfl

theorem keeps_apply (rows : Rows) (pass : Pass) : Keeps rows (rows.map pass.apply pass.apply_id) :=
  fun row hrow => ⟨pass.apply row, List.mem_map_of_mem hrow, pass.apply_id row, pass.apply_key row⟩

theorem Known.keeps (h : Known s) (hrows : Keeps s.rows t.rows)
    (hpasses : ∀ pass ∈ t.passes.rows, ∃ old ∈ s.passes.rows, pass.rows = old.rows) : Known t := by
  intro pass hpass loaded hloaded
  obtain ⟨old, hold, hsame⟩ := hpasses pass hpass
  obtain ⟨hverifiable, row, hrow, hid, hkey⟩ := h old hold loaded (hsame ▸ hloaded)
  obtain ⟨row', hrow', hid', hkey'⟩ := hrows row hrow
  exact ⟨hverifiable, row', hrow', hid'.trans hid, hkey'.trans hkey⟩

theorem Known.answer (h : Known s) {id : String} {cloud : Cloud}
    {live : Option (List (String × Info))} :
    Known { s with passes := s.passes.modify id (.answer cloud live) fun _ => rfl } := by
  intro pass hpass
  have hf : ∀ pass : Pass, (pass.answer cloud live).id = pass.id := fun _ => rfl
  rcases Table.of_modify_mem hf hpass with ⟨old, hold, -, rfl⟩ | ⟨hold, -⟩
  · exact h old hold
  · exact h pass hold

theorem begin_eq {id : String} {task : Task} (h : s.begin id task = some t) :
    t.hosts = s.hosts ∧ t.rows = s.rows ∧ t.passes = s.passes := by
  obtain ⟨ops, -, rfl⟩ := Option.map_eq_some_iff.mp h
  exact ⟨rfl, rfl, rfl⟩

theorem validateName_ok {rows : Rows} {cloud : Cloud} {name name' : String}
    (h : validateName cfg rows cloud name = .ok name') :
    name' ≠ managedHostName cfg cloud ∧ ∀ row ∈ rows.rows, row.cloud = cloud → row.name = name' →
      row.status = .deleted := by
  unfold validateName checkName at h
  simp only at h
  split at h
  · cases h
  split at h
  · cases h
  split at h
  · cases h
  split at h
  · cases h
  next hfree =>
    obtain rfl := Except.ok.inj h
    constructor
    · intro hmanaged
      refine hfree (List.mem_map.mpr ⟨_, ?_, rfl⟩)
      exact List.mem_append.mpr (.inr (List.mem_singleton.mpr hmanaged))
    · intro row hrow hcloud hname
      by_contra hlive
      refine hfree (List.mem_map.mpr ⟨row.name, ?_, by rw [hname]⟩)
      refine List.mem_append.mpr (.inl (List.mem_map_of_mem (List.mem_filter.mpr ⟨hrow, ?_⟩)))
      simp [hcloud, hlive]

theorem step_known {event : Event} (h : Known s) (hstep : s.step cfg event = some t) : Known t := by
  have hsame : ∀ pass ∈ s.passes.rows, ∃ old ∈ s.passes.rows, pass.rows = old.rows :=
    fun pass hpass => ⟨pass, hpass, rfl⟩
  cases event with
  | ensure id cloud region =>
    simp only [State.step, Option.ite_none_right_eq_some] at hstep
    obtain ⟨-, hrows, hpasses⟩ := begin_eq hstep.2
    exact h.keeps (hrows ▸ .refl _) (hpasses ▸ hsame)
  | requestDeploy id gatewayId cloud region zone name =>
    simp only [State.step] at hstep
    split at hstep
    · cases hstep
    next name' _ =>
      simp only [Option.ite_none_right_eq_some] at hstep
      obtain ⟨rows, hins, hbegin⟩ := Option.bind_eq_some_iff.mp hstep.2
      obtain ⟨-, hrows, hpasses⟩ := begin_eq hbegin
      exact h.keeps (hrows ▸ keeps_insert hins) (hpasses ▸ hsame)
  | requestTeardown id gatewayId =>
    simp only [State.step] at hstep
    split at hstep
    · simp only [Option.ite_none_left_eq_some] at hstep
      obtain ⟨-, hrows, hpasses⟩ := begin_eq hstep.2
      have hkeeps : Keeps s.rows (s.rows.modify gatewayId Gateway.deleting fun _ => rfl) :=
        keeps_modify fun _ => rfl
      exact h.keeps (hrows ▸ hkeeps) (hpasses ▸ hsame)
    · cases hstep
  | idle id cloud region =>
    simp only [State.step, Option.ite_none_right_eq_some] at hstep
    obtain ⟨-, hrows, hpasses⟩ := begin_eq hstep.2
    exact h.keeps (hrows ▸ .refl _) (hpasses ▸ hsame)
  | look id =>
    simp only [State.step] at hstep
    split at hstep
    · split at hstep
      · split at hstep <;> (obtain rfl := Option.some.inj hstep; exact h)
      · cases hstep
    · cases hstep
  | launch id hostId zone address =>
    simp only [State.step] at hstep
    split at hstep
    · obtain ⟨place, -, hlaunch⟩ := Option.bind_eq_some_iff.mp hstep
      obtain ⟨launched, -, rfl⟩ := Option.map_eq_some_iff.mp hlaunch
      exact h
    · cases hstep
  | learn id =>
    simp only [State.step] at hstep
    split at hstep
    · obtain ⟨address, -, rfl⟩ := Option.map_eq_some_iff.mp hstep
      exact h
    · cases hstep
  | record id =>
    simp only [State.step] at hstep
    split at hstep
    · obtain rfl := Option.some.inj hstep
      exact h.keeps keeps_recordEgressIp hsame
    · cases hstep
  | finish id gatewayId =>
    simp only [State.step] at hstep
    split at hstep
    · obtain ⟨rows, hrows, rfl⟩ := Option.map_eq_some_iff.mp hstep
      exact h.keeps (keeps_finishRows hrows) hsame
    · cases hstep
  | remove id =>
    simp only [State.step] at hstep
    split at hstep
    · obtain ⟨removed, -, rfl⟩ := Option.map_eq_some_iff.mp hstep
      exact h
    · cases hstep
  | retire id =>
    simp only [State.step] at hstep
    split at hstep
    · obtain ⟨rows, hrows, rfl⟩ := Option.map_eq_some_iff.mp hstep
      exact h.keeps (keeps_retireRows hrows) hsame
    · cases hstep
  | read id cloud =>
    obtain ⟨passes, hins, rfl⟩ := Option.map_eq_some_iff.mp hstep
    intro pass hpass loaded hloaded
    rcases (Table.mem_insert hins).mp hpass with hold | rfl
    · exact h pass hold loaded hloaded
    · obtain ⟨hrow, hread⟩ := List.mem_filter.mp hloaded
      simp only [Bool.and_eq_true] at hread
      exact ⟨hread.1, loaded, hrow, rfl, rfl⟩
  | lookUp id cloud serving =>
    simp only [State.step] at hstep
    split at hstep
    · simp only [Option.ite_none_right_eq_some, Option.some.injEq] at hstep
      obtain ⟨-, rfl⟩ := hstep
      exact h.answer
    · cases hstep
  | lookUpFailed id cloud =>
    simp only [State.step] at hstep
    split at hstep
    · simp only [Option.ite_none_right_eq_some, Option.some.injEq] at hstep
      obtain ⟨-, rfl⟩ := hstep
      exact h.answer
    · cases hstep
  | write id =>
    simp only [State.step] at hstep
    split at hstep
    next pass _ =>
      simp only [Option.ite_none_right_eq_some, Option.some.injEq] at hstep
      obtain ⟨-, rfl⟩ := hstep
      exact h.keeps (keeps_apply _ pass) fun pass hpass => ⟨pass, (Table.mem_erase.mp hpass).1, rfl⟩
    · cases hstep
  | timeOut id =>
    obtain rfl := Option.some.inj hstep
    exact h.keeps (.refl _) fun pass hpass => ⟨pass, (Table.mem_erase.mp hpass).1, rfl⟩

/-- Without an answer for its cloud, a pass leaves the row. -/
theorem verdict_of_failed {pass : Pass} {row : Gateway}
    (h : pass.answers.lookup row.cloud = some none) : pass.verdict row = row := by
  simp only [Pass.verdict, h]

theorem flush_same (loaded row : Gateway) : flush loaded loaded row = row := by
  simp [flush]

theorem flush_loaded (loaded set : Gateway) : (flush loaded set loaded).status = set.status ∧
    (flush loaded set loaded).egressIp = set.egressIp := by
  constructor
  · simp only [flush, ite_eq_right_iff]
    exact Eq.symm
  · simp only [flush, ite_eq_right_iff]
    exact Eq.symm

theorem step_sparesFailed {event : Event} (h : Known s) (hstep : s.step cfg event = some t) :
    SparesFailed s t event := by
  cases event with
  | write passId =>
    intro pass hpass cloud _ hfailed
    have hlookup : s.passes.lookup passId = some pass := hpass
    simp only [State.step, hlookup, Option.ite_none_right_eq_some, Option.some.injEq] at hstep
    obtain ⟨-, rfl⟩ := hstep
    have hrow : ∀ row ∈ s.rows.rows, row.cloud = cloud → pass.apply row = row := by
      rintro row hrow rfl
      unfold Pass.apply
      split
      next loaded hfind =>
        have hid : loaded.id = row.id := by simpa using List.find?_some hfind
        have hloaded := List.mem_of_find?_eq_some hfind
        obtain ⟨-, row', hrow', hid', hkey⟩ :=
          h pass (Table.lookup_eq_some.mp hlookup).1 loaded hloaded
        obtain rfl := Table.eq_of_key hrow' hrow (hid'.trans hid)
        have hcloud : row'.cloud = loaded.cloud := congrArg Prod.fst hkey
        rw [verdict_of_failed (hcloud ▸ hfailed), flush_same]
      · rfl
    have hcomp : ((fun row : Gateway => decide (row.cloud = cloud)) ∘ pass.apply) =
        fun row => decide (row.cloud = cloud) := by
      funext row
      have hcloud : (pass.apply row).cloud = row.cloud := congrArg Prod.fst (pass.apply_key row)
      simp only [Function.comp_apply, hcloud]
    change (s.rows.rows.map pass.apply).filter _ = _
    rw [List.filter_map, hcomp]
    have hid : ∀ row ∈ s.rows.rows.filter fun row => row.cloud = cloud, pass.apply row = id row := by
      intro row hmem
      obtain ⟨hrows, hcloud⟩ := List.mem_filter.mp hmem
      exact hrow row hrows (of_decide_eq_true hcloud)
    rw [List.map_congr_left hid, List.map_id]
  | read id cloud =>
    obtain ⟨passes, -, rfl⟩ := Option.map_eq_some_iff.mp hstep
    exact rfl
  | lookUp id cloud serving =>
    simp only [State.step] at hstep
    split at hstep
    · simp only [Option.ite_none_right_eq_some, Option.some.injEq] at hstep
      obtain ⟨-, rfl⟩ := hstep
      exact rfl
    · cases hstep
  | lookUpFailed id cloud =>
    simp only [State.step] at hstep
    split at hstep
    · simp only [Option.ite_none_right_eq_some, Option.some.injEq] at hstep
      obtain ⟨-, rfl⟩ := hstep
      exact rfl
    · cases hstep
  | timeOut id =>
    obtain rfl := Option.some.inj hstep
    exact rfl
  | _ => trivial

theorem applyLive_none {row : Gateway} (h : applyLive row none ≠ row) :
    (applyLive row none).egressIp = none := by
  unfold applyLive at h ⊢
  dsimp only at h ⊢
  generalize (if row.managed = true then Status.deleted else Status.missing) = want at h ⊢
  split at h
  · exact absurd rfl h
  next hne => rw [if_neg hne]

theorem applyLive_some {row : Gateway} {info : Info} (h : applyLive row (some info) ≠ row) :
    (applyLive row (some info)).status ∈ [Status.running, .degraded] ∧
      ((applyLive row (some info)).egressIp = row.egressIp ∨
        (applyLive row (some info)).egressIp = some info.egressIp) := by
  unfold applyLive at h ⊢
  dsimp only at h ⊢
  have hwant : (if info.serving = some false then Status.degraded else .running) ∈
      [Status.running, .degraded] := by split <;> simp
  generalize (if info.serving = some false then Status.degraded else .running) = want at h hwant ⊢
  generalize (decide (info.egressIp ≠ "") && decide (info.egressIp ≠ row.egressIp.getD "")) =
    ipChanged at h ⊢
  generalize (if want = Status.degraded then some degradedReason else none) = reason at h ⊢
  split at h
  · exact absurd rfl h
  next hne =>
    rw [if_neg hne]
    refine ⟨hwant, ?_⟩
    cases ipChanged with
    | true => exact .inr rfl
    | false => exact .inl rfl

/-- What a pass changes is true of the row's host. -/
theorem verdict_rewrites (h : Inv cfg s) {pass : Pass} {loaded : Gateway}
    (hloaded : loaded ∈ s.rows.rows) (hverifiable : loaded.status.verifiable)
    (hchanged : pass.verdict loaded ≠ loaded) (hsees : pass.Sees s loaded) :
    Rewrites cfg s loaded (flush loaded (pass.verdict loaded) loaded) := by
  obtain ⟨hstatus, hegress⟩ := flush_loaded loaded (pass.verdict loaded)
  have hlive : loaded.status ≠ .deleted := by
    intro hdeleted
    rw [hdeleted] at hverifiable
    exact absurd hverifiable (by decide)
  cases hanswer : pass.answers.lookup loaded.cloud with
  | none => exact absurd (by simp only [Pass.verdict, hanswer]) hchanged
  | some answer =>
  cases answer with
  | none => exact absurd (verdict_of_failed hanswer) hchanged
  | some live =>
  have hverdict : pass.verdict loaded = applyLive loaded (lookupLast live loaded.name) := by
    simp only [Pass.verdict, hanswer]
  rw [hverdict] at hchanged hstatus hegress ⊢
  simp only [Pass.Sees, hanswer, Option.join_some, Option.map_some] at hsees
  cases hinfo : lookupLast live loaded.name with
  | none =>
    simp only [hinfo] at hchanged hegress hsees ⊢
    rw [applyLive_none hchanged] at hegress
    refine ⟨rfl, rfl, fun _ => .inl hlive, fun _ => hegress, ?_, ?_⟩
    · intro ip hip
      rw [hegress] at hip
      cases hip
    · intro host hhost hkey _ _ _
      exact .inr (hsees host hhost hkey)
  | some info =>
    simp only [hinfo] at hchanged hstatus hegress hsees ⊢
    obtain ⟨host, hhost, hkey, -, haddress⟩ := hsees
    obtain ⟨hlives, hip⟩ := applyLive_some hchanged
    rw [← hstatus] at hlives
    rw [← hegress, ← haddress] at hip
    have hgone : (flush loaded (applyLive loaded (some info)) loaded).status.gone = false := by
      rcases List.mem_pair.mp hlives with hlives | hlives <;> rw [hlives] <;> rfl
    refine ⟨rfl, rfl, fun _ => .inl hlive, ?_, ?_, ?_⟩
    · intro hdeleted
      rw [hdeleted] at hgone
      cases hgone
    · intro ip hip' hne
      rcases hip with hold | hnew
      · exact h.backed loaded hloaded ip (hold ▸ hip') hne
      · obtain rfl := Option.some.inj (hnew.symm.trans hip')
        exact .inl ⟨host, hhost, hkey, rfl⟩
    · intro other hother hsame _ _ hold
      obtain rfl := h.alone other hother host hhost (hsame.trans hkey.symm)
      refine .inl ⟨hgone, ?_⟩
      rcases hip with hsame | hnew
      · rw [hsame, hold]
      · exact hnew

theorem write_inv (h : Inv cfg s) (hknown : Known s) {id : String} {pass : Pass}
    (hpass : s.passes.lookup id = some pass)
    (horderly : ∀ loaded ∈ pass.rows, pass.verdict loaded ≠ loaded →
      s.rows.lookup loaded.id = some loaded ∧ pass.Sees s loaded) :
    Inv cfg { s with rows := s.rows.map pass.apply pass.apply_id } := by
  have hrewrites : ∀ row ∈ s.rows.rows, Rewrites cfg s row (pass.apply row) := by
    intro row hrow
    unfold Pass.apply
    split
    next loaded hfind =>
      have hid : loaded.id = row.id := by simpa using List.find?_some hfind
      have hloaded := List.mem_of_find?_eq_some hfind
      by_cases hchanged : pass.verdict loaded = loaded
      · rw [hchanged, flush_same]
        exact .refl h hrow
      · obtain ⟨hlookup, hsees⟩ := horderly loaded hloaded hchanged
        obtain rfl := Table.eq_of_key (Table.lookup_eq_some.mp hlookup).1 hrow hid
        have hverifiable := (hknown pass (Table.lookup_eq_some.mp hpass).1 loaded hloaded).1
        exact verdict_rewrites h hrow hverifiable hchanged hsees
    · exact .refl h hrow
  refine h.rewrite ?_ ?_
  · intro after hafter
    obtain ⟨row, hrow, rfl⟩ := List.mem_map.mp hafter
    exact ⟨row, hrow, hrewrites row hrow⟩
  · intro row hrow
    exact ⟨pass.apply row, List.mem_map_of_mem hrow, hrewrites row hrow⟩

/-! ### Every step -/

theorem lookup_op {id id' : String} {task : Task} {stage : Stage}
    (h : s.ops.lookup id = some ⟨id', task, stage⟩) : ⟨id, task, stage⟩ ∈ s.ops.rows := by
  obtain ⟨hop, rfl⟩ := Table.lookup_eq_some.mp h
  exact hop

theorem launch_inv (h : Inv cfg s) {id : String} {task : Task}
    (hop : ⟨id, task, .launching⟩ ∈ s.ops.rows) {new host : Host} {hosts : Hosts}
    (hkey : new.key = task.key cfg)
    (hstands : ∀ host ∈ named s.hosts (task.key cfg), namesOnce host.cloud ∧ host.place = new.place)
    (hlaunch : launchHost s.hosts new = some (host, hosts)) :
    Inv cfg ({ s with hosts }.advance id (.launched host)) := by
  have hadvance : ∀ {host : Host}, host.key = task.key cfg →
      Inv cfg (s.advance id (.launched host)) := by
    intro host hkey
    refine h.advance hop ?_ (by simp [Stage.host])
    intro held hheld
    obtain rfl := Option.some.inj hheld
    exact hkey
  unfold launchHost at hlaunch
  split at hlaunch
  next other hfind =>
    obtain ⟨rfl, rfl⟩ := Prod.mk.inj (Option.some.inj hlaunch)
    have hother := (mem_named.mp (List.mem_of_find?_eq_some hfind)).2
    exact hadvance (hother.trans hkey)
  next hfind =>
    obtain ⟨inserted, hins, hpair⟩ := Option.map_eq_some_iff.mp hlaunch
    obtain ⟨rfl, rfl⟩ := Prod.mk.inj hpair
    have hlone : named s.hosts new.key = [] := by
      refine List.eq_nil_iff_forall_not_mem.mpr fun other hother => ?_
      obtain ⟨honce, hplace⟩ := hstands other (hkey ▸ hother)
      have hnot := List.find?_eq_none.mp hfind other hother
      have hcloud : other.cloud = new.cloud := congrArg Prod.fst (mem_named.mp hother).2
      rw [hcloud] at honce
      simp [honce, hplace] at hnot
    have hadvanced : (⟨id, task, .launched new⟩ : Op) ∈ (s.advance id (.launched new)).ops.rows :=
      Table.modify_mem (Op.advance_id _) hop rfl
    exact (hadvance hkey).addHost hins hlone ⟨_, hadvanced, new, rfl, rfl⟩

theorem launchPlace_cloud {cloud : Cloud} {region zone landed place place' : String}
    (h : launchPlace cfg cloud region zone landed = some place)
    (h' : launchPlace cfg cloud region zone landed = some place') : place' = place :=
  Option.some.inj (h'.symm.trans h)

theorem remove_inv (h : Inv cfg s) {id : String} {task : Task} (hop : ⟨id, task, .begun⟩ ∈ s.ops.rows)
    {removed : List Host} (hremoved : removedHosts cfg s.hosts task = some removed)
    (hlive : named s.hosts (task.key cfg) ≠ [] → ∀ gatewayId ∈ task.gatewayId,
      ∀ row ∈ s.rows.lookup gatewayId, row.status ≠ .deleted) :
    Inv cfg ({ s with hosts := s.hosts.without removed }.advance id .removed) := by
  have hadvance : Inv cfg (s.advance id .removed) :=
    h.advance hop (by simp [Stage.host]) (by simp [Stage.host])
  have hadvanced : (⟨id, task, .removed⟩ : Op) ∈ (s.advance id .removed).ops.rows :=
    Table.modify_mem (Op.advance_id _) hop rfl
  refine hadvance.dropHosts fun host hhost row hrow hkey hip => ⟨_, hadvanced, ?_⟩
  have hnamed := removedHosts_mem hremoved hhost
  have hrowKey : row.key = task.key cfg := hkey.trans (mem_named.mp hnamed).2
  cases task with
  | ensure => cases hremoved
  | deploy => cases hremoved
  | teardown gatewayId cloud region zone name =>
    obtain ⟨own, hown, rfl, hownKey⟩ := h.jobs _ hop gatewayId rfl
    have hownLive := hlive (List.ne_nil_of_mem hnamed) own.id rfl own
      (Table.lookup_eq_some.mpr ⟨hown, rfl⟩)
    have hrowLive : row.status ≠ .deleted := fun hdeleted => hip (h.retired row hrow hdeleted)
    obtain rfl := h.rows row hrow own hown (hrowKey.trans hownKey.symm) (.inl ⟨hrowLive, hownLive⟩)
    exact decide_eq_true rfl
  | idle cloud region => exact decide_eq_true hrowKey

theorem requestDeploy_inv (h : Inv cfg s) {op gatewayId : String} {cloud : Cloud}
    {region zone name name' : String} (hname : validateName cfg s.rows cloud name = .ok name')
    {rows : Rows} (hins : s.rows.insert (provisioningRow gatewayId cloud region zone name') = some rows)
    (hbegin : { s with rows }.begin op (.deploy gatewayId cloud region zone name') = some t) :
    Inv cfg t := by
  obtain ⟨hmanaged, hfree⟩ := validateName_ok hname
  have hinserted : Inv cfg { s with rows } := by
    refine h.insert hins ?_ (by simp [provisioningRow]) ?_
    · intro other hother hkey
      exact ⟨hfree other hother (congrArg Prod.fst hkey) (congrArg Prod.snd hkey), hmanaged⟩
    · intro ip hip
      cases hip
  refine hinserted.begin hbegin fun id hid => ?_
  obtain rfl := Option.some.inj hid
  exact ⟨_, (Table.mem_insert hins).mpr (.inr rfl), rfl, rfl⟩

theorem requestTeardown_inv (h : Inv cfg s) {op : String} {row : Gateway}
    (hrow : row ∈ s.rows.rows) (hlive : row.status ≠ .deleted)
    (hbegin : { s with rows := s.rows.modify row.id Gateway.deleting fun _ => rfl }.begin op
      (.teardown row.id row.cloud (row.region.getD "") (row.zone.getD "") row.name) = some t) :
    Inv cfg t := by
  have hmodified : Inv cfg { s with rows := s.rows.modify row.id Gateway.deleting fun _ => rfl } := by
    refine h.modify hrow ⟨rfl, rfl, fun _ => .inl hlive, ?_, h.backed row hrow, ?_⟩
    · intro hdeleted
      cases hdeleted
    · intro host _ _ _ _ hip
      exact .inl ⟨rfl, hip⟩
  have hdeleting : row.deleting ∈ (s.rows.modify row.id Gateway.deleting fun _ => rfl).rows :=
    Table.modify_mem _ hrow rfl
  refine hmodified.begin hbegin fun id hid => ?_
  obtain rfl := Option.some.inj hid
  exact ⟨row.deleting, hdeleting, rfl, rfl⟩

theorem step_inv {event : Event} (h : Inv cfg s) (hknown : Known s) (horderly : Orderly cfg s event)
    (hstep : s.step cfg event = some t) : Inv cfg t := by
  cases event with
  | ensure id cloud region =>
    simp only [State.step, Option.ite_none_right_eq_some] at hstep
    exact h.begin hstep.2 (by simp [Task.gatewayId])
  | requestDeploy id gatewayId cloud region zone name =>
    simp only [State.step] at hstep
    split at hstep
    · cases hstep
    next name' hname =>
      simp only [Option.ite_none_right_eq_some] at hstep
      obtain ⟨rows, hins, hbegin⟩ := Option.bind_eq_some_iff.mp hstep.2
      exact requestDeploy_inv h hname hins hbegin
  | requestTeardown id gatewayId =>
    simp only [State.step] at hstep
    split at hstep
    next row hlookup =>
      obtain ⟨hrow, rfl⟩ := Table.lookup_eq_some.mp hlookup
      simp only [Option.ite_none_left_eq_some, not_or] at hstep
      exact requestTeardown_inv h hrow hstep.1.1 hstep.2
    · cases hstep
  | idle id cloud region =>
    simp only [State.step, Option.ite_none_right_eq_some] at hstep
    exact h.begin hstep.2 (by simp [Task.gatewayId])
  | look id =>
    simp only [State.step] at hstep
    split at hstep
    next _ task hlookup =>
      have hop := lookup_op hlookup
      split at hstep
      · split at hstep
        next host hfind =>
          obtain rfl := Option.some.inj hstep
          refine h.advance hop ?_ (by simp [Stage.host])
          intro held hheld
          obtain rfl := Option.some.inj hheld
          exact (mem_named.mp (findHost_mem hfind)).2
        next =>
          obtain rfl := Option.some.inj hstep
          exact h.advance hop (by simp [Stage.host]) (by simp [Stage.host])
      · cases hstep
    · cases hstep
  | launch id hostId zone address =>
    simp only [State.step] at hstep
    split at hstep
    next _ task hlookup =>
      have hop := lookup_op hlookup
      obtain ⟨place, hplace, hlaunch⟩ := Option.bind_eq_some_iff.mp hstep
      obtain ⟨⟨host, hosts⟩, hlaunched, rfl⟩ := Option.map_eq_some_iff.mp hlaunch
      refine launch_inv h hop rfl ?_ hlaunched
      intro other hother
      obtain ⟨honce, hthere⟩ := horderly _ hlookup other hother
      have hcloud : other.cloud = (task.key cfg).1 := congrArg Prod.fst (mem_named.mp hother).2
      rw [hcloud] at hthere
      exact ⟨honce, launchPlace_cloud hplace hthere⟩
    · cases hstep
  | learn id =>
    simp only [State.step] at hstep
    split at hstep
    next _ task host hlookup =>
      have hop := lookup_op hlookup
      obtain ⟨address, -, rfl⟩ := Option.map_eq_some_iff.mp hstep
      refine h.advance hop ?_ ?_
      · intro held hheld
        obtain rfl := Option.some.inj hheld
        exact h.held _ hop host rfl
      · intro held hheld
        obtain rfl := Option.some.inj hheld
        exact ⟨_, rfl, rfl⟩
    · cases hstep
  | record id =>
    simp only [State.step] at hstep
    split at hstep
    next _ task host hlookup =>
      have hop := lookup_op hlookup
      obtain rfl := Option.some.inj hstep
      have hkey : host.key = task.key cfg := h.held _ hop host rfl
      have hrecorded := recordEgressIp_inv h (horderly _ hlookup host rfl)
      rw [hkey] at hrecorded
      refine hrecorded.advance hop ?_ ?_
      · intro held hheld
        obtain rfl := Option.some.inj hheld
        exact hkey
      · exact fun held hheld => ⟨held, hheld, rfl⟩
    · cases hstep
  | finish id gatewayId =>
    simp only [State.step] at hstep
    split at hstep
    next _ task host hlookup =>
      have hop := lookup_op hlookup
      obtain ⟨rows, hrows, rfl⟩ := Option.map_eq_some_iff.mp hstep
      obtain ⟨hstands, hlive⟩ := horderly _ hlookup
      have hhost := hstands host rfl
      obtain ⟨hfinished, hlisted⟩ := finishRows_inv h hop rfl hhost hlive hrows
      refine hfinished.erase hop ?_ ?_
      · intro row _ howes
        cases task <;> first | cases howes | cases hrows
      · intro held hheld other hother hid haddress
        obtain rfl := Option.some.inj hheld
        obtain rfl := Table.eq_of_key hother hhost hid.symm
        exact hlisted haddress
    · cases hstep
  | remove id =>
    simp only [State.step] at hstep
    split at hstep
    next _ task hlookup =>
      obtain ⟨removed, hremoved, rfl⟩ := Option.map_eq_some_iff.mp hstep
      exact remove_inv h (lookup_op hlookup) hremoved (horderly _ hlookup)
    · cases hstep
  | retire id =>
    simp only [State.step] at hstep
    split at hstep
    next _ task hlookup =>
      have hop := lookup_op hlookup
      obtain ⟨rows, hrows, rfl⟩ := Option.map_eq_some_iff.mp hstep
      have hgone := horderly _ hlookup
      obtain ⟨hretired, howes⟩ := retireRows_inv h hop hgone hrows
      exact hretired.erase hop howes (by simp [Stage.host])
    · cases hstep
  | read id cloud =>
    obtain ⟨passes, -, rfl⟩ := Option.map_eq_some_iff.mp hstep
    exact ⟨h.alone, h.rows, h.retired, h.jobs, h.held, h.backed, h.listed⟩
  | lookUp id cloud serving =>
    simp only [State.step] at hstep
    split at hstep
    · simp only [Option.ite_none_right_eq_some, Option.some.injEq] at hstep
      obtain ⟨-, rfl⟩ := hstep
      exact ⟨h.alone, h.rows, h.retired, h.jobs, h.held, h.backed, h.listed⟩
    · cases hstep
  | lookUpFailed id cloud =>
    simp only [State.step] at hstep
    split at hstep
    · simp only [Option.ite_none_right_eq_some, Option.some.injEq] at hstep
      obtain ⟨-, rfl⟩ := hstep
      exact ⟨h.alone, h.rows, h.retired, h.jobs, h.held, h.backed, h.listed⟩
    · cases hstep
  | write id =>
    simp only [State.step] at hstep
    split at hstep
    next pass hlookup =>
      simp only [Option.ite_none_right_eq_some, Option.some.injEq] at hstep
      obtain ⟨-, rfl⟩ := hstep
      have hwritten := write_inv h hknown hlookup (horderly pass hlookup)
      exact ⟨hwritten.alone, hwritten.rows, hwritten.retired, hwritten.jobs, hwritten.held,
        hwritten.backed, hwritten.listed⟩
    · cases hstep
  | timeOut id =>
    obtain rfl := Option.some.inj hstep
    exact ⟨h.alone, h.rows, h.retired, h.jobs, h.held, h.backed, h.listed⟩

theorem start_known : Known .start := fun pass hpass => by cases hpass

/-- In every interleaving from the empty registry, a pass changes no row of a cloud whose look-up
failed; and when every write is still true as it is made, the registry mirrors the cloud after each
pass that ends with no operation in flight. -/
theorem registry_mirrors (cfg : Config) {events : List Event} :
    (registrySystem cfg).Along
        (fun s event => ∀ t ∈ (registrySystem cfg).step s event, SparesFailed s t event)
        .start events ∧
      ((registrySystem cfg).Along (Orderly cfg) .start events →
        (registrySystem cfg).Along
          (fun s event => ∀ t ∈ (registrySystem cfg).step s event, MirrorsAfter t event)
          .start events) := by
  constructor
  · refine (registrySystem cfg).along_step (I := Known) (G := fun _ _ => True) ?_ start_known
      ((registrySystem cfg).along_of_forall fun _ _ _ => trivial)
    intro s event t hknown _ hstep
    exact ⟨step_known hknown hstep, step_sparesFailed hknown hstep⟩
  · intro horderly
    refine (registrySystem cfg).along_step (I := fun s => Inv cfg s ∧ Known s) ?_
      ⟨start_inv, start_known⟩ horderly
    rintro s event t ⟨hinv, hknown⟩ horderly hstep
    have hinv' := step_inv hinv hknown horderly hstep
    refine ⟨⟨hinv', step_known hknown hstep⟩, ?_⟩
    cases event with
    | write id => exact hinv'.mirrors
    | _ => trivial

def sampleConfig : Config :=
  ⟨[("aws_ecs_docker_deploy_key", "key"), ("aws_region", "us-east-1")], fun _ => []⟩

/-- An ensure of the managed gateway from its start to its row. -/
def wholeEnsure (op region host address : String) : List Event :=
  [.ensure op .aws region, .look op, .launch op host "" address, .learn op, .record op,
    .finish op "g0"]

def wholePass (pass : String) : List Event := [.read pass none, .lookUp pass .aws [], .write pass]

/- A deploy overlaps a pass and a teardown overlaps a second one, whose look-up fails; the managed
gateway goes and comes back in another region. -/
def steadyRun : List Event :=
  wholeEnsure "e1" "us-east-1" "i-1" "192.0.2.1" ++
    [.requestDeploy "d" "g1" .aws "us-east-2" "" " edge ", .look "d", .read "p" none,
      .launch "d" "i-2" "" "192.0.2.2", .lookUp "p" .aws [("i-1", false)], .learn "d", .write "p",
      .record "d", .finish "d" "", .read "q" none, .lookUpFailed "q" .aws,
      .requestTeardown "t" "g1", .remove "t", .write "q", .retire "t",
      .idle "z" .aws "us-east-1", .remove "z", .retire "z"] ++
    wholeEnsure "e2" "us-east-2" "i-3" "192.0.2.3" ++ wholePass "r"

theorem steadyRun_mirrors : ((registrySystem sampleConfig).exec .start steadyRun).isSome ∧
    (registrySystem sampleConfig).Along
      (fun s event => ∀ t ∈ (registrySystem sampleConfig).step s event, MirrorsAfter t event)
      .start steadyRun :=
  ⟨by decide +kernel, (registry_mirrors sampleConfig).2 (by decide +kernel)⟩

/-- The managed gateway in two regions: one row and two hosts. -/
def twoRegionsRun : List Event :=
  wholeEnsure "e1" "us-east-1" "i-1" "192.0.2.1" ++ wholeEnsure "e2" "us-east-2" "i-2" "192.0.2.2" ++
    wholePass "p"

/- The pass looks when the idle teardown has deleted the host, and writes when an ensure has adopted
the next one; no pass looks at a deleted row again. -/
def lateWriteRun : List Event :=
  wholeEnsure "e1" "us-east-1" "i-1" "192.0.2.1" ++
    [.read "p" none, .idle "z" .aws "us-east-1", .remove "z", .lookUp "p" .aws [], .retire "z"] ++
    wholeEnsure "e2" "us-east-1" "i-2" "192.0.2.2" ++ [.write "p", .read "q" none, .write "q"]

theorem host_unlisted :
    ¬(registrySystem sampleConfig).Along
        (fun s event => ∀ t ∈ (registrySystem sampleConfig).step s event, MirrorsAfter t event)
        .start twoRegionsRun ∧
      ¬(registrySystem sampleConfig).Along
        (fun s event => ∀ t ∈ (registrySystem sampleConfig).step s event, MirrorsAfter t event)
        .start lateWriteRun := by
  constructor <;> decide +kernel

end Gateways.Registry
