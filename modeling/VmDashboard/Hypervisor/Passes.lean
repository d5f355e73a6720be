import VmDashboard.Hypervisor.Sync
import VmDashboard.Machine.System

/-!
# Inventory passes over a cache

The passes of all connections, page by page, in any interleaving. An agent
answers a cursor with a page of the inventory it reads; an inventory changes
only while no pass of its connection is under way. A pass ends with its last
page, or without one when its job fails or its page cannot be applied.
-/

namespace Hypervisor
open Machine (System Table)
open Python (Instant Dict Json)

/-- A pass under way: the job whose page is due, and after the last page whether the agent
called it enumerated. -/
structure Pass where
  id : ℕ
  job : SyncJob
  answer : String → Dict
  closing : Option Bool

structure State where
  clock : Instant
  inventory : String → List String
  cache : Cache
  connections : Table Connection.id
  passes : Table Pass.id

inductive Event
  | start (pass : ℕ) (job connection : String) (answer : String → Dict) (now : Instant)
      (createdBy trigger : String)
  | page (pass : ℕ) (now : Instant) (nextJob : String)
  | close (pass : ℕ) (now : Instant)
  | fail (pass : ℕ)
  | change (connection : String) (vmIds : List String)

def Pass.queued (job : SyncJob) (p : Pass) : Pass := { p with job }

def Pass.ended (enumerated : Bool) (p : Pass) : Pass := { p with closing := some enumerated }

/-- What follows the rows of a page. -/
def Pass.after (id : String) (conn : Connection) (page : Page) (p : Pass) : Pass :=
  if chains p.job page then p.queued (nextJob id conn p.job page) else p.ended page.enumerated

theorem Pass.after_id (id : String) (conn : Connection) (page : Page) (p : Pass) :
    (p.after id conn page).id = p.id := by
  unfold Pass.after
  split <;> rfl

def State.step (s : State) : Event → Option State
  | .start pass job connection answer now createdBy trigger =>
    match s.connections.lookup connection with
    | none => none
    | some conn =>
      if s.clock ≤ now then
        (s.passes.insert ⟨pass, queueJob job conn "" none 1 now createdBy trigger, answer,
          none⟩).map fun passes => { s with clock := now, passes }
      else none
  | .page pass now nextJob =>
    match s.passes.lookup pass with
    | some ⟨_, job, answer, none⟩ =>
      if s.clock ≤ now then
        match syncPage (answer job.cursor), s.connections.lookup job.connectionId with
        | some page, some conn =>
          some { s with
            clock := now
            cache := upsert s.cache job.connectionId page.vms job.started now
            passes := s.passes.modify pass (Pass.after nextJob conn page)
              fun p => p.after_id nextJob conn page }
        | _, _ => some { s with clock := now, passes := s.passes.erase pass }
      else none
    | _ => none
  | .close pass now =>
    match s.passes.lookup pass with
    | some ⟨_, job, _, some enumerated⟩ =>
      if s.clock ≤ now then
        match emptyPruneRefusal s.cache job.connectionId enumerated job.started with
        | some refusal =>
          some { s with
            clock := now
            connections := s.connections.modify job.connectionId (recordError refusal)
              fun _ => rfl
            passes := s.passes.erase pass }
        | none =>
          some { s with
            clock := now
            cache := prune s.cache job.connectionId job.started
            connections := s.connections.modify job.connectionId (recordSynced now) fun _ => rfl
            passes := s.passes.erase pass }
      else none
    | _ => none
  | .fail pass => some { s with passes := s.passes.erase pass }
  | .change connection vmIds =>
    if ∀ p ∈ s.passes.rows, p.job.connectionId ≠ connection then
      some { s with inventory := Function.update s.inventory connection vmIds }
    else none

def syncing : System State Event := ⟨State.step⟩

/-- The connection that the step records as synced. -/
def State.recorded (s : State) : Event → Option String
  | .close pass _ =>
    match s.passes.lookup pass with
    | some ⟨_, job, _, some enumerated⟩ =>
      if emptyPruneRefusal s.cache job.connectionId enumerated job.started = none then
        some job.connectionId
      else none
    | _ => none
  | _ => none

def State.Cached (s : State) (connection vmId : String) : Prop :=
  (s.cache.lookup (connection, vmId)).isSome

/-! ### Truthful agents -/

/-- The page lists the VMs `vmIds`, and no more than a page may. -/
def Lists (result : Dict) (vmIds : List String) : Prop :=
  ∃ items, result.get? "vms" = some (.arr items) ∧ items.length ≤ maxVmsPerPage ∧
    List.Forall₂ (fun item vmId => ∃ vm : Dict, item = Json.obj vm ∧
      Json.textOrEmpty (vm.get? "vm_id") = vmId ∧ ValidId vmId) items vmIds

/-- The agent's pages from `cursor` on list `vmIds`. -/
inductive Lists.From (answer : String → Dict) : String → List String → Prop
  | last {cursor vmIds} (hlists : Lists (answer cursor) vmIds)
      (hend : Json.textOrEmpty ((answer cursor).get? "next_cursor") = "") :
      From answer cursor vmIds
  | more {cursor next vmIds rest} (hlists : Lists (answer cursor) vmIds) (hne : next ≠ "")
      (hnext : (answer cursor).get? "next_cursor" = some (.str next))
      (hcomplete : (answer cursor).get? "complete" = some (.bool false))
      (hrest : From answer next rest) : From answer cursor (vmIds ++ rest)

/-- The agent pages the inventory truthfully, in any page sizes and with any cursors. -/
def Truthful (answer : String → Dict) (inventory : List String) : Prop :=
  ∃ vmIds, Lists.From answer "" vmIds ∧ ∀ vmId, vmId ∈ vmIds ↔ vmId ∈ inventory

/-- Every pass is answered by a truthful agent. -/
def Answered (s : State) : Event → Prop
  | .start _ _ connection answer _ _ _ => Truthful answer (s.inventory connection)
  | _ => True

/-- The cursor the agent gives with the page that is due comes back to it as it is, and the pass
may have another page. -/
def Pass.keepsCursor (p : Pass) : Bool :=
  match (p.answer p.job.cursor).get? "next_cursor" with
  | some (.str next) =>
    next = "" || (constrained cursorChar (some (.str next)) = next &&
      decide (p.job.page < maxSyncPages))
  | _ => true

/-- Cursors are kept, and a pass starts later than the rows of VMs that are gone were written. -/
def Kept (s : State) : Event → Prop
  | .start _ _ connection _ now _ _ =>
    ∀ row ∈ s.cache.rows, row.connectionId = connection ∧ row.vmId ∉ s.inventory connection →
      row.syncedAt < now
  | .page pass _ _ => (s.passes.lookup pass).all fun p => p.closing.isSome || p.keepsCursor
  | _ => True

instance (s : State) : DecidablePred (Kept s)
  | .start .. => inferInstanceAs (Decidable (∀ row ∈ s.cache.rows, _))
  | .page .. => inferInstanceAs (Decidable (_ = true))
  | .close .. | .fail .. | .change .. => isTrue trivial

/-- What a step may do to the cached rows: no row of a VM that exists goes, rows go only where a
pass is recorded as synced, and then exactly the VMs that exist are cached. -/
structure Prudent (s t : State) (event : Event) : Prop where
  exists_kept : ∀ c vmId, vmId ∈ s.inventory c → s.Cached c vmId → t.Cached c vmId
  gone_recorded : ∀ c vmId, s.Cached c vmId → ¬t.Cached c vmId → s.recorded event = some c
  exact : ∀ c, s.recorded event = some c → ∀ vmId, t.Cached c vmId ↔ vmId ∈ t.inventory c

/-! ### What a page says -/

theorem cleanVms_ids {items : List Json} {vmIds : List String} {rows : List CleanVm}
    (hitems : List.Forall₂ (fun item vmId => ∃ vm : Dict, item = Json.obj vm ∧
      Json.textOrEmpty (vm.get? "vm_id") = vmId ∧ ValidId vmId) items vmIds)
    (h : cleanVms items = some rows) : rows.map CleanVm.vmId = vmIds.map some := by
  induction hitems generalizing rows with
  | nil =>
    obtain rfl := Option.some.inj h
    rfl
  | cons hitem _ ih =>
    obtain ⟨vm, rfl, rfl, hvalid⟩ := hitem
    obtain ⟨row, hrow, h⟩ := Option.bind_eq_some_iff.mp h
    obtain ⟨rest, hrest, h⟩ := Option.bind_eq_some_iff.mp h
    obtain rfl := Option.some.inj h
    rw [List.map_cons, List.map_cons, ih hrest, cleanVm_vmId hrow, cleanKey_valid hvalid]

theorem syncPage_spec {result : Dict} {page : Page} (h : syncPage result = some page) :
    pageVms result = some page.vms ∧
    page.nextCursor = constrained cursorChar (result.get? "next_cursor") ∧
    page.complete = ((result.get? "complete").getD (.bool true)).truthy := by
  rw [syncPage, Option.map_eq_some_iff] at h
  obtain ⟨vms, hvms, rfl⟩ := h
  exact ⟨hvms, rfl, rfl⟩

theorem syncPage_ids {result : Dict} {page : Page} {vmIds : List String}
    (hlists : Lists result vmIds) (h : syncPage result = some page) :
    page.vms.map CleanVm.vmId = vmIds.map some := by
  obtain ⟨items, hitems, hlength, hall⟩ := hlists
  have hvms := (syncPage_spec h).1
  unfold pageVms at hvms
  rw [hitems] at hvms
  simp only [List.take_of_length_le hlength] at hvms
  exact cleanVms_ids hall hvms

theorem constrained_empty {value : Option Json} (h : Json.textOrEmpty value = "") :
    constrained cursorChar value = "" := by
  unfold constrained
  rw [h]
  decide +kernel

/-! ### The invariant of a pass -/

/-- The VM's row was written by the pass that began at `started`, or since. -/
def Fresh (cache : Cache) (c : String) (started : Instant) (vmId : String) : Prop :=
  ∃ row, cache.lookup (c, vmId) = some row ∧ started ≤ row.syncedAt

/-- What holds of a pass under way: what exists is either still to come or was written since it
began, and what does not exist was last written before. -/
structure Covered (s : State) (p : Pass) : Prop where
  started_le : p.job.started ≤ s.clock
  stale : ∀ vmId row, s.cache.lookup (p.job.connectionId, vmId) = some row →
    vmId ∉ s.inventory p.job.connectionId → row.syncedAt < p.job.started
  ahead : p.closing = none → ∃ rest, Lists.From p.answer p.job.cursor rest ∧
    (∀ vmId ∈ rest, vmId ∈ s.inventory p.job.connectionId) ∧
    ∀ vmId ∈ s.inventory p.job.connectionId,
      vmId ∈ rest ∨ Fresh s.cache p.job.connectionId p.job.started vmId
  done : p.closing ≠ none → ∀ vmId ∈ s.inventory p.job.connectionId,
    Fresh s.cache p.job.connectionId p.job.started vmId

def Invariant (s : State) : Prop := ∀ pass p, s.passes.lookup pass = some p → Covered s p

/-- The cache changes as any truthful pass changes it: rows of what exists stay, written again or
not, and no row of what does not exist is written. -/
structure Evolves (s t : State) : Prop where
  clock : s.clock ≤ t.clock
  inventory : t.inventory = s.inventory
  stays : ∀ c vmId row, s.cache.lookup (c, vmId) = some row → vmId ∈ s.inventory c →
    ∃ row', t.cache.lookup (c, vmId) = some row' ∧ min row.syncedAt s.clock ≤ row'.syncedAt
  none_new : ∀ c vmId row, t.cache.lookup (c, vmId) = some row → vmId ∉ s.inventory c →
    s.cache.lookup (c, vmId) = some row

theorem Evolves.of_cache_eq {s t : State} (hclock : s.clock ≤ t.clock)
    (hinv : t.inventory = s.inventory) (hcache : t.cache = s.cache) : Evolves s t where
  clock := hclock
  inventory := hinv
  stays _ _ row hrow _ := ⟨row, hcache ▸ hrow, Nat.min_le_left _ _⟩
  none_new _ _ _ hrow _ := hcache ▸ hrow

theorem Evolves.fresh {s t : State} (h : Evolves s t) {c vmId : String} {started : Instant}
    (hstarted : started ≤ s.clock) (hmem : vmId ∈ s.inventory c)
    (hfresh : Fresh s.cache c started vmId) : Fresh t.cache c started vmId := by
  obtain ⟨row, hrow, hle⟩ := hfresh
  obtain ⟨row', hrow', hmin⟩ := h.stays c vmId row hrow hmem
  exact ⟨row', hrow', (Nat.le_min.mpr ⟨hle, hstarted⟩).trans hmin⟩

/-- A pass that a step does not advance stays covered. -/
theorem Covered.evolve {s t : State} {p : Pass} (hp : Covered s p) (h : Evolves s t) :
    Covered t p where
  started_le := hp.started_le.trans h.clock
  stale vmId row hrow hgone := by
    rw [h.inventory] at hgone
    exact hp.stale vmId row (h.none_new _ vmId row hrow hgone) hgone
  ahead hopen := by
    obtain ⟨rest, hfrom, hrest, hall⟩ := hp.ahead hopen
    rw [h.inventory]
    refine ⟨rest, hfrom, hrest, fun vmId hmem => ?_⟩
    rcases hall vmId hmem with hahead | hfresh
    · exact .inl hahead
    · exact .inr (h.fresh hp.started_le hmem hfresh)
  done hclosed := by
    rw [h.inventory]
    exact fun vmId hmem => h.fresh hp.started_le hmem (hp.done hclosed vmId hmem)

theorem evolves_upsert {s t : State} {c : String} {vms : List CleanVm} {started now : Instant}
    (hnow : s.clock ≤ now) (hclock : t.clock = now) (hinv : t.inventory = s.inventory)
    (hcache : t.cache = upsert s.cache c vms started now)
    (hvms : ∀ vmId, some vmId ∈ vms.map CleanVm.vmId → vmId ∈ s.inventory c) : Evolves s t where
  clock := hclock ▸ hnow
  inventory := hinv
  stays c' vmId row hrow _ := by
    rw [hcache]
    by_cases hmem : c' = c ∧ some vmId ∈ vms.map CleanVm.vmId
    · obtain ⟨rfl, hmem⟩ := hmem
      obtain ⟨row', hrow', hstamp⟩ := lookup_upsert_of_mem s.cache c' started now hmem
      refine ⟨row', hrow', (Nat.min_le_right _ _).trans ?_⟩
      rw [hstamp]
      exact hnow.trans (Nat.le_max_right _ _)
    · exact ⟨row, (lookup_upsert_of_notMem _ _ _ _ _ _ hmem).trans hrow, Nat.min_le_left _ _⟩
  none_new c' vmId row hrow hgone := by
    rw [hcache] at hrow
    have hmem : ¬(c' = c ∧ some vmId ∈ vms.map CleanVm.vmId) := by
      rintro ⟨rfl, hmem⟩
      exact hgone (hvms vmId hmem)
    exact (lookup_upsert_of_notMem s.cache c vms started now (c', vmId) hmem).symm.trans hrow

theorem evolves_prune {s t : State} {p : Pass} (hp : Covered s p) (hclosed : p.closing ≠ none)
    (hclock : s.clock ≤ t.clock) (hinv : t.inventory = s.inventory)
    (hcache : t.cache = prune s.cache p.job.connectionId p.job.started) : Evolves s t where
  clock := hclock
  inventory := hinv
  stays c vmId row hrow hmem := by
    refine ⟨row, ?_, Nat.min_le_left _ _⟩
    rw [hcache]
    refine lookup_prune.mpr ⟨hrow, ?_⟩
    by_cases hc : c = p.job.connectionId
    · subst hc
      obtain ⟨row', hrow', hle⟩ := hp.done hclosed vmId hmem
      obtain rfl := Option.some.inj (hrow'.symm.trans hrow)
      simp [isDoomed, hle]
    · have hkey := Table.lookup_key hrow
      have hconn : row.connectionId ≠ p.job.connectionId := by
        rw [show row.connectionId = c from congrArg Prod.fst hkey]
        exact hc
      simp [isDoomed, hconn]
  none_new c vmId row hrow _ := by
    rw [hcache] at hrow
    exact (lookup_prune.mp hrow).1

/-! ### One step -/

/-- What the rows of a page leave of the pass that asked for it. -/
theorem Covered.page {s t : State} {p : Pass} {page : Page} (conn : Connection) {now : Instant}
    (id : String) (hp : Covered s p) (hopen : p.closing = none) (hnow : s.clock ≤ now)
    (hconn : conn.id = p.job.connectionId)
    (hpage : syncPage (p.answer p.job.cursor) = some page)
    (hkept : p.keepsCursor = true)
    (hclock : t.clock = now) (hinv : t.inventory = s.inventory)
    (hcache : t.cache = upsert s.cache p.job.connectionId page.vms p.job.started now) :
    Evolves s t ∧ Covered t (p.after id conn page) := by
  obtain ⟨rest, hfrom, hrest, hall⟩ := hp.ahead hopen
  obtain ⟨-, hnext, hcomplete⟩ := syncPage_spec hpage
  -- the VMs of this page and of the pages behind it
  obtain ⟨vmIds, behind, hids, hmem, hafter⟩ : ∃ vmIds behind : List String,
      page.vms.map CleanVm.vmId = vmIds.map some ∧
      (∀ vmId, vmId ∈ rest ↔ vmId ∈ vmIds ∨ vmId ∈ behind) ∧
      ((chains p.job page = false ∧ behind = []) ∨
        (chains p.job page = true ∧ Lists.From p.answer (nextJob id conn p.job page).cursor
          behind)) := by
    cases hfrom with
    | last hlists hend =>
      refine ⟨rest, [], syncPage_ids hlists hpage, by simp, .inl ⟨?_, rfl⟩⟩
      rw [constrained_empty hend] at hnext
      simp [chains, hnext]
    | @more _ next vmIds behind hlists hne hcursor hmore hbehind =>
      simp only [Pass.keepsCursor, hcursor, hne, decide_false, Bool.false_or, Bool.and_eq_true,
        decide_eq_true_eq] at hkept
      obtain ⟨hsame, hroom⟩ := hkept
      rw [hcursor, hsame] at hnext
      rw [hmore] at hcomplete
      have hfalse : page.complete = false := hcomplete
      refine ⟨vmIds, behind, syncPage_ids hlists hpage, by simp, .inr ⟨?_, ?_⟩⟩
      · simp [chains, hnext, hne, hfalse, hroom]
      · show Lists.From p.answer (constrained cursorChar (some (.str page.nextCursor))) behind
        rw [hnext, hsame]
        exact hbehind
  have hlisted : ∀ vmId, some vmId ∈ page.vms.map CleanVm.vmId ↔ vmId ∈ vmIds := by
    intro vmId
    rw [hids]
    simp
  have hevolves : Evolves s t := evolves_upsert hnow hclock hinv hcache fun vmId hvm =>
    hrest vmId ((hmem vmId).mpr (.inl ((hlisted vmId).mp hvm)))
  have hwritten : ∀ vmId ∈ vmIds, Fresh t.cache p.job.connectionId p.job.started vmId := by
    intro vmId hvm
    obtain ⟨row, hrow, hstamp⟩ := lookup_upsert_of_mem s.cache p.job.connectionId p.job.started now
      ((hlisted vmId).mpr hvm)
    refine ⟨row, hcache ▸ hrow, ?_⟩
    rw [hstamp]
    exact Nat.le_max_left _ _
  have hsofar : ∀ vmId ∈ s.inventory p.job.connectionId,
      vmId ∈ behind ∨ Fresh t.cache p.job.connectionId p.job.started vmId := by
    intro vmId hvm
    rcases hall vmId hvm with hahead | hfresh
    · rcases (hmem vmId).mp hahead with hhere | hbehind
      · exact .inr (hwritten vmId hhere)
      · exact .inl hbehind
    · exact .inr (hevolves.fresh hp.started_le hvm hfresh)
  have hp' := hp.evolve hevolves
  refine ⟨hevolves, ?_⟩
  unfold Pass.after
  rcases hafter with ⟨hlast, rfl⟩ | ⟨hmore, hfrom'⟩
  · rw [if_neg (by simp [hlast])]
    refine ⟨hp'.started_le, hp'.stale, (fun hne => nomatch hne), fun _ vmId hvm => ?_⟩
    rw [hinv] at hvm
    exact (hsofar vmId hvm).resolve_left (by simp)
  · rw [if_pos hmore]
    have hjob : (nextJob id conn p.job page).connectionId = p.job.connectionId := hconn
    refine ⟨hp'.started_le, ?_, fun _ => ⟨behind, hfrom', ?_, ?_⟩, fun hne => absurd hopen hne⟩
    · show ∀ vmId row, t.cache.lookup ((nextJob id conn p.job page).connectionId, vmId) = some row →
        vmId ∉ t.inventory (nextJob id conn p.job page).connectionId → row.syncedAt < p.job.started
      rw [hjob]
      exact hp'.stale
    · intro vmId hvm
      show vmId ∈ t.inventory (nextJob id conn p.job page).connectionId
      rw [hjob, hinv]
      exact hrest vmId ((hmem vmId).mpr (.inr hvm))
    · show ∀ vmId ∈ t.inventory (nextJob id conn p.job page).connectionId, vmId ∈ behind ∨
        Fresh t.cache (nextJob id conn p.job page).connectionId p.job.started vmId
      rw [hjob, hinv]
      exact hsofar

theorem cached_of_evolves {s t : State} (h : Evolves s t) {c vmId : String}
    (hmem : vmId ∈ s.inventory c) (hcached : s.Cached c vmId) : t.Cached c vmId := by
  obtain ⟨row, hrow⟩ := Option.isSome_iff_exists.mp hcached
  obtain ⟨row', hrow', -⟩ := h.stays c vmId row hrow hmem
  exact Option.isSome_iff_exists.mpr ⟨row', hrow'⟩

/-- A step that records nothing keeps every row. -/
theorem prudent_of_kept {s t : State} {event : Event} (hrec : s.recorded event = none)
    (h : ∀ c vmId, s.Cached c vmId → t.Cached c vmId) : Prudent s t event where
  exists_kept c vmId _ := h c vmId
  gone_recorded c vmId hs ht := absurd (h c vmId hs) ht
  exact c hc := by
    rw [hrec] at hc
    cases hc

theorem invariant_of_evolves {s t : State} (hI : Invariant s) (h : Evolves s t)
    (hold : ∀ pass p, t.passes.lookup pass = some p →
      s.passes.lookup pass = some p ∨ Covered t p) : Invariant t := by
  intro pass p hp
  rcases hold pass p hp with hs | hnew
  · exact (hI pass p hs).evolve h
  · exact hnew

theorem lookup_erase_some {passes : Table Pass.id} {pass pass' : ℕ} {p : Pass}
    (h : (passes.erase pass).lookup pass' = some p) : passes.lookup pass' = some p := by
  rw [Table.lookup_erase] at h
  split at h
  · cases h
  · exact h

theorem step_spec {s t : State} {event : Event} (hI : Invariant s) (hA : Answered s event)
    (hK : Kept s event) (h : s.step event = some t) : Invariant t ∧ Prudent s t event := by
  cases event with
  | start pass job c answer now createdBy trigger =>
    simp only [State.step] at h
    split at h
    · cases h
    next conn hconn =>
    split at h
    next hnow =>
      obtain ⟨passes, hins, rfl⟩ := Option.map_eq_some_iff.mp h
      have hid : conn.id = c := Table.lookup_key hconn
      have hevolves : Evolves s { s with clock := now, passes } := .of_cache_eq hnow rfl rfl
      refine ⟨invariant_of_evolves hI hevolves fun pass' p hp => ?_,
        prudent_of_kept rfl fun _ _ hc => hc⟩
      rw [Table.lookup_insert hins] at hp
      split at hp
      next =>
        obtain rfl := Option.some.inj hp
        obtain ⟨vmIds, hfrom, hall⟩ := hA
        refine .inr ⟨le_rfl, ?_, fun _ => ⟨vmIds, ?_, ?_, ?_⟩, fun hne => absurd rfl hne⟩
        · intro vmId row hrow hgone
          have hkey := Table.lookup_key hrow
          have hc : row.connectionId = conn.id := congrArg Prod.fst hkey
          have hv : row.vmId = vmId := congrArg Prod.snd hkey
          refine hK row (Table.lookup_eq_some.mp hrow).1 ⟨hc.trans hid, ?_⟩
          rw [hv, ← hid]
          exact hgone
        · have hempty : constrained cursorChar (some (.str "")) = "" := constrained_empty rfl
          show Lists.From answer (constrained cursorChar (some (.str ""))) vmIds
          rw [hempty]
          exact hfrom
        · intro vmId hv
          show vmId ∈ s.inventory conn.id
          rw [hid]
          exact (hall vmId).mp hv
        · intro vmId hv
          have hmem : vmId ∈ s.inventory conn.id := hv
          rw [hid] at hmem
          exact .inl ((hall vmId).mpr hmem)
      next => exact .inl hp
    next => cases h
  | page pass now next =>
    simp only [State.step] at h
    split at h
    next p job answer hp =>
      split at h
      next hnow =>
        have hcov := hI pass _ hp
        split at h
        next page conn hpage hconn =>
          obtain rfl := Option.some.inj h
          obtain ⟨hevolves, hcov'⟩ := hcov.page conn next (t := { s with
              clock := now
              cache := upsert s.cache job.connectionId page.vms job.started now
              passes := s.passes.modify pass (Pass.after next conn page)
                fun p => p.after_id next conn page })
            rfl hnow (Table.lookup_key hconn) hpage
            (by simpa [Kept, hp] using hK) rfl rfl rfl
          refine ⟨invariant_of_evolves hI hevolves fun pass' p' hp' => ?_,
            prudent_of_kept rfl fun c vmId hcached => ?_⟩
          · by_cases hpass : pass' = pass
            · subst hpass
              rw [Table.lookup_modify_self, hp, Option.map_some] at hp'
              obtain rfl := Option.some.inj hp'
              exact .inr hcov'
            · rw [Table.lookup_modify_of_ne _ hpass] at hp'
              exact .inl hp'
          · by_cases hmem : c = job.connectionId ∧ some vmId ∈ page.vms.map CleanVm.vmId
            · obtain ⟨rfl, hmem⟩ := hmem
              obtain ⟨row, hrow, -⟩ := lookup_upsert_of_mem s.cache job.connectionId
                job.started now hmem
              exact Option.isSome_iff_exists.mpr ⟨row, hrow⟩
            · unfold State.Cached
              rw [lookup_upsert_of_notMem s.cache job.connectionId page.vms job.started now (c, vmId) hmem]
              exact hcached
        next =>
          obtain rfl := Option.some.inj h
          exact ⟨invariant_of_evolves hI (.of_cache_eq hnow rfl rfl) fun _ _ hp' =>
            .inl (lookup_erase_some hp'), prudent_of_kept rfl fun _ _ hc => hc⟩
      next => cases h
    next => cases h
  | close pass now =>
    simp only [State.step] at h
    split at h
    next p job answer enumerated hp =>
      split at h
      next hnow =>
        split at h
        next refusal hrefuse =>
          obtain rfl := Option.some.inj h
          have hrec : s.recorded (.close pass now) = none := by
            simp only [State.recorded, hp, hrefuse]
            rfl
          exact ⟨invariant_of_evolves hI (.of_cache_eq hnow rfl rfl) fun _ _ hp' =>
            .inl (lookup_erase_some hp'), prudent_of_kept hrec fun _ _ hc => hc⟩
        next hprune =>
          obtain rfl := Option.some.inj h
          have hcov := hI pass _ hp
          have hclosed : (⟨p, job, answer, some enumerated⟩ : Pass).closing ≠ none :=
            fun hne => by cases hne
          have hrec : s.recorded (.close pass now) = some job.connectionId := by
            simp only [State.recorded, hp, hprune]
            rfl
          have hevolves := evolves_prune hcov hclosed (t := { s with
              clock := now
              cache := prune s.cache job.connectionId job.started
              connections := s.connections.modify job.connectionId (recordSynced now) fun _ => rfl
              passes := s.passes.erase pass }) hnow rfl rfl
          refine ⟨invariant_of_evolves hI hevolves fun _ _ hp' => .inl (lookup_erase_some hp'),
            fun c vmId hmem hc => cached_of_evolves hevolves hmem hc, ?_, ?_⟩
          · intro c vmId hs ht
            by_contra hne
            rw [hrec, Option.some_inj] at hne
            obtain ⟨row, hrow⟩ := Option.isSome_iff_exists.mp hs
            refine ht (Option.isSome_iff_exists.mpr ⟨row, lookup_prune.mpr ⟨hrow, ?_⟩⟩)
            have hconn : row.connectionId = c := congrArg Prod.fst (Table.lookup_key hrow)
            simp [isDoomed, hconn, Ne.symm hne]
          · intro c hc vmId
            rw [hrec, Option.some_inj] at hc
            subst hc
            constructor
            · intro hcached
              obtain ⟨row, hrow⟩ := Option.isSome_iff_exists.mp hcached
              obtain ⟨hold, hkept⟩ := lookup_prune.mp hrow
              by_contra hgone
              have hstale := hcov.stale vmId row hold hgone
              have hconn : row.connectionId = job.connectionId :=
                congrArg Prod.fst (Table.lookup_key hold)
              simp [isDoomed, hconn, hstale] at hkept
            · intro hmem
              obtain ⟨row, hrow, -⟩ := hevolves.fresh hcov.started_le hmem
                (hcov.done hclosed vmId hmem)
              exact Option.isSome_iff_exists.mpr ⟨row, hrow⟩
      next => cases h
    next => cases h
  | fail pass =>
    obtain rfl := Option.some.inj h
    exact ⟨invariant_of_evolves hI (.of_cache_eq le_rfl rfl rfl) fun _ _ hp' =>
      .inl (lookup_erase_some hp'), prudent_of_kept rfl fun _ _ hc => hc⟩
  | change c vmIds =>
    simp only [State.step] at h
    split at h
    next hquiet =>
      obtain rfl := Option.some.inj h
      refine ⟨fun pass p hp => ?_, prudent_of_kept rfl fun _ _ hc => hc⟩
      have hne := hquiet p (Table.lookup_eq_some.mp hp).1
      have hsame : Function.update s.inventory c vmIds p.job.connectionId =
          s.inventory p.job.connectionId := Function.update_of_ne hne _ _
      obtain ⟨hle, hstale, hahead, hdone⟩ := hI pass p hp
      refine ⟨hle, ?_, ?_, ?_⟩
      · simpa only [hsame] using hstale
      · simpa only [hsame] using hahead
      · simpa only [hsame] using hdone
    next => cases h

/-- In a run of truthful passes whose cursors and starts are kept, every step is prudent. -/
theorem prunes_only_gone {s : State} (hs : s.passes = .empty) {events : List Event}
    (hA : syncing.Along Answered s events) (hK : syncing.Along Kept s events) :
    syncing.Along (fun s event => ∀ t, s.step event = some t → Prudent s t event) s events := by
  have hI : Invariant s := by
    intro pass p hp
    rw [hs] at hp
    cases hp
  exact syncing.along_step (fun s event t hI hG ht => step_spec hI hG.1 hG.2 ht) hI
    (syncing.along_and hA hK)

/- Two VMs on two pages; the cache holds them and one that is gone. -/
def sampleRow (vmId : String) : VmRow :=
  ⟨"c", vmId, none, none, none, none, some "[]", none, none, none, none, 0⟩

def sampleStart : State where
  clock := 10
  inventory _ := ["a", "b"]
  cache := ⟨["a", "b", "x"].map sampleRow, by decide +kernel⟩
  connections := ⟨[⟨"c", "lab", none, none, none⟩], List.nodup_singleton _⟩
  passes := .empty

def sampleAnswer (cursor : String) : String → Dict := fun asked =>
  if asked = "" then
    [("vms", .arr [.obj [("vm_id", .str "a")]]), ("next_cursor", .str cursor),
      ("complete", .bool false)]
  else [("vms", .arr [.obj [("vm_id", .str "b")]]), ("next_cursor", .str ""),
      ("complete", .bool true)]

theorem sampleAnswer_truthful {cursor : String} (h : cursor ≠ "") :
    Truthful (sampleAnswer cursor) ["a", "b"] := by
  have hvalid : ∀ vmId ∈ ["a", "b"], ValidId vmId := by
    unfold ValidId
    decide +kernel
  refine ⟨["a"] ++ ["b"], .more ?_ h rfl rfl (.last ?_ ?_), fun _ => Iff.rfl⟩
  · exact ⟨_, rfl, by decide, .cons ⟨_, rfl, rfl, hvalid "a" (by decide)⟩ .nil⟩
  · unfold sampleAnswer
    rw [if_neg h]
    exact ⟨_, rfl, by decide, .cons ⟨_, rfl, rfl, hvalid "b" (by decide)⟩ .nil⟩
  · unfold sampleAnswer
    rw [if_neg h]
    rfl

theorem sample_answered {cursor : String} (h : cursor ≠ "") {rest : List Event}
    (hrest : ∀ s, ∀ event ∈ rest, Answered s event) :
    syncing.Along Answered sampleStart
      (.start 1 "j" "c" (sampleAnswer cursor) 20 "" "" :: rest) :=
  fun _ _ => ⟨sampleAnswer_truthful h, syncing.along_of_forall hrest⟩

/-- A cursor with a blank in it ends the pass at its first page, which prunes the second one. -/
theorem cursor_cut_prunes :
    ¬∀ s : State, s.passes = .empty → ∀ events, syncing.Along Answered s events →
      syncing.Along (fun s event => ∀ t, s.step event = some t → Prudent s t event) s events := by
  intro h
  let cut := [Event.start 1 "j" "c" (sampleAnswer "page 2") 20 "" "", .page 1 30 "k"]
  have hrun := h sampleStart rfl (cut ++ [.close 1 40])
    (sample_answered (by decide) (by simp [Answered]))
  have hlost : (syncing.exec sampleStart cut).any fun s =>
      (s.cache.lookup ("c", "b")).isSome && decide ("b" ∈ s.inventory "c") &&
        (s.step (.close 1 40)).any fun t => !(t.cache.lookup ("c", "b")).isSome := by
    decide +kernel
  simp only [Option.any_eq_true, Bool.and_eq_true, decide_eq_true_eq, Bool.not_eq_true'] at hlost
  obtain ⟨s, hexec, ⟨hcached, hmem⟩, t, hstep, hgone⟩ := hlost
  have hprudent := syncing.along_at hrun hexec hstep t hstep
  have hkept := hprudent.exists_kept "c" "b" hmem hcached
  unfold State.Cached at hkept
  rw [hgone] at hkept
  cases hkept

/-- The same two pages under a cursor that is kept. -/
theorem two_pages_prune_the_rest :
    syncing.Along (fun s event => ∀ t, s.step event = some t → Prudent s t event) sampleStart
      [.start 1 "j" "c" (sampleAnswer "2") 20 "" "", .page 1 30 "k", .page 1 40 "l",
        .close 1 50] :=
  prunes_only_gone rfl (sample_answered (by decide) (by simp [Answered])) (by decide +kernel)

end Hypervisor
