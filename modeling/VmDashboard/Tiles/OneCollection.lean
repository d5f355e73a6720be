import VmDashboard.Tiles.Cache

/-!
# One collection of a tile at a time

As long as no call comes to a tile whose lease has run out under a collection, a tile has one
collection in flight, so the row keeps the lease of that one and gets its counts in the order of
the claims. A failed collection leaves the counts in any case.
-/

namespace Tiles
open Machine (Table)
open Machine.Store (column)
open Python (Instant later)

abbrev lease : Store → Tile → Option Instant := column DashboardStatCache.leaseUntil

theorem lease_ensured (store : Store) (tile : Tile) (provider : String) :
    (ensured store tile provider).leaseUntil = lease store tile := by
  refine column_ensured (fun _ => rfl) (fun row provider => ?_) store tile provider
  unfold DashboardStatCache.provided
  split <;> rfl

theorem lease_claim_of_refused {store : Store} {tile : Tile} {ask : Ask}
    (h : (refusal store tile ask).isSome = true) (tile' : Tile) :
    lease (claim store tile ask) tile' = lease store tile' := by
  unfold refusal at h
  unfold claim
  split
  · rfl
  next hlock =>
    rw [if_neg hlock] at h
    obtain ⟨reason, hreason⟩ := Option.isSome_iff_exists.mp h
    simp only [hreason]
    exact store.column_put_of_eq (lease_ensured store tile ask.provider) tile'

theorem lease_claim_of_granted {store : Store} {tile : Tile} {ask : Ask}
    (h : refusal store tile ask = none) (tile' : Tile) : lease (claim store tile ask) tile' =
      if tile' = tile then some (later ask.now ask.cfg.lease) else lease store tile' := by
  unfold refusal at h
  unfold claim
  split at h
  · cases h
  next hlock =>
    rw [if_neg hlock]
    simp only [h]
    rw [lease, column_paceProvider fun _ _ => rfl, Machine.Store.column_put]
    rfl

/-- A granted claim finds no lease that still runs. -/
theorem of_granted {store : Store} {tile : Tile} {ask : Ask} (h : refusal store tile ask = none) :
    ∀ limit ∈ lease store tile, limit ≤ ask.now := by
  unfold refusal at h
  split at h
  · cases h
  rw [DashboardStatCache.blocked, lease_ensured] at h
  split at h
  · cases h
  split at h
  · cases h
  next hfree =>
    simp only [Option.any_eq_true, decide_eq_true_eq, not_exists, not_and, Nat.not_lt] at hfree
    exact hfree

theorem lease_finish_of_ne {tile tile' : Tile} (h : tile' ≠ tile) (store : Store)
    (outcome : Outcome) (now : Instant) :
    lease (finish store tile outcome now) tile' = lease store tile' := by
  rw [lease, finish, Machine.Store.column_put_of_ne _ h]

/-- A failure leaves a column that only a success writes. -/
theorem column_finish_failed {α : Type} {f : DashboardStatCache → Option α}
    (hensured : ∀ store tile provider, f (ensured store tile provider) = column f store tile)
    (hfinish : ∀ row error busy now,
      f (DashboardStatCache.finish row (.failed error busy) now) = f row)
    (store : Store) (tile : Tile) (error : String) (busy : Bool) (now : Instant) (tile' : Tile) :
    column f (finish store tile (.failed error busy) now) tile' = column f store tile' :=
  store.column_put_of_eq ((hfinish _ error busy now).trans (hensured store tile "")) tile'

/-! ### The property and the condition -/

/-- At most one collection of a tile is in flight. -/
def OneInFlight (s : State) : Prop :=
  ∀ collection ∈ s.collections.rows, ∀ other ∈ s.collections.rows, collection.tile = other.tile →
    collection.call = other.call

/-- A failed collection leaves the payload of every tile and when it was fetched. -/
def FailureKeeps (s : State) : Event → Prop
  | .finish call (.failed error busy) now =>
    ∀ after ∈ s.step (.finish call (.failed error busy) now), ∀ tile,
      column DashboardStatCache.payload after.store tile =
          column DashboardStatCache.payload s.store tile ∧
        column DashboardStatCache.fetchedAt after.store tile =
          column DashboardStatCache.fetchedAt s.store tile
  | _ => True

/-- The collection that replaces counts was not claimed before the one they came from. -/
def KeepsNewest (s : State) : Event → Prop
  | .finish call (.counts _) _ => ∀ collection ∈ s.collections.lookup call,
      ∀ serial ∈ s.origin collection.tile, serial ≤ collection.serial
  | _ => True

/-- A claim that the row lets pass meets no collection of the tile past its lease. -/
def WithinLease (s : State) : Event → Prop
  | .claim _ tile ask => refusal s.store tile ask = none →
      ∀ collection ∈ s.collections.rows, collection.tile = tile → ask.now < collection.leaseUntil
  | _ => True

instance (s : State) : Decidable (OneInFlight s) := by
  unfold OneInFlight
  infer_instance

instance (s : State) : (event : Event) → Decidable (KeepsNewest s event)
  | .finish _ (.counts _) _ => by unfold KeepsNewest; infer_instance
  | .finish _ (.failed ..) _ | .ensureTiles _ | .claim .. | .die _ | .markStale
  | .clearCooldowns => isTrue trivial

/-! ### What the rows say -/

structure Inv (s : State) : Prop where
  alone : OneInFlight s
  leased : ∀ collection ∈ s.collections.rows,
    lease s.store collection.tile = some collection.leaseUntil
  newest : ∀ collection ∈ s.collections.rows, ∀ serial ∈ s.origin collection.tile,
    serial < collection.serial
  claimed : ∀ collection ∈ s.collections.rows, collection.serial ≤ s.latest
  stored : ∀ tile, ∀ serial ∈ s.origin tile, serial ≤ s.latest

theorem start_inv : Inv .start := by
  constructor <;> simp [State.start, Table.empty, OneInFlight]

/-- A step that changes rows only, and no lease. -/
theorem Inv.of_leases {s : State} (h : Inv s) {store : Store}
    (hleases : ∀ tile, lease store tile = lease s.store tile) : Inv { s with store } := by
  refine ⟨h.alone, fun collection hcollection => ?_, h.newest, h.claimed, h.stored⟩
  exact (hleases _).trans (h.leased collection hcollection)

/-- The collections of a tile that has a free lease are none. -/
theorem Inv.free {s : State} (h : Inv s) {call : ℕ} {tile : Tile} {ask : Ask}
    (hwithin : WithinLease s (.claim call tile ask)) (hgranted : refusal s.store tile ask = none) :
    ∀ collection ∈ s.collections.rows, collection.tile ≠ tile := by
  rintro collection hcollection rfl
  have hrow := h.leased collection hcollection
  exact Nat.not_lt.mpr (of_granted hgranted _ hrow) (hwithin hgranted collection hcollection rfl)

theorem granted_inv {s : State} {call : ℕ} {tile : Tile} {ask : Ask}
    {collections : Table Collection.call} (h : Inv s)
    (hwithin : WithinLease s (.claim call tile ask)) (hgranted : refusal s.store tile ask = none)
    (hins : s.collections.insert ⟨call, tile, s.latest + 1, later ask.now ask.cfg.lease⟩ =
      some collections) :
    Inv { s with store := claim s.store tile ask, collections, latest := s.latest + 1 } := by
  have hfree := h.free hwithin hgranted
  have hmem : ∀ collection ∈ collections.rows,
      collection ∈ s.collections.rows ∧ collection.tile ≠ tile ∨
        collection = ⟨call, tile, s.latest + 1, later ask.now ask.cfg.lease⟩ := by
    intro collection hcollection
    rcases (Table.mem_insert hins).mp hcollection with hold | hnew
    · exact .inl ⟨hold, hfree collection hold⟩
    · exact .inr hnew
  constructor
  · intro collection hcollection other hother htile
    rcases hmem collection hcollection with ⟨hold, hne⟩ | rfl <;>
      rcases hmem other hother with ⟨hold', hne'⟩ | rfl
    · exact h.alone collection hold other hold' htile
    · exact absurd htile hne
    · exact absurd htile.symm hne'
    · rfl
  · intro collection hcollection
    refine (lease_claim_of_granted hgranted _).trans ?_
    rcases hmem collection hcollection with ⟨hold, hne⟩ | rfl
    · rw [if_neg hne]
      exact h.leased collection hold
    · exact if_pos rfl
  · intro collection hcollection serial hserial
    rcases hmem collection hcollection with ⟨hold, -⟩ | rfl
    · exact h.newest collection hold serial hserial
    · exact Nat.lt_succ_of_le (h.stored tile serial hserial)
  · intro collection hcollection
    rcases hmem collection hcollection with ⟨hold, -⟩ | rfl
    · exact Nat.le_succ_of_le (h.claimed collection hold)
    · exact Nat.le_refl _
  · intro tile' serial hserial
    exact Nat.le_succ_of_le (h.stored tile' serial hserial)

theorem finish_inv {s : State} {call : ℕ} {collection : Collection} (h : Inv s)
    (hlookup : s.collections.lookup call = some collection) (outcome : Outcome) (now : Instant) :
    Inv { s with
      store := finish s.store collection.tile outcome now
      collections := s.collections.erase call
      origin := Function.update s.origin collection.tile
        (outcome.origin collection.serial (s.origin collection.tile)) } := by
  obtain ⟨hat, hcall⟩ := Table.lookup_eq_some.mp hlookup
  have hgone : ∀ other ∈ (s.collections.erase call).rows,
      other ∈ s.collections.rows ∧ other.tile ≠ collection.tile := by
    intro other hother
    obtain ⟨hold, hne⟩ := Table.mem_erase.mp hother
    exact ⟨hold, fun htile => hne ((h.alone other hold collection hat htile).trans hcall)⟩
  constructor
  · intro other hother other' hother'
    exact h.alone other (hgone other hother).1 other' (hgone other' hother').1
  · intro other hother
    obtain ⟨hold, hne⟩ := hgone other hother
    exact (lease_finish_of_ne hne ..).trans (h.leased other hold)
  · intro other hother serial hserial
    obtain ⟨hold, hne⟩ := hgone other hother
    have hserial : serial ∈ Function.update s.origin _ _ other.tile := hserial
    rw [Function.update_of_ne hne] at hserial
    exact h.newest other hold serial hserial
  · exact fun other hother => h.claimed other (hgone other hother).1
  · intro tile serial hserial
    have hserial : serial ∈ Function.update s.origin _ _ tile := hserial
    by_cases htile : tile = collection.tile
    · obtain rfl := htile
      rw [Function.update_self] at hserial
      cases outcome with
      | counts json =>
        obtain rfl := Option.some.inj hserial
        exact h.claimed collection hat
      | failed error busy => exact h.stored _ serial hserial
    · rw [Function.update_of_ne htile] at hserial
      exact h.stored tile serial hserial

theorem step_inv {s after : State} {event : Event} (h : Inv s) (hwithin : WithinLease s event)
    (hstep : s.step event = some after) : Inv after := by
  cases event with
  | ensureTiles tiles =>
    obtain rfl := Option.some.inj hstep
    exact h.of_leases (column_ensureTiles (fun _ => rfl) tiles s.store)
  | claim call tile ask =>
    simp only [State.step] at hstep
    split at hstep
    next hrefused =>
      obtain rfl := Option.some.inj hstep
      exact h.of_leases (lease_claim_of_refused hrefused)
    next hgranted =>
      obtain ⟨collections, hins, rfl⟩ := Option.map_eq_some_iff.mp hstep
      exact granted_inv h hwithin (Option.not_isSome_iff_eq_none.mp hgranted) hins
  | finish call outcome now =>
    obtain ⟨collection, hlookup, rfl⟩ := Option.map_eq_some_iff.mp hstep
    exact finish_inv h hlookup outcome now
  | die call =>
    obtain rfl := Option.some.inj hstep
    have hold : ∀ collection ∈ (s.collections.erase call).rows, collection ∈ s.collections.rows :=
      fun collection hcollection => (Table.mem_erase.mp hcollection).1
    exact ⟨fun a ha b hb => h.alone a (hold a ha) b (hold b hb), fun a ha => h.leased a (hold a ha),
      fun a ha => h.newest a (hold a ha), fun a ha => h.claimed a (hold a ha), h.stored⟩
  | markStale =>
    obtain rfl := Option.some.inj hstep
    exact h.of_leases (s.store.column_mapRows _ fun _ _ => rfl)
  | clearCooldowns =>
    obtain rfl := Option.some.inj hstep
    exact h.of_leases (s.store.column_mapRows _ fun _ _ => rfl)

theorem failureKeeps (s : State) (event : Event) : FailureKeeps s event := by
  have hpayload : ∀ store tile provider, (ensured store tile provider).payload =
      column DashboardStatCache.payload store tile := by
    refine column_ensured (fun _ => rfl) fun row provider => ?_
    unfold DashboardStatCache.provided
    split <;> rfl
  have hfetched : ∀ store tile provider, (ensured store tile provider).fetchedAt =
      column DashboardStatCache.fetchedAt store tile := by
    refine column_ensured (fun _ => rfl) fun row provider => ?_
    unfold DashboardStatCache.provided
    split <;> rfl
  unfold FailureKeeps
  split
  next call error busy now =>
    intro after hstep tile
    obtain ⟨collection, -, rfl⟩ := Option.map_eq_some_iff.mp hstep
    exact ⟨column_finish_failed hpayload (fun _ _ _ _ => rfl) s.store _ error busy now tile,
      column_finish_failed hfetched (fun _ _ _ _ => rfl) s.store _ error busy now tile⟩
  next => trivial

theorem Inv.keepsNewest {s : State} (h : Inv s) (event : Event) : KeepsNewest s event := by
  unfold KeepsNewest
  split
  next call json now =>
    intro collection hlookup serial hserial
    exact Nat.le_of_lt (h.newest collection (Table.lookup_eq_some.mp hlookup).1 serial hserial)
  next => trivial

/-- A second collection comes with a claim that meets the first. -/
theorem withinLease_of_oneInFlight {s after : State} {event : Event}
    (hstep : s.step event = some after) (h : OneInFlight after) : WithinLease s event := by
  cases event with
  | claim call tile ask =>
    rintro hgranted collection hcollection rfl
    simp only [State.step, hgranted, Option.isSome_none, Bool.false_eq_true, if_false] at hstep
    obtain ⟨collections, hins, rfl⟩ := Option.map_eq_some_iff.mp hstep
    have hfree := Table.lookup_eq_none.mp (Table.insert_eq_some hins).1
    have hsame := h collection ((Table.mem_insert hins).mpr (.inl hcollection)) _
      ((Table.mem_insert hins).mpr (.inr rfl)) rfl
    exact absurd hsame (hfree collection hcollection)
  | _ => trivial

/-- In every interleaving a tile has one collection in flight, a failure keeps its counts and no
counts are replaced by those of an earlier collection, exactly when no call comes to a tile with a
collection past its lease. -/
theorem one_collection_iff (events : List Event) :
    tileSystem.Always OneInFlight .start events ∧
        tileSystem.Along (fun s event => FailureKeeps s event ∧ KeepsNewest s event) .start events ↔
      tileSystem.Along WithinLease .start events := by
  constructor
  · rintro ⟨hone, -⟩
    exact tileSystem.along_of_always (fun s event after => withinLease_of_oneInFlight) hone
  · intro hwithin
    refine ⟨tileSystem.always_mono (fun _ => Inv.alone)
      (tileSystem.always_of_along (fun _ _ _ => step_inv) start_inv hwithin), ?_⟩
    exact tileSystem.along_of_along
      (fun s event after hinv hw hstep =>
        ⟨step_inv hinv hw hstep, failureKeeps s event, hinv.keepsNewest event⟩) start_inv hwithin

def vmTile : Tile := { tileKey := "gcp-vms" }

def ask (second : ℕ) : Ask :=
  ⟨"gcp", "worker:9", Python.seconds second, false, 0, true, {}⟩

/- The collection of the first call takes three minutes. A second call takes the lease over after
two, and what it has stored is replaced by the first. -/
def slowRun : List Event :=
  [.ensureTiles [(vmTile, "gcp")], .claim 1 vmTile (ask 0), .claim 2 vmTile (ask 121),
   .finish 2 (.counts "running: 4") (Python.seconds 125),
   .finish 1 (.counts "running: 9") (Python.seconds 180)]

theorem older_counts_win : ¬tileSystem.Always OneInFlight .start slowRun ∧
    ¬tileSystem.Along KeepsNewest .start slowRun := by
  decide +kernel

end Tiles
