import VmDashboard.Costs.Cache

/-!
# A cloud that is queried or throttled is left alone

Between the claim of a query and its end no other query of the cloud is claimed, and after a
throttled answer none is before the time it asked for. The checks of a claim see the row of the
view they are for, so both hold exactly as long as no claim meets a query or a throttled answer of
the other view, a query past its lease, or an answer that asked for more than an hour.
-/

namespace Costs
open Machine (Table)
open Machine.Store (column)
open Python (Instant later)

/-! ### The lease and the cooldown of a row -/

abbrev lease : Store → Key → Option Instant := column CloudCostCache.leaseUntil

abbrev cooldown : Store → Key → Option Instant := column CloudCostCache.cooldownUntil

/-- A claim starts no cooldown and ends none. -/
theorem cooldown_claim (store : Store) (ask : Ask) (key : Key) :
    cooldown (claim store ask) key = cooldown store key :=
  column_claim rfl (fun _ _ => rfl) (fun _ _ _ => rfl) store ask key

theorem lease_claim_of_refused {store : Store} {ask : Ask} (h : (refusal store ask).isSome = true)
    (key : Key) : lease (claim store ask) key = lease store key := by
  unfold refusal at h
  unfold claim
  split
  · rfl
  next hlock =>
    rw [if_neg hlock] at h
    obtain ⟨reason, hreason⟩ := Option.isSome_iff_exists.mp h
    simp only [hreason]
    exact store.column_ensure (fun _ => rfl) key

theorem lease_claim_of_granted {store : Store} {ask : Ask} (h : refusal store ask = none)
    (key : Key) : lease (claim store ask) key =
      if key = ask.key then some (later ask.now ask.cfg.lease) else lease store key := by
  unfold refusal at h
  unfold claim
  split at h
  · cases h
  next hlock =>
    rw [if_neg hlock]
    simp only [h]
    rw [lease, column_paceCloud fun _ _ => rfl, Machine.Store.column_put]
    split
    · rfl
    · exact store.column_ensure (fun _ => rfl) key

/-- A granted claim finds the row of its view past its cooldown and its lease. -/
theorem of_granted {store : Store} {ask : Ask} (h : refusal store ask = none) :
    (∀ limit ∈ cooldown store ask.key, limit ≤ ask.now) ∧
      ∀ limit ∈ lease store ask.key, limit ≤ ask.now := by
  have hcooldown : (ensured store ask.key).cooldownUntil = cooldown store ask.key :=
    store.column_rowOr ask.key rfl
  have hlease : (ensured store ask.key).leaseUntil = lease store ask.key :=
    store.column_rowOr ask.key rfl
  unfold refusal at h
  split at h
  · cases h
  rw [CloudCostCache.blocked, hcooldown, hlease] at h
  split at h
  · cases h
  next hcool =>
    split at h
    · cases h
    next hfree =>
      simp only [Option.any_eq_true, decide_eq_true_eq, not_exists, not_and, Nat.not_lt]
        at hcool hfree
      exact ⟨hcool, hfree⟩

theorem lease_finish (store : Store) (key key' : Key) (entry : Entry) (now : Instant) :
    lease (finish store key entry now) key' = if key' = key then none else lease store key' := by
  rw [lease, finish, Machine.Store.column_put]
  split
  · cases entry <;> rfl
  · rfl

theorem cooldown_finish_throttled (store : Store) (key : Key) (detail : String)
    (retryAfter : Option ℤ) (now : Instant) :
    cooldown (finish store key (.unavailable detail true retryAfter) now) key =
      some (later now (min (max (retryAfter.getD 0) 900) 3600)) := by
  rw [cooldown, finish, Machine.Store.column_put_self]
  rfl

/-! ### The property and the condition -/

/-- At most one query of a cloud is in flight. -/
def OneInFlight (s : State) : Prop :=
  ∀ query ∈ s.queries.rows, ∀ other ∈ s.queries.rows, query.key.1 = other.key.1 →
    query.call = other.call

/-- A query starts after the quiet time of every throttled answer of its cloud. -/
def KeepsQuiet (s : State) : Event → Prop
  | .claim _ ask => refusal s.store ask = none →
      ∀ throttle ∈ s.throttles, throttle.key.1 = ask.cloud → throttle.quietUntil ≤ s.clock
  | _ => True

/-- A claim that its own row lets pass meets no query but one of its view that holds its lease, and
within the quiet time of no answer but one of its view that asked for an hour at most. -/
def Spaced (s : State) : Event → Prop
  | .claim _ ask => refusal s.store ask = none →
      (∀ query ∈ s.queries.rows, query.key.1 = ask.cloud →
        query.key = ask.key ∧ query.cleared = false ∧ ask.now < query.leaseUntil) ∧
      ∀ throttle ∈ s.throttles, throttle.key.1 = ask.cloud →
        throttle.quietUntil ≤ s.clock ∨
          throttle.key = ask.key ∧ throttle.retryAfter.getD 0 ≤ 3600
  | _ => True

/-- A query starts when no other of its cloud is in flight. -/
def Alone (s : State) : Event → Prop
  | .claim _ ask => refusal s.store ask = none →
      ∀ query ∈ s.queries.rows, query.key.1 ≠ ask.cloud
  | _ => True

instance (s : State) : Decidable (OneInFlight s) := by
  unfold OneInFlight
  infer_instance

instance (s : State) : (event : Event) → Decidable (KeepsQuiet s event)
  | .claim _ ask => by unfold KeepsQuiet; infer_instance
  | .tick _ | .finish .. | .read .. | .die _ | .clearCooldowns | .markStale => isTrue trivial

/-! ### What the rows say -/

structure Inv (s : State) : Prop where
  alone : OneInFlight s
  leased : ∀ query ∈ s.queries.rows, query.cleared = false →
    lease s.store query.key = some query.leaseUntil
  quiet : ∀ query ∈ s.queries.rows, ∀ throttle ∈ s.throttles, throttle.key.1 = query.key.1 →
    throttle.quietUntil ≤ s.clock
  cooling : ∀ throttle ∈ s.throttles, throttle.retryAfter.getD 0 ≤ 3600 →
    throttle.quietUntil ≤ s.clock ∨
      cooldown s.store throttle.key = some throttle.quietUntil

theorem start_inv (clock : Instant) : Inv (.start clock) := by
  constructor <;> simp [State.start, Table.empty, OneInFlight]

/-- The claim of a query: no other is in flight, and every quiet time is over. -/
theorem granted_inv {s : State} {call : ℕ} {ask : Ask} {queries : Table Query.call} (h : Inv s)
    (hgranted : refusal s.store ask = none)
    (hnone : ∀ query ∈ s.queries.rows, query.key.1 ≠ ask.cloud)
    (hquiet : ∀ throttle ∈ s.throttles, throttle.key.1 = ask.cloud → throttle.quietUntil ≤ s.clock)
    (hins : s.queries.insert (ask.query call s.clock) = some queries) :
    Inv { s with store := claim s.store ask, queries } := by
  have hmem : ∀ query, query ∈ queries.rows →
      query ∈ s.queries.rows ∧ query.key.1 ≠ ask.cloud ∨ query = ask.query call s.clock := by
    intro query hquery
    rcases (Table.mem_insert hins).mp hquery with hold | hnew
    · exact .inl ⟨hold, hnone query hold⟩
    · exact .inr hnew
  constructor
  · intro query hquery other hother hcloud
    rcases hmem query hquery with ⟨hold, hne⟩ | rfl <;>
      rcases hmem other hother with ⟨hold', hne'⟩ | rfl
    · exact h.alone query hold other hold' hcloud
    · exact absurd hcloud hne
    · exact absurd hcloud.symm hne'
    · rfl
  · intro query hquery hclear
    show lease (claim s.store ask) query.key = _
    rw [lease_claim_of_granted hgranted]
    rcases hmem query hquery with ⟨hold, hne⟩ | rfl
    · rw [if_neg fun hat => hne (congrArg Prod.fst hat)]
      exact h.leased query hold hclear
    · exact if_pos rfl
  · intro query hquery throttle hthrottle hcloud
    rcases hmem query hquery with ⟨hold, -⟩ | rfl
    · exact h.quiet query hold throttle hthrottle hcloud
    · exact hquiet throttle hthrottle hcloud
  · intro throttle hthrottle hasked
    show _ ∨ cooldown (claim s.store ask) _ = _
    rw [cooldown_claim]
    exact h.cooling throttle hthrottle hasked

theorem quietUntil_of_asked {key : Key} {now : Instant} {retryAfter : Option ℤ}
    (h : retryAfter.getD 0 ≤ 3600) :
    later now (min (max (retryAfter.getD 0) 900) 3600) =
      (Throttle.mk key now retryAfter).quietUntil := by
  have hsecs : min (max (retryAfter.getD 0) 900) 3600 = max (retryAfter.getD 0) 900 := by omega
  rw [hsecs]
  rfl

/-- The end of a query: it was the only one of its cloud, and every quiet time was over. -/
theorem finish_inv {s after : State} {call : ℕ} {issuedAt : Instant} {entry : Entry} (h : Inv s)
    (hstep : s.step (.finish call issuedAt entry) = some after) : Inv after := by
  simp only [State.step] at hstep
  split at hstep
  next => cases hstep
  next query hquery =>
    obtain ⟨hat, hcall⟩ := Table.lookup_eq_some.mp hquery
    split at hstep
    next => cases hstep
    obtain rfl := Option.some.inj hstep
    have hgone : ∀ other ∈ (s.queries.erase call).rows, other.key.1 ≠ query.key.1 := by
      intro other hother hcloud
      obtain ⟨hold, hne⟩ := Table.mem_erase.mp hother
      exact hne ((h.alone other hold query hat hcloud).trans hcall)
    have hnew : ∀ throttle ∈ entry.throttles query s.clock, throttle.key.1 = query.key.1 := by
      intro throttle hthrottle
      unfold Entry.throttles at hthrottle
      split at hthrottle
      · obtain rfl := List.mem_singleton.mp hthrottle
        rfl
      · cases hthrottle
    constructor
    · intro other hother other' hother' hcloud
      exact h.alone other (Table.mem_erase.mp hother).1 other' (Table.mem_erase.mp hother').1 hcloud
    · intro other hother hclear
      show lease (finish _ _ _ _) _ = _
      rw [lease_finish, if_neg fun hsame => hgone other hother (congrArg Prod.fst hsame)]
      exact h.leased other (Table.mem_erase.mp hother).1 hclear
    · intro other hother throttle hthrottle hcloud
      rcases List.mem_append.mp hthrottle with hfresh | hold
      · exact absurd (hcloud.symm.trans (hnew throttle hfresh)) (hgone other hother)
      · exact h.quiet other (Table.mem_erase.mp hother).1 throttle hold hcloud
    · intro throttle hthrottle hasked
      show _ ∨ cooldown (finish _ _ _ _) _ = _
      rcases List.mem_append.mp hthrottle with hfresh | hold
      · unfold Entry.throttles at hfresh
        split at hfresh
        next detail retryAfter =>
          obtain rfl := List.mem_singleton.mp hfresh
          right
          rw [cooldown_finish_throttled]
          exact congrArg some (quietUntil_of_asked hasked)
        next => cases hfresh
      · by_cases hsame : throttle.key = query.key
        · exact .inl (h.quiet query hat throttle hold (congrArg Prod.fst hsame))
        · rw [finish, cooldown, Machine.Store.column_put_of_ne _ hsame]
          exact h.cooling throttle hold hasked

theorem step_inv {s after : State} {event : Event} (h : Inv s)
    (hspaced : Alone s event ∧ KeepsQuiet s event) (hstep : s.step event = some after) :
    Inv after := by
  cases event with
  | tick time =>
    simp only [State.step] at hstep
    split at hstep
    next hle =>
      obtain rfl := Option.some.inj hstep
      refine ⟨h.alone, h.leased, fun query hquery throttle hthrottle hcloud => ?_,
        fun throttle hthrottle hasked => ?_⟩
      · exact Nat.le_trans (h.quiet query hquery throttle hthrottle hcloud) hle
      · exact (h.cooling throttle hthrottle hasked).imp (Nat.le_trans · hle) id
    next => cases hstep
  | claim call ask =>
    simp only [State.step] at hstep
    split at hstep
    next => cases hstep
    split at hstep
    next hrefused =>
      obtain rfl := Option.some.inj hstep
      refine ⟨h.alone, fun query hquery hclear => ?_, h.quiet, fun throttle hthrottle hasked => ?_⟩
      · exact (lease_claim_of_refused hrefused _).trans (h.leased query hquery hclear)
      · rw [cooldown_claim]
        exact h.cooling throttle hthrottle hasked
    next hgranted =>
      have hgranted := Option.not_isSome_iff_eq_none.mp hgranted
      obtain ⟨queries, hins, rfl⟩ := Option.map_eq_some_iff.mp hstep
      exact granted_inv h hgranted (hspaced.1 hgranted) (hspaced.2 hgranted) hins
  | finish call issuedAt entry => exact finish_inv h hstep
  | read key now =>
    simp only [State.step] at hstep
    split at hstep
    next => cases hstep
    next =>
      obtain rfl := Option.some.inj hstep
      exact h
  | die call =>
    obtain rfl := Option.some.inj hstep
    refine ⟨fun query hquery other hother => ?_, fun query hquery => ?_, fun query hquery => ?_,
      h.cooling⟩
    · exact h.alone query (Table.mem_erase.mp hquery).1 other (Table.mem_erase.mp hother).1
    · exact h.leased query (Table.mem_erase.mp hquery).1
    · exact h.quiet query (Table.mem_erase.mp hquery).1
  | clearCooldowns =>
    obtain rfl := Option.some.inj hstep
    have hclear : ∀ query ∈ (s.queries.map Query.clear fun _ => rfl).rows,
        ∃ old ∈ s.queries.rows, query = old.clear := by
      intro query hquery
      obtain ⟨old, hold, rfl⟩ := List.mem_map.mp hquery
      exact ⟨old, hold, rfl⟩
    constructor
    · intro query hquery other hother hcloud
      obtain ⟨old, hold, rfl⟩ := hclear query hquery
      obtain ⟨old', hold', rfl⟩ := hclear other hother
      exact h.alone old hold old' hold' hcloud
    · intro query hquery huncleared
      obtain ⟨old, -, rfl⟩ := hclear query hquery
      cases huncleared
    · intro query hquery throttle hthrottle
      cases hthrottle
    · intro throttle hthrottle
      cases hthrottle
  | markStale =>
    obtain rfl := Option.some.inj hstep
    refine ⟨h.alone, fun query hquery hclear => ?_, h.quiet, fun throttle hthrottle hasked => ?_⟩
    · exact (column_markStale (fun _ => rfl) s.store _).trans (h.leased query hquery hclear)
    · have hsame : cooldown (markStale s.store) throttle.key = cooldown s.store throttle.key :=
        column_markStale (fun _ => rfl) s.store _
      exact (h.cooling throttle hthrottle hasked).imp id hsame.trans

theorem claim_now_le {s after : State} {call : ℕ} {ask : Ask}
    (hstep : s.step (.claim call ask) = some after) : ask.now ≤ s.clock := by
  simp only [State.step] at hstep
  split at hstep
  next => cases hstep
  next hle => exact Nat.not_lt.mp hle

/-- A query that holds its lease, and a cooldown of an hour at most, refuse the claims of their
view. -/
theorem spaced_iff {s after : State} {event : Event} (h : Inv s)
    (hstep : s.step event = some after) :
    Alone s event ∧ KeepsQuiet s event ↔ Spaced s event := by
  cases event with
  | claim call ask =>
    have hnow := claim_now_le hstep
    constructor
    · rintro ⟨halone, hquiet⟩ hgranted
      refine ⟨fun query hquery hcloud => absurd hcloud (halone hgranted query hquery), ?_⟩
      exact fun throttle hthrottle hcloud => .inl (hquiet hgranted throttle hthrottle hcloud)
    · intro hspaced
      refine ⟨fun hgranted query hquery hcloud => ?_, fun hgranted throttle hthrottle hcloud => ?_⟩
      · obtain ⟨hkey, hclear, hlease⟩ := (hspaced hgranted).1 query hquery hcloud
        have hrow := h.leased query hquery hclear
        rw [hkey] at hrow
        exact Nat.not_lt.mpr ((of_granted hgranted).2 _ hrow) hlease
      · rcases (hspaced hgranted).2 throttle hthrottle hcloud with hover | ⟨hkey, hasked⟩
        · exact hover
        · rcases h.cooling throttle hthrottle hasked with hover | hrow
          · exact hover
          · rw [hkey] at hrow
            exact Nat.le_trans ((of_granted hgranted).1 _ hrow) hnow
  | _ => exact ⟨fun _ => trivial, fun _ => ⟨trivial, trivial⟩⟩

/-- A second query of a cloud comes with a claim that meets the first. -/
theorem alone_of_oneInFlight {s after : State} {event : Event} (hstep : s.step event = some after)
    (h : OneInFlight after) : Alone s event := by
  cases event with
  | claim call ask =>
    intro hgranted query hquery hcloud
    simp only [State.step, hgranted, Option.isSome_none, Bool.false_eq_true, if_false] at hstep
    split at hstep
    next => cases hstep
    obtain ⟨queries, hins, rfl⟩ := Option.map_eq_some_iff.mp hstep
    have hfree := Table.lookup_eq_none.mp (Table.insert_eq_some hins).1
    have hsame := h query ((Table.mem_insert hins).mpr (.inl hquery)) _
      ((Table.mem_insert hins).mpr (.inr rfl)) hcloud
    exact hfree query hquery hsame
  | _ => trivial

/-- In every interleaving of the calls of all processes, a cloud has one query in flight and its
quiet times are kept exactly when every claim is spaced. -/
theorem cloud_left_alone_iff (clock : Instant) (events : List Event) :
    costSystem.Always OneInFlight (.start clock) events ∧
        costSystem.Along KeepsQuiet (.start clock) events ↔
      costSystem.Along Spaced (.start clock) events := by
  have hspaced : costSystem.Along (fun s event => Alone s event ∧ KeepsQuiet s event)
        (.start clock) events ↔ costSystem.Along Spaced (.start clock) events := by
    refine costSystem.along_iff (I := Inv) (fun s event after h hstep => ?_) (start_inv clock)
    have hiff : Alone s event ∧ KeepsQuiet s event ↔ Spaced s event := spaced_iff h hstep
    exact ⟨hiff, fun hspaced => step_inv h (hiff.mpr hspaced) hstep⟩
  rw [← hspaced]
  constructor
  · rintro ⟨hone, hquiet⟩
    exact costSystem.along_and
      (costSystem.along_of_always (fun _ _ _ => alone_of_oneInFlight) hone) hquiet
  · intro h
    exact ⟨costSystem.always_mono (fun _ => Inv.alone)
        (costSystem.always_of_along (fun _ _ _ => step_inv) (start_inv clock) h),
      costSystem.along_mono (fun _ _ => And.right) h⟩

def sampleAsk (cloud : Cloud) (view : View) (second : ℕ) : Ask :=
  ⟨cloud, view, "app:7", Python.seconds second, false, true, {}⟩

def rateLimited (retryAfter : ℤ) : Entry :=
  .unavailable "429 Too Many Requests" true (some retryAfter)

/- The breakdown is claimed three seconds after the summary, whose query takes longer. -/
def overlapRun : List Event :=
  [.claim 1 (sampleAsk .azure .summary 0), .tick (Python.seconds 3),
   .claim 2 (sampleAsk .azure .breakdown 3)]

/- The answer asks for two hours and the row is open again after one. -/
def longThrottleRun : List Event :=
  [.claim 1 (sampleAsk .azure .summary 0), .finish 1 0 (rateLimited 7200),
   .tick (Python.seconds 3601), .claim 2 (sampleAsk .azure .summary 3601)]

/-- Two queries of a cloud at once, and one inside the quiet time of an answer. -/
theorem azure_not_left_alone :
    ¬costSystem.Always OneInFlight (.start 0) overlapRun ∧
      ¬costSystem.Along KeepsQuiet (.start 0) longThrottleRun := by
  decide +kernel

end Costs
