import VmDashboard.Expiry.Requests
import VmDashboard.Machine.System

/-!
# The ceiling on a lifetime

Requests by people who are no administrators, at times that do not go back. Each is clamped against
the ceiling, which stays where it is, and against the floor, which moves with the clock.
-/

namespace Expiry.Ceiling
open Machine (Table)
open Python (Instant minutes)

structure State where
  rows : Table TimedRow.invId
  clock : Instant

/-- A request about one item; a request about several is one after the other. -/
structure Event where
  now : Instant
  item : Item
  extendHours : Option ℤ := none
  absolute : Option Instant := none
  never : Bool := false

def Event.request (event : Event) : ExpiryRequest where
  extendHours := event.extendHours
  absolute := event.absolute
  never := event.never
  isAdmin := false

def State.step (limits : Limits) (s : State) (event : Event) : Option State :=
  if event.now < s.clock then none
  else some ⟨(setItemExpiry limits event.request event.now s.rows event.item).1, event.now⟩

def ceilingSystem (limits : Limits) : Machine.System State Event := ⟨State.step limits⟩

/-- The expiry the request results in, when it is granted. -/
def result (limits : Limits) (s : State) (event : Event) : Option Instant :=
  match (setItemExpiry limits event.request event.now s.rows event.item).2 with
  | .updated _ _ expiresAt _ _ => expiresAt
  | .failed .. => none

/-- What a request about the resource `id` results in does not exceed the ceiling by more than the
floor. -/
def Within (limits : Limits) (created : Instant) (id : String) (s : State) (event : Event) : Prop :=
  event.item.id = id → ∀ e ∈ result limits s event,
    (e : ℤ) ≤ created + hours limits.maxTotalHours + minutes minTtlMinutesFloor

/-- The request is refused whenever it is made so late that only the floor is left: it is about a
resource that cannot carry a timer, clears the timer or asks for nothing, or it finds no deadline
within the floor from now. -/
def TurnedAway (s : State) (event : Event) : Prop :=
  (ttlCapable event.item).1 = false ∨ event.never = true ∨
    (event.extendHours = none ∧ event.absolute = none) ∨
    ∀ row current, resolveRow s.rows event.item.id = some row → row.expiresAt = some current →
      (event.now + minutes minTtlMinutesFloor) / minutes 1 < current / minutes 1

/-- A request made past the ceiling is turned away. -/
def InTime (limits : Limits) (created : Instant) (id : String) (s : State) (event : Event) : Prop :=
  event.item.id = id → (created : ℤ) + hours limits.maxTotalHours < event.now → TurnedAway s event

/-- A call about several items is a request about each of them. -/
theorem setExpiry_exec {limits : Limits} {event : Event} {s : State} (hclock : s.clock ≤ event.now)
    (items : List Item) : ∃ clock,
      (ceilingSystem limits).exec s (items.map fun item => { event with item }) =
        some ⟨(setExpiry limits event.request event.now s.rows items).1, clock⟩ := by
  induction items generalizing s with
  | nil => exact ⟨s.clock, rfl⟩
  | cons item items ih =>
    have hstep : s.step limits { event with item } =
        some ⟨(setItemExpiry limits event.request event.now s.rows item).1, event.now⟩ :=
      if_neg (Nat.not_lt.mpr hclock)
    obtain ⟨clock, hrest⟩ := ih
      (s := ⟨(setItemExpiry limits event.request event.now s.rows item).1, event.now⟩)
      (Nat.le_refl event.now)
    refine ⟨clock, ?_⟩
    rw [List.map_cons, Machine.System.exec_cons]
    show (s.step limits { event with item }).bind _ = _
    rw [hstep]
    exact hrest

/-! ### The clamp -/

theorem clampHours_late {limits : Limits} {created now : Instant} (hmax : limits.maxTotalHours ≠ 0)
    (hlate : (created : ℤ) + hours limits.maxTotalHours < now) (requested : ℤ) :
    clampHours limits (some created) false now requested = minutes minTtlMinutesFloor := by
  have hfloor : (0 : ℤ) ≤ minutes minTtlMinutesFloor := by decide
  simp only [clampHours, hmax, ne_eq, not_false_eq_true, and_self, if_true]
  omega

theorem clampHours_early {limits : Limits} {created now : Instant} (hmax : limits.maxTotalHours ≠ 0)
    (hearly : (now : ℤ) ≤ created + hours limits.maxTotalHours) (requested : ℤ) :
    now + clampHours limits (some created) false now requested ≤
      created + hours limits.maxTotalHours + minutes minTtlMinutesFloor := by
  have hfloor : (0 : ℤ) ≤ minutes minTtlMinutesFloor := by decide
  simp only [clampHours, hmax, ne_eq, not_false_eq_true, and_self, if_true]
  omega

theorem floor_le_clampHours {limits : Limits} (created now : Instant)
    (hmax : limits.maxTotalHours ≠ 0) (requested : ℤ) :
    (minutes minTtlMinutesFloor : ℤ) ≤ clampHours limits (some created) false now requested := by
  simp only [clampHours, hmax, ne_eq, not_false_eq_true, and_self, if_true]
  omega

/-! ### A request -/

theorem resolveExpiry_ok {limits : Limits} {createdAt current expiresAt : Option Instant}
    {request : ExpiryRequest} {now : Instant} {clamped : Bool} (hadmin : request.isAdmin = false)
    (h : resolveExpiry limits createdAt current request now = .ok (expiresAt, clamped)) :
    request.never = false ∧ ∃ requested,
      requestedLifetime current request now = some requested ∧
        expiresAt = some (expiryFromNow (clampHours limits createdAt false now requested) now) ∧
        refuseUnlessLater current
          (expiryFromNow (clampHours limits createdAt false now requested) now) = none := by
  simp only [resolveExpiry, hadmin] at h
  split at h
  next => split at h <;> cases h
  next hnever =>
    split at h
    · cases h
    next requested hrequested =>
      simp only [Bool.false_eq_true, if_false] at h
      split at h
      · cases h
      next hlater =>
        have hexpires := (Prod.mk.inj (Except.ok.inj h)).1
        exact ⟨by simpa using hnever, requested, hrequested, hexpires.symm, hlater⟩

theorem refuseUnlessLater_none {current : Option Instant} {target : Instant} :
    refuseUnlessLater current target = none ↔
      ∃ c, current = some c ∧ c / minutes 1 ≤ target / minutes 1 := by
  cases current with
  | none => simp [refuseUnlessLater]
  | some c =>
    simp only [refuseUnlessLater]
    split
    next hlt => simpa using hlt
    next hle => simpa using hle

/-- What is granted, and on what terms. -/
theorem result_some {limits : Limits} {s : State} {event : Event} {e : Instant}
    (h : result limits s event = some e) :
    (ttlCapable event.item).1 = true ∧ event.never = false ∧ ∃ row current requested,
      resolveRow s.rows event.item.id = some row ∧ row.expiresAt = some current ∧
        requestedLifetime row.expiresAt event.request event.now = some requested ∧
        e = expiryFromNow (clampHours limits row.createdAt false event.now requested) event.now ∧
        current / minutes 1 ≤ e / minutes 1 := by
  unfold result at h
  rcases setItemExpiry_cases limits event.request event.now s.rows event.item with
    ⟨error, hset⟩ | ⟨row, expiresAt, clamped, hcapable, hrow, hresolve, hset⟩
  · rw [hset] at h
    cases h
  · rw [hset] at h
    obtain ⟨hnever, requested, hrequested, rfl, hlater⟩ := resolveExpiry_ok rfl hresolve
    obtain rfl := Option.some.inj h
    obtain ⟨current, hcurrent, hle⟩ := refuseUnlessLater_none.mp hlater
    exact ⟨hcapable, hnever, row, current, requested, hrow, hcurrent, hrequested, rfl, hle⟩

/-- A request that meets those terms is granted. -/
theorem result_of_terms {limits : Limits} {s : State} {event : Event} {row : TimedRow}
    {current : Instant} {requested : ℤ} (hcapable : (ttlCapable event.item).1 = true)
    (hnever : event.never = false) (hrow : resolveRow s.rows event.item.id = some row)
    (hcurrent : row.expiresAt = some current)
    (hrequested : requestedLifetime row.expiresAt event.request event.now = some requested)
    (hlater : current / minutes 1 ≤
      expiryFromNow (clampHours limits row.createdAt false event.now requested) event.now /
        minutes 1) :
    result limits s event =
      some (expiryFromNow (clampHours limits row.createdAt false event.now requested) event.now) := by
  have hrefuse := refuseUnlessLater_none.mpr ⟨current, hcurrent, hlater⟩
  have hnever' : event.request.never = false := hnever
  have hadmin : event.request.isAdmin = false := rfl
  simp only [result, setItemExpiry, hcapable, hrow, resolveExpiry, hnever', hrequested, hadmin,
    hrefuse, Bool.not_true, Bool.false_eq_true, if_false]

theorem requestedLifetime_none {current : Option Instant} {event : Event} :
    requestedLifetime current event.request event.now = none ↔
      event.extendHours = none ∧ event.absolute = none := by
  unfold requestedLifetime
  cases habs : event.request.absolute with
  | some target =>
    have : event.absolute = some target := habs
    simp [this]
  | none =>
    have hnone : event.absolute = none := habs
    cases hextend : event.request.extendHours with
    | some extend =>
      have : event.extendHours = some extend := hextend
      simp [this]
    | none =>
      have : event.extendHours = none := hextend
      simp [this, hnone]

/-- The rows of the resource `id` say that it was created at `created`. -/
def CreatedAt (created : Instant) (id : String) (s : State) : Prop :=
  ∀ row, resolveRow s.rows id = some row → row.createdAt = some created

theorem within_iff {limits : Limits} {created : Instant} {id : String} {s : State} {event : Event}
    (hmax : limits.maxTotalHours ≠ 0) (hcreated : CreatedAt created id s) :
    Within limits created id s event ↔ InTime limits created id s event := by
  constructor
  · intro hwithin hid hlate
    by_contra hnot
    simp only [TurnedAway, not_or, Bool.not_eq_false, Bool.not_eq_true, not_forall] at hnot
    obtain ⟨hcapable, hnever, hasks, row, current, hrow, hcurrent, hnotlater⟩ := hnot
    have hcreatedAt := hcreated row (hid ▸ hrow)
    cases hrequested : requestedLifetime row.expiresAt event.request event.now with
    | none => exact hasks (requestedLifetime_none.mp hrequested)
    | some requested =>
      have hclamp := clampHours_late hmax hlate requested
      rw [← hcreatedAt] at hclamp
      have htarget : expiryFromNow (clampHours limits row.createdAt false event.now requested)
          event.now = event.now + minutes minTtlMinutesFloor := by
        rw [hclamp, expiryFromNow]
        exact Int.toNat_natCast _
      have hresult := result_of_terms hcapable hnever hrow hcurrent hrequested
        (htarget ▸ Nat.not_lt.mp hnotlater)
      have hle := hwithin hid _ hresult
      rw [htarget] at hle
      push_cast at hle
      omega
  · intro hintime hid e he
    obtain ⟨hcapable, hnever, row, current, requested, hrow, hcurrent, hrequested, rfl, hlater⟩ :=
      result_some he
    have hcreatedAt := hcreated row (hid ▸ hrow)
    rw [hcreatedAt] at hlater ⊢
    by_cases hlate : (created : ℤ) + hours limits.maxTotalHours < event.now
    · exfalso
      have hclamp := clampHours_late hmax hlate requested
      have htarget : expiryFromNow (clampHours limits (some created) false event.now requested)
          event.now = event.now + minutes minTtlMinutesFloor := by
        rw [hclamp, expiryFromNow]
        exact Int.toNat_natCast _
      rw [htarget] at hlater
      rcases hintime hid hlate with hnot | hyes | hnone | hlater'
      · rw [hcapable] at hnot
        cases hnot
      · rw [hnever] at hyes
        cases hyes
      · rw [requestedLifetime_none.mpr hnone] at hrequested
        cases hrequested
      · exact absurd (hlater' row current hrow hcurrent) (Nat.not_lt.mpr hlater)
    · have hearly := clampHours_early hmax (Int.not_lt.mp hlate) requested
      have hfloor := floor_le_clampHours created event.now hmax requested
      have hpos : (0 : ℤ) ≤ minutes minTtlMinutesFloor := by decide
      rw [expiryFromNow, Int.toNat_of_nonneg (by omega)]
      exact hearly

theorem createdAt_step {limits : Limits} {created : Instant} {id : String} {s t : State}
    {event : Event} (h : CreatedAt created id s) (hstep : s.step limits event = some t) :
    CreatedAt created id t := by
  simp only [State.step] at hstep
  split at hstep
  · cases hstep
  obtain rfl := Option.some.inj hstep
  intro row' hrow'
  rcases setItemExpiry_cases limits event.request event.now s.rows event.item with
    ⟨error, hset⟩ | ⟨row, expiresAt, clamped, -, -, -, hset⟩
  · rw [hset] at hrow'
    exact h row' hrow'
  · rw [hset] at hrow'
    obtain ⟨old, hold, hnew⟩ := of_resolveRow_modify (TimedRow.moved expiresAt) (fun _ => rfl) hrow'
    rcases hnew with ⟨-, rfl⟩ | ⟨-, rfl⟩
    · exact h old hold
    · exact h row' hold

/-- With a maximum lifetime configured, no result of a run of requests exceeds the ceiling of a
resource by more than the floor exactly when every request about it made past the ceiling is
turned away. -/
theorem within_ceiling_iff {limits : Limits} {created : Instant} {id : String} {s : State}
    {events : List Event} (hmax : limits.maxTotalHours ≠ 0) (hcreated : CreatedAt created id s) :
    (ceilingSystem limits).Along (Within limits created id) s events ↔
      (ceilingSystem limits).Along (InTime limits created id) s events := by
  refine (ceilingSystem limits).along_iff ?_ hcreated
  intro s event t hs hstep
  have hstep' : s.step limits event = some t := hstep
  exact ⟨within_iff hmax hs, fun _ => createdAt_step hs hstep'⟩

/-! ### Two extensions -/

instance (limits : Limits) (created : Instant) (id : String) (s : State) (event : Event) :
    Decidable (Within limits created id s event) := by
  unfold Within
  infer_instance

def db1 : Item where
  id := "clouddb:1"
  kind := .database
  cloud := "aws"
  source := "provisioned"
  workgroup := ""
  state := "available"
  expiresAt := none
  name := "db1"
  region := "eu-west-1"
  jobId := none

/-- The default ceiling of 720 hours; a database created at hour 0 that expires at hour 719. -/
def ceiling : Limits := ⟨720, false⟩

def expiring : State where
  rows := ⟨[⟨"clouddb:1", some 0, some (minutes (719 * 60)), none, none⟩], List.nodup_singleton _⟩
  clock := 0

/-- Extended by one hour at minute `minute`. -/
def extended (minute : ℕ) : Event := { now := minutes minute, item := db1, extendHours := some 1 }

theorem expiring_created : CreatedAt 0 "clouddb:1" expiring := by
  intro row hrow
  obtain ⟨hmem, -⟩ := Table.lookup_eq_some.mp (resolveRow_some hrow)
  obtain rfl := List.mem_singleton.mp hmem
  rfl

/-- Extended at 100 and at 719.5 hours. -/
theorem expiring_within : (ceilingSystem ceiling).Along (Within ceiling 0 "clouddb:1") expiring
    [extended (100 * 60), extended (719 * 60 + 30)] := by
  refine (within_ceiling_iff (by decide) expiring_created).mpr ?_
  refine (ceilingSystem ceiling).along_of_forall fun s event hevent _ hlate => ?_
  rcases List.mem_pair.mp hevent with rfl | rfl
  · exact absurd hlate (by decide)
  · exact absurd hlate (by decide)

/-- Extended at 719.5 hours and again at 720.4 hours, the database expires at 721.4 hours. -/
theorem expiring_outruns : ¬(ceilingSystem ceiling).Along (Within ceiling 0 "clouddb:1") expiring
    [extended (719 * 60 + 30), extended (720 * 60 + 24)] := by
  decide +kernel

end Expiry.Ceiling
