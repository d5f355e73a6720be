import VmDashboard.Expiry.Requests
import VmDashboard.Machine.System
import VmDashboard.Notify.Emit

/-!
# The warning ladder

`next_warn_stage` of `services/expiry_policy.py` and `_warn_expiring` of
`services/expiry_reaper.py` over the outbox. The latch of a row holds the tightest rung that was
warned about; a changed timer clears it.
-/

namespace Expiry.Ladder
open Machine (Table)
open Python (Instant minutes seconds)
open Notify.Emit (NotificationEvent Endpoint Delivery)

def warnLadderMinutes : List ℕ := [7 * 24 * 60, 3 * 24 * 60, 24 * 60, 4 * 60, 60]

/-- The tightest rung that the time left has crossed, unless it or a tighter one has been sent. -/
def nextWarnStage (remaining : ℤ) (warned : Option ℕ) : Option ℕ :=
  if remaining ≤ 0 then none
  else
    match (warnLadderMinutes.filter fun m => remaining ≤ minutes m).min? with
    | none => none
    | some stage => if warned.any (· ≤ stage) then none else some stage

/-- `round(x)` of a fraction: half to even. -/
def roundHalfEven (num den : ℕ) : ℕ :=
  let low := num / den
  let rest := 2 * (num % den)
  if rest < den ∨ rest = den ∧ low % 2 = 0 then low else low + 1

def remainingLabel (remaining : ℕ) : String :=
  if seconds (36 * 3600) ≤ remaining then
    let days := max 1 (roundHalfEven remaining (seconds 86400))
    "about " ++ toString days ++ " day" ++ if days ≠ 1 then "s" else ""
  else "about " ++ toString (max 1 (remaining / seconds 3600)) ++ "h"

def expiringEvent (item : Item) (remaining : ℕ) (href : String) : NotificationEvent where
  eventType := "resource.expiring"
  title := item.name ++ " auto-deletes in " ++ remainingLabel remaining
  resourceId := item.id
  resourceKind := item.kind.name
  resourceName := item.name
  cloud := item.cloud
  region := item.region
  workgroup := item.workgroup
  url := if href = "" then "/inventory" else href

def TimedRow.warned (now : Instant) (stage : Option ℕ) (row : TimedRow) : TimedRow :=
  { row with
    expiryWarnedAt := some now
    warnedStageMinutes :=
      match stage with
      | none => row.warnedStageMinutes
      | some stage => row.warnedStageMinutes.map fun _ => some stage }

/-- What the pass reads: `resource_expiry_warn_hours`, the settings of the notifications, the
endpoints and the digest. -/
structure Setup where
  warnHours : ℕ
  config : Notify.Emit.Config
  endpoints : List Endpoint
  sha256 : String → String

/-- Whether the row is to be warned about, and at which rung when it has a ladder. -/
def stageOf (setup : Setup) (remaining : ℤ) (row : TimedRow) : Option (Option ℕ) :=
  match row.warnedStageMinutes with
  | some warned => (nextWarnStage remaining warned).map some
  | none =>
    if hours setup.warnHours < remaining ∨ row.expiryWarnedAt.isSome then none else some none

structure Books where
  rows : Table TimedRow.invId
  outbox : Table Delivery.dedupeKey

/-- `_warn_expiring` on one item: the rows and the outbox after it, and the rung that was stamped. -/
def warnItem (setup : Setup) (now : Instant) (item : Item) (href : String) (books : Books) :
    Books × Option ℕ :=
  match item.expiresAt with
  | none => (books, none)
  | some expires =>
    if expires = 0 ∨ expires ≤ now then (books, none)
    else if !(ttlCapable item).1 then (books, none)
    else
      match resolveRow books.rows item.id with
      | none => (books, none)
      | some row =>
        match stageOf setup (expires - now) row with
        | none => (books, none)
        | some stage =>
          let (outbox, queued) := Notify.Emit.emit setup.sha256 setup.config setup.endpoints
            books.outbox (expiringEvent item (expires - now) href)
          if queued = 0 then ({ books with outbox }, none)
          else
            (⟨books.rows.modify item.id (TimedRow.warned now stage) fun _ => rfl, outbox⟩, stage)

/-! ### Runs -/

/-- Beside the tables the rungs recorded for the resource `id` since its timer last changed. -/
structure State where
  books : Books
  clock : Instant
  recorded : List ℕ

/-- A sweep comes to an item, whose expiry it read from the row; a request to change a timer; what
else happens to the outbox. -/
inductive Event
  | warn (now : Instant) (item : Item) (href : String)
  | change (now : Instant) (item : Item) (request : ExpiryRequest)
  | outbox (outbox : Table Delivery.dedupeKey)

/-- The item as the inventory lists it. -/
def listed (books : Books) (item : Item) : Item :=
  { item with expiresAt := (resolveRow books.rows item.id).bind TimedRow.expiresAt }

def Outcome.granted : Outcome → Bool
  | .updated .. => true
  | .failed .. => false

section
variable (setup : Setup) (limits : Limits) (id : String)

def State.step (s : State) : Event → Option State
  | .warn now item href =>
    if now < s.clock then none
    else
      let (books, stamped) := warnItem setup now (listed s.books item) href s.books
      some ⟨books, now, if item.id = id then s.recorded ++ stamped.toList else s.recorded⟩
  | .change now item request =>
    if now < s.clock then none
    else
      let (rows, outcome) := setItemExpiry limits request now s.books.rows item
      some ⟨{ s.books with rows }, now,
        if item.id = id ∧ Outcome.granted outcome then [] else s.recorded⟩
  | .outbox outbox => some { s with books := { s.books with outbox } }

def ladderSystem : Machine.System State Event := ⟨State.step setup limits id⟩

/-- The rung that a sweep finds newly crossed. -/
def newlyCrossed (s : State) (now : Instant) (item : Item) : Option ℕ :=
  match resolveRow s.books.rows item.id with
  | some ⟨_, _, some expires, _, some warned⟩ =>
    if expires = 0 ∨ expires ≤ now ∨ (ttlCapable item).1 = false then none
    else nextWarnStage (expires - now) warned
  | _ => none

/-- The event about the item, as the sweep renders it. -/
def warning (s : State) (now : Instant) (item : Item) (href : String) : NotificationEvent :=
  expiringEvent item (((listed s.books item).expiresAt.getD 0) - now) href

/-- The endpoints that want the warning. -/
def wanting (s : State) (now : Instant) (item : Item) (href : String) : List Endpoint :=
  Notify.Emit.subscribed setup.config setup.endpoints (warning s now item href)

/-- The rungs recorded since the timer last changed get tighter. -/
def Decreasing (s : State) : Prop := s.recorded.Pairwise (· > ·)

/-- No rung is recorded after the expiry; a changed timer opens every rung again; and with the queue
below its limit a rung newly crossed gets one new delivery for each endpoint that wants it. -/
def Warns (s : State) (event : Event) (t : State) : Prop :=
  match event with
  | .warn now item href => item.id = id →
    (t.recorded ≠ s.recorded → ∃ row expires, resolveRow s.books.rows id = some row ∧
      row.expiresAt = some expires ∧ now < expires) ∧
    ((newlyCrossed s now item).isSome → Notify.Emit.overQueueLimit setup.config s.books.outbox = false →
      t.books.outbox.rows = s.books.outbox.rows ++ (wanting setup s now item href).map
        (Notify.Emit.delivery setup.sha256 (warning s now item href)
          (Notify.Emit.emitStatus setup.config s.books.outbox)))
  | .change now item request => item.id = id →
    Outcome.granted (setItemExpiry limits request now s.books.rows item).2 = true →
      t.recorded = [] ∧ ∀ row warned, resolveRow t.books.rows id = some row →
        row.warnedStageMinutes = some warned → warned = none
  | .outbox _ => True

/-- When a sweep finds a rung newly crossed, with the queue below its limit, the outbox has no
delivery with the key of the warning for any endpoint that wants it, and these keys differ. -/
def KeysFree (s : State) : Event → Prop
  | .warn now item href => item.id = id → (newlyCrossed s now item).isSome →
    Notify.Emit.overQueueLimit setup.config s.books.outbox = false →
      ((wanting setup s now item href).map fun endpoint =>
          Notify.Emit.dedupeKey setup.sha256 (warning s now item href) endpoint.id).Nodup ∧
        ∀ endpoint ∈ wanting setup s now item href, s.books.outbox.lookup
          (Notify.Emit.dedupeKey setup.sha256 (warning s now item href) endpoint.id) = none
  | _ => True

end

/-! ### What a sweep does to an item -/

theorem nextWarnStage_some {remaining : ℤ} {warned : Option ℕ} {stage : ℕ}
    (h : nextWarnStage remaining warned = some stage) :
    0 < remaining ∧ ∀ w, warned = some w → stage < w := by
  unfold nextWarnStage at h
  split at h
  · cases h
  next hpos =>
    split at h
    · cases h
    next crossed hmin =>
      split at h
      · cases h
      next hnew =>
        obtain rfl := Option.some.inj h
        refine ⟨by omega, ?_⟩
        rintro w rfl
        simpa using hnew

/-- The item is passed over, or its row is stamped. -/
theorem warnItem_cases (setup : Setup) (now : Instant) (item : Item) (href : String)
    (books : Books) :
    (∃ outbox, warnItem setup now item href books = (⟨books.rows, outbox⟩, none)) ∨
      ∃ expires row stage outbox, item.expiresAt = some expires ∧ now < expires ∧
        resolveRow books.rows item.id = some row ∧
        stageOf setup (expires - now) row = some stage ∧
        warnItem setup now item href books =
          (⟨books.rows.modify item.id (TimedRow.warned now stage) fun _ => rfl, outbox⟩, stage) := by
  unfold warnItem
  cases hexpires : item.expiresAt with
  | none => exact .inl ⟨books.outbox, rfl⟩
  | some expires =>
    simp only
    split
    · exact .inl ⟨books.outbox, rfl⟩
    next hlater =>
    split
    · exact .inl ⟨books.outbox, rfl⟩
    next hcapable =>
    cases hrow : resolveRow books.rows item.id with
    | none => exact .inl ⟨books.outbox, rfl⟩
    | some row =>
      cases hstage : stageOf setup (expires - now) row with
      | none => exact .inl ⟨books.outbox, by simp [hstage]⟩
      | some stage =>
        simp only [hstage]
        split
        · exact .inl ⟨_, rfl⟩
        · exact .inr ⟨expires, row, stage, _, rfl, Nat.not_le.mp fun h => hlater (.inr h), rfl, hstage,
            rfl⟩

theorem newlyCrossed_some {s : State} {now : Instant} {item : Item} {stage : ℕ}
    (h : newlyCrossed s now item = some stage) : ∃ row expires warned,
      resolveRow s.books.rows item.id = some row ∧ row.expiresAt = some expires ∧
        row.warnedStageMinutes = some warned ∧ expires ≠ 0 ∧ now < expires ∧
        (ttlCapable item).1 = true ∧ nextWarnStage (expires - now) warned = some stage := by
  unfold newlyCrossed at h
  split at h
  next invId created expires warnedAt warned hrow =>
    split at h
    · cases h
    next hopen =>
      simp only [not_or, Bool.not_eq_false] at hopen
      exact ⟨_, expires, warned, hrow, rfl, rfl, hopen.1, Nat.not_le.mp hopen.2.1, hopen.2.2, h⟩
  next => cases h

theorem ttlCapable_listed (books : Books) (item : Item) :
    ttlCapable (listed books item) = ttlCapable item := rfl

/-- A rung newly crossed is emitted, whatever the outbox then accepts. -/
theorem warnItem_outbox {setup : Setup} {s : State} {now : Instant} {item : Item} {href : String}
    (h : (newlyCrossed s now item).isSome) :
    (warnItem setup now (listed s.books item) href s.books).1.outbox =
      (Notify.Emit.emit setup.sha256 setup.config setup.endpoints s.books.outbox
        (warning s now item href)).1 := by
  obtain ⟨stage, hcrossed⟩ := Option.isSome_iff_exists.mp h
  obtain ⟨row, expires, warned, hrow, hexpires, hladder, hzero, hlater, hcapable, hstage⟩ :=
    newlyCrossed_some hcrossed
  have hlisted : (listed s.books item).expiresAt = some expires := by
    simp only [listed, hrow, Option.bind_some, hexpires]
  have hrow' : resolveRow s.books.rows (listed s.books item).id = some row := hrow
  have hopen : ¬(expires = 0 ∨ expires ≤ now) := by
    rintro (hz | hle)
    · exact hzero hz
    · exact absurd hle (Nat.not_le.mpr hlater)
  have hstageOf : stageOf setup (expires - now) row = some (some stage) := by
    simp only [stageOf, hladder, hstage, Option.map_some]
  have hevent : expiringEvent (listed s.books item) (expires - now) href =
      warning s now item href := by
    simp only [warning, hlisted, Option.getD_some]
    rfl
  simp only [warnItem, hlisted, if_neg hopen, ttlCapable_listed, hcapable, Bool.not_true,
    Bool.false_eq_true, if_false, hrow', hstageOf, hevent]
  split <;> rfl

/-! ### The recorded rungs -/

/-- The latch of the resource holds the last rung recorded. -/
structure Kept (id : String) (s : State) : Prop where
  decreasing : Decreasing s
  latch : ∀ row, resolveRow s.books.rows id = some row → ∀ m, s.recorded.getLast? = some m →
    row.warnedStageMinutes = some (some m)

section
variable {setup : Setup} {limits : Limits} {id : String}

theorem stageOf_ladder {remaining : ℤ} {row : TimedRow} {warned : Option ℕ} {stage : Option ℕ}
    (hladder : row.warnedStageMinutes = some warned)
    (h : stageOf setup remaining row = some stage) :
    ∃ m, stage = some m ∧ nextWarnStage remaining warned = some m := by
  simp only [stageOf, hladder] at h
  obtain ⟨m, hm, rfl⟩ := Option.map_eq_some_iff.mp h
  exact ⟨m, rfl, hm⟩

theorem stageOf_some {remaining : ℤ} {row : TimedRow} {m : ℕ}
    (h : stageOf setup remaining row = some (some m)) :
    ∃ warned, row.warnedStageMinutes = some warned ∧ nextWarnStage remaining warned = some m := by
  cases hladder : row.warnedStageMinutes with
  | none =>
    simp only [stageOf, hladder] at h
    split at h
    · cases h
    · cases h
  | some warned =>
    obtain ⟨m', hm', hnext⟩ := stageOf_ladder hladder h
    obtain rfl := Option.some.inj hm'
    exact ⟨warned, rfl, hnext⟩

/-- A rung tighter than the last goes on the end. -/
theorem decreasing_append {recorded : List ℕ} {m : ℕ} (h : recorded.Pairwise (· > ·))
    (hlast : ∀ l, recorded.getLast? = some l → m < l) : (recorded ++ [m]).Pairwise (· > ·) := by
  refine List.pairwise_append.mpr ⟨h, List.pairwise_singleton _ _, ?_⟩
  intro x hx y hy
  obtain rfl := List.mem_singleton.mp hy
  rcases List.eq_nil_or_concat recorded with rfl | ⟨init, l, rfl⟩
  · cases hx
  · rw [List.concat_eq_append] at hx h hlast
    have hlt := hlast l (by simp)
    rcases List.mem_append.mp hx with hinit | hself
    · have hgt := (List.pairwise_append.mp h).2.2 x hinit l List.mem_cons_self
      omega
    · obtain rfl := List.mem_singleton.mp hself
      omega

theorem Kept.warn {s t : State} (h : Kept id s) {now : Instant} {item : Item} {href : String}
    (hstep : s.step setup limits id (.warn now item href) = some t) :
    Kept id t ∧ (item.id = id → t.recorded ≠ s.recorded → ∃ row expires,
      resolveRow s.books.rows id = some row ∧ row.expiresAt = some expires ∧ now < expires) := by
  simp only [State.step] at hstep
  split at hstep
  · cases hstep
  obtain rfl := Option.some.inj hstep
  rcases warnItem_cases setup now (listed s.books item) href s.books with
    ⟨outbox, hwarn⟩ | ⟨expires, row, stage, outbox, hexpires, hlater, hrow, hstage, hwarn⟩
  · have hsame : (if item.id = id then s.recorded ++ (none : Option ℕ).toList else s.recorded) =
        s.recorded := by
      split
      · exact List.append_nil _
      · rfl
    refine ⟨⟨?_, ?_⟩, ?_⟩
    · simp only [Decreasing, hwarn, hsame]
      exact h.decreasing
    · simp only [hwarn, hsame]
      exact h.latch
    · intro _ hne
      simp only [hwarn] at hne
      exact absurd hsame hne
  · have hrow' : resolveRow s.books.rows item.id = some row := hrow
    by_cases hid : item.id = id
    · obtain rfl := hid
      cases stage with
      | none =>
        have hno : s.recorded.getLast? = none := by
          by_contra hsome
          obtain ⟨m, hm⟩ := Option.ne_none_iff_exists'.mp hsome
          obtain ⟨m', hm', -⟩ := stageOf_ladder (h.latch row hrow' m hm) hstage
          cases hm'
        refine ⟨⟨?_, ?_⟩, fun _ _ => ⟨row, expires, hrow', ?_, hlater⟩⟩
        · simp only [Decreasing, hwarn, if_true, Option.toList_none, List.append_nil]
          exact h.decreasing
        · simp only [hwarn, if_true, Option.toList_none, List.append_nil, hno]
          intro _ _ m hm
          cases hm
        · simpa [listed, hrow'] using hexpires
      | some m =>
        obtain ⟨warned, hladder, hnext⟩ := stageOf_some hstage
        obtain ⟨-, htighter⟩ := nextWarnStage_some hnext
        have hlast : ∀ l, s.recorded.getLast? = some l → m < l := by
          intro l hl
          have hlatch := h.latch row hrow' l hl
          rw [hladder] at hlatch
          exact htighter l (Option.some.inj hlatch)
        refine ⟨⟨?_, ?_⟩, fun _ _ => ⟨row, expires, hrow', ?_, hlater⟩⟩
        · simp only [Decreasing, hwarn, if_true, Option.toList_some]
          exact decreasing_append h.decreasing hlast
        · simp only [hwarn, if_true, Option.toList_some]
          intro row' hrow'' l hl
          obtain rfl : m = l := by simpa using hl
          obtain ⟨old, hold, hnew⟩ := of_resolveRow_modify (TimedRow.warned now (some m))
            (fun _ => rfl) hrow''
          obtain rfl := Option.some.inj (hrow'.symm.trans hold)
          rcases hnew with ⟨-, rfl⟩ | ⟨hne, -⟩
          · simp only [TimedRow.warned, hladder, Option.map_some]
          · exact absurd rfl hne
        · simpa [listed, hrow'] using hexpires
    · refine ⟨⟨?_, ?_⟩, fun heq => absurd heq hid⟩
      · simp only [Decreasing, if_neg hid]
        exact h.decreasing
      · simp only [hwarn, if_neg hid]
        intro row' hrow'' m hm
        obtain ⟨old, hold, hnew⟩ := of_resolveRow_modify (TimedRow.warned now stage)
          (fun _ => rfl) hrow''
        rcases hnew with ⟨heq, -⟩ | ⟨-, rfl⟩
        · exact absurd heq.symm hid
        · exact h.latch row' hold m hm

theorem Kept.change {s t : State} (h : Kept id s) {now : Instant} {item : Item}
    {request : ExpiryRequest}
    (hstep : s.step setup limits id (.change now item request) = some t) :
    Kept id t ∧ (item.id = id →
      Outcome.granted (setItemExpiry limits request now s.books.rows item).2 = true →
        t.recorded = [] ∧ ∀ row warned, resolveRow t.books.rows id = some row →
          row.warnedStageMinutes = some warned → warned = none) := by
  simp only [State.step] at hstep
  split at hstep
  · cases hstep
  obtain rfl := Option.some.inj hstep
  rcases setItemExpiry_cases limits request now s.books.rows item with
    ⟨error, hset⟩ | ⟨row, expiresAt, clamped, -, hrow, -, hset⟩
  · simp only [hset, Outcome.granted, Bool.false_eq_true, and_false, if_false]
    exact ⟨⟨h.decreasing, h.latch⟩, fun _ hgranted => hgranted.elim⟩
  · simp only [hset, Outcome.granted, and_true]
    by_cases hid : item.id = id
    · simp only [hid, if_true]
      refine ⟨⟨List.Pairwise.nil, fun _ _ _ hm => by cases hm⟩, fun _ _ => ⟨trivial, ?_⟩⟩
      intro row' warned hrow' hladder
      obtain ⟨old, -, hnew⟩ := of_resolveRow_modify (TimedRow.moved expiresAt) (fun _ => rfl) hrow'
      rcases hnew with ⟨-, rfl⟩ | ⟨hne, -⟩
      · obtain ⟨_, -, hnone⟩ := Option.map_eq_some_iff.mp hladder
        exact hnone.symm
      · exact absurd rfl hne
    · simp only [if_neg hid]
      refine ⟨⟨h.decreasing, ?_⟩, fun heq => absurd heq hid⟩
      intro row' hrow' m hm
      obtain ⟨old, hold, hnew⟩ := of_resolveRow_modify (TimedRow.moved expiresAt) (fun _ => rfl)
        hrow'
      rcases hnew with ⟨heq, -⟩ | ⟨-, rfl⟩
      · exact absurd heq.symm hid
      · exact h.latch row' hold m hm

theorem Kept.step {s t : State} {event : Event} (h : Kept id s)
    (hstep : s.step setup limits id event = some t) : Kept id t := by
  cases event with
  | warn now item href => exact (h.warn hstep).1
  | change now item request => exact (h.change hstep).1
  | outbox outbox =>
    obtain rfl := Option.some.inj hstep
    exact ⟨h.decreasing, h.latch⟩

theorem warns_iff {s t : State} {event : Event} (h : Kept id s)
    (hstep : s.step setup limits id event = some t) :
    Warns setup limits id s event t ↔ KeysFree setup id s event := by
  cases event with
  | warn now item href =>
    have houtbox : t.books.outbox =
        (warnItem setup now (listed s.books item) href s.books).1.outbox := by
      simp only [State.step] at hstep
      split at hstep
      · cases hstep
      · obtain rfl := Option.some.inj hstep
        rfl
    constructor
    · intro hwarns hid hcrossed hroom
      have hrows := (hwarns hid).2 hcrossed hroom
      rw [houtbox, warnItem_outbox hcrossed] at hrows
      exact Notify.Emit.emit_rows.mp hrows
    · intro hfree hid
      refine ⟨(h.warn hstep).2 hid, fun hcrossed hroom => ?_⟩
      rw [houtbox, warnItem_outbox hcrossed]
      exact Notify.Emit.emit_rows.mpr (hfree hid hcrossed hroom)
  | change now item request => exact ⟨fun _ => trivial, fun _ => (h.change hstep).2⟩
  | outbox outbox => exact Iff.rfl

/-- In every run of sweeps, requests and other traffic of the outbox the recorded rungs of a
resource strictly decrease between two changes of its timer, none is recorded after the expiry and
a change opens them all again; every rung newly crossed is delivered to every endpoint that wants
it exactly when the keys of its deliveries are free. -/
theorem ladder_delivers_iff {s : State} {events : List Event} (hstart : s.recorded = []) :
    ((ladderSystem setup limits id).Always Decreasing s events ∧
      (ladderSystem setup limits id).Along (fun s event => ∀ t,
        s.step setup limits id event = some t → Warns setup limits id s event t) s events) ↔
    (ladderSystem setup limits id).Along (KeysFree setup id) s events := by
  have hkept : Kept id s := by
    refine ⟨?_, ?_⟩
    · rw [Decreasing, hstart]
      exact List.Pairwise.nil
    · intro _ _ m hm
      rw [hstart] at hm
      cases hm
  have hdecreasing : (ladderSystem setup limits id).Always Decreasing s events := by
    have halways : (ladderSystem setup limits id).Always (Kept id) s events := by
      refine (ladderSystem setup limits id).always_of_step ?_ events hkept
      intro s event t hs hstep
      exact hs.step (hstep : s.step setup limits id event = some t)
    exact (ladderSystem setup limits id).always_mono (fun t ht => ht.decreasing) halways
  have hiff : (ladderSystem setup limits id).Along (fun s event => ∀ t,
        s.step setup limits id event = some t → Warns setup limits id s event t) s events ↔
      (ladderSystem setup limits id).Along (KeysFree setup id) s events := by
    refine (ladderSystem setup limits id).along_iff ?_ hkept
    intro s event t hs hstep
    have hstep' : s.step setup limits id event = some t := hstep
    refine ⟨⟨fun hwarns => (warns_iff hs hstep').mp (hwarns t hstep'), fun hfree u hu => ?_⟩,
      fun _ => hs.step hstep'⟩
    exact (warns_iff hs hu).mpr hfree
  exact ⟨fun h => hiff.mp h.2, fun h => ⟨hdecreasing, hiff.mpr h⟩⟩

end

/-! ### Two rungs -/

instance (setup : Setup) (id : String) (s : State) : ∀ event, Decidable (KeysFree setup id s event)
  | .warn _ item _ => inferInstanceAs (Decidable (item.id = id → _ → _ → _ ∧ _))
  | .change .. => inferInstanceAs (Decidable True)
  | .outbox _ => inferInstanceAs (Decidable True)

def lab : Item where
  id := "pov:1"
  kind := .pov
  cloud := ""
  source := ""
  workgroup := ""
  state := "active"
  expiresAt := none
  name := "lab"
  region := ""
  jobId := none

/-- One endpoint, and nothing that is hashed. -/
def webhook : Setup where
  warnHours := 24
  config := ⟨true, false, "warning", ["resource.expiring"], 500⟩
  endpoints := [⟨"ep-1", "ops", "slack", [], true⟩]
  sha256 := id

/-- A lab that expires after 30 days, and no rung sent. -/
def labOnly : State where
  books :=
    ⟨⟨[⟨"pov:1", some 0, some (minutes 43200), none, some none⟩], List.nodup_singleton _⟩, .empty⟩
  clock := 0
  recorded := []

def limits30 : Limits := ⟨720, false⟩

/-- A week and three days before the expiry, with the first delivery pruned in between. -/
theorem labOnly_warned :
    (ladderSystem webhook limits30 "pov:1").Always Decreasing labOnly
        [.warn (minutes 33200) lab "", .outbox .empty, .warn (minutes 38900) lab ""] ∧
      (ladderSystem webhook limits30 "pov:1").Along (fun s event => ∀ t,
        s.step webhook limits30 "pov:1" event = some t →
          Warns webhook limits30 "pov:1" s event t) labOnly
        [.warn (minutes 33200) lab "", .outbox .empty, .warn (minutes 38900) lab ""] :=
  (ladder_delivers_iff rfl).mpr (by decide +kernel)

/-- The second rung finds the key of the first delivery taken and adds none. -/
theorem second_rung_lost :
    ¬(ladderSystem webhook limits30 "pov:1").Along (fun s event => ∀ t,
        s.step webhook limits30 "pov:1" event = some t →
          Warns webhook limits30 "pov:1" s event t) labOnly
        [.warn (minutes 33200) lab "", .warn (minutes 38900) lab ""] := by
  intro halong
  have hfacts : ((ladderSystem webhook limits30 "pov:1").exec labOnly
      [.warn (minutes 33200) lab ""]).bind (fun s =>
        (s.step webhook limits30 "pov:1" (.warn (minutes 38900) lab "")).map fun t =>
          ((newlyCrossed s (minutes 38900) lab).isSome,
            Notify.Emit.overQueueLimit webhook.config s.books.outbox,
            s.books.outbox.rows.length, (wanting webhook s (minutes 38900) lab "").length,
            t.books.outbox.rows.length)) = some (true, false, 1, 1, 1) := by decide +kernel
  obtain ⟨s, hs, hstep⟩ := Option.bind_eq_some_iff.mp hfacts
  obtain ⟨t, ht, hlengths⟩ := Option.map_eq_some_iff.mp hstep
  simp only [Prod.mk.injEq] at hlengths
  obtain ⟨hcrossed, hroom, hbefore, hwanting, hafter⟩ := hlengths
  have ht' : (ladderSystem webhook limits30 "pov:1").step s (.warn (minutes 38900) lab "") =
      some t := ht
  have hwarns : Warns webhook limits30 "pov:1" s (.warn (minutes 38900) lab "") t :=
    (ladderSystem webhook limits30 "pov:1").along_at halong hs ht' t ht
  have hrows := congrArg List.length ((hwarns rfl).2 hcrossed hroom)
  rw [List.length_append, List.length_map, hbefore, hwanting, hafter] at hrows
  omega

end Expiry.Ladder
