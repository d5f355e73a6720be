import Mathlib.Algebra.Order.Ring.Rat
import Mathlib.Logic.Function.Basic
import VmDashboard.Machine.System

/-!
# The process's cache (`services/cache_service.py`)

Its coroutines share one event loop: what one does between two `await`s that wait is one step, and
`async with _lock` never waits, because nothing is awaited while the lock is held. What waits is the
fetcher of `get_or_refresh` and `_refresh_task`, another coroutine's future, and a task that
`create_task` has made. The steps of all coroutines come in any order, with the other writers of the
store, cancellations and both clocks between them. `written` is the history of `set`.
-/

namespace CacheService
open Machine (System)

structure Entry (δ : Type) where
  data : δ
  /-- Of the wall clock. -/
  cachedAt : ℤ
  expiresAt : ℚ
  hardExpiresAt : ℚ

structure Write (δ : Type) where
  key : String
  data : δ
  time : ℚ
  hard : ℚ

structure Cache (δ : Type) where
  store : String → Option (Entry δ)
  /-- `monotonic()`. -/
  now : ℚ
  wall : ℤ
  written : List (Write δ)

def staleGraceS : ℕ := 300

namespace Cache
variable {δ : Type}

def invalidate (c : Cache δ) (key : String) : Cache δ :=
  { c with store := Function.update c.store key none }

def invalidatePrefix (c : Cache δ) (name : String) : Cache δ :=
  { c with
    store := fun key =>
      if ("vmcli:" ++ name ++ ":").toList.isPrefixOf key.toList then none else c.store key }

def get (c : Cache δ) (key : String) : Option (Entry δ) × Cache δ :=
  match c.store key with
  | none => (none, c)
  | some entry => if entry.expiresAt ≤ c.now then (none, c.invalidate key) else (some entry, c)

/-- `_get_entry`, with whether the entry is stale. -/
def getEntry (c : Cache δ) (key : String) : Option (Entry δ × Bool) × Cache δ :=
  match c.store key with
  | none => (none, c)
  | some entry =>
    if entry.hardExpiresAt ≤ c.now then (none, c.invalidate key)
    else (some (entry, decide (entry.expiresAt ≤ c.now)), c)

def set (c : Cache δ) (key : String) (payload : δ) (ttl : ℕ) (hardTtl : Option ℕ) : Cache δ :=
  let hard : ℚ := (hardTtl.getD (ttl + staleGraceS) : ℕ)
  { c with
    store := Function.update c.store key (some ⟨payload, c.wall, c.now + ttl, c.now + hard⟩)
    written := ⟨key, payload, c.now, hard⟩ :: c.written }

end Cache

/-- An `asyncio.Future`. -/
inductive Future (δ ε : Type)
  | pending
  | result (data : δ)
  | exception (error : ε)
  | cancelled

def Future.of {δ ε : Type} : Except ε δ → Future δ ε
  | .ok data => .result data
  | .error error => .exception error

/-- Where a coroutine stands. -/
inductive Phase (δ ε : Type)
  | idle
  /-- `create_task` has made it and it has not run yet. -/
  | spawned (key : String) (ttl : ℕ)
  /-- In `_refresh_task`, with what `get_or_refresh` returns afterwards, if it waits for it. -/
  | refreshing (key : String) (ttl : ℕ) (stale : Option (δ × ℤ))
  /-- A miss: awaits its own fetcher. -/
  | leading (key : String) (ttl : ℕ) (future : ℕ)
  /-- A miss: awaits the leader's future. -/
  | waiting (key : String) (future : ℕ)
  | answered (key : String) (data : δ) (cachedAt : ℤ)
  /-- `none`: a `CancelledError` or an `InvalidStateError`. -/
  | raised (error : Option ε)
  deriving DecidableEq

def Phase.isLeading {δ ε : Type} : Phase δ ε → Bool
  | .leading _ _ _ => true
  | _ => false

def Phase.isWaiting {δ ε : Type} : Phase δ ε → Bool
  | .waiting _ _ => true
  | _ => false

structure Coroutine (δ ε : Type) where
  /-- When it was called. -/
  began : ℚ
  phase : Phase δ ε

structure World (δ ε : Type) where
  cache : Cache δ
  inflight : String → Bool
  pending : String → Option ℕ
  futures : ℕ → Future δ ε
  /-- How many futures were made. -/
  made : ℕ
  coroutines : ℕ → Coroutine δ ε

inductive Label (δ ε : Type)
  /-- `get_or_refresh`; `child` is the task it makes if it makes one. -/
  | request (p : ℕ) (key : String) (ttl : ℕ) (background : Bool) (child : ℕ)
  | start (p : ℕ)
  /-- The fetcher returns or raises. -/
  | fetched (p : ℕ) (outcome : Except ε δ)
  /-- The future it waits for is done. -/
  | wake (p : ℕ)
  | cancel (p : ℕ)
  | leave (p : ℕ)
  | set (key : String) (payload : δ) (ttl : ℕ) (hardTtl : Option ℕ)
  | get (key : String)
  | invalidate (key : String)
  | invalidatePrefix (name : String)
  | tick (passed : ℚ)
  | setWall (wall : ℤ)

namespace World
variable {δ ε : Type}

def phase (w : World δ ε) (p : ℕ) : Phase δ ε := (w.coroutines p).phase

def put (w : World δ ε) (p : ℕ) (coroutine : Coroutine δ ε) : World δ ε :=
  { w with coroutines := Function.update w.coroutines p coroutine }

def goto (w : World δ ε) (p : ℕ) (phase : Phase δ ε) : World δ ε :=
  w.put p ⟨(w.coroutines p).began, phase⟩

def enter (w : World δ ε) (p : ℕ) (phase : Phase δ ε) : World δ ε := w.put p ⟨w.cache.now, phase⟩

def withCache (w : World δ ε) (cache : Cache δ) : World δ ε := { w with cache := cache }

def setInflight (w : World δ ε) (key : String) (claimed : Bool) : World δ ε :=
  { w with inflight := Function.update w.inflight key claimed }

/-- A new future under the key. -/
def promise (w : World δ ε) (key : String) : World δ ε :=
  { w with
    pending := Function.update w.pending key (some w.made)
    futures := Function.update w.futures w.made .pending
    made := w.made + 1 }

def popPending (w : World δ ε) (key : String) : World δ ε :=
  { w with pending := Function.update w.pending key none }

def settle (w : World δ ε) (future : ℕ) (outcome : Future δ ε) : World δ ε :=
  { w with futures := Function.update w.futures future outcome }

def isIdle (w : World δ ε) (p : ℕ) : Bool :=
  match w.phase p with
  | .idle => true
  | _ => false

/-- `get_or_refresh` up to where it waits or returns. -/
def getOrRefresh (w : World δ ε) (p : ℕ) (key : String) (ttl : ℕ) (background : Bool) (child : ℕ) :
    Option (World δ ε) :=
  let (cached, cache) := w.cache.getEntry key
  let w := w.withCache cache
  match cached with
  | some (entry, false) => some (w.enter p (.answered key entry.data entry.cachedAt))
  | some (entry, true) =>
    if background then
      if w.inflight key then some (w.enter p (.answered key entry.data entry.cachedAt))
      else if child ≠ p ∧ w.isIdle child then
        some (((w.setInflight key true).enter child (.spawned key ttl)).enter p
          (.answered key entry.data entry.cachedAt))
      else none
    else
      some ((w.setInflight key true).enter p (.refreshing key ttl (some (entry.data, entry.cachedAt))))
  | none =>
    match w.pending key with
    | some future => some (w.enter p (.waiting key future))
    | none => some ((w.promise key).enter p (.leading key ttl w.made))

/-- The `set` after a fetch. -/
def keep (w : World δ ε) (key : String) (ttl : ℕ) : Except ε δ → World δ ε
  | .ok data => w.withCache (w.cache.set key data ttl none)
  | .error _ => w

/-- What a call that awaited the fetch returns or raises. -/
def outcomeOf (w : World δ ε) (key : String) : Except ε δ → Phase δ ε
  | .ok data => .answered key data w.cache.wall
  | .error error => .raised (some error)

/-- `get_or_refresh` from its fetcher's return, for the first to ask. -/
def lead (w : World δ ε) (p : ℕ) (key : String) (ttl future : ℕ) (outcome : Except ε δ) : World δ ε :=
  let w := w.keep key ttl outcome
  match w.futures future with
  | .pending => ((w.settle future (Future.of outcome)).popPending key).goto p (w.outcomeOf key outcome)
  -- set_result raises, and so does set_exception
  | _ => (w.popPending key).goto p (.raised none)

/-- `_refresh_task` from its fetcher's return. -/
def refresh (w : World δ ε) (p : ℕ) (key : String) (ttl : ℕ) (stale : Option (δ × ℤ))
    (outcome : Except ε δ) : World δ ε :=
  ((w.keep key ttl outcome).setInflight key false).goto p
    (match stale with
    | some (data, cachedAt) => .answered key data cachedAt
    | none => .idle)

/-- `get_or_refresh` from the leader's future. -/
def follow (w : World δ ε) (p : ℕ) (key : String) : Future δ ε → Option (World δ ε)
  | .pending => none
  | .result data =>
    let (cached, cache) := w.cache.get key
    some ((w.withCache cache).goto p (.answered key data ((cached.map Entry.cachedAt).getD w.cache.wall)))
  | .exception error => some (w.goto p (.raised (some error)))
  | .cancelled => some (w.goto p (.raised none))

def cancel (w : World δ ε) (p : ℕ) : Option (World δ ε) :=
  match w.phase p with
  -- its body never runs, nor its `finally`
  | .spawned _ _ => some (w.goto p .idle)
  | .refreshing key _ _ => some ((w.setInflight key false).goto p (.raised none))
  | .leading key _ _ => some ((w.popPending key).goto p (.raised none))
  | .waiting _ future =>
    -- the cancellation goes to the future the task waits for
    match w.futures future with
    | .pending => some ((w.settle future .cancelled).goto p (.raised none))
    | _ => some (w.goto p (.raised none))
  | _ => none

def step (w : World δ ε) : Label δ ε → Option (World δ ε)
  | .request p key ttl background child =>
    if w.isIdle p then w.getOrRefresh p key ttl background child else none
  | .start p =>
    match w.phase p with
    | .spawned key ttl => some (w.goto p (.refreshing key ttl none))
    | _ => none
  | .fetched p outcome =>
    match w.phase p with
    | .leading key ttl future => some (w.lead p key ttl future outcome)
    | .refreshing key ttl stale => some (w.refresh p key ttl stale outcome)
    | _ => none
  | .wake p =>
    match w.phase p with
    | .waiting key future => w.follow p key (w.futures future)
    | _ => none
  | .cancel p => w.cancel p
  | .leave p =>
    match w.phase p with
    | .answered _ _ _ | .raised _ => some (w.goto p .idle)
    | _ => none
  | .set key payload ttl hardTtl => some (w.withCache (w.cache.set key payload ttl hardTtl))
  | .get key => some (w.withCache (w.cache.get key).2)
  | .invalidate key => some (w.withCache (w.cache.invalidate key))
  | .invalidatePrefix name => some (w.withCache (w.cache.invalidatePrefix name))
  | .tick passed =>
    if 0 ≤ passed then some (w.withCache { w.cache with now := w.cache.now + passed }) else none
  | .setWall wall => some (w.withCache { w.cache with wall := wall })

end World

def system (δ ε : Type) : System (World δ ε) (Label δ ε) := ⟨World.step⟩

/-- A process that has just started. -/
def fresh (δ ε : Type) (now : ℚ) (wall : ℤ) : World δ ε where
  cache := ⟨fun _ => none, now, wall, []⟩
  inflight _ := false
  pending _ := none
  futures _ := .pending
  made := 0
  coroutines _ := ⟨now, .idle⟩

/-! ### What one step does -/

/-- The store loses entries and time passes, or one entry is written. -/
inductive Cache.Moves {δ : Type} (c : Cache δ) : Cache δ → Prop
  | drop {c' : Cache δ} : (∀ key, c'.store key = none ∨ c'.store key = c.store key) →
      c'.written = c.written → c.now ≤ c'.now → Moves c c'
  | set (key : String) (payload : δ) (ttl : ℕ) (hardTtl : Option ℕ) :
      Moves c (c.set key payload ttl hardTtl)

section
variable {δ ε : Type}

theorem Cache.Moves.refl (c : Cache δ) : c.Moves c := .drop (fun _ => .inr rfl) rfl le_rfl

theorem Cache.moves_invalidate (c : Cache δ) (key : String) : c.Moves (c.invalidate key) := by
  refine .drop (fun other => ?_) rfl le_rfl
  by_cases h : other = key
  · rw [h]
    exact .inl (Function.update_self _ _ _)
  · exact .inr (Function.update_of_ne h _ _)

theorem Cache.moves_invalidatePrefix (c : Cache δ) (name : String) :
    c.Moves (c.invalidatePrefix name) := by
  refine .drop (fun key => ?_) rfl le_rfl
  by_cases h : ("vmcli:" ++ name ++ ":").toList.isPrefixOf key.toList = true
  · exact .inl (if_pos h)
  · exact .inr (if_neg h)

theorem Cache.moves_get (c : Cache δ) (key : String) : c.Moves (c.get key).2 := by
  unfold Cache.get
  split
  · exact .refl c
  · split
    · exact c.moves_invalidate key
    · exact .refl c

/-- What `_get_entry` returns has not reached its hard expiry. -/
theorem Cache.getEntry_eq (c : Cache δ) (key : String) :
    (∃ entry, c.store key = some entry ∧ c.now < entry.hardExpiresAt ∧
      c.getEntry key = (some (entry, decide (entry.expiresAt ≤ c.now)), c)) ∨
    ∃ c', c.Moves c' ∧ c.getEntry key = (none, c') := by
  unfold Cache.getEntry
  cases hstore : c.store key with
  | none => exact .inr ⟨c, .refl c, rfl⟩
  | some entry =>
    by_cases hhard : entry.hardExpiresAt ≤ c.now
    · exact .inr ⟨_, c.moves_invalidate key, if_pos hhard⟩
    · exact .inl ⟨entry, rfl, not_le.mp hhard, if_neg hhard⟩

inductive Step (w : World δ ε) : Label δ ε → World δ ε → Prop
  | serve {p : ℕ} {key : String} {ttl : ℕ} {background : Bool} {child : ℕ} {entry : Entry δ} :
      w.phase p = .idle → w.cache.store key = some entry → w.cache.now < entry.hardExpiresAt →
      Step w (.request p key ttl background child) (w.enter p (.answered key entry.data entry.cachedAt))
  | spawn {p : ℕ} {key : String} {ttl child : ℕ} {entry : Entry δ} :
      w.phase p = .idle → w.cache.store key = some entry → w.cache.now < entry.hardExpiresAt →
      w.inflight key = false → child ≠ p → w.phase child = .idle →
      Step w (.request p key ttl true child)
        (((w.setInflight key true).enter child (.spawned key ttl)).enter p
          (.answered key entry.data entry.cachedAt))
  | foreground {p : ℕ} {key : String} {ttl child : ℕ} {entry : Entry δ} :
      w.phase p = .idle → w.cache.store key = some entry → w.cache.now < entry.hardExpiresAt →
      Step w (.request p key ttl false child)
        ((w.setInflight key true).enter p (.refreshing key ttl (some (entry.data, entry.cachedAt))))
  | join {p : ℕ} {key : String} {ttl : ℕ} {background : Bool} {child future : ℕ} {c : Cache δ} :
      w.phase p = .idle → w.cache.Moves c → w.pending key = some future →
      Step w (.request p key ttl background child) ((w.withCache c).enter p (.waiting key future))
  | miss {p : ℕ} {key : String} {ttl : ℕ} {background : Bool} {child : ℕ} {c : Cache δ} :
      w.phase p = .idle → w.cache.Moves c → w.pending key = none →
      Step w (.request p key ttl background child)
        (((w.withCache c).promise key).enter p (.leading key ttl w.made))
  | start {p : ℕ} {key : String} {ttl : ℕ} : w.phase p = .spawned key ttl →
      Step w (.start p) (w.goto p (.refreshing key ttl none))
  | settled {p : ℕ} {key : String} {ttl future : ℕ} {outcome : Except ε δ} :
      w.phase p = .leading key ttl future → w.futures future = .pending →
      Step w (.fetched p outcome)
        ((((w.keep key ttl outcome).settle future (Future.of outcome)).popPending key).goto p
          ((w.keep key ttl outcome).outcomeOf key outcome))
  | late {p : ℕ} {key : String} {ttl future : ℕ} {outcome : Except ε δ} :
      w.phase p = .leading key ttl future → w.futures future ≠ .pending →
      Step w (.fetched p outcome) (((w.keep key ttl outcome).popPending key).goto p (.raised none))
  | refreshed {p : ℕ} {key : String} {ttl : ℕ} {stale : Option (δ × ℤ)} {outcome : Except ε δ} :
      w.phase p = .refreshing key ttl stale →
      Step w (.fetched p outcome) (w.refresh p key ttl stale outcome)
  | follow {p : ℕ} {key : String} {future : ℕ} {data : δ} (cachedAt : ℤ) :
      w.phase p = .waiting key future → w.futures future = .result data →
      Step w (.wake p) ((w.withCache (w.cache.get key).2).goto p (.answered key data cachedAt))
  | fail {p : ℕ} {key : String} {future : ℕ} (error : Option ε) : w.phase p = .waiting key future →
      w.futures future ≠ .pending → Step w (.wake p) (w.goto p (.raised error))
  | cancelSpawned {p : ℕ} {key : String} {ttl : ℕ} : w.phase p = .spawned key ttl →
      Step w (.cancel p) (w.goto p .idle)
  | cancelRefreshing {p : ℕ} {key : String} {ttl : ℕ} {stale : Option (δ × ℤ)} :
      w.phase p = .refreshing key ttl stale →
      Step w (.cancel p) ((w.setInflight key false).goto p (.raised none))
  | cancelLeading {p : ℕ} {key : String} {ttl future : ℕ} : w.phase p = .leading key ttl future →
      Step w (.cancel p) ((w.popPending key).goto p (.raised none))
  | cancelWaiting {p : ℕ} {key : String} {future : ℕ} : w.phase p = .waiting key future →
      Step w (.cancel p) ((w.settle future .cancelled).goto p (.raised none))
  | cancelWoken {p : ℕ} {key : String} {future : ℕ} : w.phase p = .waiting key future →
      Step w (.cancel p) (w.goto p (.raised none))
  | leaveAnswered {p : ℕ} {key : String} {data : δ} {cachedAt : ℤ} :
      w.phase p = .answered key data cachedAt → Step w (.leave p) (w.goto p .idle)
  | leaveRaised {p : ℕ} {error : Option ε} : w.phase p = .raised error →
      Step w (.leave p) (w.goto p .idle)
  | cache {l : Label δ ε} {c : Cache δ} : w.cache.Moves c → Step w l (w.withCache c)

theorem isIdle_iff {w : World δ ε} {p : ℕ} : w.isIdle p = true ↔ w.phase p = .idle := by
  unfold World.isIdle
  cases w.phase p <;> simp

theorem request_step {w w' : World δ ε} {p : ℕ} {key : String} {ttl : ℕ} {background : Bool} {child : ℕ}
    (hidle : w.phase p = .idle) (h : w.getOrRefresh p key ttl background child = some w') :
    Step w (.request p key ttl background child) w' := by
  unfold World.getOrRefresh at h
  rcases w.cache.getEntry_eq key with ⟨entry, hstore, hhard, hentry⟩ | ⟨c, hmoves, hentry⟩
  · rw [hentry] at h
    cases hstale : decide (entry.expiresAt ≤ w.cache.now) with
    | false =>
      rw [hstale] at h
      exact Option.some.inj h ▸ .serve hidle hstore hhard
    | true =>
      rw [hstale] at h
      cases background with
      | false => exact Option.some.inj h ▸ .foreground hidle hstore hhard
      | true =>
        simp only [if_true] at h
        split at h
        · exact Option.some.inj h ▸ .serve hidle hstore hhard
        next hfree =>
          split at h
          next hchild =>
            exact Option.some.inj h ▸ .spawn hidle hstore hhard (Bool.eq_false_iff.mpr hfree) hchild.1
              (isIdle_iff.mp hchild.2)
          · cases h
  · rw [hentry] at h
    cases hpending : w.pending key with
    | some future =>
      have hjoin : (w.withCache c).pending key = some future := hpending
      simp only [hjoin] at h
      exact Option.some.inj h ▸ .join hidle hmoves hpending
    | none =>
      have hmiss : (w.withCache c).pending key = none := hpending
      simp only [hmiss] at h
      exact Option.some.inj h ▸ .miss hidle hmoves hpending

theorem lead_step {w : World δ ε} {p : ℕ} {key : String} {ttl future : ℕ}
    (hphase : w.phase p = .leading key ttl future) (outcome : Except ε δ) :
    Step w (.fetched p outcome) (w.lead p key ttl future outcome) := by
  have hfutures : (w.keep key ttl outcome).futures = w.futures := by cases outcome <;> rfl
  unfold World.lead
  dsimp only
  rw [hfutures]
  split
  next hpending => exact .settled hphase hpending
  next hdone => exact .late hphase hdone

theorem cancel_step {w w' : World δ ε} {p : ℕ} (h : w.cancel p = some w') : Step w (.cancel p) w' := by
  unfold World.cancel at h
  split at h
  next hphase => exact Option.some.inj h ▸ .cancelSpawned hphase
  next hphase => exact Option.some.inj h ▸ .cancelRefreshing hphase
  next hphase => exact Option.some.inj h ▸ .cancelLeading hphase
  next hphase =>
    split at h
    · exact Option.some.inj h ▸ .cancelWaiting hphase
    · exact Option.some.inj h ▸ .cancelWoken hphase
  · cases h

theorem wake_step {w w' : World δ ε} {p : ℕ} {key : String} {future : ℕ}
    (hphase : w.phase p = .waiting key future) (h : w.follow p key (w.futures future) = some w') :
    Step w (.wake p) w' := by
  cases hfuture : w.futures future with
  | pending =>
    rw [hfuture] at h
    cases h
  | result data =>
    rw [hfuture] at h
    exact Option.some.inj h ▸ .follow _ hphase hfuture
  | exception error =>
    rw [hfuture] at h
    exact Option.some.inj h ▸ .fail (some error) hphase (hfuture ▸ nofun)
  | cancelled =>
    rw [hfuture] at h
    exact Option.some.inj h ▸ .fail none hphase (hfuture ▸ nofun)

theorem step_cases {w w' : World δ ε} {l : Label δ ε} (h : w.step l = some w') : Step w l w' := by
  cases l with
  | request p key ttl background child =>
    simp only [World.step] at h
    split at h
    next hidle => exact request_step (isIdle_iff.mp hidle) h
    · cases h
  | start p =>
    simp only [World.step] at h
    split at h
    next hphase => exact Option.some.inj h ▸ .start hphase
    · cases h
  | fetched p outcome =>
    simp only [World.step] at h
    split at h
    next hphase => exact Option.some.inj h ▸ lead_step hphase outcome
    next hphase => exact Option.some.inj h ▸ .refreshed hphase
    · cases h
  | wake p =>
    simp only [World.step] at h
    split at h
    next hphase => exact wake_step hphase h
    · cases h
  | cancel p => exact cancel_step h
  | leave p =>
    simp only [World.step] at h
    split at h
    next hphase => exact Option.some.inj h ▸ .leaveAnswered hphase
    next hphase => exact Option.some.inj h ▸ .leaveRaised hphase
    · cases h
  | set key payload ttl hardTtl => exact Option.some.inj h ▸ .cache (.set key payload ttl hardTtl)
  | get key => exact Option.some.inj h ▸ .cache (w.cache.moves_get key)
  | invalidate key => exact Option.some.inj h ▸ .cache (w.cache.moves_invalidate key)
  | invalidatePrefix name => exact Option.some.inj h ▸ .cache (w.cache.moves_invalidatePrefix name)
  | tick passed =>
    simp only [World.step] at h
    split at h
    next hpassed =>
      exact Option.some.inj h ▸ .cache (.drop (fun _ => .inr rfl) rfl (le_add_of_nonneg_right hpassed))
    · cases h
  | setWall wall => exact Option.some.inj h ▸ .cache (.drop (fun _ => .inr rfl) rfl le_rfl)

end

end CacheService
