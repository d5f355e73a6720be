import VmDashboard.Expiry.Policy
import VmDashboard.Machine.Except
import VmDashboard.Machine.Table
import VmDashboard.Python.Calendar

/-!
# Changing a timer

`clamp_hours` and `resolve_expiry` of `services/expiry_policy.py`, and `set_expiry` of
`services/expiry_reaper.py`. Lifetimes are whole microseconds where the source has fractions of an
hour.
-/

namespace Expiry
open Machine (Table)
open Python (Instant minutes minuteLabel)

def hours (n : ℤ) : ℤ := n * minutes 60

def minTtlMinutesFloor : ℕ := 60

/-- `resource_expiry_max_total_hours`, 0 for no ceiling, and `resource_expiry_allow_never`. -/
structure Limits where
  maxTotalHours : ℕ
  allowNever : Bool

def clampHours (limits : Limits) (createdAt : Option Instant) (isAdmin : Bool) (now : Instant)
    (requested : ℤ) : ℤ :=
  let floor : ℤ := minutes minTtlMinutesFloor
  let h := max floor requested
  if limits.maxTotalHours ≠ 0 ∧ isAdmin = false then
    match createdAt with
    | some created =>
      let elapsed : ℤ := now - created
      max floor (min h (hours limits.maxTotalHours - elapsed))
    | none => min h (hours limits.maxTotalHours)
  else h

def expiryFromNow (lifetime : ℤ) (now : Instant) : Instant := (now + lifetime).toNat

structure ExpiryRequest where
  extendHours : Option ℤ := none
  absolute : Option Instant := none
  never : Bool := false
  isAdmin : Bool := false

/-- `_refuse_unless_later`: the text of the `ValueError`. -/
def refuseUnlessLater (current : Option Instant) (target : Instant) : Option String :=
  match current with
  | none =>
    some ("Only an administrator may put an auto-delete timer on a " ++
      "resource that has none.")
  | some current =>
    if target / minutes 1 < current / minutes 1 then
      some ("Only an administrator may bring a deletion forward; this would move it from " ++
        minuteLabel current ++ " to " ++ minuteLabel target ++ " UTC.")
    else none

/-- The lifetime asked for, from now on. -/
def requestedLifetime (current : Option Instant) (request : ExpiryRequest) (now : Instant) :
    Option ℤ :=
  match request.absolute, request.extendHours with
  | some target, _ => some ((target : ℤ) - now)
  | none, some extend =>
    let base := match current with
      | some current => if now < current then current else now
      | none => now
    some ((base : ℤ) - now + hours extend)
  | none, none => none

/-- One request resolved to the new expiry, and whether policy shortened what was asked for. -/
def resolveExpiry (limits : Limits) (createdAt current : Option Instant) (request : ExpiryRequest)
    (now : Instant) : Except String (Option Instant × Bool) :=
  if request.never then
    if !limits.allowNever then
      .error ("Clearing a resource's timer is disabled by policy " ++
        "(resource_expiry_allow_never).")
    else if !request.isAdmin then
      .error "Only an administrator may clear a resource's timer."
    else .ok (none, false)
  else
    match requestedLifetime current request now with
    | none => .error "No expiry change requested."
    | some requested =>
      let allowed := clampHours limits createdAt request.isAdmin now requested
      let clamped := allowed.tdiv (minutes 1) < requested.tdiv (minutes 1)
      let target := expiryFromNow allowed now
      match (if request.isAdmin then none else refuseUnlessLater current target) with
      | some refusal => .error refusal
      | none => .ok (some target, clamped)

/-! ### The rows that carry a timer -/

/-- A row with a timer, under its inventory id. The outer `none` of the last field says that the
row has no such column. -/
structure TimedRow where
  invId : String
  createdAt : Option Instant
  expiresAt : Option Instant
  expiryWarnedAt : Option Instant
  warnedStageMinutes : Option (Option ℕ)
  deriving DecidableEq

def rowPrefixes : List String :=
  ["job", "clouddb", "k8s", "pov", "certlab", "spirelab", "directory", "workloadk8s",
    "workloadcloud"]

/-- `_resolve_row`. -/
def resolveRow (rows : Table TimedRow.invId) (invId : String) : Option TimedRow :=
  let kind := invId.toList.takeWhile (· ≠ ':')
  let rid := (invId.toList.dropWhile (· ≠ ':')).drop 1
  if rid = [] ∨ String.ofList kind ∉ rowPrefixes then none
  else rows.lookup invId

/-- A moved expiry is warned about anew. -/
def TimedRow.moved (expiresAt : Option Instant) (row : TimedRow) : TimedRow :=
  { row with
    expiresAt
    expiryWarnedAt := none
    warnedStageMinutes := row.warnedStageMinutes.map fun _ => none }

inductive Outcome
  | updated (id name : String) (expiresAt previous : Option Instant) (clamped : Bool)
  | failed (id name error : String)

/-- `set_expiry` on one item. -/
def setItemExpiry (limits : Limits) (request : ExpiryRequest) (now : Instant)
    (rows : Table TimedRow.invId) (item : Item) : Table TimedRow.invId × Outcome :=
  let (capable, why) := ttlCapable item
  if !capable then
    (rows, .failed item.id item.name
      (if why = "" then "this resource cannot carry an auto-delete timer" else why))
  else
    match resolveRow rows item.id with
    | none => (rows, .failed item.id item.name "no longer in the inventory — refresh and try again")
    | some row =>
      match resolveExpiry limits row.createdAt row.expiresAt request now with
      | .error reason => (rows, .failed item.id item.name reason)
      | .ok (expiresAt, clamped) =>
        (rows.modify item.id (TimedRow.moved expiresAt) fun _ => rfl,
          .updated item.id item.name expiresAt row.expiresAt clamped)

/-- `set_expiry`: the outcomes in the order of the items. -/
def setExpiry (limits : Limits) (request : ExpiryRequest) (now : Instant) :
    Table TimedRow.invId → List Item → Table TimedRow.invId × List Outcome
  | rows, [] => (rows, [])
  | rows, item :: items =>
    let (rows, outcome) := setItemExpiry limits request now rows item
    let (rows, outcomes) := setExpiry limits request now rows items
    (rows, outcome :: outcomes)

/-! ### What a request can do -/

theorem resolveRow_some {rows : Table TimedRow.invId} {invId : String} {row : TimedRow}
    (h : resolveRow rows invId = some row) : rows.lookup invId = some row := by
  unfold resolveRow at h
  extract_lets kind rid at h
  split at h
  · cases h
  · exact h

theorem of_resolveRow_modify {rows : Table TimedRow.invId} {k invId : String}
    (f : TimedRow → TimedRow) (hf : ∀ row, (f row).invId = row.invId) {row' : TimedRow}
    (h : resolveRow (rows.modify k f hf) invId = some row') :
    ∃ row, resolveRow rows invId = some row ∧
      (invId = k ∧ row' = f row ∨ invId ≠ k ∧ row' = row) := by
  simp only [resolveRow] at h ⊢
  split at h
  · cases h
  next hid =>
    obtain ⟨row, hrow, hrest⟩ := Table.of_lookup_modify f hf h
    refine ⟨row, ?_, hrest⟩
    rw [if_neg hid]
    exact hrow

/-- A request changes nothing, or moves the timer of its item as `resolve_expiry` says. -/
theorem setItemExpiry_cases (limits : Limits) (request : ExpiryRequest) (now : Instant)
    (rows : Table TimedRow.invId) (item : Item) :
    (∃ error, setItemExpiry limits request now rows item = (rows, .failed item.id item.name error)) ∨
      ∃ row expiresAt clamped, (ttlCapable item).1 = true ∧ resolveRow rows item.id = some row ∧
        resolveExpiry limits row.createdAt row.expiresAt request now = .ok (expiresAt, clamped) ∧
        setItemExpiry limits request now rows item =
          (rows.modify item.id (TimedRow.moved expiresAt) fun _ => rfl,
            .updated item.id item.name expiresAt row.expiresAt clamped) := by
  unfold setItemExpiry
  cases hcapable : (ttlCapable item).1 with
  | false => exact .inl ⟨_, by simp [hcapable]; rfl⟩
  | true =>
    simp only [hcapable, Bool.not_true, Bool.false_eq_true, if_false]
    cases hrow : resolveRow rows item.id with
    | none => exact .inl ⟨_, rfl⟩
    | some row =>
      simp only
      cases hresolve : resolveExpiry limits row.createdAt row.expiresAt request now with
      | error reason => exact .inl ⟨reason, rfl⟩
      | ok answer => exact .inr ⟨row, answer.1, answer.2, trivial, rfl, hresolve, rfl⟩

end Expiry
