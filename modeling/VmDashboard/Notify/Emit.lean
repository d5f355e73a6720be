import VmDashboard.Machine.Table
import VmDashboard.Python.Case

/-!
# Queueing an event (`services/notify_policy.py`, `emit` of `services/notification_service.py`)

An event becomes one delivery row for each endpoint that wants it. The table's unique dedupe key
refuses a row whose key is taken. The digest of an overlong key is a parameter.
-/

namespace Notify.Emit
open Machine (Table)

def eventSeverity : String → String
  | "resource.expiring" => "warning"
  | "resource.reaped" => "critical"
  | "job.failed" => "warning"
  | "cost.budget_exceeded" => "warning"
  | "vm.spend_warn" => "warning"
  | "vm.spend_capped" => "critical"
  | "vm.spend_unpriced" => "warning"
  | "job.dead_lettered" => "critical"
  | "secret.stale" => "warning"
  | "config.drift" => "warning"
  | "audit.chain_broken" => "critical"
  | "job.window_missed" => "warning"
  | "job.awaiting_approval" => "warning"
  | "pov.owner_changed" => "warning"
  | "agent.attention" => "warning"
  | _ => "info"

def severityOrder : List String := ["info", "warning", "critical"]

def severityRank (severity : String) : ℕ :=
  let at' := severityOrder.idxOf (Python.lower severity)
  if at' < severityOrder.length then at' else 0

structure NotificationEvent where
  eventType : String
  title : String
  severity : String := ""
  resourceId : String := ""
  resourceKind : String := ""
  resourceName : String := ""
  cloud : String := ""
  region : String := ""
  workgroup : String := ""
  url : String := ""
  dedupeBucket : String := ""

def NotificationEvent.effectiveSeverity (event : NotificationEvent) : String :=
  let sev := Python.lower (Python.strip event.severity)
  if sev ∈ severityOrder then sev else eventSeverity event.eventType

/-- The settings as they are read, the event types split. -/
structure Config where
  enabled : Bool
  dryRun : Bool
  minSeverity : String
  eventTypes : List String
  maxQueue : ℕ

/-- An endpoint with its own list of event types, empty to inherit the global one. -/
structure Endpoint where
  id : String
  name : String
  fmt : String
  eventTypes : List String
  enabled : Bool
  deriving DecidableEq

def shouldNotify (config : Config) (event : NotificationEvent) (endpointEventTypes : List String) :
    Bool :=
  config.enabled && severityRank config.minSeverity ≤ severityRank event.effectiveSeverity &&
    config.eventTypes.contains event.eventType &&
    (endpointEventTypes.isEmpty || endpointEventTypes.contains event.eventType)

def maxDedupeChars : ℕ := 200

section
variable (sha256 : String → String)

def dedupeKey (event : NotificationEvent) (endpointId : String) : String :=
  let subject :=
    if event.resourceId = "" then String.ofList ((sha256 event.title).toList.take 16)
    else event.resourceId
  let parts := [event.eventType, subject, if endpointId = "" then "-" else endpointId] ++
    if event.dedupeBucket = "" then [] else [event.dedupeBucket]
  let key := ":".intercalate parts
  let key := if maxDedupeChars < key.length then event.eventType ++ ":" ++ sha256 key else key
  String.ofList (key.toList.take maxDedupeChars)

inductive Status where
  | pending | sending | sent | failed | dryRun | suppressed
  deriving DecidableEq

structure Delivery where
  dedupeKey : String
  eventType : String
  resourceId : String
  endpointId : String
  channel : String
  status : Status
  deriving DecidableEq

/-- The row `_insert` adds. -/
def delivery (event : NotificationEvent) (status : Status) (endpoint : Endpoint) : Delivery where
  dedupeKey := dedupeKey sha256 event endpoint.id
  eventType := event.eventType
  resourceId := event.resourceId
  endpointId := endpoint.id
  channel := endpoint.fmt
  status

def overQueueLimit (config : Config) (rows : Table Delivery.dedupeKey) : Bool :=
  config.maxQueue ≤ (rows.rows.filter fun row => row.status = .pending).length

/-- The loop of `emit` over the endpoints: the rows after it and how many were queued. -/
def insertEach (event : NotificationEvent) (status : Status) :
    Table Delivery.dedupeKey → List Endpoint → Table Delivery.dedupeKey × ℕ
  | rows, [] => (rows, 0)
  | rows, endpoint :: endpoints =>
    match rows.insert (delivery sha256 event status endpoint) with
    | none => insertEach event status rows endpoints
    | some rows =>
      let (rows, queued) := insertEach event status rows endpoints
      (rows, if status = .suppressed then queued else queued + 1)

/-- The enabled endpoints that want the event. -/
def subscribed (config : Config) (endpoints : List Endpoint) (event : NotificationEvent) :
    List Endpoint :=
  endpoints.filter fun endpoint =>
    endpoint.enabled && shouldNotify config event endpoint.eventTypes

def emitStatus (config : Config) (rows : Table Delivery.dedupeKey) : Status :=
  if overQueueLimit config rows then .suppressed
  else if config.dryRun then .dryRun
  else .pending

def emit (config : Config) (endpoints : List Endpoint) (rows : Table Delivery.dedupeKey)
    (event : NotificationEvent) : Table Delivery.dedupeKey × ℕ :=
  if !config.enabled then (rows, 0)
  else insertEach sha256 event (emitStatus config rows) rows (subscribed config endpoints event)

/-! ### What is queued -/

variable {sha256}

/-- Every endpoint gets its row exactly when their keys are free and differ. -/
theorem insertEach_rows {event : NotificationEvent} {status : Status} {endpoints : List Endpoint}
    {rows : Table Delivery.dedupeKey} :
    (insertEach sha256 event status rows endpoints).1.rows =
        rows.rows ++ endpoints.map (delivery sha256 event status) ↔
      (endpoints.map fun endpoint => dedupeKey sha256 event endpoint.id).Nodup ∧
        ∀ endpoint ∈ endpoints, rows.lookup (dedupeKey sha256 event endpoint.id) = none := by
  constructor
  · intro h
    have hnodup := (insertEach sha256 event status rows endpoints).1.nodup
    rw [h, List.map_append, List.nodup_append] at hnodup
    obtain ⟨-, hkeys, hdiffer⟩ := hnodup
    rw [List.map_map] at hkeys hdiffer
    refine ⟨hkeys, fun endpoint hendpoint => Table.lookup_eq_none.mpr fun row hrow => ?_⟩
    exact hdiffer _ (List.mem_map_of_mem hrow) _ (List.mem_map_of_mem hendpoint)
  · induction endpoints generalizing rows with
    | nil => simp [insertEach]
    | cons endpoint endpoints ih =>
      rintro ⟨hnodup, hfree⟩
      obtain ⟨hhead, htail⟩ := List.nodup_cons.mp hnodup
      have hnew : ∃ added, rows.insert (delivery sha256 event status endpoint) = some added := by
        have hnone := hfree endpoint List.mem_cons_self
        unfold Table.insert
        split
        next htaken =>
          obtain ⟨row, hrow, hkey⟩ := List.mem_map.mp htaken
          exact absurd hkey (Table.lookup_eq_none.mp hnone row hrow)
        next => exact ⟨_, rfl⟩
      obtain ⟨added, hadded⟩ := hnew
      have hrows := (Table.insert_eq_some hadded).2
      have hleft : ∀ e ∈ endpoints, added.lookup (dedupeKey sha256 event e.id) = none := by
        intro e he
        have hne : dedupeKey sha256 event e.id ≠
            (delivery sha256 event status endpoint).dedupeKey := by
          intro heq
          exact hhead (List.mem_map.mpr ⟨e, he, heq⟩)
        rw [Table.lookup_insert hadded, if_neg hne]
        exact hfree e (List.mem_cons_of_mem endpoint he)
      have hrest := ih ⟨htail, hleft⟩
      simp only [insertEach, hadded, hrest, hrows, List.map_cons, List.append_assoc,
        List.singleton_append]

theorem subscribed_disabled {config : Config} (h : config.enabled = false)
    (endpoints : List Endpoint) (event : NotificationEvent) :
    subscribed config endpoints event = [] := by
  apply List.filter_eq_nil_iff.mpr
  intro endpoint _
  simp [shouldNotify, h]

/-- `emit` adds a row for each subscribed endpoint exactly when their keys are free and differ. -/
theorem emit_rows {config : Config} {endpoints : List Endpoint} {event : NotificationEvent}
    {rows : Table Delivery.dedupeKey} :
    (emit sha256 config endpoints rows event).1.rows = rows.rows ++
        (subscribed config endpoints event).map (delivery sha256 event (emitStatus config rows)) ↔
      ((subscribed config endpoints event).map fun e => dedupeKey sha256 event e.id).Nodup ∧
        ∀ e ∈ subscribed config endpoints event,
          rows.lookup (dedupeKey sha256 event e.id) = none := by
  unfold emit
  cases h : config.enabled with
  | true => exact insertEach_rows
  | false => simp [subscribed_disabled h]

end

end Notify.Emit
