import VmDashboard.Machine.System
import VmDashboard.Notify.Emit

/-!
# What storm control drops (`emit`, `_insert` and `prune` of `services/notification_service.py`)

Any number of emits at once: each finds out whether the queue is over its limit,
then commits its rows one by one. The row that marks a dropped event holds the key
its delivery would need.
-/

namespace Notify.Reoffer
open Machine (Table)
open Notify.Emit

/-- An event for an endpoint, as far as it is told from others: type, subject and bucket. An event
without a resource is known by its title. -/
structure Offer where
  eventType : String
  resourceId : String
  title : String
  endpointId : String
  dedupeBucket : String
  deriving DecidableEq

def offer (event : NotificationEvent) (endpoint : Endpoint) : Offer where
  eventType := event.eventType
  resourceId := event.resourceId
  title := if event.resourceId = "" then event.title else ""
  endpointId := endpoint.id
  dedupeBucket := event.dedupeBucket

/-- An `emit` under way, with the endpoints it has not come to. -/
structure Emission where
  id : ℕ
  event : NotificationEvent
  status : Status
  endpoints : List Endpoint

def Emission.next (emission : Emission) : Emission :=
  { emission with endpoints := emission.endpoints.tail }

/-- `dropped` and `queued` are the offers whose row was inserted as suppressed and as one to be acted
on, in order. -/
structure State where
  rows : Table Delivery.dedupeKey := Table.empty
  emissions : Table Emission.id := Table.empty
  dropped : List Offer := []
  queued : List Offer := []

inductive Label
  | emit (id : ℕ) (config : Config) (endpoints : List Endpoint) (event : NotificationEvent)
  | insert (id : ℕ)
  /-- A drain loop or a reclaim sets the status of a row that is to be delivered. -/
  | deliver (dedupeKey : String) (status : Status)
  /-- `expired` are the keys of the rows created before the cutoff. -/
  | prune (expired : List String)

def Delivery.setStatus (status : Status) (row : Delivery) : Delivery := { row with status }

/-- The statuses that `prune` deletes. -/
def prunable (status : Status) : Bool := status = .sent || status = .dryRun || status = .suppressed

/-- The statuses a row passes through on its way out. -/
def deliverable (status : Status) : Bool := status ≠ .dryRun && status ≠ .suppressed

section
variable (sha256 : String → String)

/-- `_insert` for the next endpoint. -/
def insertNext (s : State) (emission : Emission) (endpoint : Endpoint) : State :=
  let emissions := s.emissions.modify emission.id Emission.next fun _ => rfl
  match s.rows.insert (delivery sha256 emission.event emission.status endpoint) with
  | none => { s with emissions }
  | some rows =>
    if emission.status = .suppressed then
      { s with rows, emissions, dropped := s.dropped ++ [offer emission.event endpoint] }
    else { s with rows, emissions, queued := s.queued ++ [offer emission.event endpoint] }

def step (s : State) : Label → Option State
  | .emit id config endpoints event =>
    let left := if config.enabled then subscribed config endpoints event else []
    (s.emissions.insert ⟨id, event, emitStatus config s.rows, left⟩).map fun emissions =>
      { s with emissions }
  | .insert id =>
    match s.emissions.lookup id with
    | some emission =>
      match emission.endpoints with
      | endpoint :: _ => some (insertNext sha256 s emission endpoint)
      | [] => none
    | none => none
  | .deliver dedupeKey status =>
    match s.rows.lookup dedupeKey with
    | some row =>
      if deliverable row.status ∧ deliverable status then
        some { s with rows := s.rows.modify dedupeKey (Delivery.setStatus status) fun _ => rfl }
      else none
    | none => none
  | .prune expired =>
    some { s with rows := s.rows.filter fun row =>
      !(decide (row.dedupeKey ∈ expired) && prunable row.status) }

def system : Machine.System State Label := ⟨step sha256⟩

/-- The offer an insertion is about, when its emit found room in the queue. -/
def offered (s : State) : Label → Option (Offer × String)
  | .insert id =>
    match s.emissions.lookup id with
    | some emission =>
      match emission.endpoints with
      | endpoint :: _ =>
        if emission.status = .suppressed then none
        else some (offer emission.event endpoint, dedupeKey sha256 emission.event endpoint.id)
      | [] => none
    | none => none
  | _ => none

/-- With room in the queue, an offer that was dropped and not queued since is queued. -/
def Reoffered (s : State) (label : Label) : Prop :=
  ∀ o ∈ offered sha256 s label, o.1 ∈ s.dropped → o.1 ∉ s.queued →
    ∀ t ∈ step sha256 s label, o.1 ∈ t.queued

/-- The key of an offer is free when the offer was dropped and not queued since, and taken when it
was queued. -/
def KeyFits (s : State) (label : Label) : Prop :=
  ∀ o ∈ offered sha256 s label,
    (o.1 ∈ s.dropped → o.1 ∉ s.queued → s.rows.lookup o.2 = none) ∧
      (o.1 ∈ s.queued → s.rows.lookup o.2 ≠ none)

end

/-! ### One insertion -/

variable {sha256 : String → String} {s t : State}

theorem insert_eq_none_iff {rows : Table Delivery.dedupeKey} {row : Delivery} :
    rows.insert row = none ↔ rows.lookup row.dedupeKey ≠ none := by
  rw [ne_eq, ← Table.insert_isSome_iff, Option.not_isSome_iff_eq_none]

theorem queued_insertNext {emission : Emission} (endpoint : Endpoint)
    (h : emission.status ≠ .suppressed) :
    (insertNext sha256 s emission endpoint).queued =
      if s.rows.lookup (dedupeKey sha256 emission.event endpoint.id) = none then
        s.queued ++ [offer emission.event endpoint]
      else s.queued := by
  have hkey : (delivery sha256 emission.event emission.status endpoint).dedupeKey =
      dedupeKey sha256 emission.event endpoint.id := rfl
  unfold insertNext
  split
  next hinsert =>
    have htaken := insert_eq_none_iff.mp hinsert
    rw [hkey] at htaken
    rw [if_neg htaken]
  next rows hinsert =>
    have hfree := (Table.insert_eq_some hinsert).1
    rw [hkey] at hfree
    rw [if_neg h, if_pos hfree]

/-- What an insertion with room does to the offers that are queued. -/
theorem queued_of_offered {label : Label} {o : Offer × String} (ho : offered sha256 s label = some o)
    (ht : step sha256 s label = some t) :
    t.queued = if s.rows.lookup o.2 = none then s.queued ++ [o.1] else s.queued := by
  cases label with
  | insert id =>
    simp only [offered] at ho
    simp only [step] at ht
    split at ho
    next emission hemission =>
      split at ho
      next endpoint rest hendpoints =>
        simp only [hemission, hendpoints] at ht
        split at ho
        · cases ho
        next hstatus =>
          obtain rfl := Option.some.inj ho
          obtain rfl := Option.some.inj ht
          exact queued_insertNext endpoint hstatus
      next => cases ho
    next => cases ho
  | emit id config endpoints event => cases ho
  | deliver dedupeKey status => cases ho
  | prune expired => cases ho

/-- Every other step leaves them alone. -/
theorem queued_of_not_offered {label : Label} (ho : offered sha256 s label = none)
    (ht : step sha256 s label = some t) : t.queued = s.queued := by
  cases label with
  | insert id =>
    simp only [offered] at ho
    simp only [step] at ht
    split at ho
    next emission hemission =>
      split at ho
      next endpoint rest hendpoints =>
        simp only [hemission, hendpoints] at ht
        split at ho
        next hstatus =>
          obtain rfl := Option.some.inj ht
          simp only [insertNext]
          split
          · rfl
          · rw [if_pos hstatus]
        · cases ho
      next hendpoints =>
        simp only [hemission, hendpoints] at ht
        cases ht
    next hemission =>
      simp only [hemission] at ht
      cases ht
  | emit id config endpoints event =>
    obtain ⟨emissions, -, rfl⟩ := Option.map_eq_some_iff.mp ht
    rfl
  | deliver dedupeKey status =>
    simp only [step] at ht
    split at ht
    · split at ht
      · obtain rfl := Option.some.inj ht
        rfl
      · cases ht
    · cases ht
  | prune expired =>
    obtain rfl := Option.some.inj ht
    rfl

/-- A step queues nothing twice and re-offers what was dropped exactly when its key fits. -/
theorem step_iff {label : Label} (hs : s.queued.Nodup) (ht : step sha256 s label = some t) :
    t.queued.Nodup ∧ Reoffered sha256 s label ↔ KeyFits sha256 s label := by
  cases ho : offered sha256 s label with
  | none =>
    rw [queued_of_not_offered ho ht]
    constructor
    · intro _ o hmem
      cases ho.symm.trans hmem
    · refine fun _ => ⟨hs, fun o hmem => ?_⟩
      cases ho.symm.trans hmem
  | some o =>
    have hqueued := queued_of_offered ho ht
    constructor
    · rintro ⟨hnodup, hreoffered⟩ o' hmem
      obtain rfl := Option.some.inj (ho.symm.trans hmem)
      constructor
      · intro hdropped hnew
        have hin := hreoffered o ho hdropped hnew t ht
        rw [hqueued] at hin
        split at hin
        · assumption
        · exact absurd hin hnew
      · intro hold hfree
        rw [hqueued, if_pos hfree, List.nodup_append] at hnodup
        exact hnodup.2.2 o.1 hold o.1 (List.mem_singleton_self _) rfl
    · intro hfits
      obtain ⟨hfree, htaken⟩ := hfits o ho
      constructor
      · rw [hqueued]
        split
        next hnone =>
          rw [List.nodup_append]
          refine ⟨hs, List.nodup_singleton _, ?_⟩
          intro a ha b hb hab
          obtain rfl := List.mem_singleton.mp hb
          exact htaken (hab ▸ ha) hnone
        next => exact hs
      · intro o' hmem hdropped hnew t' ht'
        obtain rfl := Option.some.inj (ho.symm.trans hmem)
        obtain rfl := Option.some.inj (ht.symm.trans ht')
        rw [hqueued, if_pos (hfree hdropped hnew)]
        exact List.mem_append_right _ (List.mem_singleton_self _)

/-- In a run, every dropped event is queued when it is emitted with room and no offer is queued
twice, exactly when at each insertion with room the key is free for what was dropped and taken
for what was queued. -/
theorem reoffered_iff (sha256 : String → String) (run : List Label) :
    ((system sha256).Always (fun s => s.queued.Nodup) {} run ∧
        (system sha256).Along (Reoffered sha256) {} run) ↔
      (system sha256).Along (KeyFits sha256) {} run := by
  have hstart : ({} : State).queued.Nodup := List.nodup_nil
  constructor
  · rintro ⟨hnodup, hreoffered⟩
    have hnext := (system sha256).along_of_always
      (G := fun s label => ∀ t, step sha256 s label = some t → t.queued.Nodup)
      (fun s label t ht h t' ht' => Option.some.inj (ht.symm.trans ht') ▸ h) hnodup
    exact (system sha256).along_of_along (I := fun s => s.queued.Nodup)
      (fun s label t hs hl ht => ⟨hl.2 t ht, (step_iff hs ht).mp ⟨hl.2 t ht, hl.1⟩⟩) hstart
      ((system sha256).along_and hreoffered hnext)
  · intro hfits
    constructor
    · exact (system sha256).always_of_along (I := fun s => s.queued.Nodup)
        (fun s label t hs hl ht => ((step_iff hs ht).mpr hl).1) hstart hfits
    · exact (system sha256).along_of_along (I := fun s => s.queued.Nodup)
        (fun s label t hs hl ht => (step_iff hs ht).mpr hl) hstart hfits

/-! ### An emit that nothing interrupts -/

theorem insertNext_emissions (sha256 : String → String) (s : State) (emission : Emission)
    (endpoint : Endpoint) : (insertNext sha256 s emission endpoint).emissions =
      s.emissions.modify emission.id Emission.next fun _ => rfl := by
  simp only [insertNext]
  split
  · rfl
  · split <;> rfl

/-- The insertions of one emit, one after the other, are the loop of `emit`. -/
theorem exec_insertEach (endpoints : List Endpoint) {s : State} {emission : Emission}
    (hemission : s.emissions.lookup emission.id = some emission)
    (hendpoints : emission.endpoints = endpoints) :
    ∃ t, (system sha256).exec s (List.replicate endpoints.length (.insert emission.id)) = some t ∧
      t.rows = (insertEach sha256 emission.event emission.status s.rows endpoints).1 := by
  induction endpoints generalizing s emission with
  | nil => exact ⟨s, rfl, rfl⟩
  | cons endpoint endpoints ih =>
    have hstep : step sha256 s (.insert emission.id) =
        some (insertNext sha256 s emission endpoint) := by
      simp only [step, hemission, hendpoints]
    have hnext : (insertNext sha256 s emission endpoint).emissions.lookup emission.next.id =
        some emission.next := by
      rw [insertNext_emissions]
      exact (Table.lookup_modify_self _ _ _ _).trans (congrArg _ hemission)
    have hleft : emission.next.endpoints = endpoints := by
      rw [Emission.next, hendpoints, List.tail_cons]
    obtain ⟨t, hexec, hrows⟩ := ih hnext hleft
    refine ⟨t, ?_, hrows.trans ?_⟩
    · rw [List.length_cons, List.replicate_succ, Machine.System.exec_cons]
      have hfirst : (system sha256).step s (.insert emission.id) =
          some (insertNext sha256 s emission endpoint) := hstep
      rw [hfirst]
      exact hexec
    · have hevent : emission.next.event = emission.event := rfl
      have hstatus : emission.next.status = emission.status := rfl
      rw [hevent, hstatus, insertEach, insertNext]
      cases hinsert : s.rows.insert (delivery sha256 emission.event emission.status endpoint) with
      | none => rfl
      | some rows =>
        simp only
        split <;> rfl

/-! ### Storm control drops an event for good -/

instance (sha256 : String → String) (s : State) (label : Label) :
    Decidable (Reoffered sha256 s label) :=
  inferInstanceAs (Decidable (∀ o ∈ offered sha256 s label, _))

def oneInQueue : Config where
  enabled := true
  dryRun := false
  minSeverity := "info"
  eventTypes := ["resource.expiring"]
  maxQueue := 1

def sink : Endpoint := ⟨"e1", "ops", "slack", [], true⟩

def expiring (resourceId : String) : NotificationEvent where
  eventType := "resource.expiring"
  title := "vm-1 expires"
  resourceId := resourceId

/-- The second warning finds the queue full; the first is sent, and the second is emitted again. -/
def storm : List Label :=
  [.emit 0 oneInQueue [sink] (expiring "job:1"), .insert 0,
    .emit 1 oneInQueue [sink] (expiring "job:2"), .insert 1,
    .deliver "resource.expiring:job:1:e1" .sending, .deliver "resource.expiring:job:1:e1" .sent,
    .emit 2 oneInQueue [sink] (expiring "job:2"), .insert 2]

theorem dropped_for_good :
    ¬∀ (sha256 : String → String) (run : List Label),
      (system sha256).Always (fun s => s.queued.Nodup) {} run ∧
        (system sha256).Along (Reoffered sha256) {} run := by
  intro h
  exact absurd (h (fun _ => "") storm).2 (by decide +kernel)

end Notify.Reoffer
