import VmDashboard.Hypervisor.Tags
import VmDashboard.Machine.System
import Mathlib.Data.Finset.Basic

/-!
# Tag edits of one guest

Edits, the queued `set_tags` jobs in their order, and inventory passes that the agent
reads and the dashboard applies later, in any interleaving. Nobody else edits the guest.
-/

namespace Hypervisor.TagEdits
open Python (Dict)
open Machine (System)

structure State where
  /-- the guest's `tags` field -/
  field : String
  /-- the row's `tags`, as `list_vms` returns them -/
  cached : List String
  /-- the tags of the `set_tags` jobs, oldest first -/
  queue : List (List String)
  /-- inventory read by the agent and not yet applied -/
  readings : List (List String)
  /-- the initial tags with the accepted edits applied in order -/
  asked : Finset String

inductive Event
  | edit (add : Dict) (remove : List String) (agentRefusal : Option String)
  | run
  | read
  | apply (reading : List String)

def tagSet (field : String) : Finset String := (proxmoxTagList field).toFinset

def edited (tags : Finset String) (add remove : List String) : Finset String :=
  tags \ remove.toFinset ∪ add.toFinset

def State.step (s : State) : Event → Option State
  | .edit add remove agentRefusal =>
    match assertEditAllowed add remove with
    | .error _ => some s
    | .ok (keys, removed) =>
      match queueTagJob (some (some s.cached)) keys removed agentRefusal with
      | .failed _ => some s
      | .unchanged => some { s with asked := edited s.asked keys removed }
      | .queued tags =>
        some { s with queue := s.queue ++ [tags], asked := edited s.asked keys removed }
  | .run =>
    match s.queue with
    | [] => none
    | tags :: rest =>
      match setTagsProxmox tags with
      | .error _ => none
      | .ok field => some { s with field, queue := rest }
  | .read => some { s with readings := proxmoxTagList s.field :: s.readings }
  | .apply reading =>
    if reading ∈ s.readings then
      some { s with cached := syncedTags reading, readings := s.readings.erase reading }
    else none

def editing : System State Event := ⟨State.step⟩

/-- The last inventory sync has reported the guest. -/
def start (field : String) : State where
  field
  cached := syncedTags (proxmoxTagList field)
  queue := []
  readings := []
  asked := tagSet field

/-- Once every queued job has run, the guest has the tags asked for. -/
def Kept (s : State) : Prop :=
  ∃ t, editing.exec s (List.replicate s.queue.length .run) = some t ∧ tagSet t.field = t.asked

instance : DecidablePred Kept := fun s =>
  decidable_of_iff ((editing.exec s (List.replicate s.queue.length .run)).any fun t =>
    tagSet t.field = t.asked) (by simp [Kept, Option.any_eq_true])

/-- The tags an edit is computed from. -/
def State.current (s : State) : List String := (normalise s.cached).map Chip.key

/-- The tags the guest has once the jobs queued so far have run. -/
def State.settled (s : State) : List String := s.queue.getLast?.getD (proxmoxTagList s.field)

/-- An accepted edit that would change nothing of the copy changes nothing of what the guest will
have; for any other, the two differ at most in tags that the edit names. -/
def Informed (s : State) : Event → Prop
  | .edit add remove agentRefusal => ∀ keys removed,
      assertEditAllowed add remove = .ok (keys, removed) →
      if Idle keys removed s.current then Idle keys removed s.settled
      else agentRefusal = none → Writable (desiredTags s.current keys removed) →
        ∀ tag, tag ∉ keys → tag ∉ removed → (tag ∈ s.current ↔ tag ∈ s.settled)
  | _ => True

/-! ### Draining the queue -/

def State.Pending (s : State) : Prop := ∀ tags ∈ s.queue, Writable tags

theorem step_run {s : State} {tags : List String} {rest : List (List String)}
    (hqueue : s.queue = tags :: rest) (hwrite : Writable tags) :
    s.step .run = some { s with field := ";".intercalate tags, queue := rest } := by
  simp only [State.step, hqueue, setTagsProxmox_of_writable hwrite]

/-- Writing the next job's tags leaves what the guest will have. -/
theorem settled_run {s : State} {tags : List String} {rest : List (List String)}
    (hqueue : s.queue = tags :: rest) (hwrite : Writable tags) :
    State.settled { s with field := ";".intercalate tags, queue := rest } = s.settled := by
  rw [State.settled, State.settled, hqueue]
  cases rest with
  | nil => exact proxmoxTagList_written hwrite
  | cons tags' rest => rfl

theorem run_queue {s : State} (h : s.Pending) :
    ∃ t, editing.exec s (List.replicate s.queue.length .run) = some t ∧
      t.asked = s.asked ∧ proxmoxTagList t.field = s.settled := by
  induction hqueue : s.queue generalizing s with
  | nil => exact ⟨s, rfl, rfl, by rw [State.settled, hqueue]; rfl⟩
  | cons tags rest ih =>
    have hwrite := h tags (hqueue ▸ List.mem_cons_self)
    have hrest : State.Pending { s with field := ";".intercalate tags, queue := rest } :=
      fun tags' h' => h tags' (hqueue ▸ List.mem_cons_of_mem tags h')
    obtain ⟨t, hexec, hasked, hfield⟩ := ih hrest rfl
    refine ⟨t, ?_, hasked, hfield.trans (settled_run hqueue hwrite)⟩
    have hstep : editing.step s .run = some { s with field := ";".intercalate tags, queue := rest } :=
      step_run hqueue hwrite
    rw [List.length_cons, List.replicate_succ, System.exec_cons, hstep]
    exact hexec

theorem kept_iff {s : State} (h : s.Pending) : Kept s ↔ s.settled.toFinset = s.asked := by
  obtain ⟨t, hexec, hasked, hfield⟩ := run_queue h
  rw [← hasked, ← hfield]
  constructor
  · rintro ⟨t', hexec', hkept⟩
    obtain rfl := Option.some.inj (hexec.symm.trans hexec')
    exact hkept
  · exact fun hkept => ⟨t, hexec, hkept⟩

/-! ### One edit -/

theorem mem_edited {tags : Finset String} {add remove : List String} {tag : String} :
    tag ∈ edited tags add remove ↔ tag ∈ tags ∧ tag ∉ remove ∨ tag ∈ add := by
  simp [edited]

theorem edited_eq_self {tags add remove : List String} (hdisjoint : add.Disjoint remove) :
    tags.toFinset = edited tags.toFinset add remove ↔ Idle add remove tags := by
  simp only [idle_iff hdisjoint, Finset.ext_iff, mem_edited, List.mem_toFinset]

theorem desired_eq_edited {current settled add remove : List String} :
    (desiredTags current add remove).toFinset = edited settled.toFinset add remove ↔
      ∀ tag, tag ∉ add → tag ∉ remove → (tag ∈ current ↔ tag ∈ settled) := by
  simp only [Finset.ext_iff, List.mem_toFinset, mem_desiredTags, mem_edited]
  refine forall_congr' fun tag => ?_
  by_cases hadd : tag ∈ add
  · simp [hadd]
  · by_cases hremove : tag ∈ remove
    · simp [hadd, hremove]
    · simp [hadd, hremove]

/-- An edit is refused, changes nothing of the copy, or is queued. -/
theorem edit_cases {s t : State} {add : Dict} {remove : List String}
    {agentRefusal : Option String} (hstep : s.step (.edit add remove agentRefusal) = some t) :
    (t = s ∧ ∀ keys removed, assertEditAllowed add remove = .ok (keys, removed) →
      ¬Idle keys removed s.current ∧
        ¬(agentRefusal = none ∧ Writable (desiredTags s.current keys removed))) ∨
    ∃ keys removed, assertEditAllowed add remove = .ok (keys, removed) ∧
      (Idle keys removed s.current ∧ t = { s with asked := edited s.asked keys removed } ∨
        ¬Idle keys removed s.current ∧ agentRefusal = none ∧
          Writable (desiredTags s.current keys removed) ∧
          t = { s with
            queue := s.queue ++ [desiredTags s.current keys removed]
            asked := edited s.asked keys removed }) := by
  simp only [State.step] at hstep
  cases hallowed : assertEditAllowed add remove with
  | error refusal =>
    rw [hallowed] at hstep
    exact .inl ⟨(Option.some.inj hstep).symm, nofun⟩
  | ok edit =>
    obtain ⟨keys, removed⟩ := edit
    rw [hallowed] at hstep
    rcases queueTagJob_cases s.cached agentRefusal (assertEditAllowed_disjoint hallowed) with
      ⟨hidle, hout⟩ | ⟨hidle, ⟨hnone, hwrite, hout⟩ | ⟨hnot, error, hout⟩⟩
    · simp only [hout] at hstep
      exact .inr ⟨keys, removed, rfl, .inl ⟨hidle, (Option.some.inj hstep).symm⟩⟩
    · simp only [hout] at hstep
      exact .inr ⟨keys, removed, rfl, .inr ⟨hidle, hnone, hwrite, (Option.some.inj hstep).symm⟩⟩
    · simp only [hout] at hstep
      refine .inl ⟨(Option.some.inj hstep).symm, fun keys' removed' h => ?_⟩
      obtain ⟨rfl, rfl⟩ := Prod.mk.inj (Except.ok.inj h)
      exact ⟨hidle, hnot⟩

theorem pending_step (s : State) (event : Event) (t : State) (h : s.Pending)
    (hstep : s.step event = some t) : t.Pending := by
  cases event with
  | edit add remove agentRefusal =>
    rcases edit_cases hstep with ⟨rfl, -⟩ | ⟨keys, removed, -, ⟨-, rfl⟩ | ⟨-, -, hwrite, rfl⟩⟩
    · exact h
    · exact h
    · intro tags htags
      rcases List.mem_append.mp htags with htags | htags
      · exact h tags htags
      · rwa [List.mem_singleton.mp htags]
  | run =>
    cases hqueue : s.queue with
    | nil => simp [State.step, hqueue] at hstep
    | cons tags rest =>
      obtain rfl := Option.some.inj
        ((step_run hqueue (h tags (hqueue ▸ List.mem_cons_self))).symm.trans hstep)
      exact fun tags' h' => h tags' (hqueue ▸ List.mem_cons_of_mem tags h')
  | read =>
    obtain rfl := Option.some.inj hstep
    exact h
  | apply reading =>
    simp only [State.step, Option.ite_none_right_eq_some, Option.some_inj] at hstep
    obtain ⟨-, rfl⟩ := hstep
    exact h

theorem informed_edit {s : State} {add : Dict} {remove keys removed : List String}
    {agentRefusal : Option String} (h : assertEditAllowed add remove = .ok (keys, removed)) :
    Informed s (.edit add remove agentRefusal) ↔
      if Idle keys removed s.current then Idle keys removed s.settled
      else agentRefusal = none → Writable (desiredTags s.current keys removed) →
        ∀ tag, tag ∉ keys → tag ∉ removed → (tag ∈ s.current ↔ tag ∈ s.settled) := by
  constructor
  · exact fun hinformed => hinformed keys removed h
  · intro hedit keys' removed' h'
    obtain ⟨rfl, rfl⟩ := Prod.mk.inj (Except.ok.inj (h.symm.trans h'))
    exact hedit

theorem settled_edit {s t : State} {add : Dict} {remove : List String}
    {agentRefusal : Option String} (hasked : s.settled.toFinset = s.asked)
    (hstep : s.step (.edit add remove agentRefusal) = some t) :
    t.settled.toFinset = t.asked ↔ Informed s (.edit add remove agentRefusal) := by
  rcases edit_cases hstep with ⟨rfl, hnot⟩ | ⟨keys, removed, hallowed, hcase⟩
  · refine iff_of_true hasked fun keys removed hallowed => ?_
    obtain ⟨hidle, hnot⟩ := hnot keys removed hallowed
    rw [if_neg hidle]
    exact fun hnone hwrite => absurd ⟨hnone, hwrite⟩ hnot
  rw [informed_edit hallowed]
  rcases hcase with ⟨hidle, rfl⟩ | ⟨hidle, hnone, hwrite, rfl⟩
  · rw [if_pos hidle, ← edited_eq_self (assertEditAllowed_disjoint hallowed), hasked]
    exact Eq.congr_left hasked
  · have hsettled : State.settled { s with
        queue := s.queue ++ [desiredTags s.current keys removed]
        asked := edited s.asked keys removed } = desiredTags s.current keys removed := by
      simp [State.settled]
    rw [if_neg hidle, hsettled, ← hasked, desired_eq_edited]
    exact ⟨fun h _ _ => h, fun h => h hnone hwrite⟩

theorem settled_step {s t : State} {event : Event} (hpending : s.Pending)
    (hasked : s.settled.toFinset = s.asked) (hstep : s.step event = some t) :
    t.settled.toFinset = t.asked ↔ Informed s event := by
  cases event with
  | edit add remove agentRefusal => exact settled_edit hasked hstep
  | run =>
    cases hqueue : s.queue with
    | nil => simp [State.step, hqueue] at hstep
    | cons tags rest =>
      have hwrite := hpending tags (hqueue ▸ List.mem_cons_self)
      obtain rfl := Option.some.inj ((step_run hqueue hwrite).symm.trans hstep)
      rw [settled_run hqueue hwrite]
      exact iff_of_true hasked trivial
  | read =>
    obtain rfl := Option.some.inj hstep
    exact iff_of_true hasked trivial
  | apply reading =>
    simp only [State.step, Option.ite_none_right_eq_some, Option.some_inj] at hstep
    obtain ⟨-, rfl⟩ := hstep
    exact iff_of_true hasked trivial

/-! ### Whole runs -/

/-- Whatever the guest's tags are and however edits, jobs and syncs interleave: no edit is lost
exactly when every accepted edit is computed from a copy that tells what it leaves alone. -/
theorem edits_kept_iff {field : String} {events : List Event} :
    editing.Always Kept (start field) events ↔ editing.Along Informed (start field) events := by
  have hpending : (start field).Pending := nofun
  have hkept : Kept (start field) := (kept_iff hpending).mpr rfl
  have hiff : editing.Always (fun s => s.Pending ∧ Kept s) (start field) events ↔
      editing.Along Informed (start field) events := by
    refine editing.always_iff_along (P := fun _ => True) (fun s event t _ hI hstep => ?_)
      (fun _ _ => trivial) ⟨hpending, hkept⟩
    have hafter := pending_step s event t hI.1 hstep
    rw [and_iff_right hafter, kept_iff hafter]
    exact settled_step hI.1 ((kept_iff hI.1).mp hI.2) hstep
  rw [← hiff]
  exact ⟨fun h => editing.always_and (editing.always_of_step pending_step events hpending) h,
    fun h => editing.always_mono (fun _ => And.right) h⟩

/-- An edit made with no job outstanding, from a copy of the guest as it is, is informed when the
guest has at most 32 tags and no two differ by case alone. -/
theorem informed_of_fresh {s : State} (hqueue : s.queue = [])
    (hcached : s.cached = syncedTags (proxmoxTagList s.field))
    (hlen : (proxmoxTagList s.field).length ≤ maxTags)
    (hplain : ∀ tag ∈ proxmoxTagList s.field, PlainTag tag)
    (hcase : ((proxmoxTagList s.field).map Python.lower).Nodup) (event : Event) :
    Informed s event := by
  have hsettled : s.settled = proxmoxTagList s.field := by rw [State.settled, hqueue]; rfl
  have hmem (tag : String) : tag ∈ s.current ↔ tag ∈ s.settled := by
    rw [State.current, hcached, hsettled]
    exact mem_normalise_synced hlen hplain hcase
  cases event with
  | edit add remove agentRefusal =>
    intro keys removed _
    split_ifs with hidle
    · exact ⟨fun key hkey => (hmem key).mp (hidle.1 key hkey),
        fun key hkey htag => hidle.2 key hkey ((hmem key).mpr htag)⟩
    · exact fun _ _ tag _ _ => hmem tag
  | run | read | apply _ => trivial

/-- Two tags added one after the other, before the first job has run. -/
def twoEdits : List Event :=
  [.edit [("web", .str "")] [] none, .edit [("prod", .str "")] [] none]

theorem second_edit_loses_first : ¬ ∀ field events, editing.Always Kept (start field) events := by
  intro h
  have hrun : ¬editing.Always Kept (start "") twoEdits := by decide +kernel
  exact hrun (h "" twoEdits)

/- The copy keeps one of two tags that differ by case, and an edit of it drops the other. -/
example : ¬editing.Always Kept (start "Web;web") [.edit [("prod", .str "")] [] none] := by
  decide +kernel

end Hypervisor.TagEdits
