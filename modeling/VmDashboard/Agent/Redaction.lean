import VmDashboard.Machine.System
import VmDashboard.Machine.Table
import VmDashboard.Python.Replace

/-!
# Credentials kept out of what the agent sends (`Dashboard` in `runners/agent/agent.py`)

`hold_secret`, `release_secrets`, `redact` and `_scrub`, under any number of jobs at once. A payload is
scrubbed while other threads hold and release: every look at `_held` is a step of its own, and what
the traversal makes of the payload depends on these looks alone.
-/

namespace Redaction
open Machine (Table)
open Python (replace Apart)

/-! ### A payload and its scrubbing -/

/-- What a job hands over for sending. -/
inductive Payload where
  | none
  | bool (b : Bool)
  | int (n : ℤ)
  | str (text : String)
  | list (items : List Payload)
  | tuple (items : List Payload)
  | dict (items : List (String × Payload))

def marker : List Char := "***redacted***".toList

/-- `secret in text`. -/
def Within (secret text : String) : Prop := secret.toList <:+: text.toList

instance (secret text : String) : Decidable (Within secret text) :=
  inferInstanceAs (Decidable (_ <:+: _))

/-- `held` in the order the set is listed. -/
def redact (held : List String) (text : String) : String :=
  held.foldl (fun out secret =>
    if Within secret out then String.ofList (replace secret.toList marker out.toList) else out) text

/-- The looks at `_held`, in their order. -/
abbrev Reads := List (List String)

/-- `if not self._held: return payload`. -/
def unlessEmpty (payload : Payload) (rest : Reads → Option (Payload × Reads)) :
    Reads → Option (Payload × Reads)
  | [] => Option.none
  | held :: reads => if held.isEmpty then some (payload, reads) else rest reads

mutual

/-- `_scrub`: `none` when the looks run out, and those that are left otherwise. -/
def scrub : Payload → Reads → Option (Payload × Reads)
  | .dict items => unlessEmpty (.dict items) fun reads =>
    (scrubItems items reads).map fun result => (.dict result.1, result.2)
  | .list items => unlessEmpty (.list items) fun reads =>
    (scrubList items reads).map fun result => (.list result.1, result.2)
  | .str text => unlessEmpty (.str text) fun reads =>
    match reads with
    | [] => Option.none
    | held :: reads => some (.str (redact held text), reads)
  | .none => unlessEmpty .none fun reads => some (.none, reads)
  | .bool b => unlessEmpty (.bool b) fun reads => some (.bool b, reads)
  | .int n => unlessEmpty (.int n) fun reads => some (.int n, reads)
  | .tuple items => unlessEmpty (.tuple items) fun reads => some (.tuple items, reads)

def scrubList : List Payload → Reads → Option (List Payload × Reads)
  | [], reads => some ([], reads)
  | item :: items, reads =>
    (scrub item reads).bind fun first =>
      (scrubList items first.2).map fun rest => (first.1 :: rest.1, rest.2)

def scrubItems : List (String × Payload) → Reads → Option (List (String × Payload) × Reads)
  | [], reads => some ([], reads)
  | (key, value) :: items, reads =>
    (scrub value reads).bind fun first =>
      (scrubItems items first.2).map fun rest => ((key, first.1) :: rest.1, rest.2)

end

mutual

/-- Every string of a payload. -/
def Payload.texts : Payload → List String
  | .str text => [text]
  | .list items => listTexts items
  | .tuple items => listTexts items
  | .dict items => itemTexts items
  | .none | .bool _ | .int _ => []

def listTexts : List Payload → List String
  | [] => []
  | item :: items => item.texts ++ listTexts items

def itemTexts : List (String × Payload) → List String
  | [] => []
  | (key, value) :: items => key :: value.texts ++ itemTexts items

end

mutual

/-- The strings that `_scrub` redacts: values and elements of lists. -/
def Payload.reached : Payload → List String
  | .str text => [text]
  | .list items => listReached items
  | .dict items => itemReached items
  | .none | .bool _ | .int _ | .tuple _ => []

def listReached : List Payload → List String
  | [] => []
  | item :: items => item.reached ++ listReached items

def itemReached : List (String × Payload) → List String
  | [] => []
  | (_, value) :: items => value.reached ++ itemReached items

end

mutual

/-- The strings that it passes over: keys, and what stands in a tuple. -/
def Payload.passed : Payload → List String
  | .list items => listPassed items
  | .tuple items => listTexts items
  | .dict items => itemPassed items
  | .none | .bool _ | .int _ | .str _ => []

def listPassed : List Payload → List String
  | [] => []
  | item :: items => item.passed ++ listPassed items

def itemPassed : List (String × Payload) → List String
  | [] => []
  | (key, value) :: items => key :: value.passed ++ itemPassed items

end

/-! ### The agent -/

structure Credential where
  job : String
  value : String
  deriving DecidableEq

/-- A payload on its way: the looks taken so far, and the credentials held when it was begun whose
jobs have not finished since. -/
structure Sending where
  id : ℕ
  payload : Payload
  reads : Reads
  covered : List Credential

structure Sent where
  payload : Payload
  covered : List Credential

/-- `held` and `heldByJob` are the agent's; `holding` is what was held for the jobs that run. -/
structure World where
  running : List String
  held : List String
  heldByJob : List Credential
  holding : List Credential
  sendings : Table Sending.id
  sent : List Sent

def World.start : World := ⟨[], [], [], [], .empty, []⟩

/-- A thread that works for a job has the job or nothing as its context. -/
inductive Event where
  | execute (job : String)
  | hold (context job value : String)
  | release (job : String)
  | begin (id : ℕ) (payload : Payload)
  | look (id : ℕ) (held : List String)
  | send (id : ℕ)

/-- `hold_secret` on a thread with this context. -/
def holdSecret (context value : String) (w : World) : World :=
  if 4 ≤ value.length then
    { w with
      held := if value ∈ w.held then w.held else value :: w.held
      heldByJob := if context = "" then w.heldByJob else ⟨context, value⟩ :: w.heldByJob }
  else w

def releaseSecrets (job : String) (w : World) : World :=
  if job = "" then { w with held := [], heldByJob := [] }
  else
    let mine := (w.heldByJob.filter (·.job = job)).map Credential.value
    let others := w.heldByJob.filter (·.job ≠ job)
    let stillHeld := others.map Credential.value
    { w with
      held := w.held.filter fun value => ¬(value ∈ mine ∧ value ∉ stillHeld)
      heldByJob := others }

def World.perform (w : World) : Event → Option World
  | .execute job => if job ∈ w.running then none else some { w with running := job :: w.running }
  | .hold context job value =>
    if context = job ∨ context = "" then
      some { holdSecret context value w with
        holding := if job ∈ w.running then ⟨job, value⟩ :: w.holding else w.holding }
    else none
  | .release job =>
    some { releaseSecrets job w with
      running := w.running.filter (· ≠ job)
      holding := w.holding.filter (·.job ≠ job)
      sendings := w.sendings.map
        (fun sending => { sending with covered := sending.covered.filter (·.job ≠ job) })
        fun _ => rfl }
  | .begin id payload =>
    (w.sendings.insert ⟨id, payload, [], w.holding⟩).map fun sendings => { w with sendings }
  | .look id held =>
    if held.Perm w.held then
      some { w with
        sendings := w.sendings.modify id
          (fun sending => { sending with reads := sending.reads ++ [held] }) fun _ => rfl }
    else none
  | .send id =>
    (w.sendings.lookup id).bind fun sending =>
      match scrub sending.payload sending.reads with
      | some (payload, []) =>
        some { w with
          sent := ⟨payload, sending.covered⟩ :: w.sent
          sendings := w.sendings.erase id }
      | _ => none

def agent : Machine.System World Event where
  step := World.perform

/-! ### What is asked of every run -/

/-- The scrub set has every credential of a running job, and none of them is in what was sent. -/
structure Safe (w : World) : Prop where
  held : ∀ c ∈ w.holding, 4 ≤ c.value.length → c.value ∈ w.held
  sent : ∀ s ∈ w.sent, ∀ c ∈ s.covered, 4 ≤ c.value.length → ∀ text ∈ s.payload.texts,
    ¬Within c.value text

/-- What the job that ends has filed and another running job holds is filed under another job too. -/
def Filed (w : World) (job : String) : Prop :=
  ∀ c ∈ w.holding, c.job ≠ job → 4 ≤ c.value.length → job ≠ "" ∧
    (⟨job, c.value⟩ ∈ w.heldByJob → ∃ other ∈ w.heldByJob, other.job ≠ job ∧ other.value = c.value)

/-- A credential stands in no key and no tuple, and it either shares no part with the marker or no
string of the payload holds a credential. -/
def Plain (sending : Sending) : Prop :=
  ∀ c ∈ sending.covered, 4 ≤ c.value.length →
    (∀ text ∈ sending.payload.passed, ¬Within c.value text) ∧
      (Apart marker c.value.toList ∨ ∀ text ∈ sending.payload.reached, ∀ held ∈ sending.reads,
        ∀ secret ∈ held, ¬Within secret text)

def Clear (w : World) : Event → Prop
  | .release job => Filed w job
  | .send id => ∀ sending ∈ w.sendings.lookup id, Plain sending
  | _ => True

/-! ### What a scrubbed payload holds -/

theorem redact_eq (held : List String) (text : String) :
    (redact held text).toList =
      (held.map String.toList).foldl (fun out secret => replace secret marker out) text.toList := by
  unfold redact
  induction held generalizing text with
  | nil => rfl
  | cons secret held ih =>
    rw [List.foldl_cons, List.map_cons, List.foldl_cons, ih]
    congr 1
    split
    next => rw [String.toList_ofList]
    next hnot => rw [Python.replace_of_free hnot]

theorem redact_hides {held : List String} {secret : String} (hmem : secret ∈ held)
    (hlength : 4 ≤ secret.length) (hapart : Apart marker secret.toList) (text : String) :
    ¬Within secret (redact held text) := by
  have hne : secret.toList ≠ [] := by
    intro hnil
    rw [← String.length_toList, hnil] at hlength
    cases hlength
  unfold Within
  rw [redact_eq]
  exact Python.not_infix_foldl_replace hne hapart (List.mem_map_of_mem hmem) _

theorem redact_of_free {held : List String} {text : String}
    (h : ∀ secret ∈ held, ¬Within secret text) : redact held text = text := by
  have hlist : (redact held text).toList = text.toList := by
    rw [redact_eq]
    refine Python.foldl_replace_of_free fun needle hneedle => ?_
    obtain ⟨secret, hsecret, rfl⟩ := List.mem_map.mp hneedle
    exact h secret hsecret
  exact String.toList_inj.mp hlist

def Hidden (secret : String) (texts : List String) : Prop := ∀ text ∈ texts, ¬Within secret text

theorem Hidden.append {secret : String} {texts others : List String} (h : Hidden secret texts)
    (h' : Hidden secret others) : Hidden secret (texts ++ others) := by
  intro text htext
  rcases List.mem_append.mp htext with hfirst | hsecond
  · exact h text hfirst
  · exact h' text hsecond

theorem hidden_append {secret : String} {texts others : List String} :
    Hidden secret (texts ++ others) ↔ Hidden secret texts ∧ Hidden secret others :=
  ⟨fun h => ⟨fun text ht => h text (List.mem_append_left _ ht),
    fun text ht => h text (List.mem_append_right _ ht)⟩, fun ⟨h, h'⟩ => h.append h'⟩

/-- Every look at the set found the secret, and no redaction of these texts leaves it. -/
structure Covers (secret : String) (reads : Reads) (reached : List String) : Prop where
  found : ∀ held ∈ reads, secret ∈ held
  redacted : ∀ text ∈ reached, ∀ held ∈ reads, ¬Within secret (redact held text)

theorem Covers.mono {secret : String} {reads rest : Reads} {reached others : List String}
    (h : Covers secret reads reached) (hreads : rest ⊆ reads) (hothers : others ⊆ reached) :
    Covers secret rest others :=
  ⟨fun held hheld => h.found held (hreads hheld),
    fun text htext held hheld => h.redacted text (hothers htext) held (hreads hheld)⟩

theorem Covers.unlessEmpty {secret : String} {reads : Reads} {reached : List String}
    (h : Covers secret reads reached) {payload : Payload} {k : Reads → Option (Payload × Reads)}
    {result : Payload × Reads} (hrun : unlessEmpty payload k reads = some result) :
    ∃ rest, k rest = some result ∧ rest ⊆ reads := by
  cases reads with
  | nil => cases hrun
  | cons held reads =>
    have hne : held.isEmpty = false := by
      have := h.found held List.mem_cons_self
      cases held with
      | nil => cases this
      | cons => rfl
    simp only [Redaction.unlessEmpty, hne] at hrun
    exact ⟨reads, hrun, List.subset_cons_self held reads⟩

mutual

theorem scrub_hides {secret : String} (payload : Payload) {reads : Reads} {result : Payload × Reads}
    (hrun : scrub payload reads = some result) (hcovers : Covers secret reads payload.reached)
    (hpassed : Hidden secret payload.passed) :
    Hidden secret result.1.texts ∧ result.2 ⊆ reads := by
  cases payload with
  | str text =>
    obtain ⟨rest, hrest, hsub⟩ := hcovers.unlessEmpty hrun
    cases rest with
    | nil => cases hrest
    | cons held rest =>
      obtain rfl := Option.some.inj hrest
      refine ⟨fun found hfound => ?_, fun r hr => hsub (List.mem_cons_of_mem held hr)⟩
      rw [List.mem_singleton.mp hfound]
      exact hcovers.redacted text List.mem_cons_self held (hsub List.mem_cons_self)
  | list items =>
    obtain ⟨rest, hrest, hsub⟩ := hcovers.unlessEmpty hrun
    obtain ⟨inner, hinner, rfl⟩ := Option.map_eq_some_iff.mp hrest
    obtain ⟨hhidden, hleft⟩ :=
      scrubList_hides items hinner (hcovers.mono hsub (List.Subset.refl _)) hpassed
    exact ⟨hhidden, List.Subset.trans hleft hsub⟩
  | dict items =>
    obtain ⟨rest, hrest, hsub⟩ := hcovers.unlessEmpty hrun
    obtain ⟨inner, hinner, rfl⟩ := Option.map_eq_some_iff.mp hrest
    obtain ⟨hhidden, hleft⟩ :=
      scrubItems_hides items hinner (hcovers.mono hsub (List.Subset.refl _)) hpassed
    exact ⟨hhidden, List.Subset.trans hleft hsub⟩
  | tuple items =>
    obtain ⟨rest, hrest, hsub⟩ := hcovers.unlessEmpty hrun
    obtain rfl := Option.some.inj hrest
    exact ⟨hpassed, hsub⟩
  | none =>
    obtain ⟨rest, hrest, hsub⟩ := hcovers.unlessEmpty hrun
    obtain rfl := Option.some.inj hrest
    exact ⟨nofun, hsub⟩
  | bool b =>
    obtain ⟨rest, hrest, hsub⟩ := hcovers.unlessEmpty hrun
    obtain rfl := Option.some.inj hrest
    exact ⟨nofun, hsub⟩
  | int n =>
    obtain ⟨rest, hrest, hsub⟩ := hcovers.unlessEmpty hrun
    obtain rfl := Option.some.inj hrest
    exact ⟨nofun, hsub⟩

theorem scrubList_hides {secret : String} (items : List Payload) {reads : Reads}
    {result : List Payload × Reads} (hrun : scrubList items reads = some result)
    (hcovers : Covers secret reads (listReached items)) (hpassed : Hidden secret (listPassed items)) :
    Hidden secret (listTexts result.1) ∧ result.2 ⊆ reads := by
  cases items with
  | nil =>
    obtain rfl := Option.some.inj hrun
    exact ⟨nofun, List.Subset.refl _⟩
  | cons item items =>
    obtain ⟨first, hfirst, hrest⟩ := Option.bind_eq_some_iff.mp hrun
    obtain ⟨others, hothers, rfl⟩ := Option.map_eq_some_iff.mp hrest
    obtain ⟨hpass, hpasses⟩ := hidden_append.mp hpassed
    obtain ⟨hhidden, hsub⟩ := scrub_hides item hfirst
      (hcovers.mono (List.Subset.refl _) (List.subset_append_left _ _)) hpass
    obtain ⟨hhiddens, hsubs⟩ := scrubList_hides items hothers
      (hcovers.mono hsub (List.subset_append_right _ _)) hpasses
    exact ⟨hhidden.append hhiddens, List.Subset.trans hsubs hsub⟩

theorem scrubItems_hides {secret : String} (items : List (String × Payload)) {reads : Reads}
    {result : List (String × Payload) × Reads} (hrun : scrubItems items reads = some result)
    (hcovers : Covers secret reads (itemReached items)) (hpassed : Hidden secret (itemPassed items)) :
    Hidden secret (itemTexts result.1) ∧ result.2 ⊆ reads := by
  cases items with
  | nil =>
    obtain rfl := Option.some.inj hrun
    exact ⟨nofun, List.Subset.refl _⟩
  | cons item items =>
    obtain ⟨key, value⟩ := item
    obtain ⟨first, hfirst, hrest⟩ := Option.bind_eq_some_iff.mp hrun
    obtain ⟨others, hothers, rfl⟩ := Option.map_eq_some_iff.mp hrest
    obtain ⟨hpass, hpasses⟩ := hidden_append.mp hpassed
    obtain ⟨hhidden, hsub⟩ := scrub_hides value hfirst
      (hcovers.mono (List.Subset.refl _) (List.subset_append_left _ _))
      fun text htext => hpass text (List.mem_cons_of_mem _ htext)
    obtain ⟨hhiddens, hsubs⟩ := scrubItems_hides items hothers
      (hcovers.mono hsub (List.subset_append_right _ _)) hpasses
    refine ⟨?_, List.Subset.trans hsubs hsub⟩
    refine Hidden.append (fun text htext => ?_) hhiddens
    rcases List.mem_cons.mp htext with rfl | htext
    · exact hpass text List.mem_cons_self
    · exact hhidden text htext

end

/-! ### The invariant -/

/-- What a payload is covered for is still held, and every look so far found it. -/
structure Invariant (w : World) : Prop where
  safe : Safe w
  covered : ∀ sending ∈ w.sendings.rows, ∀ c ∈ sending.covered, c ∈ w.holding ∧
    (4 ≤ c.value.length → ∀ held ∈ sending.reads, c.value ∈ held)

theorem invariant_start : Invariant World.start := ⟨⟨nofun, nofun⟩, nofun⟩

theorem held_holdSecret (context value : String) (w : World) :
    w.held ⊆ (holdSecret context value w).held ∧
      (4 ≤ value.length → value ∈ (holdSecret context value w).held) := by
  unfold holdSecret
  split
  next =>
    by_cases hmem : value ∈ w.held
    · simp only [if_pos hmem]
      exact ⟨List.Subset.refl _, fun _ => hmem⟩
    · simp only [if_neg hmem]
      exact ⟨List.subset_cons_self value w.held, fun _ => List.mem_cons_self⟩
  next hshort => exact ⟨List.Subset.refl _, fun hlong => absurd hlong hshort⟩

theorem holdSecret_same (context value : String) (w : World) :
    (holdSecret context value w).sendings = w.sendings ∧ (holdSecret context value w).sent = w.sent := by
  unfold holdSecret
  split <;> exact ⟨rfl, rfl⟩

theorem Invariant.hold {w : World} (h : Invariant w) (context job value : String) :
    Invariant { holdSecret context value w with
      holding := if job ∈ w.running then ⟨job, value⟩ :: w.holding else w.holding } := by
  obtain ⟨hkeeps, hnew⟩ := held_holdSecret context value w
  obtain ⟨hsendings, hsent⟩ := holdSecret_same context value w
  have hgrows : w.holding ⊆ if job ∈ w.running then ⟨job, value⟩ :: w.holding else w.holding := by
    split
    · exact List.subset_cons_self _ _
    · exact List.Subset.refl _
  refine ⟨⟨fun c hc hlong => ?_, fun s hs => h.safe.sent s (hsent ▸ hs)⟩,
    fun sending hsending c hc => ?_⟩
  · have hcases : c = ⟨job, value⟩ ∨ c ∈ w.holding := by
      split at hc
      · exact List.mem_cons.mp hc
      · exact .inr hc
    rcases hcases with rfl | hold
    · exact hnew hlong
    · exact hkeeps (h.safe.held c hold hlong)
  · obtain ⟨hhold, hreads⟩ := h.covered sending (hsendings ▸ hsending) c hc
    exact ⟨hgrows hhold, hreads⟩

/-- A credential that another job has filed too stays in the scrub set. -/
theorem held_releaseSecrets {w : World} {job : String} (hfiled : Filed w job) {c : Credential}
    (hc : c ∈ w.holding) (hother : c.job ≠ job) (hlong : 4 ≤ c.value.length) (hheld : c.value ∈ w.held) :
    c.value ∈ (releaseSecrets job w).held := by
  obtain ⟨hjob, hstill⟩ := hfiled c hc hother hlong
  unfold releaseSecrets
  rw [if_neg hjob]
  refine List.mem_filter.mpr ⟨hheld, decide_eq_true ?_⟩
  rintro ⟨hmine, hnot⟩
  obtain ⟨mine, hmem, hvalue⟩ := List.mem_map.mp hmine
  obtain ⟨hfile, hsame⟩ := List.mem_filter.mp hmem
  have hentry : mine = ⟨job, c.value⟩ := by
    rw [← hvalue, ← of_decide_eq_true hsame]
  obtain ⟨other, hfound, hne, heq⟩ := hstill (hentry ▸ hfile)
  exact hnot (List.mem_map.mpr ⟨other, List.mem_filter.mpr ⟨hfound, decide_eq_true hne⟩, heq⟩)

theorem Invariant.release {w w' : World} (h : Invariant w) {job : String} (hfiled : Filed w job)
    (hw : w.perform (.release job) = some w') : Invariant w' := by
  obtain rfl := Option.some.inj hw
  have hsent : (releaseSecrets job w).sent = w.sent := by
    unfold releaseSecrets
    split <;> rfl
  refine ⟨⟨fun c hc hlong => ?_, fun s hs => h.safe.sent s (hsent ▸ hs)⟩,
    fun sending hsending c hc => ?_⟩
  · obtain ⟨hold, hother⟩ := List.mem_filter.mp hc
    exact held_releaseSecrets hfiled hold (of_decide_eq_true hother) hlong (h.safe.held c hold hlong)
  · obtain ⟨old, hold, rfl⟩ := List.mem_map.mp hsending
    obtain ⟨hcovered, hother⟩ := List.mem_filter.mp hc
    obtain ⟨hholding, hreads⟩ := h.covered old hold c hcovered
    exact ⟨List.mem_filter.mpr ⟨hholding, hother⟩, hreads⟩

theorem Invariant.send {w w' : World} (h : Invariant w) {id : ℕ}
    (hplain : ∀ sending ∈ w.sendings.lookup id, Plain sending)
    (hw : w.perform (.send id) = some w') : Invariant w' := by
  obtain ⟨sending, hlookup, hstep⟩ := Option.bind_eq_some_iff.mp hw
  split at hstep
  next payload hscrub =>
    obtain rfl := Option.some.inj hstep
    refine ⟨⟨h.safe.held, fun s hs c hc hlong => ?_⟩,
      fun other hother => h.covered other (Table.mem_erase.mp hother).1⟩
    rcases List.mem_cons.mp hs with rfl | hold
    · have hfound : ∀ held ∈ sending.reads, c.value ∈ held :=
        (h.covered sending (Table.lookup_eq_some.mp hlookup).1 c hc).2 hlong
      obtain ⟨hpassed, hmarker⟩ := hplain sending hlookup c hc hlong
      refine (scrub_hides sending.payload hscrub ⟨hfound, fun text htext held hheld => ?_⟩ hpassed).1
      rcases hmarker with hapart | hfree
      · exact redact_hides (hfound held hheld) hlong hapart text
      · rw [redact_of_free (hfree text htext held hheld)]
        exact hfree text htext held hheld c.value (hfound held hheld)
    · exact h.safe.sent s hold c hc hlong
  next => cases hstep

theorem invariant_step (w : World) (event : Event) (w' : World) (h : Invariant w) (hclear : Clear w event)
    (hw : agent.step w event = some w') : Invariant w' := by
  cases event with
  | execute job =>
    simp only [agent, World.perform] at hw
    split at hw
    next => cases hw
    next =>
      obtain rfl := Option.some.inj hw
      exact ⟨⟨h.safe.held, h.safe.sent⟩, h.covered⟩
  | hold context job value =>
    simp only [agent, World.perform] at hw
    split at hw
    next =>
      obtain rfl := Option.some.inj hw
      exact h.hold context job value
    next => cases hw
  | release job => exact h.release hclear hw
  | begin id payload =>
    obtain ⟨sendings, hinsert, rfl⟩ := Option.map_eq_some_iff.mp hw
    refine ⟨⟨h.safe.held, h.safe.sent⟩, fun sending hsending c hc => ?_⟩
    rcases (Table.mem_insert hinsert).mp hsending with hold | rfl
    · exact h.covered sending hold c hc
    · exact ⟨hc, fun _ => nofun⟩
  | look id held =>
    simp only [agent, World.perform] at hw
    split at hw
    next hperm =>
      obtain rfl := Option.some.inj hw
      refine ⟨⟨h.safe.held, h.safe.sent⟩, fun sending hsending c hc => ?_⟩
      rcases Table.of_modify_mem (fun _ => by rfl) hsending with ⟨old, hold, -, rfl⟩ | ⟨hold, -⟩
      · obtain ⟨hholding, hreads⟩ := h.covered old hold c hc
        refine ⟨hholding, fun hlong found hfound => ?_⟩
        rcases List.mem_append.mp hfound with hbefore | hnow
        · exact hreads hlong found hbefore
        · rw [List.mem_singleton.mp hnow]
          exact hperm.mem_iff.mpr (h.safe.held c hholding hlong)
      · exact h.covered sending hold c hc
    next => cases hw
  | send id => exact h.send hclear hw

/-- In every run in which a job that ends has filed nothing that another running job holds unfiled,
and in which payloads hold their strings where `_scrub` looks and no credential there overlaps the
marker, the scrub set is complete and nothing held is sent. -/
theorem nothing_held_is_sent {events : List Event} (hclear : agent.Along Clear World.start events) :
    agent.Always Safe World.start events :=
  agent.always_mono (fun _ h => h.safe) (agent.always_of_along invariant_step invariant_start hclear)

/-! ### Runs -/

instance (w : World) : Decidable (Safe w) :=
  decidable_of_iff (_ ∧ _) ⟨fun ⟨h, h'⟩ => ⟨h, h'⟩, fun ⟨h, h'⟩ => ⟨h, h'⟩⟩

instance (w : World) (job : String) : Decidable (Filed w job) :=
  inferInstanceAs (Decidable (∀ c ∈ _, _))

instance (sending : Sending) : Decidable (Plain sending) :=
  inferInstanceAs (Decidable (∀ c ∈ _, _))

instance (w : World) (event : Event) : Decidable (Clear w event) :=
  match event with
  | .release job => inferInstanceAs (Decidable (Filed w job))
  | .send _ => inferInstanceAs (Decidable (∀ sending ∈ _, Plain sending))
  | .execute _ | .hold _ _ _ | .begin _ _ | .look _ _ => isTrue trivial

/-- Two jobs hold one key, the first ends, and the second reports the key it was refused with. -/
def sharedKeyRun (context : String) : List Event :=
  [.execute "job-a", .execute "job-b", .hold "job-a" "job-a" "hunter2!",
    .hold context "job-b" "hunter2!", .release "job-a", .begin 1 (.dict [("error", .str "login hunter2! refused")]),
    .look 1 ["hunter2!"], .look 1 ["hunter2!"], .look 1 ["hunter2!"], .send 1]

theorem sharedKeyRun_safe : agent.Always Safe World.start (sharedKeyRun "job-b") ∧
    (agent.exec World.start (sharedKeyRun "job-b")).map (fun w => w.sent.map (·.payload.texts)) =
      some [["error", "login ***redacted*** refused"]] :=
  ⟨nothing_held_is_sent (by decide +kernel), by decide +kernel⟩

/-- One job holds one credential and reports this. -/
def reportRun (secret : String) (payload : Payload) (looks : ℕ) : List Event :=
  [.execute "job-a", .hold "job-a" "job-a" secret, .begin 1 payload] ++
    List.replicate looks (.look 1 [secret]) ++ [.send 1]

/-- A key held on a thread without a context is dropped with the other job's, keys and tuples are
not scrubbed, and a marker completes a credential. -/
theorem held_is_sent :
    ¬agent.Always Safe World.start (sharedKeyRun "") ∧
      ¬agent.Always Safe World.start (reportRun "hunter2!" (.dict [("hunter2!", .int 1)]) 2) ∧
      ¬agent.Always Safe World.start
        (reportRun "hunter2!" (.dict [("tried", .tuple [.str "hunter2!"])]) 2) ∧
      ¬agent.Always Safe World.start (reportRun "abc*" (.dict [("error", .str "abcabc*")]) 3) := by
  refine ⟨?_, ?_, ?_, ?_⟩ <;> decide +kernel

end Redaction
