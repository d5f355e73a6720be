import VmDashboard.Updater.Rollback

/-!
# When a host keeps its agent through an upgrade

The old agent is stopped and renamed before the successor exists, so between
`stop` and the end of the swap nothing runs under the agent's name. `Survives`
says for which outcomes of the calls a running agent is left: either nothing was
stopped, or the swap went through and its successor, or the restored container,
runs.
-/

namespace Updater

/-! ### Up to the swap -/

/-- `x` leaves the host as it is, returns `a` if `p` holds and raises if it does not. -/
def Gate {α : Type} (p : Prop) (x : Act α) (a : α) (w : World) : Prop :=
  (p ∧ ∃ status, x w = (.ok a, { w with status })) ∨
    (¬ p ∧ ∃ e status, x w = (.error e, { w with status }))

theorem Gate.bind {α β : Type} {p q : Prop} {x : Act α} {f : α → Act β} {a : α} {b : β} {w : World}
    (hx : Gate p x a w) (hf : ∀ status, Gate q (f a) b { w with status }) :
    Gate (p ∧ q) (x >>= f) b w := by
  rcases hx with ⟨hp, status, hrun⟩ | ⟨hp, e, status, hrun⟩
  · rcases hf status with ⟨hq, last, hrest⟩ | ⟨hq, e, last, hrest⟩
    · exact .inl ⟨⟨hp, hq⟩, last, (Act.bind_ok hrun).trans hrest⟩
    · exact .inr ⟨fun h => hq h.2, e, last, (Act.bind_ok hrun).trans hrest⟩
  · exact .inr ⟨fun h => hp h.1, e, status, Act.bind_error hrun⟩

theorem gate_pure {α : Type} (a : α) (w : World) : Gate True (pure a) a w :=
  .inl ⟨trivial, w.status, rfl⟩

theorem gate_write {β : Type} {q : Prop} {jobId state reason : String} {f : Unit → Act β} {b : β}
    {w : World} (hf : ∀ status, Gate q (f ()) b { w with status }) :
    Gate q (writeStatus jobId state reason >>= f) b w := by
  rcases hf (some ⟨jobId, state, reason⟩) with ⟨hq, last, hrest⟩ | ⟨hq, e, last, hrest⟩
  · exact .inl ⟨hq, last, hrest⟩
  · exact .inr ⟨hq, e, last, hrest⟩

theorem gate_read (outcome : Outcome) (w : World) : Gate (outcome = .done) (read outcome) () w := by
  by_cases h : outcome = .done
  · rw [h]
    exact .inl ⟨rfl, w.status, rfl⟩
  · refine .inr ⟨h, outcome.raises, w.status, ?_⟩
    rw [read, call_not_done h rfl, ite_self]

theorem gate_verify (outcome : Outcome) (w : World) :
    Gate (outcome = .done) (verifySignature outcome) () w := by
  cases outcome with
  | done => exact .inl ⟨rfl, w.status, rfl⟩
  | refused reason => exact .inr ⟨nofun, _, w.status, rfl⟩
  | lost effect => exact .inr ⟨nofun, _, w.status, rfl⟩

theorem gate_list (outcome : Outcome) (w : World) :
    Gate (outcome = .done) (listAgents outcome) w.host.listAgents w := by
  by_cases h : outcome = .done
  · rw [h]
    exact .inl ⟨rfl, w.status, rfl⟩
  · refine .inr ⟨h, outcome.raises, w.status, ?_⟩
    rw [listAgents, call_not_done h rfl, ite_self]

theorem gate_inspect {outcome : Outcome} {c : Container} {w : World}
    (hc : w.host.byId c.id = some c) (hagent : c.agent = true) :
    Gate (outcome = .done) (inspect outcome c.id) () w := by
  have hfound : (if (w.host.containers.lookup c.id).isSome then some w.host else none) =
      some w.host := by
    rw [show w.host.containers.lookup c.id = some c from hc]
    rfl
  by_cases h : outcome = .done
  · rw [h]
    exact .inl ⟨rfl, w.status, onAgent_done hc hagent hfound⟩
  · have hrun : inspect outcome c.id w = (.error outcome.raises,
        { w with host := if outcome.applied then w.host else w.host }) :=
      onAgent_not_done hc hagent hfound h
    rw [ite_self] at hrun
    exact .inr ⟨h, outcome.raises, w.status, hrun⟩

theorem gate_attempt {β : Type} {q : Prop} {outcome : Outcome} {f : Except String Unit → Act β}
    {b : β} {w : World} (hf : ∀ r status, Gate q (f r) b { w with status }) :
    Gate ((∀ effect, outcome ≠ .lost effect) ∧ q) ((read outcome).attempt >>= f) b w := by
  cases outcome with
  | done =>
    rcases hf (.ok ()) w.status with ⟨hq, last, hrest⟩ | ⟨hq, e, last, hrest⟩
    · exact .inl ⟨⟨nofun, hq⟩, last, hrest⟩
    · exact .inr ⟨fun h => hq h.2, e, last, hrest⟩
  | refused reason =>
    rcases hf (.error reason) w.status with ⟨hq, last, hrest⟩ | ⟨hq, e, last, hrest⟩
    · exact .inl ⟨⟨nofun, hq⟩, last, hrest⟩
    · exact .inr ⟨fun h => hq h.2, e, last, hrest⟩
  | lost effect =>
    have hrun : read (.lost effect) w =
        (.error .lost, { w with host := if effect then w.host else w.host }) :=
      call_not_done nofun rfl
    rw [ite_self] at hrun
    exact .inr ⟨fun h => h.1 effect rfl, .lost, w.status, Act.bind_error (Act.attempt_lost hrun)⟩

/-- The checks before the swap pass, and the agent to replace is `old`. -/
def Fate.Reaches (fate : Fate) (host : Host) (old : Container) (version : String) : Prop :=
  fate.verify = .done ∧ fate.pull = .done ∧ fate.imageInspect = .done ∧
    fate.labelled = some version ∧
    (fate.listAgents = .done ∧ host.listAgents.filter (fun c => !isPrevious c.name) = [old] ∧
      fate.inspectAgent = .done) ∧
    ∀ effect, fate.inspectImage ≠ .lost effect

theorem theAgent_gate {fate : Fate} {w : World} {old : Container}
    (hold : old ∈ w.host.containers.rows) (hagent : old.agent = true)
    (hname : isPrevious old.name = false) :
    Gate (fate.listAgents = .done ∧
      w.host.listAgents.filter (fun c => !isPrevious c.name) = [old] ∧ fate.inspectAgent = .done)
      (theAgent fate) old w := by
  have hmem : old ∈ w.host.listAgents.filter fun c => !isPrevious c.name :=
    List.mem_filter.mpr ⟨List.mem_filter.mpr ⟨hold, hagent⟩, by rw [hname]; rfl⟩
  refine (gate_list fate.listAgents w).bind fun status => ?_
  generalize w.host.listAgents.filter (fun c => !isPrevious c.name) = found at hmem ⊢
  match found, hmem with
  | [c], hmem =>
    obtain rfl := List.mem_singleton.mp hmem
    have hbyId : w.host.byId old.id = some old := Host.byId_eq_some.mpr ⟨hold, rfl⟩
    have hlast : Gate (fate.inspectAgent = .done ∧ True)
        (do inspect fate.inspectAgent old.id; return old : Act Container) old
        { w with status } :=
      (gate_inspect (w := { w with status }) hbyId hagent).bind fun status => gate_pure old _
    rw [and_true] at hlast
    simpa only [true_and] using hlast
  | c :: d :: rest, _ =>
    have hne : ¬ (c :: d :: rest = [old] ∧ fate.inspectAgent = .done) := by
      rintro ⟨h, -⟩
      cases h
    exact .inr ⟨hne, _, status, rfl⟩

theorem prepare_gate (fate : Fate) (jobId ref version : String) {w : World} {old : Container}
    (hold : old ∈ w.host.containers.rows) (hagent : old.agent = true)
    (hname : isPrevious old.name = false) :
    Gate (fate.Reaches w.host old version) (prepare fate jobId ref version) old w := by
  refine gate_write fun status => (gate_verify ..).bind fun status => ?_
  refine gate_write fun status => (gate_read ..).bind fun status => (gate_read ..).bind fun status => ?_
  by_cases hlabel : fate.labelled = some version
  · have hrest : ∀ w, Gate ((∀ effect, fate.inspectImage ≠ .lost effect) ∧ True)
        (do let _ ← (read fate.inspectImage).attempt; return old : Act Container) old w :=
      fun w => gate_attempt fun r status => gate_pure old _
    simp only [and_true] at hrest
    simp only [hlabel, ne_eq, not_true_eq_false, if_false, true_and]
    exact (theAgent_gate (w := { w with status }) hold hagent hname).bind fun status => hrest _
  · simp only [ne_eq, hlabel, not_false_eq_true, if_true, false_and]
    exact .inr ⟨id, _, status, rfl⟩

/-- What an accepted upgrade needs of its calls so that the host keeps an agent. -/
def Fate.Survives (fate : Fate) (host : Host) (old : Container) (jobId version : String) : Prop :=
  fate.Reaches host old version →
    fate.stop.applied = false ∨ (fate.Swaps host old ∧ fate.Keeps jobId version)

theorem upgrade_iff {fate : Fate} {old : Container} {jobId ref version : String} {timeout : ℕ}
    {w : World} (hold : old ∈ w.host.containers.rows) (hagent : old.agent = true)
    (hname : isPrevious old.name = false) (hrunning : old.running = true)
    (hfresh : w.host.byId fate.newId = none) :
    AgentUp old ref version (upgrade fate jobId ref version timeout w).2.host ↔
      fate.Survives w.host old jobId version := by
  have hbyId : w.host.byId old.id = some old := Host.byId_eq_some.mpr ⟨hold, rfl⟩
  have hnamed : w.host.named old.name = some old := Host.named_eq_some.mpr ⟨hold, rfl⟩
  have hup : AgentUp old ref version w.host := ⟨old, hnamed, hagent, hrunning, .inl rfl⟩
  unfold Fate.Survives
  rcases prepare_gate fate jobId ref version hold hagent hname with
    ⟨hreach, status, hprep⟩ | ⟨hreach, e, status, hprep⟩
  · have hrest : upgrade fate jobId ref version timeout w =
        (do swapOut fate old
            replace fate jobId ref version timeout old : Act String)
          { w with status := some ⟨jobId, "swapping", ""⟩ } := by
      rw [upgrade, Act.bind_ok hprep]
      rfl
    rw [hrest]
    simp only [hreach, true_implies]
    rcases swapOut_spec (w := { w with status := some ⟨jobId, "swapping", ""⟩ }) hbyId hagent hfresh with
      ⟨hstop, e, hrun⟩ | ⟨hswaps, host, hrun, hswapped⟩ | ⟨hstop, hswaps, e, host, hrun, hidle⟩
    · rw [Act.bind_error hrun]
      exact ⟨fun _ => .inl hstop, fun _ => hup⟩
    · have hstop : fate.stop.applied = true := by rw [hswaps.1]; rfl
      rw [Act.bind_ok hrun, replace_iff (w := ⟨host, _⟩) hagent hswapped, hstop]
      simp [hswaps]
    · rw [Act.bind_error hrun, hstop]
      refine ⟨fun h => absurd h hidle.not_agentUp, fun h => ?_⟩
      rcases h with h | h
      · cases h
      · exact absurd h.1 hswaps
  · rw [upgrade, Act.bind_error hprep]
    exact ⟨fun _ h => absurd h hreach, fun _ => hup⟩

/-! ### The ticks after it -/

/-- The status file names the job. -/
def Marked (jobId : String) (w : World) : Prop := w.status.any (fun status => status.jobId = jobId) = true

/-- Once the status file names the job, it goes on naming it. -/
def Act.Marks {α : Type} (jobId : String) (x : Act α) : Prop :=
  ∀ w, Marked jobId w → Marked jobId (x w).2

section Marks
variable {α β : Type} {jobId : String}

theorem marked_bind {x : Act α} {f : α → Act β} {w : World} (hx : Marked jobId (x w).2)
    (hf : ∀ a, (f a).Marks jobId) : Marked jobId ((x >>= f) w).2 := by
  cases hrun : x w with
  | mk r after =>
    have hafter : Marked jobId after := by rwa [hrun] at hx
    cases r with
    | ok a =>
      rw [Act.bind_ok hrun]
      exact hf a after hafter
    | error e =>
      rw [Act.bind_error hrun]
      exact hafter

theorem Act.Marks.bind {x : Act α} {f : α → Act β} (hx : x.Marks jobId)
    (hf : ∀ a, (f a).Marks jobId) : (x >>= f).Marks jobId :=
  fun w hw => marked_bind (hx w hw) hf

theorem marks_pure (a : α) : (pure a : Act α).Marks jobId := fun _ hw => hw

theorem marks_raise (e : Raised) : (Act.raise e : Act α).Marks jobId := fun _ hw => hw

theorem marks_write (state reason : String) : (writeStatus jobId state reason).Marks jobId :=
  fun _ _ => decide_eq_true rfl

theorem Act.Marks.attempt {x : Act α} (hx : x.Marks jobId) : x.attempt.Marks jobId := by
  intro w hw
  have h := hx w hw
  unfold Act.attempt
  split
  all_goals
    next hrun => rwa [hrun] at h

theorem Act.Marks.ignoreDocker {x : Act Unit} (hx : x.Marks jobId) : x.ignoreDocker.Marks jobId := by
  intro w hw
  have h := hx w hw
  unfold Act.ignoreDocker
  split
  · next hrun => rwa [hrun] at h
  · exact h

theorem call_status (outcome : Outcome) (effect : Host → Option (Host × α)) (w : World) :
    (call outcome effect w).2.status = w.status := by
  unfold call
  split <;> rfl

theorem marks_call (outcome : Outcome) (effect : Host → Option (Host × α)) :
    (call outcome effect).Marks jobId := by
  intro w hw
  rw [Marked, call_status]
  exact hw

theorem marks_onAgent (outcome : Outcome) (id : String) (effect : Host → Option Host) :
    (onAgent outcome id effect).Marks jobId := by
  intro w hw
  unfold onAgent
  split
  · exact hw
  · exact marks_call _ _ w hw

theorem marks_verify (outcome : Outcome) : (verifySignature outcome).Marks jobId := by
  intro w hw
  cases outcome <;> exact hw

theorem theAgent_marks (fate : Fate) : (theAgent fate).Marks jobId := by
  refine (marks_call _ _).bind fun agents => ?_
  split
  · exact (marks_onAgent _ _ _).bind fun _ => marks_pure _
  · exact marks_raise _

theorem removeNamed_marks (outcome : Outcome) (name : String) (agents : List Container) :
    (removeNamed outcome name agents).Marks jobId := by
  induction agents with
  | nil => exact marks_pure _
  | cons c agents ih =>
    rw [removeNamed]
    split
    · exact (marks_onAgent _ _ _).bind fun _ => ih
    · exact ih

theorem swapOut_marks (fate : Fate) (old : Container) : (swapOut fate old).Marks jobId :=
  (marks_onAgent _ _ _).bind fun _ => (marks_call _ _).bind fun _ =>
    (removeNamed_marks _ _ _).bind fun _ => marks_onAgent _ _ _

theorem bringUp_marks (fate : Fate) (name ref version : String) :
    (bringUp fate name ref version).Marks jobId :=
  (marks_call _ _).bind fun _ => (marks_onAgent _ _ _).bind fun _ => marks_pure _

theorem restore_marks (fate : Fate) (oldId name : String) (newId : Option String) :
    (restore fate oldId name newId).Marks jobId := by
  have hback : (restore fate oldId name none).Marks jobId := by
    rw [restore_none]
    exact (marks_onAgent _ _ _).bind fun _ => marks_onAgent _ _ _
  cases newId with
  | none => exact hback
  | some id =>
    rw [restore_some]
    exact (marks_onAgent _ _ _).ignoreDocker.bind fun _ => (marks_onAgent _ _ _).bind fun _ => hback

theorem waitReady_marks (version : String) (timeout : ℕ) (watch : String) (polls : List Poll) :
    (waitReady jobId version timeout watch polls).Marks jobId := by
  induction polls with
  | nil => exact marks_pure _
  | cons poll polls ih =>
    refine Act.Marks.bind (fun w hw => hw) fun _ => ?_
    split
    · exact marks_pure _
    · refine (marks_onAgent _ _ _).bind fun _ => ?_
      split
      · exact marks_pure _
      · split
        · exact marks_pure _
        · exact ih

theorem report_marks (state reason : String) :
    (do writeStatus jobId state reason; return state : Act String).Marks jobId :=
  (marks_write _ _).bind fun _ => marks_pure _

theorem settle_marks (fate : Fate) (version : String) (timeout : ℕ) (old : Container)
    (newId : String) : (settle fate jobId version timeout old newId).Marks jobId := by
  refine (marks_write _ _).bind fun _ => (waitReady_marks _ _ _ _).bind fun why => ?_
  split
  · exact (restore_marks _ _ _ _).bind fun _ => report_marks _ _
  · exact (marks_onAgent _ _ _).bind fun _ => report_marks _ _

theorem prepare_marked (fate : Fate) (ref version : String) (w : World) :
    Marked jobId (prepare fate jobId ref version w).2 := by
  refine marked_bind (decide_eq_true rfl) fun _ => ?_
  refine (marks_verify _).bind fun _ => (marks_write _ _).bind fun _ => ?_
  refine (marks_call _ _).bind fun _ => (marks_call _ _).bind fun _ => ?_
  have hagent : (do
      let old ← theAgent fate
      let _ ← (read fate.inspectImage).attempt
      return old : Act Container).Marks jobId :=
    (theAgent_marks fate).bind fun _ => (marks_call _ _).attempt.bind fun _ => marks_pure _
  by_cases hlabel : fate.labelled ≠ some version
  · simp only [if_pos hlabel]
    exact (marks_raise _).bind fun _ => hagent
  · simp only [if_neg hlabel]
    exact hagent

/-- An upgrade puts the job in the status file at once. -/
theorem upgrade_marked (fate : Fate) (ref version : String) (timeout : ℕ) (w : World) :
    Marked jobId (upgrade fate jobId ref version timeout w).2 := by
  refine marked_bind (prepare_marked fate ref version w) fun old => ?_
  refine (marks_write _ _).bind fun _ => (swapOut_marks fate old).bind fun _ => ?_
  refine (bringUp_marks _ _ _ _).attempt.bind fun r => ?_
  cases r with
  | error reason => exact (restore_marks _ _ _ _).bind fun _ => report_marks _ _
  | ok newId => exact settle_marks _ _ _ _ _

end Marks

/-! ### Runs of the main loop -/

/-- What a pass that gets to the request needs so that the host keeps its agent. -/
def Pass.Survives (pass : Pass) (request : Request) (host : Host) (old : Container) : Prop :=
  match pass.policy with
  | .ok (some upgrades) =>
    request.matches upgrades = true → pass.fate.Survives host old request.jobId request.version
  | _ => True

/-- The pass that acts on the request; the later ones find it in the status file. -/
def acting (passes : List Pass) : Option Pass := passes.find? fun pass => !pass.dies

theorem tick_marked {request : Request} {pass : Pass} {w : World} (h : Marked request.jobId w) :
    tick (some request) pass w = w := by
  have hw : (w.status.any fun status => status.jobId = request.jobId) = true := h
  simp only [tick, hw, if_true, ite_self]

theorem ticks_marked {request : Request} {passes : List Pass} {w : World}
    (h : Marked request.jobId w) : ticks (some request) passes w = w := by
  induction passes with
  | nil => rfl
  | cons pass passes ih =>
    rw [ticks, List.foldl_cons, tick_marked h]
    exact ih

theorem handle_host {fate : Fate} {request : Request} {upgrades : Option Upgrades} {w : World} :
    (handle fate request upgrades w).2.host = (carryOut fate request upgrades w).2.host := by
  unfold handle
  split
  · next h => rw [h]; rfl
  · next h => rw [h]; rfl
  · rfl

theorem handle_marked {fate : Fate} {request : Request} {upgrades : Option Upgrades} {w : World}
    (hop : request.op = "upgrade") : Marked request.jobId (handle fate request upgrades w).2 := by
  have hreport : ∀ reason w, Marked request.jobId
      ((do writeStatus request.jobId "failed" reason; return "failed" : Act String) w).2 :=
    fun reason w => decide_eq_true rfl
  unfold handle
  split
  · exact hreport _ _
  · exact hreport _ _
  · next hrefused hdocker =>
    cases upgrades with
    | none => exact absurd rfl (hrefused _ w)
    | some upgrades =>
      have hne : ("upgrade" : String) ≠ "restart" := by decide
      simp only [carryOut, hop, if_neg hne, ne_eq, not_true_eq_false, if_false] at hrefused ⊢
      by_cases hmatches : request.matches upgrades = true
      · simp only [hmatches, Bool.not_true, Bool.false_eq_true, if_false]
        exact upgrade_marked _ _ _ _ w
      · simp only [hmatches, Bool.not_false, if_true] at hrefused
        exact absurd rfl (hrefused _ w)

theorem tick_dies {request : Request} {pass : Pass} {w : World} (h : pass.dies = true) :
    tick (some request) pass w = w := by
  rw [tick, if_pos]
  rw [h, Bool.true_or]

theorem tick_acts {request : Request} {pass : Pass} {w : World} (hdies : pass.dies = false)
    (hjob : request.jobId ≠ "")
    (hunseen : w.status.any (fun status => status.jobId = request.jobId) = false) :
    tick (some request) pass w = match pass.policy with
      | .error reason => (writeStatus request.jobId "failed" reason w).2
      | .ok upgrades => (handle pass.fate request upgrades w).2 := by
  have hskip : ¬ (pass.dies || request.jobId = "") = true := by simp [hdies, hjob]
  have hseen : ¬ (w.status.any fun status => status.jobId = request.jobId) = true := by
    rw [hunseen]
    exact Bool.false_ne_true
  cases hpolicy : pass.policy with
  | error reason => rw [tick, if_neg hskip, if_neg hseen, hpolicy]
  | ok upgrades => rw [tick, if_neg hskip, if_neg hseen, hpolicy]

/-- Only the first pass that is not killed does anything. -/
theorem ticks_acting {request : Request} {passes : List Pass} {w : World}
    (hop : request.op = "upgrade") (hjob : request.jobId ≠ "")
    (hunseen : w.status.any (fun status => status.jobId = request.jobId) = false) :
    ticks (some request) passes w =
      (acting passes).elim w fun pass => tick (some request) pass w := by
  induction passes with
  | nil => rfl
  | cons pass passes ih =>
    cases hdies : pass.dies with
    | true =>
      have hfirst : acting (pass :: passes) = acting passes := by
        rw [acting, List.find?_cons, hdies]
        rfl
      rw [hfirst, ← ih, ticks, List.foldl_cons, tick_dies hdies]
      rfl
    | false =>
      have hfirst : acting (pass :: passes) = some pass := by
        rw [acting, List.find?_cons, hdies]
        rfl
      have hmarked : Marked request.jobId (tick (some request) pass w) := by
        rw [tick_acts hdies hjob hunseen]
        cases pass.policy with
        | error reason => exact decide_eq_true rfl
        | ok upgrades => exact handle_marked hop
      rw [hfirst, Option.elim_some, ticks, List.foldl_cons]
      exact ticks_marked hmarked

section Agent
variable {request : Request} {w : World} {c : Container}

theorem tick_iff {pass : Pass} (hdies : pass.dies = false)
    (hop : request.op = "upgrade") (hjob : request.jobId ≠ "")
    (hunseen : w.status.any (fun status => status.jobId = request.jobId) = false)
    (hc : c ∈ w.host.containers.rows) (hagent : c.agent = true) (hrunning : c.running = true)
    (hname : isPrevious c.name = false) (hfresh : w.host.byId pass.fate.newId = none) :
    AgentUp c (request.repository ++ "@" ++ request.digest) request.version
        (tick (some request) pass w).host ↔ pass.Survives request w.host c := by
  have hup : AgentUp c (request.repository ++ "@" ++ request.digest) request.version w.host :=
    ⟨c, Host.named_eq_some.mpr ⟨hc, rfl⟩, hagent, hrunning, .inl rfl⟩
  rw [tick_acts hdies hjob hunseen, Pass.Survives]
  cases pass.policy with
  | error reason => exact ⟨fun _ => trivial, fun _ => hup⟩
  | ok upgrades =>
    simp only [handle_host]
    cases upgrades with
    | none => exact ⟨fun _ => trivial, fun _ => hup⟩
    | some upgrades =>
      have hne : ("upgrade" : String) ≠ "restart" := by decide
      simp only [carryOut, hop, if_neg hne, ne_eq, not_true_eq_false, if_false]
      cases hmatches : request.matches upgrades with
      | true =>
        simp only [Bool.not_true, Bool.false_eq_true, if_false, true_implies]
        exact upgrade_iff hc hagent hname hrunning hfresh
      | false =>
        simp only [Bool.not_false, if_true, Bool.false_eq_true, false_implies, iff_true]
        exact hup

/-- A running agent is left running, or replaced by a running one at the requested version, if and
only if the calls of the pass that acts on the request leave it so. -/
theorem agent_survives_iff {passes : List Pass}
    (hop : request.op = "upgrade") (hjob : request.jobId ≠ "")
    (hunseen : w.status.any (fun status => status.jobId = request.jobId) = false)
    (hc : c ∈ w.host.containers.rows) (hagent : c.agent = true) (hrunning : c.running = true)
    (hname : isPrevious c.name = false)
    (hfresh : ∀ pass ∈ passes, w.host.byId pass.fate.newId = none) :
    AgentUp c (request.repository ++ "@" ++ request.digest) request.version
        (ticks (some request) passes w).host ↔
      ∀ pass ∈ acting passes, pass.Survives request w.host c := by
  rw [ticks_acting hop hjob hunseen]
  cases hfirst : acting passes with
  | none =>
    constructor
    · intro _ pass hpass
      cases hpass
    · intro _
      exact ⟨c, Host.named_eq_some.mpr ⟨hc, rfl⟩, hagent, hrunning, .inl rfl⟩
  | some pass =>
    have hdies : pass.dies = false := by simpa using List.find?_some hfirst
    rw [Option.elim_some,
      tick_iff hdies hop hjob hunseen hc hagent hrunning hname
        (hfresh pass (List.mem_of_find?_eq_some hfirst))]
    simp

end Agent

/-! ### Two upgrades of one host -/

def soleAgent : Container :=
  ⟨"c0ffee", "agent", true, "weaver/agent@sha256:0", some "1.1.0", true⟩

def soleWorld : World :=
  ⟨⟨⟨[soleAgent], List.nodup_singleton _⟩, List.nodup_singleton _⟩, none⟩

def upgradeRequest : Request where
  jobId := "job-1"
  op := "upgrade"
  repository := "weaver/agent"
  digest := "sha256:" ++ String.ofList (List.replicate 64 'a')
  version := "1.2.0"

def smoothFate : Fate where
  verify := .done
  pull := .done
  imageInspect := .done
  labelled := some "1.2.0"
  listAgents := .done
  inspectAgent := .done
  inspectImage := .done
  stop := .done
  listPrevious := .done
  removePrevious := .done
  rename := .done
  create := .done
  newId := "decade"
  start := .done
  polls := [⟨none, true, .done, "running", 0, false, 0⟩,
    ⟨some ⟨"job-1", "1.2.0"⟩, true, .done, "running", 0, false, 0⟩]
  stopNew := .done
  removeNew := .done
  renameBack := .done
  startOld := .done
  removeOld := .done

def passOf (fate : Fate) : Pass := ⟨false, .ok (some ⟨"weaver/agent", 480⟩), fate⟩

/-- The successor is created and does not start: `_restore` cannot rename the old container back. -/
def unstartable : Fate := { smoothFate with start := .refused "HTTP 500" }

theorem smooth_survives : AgentUp soleAgent
    (upgradeRequest.repository ++ "@" ++ upgradeRequest.digest) upgradeRequest.version
    (ticks (some upgradeRequest) [passOf smoothFate, passOf smoothFate] soleWorld).host := by
  refine (agent_survives_iff rfl (by decide) rfl (List.mem_singleton.mpr rfl) rfl rfl (by decide)
    (by decide)).mpr fun pass hpass => ?_
  obtain rfl := Option.some.inj hpass
  intro _ _
  have hswaps : smoothFate.Swaps soleWorld.host soleAgent := by
    refine ⟨rfl, rfl, rfl, fun c hc => ?_⟩
    have hnone : soleWorld.host.named (previous soleAgent.name) = none := by decide
    rw [hnone] at hc
    cases hc
  have hready : ¬ condemned "job-1" "1.2.0" smoothFate.polls = true := by decide
  have hseen : seenRunning "job-1" true smoothFate.polls = true := by decide
  have hkeeps : smoothFate.Keeps "job-1" "1.2.0" := by
    unfold Fate.Keeps
    exact (if_neg hready).mpr hseen
  exact .inr ⟨hswaps, hkeeps⟩

theorem unstartable_gone : ¬ AgentUp soleAgent
    (upgradeRequest.repository ++ "@" ++ upgradeRequest.digest) upgradeRequest.version
    (ticks (some upgradeRequest) [passOf unstartable, passOf unstartable] soleWorld).host := by
  have hleft : (ticks (some upgradeRequest) [passOf unstartable, passOf unstartable]
      soleWorld).host.named "agent" = some ⟨"decade", "agent", true,
        upgradeRequest.repository ++ "@" ++ upgradeRequest.digest, some "1.2.0", false⟩ := by
    decide
  rintro ⟨c, hc, -, hrunning, -⟩
  obtain rfl := Option.some.inj (hleft.symm.trans hc)
  cases hrunning

end Updater
