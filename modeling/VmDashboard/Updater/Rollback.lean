import VmDashboard.Updater.Swap

/-!
# From the swap to the end of an upgrade

Whether an agent runs at the end, in terms of what the calls after the swap do:
`restore` after a successor that would not start, the wait, and `restore` after
a successor that did not get ready.
-/

namespace Updater

/-! ### A running agent, in the terms of the calls that follow the swap -/

/-- A running agent holds the name: the old one, or one at the requested version. -/
def AgentUp (old : Container) (ref version : String) (host : Host) : Prop :=
  ∃ c ∈ host.named old.name, c.agent = true ∧ c.running = true ∧
    (c.id = old.id ∨ c.image = ref ∧ c.version = some version)

theorem agentUp_of_named {old c : Container} {ref version : String} {host : Host}
    (h : host.named old.name = some c) (hagent : c.agent = true)
    (hkind : c.id = old.id ∨ c.image = ref ∧ c.version = some version) :
    AgentUp old ref version host ↔ c.running = true := by
  constructor
  · rintro ⟨d, hd, -, hrunning, -⟩
    rw [h] at hd
    exact Option.some.inj hd ▸ hrunning
  · intro hrunning
    exact ⟨c, h, hagent, hrunning, hkind⟩

theorem Idle.not_agentUp {old : Container} {ref version : String} {host : Host}
    (h : Idle old.name host) : ¬ AgentUp old ref version host := by
  rintro ⟨c, hc, -, hrunning, -⟩
  rw [h c hc] at hrunning
  cases hrunning

theorem not_agentUp_of_free {old : Container} {ref version : String} {host : Host}
    (h : host.named old.name = none) : ¬ AgentUp old ref version host := by
  rintro ⟨c, hc, -⟩
  rw [h] at hc
  cases hc

/-- The old container gets its name and its run back. -/
def Fate.Restores (fate : Fate) : Prop := fate.renameBack = .done ∧ fate.startOld.applied = true

/-- The successor, condemned while it runs or not, is gone and the old agent back, or it is left
as it was. -/
def Fate.Discards (fate : Fate) (running : Bool) : Prop :=
  match fate.removeNew with
  | .done => fate.Restores
  | .refused _ => running = true
  | .lost effect => running = true ∧ effect = false

def Fate.RollsBack (fate : Fate) (running : Bool) : Prop :=
  match fate.stopNew with
  | .done => fate.Discards false
  | .refused _ => fate.Discards running
  | .lost effect => running = true ∧ effect = false

/-- The poll ends the wait for the successor of job `jobId`. -/
def Poll.decides (jobId : String) (poll : Poll) : Bool :=
  poll.ready.any (fun ready => ready.jobId = jobId) || poll.inspect ≠ .done ||
    (!poll.running && (poll.status = "exited" || poll.status = "dead")) ||
    (poll.restarting || 0 < poll.restartCount)

/-- The wait ends with a reason to go back: no `ready` of this job in time, one of another
version, or a successor that exited. -/
def condemned (jobId version : String) (polls : List Poll) : Bool :=
  match polls.find? (Poll.decides jobId) with
  | none => true
  | some poll =>
    if poll.ready.any fun ready => ready.jobId = jobId then
      poll.ready.any fun ready => ready.version ≠ version
    else poll.inspect = .done

/-- Whether the successor runs when the wait ends. -/
def seenRunning (jobId : String) (running : Bool) (polls : List Poll) : Bool :=
  match polls.find? (Poll.decides jobId) with
  | none => polls.getLast?.elim running Poll.running
  | some poll => poll.running

/-- What has to come true of the calls after the swap. -/
def Fate.Keeps (fate : Fate) (jobId version : String) : Prop :=
  match fate.create with
  | .refused _ => fate.Restores
  | .lost _ => False
  | .done =>
    match fate.start with
    | .refused _ => False
    | .lost effect => effect = true
    | .done =>
      if condemned jobId version fate.polls then
        fate.RollsBack (seenRunning jobId true fate.polls)
      else seenRunning jobId true fate.polls = true

/-! ### Putting the old agent back -/

theorem Act.bind_host {α β : Type} {x : Act α} {f : α → Act β}
    (h : ∀ a w, (f a w).2.host = w.host) (w : World) : ((x >>= f) w).2.host = (x w).2.host := by
  cases hx : x w with
  | mk r after =>
    cases r with
    | ok a => rw [Act.bind_ok hx, h]
    | error e => rw [Act.bind_error hx]

/-- The successor created beside the stopped old agent, under the agent's name. -/
structure Trial (old new : Container) (host : Host) : Prop where
  oldAgent : old.agent = true
  newAgent : new.agent = true
  moved : host.byId old.id = some { old with name := previous old.name, running := false }
  tried : host.byId new.id = some new
  named : host.named old.name = some new

theorem restore_none (fate : Fate) (oldId name : String) :
    restore fate oldId name none = (do
      rename fate.renameBack oldId name
      start fate.startOld oldId) := rfl

theorem restore_some (fate : Fate) (oldId name id : String) :
    restore fate oldId name (some id) = (do
      (stop fate.stopNew id).ignoreDocker
      remove fate.removeNew id
      restore fate oldId name none) := by
  rfl

theorem restore_free_iff {fate : Fate} {old : Container} {ref version : String} {w : World}
    (hagent : old.agent = true) (hfree : w.host.named old.name = none)
    (hmoved : w.host.byId old.id =
      some { old with name := previous old.name, running := false }) :
    AgentUp old ref version (restore fate old.id old.name none w).2.host ↔ fate.Restores := by
  obtain ⟨host, hrename, hids, hnames⟩ := Host.rename_free hmoved hfree
  have hback : host.byId old.id = some { old with running := false } := by
    rw [hids, if_pos rfl]
  have hname : host.named old.name = some { old with running := false } := by
    rw [hnames, if_pos rfl]
  by_cases hren : fate.renameBack = .done
  · have hrun : rename fate.renameBack old.id old.name w = (.ok (), { w with host }) := by
      rw [hren]
      exact onAgent_done hmoved hagent hrename
    have hrest : restore fate old.id old.name none w =
        start fate.startOld old.id { w with host } := by
      rw [restore_none]
      exact Act.bind_ok hrun
    have heff := start_effect hback
    have hup : AgentUp old ref version (host.setRunning old.id true) := by
      refine ⟨{ old with running := true }, ?_, hagent, rfl, .inl rfl⟩
      rw [Host.named_setRunning, hname]
      simp
    have hdown : ¬ AgentUp old ref version host := by
      rw [agentUp_of_named hname hagent (.inl rfl)]
      exact Bool.false_ne_true
    have happ : (restore fate old.id old.name none w).2.host =
        if fate.startOld.applied then host.setRunning old.id true else host := by
      rw [hrest]
      by_cases hstart : fate.startOld = .done
      · have hrun : start fate.startOld old.id { w with host } =
            (.ok (), { w with host := host.setRunning old.id true }) := by
          rw [hstart]
          exact onAgent_done hback hagent heff
        rw [hrun, hstart]
        rfl
      · have hrun : start fate.startOld old.id { w with host } = (.error fate.startOld.raises,
            { w with host := if fate.startOld.applied then host.setRunning old.id true else host }) :=
          onAgent_not_done hback hagent heff hstart
        rw [hrun]
    rw [happ, Fate.Restores]
    cases fate.startOld.applied with
    | true => simp only [if_true, hup, hren, and_self]
    | false => simp only [Bool.false_eq_true, if_false, hdown, and_false]
  · have hrun : rename fate.renameBack old.id old.name w =
        (.error fate.renameBack.raises,
          { w with host := if fate.renameBack.applied then host else w.host }) :=
      onAgent_not_done hmoved hagent hrename hren
    rw [restore_none, Act.bind_error hrun]
    have hdown : ¬ AgentUp old ref version
        (if fate.renameBack.applied then host else w.host) := by
      split
      · rw [agentUp_of_named hname hagent (.inl rfl)]
        exact Bool.false_ne_true
      · exact not_agentUp_of_free hfree
    exact ⟨fun h => absurd h hdown, fun h => absurd h.1 hren⟩

theorem Trial.ids_ne {old new : Container} {host : Host} (h : Trial old new host) :
    new.id ≠ old.id := by
  intro hid
  have hboth := h.tried
  rw [hid, h.moved] at hboth
  have hname := (Host.named_eq_some.mp h.named).2
  rw [← Option.some.inj hboth] at hname
  exact previous_ne old.name hname

theorem Trial.setRunning {old new : Container} {host : Host} (h : Trial old new host)
    (running : Bool) : Trial old { new with running } (host.setRunning new.id running) := by
  refine ⟨h.oldAgent, h.newAgent, ?_, ?_, ?_⟩
  · rw [Host.byId_setRunning, if_neg h.ids_ne.symm, h.moved]
  · rw [Host.byId_setRunning, if_pos rfl, h.tried, Option.map_some]
  · rw [Host.named_setRunning, h.named, Option.map_some, if_pos rfl]

theorem Trial.agentUp_iff {old new : Container} {ref version : String} {host : Host}
    (h : Trial old new host) (himage : new.image = ref) (hversion : new.version = some version) :
    AgentUp old ref version host ↔ new.running = true :=
  agentUp_of_named h.named h.newAgent (.inr ⟨himage, hversion⟩)

theorem discard_iff {fate : Fate} {old new : Container} {ref version : String} {w : World}
    (h : Trial old new w.host) (himage : new.image = ref) (hversion : new.version = some version) :
    AgentUp old ref version ((do
        remove fate.removeNew new.id
        restore fate old.id old.name none : Act Unit) w).2.host ↔ fate.Discards new.running := by
  obtain ⟨host, hremove⟩ := remove_effect h.tried
  have hgone : host.named old.name = none := by
    rw [Host.named_remove hremove, h.named]
    simp
  have hmoved : host.byId old.id =
      some { old with name := previous old.name, running := false } := by
    rw [Host.byId_remove hremove, if_neg h.ids_ne.symm, h.moved]
  unfold Fate.Discards
  cases hout : fate.removeNew with
  | done =>
    have hrun : remove .done new.id w = (.ok (), { w with host }) :=
      onAgent_done h.tried h.newAgent hremove
    rw [Act.bind_ok hrun]
    exact restore_free_iff h.oldAgent hgone hmoved
  | refused reason =>
    have hrun : remove (.refused reason) new.id w = (.error (.docker reason), w) :=
      onAgent_not_done h.tried h.newAgent hremove nofun
    rw [Act.bind_error hrun]
    exact h.agentUp_iff himage hversion
  | lost effect =>
    have hrun : remove (.lost effect) new.id w =
        (.error .lost, { w with host := if effect then host else w.host }) :=
      onAgent_not_done h.tried h.newAgent hremove nofun
    rw [Act.bind_error hrun]
    cases effect with
    | true =>
      simp only [if_true, Bool.true_eq_false, and_false, iff_false]
      exact not_agentUp_of_free hgone
    | false =>
      simp only [Bool.false_eq_true, if_false, and_true]
      exact h.agentUp_iff himage hversion

theorem restore_trial_iff {fate : Fate} {old new : Container} {ref version : String} {w : World}
    (h : Trial old new w.host) (himage : new.image = ref) (hversion : new.version = some version) :
    AgentUp old ref version (restore fate old.id old.name (some new.id) w).2.host ↔
      fate.RollsBack new.running := by
  have hstop := stop_effect h.tried
  rw [restore_some]
  unfold Fate.RollsBack
  cases hout : fate.stopNew with
  | done =>
    have hrun : (stop .done new.id).ignoreDocker w =
        (.ok (), { w with host := w.host.setRunning new.id false }) := by
      have : stop .done new.id w = (.ok (), { w with host := w.host.setRunning new.id false }) :=
        onAgent_done h.tried h.newAgent hstop
      rw [Act.ignoreDocker, this]
    rw [Act.bind_ok hrun]
    exact discard_iff (w := { w with host := w.host.setRunning new.id false })
      (h.setRunning false) himage hversion
  | refused reason =>
    have hrun : (stop (.refused reason) new.id).ignoreDocker w = (.ok (), w) := by
      have : stop (.refused reason) new.id w = (.error (.docker reason), w) :=
        onAgent_not_done h.tried h.newAgent hstop nofun
      rw [Act.ignoreDocker, this]
    rw [Act.bind_ok hrun]
    exact discard_iff h himage hversion
  | lost effect =>
    have hrun : (stop (.lost effect) new.id).ignoreDocker w = (.error .lost,
        { w with host := if effect then w.host.setRunning new.id false else w.host }) := by
      have : stop (.lost effect) new.id w = (.error .lost,
          { w with host := if effect then w.host.setRunning new.id false else w.host }) :=
        onAgent_not_done h.tried h.newAgent hstop nofun
      rw [Act.ignoreDocker, this]
    rw [Act.bind_error hrun]
    cases effect with
    | true =>
      simp only [if_true, Bool.true_eq_false, and_false, iff_false]
      rw [(h.setRunning false).agentUp_iff himage hversion]
      exact Bool.false_ne_true
    | false =>
      simp only [Bool.false_eq_true, if_false, and_true]
      exact h.agentUp_iff himage hversion

/-! ### Waiting for the successor -/

theorem seenRunning_cons (jobId : String) (running : Bool) (poll : Poll) (polls : List Poll) :
    seenRunning jobId running (poll :: polls) =
      if poll.decides jobId then poll.running else seenRunning jobId poll.running polls := by
  unfold seenRunning
  rw [List.find?_cons]
  cases poll.decides jobId with
  | true => rfl
  | false =>
    cases polls.find? (Poll.decides jobId) with
    | some found => rfl
    | none => cases polls <;> rfl

theorem condemned_cons (jobId version : String) (poll : Poll) (polls : List Poll) :
    condemned jobId version (poll :: polls) =
      if poll.decides jobId then
        if poll.ready.any fun ready => ready.jobId = jobId then
          poll.ready.any fun ready => ready.version ≠ version
        else poll.inspect = .done
      else condemned jobId version polls := by
  unfold condemned
  rw [List.find?_cons]
  cases poll.decides jobId <;> rfl

theorem append_ne_empty {s t : String} (h : s ≠ "") : s ++ t ≠ "" := by
  intro he
  have hlist := congrArg String.toList he
  rw [String.toList_append] at hlist
  exact h (String.toList_inj.mp (List.append_eq_nil_iff.mp hlist).1)

/-- One poll: the wait ends here, or goes on with the successor as the poll saw it. -/
theorem waitReady_cons (jobId version : String) (timeout : ℕ) (poll : Poll) (polls : List Poll)
    {c : Container} {w : World} (hc : w.host.byId c.id = some c) (hagent : c.agent = true) :
    let after := { w with host := w.host.setRunning c.id poll.running }
    (poll.decides jobId = false ∧ waitReady jobId version timeout c.id (poll :: polls) w =
        waitReady jobId version timeout c.id polls after) ∨
      (poll.decides jobId = true ∧
        ∃ r, waitReady jobId version timeout c.id (poll :: polls) w = (r, after) ∧
          (condemned jobId version (poll :: polls) = true → ∃ why, why ≠ "" ∧ r = .ok why) ∧
          (condemned jobId version (poll :: polls) = false → r = .ok "" ∨ ∃ e, r = .error e)) := by
  intro after
  have hseen : after.host.byId c.id = some { c with running := poll.running } := by
    rw [Host.byId_setRunning, if_pos rfl, hc, Option.map_some]
  have hfound : (if (after.host.containers.lookup c.id).isSome then some after.host else none) =
      some after.host := by
    rw [show after.host.containers.lookup c.id = _ from hseen]
    rfl
  have hobserve : observe c.id poll.running w = (.ok (), after) := rfl
  rw [waitReady, Act.bind_ok hobserve, condemned_cons]
  cases hready : poll.ready.filter fun ready => ready.jobId = jobId with
  | some ready =>
    obtain ⟨hsome, hjob⟩ := Option.filter_eq_some_iff.mp hready
    have hany : poll.ready.any (fun ready => ready.jobId = jobId) = true := by
      rw [hsome]
      exact hjob
    have hdecides : poll.decides jobId = true := by
      simp only [Poll.decides, hany, Bool.true_or]
    right
    refine ⟨hdecides, _, rfl, ?_⟩
    rw [if_pos hdecides, if_pos hany, hsome]
    by_cases hversion : ready.version = version
    · simp [hversion]
    · simp only [Option.any_some, hversion, ne_eq, not_false_eq_true, decide_true, if_false]
      refine ⟨fun _ => ⟨_, ?_, rfl⟩, nofun⟩
      exact append_ne_empty (append_ne_empty (append_ne_empty (by decide)))
  | none =>
    have hany : poll.ready.any (fun ready => ready.jobId = jobId) = false := by
      cases hr : poll.ready with
      | none => rfl
      | some ready =>
        rw [hr, Option.filter_eq_none_iff] at hready
        simpa using hready ready rfl
    have hinspect : ∀ {f : Unit → Act String}, poll.inspect ≠ .done →
        (inspect poll.inspect c.id >>= f) after = (.error poll.inspect.raises, after) := by
      intro f hnot
      refine Act.bind_error ?_
      have hrun : inspect poll.inspect c.id after = (.error poll.inspect.raises,
          { after with host := if poll.inspect.applied then after.host else after.host }) :=
        onAgent_not_done hseen hagent hfound hnot
      rw [ite_self] at hrun
      exact hrun
    by_cases hdone : poll.inspect = .done
    · have hok : inspect poll.inspect c.id after = (.ok (), after) := by
        rw [hdone]
        exact onAgent_done hseen hagent hfound
      simp only [Act.bind_ok hok]
      by_cases hexit : (!poll.running && (poll.status = "exited" || poll.status = "dead")) = true
      · right
        have hdecides : poll.decides jobId = true := by
          simp only [Poll.decides, hexit, Bool.or_true, Bool.true_or]
        refine ⟨hdecides, _, by rw [if_pos hexit]; rfl, ?_⟩
        rw [if_pos hdecides, hany, hdone]
        refine ⟨fun _ => ⟨_, ?_, rfl⟩, nofun⟩
        exact append_ne_empty (append_ne_empty (by decide))
      · rw [if_neg hexit]
        by_cases hagain : (poll.restarting || 0 < poll.restartCount) = true
        · right
          have hdecides : poll.decides jobId = true := by
            simp only [Poll.decides, hagain, Bool.or_true]
          refine ⟨hdecides, _, by rw [if_pos hagain]; rfl, ?_⟩
          rw [if_pos hdecides, hany, hdone]
          refine ⟨fun _ => ⟨_, ?_, rfl⟩, nofun⟩
          exact append_ne_empty (append_ne_empty (by decide))
        · left
          have hdecides : poll.decides jobId = false := by
            rw [Bool.not_eq_true] at hexit hagain
            simp only [Poll.decides, hany, hdone, hexit, hagain]
            rfl
          exact ⟨hdecides, by rw [if_neg hagain]⟩
    · right
      have hdecides : poll.decides jobId = true := by
        simp [Poll.decides, hdone]
      refine ⟨hdecides, _, hinspect hdone, ?_⟩
      rw [if_pos hdecides, hany]
      simp only [Bool.false_eq_true, if_false, hdone, decide_false, false_implies, true_and]
      exact fun _ => .inr ⟨_, rfl⟩

theorem waitReady_spec (jobId version : String) (timeout : ℕ) (polls : List Poll)
    {old new : Container} {w : World} (h : Trial old new w.host) :
    ∃ r host, waitReady jobId version timeout new.id polls w = (r, { w with host }) ∧
      Trial old { new with running := seenRunning jobId new.running polls } host ∧
      (condemned jobId version polls = true → ∃ why, why ≠ "" ∧ r = .ok why) ∧
      (condemned jobId version polls = false → r = .ok "" ∨ ∃ e, r = .error e) := by
  induction polls generalizing new w with
  | nil =>
    refine ⟨_, w.host, rfl, h, fun _ => ⟨_, ?_, rfl⟩, nofun⟩
    exact append_ne_empty (append_ne_empty (by decide))
  | cons poll polls ih =>
    have hnext := h.setRunning poll.running
    rw [seenRunning_cons]
    rcases waitReady_cons jobId version timeout poll polls h.tried h.newAgent with
      ⟨hdecides, hrun⟩ | ⟨hdecides, r, hrun, hback, hkeep⟩
    · obtain ⟨r, host, hrest, htrial, hback, hkeep⟩ :=
        ih (w := { w with host := w.host.setRunning new.id poll.running }) hnext
      rw [condemned_cons, hdecides]
      exact ⟨r, host, hrun.trans hrest, htrial, hback, hkeep⟩
    · rw [if_pos hdecides]
      exact ⟨r, _, hrun, hnext, hback, hkeep⟩

/-! ### The whole upgrade -/

/-- Whatever becomes of the call that drops the old container, the successor keeps its name. -/
theorem named_removeOld {outcome : Outcome} {old new : Container} {w : World}
    (h : Trial old new w.host) : (remove outcome old.id w).2.host.named old.name = some new := by
  obtain ⟨host, hremove⟩ := remove_effect h.moved
  have hstays : host.named old.name = some new := by
    rw [Host.named_remove hremove, h.named]
    simp [h.ids_ne]
  by_cases hdone : outcome = .done
  · have hrun : remove outcome old.id w = (.ok (), { w with host }) := by
      rw [hdone]
      exact onAgent_done h.moved h.oldAgent hremove
    rw [hrun]
    exact hstays
  · have hrun : remove outcome old.id w =
        (.error outcome.raises, { w with host := if outcome.applied then host else w.host }) :=
      onAgent_not_done h.moved h.oldAgent hremove hdone
    rw [hrun]
    show (if outcome.applied then host else w.host).named old.name = some new
    split
    · exact hstays
    · exact h.named

theorem writes_host {jobId state reason result : String} (w : World) :
    ((do writeStatus jobId state reason; return result : Act String) w).2.host = w.host := rfl

theorem settle_iff {fate : Fate} {old new : Container} {ref jobId version : String} {timeout : ℕ}
    {w : World} (h : Trial old new w.host) (himage : new.image = ref)
    (hversion : new.version = some version) :
    AgentUp old ref version (settle fate jobId version timeout old new.id w).2.host ↔
      if condemned jobId version fate.polls then
        fate.RollsBack (seenRunning jobId new.running fate.polls)
      else seenRunning jobId new.running fate.polls = true := by
  obtain ⟨r, host, hwait, htrial, hback, hkeep⟩ := waitReady_spec jobId version timeout fate.polls
    (w := { w with status := some ⟨jobId, "waiting_ready", ""⟩ }) h
  have hstatus : writeStatus jobId "waiting_ready" "" w =
      (.ok (), { w with status := some ⟨jobId, "waiting_ready", ""⟩ }) := rfl
  rw [settle, Act.bind_ok hstatus]
  cases hcond : condemned jobId version fate.polls with
  | true =>
    obtain ⟨why, hwhy, rfl⟩ := hback hcond
    rw [Act.bind_ok hwait, if_pos hwhy, if_pos rfl, Act.bind_host fun _ w => writes_host w]
    exact restore_trial_iff (w := ⟨host, _⟩) htrial himage hversion
  | false =>
    rw [if_neg Bool.false_ne_true]
    have hup := htrial.agentUp_iff himage hversion
    rcases hkeep hcond with rfl | ⟨e, rfl⟩
    · rw [Act.bind_ok hwait]
      simp only [ne_eq, not_true_eq_false, if_false]
      rw [Act.bind_host fun _ w => writes_host w]
      exact agentUp_of_named (named_removeOld (w := ⟨host, _⟩) htrial) h.newAgent
        (.inr ⟨himage, hversion⟩)
    · rw [Act.bind_error hwait]
      exact hup

theorem bringUp_trial {fate : Fate} {old : Container} (ref version : String) {w : World}
    (hagent : old.agent = true) (h : Swapped old fate.newId w.host) :
    ∃ host, w.host.create ⟨fate.newId, old.name, true, ref, some version, false⟩ = some host ∧
      Trial old ⟨fate.newId, old.name, true, ref, some version, false⟩ host := by
  have hne : old.id ≠ fate.newId := by
    intro he
    have hfresh := h.fresh
    rw [← he, h.moved] at hfresh
    cases hfresh
  obtain ⟨host, hcreate⟩ := Host.create_isSome
    (c := ⟨fate.newId, old.name, true, ref, some version, false⟩) h.fresh h.free
  refine ⟨host, hcreate, hagent, rfl, ?_, ?_, ?_⟩
  · rw [Host.byId_create hcreate, if_neg hne, h.moved]
  · rw [Host.byId_create hcreate, if_pos rfl]
  · rw [Host.named_create hcreate, if_pos rfl]

/-- The upgrade from the swap on. -/
def replace (fate : Fate) (jobId ref version : String) (timeout : ℕ) (old : Container) :
    Act String := do
  match ← (bringUp fate old.name ref version).attempt with
  | .error reason => do
    restore fate old.id old.name none
    writeStatus jobId "rolled_back" ("the new container would not start: " ++ reason)
    return "rolled_back"
  | .ok newId => settle fate jobId version timeout old newId

theorem replace_iff {fate : Fate} {old : Container} {ref jobId version : String} {timeout : ℕ}
    {w : World} (hagent : old.agent = true) (h : Swapped old fate.newId w.host) :
    AgentUp old ref version (replace fate jobId ref version timeout old w).2.host ↔
      fate.Keeps jobId version := by
  obtain ⟨created, hcreate, htrial⟩ := bringUp_trial ref version hagent h
  have heff : (fun host : Host => (host.create ⟨fate.newId, old.name, true, ref, some version, false⟩).map
      fun after => (after, ())) w.host = some (created, ()) := by
    simp only [hcreate, Option.map_some]
  unfold Fate.Keeps
  cases hc : fate.create with
  | refused reason =>
    have hcall : bringUp fate old.name ref version w = (.error (.docker reason), w) := by
      rw [bringUp, hc]
      exact Act.bind_error rfl
    rw [replace, Act.bind_ok (Act.attempt_docker hcall)]
    simp only
    rw [Act.bind_host fun _ w => writes_host w]
    exact restore_free_iff hagent h.free h.moved
  | lost effect =>
    have hcall : bringUp fate old.name ref version w =
        (.error .lost, { w with host := if effect then created else w.host }) := by
      rw [bringUp, hc]
      exact Act.bind_error (call_not_done nofun heff)
    rw [replace, Act.bind_error (Act.attempt_lost hcall), iff_false]
    show ¬ AgentUp old ref version (if effect then created else w.host)
    split
    · rw [htrial.agentUp_iff rfl rfl]
      exact Bool.false_ne_true
    · exact not_agentUp_of_free h.free
  | done =>
    have hcall : bringUp fate old.name ref version w =
        (do start fate.start fate.newId; return fate.newId : Act String) { w with host := created } := by
      rw [bringUp, hc]
      exact Act.bind_ok (call_done heff)
    have hstart := start_effect htrial.tried
    have hrunning := htrial.setRunning true
    cases hs : fate.start with
    | refused reason =>
      have hrun : start (.refused reason) fate.newId { w with host := created } =
          (.error (.docker reason), { w with host := created }) :=
        onAgent_not_done htrial.tried rfl hstart nofun
      rw [hs, Act.bind_error hrun] at hcall
      obtain ⟨e, hconflict⟩ : ∃ e, rename fate.renameBack old.id old.name { w with host := created } =
          (.error e, { w with host := created }) :=
        onAgent_conflict htrial.moved hagent (Host.rename_eq_none htrial.named)
      rw [replace, Act.bind_ok (Act.attempt_docker hcall)]
      simp only
      rw [Act.bind_host fun _ w => writes_host w, restore_none, Act.bind_error hconflict, iff_false,
        htrial.agentUp_iff rfl rfl]
      exact Bool.false_ne_true
    | lost effect =>
      have hrun : start (.lost effect) fate.newId { w with host := created } = (.error .lost,
          { w with host := if effect then created.setRunning fate.newId true else created }) :=
        onAgent_not_done htrial.tried rfl hstart nofun
      rw [hs, Act.bind_error hrun] at hcall
      rw [replace, Act.bind_error (Act.attempt_lost hcall)]
      cases effect with
      | true => exact hrunning.agentUp_iff rfl rfl
      | false => exact htrial.agentUp_iff rfl rfl
    | done =>
      have hrun : start .done fate.newId { w with host := created } =
          (.ok (), { w with host := created.setRunning fate.newId true }) :=
        onAgent_done htrial.tried rfl hstart
      rw [hs, Act.bind_ok hrun] at hcall
      rw [replace, Act.bind_ok (Act.attempt_ok hcall)]
      exact settle_iff (w := { w with host := created.setRunning fate.newId true }) hrunning rfl rfl

end Updater
