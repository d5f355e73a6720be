import VmDashboard.Updater.Handle

/-!
# The swap: the old agent stopped and out of the way

`swapOut_spec` says what the calls up to the rename leave: the host as it was,
the old agent under its second name, or a host on which nothing runs under the
agent's name.
-/

namespace Updater

/-! ### Running a piece of the updater -/

@[simp] theorem Act.pure_run {α : Type} (a : α) (w : World) : (pure a : Act α) w = (.ok a, w) := rfl

theorem Act.bind_ok {α β : Type} {x : Act α} {f : α → Act β} {w after : World} {a : α}
    (h : x w = (.ok a, after)) : (x >>= f) w = f a after := by
  show Act.bind x f w = _
  rw [Act.bind, h]

theorem Act.bind_error {α β : Type} {x : Act α} {f : α → Act β} {w after : World} {e : Raised}
    (h : x w = (.error e, after)) : (x >>= f) w = (.error e, after) := by
  show Act.bind x f w = _
  rw [Act.bind, h]

theorem Act.attempt_ok {α : Type} {x : Act α} {w after : World} {a : α}
    (h : x w = (.ok a, after)) : x.attempt w = (.ok (.ok a), after) := by
  rw [Act.attempt, h]

theorem Act.attempt_docker {α : Type} {x : Act α} {w after : World} {reason : String}
    (h : x w = (.error (.docker reason), after)) : x.attempt w = (.ok (.error reason), after) := by
  rw [Act.attempt, h]

theorem Act.attempt_lost {α : Type} {x : Act α} {w after : World}
    (h : x w = (.error .lost, after)) : x.attempt w = (.error .lost, after) := by
  rw [Act.attempt, h]

/-- The daemon carries the call out, whether or not the updater learns of it. -/
def Outcome.applied : Outcome → Bool
  | .done => true
  | .refused _ => false
  | .lost effect => effect

/-- What a call raises when it does not return. -/
def Outcome.raises : Outcome → Raised
  | .refused reason => .docker reason
  | _ => .lost

theorem call_done {α : Type} {effect : Host → Option (Host × α)} {w : World} {host : Host} {a : α}
    (h : effect w.host = some (host, a)) : call .done effect w = (.ok a, { w with host }) := by
  simp only [call, h]

/-- A call that does not return raises, and changes the host only if it was applied. -/
theorem call_not_done {α : Type} {outcome : Outcome} {effect : Host → Option (Host × α)} {w : World}
    {host : Host} {a : α} (hout : outcome ≠ .done) (h : effect w.host = some (host, a)) :
    call outcome effect w =
      (.error outcome.raises, { w with host := if outcome.applied then host else w.host }) := by
  cases outcome with
  | done => exact absurd rfl hout
  | refused reason => rfl
  | lost effect =>
    cases effect with
    | true => simp only [call, h, Outcome.raises, Outcome.applied, if_true]
    | false => rfl

theorem call_conflict {α : Type} {outcome : Outcome} {effect : Host → Option (Host × α)} {w : World}
    (h : effect w.host = none) : ∃ e, call outcome effect w = (.error e, w) := by
  cases outcome with
  | done => exact ⟨.docker "HTTP 409", by simp only [call, h]⟩
  | refused reason => exact ⟨_, rfl⟩
  | lost effect =>
    cases effect with
    | true => exact ⟨.lost, by simp only [call, h]⟩
    | false => exact ⟨.lost, rfl⟩

theorem onAgent_eq {outcome : Outcome} {id : String} {effect : Host → Option Host} {w : World}
    {c : Container} (hc : w.host.byId id = some c) (hagent : c.agent = true) :
    onAgent outcome id effect w =
      call outcome (fun host => (effect host).map fun after => (after, ())) w := by
  have hlook : w.host.containers.lookup id = some c := hc
  simp only [onAgent, hlook, Option.any_some, hagent, Bool.not_true, Bool.false_eq_true, if_false]

theorem onAgent_done {id : String} {effect : Host → Option Host} {w : World} {c : Container}
    {host : Host} (hc : w.host.byId id = some c) (hagent : c.agent = true)
    (heff : effect w.host = some host) :
    onAgent .done id effect w = (.ok (), { w with host }) := by
  rw [onAgent_eq hc hagent]
  exact call_done (by rw [heff, Option.map_some])

theorem onAgent_not_done {outcome : Outcome} {id : String} {effect : Host → Option Host}
    {w : World} {c : Container} {host : Host} (hc : w.host.byId id = some c)
    (hagent : c.agent = true) (heff : effect w.host = some host) (hout : outcome ≠ .done) :
    onAgent outcome id effect w =
      (.error outcome.raises, { w with host := if outcome.applied then host else w.host }) := by
  rw [onAgent_eq hc hagent]
  exact call_not_done hout (by rw [heff, Option.map_some])

theorem onAgent_conflict {outcome : Outcome} {id : String} {effect : Host → Option Host}
    {w : World} {c : Container} (hc : w.host.byId id = some c) (hagent : c.agent = true)
    (heff : effect w.host = none) : ∃ e, onAgent outcome id effect w = (.error e, w) := by
  rw [onAgent_eq hc hagent]
  exact call_conflict (by rw [heff, Option.map_none])

theorem start_effect {host : Host} {id : String} {c : Container} (hc : host.byId id = some c) :
    host.start id = some (host.setRunning id true) := by
  have hlook : host.containers.lookup id = some c := hc
  simp only [Host.start, hlook, Option.isSome_some, if_true]

theorem stop_effect {host : Host} {id : String} {c : Container} (hc : host.byId id = some c) :
    host.stop id = some (host.setRunning id false) := by
  have hlook : host.containers.lookup id = some c := hc
  simp only [Host.stop, hlook, Option.isSome_some, if_true]

theorem remove_effect {host : Host} {id : String} {c : Container} (hc : host.byId id = some c) :
    ∃ after, host.remove id = some after := by
  have hlook : (host.containers.lookup id).isSome = true := by
    rw [show host.containers.lookup id = some c from hc, Option.isSome_some]
  exact ⟨_, if_pos hlook⟩

/-! ### Removing what an earlier swap left -/

theorem removeNamed_none {outcome : Outcome} {name : String} {agents : List Container} {w : World}
    (h : ∀ c ∈ agents, c.name ≠ name) : removeNamed outcome name agents w = (.ok (), w) := by
  induction agents with
  | nil => rfl
  | cons c agents ih =>
    have hc : c.name ≠ name := h c List.mem_cons_self
    have hrest := ih fun d hd => h d (List.mem_cons_of_mem c hd)
    rw [removeNamed, if_neg hc]
    exact hrest

theorem removeNamed_one {outcome : Outcome} {name : String} {agents : List Container} {w : World}
    {c : Container} (hc : c ∈ agents) (hname : c.name = name)
    (hone : (agents.map Container.name).Nodup) :
    removeNamed outcome name agents w = remove outcome c.id w := by
  induction agents with
  | nil => cases hc
  | cons d agents ih =>
    rw [List.map_cons, List.nodup_cons] at hone
    rcases List.mem_cons.mp hc with rfl | hc
    · have hrest : ∀ e ∈ agents, e.name ≠ name := by
        intro e he hen
        exact hone.1 (hname.trans hen.symm ▸ List.mem_map_of_mem he)
      simp only [removeNamed, if_pos hname]
      cases hr : remove outcome c.id w with
      | mk result after =>
        cases result with
        | error e => exact Act.bind_error hr
        | ok u => exact (Act.bind_ok hr).trans (removeNamed_none hrest)
    · have hne : d.name ≠ name := by
        intro hd
        exact hone.1 (hd.trans hname.symm ▸ List.mem_map_of_mem hc)
      rw [removeNamed, if_neg hne]
      exact ih hc hone.2

/-! ### The swap -/

/-- Nothing runs under the agent's name. -/
def Idle (name : String) (host : Host) : Prop := ∀ c, host.named name = some c → c.running = false

/-- The old agent is stopped and out of the way, and its name is free. -/
structure Swapped (old : Container) (newId : String) (host : Host) : Prop where
  moved : host.byId old.id = some { old with name := previous old.name, running := false }
  free : host.named old.name = none
  fresh : host.byId newId = none

theorem previous_ne (name : String) : previous name ≠ name := by
  intro h
  have hlen := congrArg (fun s => s.toList.length) h
  simp only [previous, String.toList_append, List.length_append] at hlen
  have : "-previous".toList.length = 9 := by decide
  omega

/-- All of the swap goes through: an earlier leftover is removed, and no other container holds
the name the old agent is moved to. -/
def Fate.Swaps (fate : Fate) (host : Host) (old : Container) : Prop :=
  fate.stop = .done ∧ fate.listPrevious = .done ∧ fate.rename = .done ∧
    ∀ c, host.named (previous old.name) = some c → c.agent = true ∧ fate.removePrevious = .done

theorem named_stopped {host : Host} {old : Container} (hold : host.byId old.id = some old)
    (name : String) : (host.setRunning old.id false).named name =
      if name = old.name then some { old with running := false } else host.named name := by
  obtain ⟨hmem, -⟩ := Host.byId_eq_some.mp hold
  rw [Host.named_setRunning]
  by_cases hname : name = old.name
  · rw [if_pos hname, hname, Host.named_eq_some.mpr ⟨hmem, rfl⟩, Option.map_some, if_pos rfl]
  · rw [if_neg hname]
    cases hn : host.named name with
    | none => rfl
    | some c =>
      obtain ⟨hc, hcn⟩ := Host.named_eq_some.mp hn
      have hid : c.id ≠ old.id := by
        intro hid
        exact hname (hcn.symm.trans (congrArg _ (Host.eq_of_id hc hmem hid)))
      rw [Option.map_some, if_neg hid]

/-- The old agent stopped, still under its name. -/
structure Stopped (old : Container) (newId : String) (host : Host) : Prop where
  agent : old.agent = true
  stays : host.byId old.id = some { old with running := false }
  named : host.named old.name = some { old with running := false }
  fresh : host.byId newId = none

theorem Stopped.idle {old : Container} {newId : String} {host : Host}
    (h : Stopped old newId host) : Idle old.name host := by
  intro c hc
  rw [h.named] at hc
  rw [← Option.some.inj hc]

/-- Moving the stopped agent away once the name is free. -/
theorem rename_stopped {fate : Fate} {w : World} {old : Container}
    (h : Stopped old fate.newId w.host) (hfree : w.host.named (previous old.name) = none) :
    (fate.rename = .done ∧ ∃ host, rename fate.rename old.id (previous old.name) w =
        (.ok (), { w with host }) ∧ Swapped old fate.newId host) ∨
      (fate.rename ≠ .done ∧ ∃ e host, rename fate.rename old.id (previous old.name) w =
        (.error e, { w with host }) ∧ Idle old.name host) := by
  obtain ⟨host, hrename, hids, hnames⟩ := Host.rename_free h.stays hfree
  have hmoved : host.named old.name = none := by
    rw [hnames, if_neg (previous_ne old.name).symm, h.named]
    simp
  by_cases hdone : fate.rename = .done
  · left
    have hne : fate.newId ≠ old.id := by
      intro he
      have := h.fresh
      rw [he, h.stays] at this
      cases this
    refine ⟨hdone, host, ?_, ?_, hmoved, ?_⟩
    · rw [hdone]
      exact onAgent_done h.stays h.agent hrename
    · rw [hids, if_pos rfl]
    · rw [hids, if_neg hne, h.fresh]
  · right
    refine ⟨hdone, fate.rename.raises, if fate.rename.applied then host else w.host,
      onAgent_not_done h.stays h.agent hrename hdone, ?_⟩
    split
    · intro c hc
      rw [hmoved] at hc
      cases hc
    · exact h.idle

theorem Stopped.remove {old p : Container} {newId : String} {host after : Host}
    (h : Stopped old newId host) (hp : host.named (previous old.name) = some p)
    (hremove : host.remove p.id = some after) :
    Stopped old newId after ∧ after.named (previous old.name) = none := by
  obtain ⟨hmem, hname⟩ := Host.named_eq_some.mp hp
  have hid : old.id ≠ p.id := by
    intro hid
    obtain ⟨hstays, hsid⟩ := Host.byId_eq_some.mp h.stays
    have hsame := Host.eq_of_id hstays hmem (hsid.trans hid)
    exact previous_ne old.name ((congrArg Container.name hsame).trans hname).symm
  refine ⟨⟨h.agent, ?_, ?_, ?_⟩, ?_⟩
  · rw [Host.byId_remove hremove, if_neg hid, h.stays]
  · rw [Host.named_remove hremove, h.named]
    simp [hid]
  · rw [Host.byId_remove hremove, h.fresh, ite_self]
  · rw [Host.named_remove hremove, hp]
    simp

/-- Clearing the name the old agent is moved to, and moving it there. -/
theorem clear_rename {fate : Fate} {w : World} {old : Container}
    (h : Stopped old fate.newId w.host) :
    let run := do
      removeNamed fate.removePrevious (previous old.name) w.host.listAgents
      rename fate.rename old.id (previous old.name)
    (fate.rename = .done ∧
        (∀ c, w.host.named (previous old.name) = some c →
          c.agent = true ∧ fate.removePrevious = .done) ∧
        ∃ host, run w = (.ok (), { w with host }) ∧ Swapped old fate.newId host) ∨
      (¬ (fate.rename = .done ∧ ∀ c, w.host.named (previous old.name) = some c →
          c.agent = true ∧ fate.removePrevious = .done) ∧
        ∃ e host, run w = (.error e, { w with host }) ∧ Idle old.name host) := by
  have hagents : (w.host.listAgents.map Container.name).Nodup :=
    w.host.names.sublist (List.Sublist.map _ List.filter_sublist)
  cases hp : w.host.named (previous old.name) with
  | none =>
    have hnone : ∀ c ∈ w.host.listAgents, c.name ≠ previous old.name :=
      fun c hc => Host.named_eq_none.mp hp c (List.mem_of_mem_filter hc)
    have hclear : removeNamed fate.removePrevious (previous old.name) w.host.listAgents w =
        (.ok (), w) := removeNamed_none hnone
    rcases rename_stopped h hp with ⟨hdone, host, hrun, hswap⟩ | ⟨hdone, e, host, hrun, hidle⟩
    · left
      refine ⟨hdone, fun c hc => ?_, host, (Act.bind_ok hclear).trans hrun, hswap⟩
      cases hc
    · right
      exact ⟨fun hg => hdone hg.1, e, host, (Act.bind_ok hclear).trans hrun, hidle⟩
  | some p =>
    obtain ⟨hmem, hname⟩ := Host.named_eq_some.mp hp
    by_cases hagent : p.agent = true
    · have hlisted : p ∈ w.host.listAgents := List.mem_filter.mpr ⟨hmem, hagent⟩
      have hclear : removeNamed fate.removePrevious (previous old.name) w.host.listAgents w =
          remove fate.removePrevious p.id w := removeNamed_one hlisted hname hagents
      have hbyId : w.host.byId p.id = some p := Host.byId_eq_some.mpr ⟨hmem, rfl⟩
      obtain ⟨after, hremove⟩ := remove_effect hbyId
      by_cases hout : fate.removePrevious = .done
      · have hrun : removeNamed fate.removePrevious (previous old.name) w.host.listAgents w =
            (.ok (), { w with host := after }) := by
          rw [hclear, hout]
          exact onAgent_done hbyId hagent hremove
        obtain ⟨hstop, hfree⟩ := h.remove hp hremove
        rcases rename_stopped (w := { w with host := after }) hstop hfree with
          ⟨hdone, host, hren, hswap⟩ | ⟨hdone, e, host, hren, hidle⟩
        · left
          refine ⟨hdone, fun c hc => ?_, host, (Act.bind_ok hrun).trans hren, hswap⟩
          obtain rfl := Option.some.inj hc
          exact ⟨hagent, hout⟩
        · right
          exact ⟨fun hg => hdone hg.1, e, host, (Act.bind_ok hrun).trans hren, hidle⟩
      · right
        refine ⟨fun hg => hout (hg.2 p rfl).2, fate.removePrevious.raises,
          if fate.removePrevious.applied then after else w.host,
          Act.bind_error (hclear.trans (onAgent_not_done hbyId hagent hremove hout)), ?_⟩
        split
        · exact (h.remove hp hremove).1.idle
        · exact h.idle
    · right
      have hnone : ∀ c ∈ w.host.listAgents, c.name ≠ previous old.name := by
        intro c hc hcn
        obtain ⟨hc, hca⟩ := List.mem_filter.mp hc
        exact hagent (Host.eq_of_name hc hmem (hcn.trans hname.symm) ▸ hca)
      have hclear : removeNamed fate.removePrevious (previous old.name) w.host.listAgents w =
          (.ok (), w) := removeNamed_none hnone
      obtain ⟨e, hren⟩ : ∃ e, rename fate.rename old.id (previous old.name) w = (.error e, w) :=
        onAgent_conflict h.stays h.agent (Host.rename_eq_none hp)
      exact ⟨fun hg => hagent (hg.2 p rfl).1, e, w.host, (Act.bind_ok hclear).trans hren, h.idle⟩

/-- Either nothing was stopped, or the old agent is out of the way, or its name is left without
a running container. -/
theorem swapOut_spec {fate : Fate} {w : World} {old : Container}
    (hold : w.host.byId old.id = some old) (hagent : old.agent = true)
    (hfresh : w.host.byId fate.newId = none) :
    (fate.stop.applied = false ∧ ∃ e, swapOut fate old w = (.error e, w)) ∨
      (fate.Swaps w.host old ∧ ∃ host, swapOut fate old w = (.ok (), { w with host }) ∧
        Swapped old fate.newId host) ∨
      (fate.stop.applied = true ∧ ¬ fate.Swaps w.host old ∧
        ∃ e host, swapOut fate old w = (.error e, { w with host }) ∧ Idle old.name host) := by
  have heff := stop_effect hold
  have hne : fate.newId ≠ old.id := by
    intro he
    rw [he, hold] at hfresh
    cases hfresh
  have hstopped : Stopped old fate.newId (w.host.setRunning old.id false) := by
    refine ⟨hagent, ?_, ?_, ?_⟩
    · rw [Host.byId_setRunning, if_pos rfl, hold, Option.map_some]
    · rw [named_stopped hold, if_pos rfl]
    · rw [Host.byId_setRunning, if_neg hne, hfresh]
  by_cases hstop : fate.stop = .done
  · have happ : fate.stop.applied = true := by rw [hstop]; rfl
    have hrun : stop fate.stop old.id w =
        (.ok (), { w with host := w.host.setRunning old.id false }) := by
      rw [hstop]
      exact onAgent_done hold hagent heff
    by_cases hlist : fate.listPrevious = .done
    · have hread : listAgents fate.listPrevious { w with host := w.host.setRunning old.id false } =
          (.ok (w.host.setRunning old.id false).listAgents,
            { w with host := w.host.setRunning old.id false }) := by
        rw [hlist]
        exact call_done rfl
      have hprev : (w.host.setRunning old.id false).named (previous old.name) =
          w.host.named (previous old.name) := by
        rw [named_stopped hold, if_neg (previous_ne old.name)]
      have hswap := (Act.bind_ok (f := fun _ => do
        let agents ← listAgents fate.listPrevious
        removeNamed fate.removePrevious (previous old.name) agents
        rename fate.rename old.id (previous old.name)) hrun).trans (Act.bind_ok hread)
      rcases clear_rename (w := { w with host := w.host.setRunning old.id false }) hstopped with
        ⟨hren, hclear, host, hall, hout⟩ | ⟨hnot, e, host, hall, hidle⟩
      · rw [hprev] at hclear
        exact .inr (.inl ⟨⟨hstop, hlist, hren, hclear⟩, host, hswap.trans hall, hout⟩)
      · rw [hprev] at hnot
        exact .inr (.inr ⟨happ, fun hg => hnot hg.2.2, e, host, hswap.trans hall, hidle⟩)
    · have hread : listAgents fate.listPrevious { w with host := w.host.setRunning old.id false } =
          (.error fate.listPrevious.raises, { w with host := w.host.setRunning old.id false }) := by
        rw [listAgents, call_not_done hlist rfl, ite_self]
      exact .inr (.inr ⟨happ, fun hg => hlist hg.2.1, _, _,
        (Act.bind_ok hrun).trans (Act.bind_error hread), hstopped.idle⟩)
  · have hrun : stop fate.stop old.id w = (.error fate.stop.raises,
        { w with host := if fate.stop.applied then w.host.setRunning old.id false else w.host }) :=
      onAgent_not_done hold hagent heff hstop
    cases happ : fate.stop.applied with
    | false =>
      rw [happ] at hrun
      exact .inl ⟨rfl, fate.stop.raises, Act.bind_error hrun⟩
    | true =>
      rw [happ, if_pos rfl] at hrun
      exact .inr (.inr ⟨rfl, fun hg => hstop hg.1, _, _, Act.bind_error hrun, hstopped.idle⟩)

end Updater
