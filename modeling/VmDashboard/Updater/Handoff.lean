import VmDashboard.Machine.System

/-!
# One upgrade between three processes

The agent that hands the request over (`run_control` of `runners/agent/agent.py`),
the updater (`_upgrade`, `_wait_ready`, `_restore` of
`runners/agent-updater/updater.py`) and the agents it starts
(`finish_pending_control`), with the files `request.json`, `status.json` and
`ready` between them and the dashboard's record of the job, read and written one
at a time in any order. Docker's calls succeed, except that a successor may not
be created; what a failing call leaves behind is `Updater.Survival`.
-/

namespace Handoff
open Machine (System)

/-- The version the request names and the versions the two containers report. -/
structure Setup where
  requested : String
  old : String
  new : String

/-- Where the updater is. -/
inductive Stage
  | idle | verifying | pulling | swapping | stopped | created | waiting | inspecting
  | givingUp | restoring | reporting | rolledBack | dropping | done | refused
  deriving DecidableEq

/-- The states of `status.json` for this job. -/
inductive Status
  | verifying | pulling | swapping | waitingReady | done | rolledBack | failed
  deriving DecidableEq

/-- Where an agent process is. -/
inductive Proc
  | down
  /-- in `run_control`, waiting to be stopped -/
  | control
  /-- out of its loop, about to fail the job -/
  | gaveUp
  /-- started, its first lease not yet answered -/
  | booting
  /-- in `finish_pending_control`, with the request read -/
  | read
  | refuses | claims | reports | settled | serving
  deriving DecidableEq

inductive Who
  | old | new
  deriving DecidableEq

def Setup.version (u : Setup) : Who → String
  | .old => u.old
  | .new => u.new

/-- A completion an agent sends. -/
inductive Post
  | completed (version : String)
  | failed
  deriving DecidableEq

inductive Record
  | completed | failed
  deriving DecidableEq

structure State where
  stage : Stage
  old : Proc
  new : Proc
  /-- the successor's container was relaunched -/
  restarted : Bool
  request : Bool
  status : Option Status
  ready : Option String
  posts : List Post
  record : Option Record

def State.proc (s : State) : Who → Proc
  | .old => s.old
  | .new => s.new

def State.setProc (s : State) : Who → Proc → State
  | .old, p => { s with old := p }
  | .new, p => { s with new := p }

inductive Event
  -- the updater
  | accept | pull | refuse | swap | stopOld | cannotCreate | bringUp | wait | look | timeout
  | inspect | stopNew | startOld | report | dropOld
  -- `run_control`
  | giveUp | postFailure
  -- `finish_pending_control`
  | readRequest (who : Who) (stale : Bool)
  | readStatus (who : Who)
  | writeReady (who : Who)
  | post (who : Who)
  | clear (who : Who) (answered : Bool)
  | relaunch (who : Who)
  -- the dashboard
  | deliver (post : Post)
  deriving DecidableEq

/-- What `check_completion` and `complete_job` record of the first completion; a later one is
refused. -/
def recorded (u : Setup) : Option Record → Post → Record
  | some record, _ => record
  | none, .completed version => if version = u.requested then .completed else .failed
  | none, .failed => .failed

def State.step (u : Setup) (s : State) : Event → Option State
  | .accept =>
    if s.stage = .idle ∧ s.request then
      some { s with stage := .verifying, status := some .verifying }
    else none
  | .pull =>
    if s.stage = .verifying then some { s with stage := .pulling, status := some .pulling }
    else none
  | .refuse =>
    if (s.stage = .idle ∧ s.request) ∨ s.stage = .verifying ∨ s.stage = .pulling then
      some { s with stage := .refused, status := some .failed }
    else none
  | .swap =>
    if s.stage = .pulling then some { s with stage := .swapping, status := some .swapping }
    else none
  | .stopOld =>
    if s.stage = .swapping then some { s with stage := .stopped, old := .down } else none
  | .cannotCreate => if s.stage = .stopped then some { s with stage := .restoring } else none
  | .bringUp =>
    if s.stage = .stopped then some { s with stage := .created, new := .booting } else none
  | .wait =>
    if s.stage = .created then some { s with stage := .waiting, status := some .waitingReady }
    else none
  | .look =>
    if s.stage = .waiting then
      match s.ready with
      | none => some { s with stage := .inspecting }
      | some version =>
        some { s with stage := if version = u.requested then .dropping else .givingUp }
    else none
  | .timeout => if s.stage = .waiting then some { s with stage := .givingUp } else none
  | .inspect =>
    if s.stage = .inspecting then
      some { s with stage := if s.restarted then .givingUp else .waiting }
    else none
  | .stopNew =>
    if s.stage = .givingUp then some { s with stage := .restoring, new := .down } else none
  | .startOld =>
    -- the old agent runs before `rolled_back` is written
    if s.stage = .restoring then some { s with stage := .reporting, old := .booting } else none
  | .report =>
    if s.stage = .reporting then some { s with stage := .rolledBack, status := some .rolledBack }
    else none
  | .dropOld =>
    if s.stage = .dropping then some { s with stage := .done, status := some .done } else none
  | .giveUp =>
    -- its own deadline, or the updater's refusal
    if s.old = .control then some { s with old := .gaveUp, request := false } else none
  | .postFailure =>
    if s.old = .gaveUp then some { s with old := .serving, posts := .failed :: s.posts } else none
  | .readRequest who stale =>
    if s.proc who = .booting then
      if s.request then
        if stale then some { s.setProc who .serving with request := false }
        else some (s.setProc who .read)
      else some (s.setProc who .serving)
    else none
  | .readStatus who =>
    if s.proc who = .read then
      some (s.setProc who
        (if s.status = some .rolledBack ∨ s.status = some .failed then .refuses else .claims))
    else none
  | .writeReady who =>
    if s.proc who = .claims then
      some { s.setProc who .reports with ready := some (u.version who) }
    else none
  | .post who =>
    if s.proc who = .refuses then
      some { s.setProc who .settled with posts := .failed :: s.posts }
    else if s.proc who = .reports then
      let post := if u.version who = u.requested then .completed (u.version who) else .failed
      some { s.setProc who .settled with posts := post :: s.posts }
    else none
  | .clear who answered =>
    if s.proc who = .settled then
      some { s.setProc who .serving with request := s.request && !answered }
    else none
  | .relaunch .new =>
    if s.new ≠ .down then some { s with new := .booting, restarted := true } else none
  | .relaunch .old =>
    if s.stage = .reporting ∨ s.stage = .rolledBack then some { s with old := .booting } else none
  | .deliver post =>
    if post ∈ s.posts then
      some { s with posts := s.posts.erase post, record := some (recorded u s.record post) }
    else none

def upgrading (u : Setup) : System State Event := ⟨State.step u⟩

/-- The request is written, and the old agent waits to be stopped. -/
def start : State := ⟨.idle, .control, .down, false, true, none, none, [], none⟩

/-! ### At rest -/

/-- Every process has come to rest, and every completion is delivered. -/
def State.AtRest (s : State) : Prop :=
  (s.stage = .idle ∧ s.request = false ∨ s.stage = .refused ∨ s.stage = .rolledBack ∨
    s.stage = .done) ∧
  (s.old = .down ∨ s.old = .serving) ∧ (s.new = .down ∨ s.new = .serving) ∧ s.posts = []

/-- A running agent is the requested version. -/
def State.RunsRequested (u : Setup) (s : State) : Prop :=
  (s.old ≠ .down ∧ u.old = u.requested) ∨ (s.new ≠ .down ∧ u.new = u.requested)

def State.RunsOld (s : State) : Prop := s.old ≠ .down ∧ s.new = .down

/-- The record tells what runs. -/
def State.Truthful (u : Setup) (s : State) : Prop :=
  (s.record = some .completed → s.RunsRequested u) ∧ (s.record = some .failed → s.RunsOld)

/-- The completion of the job is recorded or on its way. -/
def State.CompletionSent (s : State) : Prop :=
  (∃ post ∈ s.posts, post ≠ .failed) ∨ s.record = some .completed

def State.FailureSent (s : State) : Prop := .failed ∈ s.posts ∨ s.record = some .failed

/-- The request moves to a version that the successor has and the old agent has not. -/
def Setup.Moves (u : Setup) : Prop := u.new = u.requested ∧ u.old ≠ u.requested

/-- The updater does not give up a successor of the requested version that has completed the
job, and such a successor does not complete it once it is given up. -/
def Settled (u : Setup) (s : State) : Event → Prop
  | .timeout => u.Moves → ¬s.CompletionSent
  | .inspect => u.Moves → s.restarted = true → ¬s.CompletionSent
  | .post .new => u.Moves → s.stage ≠ .givingUp
  | _ => True

/-! ### The invariant -/

inductive Phase
  | before | between | forward | givingUp | back
  deriving DecidableEq

def Stage.phase : Stage → Phase
  | .idle | .verifying | .pulling | .swapping | .refused => .before
  | .stopped | .restoring => .between
  | .created | .waiting | .inspecting | .dropping | .done => .forward
  | .givingUp => .givingUp
  | .reporting | .rolledBack => .back

def Proc.handsOver : Proc → Bool
  | .control | .gaveUp | .serving => true
  | _ => false

/-- A process the updater started. -/
def Proc.started : Proc → Bool
  | .down | .control | .gaveUp => false
  | _ => true

/-- Which of the two agents run in a phase. -/
def runs : Phase → Proc → Proc → Bool
  | .before, old, new => old.handsOver && new = .down
  | .between, old, new => old = .down && new = .down
  | .forward, old, new | .givingUp, old, new => old = .down && new.started && new ≠ .refuses
  | .back, old, new => old.started && new = .down

/-- In `finish_pending_control`. -/
def Proc.finishing : Proc → Bool
  | .booting | .read | .refuses | .claims | .reports | .settled => true
  | _ => false

structure Cast (s : State) : Prop where
  runs : runs s.stage.phase s.old s.new = true
  status : s.stage ≠ .rolledBack → s.stage ≠ .refused →
    s.status ≠ some .rolledBack ∧ s.status ≠ some .failed

theorem finishing_old {phase : Phase} {p new : Proc} (h : runs phase p new = true)
    (hp : p.finishing = true) : phase = .back ∧ new = .down := by
  cases phase <;> cases p <;> simp_all [runs, Proc.finishing, Proc.handsOver]

theorem finishing_new {phase : Phase} {old p : Proc} (h : runs phase old p = true)
    (hp : p ≠ .down) : old = .down ∧ (phase = .forward ∨ phase = .givingUp) := by
  cases phase <;> simp_all [runs]

theorem handing {phase : Phase} {old new : Proc} (h : runs phase old new = true)
    (hold : old = .control ∨ old = .gaveUp) : phase = .before ∧ new = .down := by
  rcases hold with rfl | rfl <;> cases phase <;> simp_all [runs, Proc.handsOver, Proc.started]

theorem Stage.givingUp_of_phase {stage : Stage} (h : stage.phase = .givingUp) :
    stage = .givingUp := by
  cases stage <;> simp_all [Stage.phase]

theorem Cast.moved {s : State} (hI : Cast s) (who : Who) (q : Proc)
    (hp : (s.proc who).finishing = true) (hq : q.started = true) (hr : who = .new → q ≠ .refuses) :
    Cast (s.setProc who q) := by
  cases who with
  | old =>
    obtain ⟨hphase, hnew⟩ := finishing_old hI.runs hp
    exact ⟨by simp [State.setProc, Handoff.runs, hphase, hnew, hq], hI.status⟩
  | new =>
    have hup : s.new ≠ .down := fun hdown => by simp [State.proc, hdown, Proc.finishing] at hp
    obtain ⟨hold, hphase⟩ := finishing_new hI.runs hup
    refine ⟨?_, hI.status⟩
    rcases hphase with hphase | hphase <;> simp [State.setProc, Handoff.runs, hphase, hold, hq, hr rfl]

theorem cast_step {u : Setup} {s t : State} {event : Event} (hI : Cast s)
    (h : s.step u event = some t) : Cast t := by
  have hruns := hI.runs
  have hstatus := hI.status
  cases event with
  | accept | pull | swap | wait | timeout | report | dropOld | stopOld | cannotCreate
  | bringUp | stopNew | startOld =>
    simp only [State.step, Option.ite_none_right_eq_some, Option.some_inj] at h
    obtain ⟨hstage, rfl⟩ := h
    constructor <;> simp_all [Handoff.runs, Stage.phase, Proc.started]
  | refuse =>
    simp only [State.step, Option.ite_none_right_eq_some, Option.some_inj] at h
    obtain ⟨hstage, rfl⟩ := h
    rcases hstage with ⟨hstage, -⟩ | hstage | hstage <;> constructor <;>
      simp_all [Handoff.runs, Stage.phase]
  | inspect =>
    simp only [State.step, Option.ite_none_right_eq_some, Option.some_inj] at h
    obtain ⟨hstage, rfl⟩ := h
    cases hrestarted : s.restarted <;> constructor <;> simp_all [Handoff.runs, Stage.phase]
  | look =>
    simp only [State.step, Option.ite_none_right_eq_some] at h
    obtain ⟨hstage, h⟩ := h
    cases hready : s.ready with
    | none =>
      obtain rfl := Option.some.inj (hready ▸ h)
      constructor <;> simp_all [Handoff.runs, Stage.phase]
    | some version =>
      obtain rfl := Option.some.inj (hready ▸ h)
      by_cases hv : version = u.requested <;> constructor <;> simp_all [Handoff.runs, Stage.phase]
  | giveUp | postFailure =>
    simp only [State.step, Option.ite_none_right_eq_some, Option.some_inj] at h
    obtain ⟨hold, rfl⟩ := h
    refine ⟨?_, hstatus⟩
    cases hphase : s.stage.phase <;> simp_all [Handoff.runs, Proc.handsOver, Proc.started]
  | readRequest who stale =>
    simp only [State.step, Option.ite_none_right_eq_some] at h
    obtain ⟨hat, h⟩ := h
    have hm (q : Proc) := hI.moved who q (by simp [hat, Proc.finishing])
    split_ifs at h <;> obtain rfl := Option.some.inj h
    · exact ⟨(hm .serving rfl (by simp)).runs, (hm .serving rfl (by simp)).status⟩
    · exact hm .read rfl (by simp)
    · exact hm .serving rfl (by simp)
  | readStatus who =>
    simp only [State.step, Option.ite_none_right_eq_some, Option.some_inj] at h
    obtain ⟨hat, rfl⟩ := h
    have hfin : (s.proc who).finishing = true := by simp [hat, Proc.finishing]
    refine hI.moved who _ hfin (by split_ifs <;> rfl) fun hwho => ?_
    subst hwho
    -- the successor runs only while no terminal state is written
    have hphase := (finishing_new hI.runs (fun hdown => by
      simp [State.proc, hdown] at hat)).2
    have hopen := hstatus (fun hs => by simp [hs, Stage.phase] at hphase)
      (fun hs => by simp [hs, Stage.phase] at hphase)
    simp [hopen.1, hopen.2]
  | writeReady who =>
    simp only [State.step, Option.ite_none_right_eq_some, Option.some_inj] at h
    obtain ⟨hat, rfl⟩ := h
    have hm := hI.moved who .reports (by simp [hat, Proc.finishing]) rfl (by simp)
    exact ⟨hm.runs, hm.status⟩
  | post who =>
    simp only [State.step] at h
    split_ifs at h with hat hat
    all_goals
      obtain rfl := Option.some.inj h
      have hm := hI.moved who .settled (by simp [hat, Proc.finishing]) rfl (by simp)
      exact ⟨hm.runs, hm.status⟩
  | clear who answered =>
    simp only [State.step, Option.ite_none_right_eq_some, Option.some_inj] at h
    obtain ⟨hat, rfl⟩ := h
    have hm := hI.moved who .serving (by simp [hat, Proc.finishing]) rfl (by simp)
    exact ⟨hm.runs, hm.status⟩
  | relaunch who =>
    cases who with
    | new =>
      simp only [State.step, Option.ite_none_right_eq_some, Option.some_inj] at h
      obtain ⟨hup, rfl⟩ := h
      obtain ⟨hold, hphase⟩ := finishing_new hI.runs hup
      refine ⟨?_, hstatus⟩
      rcases hphase with hphase | hphase <;> simp [Handoff.runs, hphase, hold, Proc.started]
    | old =>
      simp only [State.step, Option.ite_none_right_eq_some, Option.some_inj] at h
      obtain ⟨hstage, rfl⟩ := h
      refine ⟨?_, hstatus⟩
      rcases hstage with hstage | hstage <;> simp_all [Handoff.runs, Stage.phase, Proc.started]
  | deliver post =>
    simp only [State.step, Option.ite_none_right_eq_some, Option.some_inj] at h
    obtain ⟨-, rfl⟩ := h
    exact ⟨hruns, hstatus⟩

/-- What the files and the posts say of the two versions, however the steps interleave. -/
structure Papers (u : Setup) (s : State) : Prop where
  cast : Cast s
  blank : s.stage.phase = .before ∨ s.stage = .stopped → s.ready = none
  ready : s.stage.phase ≠ .back → s.ready = none ∨ s.ready = some u.new
  posted : ∀ version, .completed version ∈ s.posts → version = u.requested
  -- the job failed under the updater: `request.json` went first, so no successor sees it
  failed : s.old = .gaveUp ∨ s.FailureSent → s.stage.phase ≠ .back → s.stage ≠ .refused →
    u.new = u.requested →
      s.request = false ∧ s.ready = none ∧ (s.new = .down ∨ s.new = .booting ∨ s.new = .serving)
  dropped : s.stage = .dropping ∨ s.stage = .done → u.new = u.requested ∧ ¬s.FailureSent

theorem Cast.back {s : State} {p : Proc} (hI : Cast s) (hat : s.proc .old = p)
    (hp : p.finishing = true) : s.stage.phase = .back :=
  (finishing_old hI.runs ((congrArg Proc.finishing hat).trans hp)).1

theorem Cast.up {s : State} (hI : Cast s) (hup : s.new ≠ .down) :
    s.stage.phase = .forward ∨ s.stage.phase = .givingUp := (finishing_new hI.runs hup).2

theorem FailureSent.of_deliver {u : Setup} {s : State} {post : Post} (hpost : post ∈ s.posts)
    (hposted : ∀ version, .completed version ∈ s.posts → version = u.requested)
    (h : State.FailureSent
      { s with posts := s.posts.erase post, record := some (recorded u s.record post) }) :
    s.FailureSent := by
  rcases h with h | h
  · exact .inl (List.mem_of_mem_erase h)
  · cases hrecord : s.record with
    | some record =>
      rw [hrecord] at h
      exact .inr (hrecord.trans h)
    | none =>
      rw [hrecord] at h
      cases post with
      | failed => exact .inl hpost
      | completed version => simp [recorded, hposted version hpost] at h

/-- After the restore nothing more is said of the files. -/
theorem Cast.papers {u : Setup} {s : State} (hI : Cast s) (hphase : s.stage.phase = .back)
    (hposted : ∀ version, .completed version ∈ s.posts → version = u.requested) : Papers u s where
  cast := hI
  blank h := by
    rcases h with h | h
    · simp [hphase] at h
    · simp [h, Stage.phase] at hphase
  ready h := absurd hphase h
  posted := hposted
  failed _ h := absurd hphase h
  dropped h := by rcases h with h | h <;> simp [h, Stage.phase] at hphase

theorem papers_step {u : Setup} {s t : State} {event : Event} (hI : Papers u s)
    (h : s.step u event = some t) : Papers u t := by
  have hcast := cast_step hI.cast h
  obtain ⟨hI, hblank, hready, hposted, hfailed, hdropped⟩ := hI
  have hruns := hI.runs
  cases event with
  | accept | pull | swap | wait | timeout | report | dropOld | stopOld | cannotCreate
  | bringUp | stopNew | startOld =>
    simp only [State.step, Option.ite_none_right_eq_some, Option.some_inj] at h
    obtain ⟨hstage, rfl⟩ := h
    refine ⟨hcast, ?_, ?_, hposted, ?_, ?_⟩ <;> clear hcast hI hposted <;>
      simp_all [Stage.phase, State.FailureSent, Handoff.runs]
  | refuse =>
    simp only [State.step, Option.ite_none_right_eq_some, Option.some_inj] at h
    obtain ⟨hstage, rfl⟩ := h
    have hphase : s.stage.phase = .before := by
      rcases hstage with ⟨hstage, -⟩ | hstage | hstage <;> simp [hstage, Stage.phase]
    exact ⟨hcast, fun _ => hblank (.inl hphase), fun _ => .inl (hblank (.inl hphase)), hposted,
      by simp, by simp⟩
  | inspect =>
    simp only [State.step, Option.ite_none_right_eq_some, Option.some_inj] at h
    obtain ⟨hstage, rfl⟩ := h
    by_cases hrestarted : s.restarted = true <;> refine ⟨hcast, ?_, ?_, hposted, ?_, ?_⟩ <;>
      clear hcast hI hposted hruns <;> simp_all [Stage.phase, State.FailureSent]
  | look =>
    simp only [State.step, Option.ite_none_right_eq_some] at h
    obtain ⟨hstage, h⟩ := h
    cases hready : s.ready with
    | none =>
      obtain rfl := Option.some.inj (hready ▸ h)
      refine ⟨hcast, ?_, ?_, hposted, ?_, ?_⟩ <;> clear hcast hI hposted hruns <;>
        simp_all [Stage.phase, State.FailureSent]
    | some version =>
      obtain rfl := Option.some.inj (hready ▸ h)
      by_cases hv : version = u.requested <;> refine ⟨hcast, ?_, ?_, hposted, ?_, ?_⟩ <;>
        clear hcast hI hposted hruns <;> simp_all [Stage.phase, State.FailureSent]
  | giveUp =>
    simp only [State.step, Option.ite_none_right_eq_some, Option.some_inj] at h
    obtain ⟨hold, rfl⟩ := h
    obtain ⟨hphase, hnew⟩ := handing hruns (.inl hold)
    exact ⟨hcast, hblank, hready, hposted,
      fun _ _ _ _ => ⟨rfl, hblank (.inl hphase), .inl hnew⟩, hdropped⟩
  | postFailure =>
    simp only [State.step, Option.ite_none_right_eq_some, Option.some_inj] at h
    obtain ⟨hold, rfl⟩ := h
    obtain ⟨hphase, -⟩ := handing hruns (.inr hold)
    refine ⟨hcast, hblank, hready, ?_, fun _ => hfailed (.inl hold), ?_⟩
    · simpa using hposted
    · rintro (hstage | hstage) <;> · rw [show s.stage = _ from hstage] at hphase; cases hphase
  | readRequest who stale =>
    simp only [State.step, Option.ite_none_right_eq_some] at h
    obtain ⟨hat, h⟩ := h
    cases who with
    | old =>
      have hphase := hI.back hat rfl
      split_ifs at h <;> obtain rfl := Option.some.inj h <;> exact hcast.papers hphase hposted
    | new =>
      have hat : s.new = .booting := hat
      split_ifs at h <;> obtain rfl := Option.some.inj h <;>
        refine ⟨hcast, hblank, hready, hposted, fun hf hp hr hv => ?_, hdropped⟩ <;>
        clear hcast hI hposted hruns <;> simp_all [State.setProc, State.FailureSent]
  | readStatus who =>
    simp only [State.step, Option.ite_none_right_eq_some, Option.some_inj] at h
    obtain ⟨hat, rfl⟩ := h
    cases who with
    | old => exact hcast.papers (hI.back hat rfl) hposted
    | new =>
      have hat : s.new = .read := hat
      refine ⟨hcast, hblank, hready, hposted, fun hf hp hr hv => ?_, hdropped⟩
      clear hcast hI hposted hruns
      simp_all [State.setProc, State.FailureSent]
  | writeReady who =>
    simp only [State.step, Option.ite_none_right_eq_some, Option.some_inj] at h
    obtain ⟨hat, rfl⟩ := h
    cases who with
    | old => exact hcast.papers (hI.back hat rfl) hposted
    | new =>
      have hat : s.new = .claims := hat
      have hphase := hI.up (by simp [hat])
      refine ⟨hcast, fun hb => ?_, fun _ => .inr rfl, hposted, fun hf hp hr hv => ?_, hdropped⟩
      · have hb : s.stage.phase = .before ∨ s.stage = .stopped := hb
        rcases hb with hb | hb
        · simp [hb] at hphase
        · simp [hb, Stage.phase] at hphase
      · have hleft := hfailed hf hp hr hv
        simp [hat] at hleft
  | post who =>
    simp only [State.step] at h
    cases who with
    | old =>
      split_ifs at h with hat hat hv <;> obtain rfl := Option.some.inj h
      · exact hcast.papers (hI.back hat rfl) (by simpa using hposted)
      · exact hcast.papers (hI.back hat rfl) (by simpa [hv] using hposted)
      · exact hcast.papers (hI.back hat rfl) (by simpa using hposted)
    | new =>
      split_ifs at h with hat hat hv <;> obtain rfl := Option.some.inj h
      · have hat : s.new = .refuses := hat
        cases hphase : s.stage.phase <;> simp [hphase, hat, Handoff.runs, Proc.started] at hruns
      · have hat : s.new = .reports := hat
        refine ⟨hcast, hblank, hready, by simpa [hv] using hposted, fun hf hp hr hv => ?_, ?_⟩
        · have hf : s.old = .gaveUp ∨ s.FailureSent := by
            simpa [State.FailureSent, State.setProc] using hf
          have hleft := hfailed hf hp hr hv
          simp [hat] at hleft
        · simpa [State.FailureSent, State.setProc] using hdropped
      · refine ⟨hcast, hblank, hready, by simpa using hposted, fun _ _ _ h => absurd h hv, ?_⟩
        exact fun hd => absurd (hdropped hd).1 hv
  | clear who answered =>
    simp only [State.step, Option.ite_none_right_eq_some, Option.some_inj] at h
    obtain ⟨hat, rfl⟩ := h
    cases who with
    | old => exact hcast.papers (hI.back hat rfl) hposted
    | new =>
      have hat : s.new = .settled := hat
      refine ⟨hcast, hblank, hready, hposted, fun hf hp hr hv => ?_, hdropped⟩
      have hleft := hfailed hf hp hr hv
      simp [hat] at hleft
  | relaunch who =>
    cases who with
    | old =>
      simp only [State.step, Option.ite_none_right_eq_some, Option.some_inj] at h
      obtain ⟨hstage, rfl⟩ := h
      exact hcast.papers (by rcases hstage with hs | hs <;> simp [hs, Stage.phase]) hposted
    | new =>
      simp only [State.step, Option.ite_none_right_eq_some, Option.some_inj] at h
      obtain ⟨hup, rfl⟩ := h
      refine ⟨hcast, hblank, hready, hposted, fun hf hp hr hv => ?_, hdropped⟩
      obtain ⟨hrequest, hnone, -⟩ := hfailed hf hp hr hv
      exact ⟨hrequest, hnone, .inr (.inl rfl)⟩
  | deliver post =>
    simp only [State.step, Option.ite_none_right_eq_some, Option.some_inj] at h
    obtain ⟨hpost, rfl⟩ := h
    refine ⟨hcast, hblank, hready, fun version hm => hposted version (List.mem_of_mem_erase hm),
      fun hf hp hr hv => hfailed ?_ hp hr hv, fun hd => ⟨(hdropped hd).1, fun hf => ?_⟩⟩
    · exact hf.imp_right (FailureSent.of_deliver hpost hposted)
    · exact (hdropped hd).2 (FailureSent.of_deliver hpost hposted hf)

/-! ### The record -/

/-- A completion that is sent is true of what runs, or will run. -/
def Kept (u : Setup) (s : State) : Prop :=
  s.CompletionSent → u.old = u.requested ∨ (u.new = u.requested ∧ s.stage.phase = .forward)

theorem CompletionSent.of_deliver {u : Setup} {s : State} {post : Post} (hpost : post ∈ s.posts)
    (h : State.CompletionSent
      { s with posts := s.posts.erase post, record := some (recorded u s.record post) }) :
    s.CompletionSent := by
  rcases h with ⟨sent, h, hsent⟩ | h
  · exact .inl ⟨sent, List.mem_of_mem_erase h, hsent⟩
  · cases hrecord : s.record with
    | some record =>
      rw [hrecord] at h
      exact .inr (hrecord.trans h)
    | none =>
      rw [hrecord] at h
      cases post with
      | failed => simp [recorded] at h
      | completed version => exact .inl ⟨_, hpost, by simp⟩

theorem kept_step {u : Setup} {s t : State} {event : Event} (hP : Papers u s) (hK : Kept u s)
    (hS : Settled u s event) (h : s.step u event = some t) : Kept u t := by
  cases event with
  | accept | pull | swap | wait | report | dropOld | stopOld | cannotCreate | bringUp | stopNew
  | startOld =>
    simp only [State.step, Option.ite_none_right_eq_some, Option.some_inj] at h
    obtain ⟨hstage, rfl⟩ := h
    intro hsent
    have hkept := hK hsent
    simp_all [Stage.phase]
  | refuse =>
    simp only [State.step, Option.ite_none_right_eq_some, Option.some_inj] at h
    obtain ⟨hstage, rfl⟩ := h
    intro hsent
    have hkept := hK hsent
    rcases hstage with ⟨hstage, -⟩ | hstage | hstage <;> simp_all [Stage.phase]
  | timeout =>
    simp only [State.step, Option.ite_none_right_eq_some, Option.some_inj] at h
    obtain ⟨hstage, rfl⟩ := h
    intro hsent
    by_cases hold : u.old = u.requested
    · exact .inl hold
    · obtain ⟨hnew, -⟩ := (hK hsent).resolve_left hold
      exact absurd hsent (hS ⟨hnew, hold⟩)
  | inspect =>
    simp only [State.step, Option.ite_none_right_eq_some, Option.some_inj] at h
    obtain ⟨hstage, rfl⟩ := h
    intro hsent
    by_cases hold : u.old = u.requested
    · exact .inl hold
    · obtain ⟨hnew, -⟩ := (hK hsent).resolve_left hold
      by_cases hrestarted : s.restarted = true
      · exact absurd hsent (hS ⟨hnew, hold⟩ hrestarted)
      · exact .inr ⟨hnew, by simp [hrestarted, Stage.phase]⟩
  | look =>
    simp only [State.step, Option.ite_none_right_eq_some] at h
    obtain ⟨hstage, h⟩ := h
    cases hready : s.ready with
    | none =>
      obtain rfl := Option.some.inj (hready ▸ h)
      exact fun hsent => (hK hsent).imp_right fun hnew => ⟨hnew.1, rfl⟩
    | some version =>
      obtain rfl := Option.some.inj (hready ▸ h)
      refine fun hsent => (hK hsent).imp_right fun hnew => ⟨hnew.1, ?_⟩
      -- only the successor has written `ready` by now
      have hwrote := hP.ready (by simp [hnew.2])
      have hv : version = u.requested := by simpa [hready, hnew.1] using hwrote
      simp [hv, Stage.phase]
  | giveUp =>
    simp only [State.step, Option.ite_none_right_eq_some, Option.some_inj] at h
    obtain ⟨-, rfl⟩ := h
    exact hK
  | postFailure =>
    simp only [State.step, Option.ite_none_right_eq_some, Option.some_inj] at h
    obtain ⟨-, rfl⟩ := h
    exact fun hsent => hK (by simpa [State.CompletionSent] using hsent)
  | readRequest who stale =>
    simp only [State.step, Option.ite_none_right_eq_some] at h
    obtain ⟨-, h⟩ := h
    cases who <;> split_ifs at h <;> obtain rfl := Option.some.inj h <;> exact hK
  | readStatus who | writeReady who | clear who answered =>
    simp only [State.step, Option.ite_none_right_eq_some, Option.some_inj] at h
    obtain ⟨-, rfl⟩ := h
    cases who <;> exact hK
  | post who =>
    simp only [State.step] at h
    cases who with
    | old =>
      split_ifs at h with hat hat hv <;> obtain rfl := Option.some.inj h
      · exact fun hsent => hK (by simpa [State.CompletionSent, State.setProc] using hsent)
      · exact fun _ => .inl hv
      · exact fun hsent => hK (by simpa [State.CompletionSent, State.setProc] using hsent)
    | new =>
      split_ifs at h with hat hat hv <;> obtain rfl := Option.some.inj h
      · exact fun hsent => hK (by simpa [State.CompletionSent, State.setProc] using hsent)
      · intro _
        by_cases hold : u.old = u.requested
        · exact .inl hold
        · have hat : s.new = .reports := hat
          have hphase := (hP.cast.up (by simp [hat])).resolve_right fun hgiving =>
            hS ⟨hv, hold⟩ (Stage.givingUp_of_phase hgiving)
          exact .inr ⟨hv, hphase⟩
      · exact fun hsent => hK (by simpa [State.CompletionSent, State.setProc] using hsent)
  | relaunch who =>
    cases who <;>
    · simp only [State.step, Option.ite_none_right_eq_some, Option.some_inj] at h
      obtain ⟨-, rfl⟩ := h
      exact hK
  | deliver post =>
    simp only [State.step, Option.ite_none_right_eq_some, Option.some_inj] at h
    obtain ⟨hpost, rfl⟩ := h
    exact fun hsent => hK (CompletionSent.of_deliver hpost hsent)

theorem papers_start (u : Setup) : Papers u start where
  cast := ⟨rfl, fun _ _ => ⟨by simp [start], by simp [start]⟩⟩
  blank _ := rfl
  ready _ := .inl rfl
  posted := by simp [start]
  failed := by simp [start, State.FailureSent]
  dropped := by simp [start]

theorem truthful_of_rest {u : Setup} {s : State} (hP : Papers u s) (hK : Kept u s)
    (hrest : s.AtRest) : s.Truthful u := by
  obtain ⟨hstage, hold, hnew, hposts⟩ := hrest
  have hruns := hP.cast.runs
  constructor
  · intro hrecord
    rcases hK (.inr hrecord) with hv | ⟨hv, hphase⟩
    · rcases hstage with ⟨hs, -⟩ | hs | hs | hs
      · refine .inl ⟨fun hdown => ?_, hv⟩
        simp [hs, hdown, Handoff.runs, Stage.phase, Proc.handsOver] at hruns
      · refine .inl ⟨fun hdown => ?_, hv⟩
        simp [hs, hdown, Handoff.runs, Stage.phase, Proc.handsOver] at hruns
      · refine .inl ⟨fun hdown => ?_, hv⟩
        simp [hs, hdown, Handoff.runs, Stage.phase, Proc.started] at hruns
      · refine .inr ⟨fun hdown => ?_, (hP.dropped (.inr hs)).1⟩
        simp [hs, hdown, Handoff.runs, Stage.phase, Proc.started] at hruns
    · refine .inr ⟨fun hdown => ?_, hv⟩
      simp [hphase, hdown, Handoff.runs, Proc.started] at hruns
  · intro hrecord
    rcases hstage with ⟨hs, -⟩ | hs | hs | hs
    · cases hold' : s.old <;> simp_all [Handoff.runs, Stage.phase, State.RunsOld, Proc.handsOver]
    · cases hold' : s.old <;> simp_all [Handoff.runs, Stage.phase, State.RunsOld, Proc.handsOver]
    · cases hold' : s.old <;> simp_all [Handoff.runs, Stage.phase, State.RunsOld, Proc.started]
    · exact absurd (.inr hrecord) (hP.dropped (.inr hs)).2

/-- However the updater, the two agents and the dashboard interleave: once all are at rest, the
record tells what runs, unless the updater gives up a successor that completes the job. -/
theorem record_tells (u : Setup) (events : List Event)
    (h : (upgrading u).Along (Settled u) start events) :
    (upgrading u).Always (fun s => s.AtRest → s.Truthful u) start events := by
  have hboth : (upgrading u).Always (fun s => Papers u s ∧ Kept u s) start events :=
    (upgrading u).always_of_along
      (fun _ _ _ hI hS hstep => ⟨papers_step hI.1 hstep, kept_step hI.1 hI.2 hS hstep⟩)
      ⟨papers_start u, by simp [Kept, start, State.CompletionSent]⟩ h
  exact (upgrading u).always_mono (fun _ hI hrest => truthful_of_rest hI.1 hI.2 hrest) hboth

instance (s : State) : Decidable s.CompletionSent :=
  inferInstanceAs (Decidable (_ ∨ _))

instance (u : Setup) : Decidable u.Moves := inferInstanceAs (Decidable (_ ∧ _))

instance (s : State) : Decidable s.AtRest := by unfold State.AtRest; infer_instance

instance (u : Setup) (s : State) : Decidable (s.Truthful u) := by
  unfold State.Truthful State.RunsRequested State.RunsOld; infer_instance

instance (u : Setup) (s : State) : (event : Event) → Decidable (Settled u s event)
  | .timeout => inferInstanceAs (Decidable (_ → _))
  | .inspect => inferInstanceAs (Decidable (_ → _ → _))
  | .post .new => inferInstanceAs (Decidable (_ → _))
  | .post .old | .accept | .pull | .refuse | .swap | .stopOld | .cannotCreate | .bringUp | .wait
  | .look | .stopNew | .startOld | .report | .dropOld | .giveUp | .postFailure | .readRequest _ _
  | .readStatus _ | .writeReady _ | .clear _ _ | .relaunch _ | .deliver _ => isTrue trivial

/- An upgrade of 1.1.0 to 1.2.0. -/

def sample : Setup := ⟨"1.2.0", "1.1.0", "1.2.0"⟩

def swapped : List Event := [.accept, .pull, .swap, .stopOld, .bringUp, .wait]

/-- The successor is ready in time. -/
def inTime : List Event :=
  swapped ++ [.look, .readRequest .new false, .readStatus .new, .writeReady .new, .inspect, .look,
    .post .new, .dropOld, .clear .new true, .deliver (.completed "1.2.0")]

/-- The successor completes the job after the updater's last look at `ready`. -/
def afterTheLastLook : List Event :=
  swapped ++ [.look, .inspect, .readRequest .new false, .readStatus .new, .writeReady .new,
    .post .new, .timeout, .stopNew, .startOld, .deliver (.completed "1.2.0"), .report,
    .readRequest .old false, .readStatus .old, .post .old, .deliver .failed, .clear .old true]

theorem tells_in_time :
    ((upgrading sample).exec start inTime).any
      (fun s => s.AtRest && s.record = some .completed && s.new = .serving) = true ∧
    (upgrading sample).Always (fun s => s.AtRest → s.Truthful sample) start inTime :=
  ⟨by decide +kernel, record_tells sample inTime (by decide +kernel)⟩

theorem completed_rolled_back : ¬ ∀ u events,
    (upgrading u).Always (fun s => s.AtRest → s.Truthful u) start events := by
  intro h
  have hrun : ¬ (upgrading sample).Always (fun s => s.AtRest → s.Truthful sample) start
      afterTheLastLook := by decide +kernel
  exact hrun (h sample afterTheLastLook)

end Handoff
