import VmDashboard.Agent.Redaction
import VmDashboard.LiveOutput.JobLogs

/-!
# The reporter of a job (`runners/agent/agent.py`)

The thread of the job emits lines and the flush timer drains them, at most 500 at a time. `stop`
waits five seconds for the timer and flushes once more.
-/

namespace LiveOutput
open Machine (System)

/-- The thread of `_loop`. A batch it holds is taken from the buffer and not sent yet. -/
inductive Timer
  /-- In a wait that began before `_stop` was set; it can still time out after that. -/
  | waiting
  | woken
  | holding (batch : List String)
  | finished
  deriving DecidableEq

/-- The thread that runs the job and calls `stop`. -/
inductive Worker
  | running
  | joining
  | joined
  | holding (batch : List String)
  | returned
  deriving DecidableEq

/-- `emitted` is what `emit` was given, as it goes into the buffer. -/
structure State where
  lines : List String
  timer : Timer
  worker : Worker
  sent : List (List String)
  emitted : List String
  deriving DecidableEq

def State.start : State := ⟨[], .waiting, .running, [], []⟩

/-- `str(line)[:8000]` of the redacted line. -/
def cut (line : String) : String := String.ofList (line.toList.take 8000)

/-- `if batch: self.dashboard.logs(self.job_id, batch)` -/
def State.post (s : State) (batch : List String) : State :=
  if batch = [] then s else { s with sent := s.sent ++ [batch] }

inductive Event
  /-- With the credentials held at that moment. -/
  | emit (held : List String) (line : String)
  | wake
  | take
  | post
  | exit
  | stop
  | join
  /-- `join(timeout=5)` gave up. -/
  | joinTimeout
  | finalTake
  | finalPost

def State.step (s : State) : Event → Option State
  | .emit held line =>
    if s.worker = .running then
      let line := cut (Redaction.redact held line)
      some { s with lines := s.lines ++ [line], emitted := s.emitted ++ [line] }
    else none
  | .wake => if s.timer = .waiting then some { s with timer := .woken } else none
  | .take =>
    if s.timer = .woken then
      some { s with timer := .holding (s.lines.take 500), lines := s.lines.drop 500 }
    else none
  | .post =>
    match s.timer with
    | .holding batch =>
      some { s.post batch with timer := if s.worker = .running then .waiting else .finished }
    | _ => none
  | .exit =>
    if s.timer = .waiting ∧ s.worker ≠ .running then some { s with timer := .finished } else none
  | .stop => if s.worker = .running then some { s with worker := .joining } else none
  | .join =>
    if s.worker = .joining ∧ s.timer = .finished then some { s with worker := .joined } else none
  | .joinTimeout =>
    if s.worker = .joining ∧ s.timer ≠ .finished then some { s with worker := .joined } else none
  | .finalTake =>
    if s.worker = .joined then
      some { s with worker := .holding (s.lines.take 500), lines := s.lines.drop 500 }
    else none
  | .finalPost =>
    match s.worker with
    | .holding batch => some { s.post batch with worker := .returned }
    | _ => none

def reporter : System State Event := ⟨State.step⟩

/-- By the time `stop` has returned. -/
def Lossless (s : State) : Prop := s.worker = .returned → s.sent.flatten = s.emitted

instance (s : State) : Decidable (Lossless s) :=
  inferInstanceAs (Decidable (s.worker = .returned → s.sent.flatten = s.emitted))

def Timer.held : Timer → List String
  | .holding batch => batch
  | _ => []

def Worker.held : Worker → List String
  | .holding batch => batch
  | _ => []

/-- The last flush takes all there is, and nothing of the timer's is unsent when it is sent. -/
def Clear (s : State) : Event → Prop
  | .finalTake => s.lines.length ≤ 500
  | .finalPost => s.timer.held = []
  | _ => True

instance (s : State) (event : Event) : Decidable (Clear s event) := by
  cases event <;> unfold Clear <;> infer_instance

/-- The last flush has taken its batch. -/
def Worker.draining : Worker → Prop
  | .holding _ => True
  | .returned => True
  | _ => False

structure Inv (s : State) : Prop where
  accounted : s.sent.flatten ++ s.timer.held ++ s.worker.held ++ s.lines = s.emitted
  drained : s.worker.draining → s.lines = []
  sent : s.worker = .returned → s.timer.held = []

theorem Inv.start : Inv State.start := by
  refine ⟨rfl, nofun, nofun⟩

theorem Inv.lossless {s : State} (h : Inv s) : Lossless s := by
  intro hreturned
  have hlines : s.lines = [] := h.drained (by rw [hreturned]; trivial)
  have haccounted := h.accounted
  rw [h.sent hreturned, hlines, hreturned] at haccounted
  simpa [Worker.held] using haccounted

@[simp] theorem State.post_flatten (s : State) (batch : List String) :
    (s.post batch).sent.flatten = s.sent.flatten ++ batch := by
  unfold State.post
  split
  next hnil => rw [hnil, List.append_nil]
  next => simp

@[simp] theorem State.post_lines (s : State) (batch : List String) :
    (s.post batch).lines = s.lines := by
  unfold State.post
  split <;> rfl

@[simp] theorem State.post_emitted (s : State) (batch : List String) :
    (s.post batch).emitted = s.emitted := by
  unfold State.post
  split <;> rfl

@[simp] theorem State.post_worker (s : State) (batch : List String) :
    (s.post batch).worker = s.worker := by
  unfold State.post
  split <;> rfl

@[simp] theorem State.post_timer (s : State) (batch : List String) :
    (s.post batch).timer = s.timer := by
  unfold State.post
  split <;> rfl

theorem Inv.emit {s : State} (h : Inv s) (hrunning : s.worker = .running) (line : String) :
    Inv { s with lines := s.lines ++ [line], emitted := s.emitted ++ [line] } := by
  refine ⟨?_, ?_, h.sent⟩
  · show s.sent.flatten ++ s.timer.held ++ s.worker.held ++ (s.lines ++ [line]) = s.emitted ++ [line]
    rw [← h.accounted, List.append_assoc (s.sent.flatten ++ s.timer.held ++ s.worker.held)]
  · show s.worker.draining → _
    rw [hrunning]
    nofun

/-- The timer moves between phases in which it holds nothing. -/
theorem Inv.setTimer {s : State} (h : Inv s) {timer : Timer} (hbefore : s.timer.held = [])
    (hafter : timer.held = []) : Inv { s with timer := timer } := by
  refine ⟨?_, h.drained, fun _ => hafter⟩
  have haccounted := h.accounted
  show s.sent.flatten ++ timer.held ++ s.worker.held ++ s.lines = s.emitted
  rw [hafter, ← hbefore]
  exact haccounted

theorem Inv.setWorker {s : State} (h : Inv s) {worker : Worker} (hbefore : s.worker.held = [])
    (hafter : worker.held = []) (hdrain : ¬worker.draining) : Inv { s with worker := worker } := by
  refine ⟨?_, fun hnow => absurd hnow hdrain, ?_⟩
  · have haccounted := h.accounted
    show s.sent.flatten ++ s.timer.held ++ worker.held ++ s.lines = s.emitted
    rw [hafter, ← hbefore]
    exact haccounted
  · rintro (rfl : worker = .returned)
    exact absurd trivial hdrain

theorem Inv.take {s : State} (h : Inv s) (hwoken : s.timer = .woken) :
    Inv { s with timer := .holding (s.lines.take 500), lines := s.lines.drop 500 } := by
  have haccounted := h.accounted
  have hnone : s.timer.held = [] := by rw [hwoken]; rfl
  rw [hnone, List.append_nil] at haccounted
  -- Once the last flush has taken its batch there is nothing left for the timer.
  have hheld : s.worker.held = [] ∨ s.lines = [] := by
    cases hworker : s.worker with
    | holding batch => exact .inr (h.drained (by rw [hworker]; trivial))
    | _ => exact .inl rfl
  refine ⟨?_, ?_, ?_⟩
  · show s.sent.flatten ++ s.lines.take 500 ++ s.worker.held ++ s.lines.drop 500 = s.emitted
    rw [← haccounted]
    obtain hheld | hlines := hheld
    · rw [hheld, List.append_nil, List.append_nil, List.append_assoc, List.take_append_drop]
    · rw [hlines, List.take_nil, List.drop_nil, List.append_nil, List.append_nil, List.append_nil]
  · intro hdraining
    show s.lines.drop 500 = []
    rw [h.drained hdraining, List.drop_nil]
  · intro hreturned
    show s.lines.take 500 = []
    have hreturned : s.worker = .returned := hreturned
    rw [h.drained (by rw [hreturned]; trivial), List.take_nil]

theorem Inv.post {s : State} (h : Inv s) {batch : List String} (hholding : s.timer = .holding batch)
    {timer : Timer} (hafter : timer.held = []) : Inv { s.post batch with timer := timer } := by
  have haccounted := h.accounted
  have hheld : s.timer.held = batch := by rw [hholding]; rfl
  refine ⟨?_, ?_, fun _ => hafter⟩
  · show (s.post batch).sent.flatten ++ timer.held ++ (s.post batch).worker.held ++
      (s.post batch).lines = (s.post batch).emitted
    rw [State.post_flatten, State.post_worker, State.post_lines, State.post_emitted, hafter,
      List.append_nil, ← haccounted, hheld]
  · show (s.post batch).worker.draining → (s.post batch).lines = []
    rw [State.post_worker, State.post_lines]
    exact h.drained

theorem Inv.finalTake {s : State} (h : Inv s) (hjoined : s.worker = .joined)
    (hfew : s.lines.length ≤ 500) :
    Inv { s with worker := .holding (s.lines.take 500), lines := s.lines.drop 500 } := by
  have haccounted := h.accounted
  have hnone : s.worker.held = [] := by rw [hjoined]; rfl
  have hall : s.lines.take 500 = s.lines := List.take_of_length_le hfew
  have hrest : s.lines.drop 500 = [] := List.drop_eq_nil_of_le hfew
  refine ⟨?_, fun _ => hrest, nofun⟩
  show s.sent.flatten ++ s.timer.held ++ s.lines.take 500 ++ s.lines.drop 500 = s.emitted
  rw [hall, hrest, List.append_nil, ← haccounted, hnone, List.append_nil]

theorem Inv.finalPost {s : State} (h : Inv s) {batch : List String}
    (hholding : s.worker = .holding batch) (hclear : s.timer.held = []) :
    Inv { s.post batch with worker := .returned } := by
  have haccounted := h.accounted
  have hheld : s.worker.held = batch := by rw [hholding]; rfl
  have hlines : s.lines = [] := h.drained (by rw [hholding]; trivial)
  refine ⟨?_, fun _ => ?_, fun _ => ?_⟩
  · show (s.post batch).sent.flatten ++ (s.post batch).timer.held ++ [] ++ (s.post batch).lines =
      (s.post batch).emitted
    rw [State.post_flatten, State.post_timer, State.post_lines, State.post_emitted, hclear,
      List.append_nil, List.append_nil, ← haccounted, hclear, hheld, List.append_nil]
  · show (s.post batch).lines = []
    rw [State.post_lines, hlines]
  · show (s.post batch).timer.held = []
    rw [State.post_timer, hclear]

theorem Inv.step {s t : State} (h : Inv s) {event : Event} (hclear : Clear s event)
    (hstep : s.step event = some t) : Inv t := by
  cases event with
  | emit held line =>
    simp only [State.step] at hstep
    split at hstep
    next hrunning =>
      obtain rfl := Option.some.inj hstep
      exact h.emit hrunning _
    next => cases hstep
  | wake =>
    simp only [State.step] at hstep
    split at hstep
    next hwaiting =>
      obtain rfl := Option.some.inj hstep
      exact h.setTimer (by rw [hwaiting]; rfl) rfl
    next => cases hstep
  | take =>
    simp only [State.step] at hstep
    split at hstep
    next hwoken =>
      obtain rfl := Option.some.inj hstep
      exact h.take hwoken
    next => cases hstep
  | post =>
    simp only [State.step] at hstep
    split at hstep
    next batch hholding =>
      obtain rfl := Option.some.inj hstep
      refine h.post hholding ?_
      split <;> rfl
    next => cases hstep
  | exit =>
    simp only [State.step] at hstep
    split at hstep
    next hexit =>
      obtain rfl := Option.some.inj hstep
      exact h.setTimer (by rw [hexit.1]; rfl) rfl
    next => cases hstep
  | stop =>
    simp only [State.step] at hstep
    split at hstep
    next hrunning =>
      obtain rfl := Option.some.inj hstep
      exact h.setWorker (by rw [hrunning]; rfl) rfl id
    next => cases hstep
  | join =>
    simp only [State.step] at hstep
    split at hstep
    next hjoin =>
      obtain rfl := Option.some.inj hstep
      exact h.setWorker (by rw [hjoin.1]; rfl) rfl id
    next => cases hstep
  | joinTimeout =>
    simp only [State.step] at hstep
    split at hstep
    next hjoin =>
      obtain rfl := Option.some.inj hstep
      exact h.setWorker (by rw [hjoin.1]; rfl) rfl id
    next => cases hstep
  | finalTake =>
    simp only [State.step] at hstep
    split at hstep
    next hjoined =>
      obtain rfl := Option.some.inj hstep
      exact h.finalTake hjoined hclear
    next => cases hstep
  | finalPost =>
    simp only [State.step] at hstep
    split at hstep
    next batch hholding =>
      obtain rfl := Option.some.inj hstep
      exact h.finalPost hholding hclear
    next => cases hstep

/-- 501 lines and a `stop` before the timer fires: the last flush sends 500. -/
theorem last_line_unsent : ¬reporter.Always Lossless State.start
    (List.replicate 501 (.emit [] "host up") ++ [.stop, .exit, .join, .finalTake, .finalPost]) := by
  decide +kernel

theorem always_lossless {events : List Event} (h : reporter.Along Clear State.start events) :
    reporter.Always Lossless State.start events :=
  reporter.always_mono (fun _ h => Inv.lossless h)
    (reporter.always_of_along (fun _ _ _ h hclear hstep => Inv.step h hclear hstep) Inv.start h)

/-- What the agent posts is what was emitted, and what a client polls is what is stored. -/
theorem liveOutput_lossless {events : List Event} (h : reporter.Along Clear State.start events)
    (logEvents : List LogEvent) :
    reporter.Always Lossless State.start events ∧ jobLog.Always ReadsOnce Log.start logEvents :=
  ⟨always_lossless h, always_readsOnce logEvents⟩

/-- A scan whose lines go partly with the timer and partly with `stop`, and two writers that race
for the same number. -/
def scan : List Event :=
  [.emit [] "scanning", .wake, .take, .emit ["hunter2"] "password hunter2", .post, .stop, .exit,
    .join, .finalTake, .finalPost]

example : (reporter.exec State.start scan).map State.sent =
    some [["scanning"], ["password ***redacted***"]] := by
  decide +kernel

theorem scan_lossless : reporter.Always Lossless State.start scan ∧
    jobLog.Always ReadsOnce Log.start
      [.append 0 "queued", .appendAll 1 ["scanning"], .read 0, .read 1, .commit 0, .poll, .commit 1,
        .read 1, .commit 1, .poll] :=
  liveOutput_lossless (by decide +kernel) _

end LiveOutput
