import VmDashboard.Jobs.Claim
import VmDashboard.Windows.Recurrence

/-!
# Booking a change and admitting it

`resolve` of `services/change_window_service.py`, the change-window gate and
`enforce` of `services/admission_service.py`, `approve_change` of
`api/change_windows.py` and the reaping pass of `services/schedule_sweeper.py`.
-/

namespace Windows
open Jobs (Job JobRequest Booking HttpError User)
open Machine (Table)
open Python (Instant minutes seconds strip lower reprText minuteLabel dayLength)

/-! ### `resolve` -/

/-- The three scheduling fields of a run form or a reschedule. -/
structure RunForm where
  runAt : String := ""
  runTimezone : String := ""
  changeWindowId : String := ""

def defaultGraceMinutes : ℤ := 60

/-- `grace_minutes`: `setting` is the integer the configuration holds, `none` when it holds none
or cannot be read. -/
def graceMinutes (setting : Option ℤ) : ℕ := (max 1 (setting.getD defaultGraceMinutes)).toNat

def maxLeadDays : ℕ := 730

/-- What a request reads of the database and the settings. `workgroups` is an error when its
query raises. -/
structure Workgroup where
  name : String
  changeWindowId : Option String
  requireChangeWindow : Option Bool

structure Site where
  windows : Table ChangeWindow.id
  workgroups : Except String (Table Workgroup.name)
  gatedActions : List String
  graceSetting : Option ℤ
  approvalRequiredDefault : Bool
  allowSelfApproval : Bool
  admissionEnabled : Bool
  enforceApproval : Bool

def chooseWindow (site : Site) (id : String) : Except String (Option ChangeWindow) :=
  if id = "" then .ok none
  else
    match site.windows.lookup id with
    | none => .error "that change window no longer exists; pick another"
    | some window =>
      if window.enabled = some false then
        .error ("the change window " ++ reprText window.name ++
          " is disabled and cannot take new changes")
      else .ok (some window)

def parseRunAt (lib : TimeLibrary) (runAt zoneName : String) : Except String Instant :=
  let raw := (strip runAt).toList.map fun c => if c = ' ' then 'T' else c
  let raw := if raw.getLast? = some 'Z' then raw.dropLast else raw
  match lib.fromisoformat (String.ofList raw) with
  | none => .error (reprText runAt ++ " is not a date and time; expected YYYY-MM-DDTHH:MM")
  | some (.aware t) => .ok t
  | some (.naive day time) => (resolveTimezone lib zoneName).map fun zone => zone.instant day time

def checkLead (t now : Instant) : Except String Unit :=
  if t ≤ now then
    .error (minuteLabel t ++ " UTC is in the past — to run this change immediately, " ++
      "choose Run now")
  else if now + maxLeadDays * dayLength < t then
    .error (minuteLabel t ++ " UTC is more than " ++ toString (maxLeadDays / 365) ++
      " years away; check the year")
  else .ok ()

def resolve (lib : TimeLibrary) (site : Site) (now : Instant) (form : RunForm) : Booking := do
  let window ← chooseWindow site form.changeWindowId
  if strip form.runAt = "" then
    match window with
    | some window =>
      let (start, close) ← nextOccurrence lib window now
      pure (some start, some close, some window.id)
    | none => pure (none, none, none)
  else
    let t ← parseRunAt lib form.runAt form.runTimezone
    checkLead t now
    match window with
    | some window =>
      if occurrenceCovering lib window t then
        let (_, close) ← nextOccurrence lib window (t - seconds 1)
        pure (some t, some close, some window.id)
      else
        let summary ← window.summary
        throw (minuteLabel t ++ " UTC does not fall inside the " ++ reprText window.name ++
          " window (" ++ summary ++ ") — pick a time inside it, or clear the window to " ++
          "schedule a one-off change")
    | none => pure (some t, some (t + minutes (graceMinutes site.graceSetting)), none)

/-- The arguments `schedule_kwargs` adds to `create_job`; for an immediate run it adds none. -/
structure Scheduled where
  scheduledFor : Instant
  windowEndsAt : Option Instant
  changeWindowId : Option String
  approvalRequired : Bool

def scheduleKwargs (lib : TimeLibrary) (site : Site) (now : Instant) (form : RunForm) :
    Except HttpError (Option Scheduled) :=
  match resolve lib site now form with
  | .error reason => .error ⟨400, reason⟩
  | .ok (none, _, _) => .ok none
  | .ok (some start, close, windowId) =>
    .ok (some ⟨start, close, windowId, site.approvalRequiredDefault⟩)

/-! ### The gate -/

structure Offer where
  changeWindowId : String
  windowName : String
  nextStart : Instant
  nextEnd : Instant

/-- The detail of a 403. -/
structure Refusal where
  error : String
  reasons : List String
  schedule : Option Offer := none

def satisfiesWindow (lib : TimeLibrary) (window : ChangeWindow) : Option Scheduled → Bool
  | none => false
  | some scheduled =>
    (scheduled.changeWindowId.any (· ≠ "") && scheduled.changeWindowId = some window.id) ||
      occurrenceCovering lib window scheduled.scheduledFor

def windowBroken (name exc : String) : Refusal where
  error := "change_window"
  reasons := ["workstream " ++ reprText name ++ " requires a change window and the window could " ++
    "not be evaluated (" ++ exc ++ "). An administrator needs to check it on the Workstreams tab."]

/-- The second half of the gate, for a workgroup known to require a window. -/
def requireWindow (lib : TimeLibrary) (site : Site) (name : String) (row : Workgroup)
    (now : Instant) (scheduled : Option Scheduled) : Except Refusal Unit :=
  match row.changeWindowId.bind site.windows.lookup with
  | none =>
    .error {
      error := "change_window"
      reasons := ["workstream " ++ reprText name ++ " requires a change window, but the window " ++
        "it points at no longer exists. An administrator needs to pick another on the " ++
        "Workstreams tab."] }
  | some window =>
    if satisfiesWindow lib window scheduled then .ok ()
    else if occurrenceCovering lib window now then .ok ()
    else
      match nextOccurrence lib window now, window.summary with
      | .error exc, _ => .error (windowBroken name exc)
      | .ok _, .error exc => .error (windowBroken name exc)
      | .ok (start, close), .ok summary =>
        .error {
          error := "change_window"
          reasons := [name ++ " may only be changed during " ++ window.name ++ " (" ++ summary ++
            "). The next window opens " ++ minuteLabel start ++ " UTC."]
          schedule := some ⟨window.id, window.name, start, close⟩ }

/-- `_enforce_change_window`; `workgroup` is the entry of the request under that name. -/
def enforceChangeWindow (lib : TimeLibrary) (site : Site) (action : String)
    (workgroup : Option String) (now : Instant) (scheduled : Option Scheduled) :
    Except Refusal Unit :=
  if ¬site.gatedActions.contains action then .ok ()
  else
    match workgroup with
    | none => .ok ()
    | some name =>
      if strip name = "" then .ok ()
      else
        match site.workgroups with
        | .error _ => .ok ()
        | .ok rows =>
          match rows.lookup (lower (strip name)) with
          | none => .ok ()
          | some row =>
            if row.requireChangeWindow ≠ some true then .ok ()
            else requireWindow lib site name row now scheduled

/-- What `evaluate` answers for the action, or the text of its `AdmissionError`. -/
inductive Verdict
  | allow
  | deny (reasons : List String)
  | needsApproval (reasons : List String)
  | unavailable (why : String)

/-- Whether the verdict asks for an approval, which the seam can give when it is `approvable`. -/
def applyVerdict (site : Site) (approvable : Bool) : Verdict → Except Refusal Bool
  | .allow => .ok false
  | .deny reasons => .error { error := "policy", reasons }
  | .unavailable _ =>
    .error {
      error := "policy"
      reasons := ["Action blocked: policy engine unavailable (fail-closed)."] }
  | .needsApproval reasons =>
    if ¬site.enforceApproval then .ok false
    else if ¬approvable then
      .error {
        error := "needs_approval"
        reasons := reasons ++ ["This action requires approval, and it cannot be requested from " ++
          "here yet. Raise it from a surface that supports scheduling, or have an " ++
          "administrator narrow the policy."] }
    else .ok true

/-- `enforce`; the answer is whether it returned `approval_required`. -/
def enforce (lib : TimeLibrary) (site : Site) (action : String) (workgroup : Option String)
    (now : Instant) (scheduled : Option Scheduled) (approvable : Bool) (verdict : Verdict) :
    Except Refusal Bool := do
  enforceChangeWindow lib site action workgroup now scheduled
  if ¬site.admissionEnabled ∨ ¬site.gatedActions.contains action then pure false
  else applyVerdict site approvable verdict

/-! ### A gated request -/

structure GatedRequest where
  action : String
  form : RunForm
  approvable : Bool
  verdict : Verdict
  /-- the arguments of `create_job` that do not come from the schedule -/
  job : JobRequest

inductive Rejected
  | badRequest (error : HttpError)
  | forbidden (refusal : Refusal)

/-- `{**_sched, **_gate}` over the other arguments. -/
def JobRequest.booked (request : JobRequest) (scheduled : Option Scheduled) (gate : Bool) :
    JobRequest :=
  { request with
    scheduledFor := scheduled.map Scheduled.scheduledFor
    windowEndsAt := scheduled.bind Scheduled.windowEndsAt
    changeWindowId := scheduled.bind Scheduled.changeWindowId
    approvalRequired := gate || scheduled.any Scheduled.approvalRequired }

/-- A deploy endpoint up to its `create_job`: the booking is resolved at `resolved`, the gate
asked at `enforced`. -/
def submit (lib : TimeLibrary) (site : Site) (resolved enforced : Instant)
    (request : GatedRequest) : Except Rejected JobRequest :=
  match scheduleKwargs lib site resolved request.form with
  | .error error => .error (.badRequest error)
  | .ok scheduled =>
    match enforce lib site request.action request.job.workgroup enforced scheduled
        request.approvable request.verdict with
    | .error refusal => .error (.forbidden refusal)
    | .ok gate => .ok (JobRequest.booked request.job scheduled gate)

/-! ### Approval and the sweep -/

def approveChange (user : User) (allowSelf : Bool) (now : Instant) (job : Job) :
    Except HttpError Job :=
  if job.approvalRequired ≠ some true then .error ⟨400, "this change does not require approval"⟩
  else if job.approvedAt.isSome then .ok job
  else if ¬job.status.waiting then
    .error ⟨409, "this change is " ++ job.status.text ++ " and can no longer be approved"⟩
  else if job.createdBy = user.username ∧ ¬allowSelf then
    .error ⟨403, "you raised this change, so you cannot approve it. Ask someone with the " ++
      "change-approval permission to review it."⟩
  else .ok { job with approvedAt := some now, approvedBy := some user.username }

/-- `MISSED_GRACE`. -/
def missedGrace : ℕ := seconds 90

def reapBatch : ℕ := 200

/-- The filter of `due_missed`. -/
def isMissed (now : Instant) (job : Job) : Bool :=
  job.status.waiting && job.windowEndsAt.any (· + missedGrace < now)

def dueMissed (jobs : Table Job.id) (now : Instant) : List Job :=
  ((jobs.rows.filter (isMissed now)).mergeSort
    fun a b => a.windowEndsAt.getD 0 ≤ b.windowEndsAt.getD 0).take reapBatch

def missedReason (close now : Instant) (job : Job) : String :=
  let ends := minuteLabel close
  if job.approvalRequired = some true ∧ job.approvedAt = none then
    "Change window closed at " ++ ends ++ " UTC without approval — the job was never eligible " ++
      "to run. Approve before the window closes, or reschedule."
  else
    "Change window closed at " ++ ends ++ " UTC before this job could start (" ++
      toString ((now - close) / minutes 1) ++
      " min ago). It was NOT run outside its window; reschedule it."

def reapOne (now : Instant) (jobs : Table Job.id) (missed : Job) : Table Job.id :=
  jobs.modify missed.id
    (Jobs.setMissedWindow now (missedReason (missed.windowEndsAt.getD 0) now missed))
    fun row => (Jobs.setMissedWindow_same now _ row).id

def reapMissed (jobs : Table Job.id) (now : Instant) : Table Job.id :=
  (dueMissed jobs now).foldl (reapOne now) jobs

/-! ### What a booking can be -/

/-- A form that asks to run now. -/
def RunForm.Immediate (form : RunForm) : Prop := strip form.runAt = "" ∧ form.changeWindowId = ""

/-- The span a form asks for: an hour of grace from a bare time on, a window's next occurrence,
or the rest of the occurrence a time lies in. -/
inductive RunForm.Asks (lib : TimeLibrary) (site : Site) (now : Instant) (form : RunForm) :
    Option String → Instant → Instant → Prop
  | time {t} (hat : strip form.runAt ≠ "") (hid : form.changeWindowId = "")
      (ht : parseRunAt lib form.runAt form.runTimezone = .ok t) :
      Asks lib site now form none t (t + minutes (graceMinutes site.graceSetting))
  | window {window start close} (hat : strip form.runAt = "")
      (hrow : site.windows.lookup form.changeWindowId = some window)
      (hnext : nextOccurrence lib window now = .ok (start, close)) :
      Asks lib site now form (some window.id) start close
  | windowTime {window t start close} (hat : strip form.runAt ≠ "")
      (hrow : site.windows.lookup form.changeWindowId = some window)
      (ht : parseRunAt lib form.runAt form.runTimezone = .ok t)
      (hnext : nextOccurrence lib window (t - seconds 1) = .ok (start, close))
      (hstart : start ≤ t) (hclose : t < close) :
      Asks lib site now form (some window.id) t close

theorem chooseWindow_none {site : Site} {id : String} (h : chooseWindow site id = .ok none) :
    id = "" := by
  unfold chooseWindow at h
  split at h
  · assumption
  · split at h
    · cases h
    · split at h <;> cases h

theorem chooseWindow_some {site : Site} {id : String} {window : ChangeWindow}
    (h : chooseWindow site id = .ok (some window)) : site.windows.lookup id = some window := by
  unfold chooseWindow at h
  split at h
  · cases h
  · split at h
    · cases h
    next hrow =>
      split at h
      · cases h
      · rw [hrow, Option.some.inj (Except.ok.inj h)]

theorem resolve_ok {lib : TimeLibrary} {site : Site} {now : Instant} {form : RunForm}
    {booked : Option Instant × Option Instant × Option String}
    (h : resolve lib site now form = .ok booked) :
    (form.Immediate ∧ booked = (none, none, none)) ∨
      ∃ id start close, form.Asks lib site now id start close ∧
        booked = (some start, some close, id) := by
  obtain ⟨window, hwindow, h⟩ := Machine.bind_eq_ok h
  split at h
  next hblank =>
    cases window with
    | none => exact .inl ⟨⟨hblank, chooseWindow_none hwindow⟩, (Except.ok.inj h).symm⟩
    | some window =>
      obtain ⟨⟨start, close⟩, hnext, h⟩ := Machine.bind_eq_ok h
      exact .inr ⟨_, start, close, .window hblank (chooseWindow_some hwindow) hnext,
        (Except.ok.inj h).symm⟩
  next hat =>
    obtain ⟨t, ht, h⟩ := Machine.bind_eq_ok h
    obtain ⟨-, -, h⟩ := Machine.bind_eq_ok h
    cases window with
    | none =>
      exact .inr ⟨_, t, _, .time hat (chooseWindow_none hwindow) ht, (Except.ok.inj h).symm⟩
    | some window =>
      simp only at h
      split at h
      next hcover =>
        obtain ⟨start, close, hnext, hstart, hclose⟩ := occurrenceCovering_iff.mp hcover
        rw [hnext] at h
        exact .inr ⟨_, t, close,
          .windowTime hat (chooseWindow_some hwindow) ht hnext hstart hclose,
            (Except.ok.inj h).symm⟩
      next =>
        obtain ⟨summary, -, h⟩ := Machine.bind_eq_ok h
        cases h

end Windows
