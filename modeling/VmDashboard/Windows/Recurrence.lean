import VmDashboard.Machine.Except
import VmDashboard.Python.Calendar
import VmDashboard.Python.Regex
import VmDashboard.Python.Text

/-!
# Change windows as recurrences

`services/change_window.py` with the primitives it borrows from
`services/suspend_schedule.py`. The time zone database is a parameter. A
`ScheduleError` is its text.
-/

namespace Windows
open Python (Instant minutes seconds strip reprText padded weekday dayLength)

/-- A time zone: the local date of an instant, and the instant at which the wall clock of a
local date shows so many microseconds since midnight. -/
structure Zone where
  localDay : Instant → ℤ
  instant : ℤ → ℕ → Instant

def utc : Zone where
  localDay t := t / dayLength
  instant day time := (day * dayLength + time).toNat

/-- What `datetime.fromisoformat` reads: an instant, or a reading of a wall clock. -/
inductive IsoTime
  | aware (t : Instant)
  | naive (day : ℤ) (time : ℕ)

/-- `zoneinfo.ZoneInfo` and `datetime.fromisoformat`, `none` when they raise. -/
structure TimeLibrary where
  zoneInfo : String → Option Zone
  fromisoformat : String → Option IsoTime

/-- It knows no zone and reads no instant; a window without a zone is in UTC. -/
def noZones : TimeLibrary := ⟨fun _ => none, fun _ => none⟩

/-! ### `suspend_schedule` -/

/-- `^([01]\d|2[0-3]):([0-5]\d)$`. -/
def matchHhmm (text : String) : Option (ℕ × ℕ) :=
  match Python.beforeEnd text.toList with
  | [h, h', ':', m, m'] =>
    if ((h = '0' ∨ h = '1') ∧ Python.isDecimal h' ∨ h = '2' ∧ "0123".toList.contains h') ∧
        "012345".toList.contains m ∧ Python.isDecimal m' then
      some (10 * Python.decimalValue h + Python.decimalValue h',
        10 * Python.decimalValue m + Python.decimalValue m')
    else none
  | _ => none

def parseHhmm (value : String) : Except String (Option (ℕ × ℕ)) :=
  let raw := strip value
  if raw = "" then .ok none
  else
    match matchHhmm raw with
    | some time => .ok (some time)
    | none => .error (reprText value ++ " is not a time; use 24-hour HH:MM, e.g. 19:00")

def daysAll : String := "1111111"
def daysWeekdays : String := "1111100"
def dayLabels : List String := ["Mon", "Tue", "Wed", "Thu", "Fri", "Sat", "Sun"]

def normalizeDays (value : String) : Except String String :=
  let raw := strip value
  if raw = "" then .ok daysAll
  else if raw.toList.length ≠ 7 ∨ ¬raw.toList.all "01".toList.contains then
    .error ("days must be seven characters of 0 or 1, Monday first — " ++
      reprText daysWeekdays ++ " is Monday to Friday")
  else if ¬raw.toList.contains '1' then
    .error ("a schedule with no days selected would never do anything; clear the times " ++
      "instead to turn it off")
  else .ok raw

def resolveTimezone (lib : TimeLibrary) (name : String) : Except String Zone :=
  let raw := strip name
  if raw = "" then .ok utc
  else
    match lib.zoneInfo raw with
    | some zone => .ok zone
    | none => .error (reprText raw ++ " is not a timezone this system knows; use an IANA name " ++
        "such as Europe/London or America/New_York")

/-! ### `change_window` -/

structure ChangeWindow where
  id : String
  name : String
  startAtLocal : String
  durationMinutes : ℤ
  timezone : Option String
  scheduleDays : String
  enabled : Option Bool
  deriving DecidableEq

/-- A window's columns, parsed: its days, the microseconds from local midnight to its start and
how many it lasts. -/
structure Rule where
  zone : Zone
  days : List Char
  time : ℕ
  duration : ℕ

def ChangeWindow.rule (lib : TimeLibrary) (window : ChangeWindow) : Except String Rule := do
  let zone ← resolveTimezone lib (window.timezone.getD "")
  let days ← normalizeDays window.scheduleDays
  match ← parseHhmm window.startAtLocal with
  | none => throw "this change window has no start time"
  | some (hour, minute) =>
    if window.durationMinutes ≤ 0 then throw "this change window has no duration"
    else pure ⟨zone, days.toList, minutes (60 * hour + minute),
      minutes window.durationMinutes.toNat⟩

def Rule.opensOn (rule : Rule) (day : ℤ) : Prop := rule.days[weekday day]? = some '1'

instance (rule : Rule) (day : ℤ) : Decidable (rule.opensOn day) :=
  inferInstanceAs (Decidable (_ = _))

def Rule.start (rule : Rule) (day : ℤ) : Instant := rule.zone.instant day rule.time

def Rule.close (rule : Rule) (day : ℤ) : Instant := rule.start day + rule.duration

def searchDays : ℕ := 8

/-- The walk over local days: the first occurrence that closes after `after`. -/
def Rule.walk (rule : Rule) (after : Instant) : ℕ → ℤ → Option (Instant × Instant)
  | 0, _ => none
  | n + 1, day =>
    if rule.opensOn day ∧ after < rule.close day then some (rule.start day, rule.close day)
    else rule.walk after n (day + 1)

def nextOccurrence (lib : TimeLibrary) (window : ChangeWindow) (after : Instant) :
    Except String (Instant × Instant) := do
  let rule ← window.rule lib
  match rule.walk after (searchDays + 1) (rule.zone.localDay after - 1) with
  | some span => pure span
  | none => throw "this change window has no occurrence in the next week — check its selected days"

theorem nextOccurrence_of_walk {lib : TimeLibrary} {window : ChangeWindow} {rule : Rule}
    (hrule : window.rule lib = .ok rule) {after : Instant} {span : Instant × Instant}
    (hwalk : rule.walk after (searchDays + 1) (rule.zone.localDay after - 1) = some span) :
    nextOccurrence lib window after = .ok span := by
  simp only [nextOccurrence, hrule, bind, Except.bind, hwalk]
  rfl

def occurrenceCovering (lib : TimeLibrary) (window : ChangeWindow) (t : Instant) : Bool :=
  match nextOccurrence lib window (t - seconds 1) with
  | .ok (start, close) => start ≤ t && t < close
  | .error _ => false

/-- `hour:minute` in two digits each. -/
def clockLabel (minute : ℤ) : String :=
  String.ofList (padded 2 (minute / 60).toNat ++ ':' :: padded 2 (minute % 60).toNat)

def endLabel (startAtLocal : String) (duration : ℤ) : Except String String := do
  match ← parseHhmm startAtLocal with
  | none => pure "?"
  | some (hour, minute) =>
    let total : ℤ := hour * 60 + minute + duration
    let label := clockLabel (total % (24 * 60))
    let dayOffset := total / (24 * 60)
    pure (if dayOffset = 0 then label else label ++ " (+" ++ toString dayOffset ++ "d)")

def formatDuration (duration : ℤ) : String :=
  let hours := duration / 60
  let mins := duration % 60
  if hours ≠ 0 ∧ mins ≠ 0 then toString hours ++ "h " ++ toString mins ++ "m"
  else if hours ≠ 0 then toString hours ++ "h"
  else toString mins ++ "m"

/-- The `summary` of `describe`. -/
def ChangeWindow.summary (window : ChangeWindow) : Except String String := do
  let days ← normalizeDays window.scheduleDays
  let zone := strip (window.timezone.getD "")
  let start := strip window.startAtLocal
  let onDays := (dayLabels.zip days.toList).filterMap fun (label, on) =>
    if on = '1' then some label else none
  let when :=
    if days = daysAll then "every day"
    else if days = daysWeekdays then "Mon–Fri"
    else ", ".intercalate onDays
  let close ← endLabel start window.durationMinutes
  pure (when ++ " " ++ start ++ "–" ++ close ++ " (" ++ (if zone = "" then "UTC" else zone) ++
    "), " ++ formatDuration window.durationMinutes)

/-! ### Occurrences -/

/-- The window is open from `start` until `close`, on one of its days. -/
def Occurrence (lib : TimeLibrary) (window : ChangeWindow) (start close : Instant) : Prop :=
  ∃ rule day, window.rule lib = .ok rule ∧ rule.opensOn day ∧ start = rule.start day ∧
    close = rule.close day

theorem Rule.walk_some {rule : Rule} {after start close : Instant} {n : ℕ} {day : ℤ}
    (h : rule.walk after n day = some (start, close)) :
    ∃ day', rule.opensOn day' ∧ start = rule.start day' ∧ close = rule.close day' ∧
      after < close := by
  induction n generalizing day with
  | zero => cases h
  | succ n ih =>
    unfold Rule.walk at h
    split at h
    next hopen =>
      obtain ⟨rfl, rfl⟩ := Prod.mk.inj (Option.some.inj h)
      exact ⟨day, hopen.1, rfl, rfl, hopen.2⟩
    next => exact ih h

theorem nextOccurrence_ok {lib : TimeLibrary} {window : ChangeWindow}
    {after start close : Instant} (h : nextOccurrence lib window after = .ok (start, close)) :
    Occurrence lib window start close ∧ after < close := by
  obtain ⟨rule, hrule, h⟩ := Machine.bind_eq_ok h
  split at h
  next span hwalk =>
    obtain rfl := Except.ok.inj h
    obtain ⟨day, hopen, hstart, hclose, hafter⟩ := rule.walk_some hwalk
    exact ⟨⟨rule, day, hrule, hopen, hstart, hclose⟩, hafter⟩
  next => cases h

theorem occurrenceCovering_iff {lib : TimeLibrary} {window : ChangeWindow} {t : Instant} :
    occurrenceCovering lib window t = true ↔
      ∃ start close, nextOccurrence lib window (t - seconds 1) = .ok (start, close) ∧
        start ≤ t ∧ t < close := by
  unfold occurrenceCovering
  constructor
  · intro h
    split at h
    next start close hnext =>
      simp only [Bool.and_eq_true, decide_eq_true_eq] at h
      exact ⟨start, close, hnext, h.1, h.2⟩
    next => cases h
  · rintro ⟨start, close, hnext, hstart, hclose⟩
    rw [hnext]
    simp only [Bool.and_eq_true, decide_eq_true_eq]
    exact ⟨hstart, hclose⟩

/-- What the check accepts lies inside an occurrence. -/
theorem occurrenceCovering_sound {lib : TimeLibrary} {window : ChangeWindow} {t : Instant}
    (h : occurrenceCovering lib window t = true) :
    ∃ start close, Occurrence lib window start close ∧ start ≤ t ∧ t < close := by
  obtain ⟨start, close, hnext, hstart, hclose⟩ := occurrenceCovering_iff.mp h
  exact ⟨start, close, (nextOccurrence_ok hnext).1, hstart, hclose⟩

end Windows
