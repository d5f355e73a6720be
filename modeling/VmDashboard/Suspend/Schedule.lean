import Mathlib.Data.Int.Range
import Mathlib.Data.List.Sort
import Mathlib.Data.Prod.Lex
import Mathlib.Data.String.Basic
import VmDashboard.Python.Convert
import VmDashboard.Windows.Recurrence

/-!
# When a VM should be asleep

`services/suspend_schedule.py`: the validator of a schedule and the last of its boundaries that an
evaluation has crossed.
-/

namespace Suspend
open Python (Instant minutes strip weekday dayLength orNone getD_orNone)
open Windows (Zone TimeLibrary utc parseHhmm matchHhmm normalizeDays resolveTimezone)

/-- `RESUME` and `SUSPEND`. -/
inductive Action
  | resume | suspend
  deriving DecidableEq

def Action.text : Action → String
  | .resume => "running"
  | .suspend => "stopped"

def maxCatchup : ℕ := minutes (25 * 60)

/-- The columns of a row that hold its schedule. -/
structure Schedule where
  suspendAtLocal : Option String
  resumeAtLocal : Option String
  scheduleTimezone : Option String
  scheduleDays : Option String
  deriving DecidableEq

def Schedule.none : Schedule := ⟨.none, .none, .none, .none⟩

/-- `getattr(row, ...) or ""` of the time an action is due. -/
def Schedule.timeOf (schedule : Schedule) : Action → String
  | .suspend => schedule.suspendAtLocal.getD ""
  | .resume => schedule.resumeAtLocal.getD ""

/-- The arguments of `validate`. -/
structure Request where
  suspendAt : String
  resumeAt : String
  tzName : String
  days : String

def validate (lib : TimeLibrary) (request : Request) : Except String Schedule := do
  let suspend ← parseHhmm request.suspendAt
  let resume ← parseHhmm request.resumeAt
  if suspend.isSome ∧ suspend = resume then
    throw ("the suspend and resume times are the same, so the schedule would both stop " ++
      "and start it at that moment")
  let _ ← resolveTimezone lib request.tzName
  let days ← (if (suspend.or resume).isSome then normalizeDays request.days else pure "")
  pure {
    suspendAtLocal := suspend.map fun _ => strip request.suspendAt
    resumeAtLocal := resume.map fun _ => strip request.resumeAt
    scheduleTimezone := orNone (strip request.tzName)
    scheduleDays := orNone days }

def hasSchedule (schedule : Schedule) : Bool :=
  strip (schedule.timeOf .suspend) ≠ "" || strip (schedule.timeOf .resume) ≠ ""

/-! ### Boundaries -/

abbrev Crossing := Instant × Action

def clock (time : ℕ × ℕ) : ℕ := minutes (60 * time.1 + time.2)

/-- `_boundaries`: the walk over local days. -/
def boundaries (time : ℕ × ℕ) (zone : Zone) (days : String) (start last : Instant) : List Instant :=
  (Int.range (zone.localDay start - 1) (zone.localDay last + 1 + 1)).filterMap fun day =>
    let t := zone.instant day (clock time)
    if days.toList[weekday day]? = some '1' ∧ start < t ∧ t ≤ last then some t else none

/-- The occurrences of the time of one action, when the action may be returned. -/
def crossings (schedule : Schedule) (zone : Zone) (days : String) (start last : Instant)
    (allow : List Action) (action : Action) : Except String (List Crossing) := do
  match ← parseHhmm (schedule.timeOf action) with
  | some time =>
    if action ∈ allow then pure ((boundaries time zone days start last).map (·, action))
    else pure []
  | none => pure []

/-- The order of the tuples that `crossings.sort()` compares. -/
def before (c d : Crossing) : Prop := c.1 < d.1 ∨ c.1 = d.1 ∧ c.2.text ≤ d.2.text

instance : DecidableRel before := fun _ _ => inferInstanceAs (Decidable (_ ∨ _))

/-- The crossing that decides `due_action`. -/
def dueCrossing (lib : TimeLibrary) (schedule : Schedule) (checked : Option Instant) (now : Instant)
    (allow : List Action) : Except String (Option Crossing) :=
  if hasSchedule schedule then
    match checked with
    | none => .ok none
    | some last =>
      if now ≤ last then .ok none
      else if maxCatchup < now - last then .ok none
      else do
        let zone ← resolveTimezone lib (schedule.scheduleTimezone.getD "")
        let days ← normalizeDays (schedule.scheduleDays.getD "")
        let suspends ← crossings schedule zone days last now allow .suspend
        let resumes ← crossings schedule zone days last now allow .resume
        pure ((suspends ++ resumes).insertionSort before).getLast?
  else .ok none

def dueAction (lib : TimeLibrary) (schedule : Schedule) (checked : Option Instant) (now : Instant)
    (allow : List Action) : Except String (Option Action) :=
  (dueCrossing lib schedule checked now allow).map (Option.map Prod.snd)

/-! ### The order of crossings -/

def Crossing.key (c : Crossing) : Instant ×ₗ String := toLex (c.1, c.2.text)

theorem before_iff {c d : Crossing} : before c d ↔ Crossing.key c ≤ Crossing.key d := by
  unfold Crossing.key
  rw [Prod.Lex.toLex_le_toLex]
  rfl

instance : Std.Total before where
  total c d := by
    rw [before_iff, before_iff]
    exact le_total _ _

instance : IsTrans Crossing before where
  trans c d e := by
    rw [before_iff, before_iff, before_iff]
    exact le_trans

theorem before_refl (c : Crossing) : before c c := before_iff.mpr le_rfl

theorem Action.text_injective : Function.Injective Action.text := by
  intro a b h
  cases a <;> cases b <;> first | rfl | exact absurd h (by decide)

/-- The last of the sorted crossings is the greatest. -/
theorem getLast?_sorted {cs : List Crossing} {c : Crossing}
    (h : (cs.insertionSort before).getLast? = some c) : c ∈ cs ∧ ∀ d ∈ cs, before d c := by
  obtain ⟨front, hfront⟩ := List.getLast?_eq_some_iff.mp h
  have hmem : ∀ d, d ∈ cs ↔ d ∈ front ++ [c] := fun d => by
    rw [← hfront, List.mem_insertionSort]
  have hsorted := List.pairwise_insertionSort before cs
  rw [hfront, List.pairwise_append] at hsorted
  refine ⟨(hmem c).mpr (by simp), fun d hd => ?_⟩
  rcases List.mem_append.mp ((hmem d).mp hd) with hin | heq
  · exact hsorted.2.2 d hin c (by simp)
  · rw [List.mem_singleton.mp heq]
    exact before_refl c

theorem getLast?_sorted_of_mem {cs : List Crossing} {d : Crossing} (h : d ∈ cs) :
    ∃ c, (cs.insertionSort before).getLast? = some c := by
  have hne : cs.insertionSort before ≠ [] :=
    List.ne_nil_of_mem ((List.mem_insertionSort before).mpr h)
  exact ⟨_, List.getLast?_eq_some_getLast hne⟩

/-! ### What a schedule says -/

/-- A schedule turns to an action at an instant: on one of its days the wall clock of its time zone
shows the time of that action. -/
def Boundary (lib : TimeLibrary) (schedule : Schedule) (c : Crossing) : Prop :=
  ∃ zone days time day,
    resolveTimezone lib (schedule.scheduleTimezone.getD "") = .ok zone ∧
    normalizeDays (schedule.scheduleDays.getD "") = .ok days ∧
    parseHhmm (schedule.timeOf c.2) = .ok (some time) ∧
    days.toList[weekday day]? = some '1' ∧ c.1 = zone.instant day (clock time)

/-- The interval an evaluation at `now` of a row last checked at `checked` answers for. -/
def Interval (checked : Option Instant) (now t : Instant) : Prop :=
  ∃ last, checked = some last ∧ last < t ∧ t ≤ now ∧ now - last ≤ maxCatchup

/-- The last boundary in the interval of an evaluation. -/
structure LastBoundary (lib : TimeLibrary) (schedule : Schedule) (checked : Option Instant)
    (now : Instant) (c : Crossing) : Prop where
  boundary : Boundary lib schedule c
  inside : Interval checked now c.1
  greatest : ∀ d, Boundary lib schedule d → Interval checked now d.1 → before d c

def Accepted (lib : TimeLibrary) (schedule : Schedule) : Prop :=
  ∃ request, validate lib request = .ok schedule

/-- Every column of the schedule parses. -/
def Readable (lib : TimeLibrary) (schedule : Schedule) : Prop :=
  (resolveTimezone lib (schedule.scheduleTimezone.getD "")).isOk ∧
    (normalizeDays (schedule.scheduleDays.getD "")).isOk ∧
    (parseHhmm (schedule.timeOf .suspend)).isOk ∧ (parseHhmm (schedule.timeOf .resume)).isOk

instance (lib : TimeLibrary) (schedule : Schedule) : Decidable (Readable lib schedule) :=
  inferInstanceAs (Decidable (_ ∧ _))

/-- Between two instants a day apart or closer the wall clock of the zone moves by at most a day
more than they are apart. -/
def Steady (zone : Zone) : Prop :=
  ∀ day time t, time < dayLength →
    (t < zone.instant day time → zone.instant day time ≤ t + maxCatchup → zone.localDay t ≤ day + 1) ∧
    (zone.instant day time ≤ t → t ≤ zone.instant day time + maxCatchup → day - 1 ≤ zone.localDay t)

theorem steady_utc : Steady utc := by
  intro day time t htime
  have hday : utc.localDay t = (t : ℤ) / dayLength := rfl
  have hinstant : utc.instant day time = (day * dayLength + time).toNat := rfl
  have hpos : (dayLength : ℤ) = 86400000000 := by decide
  rw [hday, hinstant]
  rw [hpos]
  have htime' : (time : ℤ) < 86400000000 := hpos ▸ Int.ofNat_lt.mpr htime
  constructor
  · intro h _
    have hlt : (t : ℤ) < day * 86400000000 + time := Int.lt_toNat.mp h
    omega
  · intro h _
    have hle : day * 86400000000 + time ≤ (t : ℤ) := Int.toNat_le.mp h
    omega

/-- A library that knows `UTC` only. -/
def onlyUtc : TimeLibrary where
  zoneInfo name := if name = "UTC" then some utc else none
  fromisoformat _ := none

theorem steady_onlyUtc (name : String) (zone : Zone) (h : onlyUtc.zoneInfo name = some zone) :
    Steady zone := by
  have hutc : utc = zone := Option.some.inj (Option.ite_none_right_eq_some.mp h).2
  exact hutc ▸ steady_utc

/-! ### The walk finds the boundaries -/

theorem decimalValue_le (c : Char) : Python.decimalValue c ≤ 9 := by
  unfold Python.decimalValue
  split
  next first hfind =>
    have hin := List.find?_some hfind
    simp only [Bool.and_eq_true, decide_eq_true_eq] at hin
    omega
  next => exact Nat.zero_le 9

/-- A time that the pattern matches is one of the day. -/
theorem clock_lt_of_matchHhmm {text : String} {time : ℕ × ℕ} (h : matchHhmm text = some time) :
    clock time < dayLength := by
  unfold matchHhmm at h
  split at h
  next c c' m m' hchars =>
    split at h
    next hdigits =>
      obtain rfl := Option.some.inj h
      have hhour : 10 * Python.decimalValue c + Python.decimalValue c' ≤ 23 := by
        have hc' := decimalValue_le c'
        rcases hdigits.1 with ⟨rfl | rfl, -⟩ | ⟨rfl, hin⟩
        · have hzero : Python.decimalValue '0' = 0 := by decide
          omega
        · have hone : Python.decimalValue '1' = 1 := by decide
          omega
        · have hall : ("0123".toList.all fun d => Python.decimalValue d ≤ 3) = true := by decide
          have htwo : Python.decimalValue '2' = 2 := by decide
          have hd := of_decide_eq_true (List.all_eq_true.mp hall c' (List.contains_iff_mem.mp hin))
          omega
      have hminute : 10 * Python.decimalValue m + Python.decimalValue m' ≤ 59 := by
        have hall : ("012345".toList.all fun d => Python.decimalValue d ≤ 5) = true := by decide
        have hm := of_decide_eq_true (List.all_eq_true.mp hall m (List.contains_iff_mem.mp hdigits.2.1))
        have hm' := decimalValue_le m'
        omega
      unfold clock dayLength minutes Python.seconds
      omega
    next => cases h
  next => cases h

theorem clock_lt_of_parseHhmm {value : String} {time : ℕ × ℕ} (h : parseHhmm value = .ok (some time)) :
    clock time < dayLength := by
  unfold parseHhmm at h
  dsimp only at h
  split_ifs at h
  · cases h
  · split at h
    next hmatch =>
      obtain rfl := Option.some.inj (Except.ok.inj h)
      exact clock_lt_of_matchHhmm hmatch
    next => cases h

theorem inside_of_mem_boundaries {time : ℕ × ℕ} {zone : Zone} {days : String}
    {start last t : Instant} (h : t ∈ boundaries time zone days start last) :
    start < t ∧ t ≤ last ∧ ∃ day, days.toList[weekday day]? = some '1' ∧
      t = zone.instant day (clock time) := by
  obtain ⟨day, -, hday⟩ := List.mem_filterMap.mp h
  dsimp only at hday
  split_ifs at hday with hopen
  obtain rfl := Option.some.inj hday
  exact ⟨hopen.2.1, hopen.2.2, day, hopen.1, rfl⟩

theorem mem_boundaries {time : ℕ × ℕ} {zone : Zone} {days : String} {start last : Instant} {day : ℤ}
    (hsteady : Steady zone) (htime : clock time < dayLength) (hspan : last ≤ start + maxCatchup)
    (hopen : days.toList[weekday day]? = some '1') (hstart : start < zone.instant day (clock time))
    (hlast : zone.instant day (clock time) ≤ last) :
    zone.instant day (clock time) ∈ boundaries time zone days start last := by
  obtain ⟨hbefore, -⟩ := hsteady day (clock time) start htime
  obtain ⟨-, hafter⟩ := hsteady day (clock time) last htime
  have hnear : zone.instant day (clock time) ≤ start + maxCatchup := le_trans hlast hspan
  have hfar : last ≤ zone.instant day (clock time) + maxCatchup :=
    le_trans hspan (Nat.add_le_add_right hstart.le _)
  have hfirst := hbefore hstart hnear
  have hend := hafter hlast hfar
  refine List.mem_filterMap.mpr ⟨day, Int.mem_range_iff.mpr ⟨by omega, by omega⟩, ?_⟩
  exact if_pos ⟨hopen, hstart, hlast⟩

theorem crossings_spec {schedule : Schedule} {zone : Zone} {days : String} {start last : Instant}
    {allow : List Action} {action : Action} {cs : List Crossing}
    (h : crossings schedule zone days start last allow action = .ok cs) {c : Crossing} (hc : c ∈ cs) :
    ∃ time, parseHhmm (schedule.timeOf action) = .ok (some time) ∧ c.2 = action ∧
      c.1 ∈ boundaries time zone days start last := by
  obtain ⟨parsed, hparse, h⟩ := Machine.bind_eq_ok h
  cases parsed with
  | none =>
    obtain rfl := Except.ok.inj h
    cases hc
  | some time =>
    dsimp only at h
    split_ifs at h
    · obtain rfl := Except.ok.inj h
      obtain ⟨t, ht, rfl⟩ := List.mem_map.mp hc
      exact ⟨time, hparse, rfl, ht⟩
    · obtain rfl := Except.ok.inj h
      cases hc

theorem crossings_of_parse {schedule : Schedule} (zone : Zone) (days : String)
    (start last : Instant) (allow : List Action) {action : Action} {parsed : Option (ℕ × ℕ)}
    (h : parseHhmm (schedule.timeOf action) = .ok parsed) :
    crossings schedule zone days start last allow action =
      .ok (if action ∈ allow then
        parsed.elim [] fun time => (boundaries time zone days start last).map (·, action) else []) := by
  unfold crossings
  rw [h]
  cases parsed with
  | none => exact congrArg Except.ok (ite_self _).symm
  | some time => exact (apply_ite Except.ok _ _ _).symm

/-! ### What an evaluation answers -/

/-- Both verbs, as the sweep asks for them. -/
def bothActions : List Action := [.suspend, .resume]

theorem mem_bothActions (action : Action) : action ∈ bothActions := by
  cases action <;> decide

theorem dueCrossing_some {lib : TimeLibrary} {schedule : Schedule} {checked : Option Instant}
    {now : Instant} {allow : List Action} {c : Crossing}
    (h : dueCrossing lib schedule checked now allow = .ok (some c)) :
    Boundary lib schedule c ∧ Interval checked now c.1 := by
  unfold dueCrossing at h
  split_ifs at h
  · cases checked with
    | none => cases h
    | some last =>
      dsimp only at h
      split_ifs at h with hold hfar
      · cases h
      · cases h
      · obtain ⟨zone, hzone, h⟩ := Machine.bind_eq_ok h
        obtain ⟨days, hdays, h⟩ := Machine.bind_eq_ok h
        obtain ⟨suspends, hsuspends, h⟩ := Machine.bind_eq_ok h
        obtain ⟨resumes, hresumes, h⟩ := Machine.bind_eq_ok h
        have hin := (getLast?_sorted (Except.ok.inj h)).1
        have hfound : ∃ time, parseHhmm (schedule.timeOf c.2) = .ok (some time) ∧
            c.1 ∈ boundaries time zone days last now := by
          rcases List.mem_append.mp hin with hin | hin
          · obtain ⟨time, hparse, haction, ht⟩ := crossings_spec hsuspends hin
            exact ⟨time, haction ▸ hparse, ht⟩
          · obtain ⟨time, hparse, haction, ht⟩ := crossings_spec hresumes hin
            exact ⟨time, haction ▸ hparse, ht⟩
        obtain ⟨time, hparse, ht⟩ := hfound
        obtain ⟨hstart, hend, day, hopen, hinstant⟩ := inside_of_mem_boundaries ht
        exact ⟨⟨zone, days, time, day, hzone, hdays, hparse, hopen, hinstant⟩,
          last, rfl, hstart, hend, not_lt.mp hfar⟩
  · cases h

theorem hasSchedule_of_parse {schedule : Schedule} {action : Action} {time : ℕ × ℕ}
    (h : parseHhmm (schedule.timeOf action) = .ok (some time)) : hasSchedule schedule = true := by
  have hne : strip (schedule.timeOf action) ≠ "" := by
    intro hblank
    unfold parseHhmm at h
    dsimp only at h
    rw [if_pos hblank] at h
    cases h
  unfold hasSchedule
  cases action with
  | resume => simp only [hne, ne_eq, not_false_eq_true, decide_true, Bool.or_true]
  | suspend => simp only [hne, ne_eq, not_false_eq_true, decide_true, Bool.true_or]

theorem exists_of_isOk {ε α : Type} {x : Except ε α} (h : x.isOk = true) : ∃ a, x = .ok a := by
  cases x with
  | ok a => exact ⟨a, rfl⟩
  | error e => cases h

/-! ### Accepted schedules -/

theorem parseHhmm_strip (value : String) (h : (parseHhmm value).isOk = true) :
    (parseHhmm (strip value)).isOk = true := by
  obtain ⟨time, htime⟩ := exists_of_isOk h
  unfold parseHhmm at htime ⊢
  dsimp only at htime ⊢
  rw [Python.strip_strip]
  split_ifs at htime ⊢
  · rfl
  · split at htime
    next => rfl
    next => cases htime

theorem stored_isOk {value : String} {time : Option (ℕ × ℕ)} (h : parseHhmm value = .ok time) :
    (parseHhmm ((time.map fun _ => strip value).getD "")).isOk = true := by
  cases time with
  | none => rfl
  | some time => exact parseHhmm_strip value (by rw [h]; rfl)

theorem normalizeDays_eq {value days : String} (h : normalizeDays value = .ok days) :
    normalizeDays days = .ok days := by
  unfold normalizeDays at h
  dsimp only at h
  split_ifs at h with hblank hshape hnone
  · obtain rfl := Except.ok.inj h
    decide
  · obtain rfl := Except.ok.inj h
    unfold normalizeDays
    dsimp only
    rw [Python.strip_strip, if_neg hblank, if_neg hshape, if_neg (not_not.mpr hnone)]

/-- What the validator accepts parses in every column. -/
theorem readable_of_accepted {lib : TimeLibrary} {schedule : Schedule}
    (h : Accepted lib schedule) : Readable lib schedule := by
  obtain ⟨request, h⟩ := h
  obtain ⟨suspend, hsuspend, h⟩ := Machine.bind_eq_ok h
  obtain ⟨resume, hresume, h⟩ := Machine.bind_eq_ok h
  obtain ⟨-, h⟩ := Machine.raiseIf_eq_ok h
  obtain ⟨zone, hzone, h⟩ := Machine.bind_eq_ok h
  obtain ⟨days, hdays, h⟩ := Machine.bind_eq_ok h
  obtain rfl := Except.ok.inj h
  refine ⟨?_, ?_, stored_isOk hsuspend, stored_isOk hresume⟩
  · rw [getD_orNone]
    unfold resolveTimezone at hzone ⊢
    dsimp only at hzone ⊢
    rw [Python.strip_strip, hzone]
    rfl
  · rw [getD_orNone]
    split_ifs at hdays
    · rw [normalizeDays_eq hdays]
      rfl
    · obtain rfl := Except.ok.inj hdays
      rfl

/-- The walk of an evaluation over a schedule whose columns parse. -/
theorem dueCrossing_eq {lib : TimeLibrary} {schedule : Schedule} (hread : Readable lib schedule)
    (hhas : hasSchedule schedule = true) (allow : List Action) {last now : Instant} (hlast : last < now)
    (hspan : now - last ≤ maxCatchup) :
    ∃ (zone : Zone) (days : String) (parsed : Action → Option (ℕ × ℕ)),
      resolveTimezone lib (schedule.scheduleTimezone.getD "") = .ok zone ∧
      normalizeDays (schedule.scheduleDays.getD "") = .ok days ∧
      (∀ action, parseHhmm (schedule.timeOf action) = .ok (parsed action)) ∧
      dueCrossing lib schedule (some last) now allow =
        .ok ((bothActions.flatMap fun action => if action ∈ allow then
          (parsed action).elim [] fun time => (boundaries time zone days last now).map (·, action)
          else []).insertionSort before).getLast? := by
  obtain ⟨hzone, hdays, hsuspend, hresume⟩ := hread
  obtain ⟨zone, hzone⟩ := exists_of_isOk hzone
  obtain ⟨days, hdays⟩ := exists_of_isOk hdays
  obtain ⟨suspend, hsuspend⟩ := exists_of_isOk hsuspend
  obtain ⟨resume, hresume⟩ := exists_of_isOk hresume
  let parsed : Action → Option (ℕ × ℕ)
    | .suspend => suspend
    | .resume => resume
  refine ⟨zone, days, parsed, hzone, hdays, ?_, ?_⟩
  · rintro (_ | _)
    · exact hresume
    · exact hsuspend
  · have hs := crossings_of_parse zone days last now allow hsuspend
    have hr := crossings_of_parse zone days last now allow hresume
    unfold dueCrossing
    simp only [if_pos hhas, if_neg (not_le.mpr hlast), if_neg (not_lt.mpr hspan), hzone, hdays,
      bind, Except.bind, hs, hr]
    simp only [bothActions, List.flatMap_cons, List.flatMap_nil, List.append_nil]
    rfl

/-- A boundary an evaluation may act on. -/
structure Crossed (lib : TimeLibrary) (schedule : Schedule) (allow : List Action)
    (checked : Option Instant) (now : Instant) (c : Crossing) : Prop where
  boundary : Boundary lib schedule c
  allowed : c.2 ∈ allow
  inside : Interval checked now c.1

theorem steady_of_resolve {lib : TimeLibrary}
    (hsteady : ∀ name zone, lib.zoneInfo name = some zone → Steady zone) {name : String} {zone : Zone}
    (h : resolveTimezone lib name = .ok zone) : Steady zone := by
  unfold resolveTimezone at h
  dsimp only at h
  split_ifs at h
  · exact Except.ok.inj h ▸ steady_utc
  · split at h
    next hfound => exact hsteady _ _ (Except.ok.inj h ▸ hfound)
    next => cases h

/-- An evaluation answers with the last boundary it may act on. -/
theorem dueCrossing_spec {lib : TimeLibrary}
    (hsteady : ∀ name zone, lib.zoneInfo name = some zone → Steady zone) {schedule : Schedule}
    (hread : Readable lib schedule) (allow : List Action) {last now : Instant} (hlast : last < now)
    (hspan : now - last ≤ maxCatchup) :
    ∃ found, dueCrossing lib schedule (some last) now allow = .ok found ∧
      (found = none → ∀ d, ¬Crossed lib schedule allow (some last) now d) ∧
      ∀ c ∈ found, Crossed lib schedule allow (some last) now c ∧
        ∀ d, Crossed lib schedule allow (some last) now d → before d c := by
  by_cases hhas : hasSchedule schedule = true
  · obtain ⟨zone, days, parsed, hzone, hdays, hparsed, heq⟩ :=
      dueCrossing_eq hread hhas allow hlast hspan
    have hmem (d : Crossing) : (d ∈ bothActions.flatMap fun action => if action ∈ allow then
        (parsed action).elim [] fun time => (boundaries time zone days last now).map (·, action)
        else []) ↔ Crossed lib schedule allow (some last) now d := by
      rw [List.mem_flatMap]
      constructor
      · rintro ⟨action, -, hin⟩
        split_ifs at hin with hallow
        · have hparse := hparsed action
          cases hsome : parsed action with
          | none =>
            rw [hsome] at hin
            cases hin
          | some time =>
            rw [hsome] at hin hparse
            obtain ⟨t, ht, rfl⟩ := List.mem_map.mp hin
            obtain ⟨hstart, hend, day, hopen, hinstant⟩ := inside_of_mem_boundaries ht
            exact ⟨⟨zone, days, time, day, hzone, hdays, hparse, hopen, hinstant⟩, hallow,
              last, rfl, hstart, hend, hspan⟩
        · cases hin
      · rintro ⟨⟨zone', days', time, day, hzone', hdays', hparse, hopen, ht⟩, hallow,
          last', hlast', hstart, hend, -⟩
        obtain rfl := Option.some.inj hlast'
        obtain rfl := Except.ok.inj (hzone.symm.trans hzone')
        obtain rfl := Except.ok.inj (hdays.symm.trans hdays')
        have hsome : parsed d.2 = some time := Except.ok.inj ((hparsed d.2).symm.trans hparse)
        refine ⟨d.2, mem_bothActions d.2, ?_⟩
        rw [if_pos hallow, hsome]
        rw [ht] at hstart hend
        exact List.mem_map.mpr ⟨_, mem_boundaries (steady_of_resolve hsteady hzone)
          (clock_lt_of_parseHhmm hparse) (Nat.sub_le_iff_le_add'.mp hspan) hopen hstart hend,
          Prod.ext ht.symm rfl⟩
    refine ⟨_, heq, fun hnone d hd => ?_, fun c hc => ?_⟩
    · obtain ⟨c, hc⟩ := getLast?_sorted_of_mem ((hmem d).mpr hd)
      rw [hnone] at hc
      cases hc
    · obtain ⟨hin, hgreatest⟩ := getLast?_sorted hc
      exact ⟨(hmem c).mp hin, fun d hd => hgreatest d ((hmem d).mpr hd)⟩
  · refine ⟨none, ?_, fun _ d hd => ?_, fun c hc => by cases hc⟩
    · unfold dueCrossing
      rw [if_neg hhas]
    · obtain ⟨-, -, time, -, -, -, hparse, -⟩ := hd.boundary
      exact hhas (hasSchedule_of_parse hparse)

/-- An evaluation whose interval holds a boundary answers with the last of them. -/
theorem lastBoundary_of_boundary {lib : TimeLibrary}
    (hsteady : ∀ name zone, lib.zoneInfo name = some zone → Steady zone) {schedule : Schedule}
    (hread : Readable lib schedule) {checked : Option Instant} {now : Instant} {b : Crossing}
    (hb : Boundary lib schedule b) (hinside : Interval checked now b.1) :
    ∃ c, dueCrossing lib schedule checked now bothActions = .ok (some c) ∧
      LastBoundary lib schedule checked now c := by
  obtain ⟨last, rfl, hafter, hnow, hspan⟩ := hinside
  obtain ⟨found, hdue, hnone, hsome⟩ :=
    dueCrossing_spec hsteady hread bothActions (hafter.trans_le hnow) hspan
  cases found with
  | none => exact absurd ⟨hb, mem_bothActions b.2, last, rfl, hafter, hnow, hspan⟩ (hnone rfl b)
  | some c =>
    obtain ⟨hcrossed, hgreatest⟩ := hsome c rfl
    exact ⟨c, hdue, hcrossed.boundary, hcrossed.inside, fun d hd hdin =>
      hgreatest d ⟨hd, mem_bothActions d.2, hdin⟩⟩

end Suspend
