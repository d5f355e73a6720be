import VmDashboard.Windows.Recurrence

/-!
# How far the search for an occurrence reaches

`next_occurrence` walks nine local days from yesterday, and a window lasts up to seven. The zone is
any whose wall clock follows the two laws of `Zone.Lawful`.
-/

namespace Windows
open Python (Instant minutes seconds weekday dayLength)

/-- The same wall clock reading does not come earlier on the next day, and it is not past on the
second day from now. Both hold where clocks change and where a date is skipped or repeated. -/
structure Zone.Lawful (zone : Zone) : Prop where
  mono : ∀ day time, zone.instant day time ≤ zone.instant (day + 1) time
  ahead : ∀ t day time, zone.localDay t + 1 < day → t < zone.instant day time

def TimeLibrary.Lawful (lib : TimeLibrary) : Prop :=
  ∀ name zone, lib.zoneInfo name = some zone → zone.Lawful

theorem utc_lawful : utc.Lawful := by
  refine ⟨fun day time => ?_, fun t day time h => ?_⟩
  · show (day * dayLength + time).toNat ≤ ((day + 1) * dayLength + time).toNat
    have hday : (day + 1) * (dayLength : ℤ) = day * dayLength + dayLength := by
      rw [Int.add_mul, Int.one_mul]
    omega
  · show t < (day * dayLength + time).toNat
    have hday : ((t / dayLength : ℕ) : ℤ) + 1 < day := h
    have hlt : t < dayLength * (t / dayLength + 1) := Nat.lt_mul_div_succ t (by decide)
    generalize t / dayLength = today at hday hlt
    have hle : ((today : ℤ) + 1) * dayLength ≤ day * dayLength :=
      Int.mul_le_mul_of_nonneg_right (by omega) (by omega)
    have hcast : ((dayLength * (today + 1) : ℕ) : ℤ) = ((today : ℤ) + 1) * dayLength := by
      rw [Nat.mul_comm, Nat.cast_mul, Nat.cast_add, Nat.cast_one]
    refine Int.lt_toNat.mpr ?_
    calc (t : ℤ) < ((dayLength * (today + 1) : ℕ) : ℤ) := Int.ofNat_lt.mpr hlt
      _ = ((today : ℤ) + 1) * dayLength := hcast
      _ ≤ day * dayLength := hle
      _ ≤ day * dayLength + time := by omega

theorem resolveTimezone_lawful {lib : TimeLibrary} (hlib : lib.Lawful) {name : String} {zone : Zone}
    (h : resolveTimezone lib name = .ok zone) : zone.Lawful := by
  simp only [resolveTimezone] at h
  split at h
  · obtain rfl := Except.ok.inj h
    exact utc_lawful
  · split at h
    next found hfound =>
      obtain rfl := Except.ok.inj h
      exact hlib _ _ hfound
    next => cases h

/-- The window opens on the day and closes after `after`. -/
def Rule.Usable (rule : Rule) (after : Instant) (day : ℤ) : Prop :=
  rule.opensOn day ∧ after < rule.close day

instance (rule : Rule) (after : Instant) (day : ℤ) : Decidable (rule.Usable after day) :=
  inferInstanceAs (Decidable (_ ∧ _))

/-- The first usable one of the `n` days from `day`. -/
structure Rule.First (rule : Rule) (after : Instant) (n : ℕ) (day found : ℤ) : Prop where
  from_le : day ≤ found
  lt_end : found < day + n
  usable : rule.Usable after found
  least : ∀ other, day ≤ other → other < found → ¬rule.Usable after other

theorem Rule.walk_eq_some {rule : Rule} {after : Instant} {n : ℕ} {day : ℤ}
    {span : Instant × Instant} (h : rule.walk after n day = some span) :
    ∃ found, rule.First after n day found ∧ span = (rule.start found, rule.close found) := by
  induction n generalizing day with
  | zero => cases h
  | succ n ih =>
    unfold Rule.walk at h
    split at h
    next husable =>
      refine ⟨day, ⟨le_rfl, by omega, husable, fun other hle hlt => ?_⟩, (Option.some.inj h).symm⟩
      omega
    next hnot =>
      obtain ⟨found, hfirst, hspan⟩ := ih h
      have hfrom := hfirst.from_le
      have hend := hfirst.lt_end
      refine ⟨found, ⟨by omega, by omega, hfirst.usable, fun other hle hlt => ?_⟩, hspan⟩
      by_cases hother : other = day
      · rw [hother]
        exact hnot
      · exact hfirst.least other (by omega) hlt

theorem Rule.walk_eq_none {rule : Rule} {after : Instant} {n : ℕ} {day : ℤ}
    (h : rule.walk after n day = none) {other : ℤ} (hle : day ≤ other) (hlt : other < day + n) :
    ¬rule.Usable after other := by
  induction n generalizing day with
  | zero => omega
  | succ n ih =>
    unfold Rule.walk at h
    split at h
    next => cases h
    next hnot =>
      by_cases hother : other = day
      · rw [hother]
        exact hnot
      · exact ih h (by omega) (by omega)

theorem Rule.start_mono {rule : Rule} (hzone : rule.zone.Lawful) {day other : ℤ}
    (h : day ≤ other) : rule.start day ≤ rule.start other := by
  obtain ⟨n, rfl⟩ := Int.le.dest h
  induction n with
  | zero => rw [Nat.cast_zero, add_zero]
  | succ n ih =>
    have hnext := hzone.mono (day + n) rule.time
    rw [Nat.cast_succ, ← add_assoc]
    exact (ih (by omega)).trans hnext

/-- Where `next_occurrence` begins to walk. -/
def Rule.origin (rule : Rule) (after : Instant) : ℤ := rule.zone.localDay after - 1

theorem Rule.First.start_le {rule : Rule} (hzone : rule.zone.Lawful) {after : Instant} {n : ℕ}
    {day found : ℤ} (h : rule.First after n day found) {other : ℤ} (hle : day ≤ other)
    (husable : rule.Usable after other) : rule.start found ≤ rule.start other := by
  refine rule.start_mono hzone ?_
  by_contra hlt
  exact h.least other hle (by omega) husable

/-! ### `next_occurrence` -/

/-- Only on tomorrow's weekday, and tomorrow's occurrence is over already: the clock of the zone
goes back over midnight. -/
def Rule.TomorrowOver (rule : Rule) (after : Instant) : Prop :=
  (∀ day, rule.opensOn day → weekday day = weekday (rule.origin after + 2)) ∧
    rule.close (rule.origin after + 2) ≤ after

/-- An occurrence from before yesterday is still open, and starts before all later ones. -/
def Rule.OpenBefore (rule : Rule) (after : Instant) : Prop :=
  ∃ day, day < rule.origin after ∧ rule.Usable after day ∧
    ∀ later, rule.origin after ≤ later → rule.opensOn later → rule.start day < rule.start later

/-- The first occurrence that closes after `after`. -/
def Earliest (lib : TimeLibrary) (window : ChangeWindow) (after start close : Instant) : Prop :=
  (Occurrence lib window start close ∧ after < close) ∧
    ∀ start' close', Occurrence lib window start' close' → after < close' → start ≤ start'

theorem Rule.opensOn_congr {rule : Rule} {day other : ℤ} (h : weekday day = weekday other)
    (hopen : rule.opensOn day) : rule.opensOn other := by
  unfold Rule.opensOn at hopen ⊢
  rw [← h]
  exact hopen

/-- Each weekday comes again in any seven days. -/
theorem Rule.exists_opensOn {rule : Rule} {day : ℤ} (hopen : rule.opensOn day) (first : ℤ) :
    ∃ other, first ≤ other ∧ other < first + 7 ∧ weekday other = weekday day ∧
      rule.opensOn other := by
  refine ⟨first + (day - first) % 7, by omega, by omega, ?_, ?_⟩
  · unfold weekday
    omega
  · refine rule.opensOn_congr ?_ hopen
    unfold weekday
    omega

theorem normalizeDays_selected {value days : String} (h : normalizeDays value = .ok days) :
    ∃ i < 7, days.toList[i]? = some '1' := by
  simp only [normalizeDays] at h
  split at h
  · obtain rfl := Except.ok.inj h
    exact ⟨0, by omega, rfl⟩
  · split at h
    next => cases h
    next hseven =>
      split at h
      next => cases h
      next hone =>
        obtain rfl := Except.ok.inj h
        rw [not_or, not_not] at hseven
        rw [not_not] at hone
        obtain ⟨i, hi, hget⟩ := List.getElem_of_mem (List.contains_iff_mem.mp hone)
        exact ⟨i, by omega, by rw [List.getElem?_eq_getElem hi, hget]⟩

theorem ChangeWindow.rule_days {lib : TimeLibrary} {window : ChangeWindow} {rule : Rule}
    (h : window.rule lib = .ok rule) : ∃ day, rule.opensOn day := by
  unfold ChangeWindow.rule at h
  obtain ⟨zone, -, h⟩ := Machine.bind_eq_ok h
  obtain ⟨days, hdays, h⟩ := Machine.bind_eq_ok h
  obtain ⟨time, -, h⟩ := Machine.bind_eq_ok h
  obtain ⟨i, hi, hget⟩ := normalizeDays_selected hdays
  have hrule : rule.days = days.toList := by
    cases time with
    | none => cases h
    | some time =>
      simp only at h
      split at h
      · cases h
      · obtain rfl := Except.ok.inj h
        rfl
  refine ⟨i, ?_⟩
  have hday : ((i : ℤ) % 7).toNat = i := by omega
  show rule.days[((i : ℤ) % 7).toNat]? = some '1'
  rw [hrule, hday]
  exact hget

theorem ChangeWindow.rule_zone {lib : TimeLibrary} (hlib : lib.Lawful) {window : ChangeWindow}
    {rule : Rule} (h : window.rule lib = .ok rule) : rule.zone.Lawful := by
  unfold ChangeWindow.rule at h
  obtain ⟨zone, hzone, h⟩ := Machine.bind_eq_ok h
  obtain ⟨days, -, h⟩ := Machine.bind_eq_ok h
  obtain ⟨time, -, h⟩ := Machine.bind_eq_ok h
  have hrule : rule.zone = zone := by
    cases time with
    | none => cases h
    | some time =>
      simp only at h
      split at h
      · cases h
      · obtain rfl := Except.ok.inj h
        rfl
  rw [hrule]
  exact resolveTimezone_lawful hlib hzone

/-- The walk meets a usable day unless the window opens on tomorrow's weekday only and tomorrow's
occurrence is over. -/
theorem Rule.exists_usable_iff {rule : Rule} (hzone : rule.zone.Lawful)
    (hdays : ∃ day, rule.opensOn day) (after : Instant) :
    (∃ day, rule.origin after ≤ day ∧ day < rule.origin after + 9 ∧ rule.Usable after day) ↔
      ¬rule.TomorrowOver after := by
  constructor
  · rintro ⟨day, hle, hlt, hopen, hclose⟩ ⟨honly, hover⟩
    have hweekday := honly day hopen
    have htomorrow : day = rule.origin after + 2 := by
      unfold weekday at hweekday
      omega
    rw [htomorrow] at hclose
    exact absurd hclose (Nat.not_lt.mpr hover)
  · intro hnot
    have hahead (day : ℤ) (hday : rule.origin after + 2 < day) : after < rule.close day := by
      have hlt : after < rule.start day := by
        refine hzone.ahead after day rule.time ?_
        unfold Rule.origin at hday
        omega
      exact Nat.lt_add_right _ hlt
    by_cases honly : ∀ day, rule.opensOn day → weekday day = weekday (rule.origin after + 2)
    · have hclose : after < rule.close (rule.origin after + 2) := by
        by_contra hover
        exact hnot ⟨honly, Nat.not_lt.mp hover⟩
      obtain ⟨day, hopen⟩ := hdays
      exact ⟨rule.origin after + 2, by omega, by omega, rule.opensOn_congr (honly day hopen) hopen,
        hclose⟩
    · simp only [not_forall] at honly
      obtain ⟨day, hopen, hne⟩ := honly
      obtain ⟨other, hle, hlt, hsame, hother⟩ := rule.exists_opensOn hopen (rule.origin after + 2)
      have hlater : rule.origin after + 2 < other := by
        refine lt_of_le_of_ne hle ?_
        rintro rfl
        exact hne hsame.symm
      exact ⟨other, by omega, by omega, hother, hahead other hlater⟩

theorem nextOccurrence_of_rule {lib : TimeLibrary} {window : ChangeWindow} {rule : Rule}
    (hrule : window.rule lib = .ok rule) {after start close : Instant}
    (h : nextOccurrence lib window after = .ok (start, close)) :
    ∃ found, rule.First after 9 (rule.origin after) found ∧ start = rule.start found ∧
      close = rule.close found := by
  obtain ⟨rule', hrule', h⟩ := Machine.bind_eq_ok h
  obtain rfl := Except.ok.inj (hrule.symm.trans hrule')
  split at h
  next span hwalk =>
    obtain rfl := Except.ok.inj h
    obtain ⟨found, hfirst, hspan⟩ := rule.walk_eq_some hwalk
    obtain ⟨rfl, rfl⟩ := Prod.mk.inj hspan
    exact ⟨found, hfirst, rfl, rfl⟩
  next => cases h

theorem nextOccurrence_of_usable {lib : TimeLibrary} {window : ChangeWindow} {rule : Rule}
    (hrule : window.rule lib = .ok rule) {after : Instant}
    (h : ∃ day, rule.origin after ≤ day ∧ day < rule.origin after + 9 ∧ rule.Usable after day) :
    ∃ found, rule.First after 9 (rule.origin after) found ∧
      nextOccurrence lib window after = .ok (rule.start found, rule.close found) := by
  cases hwalk : rule.walk after (searchDays + 1) (rule.zone.localDay after - 1) with
  | some span =>
    obtain ⟨found, hfirst, rfl⟩ := rule.walk_eq_some hwalk
    exact ⟨found, hfirst, nextOccurrence_of_walk hrule hwalk⟩
  | none =>
    obtain ⟨day, hle, hlt, husable⟩ := h
    exact absurd husable (rule.walk_eq_none hwalk hle hlt)

theorem Occurrence.exists_day {lib : TimeLibrary} {window : ChangeWindow} {rule : Rule}
    (hrule : window.rule lib = .ok rule) {start close : Instant}
    (h : Occurrence lib window start close) :
    ∃ day, rule.opensOn day ∧ start = rule.start day ∧ close = rule.close day := by
  obtain ⟨rule', day, hrule', hday⟩ := h
  obtain rfl := Except.ok.inj (hrule.symm.trans hrule')
  exact ⟨day, hday⟩

/-- An open occurrence from before yesterday gives way only to one with the same start. -/
theorem Rule.First.start_le_all {rule : Rule} (hzone : rule.zone.Lawful) {after : Instant}
    {found : ℤ} (h : rule.First after 9 (rule.origin after) found) (hbefore : ¬rule.OpenBefore after)
    {day : ℤ} (husable : rule.Usable after day) : rule.start found ≤ rule.start day := by
  by_cases hday : rule.origin after ≤ day
  · exact h.start_le hzone hday husable
  · have hsame : ∃ later, rule.origin after ≤ later ∧ rule.opensOn later ∧
        ¬rule.start day < rule.start later := by
      by_contra hnone
      refine hbefore ⟨day, by omega, husable, fun later hlater hopen => ?_⟩
      by_contra hlt
      exact hnone ⟨later, hlater, hopen, hlt⟩
    obtain ⟨later, hlater, hopen, hnot⟩ := hsame
    have hle : rule.start later ≤ rule.start day := Nat.not_lt.mp hnot
    have hge : rule.start day ≤ rule.start later := rule.start_mono hzone (by omega)
    have hclose : after < rule.close later :=
      Nat.lt_of_lt_of_le husable.2 (Nat.add_le_add_right hge _)
    exact (h.start_le hzone hlater ⟨hopen, hclose⟩).trans hle

/-- On every valid window, and exactly then. -/
theorem nextOccurrence_earliest_iff {lib : TimeLibrary} (hlib : lib.Lawful) {window : ChangeWindow}
    {rule : Rule} (hrule : window.rule lib = .ok rule) (after : Instant) :
    (∃ start close, nextOccurrence lib window after = .ok (start, close) ∧
      Earliest lib window after start close) ↔
      ¬rule.OpenBefore after ∧ ¬rule.TomorrowOver after := by
  have hzone := window.rule_zone hlib hrule
  have hreach := rule.exists_usable_iff hzone (window.rule_days hrule) after
  constructor
  · rintro ⟨start, close, hnext, -, hearliest⟩
    obtain ⟨found, hfirst, rfl, rfl⟩ := nextOccurrence_of_rule hrule hnext
    refine ⟨?_, hreach.mp ⟨found, hfirst.from_le, hfirst.lt_end, hfirst.usable⟩⟩
    rintro ⟨day, -, husable, hlater⟩
    have hle := hearliest _ _ ⟨rule, day, hrule, husable.1, rfl, rfl⟩ husable.2
    have hlt := hlater found hfirst.from_le hfirst.usable.1
    exact absurd hlt (Nat.not_lt.mpr hle)
  · rintro ⟨hbefore, htomorrow⟩
    obtain ⟨found, hfirst, hnext⟩ := nextOccurrence_of_usable hrule (hreach.mpr htomorrow)
    refine ⟨rule.start found, rule.close found, hnext, nextOccurrence_ok hnext, ?_⟩
    intro start' close' hoccurrence hclose
    obtain ⟨day, hopen, rfl, rfl⟩ := hoccurrence.exists_day hrule
    exact hfirst.start_le_all hzone hbefore ⟨hopen, hclose⟩

theorem noZones_lawful : noZones.Lawful := nofun

/-- Three days from Monday at midnight. -/
def migration : ChangeWindow := ⟨"w1", "migration", "00:00", 4320, none, "1000000", some true⟩

def migrationRule : Rule := ⟨utc, "1000000".toList, 0, minutes 4320⟩

theorem migration_rule : migration.rule noZones = .ok migrationRule := rfl

/-- On the Wednesday the open occurrence is passed over for the next Monday's. -/
theorem third_day_passed_over : ¬∃ start close,
    nextOccurrence noZones migration (739622 * dayLength) = .ok (start, close) ∧
      Earliest noZones migration (739622 * dayLength) start close := by
  rintro ⟨start, close, hnext, -, hearliest⟩
  have hnow : Occurrence noZones migration (migrationRule.start 739620) (migrationRule.close 739620) :=
    ⟨migrationRule, 739620, migration_rule, by decide, rfl, rfl⟩
  have hle := hearliest _ _ hnow (by decide +kernel)
  have hgot : nextOccurrence noZones migration (739622 * dayLength) =
      .ok (migrationRule.start 739627, migrationRule.close 739627) := by
    decide +kernel
  obtain ⟨rfl, rfl⟩ := Prod.mk.inj (Except.ok.inj (hgot.symm.trans hnext))
  exact absurd hle (by decide +kernel)

/-- On the Tuesday it is found: it began yesterday. -/
theorem second_day_found :
    (∃ start close, nextOccurrence noZones migration (739621 * dayLength) = .ok (start, close) ∧
      Earliest noZones migration (739621 * dayLength) start close) ↔
      ¬migrationRule.OpenBefore (739621 * dayLength) ∧
        ¬migrationRule.TomorrowOver (739621 * dayLength) :=
  nextOccurrence_earliest_iff noZones_lawful migration_rule _

/-! ### `occurrence_covering` -/

def Covered (lib : TimeLibrary) (window : ChangeWindow) (t : Instant) : Prop :=
  ∃ start close, Occurrence lib window start close ∧ start ≤ t ∧ t < close

/-- Of the nine days walked from the second before `t`, one has an occurrence with `t` in it and
none has one that ends in that second. -/
structure Rule.Reached (rule : Rule) (t : Instant) : Prop where
  covered : ∃ day, rule.origin (t - seconds 1) ≤ day ∧ day < rule.origin (t - seconds 1) + 9 ∧
    rule.opensOn day ∧ rule.start day ≤ t ∧ t < rule.close day
  unfinished : ∀ day, rule.origin (t - seconds 1) ≤ day → day < rule.origin (t - seconds 1) + 9 →
    rule.Usable (t - seconds 1) day → t < rule.close day

theorem Rule.First.close_le {rule : Rule} (hzone : rule.zone.Lawful) {after : Instant} {n : ℕ}
    {day found : ℤ} (h : rule.First after n day found) {other : ℤ} (hle : day ≤ other)
    (husable : rule.Usable after other) : rule.close found ≤ rule.close other :=
  Nat.add_le_add_right (h.start_le hzone hle husable) _

theorem occurrenceCovering_of_reached {lib : TimeLibrary} {window : ChangeWindow} {rule : Rule}
    (hzone : rule.zone.Lawful) (hrule : window.rule lib = .ok rule) {t : Instant}
    (h : rule.Reached t) : occurrenceCovering lib window t = true := by
  obtain ⟨day, hle, hlt, hopen, hstart, hclose⟩ := h.covered
  have hbefore : t - seconds 1 ≤ t := Nat.sub_le _ _
  have husable : rule.Usable (t - seconds 1) day := ⟨hopen, Nat.lt_of_le_of_lt hbefore hclose⟩
  obtain ⟨found, hfirst, hnext⟩ := nextOccurrence_of_usable hrule ⟨day, hle, hlt, husable⟩
  refine occurrenceCovering_iff.mpr ⟨_, _, hnext, ?_, ?_⟩
  · exact (hfirst.start_le hzone hle husable).trans hstart
  · exact h.unfinished found hfirst.from_le hfirst.lt_end hfirst.usable

theorem reached_of_occurrenceCovering {lib : TimeLibrary} {window : ChangeWindow} {rule : Rule}
    (hzone : rule.zone.Lawful) (hrule : window.rule lib = .ok rule) {t : Instant}
    (h : occurrenceCovering lib window t = true) : rule.Reached t := by
  obtain ⟨start, close, hnext, hstart, hclose⟩ := occurrenceCovering_iff.mp h
  obtain ⟨found, hfirst, rfl, rfl⟩ := nextOccurrence_of_rule hrule hnext
  refine ⟨⟨found, hfirst.from_le, hfirst.lt_end, hfirst.usable.1, hstart, hclose⟩, ?_⟩
  intro day hle _ husable
  exact Nat.lt_of_lt_of_le hclose (hfirst.close_le hzone hle husable)

/-- The check tells whether `t` is in an occurrence, and exactly then. -/
theorem occurrenceCovering_exact_iff {lib : TimeLibrary} (hlib : lib.Lawful)
    {window : ChangeWindow} {rule : Rule} (hrule : window.rule lib = .ok rule) (t : Instant) :
    (occurrenceCovering lib window t = true ↔ Covered lib window t) ↔
      (Covered lib window t → rule.Reached t) := by
  have hzone := window.rule_zone hlib hrule
  constructor
  · intro hexact hcovered
    exact reached_of_occurrenceCovering hzone hrule (hexact.mpr hcovered)
  · intro hreached
    constructor
    · exact occurrenceCovering_sound
    · intro hcovered
      exact occurrenceCovering_of_reached hzone hrule (hreached hcovered)

/-- A whole day, every day. -/
def allDay : ChangeWindow := ⟨"w2", "all day", "00:00", 1440, none, "1111111", some true⟩

def allDayRule : Rule := ⟨utc, daysAll.toList, 0, minutes 1440⟩

theorem allDay_rule : allDay.rule noZones = .ok allDayRule := rfl

/-- At midnight yesterday's occurrence is found, which ends there. -/
theorem midnight_uncovered :
    ¬(occurrenceCovering noZones allDay (739620 * dayLength) = true ↔
      Covered noZones allDay (739620 * dayLength)) := by
  intro hexact
  have hcovered : Covered noZones allDay (739620 * dayLength) :=
    ⟨allDayRule.start 739620, allDayRule.close 739620,
      ⟨allDayRule, 739620, allDay_rule, by decide, rfl, rfl⟩, by decide +kernel, by decide +kernel⟩
  exact absurd (hexact.mpr hcovered) (by decide +kernel)

theorem noon_covered :
    (occurrenceCovering noZones allDay (739620 * dayLength + minutes 720) = true ↔
      Covered noZones allDay (739620 * dayLength + minutes 720)) ↔
      (Covered noZones allDay (739620 * dayLength + minutes 720) →
        allDayRule.Reached (739620 * dayLength + minutes 720)) :=
  occurrenceCovering_exact_iff noZones_lawful allDay_rule _

end Windows
