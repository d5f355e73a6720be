import VmDashboard.Suspend.Schedule

/-!
# Consecutive evaluations

What an evaluation of an interval answers is what the later of two consecutive evaluations of its parts
does, or the earlier one when the later has nothing to do.
-/

namespace Suspend
open Python (Instant)
open Windows (TimeLibrary Zone)

variable {lib : TimeLibrary} {schedule : Schedule} {allow : List Action} {a b c t : Instant}

/-- Consecutive intervals share nothing and leave nothing out. -/
theorem interval_split (hab : a < b) (hbc : b < c) (hspan : c - a ≤ maxCatchup) :
    (Interval (some a) c t ↔ Interval (some a) b t ∨ Interval (some b) c t) ∧
      ¬(Interval (some a) b t ∧ Interval (some b) c t) := by
  have hearly : b - a ≤ maxCatchup := (Nat.sub_le_sub_right hbc.le a).trans hspan
  have hlate : c - b ≤ maxCatchup := (Nat.sub_le_sub_left hab.le c).trans hspan
  refine ⟨⟨?_, ?_⟩, ?_⟩
  · rintro ⟨last, hlast, hafter, hnow, -⟩
    obtain rfl := Option.some.inj hlast
    rcases Nat.lt_or_ge b t with hbt | htb
    · exact .inr ⟨b, rfl, hbt, hnow, hlate⟩
    · exact .inl ⟨_, rfl, hafter, htb, hearly⟩
  · rintro (⟨last, hlast, hafter, hnow, -⟩ | ⟨last, hlast, hafter, hnow, -⟩)
    · obtain rfl := Option.some.inj hlast
      exact ⟨_, rfl, hafter, hnow.trans hbc.le, hspan⟩
    · obtain rfl := Option.some.inj hlast
      exact ⟨a, rfl, hab.trans hafter, hnow, hspan⟩
  · rintro ⟨⟨-, -, -, htb, -⟩, last, hlast, hbt, -⟩
    obtain rfl := Option.some.inj hlast
    exact absurd hbt (not_lt.mpr htb)

variable (lib schedule allow) in
theorem crossed_split (hab : a < b) (hbc : b < c) (hspan : c - a ≤ maxCatchup) (d : Crossing) :
    Crossed lib schedule allow (some a) c d ↔
      Crossed lib schedule allow (some a) b d ∨ Crossed lib schedule allow (some b) c d := by
  constructor
  · rintro ⟨hboundary, hallow, hinside⟩
    rcases (interval_split hab hbc hspan).1.mp hinside with hearly | hlate
    · exact .inl ⟨hboundary, hallow, hearly⟩
    · exact .inr ⟨hboundary, hallow, hlate⟩
  · rintro (⟨hboundary, hallow, hinside⟩ | ⟨hboundary, hallow, hinside⟩)
    · exact ⟨hboundary, hallow, (interval_split hab hbc hspan).1.mpr (.inl hinside)⟩
    · exact ⟨hboundary, hallow, (interval_split hab hbc hspan).1.mpr (.inr hinside)⟩

/-- Two crossings each before the other are one. -/
theorem before_antisymm {d e : Crossing} (hde : before d e) (hed : before e d) : d = e := by
  have hkey := le_antisymm (before_iff.mp hde) (before_iff.mp hed)
  obtain ⟨htime, htext⟩ := Prod.mk.inj (toLex.injective hkey)
  exact Prod.ext htime (Action.text_injective htext)

variable (allow) in
/-- The deciding crossings compose. -/
theorem dueCrossing_compose (hsteady : ∀ name zone, lib.zoneInfo name = some zone → Steady zone)
    (hread : Readable lib schedule) (hab : a < b) (hbc : b < c) (hspan : c - a ≤ maxCatchup) :
    ∃ early late, dueCrossing lib schedule (some a) b allow = .ok early ∧
      dueCrossing lib schedule (some b) c allow = .ok late ∧
      dueCrossing lib schedule (some a) c allow = .ok (late.or early) := by
  obtain ⟨early, hearly, hearlyNone, hearlySome⟩ :=
    dueCrossing_spec hsteady hread allow hab ((Nat.sub_le_sub_right hbc.le a).trans hspan)
  obtain ⟨late, hlate, hlateNone, hlateSome⟩ :=
    dueCrossing_spec hsteady hread allow hbc ((Nat.sub_le_sub_left hab.le c).trans hspan)
  obtain ⟨whole, hwhole, hwholeNone, hwholeSome⟩ :=
    dueCrossing_spec hsteady hread allow (hab.trans hbc) hspan
  have hsplit := crossed_split lib schedule allow hab hbc hspan
  refine ⟨early, late, hearly, hlate, hwhole.trans (congrArg Except.ok ?_)⟩
  -- Every crossing of the late interval is after every one of the early interval.
  have hlast : ∀ d ∈ late.or early, Crossed lib schedule allow (some a) c d ∧
      ∀ e, Crossed lib schedule allow (some a) c e → before e d := by
    intro d hd
    cases late with
    | some d' =>
      obtain rfl := Option.some.inj hd
      obtain ⟨hcrossed, hgreatest⟩ := hlateSome d' rfl
      refine ⟨(hsplit d').mpr (.inr hcrossed), fun e he => ?_⟩
      rcases (hsplit e).mp he with he | he
      · obtain ⟨-, -, -, hle, -⟩ := he.inside
        obtain ⟨last, hb, hlt, -⟩ := hcrossed.inside
        obtain rfl := Option.some.inj hb
        exact .inl (hle.trans_lt hlt)
      · exact hgreatest e he
    | none =>
      obtain ⟨hcrossed, hgreatest⟩ := hearlySome d hd
      refine ⟨(hsplit d).mpr (.inl hcrossed), fun e he => ?_⟩
      exact hgreatest e (((hsplit e).mp he).resolve_right (hlateNone rfl e))
  cases hor : late.or early with
  | some d =>
    obtain ⟨hcrossed, hgreatest⟩ := hlast d hor
    cases whole with
    | none => exact absurd hcrossed (hwholeNone rfl d)
    | some e =>
      obtain ⟨hcrossed', hgreatest'⟩ := hwholeSome e rfl
      exact congrArg some (before_antisymm (hgreatest e hcrossed') (hgreatest' d hcrossed))
  | none =>
    obtain ⟨rfl, rfl⟩ := Option.or_eq_none_iff.mp hor
    cases whole with
    | none => rfl
    | some e =>
      rcases (hsplit e).mp (hwholeSome e rfl).1 with he | he
      · exact absurd he (hearlyNone rfl e)
      · exact absurd he (hlateNone rfl e)

/-- For every accepted schedule and all verbs that may be returned: the answers compose, no boundary is
left to neither of the two evaluations or to both, and the last of those crossed decides. -/
theorem dueAction_compose (hsteady : ∀ name zone, lib.zoneInfo name = some zone → Steady zone)
    (hvalid : Accepted lib schedule) (allow : List Action) (hab : a < b) (hbc : b < c)
    (hspan : c - a ≤ maxCatchup) :
    (∃ early late, dueAction lib schedule (some a) b allow = .ok early ∧
      dueAction lib schedule (some b) c allow = .ok late ∧
      dueAction lib schedule (some a) c allow = .ok (late.or early)) ∧
    (∀ d, Crossed lib schedule allow (some a) c d →
      Xor (Crossed lib schedule allow (some a) b d) (Crossed lib schedule allow (some b) c d)) ∧
    ∀ action, dueAction lib schedule (some a) c allow = .ok (some action) ↔
      ∃ d, d.2 = action ∧ Crossed lib schedule allow (some a) c d ∧
        ∀ e, Crossed lib schedule allow (some a) c e → before e d := by
  have hread := readable_of_accepted hvalid
  refine ⟨?_, fun d hd => ?_, fun action => ?_⟩
  · obtain ⟨early, late, hearly, hlate, hwhole⟩ :=
      dueCrossing_compose allow hsteady hread hab hbc hspan
    refine ⟨early.map Prod.snd, late.map Prod.snd, ?_, ?_, ?_⟩
    · rw [dueAction, hearly]
      rfl
    · rw [dueAction, hlate]
      rfl
    · rw [dueAction, hwhole]
      cases late <;> rfl
  · rcases (crossed_split lib schedule allow hab hbc hspan d).mp hd with hearly | hlate
    · exact .inl ⟨hearly, fun hlate => (interval_split hab hbc hspan).2 ⟨hearly.inside, hlate.inside⟩⟩
    · exact .inr ⟨hlate, fun hearly => (interval_split hab hbc hspan).2 ⟨hearly.inside, hlate.inside⟩⟩
  · obtain ⟨found, hfound, hnone, hsome⟩ :=
      dueCrossing_spec hsteady hread allow (hab.trans hbc) hspan
    have hdue : dueAction lib schedule (some a) c allow = .ok (found.map Prod.snd) := by
      rw [dueAction, hfound]
      rfl
    rw [hdue]
    constructor
    · intro h
      obtain ⟨d, hd, haction⟩ := Option.map_eq_some_iff.mp (Except.ok.inj h)
      exact ⟨d, haction, hsome d hd⟩
    · rintro ⟨d, rfl, hd, hgreatest⟩
      cases found with
      | none => exact absurd hd (hnone rfl d)
      | some e =>
        obtain ⟨hcrossed, hlast⟩ := hsome e rfl
        rw [before_antisymm (hlast d hd) (hgreatest e hcrossed)]
        rfl

/-- Asleep from seven in the evening to seven in the morning. -/
def nightly : Schedule := ⟨some "19:00", some "07:00", none, some "1111111"⟩

theorem nightly_compose : ∃ early late,
    dueAction onlyUtc nightly (some 0) (Python.seconds 30000) bothActions = .ok early ∧
    dueAction onlyUtc nightly (some (Python.seconds 30000)) (Python.seconds 80000) bothActions =
      .ok late ∧
    dueAction onlyUtc nightly (some 0) (Python.seconds 80000) bothActions = .ok (late.or early) := by
  exact (dueAction_compose steady_onlyUtc ⟨⟨"19:00", "07:00", "", "1111111"⟩, by decide +kernel⟩ bothActions
    (by decide) (by decide) (by decide)).1

end Suspend
