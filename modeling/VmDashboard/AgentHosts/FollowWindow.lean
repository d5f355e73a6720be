import VmDashboard.AgentHosts.Schedule
import VmDashboard.Windows.Inside

/-!
# A window-mode host follows its window

The host's status, VM and job move together (`Fits`); a hold outlives what sweeps write
while the host is down, and the pinned end what they write while it is up.
-/

namespace AgentHosts
open Python (Instant)
open Windows (TimeLibrary ChangeWindow nextOccurrence Occurrence)

/-! ### What `plan` answers -/

theorem planSpan_running {host : HostRow} (h : host.status = .running)
    (now upFrom upUntil : Instant) :
    planSpan host now upFrom upUntil =
      (if host.nextStopAt.getD upUntil ≤ now then some .stop else none, some upFrom,
        some (host.nextStopAt.getD upUntil)) := by
  simp only [planSpan, h, ↓reduceIte]

/-- A hold that is still to come queues nothing and is never brought forward. -/
theorem planSpan_held {host : HostRow} {now next : Instant} (hup : host.up = false)
    (hnext : host.nextStartAt = some next) (hheld : now < next) (upFrom upUntil : Instant) :
    (planSpan host now upFrom upUntil).1 = none ∧
      ∃ n ∈ (planSpan host now upFrom upUntil).2.1, next ≤ n := by
  have hstatus : host.status ≠ .running := by
    intro hrun
    simp [HostRow.up, hrun] at hup
  unfold planSpan
  rw [if_neg hstatus, if_neg (by simp [hup]), hnext]
  simp only [Option.any_some, Bool.and_eq_true, decide_eq_true_eq]
  split
  · exact ⟨rfl, next, rfl, le_refl next⟩
  next hlater =>
    have hle : next ≤ upFrom := by
      by_contra hlt
      exact hlater ⟨Nat.lt_of_not_le hlt, hheld⟩
    rw [if_neg]
    · exact ⟨rfl, upFrom, rfl, hle⟩
    · rintro ⟨hfrom, -⟩
      exact absurd (hfrom.trans_lt hheld) (Nat.not_lt.mpr hle)

theorem planSpan_wanted {host : HostRow} {now upFrom upUntil : Instant}
    (hparked : host.status = .parked) (hnext : ∀ next ∈ host.nextStartAt, next ≤ now)
    (hfrom : upFrom ≤ now) (huntil : now + minUsefulUp ≤ upUntil) :
    (planSpan host now upFrom upUntil).1 = some .start := by
  have hup : host.up = false := by simp [HostRow.up, hparked]
  have hpast : ¬(host.nextStartAt.any fun next => upFrom < next && now < next) = true := by
    cases hn : host.nextStartAt with
    | none => simp
    | some next =>
      have := hnext next hn
      simp only [Option.any_some, Bool.and_eq_true, decide_eq_true_eq, not_and]
      exact fun _ => Nat.not_lt.mpr this
  have hpos : 0 < minUsefulUp := by decide
  unfold planSpan
  rw [if_neg (by simp [hparked]), if_neg (by simp [hup]), if_neg hpast, if_pos]
  exact ⟨hfrom, (Nat.lt_add_of_pos_right hpos).trans_le huntil, hparked,
    Nat.le_sub_of_add_le (by rwa [Nat.add_comm])⟩

theorem planSpan_action (host : HostRow) (now upFrom upUntil : Instant) :
    (∀ action ∈ (planSpan host now upFrom upUntil).1,
      action = .start ∧ host.status = .parked ∨ action = .stop ∧ host.up = true) := by
  unfold planSpan
  split
  next hrun =>
    intro action haction
    dsimp only at haction
    split at haction
    · obtain rfl := Option.some.inj haction
      exact .inr ⟨rfl, by simp [HostRow.up, hrun]⟩
    · cases haction
  split
  next hup =>
    intro action haction
    obtain rfl := Option.some.inj haction
    exact .inr ⟨rfl, hup.1⟩
  split
  · exact nofun
  split
  next huseful =>
    intro action haction
    obtain rfl := Option.some.inj haction
    exact .inl ⟨rfl, huseful.2.2.1⟩
  · exact nofun

theorem plan_action (lib : TimeLibrary) (host : HostRow) (window : Option ChangeWindow)
    (now : Instant) : ∀ action ∈ (plan lib host window now).1,
      action = .start ∧ host.status = .parked ∨ action = .stop ∧ host.up = true := by
  unfold plan
  split
  · split
    next hup =>
      intro action haction
      obtain rfl := Option.some.inj haction
      exact .inr ⟨rfl, hup.2⟩
    · exact nofun
  · exact nofun
  · split
    · exact nofun
    split
    · exact nofun
    split
    · exact nofun
    · exact planSpan_action _ _ _ _

namespace Following

theorem plan_found {lib : TimeLibrary} {s : State} {now start close : Instant}
    (hmode : s.host.mode = .window) (hwindow : s.window.enabled ≠ some false)
    (hfound : nextOccurrence lib s.window (now - s.host.grace) = .ok (start, close)) :
    plan lib s.host (some s.window) now =
      planSpan s.host now (start - s.host.lead) (close + s.host.grace) := by
  simp only [plan, hmode, hwindow, ↓reduceIte, windowSpan, hfound]

/-! ### Status, VM and job -/

/-- What a host's row is while its job stands where it does. -/
def Fits (host : HostRow) : Option (Action × JobPhase) → Prop
  | none =>
    host.status = .parked ∧ host.hostId = none ∨ host.status = .running ∧ host.hostId.isSome
  | some (.start, .queued) => host.status = .provisioning ∧ host.hostId = none
  | some (.start, .working) => host.status = .starting ∧ host.hostId = none
  | some (.stop, .working) => host.status = .stopping ∧ host.hostId.isSome
  | some (.stop, .written) => host.status = .parked ∧ host.hostId = none
  | some (.start, .written) | some (.stop, .queued) => host.status = .running ∧ host.hostId.isSome
  | some (.delete, _) => False

structure Invariant (lib : TimeLibrary) (s : State) : Prop where
  mode : s.host.mode = .window
  fits : Fits s.host s.job
  held : ∀ stop ∈ s.handStop, ∀ t ≥ s.now, stop.Holds lib t → ∃ next ∈ s.host.nextStartAt, t < next
  pinned : s.host.status = .running → ∀ ending ∈ s.startedFor, s.host.nextStopAt = some ending

theorem Fits.ne_error {host : HostRow} {job : Option (Action × JobPhase)} (h : Fits host job) :
    host.status ≠ .error := by
  unfold Fits at h
  split at h <;> grind

/-- The job of a host that is up has written its row, or is queued to stop it. -/
theorem Fits.running {host : HostRow} {job : Option (Action × JobPhase)} (h : Fits host job)
    (hrun : host.status = .running) :
    job = none ∨ job = some (.start, .written) ∨ job = some (.stop, .queued) := by
  unfold Fits at h
  split at h <;> grind

theorem HandStop.Holds.mono {lib : TimeLibrary} {stop : HandStop} {t t' : Instant}
    (h : stop.Holds lib t') (hle : t ≤ t') : stop.Holds lib t := by
  obtain ⟨start, close, hocc, hspan, hbefore⟩ := h
  exact ⟨start, close, hocc, hspan,
    fun start' close' hocc' hlater => hle.trans_lt (hbefore start' close' hocc' hlater)⟩

/-! ### A pass over the host -/

/-- The row with the columns that `plan` answers. -/
def planned (lib : TimeLibrary) (now : Instant) (s : State) : HostRow :=
  { s.host with
    nextStartAt := (plan lib s.host (some s.window) now).2.1
    nextStopAt := (plan lib s.host (some s.window) now).2.2 }

theorem pass_cases (lib : TimeLibrary) (now : Instant) (s : State) :
    pass lib now s = { s with host := planned lib now s } ∧
        ((plan lib s.host (some s.window) now).1 = none ∨ s.job ≠ none) ∨
      ∃ action ∈ (plan lib s.host (some s.window) now).1, s.job = none ∧
        pass lib now s = enqueue lib now { s with host := planned lib now s } action := by
  unfold pass
  cases haction : (plan lib s.host (some s.window) now).1 with
  | none => exact .inl ⟨by simp only [haction]; rfl, .inl rfl⟩
  | some action =>
    cases hjob : s.job with
    | none => exact .inr ⟨action, rfl, rfl, by simp only [haction]; rfl⟩
    | some job => exact .inl ⟨by simp only [haction]; rfl, .inr nofun⟩

theorem fits_pass {lib : TimeLibrary} {now : Instant} {s : State} (h : Fits s.host s.job) :
    Fits (pass lib now s).host (pass lib now s).job := by
  rcases pass_cases lib now s with ⟨hpass, -⟩ | ⟨action, haction, hjob, hpass⟩
  · rw [hpass]
    exact h
  · rw [hpass]
    have hne := h.ne_error
    rw [hjob] at h
    rcases plan_action lib s.host (some s.window) now action haction with
      ⟨rfl, hparked⟩ | ⟨rfl, hup⟩
    · rcases h with ⟨-, hnone⟩ | ⟨hrun, -⟩
      · simp [enqueue, planned, hparked, hnone, Fits]
      · rw [hparked] at hrun
        cases hrun
    · have hrun : s.host.status = .running := by
        simpa [HostRow.up, hne] using hup
      rcases h with ⟨hparked, -⟩ | ⟨-, hsome⟩
      · rw [hrun] at hparked
        cases hparked
      · exact ⟨hrun, hsome⟩

/-- Only a start changes what the host was started for, and then the host is not up. -/
theorem pass_running {lib : TimeLibrary} {now : Instant} {s : State}
    (hrun : (pass lib now s).host.status = .running) :
    s.host.status = .running ∧ (pass lib now s).startedFor = s.startedFor ∧
      (pass lib now s).host.nextStopAt = (plan lib s.host (some s.window) now).2.2 := by
  rcases pass_cases lib now s with ⟨hpass, -⟩ | ⟨action, haction, hjob, hpass⟩
  · rw [hpass] at hrun ⊢
    exact ⟨hrun, rfl, rfl⟩
  · rw [hpass] at hrun ⊢
    rcases plan_action lib s.host (some s.window) now action haction with
      ⟨rfl, hparked⟩ | ⟨rfl, -⟩
    · simp [enqueue, planned, hparked] at hrun
    · exact ⟨hrun, rfl, rfl⟩

theorem pass_nextStartAt (lib : TimeLibrary) (now : Instant) (s : State) :
    (pass lib now s).host.nextStartAt = (plan lib s.host (some s.window) now).2.1 := by
  rcases pass_cases lib now s with ⟨hpass, -⟩ | ⟨action, -, -, hpass⟩
  · rw [hpass]
    rfl
  · rw [hpass]
    unfold enqueue
    dsimp only
    split <;> rfl

@[simp] theorem pass_handStop (lib : TimeLibrary) (now : Instant) (s : State) :
    (pass lib now s).handStop = s.handStop := by
  rcases pass_cases lib now s with ⟨hpass, -⟩ | ⟨action, -, -, hpass⟩
  · rw [hpass]
  · rw [hpass]
    rfl

@[simp] theorem pass_now (lib : TimeLibrary) (now : Instant) (s : State) :
    (pass lib now s).now = s.now := by
  rcases pass_cases lib now s with ⟨hpass, -⟩ | ⟨action, -, -, hpass⟩
  · rw [hpass]
  · rw [hpass]
    rfl

theorem pass_mode (lib : TimeLibrary) (now : Instant) (s : State) :
    (pass lib now s).host.mode = s.host.mode := by
  rcases pass_cases lib now s with ⟨hpass, -⟩ | ⟨action, -, -, hpass⟩
  · rw [hpass]
    rfl
  · rw [hpass]
    unfold enqueue
    dsimp only
    split <;> rfl

/-- A hold that stands queues no start, and what is written over it is no earlier. -/
theorem plan_holds {lib : TimeLibrary} {s : State} {now : Instant} {stop : HandStop}
    (h : Invariant lib s) (hnow : s.now ≤ now) (hun : Undisturbed lib s now)
    (hstop : stop ∈ s.handStop) (hholds : stop.Holds lib now) :
    (plan lib s.host (some s.window) now).1 = none ∧
      ∀ t ≥ now, stop.Holds lib t → ∃ next ∈ (plan lib s.host (some s.window) now).2.1, t < next := by
  obtain ⟨hrun, hwindow, start, close, hfound, -⟩ := hun ⟨stop, hstop, hholds⟩
  have hup : s.host.up = false := by simp [HostRow.up, hrun, h.fits.ne_error]
  obtain ⟨next, hnext, hbefore⟩ := h.held stop hstop now hnow hholds
  rw [plan_found h.mode hwindow hfound]
  obtain ⟨hnone, n, hn, hle⟩ := planSpan_held hup hnext hbefore (start - s.host.lead)
    (close + s.host.grace)
  refine ⟨hnone, fun t ht hlater => ⟨n, hn, ?_⟩⟩
  obtain ⟨next', hnext', hbefore'⟩ := h.held stop hstop t (hnow.trans ht) hlater
  obtain rfl := Option.some.inj (hnext.symm.trans hnext')
  exact hbefore'.trans_le hle

/-- While the host is up, a pass keeps the end it has. -/
theorem plan_pinned {lib : TimeLibrary} {s : State} {now : Instant} {ending : Instant}
    (h : Invariant lib s) (hpinned : Pinned lib s now) (hrun : s.host.status = .running)
    (hending : ending ∈ s.startedFor) :
    (plan lib s.host (some s.window) now).2.2 = some ending ∧
      (ending ≤ now → (plan lib s.host (some s.window) now).1 = some .stop) := by
  obtain ⟨hwindow, start, close, hfound, -⟩ :=
    hpinned hrun (Option.isSome_of_mem hending)
  rw [plan_found h.mode hwindow hfound, planSpan_running hrun, h.pinned hrun ending hending]
  exact ⟨rfl, fun hle => if_pos hle⟩

theorem invariant_pass {lib : TimeLibrary} {s : State} {now : Instant} (h : Invariant lib s)
    (hnow : s.now = now) (hun : Undisturbed lib s now) (hpinned : Pinned lib s now) :
    Invariant lib (pass lib now s) where
  mode := (pass_mode lib now s).trans h.mode
  fits := fits_pass h.fits
  held := by
    intro stop hstop t ht hholds
    rw [pass_handStop] at hstop
    rw [pass_now, hnow] at ht
    rw [pass_nextStartAt]
    exact (plan_holds h hnow.le hun hstop (hholds.mono ht)).2 t ht hholds
  pinned := by
    intro hrun ending hending
    obtain ⟨hrun, hstarted, hstopAt⟩ := pass_running hrun
    rw [hstarted] at hending
    rw [hstopAt]
    exact (plan_pinned h hpinned hrun hending).1

/-! ### The sweep -/

theorem swept {lib : TimeLibrary} {s : State} {now : Instant} (h : Invariant lib s)
    (hnow : s.now = now) (hseen : Seen lib s now) (hun : Undisturbed lib s now)
    (hpinned : Pinned lib s now) (hready : Ready s now) : Swept lib s now (pass lib now s) where
  starts := by
    intro hparked hjob hwanted
    obtain ⟨start, close, hfound, ⟨hfrom, huntil⟩, hnext⟩ := hseen hparked hjob hwanted
    have hstart : (plan lib s.host (some s.window) now).1 = some .start := by
      rw [plan_found h.mode hwanted.1 hfound]
      exact planSpan_wanted hparked hnext hfrom huntil
    rcases pass_cases lib now s with ⟨-, hnone | hbusy⟩ | ⟨action, haction, -, hpass⟩
    · rw [hstart] at hnone
      cases hnone
    · exact absurd hjob hbusy
    · obtain rfl := Option.some.inj (hstart.symm.trans haction)
      rw [hpass]
      rfl
  stays := by
    intro hjob hqueued stop hstop hholds
    have hnone := (plan_holds h hnow.le hun hstop hholds).1
    rcases pass_cases lib now s with ⟨hpass, -⟩ | ⟨action, haction, -, -⟩
    · rw [hpass, hjob] at hqueued
      cases hqueued
    · rw [hnone] at haction
      cases haction
  stops := by
    intro hrun ending hending hle
    have hstop := (plan_pinned h hpinned hrun hending).2 hle
    rcases pass_cases lib now s with ⟨hpass, hnone | hbusy⟩ | ⟨action, haction, -, hpass⟩
    · rw [hstop] at hnone
      cases hnone
    · rw [hpass]
      rcases h.fits.running hrun with hjob | hjob | hjob
      · exact absurd hjob hbusy
      · exact absurd hle (Nat.not_le.mpr (hready hjob ending hending))
      · exact ⟨.queued, hjob⟩
    · obtain rfl := Option.some.inj (hstop.symm.trans haction)
      rw [hpass]
      exact ⟨.queued, rfl⟩

/-! ### Every event -/

/-- The clock moves on, and the columns of the schedule stay. -/
theorem Invariant.onward {lib : TimeLibrary} {s t : State} (h : Invariant lib s)
    (hnow : s.now ≤ t.now) (hmode : t.host.mode = s.host.mode) (hfits : Fits t.host t.job)
    (hstop : t.handStop = s.handStop) (hnext : t.host.nextStartAt = s.host.nextStartAt)
    (hrun : t.host.status = .running →
      ∀ ending ∈ t.startedFor, t.host.nextStopAt = some ending) : Invariant lib t where
  mode := hmode.trans h.mode
  fits := hfits
  held := by
    intro stop hmem t' ht' hholds
    rw [hnext]
    exact h.held stop (hstop ▸ hmem) t' (hnow.trans ht') hholds
  pinned := hrun

theorem invariant_claim {lib : TimeLibrary} {s t : State} (h : Invariant lib s)
    (hclaim : s.job.bind (claim s) = some t) : Invariant lib t := by
  obtain ⟨job, hjob, hclaim⟩ := Option.bind_eq_some_iff.mp hclaim
  have hfits := h.fits
  rw [hjob] at hfits
  match job, hclaim with
  | (.start, .queued), hclaim =>
    have hnone : s.host.hostId = none := hfits.2
    simp only [claim, hnone, Option.isSome_none, Bool.false_eq_true, ↓reduceIte,
      Option.some.injEq] at hclaim
    subst hclaim
    exact h.onward le_rfl rfl ⟨rfl, rfl⟩ rfl rfl nofun
  | (.stop, .queued), hclaim =>
    simp only [claim, Option.some.injEq] at hclaim
    subst hclaim
    exact h.onward le_rfl rfl ⟨rfl, hfits.2⟩ rfl rfl nofun

theorem invariant_comeUp {lib : TimeLibrary} {s : State} {now : Instant} {hostId : String}
    (h : Invariant lib s)
    (hends : ∀ ending ∈ s.startedFor, Finds lib s now fun _ close =>
      close + s.host.grace = ending) : Invariant lib (comeUp lib now s hostId) := by
  refine h.onward le_rfl rfl ⟨rfl, rfl⟩ rfl rfl fun _ ending hending => ?_
  obtain ⟨start, close, hfound, rfl⟩ := hends ending hending
  simp only [comeUp, h.mode, ↓reduceIte, windowSpan, hfound, Option.map_some]

theorem parked_window {host : HostRow} (now : Instant) (h : host.mode = .window) :
    parked now host = { host with
      hostId := none, startedAt := none, nextStopAt := none, status := .parked } := by
  simp [parked, h]

/-- A stop by hand inside an occurrence leaves a hold that lasts to the next one. -/
theorem holdUntilNextWindow_holds {lib : TimeLibrary} {s : State} {now : Instant}
    (hmode : s.host.mode = .window) (hover : HoldsOver lib s now) {t : Instant}
    (hholds : HandStop.Holds lib ⟨now, s.window, s.host⟩ t) :
    ∃ next ∈ (holdUntilNextWindow lib s.host (some s.window) now).nextStartAt, t < next := by
  obtain ⟨start, close, hocc, hspan, hbefore⟩ := hholds
  obtain ⟨first, last, hfound, ⟨hfrom, huntil⟩, next, close', hnext, hlater⟩ :=
    hover start close hocc hspan
  have hspan : windowSpan lib s.host s.window now =
      some (first - s.host.lead, last + s.host.grace) := by
    simp only [windowSpan, hfound]
  have hfollowing : windowSpan lib s.host s.window (last + s.host.grace) =
      some (next - s.host.lead, close' + s.host.grace) := by
    simp only [windowSpan, Nat.add_sub_cancel, hnext]
  refine ⟨next - s.host.lead, ?_, hbefore next close' (Windows.nextOccurrence_ok hnext).1 hlater⟩
  unfold holdUntilNextWindow
  simp only [hmode, hspan, hfrom, huntil, and_self, ↓reduceIte, hfollowing, Option.map_some,
    Option.mem_def]

theorem holdUntilNextWindow_same (lib : TimeLibrary) (host : HostRow)
    (window : Option ChangeWindow) (now : Instant) :
    ∃ next, holdUntilNextWindow lib host window now = { host with nextStartAt := next } := by
  unfold holdUntilNextWindow
  split
  · split
    · split
      · exact ⟨_, rfl⟩
      · exact ⟨_, rfl⟩
    · exact ⟨_, rfl⟩
  · exact ⟨_, rfl⟩

theorem invariant_handStop {lib : TimeLibrary} {s t : State} {now : Instant} (h : Invariant lib s)
    (hover : HoldsOver lib s now)
    (hstep : perform lib now s .handStop = some t) : Invariant lib t := by
  simp only [perform, Option.ite_none_left_eq_some, Option.some.injEq] at hstep
  obtain ⟨hadmitted, rfl⟩ := hstep
  obtain ⟨hup, hidle⟩ := not_or.mp hadmitted
  have hidle : s.job = none := by simpa using hidle
  have hfits := h.fits
  rw [hidle] at hfits
  obtain ⟨next, hhost⟩ := holdUntilNextWindow_same lib s.host (some s.window) now
  refine ⟨?_, ?_, ?_, ?_⟩
  · simp only [hhost, h.mode]
  · rcases hfits with ⟨hparked, hnone⟩ | hrun
    · exact absurd ⟨hnone, by simp [hparked, HostStatus.live]⟩ hup
    · simp only [hhost]
      exact hrun
  · intro stop hstop t' ht' hholds
    obtain rfl := Option.some.inj hstop
    exact holdUntilNextWindow_holds h.mode hover hholds
  · intro hrun ending hending
    simp only [hhost] at hrun ⊢
    exact h.pinned hrun ending hending

theorem enqueue_parked (lib : TimeLibrary) (now : Instant) {s : State}
    (h : s.host.status = .parked) : enqueue lib now s .start =
      { s with
        job := some (.start, .queued)
        host := { s.host with status := .provisioning }
        startedFor := (windowSpan lib s.host s.window now).map Prod.snd } := by
  simp [enqueue, h]

theorem invariant_handStart {lib : TimeLibrary} {s t : State} {now : Instant}
    (h : Invariant lib s) (hstep : perform lib now s .handStart = some t) : Invariant lib t := by
  simp only [perform, Option.ite_none_left_eq_some, Option.some.injEq, not_or] at hstep
  obtain ⟨⟨hnone, -, hidle⟩, rfl⟩ := hstep
  have hidle : s.job = none := by simpa using hidle
  have hnone : s.host.hostId = none := by simpa using hnone
  have hfits := h.fits
  rw [hidle] at hfits
  rcases hfits with ⟨hparked, -⟩ | ⟨-, hsome⟩
  · rw [enqueue_parked lib now hparked]
    refine ⟨h.mode, ⟨rfl, hnone⟩, ?_, ?_⟩
    · simp
    · simp
  · rw [hnone] at hsome
    cases hsome

/-- The new lead and grace are taken while nothing holds. -/
theorem invariant_edit {lib : TimeLibrary} {s t : State} {now : Instant} {lead grace : ℕ}
    (h : Invariant lib s) (hnow : s.now = now)
    (hfree : ∀ stop ∈ s.handStop, ¬stop.Holds lib now)
    (hpinned : Pinned lib { s with host := { s.host with graceMinutes := grace } } now)
    (hstep : perform lib now s (.edit lead grace) = some t) : Invariant lib t := by
  simp only [perform, Option.ite_none_left_eq_some, Option.some.injEq] at hstep
  obtain ⟨-, rfl⟩ := hstep
  refine invariant_pass ⟨h.mode, h.fits, ?_, h.pinned⟩ hnow ?_ hpinned
  · intro stop hstop t' ht' hholds
    exact absurd (hholds.mono (hnow ▸ ht')) (hfree stop hstop)
  · rintro ⟨stop, hstop, hholds⟩
    exact absurd hholds (hfree stop hstop)

theorem invariant_perform {lib : TimeLibrary} {s t : State} {now : Instant} {op : Op}
    (h : Invariant lib s) (hnow : s.now = now) (htimely : Timely lib s (now, op))
    (hstep : perform lib now s op = some t) : Invariant lib t := by
  cases op with
  | sweep =>
    obtain ⟨-, hun, hpinned, -⟩ := htimely
    simp only [perform, h.mode, reduceCtorEq, ↓reduceIte, Option.some.injEq] at hstep
    subst hstep
    exact invariant_pass h hnow hun hpinned
  | claim => exact invariant_claim h hstep
  | comeUp hostId =>
    simp only [perform, Option.ite_none_right_eq_some, Option.some.injEq] at hstep
    obtain ⟨-, rfl⟩ := hstep
    exact invariant_comeUp h htimely
  | park =>
    simp only [perform, Option.ite_none_right_eq_some, Option.some.injEq] at hstep
    obtain ⟨-, rfl⟩ := hstep
    rw [parked_window now h.mode]
    exact h.onward le_rfl rfl ⟨rfl, rfl⟩ rfl rfl nofun
  | finish =>
    simp only [perform, Option.ite_none_right_eq_some, Option.some.injEq] at hstep
    obtain ⟨hwritten, rfl⟩ := hstep
    refine h.onward le_rfl rfl ?_ rfl rfl h.pinned
    have hfits := h.fits
    match hjob : s.job, hwritten with
    | some (.start, .written), _ =>
      rw [hjob] at hfits
      exact .inr hfits
    | some (.stop, .written), _ =>
      rw [hjob] at hfits
      exact .inl hfits
    | some (.delete, .written), _ =>
      rw [hjob] at hfits
      exact hfits.elim
  | handStart => exact invariant_handStart h hstep
  | handStop => exact invariant_handStop h htimely hstep
  | edit lead grace => exact invariant_edit h hnow htimely.1 htimely.2 hstep
  | editWindow window =>
    obtain rfl := Option.some.inj hstep
    exact ⟨h.mode, h.fits, h.held, h.pinned⟩

/-- The row as `deploy` adds it. -/
def State.Deployed (s : State) : Prop :=
  s.host.mode = .window ∧ s.host.status = .parked ∧ s.host.hostId = none ∧ s.job = none ∧
    s.handStop = none

theorem invariant_deployed {lib : TimeLibrary} {s : State} (h : s.Deployed) : Invariant lib s := by
  obtain ⟨hmode, hparked, hnone, hidle, hstop⟩ := h
  refine ⟨hmode, ?_, ?_, ?_⟩
  · rw [hidle]
    exact .inl ⟨hparked, hnone⟩
  · simp [hstop]
  · simp [hparked]

theorem invariant_step {lib : TimeLibrary} (s : State) (event : Instant × Op) (t : State)
    (h : Invariant lib s) (htimely : Timely lib s event) (hstep : s.stepAt lib event = some t) :
    Invariant lib t ∧ (event.2 = .sweep → Swept lib s event.1 t) := by
  obtain ⟨now, op⟩ := event
  simp only [State.stepAt, Option.ite_none_right_eq_some] at hstep
  obtain ⟨hnow, hstep⟩ := hstep
  have hI : Invariant lib { s with now } :=
    h.onward hnow rfl h.fits rfl rfl h.pinned
  have htimely' : Timely lib { s with now } (now, op) := by
    cases op <;> exact htimely
  refine ⟨invariant_perform hI rfl htimely' hstep, ?_⟩
  rintro rfl
  obtain ⟨hseen, hun, hpinned, hready⟩ := htimely'
  simp only [perform, h.mode, reduceCtorEq, ↓reduceIte, Option.some.injEq] at hstep
  subst hstep
  have hswept := swept hI rfl hseen hun hpinned hready
  exact ⟨hswept.starts, hswept.stays, hswept.stops⟩

/-- In a run whose events are timely, every sweep starts what its window wants up, starts nothing
that was stopped by hand, and stops what its span is over for. -/
theorem follows_window (lib : TimeLibrary) {s : State} (hs : s.Deployed)
    {events : List (Instant × Op)} (h : (following lib).Along (Timely lib) s events) :
    (following lib).Along (Keeps lib) s events := by
  have hrun := (following lib).along_step
    (P := fun s event t => event.2 = .sweep → Swept lib s event.1 t)
    (fun s event t hI hG ht => invariant_step s event t hI hG ht) (invariant_deployed hs) h
  exact (following lib).along_mono (fun s event hstep hsweep t ht => hstep t ht hsweep) hrun

/- Saturdays from 02:00 to 06:00, 20 minutes of lead and 15 of grace. -/

open Windows (noZones saturdays saturday saturdays_occurrence)

def onSaturdays : State :=
  ⟨0, saturdays, ⟨.window, none, 20, 15, .parked, none, none, none, none⟩, none, none, none⟩

def startedAtTwo : List (Instant × Op) :=
  [(saturday 2, .sweep), (saturday 2, .claim), (saturday 2, .comeUp "i-1"), (saturday 2, .finish)]

/-- A sweep comes between the stop by hand and the worker that takes its job. -/
def sweptBetween : List (Instant × Op) :=
  startedAtTwo ++ [(saturday 3, .handStop), (saturday 3, .sweep), (saturday 3, .claim),
    (saturday 3, .park), (saturday 3, .finish)]

theorem holds_on_saturday (host : HostRow) (hlead : host.leadMinutes = 20)
    (hgrace : host.graceMinutes = 15) :
    HandStop.Holds noZones ⟨saturday 3, saturdays, host⟩ (saturday 4) := by
  have hlead' : host.lead = 1200000000 := by rw [HostRow.lead, hlead]; decide
  have hgrace' : host.grace = 900000000 := by rw [HostRow.grace, hgrace]; decide
  have hnext : nextOccurrence noZones saturdays (saturday 3) =
      .ok (saturday 2, saturday 6) := by decide +kernel
  refine ⟨saturday 2, saturday 6, (Windows.nextOccurrence_ok hnext).1, ?_, ?_⟩
  · rw [InSpan, hlead', hgrace']
    change saturday 2 - 1200000000 ≤ saturday 3 ∧ saturday 3 < saturday 6 + 900000000
    decide +kernel
  · have htwo : saturday 2 = 63926589600000000 := by decide +kernel
    have hfour : saturday 4 = 63926596800000000 := by decide +kernel
    have hfar : ∀ start close : ℕ, Occurrence noZones saturdays start close →
        63926589600000000 < start → 63926596800000000 < start - 1200000000 := by
      intro start close hocc hlater
      obtain ⟨day, hday, hstart, -⟩ := saturdays_occurrence hocc
      omega
    intro start close hocc hlater
    rw [hlead', hfour]
    exact hfar start close hocc (htwo ▸ hlater)

/-- The sweep after the stop starts the host again, an hour after it was stopped by hand. -/
theorem started_again : ¬∀ (lib : TimeLibrary) (s : State), s.Deployed → ∀ events,
    (following lib).Along (Keeps lib) s events := by
  intro h
  have hdeployed : onSaturdays.Deployed := ⟨rfl, rfl, rfl, rfl, rfl⟩
  have hrun := h noZones onSaturdays hdeployed (sweptBetween ++ [(saturday 4, .sweep)])
  have hsome : ((following noZones).exec onSaturdays sweptBetween).any (fun t =>
      t.job = none ∧ t.handStop.any (fun stop => stop.time = saturday 3 ∧
        stop.window = saturdays ∧ stop.host.leadMinutes = 20 ∧ stop.host.graceMinutes = 15) ∧
      (t.stepAt noZones (saturday 4, .sweep)).any fun u =>
        u.job = some (.start, .queued)) = true := by decide +kernel
  obtain ⟨t, ht, hsome⟩ := (Option.any_eq_true _ _).mp hsome
  obtain ⟨hidle, hstop, hnext⟩ := of_decide_eq_true hsome
  obtain ⟨u, hu, hqueued⟩ := (Option.any_eq_true _ _).mp hnext
  obtain ⟨⟨time, window, host⟩, hmem, hstop⟩ := (Option.any_eq_true _ _).mp hstop
  obtain ⟨rfl, rfl, hlead, hgrace⟩ := of_decide_eq_true hstop
  have hkeeps := (following noZones).along_at hrun ht hu
  exact (hkeeps rfl u hu).stays hidle (of_decide_eq_true hqueued) _ hmem
    (holds_on_saturday host hlead hgrace)

/-- What is enough of a run to be timely, and can be decided: every start of an idle host is found
and every hold left alone, whether or not they are called for. -/
def Plain (lib : TimeLibrary) (s : State) : Instant × Op → Prop
  | (now, .sweep) =>
    (s.host.status = .parked → s.job = none → Finds lib s now fun start close =>
      Useful s.host start close now ∧ ∀ next ∈ s.host.nextStartAt, next ≤ now) ∧
    (s.handStop.isSome → s.host.status ≠ .running ∧ s.window.enabled ≠ some false ∧
      Finds lib s now fun _ _ => True) ∧ Pinned lib s now ∧ Ready s now
  | (now, .comeUp _) =>
    ∀ ending ∈ s.startedFor, Finds lib s now fun _ close => close + s.host.grace = ending
  | (now, .handStop) => Finds lib s now fun first last => InSpan s.host first last now ∧
      (nextOccurrence lib s.window last).toOption.any fun following =>
        now + s.host.lead < following.1
  | (_, .edit _ _) => False
  | _ => True

theorem toOption_any_lt {ε : Type} {found : Except ε (Instant × Instant)} {t : Instant}
    (h : (found.toOption.any fun following => t < following.1) = true) :
    ∃ next close, found = .ok (next, close) ∧ t < next := by
  cases found with
  | error _ => cases h
  | ok following => exact ⟨following.1, following.2, rfl, of_decide_eq_true h⟩

theorem Plain.timely {lib : TimeLibrary} {s : State} {event : Instant × Op}
    (h : Plain lib s event) : Timely lib s event := by
  obtain ⟨now, op⟩ := event
  cases op with
  | sweep =>
    obtain ⟨hseen, hun, hpinned, hready⟩ := h
    refine ⟨fun hparked hidle _ => hseen hparked hidle, ?_, hpinned, hready⟩
    rintro ⟨stop, hstop, -⟩
    exact hun (Option.isSome_of_mem hstop)
  | handStop =>
    obtain ⟨first, last, hfound, hspan, hnext⟩ := h
    intro start close hocc hin
    refine ⟨first, last, hfound, hspan, ?_⟩
    obtain ⟨next, close', hnext, hlater⟩ := toOption_any_lt hnext
    obtain ⟨hfrom, -⟩ := hin
    have hstart : start ≤ now + s.host.lead := Nat.sub_le_iff_le_add.mp hfrom
    exact ⟨next, close', hnext, hstart.trans_lt hlater⟩
  | comeUp hostId => exact h
  | edit lead grace => exact h.elim
  | _ => trivial

instance (lib : TimeLibrary) (s : State) (now : Instant) (P : Instant → Instant → Prop)
    [∀ start close, Decidable (P start close)] : Decidable (Finds lib s now P) :=
  match h : nextOccurrence lib s.window (now - s.host.grace) with
  | .ok (start, close) => decidable_of_iff (P start close)
      ⟨fun hP => ⟨start, close, h, hP⟩, fun ⟨_, _, h', hP⟩ => by cases h.symm.trans h'; exact hP⟩
  | .error _ => isFalse fun ⟨_, _, h', _⟩ => by cases h.symm.trans h'

instance (host : HostRow) (start close t : Instant) : Decidable (InSpan host start close t) :=
  inferInstanceAs (Decidable (_ ∧ _))

instance (host : HostRow) (start close t : Instant) : Decidable (Useful host start close t) :=
  inferInstanceAs (Decidable (_ ∧ _))

instance (lib : TimeLibrary) (s : State) (now : Instant) : Decidable (Pinned lib s now) :=
  inferInstanceAs (Decidable (_ → _))

instance (s : State) (now : Instant) : Decidable (Ready s now) :=
  inferInstanceAs (Decidable (_ → _))

instance (lib : TimeLibrary) (s : State) (event : Instant × Op) : Decidable (Plain lib s event) := by
  obtain ⟨now, op⟩ := event
  cases op <;> unfold Plain <;> infer_instance

/-- Left alone until a worker takes the stop, the host stays down until the next Saturday. -/
theorem follows_heldOver : (following noZones).Along (Keeps noZones) onSaturdays
    (startedAtTwo ++ [(saturday 3, .handStop), (saturday 3, .claim), (saturday 4, .sweep),
      (saturday 4, .park), (saturday 4, .finish), (saturday (7 * 24 + 2), .sweep)]) := by
  refine follows_window noZones ⟨rfl, rfl, rfl, rfl, rfl⟩ ?_
  refine (following noZones).along_mono (fun _ _ => Plain.timely) ?_
  decide +kernel

end Following

end AgentHosts
