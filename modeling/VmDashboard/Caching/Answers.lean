import Mathlib.Data.Nat.Cast.Order.Ring
import VmDashboard.Caching.Service

/-!
# What the cache answers

One fetch at a time for each key, and what each call is given: a write of its own key that had not
reached its hard expiry when the call began. After an invalidation it is a write made since.
-/

namespace CacheService

section
variable {δ ε : Type}

theorem phase_put (w : World δ ε) (p q : ℕ) (coroutine : Coroutine δ ε) :
    (w.put p coroutine).phase q = if q = p then coroutine.phase else w.phase q := by
  unfold World.phase World.put
  by_cases h : q = p
  · rw [h, if_pos rfl]
    simp only [Function.update_self]
  · rw [if_neg h]
    simp only [Function.update_of_ne h]

/-- The futures under the keys are those of the coroutines that fetch for them. -/
structure Linked (w : World δ ε) : Prop where
  leads : ∀ p key ttl future, w.phase p = .leading key ttl future → w.pending key = some future
  alone : ∀ p q key ttl ttl' future future', w.phase p = .leading key ttl future →
    w.phase q = .leading key ttl' future' → p = q
  held : ∀ key future, w.pending key = some future → ∃ p ttl, w.phase p = .leading key ttl future
  made : ∀ key future, w.pending key = some future → future < w.made
  undone : ∀ key future data, w.pending key = some future → w.futures future ≠ .result data
  apart : ∀ key key' future, w.pending key = some future → w.pending key' = some future → key = key'
  joins : ∀ p key future, w.phase p = .waiting key future →
    future < w.made ∧ ∀ key', w.pending key' = some future → key' = key

theorem linked_fresh (now : ℚ) (wall : ℤ) : Linked (fresh δ ε now wall) :=
  ⟨fun _ _ _ _ h => (nomatch h), fun _ _ _ _ _ _ _ h => (nomatch h), fun _ _ h => (nomatch h),
    fun _ _ h => (nomatch h), fun _ _ _ h => (nomatch h), fun _ _ _ h => (nomatch h),
    fun _ _ _ h => (nomatch h)⟩

theorem Linked.withCache {w : World δ ε} (h : Linked w) (c : Cache δ) : Linked (w.withCache c) :=
  ⟨h.leads, h.alone, h.held, h.made, h.undone, h.apart, h.joins⟩

theorem Linked.setInflight {w : World δ ε} (h : Linked w) (key : String) (claimed : Bool) :
    Linked (w.setInflight key claimed) :=
  ⟨h.leads, h.alone, h.held, h.made, h.undone, h.apart, h.joins⟩

theorem Linked.keep {w : World δ ε} (h : Linked w) (key : String) (ttl : ℕ) (outcome : Except ε δ) :
    Linked (w.keep key ttl outcome) := by
  cases outcome with
  | ok data => exact h.withCache _
  | error error => exact h

/-- A coroutine that fetches for nobody goes on, or waits for a future that stands under its key. -/
theorem Linked.put {w : World δ ε} (h : Linked w) {p : ℕ} {coroutine : Coroutine δ ε}
    (hold : (w.phase p).isLeading = false) (hnew : coroutine.phase.isLeading = false)
    (hjoin : ∀ key future, coroutine.phase = .waiting key future → w.pending key = some future) :
    Linked (w.put p coroutine) := by
  have hleading {q : ℕ} {key : String} {ttl future : ℕ}
      (hq : (w.put p coroutine).phase q = .leading key ttl future) :
      w.phase q = .leading key ttl future := by
    rw [phase_put] at hq
    split at hq
    · rw [hq] at hnew
      cases hnew
    · exact hq
  refine ⟨fun q key ttl future hq => h.leads q key ttl future (hleading hq),
    fun q r key ttl ttl' future future' hq hr => h.alone q r key ttl ttl' future future' (hleading hq)
      (hleading hr), fun key future hpending => ?_, h.made, h.undone, h.apart,
    fun q key future hq => ?_⟩
  · obtain ⟨q, ttl, hq⟩ := h.held key future hpending
    have hqp : q ≠ p := by
      rintro rfl
      rw [hq] at hold
      cases hold
    exact ⟨q, ttl, by rw [phase_put, if_neg hqp, hq]⟩
  · rw [phase_put] at hq
    split at hq
    · have hpending := hjoin key future hq
      exact ⟨h.made key future hpending, fun key' hkey' => h.apart key' key future hkey' hpending⟩
    · exact h.joins q key future hq

theorem Linked.quiet {w : World δ ε} (h : Linked w) {p : ℕ} {coroutine : Coroutine δ ε}
    (hold : (w.phase p).isLeading = false) (hnew : coroutine.phase.isLeading = false)
    (hstill : coroutine.phase.isWaiting = false) : Linked (w.put p coroutine) := by
  refine h.put hold hnew fun key future hphase => ?_
  rw [hphase] at hstill
  cases hstill

theorem Linked.promise {w : World δ ε} (h : Linked w) {p : ℕ} {key : String} (began : ℚ) (ttl : ℕ)
    (hold : (w.phase p).isLeading = false) (hnone : w.pending key = none) :
    Linked ((w.promise key).put p ⟨began, .leading key ttl w.made⟩) := by
  have hphase (q : ℕ) : ((w.promise key).put p ⟨began, .leading key ttl w.made⟩).phase q =
      if q = p then .leading key ttl w.made else w.phase q := phase_put _ p q _
  have hself : (w.promise key).pending key = some w.made := Function.update_self _ _ _
  have hother {key' : String} (hne : key' ≠ key) : (w.promise key).pending key' = w.pending key' :=
    Function.update_of_ne hne _ _
  have hcases {key' : String} {future : ℕ} (hpending : (w.promise key).pending key' = some future) :
      key' = key ∧ future = w.made ∨ key' ≠ key ∧ w.pending key' = some future := by
    by_cases hkey : key' = key
    · rw [hkey, hself] at hpending
      exact .inl ⟨hkey, (Option.some.inj hpending).symm⟩
    · rw [hother hkey] at hpending
      exact .inr ⟨hkey, hpending⟩
  have hnobody (q ttl' future : ℕ) : w.phase q ≠ .leading key ttl' future := fun hlead => by
    have hpending := h.leads q key ttl' future hlead
    rw [hnone] at hpending
    cases hpending
  refine ⟨fun q key' ttl' future hq => ?_, fun q r key' ttl₁ ttl₂ future future' hq hr => ?_,
    fun key' future hpending => ?_, fun key' future hpending => ?_, fun key' future data hpending => ?_,
    fun key₁ key₂ future hone htwo => ?_, fun q key' future hq => ?_⟩
  · rw [hphase] at hq
    split at hq
    · obtain ⟨rfl, -, rfl⟩ := Phase.leading.inj hq
      exact hself
    · have hpending := h.leads q key' ttl' future hq
      have hne : key' ≠ key := by
        rintro rfl
        rw [hnone] at hpending
        cases hpending
      exact (hother hne).trans hpending
  · rw [hphase] at hq hr
    split at hq
    next hqp =>
      split at hr
      next hrp => rw [hqp, hrp]
      · obtain ⟨rfl, -, -⟩ := Phase.leading.inj hq
        exact absurd hr (hnobody r ttl₂ future')
    · split at hr
      · obtain ⟨rfl, -, -⟩ := Phase.leading.inj hr
        exact absurd hq (hnobody q ttl₁ future)
      · exact h.alone q r key' ttl₁ ttl₂ future future' hq hr
  · rcases hcases hpending with ⟨rfl, rfl⟩ | ⟨hne, hpending⟩
    · exact ⟨p, ttl, by rw [hphase, if_pos rfl]⟩
    · obtain ⟨q, ttl', hq⟩ := h.held key' future hpending
      have hqp : q ≠ p := by
        rintro rfl
        rw [hq] at hold
        cases hold
      exact ⟨q, ttl', by rw [hphase, if_neg hqp, hq]⟩
  · rcases hcases hpending with ⟨-, rfl⟩ | ⟨-, hpending⟩
    · exact Nat.lt_succ_self w.made
    · exact Nat.lt_succ_of_lt (h.made key' future hpending)
  · rcases hcases hpending with ⟨-, rfl⟩ | ⟨-, hpending⟩
    · have hfuture : (w.promise key).futures w.made = .pending := Function.update_self _ _ _
      show (w.promise key).futures w.made ≠ _
      rw [hfuture]
      exact nofun
    · have hfuture : (w.promise key).futures future = w.futures future :=
        Function.update_of_ne (Nat.ne_of_lt (h.made key' future hpending)) _ _
      show (w.promise key).futures future ≠ _
      rw [hfuture]
      exact h.undone key' future data hpending
  · rcases hcases hone with ⟨rfl, rfl⟩ | ⟨-, hone⟩
    · rcases hcases htwo with ⟨rfl, -⟩ | ⟨-, htwo⟩
      · rfl
      · exact absurd (h.made key₂ w.made htwo) (Nat.lt_irrefl _)
    · rcases hcases htwo with ⟨-, rfl⟩ | ⟨-, htwo⟩
      · exact absurd (h.made key₁ w.made hone) (Nat.lt_irrefl _)
      · exact h.apart key₁ key₂ future hone htwo
  · rw [hphase] at hq
    split at hq
    · cases hq
    · obtain ⟨hlt, hjoins⟩ := h.joins q key' future hq
      refine ⟨Nat.lt_succ_of_lt hlt, fun key₂ hpending => ?_⟩
      rcases hcases hpending with ⟨-, rfl⟩ | ⟨-, hpending⟩
      · exact absurd hlt (Nat.lt_irrefl _)
      · exact hjoins key₂ hpending

/-- The coroutine that fetches takes its future away and goes on. -/
theorem Linked.finish {w : World δ ε} (h : Linked w) {p : ℕ} {key : String} {ttl future : ℕ}
    (hp : w.phase p = .leading key ttl future) {coroutine : Coroutine δ ε}
    (hnew : coroutine.phase.isLeading = false) (hstill : coroutine.phase.isWaiting = false) :
    Linked ((w.popPending key).put p coroutine) := by
  have hphase (q : ℕ) : ((w.popPending key).put p coroutine).phase q =
      if q = p then coroutine.phase else w.phase q := phase_put _ p q _
  have hleading {q : ℕ} {key' : String} {ttl' future' : ℕ}
      (hq : ((w.popPending key).put p coroutine).phase q = .leading key' ttl' future') :
      q ≠ p ∧ w.phase q = .leading key' ttl' future' := by
    rw [hphase] at hq
    split at hq
    · rw [hq] at hnew
      cases hnew
    next hqp => exact ⟨hqp, hq⟩
  have hother {key' : String} (hne : key' ≠ key) : (w.popPending key).pending key' = w.pending key' :=
    Function.update_of_ne hne _ _
  have hkeeps {key' : String} {future' : ℕ}
      (hpending : (w.popPending key).pending key' = some future') :
      key' ≠ key ∧ w.pending key' = some future' := by
    by_cases hkey : key' = key
    · have hself : (w.popPending key).pending key = none := Function.update_self _ _ _
      rw [hkey, hself] at hpending
      cases hpending
    · exact ⟨hkey, (hother hkey).symm.trans hpending⟩
  refine ⟨fun q key' ttl' future' hq => ?_, fun q r key' ttl₁ ttl₂ future₁ future₂ hq hr => ?_,
    fun key' future' hpending => ?_, fun key' future' hpending => ?_,
    fun key' future' data hpending => ?_, fun key₁ key₂ future' hone htwo => ?_,
    fun q key' future' hq => ?_⟩
  · obtain ⟨hqp, hlead⟩ := hleading hq
    have hne : key' ≠ key := by
      rintro rfl
      exact hqp (h.alone q p key' ttl' ttl future' future hlead hp)
    exact (hother hne).trans (h.leads q key' ttl' future' hlead)
  · exact h.alone q r key' ttl₁ ttl₂ future₁ future₂ (hleading hq).2 (hleading hr).2
  · obtain ⟨hne, hpending⟩ := hkeeps hpending
    obtain ⟨q, ttl', hq⟩ := h.held key' future' hpending
    have hqp : q ≠ p := by
      rintro rfl
      obtain ⟨hkey, -, -⟩ := Phase.leading.inj (hp.symm.trans hq)
      exact hne hkey.symm
    exact ⟨q, ttl', by rw [hphase, if_neg hqp, hq]⟩
  · exact h.made key' future' (hkeeps hpending).2
  · exact h.undone key' future' data (hkeeps hpending).2
  · exact h.apart key₁ key₂ future' (hkeeps hone).2 (hkeeps htwo).2
  · rw [hphase] at hq
    split at hq
    · rw [hq] at hstill
      cases hstill
    · obtain ⟨hlt, hjoins⟩ := h.joins q key' future' hq
      exact ⟨hlt, fun key₂ hpending => hjoins key₂ (hkeeps hpending).2⟩

/-- A future that stands under no key is done, or one is cancelled. -/
theorem Linked.settle {w : World δ ε} (h : Linked w) {future : ℕ} {outcome : Future δ ε}
    (hundone : ∀ key data, w.pending key = some future → outcome ≠ .result data) :
    Linked (w.settle future outcome) := by
  refine ⟨h.leads, h.alone, h.held, h.made, fun key future' data hpending => ?_, h.apart, h.joins⟩
  by_cases hfuture : future' = future
  · have hself : (w.settle future outcome).futures future = outcome := Function.update_self _ _ _
    rw [hfuture, hself]
    exact hundone key data (hfuture ▸ hpending)
  · have hother : (w.settle future outcome).futures future' = w.futures future' :=
      Function.update_of_ne hfuture _ _
    rw [hother]
    exact h.undone key future' data hpending

theorem keep_eq (w : World δ ε) (key : String) (ttl : ℕ) (outcome : Except ε δ) :
    ∃ c, w.cache.Moves c ∧ w.keep key ttl outcome = w.withCache c := by
  cases outcome with
  | ok data => exact ⟨_, .set key data ttl none, rfl⟩
  | error error => exact ⟨w.cache, .refl w.cache, rfl⟩

theorem Linked.step {w w' : World δ ε} {l : Label δ ε} (h : Linked w) (hstep : Step w l w') :
    Linked w' := by
  have hold {p : ℕ} {phase : Phase δ ε} (hp : w.phase p = phase) (hphase : phase.isLeading = false) :
      (w.phase p).isLeading = false := hp ▸ hphase
  cases hstep with
  | serve hidle => exact h.quiet (hold hidle rfl) rfl rfl
  | @spawn p key ttl child entry hidle hstore hhard hfree hne hchild =>
    have hchildren : Linked ((w.setInflight key true).enter child (.spawned key ttl)) :=
      (h.setInflight key true).quiet (hold hchild rfl) rfl rfl
    have hp : ((w.setInflight key true).enter child (.spawned key ttl)).phase p = .idle :=
      (phase_put _ child p _).trans ((if_neg (Ne.symm hne)).trans hidle)
    exact hchildren.quiet (congrArg Phase.isLeading hp) rfl rfl
  | @foreground p key ttl child entry hidle =>
    exact (h.setInflight key true).quiet (hold hidle rfl) rfl rfl
  | @join p key ttl background child future c hidle hmoves hpending =>
    refine (h.withCache c).put (hold hidle rfl) rfl fun key' future' hwaiting => ?_
    obtain ⟨rfl, rfl⟩ := Phase.waiting.inj hwaiting
    exact hpending
  | @miss p key ttl background child c hidle hmoves hnone =>
    exact (h.withCache c).promise c.now ttl (hold hidle rfl) hnone
  | start hp | leaveAnswered hp | leaveRaised hp | cancelSpawned hp =>
    exact h.quiet (hold hp rfl) rfl rfl
  | fail error hp | cancelWoken hp => exact h.quiet (hold hp rfl) rfl rfl
  | @settled p key ttl future outcome hp =>
    obtain ⟨c, -, hkeep⟩ := keep_eq w key ttl outcome
    rw [hkeep]
    have hphase : ((w.withCache c).outcomeOf key outcome).isLeading = false ∧
        ((w.withCache c).outcomeOf key outcome).isWaiting = false := by
      cases outcome <;> exact ⟨rfl, rfl⟩
    refine ((h.withCache c).finish hp hphase.1 hphase.2).settle fun key' data hpending => ?_
    have hkey : key' ≠ key := by
      rintro rfl
      have hnone : ((w.withCache c).popPending key').pending key' = none := Function.update_self _ _ _
      exact Option.some_ne_none future (hpending.symm.trans hnone)
    have hother : w.pending key' = some future := (Function.update_of_ne hkey _ _).symm.trans hpending
    exact absurd (h.apart key' key future hother (h.leads p key ttl future hp)) hkey
  | @late p key ttl future outcome hp =>
    obtain ⟨c, -, hkeep⟩ := keep_eq w key ttl outcome
    rw [hkeep]
    exact (h.withCache c).finish hp rfl rfl
  | @refreshed p key ttl stale outcome hp =>
    have hphase : (w.keep key ttl outcome).phase p = .refreshing key ttl stale := by
      cases outcome <;> exact hp
    refine ((h.keep key ttl outcome).setInflight key false).quiet ?_ ?_ ?_
    · exact congrArg Phase.isLeading hphase
    · cases stale <;> rfl
    · cases stale <;> rfl
  | @follow p key future data cachedAt hp => exact (h.withCache _).quiet (hold hp rfl) rfl rfl
  | @cancelRefreshing p key ttl stale hp => exact (h.setInflight key false).quiet (hold hp rfl) rfl rfl
  | cancelLeading hp => exact h.finish hp rfl rfl
  | @cancelWaiting p key future hp =>
    have hsettled : Linked (w.settle future .cancelled) := h.settle fun _ _ _ => nofun
    exact hsettled.quiet (hold hp rfl) rfl rfl
  | @cache l c => exact h.withCache c

theorem linked_run {w : World δ ε} {ls : List (Label δ ε)} {now : ℚ} {wall : ℤ}
    (hrun : (system δ ε).exec (fresh δ ε now wall) ls = some w) : Linked w :=
  (system δ ε).always_exec ((system δ ε).always_of_step (fun _ _ _ h hstep => h.step (step_cases hstep))
    ls (linked_fresh now wall)) hrun

/-! ### One refresh at a time -/

/-- A task that `get_or_refresh` made to refresh the key. -/
def Phase.refreshes (key : String) : Phase δ ε → Bool
  | .spawned key' _ | .refreshing key' _ none => key' = key
  | _ => false

/-- Where every call for the key leaves its refresh to a task, the key is claimed while there is one. -/
structure Claimed (key : String) (w : World δ ε) : Prop where
  claimed : ∀ p, (w.phase p).refreshes key = true → w.inflight key = true
  once : ∀ p q, (w.phase p).refreshes key = true → (w.phase q).refreshes key = true → p = q
  behind : ∀ p ttl data, w.phase p ≠ .refreshing key ttl (some data)

theorem claimed_fresh (key : String) (now : ℚ) (wall : ℤ) : Claimed key (fresh δ ε now wall) :=
  ⟨fun _ h => (nomatch h), fun _ _ h => (nomatch h), fun _ _ _ h => (nomatch h)⟩

/-- A step that makes no task, and claims or releases only other keys. -/
theorem Claimed.put {key : String} {w w' : World δ ε} (h : Claimed key w) {p : ℕ}
    {coroutine : Coroutine δ ε} (hcoroutines : w'.coroutines = (w.put p coroutine).coroutines)
    (hinflight : w'.inflight key = w.inflight key)
    (hrefreshes : coroutine.phase.refreshes key = true → (w.phase p).refreshes key = true)
    (hbehind : ∀ ttl data, coroutine.phase ≠ .refreshing key ttl (some data)) : Claimed key w' := by
  have hphase (q : ℕ) : w'.phase q = if q = p then coroutine.phase else w.phase q := by
    rw [← phase_put]
    exact congrArg (fun coroutines => (coroutines q).phase) hcoroutines
  have hback {q : ℕ} (hq : (w'.phase q).refreshes key = true) : (w.phase q).refreshes key = true := by
    rw [hphase] at hq
    split at hq
    next hqp => exact hqp ▸ hrefreshes hq
    · exact hq
  refine ⟨fun q hq => hinflight.trans (h.claimed q (hback hq)),
    fun q r hq hr => h.once q r (hback hq) (hback hr), fun q ttl data hq => ?_⟩
  rw [hphase] at hq
  split at hq
  · exact hbehind ttl data hq
  · exact h.behind q ttl data hq

/-- The task for the key ends, and the key is free. -/
theorem Claimed.release {key : String} {w w' : World δ ε} (h : Claimed key w) {p : ℕ}
    {coroutine : Coroutine δ ε} (hcoroutines : w'.coroutines = (w.put p coroutine).coroutines)
    (hp : (w.phase p).refreshes key = true) (hidle : coroutine.phase.refreshes key = false)
    (hbehind : ∀ ttl data, coroutine.phase ≠ .refreshing key ttl (some data)) : Claimed key w' := by
  have hphase (q : ℕ) : w'.phase q = if q = p then coroutine.phase else w.phase q := by
    rw [← phase_put]
    exact congrArg (fun coroutines => (coroutines q).phase) hcoroutines
  have hnobody (q : ℕ) : (w'.phase q).refreshes key ≠ true := by
    rw [hphase]
    split
    · rw [hidle]
      exact Bool.false_ne_true
    next hqp => exact fun hq => hqp (h.once q p hq hp)
  refine ⟨fun q hq => absurd hq (hnobody q), fun q r hq => absurd hq (hnobody q), fun q ttl data hq => ?_⟩
  rw [hphase] at hq
  split at hq
  · exact hbehind ttl data hq
  · exact h.behind q ttl data hq

/-- The step leaves the key's refresh to a task: nobody asks for it with `background=False`. -/
def Backgrounds (key : String) : Label δ ε → Bool
  | .request _ key' _ background _ => background || key' != key
  | _ => true

theorem Claimed.claim {key : String} {w : World δ ε} (h : Claimed key w)
    (hfree : w.inflight key = false)
    (child : ℕ) (began : ℚ) (ttl : ℕ) :
    Claimed key ((w.setInflight key true).put child ⟨began, .spawned key ttl⟩) := by
  have hphase (q : ℕ) : ((w.setInflight key true).put child ⟨began, .spawned key ttl⟩).phase q =
      if q = child then .spawned key ttl else w.phase q := phase_put _ child q _
  have honly {q : ℕ}
      (hq : (((w.setInflight key true).put child ⟨began, .spawned key ttl⟩).phase q).refreshes key =
        true) :
      q = child := by
    rw [hphase] at hq
    split at hq
    next hqp => exact hqp
    · exact absurd (hfree.symm.trans (h.claimed q hq)) Bool.false_ne_true
  refine ⟨fun _ _ => Function.update_self _ _ _, fun q r hq hr => (honly hq).trans (honly hr).symm,
    fun q ttl' data hq => ?_⟩
  rw [hphase] at hq
  split at hq
  · cases hq
  · exact h.behind q ttl' data hq

theorem Claimed.step {key : String} {w w' : World δ ε} {l : Label δ ε} (h : Claimed key w)
    (hl : Backgrounds key l = true) (hstep : Step w l w') : Claimed key w' := by
  have hinflight {key' : String} (hne : key' ≠ key) (claimed : Bool) :
      (w.setInflight key' claimed).inflight key = w.inflight key :=
    Function.update_of_ne (Ne.symm hne) _ _
  cases hstep with
  | serve | miss | join | fail | cancelWoken | leaveAnswered | leaveRaised | follow | cancelSpawned
    | cancelLeading | cancelWaiting =>
    exact h.put rfl rfl (fun hq => (nomatch hq)) fun _ _ => nofun
  | @spawn p key' ttl child entry hidle hstore hhard hfree =>
    have hspawned : Claimed key ((w.setInflight key' true).enter child (.spawned key' ttl)) := by
      by_cases hkey : key' = key
      · subst hkey
        exact h.claim hfree child w.cache.now ttl
      · exact h.put (p := child) rfl (hinflight hkey true)
          (fun hq => absurd (of_decide_eq_true hq) hkey)
          fun _ _ => nofun
    exact hspawned.put rfl rfl (fun hq => (nomatch hq)) fun _ _ => nofun
  | @foreground p key' ttl child entry hidle =>
    have hkey : key' ≠ key := bne_iff_ne.mp hl
    refine h.put (p := p) rfl (hinflight hkey true) (fun hq => (nomatch hq)) fun ttl data hq => ?_
    exact hkey (Phase.refreshing.inj hq).1
  | @start p key' ttl hp =>
    refine h.put rfl rfl (fun hq => ?_) fun _ _ => nofun
    rw [hp]
    exact hq
  | @settled p key' ttl future outcome hp =>
    obtain ⟨c, -, hkeep⟩ := keep_eq w key' ttl outcome
    rw [hkeep]
    cases outcome <;> exact h.put (p := p) rfl rfl (fun hq => (nomatch hq)) fun _ _ => nofun
  | @late p key' ttl future outcome hp =>
    obtain ⟨c, -, hkeep⟩ := keep_eq w key' ttl outcome
    rw [hkeep]
    exact h.put (p := p) rfl rfl (fun hq => (nomatch hq)) fun _ _ => nofun
  | @refreshed p key' ttl stale outcome hp =>
    obtain ⟨c, -, hkeep⟩ := keep_eq w key' ttl outcome
    unfold World.refresh
    rw [hkeep]
    by_cases hkey : key' = key
    · subst hkey
      cases stale with
      | none =>
        have hrefreshes : (w.phase p).refreshes key' = true := by
          rw [hp]
          exact decide_eq_true rfl
        exact h.release (p := p) rfl hrefreshes rfl fun _ _ => nofun
      | some data => exact absurd hp (h.behind p ttl data)
    · cases stale <;>
        exact h.put (p := p) rfl (hinflight hkey false) (fun hq => (nomatch hq)) fun _ _ => nofun
  | @cancelRefreshing p key' ttl stale hp =>
    by_cases hkey : key' = key
    · subst hkey
      cases stale with
      | none =>
        have hrefreshes : (w.phase p).refreshes key' = true := by
          rw [hp]
          exact decide_eq_true rfl
        exact h.release (p := p) rfl hrefreshes rfl fun _ _ => nofun
      | some data => exact absurd hp (h.behind p ttl data)
    · exact h.put (p := p) rfl (hinflight hkey false) (fun hq => (nomatch hq)) fun _ _ => nofun
  | @cache l c => exact ⟨h.claimed, h.once, h.behind⟩

/-- **One fetch for each key.** -/
theorem single_flight {w : World δ ε} {ls : List (Label δ ε)} {now : ℚ} {wall : ℤ}
    (hrun : (system δ ε).exec (fresh δ ε now wall) ls = some w) (key : String) :
    (∀ p q ttl ttl' future future', w.phase p = .leading key ttl future →
      w.phase q = .leading key ttl' future' → p = q) ∧
    ((∀ l ∈ ls, Backgrounds key l = true) → ∀ p q, (w.phase p).refreshes key = true →
      (w.phase q).refreshes key = true → p = q) := by
  refine ⟨fun p q ttl ttl' future future' => (linked_run hrun).alone p q key ttl ttl' future future',
    fun hls => ?_⟩
  have hclaimed := (system δ ε).always_of_along (I := Claimed key)
    (G := fun _ l => Backgrounds key l = true)
    (fun _ _ _ h hl hstep => h.step hl (step_cases hstep)) (claimed_fresh key now wall)
    ((system δ ε).along_of_forall fun _ => hls)
  exact ((system δ ε).always_exec hclaimed hrun).once

def sampleKey : String := "vmcli:aws_instances"

def sampleStart : World ℕ String := fresh ℕ String 0 0

/-- A second call joins the first one's fetch. -/
def sampleJoined : List (Label ℕ String) :=
  [.request 0 sampleKey 60 true 7, .request 1 sampleKey 60 true 7]

/-- A third comes when the entry is stale. -/
def sampleRun : List (Label ℕ String) :=
  sampleJoined ++ [.tick 2, .fetched 0 (.ok 3), .wake 1, .tick 61, .request 2 sampleKey 60 true 7]

theorem sampleJoined_isSome : ((system ℕ String).exec sampleStart sampleJoined).isSome = true := by
  decide +kernel

theorem sampleRun_isSome : ((system ℕ String).exec sampleStart sampleRun).isSome = true := by
  decide +kernel

def sampleWaiting : World ℕ String :=
  ((system ℕ String).exec sampleStart sampleJoined).get sampleJoined_isSome

def sampleWorld : World ℕ String := ((system ℕ String).exec sampleStart sampleRun).get sampleRun_isSome

theorem sampleRun_single : (∀ p q ttl ttl' future future',
    sampleWorld.phase p = .leading sampleKey ttl future →
      sampleWorld.phase q = .leading sampleKey ttl' future' → p = q) ∧
    ∀ q, (sampleWorld.phase q).refreshes sampleKey = true → 7 = q := by
  have h := single_flight (Option.eq_some_of_isSome sampleRun_isSome) sampleKey
  exact ⟨h.1, fun q => h.2 (by decide) 7 q (by decide +kernel)⟩

/-! ### Nobody waits for nothing -/

/-- The step does not cancel a coroutine that fetches for others. -/
def Spares (w : World δ ε) (l : Label δ ε) : Prop := ∀ p, l = .cancel p → (w.phase p).isLeading = false

/-- Whoever waits for a future that is not done finds it under its key. -/
def Attended (w : World δ ε) : Prop :=
  ∀ p key future, w.phase p = .waiting key future → w.futures future = .pending →
    w.pending key = some future

theorem Attended.put {w w' : World δ ε} (h : Attended w) {p : ℕ} {coroutine : Coroutine δ ε}
    (hcoroutines : w'.coroutines = (w.put p coroutine).coroutines)
    (hkept : ∀ q key future, w.phase q = .waiting key future → w'.futures future = .pending →
      w.futures future = .pending ∧ (w.pending key = some future → w'.pending key = some future))
    (hjoin : ∀ key future, coroutine.phase = .waiting key future → w'.pending key = some future) :
    Attended w' := by
  intro q key future hq hfuture
  have hphase : w'.phase q = if q = p then coroutine.phase else w.phase q := by
    rw [← phase_put]
    exact congrArg (fun coroutines => (coroutines q).phase) hcoroutines
  rw [hphase] at hq
  split at hq
  · exact hjoin key future hq
  · obtain ⟨hpending, hunder⟩ := hkept q key future hq hfuture
    exact hunder (h q key future hq hpending)

theorem Attended.step {w w' : World δ ε} {l : Label δ ε} (hlinked : Linked w) (h : Attended w)
    (hspares : Spares w l) (hstep : Step w l w') : Attended w' := by
  cases hstep with
  | serve | fail | cancelWoken | leaveAnswered | leaveRaised | follow | cancelSpawned | foreground | start
    | cancelRefreshing =>
    exact h.put rfl (fun _ _ _ _ hfuture => ⟨hfuture, id⟩) fun _ _ => nofun
  | @spawn p key ttl child =>
    have hspawned : Attended ((w.setInflight key true).enter child (.spawned key ttl)) :=
      h.put rfl (fun _ _ _ _ hfuture => ⟨hfuture, id⟩) fun _ _ => nofun
    exact hspawned.put rfl (fun _ _ _ _ hfuture => ⟨hfuture, id⟩) fun _ _ => nofun
  | @join p key ttl background child future c hidle hmoves hpending =>
    refine h.put rfl (fun _ _ _ _ hfuture => ⟨hfuture, id⟩) fun key' future' hwaiting => ?_
    obtain ⟨rfl, rfl⟩ := Phase.waiting.inj hwaiting
    exact hpending
  | @miss p key ttl background child c hidle hmoves hnone =>
    refine h.put (p := p) rfl (fun q key' future hq hfuture => ?_) fun _ _ => nofun
    have hlt : future ≠ w.made := Nat.ne_of_lt (hlinked.joins q key' future hq).1
    refine ⟨(Function.update_of_ne hlt _ _).symm.trans hfuture, fun hpending => ?_⟩
    have hne : key' ≠ key := by
      rintro rfl
      exact Option.some_ne_none future (hpending.symm.trans hnone)
    exact (Function.update_of_ne hne _ _).trans hpending
  | @settled p key ttl future outcome hp =>
    obtain ⟨c, -, hkeep⟩ := keep_eq w key ttl outcome
    have hdone : Future.of outcome ≠ .pending := by cases outcome <;> exact nofun
    have hquiet : ∀ key' future', ((w.withCache c).outcomeOf key outcome) ≠ .waiting key' future' := by
      cases outcome <;> exact fun _ _ => nofun
    rw [hkeep]
    refine h.put (p := p) rfl (fun q key' future' hq hfuture => ?_) fun key' future' hwaiting =>
      absurd hwaiting (hquiet key' future')
    have hother : future' ≠ future := by
      rintro rfl
      have hself : (w.settle future' (Future.of outcome)).futures future' = Future.of outcome :=
        Function.update_self _ _ _
      exact hdone (hself.symm.trans hfuture)
    refine ⟨(Function.update_of_ne hother _ _).symm.trans hfuture, fun hpending => ?_⟩
    have hne : key' ≠ key := by
      rintro rfl
      exact hother (Option.some.inj (hpending.symm.trans (hlinked.leads p key' ttl future hp)))
    exact (Function.update_of_ne hne _ _).trans hpending
  | @late p key ttl future outcome hp hdone =>
    obtain ⟨c, -, hkeep⟩ := keep_eq w key ttl outcome
    rw [hkeep]
    refine h.put (p := p) rfl (fun q key' future' hq hfuture => ⟨hfuture, fun hpending => ?_⟩)
      fun _ _ => nofun
    have hne : key' ≠ key := by
      rintro rfl
      obtain rfl := Option.some.inj (hpending.symm.trans (hlinked.leads p key' ttl future hp))
      exact hdone hfuture
    exact (Function.update_of_ne hne _ _).trans hpending
  | @refreshed p key ttl stale outcome hp =>
    obtain ⟨c, -, hkeep⟩ := keep_eq w key ttl outcome
    unfold World.refresh
    rw [hkeep]
    cases stale <;>
      exact h.put (p := p) rfl (fun _ _ _ _ hfuture => ⟨hfuture, id⟩) fun _ _ => nofun
  | @cancelLeading p key ttl future hp =>
    have hleading := hspares p rfl
    rw [hp] at hleading
    cases hleading
  | @cancelWaiting p key future hp =>
    refine h.put (p := p) rfl (fun q key' future' hq hfuture => ?_) fun _ _ => nofun
    have hother : future' ≠ future := by
      rintro rfl
      cases (Function.update_self _ _ _).symm.trans hfuture
    exact ⟨(Function.update_of_ne hother _ _).symm.trans hfuture, id⟩
  | @cache l c => exact h

/-- What the fetch gave is given to the coroutine that waits for it. -/
def Given (key : String) : Except ε δ → Phase δ ε → Prop
  | .ok data, phase => ∃ cachedAt, phase = .answered key data cachedAt
  | .error error, phase => phase = .raised (some error)

theorem lead_pending {w : World δ ε} {p : ℕ} {key : String} {ttl future : ℕ} {outcome : Except ε δ}
    (hfuture : w.futures future = .pending) :
    w.lead p key ttl future outcome =
      (((w.keep key ttl outcome).settle future (Future.of outcome)).popPending key).goto p
        ((w.keep key ttl outcome).outcomeOf key outcome) := by
  have hkeep : (w.keep key ttl outcome).futures future = .pending := by
    cases outcome <;> exact hfuture
  unfold World.lead
  dsimp only
  rw [hkeep]

/-- A done future is passed on. -/
theorem wake_done {w : World δ ε} {p : ℕ} {key : String} {future : ℕ} {outcome : Except ε δ}
    (hp : w.phase p = .waiting key future) (hfuture : w.futures future = Future.of outcome) :
    ∃ w', w.step (.wake p) = some w' ∧ Given key outcome (w'.phase p) := by
  have hself (w : World δ ε) (phase : Phase δ ε) : (w.goto p phase).phase p = phase :=
    (phase_put w p p _).trans (if_pos rfl)
  simp only [World.step, hp, hfuture]
  cases outcome with
  | ok data => exact ⟨_, rfl, _, hself _ _⟩
  | error error => exact ⟨_, rfl, hself _ _⟩

/-- **Who waits is answered.** -/
theorem waiter_served {w : World δ ε} {ls : List (Label δ ε)} {now : ℚ} {wall : ℤ}
    (hrun : (system δ ε).exec (fresh δ ε now wall) ls = some w)
    (hspares : (system δ ε).Along Spares (fresh δ ε now wall) ls) {p : ℕ} {key : String} {future : ℕ}
    (hp : w.phase p = .waiting key future) :
    (∃ w', (system δ ε).step w (.wake p) = some w') ∨
    ∃ q ttl, w.phase q = .leading key ttl future ∧ ∀ outcome, ∃ w',
      (system δ ε).exec w [.fetched q outcome, .wake p] = some w' ∧ Given key outcome (w'.phase p) := by
  have hattended : Linked w ∧ Attended w :=
    (system δ ε).always_exec ((system δ ε).always_of_along (I := fun w => Linked w ∧ Attended w)
      (fun _ _ _ h hl hstep => ⟨h.1.step (step_cases hstep), h.2.step h.1 hl (step_cases hstep)⟩)
      ⟨linked_fresh now wall, fun _ _ _ h => (nomatch h)⟩ hspares) hrun
  have hstep : w.step (.wake p) = w.follow p key (w.futures future) := by simp only [World.step, hp]
  cases hfuture : w.futures future with
  | pending =>
    obtain ⟨q, ttl, hq⟩ := hattended.1.held key future (hattended.2 p key future hp hfuture)
    refine .inr ⟨q, ttl, hq, fun outcome => ?_⟩
    have hfetched : (system δ ε).step w (.fetched q outcome) = some (w.lead q key ttl future outcome) := by
      show w.step (.fetched q outcome) = _
      simp only [World.step, hq]
    have hne : p ≠ q := by
      rintro rfl
      cases hp.symm.trans hq
    have hwaiting : (w.lead q key ttl future outcome).phase p = .waiting key future := by
      rw [lead_pending hfuture]
      refine (phase_put _ q p _).trans ((if_neg hne).trans ?_)
      cases outcome <;> exact hp
    have hdone : (w.lead q key ttl future outcome).futures future = Future.of outcome := by
      rw [lead_pending hfuture]
      exact Function.update_self _ _ _
    obtain ⟨w', hwake, hgiven⟩ := wake_done hwaiting hdone
    have hlast : (system δ ε).step (w.lead q key ttl future outcome) (.wake p) = some w' := hwake
    refine ⟨w', ?_, hgiven⟩
    rw [Machine.System.exec_cons, hfetched, Option.bind_some, Machine.System.exec_cons, hlast]
    rfl
  | result data =>
    rw [hfuture] at hstep
    exact .inl ⟨_, hstep⟩
  | exception error | cancelled =>
    rw [hfuture] at hstep
    exact .inl ⟨_, hstep⟩

theorem sampleJoined_served : (∃ w', (system ℕ String).step sampleWaiting (.wake 1) = some w') ∨
    ∃ q ttl, sampleWaiting.phase q = .leading sampleKey ttl 0 ∧ ∀ outcome, ∃ w',
      (system ℕ String).exec sampleWaiting [.fetched q outcome, .wake 1] = some w' ∧
        Given sampleKey outcome (w'.phase 1) := by
  have hspares : (system ℕ String).Along Spares sampleStart sampleJoined := by
    refine (system ℕ String).along_of_forall fun w l hl p hcancel => ?_
    subst hcancel
    simp [sampleJoined] at hl
  exact waiter_served (Option.eq_some_of_isSome sampleJoined_isSome) hspares (by decide +kernel)

/-- The future is undone and stands under no key, and the coroutine waits for it. -/
structure Stranded (p : ℕ) (key : String) (future : ℕ) (w : World δ ε) : Prop where
  waits : w.phase p = .waiting key future
  undone : w.futures future = .pending
  nowhere : ∀ key', w.pending key' ≠ some future

theorem Stranded.put {p : ℕ} {key : String} {future : ℕ} {w w' : World δ ε}
    (h : Stranded p key future w) {q : ℕ} {coroutine : Coroutine δ ε}
    (hcoroutines : w'.coroutines = (w.put q coroutine).coroutines)
    (hfutures : w'.futures future = w.futures future) (hpending : ∀ key', w'.pending key' ≠ some future)
    (hq : w.phase q ≠ .waiting key future) : Stranded p key future w' := by
  have hpq : p ≠ q := by
    rintro rfl
    exact hq h.waits
  refine ⟨?_, hfutures.trans h.undone, hpending⟩
  have hphase : w'.phase p = (w.put q coroutine).phase p :=
    congrArg (fun coroutines => (coroutines p).phase) hcoroutines
  rw [hphase, phase_put, if_neg hpq]
  exact h.waits

/-- No coroutine that waits for the future is cancelled. -/
def Patient (future : ℕ) (w : World δ ε) (l : Label δ ε) : Prop :=
  ∀ p, l = .cancel p → ∀ key, w.phase p ≠ .waiting key future

theorem Stranded.step {p : ℕ} {key : String} {future : ℕ} {w w' : World δ ε} {l : Label δ ε}
    (hlinked : Linked w) (h : Stranded p key future w) (hl : Patient future w l) (hstep : Step w l w') :
    Stranded p key future w' := by
  have hpopped (c : Cache δ) (popped key' : String) :
      ((w.withCache c).popPending popped).pending key' ≠ some future := by
    by_cases hkey : key' = popped
    · have hself : ((w.withCache c).popPending popped).pending popped = none :=
        Function.update_self _ _ _
      rw [hkey, hself]
      exact nofun
    · have hother : ((w.withCache c).popPending popped).pending key' = w.pending key' :=
        Function.update_of_ne hkey _ _
      rw [hother]
      exact h.nowhere key'
  cases hstep with
  | serve hp | foreground hp | leaveAnswered hp | leaveRaised hp | cancelSpawned hp | start hp
    | cancelRefreshing hp => exact h.put rfl rfl h.nowhere (hp ▸ nofun)
  | @spawn q key' ttl child entry hq hstore hhard hfree hne hchild =>
    have hspawned : Stranded p key future ((w.setInflight key' true).enter child (.spawned key' ttl)) :=
      h.put rfl rfl h.nowhere (hchild ▸ nofun)
    refine hspawned.put (q := q) rfl rfl h.nowhere ?_
    have hidle : ((w.setInflight key' true).enter child (.spawned key' ttl)).phase q = .idle :=
      (phase_put _ child q _).trans ((if_neg (Ne.symm hne)).trans hq)
    rw [hidle]
    exact nofun
  | @join q key' ttl background child future' c hq => exact h.put rfl rfl h.nowhere (hq ▸ nofun)
  | @miss q key' ttl background child c hq hmoves hnone =>
    have hlt : future < w.made := (hlinked.joins p key future h.waits).1
    refine h.put (q := q) rfl (Function.update_of_ne (Nat.ne_of_lt hlt) _ _) (fun key₂ => ?_)
      (hq ▸ nofun)
    by_cases hkey : key₂ = key'
    · have hself : (w.promise key').pending key' = some w.made := Function.update_self _ _ _
      show (w.promise key').pending key₂ ≠ some future
      rw [hkey, hself]
      exact fun heq => Nat.ne_of_lt hlt (Option.some.inj heq).symm
    · have hother : (w.promise key').pending key₂ = w.pending key₂ := Function.update_of_ne hkey _ _
      show (w.promise key').pending key₂ ≠ some future
      rw [hother]
      exact h.nowhere key₂
  | @settled q key' ttl future' outcome hq =>
    obtain ⟨c, -, hkeep⟩ := keep_eq w key' ttl outcome
    have hne : future ≠ future' := by
      rintro rfl
      exact h.nowhere key' (hlinked.leads q key' ttl future hq)
    rw [hkeep]
    exact h.put (q := q) rfl (Function.update_of_ne hne _ _) (hpopped c key') (hq ▸ nofun)
  | @late q key' ttl future' outcome hq =>
    obtain ⟨c, -, hkeep⟩ := keep_eq w key' ttl outcome
    rw [hkeep]
    exact h.put (q := q) rfl rfl (hpopped c key') (hq ▸ nofun)
  | @refreshed q key' ttl stale outcome hq =>
    obtain ⟨c, -, hkeep⟩ := keep_eq w key' ttl outcome
    unfold World.refresh
    rw [hkeep]
    cases stale <;> exact h.put (q := q) rfl rfl h.nowhere (hq ▸ nofun)
  | @follow q key' future' data cachedAt hq hfuture =>
    refine h.put (q := q) rfl rfl h.nowhere fun hsame => ?_
    obtain ⟨-, rfl⟩ := Phase.waiting.inj (hq.symm.trans hsame)
    cases hfuture.symm.trans h.undone
  | @fail q key' future' error hq hfuture =>
    refine h.put (q := q) rfl rfl h.nowhere fun hsame => ?_
    obtain ⟨-, rfl⟩ := Phase.waiting.inj (hq.symm.trans hsame)
    exact hfuture h.undone
  | @cancelLeading q key' ttl future' hq =>
    exact h.put (q := q) rfl rfl (hpopped w.cache key') (hq ▸ nofun)
  | @cancelWaiting q key' future' hq =>
    have hne : future ≠ future' := by
      rintro rfl
      exact hl q rfl key' hq
    exact h.put (q := q) rfl (Function.update_of_ne hne _ _) h.nowhere (hl q rfl key)
  | @cancelWoken q key' future' hq => exact h.put (q := q) rfl rfl h.nowhere (hl q rfl key)
  | @cache l c => exact ⟨h.waits, h.undone, h.nowhere⟩

/-- **Cancelling the coroutine that fetches strands those that wait for it.** -/
theorem cancelled_strands {w w₁ w₂ : World δ ε} {ls ms : List (Label δ ε)} {now : ℚ} {wall : ℤ}
    (hreach : (system δ ε).exec (fresh δ ε now wall) ls = some w) {p q : ℕ} {key : String}
    {ttl future : ℕ}
    (hp : w.phase p = .waiting key future) (hq : w.phase q = .leading key ttl future)
    (hundone : w.futures future = .pending) (hcancel : (system δ ε).step w (.cancel q) = some w₁)
    (hrun : (system δ ε).exec w₁ ms = some w₂) (hpatient : (system δ ε).Along (Patient future) w₁ ms) :
    w₂.phase p = .waiting key future := by
  have hlinked := linked_run hreach
  have hstep : w.step (.cancel q) = some w₁ := hcancel
  have hstranded : Stranded p key future w₁ := by
    have hcancelled : w₁ = (w.popPending key).goto q (.raised none) := by
      simp only [World.step, World.cancel, hq] at hstep
      exact (Option.some.inj hstep).symm
    have hpq : p ≠ q := by
      rintro rfl
      cases hp.symm.trans hq
    rw [hcancelled]
    refine ⟨(phase_put _ q p _).trans ((if_neg hpq).trans hp), hundone, fun key' hpending => ?_⟩
    by_cases hkey : key' = key
    · have hself : (w.popPending key).pending key = none := Function.update_self _ _ _
      rw [hkey] at hpending
      cases hself.symm.trans hpending
    · have hbefore : w.pending key' = some future :=
        (Function.update_of_ne hkey _ _).symm.trans hpending
      exact hkey (hlinked.apart key' key future hbefore (hlinked.leads q key ttl future hq))
  have halways := (system δ ε).always_of_along (I := fun v => Linked v ∧ Stranded p key future v)
    (fun _ _ _ h hl hstep => ⟨h.1.step (step_cases hstep), h.2.step h.1 hl (step_cases hstep)⟩)
    ⟨hlinked.step (step_cases hstep), hstranded⟩ hpatient
  exact ((system δ ε).always_exec halways hrun).2.waits

def sampleCancelled : World ℕ String := (sampleWaiting.popPending sampleKey).goto 0 (.raised none)

/-- Another call fetches the key and is answered. -/
def sampleAgain : List (Label ℕ String) :=
  [.request 2 sampleKey 60 true 7, .fetched 2 (.ok 5), .leave 2]

theorem sampleAgain_isSome : ((system ℕ String).exec sampleCancelled sampleAgain).isSome = true := by
  decide +kernel

theorem sampleAgain_strands :
    (((system ℕ String).exec sampleCancelled sampleAgain).get sampleAgain_isSome).phase 1 =
      .waiting sampleKey 0 := by
  have hpatient : (system ℕ String).Along (Patient 0) sampleCancelled sampleAgain := by
    refine (system ℕ String).along_of_forall fun w l hl p hcancel => ?_
    subst hcancel
    simp [sampleAgain] at hl
  exact @cancelled_strands ℕ String sampleWaiting sampleCancelled _ sampleJoined sampleAgain 0 0
    (Option.eq_some_of_isSome sampleJoined_isSome) 1 0 sampleKey 60 0 (by decide +kernel)
    (by decide +kernel) rfl rfl (Option.eq_some_of_isSome sampleAgain_isSome) hpatient

/-! ### What the answers are -/

/-- A write made since the history was `old`. -/
def Cache.Since (old : List (Write δ)) (c : Cache δ) (write : Write δ) : Prop :=
  ∃ new, c.written = new ++ old ∧ write ∈ new

/-- A write of the key since then that had not expired when the call began. -/
def Cache.Served (old : List (Write δ)) (c : Cache δ) (key : String) (began : ℚ) (data : δ) : Prop :=
  ∃ write, c.Since old write ∧ write.key = key ∧ write.data = data ∧ began < write.time + write.hard

structure Cache.Stored (old : List (Write δ)) (key : String) (c : Cache δ) : Prop where
  history : old <:+ c.written
  entry : ∀ entry, c.store key = some entry → ∃ write, c.Since old write ∧ write.key = key ∧
    write.data = entry.data ∧ entry.hardExpiresAt = write.time + write.hard

theorem Cache.Since.moves {old : List (Write δ)} {c c' : Cache δ} {write : Write δ}
    (h : c.Since old write) (hmoves : c.Moves c') : c'.Since old write := by
  obtain ⟨new, hwritten, hmem⟩ := h
  cases hmoves with
  | drop hstore hsame => exact ⟨new, hsame.trans hwritten, hmem⟩
  | set key payload ttl hardTtl =>
    exact ⟨_ :: new, congrArg _ hwritten, List.mem_cons_of_mem _ hmem⟩

theorem Cache.Served.moves {old : List (Write δ)} {c c' : Cache δ} {key : String} {began : ℚ} {data : δ}
    (h : c.Served old key began data) (hmoves : c.Moves c') : c'.Served old key began data := by
  obtain ⟨write, hsince, hwrite⟩ := h
  exact ⟨write, hsince.moves hmoves, hwrite⟩

/-- What `set` has just written is served. -/
theorem Cache.served_set {old : List (Write δ)} {c : Cache δ} (hhistory : old <:+ c.written)
    (key : String)
    (data : δ) (ttl : ℕ) {began : ℚ} (hbegan : began ≤ c.now) :
    (c.set key data ttl none).Served old key began data := by
  obtain ⟨new, hwritten⟩ := hhistory
  have hpositive : (0 : ℚ) < ((ttl + staleGraceS : ℕ) : ℚ) :=
    Nat.cast_pos.mpr (Nat.lt_of_lt_of_le (by decide) (Nat.le_add_left staleGraceS ttl))
  exact ⟨⟨key, data, c.now, ((ttl + staleGraceS : ℕ) : ℚ)⟩, ⟨_ :: new, congrArg _ hwritten.symm,
    List.mem_cons_self⟩, rfl, rfl, lt_of_le_of_lt hbegan (lt_add_of_pos_right c.now hpositive)⟩

theorem Cache.Moves.now_le {c c' : Cache δ} (h : c.Moves c') : c.now ≤ c'.now := by
  cases h with
  | drop hstore hsame hnow => exact hnow
  | set => exact le_rfl

theorem Cache.Stored.moves {old : List (Write δ)} {key : String} {c c' : Cache δ}
    (h : c.Stored old key) (hmoves : c.Moves c') : c'.Stored old key := by
  have hkept {entry : Entry δ} (hentry : c.store key = some entry) : ∃ write, c'.Since old write ∧
      write.key = key ∧ write.data = entry.data ∧ entry.hardExpiresAt = write.time + write.hard := by
    obtain ⟨write, hsince, hwrite⟩ := h.entry entry hentry
    exact ⟨write, hsince.moves hmoves, hwrite⟩
  cases hmoves with
  | drop hstore hsame =>
    refine ⟨hsame ▸ h.history, fun entry hentry => ?_⟩
    rcases hstore key with hnone | hsome
    · cases hnone.symm.trans hentry
    · exact hkept (hsome.symm.trans hentry)
  | set key' payload ttl hardTtl =>
    refine ⟨h.history.trans (List.suffix_cons _ _), fun entry hentry => ?_⟩
    by_cases hkey : key = key'
    · subst hkey
      have hself : (c.set key payload ttl hardTtl).store key = some ⟨payload, c.wall, c.now + ttl,
          c.now + ((hardTtl.getD (ttl + staleGraceS) : ℕ) : ℚ)⟩ := Function.update_self _ _ _
      obtain rfl := Option.some.inj (hself.symm.trans hentry)
      obtain ⟨new, hwritten⟩ := h.history
      exact ⟨_, ⟨_ :: new, congrArg _ hwritten.symm, List.mem_cons_self⟩, rfl, rfl, rfl⟩
    · exact hkept ((Function.update_of_ne hkey _ _).symm.trans hentry)

/-- What a coroutine has been given, or will be. -/
def Answers (old : List (Write δ)) (key : String) (w : World δ ε) (coroutine : Coroutine δ ε) : Prop :=
  match coroutine.phase with
  | .answered key' data _ | .refreshing key' _ (some (data, _)) =>
    key' = key → w.cache.Served old key coroutine.began data
  | .leading key' _ _ => key' = key → coroutine.began ≤ w.cache.now
  | .waiting key' future => key' = key → coroutine.began ≤ w.cache.now ∧
      ∀ data, w.futures future = .result data → w.cache.Served old key coroutine.began data
  | _ => True

theorem Answers.mono {old : List (Write δ)} {key : String} {w w' : World δ ε}
    {coroutine : Coroutine δ ε}
    (h : Answers old key w coroutine) (hmoves : w.cache.Moves w'.cache)
    (hfutures : ∀ future data, coroutine.phase = .waiting key future →
      w'.futures future = .result data →
      w.futures future = .result data ∨ w'.cache.Served old key coroutine.began data) :
    Answers old key w' coroutine := by
  obtain ⟨began, phase⟩ := coroutine
  cases phase with
  | answered key' data cachedAt => exact fun hkey => (h hkey).moves hmoves
  | refreshing key' ttl stale =>
    cases stale with
    | none => trivial
    | some data => exact fun hkey => Cache.Served.moves (h hkey) hmoves
  | waiting key' future =>
    intro hkey
    subst hkey
    obtain ⟨hbegan, hserved⟩ := h rfl
    refine ⟨hbegan.trans hmoves.now_le, fun data hdata => ?_⟩
    rcases hfutures future data rfl hdata with hbefore | hnow
    · exact (hserved data hbefore).moves hmoves
    · exact hnow
  | leading key' ttl future => exact fun hkey => (h hkey).trans hmoves.now_le
  | idle | spawned key' ttl | raised error => trivial

theorem Cache.Stored.served {old : List (Write δ)} {key : String} {c : Cache δ} {entry : Entry δ}
    (h : c.Stored old key) (hentry : c.store key = some entry) (hhard : c.now < entry.hardExpiresAt) :
    c.Served old key c.now entry.data := by
  obtain ⟨write, hsince, hkey, hdata, hexpires⟩ := h.entry entry hentry
  exact ⟨write, hsince, hkey, hdata, hexpires ▸ hhard⟩

theorem Answers.put {old : List (Write δ)} {key : String} {w w' : World δ ε} {p q : ℕ}
    {coroutine : Coroutine δ ε} (h : Answers old key w (w.coroutines q))
    (hcoroutines : w'.coroutines = (w.put p coroutine).coroutines) (hmoves : w.cache.Moves w'.cache)
    (hfutures : ∀ future data, w.phase q = .waiting key future → w'.futures future = .result data →
      w.futures future = .result data ∨ w'.cache.Served old key (w.coroutines q).began data)
    (hself : q = p → Answers old key w' coroutine) : Answers old key w' (w'.coroutines q) := by
  rw [hcoroutines]
  by_cases hqp : q = p
  · have hnew : (w.put p coroutine).coroutines q = coroutine := hqp ▸ Function.update_self _ _ _
    rw [hnew]
    exact hself hqp
  · have hsame : (w.put p coroutine).coroutines q = w.coroutines q := Function.update_of_ne hqp _ _
    rw [hsame]
    exact h.mono hmoves hfutures

theorem Answers.settled {old : List (Write δ)} {key : String} {w : World δ ε} {p q : ℕ} {key' : String}
    {ttl future : ℕ} {outcome : Except ε δ} (hlinked : Linked w) (hstored : w.cache.Stored old key)
    (h : Answers old key w (w.coroutines q)) (hp : w.phase p = .leading key' ttl future) :
    Answers old key ((((w.keep key' ttl outcome).settle future (Future.of outcome)).popPending key').goto p
        ((w.keep key' ttl outcome).outcomeOf key' outcome))
      (((((w.keep key' ttl outcome).settle future (Future.of outcome)).popPending key').goto p
        ((w.keep key' ttl outcome).outcomeOf key' outcome)).coroutines q) := by
  have hserved {data : δ} {began : ℚ} (hkey : key' = key) (hbegan : began ≤ w.cache.now) :
      (w.cache.set key' data ttl none).Served old key began data := by
    subst hkey
    exact Cache.served_set hstored.history key' data ttl hbegan
  have hother {future' : ℕ} (hne : future' ≠ future) (w' : World δ ε) (done : Future δ ε) :
      (w'.settle future done).futures future' = w'.futures future' := Function.update_of_ne hne _ _
  have hself (w' : World δ ε) (done : Future δ ε) : (w'.settle future done).futures future = done :=
    Function.update_self _ _ _
  have hbegan (hqp : q = p) (hkey : key' = key) : (w.coroutines p).began ≤ w.cache.now := by
    subst hqp
    unfold Answers at h
    rw [show (w.coroutines q).phase = _ from hp] at h
    exact h hkey
  have hwaits {future' : ℕ} (hq : w.phase q = .waiting key future') :
      (w.coroutines q).began ≤ w.cache.now ∧ (future' = future → key' = key) := by
    unfold Answers at h
    rw [show (w.coroutines q).phase = _ from hq] at h
    refine ⟨(h rfl).1, ?_⟩
    rintro rfl
    exact (hlinked.joins q key future' hq).2 key' (hlinked.leads p key' ttl future' hp)
  cases outcome with
  | ok payload =>
    refine h.put (p := p) rfl (.set key' payload ttl none) (fun future' data hq hdata => ?_) fun hqp =>
      fun hkey => hserved hkey (hbegan hqp hkey)
    by_cases hfuture : future' = future
    · subst hfuture
      obtain rfl := Future.result.inj ((hself _ _).symm.trans hdata)
      exact .inr (hserved ((hwaits hq).2 rfl) (hwaits hq).1)
    · exact .inl ((hother hfuture _ _).symm.trans hdata)
  | error error =>
    refine h.put (p := p) rfl (.refl w.cache) (fun future' data hq hdata => ?_) fun _ => trivial
    by_cases hfuture : future' = future
    · subst hfuture
      cases (hself _ _).symm.trans hdata
    · exact .inl ((hother hfuture _ _).symm.trans hdata)

theorem Answers.step {old : List (Write δ)} {key : String} {w w' : World δ ε} {l : Label δ ε} {q : ℕ}
    (hlinked : Linked w) (hstored : w.cache.Stored old key) (h : Answers old key w (w.coroutines q))
    (hstep : Step w l w') : Answers old key w' (w'.coroutines q) := by
  cases hstep with
  | fail | cancelWoken | leaveAnswered | leaveRaised | cancelSpawned | cancelRefreshing | cancelLeading
    | start =>
    exact h.put rfl (.refl w.cache) (fun _ _ _ hdata => .inl hdata) fun _ => trivial
  | @serve p key' ttl background child entry hidle hentry hhard =>
    refine h.put (p := p) rfl (.refl w.cache) (fun _ _ _ hdata => .inl hdata) fun _ => ?_
    rintro rfl
    exact hstored.served hentry hhard
  | @spawn p key' ttl child entry hidle hentry hhard =>
    have hspawned : Answers old key ((w.setInflight key' true).enter child (.spawned key' ttl))
        (((w.setInflight key' true).enter child (.spawned key' ttl)).coroutines q) :=
      h.put rfl (.refl w.cache) (fun _ _ _ hdata => .inl hdata) fun _ => trivial
    refine hspawned.put (p := p) rfl (.refl w.cache) (fun _ _ _ hdata => .inl hdata) fun _ => ?_
    rintro rfl
    exact hstored.served hentry hhard
  | @foreground p key' ttl child entry hidle hentry hhard =>
    refine h.put (p := p) rfl (.refl w.cache) (fun _ _ _ hdata => .inl hdata) fun _ => ?_
    rintro rfl
    exact hstored.served hentry hhard
  | @join p key' ttl background child future c hidle hmoves hpending =>
    refine h.put (p := p) rfl hmoves (fun _ _ _ hdata => .inl hdata) fun _ => ?_
    exact fun _ => ⟨le_rfl, fun data hdata => absurd hdata (hlinked.undone key' future data hpending)⟩
  | @miss p key' ttl background child c hidle hmoves hnone =>
    refine h.put (p := p) rfl hmoves (fun future data hq hdata => .inl ?_) fun _ _ => le_rfl
    have hlt : future ≠ w.made := Nat.ne_of_lt (hlinked.joins q key future hq).1
    exact (Function.update_of_ne hlt _ _).symm.trans hdata
  | settled hp => exact h.settled hlinked hstored hp
  | @late p key' ttl future outcome hp =>
    obtain ⟨c, hmoves, hkeep⟩ := keep_eq w key' ttl outcome
    rw [hkeep]
    exact h.put (p := p) rfl hmoves (fun _ _ _ hdata => .inl hdata) fun _ => trivial
  | @refreshed p key' ttl stale outcome hp =>
    obtain ⟨c, hmoves, hkeep⟩ := keep_eq w key' ttl outcome
    unfold World.refresh
    rw [hkeep]
    cases stale with
    | none => exact h.put (p := p) rfl hmoves (fun _ _ _ hdata => .inl hdata) fun _ => trivial
    | some data =>
      refine h.put (p := p) rfl hmoves (fun _ _ _ hdata => .inl hdata) ?_
      rintro rfl
      unfold Answers at h
      rw [show (w.coroutines q).phase = _ from hp] at h
      exact fun hkey => (h hkey).moves hmoves
  | @follow p key' future data cachedAt hp hfuture =>
    refine h.put (p := p) rfl (w.cache.moves_get key') (fun _ _ _ hdata => .inl hdata) ?_
    rintro rfl
    unfold Answers at h
    rw [show (w.coroutines q).phase = _ from hp] at h
    exact fun hkey => ((h hkey).2 data hfuture).moves (w.cache.moves_get key')
  | @cancelWaiting p key' future hp =>
    refine h.put (p := p) rfl (.refl w.cache) (fun future' data hq hdata => ?_) fun _ => trivial
    by_cases hfuture : future' = future
    · have hself : (w.settle future .cancelled).futures future = .cancelled := Function.update_self _ _ _
      cases hself.symm.trans (hfuture ▸ hdata)
    · exact .inl ((Function.update_of_ne hfuture _ _).symm.trans hdata)
  | @cache l c hmoves =>
    exact @Answers.mono δ ε old key w (w.withCache c) _ h hmoves fun _ _ hq hdata => .inl hdata

theorem Step.moves {w w' : World δ ε} {l : Label δ ε} (hstep : Step w l w') :
    w.cache.Moves w'.cache := by
  cases hstep with
  | join hidle hmoves | miss hidle hmoves => exact hmoves
  | cache hmoves => exact hmoves
  | @settled p key ttl future outcome =>
    cases outcome with
    | ok data => exact .set key data ttl none
    | error error => exact .refl w.cache
  | @late p key ttl future outcome =>
    cases outcome with
    | ok data => exact .set key data ttl none
    | error error => exact .refl w.cache
  | @refreshed p key ttl stale outcome =>
    cases outcome with
    | ok data => exact .set key data ttl none
    | error error => exact .refl w.cache
  | @follow p key => exact w.cache.moves_get key
  | _ => exact .refl w.cache

/-- While the key has no entry, a call begun now is given what is written from now on. -/
theorem answers_since {w w' : World δ ε} {ls ms : List (Label δ ε)} {now : ℚ} {wall : ℤ}
    (hreach : (system δ ε).exec (fresh δ ε now wall) ls = some w)
    (hrun : (system δ ε).exec w ms = some w')
    {p : ℕ} {key : String} {data : δ} {cachedAt : ℤ} (hidle : w.phase p = .idle)
    (hnone : w.cache.store key = none) (hanswer : w'.phase p = .answered key data cachedAt) :
    w'.cache.Served w.cache.written key (w'.coroutines p).began data := by
  have hstored : w.cache.Stored w.cache.written key := by
    refine ⟨List.suffix_refl _, fun entry hentry => ?_⟩
    cases hnone.symm.trans hentry
  have hanswers : Answers w.cache.written key w (w.coroutines p) := by
    unfold Answers
    rw [show (w.coroutines p).phase = _ from hidle]
    trivial
  have halways := (system δ ε).always_of_step (I := fun v => Linked v ∧
    v.cache.Stored w.cache.written key ∧ Answers w.cache.written key v (v.coroutines p))
    (fun v l v' h hstep => ⟨h.1.step (step_cases hstep), h.2.1.moves (step_cases hstep).moves,
      h.2.2.step h.1 h.2.1 (step_cases hstep)⟩) ms ⟨linked_run hreach, hstored, hanswers⟩
  have hgiven := ((system δ ε).always_exec halways hrun).2.2
  unfold Answers at hgiven
  rw [show (w'.coroutines p).phase = _ from hanswer] at hgiven
  exact hgiven rfl

/-- **No answer is older than its hard expiry.** -/
theorem answers_bounded {w : World δ ε} {ls : List (Label δ ε)} {now : ℚ} {wall : ℤ}
    (hrun : (system δ ε).exec (fresh δ ε now wall) ls = some w) {p : ℕ} {key : String} {data : δ}
    {cachedAt : ℤ} (hanswer : w.phase p = .answered key data cachedAt) :
    ∃ write ∈ w.cache.written, write.key = key ∧ write.data = data ∧
      (w.coroutines p).began < write.time + write.hard := by
  obtain ⟨write, ⟨new, hwritten, hmem⟩, hwrite⟩ :=
    @answers_since δ ε (fresh δ ε now wall) w [] ls now wall rfl hrun p key data cachedAt rfl rfl hanswer
  exact ⟨write, hwritten ▸ List.mem_append_left _ hmem, hwrite⟩

theorem sampleRun_bounded : ∃ write ∈ sampleWorld.cache.written, write.key = sampleKey ∧
    write.data = 3 ∧ (sampleWorld.coroutines 2).began < write.time + write.hard :=
  @answers_bounded ℕ String sampleWorld sampleRun 0 0 (Option.eq_some_of_isSome sampleRun_isSome) 2
    sampleKey 3 0 (by decide +kernel)

/-- The step takes the key's entry away. -/
def Invalidates (key : String) : Label δ ε → Bool
  | .invalidate key' => key' = key
  | .invalidatePrefix name => ("vmcli:" ++ name ++ ":").toList.isPrefixOf key.toList
  | _ => false

/-- **After an invalidation, no answer from before.** -/
theorem answers_invalidated {w w₁ w₂ : World δ ε} {ls ms : List (Label δ ε)} {l : Label δ ε} {now : ℚ}
    {wall : ℤ} (hreach : (system δ ε).exec (fresh δ ε now wall) ls = some w)
    (hstep : (system δ ε).step w l = some w₁) (hrun : (system δ ε).exec w₁ ms = some w₂) {p : ℕ}
    {key : String} {data : δ} {cachedAt : ℤ} (hl : Invalidates key l = true)
    (hidle : w₁.phase p = .idle) (hanswer : w₂.phase p = .answered key data cachedAt) :
    ∃ new, w₂.cache.written = new ++ w.cache.written ∧ ∃ write ∈ new, write.key = key ∧
      write.data = data ∧ (w₂.coroutines p).began < write.time + write.hard := by
  have hreach₁ : (system δ ε).exec (fresh δ ε now wall) (ls ++ [l]) = some w₁ := by
    rw [(system δ ε).exec_append_of_some hreach, Machine.System.exec_cons, hstep]
    rfl
  have hgone : w₁.cache.store key = none ∧ w₁.cache.written = w.cache.written := by
    cases l with
    | invalidate key' =>
      obtain rfl := Option.some.inj hstep
      obtain rfl := of_decide_eq_true hl
      exact ⟨Function.update_self _ _ _, rfl⟩
    | invalidatePrefix name =>
      obtain rfl := Option.some.inj hstep
      exact ⟨if_pos hl, rfl⟩
    | _ => cases hl
  obtain ⟨write, ⟨new, hwritten, hmem⟩, hwrite⟩ := answers_since hreach₁ hrun hidle hgone.1 hanswer
  exact ⟨new, hgone.2 ▸ hwritten, write, hmem, hwrite⟩

def sampleInvalidated : World ℕ String := sampleWorld.withCache (sampleWorld.cache.invalidate sampleKey)

/-- The refresh that was on its way answers the next call. -/
def sampleRefreshed : List (Label ℕ String) :=
  [.start 7, .fetched 7 (.ok 4), .request 3 sampleKey 60 true 8]

theorem sampleRefreshed_isSome :
    ((system ℕ String).exec sampleInvalidated sampleRefreshed).isSome = true := by
  decide +kernel

def sampleLater : World ℕ String :=
  ((system ℕ String).exec sampleInvalidated sampleRefreshed).get sampleRefreshed_isSome

theorem sampleLater_invalidated : ∃ new, sampleLater.cache.written = new ++ sampleWorld.cache.written ∧
    ∃ write ∈ new, write.key = sampleKey ∧ write.data = 4 ∧
      (sampleLater.coroutines 3).began < write.time + write.hard :=
  @answers_invalidated ℕ String sampleWorld sampleInvalidated sampleLater sampleRun sampleRefreshed
    (.invalidate sampleKey) 0 0 (Option.eq_some_of_isSome sampleRun_isSome) rfl
    (Option.eq_some_of_isSome sampleRefreshed_isSome) 3 sampleKey 4 0 (by decide) (by decide +kernel)
    (by decide +kernel)

end

end CacheService
