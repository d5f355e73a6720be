import VmDashboard.Costs.Cache

/-!
# A figure belongs to the month it is shown for

A figure is stamped with the month it is recorded in, and its query asks for the month it is issued
in. Both are one month unless the query runs over the end of the month.
-/

namespace Costs
open Machine.Store (column)
open Python (Instant)

/-- The last good figure of a row. -/
structure Figure where
  json : String
  version : ℕ
  period : Option String
  fetchedAt : Option Instant
  deriving DecidableEq

def CloudCostCache.figure (row : CloudCostCache) : Option Figure :=
  row.payload.map fun json => ⟨json, row.payloadVersion, row.period, row.fetchedAt⟩

abbrev figure : Store → Key → Option Figure := column CloudCostCache.figure

theorem figure_claim (store : Store) (ask : Ask) (key : Key) :
    figure (claim store ask) key = figure store key :=
  column_claim rfl (fun _ _ => rfl) (fun _ _ _ => rfl) store ask key

theorem figure_finish_ok (store : Store) (key : Key) (json : String) (now : Instant) :
    figure (finish store key (.ok json) now) key =
      some ⟨json, payloadVersion, some (period now), some now⟩ := by
  rw [figure, finish, Machine.Store.column_put_self]
  rfl

/-- A failed query leaves every figure. -/
theorem figure_finish_unavailable (store : Store) (key : Key) (detail : String) (throttled : Bool)
    (retryAfter : Option ℤ) (now : Instant) (key' : Key) :
    figure (finish store key (.unavailable detail throttled retryAfter) now) key' =
      figure store key' := by
  refine store.column_put_of_eq ?_ key'
  show (store.rowOr key (.new 0)).figure = _
  exact store.column_rowOr key rfl

/-- What `_has_good` accepts is a figure stamped with the month. -/
theorem hasGood_figure {store : Store} {key : Key} {now : Instant}
    (h : hasGood (store key) now = true) :
    ∃ shown, figure store key = some shown ∧ shown.period = some (period now) := by
  unfold hasGood at h
  obtain ⟨row, hrow, hgood⟩ := Option.any_eq_true _ _ |>.mp h
  simp only [Bool.and_eq_true, decide_eq_true_eq] at hgood
  obtain ⟨json, hjson, -⟩ := Option.any_eq_true _ _ |>.mp hgood.1.1
  refine ⟨⟨json, row.payloadVersion, row.period, row.fetchedAt⟩, ?_, hgood.1.2⟩
  simp only [figure, column, hrow, Option.bind_some, CloudCostCache.figure, hjson, Option.map_some]

/-! ### The property and the condition -/

/-- The figure of a row, where `_has_good` accepts it, is of a query issued for the month of
`now`. -/
def ShowsMonth (s : State) (key : Key) (now : Instant) : Prop :=
  hasGood (s.store key) now = true → ∃ issuedAt ∈ s.issued key, period issuedAt = period now

/-- What a call shows as the figure of the month: the figure that is stored or, where its own query
has succeeded, the entry. -/
def ServesMonth (s : State) : Event → Prop
  | .read key now => ShowsMonth s key now
  | .claim _ ask => refusal s.store ask ≠ none → ShowsMonth s ask.key ask.now
  | .finish _ issuedAt (.ok _) => period issuedAt = period s.clock
  | .finish call _ (.unavailable ..) =>
    ∀ query ∈ s.queries.lookup call, ShowsMonth s query.key s.clock
  | _ => True

instance (s : State) (key : Key) (now : Instant) : Decidable (ShowsMonth s key now) := by
  unfold ShowsMonth
  infer_instance

instance (s : State) : (event : Event) → Decidable (ServesMonth s event)
  | .read key now => inferInstanceAs (Decidable (ShowsMonth s key now))
  | .claim _ ask =>
    inferInstanceAs (Decidable (refusal s.store ask ≠ none → ShowsMonth s ask.key ask.now))
  | .finish _ issuedAt (.ok _) => inferInstanceAs (Decidable (period issuedAt = period s.clock))
  | .finish call _ (.unavailable ..) =>
    inferInstanceAs (Decidable (∀ query ∈ s.queries.lookup call,
      ShowsMonth s query.key s.clock))
  | .tick _ | .die _ | .clearCooldowns | .markStale => isTrue trivial

/-- A failed query replaces no figure. -/
def KeepsFigures (s : State) : Event → Prop
  | .finish call issuedAt (.unavailable detail throttled retryAfter) =>
    ∀ after ∈ s.step (.finish call issuedAt (.unavailable detail throttled retryAfter)),
      ∀ key, figure after.store key = figure s.store key
  | _ => True

/-- A query that succeeds is recorded in the month it was issued in. -/
def WithinMonth (s : State) : Event → Prop
  | .finish _ issuedAt (.ok _) => period issuedAt = period s.clock
  | _ => True

/-- Every figure is stamped with the month its query was issued in. -/
def Stamped (s : State) : Prop :=
  ∀ key, ∀ stored ∈ figure s.store key,
    ∃ issuedAt ∈ s.issued key, stored.period = some (period issuedAt)

theorem start_stamped (clock : Instant) : Stamped (.start clock) := by
  intro key stored hstored
  cases hstored

theorem Stamped.shows {s : State} (h : Stamped s) (key : Key) (now : Instant) :
    ShowsMonth s key now := by
  intro hgood
  obtain ⟨shown, hshown, hperiod⟩ := hasGood_figure hgood
  obtain ⟨issuedAt, hissued, hstamp⟩ := h key shown hshown
  exact ⟨issuedAt, hissued, Option.some.inj (hstamp.symm.trans hperiod)⟩

/-- A step that leaves the figures and their origins. -/
theorem Stamped.of_figures {s after : State} (h : Stamped s)
    (hfigures : ∀ key, figure after.store key = figure s.store key)
    (hissued : after.issued = s.issued) : Stamped after := by
  intro key stored hstored
  rw [hfigures] at hstored
  rw [hissued]
  exact h key stored hstored

theorem finish_stamped {s after : State} {call : ℕ} {issuedAt : Instant} {entry : Entry}
    (h : Stamped s) (hmonth : WithinMonth s (.finish call issuedAt entry))
    (hstep : s.step (.finish call issuedAt entry) = some after) : Stamped after := by
  simp only [State.step] at hstep
  split at hstep
  next => cases hstep
  next query hquery =>
    split at hstep
    next => cases hstep
    obtain rfl := Option.some.inj hstep
    intro key stored hstored
    show ∃ before ∈ Function.update s.issued _ _ key, _
    by_cases hsame : key = query.key
    · obtain rfl := hsame
      rw [Function.update_self]
      cases entry with
      | ok json =>
        have hnew := figure_finish_ok s.store query.key json s.clock
        obtain rfl := Option.some.inj (hnew.symm.trans hstored)
        have hmonth : period issuedAt = period s.clock := hmonth
        exact ⟨issuedAt, rfl, congrArg some hmonth.symm⟩
      | unavailable detail throttled retryAfter =>
        exact h _ stored ((figure_finish_unavailable ..).symm.trans hstored)
    · rw [Function.update_of_ne hsame]
      exact h key stored ((s.store.column_put_of_ne hsame _).symm.trans hstored)

theorem step_stamped {s after : State} {event : Event} (h : Stamped s)
    (hmonth : WithinMonth s event) (hstep : s.step event = some after) : Stamped after := by
  cases event with
  | tick time =>
    simp only [State.step] at hstep
    split at hstep
    next =>
      obtain rfl := Option.some.inj hstep
      exact h
    next => cases hstep
  | claim call ask =>
    simp only [State.step] at hstep
    split at hstep
    next => cases hstep
    split at hstep
    · obtain rfl := Option.some.inj hstep
      exact h.of_figures (figure_claim s.store ask) rfl
    · obtain ⟨queries, -, rfl⟩ := Option.map_eq_some_iff.mp hstep
      exact h.of_figures (figure_claim s.store ask) rfl
  | finish call issuedAt entry => exact finish_stamped h hmonth hstep
  | read key now =>
    simp only [State.step] at hstep
    split at hstep
    next => cases hstep
    next =>
      obtain rfl := Option.some.inj hstep
      exact h
  | die call =>
    obtain rfl := Option.some.inj hstep
    exact h
  | clearCooldowns =>
    obtain rfl := Option.some.inj hstep
    exact h.of_figures (column_clearCooldowns (fun _ => rfl) s.store) rfl
  | markStale =>
    obtain rfl := Option.some.inj hstep
    exact h.of_figures (column_markStale (fun _ => rfl) s.store) rfl

theorem keepsFigures (s : State) (event : Event) : KeepsFigures s event := by
  unfold KeepsFigures
  split
  next call issuedAt detail throttled retryAfter =>
    intro after hstep key
    simp only [Option.mem_def, State.step] at hstep
    split at hstep
    next => cases hstep
    split at hstep
    next => cases hstep
    obtain rfl := Option.some.inj hstep
    exact figure_finish_unavailable ..
  next => trivial

theorem servesMonth_iff {s : State} {event : Event} (h : Stamped s) :
    ServesMonth s event ↔ WithinMonth s event := by
  cases event with
  | finish call issuedAt entry =>
    cases entry with
    | ok json => exact Iff.rfl
    | unavailable detail throttled retryAfter =>
      exact ⟨fun _ => trivial, fun _ query _ => h.shows query.key s.clock⟩
  | read key now => exact ⟨fun _ => trivial, fun _ => h.shows key now⟩
  | claim call ask => exact ⟨fun _ => trivial, fun _ _ => h.shows ask.key ask.now⟩
  | _ => exact Iff.rfl

/-- In every run a failed query keeps the figures, and every figure is of the month it is shown for
exactly when no query that succeeds runs over the end of a month. -/
theorem figures_of_their_month_iff (clock : Instant) (events : List Event) :
    costSystem.Along (fun s event => KeepsFigures s event ∧ ServesMonth s event) (.start clock)
        events ↔
      costSystem.Along WithinMonth (.start clock) events := by
  refine costSystem.along_iff (I := Stamped) (fun s event after h hstep => ?_) (start_stamped clock)
  refine ⟨?_, fun hmonth => step_stamped h hmonth hstep⟩
  rw [servesMonth_iff h]
  exact ⟨And.right, fun hmonth => ⟨keepsFigures s event, hmonth⟩⟩

/- The query of the summary is issued on the last evening of September 2026 and recorded after
midnight. -/
def endOfSeptember : Instant := 739889 * Python.dayLength

def rolloverRun : List Event :=
  [.claim 1 ⟨.aws, .summary, "app:7", endOfSeptember - Python.seconds 10, false, true, {}⟩,
   .tick (endOfSeptember + Python.seconds 20),
   .finish 1 (endOfSeptember - Python.seconds 4) (.ok "amount: 4120"),
   .read (.aws, .summary) (endOfSeptember + Python.seconds 20)]

theorem september_shown_in_october :
    ¬costSystem.Along (fun s event => KeepsFigures s event ∧ ServesMonth s event)
      (.start (endOfSeptember - Python.seconds 5)) rolloverRun := by
  intro h
  have hserves := costSystem.along_mono (fun _ _ => And.right) h
  revert hserves
  decide +kernel

end Costs
